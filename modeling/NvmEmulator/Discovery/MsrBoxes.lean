/-
# The MSR boxes of a loaded module

`uncore_cpu_init` makes the MSR boxes without looking at the machine, except that there are
no more C-boxes than cores. What the lists hold after `uncore_init`, what the lookup finds in
them, and that the boxes found can be used at the same time.
-/

import NvmEmulator.Discovery.Balance
import NvmEmulator.Discovery.Channels
import NvmEmulator.Uncore.MsrNode

namespace NvmEmulator.Discovery

open NvmEmulator.Kernel NvmEmulator.Semantics NvmEmulator.Uncore
open NvmEmulator.Emulate (uncoreGetFirstBox)

/-! ## The lists -/

/-- The boxes of an MSR type on a machine. -/
def Host.msrBoxes (host : Host) (type : MsrBoxType) : List UncoreBox :=
  (List.range (host.msrBoxCount type)).map (msrBoxAt type.boxType)

/-- The MSR types are in use, and their lists are as said. -/
structure MsrLists (host : Host) (lists : MsrBoxType → List UncoreBox) (driver : Driver) :
    Prop where
  types : driver.uncoreMsrType = msrTypes
  counts : ∀ type, (driver.msrBoxes type).numBoxes = host.msrBoxCount type
  boxes : ∀ type, (driver.msrBoxes type).boxes = lists type

section Host

variable {host : Host} {lists : MsrBoxType → List UncoreBox}

/-- A new box is appended to the list of its type. -/
theorem MsrLists.addMsrBox {driver : Driver} (here : MsrLists host lists driver)
    (type : MsrBoxType) (idx address : Nat) :
    MsrLists host (Function.update lists type (lists type ++ [msrBoxAt type.boxType idx]))
      (driver.granted.addMsrBox type idx address) := by
  refine ⟨here.types, fun other => ?_, fun other => ?_⟩
  · rw [Driver.addMsrBox, Driver.setMsrBoxList, Driver.setMsrBoxes]
    dsimp only
    by_cases same : other = type
    · subst same
      rw [Function.update_self]
      exact here.counts other
    · rw [Function.update_of_ne same]
      exact here.counts other
  · rw [Driver.addMsrBox, Driver.setMsrBoxList, Driver.setMsrBoxes]
    dsimp only
    by_cases same : other = type
    · subst same
      rw [Function.update_self, Function.update_self, BoxList.boxes, List.map_append,
        ← here.boxes other]
      rfl
    · rw [Function.update_of_ne same, Function.update_of_ne same]
      exact here.boxes other

theorem meets_uncoreMsrNewBox_lists (host : Host) (lists : MsrBoxType → List UncoreBox)
    (type : MsrBoxType) (idx : Nat) :
    Call.Meets (MsrLists host lists) (uncoreMsrNewBox host type idx)
      (MsrLists host (Function.update lists type (lists type ++ [msrBoxAt type.boxType idx])))
      fun _ => True :=
  meets_newObject (fun _ here _ => here.addMsrBox type idx _) fun _ _ _ => trivial

/-- The list of a type that has no boxes yet is filled. -/
theorem meets_uncoreMsrNewBoxes_lists (type : MsrBoxType) (empty : lists type = []) :
    Call.Meets (MsrLists host lists) (uncoreMsrNewBoxes host type)
      (MsrLists host (Function.update lists type (host.msrBoxes type))) fun _ => True := by
  have counted : ∀ driver, MsrLists host lists driver →
      uncoreMsrNewBoxes host type driver =
        Call.each (uncoreMsrNewBox host type) (List.range (host.msrBoxCount type)) driver := by
    intro driver here
    rw [uncoreMsrNewBoxes, here.counts]
  apply Call.Meets.congr _ counted
  have start : MsrLists host lists =
      MsrLists host (Function.update lists type (([] : List Nat).map (msrBoxAt type.boxType))) := by
    rw [List.map_nil, ← empty, Function.update_eq_self]
  rw [start, Host.msrBoxes]
  apply Call.Meets.each fun earlier =>
    MsrLists host (Function.update lists type (earlier.map (msrBoxAt type.boxType)))
  intro earlier idx later _
  have round := meets_uncoreMsrNewBox_lists host
    (Function.update lists type (earlier.map (msrBoxAt type.boxType))) type idx
  rw [Function.update_idem, Function.update_self] at round
  rw [List.map_append]
  exact round

/-- The lists of the types visited so far are filled, the others are empty. -/
def Host.msrBoxesOf (host : Host) (visited : List MsrBoxType) (type : MsrBoxType) :
    List UncoreBox :=
  if type ∈ visited then host.msrBoxes type else []

theorem meets_msrRounds_lists :
    Call.Meets (MsrLists host (host.msrBoxesOf [])) (Call.each (uncoreMsrNewBoxes host) msrTypes)
      (MsrLists host (host.msrBoxesOf msrTypes)) fun _ => True := by
  apply Call.Meets.each fun earlier => MsrLists host (host.msrBoxesOf earlier)
  intro earlier type later split
  have fresh : type ∉ earlier := by
    have nodup := nodup_msrTypes
    rw [split] at nodup
    intro visited
    exact (List.nodup_append.mp nodup).2.2 _ visited _ List.mem_cons_self rfl
  have filled : Function.update (host.msrBoxesOf earlier) type (host.msrBoxes type) =
      host.msrBoxesOf (earlier ++ [type]) := by
    funext other
    by_cases same : other = type
    · subst same
      rw [Function.update_self, Host.msrBoxesOf, if_pos (by simp)]
    · rw [Function.update_of_ne same, Host.msrBoxesOf, Host.msrBoxesOf]
      simp only [List.mem_append, List.mem_singleton, same, or_false]
  rw [← filled]
  exact meets_uncoreMsrNewBoxes_lists type (if_neg fresh)

theorem meets_uncoreCpuInit_lists :
    Call.Meets PciFrame (uncoreCpuInit host) (MsrLists host (host.msrBoxesOf msrTypes))
      fun _ => True := by
  have empty : host.msrBoxesOf [] = fun _ => [] := rfl
  apply Call.Meets.andThen fun driver => MsrLists host (host.msrBoxesOf []) driver ∧
    MsrClosed driver
  · split
    · apply Call.Meets.act
      intro driver frame
      have closed := boxList_hswepCpuInit host frame.2.2.1
      refine ⟨⟨rfl, numBoxes_hswepCpuInit host frame.2.2.2, fun type => ?_⟩, closed⟩
      rw [empty, BoxList.boxes, closed type]
      rfl
    · exact .fail (by decide) fun _ _ => trivial
  · apply Call.Meets.andThen (MsrLists host (host.msrBoxesOf []))
    · apply Call.Meets.act
      intro driver here
      rw [uncoreMsrTypesInit_of_closed here.2]
      exact here.1
    · apply Call.Meets.onError (fun _ => True) _ fun _ _ => trivial
      apply Call.Meets.congr meets_msrRounds_lists
      intro driver here
      rw [here.types]

/-- The memory channels are found beside the MSR boxes. -/
theorem meets_uncoreImcInit_lists :
    Call.Meets (MsrLists host lists) (uncoreImcInit host) (MsrLists host lists)
      fun _ => True := by
  apply Call.Meets.andThen (MsrLists host lists)
  · split
    · exact .ret
    · exact .fail (by decide) fun _ _ => trivial
  · rw [each_uncoreImcVisitAll]
    apply Call.Meets.onError (fun _ => True) _ fun _ _ => trivial
    apply Call.Meets.loop
    rintro ⟨ids, pdev⟩ _
    apply Call.Meets.andThen (MsrLists host lists)
    · exact .act fun driver here => ⟨here.types, here.counts, here.boxes⟩
    apply Call.Meets.andThen (MsrLists host lists)
    · have round : uncoreImcVisit host pdev =
          (Call.act (Driver.getDevice pdev)).andThen (uncoreImcNewDevice host pdev) := rfl
      rw [round]
      apply Call.Meets.andThen (MsrLists host lists)
      · exact .act fun driver here => ⟨here.types, here.counts, here.boxes⟩
      exact meets_newObject (fun driver here _ => ⟨here.types, here.counts, here.boxes⟩)
        fun _ _ _ => trivial
    · exact .act fun driver here => ⟨here.types, here.counts, here.boxes⟩

/-- After a successful `uncore_init` the lists of all MSR types are filled. -/
theorem meets_uncoreInit_lists (krefs : PciDev → Int) :
    Call.Meets (Unused krefs) (uncoreInit host) (MsrLists host (host.msrBoxesOf msrTypes))
      fun _ => True := by
  apply Call.Meets.onError (fun _ => True) _ fun _ _ => trivial
  apply Call.Meets.andThen PciFrame
  · exact meets_uncorePciInit_account.imp (fun _ start => start) (fun _ done => done.2.2)
      fun _ _ => trivial
  · apply Call.Meets.onError (fun _ => True) _ fun _ _ => trivial
    apply meets_uncoreCpuInit_lists.andThen
    apply Call.Meets.onError (fun _ => True) _ fun _ _ => trivial
    apply meets_uncoreImcInit_lists.andThen
    rw [uncoreProcCreate]
    split
    · exact .ret
    · exact .fail (by decide) fun _ _ => trivial

end Host

/-! ## Looking an MSR box up -/

/-- The lookup finds the boxes of node 0 by their position, and none on any other node. -/
structure MsrLooksUp (host : Host) (driver : Driver) : Prop where
  getBox : ∀ type idx nodeid, uncoreGetBox (driver.msrBoxes type).boxes idx nodeid =
    if nodeid = 0 ∧ idx < host.msrBoxCount type then some (msrBoxAt type.boxType idx) else none
  getFirstBox : ∀ type nodeid, uncoreGetFirstBox (driver.msrBoxes type).boxes nodeid =
    if nodeid = 0 ∧ 0 < host.msrBoxCount type then some (msrBoxAt type.boxType 0) else none

theorem find_msrBoxAt (type : UncoreBoxType) (count idx : Nat) :
    ((List.range count).map (msrBoxAt type)).find? (fun box => box.idx = idx ∧ box.nodeid = 0) =
      if idx < count then some (msrBoxAt type idx) else none := by
  induction count with
  | zero => rfl
  | succ count ih =>
      rw [List.range_succ, List.map_append, List.find?_append, ih]
      by_cases below : idx < count
      · rw [if_pos below, if_pos (Nat.lt_succ_of_lt below)]
        rfl
      · rw [if_neg below]
        by_cases last : idx = count
        · subst last
          rw [if_pos (Nat.lt_succ_self idx)]
          simp [msrBoxAt]
        · rw [if_neg (by omega)]
          simp [msrBoxAt, Ne.symm last]

theorem find_msrBoxAt_first (type : UncoreBoxType) (count : Nat) :
    ((List.range count).map (msrBoxAt type)).find? (fun box => box.nodeid = 0) =
      if 0 < count then some (msrBoxAt type 0) else none := by
  cases count with
  | zero => rfl
  | succ count =>
      rw [List.range_succ_eq_map, List.map_cons, if_pos (Nat.succ_pos count)]
      rfl

/-- What `uncore_init` puts on the list of a type. -/
theorem uncoreInit_msrBoxes {host : Host} {krefs : PciDev → Int}
    (success : (uncoreInit host (Driver.loaded krefs)).1 = 0) (type : MsrBoxType) :
    ((uncoreInit host (Driver.loaded krefs)).2.msrBoxes type).boxes = host.msrBoxes type := by
  have lists := (meets_uncoreInit_lists krefs).done (unused_loaded krefs) success
  rw [lists.boxes, Host.msrBoxesOf, if_pos (mem_msrTypes type)]

/-- After a successful `uncore_init`, `uncore_get_box` finds on node 0 the boxes of an MSR type
up to the number of the type, no more C-boxes than cores among them, and none on any other
node. -/
theorem msrLooksUp_uncoreInit (host : Host) (krefs : PciDev → Int)
    (success : (uncoreInit host (Driver.loaded krefs)).1 = 0) :
    MsrLooksUp host (uncoreInit host (Driver.loaded krefs)).2 := by
  have other : ∀ type (nodeid : Nat), nodeid ≠ 0 → ∀ box ∈ host.msrBoxes type,
      ¬ box.nodeid = nodeid := by
    intro type nodeid elsewhere box mem here
    obtain ⟨idx, -, rfl⟩ := List.mem_map.mp mem
    exact elsewhere here.symm
  constructor
  · intro type idx nodeid
    rw [uncoreInit_msrBoxes success, uncoreGetBox]
    by_cases here : nodeid = 0
    · subst here
      rw [if_neg (by decide), Host.msrBoxes, find_msrBoxAt]
      simp only [true_and]
    · rw [if_neg fun found : nodeid = 0 ∧ _ => here found.1]
      split
      · rfl
      · apply List.find?_eq_none.mpr
        intro box mem
        simpa using fun _ => other type nodeid here box mem
  · intro type nodeid
    rw [uncoreInit_msrBoxes success, uncoreGetFirstBox]
    by_cases here : nodeid = 0
    · subst here
      rw [if_neg (by decide), Host.msrBoxes, find_msrBoxAt_first]
      simp only [true_and]
    · rw [if_neg fun found : nodeid = 0 ∧ _ => here found.1]
      split
      · rfl
      · apply List.find?_eq_none.mpr
        intro box mem
        simpa using other type nodeid here box mem

/-- A machine of two cores has two C-boxes. -/
theorem msrLooksUp_socket :
    MsrLooksUp (socketHost 0x2FB4 fun _ => true)
      (uncoreInit (socketHost 0x2FB4 fun _ => true) (Driver.loaded fun _ => 1)).2 :=
  msrLooksUp_uncoreInit (socketHost 0x2FB4 fun _ => true) (fun _ => 1) (by decide +kernel)

/-! ## Using them at the same time -/

/-- The boxes of all MSR types in use. -/
def Driver.msrBoxesInUse (driver : Driver) : List UncoreBox :=
  driver.uncoreMsrType.flatMap fun type => (driver.msrBoxes type).boxes

/-- The boxes of a loaded module are boxes that the types provide for. -/
theorem mem_hswepMsrBoxes {host : Host} {krefs : PciDev → Int}
    (success : (uncoreInit host (Driver.loaded krefs)).1 = 0) {box : UncoreBox}
    (mem : box ∈ (uncoreInit host (Driver.loaded krefs)).2.msrBoxesInUse) :
    box ∈ hswepMsrBoxes := by
  obtain ⟨type, -, here⟩ := List.mem_flatMap.mp mem
  rw [uncoreInit_msrBoxes success] at here
  obtain ⟨idx, below, rfl⟩ := List.mem_map.mp here
  have provided : host.msrBoxCount type ≤ type.boxType.numBoxes := by
    rw [Host.msrBoxCount]
    split
    · exact Nat.min_le_left _ _
    · exact Nat.le_refl _
  have known : type.boxType ∈ hswepUncoreMsrType := by cases type <;> decide
  refine List.mem_flatMap.mpr ⟨type.boxType, known, List.mem_map.mpr ⟨idx, ?_, rfl⟩⟩
  exact List.mem_range.mpr (Nat.lt_of_lt_of_le (List.mem_range.mp below) provided)

/-- Every MSR box of a loaded module is used by a thread of its own, all at once and with any
operations that write, while the counters count. Whenever a thread has finished, the control
and the event select of its box are what its operations leave when no other thread runs. -/
theorem boxesApart_of_reaches (host : Host) (krefs : PciDev → Int)
    (success : (uncoreInit host (Driver.loaded krefs)).1 = 0)
    {operations : UncoreBox → List BoxOperation} {regs : RegFile 64}
    {pool : Pool {box : UncoreBox //
      box ∈ (uncoreInit host (Driver.loaded krefs)).2.msrBoxesInUse} (RegOp 64) RegOp.Res
        (RegFile 64)}
    (reaches : Pool.Reaches (msrNode (uncoreInit host (Driver.loaded krefs)).2.msrBoxesInUse)
      (KeepsControls (uncoreInit host (Driver.loaded krefs)).2.msrBoxesInUse)
      Isolation.noLaunch ⟨boxThreads operations, regs⟩ pool) :
    ∀ thread, pool.threads thread = .ret () → ∀ addr ∈ msrControls thread.val,
      pool.state addr = ((boxThreads operations thread).run
        (msrNode (uncoreInit host (Driver.loaded krefs)).2.msrBoxesInUse).exec regs).2 addr :=
  fun thread finished _ control => controls_of_reaches
    (fun _ mem => mem_hswepMsrBoxes success mem) reaches thread finished control

/-! ### Two boxes of a machine -/

/-- The boxes found on the socket of `socketHost`. -/
abbrev socketBoxes : List UncoreBox :=
  (uncoreInit (socketHost 0x2FB4 fun _ => true) (Driver.loaded fun _ => 1)).2.msrBoxesInUse

theorem pcubox_mem_socketBoxes : msrBoxAt hswepUncorePcubox 0 ∈ socketBoxes := by
  decide +kernel

theorem sbox_mem_socketBoxes : msrBoxAt hswepUncoreSbox 1 ∈ socketBoxes := by
  decide +kernel

/-- The thread of the power control unit. -/
def pcuThread : {box : UncoreBox // box ∈ socketBoxes} := ⟨_, pcubox_mem_socketBoxes⟩

/-- The thread of the second S-box. -/
def sboxThread : {box : UncoreBox // box ∈ socketBoxes} := ⟨_, sbox_mem_socketBoxes⟩

theorem pcuThread_ne_sboxThread : pcuThread ≠ sboxThread := by
  intro same
  have types := congrArg (fun thread => thread.val.boxType.perfCtl) same
  exact absurd types (by decide)

/-- A thread can run to its end while the others wait. -/
theorem reaches_finished {boxes : List UncoreBox}
    (pool : Pool {box : UncoreBox // box ∈ boxes} (RegOp 64) RegOp.Res (RegFile 64))
    (thread : {box : UncoreBox // box ∈ boxes}) :
    Pool.Reaches (msrNode boxes) (KeepsControls boxes) Isolation.noLaunch pool
      ⟨Function.update pool.threads thread (.ret ()),
        ((pool.threads thread).run (msrNode boxes).exec pool.state).2⟩ :=
  Pool.reaches_of_thread pool thread (reaches_run (.of_forall (fun _ _ => trivial) _) pool.state)

/-- The S-box measures first, and the power control unit is programmed as if it had not. -/
theorem boxesApart_socket :
    ((boxThreads (fun _ => [.initBox, .enableEvent haRequestsRemoteReads, .enableBox])
        pcuThread).run (msrNode socketBoxes).exec
      ((boxThreads (fun _ => [.initBox, .enableEvent haRequestsRemoteReads, .enableBox])
        sboxThread).run (msrNode socketBoxes).exec fun _ => 0x100).2).2 0x711 =
    ((boxThreads (fun _ => [.initBox, .enableEvent haRequestsRemoteReads, .enableBox])
        pcuThread).run (msrNode socketBoxes).exec fun _ => 0x100).2 0x711 := by
  let start : Pool {box : UncoreBox // box ∈ socketBoxes} (RegOp 64) RegOp.Res (RegFile 64) :=
    ⟨boxThreads fun _ => [.initBox, .enableEvent haRequestsRemoteReads, .enableBox],
      fun _ => 0x100⟩
  have first := reaches_finished start sboxThread
  have both := Relation.ReflTransGen.trans first (reaches_finished _ pcuThread)
  have finished : Function.update (Function.update start.threads sboxThread (.ret ())) pcuThread
      (.ret ()) pcuThread = .ret () := Function.update_self _ _ _
  have left := boxesApart_of_reaches (socketHost 0x2FB4 fun _ => true) (fun _ => 1)
    (by decide +kernel) both pcuThread finished 0x711 (by decide)
  dsimp only at left
  rwa [Function.update_of_ne pcuThread_ne_sboxThread] at left

end NvmEmulator.Discovery
