/-
# The order of writes

Any number of tasks write to `/proc/uncore_pmu` of a loaded module, at the same time. A
write that is not refused at once takes `uncore_proc_mutex`, and programs the controllers of
nodes 0 and 1 one register at a time. The mutex makes the writes take effect one after the
other: whenever it is free, `bw_ratio` and the registers are what the last accepted write
asked for, in the order in which the mutex was taken.
-/

import NvmEmulator.Semantics.Mutex
import NvmEmulator.Emulate.Bandwidth
import NvmEmulator.Emulate.Ratio

namespace NvmEmulator.Emulate

open Relation NvmEmulator.Kernel NvmEmulator.Semantics NvmEmulator.Uncore

/-! ## The protected part -/

/-- What `uncore_proc_mutex` protects: the controllers and `bw_ratio`. -/
abbrev RatioPart := ImcBank × Int

/-- The protected part of a world. -/
def World.ratioPart (world : World) : RatioPart := (world.imc, world.globals.bwRatio)

/-- The world with another protected part. -/
def World.withRatioPart (world : World) (part : RatioPart) : World :=
  { world with imc := part.1, globals := { world.globals with bwRatio := part.2 } }

/-- The accesses of a write: to a controller, and the assignment of `bw_ratio`. -/
inductive RatioAccess : UncoreOp → Prop
  | imc (pdev : PciDev) (op : RegOp 16) : RatioAccess (.imc pdev op)
  | assign (ratio : Int) : RatioAccess (.assign fun state => { state with bwRatio := ratio })

section

variable (machine : Machine)

/-- An access as the protected part sees it, the rest of the world being as in `base`. -/
def ratioAct (base : World) (op : UncoreOp) (part : RatioPart) : op.Res × RatioPart :=
  ((machine.exec op (base.withRatioPart part)).1,
    (machine.exec op (base.withRatioPart part)).2.ratioPart)

/-- An access of a write sees of the world, and changes, the protected part only. -/
theorem RatioAccess.acts {op : UncoreOp} (access : RatioAccess op) (base world : World) :
    (machine.exec op world).2.mutex = world.mutex ∧
      (machine.exec op world).1 = (ratioAct machine base op world.ratioPart).1 ∧
      (machine.exec op world).2.ratioPart = (ratioAct machine base op world.ratioPart).2 := by
  cases access with
  | imc pdev op => exact ⟨rfl, rfl, rfl⟩
  | assign ratio => exact ⟨rfl, rfl, rfl⟩

/-- Who takes the mutex with an access. -/
def lockerOf : UncoreOp → Option Nat
  | .mutexLock task => some task
  | _ => none

theorem RatioAccess.lockerOf {op : UncoreOp} (access : RatioAccess op) : lockerOf op = none := by
  cases access with
  | imc pdev op => rfl
  | assign ratio => rfl

/-- `uncore_proc_mutex` -/
def uncoreProcMutex (base : World) : Mutex machine.device Nat RatioPart where
  view := World.ratioPart
  act := ratioAct machine base
  holder := World.mutex
  lock task := .mutexLock task
  unlock := .mutexUnlock
  inside := RatioAccess
  locker := lockerOf
  locker_lock _ := rfl
  locker_unlock := rfl
  locker_inside _ access := access.lockerOf
  lock_ready _ _ free := free
  lock_holder _ _ := rfl
  lock_view _ _ := rfl
  unlock_holder _ := rfl
  unlock_view _ := rfl
  inside_holder _ access world := (access.acts machine base world).1
  inside_answer _ access world := (access.acts machine base world).2.1
  inside_view _ access world := (access.acts machine base world).2.2

/-! ## The system -/

/-- The writers of the file, and the order in which they took the mutex. -/
abbrev WriterPool := Pool Nat UncoreOp UncoreOp.Res (World × List Nat)

/-- The machine with the order in which the mutex is taken. -/
def orderedDevice : Device UncoreOp UncoreOp.Res (World × List Nat) :=
  machine.device.observe fun op _ order =>
    match lockerOf op with
    | some task => order ++ [task]
    | none => order

/-- An idle task begins its write. -/
inductive BeginsWrite (requests : Nat → ProcWrite) :
    WriterPool → Nat → UncoreProgram Unit → World × List Nat → Prop
  | write {pool : WriterPool} {task : Nat} (idle : pool.threads task = .ret ()) :
      BeginsWrite requests pool task (writeTask machine task (requests task)) pool.state

/-- Anything else that happens leaves the protocol alone. -/
def Unrelated (before after : World × List Nat) : Prop :=
  Elsewhere before.1 after.1 ∧ after.2 = before.2

/-- The module is loaded, and nobody writes yet. -/
def noWriters (world : World) : WriterPool := ⟨fun _ => .ret (), world, []⟩

/-- The ratio the last accepted write of an order asked for. -/
def lastRatio (requests : Nat → ProcWrite) (order : List Nat) : Option Nat :=
  (order.filterMap fun task => ratioAsked (requests task)).getLast?

/-- The controllers a write programs. -/
def nearControllers : Set PciDev :=
  channelsOf machine.imcDevices.list 0 ∪ channelsOf machine.imcDevices.list 1

/-- A world that shows a ratio and has it in every register a write programs: the enable bit
of a word is kept, its other bits are the ratio's, and no other word is touched. -/
structure ProgrammedOver (ratio : Nat) (before after : World) : Prop where
  shown : after.globals.bwRatio = ratio
  words : Rewrites (fun pdev world => world.imc pdev) (limitTo ratio) (nearControllers machine)
    before after

/-- What writes leave of a world is decided by the last ratio that was accepted. -/
def SettledBy : Option Nat → World → World → Prop
  | some ratio => ProgrammedOver machine ratio
  | none => fun before after => after.ratioPart = before.ratioPart

end

variable {machine : Machine}

/-! ## The section of a write -/

/-- `uncore_proc_write` between taking and giving back the mutex. -/
def writeSection (machine : Machine) (request : ProcWrite) : UncoreProgram Int :=
  if request.count ≠ 2 ∨ request.offs ≠ 0 then pure (-einval)
  else
    match request.buf with
    | none => pure (-efault)
    | some ctl => switchBandwidth machine ctl.1 request.count

/-- A write is its section in the mutex, or is refused before. -/
theorem writeTask_outside (base : World) (task : Nat) (request : ProcWrite) :
    writeTask machine task request = .ret () ∨
      writeTask machine task request =
        (uncoreProcMutex machine base).locked task (writeSection machine request) := by
  rw [writeTask, uncoreProcWrite, writeSection]
  by_cases refused : request.count ≠ 2 ∨ request.offs ≠ 0
  · rw [if_pos refused]
    exact Or.inl rfl
  · rw [if_neg refused, if_neg refused]
    cases request.buf with
    | none => exact Or.inl rfl
    | some ctl =>
        refine Or.inr ?_
        show Program.access _ _ = Program.access _ _
        congr 1
        funext _
        show ((switchBandwidth machine ctl.1 request.count).bind _).bind _ = _
        rw [Program.bind_assoc]
        rfl

/-- The section makes accesses to the protected part only. -/
theorem writeSection_inside (request : ProcWrite) :
    (writeSection machine request).Makes RatioAccess := by
  have closed : Program.Closed fun α (program : UncoreProgram α) =>
      program.Makes RatioAccess := Program.Makes.closed _
  have sets : ∀ nodeid ratio, (uncoreImcSetThreshold uncoreImcOps machine.imcDevices.list nodeid
      ratio).Makes RatioAccess :=
    fun _ _ => closed_uncoreImcSetThreshold closed fun pdev =>
      makes_hoist_onImc (fun op => .imc pdev op) _
  rw [writeSection]
  split
  · trivial
  · split
    · trivial
    · rw [switchBandwidth]
      split
      · refine Program.Makes.bind ⟨.assign _, fun _ => ?_⟩ fun _ => trivial
        exact (sets 0 _).bind fun _ => (sets 1 _).bind fun _ => trivial
      · trivial

/-! ## What a section does alone -/

section Alone

variable {base : World}

/-- A controller's method runs on the controller's own words. -/
theorem run_hoist_ratioAct {α : Type} (program : RegProgram 16 α) (pdev : PciDev)
    (part : RatioPart) :
    (program.hoist (onImc pdev)).run (ratioAct machine base) part =
      ((program.run RegFile.exec (part.1 pdev)).1,
        (Function.update part.1 pdev (program.run RegFile.exec (part.1 pdev)).2, part.2)) := by
  apply Program.run_hoist (fun part : RatioPart => part.1 pdev)
    (fun part regs => (Function.update part.1 pdev regs, part.2))
  · intro op part
    rfl
  · intro part regs
    exact Function.update_self _ _ _
  · intro part
    simp only [Function.update_eq_self]
  · intro part first second
    simp only [Function.update_idem]

/-- The controllers in the protected part, as the walks see them. -/
theorem hswep_partWords :
    RewritesWords (ratioAct machine base) uncoreImcOps fun pdev part => part.1 pdev := by
  apply hswep_rewritesWords
  · intro α program pdev part
    rw [run_hoist_ratioAct]
  · intro α program pdev part
    rw [run_hoist_ratioAct]
    exact Function.update_self _ _ _
  · intro α program pdev part other apart
    rw [run_hoist_ratioAct]
    exact Function.update_of_ne apart _ _

/-- `uncore_imc_set_threshold` on one of the two nodes: where the node has no controller
there is nothing to rewrite. -/
theorem rewrites_setThreshold (machine : Machine) (base : World) {nodeid : Nat}
    (bound : nodeid ≤ uncoreMaxSocket) (ratio : Nat) (part : RatioPart) :
    Rewrites (fun pdev (part : RatioPart) => part.1 pdev) (limitTo ratio)
      (channelsOf machine.imcDevices.list nodeid) part
      ((uncoreImcSetThreshold uncoreImcOps machine.imcDevices.list nodeid ratio).run
        (ratioAct machine base) part).2 := by
  have attempt : Attempt (ratioAct machine base) _ (limitTo ratio)
      (channelsOf machine.imcDevices.list) _ _ nodeid :=
    hswep_partWords.attempt_setThreshold ratio nodeid
  cases serves : served machine.imcDevices.list nodeid with
  | true => exact attempt.done part serves
  | false =>
      have none : channelsOf machine.imcDevices.list nodeid = ∅ := by
        by_contra some
        obtain ⟨pdev, mem⟩ := Set.nonempty_iff_ne_empty.mpr some
        have takes := served_iff.mpr ⟨bound, List.ne_nil_of_mem mem⟩
        exact absurd (takes.symm.trans serves) (by decide)
      rw [none]
      exact attempt.untouched part serves

/-- It leaves `bw_ratio` alone. -/
theorem ratio_setThreshold (nodeid ratio : Nat) (part : RatioPart) :
    ((uncoreImcSetThreshold uncoreImcOps machine.imcDevices.list nodeid ratio).run
      (ratioAct machine base) part).2.2 = part.2 := by
  let controller : UncoreOp → Prop := fun op => ∃ pdev reg, op = .imc pdev reg
  have makes : (uncoreImcSetThreshold uncoreImcOps machine.imcDevices.list nodeid ratio).Makes
      controller :=
    closed_uncoreImcSetThreshold (Program.Makes.closed controller) fun pdev =>
      makes_hoist_onImc (fun op => ⟨pdev, op, rfl⟩) _
  let kept : RatioPart → Prop := fun later => later.2 = part.2
  have keeps : ∀ op, controller op → ∀ later, kept later →
      kept (ratioAct machine base op later).2 := by
    rintro _ ⟨pdev, reg, rfl⟩ later same
    exact same
  have start : kept part := rfl
  exact makes.run keeps start

/-- Setting a threshold again forgets the one before. -/
theorem limitTo_limitTo (ratio earlier : Nat) (regs : RegFile 16) :
    limitTo ratio (limitTo earlier regs) = limitTo ratio regs := by
  funext addr
  by_cases dimm : addr ∈ dimmOffsets
  · have apart : thrtPwr earlier &&& (1#16 <<< 15) = 0#16 := by
      unfold thrtPwr
      split
      · decide
      · decide
      · decide
    rw [limitTo, limitTo, rewriteDimms_of_mem dimm, rewriteDimms_of_mem dimm,
      rewriteDimms_of_mem dimm]
    simp only [ImcCall.rewrite]
    rw [BitVec.and_or_distrib_right, apart, BitVec.and_assoc, BitVec.and_self, BitVec.or_zero]
  · rw [limitTo, limitTo, rewriteDimms_of_notMem dimm, rewriteDimms_of_notMem dimm,
      rewriteDimms_of_notMem dimm]

/-- A case of the `switch`. -/
theorem run_setBandwidth (ratio : Nat) (part : RatioPart) :
    ((setBandwidth machine ratio).run (ratioAct machine base) part).2.2 = ratio ∧
      Rewrites (fun pdev (part : RatioPart) => part.1 pdev) (limitTo ratio)
        (nearControllers machine) part
        ((setBandwidth machine ratio).run (ratioAct machine base) part).2 := by
  let first := (uncoreImcSetThreshold uncoreImcOps machine.imcDevices.list 0 ratio).run
    (ratioAct machine base) (part.1, (ratio : Int))
  let second := (uncoreImcSetThreshold uncoreImcOps machine.imcDevices.list 1 ratio).run
    (ratioAct machine base) first.2
  have runs : ((setBandwidth machine ratio).run (ratioAct machine base) part).2 = second.2 := by
    rw [setBandwidth]
    simp only [Program.bind_eq, Program.run_bind]
    rfl
  have zero := rewrites_setThreshold machine base (by decide : 0 ≤ uncoreMaxSocket) ratio
    (part.1, (ratio : Int))
  have one := rewrites_setThreshold machine base (by decide : 1 ≤ uncoreMaxSocket) ratio first.2
  rw [runs]
  refine ⟨?_, ?_⟩
  · exact (ratio_setThreshold 1 ratio first.2).trans (ratio_setThreshold 0 ratio _)
  · have both := zero.trans (limitTo_idem ratio) one
    exact ⟨both.inside, both.outside⟩

/-- What writes leave of the protected part. -/
def PartSettled (machine : Machine) : Option Nat → RatioPart → RatioPart → Prop
  | some ratio => fun before after => after.2 = ratio ∧
      Rewrites (fun pdev (part : RatioPart) => part.1 pdev) (limitTo ratio)
        (nearControllers machine) before after
  | none => fun before after => after = before

/-- A later accepted write hides the earlier ones. -/
theorem PartSettled.trans {earlier later : Option Nat} {before middle after : RatioPart}
    (first : PartSettled machine earlier before middle)
    (second : PartSettled machine later middle after) :
    PartSettled machine (later.or earlier) before after := by
  cases later with
  | none =>
      have same : after = middle := second
      rw [Option.none_or, same]
      exact first
  | some ratio =>
      rw [Option.some_or]
      cases earlier with
      | none =>
          have same : middle = before := first
          rw [← same]
          exact second
      | some old =>
          have hides : (fun regs => limitTo ratio (limitTo old regs)) = limitTo ratio :=
            funext (limitTo_limitTo ratio old)
          have both := first.2.comp second.2
          rw [hides] at both
          exact ⟨second.1, both⟩

/-- A section does what its request asks for, or nothing. -/
theorem run_writeSection (base : World) (request : ProcWrite) (part : RatioPart) :
    PartSettled machine (ratioAsked request) part
      ((writeSection machine request).run (ratioAct machine base) part).2 := by
  rw [writeSection, ratioAsked]
  by_cases refused : request.count ≠ 2 ∨ request.offs ≠ 0
  · rw [if_pos refused, if_pos refused]
    rfl
  · rw [if_neg refused, if_neg refused]
    cases request.buf with
    | none => rfl
    | some ctl =>
        rw [Option.bind_some]
        dsimp only
        cases asked : ratioOf ctl.1 with
        | none =>
            rw [switchBandwidth, asked]
            rfl
        | some ratio =>
            rw [switchBandwidth, asked]
            dsimp only
            rw [Program.bind_eq, Program.run_bind]
            exact run_setBandwidth ratio part

theorem lastRatio_append (requests : Nat → ProcWrite) (order : List Nat) (task : Nat) :
    lastRatio requests (order ++ [task]) =
      (ratioAsked (requests task)).or (lastRatio requests order) := by
  rw [lastRatio, List.filterMap_append]
  cases asked : ratioAsked (requests task) with
  | none => simp [asked, lastRatio]
  | some ratio => simp [asked]

/-- The sections of an order, one after the other, leave what the last accepted one asks
for. -/
theorem serial_settled (machine : Machine) (base : World) (requests : Nat → ProcWrite)
    (order : List Nat) (part : RatioPart) :
    PartSettled machine (lastRatio requests order) part
      ((uncoreProcMutex machine base).serial
        (fun task => writeSection machine (requests task)) order part) := by
  induction order using List.reverseRecOn with
  | nil => exact rfl
  | append_singleton order task ih =>
      rw [lastRatio_append, Mutex.serial_append]
      exact ih.trans (run_writeSection base (requests task) _)

end Alone

/-! ## Whole runs -/

/-- The order is the log of the mutex. -/
theorem orderedDevice_eq (base : World) :
    orderedDevice machine = (uncoreProcMutex machine base).logged := by
  have note : (fun (op : UncoreOp) (_ : op.Res) (order : List Nat) =>
      match lockerOf op with
      | some task => order ++ [task]
      | none => order) = (uncoreProcMutex machine base).note := by
    funext op _ order
    have same : (uncoreProcMutex machine base).locker op = lockerOf op := rfl
    rw [Mutex.note, same]
    cases lockerOf op with
    | none => rfl
    | some task => rfl
  rw [orderedDevice, Mutex.logged, note]

/-- The pool of the writers is a pool of sections. -/
theorem sections_of_reaches (base : World) {requests : Nat → ProcWrite} {before after : WriterPool}
    (reaches : Pool.Reaches (orderedDevice machine) Unrelated (BeginsWrite machine requests) before
      after) :
    Pool.Reaches (uncoreProcMutex machine base).logged (uncoreProcMutex machine base).Aside
      ((uncoreProcMutex machine base).Begins fun task => writeSection machine (requests task))
      before after := by
  rw [orderedDevice_eq base] at reaches
  induction reaches with
  | refl => exact .refl
  | tail _ step ih =>
      apply ih.tail
      cases step with
      | environment moves =>
          refine .environment ⟨?_, moves.1.mutex, moves.2⟩
          exact Prod.ext moves.1.imc moves.1.bwRatio
      | access here ready => exact .access here ready
      | launch launches =>
          cases launches with
          | write idle =>
              rcases writeTask_outside base _ (requests _) with refused | locks
              · rw [refused]
                exact .launch (.nothing idle)
              · rw [locks]
                exact .launch (.locks idle)

/-- Writes take effect one after the other: whenever the mutex is free, the ratio shown and
the registers are what the last accepted write asked for, in the order in which the mutex was
taken; before the first accepted write they are as they were. -/
theorem settled_of_reaches {world : World} (free : world.mutex = none)
    (requests : Nat → ProcWrite) {pool : WriterPool}
    (reaches : Pool.Reaches (orderedDevice machine) Unrelated (BeginsWrite machine requests)
      (noWriters world) pool)
    (released : pool.state.1.mutex = none) :
    SettledBy machine (lastRatio requests pool.state.2) world pool.state.1 := by
  have serial := Mutex.serial_of_reaches (fun task => writeSection_inside (requests task)) free
    (sections_of_reaches world reaches) released
  have settled := serial_settled machine world requests pool.state.2 world.ratioPart
  have view : pool.state.1.ratioPart = (uncoreProcMutex machine world).serial
      (fun task => writeSection machine (requests task)) pool.state.2 world.ratioPart := serial
  rw [← view] at settled
  cases last : lastRatio requests pool.state.2 with
  | none =>
      rw [last] at settled
      exact settled
  | some ratio =>
      rw [last] at settled
      exact ⟨settled.1, ⟨settled.2.inside, settled.2.outside⟩⟩

/-! ### Two writes -/

/-- `echo 2`, and from every other task `echo 4`. -/
def twoThenFour (task : Nat) : ProcWrite :=
  if task = 0 then writeTwo else ⟨2, 0, some (0x34, 0x0a)⟩

/-- The world and the order after a write that nothing interrupts. -/
def afterWrite (task : Nat) (state : World × List Nat) : World × List Nat :=
  ((writeTask twoChannels task (twoThenFour task)).run (orderedDevice twoChannels).exec state).2

/-- A write that finds the mutex free can run to its end. -/
theorem afterWrite_completes (task : Nat) {state : World × List Nat}
    (free : state.1.mutex = none) :
    Completes (orderedDevice twoChannels) Unrelated
      (writeTask twoChannels task (twoThenFour task)) state () (afterWrite task state) := by
  let ready : UncoreOp → Prop := fun op =>
    ∀ state, (orderedDevice twoChannels).ready op state
  have accesses : ∀ op, RatioAccess op → ready op := by
    rintro _ (⟨pdev, op⟩ | ⟨ratio⟩) state
    · trivial
    · trivial
  rw [afterWrite]
  rcases writeTask_outside state.1 task (twoThenFour task) with refused | locks
  · rw [refused]
    exact .refl
  · have rest : ((uncoreProcMutex twoChannels state.1).closing
        (writeSection twoChannels (twoThenFour task))).Makes ready :=
      ((writeSection_inside _).mono accesses).bind fun _ => ⟨fun _ => trivial, fun _ => trivial⟩
    rw [locks]
    exact ReflTransGen.head (.access free) (reaches_run rest _)

theorem programmedOver_twoThenFour :
    ProgrammedOver twoChannels 4 quietWorld (afterWrite 1 (afterWrite 0 (quietWorld, []))).1 := by
  let begins := BeginsWrite twoChannels twoThenFour
  have free : (afterWrite 0 (quietWorld, [])).1.mutex = none := by decide +kernel
  have released : (afterWrite 1 (afterWrite 0 (quietWorld, []))).1.mutex = none := by
    decide +kernel
  have last : lastRatio twoThenFour (afterWrite 1 (afterWrite 0 (quietWorld, []))).2 = some 4 := by
    decide +kernel
  have first : Pool.Reaches (orderedDevice twoChannels) Unrelated begins (noWriters quietWorld)
      ⟨fun _ => .ret (), afterWrite 0 (quietWorld, [])⟩ :=
    Pool.reaches_of_launch rfl (.write rfl) (afterWrite_completes 0 rfl)
  have second : Pool.Reaches (orderedDevice twoChannels) Unrelated begins
      ⟨fun _ => .ret (), afterWrite 0 (quietWorld, [])⟩
      ⟨fun _ => .ret (), afterWrite 1 (afterWrite 0 (quietWorld, []))⟩ :=
    Pool.reaches_of_launch rfl (.write rfl) (afterWrite_completes 1 free)
  have settled := settled_of_reaches rfl twoThenFour (first.trans second) released
  rw [last] at settled
  exact settled

end NvmEmulator.Emulate
