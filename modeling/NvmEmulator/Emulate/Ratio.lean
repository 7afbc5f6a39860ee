/-
# The ratio that is shown and the ratio there is

`start_emulate_bandwidth` programs ratio 1 on every online node without telling
`bw_ratio` and without the mutex of `/proc/uncore_pmu`, so a write of another ratio
that comes before it, or in between its register accesses, is lost while the file
still shows it. Once both home agents have been found, the start makes no more access
to a memory controller. If other ratios are only written from then on, the ratio shown
is the one every online memory controller has, whenever nothing is in progress.
-/

import NvmEmulator.Emulate.RatioStart
import NvmEmulator.Emulate.Ledger

namespace NvmEmulator.Emulate

open Relation NvmEmulator.Kernel NvmEmulator.Semantics NvmEmulator.Uncore

section

variable {machine : Machine}

/-! ## The writers -/

/-- The writer has the mutex, and `bw_ratio` is what it writes. -/
structure Writing (machine : Machine) (task ratio : Nat) (world : World) : Prop where
  mutex : world.mutex = some task
  bwRatio : world.globals.bwRatio = ratio
  late : Late machine world ratio

abbrev WriteHolding (machine : Machine) (task ratio : Nat) : Set DimmWord → World → Prop :=
  Holding machine (Writing machine task ratio) ratio

theorem Late.stable {task ratio : Nat} {before after : World}
    (step : WriteRely machine task before after) (late : Late machine before ratio) :
    Late machine after ratio :=
  late.imp_right fun both => ⟨step.found both.1, both.2⟩

theorem writeHolding_stable {task ratio : Nat} (covered : Set DimmWord) :
    Stable (WriteRely machine task) (WriteHolding machine task ratio covered) := by
  intro before after step holding
  rcases holding with ⟨writing, covers⟩
  refine ⟨⟨step.mutex.mpr writing.mutex, (step.bwRatio writing.mutex).trans writing.bwRatio,
    writing.late.stable step⟩, fun word mem online => ?_⟩
  rcases step.words writing.mutex word online with same | one
  · exact same.trans (covers word mem online)
  · -- Only ratio 1 is programmed by others, and then it is the writer's own.
    have same : ratio = 1 := by
      have both := writing.bwRatio.symm.trans one.1
      exact_mod_cast both
    rw [one.2, same]

/-- The writer may write a register when it leaves its ratio there. -/
theorem writeGuar_write {task ratio : Nat} (world : World) (pdev : PciDev) (addr : BitVec 32)
    (value : BitVec 16) (writing : Writing machine task ratio world)
    (field : value &&& 0x0fff = thrtPwr ratio) :
    WriteGuar machine task world
        (machine.device.exec (.imc pdev (.write addr value)) world).2 ∧
      Writing machine task ratio
        (machine.device.exec (.imc pdev (.write addr value)) world).2 := by
  have keeps : ratio = 1 → ∀ word, world.thrtPwrField word = thrtPwr 1 →
      (machine.device.exec (.imc pdev (.write addr value)) world).2.thrtPwrField word =
        thrtPwr 1 := by
    intro one word was
    rw [thrtPwrField_write, field, one, was]
    split <;> rfl
  refine ⟨⟨Iff.rfl, rfl, fun waiting => absurd writing.mutex waiting,
    fun _ => Or.inl writing.mutex, fun unfound => ⟨fun one => one, fun word _ => ?_⟩,
    fun coherent found => ⟨fun word online far => ?_, fun free => ?_⟩⟩,
    ⟨writing.mutex, writing.bwRatio, writing.late⟩⟩
  · rcases writing.late with one | both
    · exact keeps one word
    · exact absurd both.1 unfound
  · have was := (coherent found).1 word online far
    rcases writing.late with one | both
    · exact keeps one word was
    · exact absurd (both.2.near online) far
  · have held : world.mutex = none := free
    rw [writing.mutex] at held
    cases held

theorem writeGuar_refl (task : Nat) (world : World) : WriteGuar machine task world world :=
  ⟨Iff.rfl, rfl, fun _ => ⟨rfl, rfl, Or.inl rfl⟩, fun held => Or.inl held,
    fun _ => ⟨fun one => one, fun _ _ one => one⟩, fun coherent => coherent⟩

/-- A case of the `switch` sets `bw_ratio` and every register within reach. -/
theorem setBandwidth_guarded {task ratio : Nat} {world : World}
    (held : world.mutex = some task) (late : Late machine world ratio) :
    Guarded machine.device (WriteRely machine task) (WriteGuar machine task)
      (fun _ => WriteHolding machine task ratio (nodeWords machine 0 ∪ nodeWords machine 1))
      (setBandwidth machine ratio) world := by
  let locked : World → Prop := fun world => world.mutex = some task ∧ Late machine world ratio
  have stable : Stable (WriteRely machine task) locked :=
    fun _ _ step both => ⟨step.mutex.mpr both.1, both.2.stable step⟩
  refine Guarded.access locked stable ⟨held, late⟩ fun later both _ => ⟨?_, ?_⟩
  · refine ⟨Iff.rfl, rfl, fun waiting => absurd both.1 waiting, fun _ => Or.inl both.1,
      fun unfound => ⟨fun _ => ?_, fun _ _ one => one⟩,
      fun coherent found => ⟨(coherent found).1, fun free => ?_⟩⟩
    · rcases both.2 with one | found
      · rw [one]
        rfl
      · exact absurd found.1 unfound
    · have mine : later.mutex = none := free
      rw [both.1] at mine
      cases mine
  · have none : WriteHolding machine task ratio ∅
        (machine.exec (.assign fun state => { state with bwRatio := ratio }) later).2 :=
      ⟨⟨both.1, rfl, both.2⟩, fun word mem => absurd mem (Set.notMem_empty word)⟩
    apply (setNode_guarded writeHolding_stable (writeGuar_refl task) writeGuar_write (by decide) ∅ _
      none).bind
    intro _ _ first
    apply (setNode_guarded writeHolding_stable (writeGuar_refl task) writeGuar_write (by decide) _ _
      first.2).bind
    intro _ final second
    rw [Set.empty_union] at second
    exact Guarded.ret (writeHolding_stable _) second.2

/-- The mutex is held and nothing has been written under it. -/
structure Locked (machine : Machine) (task : Nat) (world : World) : Prop where
  mutex : world.mutex = some task
  consistent : FoundBoxes world → Consistent machine world

theorem locked_stable {task : Nat} : Stable (WriteRely machine task) (Locked machine task) := by
  intro before after step locked
  refine ⟨step.mutex.mpr locked.mutex, fun found => ?_⟩
  by_cases earlier : FoundBoxes before
  · exact (locked.consistent earlier).kept (step.bwRatio locked.mutex) (step.words locked.mutex)
  · rcases step.finds earlier found with ⟨one, programmed⟩
    exact ⟨1, List.mem_cons_self, one, programmed⟩

/-- A completed case of the `switch` leaves one ratio everywhere. -/
theorem WriteHolding.consistent {task ratio : Nat} (mem : ratio ∈ [1, 2, 4]) {world : World}
    (holding : WriteHolding machine task ratio (nodeWords machine 0 ∪ nodeWords machine 1) world)
    (coherent : Coherent machine world) (found : FoundBoxes world) :
    Consistent machine world := by
  refine ⟨ratio, mem, holding.1.bwRatio, programmed_iff.mpr fun word online => ?_⟩
  by_cases near : word ∈ nodeWords machine 0 ∪ nodeWords machine 1
  · exact holding.2 word near online
  · rcases holding.1.late with one | both
    · rw [one]
      exact (coherent found).1 word online near
    · exact absurd (both.2.near online) near

/-- The `switch` ends with the mutex held and consistency. -/
theorem switchBandwidth_guarded {task : Nat} {ctl : BitVec 8} (count : Nat) {world : World}
    (locked : Locked machine task world) (coherent : Coherent machine world)
    (late : ∀ ratio, ratioOf ctl = some ratio → Late machine world ratio) :
    Guarded machine.device (WriteRely machine task) (WriteGuar machine task)
      (fun _ => Locked machine task) (switchBandwidth machine ctl count) world := by
  rw [switchBandwidth]
  cases asked : ratioOf ctl with
  | none => exact Guarded.ret locked_stable locked
  | some ratio =>
      have sets := setBandwidth_guarded locked.mutex (late ratio asked)
      have conserved := sets.conserve (fun _ _ step => step.coherent)
        (fun _ _ step => step.coherent) coherent
      apply conserved.bind
      intro _ later both
      exact Guarded.ret locked_stable ⟨both.1.1.mutex,
        WriteHolding.consistent (ratioOf_mem asked) both.1 both.2⟩

theorem waiting_stable {task : Nat} :
    Stable (WriteRely machine task) (ratioPost (some task) ()) :=
  fun _ _ step apart held => apart (step.mutex.mp held)

/-- Taking the mutex of a coherent world. -/
theorem writeGuar_lock {task : Nat} {world : World} (free : world.mutex = none) :
    WriteGuar machine task world (machine.exec (.mutexLock task) world).2 := by
  refine ⟨Iff.rfl, rfl, fun _ => ⟨rfl, rfl, Or.inr ⟨free, rfl⟩⟩, fun _ => Or.inl rfl,
    fun _ => ⟨fun one => one, fun _ _ one => one⟩, fun coherent found => ?_⟩
  refine ⟨(coherent found).1, fun taken => ?_⟩
  have unlocked : some task = none := taken
  cases unlocked

theorem Locked.lock {task : Nat} {world : World} (free : world.mutex = none)
    (coherent : Coherent machine world) :
    Locked machine task (machine.exec (.mutexLock task) world).2 := by
  have consistent : FoundBoxes world → Consistent machine world :=
    fun found => (coherent found).2 free
  exact ⟨rfl, consistent⟩

/-- Releasing the mutex, at the end of a write. -/
theorem mutexUnlock_guarded {task : Nat} (count : Int) {world : World}
    (locked : Locked machine task world) :
    Guarded machine.device (WriteRely machine task) (WriteGuar machine task)
      (fun _ => ratioPost (some task) ()) (.access .mutexUnlock fun _ => .ret count) world := by
  refine Guarded.access _ locked_stable locked fun final held _ => ⟨?_, ?_⟩
  · refine ⟨Iff.rfl, rfl, fun apart => absurd held.mutex apart, fun _ => Or.inr rfl,
      fun _ => ⟨fun one => one, fun _ _ one => one⟩, fun coherent found => ?_⟩
    have consistent := held.consistent found
    exact ⟨(coherent found).1, fun _ => consistent⟩
  · have released : ratioPost (some task) () (machine.exec .mutexUnlock final).2 := by
      intro taken
      have unlocked : none = some task := taken
      cases unlocked
    exact Guarded.ret waiting_stable released

/-- `uncore_proc_write` -/
theorem uncoreProcWrite_guarded {task : Nat} {request : ProcWrite} {world : World}
    (waiting : world.mutex ≠ some task) (coherent : Coherent machine world)
    (late : ∀ ratio, ratioAsked request = some ratio → Late machine world ratio) :
    Guarded machine.device (WriteRely machine task) (WriteGuar machine task)
      (fun _ => ratioPost (some task) ()) (uncoreProcWrite machine task request) world := by
  rw [uncoreProcWrite]
  rw [ratioAsked] at late
  by_cases bad : request.count ≠ 2 ∨ request.offs ≠ 0
  · rw [if_pos bad]
    exact Guarded.ret waiting_stable waiting
  rw [if_neg bad] at late ⊢
  cases copied : request.buf with
  | none => exact Guarded.ret waiting_stable waiting
  | some ctl =>
      rw [copied] at late
      let ready : World → Prop := fun world => Coherent machine world ∧
        ∀ ratio, ratioOf ctl.1 = some ratio → Late machine world ratio
      have stable : Stable (WriteRely machine task) ready :=
        fun _ _ step both => ⟨step.coherent both.1, fun ratio asked =>
          (both.2 ratio asked).stable step⟩
      refine Guarded.access ready stable ⟨coherent, late⟩ fun later both free => ?_
      have takes : WriteGuar machine task later _ := writeGuar_lock free
      refine ⟨takes, (switchBandwidth_guarded request.count (Locked.lock free both.1)
        (takes.coherent both.1) both.2).bind ?_⟩
      intro count _ locked
      exact mutexUnlock_guarded count locked

/-- A write meets its obligation. -/
theorem writeTask_guarded {task : Nat} {request : ProcWrite} {world : World}
    (waiting : world.mutex ≠ some task) (coherent : Coherent machine world)
    (late : ∀ ratio, ratioAsked request = some ratio → Late machine world ratio) :
    Guarded machine.device (WriteRely machine task) (WriteGuar machine task)
      (ratioPost (some task)) (writeTask machine task request) world := by
  apply (uncoreProcWrite_guarded waiting coherent late).bind
  intro _ _ waiting
  exact Guarded.ret waiting_stable waiting

/-! ## The result -/

/-- A task that begins a write meets its obligation. -/
theorem writes_meets {pool : RatioPool} {thread : Option Nat} {program : UncoreProgram Unit}
    {after : World}
    (meets : Pool.Meets machine.device (ratioRely machine) (ratioGuar machine) ratioPost
      (Coherent machine) pool)
    (writes : Writes machine (Late machine) pool thread program after) :
    Pool.Meets machine.device (ratioRely machine) (ratioGuar machine) ratioPost
      (Coherent machine) ⟨Function.update pool.threads thread program, after⟩ := by
  cases writes with
  | @write task request idle permitted =>
    have waiting := meets.guarded (some task)
    rw [idle] at waiting
    refine ⟨fun other => ?_, meets.holds⟩
    by_cases same : other = some task
    · subst same
      dsimp only
      rw [Function.update_self]
      exact writeTask_guarded (waiting _ .refl) meets.holds permitted
    · dsimp only
      rw [Function.update_of_ne same]
      exact meets.guarded other

/-- The pool meets its obligations when the file has just been made. -/
theorem fileCreated_meets (reaches : WalkReaches machine) {world : World} (fresh : Fresh world) :
    Pool.Meets machine.device (ratioRely machine) (ratioGuar machine) ratioPost
      (Coherent machine) (fileCreated machine world) := by
  have unfound : ¬ FoundBoxes world := by
    intro found
    have first := found.1
    rw [fresh.haBox0] at first
    cases first
  refine ⟨fun thread => ?_, fun found => absurd found unfound⟩
  cases thread with
  | none => exact uncoreInitTail_guarded reaches ⟨unfound, fresh.bwRatio, fresh.started⟩
  | some task =>
      have waiting : world.mutex ≠ some task := by
        rw [fresh.mutex]
        exact (Option.some_ne_none task).symm
      exact Guarded.ret waiting_stable waiting

/-- Once `uncore_init` has returned with the emulation started and no write is in
progress, the ratio shown is the one every DIMM register of every online controller has:
whatever ratios are written, in whatever order with the start, so long as no other ratio
than 1 is written before the start is done with the controllers, and the walk over the
nodes reaches them. -/
theorem showsRatio_of_reaches (machine : Machine) {world : World} (fresh : Fresh world)
    (reaches : WalkReaches machine) {pool : RatioPool}
    (run : Pool.Reaches machine.device Elsewhere (Writes machine (Late machine))
      (fileCreated machine world) pool)
    (rest : AtRest pool) : ShowsRatio machine pool.state := by
  have ended := Pool.Meets.reaches ratio_compatible (fun _ _ _ _ => writes_meets)
    (fileCreated_meets reaches fresh) run
  have found : FoundBoxes pool.state := by
    have returned := ended.guarded none
    rw [rest.returned] at returned
    exact returned _ .refl rest.started
  have free : pool.state.mutex = none := by
    cases holder : pool.state.mutex with
    | none => rfl
    | some task =>
        have idle := ended.guarded (some task)
        rw [rest.idle task] at idle
        exact absurd holder (idle _ .refl)
  exact .of_consistent ((ended.holds found).2 free)

end

/-! ### Two sockets -/

/-- Two sockets with a home agent and a memory controller each. -/
def twoChannels : Machine :=
  { twoAgents with
    imcDevices := ⟨[⟨0, ⟨0x8086, 0x2FB4, 0x7f, 0⟩⟩, ⟨1, ⟨0x8086, 0x2FB4, 0xff, 0⟩⟩], by decide⟩ }

/-- `echo 2 > /proc/uncore_pmu` -/
def writeTwo : ProcWrite := ⟨2, 0, some (0x32, 0x0a)⟩

section

variable {machine : Machine} {env : World → World → Prop}

/-- A write that finds the mutex free can run to its end. -/
theorem writeTask_completes (task : Nat) (request : ProcWrite) {world : World}
    (free : world.mutex = none) :
    Completes machine.device env (writeTask machine task request) world ()
      ((writeTask machine task request).run machine.exec world).2 := by
  let ready : UncoreOp → Prop := fun op => ∀ state, machine.device.ready op state
  have closed : Program.Closed fun α (program : UncoreProgram α) => program.Makes ready :=
    Program.Makes.closed ready
  have sets : ∀ nodeid ratio, (uncoreImcSetThreshold uncoreImcOps machine.imcDevices.list
      nodeid ratio).Makes ready :=
    fun _ _ => closed_uncoreImcSetThreshold closed fun _ =>
      makes_hoist_onImc (fun _ _ => trivial) _
  have switches : ∀ ctl count, (switchBandwidth machine ctl count).Makes ready := by
    intro ctl count
    rw [switchBandwidth]
    split
    · refine Program.Makes.bind ⟨fun _ => trivial, fun _ => ?_⟩ fun _ => trivial
      exact (sets 0 _).bind fun _ => (sets 1 _).bind fun _ => trivial
    · trivial
  rw [writeTask, uncoreProcWrite]
  split
  · exact .refl
  · split
    · exact .refl
    · refine ReflTransGen.head (.access free) (reaches_run ?_ _)
      refine Program.Makes.bind ?_ fun _ => trivial
      exact (switches _ _).bind fun _ => ⟨fun _ => trivial, fun _ => trivial⟩

/-- What is left of `uncore_init` waits for nothing. -/
theorem uncoreInitTail_ready (machine : Machine) : (uncoreInitTail machine).Makes
    fun op => ∀ state, machine.device.ready op state := by
  refine (makes_uncoreClearGlobalPmu (fun _ _ _ => trivial) (fun _ _ => trivial)
    fun _ _ _ => trivial).bind fun _ => ?_
  exact (makes_uncorePrintGlobalPmu (fun _ _ _ => trivial) (fun _ _ => trivial)
    fun _ _ _ => trivial).bind fun _ => startEmulateNvm_ready machine

variable {may : World → Nat → Prop}

/-- The world a write leaves when nothing else runs. -/
def wroteWorld (machine : Machine) (task : Nat) (request : ProcWrite) (world : World) : World :=
  ((writeTask machine task request).run machine.exec world).2

/-- The world `uncore_init` leaves when nothing else runs. -/
def startedWorld (machine : Machine) (world : World) : World :=
  ((uncoreInitTail machine).run machine.exec world).2

/-- In a pool, an idle task can write, when nobody has the mutex. -/
theorem reaches_write {threads : Option Nat → UncoreProgram Unit} {world : World} (task : Nat)
    (request : ProcWrite) (idle : threads (some task) = .ret ()) (free : world.mutex = none)
    (permitted : ∀ ratio, ratioAsked request = some ratio → may world ratio) :
    Pool.Reaches machine.device env (Writes machine may) ⟨threads, world⟩
      ⟨threads, wroteWorld machine task request world⟩ :=
  Pool.reaches_of_launch idle (Writes.write request idle permitted)
    (writeTask_completes task request free)

/-- The pool in which `uncore_init` has returned and nobody writes. -/
def returned (world : World) : RatioPool := ⟨fun _ => .ret (), world⟩

/-- In a pool, `uncore_init` can run to its end. -/
theorem reaches_returned (world : World) :
    Pool.Reaches machine.device env (Writes machine may) (fileCreated machine world)
      (returned (startedWorld machine world)) := by
  have runs : Reaches machine.device env (initThreads machine none, world)
      (.ret (), startedWorld machine world) :=
    reaches_run (uncoreInitTail_ready machine) world
  have ends : Function.update (initThreads machine) none (.ret ()) = fun _ => .ret () := by
    funext thread
    cases thread <;> rfl
  have reaches : Pool.Reaches machine.device env (Writes machine may) (fileCreated machine world)
      ⟨Function.update (initThreads machine) none (.ret ()), startedWorld machine world⟩ :=
    Pool.reaches_of_thread (fileCreated machine world) none runs
  rw [ends] at reaches
  exact reaches

end

theorem quietWorld_fresh : Fresh quietWorld := ⟨rfl, rfl, rfl, rfl⟩

theorem twoChannels_walkReaches : WalkReaches twoChannels := by
  intro before node after split _ earlier mem
  have online : earlier ∈ twoChannels.onlineNodes := by
    rw [split]
    rcases List.mem_append.mp mem with front | same
    · exact List.mem_append_left _ front
    · rw [List.mem_singleton.mp same]
      exact List.mem_append_right _ List.mem_cons_self
  revert online
  clear mem split
  revert earlier
  decide

/-- Started, then written to: the file shows 1/2, and 1/2 it is. -/
theorem showsRatio_twoChannels :
    ShowsRatio twoChannels (returned
      (wroteWorld twoChannels 0 writeTwo (startedWorld twoChannels quietWorld))).state := by
  have found : FoundBoxes (startedWorld twoChannels quietWorld) := ⟨by decide, by decide⟩
  have sockets : TwoNodes twoChannels := by
    intro imc mem _
    revert imc
    decide
  have writes : Pool.Reaches twoChannels.device Elsewhere (Writes twoChannels (Late twoChannels))
      (returned (startedWorld twoChannels quietWorld))
      (returned (wroteWorld twoChannels 0 writeTwo (startedWorld twoChannels quietWorld))) :=
    reaches_write 0 writeTwo rfl (by decide) fun ratio _ => Or.inr ⟨found, sockets⟩
  exact showsRatio_of_reaches twoChannels quietWorld_fresh twoChannels_walkReaches
    ((reaches_returned quietWorld).trans writes) ⟨rfl, by decide +kernel, fun _ => rfl⟩

/-- Written to and then started: the file shows 1/2, but the registers have 1/1. -/
theorem not_showsRatio_twoChannels :
    Fresh quietWorld ∧ ∃ pool,
      Pool.Reaches twoChannels.device Elsewhere (Writes twoChannels fun _ _ => True)
        (fileCreated twoChannels quietWorld) pool ∧
      AtRest pool ∧ ¬ ShowsRatio twoChannels pool.state := by
  let world : World := startedWorld twoChannels (wroteWorld twoChannels 0 writeTwo quietWorld)
  have writes : Pool.Reaches twoChannels.device Elsewhere (Writes twoChannels fun _ _ => True)
      (fileCreated twoChannels quietWorld)
      (fileCreated twoChannels (wroteWorld twoChannels 0 writeTwo quietWorld)) :=
    reaches_write 0 writeTwo rfl rfl fun _ _ => trivial
  refine ⟨quietWorld_fresh, returned world, writes.trans (reaches_returned _),
    ⟨rfl, by decide +kernel, fun _ => rfl⟩, ?_⟩
  intro shows
  rcases shows with ⟨ratio, mem, shown, programmed⟩
  have two : (pmuProcShow.run twoChannels.exec world).1 = "Bandwidth Throttling Ratio: 1/2" := by
    decide +kernel
  have one : world.thrtPwrField (⟨0x8086, 0x2FB4, 0x7f, 0⟩, dimmOffset 0) = thrtPwr 1 := by
    decide +kernel
  have same := programmed ⟨0, ⟨0x8086, 0x2FB4, 0x7f, 0⟩⟩ List.mem_cons_self (by decide)
    (dimmOffset 0) (by decide)
  have apart : ∀ ratio ∈ [1, 2, 4],
      "Bandwidth Throttling Ratio: 1/2" = "Bandwidth Throttling Ratio: 1/" ++ toString ratio →
        thrtPwr 1 ≠ thrtPwr ratio := by decide
  exact apart ratio mem (two.symm.trans shown) (one.symm.trans same)

end NvmEmulator.Emulate
