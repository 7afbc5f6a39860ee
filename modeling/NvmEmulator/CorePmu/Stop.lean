/-
# Stopping the core PMU

A write of `'0'` to `/proc/core_pmu`, and the end of the module, clear the registers of
every online processor. The NMI handler restarts its own processor whenever it finds bit 0
of the global status set, and the clearing leaves that bit alone: it writes 0 to the
overflow control register, where `__core_pmu_clear_ovf` writes 1. So after the first
overflow of a processor any later NMI there undoes the stop.

If no NMI comes to a processor whose event select is clear while its overflow bit is
still set, the stop is final. The task and the handlers run as threads: a processor is
silent when its event select is clear and no handler that is in progress there has seen
an overflow, and nothing but another task ends that.
-/

import NvmEmulator.Semantics.Coverage
import NvmEmulator.Semantics.Threads
import NvmEmulator.CorePmu.Pmu

namespace NvmEmulator.CorePmu

open Relation NvmEmulator.Kernel NvmEmulator.Semantics NvmEmulator.Uncore

/-! ## The system -/

/-- The task is `none`; `some cpu` runs the NMI handler of the processor. -/
abbrev CorePool := Pool (Option Nat) CoreOp CoreOp.Res CoreWorld

/-- An NMI comes to a processor, from an overflow or any other source; `may` says when. -/
inductive NmiArrives (may : CoreWorld → Nat → Prop) :
    CorePool → Option Nat → CoreProgram Unit → CoreWorld → Prop
  | nmi {pool : CorePool} {cpu : Nat} (idle : pool.threads (some cpu) = .ret ())
      (outside : pool.state.inNmi cpu = false) (registered : pool.state.nmiRegistered = true)
      (permitted : may pool.state cpu) :
      NmiArrives may pool (some cpu) (runNmi cpu) (pool.state.setInNmi cpu true)

/-- An access a task can make: it is in no NMI. -/
def TaskAccess : CoreOp → Prop
  | .rdmsr context _ _ => context = .task
  | .wrmsr context _ _ _ => context = .task
  | .incNmiTimes _ => False
  | .nmiReturn _ => False
  | _ => True

/-- What happens before the stop: NMIs come, and the task does whatever it does. -/
inductive Earlier : CorePool → Option Nat → CoreProgram Unit → CoreWorld → Prop
  | nmi {pool : CorePool} {thread : Option Nat} {program : CoreProgram Unit} {after : CoreWorld}
      (arrives : NmiArrives (fun _ _ => True) pool thread program after) :
      Earlier pool thread program after
  | task {pool : CorePool} {program : CoreProgram Unit} (idle : pool.threads none = .ret ())
      (makes : program.Makes TaskAccess) : Earlier pool none program pool.state

/-- Nothing is in progress. -/
def idlePool (world : CoreWorld) : CorePool := ⟨fun _ => .ret (), world⟩

/-- The ways to stop the core PMU. -/
inductive StopKind
  | procWrite (task : Nat) (newline : BitVec 8)
  | exit

/-- What the task does to stop it. -/
def stopTask (online : List Nat) : StopKind → CoreProgram Unit
  | .procWrite task newline => do
      let _ ← corePmuProcWrite online task ⟨2, 0, some (0x30, newline)⟩
      pure ()
  | .exit => corePmuExit online

/-- The stop begins. -/
def stopping (online : List Nat) (kind : StopKind) (pool : CorePool) : CorePool :=
  ⟨Function.update pool.threads none (stopTask online kind), pool.state⟩

/-- The counter of a processor is off. -/
structure Stopped (world : CoreWorld) (cpu : Nat) : Prop where
  select : world.msrs cpu msrIa32Perfevtsel0 = 0
  control : world.msrs cpu msrCorePerfGlobalCtrl = 0

/-- A processor whose event select is clear has no overflow left to be seen. -/
def Acknowledged (world : CoreWorld) (cpu : Nat) : Prop :=
  world.msrs cpu msrIa32Perfevtsel0 = 0 → (world.msrs cpu).overflowed = false

/-! ## Silent processors -/

/-- The event select is clear, and no handler in progress has an overflow to see. -/
structure Silent (world : CoreWorld) (cpu : Nat) : Prop where
  select : world.msrs cpu msrIa32Perfevtsel0 = 0
  unseen : world.inNmi cpu = true → (world.msrs cpu).overflowed = false

/-- Silence lasts, and leaves the global control alone. -/
def KeepsSilence (before after : CoreWorld) : Prop :=
  ∀ cpu, Silent before cpu → Silent after cpu ∧
    after.msrs cpu msrCorePerfGlobalCtrl = before.msrs cpu msrCorePerfGlobalCtrl

theorem keepsSilence_of_eq {before after : CoreWorld} {cpu : Nat}
    (msrs : after.msrs cpu = before.msrs cpu) (inNmi : after.inNmi cpu = before.inNmi cpu)
    (silent : Silent before cpu) :
    Silent after cpu ∧
      after.msrs cpu msrCorePerfGlobalCtrl = before.msrs cpu msrCorePerfGlobalCtrl := by
  refine ⟨⟨?_, fun inside => ?_⟩, ?_⟩
  · rw [msrs]
    exact silent.select
  · rw [msrs]
    exact silent.unseen (inNmi.symm.trans inside)
  · rw [msrs]

/-- A write to a register other than the status and the overflow control sets it. -/
theorem wrmsr_plain {addr : BitVec 32} (plain : addr ≠ msrCorePerfGlobalOvfCtrl)
    (value : BitVec 64) (regs : MsrFile) :
    regs.wrmsr addr value = Function.update regs addr value := if_neg plain

/-- Writing 0 to the overflow control clears nothing. -/
theorem wrmsr_ovfCtrl_zero (regs : MsrFile) :
    regs.wrmsr msrCorePerfGlobalOvfCtrl 0 = regs := by
  have ones : ~~~(0 : BitVec 64) = BitVec.allOnes 64 := by decide
  have same : regs msrCorePerfGlobalStatus &&& ~~~0 = regs msrCorePerfGlobalStatus := by
    rw [ones, BitVec.and_allOnes]
  rw [MsrFile.wrmsr, if_pos rfl, same, Function.update_eq_self]

/-- The driver's writes leave the overflow bit alone. -/
theorem overflowed_wrmsr {addr : BitVec 32} {value : BitVec 64} (regs : MsrFile)
    (status : addr ≠ msrCorePerfGlobalStatus)
    (zero : addr = msrCorePerfGlobalOvfCtrl → value = 0) :
    (regs.wrmsr addr value).overflowed = regs.overflowed := by
  by_cases control : addr = msrCorePerfGlobalOvfCtrl
  · rw [zero control, control, wrmsr_ovfCtrl_zero]
  · rw [wrmsr_plain control, MsrFile.overflowed, Function.update_of_ne (Ne.symm status)]
    rfl

/-- A counter that is off does not move. -/
theorem miss_of_select {regs : MsrFile} (select : regs msrIa32Perfevtsel0 = 0) :
    regs.miss = regs := by
  have off : regs.counting = false := by
    rw [MsrFile.counting, select]
    simp
  rw [MsrFile.miss, off]
  rfl

/-- A miss never takes the overflow bit back. -/
theorem overflowed_miss {regs : MsrFile} (set : regs.overflowed = true) :
    regs.miss.overflowed = true := by
  rw [MsrFile.miss]
  split
  · split
    · rw [MsrFile.overflowed, MsrFile.overflow, Function.update_self, BitVec.getLsbD_or]
      rw [MsrFile.overflowed] at set
      rw [set, Bool.true_or]
    · have apart : msrCorePerfGlobalStatus ≠ msrIa32Pmc0 := by decide
      rw [MsrFile.overflowed, Function.update_of_ne apart]
      exact set
  · exact set

/-! ## Rely and guarantee -/

/-- What a handler relies on: while it runs, an overflow it has seen stays set. -/
structure HandlerRely (cpu : Nat) (before after : CoreWorld) : Prop where
  inNmi : after.inNmi cpu = before.inNmi cpu
  seen : before.inNmi cpu = true → (before.msrs cpu).overflowed = true →
    (after.msrs cpu).overflowed = true

/-- What a step of a handler does: it acts on its own processor, and only where an
overflow has been seen. -/
structure HandlerGuar (cpu : Nat) (before after : CoreWorld) : Prop where
  others : ∀ other ≠ cpu, after.inNmi other = before.inNmi other ∧
    after.msrs other = before.msrs other
  silence : KeepsSilence before after

/-- What a step of a task does: it leaves processors that are in an NMI alone. -/
structure TaskGuar (before after : CoreWorld) : Prop where
  inNmi : after.inNmi = before.inNmi
  waits : ∀ cpu, before.inNmi cpu = true → after.msrs cpu = before.msrs cpu

/-- The relies, with the task's own. -/
def stopRely (task : CoreWorld → CoreWorld → Prop) : Option Nat → CoreWorld → CoreWorld → Prop
  | none => task
  | some cpu => HandlerRely cpu

def stopGuar : Option Nat → CoreWorld → CoreWorld → Prop
  | none => TaskGuar
  | some cpu => HandlerGuar cpu

theorem Misses.keepsSilence {before after : CoreWorld} (misses : Misses before after) :
    KeepsSilence before after := by
  cases misses with
  | miss cpu =>
      intro other silent
      have msrs : (before.setMsrs cpu (before.msrs cpu).miss).msrs other = before.msrs other := by
        show Function.update before.msrs cpu _ other = _
        by_cases same : other = cpu
        · subst same
          rw [Function.update_self, miss_of_select silent.select]
        · rw [Function.update_of_ne same]
      exact keepsSilence_of_eq msrs rfl silent

theorem Misses.handlerRely {before after : CoreWorld} (misses : Misses before after)
    (cpu : Nat) : HandlerRely cpu before after := by
  cases misses with
  | miss other =>
      refine ⟨rfl, fun _ set => ?_⟩
      show (Function.update before.msrs other _ cpu).overflowed = true
      by_cases same : cpu = other
      · subst same
        rw [Function.update_self]
        exact overflowed_miss set
      · rw [Function.update_of_ne same]
        exact set

theorem stop_compatible {task : CoreWorld → CoreWorld → Prop}
    (silence : ∀ before after, KeepsSilence before after → task before after) :
    Pool.Compatible (stopRely task) stopGuar (fun _ => True) Misses where
  thread
    | none, none, other, _, _, _ => absurd rfl other
    | none, some cpu, _, _, _, step => by
        have guaranteed : TaskGuar _ _ := step
        refine ⟨congrFun guaranteed.inNmi cpu, fun inside set => ?_⟩
        rw [guaranteed.waits cpu inside]
        exact set
    | some _, none, _, before, after, step => silence before after step.silence
    | some cpu, some other, apart, _, _, step => by
        have guaranteed : HandlerGuar cpu _ _ := step
        have same := guaranteed.others other fun equal => apart (congrArg some equal)
        refine ⟨same.1, fun _ set => ?_⟩
        rw [same.2]
        exact set
  environment
    | none, before, after, moves => silence before after moves.keepsSilence
    | some cpu, _, _, moves => moves.handlerRely cpu
  kept _ _ _ _ _ := trivial
  keptByEnvironment _ _ _ _ := trivial

/-! ## The handlers -/

/-- What a handler that has seen an overflow does, before it returns. -/
def HandlerAccess (cpu : Nat) : CoreOp → Prop
  | .wrmsr _ other addr value => other = cpu ∧ addr ≠ msrCorePerfGlobalStatus ∧
      (addr = msrCorePerfGlobalOvfCtrl → value = 0)
  | .globals => True
  | .incNmiTimes _ => True
  | _ => False

theorem handler_makes (cpu : Nat) :
    ((corePmuClearMsrsOnCpu .nmi cpu).bind fun _ =>
      (corePmuEnablePredefinedEventOnCpu .nmi cpu).bind fun _ =>
        (corePmuEnableCountingOnCpu .nmi cpu).bind fun _ =>
          (access (.incNmiTimes cpu)).bind fun _ =>
            (Program.ret NmiResult.handled : CoreProgram NmiResult)).Makes
      (HandlerAccess cpu) := by
  have write : ∀ {addr : BitVec 32} (value : BitVec 64), addr ≠ msrCorePerfGlobalStatus →
      addr ≠ msrCorePerfGlobalOvfCtrl → HandlerAccess cpu (.wrmsr .nmi cpu addr value) :=
    fun _ status control => ⟨rfl, status, fun same => absurd same control⟩
  have pmc0 := fun value : BitVec 64 => write value (by decide : msrIa32Pmc0 ≠ _) (by decide)
  have select := fun value : BitVec 64 =>
    write value (by decide : msrIa32Perfevtsel0 ≠ _) (by decide)
  have control := fun value : BitVec 64 =>
    write value (by decide : msrCorePerfGlobalCtrl ≠ _) (by decide)
  have acknowledge : HandlerAccess cpu (.wrmsr .nmi cpu msrCorePerfGlobalOvfCtrl 0) :=
    ⟨rfl, by decide, fun _ => rfl⟩
  exact makes_restart (makes_clearMsrsOnCpu (pmc0 0) (select 0) (control 0) acknowledge)
    (makes_enablePredefinedEventOnCpu trivial (fun _ => pmc0 _) fun _ => select _)
    (makes_enableCountingOnCpu (control 1)) trivial

/-- The handler is in progress and has seen an overflow. -/
def Acting (cpu : Nat) (world : CoreWorld) : Prop :=
  world.inNmi cpu = true ∧ (world.msrs cpu).overflowed = true

theorem acting_stable {cpu : Nat} : Stable (HandlerRely cpu) (Acting cpu) :=
  fun _ _ step acting => ⟨step.inNmi.trans acting.1, step.seen acting.1 acting.2⟩

/-- A handler that has seen an overflow may do what it does to its own processor. -/
theorem handlerAccess_guar {cpu : Nat} {op : CoreOp} (allowed : HandlerAccess cpu op)
    {world : CoreWorld} (acting : Acting cpu world) :
    HandlerGuar cpu world (exec op world).2 ∧ Acting cpu (exec op world).2 := by
  have unchanged : ∀ {after : CoreWorld}, after.msrs = world.msrs →
      after.inNmi = world.inNmi → HandlerGuar cpu world after ∧ Acting cpu after := by
    intro after msrs inNmi
    refine ⟨⟨fun other _ => ⟨congrFun inNmi other, congrFun msrs other⟩, fun other silent =>
      keepsSilence_of_eq (congrFun msrs other) (congrFun inNmi other) silent⟩, ?_⟩
    rw [Acting, msrs, inNmi]
    exact acting
  cases op with
  | wrmsr context other addr value =>
      rcases allowed with ⟨rfl, status, zero⟩
      have still : Acting other (exec (.wrmsr context other addr value) world).2 := by
        refine ⟨acting.1, ?_⟩
        show (Function.update world.msrs other _ other).overflowed = true
        rw [Function.update_self, overflowed_wrmsr _ status zero]
        exact acting.2
      refine ⟨⟨fun apart other => ⟨rfl, Function.update_of_ne other _ _⟩, fun apart silent => ?_⟩,
        still⟩
      by_cases same : apart = other
      · -- The handler has seen an overflow, so its own processor is not silent.
        subst same
        have unseen := silent.unseen acting.1
        rw [acting.2] at unseen
        cases unseen
      · exact keepsSilence_of_eq (Function.update_of_ne same _ _) rfl silent
  | globals => exact unchanged rfl rfl
  | incNmiTimes other => exact unchanged rfl rfl
  | rdmsr context other addr => exact absurd allowed id
  | assign update => exact absurd allowed id
  | clearNmiTimes other => exact absurd allowed id
  | nmiReturn other => exact absurd allowed id
  | nmiListDel => exact absurd allowed id
  | synchronizeRcu => exact absurd allowed id
  | mutexLock task => exact absurd allowed id
  | mutexUnlock => exact absurd allowed id
  | procRemove => exact absurd allowed id

/-- The end of an NMI. -/
theorem nmiReturn_guarded {cpu : Nat} {world : CoreWorld} :
    Guarded coreDevice (HandlerRely cpu) (HandlerGuar cpu) (fun _ _ => True)
      (access (.nmiReturn cpu)) world := by
  intro later _ _
  refine ⟨⟨fun other apart => ⟨Function.update_of_ne apart _ _, rfl⟩, fun other silent =>
    ⟨⟨silent.select, fun inside => ?_⟩, rfl⟩⟩, fun _ _ => trivial⟩
  have was : Function.update later.inNmi cpu false other = true := inside
  by_cases same : other = cpu
  · subst same
    rw [Function.update_self] at was
    cases was
  · rw [Function.update_of_ne same] at was
    exact silent.unseen was

/-- A handler meets its obligation. -/
theorem runNmi_guarded {cpu : Nat} {world : CoreWorld} (inside : world.inNmi cpu = true) :
    Guarded coreDevice (HandlerRely cpu) (HandlerGuar cpu) (fun _ _ => True) (runNmi cpu)
      world := by
  have stable : Stable (HandlerRely cpu) fun world => world.inNmi cpu = true :=
    fun _ _ step holds => step.inNmi.trans holds
  refine Guarded.access _ stable inside fun later held _ => ⟨?_, ?_⟩
  · exact ⟨fun other _ => ⟨rfl, rfl⟩, fun other silent => ⟨silent, rfl⟩⟩
  · show Guarded _ _ _ _ (Program.bind (if (later.msrs cpu).overflowed = true then _ else _) _)
      later
    by_cases seen : (later.msrs cpu).overflowed = true
    · rw [if_pos seen]
      have acts : Guarded coreDevice (HandlerRely cpu) (HandlerGuar cpu) (fun _ => Acting cpu)
          _ later := Guarded.of_makes (handler_makes cpu) acting_stable
        (fun _ allowed _ acting _ => handlerAccess_guar allowed acting) ⟨held, seen⟩
      exact acts.bind fun _ _ _ => nmiReturn_guarded
    · rw [if_neg seen]
      exact nmiReturn_guarded

/-! ## The stop -/

/-- Silent, with the global control clear. -/
def Halted (world : CoreWorld) (cpu : Nat) : Prop :=
  Silent world cpu ∧ world.msrs cpu msrCorePerfGlobalCtrl = 0

/-- The processors covered are halted. -/
def HaltedOn (covered : Set Nat) (world : CoreWorld) : Prop := ∀ cpu ∈ covered, Halted world cpu

theorem Halted.stable {cpu : Nat} : Stable KeepsSilence fun world => Halted world cpu :=
  fun _ _ step halted =>
    ⟨(step cpu halted.1).1, (step cpu halted.1).2.trans halted.2⟩

theorem haltedOn_stable (covered : Set Nat) : Stable KeepsSilence (HaltedOn covered) :=
  fun _ _ step halted cpu mem => Halted.stable step (halted cpu mem)

/-- Writing 0 keeps a register that is 0. -/
theorem wrmsr_zero_of_zero {addr register : BitVec 32} {regs : MsrFile}
    (zero : regs register = 0) (apart : register ≠ msrCorePerfGlobalStatus) :
    regs.wrmsr addr 0 register = 0 := by
  rw [MsrFile.wrmsr]
  split
  · rw [Function.update_of_ne apart]
    exact zero
  · by_cases same : register = addr
    · rw [same, Function.update_self]
    · rw [Function.update_of_ne same]
      exact zero

section Clearing

variable {addr : BitVec 32} {cpu : Nat} {world : CoreWorld}

/-- A 0 that the task writes ends no silence. -/
theorem Silent.wrmsr_zero {other : Nat} (silent : Silent world other)
    (outside : world.inNmi cpu = false) :
    Silent (exec (.wrmsr .task cpu addr 0) world).2 other := by
  by_cases same : other = cpu
  · subst same
    refine ⟨?_, fun inside => ?_⟩
    · show Function.update world.msrs other _ other _ = 0
      rw [Function.update_self]
      exact wrmsr_zero_of_zero silent.select (by decide)
    · have was : world.inNmi other = true := inside
      rw [outside] at was
      cases was
  · have msrs : (exec (.wrmsr .task cpu addr 0) world).2.msrs other = world.msrs other :=
      Function.update_of_ne same _ _
    exact (keepsSilence_of_eq msrs rfl silent).1

theorem Halted.wrmsr_zero {other : Nat} (halted : Halted world other)
    (outside : world.inNmi cpu = false) :
    Halted (exec (.wrmsr .task cpu addr 0) world).2 other := by
  refine ⟨halted.1.wrmsr_zero outside, ?_⟩
  show Function.update world.msrs cpu _ other _ = 0
  by_cases same : other = cpu
  · subst same
    rw [Function.update_self]
    exact wrmsr_zero_of_zero halted.2 (by decide)
  · rw [Function.update_of_ne same]
    exact halted.2

/-- Clearing the event select of a processor that is in no NMI silences it. -/
theorem silent_of_select (outside : world.inNmi cpu = false) :
    Silent (exec (.wrmsr .task cpu msrIa32Perfevtsel0 0) world).2 cpu := by
  refine ⟨?_, fun inside => ?_⟩
  · show Function.update world.msrs cpu _ cpu _ = 0
    rw [Function.update_self, wrmsr_plain (by decide), Function.update_self]
  · have was : world.inNmi cpu = true := inside
    rw [outside] at was
    cases was

theorem halted_of_control (silent : Silent world cpu) (outside : world.inNmi cpu = false) :
    Halted (exec (.wrmsr .task cpu msrCorePerfGlobalCtrl 0) world).2 cpu := by
  refine ⟨silent.wrmsr_zero outside, ?_⟩
  show Function.update world.msrs cpu _ cpu _ = 0
  rw [Function.update_self, wrmsr_plain (by decide), Function.update_self]

/-- A write of the task is to a processor that is in no NMI. -/
theorem taskGuar_wrmsr {value : BitVec 64} (outside : world.inNmi cpu = false) :
    TaskGuar world (exec (.wrmsr .task cpu addr value) world).2 := by
  refine ⟨rfl, fun other inside => Function.update_of_ne (fun same => ?_) _ _⟩
  rw [same, outside] at inside
  cases inside

end Clearing

/-- `__core_pmu_clear_msrs` halts its processor. -/
theorem clearMsrs_guarded (cpu : Nat) (covered : Set Nat) (world : CoreWorld)
    (halted : HaltedOn covered world) :
    Guarded coreDevice KeepsSilence TaskGuar (fun _ => HaltedOn (covered ∪ {cpu}))
      (corePmuClearMsrsOnCpu .task cpu) world := by
  have stable := haltedOn_stable covered
  have silent : Stable KeepsSilence fun world => HaltedOn covered world ∧ Silent world cpu :=
    stable.and fun _ _ step holds => (step cpu holds).1
  have both : ∀ world, HaltedOn covered world → Halted world cpu →
      HaltedOn (covered ∪ {cpu}) world := by
    intro world holds here other mem
    rcases mem with old | new
    · exact holds other old
    · rw [Set.mem_singleton_iff.mp new]
      exact here
  refine Guarded.access _ stable halted fun first holds outside => ⟨taskGuar_wrmsr outside, ?_⟩
  have kept : HaltedOn covered (exec (.wrmsr .task cpu msrIa32Pmc0 0) first).2 :=
    fun other mem => (holds other mem).wrmsr_zero outside
  refine Guarded.access _ stable kept fun second holds outside => ⟨taskGuar_wrmsr outside, ?_⟩
  have quiet : HaltedOn covered (exec (.wrmsr .task cpu msrIa32Perfevtsel0 0) second).2 ∧
      Silent (exec (.wrmsr .task cpu msrIa32Perfevtsel0 0) second).2 cpu :=
    ⟨fun other mem => (holds other mem).wrmsr_zero outside, silent_of_select outside⟩
  refine Guarded.access _ silent quiet fun third holds outside => ⟨taskGuar_wrmsr outside, ?_⟩
  have all : HaltedOn (covered ∪ {cpu}) (exec (.wrmsr .task cpu msrCorePerfGlobalCtrl 0) third).2 :=
    both _ (fun other mem => (holds.1 other mem).wrmsr_zero outside)
      (halted_of_control holds.2 outside)
  refine Guarded.access _ (haltedOn_stable _) all fun fourth holds outside =>
    ⟨taskGuar_wrmsr outside, ?_⟩
  have still : HaltedOn (covered ∪ {cpu})
      (exec (.wrmsr .task cpu msrCorePerfGlobalOvfCtrl 0) fourth).2 :=
    fun other mem => (holds other mem).wrmsr_zero outside
  exact Guarded.ret (haltedOn_stable _) still

/-- `core_pmu_clear_msrs` halts every online processor. -/
theorem corePmuClearMsrs_guarded (online : List Nat) (world : CoreWorld) :
    Guarded coreDevice KeepsSilence TaskGuar (fun _ => HaltedOn { cpu | cpu ∈ online })
      (corePmuClearMsrs online) world := by
  have covers : Guarded coreDevice KeepsSilence TaskGuar
      (fun _ => HaltedOn (∅ ∪ regionOf (fun cpu : Nat => ({cpu} : Set Nat)) online))
      (corePmuClearMsrs online) world :=
    Guarded.forEach_covers haltedOn_stable clearMsrs_guarded
      fun cpu mem => absurd mem (Set.notMem_empty cpu)
  rw [Set.empty_union, regionOf_singleton] at covers
  exact covers

theorem nothing_halted (world : CoreWorld) : HaltedOn ∅ world :=
  fun cpu mem => absurd mem (Set.notMem_empty cpu)

/-- An access that leaves registers and NMIs alone. -/
def Harmless (op : CoreOp) : Prop :=
  ∀ world, (exec op world).2.msrs = world.msrs ∧ (exec op world).2.inNmi = world.inNmi

/-- Harmless accesses keep what is halted. -/
theorem haltedOn_harmless {α : Type} {program : CoreProgram α} (makes : program.Makes Harmless)
    {covered : Set Nat} {world : CoreWorld} (halted : HaltedOn covered world) :
    Guarded coreDevice KeepsSilence TaskGuar (fun _ => HaltedOn covered) program world := by
  refine Guarded.of_makes makes (haltedOn_stable covered) (fun op harmless world held _ => ?_)
    halted
  rcases harmless world with ⟨msrs, inNmi⟩
  refine ⟨⟨inNmi, fun cpu _ => congrFun msrs cpu⟩, fun cpu mem => ?_⟩
  have same := keepsSilence_of_eq (congrFun msrs cpu) (congrFun inNmi cpu) (held cpu mem).1
  exact ⟨same.1, same.2.trans (held cpu mem).2⟩

/-- The case `'0'` of a write halts every online processor. -/
theorem stopSampling_guarded (online : List Nat) (world : CoreWorld) :
    Guarded coreDevice KeepsSilence TaskGuar (fun _ => HaltedOn { cpu | cpu ∈ online })
      (stopSampling online) world := by
  have assigns : (access (.assign fun state =>
      { state with preEventInitValue := 0 })).Makes Harmless :=
    ⟨fun _ => ⟨rfl, rfl⟩, fun _ => trivial⟩
  have clears : (corePmuClearCounter online).Makes Harmless :=
    .forEach fun cpu _ => ⟨fun _ => ⟨rfl, rfl⟩, fun _ => trivial⟩
  apply (haltedOn_harmless assigns (nothing_halted world)).bind
  intro _ later halted
  apply (haltedOn_harmless clears halted).bind
  intro _ final _
  exact corePmuClearMsrs_guarded online final

/-- Once the task has stopped the core PMU, every online processor is halted. -/
theorem stopTask_guarded (online : List Nat) (kind : StopKind) (world : CoreWorld) :
    Guarded coreDevice KeepsSilence TaskGuar (fun _ => HaltedOn { cpu | cpu ∈ online })
      (stopTask online kind) world := by
  have harmless : ∀ {op : CoreOp}, Harmless op → (access op).Makes Harmless :=
    fun fine => ⟨fine, fun _ => trivial⟩
  have stable := haltedOn_stable { cpu | cpu ∈ online }
  cases kind with
  | procWrite task newline =>
      have locks : (access (.mutexLock task)).Makes Harmless := harmless fun _ => ⟨rfl, rfl⟩
      have unlocks : (access .mutexUnlock).Makes Harmless := harmless fun _ => ⟨rfl, rfl⟩
      refine Guarded.bind ?_ fun _ _ halted => Guarded.ret stable halted
      apply (haltedOn_harmless locks (nothing_halted world)).bind
      intro _ later _
      have switches : Guarded coreDevice KeepsSilence TaskGuar
          (fun _ => HaltedOn { cpu | cpu ∈ online }) (switchSampling online 0x30 2) later :=
        (stopSampling_guarded online later).bind fun _ _ halted => Guarded.ret stable halted
      apply switches.bind
      intro count _ halted
      apply (haltedOn_harmless unlocks halted).bind
      intro _ _ halted
      exact Guarded.ret stable halted
  | exit =>
      have removes : corePmuProcRemove.Makes Harmless := by
        refine ⟨fun _ => ⟨rfl, rfl⟩, fun state => ?_⟩
        show (if state.isProcRegisted = true then _ else _ : CoreProgram Unit).Makes Harmless
        split
        · exact harmless fun _ => ⟨rfl, rfl⟩
        · trivial
      have unregisters : corePmuUnregisterNmiHandler.Makes Harmless :=
        (harmless fun _ => ⟨rfl, rfl⟩).bind fun _ => harmless fun _ => ⟨rfl, rfl⟩
      apply (haltedOn_harmless removes (nothing_halted world)).bind
      intro _ later _
      apply (corePmuClearMsrs_guarded online later).bind
      intro _ _ halted
      exact haltedOn_harmless unregisters halted

/-! ## The result -/

/-- An access a task can make is within its guarantee. -/
theorem taskAccess_guar {op : CoreOp} (allowed : TaskAccess op) {world : CoreWorld}
    (ready : ready op world) : TaskGuar world (exec op world).2 := by
  cases op with
  | wrmsr context cpu addr value =>
      have task : context = .task := allowed
      subst task
      exact taskGuar_wrmsr ready
  | incNmiTimes cpu => exact absurd allowed id
  | nmiReturn cpu => exact absurd allowed id
  | _ => exact ⟨rfl, fun _ _ => rfl⟩

/-- The obligations of the handlers, and of a task that relies on `task`. -/
abbrev CoreMeets (task : CoreWorld → CoreWorld → Prop) (post : CoreWorld → Prop)
    (pool : CorePool) : Prop :=
  Pool.Meets coreDevice (stopRely task) stopGuar
    (fun thread _ => if thread = none then post else fun _ => True) (fun _ => True) pool

/-- An NMI that comes to a processor starts a handler that meets its obligation. -/
theorem nmiArrives_meets {task : CoreWorld → CoreWorld → Prop} {post : CoreWorld → Prop}
    {may : CoreWorld → Nat → Prop} {pool : CorePool} {thread : Option Nat}
    {program : CoreProgram Unit} {after : CoreWorld} (meets : CoreMeets task post pool)
    (arrives : NmiArrives may pool thread program after)
    (enters : ∀ cpu, may pool.state cpu → task pool.state (pool.state.setInNmi cpu true)) :
    CoreMeets task post ⟨Function.update pool.threads thread program, after⟩ := by
  cases arrives with
  | @nmi cpu idle outside registered permitted =>
    refine ⟨fun other => ?_, trivial⟩
    by_cases same : other = some cpu
    · subst same
      dsimp only
      rw [Function.update_self, if_neg (Option.some_ne_none cpu)]
      have inside : (pool.state.setInNmi cpu true).inNmi cpu = true := by
        show Function.update pool.state.inNmi cpu true cpu = true
        rw [Function.update_self]
      exact runNmi_guarded inside
    · dsimp only
      rw [Function.update_of_ne same]
      apply (meets.guarded other).of_rely
      apply ReflTransGen.single
      cases other with
      | none => exact enters cpu permitted
      | some apart =>
          have elsewhere : apart ≠ cpu := fun equal => same (congrArg some equal)
          exact ⟨Function.update_of_ne elsewhere _ _, fun _ set => set⟩

/-- Whatever the task did before, the handlers in progress meet their obligations. -/
theorem earlier_meets {world : CoreWorld} {before : CorePool}
    (history : Pool.Reaches coreDevice Misses Earlier (idlePool world) before) :
    CoreMeets (fun _ _ => True) (fun _ => True) before := by
  have begins : CoreMeets (fun _ _ => True) (fun _ => True) (idlePool world) := by
    refine ⟨fun thread => ?_, trivial⟩
    intro _ _
    cases thread <;> trivial
  refine Pool.Meets.reaches (stop_compatible fun _ _ _ => trivial) ?_ begins history
  intro pool thread program after meets launches
  cases launches with
  | nmi arrives => exact nmiArrives_meets meets arrives fun _ _ => trivial
  | task idle makes =>
      refine ⟨fun other => ?_, trivial⟩
      by_cases same : other = none
      · subst same
        dsimp only
        rw [Function.update_self, if_pos rfl]
        exact Guarded.of_makes makes (fun _ _ _ _ => trivial)
          (fun _ allowed _ _ ready => ⟨taskAccess_guar allowed ready, trivial⟩) trivial
      · dsimp only
        rw [Function.update_of_ne same]
        exact meets.guarded other

/-- Stopping is final: after any history, once the write of `'0'` or the exit has returned,
the counter of every online processor is off, and stays off, as long as no NMI comes to a
processor whose event select is clear while its overflow bit is set. -/
theorem stopped_of_reaches (online : List Nat) (kind : StopKind) {world : CoreWorld}
    {before : CorePool}
    (history : Pool.Reaches coreDevice Misses Earlier (idlePool world) before)
    {pool : CorePool}
    (run : Pool.Reaches coreDevice Misses (NmiArrives Acknowledged)
      (stopping online kind before) pool)
    (returned : pool.threads none = .ret ()) : ∀ cpu ∈ online, Stopped pool.state cpu := by
  let post : CoreWorld → Prop := HaltedOn { cpu | cpu ∈ online }
  have meets : CoreMeets KeepsSilence post (stopping online kind before) := by
    refine ⟨fun thread => ?_, trivial⟩
    cases thread with
    | none =>
        have stops := stopTask_guarded online kind before.state
        dsimp only [stopping]
        rw [Function.update_self, if_pos rfl]
        exact stops
    | some cpu =>
        have handler := (earlier_meets history).guarded (some cpu)
        dsimp only [stopping]
        rw [Function.update_of_ne (Option.some_ne_none cpu)]
        exact handler
  have ended : CoreMeets KeepsSilence post pool := by
    refine Pool.Meets.reaches (stop_compatible fun _ _ silence => silence) ?_ meets run
    intro pool thread program after meets arrives
    refine nmiArrives_meets meets arrives fun cpu acknowledged other silent => ?_
    refine ⟨⟨silent.select, fun inside => ?_⟩, rfl⟩
    by_cases same : other = cpu
    · subst same
      exact acknowledged silent.select
    · have was : Function.update pool.state.inNmi cpu true other = true := inside
      rw [Function.update_of_ne same] at was
      exact silent.unseen was
  have task := ended.guarded none
  rw [returned] at task
  intro cpu mem
  have halted : Halted pool.state cpu := task _ .refl cpu mem
  exact ⟨halted.1.select, halted.2⟩

/-! ### One processor -/

/-- The world a program leaves when it runs alone. -/
def ranAlone {α : Type} (program : CoreProgram α) (world : CoreWorld) : CoreWorld :=
  (program.run exec world).2

/-- The world an NMI leaves when nothing else runs. -/
def nmiWorld (cpu : Nat) (world : CoreWorld) : CoreWorld :=
  ranAlone (runNmi cpu) (world.setInNmi cpu true)

/-- The processors sample LLC misses, and the next miss overflows. -/
def samplingWorld : CoreWorld where
  msrs _ := fun addr =>
    if addr = msrIa32Pmc0 then MsrFile.pmc0Max
    else if addr = msrIa32Perfevtsel0 then eventSelect .llcMisses
    else if addr = msrCorePerfGlobalCtrl then 1
    else 0
  percpuNmiTimes _ := 0
  globals := { preEventInitValue := -256, preEventInfo := ⟨.llcMisses, -256⟩ }

section

variable {env : CoreWorld → CoreWorld → Prop}
  {launch : CorePool → Option Nat → CoreProgram Unit → CoreWorld → Prop}

/-- What a handler does besides reading the status. -/
theorem makes_corePmuNmiHandler {cpu : Nat} {allowed : CoreOp → Prop}
    (read : ∀ addr, allowed (.rdmsr .nmi cpu addr))
    (write : ∀ addr value, allowed (.wrmsr .nmi cpu addr value)) (globals : allowed .globals)
    (count : allowed (.incNmiTimes cpu)) : (corePmuNmiHandler cpu).Makes allowed :=
  makes_nmiHandler (read _) (makes_clearMsrsOnCpu (write _ _) (write _ _) (write _ _) (write _ _))
    (makes_enablePredefinedEventOnCpu globals (fun _ => write _ _) fun _ => write _ _)
    (makes_enableCountingOnCpu (write _ _)) count

/-- An NMI waits for nothing. -/
theorem runNmi_ready (cpu : Nat) :
    (runNmi cpu).Makes fun op => ∀ world, coreDevice.ready op world :=
  (makes_corePmuNmiHandler (fun _ _ => trivial) (fun _ _ _ => trivial) (fun _ => trivial)
    fun _ => trivial).bind fun _ => ⟨fun _ => trivial, fun _ => trivial⟩

/-- After its NMI a processor is outside, and the others are where they were. -/
theorem nmiWorld_inNmi (cpu : Nat) (world : CoreWorld) :
    (nmiWorld cpu world).inNmi = Function.update world.inNmi cpu false := by
  have keeps : (corePmuNmiHandler cpu).Makes fun op =>
      ∀ state, (exec op state).2.inNmi = state.inNmi :=
    makes_corePmuNmiHandler (fun _ _ => rfl) (fun _ _ _ => rfl) (fun _ => rfl) fun _ => rfl
  have kept : ∀ op, (∀ state, (exec op state).2.inNmi = state.inNmi) → ∀ state : CoreWorld,
      state.inNmi = Function.update world.inNmi cpu true →
        (exec op state).2.inNmi = Function.update world.inNmi cpu true :=
    fun _ keeps state held => (keeps state).trans held
  have same : ((corePmuNmiHandler cpu).run exec (world.setInNmi cpu true)).2.inNmi =
      Function.update world.inNmi cpu true := keeps.run kept rfl
  rw [nmiWorld, ranAlone, runNmi, Program.bind_eq, Program.run_bind]
  show Function.update (Program.run exec (corePmuNmiHandler cpu) _).2.inNmi cpu false = _
  rw [same, Function.update_idem]

theorem runNmi_completes (cpu : Nat) (world : CoreWorld) :
    Completes coreDevice env (runNmi cpu) (world.setInNmi cpu true) () (nmiWorld cpu world) :=
  reaches_run (runNmi_ready cpu) _

/-- No processor is in an NMI. -/
def OutsideNmi (world : CoreWorld) : Prop := ∀ cpu, world.inNmi cpu = false

/-- An access that waits for no more than the end of the NMIs. -/
def Prompt (op : CoreOp) : Prop :=
  ∀ world, OutsideNmi world → coreDevice.ready op world ∧ OutsideNmi (coreDevice.exec op world).2

theorem prompt_wrmsr (cpu : Nat) (addr : BitVec 32) (value : BitVec 64) :
    Prompt (.wrmsr .task cpu addr value) :=
  fun _ outside => ⟨outside cpu, outside⟩

theorem corePmuClearMsrs_prompt (online : List Nat) :
    (corePmuClearMsrs online).Makes Prompt :=
  .forEach fun cpu _ => makes_clearMsrsOnCpu (prompt_wrmsr cpu _ _) (prompt_wrmsr cpu _ _)
    (prompt_wrmsr cpu _ _) (prompt_wrmsr cpu _ _)

/-- An access that always can be made and enters or leaves no NMI is prompt. -/
theorem prompt_of_ready {op : CoreOp} (ready : ∀ world, coreDevice.ready op world)
    (same : ∀ world, (exec op world).2.inNmi = world.inNmi) : (access op).Makes Prompt := by
  refine ⟨fun world outside => ⟨ready world, fun cpu => ?_⟩, fun _ => trivial⟩
  show (exec op world).2.inNmi cpu = false
  rw [same]
  exact outside cpu

theorem corePmuClearCounter_prompt (online : List Nat) :
    (corePmuClearCounter online).Makes Prompt :=
  .forEach fun _ _ => prompt_of_ready (fun _ => trivial) fun _ => rfl

/-- A write of `'0'` that finds the mutex free can run to its end. -/
theorem stopTask_completes (online : List Nat) (task : Nat) (newline : BitVec 8)
    {world : CoreWorld} (outside : OutsideNmi world) (free : world.mutex = none) :
    Completes coreDevice env (stopTask online (.procWrite task newline)) world ()
      (ranAlone (stopTask online (.procWrite task newline)) world) := by
  have assigns : (access (.assign fun state =>
      { state with preEventInitValue := 0 })).Makes Prompt :=
    prompt_of_ready (fun _ => trivial) fun _ => rfl
  have unlocks : (access .mutexUnlock).Makes Prompt :=
    prompt_of_ready (fun _ => trivial) fun _ => rfl
  have stops : (stopSampling online).Makes Prompt :=
    assigns.bind fun _ => (corePmuClearCounter_prompt online).bind fun _ =>
      corePmuClearMsrs_prompt online
  have switches : (switchSampling online 0x30 2).Makes Prompt := stops.bind fun _ => trivial
  have locked : OutsideNmi (exec (.mutexLock task) world).2 := outside
  refine ReflTransGen.head (.access free) (reaches_run_of_keeps ?_ locked)
  have finishes : ∀ count : Int, ((access .mutexUnlock).bind fun _ =>
      (Program.ret count : CoreProgram Int)).Makes Prompt :=
    fun _ => unlocks.bind fun _ => trivial
  exact (switches.bind finishes).bind fun _ => trivial

/-- An idle processor takes an NMI, whose handler runs to its end. -/
theorem reaches_nmi {threads : Option Nat → CoreProgram Unit} {world : CoreWorld} (cpu : Nat)
    {may : CoreWorld → Nat → Prop} (idle : threads (some cpu) = .ret ())
    (outside : world.inNmi cpu = false) (registered : world.nmiRegistered = true)
    (permitted : may world cpu) :
    Pool.Reaches coreDevice env (NmiArrives may) ⟨threads, world⟩
      ⟨threads, nmiWorld cpu world⟩ :=
  Pool.reaches_of_launch idle (NmiArrives.nmi idle outside registered permitted)
    (runNmi_completes cpu world)

/-- A write of `'0'` can run to its end. -/
theorem reaches_stopped (online : List Nat) (task : Nat) (newline : BitVec 8)
    {world : CoreWorld} (outside : OutsideNmi world) (free : world.mutex = none) :
    Pool.Reaches coreDevice env launch
      (stopping online (.procWrite task newline) (idlePool world))
      (idlePool (ranAlone (stopTask online (.procWrite task newline)) world)) := by
  have completes : Reaches coreDevice env
      ((stopping online (.procWrite task newline) (idlePool world)).threads none, world)
      (.ret (), ranAlone (stopTask online (.procWrite task newline)) world) :=
    stopTask_completes online task newline outside free
  have runs : Pool.Reaches coreDevice env launch
      (stopping online (.procWrite task newline) (idlePool world)) _ :=
    Pool.reaches_of_thread _ none completes
  have ends : Function.update (Function.update (idlePool world).threads none
      (stopTask online (.procWrite task newline))) none (.ret ()) = fun _ => .ret () := by
    rw [Function.update_idem]
    exact Function.update_eq_self none (idlePool world).threads
  dsimp only [stopping] at runs
  rw [ends] at runs
  exact runs

end

/-- The processor after a write of `'0'` that nothing interrupted. -/
def stoppedWorld (world : CoreWorld) : CoreWorld :=
  ranAlone (stopTask [0] (.procWrite 0 0x0a)) world

/-- Stopped before its first overflow, the processor ignores an NMI. -/
theorem stopped_sampling :
    Stopped (idlePool (nmiWorld 0 (stoppedWorld samplingWorld))).state 0 := by
  have history : Pool.Reaches coreDevice Misses Earlier (idlePool samplingWorld)
      (idlePool samplingWorld) := .refl
  have stops : Pool.Reaches coreDevice Misses (NmiArrives Acknowledged)
      (stopping [0] (.procWrite 0 0x0a) (idlePool samplingWorld))
      (idlePool (stoppedWorld samplingWorld)) :=
    reaches_stopped [0] 0 0x0a (fun _ => rfl) rfl
  have nmi : Pool.Reaches coreDevice Misses (NmiArrives Acknowledged)
      (idlePool (stoppedWorld samplingWorld))
      (idlePool (nmiWorld 0 (stoppedWorld samplingWorld))) :=
    reaches_nmi 0 rfl rfl rfl fun _ => by decide
  exact stopped_of_reaches [0] (.procWrite 0 0x0a) history (stops.trans nmi) rfl 0
    List.mem_cons_self

/-- The processor after one overflow and its NMI. -/
def overflowedWorld : CoreWorld :=
  nmiWorld 0 (samplingWorld.setMsrs 0 (samplingWorld.msrs 0).miss)

theorem overflowedWorld_outside : OutsideNmi overflowedWorld := by
  intro cpu
  rw [overflowedWorld, nmiWorld_inNmi]
  by_cases here : cpu = 0
  · rw [here, Function.update_self]
  · rw [Function.update_of_ne here]
    rfl

/-- After one overflow that was handled, a write of `'0'` is undone by the next NMI. -/
theorem not_stopped_overflowed : ∃ before,
    Pool.Reaches coreDevice Misses Earlier (idlePool samplingWorld) before ∧
    ∃ pool, Pool.Reaches coreDevice Misses (NmiArrives fun _ _ => True)
        (stopping [0] (.procWrite 0 0x0a) before) pool ∧
      pool.threads none = .ret () ∧ ¬ Stopped pool.state 0 := by
  have misses : Pool.Step coreDevice Misses Earlier (idlePool samplingWorld)
      (idlePool (samplingWorld.setMsrs 0 (samplingWorld.msrs 0).miss)) :=
    .environment (.miss samplingWorld 0)
  have handled : Pool.Reaches coreDevice Misses Earlier
      (idlePool (samplingWorld.setMsrs 0 (samplingWorld.msrs 0).miss))
      (idlePool overflowedWorld) :=
    Pool.reaches_of_launch rfl (.nmi (.nmi rfl rfl rfl trivial)) (runNmi_completes 0 _)
  have stops : Pool.Reaches coreDevice Misses (NmiArrives fun _ _ => True)
      (stopping [0] (.procWrite 0 0x0a) (idlePool overflowedWorld))
      (idlePool (stoppedWorld overflowedWorld)) :=
    reaches_stopped [0] 0 0x0a overflowedWorld_outside rfl
  have undone : Pool.Reaches coreDevice Misses (NmiArrives fun _ _ => True)
      (idlePool (stoppedWorld overflowedWorld))
      (idlePool (nmiWorld 0 (stoppedWorld overflowedWorld))) :=
    reaches_nmi 0 rfl rfl rfl trivial
  refine ⟨_, ReflTransGen.head misses handled, _, stops.trans undone, rfl, fun stopped => ?_⟩
  have select : (nmiWorld 0 (stoppedWorld overflowedWorld)).msrs 0 msrIa32Perfevtsel0 ≠ 0 := by
    decide +kernel
  exact select stopped.select

end NvmEmulator.CorePmu
