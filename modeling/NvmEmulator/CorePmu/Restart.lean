/-
# Starting the statistics afresh

A write of `'1'` to `'4'` to `/proc/core_pmu` stores the new initial value, clears every
processor's count of NMIs and then reprograms the processors in three more passes. Until
its turn comes in those passes a processor still counts down an interval of the old value,
and an overflow that falls between the clearing of its count and the clearing of its
registers is counted as if it were new.

The window between the two is what makes the difference. A handler that runs after the new
value is stored and before the count is cleared loads the new value early, and its overflows
are lost; that is the window from the other side. Outside both, what PMC0 has been loaded
with decides which value an interval belongs to: nobody but the task stores an initial
value, and no handler that read the old one is still in progress once the count is cleared.

An overflow raises an NMI that may have to wait for the end of the one before. A processor
owes its count what has overflowed and not been counted: an NMI on its way, or a handler
that has not come to its increment. If no overflow falls into the window, the debt is all
the difference there ever is.
-/

import NvmEmulator.CorePmu.Acknowledge

namespace NvmEmulator.CorePmu

open Relation NvmEmulator.Kernel NvmEmulator.Semantics NvmEmulator.Uncore

/-! ## The system -/

/-- The counters count, and an overflow is noted; `may` says which ones come. -/
inductive Overflows (may : CoreWorld → Nat → Prop) : CoreWorld → CoreWorld → Prop
  | count (world : CoreWorld) (cpu : Nat) (still : (world.msrs cpu).wraps = false) :
      Overflows may world (world.setMsrs cpu (world.msrs cpu).miss)
  | overflow (world : CoreWorld) (cpu : Nat) (wraps : (world.msrs cpu).wraps = true)
      (permitted : may world cpu) :
      Overflows may world
        ((world.setMsrs cpu (world.msrs cpu).miss).setNote cpu (world.notes cpu).overflow)

/-- The NMI of an overflow reaches its processor, once that is out of the one before. -/
inductive OverflowNmi : CorePool → Option Nat → CoreProgram Unit → CoreWorld → Prop
  | nmi {pool : CorePool} {cpu : Nat} (idle : pool.threads (some cpu) = .ret ())
      (outside : pool.state.inNmi cpu = false)
      (registered : pool.state.nmiRegistered = true)
      (pending : (pool.state.notes cpu).pending = true) :
      OverflowNmi pool (some cpu) (runNmi cpu)
        ((pool.state.setInNmi cpu true).setNote cpu
          { pool.state.notes cpu with pending := false })

/-- What the task does to start afresh. -/
def writeTask (online : List Nat) (task : Nat) (ctl newline : BitVec 8) : CoreProgram Unit := do
  let _ ← corePmuProcWrite online task ⟨2, 0, some (ctl, newline)⟩
  pure ()

/-- The write begins, with an NMI on its way to the processors that wait for one. -/
def writing (online : List Nat) (task : Nat) (ctl newline : BitVec 8) (waiting : Nat → Bool)
    (pool : CorePool) : CorePool :=
  ⟨Function.update pool.threads none (writeTask online task ctl newline),
    { pool.state with notes := fun cpu => { pending := waiting cpu } }⟩

/-- An overflow falls outside the window that the write opens on its processor, and comes
while no NMI of another one is on its way. -/
structure OutsideWindow (value : BitVec 64) (world : CoreWorld) (cpu : Nat) : Prop where
  /-- Before the count is cleared: no handler has loaded PMC0 with the new value yet. -/
  before : (world.notes cpu).cleared = false → (world.notes cpu).loaded value = false
  /-- From the clearing of the count on: PMC0 has been reprogrammed since. -/
  after : (world.notes cpu).cleared = true → (world.notes cpu).programmed = true
  quiet : (world.notes cpu).pending = false

/-- A count is cleared while no NMI of its processor is on its way or in progress. -/
def Undisturbed : CoreOp → CoreWorld → Prop
  | .clearNmiTimes cpu, world => world.inNmi cpu = false ∧ (world.notes cpu).pending = false
  | _, _ => True

/-- The machine in the runs whose counts are cleared undisturbed. -/
def undisturbedDevice : Device CoreOp CoreOp.Res CoreWorld := coreDevice.restrict Undisturbed

/-! ## Debts -/

/-- The new initial value is stored. -/
def Stored (value : BitVec 64) (world : CoreWorld) : Prop :=
  initCount world.globals.preEventInitValue = value

/-- What a note says of the interval PMC0 is in: one of the new value has been loaded, and
where PMC0 was reprogrammed after the clearing, it is of the new value. -/
structure Labelled (value : BitVec 64) (note : CoreNote) : Prop where
  loaded : note.interval = some value → note.loaded value = true
  programmed : note.cleared = true → note.programmed = true → note.interval = some value

/-- What a processor owes its count is `debt`, besides the NMI on its way. Before the count
is cleared no interval of the new value has overflowed. -/
structure Owes (value : BitVec 64) (cpu debt : Nat) (world : CoreWorld) : Prop where
  labelled : Labelled value (world.notes cpu)
  stored : (world.notes cpu).cleared = true → Stored value world
  early : (world.notes cpu).cleared = false → (world.notes cpu).overflows value = 0
  balance : (world.notes cpu).cleared = true →
    world.percpuNmiTimes cpu + BitVec.ofNat 64 debt +
        BitVec.ofNat 64 (world.notes cpu).pending.toNat =
      BitVec.ofNat 64 ((world.notes cpu).overflows value)
  seen : (world.notes cpu).cleared = true → (world.notes cpu).pending = true →
    (world.msrs cpu).overflowed = true

/-- All there is of a processor. -/
structure SameCpu (cpu : Nat) (before after : CoreWorld) : Prop where
  msrs : after.msrs cpu = before.msrs cpu
  times : after.percpuNmiTimes cpu = before.percpuNmiTimes cpu
  inNmi : after.inNmi cpu = before.inNmi cpu
  note : after.notes cpu = before.notes cpu

theorem SameCpu.owes {value : BitVec 64} {cpu debt : Nat} {before after : CoreWorld}
    (same : SameCpu cpu before after) (keeps : Stored value before → Stored value after)
    (owes : Owes value cpu debt before) : Owes value cpu debt after := by
  constructor
  · rw [same.note]
    exact owes.labelled
  · rw [same.note]
    exact fun cleared => keeps (owes.stored cleared)
  · rw [same.note]
    exact owes.early
  · rw [same.note, same.times]
    exact owes.balance
  · rw [same.note, same.msrs]
    exact owes.seen

/-- Before the count is cleared the debt does not matter. -/
theorem Owes.of_early {value : BitVec 64} {cpu debt other : Nat} {world : CoreWorld}
    (owes : Owes value cpu debt world) (early : (world.notes cpu).cleared = false) :
    Owes value cpu other world := by
  refine ⟨owes.labelled, owes.stored, owes.early, fun cleared => ?_, owes.seen⟩
  rw [early] at cleared
  cases cleared

/-- Loading PMC0 with 0 programs nothing, and after the clearing the only other value it is
loaded with is the new one. -/
theorem Labelled.wrmsr {value data : BitVec 64} {addr : BitVec 32} {note : CoreNote}
    (labelled : Labelled value note)
    (loads : addr = msrIa32Pmc0 → data = 0 ∨ (note.cleared = true → data = value)) :
    Labelled value (note.wrmsr addr data) := by
  rw [CoreNote.wrmsr]
  by_cases counter : addr = msrIa32Pmc0
  · rw [if_pos counter]
    constructor
    · intro interval
      rw [Option.some.inj interval]
      exact Function.update_self _ _ _
    · intro cleared programmed
      have nonzero : data ≠ 0 := of_decide_eq_true programmed
      have new := ((loads counter).resolve_left nonzero) cleared
      rw [new]
  · rw [if_neg counter]
    exact labelled

/-! ## Rely and guarantee -/

/-- What a handler relies on while it is in progress. -/
structure OwingRely (value : BitVec 64) (cpu : Nat) (before after : CoreWorld) : Prop where
  inNmi : after.inNmi cpu = before.inNmi cpu
  cleared : before.inNmi cpu = true → (after.notes cpu).cleared = (before.notes cpu).cleared
  overflowed : before.inNmi cpu = true → (before.msrs cpu).overflowed = true →
    (after.msrs cpu).overflowed = true
  owes : before.inNmi cpu = true → ∀ debt, Owes value cpu debt before → Owes value cpu debt after

/-- What the task relies on: nobody else clears a count, or stores an initial value. -/
structure ClearedRely (before after : CoreWorld) : Prop where
  cleared : ∀ cpu, (after.notes cpu).cleared = (before.notes cpu).cleared
  globals : after.globals = before.globals

/-- A processor outside its NMI has no debt but the NMI on its way. -/
def Settled (value : BitVec 64) (cpu : Nat) (world : CoreWorld) : Prop :=
  world.inNmi cpu = false → Owes value cpu 0 world

/-- What a step of a handler does. -/
structure OwingGuar (value : BitVec 64) (cpu : Nat) (before after : CoreWorld) : Prop where
  others : ∀ other ≠ cpu, SameCpu other before after
  cleared : (after.notes cpu).cleared = (before.notes cpu).cleared
  globals : after.globals = before.globals
  settled : Settled value cpu after

/-- What a step of the task does. -/
structure ClearingGuar (value : BitVec 64) (before after : CoreWorld) : Prop where
  stored : Stored value before → Stored value after
  inside : ∀ cpu, before.inNmi cpu = true → SameCpu cpu before after
  outside : ∀ cpu, before.inNmi cpu = false →
    after.inNmi cpu = false ∧ (Owes value cpu 0 before → Owes value cpu 0 after)

def restartRely (value : BitVec 64) : Option Nat → CoreWorld → CoreWorld → Prop
  | none => ClearedRely
  | some cpu => OwingRely value cpu

def restartGuar (value : BitVec 64) : Option Nat → CoreWorld → CoreWorld → Prop
  | none => ClearingGuar value
  | some cpu => OwingGuar value cpu

theorem SameCpu.owingRely {value : BitVec 64} {cpu : Nat} {before after : CoreWorld}
    (same : SameCpu cpu before after) (keeps : Stored value before → Stored value after) :
    OwingRely value cpu before after where
  inNmi := same.inNmi
  cleared _ := by rw [same.note]
  overflowed _ set := by
    rw [same.msrs]
    exact set
  owes _ _ owes := same.owes keeps owes

/-- Where nothing is stored, the new value stays stored. -/
theorem stored_of_globals {value : BitVec 64} {before after : CoreWorld}
    (globals : after.globals = before.globals) (stored : Stored value before) :
    Stored value after := by
  rw [Stored, globals]
  exact stored

/-- An overflow counts for the value its interval was started with. -/
theorem overflows_of_interval {value : BitVec 64} {note : CoreNote}
    (interval : note.interval = some value) :
    note.overflow.overflows value = note.overflows value + 1 := by
  rw [CoreNote.overflow, interval]
  exact Function.update_self _ _ _

theorem overflows_of_ne {value : BitVec 64} {note : CoreNote}
    (interval : note.interval ≠ some value) :
    note.overflow.overflows value = note.overflows value := by
  rw [CoreNote.overflow]
  cases was : note.interval with
  | none => rfl
  | some old =>
      have apart : value ≠ old := fun same => interval (was.trans (congrArg some same.symm))
      exact Function.update_of_ne apart _ _

/-- An overflow outside the window goes with the count it raises. -/
theorem Owes.overflow {value : BitVec 64} {cpu debt : Nat} {world : CoreWorld}
    (owes : Owes value cpu debt world) (wraps : (world.msrs cpu).wraps = true)
    (outside : OutsideWindow value world cpu) :
    Owes value cpu debt
      ((world.setMsrs cpu (world.msrs cpu).miss).setNote cpu (world.notes cpu).overflow) := by
  have note : ((world.setMsrs cpu (world.msrs cpu).miss).setNote cpu
      (world.notes cpu).overflow).notes cpu = (world.notes cpu).overflow :=
    Function.update_self _ _ _
  constructor
  · rw [note]
    exact ⟨owes.labelled.loaded, owes.labelled.programmed⟩
  · rw [note]
    exact owes.stored
  · rw [note]
    intro early
    have other : (world.notes cpu).interval ≠ some value := by
      intro new
      have loaded := owes.labelled.loaded new
      rw [outside.before early] at loaded
      cases loaded
    rw [overflows_of_ne other]
    exact owes.early early
  · rw [note]
    intro cleared
    have new := owes.labelled.programmed cleared (outside.after cleared)
    have before := owes.balance cleared
    rw [outside.quiet] at before
    rw [overflows_of_interval new, BitVec.ofNat_add, ← before]
    have nothing : BitVec.ofNat 64 false.toNat = 0#64 := rfl
    rw [nothing, BitVec.add_zero]
    rfl
  · intro _ _
    show (Function.update world.msrs cpu (world.msrs cpu).miss cpu).overflowed = true
    rw [Function.update_self]
    exact overflowed_of_wraps wraps

/-- A count below the wrap changes no debt. -/
theorem Owes.setMsrs {value : BitVec 64} {cpu debt : Nat} {world : CoreWorld}
    (owes : Owes value cpu debt world) {regs : MsrFile}
    (keeps : (world.msrs cpu).overflowed = true → regs.overflowed = true) :
    Owes value cpu debt (world.setMsrs cpu regs) := by
  refine ⟨owes.labelled, owes.stored, owes.early, owes.balance, fun cleared pending => ?_⟩
  show (Function.update world.msrs cpu regs cpu).overflowed = true
  rw [Function.update_self]
  exact keeps (owes.seen cleared pending)

section Environment

variable {value : BitVec 64} {before after : CoreWorld}

theorem sameCpu_setMsrs {world : CoreWorld} {cpu other : Nat} (apart : other ≠ cpu)
    (regs : MsrFile) : SameCpu other world (world.setMsrs cpu regs) :=
  ⟨Function.update_of_ne apart _ _, rfl, rfl, rfl⟩

/-- A counter that counts changes no debt, and keeps what the handlers have seen. -/
theorem Overflows.owes (moves : Overflows (OutsideWindow value) before after) (cpu debt : Nat)
    (owes : Owes value cpu debt before) : Owes value cpu debt after := by
  cases moves with
  | count other still =>
      by_cases same : cpu = other
      · subst same
        exact owes.setMsrs overflowed_miss
      · exact (sameCpu_setMsrs same _).owes id owes
  | overflow other wraps outside =>
      by_cases same : cpu = other
      · subst same
        exact owes.overflow wraps outside
      · have elsewhere : SameCpu cpu before
            ((before.setMsrs other (before.msrs other).miss).setNote other
              (before.notes other).overflow) :=
          ⟨Function.update_of_ne same _ _, rfl, rfl, Function.update_of_ne same _ _⟩
        exact elsewhere.owes id owes

theorem Overflows.inNmi (moves : Overflows (OutsideWindow value) before after) :
    after.inNmi = before.inNmi := by
  cases moves with
  | count other still => rfl
  | overflow other wraps outside => rfl

theorem Overflows.clearedRely (moves : Overflows (OutsideWindow value) before after) :
    ClearedRely before after := by
  cases moves with
  | count other still => exact ⟨fun _ => rfl, rfl⟩
  | overflow other wraps outside =>
      refine ⟨fun cpu => ?_, rfl⟩
      show (Function.update before.notes other _ cpu).cleared = _
      by_cases same : cpu = other
      · subst same
        rw [Function.update_self]
        rfl
      · rw [Function.update_of_ne same]

theorem Overflows.overflowed (moves : Overflows (OutsideWindow value) before after) (cpu : Nat)
    (set : (before.msrs cpu).overflowed = true) : (after.msrs cpu).overflowed = true := by
  have kept : ∀ other, (Function.update before.msrs other (before.msrs other).miss
      cpu).overflowed = true := by
    intro other
    by_cases same : cpu = other
    · subst same
      rw [Function.update_self]
      exact overflowed_miss set
    · rw [Function.update_of_ne same]
      exact set
  cases moves with
  | count other still => exact kept other
  | overflow other wraps outside => exact kept other

/-- Every processor outside its NMI is settled. -/
def AllSettled (value : BitVec 64) (world : CoreWorld) : Prop := ∀ cpu, Settled value cpu world

theorem restart_compatible :
    Pool.Compatible (restartRely value) (restartGuar value) (AllSettled value)
      (Overflows (OutsideWindow value)) where
  thread
    | none, none, other, _, _, _ => absurd rfl other
    | none, some cpu, _, before, after, step => by
        have guaranteed : ClearingGuar value before after := step
        cases inside : before.inNmi cpu with
        | true => exact (guaranteed.inside cpu inside).owingRely guaranteed.stored
        | false =>
            have absent : ∀ {fact : Prop}, before.inNmi cpu = true → fact := by
              intro fact held
              rw [inside] at held
              cases held
            exact ⟨(guaranteed.outside cpu inside).1.trans inside.symm, absent, absent, absent⟩
    | some cpu, none, _, before, after, step => by
        have guaranteed : OwingGuar value cpu before after := step
        refine ⟨fun other => ?_, guaranteed.globals⟩
        by_cases same : other = cpu
        · rw [same]
          exact guaranteed.cleared
        · rw [(guaranteed.others other same).note]
    | some cpu, some other, apart, before, after, step => by
        have guaranteed : OwingGuar value cpu before after := step
        exact (guaranteed.others other fun same => apart (congrArg some same)).owingRely
          (stored_of_globals guaranteed.globals)
  environment
    | none, _, _, moves => moves.clearedRely
    | some cpu, _, _, moves =>
        ⟨congrFun moves.inNmi cpu, fun _ => moves.clearedRely.cleared cpu,
          fun _ => moves.overflowed cpu, fun _ debt => moves.owes cpu debt⟩
  kept
    | none, before, after, step, settled => by
        have guaranteed : ClearingGuar value before after := step
        intro cpu outside
        cases inside : before.inNmi cpu with
        | true =>
            rw [(guaranteed.inside cpu inside).inNmi, inside] at outside
            cases outside
        | false => exact (guaranteed.outside cpu inside).2 (settled cpu inside)
    | some cpu, before, after, step, settled => by
        have guaranteed : OwingGuar value cpu before after := step
        intro other outside
        by_cases same : other = cpu
        · rw [same] at outside ⊢
          exact guaranteed.settled outside
        · have elsewhere := guaranteed.others other same
          exact elsewhere.owes (stored_of_globals guaranteed.globals)
            (settled other (elsewhere.inNmi.symm.trans outside))
  keptByEnvironment before after moves settled := by
    intro cpu outside
    rw [moves.inNmi] at outside
    exact moves.owes cpu 0 (settled cpu outside)

end Environment

/-! ## The handlers -/

section Handler

variable {value : BitVec 64} {cpu : Nat}

/-- The handler is in progress, with a debt, and has seen an overflow. `cleared` says whether
the count of its processor was cleared before it began. -/
structure Owing (value : BitVec 64) (cpu : Nat) (cleared : Bool) (debt : Nat)
    (world : CoreWorld) : Prop where
  inside : world.inNmi cpu = true
  cleared : (world.notes cpu).cleared = cleared
  seen : (world.msrs cpu).overflowed = true
  owes : Owes value cpu debt world

theorem owing_stable {cleared : Bool} {debt : Nat} :
    Stable (OwingRely value cpu) (Owing value cpu cleared debt) := by
  intro before after rely owing
  exact ⟨rely.inNmi.trans owing.inside, (rely.cleared owing.inside).trans owing.cleared,
    rely.overflowed owing.inside owing.seen, rely.owes owing.inside debt owing.owes⟩

/-- The handler is in progress on a processor whose count has not been cleared. -/
structure Early (value : BitVec 64) (cpu : Nat) (world : CoreWorld) : Prop where
  inside : world.inNmi cpu = true
  early : (world.notes cpu).cleared = false
  owes : Owes value cpu 0 world

theorem early_stable : Stable (OwingRely value cpu) (Early value cpu) := by
  intro before after rely held
  exact ⟨rely.inNmi.trans held.inside, (rely.cleared held.inside).trans held.early,
    rely.owes held.inside 0 held.owes⟩

/-- A processor in its NMI has nothing to settle. -/
theorem settled_of_inside {world : CoreWorld} (inside : world.inNmi cpu = true) :
    Settled value cpu world := by
  intro outside
  rw [inside] at outside
  cases outside

/-- What a handler writes to its own processor. -/
structure OwnWrite (value : BitVec 64) (cpu : Nat) (before after : CoreWorld) : Prop where
  others : ∀ other ≠ cpu, SameCpu other before after
  inNmi : after.inNmi cpu = before.inNmi cpu
  globals : after.globals = before.globals
  labelled : Labelled value (before.notes cpu) → Labelled value (after.notes cpu)
  cleared : (after.notes cpu).cleared = (before.notes cpu).cleared
  pending : (after.notes cpu).pending = (before.notes cpu).pending
  overflows : (after.notes cpu).overflows = (before.notes cpu).overflows
  overflowed : (after.msrs cpu).overflowed = (before.msrs cpu).overflowed

theorem OwnWrite.owes {before after : CoreWorld} {debt : Nat}
    (write : OwnWrite value cpu before after)
    (times : after.percpuNmiTimes cpu = before.percpuNmiTimes cpu)
    (owes : Owes value cpu debt before) : Owes value cpu debt after := by
  constructor
  · exact write.labelled owes.labelled
  · rw [write.cleared]
    exact fun cleared => stored_of_globals write.globals (owes.stored cleared)
  · rw [write.cleared, write.overflows]
    exact owes.early
  · rw [write.cleared, write.overflows, write.pending, times]
    exact owes.balance
  · rw [write.cleared, write.pending, write.overflowed]
    exact owes.seen

theorem OwnWrite.guar {before after : CoreWorld} (write : OwnWrite value cpu before after)
    (inside : before.inNmi cpu = true) : OwingGuar value cpu before after :=
  ⟨write.others, write.cleared, write.globals,
    settled_of_inside (write.inNmi.trans inside)⟩

theorem ownWrite_wrmsr {context : Context} {addr : BitVec 32} {data : BitVec 64}
    (status : addr ≠ msrCorePerfGlobalStatus)
    (zero : addr = msrCorePerfGlobalOvfCtrl → data = 0) (world : CoreWorld)
    (loads : addr = msrIa32Pmc0 → data = 0 ∨ ((world.notes cpu).cleared = true → data = value)) :
    OwnWrite value cpu world (exec (.wrmsr context cpu addr data) world).2 := by
  have note : (exec (.wrmsr context cpu addr data) world).2.notes cpu =
      (world.notes cpu).wrmsr addr data := Function.update_self _ _ _
  have msrs : (exec (.wrmsr context cpu addr data) world).2.msrs cpu =
      (world.msrs cpu).wrmsr addr data := Function.update_self _ _ _
  obtain ⟨cleared, pending, overflows⟩ := (world.notes cpu).wrmsr_same addr data
  refine ⟨fun other apart => ⟨Function.update_of_ne apart _ _, rfl, rfl,
    Function.update_of_ne apart _ _⟩, rfl, rfl, ?_, ?_, ?_, ?_, ?_⟩
  · rw [note]
    exact fun labelled => labelled.wrmsr loads
  · rw [note, cleared]
  · rw [note, pending]
  · rw [note, overflows]
  · rw [msrs]
    exact overflowed_wrmsr _ status zero

theorem ownWrite_refl (world : CoreWorld) : OwnWrite value cpu world world :=
  ⟨fun _ _ => ⟨rfl, rfl, rfl, rfl⟩, rfl, rfl, id, rfl, rfl, rfl, rfl⟩

/-- PMC0 is loaded with 0, and once the count is `cleared` with nothing else but the new
value. -/
def Loads (value : BitVec 64) (cleared : Bool) : CoreOp → Prop
  | .wrmsr _ _ addr data => addr = msrIa32Pmc0 → data = 0 ∨ (cleared = true → data = value)
  | _ => True

/-- What the handler does between the read and the count. -/
def RestartWrite (value : BitVec 64) (cpu : Nat) (cleared : Bool) (op : CoreOp) : Prop :=
  RestartAccess cpu op ∧ Loads value cleared op

theorem RestartWrite.ownWrite {cleared : Bool} {op : CoreOp}
    (allowed : RestartWrite value cpu cleared op) {world : CoreWorld}
    (was : (world.notes cpu).cleared = cleared) :
    OwnWrite value cpu world (exec op world).2 ∧
      (exec op world).2.percpuNmiTimes cpu = world.percpuNmiTimes cpu := by
  rcases allowed with ⟨⟨acts, counts⟩, loads⟩
  cases op with
  | wrmsr context other addr data =>
      rcases acts with ⟨rfl, status, zero⟩
      refine ⟨ownWrite_wrmsr status zero world ?_, rfl⟩
      rw [was]
      exact loads
  | globals => exact ⟨ownWrite_refl world, rfl⟩
  | incNmiTimes other => exact absurd rfl (counts other)
  | rdmsr context other addr => exact absurd acts id
  | assign update => exact absurd acts id
  | clearNmiTimes other => exact absurd acts id
  | nmiReturn other => exact absurd acts id
  | nmiListDel => exact absurd acts id
  | synchronizeRcu => exact absurd acts id
  | mutexLock task => exact absurd acts id
  | mutexUnlock => exact absurd acts id
  | procRemove => exact absurd acts id

section Writes

variable {cleared : Bool} {addr : BitVec 32} {data : BitVec 64}

/-- A write to another register than PMC0. -/
theorem restartWrite_of_ne (apart : addr ≠ msrIa32Pmc0)
    (status : addr ≠ msrCorePerfGlobalStatus)
    (zero : addr = msrCorePerfGlobalOvfCtrl → data = 0) :
    RestartWrite value cpu cleared (.wrmsr .nmi cpu addr data) :=
  ⟨restartAccess_wrmsr status zero, fun same => absurd same apart⟩

theorem restartWrite_pmc0 (loads : data = 0 ∨ (cleared = true → data = value)) :
    RestartWrite value cpu cleared (.wrmsr .nmi cpu msrIa32Pmc0 data) :=
  ⟨restartAccess_wrmsr (by decide) (absurd · (by decide)), fun _ => loads⟩

end Writes

/-- The handler's guarantee and result, whatever its postcondition. -/
abbrev HandlerMeets (value : BitVec 64) (cpu : Nat) (post : CoreWorld → Prop)
    {α : Type} (program : CoreProgram α) (world : CoreWorld) : Prop :=
  Guarded undisturbedDevice (OwingRely value cpu) (OwingGuar value cpu) (fun _ => post) program
    world

theorem restart_owing {cleared : Bool} {debt : Nat} {part : CoreProgram Unit}
    (makes : part.Makes (RestartWrite value cpu cleared)) {world : CoreWorld}
    (owing : Owing value cpu cleared debt world) :
    HandlerMeets value cpu (Owing value cpu cleared debt) part world := by
  apply Guarded.of_makes makes owing_stable _ owing
  intro op allowed state held _
  have write := allowed.ownWrite held.cleared
  exact ⟨write.1.guar held.inside, write.1.inNmi.trans held.inside,
    write.1.cleared.trans held.cleared, write.1.overflowed.trans held.seen,
    write.1.owes write.2 held.owes⟩

/-- A handler that began after the clearing reads the new value, and loads PMC0 with it. -/
theorem enable_owing {cleared : Bool} {debt : Nat} {world : CoreWorld}
    (owing : Owing value cpu cleared debt world) :
    HandlerMeets value cpu (Owing value cpu cleared debt)
      (corePmuEnablePredefinedEventOnCpu .nmi cpu) world := by
  refine Guarded.access _ owing_stable owing fun later held _ =>
    ⟨(ownWrite_refl later).guar held.inside, ?_⟩
  have loads : cleared = true → initCount later.globals.preEventInitValue = value :=
    fun was => held.owes.stored (held.cleared.trans was)
  have globals : RestartWrite value cpu cleared .globals := ⟨restartAccess_globals cpu, trivial⟩
  have rest : (do
      let info ← access .globals
      corePmuWrmsr .nmi cpu msrIa32Pmc0 (initCount later.globals.preEventInitValue)
      corePmuWrmsr .nmi cpu msrIa32Perfevtsel0 (eventSelect info.preEventInfo.event) :
      CoreProgram Unit).Makes (RestartWrite value cpu cleared) :=
    ⟨globals, fun _ => ⟨restartWrite_pmc0 (.inr loads), fun _ =>
      ⟨restartWrite_of_ne (by decide) (by decide) (absurd · (by decide)), fun _ => trivial⟩⟩⟩
  exact restart_owing rest held

/-- The increment pays the debt. -/
theorem owing_incNmiTimes {cleared : Bool} {world : CoreWorld}
    (owing : Owing value cpu cleared 1 world) :
    OwingGuar value cpu world (exec (.incNmiTimes cpu) world).2 ∧
      Owing value cpu cleared 0 (exec (.incNmiTimes cpu) world).2 := by
  have paid : Owes value cpu 0 (exec (.incNmiTimes cpu) world).2 := by
    refine ⟨owing.owes.labelled, owing.owes.stored, owing.owes.early, ?_, owing.owes.seen⟩
    intro cleared
    have before := owing.owes.balance cleared
    have nothing : BitVec.ofNat 64 0 = 0#64 := rfl
    rw [nothing, BitVec.add_zero]
    show Function.update world.percpuNmiTimes cpu (world.percpuNmiTimes cpu + 1) cpu + _ = _
    rw [Function.update_self]
    exact before
  exact ⟨⟨fun other apart => ⟨rfl, Function.update_of_ne apart _ _, rfl, rfl⟩, rfl, rfl,
    settled_of_inside owing.inside⟩, owing.inside, owing.cleared, owing.seen, paid⟩

/-- The end of an NMI without a debt. -/
theorem nmiReturn_owing {world : CoreWorld} {assertion : CoreWorld → Prop}
    (stable : Stable (OwingRely value cpu) assertion)
    (owes : ∀ world, assertion world → Owes value cpu 0 world) (holds : assertion world) :
    HandlerMeets value cpu (fun _ => True) (access (.nmiReturn cpu)) world := by
  refine Guarded.access assertion stable holds fun later held _ => ⟨?_, fun _ _ => trivial⟩
  have debt := owes later held
  exact ⟨fun other apart => ⟨rfl, rfl, Function.update_of_ne apart _ _, rfl⟩, rfl, rfl,
    fun _ => ⟨debt.labelled, debt.stored, debt.early, debt.balance, debt.seen⟩⟩

/-- The NMI of an overflow has begun: it owes one, and will see the overflow if that is
counted. -/
structure Begun (value : BitVec 64) (cpu : Nat) (world : CoreWorld) : Prop where
  inside : world.inNmi cpu = true
  owes : Owes value cpu 1 world
  seen : (world.notes cpu).cleared = true → (world.msrs cpu).overflowed = true

theorem begun_stable : Stable (OwingRely value cpu) (Begun value cpu) := by
  intro before after rely begun
  refine ⟨rely.inNmi.trans begun.inside, rely.owes begun.inside 1 begun.owes, fun cleared => ?_⟩
  rw [rely.cleared begun.inside] at cleared
  exact rely.overflowed begun.inside (begun.seen cleared)

/-- A handler that has seen an overflow pays for it. -/
theorem count_owing {cleared : Bool} {world : CoreWorld}
    (owing : Owing value cpu cleared 1 world) :
    HandlerMeets value cpu (Owing value cpu cleared 0)
      ((corePmuClearMsrsOnCpu .nmi cpu).bind fun _ =>
        (corePmuEnablePredefinedEventOnCpu .nmi cpu).bind fun _ =>
          (corePmuEnableCountingOnCpu .nmi cpu).bind fun _ =>
            (access (.incNmiTimes cpu)).bind fun _ =>
              (Program.ret NmiResult.handled : CoreProgram NmiResult)) world := by
  have other : ∀ {addr : BitVec 32} {data : BitVec 64}, addr ≠ msrIa32Pmc0 →
      addr ≠ msrCorePerfGlobalStatus → (addr = msrCorePerfGlobalOvfCtrl → data = 0) →
      RestartWrite value cpu cleared (.wrmsr .nmi cpu addr data) := restartWrite_of_ne
  have clears : (corePmuClearMsrsOnCpu .nmi cpu).Makes (RestartWrite value cpu cleared) :=
    makes_clearMsrsOnCpu (restartWrite_pmc0 (.inl rfl))
      (other (by decide) (by decide) (absurd · (by decide)))
      (other (by decide) (by decide) (absurd · (by decide)))
      (other (by decide) (by decide) fun _ => rfl)
  have enables : (corePmuEnableCountingOnCpu .nmi cpu).Makes (RestartWrite value cpu cleared) :=
    makes_enableCountingOnCpu (other (by decide) (by decide) (absurd · (by decide)))
  apply (restart_owing clears owing).bind
  intro _ _ owing
  apply (enable_owing owing).bind
  intro _ _ owing
  apply (restart_owing enables owing).bind
  intro _ _ owing
  refine Guarded.access _ owing_stable owing fun final held _ => ?_
  have paid := owing_incNmiTimes held
  exact ⟨paid.1, Guarded.ret owing_stable paid.2⟩

/-- A handler pays its debt. -/
theorem runNmi_owing {world : CoreWorld} (begun : Begun value cpu world) :
    HandlerMeets value cpu (fun _ => True) (runNmi cpu) world := by
  refine Guarded.access _ begun_stable begun fun later held _ => ⟨?_, ?_⟩
  · exact (ownWrite_refl later).guar held.inside
  · show Guarded _ _ _ _ (Program.bind (if (later.msrs cpu).overflowed = true then _ else _) _)
      later
    by_cases seen : (later.msrs cpu).overflowed = true
    · rw [if_pos seen]
      have counts := count_owing ⟨held.inside, rfl, seen, held.owes⟩
      apply counts.bind
      intro _ _ paid
      exact nmiReturn_owing owing_stable (fun _ owing => owing.owes) paid
    · rw [if_neg seen]
      have early : (later.notes cpu).cleared = false := by
        cases cleared : (later.notes cpu).cleared with
        | false => rfl
        | true => exact absurd (held.seen cleared) seen
      have nothing : Early value cpu later := ⟨held.inside, early, held.owes.of_early early⟩
      exact nmiReturn_owing early_stable (fun _ held => held.owes) nothing

end Handler

/-! ### Handlers in progress when the write begins -/

/-- What a handler does before it returns. -/
def NmiAccess (cpu : Nat) : CoreOp → Prop
  | .rdmsr _ other _ => other = cpu
  | .wrmsr _ other _ _ => other = cpu
  | .globals => True
  | .incNmiTimes other => other = cpu
  | _ => False

/-- A handler is in progress on a processor, wherever it has got to. -/
def InProgress (cpu : Nat) (program : CoreProgram Unit) : Prop :=
  ∃ handler : CoreProgram NmiResult, handler.Makes (NmiAccess cpu) ∧
    program = handler.bind fun _ => access (.nmiReturn cpu)

theorem runNmi_inProgress (cpu : Nat) : InProgress cpu (runNmi cpu) :=
  ⟨corePmuNmiHandler cpu, makes_corePmuNmiHandler (fun _ => rfl) (fun _ _ => rfl) trivial rfl,
    rfl⟩

/-- What any history leaves in progress. -/
structure Underway (pool : CorePool) : Prop where
  task : (pool.threads none).Makes TaskAccess
  handlers : ∀ cpu, pool.threads (some cpu) = .ret () ∨
    pool.state.inNmi cpu = true ∧ InProgress cpu (pool.threads (some cpu))

theorem nmiAccess_inNmi {cpu : Nat} {op : CoreOp} (allowed : NmiAccess cpu op)
    (world : CoreWorld) : (exec op world).2.inNmi = world.inNmi := by
  cases op with
  | rdmsr context other addr => rfl
  | wrmsr context other addr data => rfl
  | globals => rfl
  | incNmiTimes other => rfl
  | assign update => exact absurd allowed id
  | clearNmiTimes other => exact absurd allowed id
  | nmiReturn other => exact absurd allowed id
  | nmiListDel => exact absurd allowed id
  | synchronizeRcu => exact absurd allowed id
  | mutexLock task => exact absurd allowed id
  | mutexUnlock => exact absurd allowed id
  | procRemove => exact absurd allowed id

/-- A step of a handler in progress: it goes on, or the NMI ends. -/
theorem InProgress.step {cpu : Nat} {op : CoreOp} {next : op.Res → CoreProgram Unit}
    (progress : InProgress cpu (.access op next)) (world : CoreWorld) :
    ((exec op world).2.inNmi = world.inNmi ∧ InProgress cpu (next (exec op world).1)) ∨
      ((exec op world).2.inNmi = Function.update world.inNmi cpu false ∧
        next (exec op world).1 = .ret ()) := by
  rcases progress with ⟨handler, makes, same⟩
  cases handler with
  | ret value =>
      cases same
      exact Or.inr ⟨rfl, rfl⟩
  | access first rest =>
      cases same
      exact Or.inl ⟨nmiAccess_inNmi makes.1 world, _, makes.2 _, rfl⟩

/-- One thread goes on, and no other processor enters or leaves its handler. -/
theorem Underway.update {before : CorePool} (underway : Underway before) {thread : Option Nat}
    {program : CoreProgram Unit} {world : CoreWorld}
    (task : thread = none → program.Makes TaskAccess)
    (own : ∀ cpu, thread = some cpu →
      program = .ret () ∨ world.inNmi cpu = true ∧ InProgress cpu program)
    (others : ∀ cpu, thread ≠ some cpu → world.inNmi cpu = before.state.inNmi cpu) :
    Underway ⟨Function.update before.threads thread program, world⟩ := by
  constructor
  · dsimp only
    by_cases moves : thread = none
    · rw [moves, Function.update_self]
      exact task moves
    · rw [Function.update_of_ne fun same => moves same.symm]
      exact underway.task
  · intro cpu
    dsimp only
    by_cases moves : thread = some cpu
    · rw [moves, Function.update_self]
      exact own cpu moves
    · rw [Function.update_of_ne fun same => moves same.symm, others cpu moves]
      exact underway.handlers cpu

theorem Underway.step {before after : CorePool} (underway : Underway before)
    (step : Pool.Step coreDevice Misses Earlier before after) : Underway after := by
  cases step with
  | environment moves =>
      cases moves with
      | miss cpu => exact ⟨underway.task, underway.handlers⟩
  | @access thread op next here ready =>
      cases thread with
      | none =>
          have makes := underway.task
          rw [here] at makes
          have guaranteed : TaskGuar before.state (exec op before.state).2 :=
            taskAccess_guar makes.1 ready
          apply underway.update
          · intro _
            exact makes.2 _
          · intro cpu same
            cases same
          · intro cpu _
            exact congrFun guaranteed.inNmi cpu
      | some own =>
          rcases underway.handlers own with idle | ⟨inside, progress⟩
          · rw [idle] at here
            cases here
          · rw [here] at progress
            have step := progress.step before.state
            apply underway.update
            · intro same
              cases same
            · intro cpu same
              cases same
              rcases step with ⟨inNmi, goes⟩ | ⟨_, ends⟩
              · exact Or.inr ⟨(congrFun inNmi own).trans inside, goes⟩
              · exact Or.inl ends
            · intro cpu apart
              rcases step with ⟨inNmi, _⟩ | ⟨inNmi, _⟩
              · exact congrFun inNmi cpu
              · have other : cpu ≠ own := fun same => apart (congrArg some same.symm)
                exact (congrFun inNmi cpu).trans (Function.update_of_ne other _ _)
  | launch launches =>
      cases launches with
      | nmi arrives =>
          cases arrives with
          | @nmi own idle outside registered permitted =>
              apply underway.update
              · intro same
                cases same
              · intro cpu same
                cases same
                exact Or.inr ⟨Function.update_self _ _ _, runNmi_inProgress own⟩
              · intro cpu apart
                have other : cpu ≠ own := fun same => apart (congrArg some same.symm)
                exact Function.update_of_ne other _ _
      | task idle makes =>
          apply underway.update
          · intro _
            exact makes
          · intro cpu same
            cases same
          · intro cpu _
            rfl

/-- After any history only handlers of processors in an NMI are in progress. -/
theorem earlier_underway {world : CoreWorld} {before : CorePool}
    (history : Pool.Reaches coreDevice Misses Earlier (idlePool world) before) :
    Underway before := by
  induction history with
  | refl => exact ⟨trivial, fun _ => Or.inl rfl⟩
  | tail _ step ih => exact ih.step step

/-- What a handler in progress does while its processor's count has not been cleared. -/
theorem nmiAccess_early {value : BitVec 64} {cpu : Nat} {op : CoreOp}
    (allowed : NmiAccess cpu op) {world : CoreWorld} (held : Early value cpu world) :
    OwingGuar value cpu world (exec op world).2 ∧ Early value cpu (exec op world).2 := by
  have done : ∀ {after : CoreWorld}, (∀ other ≠ cpu, SameCpu other world after) →
      after.inNmi cpu = world.inNmi cpu → after.globals = world.globals →
      Labelled value (after.notes cpu) →
      (after.notes cpu).cleared = (world.notes cpu).cleared →
      (after.notes cpu).overflows = (world.notes cpu).overflows →
      OwingGuar value cpu world after ∧ Early value cpu after := by
    intro after others inNmi globals labelled cleared overflows
    have inside := inNmi.trans held.inside
    have early := cleared.trans held.early
    have absent : ∀ {fact : Prop}, (after.notes cpu).cleared = true → fact := by
      intro fact was
      rw [early] at was
      cases was
    refine ⟨⟨others, cleared, globals, settled_of_inside inside⟩, inside, early, labelled, absent,
      fun _ => ?_, absent, absent⟩
    rw [overflows]
    exact held.owes.early held.early
  have labelled := held.owes.labelled
  cases op with
  | rdmsr context other addr =>
      exact done (fun _ _ => ⟨rfl, rfl, rfl, rfl⟩) rfl rfl labelled rfl rfl
  | wrmsr context other addr data =>
      have own : other = cpu := allowed
      subst own
      have note : (exec (.wrmsr context other addr data) world).2.notes other =
          (world.notes other).wrmsr addr data := Function.update_self _ _ _
      obtain ⟨cleared, -, overflows⟩ := (world.notes other).wrmsr_same addr data
      refine done (fun apart other => ⟨Function.update_of_ne other _ _, rfl, rfl,
        Function.update_of_ne other _ _⟩) rfl rfl ?_ ?_ ?_
      · rw [note]
        apply labelled.wrmsr
        intro _
        refine Or.inr fun was => ?_
        rw [held.early] at was
        cases was
      · rw [note, cleared]
      · rw [note, overflows]
  | globals => exact done (fun _ _ => ⟨rfl, rfl, rfl, rfl⟩) rfl rfl labelled rfl rfl
  | incNmiTimes other =>
      have own : other = cpu := allowed
      subst own
      exact done (fun _ apart => ⟨rfl, Function.update_of_ne apart _ _, rfl, rfl⟩) rfl rfl
        labelled rfl rfl
  | assign update => exact absurd allowed id
  | clearNmiTimes other => exact absurd allowed id
  | nmiReturn other => exact absurd allowed id
  | nmiListDel => exact absurd allowed id
  | synchronizeRcu => exact absurd allowed id
  | mutexLock task => exact absurd allowed id
  | mutexUnlock => exact absurd allowed id
  | procRemove => exact absurd allowed id

theorem inProgress_owing {value : BitVec 64} {cpu : Nat} {program : CoreProgram Unit}
    (progress : InProgress cpu program) {world : CoreWorld} (early : Early value cpu world) :
    HandlerMeets value cpu (fun _ => True) program world := by
  rcases progress with ⟨handler, makes, same⟩
  have keeps : HandlerMeets value cpu (Early value cpu) handler world :=
    Guarded.of_makes makes early_stable
      (fun _ allowed _ held _ => nmiAccess_early allowed held) early
  rw [same]
  apply keeps.bind
  intro _ _ held
  exact nmiReturn_owing early_stable (fun _ held => held.owes) held

/-- The debt of an overflow passes from the NMI on its way to the handler that begins. -/
theorem begun_of_pending {value : BitVec 64} {cpu : Nat} {world : CoreWorld}
    (settled : Owes value cpu 0 world) (pending : (world.notes cpu).pending = true) :
    Begun value cpu ((world.setInNmi cpu true).setNote cpu
      { world.notes cpu with pending := false }) := by
  let begun := (world.setInNmi cpu true).setNote cpu { world.notes cpu with pending := false }
  have note : begun.notes cpu = { world.notes cpu with pending := false } :=
    Function.update_self _ _ _
  have owes : Owes value cpu 1 begun := by
    constructor
    · rw [note]
      exact ⟨settled.labelled.loaded, settled.labelled.programmed⟩
    · rw [note]
      exact settled.stored
    · rw [note]
      exact settled.early
    · rw [note]
      intro cleared
      have balance := settled.balance cleared
      rw [pending] at balance
      have nothing : BitVec.ofNat 64 0 = 0#64 := rfl
      rw [nothing, BitVec.add_zero] at balance
      have none' : BitVec.ofNat 64 false.toNat = 0#64 := rfl
      dsimp only
      rw [none', BitVec.add_zero]
      exact balance
    · rw [note]
      intro _ sent
      cases sent
  refine ⟨Function.update_self _ _ _, owes, ?_⟩
  show (begun.notes cpu).cleared = true → _
  rw [note]
  exact fun cleared => settled.seen cleared pending

/-- The NMI of an overflow starts a handler that meets its obligation. -/
theorem overflowNmi_meets {value : BitVec 64} {post : CoreWorld → Prop} {pool : CorePool}
    {thread : Option Nat} {program : CoreProgram Unit} {after : CoreWorld}
    (meets : Pool.Meets undisturbedDevice (restartRely value) (restartGuar value)
      (fun thread _ => if thread = none then post else fun _ => True) (AllSettled value) pool)
    (launches : OverflowNmi pool thread program after) :
    Pool.Meets undisturbedDevice (restartRely value) (restartGuar value)
      (fun thread _ => if thread = none then post else fun _ => True) (AllSettled value)
      ⟨Function.update pool.threads thread program, after⟩ := by
  cases launches with
  | @nmi cpu idle outside registered pending =>
      let begun := (pool.state.setInNmi cpu true).setNote cpu
        { pool.state.notes cpu with pending := false }
      have note : begun.notes cpu = { pool.state.notes cpu with pending := false } :=
        Function.update_self _ _ _
      have inside : begun.inNmi cpu = true := Function.update_self _ _ _
      have elsewhere : ∀ other ≠ cpu, SameCpu other pool.state begun := fun other apart =>
        ⟨rfl, rfl, Function.update_of_ne apart _ _, Function.update_of_ne apart _ _⟩
      have starts : Begun value cpu begun := begun_of_pending (meets.holds cpu outside) pending
      constructor
      · intro other
        by_cases same : other = some cpu
        · subst same
          dsimp only
          rw [Function.update_self, if_neg (Option.some_ne_none cpu)]
          exact runNmi_owing starts
        · dsimp only
          rw [Function.update_of_ne same]
          apply (meets.guarded other).of_rely
          apply ReflTransGen.single
          cases other with
          | none =>
              refine ⟨fun apart => ?_, rfl⟩
              by_cases equal : apart = cpu
              · rw [equal]
                show (begun.notes cpu).cleared = (pool.state.notes cpu).cleared
                rw [note]
              · rw [(elsewhere apart equal).note]
          | some apart =>
              have kept := elsewhere apart fun equal => same (congrArg some equal)
              exact kept.owingRely (stored_of_globals rfl)
      · intro other outside'
        by_cases same : other = cpu
        · subst same
          exact settled_of_inside inside outside'
        · have kept := elsewhere other same
          exact kept.owes (stored_of_globals rfl)
            (meets.holds other (kept.inNmi.symm.trans outside'))

/-! ## The task -/

section Task

variable {value : BitVec 64}

/-- Where the clearing has got to: the processors of `rest` are still to be cleared. -/
structure Clearing (online rest : List Nat) (world : CoreWorld) : Prop where
  cleared : ∀ cpu ∈ online, cpu ∈ rest ∨ (world.notes cpu).cleared = true
  left : ∀ cpu ∈ rest, (world.notes cpu).cleared = false
  nodup : rest.Nodup

theorem Clearing.rely {online rest : List Nat} {before after : CoreWorld}
    (clearing : Clearing online rest before)
    (same : ∀ cpu, (after.notes cpu).cleared = (before.notes cpu).cleared) :
    Clearing online rest after := by
  refine ⟨fun cpu mem => ?_, fun cpu mem => ?_, clearing.nodup⟩
  · rw [same cpu]
    exact clearing.cleared cpu mem
  · rw [same cpu]
    exact clearing.left cpu mem

theorem clearing_stable (online rest : List Nat) : Stable ClearedRely (Clearing online rest) :=
  fun _ _ rely held => held.rely rely.cleared

/-- The same, with the new value stored. -/
structure Renewing (value : BitVec 64) (online rest : List Nat) (world : CoreWorld) : Prop
    extends Clearing online rest world where
  stored : Stored value world

theorem renewing_stable (online rest : List Nat) :
    Stable ClearedRely (Renewing value online rest) :=
  fun _ _ rely held => ⟨held.rely rely.cleared, stored_of_globals rely.globals held.stored⟩

theorem clearingGuar_of_same {before after : CoreWorld}
    (keeps : Stored value before → Stored value after)
    (same : ∀ cpu, SameCpu cpu before after) : ClearingGuar value before after where
  stored := keeps
  inside cpu _ := same cpu
  outside cpu outside := ⟨(same cpu).inNmi.trans outside, (same cpu).owes keeps⟩

/-- The accesses of the task once it has stored the value, besides the clearing of counts. -/
def Reprogram (value : BitVec 64) : CoreOp → Prop
  | .wrmsr context _ addr data => context = .task ∧ addr ≠ msrCorePerfGlobalStatus ∧
      (addr = msrCorePerfGlobalOvfCtrl → data = 0) ∧
      (addr = msrIa32Pmc0 → data = 0 ∨ data = value)
  | .globals => True
  | .assign update => ∀ state, (update state).preEventInitValue = state.preEventInitValue
  | .mutexUnlock => True
  | _ => False

/-- They clear no count, and no debt comes of them. -/
theorem reprogram_guar {op : CoreOp} (allowed : Reprogram value op) {world : CoreWorld}
    (ready : ready op world) :
    ClearingGuar value world (exec op world).2 ∧
      (∀ cpu, ((exec op world).2.notes cpu).cleared = (world.notes cpu).cleared) := by
  cases op with
  | wrmsr context own addr data =>
      rcases allowed with ⟨rfl, status, zero, loads⟩
      have outside : world.inNmi own = false := ready
      have write : OwnWrite value own world (exec (.wrmsr .task own addr data) world).2 :=
        ownWrite_wrmsr status zero world fun counter => (loads counter).imp_right fun new _ => new
      refine ⟨⟨stored_of_globals write.globals, fun cpu inside => ?_,
        fun cpu apart => ⟨apart, fun owes => ?_⟩⟩, fun cpu => ?_⟩
      · apply write.others cpu
        intro same
        rw [same, outside] at inside
        cases inside
      · by_cases same : cpu = own
        · subst same
          exact write.owes rfl owes
        · exact (write.others cpu same).owes (stored_of_globals write.globals) owes
      · by_cases same : cpu = own
        · rw [same]
          exact write.cleared
        · rw [(write.others cpu same).note]
  | globals => exact ⟨clearingGuar_of_same id fun _ => ⟨rfl, rfl, rfl, rfl⟩, fun _ => rfl⟩
  | assign update =>
      refine ⟨clearingGuar_of_same (fun stored => ?_) fun _ => ⟨rfl, rfl, rfl, rfl⟩, fun _ => rfl⟩
      show initCount (update world.globals).preEventInitValue = value
      rw [allowed world.globals]
      exact stored
  | mutexUnlock => exact ⟨clearingGuar_of_same id fun _ => ⟨rfl, rfl, rfl, rfl⟩, fun _ => rfl⟩
  | mutexLock task => exact absurd allowed id
  | rdmsr context other addr => exact absurd allowed id
  | clearNmiTimes other => exact absurd allowed id
  | incNmiTimes other => exact absurd allowed id
  | nmiReturn other => exact absurd allowed id
  | nmiListDel => exact absurd allowed id
  | synchronizeRcu => exact absurd allowed id
  | procRemove => exact absurd allowed id

/-- The task's guarantee and result. -/
abbrev TaskMeets (value : BitVec 64) (post : CoreWorld → Prop) {α : Type}
    (program : CoreProgram α) (world : CoreWorld) : Prop :=
  Guarded undisturbedDevice ClearedRely (ClearingGuar value) (fun _ => post) program world

theorem reprogram_meets {online rest : List Nat} {α : Type} {program : CoreProgram α}
    (makes : program.Makes (Reprogram value)) {world : CoreWorld}
    (held : Renewing value online rest world) :
    TaskMeets value (Renewing value online rest) program world := by
  apply Guarded.of_makes makes (renewing_stable online rest) _ held
  intro op allowed state held ready
  obtain ⟨step, cleared⟩ := reprogram_guar allowed ready.1
  exact ⟨step, held.rely cleared, step.stored held.stored⟩

/-- The count of a processor is cleared: it had no overflow of the new value yet. -/
theorem clearNmiTimes_guar {own : Nat} {world : CoreWorld}
    (ready : undisturbedDevice.ready (.clearNmiTimes own) world)
    (early : (world.notes own).cleared = false) (stored : Stored value world) :
    ClearingGuar value world (exec (.clearNmiTimes own) world).2 := by
  have elsewhere : ∀ cpu ≠ own, SameCpu cpu world (exec (.clearNmiTimes own) world).2 :=
    fun cpu apart => ⟨rfl, Function.update_of_ne apart _ _, rfl, Function.update_of_ne apart _ _⟩
  rcases ready with ⟨-, outside, pending⟩
  refine ⟨id, fun cpu inside => ?_, fun cpu apart => ⟨apart, fun owes => ?_⟩⟩
  · apply elsewhere
    intro same
    rw [same, outside] at inside
    cases inside
  · by_cases same : cpu = own
    · subst same
      have note : (exec (.clearNmiTimes cpu) world).2.notes cpu = (world.notes cpu).clear :=
        Function.update_self _ _ _
      have times : (exec (.clearNmiTimes cpu) world).2.percpuNmiTimes cpu = 0#64 :=
        Function.update_self _ _ _
      refine ⟨?_, fun _ => stored, fun was => ?_, fun _ => ?_, fun _ sent => ?_⟩
      · rw [note]
        refine ⟨owes.labelled.loaded, fun _ programmed => ?_⟩
        cases programmed
      · rw [note] at was
        cases was
      · rw [note, times, CoreNote.clear]
        dsimp only
        rw [pending, owes.early early]
        rfl
      · rw [note] at sent
        rw [show (world.notes cpu).pending = true from sent] at pending
        cases pending
    · exact (elsewhere cpu same).owes id owes

/-- `core_pmu_clear_counter` clears every online processor's count. -/
theorem corePmuClearCounter_meets {online : List Nat} {world : CoreWorld}
    (held : Renewing value online online world) :
    TaskMeets value (Renewing value online []) (corePmuClearCounter online) world := by
  apply Guarded.forEach (Renewing value online) (renewing_stable online []) _ held
  intro own rest state round
  refine Guarded.access _ (renewing_stable online (own :: rest)) round fun later held ready =>
    ⟨clearNmiTimes_guar ready (held.left own List.mem_cons_self) held.stored, ?_⟩
  have nodup := List.nodup_cons.mp held.nodup
  have note : ∀ cpu ≠ own, (exec (.clearNmiTimes own) later).2.notes cpu = later.notes cpu :=
    fun cpu apart => Function.update_of_ne apart _ _
  have own' : ((exec (.clearNmiTimes own) later).2.notes own).cleared = true := by
    show (Function.update later.notes own (later.notes own).clear own).cleared = true
    rw [Function.update_self]
    rfl
  have done : Clearing online rest (exec (.clearNmiTimes own) later).2 := by
    refine ⟨fun cpu mem => ?_, fun cpu mem => ?_, nodup.2⟩
    · by_cases same : cpu = own
      · rw [same]
        exact Or.inr own'
      · rw [note cpu same]
        rcases held.cleared cpu mem with waits | cleared
        · exact Or.inl ((List.mem_cons.mp waits).resolve_left same)
        · exact Or.inr cleared
    · have apart : cpu ≠ own := fun same => nodup.1 (same ▸ mem)
      rw [note cpu apart]
      exact held.left cpu (List.mem_cons_of_mem _ mem)
  exact Guarded.ret (renewing_stable online rest) ⟨done, held.stored⟩

/-- A write to another register than PMC0. -/
theorem reprogram_wrmsr {cpu : Nat} {addr : BitVec 32} {data : BitVec 64}
    (status : addr ≠ msrCorePerfGlobalStatus) (control : addr ≠ msrCorePerfGlobalOvfCtrl)
    (counter : addr ≠ msrIa32Pmc0) : Reprogram value (.wrmsr .task cpu addr data) :=
  ⟨rfl, status, fun same => absurd same control, fun same => absurd same counter⟩

theorem reprogram_pmc0 {cpu : Nat} {data : BitVec 64} (loads : data = 0 ∨ data = value) :
    Reprogram value (.wrmsr .task cpu msrIa32Pmc0 data) :=
  ⟨rfl, by decide, fun same => absurd same (by decide), fun _ => loads⟩

theorem corePmuClearMsrsOnCpu_reprograms (cpu : Nat) :
    (corePmuClearMsrsOnCpu .task cpu).Makes (Reprogram value) := by
  have acknowledge : Reprogram value (.wrmsr .task cpu msrCorePerfGlobalOvfCtrl 0) :=
    ⟨rfl, by decide, fun _ => rfl, fun same => absurd same (by decide)⟩
  exact makes_clearMsrsOnCpu (reprogram_pmc0 (.inl rfl))
    (reprogram_wrmsr (by decide) (by decide) (by decide))
    (reprogram_wrmsr (by decide) (by decide) (by decide)) acknowledge

/-- The task reads the value it has stored, and loads PMC0 with it. -/
theorem enablePredefinedEventOnCpu_meets {online rest : List Nat} (cpu : Nat)
    {world : CoreWorld} (held : Renewing value online rest world) :
    TaskMeets value (Renewing value online rest) (corePmuEnablePredefinedEventOnCpu .task cpu)
      world := by
  refine Guarded.access _ (renewing_stable online rest) held fun later held _ =>
    ⟨clearingGuar_of_same id fun _ => ⟨rfl, rfl, rfl, rfl⟩, ?_⟩
  have loads : Reprogram value
      (.wrmsr .task cpu msrIa32Pmc0 (initCount later.globals.preEventInitValue)) :=
    reprogram_pmc0 (.inr held.stored)
  have selects : ∀ event : PerfEventId,
      Reprogram value (.wrmsr .task cpu msrIa32Perfevtsel0 (eventSelect event)) :=
    fun _ => reprogram_wrmsr (by decide) (by decide) (by decide)
  have makes : (do
      let info ← access .globals
      corePmuWrmsr .task cpu msrIa32Pmc0 (initCount later.globals.preEventInitValue)
      corePmuWrmsr .task cpu msrIa32Perfevtsel0 (eventSelect info.preEventInfo.event) :
      CoreProgram Unit).Makes (Reprogram value) :=
    ⟨trivial, fun info => ⟨loads, fun _ => ⟨selects info.preEventInfo.event, fun _ => trivial⟩⟩⟩
  exact reprogram_meets makes held

theorem corePmuEnablePredefinedEvent_meets {online rest : List Nat} (cpus : List Nat)
    (threshold : BitVec 64) {world : CoreWorld} (held : Renewing value online rest world) :
    TaskMeets value (Renewing value online rest)
      (corePmuEnablePredefinedEvent cpus .llcMisses threshold) world := by
  have assigns : ∀ change : PreEvent → PreEvent,
      (access (.assign fun state =>
        { state with preEventInfo := change state.preEventInfo })).Makes (Reprogram value) :=
    fun _ => ⟨fun _ => rfl, fun _ => trivial⟩
  apply (reprogram_meets (assigns fun info => { info with event := .llcMisses }) held).bind
  intro _ _ held
  apply (reprogram_meets (assigns fun info => { info with threshold := threshold }) held).bind
  intro _ _ held
  exact Guarded.forEach (fun _ => Renewing value online rest) (renewing_stable online rest)
    (fun cpu _ _ held => enablePredefinedEventOnCpu_meets cpu held) held

/-- `core_pmu_start_sampling` reprograms with the value that is stored. -/
theorem corePmuStartSampling_meets {online rest : List Nat} (cpus : List Nat)
    {world : CoreWorld} (held : Renewing value online rest world) :
    TaskMeets value (Renewing value online rest) (corePmuStartSampling cpus) world := by
  have clears : (corePmuClearMsrs cpus).Makes (Reprogram value) :=
    .forEach fun cpu _ => corePmuClearMsrsOnCpu_reprograms cpu
  have enables : (corePmuEnableCounting cpus).Makes (Reprogram value) :=
    .forEach fun _ _ =>
      makes_enableCountingOnCpu (reprogram_wrmsr (by decide) (by decide) (by decide))
  have reads : (access .globals).Makes (Reprogram value) := ⟨trivial, fun _ => trivial⟩
  apply (reprogram_meets clears held).bind
  intro _ _ held
  apply (reprogram_meets reads held).bind
  intro _ _ held
  apply (corePmuEnablePredefinedEvent_meets cpus _ held).bind
  intro _ _ held
  exact reprogram_meets enables held

/-- The cases `'1'` to `'4'` are apart from the case `'0'`. -/
theorem switchSampling_of_value {online : List Nat} {ctl : BitVec 8} {count : Nat}
    (sampling : samplingValue ctl = some value) :
    switchSampling online ctl count =
      (restartSampling online value).bind fun _ => .ret (count : Int) := by
  have other : ctl ≠ 0x30 := by
    intro stop
    rw [stop] at sampling
    cases sampling
  rw [switchSampling, if_neg other, sampling]
  rfl

/-- The write clears every online processor's count once, with its value stored. -/
theorem writeTask_meets {online : List Nat} {task : Nat} {ctl newline : BitVec 8}
    {other : BitVec 64} (sampling : samplingValue ctl = some other) {world : CoreWorld}
    (held : Clearing online online world) :
    TaskMeets (initCount other) (Clearing online []) (writeTask online task ctl newline)
      world := by
  let value := initCount other
  have ended : ∀ {α : Type} (result : α) {later : CoreWorld}, Renewing value online [] later →
      TaskMeets value (Clearing online []) (Program.ret result) later :=
    fun _ _ done => Guarded.ret (clearing_stable online []) done.toClearing
  have restarts : ∀ later, Clearing online online later →
      TaskMeets value (Renewing value online []) (restartSampling online other) later := by
    intro later held
    refine Guarded.access _ (clearing_stable online online) held fun later held _ =>
      ⟨clearingGuar_of_same (fun _ => rfl) fun _ => ⟨rfl, rfl, rfl, rfl⟩, ?_⟩
    have stored : Renewing value online online (exec (.assign fun state =>
        { state with preEventInitValue := other }) later).2 :=
      ⟨held.rely fun _ => rfl, rfl⟩
    apply (corePmuClearCounter_meets stored).bind
    intro _ _ held
    exact corePmuStartSampling_meets online held
  have unlocks : (access .mutexUnlock).Makes (Reprogram value) := ⟨trivial, fun _ => trivial⟩
  refine Guarded.bind ?_ fun _ _ done => Guarded.ret (clearing_stable online []) done
  refine Guarded.access _ (clearing_stable online online) held fun locked held _ =>
    ⟨clearingGuar_of_same id fun _ => ⟨rfl, rfl, rfl, rfl⟩, ?_⟩
  let later := (exec (.mutexLock task) locked).2
  have held : Clearing online online later := ⟨held.cleared, held.left, held.nodup⟩
  show Guarded _ _ _ _ ((switchSampling online ctl 2).bind _) later
  rw [switchSampling_of_value sampling, Program.bind_assoc]
  apply (restarts later held).bind
  intro _ _ held
  apply (reprogram_meets unlocks held).bind
  intro _ _ held
  exact ended _ held

end Task

/-! ## The result -/

/-- The statistics start afresh: after any history, once a write of `'1'` to `'4'` has
returned, the count of every online processor that has no NMI on its way or in progress is
the number of its overflows of intervals that were started with the new value since the
write began. -/
theorem nmiTimes_of_reaches {online : List Nat} (nodup : online.Nodup) (task : Nat)
    (ctl newline : BitVec 8) {value : BitVec 64} (sampling : samplingValue ctl = some value)
    (waiting : Nat → Bool) {world : CoreWorld} {before : CorePool}
    (history : Pool.Reaches coreDevice Misses Earlier (idlePool world) before)
    {pool : CorePool}
    (run : Pool.Reaches undisturbedDevice (Overflows (OutsideWindow (initCount value))) OverflowNmi
      (writing online task ctl newline waiting before) pool)
    (returned : pool.threads none = .ret ()) :
    ∀ cpu ∈ online, pool.state.inNmi cpu = false → (pool.state.notes cpu).pending = false →
      pool.state.percpuNmiTimes cpu =
        BitVec.ofNat 64 ((pool.state.notes cpu).overflows (initCount value)) := by
  let start := writing online task ctl newline waiting before
  let post : Option Nat → Unit → CoreWorld → Prop := fun thread _ =>
    if thread = none then Clearing online [] else fun _ => True
  have fresh : ∀ cpu debt, Owes (initCount value) cpu debt start.state := by
    intro cpu debt
    refine ⟨⟨fun loaded => ?_, fun cleared => ?_⟩, fun cleared => ?_, fun _ => rfl,
      fun cleared => ?_, fun cleared => ?_⟩
    · cases loaded
    · cases cleared
    · cases cleared
    · cases cleared
    · cases cleared
  have begins : Pool.Meets undisturbedDevice (restartRely (initCount value))
      (restartGuar (initCount value)) post (AllSettled (initCount value)) start := by
    refine ⟨fun thread => ?_, fun cpu _ => fresh cpu 0⟩
    cases thread with
    | none =>
        have held : Clearing online online start.state :=
          ⟨fun _ mem => Or.inl mem, fun _ _ => rfl, nodup⟩
        dsimp only [start, writing]
        rw [Function.update_self]
        exact writeTask_meets sampling held
    | some cpu =>
        dsimp only [start, writing]
        rw [Function.update_of_ne (Option.some_ne_none cpu)]
        rcases (earlier_underway history).handlers cpu with idle | ⟨inside, progress⟩
        · rw [idle]
          exact fun _ _ => trivial
        · exact inProgress_owing progress ⟨inside, rfl, fresh cpu 0⟩
  have ended : Pool.Meets undisturbedDevice (restartRely (initCount value))
      (restartGuar (initCount value)) post (AllSettled (initCount value)) pool := by
    apply Pool.Meets.reaches restart_compatible _ begins run
    intro pool thread program after meets launches
    exact overflowNmi_meets meets launches
  intro cpu mem outside pending
  have done : Clearing online [] pool.state := by
    have task := ended.guarded none
    rw [returned] at task
    exact task _ .refl
  have cleared := (done.cleared cpu mem).resolve_left List.not_mem_nil
  have balance := (ended.holds cpu outside).balance cleared
  rw [pending] at balance
  have nothing : BitVec.ofNat 64 0 = 0#64 := rfl
  have none' : BitVec.ofNat 64 false.toNat = 0#64 := rfl
  rw [nothing, none', BitVec.add_zero, BitVec.add_zero] at balance
  exact balance

/-! ### One processor -/

section OneCpu

variable {may : CoreWorld → Nat → Prop} {threads : Option Nat → CoreProgram Unit}
  {world : CoreWorld}

/-- No processor is in an NMI, or has one on its way. -/
def Undisrupted (world : CoreWorld) : Prop :=
  ∀ cpu, world.inNmi cpu = false ∧ (world.notes cpu).pending = false

/-- An access that waits for no more than that. -/
def Unhindered (op : CoreOp) : Prop :=
  ∀ world, Undisrupted world → undisturbedDevice.ready op world ∧
    Undisrupted (undisturbedDevice.exec op world).2

theorem pending_wrmsr {context : Context} {cpu : Nat} {addr : BitVec 32} {data : BitVec 64}
    (world : CoreWorld) (other : Nat) :
    ((exec (.wrmsr context cpu addr data) world).2.notes other).pending =
      (world.notes other).pending := by
  show (Function.update world.notes cpu ((world.notes cpu).wrmsr addr data) other).pending = _
  by_cases same : other = cpu
  · rw [same, Function.update_self, ((world.notes cpu).wrmsr_same addr data).2.1]
  · rw [Function.update_of_ne same]

theorem wrmsr_unhindered (cpu : Nat) (addr : BitVec 32) (data : BitVec 64) :
    Unhindered (.wrmsr .task cpu addr data) :=
  fun world undisrupted => ⟨⟨(undisrupted cpu).1, trivial⟩, fun other =>
    ⟨(undisrupted other).1, (pending_wrmsr world other).trans (undisrupted other).2⟩⟩

theorem clearNmiTimes_unhindered (own : Nat) : Unhindered (.clearNmiTimes own) := by
  intro world undisrupted
  refine ⟨⟨trivial, undisrupted own⟩, fun cpu => ⟨(undisrupted cpu).1, ?_⟩⟩
  show (Function.update world.notes own (world.notes own).clear cpu).pending = false
  by_cases same : cpu = own
  · rw [same, Function.update_self]
    exact (undisrupted own).2
  · rw [Function.update_of_ne same]
    exact (undisrupted cpu).2

/-- What is left of a write once its task has the mutex. -/
def lockedTask (online : List Nat) : CoreProgram Unit :=
  ((switchSampling online 0x31 2).bind fun count =>
    (access .mutexUnlock).bind fun _ => Program.ret count).bind fun _ => .ret ()

theorem lockedTask_unhindered (online : List Nat) : (lockedTask online).Makes Unhindered := by
  have plain : ∀ {op : CoreOp}, Unhindered op → (access op).Makes Unhindered :=
    fun unhindered => ⟨unhindered, fun _ => trivial⟩
  have globals : Unhindered .globals := fun _ undisrupted => ⟨⟨trivial, trivial⟩, undisrupted⟩
  have assigns : ∀ update, Unhindered (.assign update) :=
    fun _ _ undisrupted => ⟨⟨trivial, trivial⟩, undisrupted⟩
  have unlocks : Unhindered .mutexUnlock := fun _ undisrupted => ⟨⟨trivial, trivial⟩, undisrupted⟩
  have clears : (corePmuClearCounter online).Makes Unhindered :=
    .forEach fun cpu _ => plain (clearNmiTimes_unhindered cpu)
  have starts : (corePmuStartSampling online).Makes Unhindered :=
    makes_corePmuStartSampling online globals assigns
      (fun cpu _ => makes_clearMsrsOnCpu (wrmsr_unhindered cpu _ _) (wrmsr_unhindered cpu _ _)
        (wrmsr_unhindered cpu _ _) (wrmsr_unhindered cpu _ _))
      (fun cpu _ => makes_enablePredefinedEventOnCpu globals
        (fun _ => wrmsr_unhindered cpu _ _) fun _ => wrmsr_unhindered cpu _ _)
      fun cpu _ => makes_enableCountingOnCpu (wrmsr_unhindered cpu _ _)
  have restarts : (restartSampling online (-32)).Makes Unhindered :=
    (plain (assigns _)).bind fun _ => clears.bind fun _ => starts
  have switches : (switchSampling online 0x31 2).Makes Unhindered := restarts.bind fun _ => trivial
  have finishes : ∀ count : Int, ((access .mutexUnlock).bind fun _ =>
      (Program.ret count : CoreProgram Int)).Makes Unhindered :=
    fun _ => (plain unlocks).bind fun _ => trivial
  exact (switches.bind finishes).bind fun _ => trivial

/-- A processor's counter wraps, and its NMI comes and goes. -/
def handledWorld (cpu : Nat) (world : CoreWorld) : CoreWorld :=
  let wrapped := (world.setMsrs cpu (world.msrs cpu).miss).setNote cpu (world.notes cpu).overflow
  nmiWorld cpu (wrapped.setNote cpu { wrapped.notes cpu with pending := false })

/-- A handler raises no NMI. -/
theorem nmiWorld_pending (cpu other : Nat) (world : CoreWorld) :
    ((nmiWorld cpu world).notes other).pending = (world.notes other).pending := by
  have keeps : (runNmi cpu).Makes fun op => ∀ state,
      ((exec op state).2.notes other).pending = (state.notes other).pending :=
    (makes_corePmuNmiHandler (fun _ _ => rfl) (fun _ _ state => pending_wrmsr state other)
      (fun _ => rfl) fun _ => rfl).bind fun _ => ⟨fun _ => rfl, fun _ => trivial⟩
  have kept : ∀ op, (∀ state : CoreWorld,
      ((exec op state).2.notes other).pending = (state.notes other).pending) →
      ∀ state : CoreWorld, (state.notes other).pending = (world.notes other).pending →
        ((exec op state).2.notes other).pending = (world.notes other).pending :=
    fun _ keeps state held => (keeps state).trans held
  exact keeps.run kept rfl

theorem handledWorld_undisrupted (cpu : Nat) (undisrupted : Undisrupted world) :
    Undisrupted (handledWorld cpu world) := by
  intro other
  rw [handledWorld, nmiWorld_inNmi, nmiWorld_pending]
  by_cases here : other = cpu
  · subst here
    refine ⟨Function.update_self _ _ _, ?_⟩
    show (Function.update (Function.update world.notes other _) other _ other).pending = false
    rw [Function.update_self]
  · rw [Function.update_of_ne here]
    refine ⟨(undisrupted other).1, ?_⟩
    show (Function.update (Function.update world.notes cpu _) cpu _ other).pending = false
    rw [Function.update_of_ne here, Function.update_of_ne here]
    exact (undisrupted other).2

/-- An idle processor takes the NMI of its overflow. -/
theorem reaches_handled (cpu : Nat) (idle : threads (some cpu) = .ret ())
    (undisrupted : Undisrupted world) (registered : world.nmiRegistered = true)
    (wraps : (world.msrs cpu).wraps = true) (permitted : may world cpu) :
    Pool.Reaches undisturbedDevice (Overflows may) OverflowNmi ⟨threads, world⟩
      ⟨threads, handledWorld cpu world⟩ := by
  let wrapped := (world.setMsrs cpu (world.msrs cpu).miss).setNote cpu (world.notes cpu).overflow
  have raised : (wrapped.notes cpu).pending = true := by
    show (Function.update world.notes cpu (world.notes cpu).overflow cpu).pending = true
    rw [Function.update_self]
    rfl
  have ready : (runNmi cpu).Makes fun op => ∀ world, undisturbedDevice.ready op world :=
    (makes_corePmuNmiHandler (fun _ _ => ⟨trivial, trivial⟩) (fun _ _ _ => ⟨trivial, trivial⟩)
      (fun _ => ⟨trivial, trivial⟩) fun _ => ⟨trivial, trivial⟩).bind fun _ =>
        ⟨fun _ => ⟨trivial, trivial⟩, fun _ => trivial⟩
  have completes : Completes undisturbedDevice (Overflows may) (runNmi cpu)
      ((wrapped.setInNmi cpu true).setNote cpu { wrapped.notes cpu with pending := false }) ()
      (handledWorld cpu world) := reaches_run ready _
  exact .head (.environment (.overflow world cpu wraps permitted))
    (Pool.reaches_of_launch idle (.nmi idle (undisrupted cpu).1 registered raised) completes)

/-- The registers when PMC0 has counted so often without a wrap. -/
def MsrFile.counted (count : Nat) (regs : MsrFile) : MsrFile :=
  Function.update regs msrIa32Pmc0 (regs msrIa32Pmc0 + BitVec.ofNat 64 count)

/-- One more miss below the wrap. -/
theorem MsrFile.counted_succ {regs : MsrFile} {count : Nat} (counting : regs.counting = true)
    (below : (regs msrIa32Pmc0).toNat + count < pmc0Max.toNat) :
    (regs.counted count).wraps = false ∧ (regs.counted count).miss = regs.counted (count + 1) := by
  have own : regs.counted count msrIa32Pmc0 = regs msrIa32Pmc0 + BitVec.ofNat 64 count :=
    Function.update_self _ _ _
  have counts : (regs.counted count).counting = true := by
    have control : msrCorePerfGlobalCtrl ≠ msrIa32Pmc0 := by decide
    have select : msrIa32Perfevtsel0 ≠ msrIa32Pmc0 := by decide
    rw [MsrFile.counting, counted, Function.update_of_ne control, Function.update_of_ne select]
    exact counting
  have notMax : regs.counted count msrIa32Pmc0 ≠ pmc0Max := by
    intro max
    rw [own] at max
    have top : pmc0Max.toNat = 2 ^ 48 - 1 := by decide
    have sum := congrArg BitVec.toNat max
    rw [BitVec.toNat_add, BitVec.toNat_ofNat] at sum
    omega
  constructor
  · rw [wraps, counts, decide_eq_false notMax]
    rfl
  · rw [miss, if_pos counts, if_neg notMax, own, counted, counted, Function.update_idem,
      BitVec.ofNat_add, BitVec.add_assoc]
    rfl

/-- A processor's counter counts so often. -/
def countedWorld (cpu count : Nat) (world : CoreWorld) : CoreWorld :=
  world.setMsrs cpu ((world.msrs cpu).counted count)

theorem countedWorld_undisrupted (cpu count : Nat) (undisrupted : Undisrupted world) :
    Undisrupted (countedWorld cpu count world) := undisrupted

/-- A counter that does not wrap counts. -/
theorem reaches_counted (cpu : Nat) {count : Nat} (counting : (world.msrs cpu).counting = true)
    (below : (world.msrs cpu msrIa32Pmc0).toNat + count ≤ MsrFile.pmc0Max.toNat) :
    Pool.Reaches undisturbedDevice (Overflows may) OverflowNmi ⟨threads, world⟩
      ⟨threads, countedWorld cpu count world⟩ := by
  induction count with
  | zero =>
      have same : countedWorld cpu 0 world = world := by
        have nothing : BitVec.ofNat 64 0 = 0#64 := rfl
        rw [countedWorld, MsrFile.counted, nothing, BitVec.add_zero, Function.update_eq_self,
          CoreWorld.setMsrs, Function.update_eq_self]
      rw [same]
      exact .refl
  | succ count ih =>
      have own : (countedWorld cpu count world).msrs cpu = (world.msrs cpu).counted count :=
        Function.update_self _ _ _
      have next := MsrFile.counted_succ counting (Nat.lt_of_succ_le below)
      have step : Pool.Step undisturbedDevice (Overflows may) OverflowNmi
          ⟨threads, countedWorld cpu count world⟩ _ :=
        .environment (.count _ cpu (by rw [own, next.1]))
      have lands : (countedWorld cpu count world).setMsrs cpu
          ((countedWorld cpu count world).msrs cpu).miss = countedWorld cpu (count + 1) world := by
        rw [own, next.2, countedWorld, CoreWorld.setMsrs, CoreWorld.setMsrs]
        dsimp only
        rw [Function.update_idem]
        rfl
      rw [lands] at step
      exact (ih (Nat.le_of_succ_le below)).tail step

/-- The task goes on alone. -/
theorem reaches_advanced {program : CoreProgram Unit} (makes : program.Makes Unhindered)
    (here : threads none = program) (count : Nat) (undisrupted : Undisrupted world) :
    Pool.Reaches undisturbedDevice (Overflows may) OverflowNmi ⟨threads, world⟩
      ⟨Function.update threads none (program.advance exec count world).1,
        (program.advance exec count world).2⟩ ∧
      Undisrupted (program.advance exec count world).2 := by
  let pool : CorePool := ⟨threads, world⟩
  have runs : Semantics.Reaches undisturbedDevice (Overflows may) (program, world)
      (program.advance exec count world) ∧ Undisrupted (program.advance exec count world).2 :=
    reaches_advance_of_keeps makes count undisrupted
  refine ⟨Pool.reaches_of_thread pool none ?_, runs.2⟩
  show Semantics.Reaches undisturbedDevice (Overflows may) (threads none, world) _
  rw [here]
  exact runs.1

/-- The write takes the mutex, and makes so many accesses more. -/
theorem reaches_locked (here : threads none = writeTask [0] 0 0x31 0x0a)
    (free : world.mutex = none) (undisrupted : Undisrupted world) (count : Nat) :
    let part := (lockedTask [0]).advance exec count (exec (.mutexLock 0) world).2
    Pool.Reaches undisturbedDevice (Overflows may) OverflowNmi ⟨threads, world⟩
      ⟨Function.update threads none part.1, part.2⟩ ∧ Undisrupted part.2 := by
  intro part
  let pool : CorePool := ⟨threads, world⟩
  let waiting := Function.update threads none (lockedTask [0])
  have locks : pool.threads none = .access (.mutexLock 0) fun _ => lockedTask [0] := here
  have takes : Pool.Step undisturbedDevice (Overflows may) OverflowNmi pool _ :=
    .access locks ⟨free, trivial⟩
  have locked : Undisrupted (exec (.mutexLock 0) world).2 := undisrupted
  have goes : Pool.Reaches undisturbedDevice (Overflows may) OverflowNmi
      ⟨waiting, (exec (.mutexLock 0) world).2⟩ ⟨Function.update waiting none part.1, part.2⟩ ∧
      Undisrupted part.2 :=
    reaches_advanced (lockedTask_unhindered [0]) (Function.update_self _ _ _) count locked
  rw [Function.update_idem] at goes
  exact ⟨.head takes goes.1, goes.2⟩

end OneCpu

/-- The world in which the write begins: the next miss overflows. -/
def unnotedWorld : CoreWorld := { samplingWorld with notes := fun _ => {} }

theorem unnotedWorld_undisrupted : Undisrupted unnotedWorld := fun _ => ⟨rfl, rfl⟩

/-- The write begins, on a machine without a history. -/
def beginning : CorePool := writing [0] 0 0x31 0x0a (fun _ => false) (idlePool samplingWorld)

/-- What is left of a write that has made so many accesses since it took the mutex, and where
it stands. -/
def written (count : Nat) (world : CoreWorld) : CoreProgram Unit × CoreWorld :=
  (lockedTask [0]).advance exec count (exec (.mutexLock 0) world).2

theorem written_unhindered (count : Nat) (world : CoreWorld) :
    (written count world).1.Makes Unhindered := (lockedTask_unhindered [0]).advance count _

/-! ### Overflows on both sides of the window -/

/-- The old interval has ended, with its NMI, before the write does anything. -/
def earlyWorld : CoreWorld := handledWorld 0 unnotedWorld

/-- The write has reprogrammed the processor, and has only the mutex to give back. -/
def reprogrammedWorld : CoreWorld := (written 14 earlyWorld).2

/-- The first interval of the new value has ended, with its NMI. -/
def renewedWorld : CoreWorld := handledWorld 0 (countedWorld 0 31 reprogrammedWorld)

/-- Then the write returns. -/
def returnedWorld : CoreWorld := ((written 14 earlyWorld).1.advance exec 1 renewedWorld).2

/-- The overflow before the write's clearing is forgotten, and the one after its
reprogramming is counted. -/
theorem nmiTimes_renewed :
    earlyWorld.percpuNmiTimes 0 = 1 ∧ returnedWorld.percpuNmiTimes 0 = 1 ∧
      returnedWorld.percpuNmiTimes 0 =
        BitVec.ofNat 64 ((returnedWorld.notes 0).overflows (initCount (-32))) := by
  refine ⟨by decide +kernel, by decide +kernel, ?_⟩
  let may := OutsideWindow (initCount (-32))
  let started := beginning.threads
  let waiting := Function.update started none (written 14 earlyWorld).1
  have early : Pool.Reaches undisturbedDevice (Overflows may) OverflowNmi beginning
      ⟨started, earlyWorld⟩ := by
    have outside : OutsideWindow (initCount (-32)) unnotedWorld 0 :=
      ⟨fun _ => rfl, fun cleared => absurd cleared Bool.false_ne_true, rfl⟩
    exact reaches_handled 0 rfl unnotedWorld_undisrupted rfl (by decide) outside
  have quiet : Undisrupted earlyWorld := handledWorld_undisrupted 0 unnotedWorld_undisrupted
  have writes : Pool.Reaches undisturbedDevice (Overflows may) OverflowNmi ⟨started, earlyWorld⟩
      ⟨waiting, reprogrammedWorld⟩ ∧ Undisrupted reprogrammedWorld :=
    reaches_locked rfl rfl quiet 14
  have counts : Pool.Reaches undisturbedDevice (Overflows may) OverflowNmi
      ⟨waiting, reprogrammedWorld⟩ ⟨waiting, countedWorld 0 31 reprogrammedWorld⟩ :=
    reaches_counted 0 (by decide +kernel) (by decide +kernel)
  have overflows : Pool.Reaches undisturbedDevice (Overflows may) OverflowNmi
      ⟨waiting, countedWorld 0 31 reprogrammedWorld⟩ ⟨waiting, renewedWorld⟩ := by
    have outside : OutsideWindow (initCount (-32)) (countedWorld 0 31 reprogrammedWorld) 0 :=
      ⟨by decide +kernel, by decide +kernel, by decide +kernel⟩
    exact reaches_handled 0 rfl (countedWorld_undisrupted 0 31 writes.2) (by decide +kernel)
      (by decide +kernel) outside
  have returns : Pool.Reaches undisturbedDevice (Overflows may) OverflowNmi
      ⟨waiting, renewedWorld⟩ ⟨Function.update waiting none
        ((written 14 earlyWorld).1.advance exec 1 renewedWorld).1, returnedWorld⟩ := by
    have handled : Undisrupted renewedWorld :=
      handledWorld_undisrupted 0 (countedWorld_undisrupted 0 31 writes.2)
    exact (reaches_advanced (written_unhindered 14 earlyWorld) (Function.update_self _ _ _) 1
      handled).1
  have history : Pool.Reaches coreDevice Misses Earlier (idlePool samplingWorld)
      (idlePool samplingWorld) := .refl
  have run := early.trans (writes.1.trans (counts.trans (overflows.trans returns)))
  exact nmiTimes_of_reaches (List.nodup_singleton 0) 0 0x31 0x0a rfl (fun _ => false) history run
    rfl 0 List.mem_cons_self (by decide +kernel) (by decide +kernel)

/-! ### An overflow in the window -/

/-- The write has cleared the count of the processor, and goes on to its registers; now the
old interval ends. -/
def lateWorld : CoreWorld := handledWorld 0 (written 2 unnotedWorld).2

/-- The rest of the write. -/
def finished : CoreProgram Unit × CoreWorld := (written 2 unnotedWorld).1.advance exec 13 lateWorld

/-- An overflow of the old interval that comes after the count is cleared is in the new
statistics. -/
theorem not_nmiTimes_late : ∃ before,
    Pool.Reaches coreDevice Misses Earlier (idlePool samplingWorld) before ∧
    ∃ pool, Pool.Reaches coreDevice (Overflows fun _ _ => True) OverflowNmi
        (writing [0] 0 0x31 0x0a (fun _ => false) before) pool ∧
      pool.threads none = .ret () ∧ pool.state.inNmi 0 = false ∧
      (pool.state.notes 0).pending = false ∧
      pool.state.percpuNmiTimes 0 ≠
        BitVec.ofNat 64 ((pool.state.notes 0).overflows (initCount (-32))) := by
  let may : CoreWorld → Nat → Prop := fun _ _ => True
  let waiting := Function.update beginning.threads none (written 2 unnotedWorld).1
  have clears : Pool.Reaches undisturbedDevice (Overflows may) OverflowNmi beginning
      ⟨waiting, (written 2 unnotedWorld).2⟩ ∧ Undisrupted (written 2 unnotedWorld).2 :=
    reaches_locked rfl rfl unnotedWorld_undisrupted 2
  have overflows : Pool.Reaches undisturbedDevice (Overflows may) OverflowNmi
      ⟨waiting, (written 2 unnotedWorld).2⟩ ⟨waiting, lateWorld⟩ :=
    reaches_handled 0 rfl clears.2 rfl (by decide +kernel) trivial
  have finishes : Pool.Reaches undisturbedDevice (Overflows may) OverflowNmi
      ⟨waiting, lateWorld⟩ ⟨Function.update waiting none finished.1, finished.2⟩ :=
    (reaches_advanced (written_unhindered 2 unnotedWorld) (Function.update_self _ _ _) 13
      (handledWorld_undisrupted 0 clears.2)).1
  have run := Pool.Reaches.of_restrict (clears.1.trans (overflows.trans finishes))
  refine ⟨_, .refl, _, run, rfl, ?_, ?_, ?_⟩
  · decide +kernel
  · decide +kernel
  · decide +kernel

end NvmEmulator.CorePmu
