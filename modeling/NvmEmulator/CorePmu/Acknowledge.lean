/-
# What the NMI handler acknowledges

A processor takes NMIs from its own counter and from other sources, and the handler tells
them apart by bit 0 of the global status. Nothing it does clears that bit, so the first
overflow answers for every later NMI as well.

One processor is followed here. Its counter overflows at any point, also inside the
handler, and whatever the other processors and the tasks do happens in between. A tally
beside the machine has the order in which overflows and NMIs came. The bit follows it: once
an overflow has come it stays set. So the handler meets its contract in every NMI exactly if
from the first overflow on there is one new overflow, no more and no fewer, before each NMI.
-/

import NvmEmulator.CorePmu.Stop

namespace NvmEmulator.CorePmu

open Relation NvmEmulator.Semantics NvmEmulator.Uncore

/-! ## Schedules -/

/-- What comes to a processor: an overflow of its counter, or an NMI, when its handler reads
the global status. -/
inductive CpuEvent
  | overflow
  | nmi
  deriving DecidableEq

/-- The status bit after a schedule, if nothing clears it. -/
def bitAfter (set : Bool) : List CpuEvent → Bool
  | [] => set
  | .overflow :: rest => bitAfter true rest
  | .nmi :: rest => bitAfter set rest

/-- The overflows since the last NMI. -/
def sinceNmi (since : Nat) : List CpuEvent → Nat
  | [] => since
  | .overflow :: rest => sinceNmi (since + 1) rest
  | .nmi :: rest => sinceNmi 0 rest

/-- Once the status bit is set, exactly one new overflow comes before each NMI. -/
def OneEach : Bool → Nat → List CpuEvent → Prop
  | _, _, [] => True
  | _, since, .overflow :: rest => OneEach true (since + 1) rest
  | set, since, .nmi :: rest => (set = true → since = 1) ∧ OneEach set 0 rest

section Schedule

variable {set : Bool} {since : Nat} (schedule : List CpuEvent)

@[simp]
theorem bitAfter_true : bitAfter true schedule = true := by
  induction schedule with
  | nil => rfl
  | cons event rest ih => cases event <;> exact ih

@[simp]
theorem bitAfter_overflow : bitAfter set (schedule ++ [.overflow]) = true := by
  induction schedule generalizing set with
  | nil => rfl
  | cons event rest ih => cases event <;> exact ih

@[simp]
theorem bitAfter_nmi : bitAfter set (schedule ++ [.nmi]) = bitAfter set schedule := by
  induction schedule generalizing set with
  | nil => rfl
  | cons event rest ih => cases event <;> exact ih

@[simp]
theorem sinceNmi_overflow :
    sinceNmi since (schedule ++ [.overflow]) = sinceNmi since schedule + 1 := by
  induction schedule generalizing since with
  | nil => rfl
  | cons event rest ih => cases event <;> exact ih

@[simp]
theorem sinceNmi_nmi : sinceNmi since (schedule ++ [.nmi]) = 0 := by
  induction schedule generalizing since with
  | nil => rfl
  | cons event rest ih => cases event <;> exact ih

@[simp]
theorem oneEach_overflow :
    OneEach set since (schedule ++ [.overflow]) ↔ OneEach set since schedule := by
  induction schedule generalizing set since with
  | nil => exact Iff.rfl
  | cons event rest ih =>
      cases event with
      | overflow => exact ih
      | nmi => exact and_congr_right fun _ => ih

/-- One more NMI asks for one new overflow if the bit is set. -/
theorem oneEach_nmi :
    OneEach set since (schedule ++ [.nmi]) ↔
      OneEach set since schedule ∧
        (bitAfter set schedule = true → sinceNmi since schedule = 1) := by
  induction schedule generalizing set since with
  | nil => exact and_comm
  | cons event rest ih =>
      cases event with
      | overflow => exact ih
      | nmi => exact (and_congr_right fun _ => ih).trans and_assoc.symm

/-- An overflow since the last NMI has set the bit. -/
theorem bitAfter_of_sinceNmi (before : since ≠ 0 → set = true)
    (overflows : sinceNmi since schedule ≠ 0) : bitAfter set schedule = true := by
  induction schedule generalizing set since with
  | nil => exact before overflows
  | cons event rest ih =>
      cases event with
      | overflow => exact bitAfter_true rest
      | nmi => exact ih (fun none => absurd rfl none) overflows

end Schedule

/-! ## The system -/

/-- What is known of one processor's overflows and of the NMI it is in. -/
structure NmiTally where
  /-- The overflows and NMIs so far. -/
  schedule : List CpuEvent := []
  /-- The overflows since the last one an NMI was handled for. -/
  unhandled : Nat := 0
  /-- Bit 0 of the global status, as the handler read it. -/
  status : Bool := false
  /-- The unhandled overflows at that read. -/
  found : Nat := 0
  /-- The registers the handler has written since. -/
  writes : Nat := 0
  /-- How often it has incremented the count since. -/
  increments : Nat := 0
  deriving DecidableEq

/-- The handler reads the global status: the overflows it finds there are handled now. -/
def NmiTally.read (status : Bool) (tally : NmiTally) : NmiTally where
  schedule := tally.schedule ++ [.nmi]
  unhandled := if status then 0 else tally.unhandled
  status := status
  found := tally.unhandled

/-- An overflow. -/
def NmiTally.overflow (tally : NmiTally) : NmiTally :=
  { tally with schedule := tally.schedule ++ [.overflow], unhandled := tally.unhandled + 1 }

/-- What the tally has of an access to a processor. -/
def NmiTally.note (cpu : Nat) : (op : CoreOp) → op.Res → NmiTally → NmiTally
  | .rdmsr _ other addr, value, tally =>
      if other = cpu ∧ addr = msrCorePerfGlobalStatus then
        tally.read ((show BitVec 64 from value).getLsbD 0)
      else tally
  | .wrmsr _ other _ _, _, tally =>
      if other = cpu then { tally with writes := tally.writes + 1 } else tally
  | .incNmiTimes other, _, tally =>
      if other = cpu then { tally with increments := tally.increments + 1 } else tally
  | _, _, tally => tally

/-- The machine with the tally of a processor. -/
abbrev TallyWorld := CoreWorld × NmiTally

def tallyDevice (cpu : Nat) : Device CoreOp CoreOp.Res TallyWorld :=
  coreDevice.observe (NmiTally.note cpu)

/-- PMC0 is about to wrap. -/
def MsrFile.wraps (regs : MsrFile) : Bool :=
  regs.counting && decide (regs msrIa32Pmc0 = MsrFile.pmc0Max)

/-- What happens beside the handler of a processor: its counter counts, and everything else
changes as it likes. -/
inductive Beside (cpu : Nat) : TallyWorld → TallyWorld → Prop
  | miss (world : CoreWorld) (tally : NmiTally) :
      Beside cpu (world, tally)
        (world.setMsrs cpu (world.msrs cpu).miss,
          if (world.msrs cpu).wraps then tally.overflow else tally)
  | elsewhere {world after : CoreWorld} {tally : NmiTally}
      (msrs : after.msrs cpu = world.msrs cpu)
      (times : after.percpuNmiTimes cpu = world.percpuNmiTimes cpu) :
      Beside cpu (world, tally) (after, tally)

/-- What came of an NMI. -/
structure NmiOutcome where
  result : NmiResult
  /-- What the handler found and did. -/
  tally : NmiTally
  /-- How far `PERCPU_NMI_TIMES` went on. -/
  advance : BitVec 64

/-- The NMIs of a processor, one after the other, from any source. -/
inductive NmiRun (cpu : Nat) : TallyWorld → List NmiOutcome → TallyWorld → Prop
  | start (state : TallyWorld) : NmiRun cpu state [] state
  | beside {start before after : TallyWorld} {outcomes : List NmiOutcome}
      (run : NmiRun cpu start outcomes before) (moves : Beside cpu before after) :
      NmiRun cpu start outcomes after
  | nmi {start before after : TallyWorld} {outcomes : List NmiOutcome} {result : NmiResult}
      (run : NmiRun cpu start outcomes before)
      (handler : Completes (tallyDevice cpu) (Beside cpu) (corePmuNmiHandler cpu) before
        result after) :
      NmiRun cpu start
        (outcomes ++ [⟨result, after.2,
          after.1.percpuNmiTimes cpu - before.1.percpuNmiTimes cpu⟩]) after

/-- The contract of the handler: it counts each new overflow once, and leaves an NMI
without a new overflow alone. -/
def Faithful (outcome : NmiOutcome) : Prop :=
  if outcome.tally.found = 0 then
    outcome.result = .done ∧ outcome.tally.writes = 0 ∧ outcome.tally.increments = 0 ∧
      outcome.advance = 0
  else
    outcome.result = .handled ∧ outcome.tally.increments = outcome.tally.found ∧
      outcome.advance = BitVec.ofNat 64 outcome.tally.found

/-- The NMI finds the bit of one new overflow, or finds the bit clear. -/
def Acknowledges (outcome : NmiOutcome) : Prop :=
  outcome.tally.status = true → outcome.tally.found = 1

/-! ## The status bit -/

/-- The sibling that nothing calls would acknowledge the overflow. -/
theorem corePmuClearOvfOnCpu_acknowledges (context : Context) (cpu : Nat) (world : CoreWorld) :
    ((ranAlone (corePmuClearOvfOnCpu context cpu) world).msrs cpu).overflowed = false := by
  show (Function.update world.msrs cpu _ cpu).overflowed = false
  rw [Function.update_self, MsrFile.wrmsr, if_pos rfl, MsrFile.overflowed, Function.update_self,
    BitVec.getLsbD_and]
  simp

/-- What the handler calls leaves it. -/
theorem corePmuClearMsrsOnCpu_leaves (context : Context) (cpu : Nat) (world : CoreWorld) :
    ((ranAlone (corePmuClearMsrsOnCpu context cpu) world).msrs cpu).overflowed =
      (world.msrs cpu).overflowed := by
  have write : ∀ {addr : BitVec 32} {value : BitVec 64} (state : CoreWorld),
      addr ≠ msrCorePerfGlobalStatus → (addr = msrCorePerfGlobalOvfCtrl → value = 0) →
      ((exec (.wrmsr context cpu addr value) state).2.msrs cpu).overflowed =
        (state.msrs cpu).overflowed := by
    intro addr value state status zero
    show (Function.update state.msrs cpu _ cpu).overflowed = _
    rw [Function.update_self, overflowed_wrmsr _ status zero]
  have keeps : (corePmuClearMsrsOnCpu context cpu).Makes fun op => ∀ state : CoreWorld,
      ((exec op state).2.msrs cpu).overflowed = (state.msrs cpu).overflowed :=
    makes_clearMsrsOnCpu (fun state => write state (by decide) (absurd · (by decide)))
      (fun state => write state (by decide) (absurd · (by decide)))
      (fun state => write state (by decide) (absurd · (by decide)))
      fun state => write state (by decide) fun _ => rfl
  have kept : ∀ op, (∀ state : CoreWorld,
      ((exec op state).2.msrs cpu).overflowed = (state.msrs cpu).overflowed) →
      ∀ state : CoreWorld, (state.msrs cpu).overflowed = (world.msrs cpu).overflowed →
        ((exec op state).2.msrs cpu).overflowed = (world.msrs cpu).overflowed :=
    fun _ keeps state held => (keeps state).trans held
  exact keeps.run kept rfl

/-- The status bit and the unhandled overflows are those of the schedule, which found the bit
as `set`. -/
structure Follows (set : Bool) (cpu : Nat) (state : TallyWorld) : Prop where
  bit : (state.1.msrs cpu).overflowed = bitAfter set state.2.schedule
  unhandled : state.2.unhandled = sinceNmi 0 state.2.schedule

theorem overflowed_of_wraps {regs : MsrFile} (wraps : regs.wraps = true) :
    regs.miss.overflowed = true := by
  rw [MsrFile.wraps, Bool.and_eq_true, decide_eq_true_eq] at wraps
  rw [MsrFile.miss, if_pos wraps.1, if_pos wraps.2, MsrFile.overflowed, MsrFile.overflow,
    Function.update_self, BitVec.getLsbD_or]
  simp

/-- A miss below the wrap leaves the bit. -/
theorem overflowed_of_not_wraps {regs : MsrFile} (below : ¬ regs.wraps = true) :
    regs.miss.overflowed = regs.overflowed := by
  rw [MsrFile.miss]
  by_cases counting : regs.counting = true
  · have notMax : regs msrIa32Pmc0 ≠ MsrFile.pmc0Max := by
      intro max
      apply below
      rw [MsrFile.wraps, counting, max]
      rfl
    have apart : msrCorePerfGlobalStatus ≠ msrIa32Pmc0 := by decide
    rw [if_pos counting, if_neg notMax, MsrFile.overflowed, Function.update_of_ne apart]
    rfl
  · rw [if_neg counting]

section Handler

variable {set : Bool} {cpu : Nat}

theorem follows_stable : Stable (Beside cpu) (Follows set cpu) := by
  intro before after moves follows
  cases moves with
  | miss world tally =>
      have own : (Function.update world.msrs cpu (world.msrs cpu).miss) cpu =
          (world.msrs cpu).miss := Function.update_self _ _ _
      by_cases wraps : (world.msrs cpu).wraps = true
      · rw [if_pos wraps]
        constructor
        · show (Function.update world.msrs cpu _ cpu).overflowed =
            bitAfter set (tally.schedule ++ [.overflow])
          rw [own, bitAfter_overflow, overflowed_of_wraps wraps]
        · show tally.unhandled + 1 = sinceNmi 0 (tally.schedule ++ [.overflow])
          rw [sinceNmi_overflow, follows.unhandled]
      · rw [if_neg wraps]
        refine ⟨?_, follows.unhandled⟩
        show (Function.update world.msrs cpu _ cpu).overflowed = _
        rw [own, overflowed_of_not_wraps wraps]
        exact follows.bit
  | elsewhere msrs times =>
      refine ⟨?_, follows.unhandled⟩
      rw [msrs]
      exact follows.bit

/-- Overflows alone ask nothing of the schedule. -/
theorem oneEach_stable {demand : Prop} :
    Stable (Beside cpu) fun state => OneEach set 0 state.2.schedule ↔ demand := by
  intro before after moves asks
  cases moves with
  | miss world tally =>
      by_cases wraps : (world.msrs cpu).wraps = true
      · rw [if_pos wraps]
        exact (oneEach_overflow tally.schedule).trans asks
      · rw [if_neg wraps]
        exact asks
  | elsewhere msrs times => exact asks

/-! ## One NMI -/

/-- What the handler has found and done, how far it has counted, and what the schedule up to
its read asks for. -/
structure NmiProgress (set : Bool) (cpu : Nat) (demand : Prop) (status : Bool)
    (found increments : Nat) (times : BitVec 64) (state : TallyWorld) : Prop where
  status : state.2.status = status
  found : state.2.found = found
  increments : state.2.increments = increments
  times : state.1.percpuNmiTimes cpu = times
  follows : Follows set cpu state
  asks : OneEach set 0 state.2.schedule ↔ demand

variable {demand : Prop}

theorem nmiProgress_stable {status : Bool} {found increments : Nat} {times : BitVec 64} :
    Stable (Beside cpu) (NmiProgress set cpu demand status found increments times) := by
  intro before after moves progress
  have follows := follows_stable moves progress.follows
  have asks := oneEach_stable moves progress.asks
  cases moves with
  | miss world tally =>
      by_cases wraps : (world.msrs cpu).wraps = true
      · rw [if_pos wraps] at follows asks ⊢
        exact ⟨progress.status, progress.found, progress.increments, progress.times, follows,
          asks⟩
      · rw [if_neg wraps] at follows asks ⊢
        exact ⟨progress.status, progress.found, progress.increments, progress.times, follows,
          asks⟩
  | elsewhere msrs same =>
      exact ⟨progress.status, progress.found, progress.increments, same.trans progress.times,
        follows, asks⟩

/-- Without an overflow to see, the handler has written nothing either. -/
theorem writes_stable (cpu : Nat) : Stable (Beside cpu) fun state => state.2.writes = 0 := by
  intro before after moves holds
  cases moves with
  | miss world tally =>
      dsimp only
      split
      · exact holds
      · exact holds
  | elsewhere msrs same => exact holds

/-- The accesses of the handler before it counts keep the progress. -/
theorem restart_progress {found : Nat} {times : BitVec 64} {op : CoreOp}
    (allowed : HandlerAccess cpu op) (counts : ∀ other, op ≠ .incNmiTimes other)
    {state : TallyWorld} (progress : NmiProgress set cpu demand true found 0 times state) :
    NmiProgress set cpu demand true found 0 times ((tallyDevice cpu).exec op state).2 := by
  cases op with
  | wrmsr context other addr value =>
      rcases allowed with ⟨rfl, plain, zero⟩
      have tally : NmiTally.note other (.wrmsr context other addr value) () state.2 =
          { state.2 with writes := state.2.writes + 1 } := if_pos rfl
      refine ⟨?_, ?_, ?_, progress.times, ⟨?_, ?_⟩, ?_⟩
      · exact (congrArg NmiTally.status tally).trans progress.status
      · exact (congrArg NmiTally.found tally).trans progress.found
      · exact (congrArg NmiTally.increments tally).trans progress.increments
      · show (Function.update state.1.msrs other _ other).overflowed =
          bitAfter set (NmiTally.note other (.wrmsr context other addr value) () state.2).schedule
        rw [Function.update_self, overflowed_wrmsr _ plain zero, tally]
        exact progress.follows.bit
      · show (NmiTally.note other (.wrmsr context other addr value) () state.2).unhandled =
          sinceNmi 0 (NmiTally.note other (.wrmsr context other addr value) () state.2).schedule
        rw [tally]
        exact progress.follows.unhandled
      · show OneEach set 0
          (NmiTally.note other (.wrmsr context other addr value) () state.2).schedule ↔ demand
        rw [tally]
        exact progress.asks
  | globals => exact progress
  | incNmiTimes other => exact absurd rfl (counts other)
  | rdmsr context other addr => exact absurd allowed id
  | assign update => exact absurd allowed id
  | clearNmiTimes other => exact absurd allowed id
  | nmiReturn other => exact absurd allowed id
  | nmiListDel => exact absurd allowed id
  | synchronizeRcu => exact absurd allowed id
  | mutexLock task => exact absurd allowed id
  | mutexUnlock => exact absurd allowed id
  | procRemove => exact absurd allowed id

end Handler

/-- What the handler does between the read and the count. -/
def RestartAccess (cpu : Nat) (op : CoreOp) : Prop :=
  HandlerAccess cpu op ∧ ∀ other, op ≠ .incNmiTimes other

theorem restartAccess_wrmsr {cpu : Nat} {addr : BitVec 32} {value : BitVec 64}
    (status : addr ≠ msrCorePerfGlobalStatus)
    (zero : addr = msrCorePerfGlobalOvfCtrl → value = 0) :
    RestartAccess cpu (.wrmsr .nmi cpu addr value) := by
  refine ⟨⟨rfl, status, zero⟩, fun other same => ?_⟩
  cases same

theorem restartAccess_globals (cpu : Nat) : RestartAccess cpu .globals := by
  refine ⟨trivial, fun other same => ?_⟩
  cases same

/-- A part of the handler that only restarts the counter keeps the progress. -/
theorem restart_guarded {set : Bool} {cpu : Nat} {demand : Prop} {part : CoreProgram Unit}
    (makes : part.Makes (RestartAccess cpu)) {found : Nat} {times : BitVec 64}
    {state : TallyWorld} (progress : NmiProgress set cpu demand true found 0 times state) :
    Guarded (tallyDevice cpu) (Beside cpu) (fun _ _ => True)
      (fun _ => NmiProgress set cpu demand true found 0 times) part state :=
  Guarded.of_makes makes nmiProgress_stable
    (fun _ allowed _ held _ => ⟨trivial, restart_progress allowed.1 allowed.2 held⟩) progress

theorem clearMsrs_restarts (cpu : Nat) :
    (corePmuClearMsrsOnCpu .nmi cpu).Makes (RestartAccess cpu) :=
  makes_clearMsrsOnCpu (restartAccess_wrmsr (by decide) (absurd · (by decide)))
    (restartAccess_wrmsr (by decide) (absurd · (by decide)))
    (restartAccess_wrmsr (by decide) (absurd · (by decide)))
    (restartAccess_wrmsr (by decide) fun _ => rfl)

theorem enablePredefinedEvent_restarts (cpu : Nat) :
    (corePmuEnablePredefinedEventOnCpu .nmi cpu).Makes (RestartAccess cpu) :=
  makes_enablePredefinedEventOnCpu (restartAccess_globals cpu)
    (fun _ => restartAccess_wrmsr (by decide) (absurd · (by decide)))
    fun _ => restartAccess_wrmsr (by decide) (absurd · (by decide))

theorem enableCounting_restarts (cpu : Nat) :
    (corePmuEnableCountingOnCpu .nmi cpu).Makes (RestartAccess cpu) :=
  makes_enableCountingOnCpu (restartAccess_wrmsr (by decide) (absurd · (by decide)))

/-- What an NMI comes to: the handler restarts and counts where the bit is set, and
otherwise there was nothing to find. Beyond what was asked `earlier`, the schedule asks for one
new overflow where the bit is set. -/
structure NmiEnd (set : Bool) (cpu : Nat) (earlier : Prop) (times : BitVec 64)
    (result : NmiResult) (state : TallyWorld) : Prop where
  handled : state.2.status = true → result = .handled ∧ state.2.increments = 1 ∧
    state.1.percpuNmiTimes cpu = times + 1
  done : state.2.status = false → result = .done ∧ state.2.found = 0 ∧ state.2.writes = 0 ∧
    state.2.increments = 0 ∧ state.1.percpuNmiTimes cpu = times
  follows : Follows set cpu state
  asks : OneEach set 0 state.2.schedule ↔
    earlier ∧ (state.2.status = true → state.2.found = 1)

section Handler

variable {set : Bool} {cpu : Nat} {earlier : Prop} {times : BitVec 64}

/-- The count of a handler that has restarted its counter. -/
theorem count_guarded {found : Nat} {state : TallyWorld}
    (progress : NmiProgress set cpu (earlier ∧ found = 1) true found 0 times state) :
    Guarded (tallyDevice cpu) (Beside cpu) (fun _ _ => True) (NmiEnd set cpu earlier times)
      ((access (.incNmiTimes cpu)).bind fun _ => .ret .handled) state := by
  refine Guarded.access _ nmiProgress_stable progress fun later held _ => ⟨trivial, ?_⟩
  have tally : NmiTally.note cpu (.incNmiTimes cpu) () later.2 =
      { later.2 with increments := later.2.increments + 1 } := if_pos rfl
  have schedule := congrArg NmiTally.schedule tally
  have counted : NmiProgress set cpu (earlier ∧ found = 1) true found 1 (times + 1)
      ((tallyDevice cpu).exec (.incNmiTimes cpu) later).2 := by
    refine ⟨?_, ?_, ?_, ?_, ⟨?_, ?_⟩, ?_⟩
    · exact (congrArg NmiTally.status tally).trans held.status
    · exact (congrArg NmiTally.found tally).trans held.found
    · have was : later.2.increments + 1 = 1 := by rw [held.increments]
      exact (congrArg NmiTally.increments tally).trans was
    · show Function.update later.1.percpuNmiTimes cpu _ cpu = times + 1
      rw [Function.update_self, held.times]
    · exact held.follows.bit.trans (congrArg (bitAfter set) schedule.symm)
    · have unhandled := (congrArg NmiTally.unhandled tally).trans held.follows.unhandled
      exact unhandled.trans (congrArg (sinceNmi 0) schedule.symm)
    · exact (iff_of_eq (congrArg (OneEach set 0) schedule)).trans held.asks
  intro final moves
  have ends := nmiProgress_stable.star moves counted
  refine ⟨fun _ => ⟨rfl, ends.increments, ends.times⟩, fun clear => ?_, ends.follows, ?_⟩
  · rw [ends.status] at clear
    cases clear
  · rw [ends.asks, ends.found, ends.status]
    exact and_congr_right fun _ => ⟨fun one _ => one, fun one => one rfl⟩

/-- The handler, whatever happens beside it. -/
theorem corePmuNmiHandler_guarded {state : TallyWorld} (follows : Follows set cpu state) :
    Guarded (tallyDevice cpu) (Beside cpu) (fun _ _ => True)
      (NmiEnd set cpu (OneEach set 0 state.2.schedule) (state.1.percpuNmiTimes cpu))
      (corePmuNmiHandler cpu) state := by
  have times : Stable (Beside cpu) fun later : TallyWorld =>
      later.1.percpuNmiTimes cpu = state.1.percpuNmiTimes cpu := by
    intro before after moves holds
    cases moves with
    | miss world tally => exact holds
    | elsewhere msrs same => exact same.trans holds
  have asked : Stable (Beside cpu) fun later : TallyWorld =>
      OneEach set 0 later.2.schedule ↔ OneEach set 0 state.2.schedule := oneEach_stable
  refine Guarded.access _ (follows_stable.and (times.and asked)) ⟨follows, rfl, Iff.rfl⟩
    fun later held _ => ⟨trivial, ?_⟩
  have tally : NmiTally.note cpu (.rdmsr .nmi cpu msrCorePerfGlobalStatus)
      (later.1.msrs cpu msrCorePerfGlobalStatus) later.2 =
      later.2.read (later.1.msrs cpu).overflowed := if_pos ⟨rfl, rfl⟩
  have reads : ((tallyDevice cpu).exec (.rdmsr .nmi cpu msrCorePerfGlobalStatus) later).2 =
      (later.1, later.2.read (later.1.msrs cpu).overflowed) := Prod.ext rfl tally
  -- The read asks for one new overflow if it finds the bit set.
  have asks : OneEach set 0 (later.2.schedule ++ [.nmi]) ↔ OneEach set 0 state.2.schedule ∧
      ((later.1.msrs cpu).overflowed = true → later.2.unhandled = 1) := by
    rw [oneEach_nmi, held.2.2, held.1.bit, held.1.unhandled]
  have bit : (later.1.msrs cpu).overflowed = bitAfter set (later.2.schedule ++ [.nmi]) :=
    held.1.bit.trans (bitAfter_nmi _).symm
  rw [reads]
  show Guarded _ _ _ _ (if (later.1.msrs cpu).overflowed = true then _ else _) _
  by_cases seen : (later.1.msrs cpu).overflowed = true
  · rw [if_pos seen]
    rw [seen] at asks bit ⊢
    have progress : NmiProgress set cpu
        (OneEach set 0 state.2.schedule ∧ later.2.unhandled = 1) true later.2.unhandled 0
        (state.1.percpuNmiTimes cpu) (later.1, later.2.read true) :=
      ⟨rfl, rfl, rfl, held.2.1, ⟨seen.trans bit, (sinceNmi_nmi _).symm⟩,
        asks.trans (and_congr_right fun _ => ⟨fun one => one rfl, fun one _ => one⟩)⟩
    apply (restart_guarded (clearMsrs_restarts cpu) progress).bind
    intro _ _ progress
    apply (restart_guarded (enablePredefinedEvent_restarts cpu) progress).bind
    intro _ _ progress
    apply (restart_guarded (enableCounting_restarts cpu) progress).bind
    intro _ _ progress
    exact count_guarded progress
  · have clear : (later.1.msrs cpu).overflowed = false := Bool.not_eq_true _ ▸ seen
    have nothing : later.2.unhandled = 0 := by
      by_contra pending
      rw [held.1.unhandled] at pending
      apply seen
      exact held.1.bit.trans (bitAfter_of_sinceNmi _ (absurd rfl) pending)
    rw [if_neg seen]
    rw [clear] at asks bit ⊢
    have progress : NmiProgress set cpu (OneEach set 0 state.2.schedule) false 0 0
        (state.1.percpuNmiTimes cpu) (later.1, later.2.read false) :=
      ⟨rfl, nothing, rfl, held.2.1, ⟨clear.trans bit, nothing.trans (sinceNmi_nmi _).symm⟩,
        asks.trans (and_iff_left fun set => absurd set Bool.false_ne_true)⟩
    intro final moves
    have ends := nmiProgress_stable.star moves progress
    have untouched := (writes_stable cpu).star moves rfl
    have unset : final.2.status ≠ true := fun set => by
      rw [ends.status] at set
      cases set
    exact ⟨fun set => absurd set unset,
      fun _ => ⟨rfl, ends.found, untouched, ends.increments, ends.times⟩, ends.follows,
      ends.asks.trans (and_iff_left fun set => absurd set unset).symm⟩

/-- An NMI that comes to its end meets the contract just when it acknowledges. -/
theorem NmiEnd.faithful_iff {result : NmiResult} {state : TallyWorld}
    (ends : NmiEnd set cpu earlier times result state) :
    Faithful ⟨result, state.2, state.1.percpuNmiTimes cpu - times⟩ ↔
      Acknowledges ⟨result, state.2, state.1.percpuNmiTimes cpu - times⟩ := by
  dsimp only [Faithful, Acknowledges]
  cases status : state.2.status with
  | false =>
      have done := ends.done status
      rw [if_pos done.2.1]
      constructor
      · intro _ set
        cases set
      · intro _
        refine ⟨done.1, done.2.2.1, done.2.2.2.1, ?_⟩
        exact (congrArg (· - times) done.2.2.2.2).trans (BitVec.sub_self times)
  | true =>
      have handled := ends.handled status
      have advance : state.1.percpuNmiTimes cpu - times = 1 := by
        rw [handled.2.2, BitVec.add_comm, BitVec.add_sub_cancel]
      rw [handled.1, handled.2.1, advance]
      constructor
      · intro faithful _
        by_cases found : state.2.found = 0
        · rw [if_pos found] at faithful
          cases faithful.1
        · rw [if_neg found] at faithful
          exact faithful.2.1.symm
      · intro acknowledges
        have found := acknowledges rfl
        rw [found, if_neg Nat.one_ne_zero]
        exact ⟨rfl, rfl, rfl⟩

end Handler

/-! ## Every NMI -/

/-- What every run keeps: the schedule asks for no more than it did, and that the NMIs so far
have met the contract. -/
theorem NmiRun.sound {set : Bool} {cpu : Nat} {start final : TallyWorld}
    {outcomes : List NmiOutcome} (run : NmiRun cpu start outcomes final)
    (fresh : Follows set cpu start) :
    Follows set cpu final ∧ (OneEach set 0 final.2.schedule ↔
      OneEach set 0 start.2.schedule ∧ ∀ outcome ∈ outcomes, Faithful outcome) := by
  induction run with
  | start =>
      exact ⟨fresh, (and_iff_left fun outcome mem => absurd mem List.not_mem_nil).symm⟩
  | beside _ moves ih => exact ⟨follows_stable moves ih.1, oneEach_stable moves ih.2⟩
  | nmi _ handler ih =>
      have ends := (corePmuNmiHandler_guarded ih.1).completes (fun _ _ moves => moves) handler
      refine ⟨ends.follows, ends.asks.trans ?_⟩
      rw [ih.2, List.forall_mem_append, List.forall_mem_singleton, ends.faithful_iff,
        Acknowledges, and_assoc]

/-- The handler meets its contract in every NMI of a run exactly if from the first overflow
on, or from the start if the status bit was set there, one new overflow comes before each
NMI. -/
theorem faithful_iff_oneEach {cpu : Nat} {world : CoreWorld} {outcomes : List NmiOutcome}
    {final : TallyWorld} (run : NmiRun cpu (world, {}) outcomes final) :
    (∀ outcome ∈ outcomes, Faithful outcome) ↔
      OneEach (world.msrs cpu).overflowed 0 final.2.schedule := by
  have fresh : Follows (world.msrs cpu).overflowed cpu (world, {}) := ⟨rfl, rfl⟩
  rw [(run.sound fresh).2]
  exact (and_iff_right trivial).symm

/-! ### One processor alone -/

instance decidableOneEach : (set : Bool) → (since : Nat) → (schedule : List CpuEvent) →
    Decidable (OneEach set since schedule)
  | _, _, [] => isTrue trivial
  | _, since, .overflow :: rest => decidableOneEach true (since + 1) rest
  | set, since, .nmi :: rest =>
      have := decidableOneEach set 0 rest
      inferInstanceAs (Decidable ((set = true → since = 1) ∧ OneEach set 0 rest))

instance (outcome : NmiOutcome) : Decidable (Faithful outcome) :=
  inferInstanceAs (Decidable (if outcome.tally.found = 0 then _ else _))

/-- A processor's NMIs so far, and where they have left it. -/
structure Played where
  state : TallyWorld
  outcomes : List NmiOutcome := []

/-- One more miss, or an NMI whose handler nothing interrupts. -/
def Played.step (cpu : Nat) (played : Played) : CpuEvent → Played
  | .overflow =>
      { played with state :=
        (played.state.1.setMsrs cpu (played.state.1.msrs cpu).miss,
          if (played.state.1.msrs cpu).wraps then played.state.2.overflow
          else played.state.2) }
  | .nmi =>
      let ran := (corePmuNmiHandler cpu).run (tallyDevice cpu).exec played.state
      { state := ran.2
        outcomes := played.outcomes ++ [⟨ran.1, ran.2.2,
          ran.2.1.percpuNmiTimes cpu - played.state.1.percpuNmiTimes cpu⟩] }

/-- What is played is a run. -/
theorem Played.run {cpu : Nat} {start : TallyWorld} (events : List CpuEvent) :
    ∀ {played : Played}, NmiRun cpu start played.outcomes played.state →
      NmiRun cpu start (events.foldl (step cpu) played).outcomes
        (events.foldl (step cpu) played).state := by
  have ready : (corePmuNmiHandler cpu).Makes fun op =>
      ∀ state, (tallyDevice cpu).ready op state :=
    makes_corePmuNmiHandler (fun _ _ => trivial) (fun _ _ _ => trivial) (fun _ => trivial)
      fun _ => trivial
  induction events with
  | nil => exact fun run => run
  | cons event rest ih =>
      intro played run
      apply ih
      cases event with
      | overflow => exact .beside run (.miss _ _)
      | nmi => exact .nmi run (reaches_run ready _)

/-- Every miss of the processors overflows. -/
def overflowingWorld : CoreWorld :=
  { samplingWorld with globals := { samplingWorld.globals with preEventInitValue := -1 } }

/-- The processor, and the NMIs of a schedule. -/
def playedEvents (events : List CpuEvent) : Played :=
  events.foldl (Played.step 0) ⟨(overflowingWorld, {}), []⟩

theorem playedEvents_run (events : List CpuEvent) :
    NmiRun 0 (overflowingWorld, {}) (playedEvents events).outcomes (playedEvents events).state :=
  Played.run events (.start _)

/-- An NMI before the first overflow is left alone, and one after each overflow is counted. -/
theorem faithful_alternating :
    let played := playedEvents [.nmi, .overflow, .nmi, .overflow, .nmi]
    (∀ outcome ∈ played.outcomes, Faithful outcome) ∧ played.outcomes.length = 3 ∧
      played.state.1.percpuNmiTimes 0 = 2 := by
  intro played
  have run : NmiRun 0 (overflowingWorld, {}) played.outcomes played.state := playedEvents_run _
  refine ⟨(faithful_iff_oneEach run).mpr ?_, by decide +kernel, by decide +kernel⟩
  decide +kernel

/-- After an overflow that was handled, the next NMI, from another source, is handled and
counted as well. -/
theorem not_faithful_secondNmi : ∃ outcomes final,
    NmiRun 0 (overflowingWorld, {}) outcomes final ∧ ¬ ∀ outcome ∈ outcomes, Faithful outcome :=
  ⟨_, _, playedEvents_run [.overflow, .nmi, .nmi], by decide +kernel⟩

end NvmEmulator.CorePmu
