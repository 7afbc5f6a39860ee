/-
# The timer

`migrate_init` starts the timer of the scan, for one interval ahead. When an interval is
over and the timer is armed, the kernel disarms it, calls `hrtimer_def` and arms it again if
the callback asks for that. It does not: it forwards the timer and returns
`HRTIMER_NORESTART`, so there is one scan at most. The theorem at the end is about every run
of the module.
-/

import NvmEmulator.Migrate.Scan

namespace NvmEmulator.Migrate

/-! ## Runs of the module -/

/-- What an interval brings: the task at its end, and the clocks that a callback reads then,
`late` nanoseconds after the end of the interval. -/
structure Period where
  task : Option Mm
  startTsc : BitVec 64
  stopTsc : BitVec 64
  late : Nat
  prompt : late < timerIntervalNs

/-- The module and the time of its clock. -/
structure Machine where
  now : Nat
  state : State

/-- `migrate_init`, which starts the timer relative to the present. -/
def migrateInit (now : Nat) (state : State) : Machine where
  now := now
  state := { state with timer := ⟨now + timerIntervalNs, true⟩ }

/-- The expiry of the timer: it is armed again if its callback says so. -/
def expire (fuel : Nat) (clock : Clock) (state : State) : Option State :=
  let disarmed := { state with timer := { state.timer with armed := false } }
  (hrtimerDef fuel clock disarmed).map fun result =>
    match result.1 with
    | .norestart => result.2
    | .restart => { result.2 with timer := { result.2.timer with armed := true } }

/-- An interval passes. -/
def elapse (fuel : Nat) (machine : Machine) (period : Period) : Option Machine :=
  let now := machine.now + timerIntervalNs
  let state := { machine.state with task := period.task }
  if state.timer.armed && decide (state.timer.expires ≤ now) then
    (expire fuel ⟨period.startTsc, period.stopTsc, now + period.late⟩ state).map (Machine.mk now)
  else some ⟨now, state⟩

/-- The intervals listed pass. -/
def run (fuel : Nat) (machine : Machine) (periods : List Period) : Option Machine :=
  periods.foldlM (elapse fuel) machine

/-- The module is loaded, and the intervals listed pass. -/
def migrateRun (fuel loaded : Nat) (periods : List Period) : Option Machine :=
  run fuel (migrateInit loaded State.loaded) periods

/-! ## Periodic monitoring -/

/-- The scans after some intervals: one of each memory listed, and one sample for each. -/
structure Scanned (memories : List Mm) (state : State) : Prop where
  samples : state.time.c = BitVec.ofNat 64 memories.length
  walked : state.walked = memories.flatMap Mm.mmap
  reported : state.reported = memories.flatMap Mm.frames

/-- Monitoring is periodic: as long as the task is there at each expiry, each scans its memory
and leaves the timer armed for the next interval; from the first expiry at which it is gone
there are no more scans. -/
structure Periodic (fuel loaded : Nat) (periods : List Period) : Prop where
  scans : ∀ first rest, periods = first ++ rest → (∀ period ∈ first, period.task.isSome) →
    ∃ machine, migrateRun fuel loaded first = some machine ∧
      Scanned (first.filterMap Period.task) machine.state ∧
      machine.state.timer.armed = true ∧ machine.now < machine.state.timer.expires ∧
      machine.state.timer.expires ≤ machine.now + timerIntervalNs
  ends : ∀ first gone rest, periods = first ++ gone :: rest → gone.task = none →
    ∃ before after, migrateRun fuel loaded first = some before ∧
      migrateRun fuel loaded periods = some after ∧
      after.state.time = before.state.time ∧ after.state.walked = before.state.walked ∧
      after.state.reported = before.state.reported

/-! ## The timer is not armed again -/

/-- What the scans have recorded is the same. -/
structure SameRecord (before after : State) : Prop where
  time : after.time = before.time
  walked : after.walked = before.walked
  reported : after.reported = before.reported

/-- A state whose timer has just expired. -/
def State.disarm (state : State) : State :=
  { state with timer := { state.timer with armed := false } }

theorem hrtimerForward_armed (now interval : Nat) (timer : Hrtimer) :
    (hrtimerForward now interval timer).armed = timer.armed := by
  rw [hrtimerForward]
  split <;> rfl

/-- The timer is not armed after its expiry, and without the task there was no scan. -/
theorem expire_unarmed {fuel : Nat} (enough : ptrsPerTable ≤ fuel) (clock : Clock)
    (state : State) :
    ∃ after, expire fuel clock state = some after ∧ after.timer.armed = false ∧
      (state.task = none → SameRecord state after) := by
  cases task : state.task with
  | none =>
      have scan : hrtimerDef fuel clock state.disarm = some (.norestart, state.disarm) :=
        hrtimerDef_none fuel clock task
      refine ⟨state.disarm, ?_, rfl, fun _ => ⟨rfl, rfl, rfl⟩⟩
      show (hrtimerDef fuel clock state.disarm).map _ = _
      rw [scan]
      rfl
  | some mm =>
      have scan : hrtimerDef fuel clock state.disarm = _ := hrtimerDef_eq enough clock task
      have expiry : expire fuel clock state = _ := congrArg (Option.map _) scan
      refine ⟨_, expiry, ?_, ?_⟩
      · exact hrtimerForward_armed _ _ _
      · intro none
        cases none

/-- An interval at whose end the timer expires. -/
theorem elapse_armed (fuel : Nat) (machine : Machine) (armed : machine.state.timer.armed = true)
    (due : machine.state.timer.expires ≤ machine.now + timerIntervalNs) (period : Period) :
    elapse fuel machine period =
      (expire fuel
        ⟨period.startTsc, period.stopTsc, machine.now + timerIntervalNs + period.late⟩
        { machine.state with task := period.task }).map
          (Machine.mk (machine.now + timerIntervalNs)) := by
  rw [elapse]
  show (if machine.state.timer.armed && decide (machine.state.timer.expires ≤ _) then _
    else _) = _
  rw [armed, decide_eq_true due]
  rfl

/-- An interval with the timer not armed. -/
theorem elapse_unarmed (fuel : Nat) {machine : Machine}
    (unarmed : machine.state.timer.armed = false) (period : Period) :
    elapse fuel machine period =
      some ⟨machine.now + timerIntervalNs, { machine.state with task := period.task }⟩ := by
  rw [elapse]
  show (if machine.state.timer.armed && _ then _ else _) = _
  rw [unarmed]
  rfl

/-- Once the timer is not armed there are no more scans. -/
theorem run_unarmed (fuel : Nat) (machine : Machine)
    (unarmed : machine.state.timer.armed = false) (periods : List Period) :
    ∃ last, run fuel machine periods = some last ∧ last.state.timer.armed = false ∧
      SameRecord machine.state last.state := by
  induction periods generalizing machine with
  | nil => exact ⟨machine, rfl, unarmed, rfl, rfl, rfl⟩
  | cons period periods ih =>
      rcases ih ⟨machine.now + timerIntervalNs, { machine.state with task := period.task }⟩
        unarmed with ⟨last, rest, still, same⟩
      refine ⟨last, ?_, still, same.time, same.walked, same.reported⟩
      rw [run, List.foldlM_cons, elapse_unarmed fuel unarmed]
      exact rest

/-- After the first interval the timer is not armed. -/
theorem migrateRun_cons {fuel : Nat} (enough : ptrsPerTable ≤ fuel) (loaded : Nat)
    (period : Period) (periods : List Period) :
    ∃ last, migrateRun fuel loaded (period :: periods) = some last ∧
      last.state.timer.armed = false ∧
      (period.task = none → SameRecord State.loaded last.state) := by
  have first :=
    elapse_armed fuel (migrateInit loaded State.loaded) rfl (le_refl _) period
  rcases expire_unarmed enough _ _ with ⟨after, expiry, unarmed, recorded⟩
  rw [expiry, Option.map_some] at first
  rcases run_unarmed fuel ⟨_, after⟩ unarmed periods with ⟨last, rest, still, same⟩
  refine ⟨last, ?_, still, ?_⟩
  · rw [migrateRun, run, List.foldlM_cons, first]
    exact rest
  · intro gone
    have before := recorded gone
    exact ⟨same.time.trans before.time, same.walked.trans before.walked,
      same.reported.trans before.reported⟩

/-- With the task gone at the first expiry there is no scan at all. -/
theorem migrateRun_gone {fuel : Nat} (enough : ptrsPerTable ≤ fuel) (loaded : Nat)
    {periods : List Period} (gone : ∀ first ∈ periods.head?, first.task = none) :
    ∃ last, migrateRun fuel loaded periods = some last ∧ SameRecord State.loaded last.state := by
  cases periods with
  | nil => exact ⟨_, rfl, rfl, rfl, rfl⟩
  | cons period periods =>
      rcases migrateRun_cons enough loaded period periods with ⟨last, run, _, recorded⟩
      exact ⟨last, run, recorded (gone period rfl)⟩

theorem Periodic.gone {fuel loaded : Nat} (enough : ptrsPerTable ≤ fuel) {period : Period}
    {periods : List Period} (periodic : Periodic fuel loaded (period :: periods)) :
    period.task = none := by
  cases task : period.task with
  | none => rfl
  | some mm =>
      have present : ∀ listed ∈ [period], listed.task.isSome := by
        intro listed member
        rw [List.mem_singleton.mp member, task]
        rfl
      rcases periodic.scans [period] periods rfl present with ⟨machine, run, _, armed, _⟩
      rcases migrateRun_cons enough loaded period [] with ⟨last, same, unarmed, _⟩
      rw [same] at run
      cases run
      rw [unarmed] at armed
      cases armed

/-- **Monitoring is not periodic.** It is so exactly if no interval passes, or the task is
gone at the first expiry. -/
theorem periodic_iff (fuel loaded : Nat) (enough : ptrsPerTable ≤ fuel) (periods : List Period) :
    Periodic fuel loaded periods ↔ ∀ first ∈ periods.head?, first.task = none := by
  constructor
  · intro periodic first head
    cases periods with
    | nil => cases head
    | cons period periods =>
        cases head
        exact periodic.gone enough
  · intro gone
    constructor
    · intro first rest split present
      cases first with
      | nil =>
          refine ⟨_, rfl, ⟨rfl, rfl, rfl⟩, rfl, ?_, le_refl _⟩
          exact Nat.lt_add_of_pos_right (by decide)
      | cons period first =>
          have here := present period List.mem_cons_self
          rw [split] at gone
          rw [gone period rfl] at here
          cases here
    · intro first last rest split none
      have early : ∀ head ∈ first.head?, head.task = Option.none := by
        intro head member
        apply gone
        rw [split, List.head?_append, member]
        rfl
      rcases migrateRun_gone enough loaded early with ⟨before, run, same⟩
      rcases migrateRun_gone enough loaded gone with ⟨after, run', same'⟩
      exact ⟨before, after, run, run', same'.time.trans same.time.symm,
        same'.walked.trans same.walked.symm, same'.reported.trans same.reported.symm⟩

/-- An interval with the task there. -/
def scanned (mm : Mm) : Period := ⟨some mm, 10, 20, 0, by decide⟩

/-- An interval with the task gone. -/
def missed : Period := ⟨none, 10, 20, 0, by decide⟩

theorem periodic_missed : Periodic 512 0 [missed, scanned (twoPages 0x5021)] := by
  apply (periodic_iff 512 0 (le_refl _) [missed, scanned (twoPages 0x5021)]).mpr
  intro first head
  cases head
  rfl

theorem not_periodic_twice :
    ¬ Periodic 512 0 [scanned (twoPages 0x5021), scanned (twoPages 0x5021)] := by
  intro periodic
  have none := periodic.gone (le_refl _)
  cases none

end NvmEmulator.Migrate
