/-
# Accounts of a polled counter

What a poll of a counter finds depends on where the events fall: before its read, or between
the read and the clear. A tally records that for each poll. The account of a tally is what
the polls add up and what the counter has left, computed by replaying the events on a counter
of 48 bits that starts 100 below the top and, if it is so programmed, stops when it wraps.
-/

import Mathlib.Logic.Function.Iterate
import Mathlib.Algebra.BigOperators.Group.List.Basic
import Mathlib.Algebra.Ring.Nat

namespace NvmEmulator.Nehalem

/-! ## Tallies -/

/-- Where the events fell from one clear to the next. -/
structure Placement where
  /-- The events before the read. -/
  before : Nat := 0
  /-- The events between the read and the clear. -/
  between : Nat := 0
  deriving DecidableEq

/-- The events from one clear to the next. -/
def Placement.events (placement : Placement) : Nat := placement.before + placement.between

/-- The events since the counter was enabled. -/
structure Tally where
  /-- The polls that have cleared the counter, the first one first. -/
  ticks : List Placement := []
  /-- The events since the last clear. -/
  current : Placement := {}
  /-- A poll has read the counter and not cleared it yet. -/
  hasRead : Bool := false
  deriving DecidableEq

namespace Tally

/-- The number of events since the counter was enabled. -/
def occurred (tally : Tally) : Nat :=
  (tally.ticks.map Placement.events).sum + tally.current.events

/-- An event. -/
def event (tally : Tally) : Tally :=
  if tally.hasRead then
    { tally with current := { tally.current with between := tally.current.between + 1 } }
  else { tally with current := { tally.current with before := tally.current.before + 1 } }

/-- A poll reads the counter. -/
def read (tally : Tally) : Tally := { tally with hasRead := true }

/-- A poll clears the counter. -/
def clear (tally : Tally) : Tally where
  ticks := tally.ticks ++ [tally.current]

end Tally

/-! ## The counter -/

/-- A counter of 48 bits. -/
structure Counter where
  count : Nat
  stopped : Bool
  deriving DecidableEq

namespace Counter

/-- An event; `frz` says whether the counter stops when it wraps. -/
def event (frz : Bool) (counter : Counter) : Counter :=
  if counter.stopped then counter
  else if counter.count + 1 = 2 ^ 48 then ⟨0, frz⟩
  else ⟨counter.count + 1, false⟩

/-- So many events. -/
def events (frz : Bool) (number : Nat) : Counter → Counter := (event frz)^[number]

/-- A poll clears the count. -/
def clear (counter : Counter) : Counter := { counter with count := 0 }

theorem events_succ (frz : Bool) (number : Nat) (counter : Counter) :
    counter.events frz (number + 1) = (counter.events frz number).event frz :=
  Function.iterate_succ_apply' (event frz) number counter

/-- A counter that has stopped takes no events. -/
theorem events_stopped (frz : Bool) (number count : Nat) :
    (⟨count, true⟩ : Counter).events frz number = ⟨count, true⟩ := by
  induction number with
  | zero => rfl
  | succ number ih => rw [events_succ, ih, event, if_pos rfl]

/-- The events before the counter wraps. -/
theorem events_of_lt (frz : Bool) {number count : Nat} (room : count + number < 2 ^ 48) :
    (⟨count, false⟩ : Counter).events frz number = ⟨count + number, false⟩ := by
  induction number with
  | zero => rfl
  | succ number ih =>
      have below : ¬ count + number + 1 = 2 ^ 48 := by omega
      rw [events_succ, ih (by omega), event, if_neg Bool.false_ne_true, if_neg below]
      rfl

theorem events_add (frz : Bool) (first second : Nat) (counter : Counter) :
    counter.events frz (first + second) = (counter.events frz first).events frz second := by
  rw [events, Nat.add_comm, Function.iterate_add_apply]
  rfl

/-- The events that take the counter past its top. -/
theorem events_of_le (frz : Bool) {number count : Nat} (top : count < 2 ^ 48)
    (wraps : 2 ^ 48 ≤ count + number) (few : number < 2 ^ 48) :
    (⟨count, false⟩ : Counter).events frz number =
      if frz then ⟨0, true⟩ else ⟨count + number - 2 ^ 48, false⟩ := by
  obtain ⟨late, split⟩ := Nat.exists_eq_add_of_le wraps
  have parts : number = (2 ^ 48 - 1 - count) + 1 + late := by omega
  have last : count + (2 ^ 48 - 1 - count) + 1 = 2 ^ 48 := by omega
  have rest : count + number - 2 ^ 48 = late := by omega
  rw [rest, parts, events_add, events_succ, events_of_lt frz (by omega), event,
    if_neg Bool.false_ne_true, if_pos last]
  cases frz with
  | true => exact events_stopped true late 0
  | false =>
      rw [events_of_lt false (by omega), Nat.zero_add]
      rfl

end Counter

/-! ## Accounts -/

/-- What the polls have added up, and the counter. -/
structure Account where
  converted : Nat
  counter : Counter

namespace Account

/-- The counter is enabled 100 below its top. -/
def start : Account := ⟨0, ⟨2 ^ 48 - 100, false⟩⟩

/-- A poll. -/
def tick (frz : Bool) (account : Account) (placement : Placement) : Account :=
  let found := account.counter.events frz placement.before
  ⟨account.converted + found.count, (found.events frz placement.between).clear⟩

/-- A poll of a counter that starts from 0. -/
theorem tick_zero (frz stopped : Bool) (converted : Nat) {placement : Placement}
    (few : placement.events < 2 ^ 48) :
    tick frz ⟨converted, ⟨0, stopped⟩⟩ placement =
      ⟨converted + if stopped then 0 else placement.before, ⟨0, stopped⟩⟩ := by
  cases stopped with
  | true =>
      simp only [tick, Counter.events_stopped]
      rfl
  | false =>
      have first : 0 + placement.before < 2 ^ 48 := by
        rw [Placement.events] at few
        omega
      have second : 0 + placement.before + placement.between < 2 ^ 48 := by
        rw [Placement.events] at few
        omega
      simp only [tick, Counter.events_of_lt frz first, Counter.events_of_lt frz second]
      simp [Counter.clear]

/-- The polls after the first one. -/
theorem foldl_tick_zero (frz stopped : Bool) (placements : List Placement) :
    ∀ converted, (placements.map Placement.events).sum < 2 ^ 48 →
      placements.foldl (tick frz) ⟨converted, ⟨0, stopped⟩⟩ =
        ⟨converted + if stopped then 0 else (placements.map Placement.before).sum,
          ⟨0, stopped⟩⟩ := by
  induction placements with
  | nil =>
      intro converted _
      cases stopped <;> rfl
  | cons first rest ih =>
      intro converted few
      rw [List.map_cons, List.sum_cons] at few
      rw [List.foldl_cons, tick_zero frz stopped converted (by omega), ih _ (by omega)]
      cases stopped with
      | true => rfl
      | false => simp [Nat.add_assoc]

/-- What the first poll converts. -/
def firstFound (frz : Bool) (placement : Placement) : Nat :=
  if placement.before < 100 then 2 ^ 48 - 100 + placement.before
  else if frz then 0
  else placement.before - 100

/-- The first poll leaves the counter stopped. -/
def stops (frz : Bool) (placement : Placement) : Bool :=
  frz && decide (100 ≤ placement.events)

/-- The first poll. -/
theorem tick_start (frz : Bool) {placement : Placement} (few : placement.events < 2 ^ 48) :
    tick frz start placement =
      ⟨firstFound frz placement, ⟨0, stops frz placement⟩⟩ := by
  have parts : placement.events = placement.before + placement.between := rfl
  by_cases early : placement.before < 100
  · have room : 2 ^ 48 - 100 + placement.before < 2 ^ 48 := by omega
    by_cases late : 100 ≤ placement.events
    · have wraps : 2 ^ 48 ≤ 2 ^ 48 - 100 + placement.before + placement.between := by omega
      simp only [tick, start, Counter.events_of_lt frz room, firstFound, stops, if_pos early,
        Counter.events_of_le frz room wraps (by omega), decide_eq_true late, Bool.and_true,
        Nat.zero_add]
      cases frz <;> rfl
    · have room' : 2 ^ 48 - 100 + placement.before + placement.between < 2 ^ 48 := by omega
      simp only [tick, start, Counter.events_of_lt frz room, firstFound, stops, if_pos early,
        Counter.events_of_lt frz room', decide_eq_false late, Bool.and_false, Nat.zero_add]
      rfl
  · have wraps : 2 ^ 48 ≤ 2 ^ 48 - 100 + placement.before := by omega
    have late : 100 ≤ placement.events := by omega
    simp only [tick, start, firstFound, stops, if_neg early, decide_eq_true late, Bool.and_true,
      Counter.events_of_le frz (Nat.sub_lt (by decide) (by decide)) wraps (by omega),
      Nat.zero_add]
    cases frz with
    | true =>
        simp only [if_true, Counter.events_stopped]
        rfl
    | false =>
        have rest : 2 ^ 48 - 100 + placement.before - 2 ^ 48 = placement.before - 100 := by omega
        have room : placement.before - 100 + placement.between < 2 ^ 48 := by omega
        simp only [Bool.false_eq_true, if_false, rest, Counter.events_of_lt false room]
        rfl

end Account

namespace Tally

/-- The account of the polls that have cleared the counter. -/
def account (frz : Bool) (tally : Tally) : Account :=
  tally.ticks.foldl (Account.tick frz) Account.start

/-- What the poll in progress reads, or the next one would. -/
def found (frz : Bool) (tally : Tally) : Counter :=
  (tally.account frz).counter.events frz tally.current.before

/-- The counter now. -/
def counter (frz : Bool) (tally : Tally) : Counter :=
  (tally.found frz).events frz tally.current.between

theorem account_clear (frz : Bool) (tally : Tally) :
    tally.clear.account frz =
      ⟨(tally.account frz).converted + (tally.found frz).count, (tally.counter frz).clear⟩ := by
  rw [account, clear, List.foldl_append]
  rfl

/-- An event moves the counter. -/
theorem counter_event (frz : Bool) {tally : Tally}
    (fresh : tally.hasRead = false → tally.current.between = 0) :
    tally.event.counter frz = (tally.counter frz).event frz := by
  rw [event]
  cases reading : tally.hasRead with
  | true => exact Counter.events_succ frz tally.current.between (tally.found frz)
  | false =>
      have later := Counter.events_succ frz tally.current.before (tally.account frz).counter
      simp only [counter, found, account, fresh reading, Bool.false_eq_true, if_false]
      exact later

/-- The events that no poll converts: those between the read of a poll and its clear, and,
if the counter is stopped, all that come after. -/
def missed (frz : Bool) (tally : Tally) (first : Placement) (rest : List Placement) : Nat :=
  first.between +
    if Account.stops frz first then (rest.map Placement.events).sum + tally.current.before
    else (rest.map Placement.between).sum

/-- The start below the top and the events that are missed cancel. -/
def Cancels (frz : Bool) (tally : Tally) : Prop :=
  match tally.ticks with
  | [] => False
  | first :: rest => first.before < 100 ∧ tally.missed frz first rest = 2 ^ 48 - 100

theorem sum_events (placements : List Placement) :
    (placements.map Placement.events).sum =
      (placements.map Placement.before).sum + (placements.map Placement.between).sum := by
  induction placements with
  | nil => rfl
  | cons first rest ih =>
      simp only [List.map_cons, List.sum_cons, ih, Placement.events]
      omega

/-- Before the first poll the counter does not show the events. -/
theorem start_count_ne (frz : Bool) {number : Nat} (few : number < 2 ^ 48) :
    (Account.start.counter.events frz number).count ≠ number := by
  by_cases early : number < 100
  · have room : 2 ^ 48 - 100 + number < 2 ^ 48 := by omega
    rw [Account.start, Counter.events_of_lt frz room]
    show 2 ^ 48 - 100 + number ≠ number
    omega
  · have wraps : 2 ^ 48 ≤ 2 ^ 48 - 100 + number := by omega
    rw [Account.start,
      Counter.events_of_le frz (Nat.sub_lt (by decide) (by decide)) wraps few]
    cases frz with
    | true =>
        show 0 ≠ number
        omega
    | false =>
        show 2 ^ 48 - 100 + number - 2 ^ 48 ≠ number
        omega

/-- The account after the first poll, and what the counter has since. -/
theorem account_cons (frz : Bool) {first : Placement} {rest : List Placement}
    {current : Placement} {hasRead : Bool}
    (few : (⟨first :: rest, current, hasRead⟩ : Tally).occurred < 2 ^ 48) :
    (⟨first :: rest, current, hasRead⟩ : Tally).account frz =
      ⟨Account.firstFound frz first +
          if Account.stops frz first then 0 else (rest.map Placement.before).sum,
        ⟨0, Account.stops frz first⟩⟩ := by
  rw [occurred, List.map_cons, List.sum_cons] at few
  rw [account, List.foldl_cons, Account.tick_start frz (by omega),
    Account.foldl_tick_zero frz _ rest _ (by omega)]

/-- Between two polls, the counts add up to the events just when the two faults cancel. -/
theorem converted_add_count_eq_iff (frz : Bool) {tally : Tally}
    (fresh : tally.current.between = 0) (few : tally.occurred < 2 ^ 48) :
    (tally.account frz).converted + (tally.counter frz).count = tally.occurred ↔
      tally.Cancels frz := by
  rcases tally with ⟨ticks, ⟨before, between⟩, hasRead⟩
  subst fresh
  cases ticks with
  | nil =>
      have same : (⟨[], ⟨before, 0⟩, hasRead⟩ : Tally).occurred = before := by
        simp [occurred, Placement.events]
      rw [same] at few ⊢
      have differs := start_count_ne frz few
      constructor
      · intro equal
        exact absurd ((Nat.zero_add _).symm.trans equal) differs
      · intro cancels
        exact absurd cancels id
  | cons first rest =>
      have room : 0 + before < 2 ^ 48 := by
        simp only [occurred, List.map_cons, List.sum_cons, Placement.events] at few
        omega
      have pending : ((⟨first :: rest, ⟨before, 0⟩, hasRead⟩ : Tally).counter frz).count =
          if Account.stops frz first then 0 else before := by
        show (((⟨first :: rest, ⟨before, 0⟩, hasRead⟩ : Tally).account frz).counter.events frz
          before).count = _
        rw [account_cons frz few]
        cases Account.stops frz first with
        | true => rw [Counter.events_stopped, if_pos rfl]
        | false =>
            rw [Counter.events_of_lt frz room, if_neg Bool.false_ne_true]
            exact Nat.zero_add before
      have parts : first.events = first.before + first.between := rfl
      have total : (⟨first :: rest, ⟨before, 0⟩, hasRead⟩ : Tally).occurred =
          first.events + (rest.map Placement.events).sum + before := rfl
      have sums := sum_events rest
      have cancels : (⟨first :: rest, ⟨before, 0⟩, hasRead⟩ : Tally).Cancels frz ↔
          first.before < 100 ∧ first.between +
            (if Account.stops frz first then (rest.map Placement.events).sum + before
            else (rest.map Placement.between).sum) = 2 ^ 48 - 100 := Iff.rfl
      rw [pending, account_cons frz few, total, cancels, Account.firstFound]
      cases stops : Account.stops frz first with
      | true =>
          have late : frz = true ∧ 100 ≤ first.events := by
            simpa [Account.stops] using stops
          simp only [if_true, late.1]
          split <;> omega
      | false =>
          have early : frz = true → first.events < 100 := by
            intro freezes
            simpa [Account.stops, freezes] using stops
          simp only [Bool.false_eq_true, if_false]
          cases frz with
          | true =>
              have := early rfl
              simp only [if_true]
              split <;> omega
          | false =>
              simp only [Bool.false_eq_true, if_false]
              split <;> omega

end Tally

end NvmEmulator.Nehalem
