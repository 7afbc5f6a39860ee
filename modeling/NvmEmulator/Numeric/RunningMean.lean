/-
# Running means

The mean of samples that come one by one, kept as a natural number: at each sample it is
multiplied by the number of samples before, the sample is added, and the sum divided again.
The division rounds down and the next one starts from its result, so what the divisions drop
adds up. The mean is right as long as that is less than the number of samples, and never too
large.
-/

import Mathlib.Algebra.BigOperators.Group.List.Defs
import Mathlib.Algebra.Order.Ring.Nat
import Mathlib.Tactic.Ring

namespace NvmEmulator.Numeric

/-- A mean, and the number of its samples. -/
structure RunningMean where
  average : Nat
  count : Nat

namespace RunningMean

/-- A sample more. -/
def add (mean : RunningMean) (sample : Nat) : RunningMean where
  average := (mean.average * mean.count + sample) / (mean.count + 1)
  count := mean.count + 1

/-- No samples. -/
def empty : RunningMean := ⟨0, 0⟩

/-- The running mean of some samples. -/
def of (samples : List Nat) : RunningMean := samples.foldl add empty

end RunningMean

/-- What the divisions drop of the sum of the samples, from where `count` samples with sum
`sum` have lost `lost`: each one drops the remainder of what is left. -/
def droppedFrom (count sum lost : Nat) : List Nat → Nat
  | [] => lost
  | sample :: rest =>
      droppedFrom (count + 1) (sum + sample) (lost + (sum + sample - lost) % (count + 1)) rest

/-- What the divisions drop of the sum of all samples. -/
def dropped (samples : List Nat) : Nat := droppedFrom 0 0 0 samples

namespace RunningMean

/-- A division keeps the sum, except for its remainder. -/
theorem add_sum (mean : RunningMean) {sum lost : Nat}
    (total : mean.average * mean.count + lost = sum) (sample : Nat) :
    (mean.add sample).average * (mean.add sample).count +
      (lost + (sum + sample - lost) % (mean.count + 1)) = sum + sample := by
  have left : sum + sample - lost = mean.average * mean.count + sample := by omega
  have parts := Nat.div_add_mod' (mean.average * mean.count + sample) (mean.count + 1)
  rw [left]
  show (mean.average * mean.count + sample) / (mean.count + 1) * (mean.count + 1) + _ = _
  omega

/-- The mean and what was dropped make up the sum. -/
theorem foldl_sum (samples : List Nat) {mean : RunningMean} {sum lost : Nat}
    (total : mean.average * mean.count + lost = sum) :
    (samples.foldl add mean).average * (samples.foldl add mean).count +
      droppedFrom mean.count sum lost samples = sum + samples.sum := by
  induction samples generalizing mean sum lost with
  | nil => exact total
  | cons sample rest ih =>
      have later := ih (mean.add_sum total sample)
      rw [List.foldl_cons, List.sum_cons, ← Nat.add_assoc]
      exact later

theorem foldl_count (samples : List Nat) (mean : RunningMean) :
    (samples.foldl add mean).count = mean.count + samples.length := by
  induction samples generalizing mean with
  | nil => rfl
  | cons sample rest ih =>
      rw [List.foldl_cons, ih, List.length_cons]
      show mean.count + 1 + rest.length = _
      omega

theorem of_count (samples : List Nat) : (of samples).count = samples.length := by
  rw [of, foldl_count]
  exact Nat.zero_add _

theorem of_sum (samples : List Nat) :
    (of samples).average * samples.length + dropped samples = samples.sum := by
  have start : empty.average * empty.count + 0 = 0 := rfl
  have whole := foldl_sum samples start
  rw [Nat.zero_add] at whole
  rw [← of_count]
  exact whole

/-- The running mean is the mean as long as less than the number of samples was dropped. -/
theorem of_average_eq_iff {samples : List Nat} (some : samples ≠ []) :
    (of samples).average = samples.sum / samples.length ↔ dropped samples < samples.length := by
  have positive : 0 < samples.length := List.length_pos_iff.mpr some
  have whole := of_sum samples
  constructor
  · intro right
    have parts := Nat.div_add_mod' samples.sum samples.length
    rw [right] at whole
    have rest : dropped samples = samples.sum % samples.length := by omega
    rw [rest]
    exact Nat.mod_lt _ positive
  · intro few
    rw [← whole, Nat.add_comm, Nat.add_mul_div_right _ _ positive, Nat.div_eq_of_lt few,
      Nat.zero_add]

/-- It is never above the mean. -/
theorem of_average_le {samples : List Nat} (some : samples ≠ []) :
    (of samples).average ≤ samples.sum / samples.length := by
  have positive : 0 < samples.length := List.length_pos_iff.mpr some
  rw [Nat.le_div_iff_mul_le positive]
  exact Nat.le_of_add_right_le (Nat.le_of_eq (of_sum samples))

end RunningMean

/-! ## How much is dropped -/

/-- Each division drops less than the number of samples. -/
theorem droppedFrom_le (samples : List Nat) (count sum lost : Nat)
    (bound : 2 * lost ≤ count * (count - 1)) :
    2 * droppedFrom count sum lost samples ≤
      (count + samples.length) * (count + samples.length - 1) := by
  induction samples generalizing count sum lost with
  | nil => exact bound
  | cons sample rest ih =>
      have more : (sum + sample - lost) % (count + 1) < count + 1 :=
        Nat.mod_lt _ (Nat.succ_pos count)
      have next : 2 * (lost + (sum + sample - lost) % (count + 1)) ≤
          (count + 1) * (count + 1 - 1) := by
        have square : count * (count - 1) + 2 * count = (count + 1) * count := by
          cases count with
          | zero => rfl
          | succ below =>
              rw [Nat.add_sub_cancel]
              ring
        rw [Nat.add_sub_cancel]
        omega
      have later := ih (count + 1) (sum + sample) _ next
      rw [List.length_cons, ← Nat.add_assoc, Nat.add_right_comm]
      exact later

/-- Samples that are all the same drop nothing. -/
theorem droppedFrom_eq_zero (samples : List Nat) {sample : Nat}
    (same : ∀ listed ∈ samples, listed = sample) (count : Nat) :
    droppedFrom count (sample * count) 0 samples = 0 := by
  induction samples generalizing count with
  | nil => rfl
  | cons first rest ih =>
      have here : first = sample := same first List.mem_cons_self
      have whole : sample * count + sample - 0 = sample * (count + 1) := by
        rw [Nat.mul_succ]
        rfl
      rw [droppedFrom, here, whole, Nat.mul_mod_left]
      exact ih (fun later listed => same later (List.mem_cons_of_mem _ listed)) (count + 1)

theorem dropped_eq_zero {samples : List Nat} {sample : Nat}
    (same : ∀ listed ∈ samples, listed = sample) : dropped samples = 0 :=
  droppedFrom_eq_zero samples same 0

/-- The running mean is below the mean by half of the number of samples at most. -/
theorem RunningMean.le_of_average_add {samples : List Nat} (some : samples ≠ []) :
    samples.sum / samples.length ≤ (of samples).average + (samples.length - 1) / 2 := by
  have positive : 0 < samples.length := List.length_pos_iff.mpr some
  have whole := of_sum samples
  have few : 2 * dropped samples ≤ samples.length * (samples.length - 1) := by
    have bound := droppedFrom_le samples 0 0 0 (Nat.zero_le _)
    rw [Nat.zero_add] at bound
    exact bound
  rw [← whole, Nat.add_comm, Nat.add_mul_div_right _ _ positive, Nat.add_comm]
  apply Nat.add_le_add_left
  rw [Nat.le_div_iff_mul_le (by decide : 0 < 2), Nat.mul_comm]
  have twice : 2 * (dropped samples / samples.length) ≤ 2 * dropped samples / samples.length :=
    Nat.mul_div_le_mul_div_assoc _ _ _
  apply twice.trans
  rw [Nat.div_le_iff_le_mul_add_pred positive]
  omega

end NvmEmulator.Numeric
