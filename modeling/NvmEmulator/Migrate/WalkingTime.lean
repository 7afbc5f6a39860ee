/-
# The walking time

A scan is timed by `GET_START_TIME` and `GET_END_TIME`, which keep the average of all scans in
one integer; `TIME_INFO` prints it when the module is unloaded, in cycles of the time stamp
counter and in nanoseconds. The first theorem says for which sequences of scans the average
is their mean, the second for which durations the nanoseconds are right.
-/

import NvmEmulator.Migrate.Scan
import NvmEmulator.Numeric.RunningMean

namespace NvmEmulator.Migrate

open NvmEmulator.Numeric

/-! ## The functions -/

/-- The times taken around a scan. The division by `c` faults where `c` has wrapped to 0. -/
def timeScan (time : WalkingTime) (clock : Clock) : Option WalkingTime :=
  let started := getStartTime clock.startTsc time
  if started.c = 0 then none else some (getEndTime clock.stopTsc started)

/-- The times taken around one scan after the other. -/
def timeScans (time : WalkingTime) (clocks : List Clock) : Option WalkingTime :=
  clocks.foldlM timeScan time

/-- The time of a scan, `end - start`. -/
def Clock.duration (clock : Clock) : Nat := (clock.stopTsc - clock.startTsc).toNat

/-- The durations of some scans. -/
def durations (clocks : List Clock) : List Nat := clocks.map Clock.duration

/-- `freq`, in kHz: what `cpufreq_quick_get` returned, or `cpu_khz` if that is 0. -/
def frequency (quick cpuKhz : BitVec 32) : BitVec 32 := if quick = 0 then cpuKhz else quick

/-- The numbers that `TIME_INFO` prints, as its formats show them: `%u` and `%lld`. -/
structure TimeInfo where
  mhz : Nat
  khz : Nat
  cycles : Int
  samples : Int
  ns : Int
  deriving DecidableEq

/-- `TIME_INFO`. The last quotient is one of 64 bits. -/
def timeInfo (quick cpuKhz : BitVec 32) (time : WalkingTime) : TimeInfo :=
  let freq := frequency quick cpuKhz
  { mhz := (freq / 1000).toNat
    khz := (freq % 1000).toNat
    cycles := time.average.toInt
    samples := time.c.toInt
    ns := (1000 * time.average / freq.setWidth 64).toInt }

/-- A scan that does not fault takes these times. -/
theorem hrtimerDef_timeScan {fuel : Nat} (enough : ptrsPerTable ≤ fuel) {clock : Clock}
    {state : State} {mm : Mm} (task : state.task = some mm) {time : WalkingTime}
    (timed : timeScan state.time clock = some time) :
    ∃ after, hrtimerDef fuel clock state = some (.norestart, after) ∧ after.time = time := by
  refine ⟨_, hrtimerDef_eq enough clock task, ?_⟩
  rw [timeScan] at timed
  split at timed
  · cases timed
  · exact Option.some.inj timed

/-! ## One scan -/

section Scan

variable {time : WalkingTime} {clock : Clock}

theorem timeScan_wrapped (wrapped : time.c.toNat + 1 = 2 ^ 64) : timeScan time clock = none := by
  have zero : time.c + 1 = 0 := by
    apply BitVec.eq_of_toNat_eq
    rw [BitVec.toNat_add]
    show (time.c.toNat + 1) % 2 ^ 64 = 0
    rw [wrapped, Nat.mod_self]
  exact if_pos zero

/-- A sample more: what the division leaves of the sum, as far as 64 bits hold that. -/
theorem timeScan_some (room : time.c.toNat + 1 < 2 ^ 64) :
    ∃ after, timeScan time clock = some after ∧ after.c.toNat = time.c.toNat + 1 ∧
      after.average.toNat =
        (time.average.toNat * time.c.toNat + clock.duration) % 2 ^ 64 / (time.c.toNat + 1) := by
  have count : (time.c + 1).toNat = time.c.toNat + 1 := by
    rw [BitVec.toNat_add]
    exact Nat.mod_eq_of_lt room
  have nonzero : time.c + 1 ≠ 0 := by
    intro zero
    rw [zero] at count
    cases count
  refine ⟨_, if_neg nonzero, count, ?_⟩
  show ((time.average * (time.c + 1 - 1) + (clock.stopTsc - clock.startTsc)) /
    (time.c + 1)).toNat = _
  rw [BitVec.add_sub_cancel, BitVec.toNat_udiv, BitVec.toNat_add, BitVec.toNat_mul, count,
    Nat.mod_add_mod]
  rfl

end Scan

/-! ## Scans one after the other -/

theorem timeScans_cons (time : WalkingTime) (clock : Clock) (rest : List Clock) :
    timeScans time (clock :: rest) =
      (timeScan time clock).bind fun after => timeScans after rest := List.foldlM_cons

/-- The count of samples cannot take this many more. -/
theorem timeScans_wrapped {clocks : List Clock} {time : WalkingTime}
    (many : 2 ^ 64 ≤ time.c.toNat + clocks.length) : timeScans time clocks = none := by
  induction clocks generalizing time with
  | nil =>
      rw [List.length_nil, Nat.add_zero] at many
      exact absurd time.c.isLt (Nat.not_lt_of_le many)
  | cons clock rest ih =>
      have below := time.c.isLt
      rw [List.length_cons] at many
      rw [timeScans_cons]
      by_cases wrapped : time.c.toNat + 1 = 2 ^ 64
      · rw [timeScan_wrapped wrapped]
        rfl
      · rcases @timeScan_some time clock (by omega) with ⟨after, scan, count, _⟩
        rw [scan, Option.bind_some]
        exact ih (by omega)

/-- The times hold a running mean. -/
structure Follows (mean : RunningMean) (time : WalkingTime) : Prop where
  average : time.average.toNat = mean.average
  count : time.c.toNat = mean.count

/-- As long as the sums fit into 64 bits the times hold the running mean of the durations. -/
theorem timeScans_follows {clocks : List Clock} {time : WalkingTime} {mean : RunningMean}
    (follows : Follows mean time) (few : mean.count + clocks.length < 2 ^ 64)
    (bounded : mean.average * mean.count + (durations clocks).sum < 2 ^ 64) :
    ∃ after, timeScans time clocks = some after ∧
      Follows ((durations clocks).foldl RunningMean.add mean) after := by
  induction clocks generalizing time mean with
  | nil => exact ⟨time, rfl, follows⟩
  | cons clock rest ih =>
      have sum : (durations (clock :: rest)).sum = clock.duration + (durations rest).sum :=
        List.sum_cons
      rw [sum] at bounded
      rw [List.length_cons] at few
      rcases @timeScan_some time clock (by rw [follows.count]; omega) with
        ⟨middle, scan, count, average⟩
      rw [follows.average, follows.count] at average
      rw [Nat.mod_eq_of_lt (by omega)] at average
      have next : Follows (mean.add clock.duration) middle :=
        ⟨average, count.trans (congrArg Nat.succ follows.count)⟩
      have parts : (mean.add clock.duration).average * (mean.add clock.duration).count ≤
          mean.average * mean.count + clock.duration := Nat.div_mul_le_self _ _
      have later : (mean.add clock.duration).count + rest.length < 2 ^ 64 := by
        show mean.count + 1 + rest.length < 2 ^ 64
        omega
      rcases ih next later (by omega) with ⟨after, scans, last⟩
      refine ⟨after, ?_, last⟩
      rw [timeScans_cons, scan]
      exact scans

/-- An average of durations up to a bound is no larger, even where a sum wraps. -/
theorem timeScans_le {clocks : List Clock} {time : WalkingTime} {bound : Nat}
    (below : time.average.toNat ≤ bound) (short : ∀ clock ∈ clocks, clock.duration ≤ bound)
    (few : time.c.toNat + clocks.length < 2 ^ 64) :
    ∃ after, timeScans time clocks = some after ∧ after.average.toNat ≤ bound := by
  induction clocks generalizing time with
  | nil => exact ⟨time, rfl, below⟩
  | cons clock rest ih =>
      rw [List.length_cons] at few
      rcases @timeScan_some time clock (by omega) with ⟨middle, scan, count, average⟩
      have here := short clock List.mem_cons_self
      have product : time.average.toNat * time.c.toNat ≤ bound * time.c.toNat :=
        Nat.mul_le_mul_right _ below
      have next : middle.average.toNat ≤ bound := by
        rw [average]
        apply Nat.div_le_of_le_mul
        apply (Nat.mod_le _ _).trans
        rw [Nat.add_one_mul, Nat.mul_comm time.c.toNat bound]
        omega
      rcases ih next (fun later listed => short later (List.mem_cons_of_mem _ listed))
        (by omega) with ⟨after, scans, last⟩
      refine ⟨after, ?_, last⟩
      rw [timeScans_cons, scan]
      exact scans

/-! ## The average -/

/-- The times that the module begins with; `start` and `end` do not matter. -/
def freshTime (start stop : BitVec 64) : WalkingTime := ⟨start, stop, 0, 0⟩

/-- After some scans `average` is the mean of their durations. -/
def AverageIsMean (start stop : BitVec 64) (clocks : List Clock) : Prop :=
  ∃ after, timeScans (freshTime start stop) clocks = some after ∧
    after.average.toNat = (durations clocks).sum / clocks.length

/-- Scans that come to an end have not been too many. -/
theorem length_lt_of_timeScans {start stop : BitVec 64} {clocks : List Clock}
    {after : WalkingTime} (scans : timeScans (freshTime start stop) clocks = some after) :
    clocks.length < 2 ^ 64 := by
  by_contra many
  have room : 2 ^ 64 ≤ (freshTime start stop).c.toNat + clocks.length := by
    show 2 ^ 64 ≤ 0 + clocks.length
    omega
  rw [timeScans_wrapped room] at scans
  cases scans

theorem freshTime_follows (start stop : BitVec 64) :
    Follows RunningMean.empty (freshTime start stop) := ⟨rfl, rfl⟩

/-- The average of all scans is their running mean. -/
theorem timeScans_freshTime (start stop : BitVec 64) {clocks : List Clock}
    (few : clocks.length < 2 ^ 64) (bounded : (durations clocks).sum < 2 ^ 64) :
    ∃ after, timeScans (freshTime start stop) clocks = some after ∧
      after.average.toNat = (RunningMean.of (durations clocks)).average := by
  have count : RunningMean.empty.count + clocks.length < 2 ^ 64 := by
    show 0 + clocks.length < 2 ^ 64
    rw [Nat.zero_add]
    exact few
  have sum : RunningMean.empty.average * RunningMean.empty.count + (durations clocks).sum <
      2 ^ 64 := by
    show 0 * 0 + (durations clocks).sum < 2 ^ 64
    rw [Nat.zero_mul, Nat.zero_add]
    exact bounded
  rcases timeScans_follows (freshTime_follows start stop) count sum with ⟨after, scans, follows⟩
  exact ⟨after, scans, follows.average⟩

theorem durations_length (clocks : List Clock) : (durations clocks).length = clocks.length :=
  List.length_map _

theorem durations_ne_nil {clocks : List Clock} (some : clocks ≠ []) : durations clocks ≠ [] := by
  intro none
  exact some (List.map_eq_nil_iff.mp none)

/-- **The average of the scans.** It is their mean as long as what its divisions have dropped
is less than the number of scans, and that fits into 64 bits. -/
theorem averageIsMean_iff (start stop : BitVec 64) {clocks : List Clock} (some : clocks ≠ [])
    (bounded : (durations clocks).sum < 2 ^ 64) :
    AverageIsMean start stop clocks ↔
      clocks.length < 2 ^ 64 ∧ dropped (durations clocks) < clocks.length := by
  have mean := RunningMean.of_average_eq_iff (durations_ne_nil some)
  rw [durations_length] at mean
  constructor
  · rintro ⟨after, scans, right⟩
    have few := length_lt_of_timeScans scans
    rcases timeScans_freshTime start stop few bounded with ⟨same, run, average⟩
    rw [run] at scans
    cases scans
    rw [average] at right
    exact ⟨few, mean.mp right⟩
  · rintro ⟨few, less⟩
    rcases timeScans_freshTime start stop few bounded with ⟨after, scans, average⟩
    exact ⟨after, scans, average.trans (mean.mpr less)⟩

/-- A scan that took so many cycles. -/
def scanOf (cycles : BitVec 64) : Clock := ⟨0, cycles, 0⟩

theorem averageIsMean_exact : AverageIsMean 0 0 [scanOf 5, scanOf 7, scanOf 6] := by
  apply (averageIsMean_iff 0 0 (List.cons_ne_nil _ _) (by decide)).mpr
  decide

/-- Scans of 1, 2 and 3 cycles have an average of 1. -/
theorem not_averageIsMean_three :
    ((timeScans (freshTime 0 0) [scanOf 1, scanOf 2, scanOf 3]).map fun after =>
        after.average) = some 1 ∧
      ¬ ∀ clocks : List Clock, clocks ≠ [] → (durations clocks).sum < 2 ^ 64 →
        AverageIsMean 0 0 clocks := by
  refine ⟨by decide, fun claim => ?_⟩
  rcases claim [scanOf 1, scanOf 2, scanOf 3] (List.cons_ne_nil _ _) (by decide) with
    ⟨after, scans, right⟩
  cases scans
  exact absurd right (by decide)

/-- The average is at most the mean, and below it by half of the number of scans at most. -/
theorem average_bounds (start stop : BitVec 64) {clocks : List Clock} (some : clocks ≠ [])
    (few : clocks.length < 2 ^ 64) (bounded : (durations clocks).sum < 2 ^ 64) :
    ∃ after, timeScans (freshTime start stop) clocks = Option.some after ∧
      after.average.toNat ≤ (durations clocks).sum / clocks.length ∧
      (durations clocks).sum / clocks.length ≤
        after.average.toNat + (clocks.length - 1) / 2 := by
  rcases timeScans_freshTime start stop few bounded with ⟨after, scans, average⟩
  have low := RunningMean.of_average_le (durations_ne_nil some)
  have high := RunningMean.le_of_average_add (durations_ne_nil some)
  rw [durations_length, ← average] at low high
  exact ⟨after, scans, low, high⟩

/-! ## Nanoseconds -/

theorem printed_toNat (average : BitVec 64) (freq : BitVec 32) :
    (1000 * average / freq.setWidth 64).toNat =
      1000 * average.toNat % 2 ^ 64 / freq.toNat := by
  rw [BitVec.toNat_udiv, BitVec.toNat_mul, BitVec.toNat_setWidth_of_le (by decide)]
  rfl

/-- What is printed for an average and a frequency. -/
theorem timeInfo_ns (quick cpuKhz : BitVec 32) (time : WalkingTime) :
    (timeInfo quick cpuKhz time).ns ≤
        (1000 * time.average.toNat / (frequency quick cpuKhz).toNat : Nat) ∧
      (1000 * time.average.toNat < (frequency quick cpuKhz).toNat →
        (timeInfo quick cpuKhz time).ns = 0) := by
  let printed := 1000 * time.average / (frequency quick cpuKhz).setWidth 64
  have most : printed.toNat ≤ 1000 * time.average.toNat / (frequency quick cpuKhz).toNat := by
    rw [printed_toNat]
    exact Nat.div_le_div_right (Nat.mod_le _ _)
  constructor
  · show printed.toInt ≤ _
    rw [BitVec.toInt_eq_toNat_cond]
    split <;> omega
  · intro small
    show printed.toInt = 0
    rw [Nat.div_eq_of_lt small] at most
    have zero : printed = 0 := BitVec.eq_of_toNat_eq (Nat.le_zero.mp most)
    rw [zero]
    rfl

/-- Scans that all take the same time have that average. -/
theorem timeScans_same (start stop : BitVec 64) {clocks : List Clock} (some : clocks ≠ [])
    {duration : Nat} (same : ∀ clock ∈ clocks, clock.duration = duration)
    (few : clocks.length < 2 ^ 64) (bounded : clocks.length * duration < 2 ^ 64) :
    ∃ after, timeScans (freshTime start stop) clocks = Option.some after ∧
      after.average.toNat = duration := by
  have all : ∀ listed ∈ durations clocks, listed = duration := by
    intro listed mem
    rcases List.mem_map.mp mem with ⟨clock, inside, rfl⟩
    exact same clock inside
  have sum : (durations clocks).sum = clocks.length * duration := by
    rw [List.eq_replicate_of_mem all, List.sum_replicate_nat, durations_length]
  have positive : 0 < clocks.length := List.length_pos_iff.mpr some
  have mean : (RunningMean.of (durations clocks)).average =
      (durations clocks).sum / (durations clocks).length := by
    rw [RunningMean.of_average_eq_iff (durations_ne_nil some), dropped_eq_zero all,
      durations_length]
    exact positive
  rcases timeScans_freshTime start stop few (sum ▸ bounded) with ⟨after, scans, average⟩
  refine ⟨after, scans, ?_⟩
  rw [average, mean, sum, durations_length, Nat.mul_div_cancel_left _ positive]

/-- What is printed as nanoseconds are the microseconds of a scan. -/
theorem timeInfo_microseconds (start stop : BitVec 64) (quick cpuKhz : BitVec 32)
    {clocks : List Clock} (some : clocks ≠ []) {duration : Nat}
    (same : ∀ clock ∈ clocks, clock.duration = duration) (few : clocks.length < 2 ^ 64)
    (bounded : clocks.length * duration < 2 ^ 64) (fits : 1000 * duration < 2 ^ 63) :
    ∃ after, timeScans (freshTime start stop) clocks = Option.some after ∧
      (timeInfo quick cpuKhz after).ns =
        (duration * 1000 / (frequency quick cpuKhz).toNat : Nat) := by
  rcases timeScans_same start stop some same few bounded with ⟨after, scans, average⟩
  refine ⟨after, scans, ?_⟩
  have printed := printed_toNat after.average (frequency quick cpuKhz)
  rw [average, Nat.mod_eq_of_lt (by omega), Nat.mul_comm] at printed
  have most : duration * 1000 / (frequency quick cpuKhz).toNat ≤ duration * 1000 :=
    Nat.div_le_self _ _
  show (1000 * after.average / (frequency quick cpuKhz).setWidth 64).toInt = _
  rw [BitVec.toInt_eq_toNat_of_lt (by omega), printed]

/-- After some scans of a duration `TIME_INFO` prints that duration in nanoseconds. -/
def PrintsNs (start stop : BitVec 64) (quick cpuKhz : BitVec 32) (clocks : List Clock)
    (duration : Nat) : Prop :=
  ∃ after, timeScans (freshTime start stop) clocks = some after ∧
    (timeInfo quick cpuKhz after).ns =
      (duration * 10 ^ 6 / (frequency quick cpuKhz).toNat : Nat)

/-- A thousand cycles for a million: the quotients agree only where both are 0. -/
theorem thousand_lt_million {cycles duration freq : Nat} (positive : 0 < freq)
    (below : cycles ≤ duration) (whole : freq ≤ duration * 10 ^ 6) :
    1000 * cycles / freq < duration * 10 ^ 6 / freq := by
  have most : 1000 * cycles / freq ≤ 1000 * duration / freq :=
    Nat.div_le_div_right (Nat.mul_le_mul_left _ below)
  have scaled : 1000 * (1000 * duration / freq) ≤ 1000 * (1000 * duration) / freq :=
    Nat.mul_div_le_mul_div_assoc _ _ _
  have million : 1000 * (1000 * duration) = duration * 10 ^ 6 := by omega
  have one : 1 ≤ duration * 10 ^ 6 / freq := (Nat.one_le_div_iff positive).mpr whole
  rw [million] at scaled
  omega

/-- **The nanoseconds.** They are microseconds, so they are right where they are 0. -/
theorem printsNs_iff (start stop : BitVec 64) {quick cpuKhz : BitVec 32}
    (known : frequency quick cpuKhz ≠ 0) {clocks : List Clock} {duration : Nat}
    (same : ∀ clock ∈ clocks, clock.duration = duration) :
    PrintsNs start stop quick cpuKhz clocks duration ↔
      clocks.length < 2 ^ 64 ∧ duration * 10 ^ 6 < (frequency quick cpuKhz).toNat := by
  have positive : 0 < (frequency quick cpuKhz).toNat := by
    rw [Nat.pos_iff_ne_zero]
    intro zero
    exact known (BitVec.eq_of_toNat_eq zero)
  have short : ∀ clock ∈ clocks, clock.duration ≤ duration := fun clock listed =>
    Nat.le_of_eq (same clock listed)
  have run := fun few => @timeScans_le clocks (freshTime start stop) duration (Nat.zero_le _)
    short few
  have count : (freshTime start stop).c.toNat + clocks.length = clocks.length := Nat.zero_add _
  rw [count] at run
  constructor
  · rintro ⟨after, scans, right⟩
    have few := length_lt_of_timeScans scans
    refine ⟨few, ?_⟩
    by_contra whole
    rcases run few with ⟨last, again, below⟩
    have one : last = after := Option.some.inj (again.symm.trans scans)
    rw [one] at below
    have most := (timeInfo_ns quick cpuKhz after).1
    have less := thousand_lt_million positive below (Nat.le_of_not_lt whole)
    rw [right] at most
    omega
  · rintro ⟨few, small⟩
    rcases run few with ⟨after, scans, below⟩
    refine ⟨after, scans, ?_⟩
    rw [(timeInfo_ns quick cpuKhz after).2 (by omega), Nat.div_eq_of_lt small]
    rfl

theorem printsNs_short : PrintsNs 0 0 2400000 2400000 [scanOf 2, scanOf 2] 2 := by
  apply (printsNs_iff 0 0 (by decide : frequency 2400000 2400000 ≠ 0) ?_).mpr
  · decide
  · decide

/-- A scan of 2400000 cycles at 2400000 kHz, a millisecond, is printed as 1000 ns. -/
theorem not_printsNs_millisecond :
    ((timeScans (freshTime 0 0) [scanOf 2400000]).map fun after =>
        (timeInfo 2400000 2400000 after).ns) = some 1000 ∧
      ¬ PrintsNs 0 0 2400000 2400000 [scanOf 2400000] 2400000 := by
  refine ⟨by decide, ?_⟩
  rintro ⟨after, scans, right⟩
  cases scans
  exact absurd right (by decide)

end NvmEmulator.Migrate
