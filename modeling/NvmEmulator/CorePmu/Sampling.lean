/-
# Sampling

PMC0 starts `N` below the top of its 48 bits, so it wraps at the `N`-th miss; the NMI of
the overflow loads it again and counts. One processor is a view here: its registers and
its count, with the globals that the handler reads. The start programs every online
processor's view, a miss moves one of them, and the arithmetic of the intervals is about
one view.
-/

import NvmEmulator.CorePmu.Acknowledge
import NvmEmulator.Semantics.Footprint

namespace NvmEmulator.CorePmu

open NvmEmulator.Semantics NvmEmulator.Uncore

/-! ## One processor -/

/-- What a processor's sampling depends on. -/
@[ext]
structure CpuView where
  msrs : MsrFile
  nmiTimes : BitVec 64
  globals : CoreGlobals

/-- The view of a processor. -/
def view (cpu : Nat) (world : CoreWorld) : CpuView :=
  ⟨world.msrs cpu, world.percpuNmiTimes cpu, world.globals⟩

namespace CpuView

/-- After a write of one register. -/
def wrmsr (addr : BitVec 32) (value : BitVec 64) (view : CpuView) : CpuView :=
  { view with msrs := view.msrs.wrmsr addr value }

/-- After `core_pmu_clear_counter` -/
def cleared (view : CpuView) : CpuView := { view with nmiTimes := 0 }

/-- After `__core_pmu_clear_msrs` -/
def stopped (view : CpuView) : CpuView :=
  (((view.wrmsr msrIa32Pmc0 0).wrmsr msrIa32Perfevtsel0 0).wrmsr msrCorePerfGlobalCtrl 0).wrmsr
    msrCorePerfGlobalOvfCtrl 0

/-- After `__core_pmu_enable_predefined_event` -/
def programmed (view : CpuView) : CpuView :=
  (view.wrmsr msrIa32Pmc0 (initCount view.globals.preEventInitValue)).wrmsr
    msrIa32Perfevtsel0 (eventSelect view.globals.preEventInfo.event)

/-- After `__core_pmu_enable_counting` -/
def enabled (view : CpuView) : CpuView := view.wrmsr msrCorePerfGlobalCtrl 1

/-- After the NMI is counted. -/
def counted (view : CpuView) : CpuView := { view with nmiTimes := view.nmiTimes + 1 }

/-- After the processor's NMI. -/
def handled (view : CpuView) : CpuView :=
  if view.msrs.overflowed then view.stopped.programmed.enabled.counted else view

/-- After the event and the threshold are set. -/
def eventSet (view : CpuView) : CpuView :=
  { view with
    globals := { view.globals with
      preEventInfo := ⟨.llcMisses, view.globals.preEventInitValue⟩ } }

theorem wrmsr_globals (addr : BitVec 32) (value : BitVec 64) (view : CpuView) :
    (view.wrmsr addr value).globals = view.globals := rfl

/-- The last write of a register is the one that counts. -/
theorem wrmsr_idem {addr : BitVec 32} (plain : addr ≠ msrCorePerfGlobalOvfCtrl)
    (first second : BitVec 64) (view : CpuView) :
    (view.wrmsr addr first).wrmsr addr second = view.wrmsr addr second := by
  simp only [wrmsr, wrmsr_plain plain, Function.update_idem]

/-- Writes of different registers commute. -/
theorem wrmsr_comm {addr other : BitVec 32} (apart : addr ≠ other)
    (plain : addr ≠ msrCorePerfGlobalOvfCtrl) (plain' : other ≠ msrCorePerfGlobalOvfCtrl)
    (first second : BitVec 64) (view : CpuView) :
    (view.wrmsr addr first).wrmsr other second =
      (view.wrmsr other second).wrmsr addr first := by
  simp only [wrmsr, wrmsr_plain plain, wrmsr_plain plain', Function.update_comm apart]

theorem cleared_idem (view : CpuView) : view.cleared.cleared = view.cleared := rfl

theorem stopped_idem (view : CpuView) : view.stopped.stopped = view.stopped := by
  have clear : ∀ view : CpuView, view.wrmsr msrCorePerfGlobalOvfCtrl 0 = view := by
    intro view
    rw [wrmsr, wrmsr_ovfCtrl_zero]
  have count : msrIa32Pmc0 ≠ msrCorePerfGlobalOvfCtrl := by decide
  have select : msrIa32Perfevtsel0 ≠ msrCorePerfGlobalOvfCtrl := by decide
  have control : msrCorePerfGlobalCtrl ≠ msrCorePerfGlobalOvfCtrl := by decide
  have first : msrCorePerfGlobalCtrl ≠ msrIa32Pmc0 := by decide
  have second : msrIa32Perfevtsel0 ≠ msrIa32Pmc0 := by decide
  have third : msrCorePerfGlobalCtrl ≠ msrIa32Perfevtsel0 := by decide
  simp only [stopped, clear]
  rw [wrmsr_comm first control count, wrmsr_comm second select count, wrmsr_idem count,
    wrmsr_comm third control select, wrmsr_idem select, wrmsr_idem control]

theorem programmed_idem (view : CpuView) : view.programmed.programmed = view.programmed := by
  have count : msrIa32Pmc0 ≠ msrCorePerfGlobalOvfCtrl := by decide
  have select : msrIa32Perfevtsel0 ≠ msrCorePerfGlobalOvfCtrl := by decide
  have apart : msrIa32Perfevtsel0 ≠ msrIa32Pmc0 := by decide
  simp only [programmed, wrmsr_globals]
  rw [wrmsr_comm apart select count, wrmsr_idem count, wrmsr_idem select]

theorem enabled_idem (view : CpuView) : view.enabled.enabled = view.enabled :=
  wrmsr_idem (by decide) 1 1 view

/-- After a miss, and the NMI of the overflow if it wraps the counter. -/
def missed (view : CpuView) : CpuView :=
  if view.msrs.wraps then handled { view with msrs := view.msrs.miss }
  else { view with msrs := view.msrs.miss }

end CpuView

/-! ## The programs, as views see them -/

section Programs

variable (context : Context) (cpu : Nat) (world : CoreWorld)

theorem rewrites_clearNmiTimes :
    Rewrites view CpuView.cleared {cpu} world
      ((access (.clearNmiTimes cpu)).run exec world).2 := by
  apply Rewrites.single
  · simp [access, Program.lift, view, exec, CoreWorld.setNmiTimes, CoreWorld.setNote,
      CpuView.cleared]
  · intro other apart
    simp [access, Program.lift, view, exec, CoreWorld.setNmiTimes, CoreWorld.setNote, apart]

theorem rewrites_wrmsr (addr : BitVec 32) (value : BitVec 64) :
    Rewrites view (CpuView.wrmsr addr value) {cpu} world
      (exec (.wrmsr context cpu addr value) world).2 := by
  apply Rewrites.single
  · simp [view, exec, CoreWorld.setMsrs, CoreWorld.setNote, CpuView.wrmsr]
  · intro other apart
    simp [view, exec, CoreWorld.setMsrs, CoreWorld.setNote, apart]

theorem rewrites_clearMsrs :
    Rewrites view CpuView.stopped {cpu} world
      ((corePmuClearMsrsOnCpu context cpu).run exec world).2 :=
  (((rewrites_wrmsr context cpu world msrIa32Pmc0 0).comp
    (rewrites_wrmsr context cpu _ msrIa32Perfevtsel0 0)).comp
    (rewrites_wrmsr context cpu _ msrCorePerfGlobalCtrl 0)).comp
    (rewrites_wrmsr context cpu _ msrCorePerfGlobalOvfCtrl 0)

theorem rewrites_enablePredefinedEvent :
    Rewrites view CpuView.programmed {cpu} world
      ((corePmuEnablePredefinedEventOnCpu context cpu).run exec world).2 := by
  have both := (rewrites_wrmsr context cpu world msrIa32Pmc0
    (initCount world.globals.preEventInitValue)).comp
    (rewrites_wrmsr context cpu _ msrIa32Perfevtsel0
      (eventSelect world.globals.preEventInfo.event))
  constructor
  · intro index here
    exact both.inside index here
  · intro index apart
    exact both.outside index apart

theorem rewrites_enableCounting :
    Rewrites view CpuView.enabled {cpu} world
      ((corePmuEnableCountingOnCpu context cpu).run exec world).2 :=
  rewrites_wrmsr context cpu world msrCorePerfGlobalCtrl 1

theorem rewrites_incNmiTimes :
    Rewrites view CpuView.counted {cpu} world (exec (.incNmiTimes cpu) world).2 := by
  apply Rewrites.single
  · simp [view, exec, CoreWorld.setNmiTimes, CpuView.counted]
  · intro other apart
    simp [view, exec, CoreWorld.setNmiTimes, apart]

/-- The restart of the handler, with its count. -/
theorem rewrites_restart :
    Rewrites view (fun view => view.stopped.programmed.enabled.counted) {cpu} world
      (exec (.incNmiTimes cpu) (ranAlone (corePmuEnableCountingOnCpu .nmi cpu)
        (ranAlone (corePmuEnablePredefinedEventOnCpu .nmi cpu)
          (ranAlone (corePmuClearMsrsOnCpu .nmi cpu) world)))).2 :=
  (((rewrites_clearMsrs .nmi cpu world).comp
    (rewrites_enablePredefinedEvent .nmi cpu _)).comp
    (rewrites_enableCounting .nmi cpu _)).comp (rewrites_incNmiTimes cpu _)

/-- An NMI that runs to its end. -/
theorem nmiWorld_eq :
    nmiWorld cpu world =
      (if (world.msrs cpu).overflowed then
        (exec (.incNmiTimes cpu) (ranAlone (corePmuEnableCountingOnCpu .nmi cpu)
          (ranAlone (corePmuEnablePredefinedEventOnCpu .nmi cpu)
            (ranAlone (corePmuClearMsrsOnCpu .nmi cpu) (world.setInNmi cpu true))))).2
      else world.setInNmi cpu true).setInNmi cpu false := by
  show (Program.run exec (Program.bind (if (world.msrs cpu).overflowed = true then _ else _) _)
    (world.setInNmi cpu true)).2 = _
  by_cases seen : (world.msrs cpu).overflowed = true
  · rw [if_pos seen, if_pos seen]
    rfl
  · rw [if_neg seen, if_neg seen]
    rfl

theorem rewrites_nmiWorld :
    Rewrites view CpuView.handled {cpu} world (nmiWorld cpu world) := by
  have restart := rewrites_restart cpu (world.setInNmi cpu true)
  rw [nmiWorld_eq]
  by_cases seen : (world.msrs cpu).overflowed = true
  · rw [if_pos seen]
    apply Rewrites.single
    · rw [CpuView.handled]
      exact (restart.inside cpu rfl).trans (if_pos seen).symm
    · exact restart.outside
  · rw [if_neg seen]
    apply Rewrites.single
    · exact (if_neg seen).symm
    · exact fun _ _ => rfl

end Programs

/-! ## On all processors -/

section Loops

variable {online : List Nat}

theorem rewrites_forEachOnlineCpu {rewrite : CpuView → CpuView}
    (idem : ∀ view : CpuView, rewrite (rewrite view) = rewrite view)
    {func : Nat → CoreProgram Unit}
    (each : ∀ cpu world, Rewrites view rewrite {cpu} world ((func cpu).run exec world).2)
    (world : CoreWorld) :
    Rewrites view rewrite { cpu | cpu ∈ online } world
      ((forEachOnlineCpu online func).run exec world).2 := by
  rw [← regionOf_singleton]
  exact rewrites_forEach idem (fun cpu _ world => each cpu world) world

/-- The world after `core_pmu_clear_counter` and `core_pmu_start_sampling`. -/
def sampled (online : List Nat) (world : CoreWorld) : CoreWorld :=
  ranAlone (corePmuStartSampling online) (ranAlone (corePmuClearCounter online) world)

/-- The world in which the event and the threshold are set. -/
def eventSetWorld (world : CoreWorld) : CoreWorld :=
  { world with
    globals := { world.globals with
      preEventInfo := ⟨.llcMisses, world.globals.preEventInitValue⟩ } }

theorem sampled_eq (world : CoreWorld) :
    sampled online world =
      ranAlone (corePmuEnableCounting online)
        (ranAlone (forEachOnlineCpu online (corePmuEnablePredefinedEventOnCpu .task))
          (eventSetWorld (ranAlone (corePmuClearMsrs online)
            (ranAlone (corePmuClearCounter online) world)))) := by
  rw [sampled, ranAlone, corePmuStartSampling]
  simp only [Program.bind_eq, Program.run_bind, corePmuEnablePredefinedEvent]
  rfl

theorem view_sampled (world : CoreWorld) {cpu : Nat} (mem : cpu ∈ online) :
    view cpu (sampled online world) =
      (view cpu world).cleared.stopped.eventSet.programmed.enabled := by
  have clearing : Rewrites view CpuView.cleared { cpu | cpu ∈ online } world
      (ranAlone (corePmuClearCounter online) world) :=
    rewrites_forEachOnlineCpu CpuView.cleared_idem rewrites_clearNmiTimes world
  have stopping : ∀ world, Rewrites view CpuView.stopped { cpu | cpu ∈ online } world
      (ranAlone (corePmuClearMsrs online) world) :=
    rewrites_forEachOnlineCpu CpuView.stopped_idem (rewrites_clearMsrs .task)
  have programming : ∀ world, Rewrites view CpuView.programmed { cpu | cpu ∈ online } world
      (ranAlone (forEachOnlineCpu online (corePmuEnablePredefinedEventOnCpu .task)) world) :=
    rewrites_forEachOnlineCpu CpuView.programmed_idem (rewrites_enablePredefinedEvent .task)
  have enabling : ∀ world, Rewrites view CpuView.enabled { cpu | cpu ∈ online } world
      (ranAlone (corePmuEnableCounting online) world) :=
    rewrites_forEachOnlineCpu CpuView.enabled_idem (rewrites_enableCounting .task)
  have event : ∀ world, view cpu (eventSetWorld world) = (view cpu world).eventSet :=
    fun _ => rfl
  rw [sampled_eq, (enabling _).inside cpu mem, (programming _).inside cpu mem, event,
    (stopping _).inside cpu mem, clearing.inside cpu mem]

end Loops

/-! ## Intervals -/

/-- A processor that samples every `interval` misses, after so many of them. -/
structure Sampling (interval misses : Nat) (view : CpuView) : Prop where
  count : view.msrs msrIa32Pmc0 = BitVec.ofNat 64 (2 ^ 48 - interval + misses % interval)
  select : view.msrs msrIa32Perfevtsel0 = eventSelect .llcMisses
  control : view.msrs msrCorePerfGlobalCtrl = 1
  times : view.nmiTimes = BitVec.ofNat 64 (misses / interval)
  value : view.globals.preEventInitValue = -BitVec.ofNat 64 interval
  event : view.globals.preEventInfo.event = .llcMisses

/-- What PMC0 takes of the negated interval. -/
theorem initCount_neg {interval : Nat} (positive : 1 ≤ interval) (bound : interval ≤ 2 ^ 47) :
    initCount (-BitVec.ofNat 64 interval) = BitVec.ofNat 64 (2 ^ 48 - interval) := by
  have mask : (0xffffffffffff : BitVec 64) = BitVec.ofNat 64 (2 ^ 48 - 1) := by decide
  have small : interval < 2 ^ 64 := by omega
  have ones : (2 ^ 48 - 1) % 2 ^ 64 = 2 ^ 48 - 1 := by decide
  apply BitVec.eq_of_toNat_eq
  rw [initCount, mask, BitVec.toNat_and, BitVec.toNat_neg, BitVec.toNat_ofNat, BitVec.toNat_ofNat,
    BitVec.toNat_ofNat, Nat.mod_eq_of_lt small, ones, Nat.and_two_pow_sub_one_eq_mod]
  omega

/-- Loading the counter again begins an interval. -/
theorem sampling_restarted {interval : Nat} (positive : 1 ≤ interval)
    (bound : interval ≤ 2 ^ 47) {view : CpuView}
    (value : view.globals.preEventInitValue = -BitVec.ofNat 64 interval)
    (event : view.globals.preEventInfo.event = .llcMisses) {misses : Nat}
    (fresh : misses % interval = 0)
    (times : view.nmiTimes = BitVec.ofNat 64 (misses / interval)) :
    Sampling interval misses view.programmed.enabled where
  count := by
    have loaded : view.programmed.enabled.msrs msrIa32Pmc0 =
        initCount view.globals.preEventInitValue := rfl
    rw [loaded, value, initCount_neg positive bound, fresh, Nat.add_zero]
  select := by
    have loaded : view.programmed.enabled.msrs msrIa32Perfevtsel0 =
        eventSelect view.globals.preEventInfo.event := rfl
    rw [loaded, event]
  control := rfl
  times := times
  value := value
  event := event

/-- The first, and each later interval. -/
theorem succ_div_mod {misses interval : Nat} (positive : 1 ≤ interval) :
    if misses % interval + 1 = interval then
      (misses + 1) % interval = 0 ∧ (misses + 1) / interval = misses / interval + 1
    else
      (misses + 1) % interval = misses % interval + 1 ∧
        (misses + 1) / interval = misses / interval := by
  have part := Nat.div_add_mod misses interval
  have below := Nat.mod_lt misses positive
  by_cases last : misses % interval + 1 = interval
  · rw [if_pos last]
    have whole : misses + 1 = interval * (misses / interval + 1) := by
      rw [Nat.mul_add, Nat.mul_one]
      omega
    rw [whole]
    exact ⟨Nat.mul_mod_right _ _, Nat.mul_div_cancel_left _ positive⟩
  · rw [if_neg last]
    have shorter : misses % interval + 1 < interval := by omega
    have whole : misses + 1 = interval * (misses / interval) + (misses % interval + 1) := by
      omega
    constructor
    · calc (misses + 1) % interval
          = (interval * (misses / interval) + (misses % interval + 1)) % interval :=
            congrArg (· % interval) whole
        _ = misses % interval + 1 := by
            rw [Nat.mul_add_mod, Nat.mod_eq_of_lt shorter]
    · calc (misses + 1) / interval
          = (interval * (misses / interval) + (misses % interval + 1)) / interval :=
            congrArg (· / interval) whole
        _ = misses / interval := by
            rw [Nat.mul_add_div positive, Nat.div_eq_of_lt shorter, Nat.add_zero]

namespace Sampling

variable {interval misses : Nat} {view : CpuView}

theorem counting (sampling : Sampling interval misses view) : view.msrs.counting = true := by
  rw [MsrFile.counting, sampling.control, sampling.select]
  decide

/-- The counter wraps at the last miss of an interval. -/
theorem wraps_iff (sampling : Sampling interval misses view) (positive : 1 ≤ interval)
    (bound : interval ≤ 2 ^ 47) :
    view.msrs.wraps = true ↔ misses % interval + 1 = interval := by
  have below := Nat.mod_lt misses positive
  have top : MsrFile.pmc0Max = BitVec.ofNat 64 (2 ^ 48 - 1) := by decide
  rw [MsrFile.wraps, sampling.counting, Bool.true_and, decide_eq_true_eq, sampling.count, top]
  constructor
  · intro same
    have values := congrArg BitVec.toNat same
    rw [BitVec.toNat_ofNat, BitVec.toNat_ofNat] at values
    omega
  · intro last
    congr 1
    omega

/-- One more miss. -/
theorem missed (sampling : Sampling interval misses view) (positive : 1 ≤ interval)
    (bound : interval ≤ 2 ^ 47) : Sampling interval (misses + 1) view.missed := by
  have next := @succ_div_mod misses interval positive
  by_cases last : misses % interval + 1 = interval
  · rw [if_pos last] at next
    have wraps := (sampling.wraps_iff positive bound).mpr last
    have handled : view.missed =
        ({ view with msrs := view.msrs.miss } : CpuView).stopped.counted.programmed.enabled := by
      rw [CpuView.missed, if_pos wraps, CpuView.handled, if_pos (overflowed_of_wraps wraps)]
      rfl
    have times : view.nmiTimes + 1 = BitVec.ofNat 64 ((misses + 1) / interval) := by
      rw [sampling.times, next.2]
      exact (BitVec.ofNat_add _ 1).symm
    rw [handled]
    exact @sampling_restarted interval positive bound
      ({ view with msrs := view.msrs.miss } : CpuView).stopped.counted sampling.value
      sampling.event (misses + 1) next.1 times
  · rw [if_neg last] at next
    have goesOn : ¬ view.msrs.wraps = true := fun wraps =>
      last ((sampling.wraps_iff positive bound).mp wraps)
    have notTop : view.msrs msrIa32Pmc0 ≠ MsrFile.pmc0Max := by
      intro top
      apply goesOn
      rw [MsrFile.wraps, sampling.counting, top]
      decide
    have counts : view.missed = { view with
        msrs := Function.update view.msrs msrIa32Pmc0 (view.msrs msrIa32Pmc0 + 1) } := by
      rw [CpuView.missed, if_neg goesOn, MsrFile.miss, if_pos sampling.counting, if_neg notTop]
    have kept : ∀ {addr : BitVec 32}, addr ≠ msrIa32Pmc0 →
        Function.update view.msrs msrIa32Pmc0 (view.msrs msrIa32Pmc0 + 1) addr =
          view.msrs addr :=
      fun apart => Function.update_of_ne apart _ _
    have select : msrIa32Perfevtsel0 ≠ msrIa32Pmc0 := by decide
    have control : msrCorePerfGlobalCtrl ≠ msrIa32Pmc0 := by decide
    rw [counts]
    refine ⟨?_, ?_, ?_, ?_, sampling.value, sampling.event⟩
    · show Function.update view.msrs msrIa32Pmc0 _ msrIa32Pmc0 = _
      rw [Function.update_self, sampling.count, next.1]
      exact (BitVec.ofNat_add _ 1).symm
    · exact (kept select).trans sampling.select
    · exact (kept control).trans sampling.control
    · rw [next.2]
      exact sampling.times

end Sampling

/-! ## Runs -/

/-- A miss of a processor; the NMI of an overflow comes at once. -/
def missAndNmi (world : CoreWorld) (cpu : Nat) : CoreWorld :=
  if (world.msrs cpu).wraps then nmiWorld cpu (world.setMsrs cpu (world.msrs cpu).miss)
  else world.setMsrs cpu (world.msrs cpu).miss

/-- A miss moves the view of its own processor. -/
theorem rewrites_missAndNmi (cpu : Nat) (world : CoreWorld) :
    Rewrites view CpuView.missed {cpu} world (missAndNmi world cpu) := by
  let after := world.setMsrs cpu (world.msrs cpu).miss
  have own : view cpu after = { view cpu world with msrs := (world.msrs cpu).miss } := by
    simp [after, view, CoreWorld.setMsrs]
  have others : ∀ {index : Nat}, index ≠ cpu → view index after = view index world := by
    intro index apart
    simp [after, view, CoreWorld.setMsrs, apart]
  have handler := rewrites_nmiWorld cpu after
  by_cases wraps : (world.msrs cpu).wraps = true
  · have overflows : (view cpu world).msrs.wraps = true := wraps
    rw [missAndNmi, if_pos wraps]
    apply Rewrites.single
    · rw [handler.inside cpu rfl, own, CpuView.missed, if_pos overflows]
      rfl
    · intro other apart
      rw [handler.outside other apart, others apart]
  · have goesOn : ¬ (view cpu world).msrs.wraps = true := wraps
    rw [missAndNmi, if_neg wraps]
    apply Rewrites.single
    · rw [CpuView.missed, if_neg goesOn]
      exact own
    · exact fun _ apart => others apart

/-- Each processor samples its own misses. -/
theorem sampling_foldl {interval : Nat} (positive : 1 ≤ interval) (bound : interval ≤ 2 ^ 47)
    {cpu : Nat} (misses : List Nat) :
    ∀ {world : CoreWorld} {earlier : Nat}, Sampling interval earlier (view cpu world) →
      Sampling interval (earlier + misses.count cpu)
        (view cpu (misses.foldl missAndNmi world)) := by
  induction misses with
  | nil => exact fun sampling => sampling
  | cons first rest ih =>
      intro world earlier sampling
      have step := rewrites_missAndNmi first world
      rw [List.foldl_cons]
      by_cases own : first = cpu
      · subst own
        have next : Sampling interval (earlier + 1) (view first (missAndNmi world first)) := by
          rw [step.inside first rfl]
          exact sampling.missed positive bound
        rw [List.count_cons_self, Nat.add_comm (rest.count first), ← Nat.add_assoc]
        exact ih next
      · have same : view cpu (missAndNmi world first) = view cpu world :=
          step.outside cpu (Ne.symm own)
        rw [List.count_cons_of_ne own]
        apply ih
        rw [same]
        exact sampling

/-- The start of the first interval. -/
theorem sampling_sampled {online : List Nat} {interval : Nat} (positive : 1 ≤ interval)
    (bound : interval ≤ 2 ^ 47) {world : CoreWorld}
    (value : world.globals.preEventInitValue = -BitVec.ofNat 64 interval) {cpu : Nat}
    (mem : cpu ∈ online) : Sampling interval 0 (view cpu (sampled online world)) := by
  have times : (view cpu world).cleared.stopped.eventSet.nmiTimes =
      BitVec.ofNat 64 (0 / interval) := by
    rw [Nat.zero_div]
    rfl
  rw [view_sampled world mem]
  exact sampling_restarted positive bound value rfl (Nat.zero_mod interval) times

/-! ## What PMC0 is loaded with -/

/-- PMC0 is loaded with 48 bits. -/
def Fits : CoreOp → Prop
  | .wrmsr _ _ addr value => addr = msrIa32Pmc0 → value.toNat < 2 ^ 48
  | _ => True

theorem fits_of_ne {context : Context} {cpu : Nat} {addr : BitVec 32} {value : BitVec 64}
    (apart : addr ≠ msrIa32Pmc0) : Fits (.wrmsr context cpu addr value) :=
  fun same => absurd same apart

theorem fits_initCount (context : Context) (cpu : Nat) (value : BitVec 64) :
    Fits (.wrmsr context cpu msrIa32Pmc0 (initCount value)) := by
  intro _
  have mask : (0xffffffffffff : BitVec 64).toNat = 2 ^ 48 - 1 := by decide
  rw [initCount, BitVec.toNat_and, mask, Nat.and_two_pow_sub_one_eq_mod]
  exact Nat.mod_lt _ (by decide)

section OnCpu

variable (context : Context) (cpu : Nat)

theorem clearMsrsOnCpu_fits : (corePmuClearMsrsOnCpu context cpu).Makes Fits :=
  makes_clearMsrsOnCpu (fun _ => by decide) (fits_of_ne (by decide)) (fits_of_ne (by decide))
    (fits_of_ne (by decide))

theorem enablePredefinedEventOnCpu_fits :
    (corePmuEnablePredefinedEventOnCpu context cpu).Makes Fits :=
  makes_enablePredefinedEventOnCpu trivial (fits_initCount context cpu)
    fun _ => fits_of_ne (by decide)

theorem enableCountingOnCpu_fits : (corePmuEnableCountingOnCpu context cpu).Makes Fits :=
  makes_enableCountingOnCpu (fits_of_ne (by decide))

end OnCpu

theorem corePmuClearCounter_fits (online : List Nat) :
    (corePmuClearCounter online).Makes Fits :=
  .forEach fun _ _ => ⟨trivial, fun _ => trivial⟩

theorem corePmuStartSampling_fits (online : List Nat) :
    (corePmuStartSampling online).Makes Fits :=
  makes_corePmuStartSampling online trivial (fun _ => trivial)
    (fun cpu _ => clearMsrsOnCpu_fits .task cpu)
    (fun cpu _ => enablePredefinedEventOnCpu_fits .task cpu)
    fun cpu _ => enableCountingOnCpu_fits .task cpu

theorem corePmuNmiHandler_fits (cpu : Nat) : (corePmuNmiHandler cpu).Makes Fits :=
  makes_nmiHandler trivial (clearMsrsOnCpu_fits .nmi cpu)
    (enablePredefinedEventOnCpu_fits .nmi cpu) (enableCountingOnCpu_fits .nmi cpu) trivial

/-- Each processor's count of NMIs is its count of misses, an interval at a time. -/
theorem percpuNmiTimes_div {interval : Nat} (positive : 1 ≤ interval)
    (bound : interval ≤ 2 ^ 47) {world : CoreWorld}
    (value : world.globals.preEventInitValue = -BitVec.ofNat 64 interval)
    (online misses : List Nat) :
    (∀ cpu ∈ online,
      let final := misses.foldl missAndNmi (sampled online world)
      final.percpuNmiTimes cpu = BitVec.ofNat 64 (misses.count cpu / interval) ∧
      final.msrs cpu msrIa32Pmc0 =
        BitVec.ofNat 64 (2 ^ 48 - interval + misses.count cpu % interval) ∧
      final.msrs cpu msrIa32Perfevtsel0 = eventSelect .llcMisses ∧
      final.msrs cpu msrCorePerfGlobalCtrl = 1 ∧
      (final.msrs cpu).counting = true) ∧
    (corePmuClearCounter online).Makes Fits ∧ (corePmuStartSampling online).Makes Fits ∧
    ∀ cpu, (runNmi cpu).Makes Fits := by
  refine ⟨?_, corePmuClearCounter_fits online, corePmuStartSampling_fits online, ?_⟩
  · intro cpu mem
    have start := sampling_sampled positive bound value mem
    have sampling := sampling_foldl positive bound misses start
    rw [Nat.zero_add] at sampling
    exact ⟨sampling.times, sampling.count, sampling.select, sampling.control,
      sampling.counting⟩
  · exact fun cpu => (corePmuNmiHandler_fits cpu).bind fun _ => ⟨trivial, fun _ => trivial⟩

/-- 33 misses at an interval of 32. -/
theorem percpuNmiTimes_div_once :
    let world : CoreWorld :=
      { samplingWorld with globals := { samplingWorld.globals with preEventInitValue := -32 } }
    let final := (List.replicate 33 0).foldl missAndNmi (sampled [0] world)
    final.percpuNmiTimes 0 = 1 ∧ final.msrs 0 msrIa32Pmc0 = BitVec.ofNat 64 (2 ^ 48 - 31) := by
  intro world final
  have counts := (@percpuNmiTimes_div 32 (by decide) (by decide) world rfl [0]
    (List.replicate 33 0)).1 0 List.mem_cons_self
  exact ⟨counts.1, counts.2.1⟩

end NvmEmulator.CorePmu
