/-
# Ticks

Runs of the emulator: `uncore_pmu_main`, and then ticks of its timer, with remote writes
between any two accesses. A tally records where they fall. Between two ticks the registers
hold what the tally's account says, for every run, so the account decides when the counts
that were converted and the count that is pending make up the remote writes.
-/

import NvmEmulator.Nehalem.Account
import NvmEmulator.Nehalem.Pmu

namespace NvmEmulator.Nehalem

open NvmEmulator.Semantics NvmEmulator.Uncore

/-! ## Runs -/

section Runs

variable (here : Node)

/-- What the tally of a node has of an access. It begins when counting is enabled. -/
def Tally.note : (op : NhmOp) → op.Res → Tally → Tally
  | .wrmsr .main node addr value, _, tally =>
      if node = here ∧ addr = nhmUncoreGlobalCtrl ∧ value.getLsbD 0 = true then {} else tally
  | .rdmsr .timer node addr, _, tally =>
      if node = here ∧ addr = nhmUncorePmc0 then tally.read else tally
  | .wrmsr .timer node addr _, _, tally =>
      if node = here ∧ addr = nhmUncorePmc0 then tally.clear else tally
  | _, _, tally => tally

/-- The machine with the tally of a node. -/
abbrev TallyWorld := NhmWorld × Tally

def tallyDevice : Device NhmOp NhmOp.Res TallyWorld := nhmDevice.observe (Tally.note here)

/-- A remote write, to the node or to the other one. -/
inductive Writes : TallyWorld → TallyWorld → Prop
  | here (world : NhmWorld) (tally : Tally) :
      Writes (world, tally) (world.remoteWrite here, tally.event)
  | elsewhere {node : Node} (apart : node ≠ here) (world : NhmWorld) (tally : Tally) :
      Writes (world, tally) (world.remoteWrite node, tally)

/-- The module is loaded on a processor of the node, and its timer ticks there. -/
inductive NhmRun (garbage : BitVec 64) : TallyWorld → Prop
  | start {world : NhmWorld} {after : TallyWorld} (fresh : world.delays = [])
      (main : Completes (tallyDevice here) (Writes here) (uncorePmuMain here garbage) (world, {})
        () after) : NhmRun garbage after
  | write {before after : TallyWorld} (run : NhmRun garbage before)
      (moves : Writes here before after) : NhmRun garbage after
  | tick {before after : TallyWorld} {result : HrtimerRestart} (run : NhmRun garbage before)
      (armed : before.1.armed = true)
      (callback : Completes (tallyDevice here) (Writes here) (uncorePmuHrtimerCb here)
        (before.1.setArmed false, before.2) result after) :
      NhmRun garbage (after.1.setArmed (decide (result = .restart)), after.2)

end Runs

/-- The sum of the counts that ticks have converted into delays. -/
def NhmWorld.converted (world : NhmWorld) : Nat :=
  (world.delays.map fun ns => ns.toNat / world.globals.writeLatencyDelta.toNat).sum

/-- The counts that were converted and the pending one make up the remote writes. -/
def Ledger (here : Node) (state : TallyWorld) : Prop :=
  state.1.converted + (state.1.msrs here nhmUncorePmc0).toNat = state.2.occurred

/-! ## The counter of the machine -/

/-- PMC0 is a counter of 48 bits. -/
structure Shows (frz : Bool) (counter : Counter) (regs : MsrFile) : Prop where
  count : (regs nhmUncorePmc0).toNat = counter.count
  counting : regs.counting = !counter.stopped
  freeze : (regs nhmUncoreGlobalCtrl).getLsbD 63 = frz
  bound : counter.count < 2 ^ 48

/-- Without the enable bit PMC0 does not count. -/
theorem remoteWrite_of_disabled {regs : MsrFile}
    (disabled : (regs nhmUncoreGlobalCtrl).getLsbD 0 = false) : regs.remoteWrite = regs := by
  have stopped : ¬ regs.counting = true := by
    rw [MsrFile.counting, disabled]
    exact Bool.false_ne_true
  exact if_neg stopped

/-- A wrap stops the counter just when it is to freeze. -/
theorem Shows.overflow {frz : Bool} {counter : Counter} {regs : MsrFile}
    (shows : Shows frz counter regs) (counts : regs.counting = true) :
    Shows frz ⟨0, frz⟩ regs.overflow := by
  have status : nhmUncorePmc0 ≠ nhmUncoreGlobalStatus := by decide
  have control : nhmUncoreGlobalCtrl ≠ nhmUncoreGlobalStatus := by decide
  have control' : nhmUncoreGlobalCtrl ≠ nhmUncorePmc0 := by decide
  have select : nhmUncorePerfevtsel0 ≠ nhmUncoreGlobalStatus := by decide
  have select' : nhmUncorePerfevtsel0 ≠ nhmUncorePmc0 := by decide
  have select'' : nhmUncorePerfevtsel0 ≠ nhmUncoreGlobalCtrl := by decide
  cases frz with
  | true =>
      have value : regs.overflow = Function.update (Function.update
          (Function.update regs nhmUncorePmc0 0) nhmUncoreGlobalStatus
            (regs nhmUncoreGlobalStatus ||| 1)) nhmUncoreGlobalCtrl
            (regs nhmUncoreGlobalCtrl &&& ~~~nhmUncorePmcMask) := by
        rw [MsrFile.overflow, if_pos shows.freeze]
      have bit : (~~~nhmUncorePmcMask).getLsbD 63 = true := by decide
      have zero : (~~~nhmUncorePmcMask).getLsbD 0 = false := by decide
      rw [value]
      refine ⟨?_, ?_, ?_, by decide⟩
      · rw [Function.update_of_ne control'.symm, Function.update_of_ne status,
          Function.update_self]
        rfl
      · rw [MsrFile.counting, Function.update_self, BitVec.getLsbD_and, zero, Bool.and_false]
        rfl
      · rw [Function.update_self, BitVec.getLsbD_and, bit, Bool.and_true, shows.freeze]
  | false =>
      have value : regs.overflow = Function.update (Function.update regs nhmUncorePmc0 0)
          nhmUncoreGlobalStatus (regs nhmUncoreGlobalStatus ||| 1) := by
        have goes : ¬ (regs nhmUncoreGlobalCtrl).getLsbD 63 = true := by
          rw [shows.freeze]
          exact Bool.false_ne_true
        rw [MsrFile.overflow, if_neg goes]
      rw [value]
      refine ⟨?_, ?_, ?_, by decide⟩
      · rw [Function.update_of_ne status, Function.update_self]
        rfl
      · rw [MsrFile.counting, Function.update_of_ne control, Function.update_of_ne control',
          Function.update_of_ne select, Function.update_of_ne select']
        exact counts
      · rw [Function.update_of_ne control, Function.update_of_ne control']
        exact shows.freeze

/-- A remote write is an event of the counter. -/
theorem Shows.remoteWrite {frz : Bool} {counter : Counter} {regs : MsrFile}
    (shows : Shows frz counter regs) : Shows frz (counter.event frz) regs.remoteWrite := by
  cases stopped : counter.stopped with
  | true =>
      have off : ¬ regs.counting = true := by
        rw [shows.counting, stopped]
        exact Bool.false_ne_true
      rw [Counter.event, if_pos stopped, MsrFile.remoteWrite, if_neg off]
      exact shows
  | false =>
      have on : regs.counting = true := by
        rw [shows.counting, stopped]
        rfl
      have goesOn : ¬ counter.stopped = true := by
        rw [stopped]
        exact Bool.false_ne_true
      have top : regs nhmUncorePmc0 = nhmUncorePmcValueMask ↔ counter.count + 1 = 2 ^ 48 := by
        have mask : nhmUncorePmcValueMask.toNat = 2 ^ 48 - 1 := by decide
        rw [← BitVec.toNat_inj, shows.count, mask]
        omega
      rw [Counter.event, if_neg goesOn, MsrFile.remoteWrite, if_pos on]
      by_cases wraps : counter.count + 1 = 2 ^ 48
      · rw [if_pos wraps, if_pos (top.mpr wraps)]
        exact shows.overflow on
      · have control : nhmUncoreGlobalCtrl ≠ nhmUncorePmc0 := by decide
        have select : nhmUncorePerfevtsel0 ≠ nhmUncorePmc0 := by decide
        have bound := shows.bound
        have below : counter.count + 1 < 2 ^ 48 := by omega
        rw [if_neg wraps, if_neg (fun full => wraps (top.mp full))]
        refine ⟨?_, ?_, ?_, below⟩
        · rw [Function.update_self, BitVec.toNat_add, shows.count]
          exact Nat.mod_eq_of_lt (by show counter.count + 1 < 2 ^ 64; omega)
        · rw [MsrFile.counting, Function.update_of_ne control, Function.update_of_ne select]
          exact on
        · rw [Function.update_of_ne control]
          exact shows.freeze

/-- A poll clears the counter. -/
theorem Shows.clear {frz : Bool} {counter : Counter} {regs : MsrFile}
    (shows : Shows frz counter regs) :
    Shows frz counter.clear (regs.wrmsr nhmUncorePmc0 0) := by
  have plain : ¬ nhmUncorePmc0 = nhmUncoreGlobalOvfCtrl := by decide
  have control : nhmUncoreGlobalCtrl ≠ nhmUncorePmc0 := by decide
  have select : nhmUncorePerfevtsel0 ≠ nhmUncorePmc0 := by decide
  rw [MsrFile.wrmsr, if_neg plain]
  refine ⟨?_, ?_, ?_, Nat.two_pow_pos 48⟩
  · rw [Function.update_self]
    rfl
  · rw [MsrFile.counting, Function.update_of_ne control, Function.update_of_ne select]
    exact shows.counting
  · rw [Function.update_of_ne control]
    exact shows.freeze

/-! ## The places of a tick -/

/-- Between two ticks, and in a tick before its read and after its clear. -/
structure Idle (here : Node) (frz : Bool) (state : TallyWorld) : Prop where
  shows : Shows frz (state.2.counter frz) (state.1.msrs here)
  converted : state.1.converted = (state.2.account frz).converted
  delta : state.1.globals.writeLatencyDelta = 150
  fresh : state.2.current.between = 0
  waiting : state.2.hasRead = false

/-- In a tick that has read the counter, and charged so much. -/
structure Reading (here : Node) (frz : Bool) (found charged : Nat) (state : TallyWorld) :
    Prop where
  shows : Shows frz (state.2.counter frz) (state.1.msrs here)
  converted : state.1.converted = (state.2.account frz).converted + charged
  delta : state.1.globals.writeLatencyDelta = 150
  found : (state.2.found frz).count = found
  reading : state.2.hasRead = true

section Places

variable {here : Node} {frz : Bool}

theorem msrs_remoteWrite_self (node : Node) (world : NhmWorld) :
    (world.remoteWrite node).msrs node = (world.msrs node).remoteWrite :=
  Function.update_self _ _ _

theorem msrs_remoteWrite_of_ne {node other : Node} (apart : node ≠ other) (world : NhmWorld) :
    (world.remoteWrite node).msrs other = world.msrs other :=
  Function.update_of_ne apart.symm _ _

/-- A remote write moves PMC0 and the tally's counter together. -/
theorem Shows.writes {before after : TallyWorld} (moves : Writes here before after)
    (fresh : before.2.hasRead = false → before.2.current.between = 0)
    (shows : Shows frz (before.2.counter frz) (before.1.msrs here)) :
    Shows frz (after.2.counter frz) (after.1.msrs here) := by
  cases moves with
  | here world tally =>
      dsimp only at fresh shows ⊢
      rw [msrs_remoteWrite_self, Tally.counter_event frz fresh]
      exact shows.remoteWrite
  | elsewhere apart world tally =>
      dsimp only at shows ⊢
      rw [msrs_remoteWrite_of_ne apart]
      exact shows

theorem idle_stable : Stable (Writes here) (Idle here frz) := by
  intro before after moves idle
  have shows := idle.shows.writes moves fun _ => idle.fresh
  cases moves with
  | here world tally =>
      have event : tally.event =
          { tally with current := { tally.current with before := tally.current.before + 1 } } := by
        have waiting : ¬ tally.hasRead = true := by
          rw [idle.waiting]
          exact Bool.false_ne_true
        exact if_neg waiting
      rw [event] at shows ⊢
      exact ⟨shows, idle.converted, idle.delta, idle.fresh, idle.waiting⟩
  | elsewhere apart world tally =>
      exact ⟨shows, idle.converted, idle.delta, idle.fresh, idle.waiting⟩

theorem reading_stable {found charged : Nat} :
    Stable (Writes here) (Reading here frz found charged) := by
  intro before after moves reading
  have never : before.2.hasRead = false → before.2.current.between = 0 := by
    intro waiting
    exact absurd (reading.reading.symm.trans waiting) (by decide)
  have shows := reading.shows.writes moves never
  cases moves with
  | here world tally =>
      have event : tally.event =
          { tally with current :=
            { tally.current with between := tally.current.between + 1 } } :=
        if_pos reading.reading
      rw [event] at shows ⊢
      exact ⟨shows, reading.converted, reading.delta, reading.found, reading.reading⟩
  | elsewhere apart world tally =>
      exact ⟨shows, reading.converted, reading.delta, reading.found, reading.reading⟩

/-- The read of a tick. -/
theorem Idle.read {state : TallyWorld} (idle : Idle here frz state) :
    Reading here frz (state.1.msrs here nhmUncorePmc0).toNat 0
      ((tallyDevice here).exec (.rdmsr .timer here nhmUncorePmc0) state).2 := by
  have tally : Tally.note here (.rdmsr .timer here nhmUncorePmc0)
      (state.1.msrs here nhmUncorePmc0) state.2 = state.2.read := if_pos ⟨rfl, rfl⟩
  have same : state.2.counter frz = state.2.found frz := by
    rw [Tally.counter, idle.fresh]
    rfl
  have step : ((tallyDevice here).exec (.rdmsr .timer here nhmUncorePmc0) state).2 =
      (state.1, state.2.read) := Prod.ext rfl tally
  rw [step]
  refine ⟨idle.shows, idle.converted, idle.delta, ?_, rfl⟩
  rw [idle.shows.count, same]
  rfl

/-- A count of 48 bits can be recovered from its delay. -/
theorem writesToDelay_div {count : BitVec 64} (bound : count.toNat < 2 ^ 48) :
    (writesToDelay 150 count).toNat / 150 = count.toNat := by
  have delta : (150 : BitVec 64).toNat = 150 := rfl
  have room : count.toNat * 150 < 2 ^ 64 := by omega
  rw [writesToDelay, BitVec.toNat_mul, delta, Nat.mod_eq_of_lt room,
    Nat.mul_div_cancel _ (by decide)]

/-- The delay of a tick. -/
theorem Reading.charge {count factor : BitVec 64} (bound : count.toNat < 2 ^ 48)
    (same : factor = 150) (cpu : Nat) {state : TallyWorld}
    (reading : Reading here frz count.toNat 0 state) :
    Reading here frz count.toNat count.toNat
      ((tallyDevice here).exec (.delayCpu cpu (writesToDelay factor count)) state).2 := by
  subst same
  refine ⟨reading.shows, ?_, reading.delta, reading.found, reading.reading⟩
  have was := reading.converted
  have delta : state.1.globals.writeLatencyDelta.toNat = 150 := by
    rw [reading.delta]
    rfl
  rw [NhmWorld.converted, delta, Nat.add_zero] at was
  show ((state.1.delays ++ [writesToDelay 150 count]).map fun ns =>
    ns.toNat / state.1.globals.writeLatencyDelta.toNat).sum = _
  rw [delta, List.map_append, List.sum_append, was]
  simp only [List.map_cons, List.map_nil, List.sum_cons, List.sum_nil, Nat.add_zero,
    writesToDelay_div bound]
  rfl

/-- The clear of a tick. -/
theorem Reading.clear {found : Nat} {state : TallyWorld}
    (reading : Reading here frz found found state) :
    Idle here frz ((tallyDevice here).exec (.wrmsr .timer here nhmUncorePmc0 0) state).2 := by
  have tally : Tally.note here (.wrmsr .timer here nhmUncorePmc0 0) () state.2 =
      state.2.clear := if_pos ⟨rfl, rfl⟩
  have step : ((tallyDevice here).exec (.wrmsr .timer here nhmUncorePmc0 0) state).2 =
      ((exec (.wrmsr .timer here nhmUncorePmc0 0) state.1).2, state.2.clear) :=
    Prod.ext rfl tally
  have account := Tally.account_clear frz state.2
  have counter : state.2.clear.counter frz = (state.2.counter frz).clear := by
    show (state.2.clear.account frz).counter = _
    rw [account]
  rw [step]
  refine ⟨?_, ?_, reading.delta, rfl, rfl⟩
  · show Shows frz (state.2.clear.counter frz) (Function.update state.1.msrs here _ here)
    rw [Function.update_self, counter]
    exact reading.shows.clear
  · show state.1.converted = (state.2.clear.account frz).converted
    rw [account, reading.converted, reading.found]

/-- A tick, whatever is written meanwhile. -/
theorem uncorePmuHrtimerCb_guarded {state : TallyWorld} (idle : Idle here frz state) :
    Guarded (tallyDevice here) (Writes here) (fun _ _ => True) (fun _ => Idle here frz)
      (uncorePmuHrtimerCb here) state := by
  refine Guarded.access _ idle_stable idle fun later idle _ => ⟨trivial, ?_⟩
  have counts : Idle here frz ((tallyDevice here).exec (.assign fun state =>
      { state with delayJiffies := state.delayJiffies + 1 }) later).2 :=
    ⟨idle.shows, idle.converted, idle.delta, idle.fresh, idle.waiting⟩
  refine Guarded.access _ idle_stable counts fun later idle _ => ⟨trivial, ?_⟩
  have bound : (later.1.msrs here nhmUncorePmc0).toNat < 2 ^ 48 := by
    rw [idle.shows.count]
    exact idle.shows.bound
  generalize found : later.1.msrs here nhmUncorePmc0 = count at bound
  have reads := idle.read
  rw [found] at reads
  have answer : ((tallyDevice here).exec (.rdmsr .timer here nhmUncorePmc0) later).1 = count :=
    found
  rw [answer]
  refine Guarded.access _ reading_stable reads fun later reading _ => ⟨trivial, ?_⟩
  have factor := reading.delta
  refine Guarded.access _ reading_stable reading fun later reading _ => ⟨trivial, ?_⟩
  have charged := reading.charge bound factor
  refine Guarded.access _ reading_stable (charged _) fun later reading _ => ⟨trivial, ?_⟩
  refine Guarded.access _ idle_stable reading.clear fun later idle _ => ⟨trivial, ?_⟩
  refine Guarded.access _ idle_stable idle fun later idle _ => ⟨trivial, ?_⟩
  exact .ret idle_stable idle

end Places

/-! ## Loading -/

section Loading

variable {here : Node}

/-- The settings of `uncore_pmu_main` are made, and no tick has been. -/
structure Loading (state : TallyWorld) : Prop where
  initval : state.1.globals.initval = -100
  freeze : state.1.globals.freeze = false
  pmc : state.1.globals.pmc = 0
  delta : state.1.globals.writeLatencyDelta = 150
  delays : state.1.delays = []

/-- The counters of the node are disabled. -/
def Disabled (here : Node) (state : TallyWorld) : Prop :=
  (state.1.msrs here nhmUncoreGlobalCtrl).getLsbD 0 = false

theorem loading_stable : Stable (Writes here) Loading := by
  intro before after moves loading
  cases moves with
  | here world tally =>
      exact ⟨loading.initval, loading.freeze, loading.pmc, loading.delta, loading.delays⟩
  | elsewhere apart world tally =>
      exact ⟨loading.initval, loading.freeze, loading.pmc, loading.delta, loading.delays⟩

/-- What is in the registers of a disabled node stays there. -/
theorem disabled_stable {regs : MsrFile}
    (disabled : (regs nhmUncoreGlobalCtrl).getLsbD 0 = false) :
    Stable (Writes here) fun state => state.1.msrs here = regs := by
  intro before after moves holds
  cases moves with
  | here world tally =>
      dsimp only at holds ⊢
      rw [msrs_remoteWrite_self, holds, remoteWrite_of_disabled disabled]
  | elsewhere apart world tally =>
      dsimp only at holds ⊢
      rw [msrs_remoteWrite_of_ne apart, holds]

/-- A disabled node stays disabled. -/
theorem stable_disabled : Stable (Writes here) (Disabled here) := by
  intro before after moves disabled
  have same := disabled_stable disabled moves rfl
  rw [Disabled, same]
  exact disabled

/-- A write of the loading that leaves the global control of the node alone. -/
def LeavesControl (here : Node) (op : NhmOp) : Prop :=
  ∃ node addr value, op = .wrmsr .main node addr value ∧
    (node = here → addr ≠ nhmUncoreGlobalCtrl)

theorem loading_wrmsr {node : Node} {addr : BitVec 32} {value : BitVec 64} {state : TallyWorld}
    (loading : Loading state) :
    Loading ((tallyDevice here).exec (.wrmsr .main node addr value) state).2 :=
  ⟨loading.initval, loading.freeze, loading.pmc, loading.delta, loading.delays⟩

/-- The registers of the node after a write there. -/
theorem msrs_wrmsr_self (context : Context) (addr : BitVec 32) (value : BitVec 64)
    (state : TallyWorld) :
    ((tallyDevice here).exec (.wrmsr context here addr value) state).2.1.msrs here =
      (state.1.msrs here).wrmsr addr value :=
  Function.update_self _ _ _

/-- Writes of other registers leave the global control alone. -/
theorem ctrl_wrmsr {addr : BitVec 32} (apart : addr ≠ nhmUncoreGlobalCtrl) (value : BitVec 64)
    (regs : MsrFile) : (regs.wrmsr addr value) nhmUncoreGlobalCtrl = regs nhmUncoreGlobalCtrl := by
  have status : nhmUncoreGlobalCtrl ≠ nhmUncoreGlobalStatus := by decide
  rw [MsrFile.wrmsr]
  split
  · exact Function.update_of_ne status _ _
  · exact Function.update_of_ne apart.symm _ _

theorem disabled_wrmsr {node : Node} {addr : BitVec 32}
    (apart : node = here → addr ≠ nhmUncoreGlobalCtrl) (value : BitVec 64) {state : TallyWorld}
    (disabled : Disabled here state) :
    Disabled here ((tallyDevice here).exec (.wrmsr .main node addr value) state).2 := by
  by_cases own : node = here
  · subst own
    rw [Disabled, msrs_wrmsr_self, ctrl_wrmsr (apart rfl)]
    exact disabled
  · show (Function.update state.1.msrs node _ here nhmUncoreGlobalCtrl).getLsbD 0 = false
    rw [Function.update_of_ne (Ne.symm own)]
    exact disabled

/-- `nhm_uncore_clear_msrs` after its first access. -/
def clearPairs (node : Node) : NhmProgram Unit :=
  (nhmUncoreClearStatus node).bind fun _ => forEachPmcPair fun pmc sel =>
    (uncoreWrmsr .main node pmc 0).bind fun _ => uncoreWrmsr .main node sel 0

theorem clearPairs_leaves (node : Node) : (clearPairs node).Makes (LeavesControl here) := by
  have apart : ∀ id ∈ List.range 8, nhmUncorePmc0 + BitVec.ofNat 32 id ≠ nhmUncoreGlobalCtrl ∧
      nhmUncorePerfevtsel0 + BitVec.ofNat 32 id ≠ nhmUncoreGlobalCtrl := by decide
  have status : nhmUncoreGlobalOvfCtrl ≠ nhmUncoreGlobalCtrl := by decide
  refine ⟨⟨_, _, _, rfl, fun _ => status⟩, fun _ => Program.Makes.forEach fun id mem => ?_⟩
  exact ⟨⟨_, _, _, rfl, fun _ => (apart id mem).1⟩, fun _ =>
    ⟨⟨_, _, _, rfl, fun _ => (apart id mem).2⟩, fun _ => trivial⟩⟩

theorem nhmUncoreClearMsrs_leaves {node : Node} (other : node ≠ here) :
    (nhmUncoreClearMsrs node).Makes (LeavesControl here) :=
  ⟨⟨_, _, _, rfl, fun own => absurd own other⟩, fun _ => clearPairs_leaves node⟩

/-- Clearing leaves the settings, and a disabled node disabled. -/
theorem leaves_guarded {program : NhmProgram Unit} (leaves : program.Makes (LeavesControl here))
    {state : TallyWorld} (loading : Loading state) (disabled : Disabled here state) :
    Guarded (tallyDevice here) (Writes here) (fun _ _ => True)
      (fun _ state => Loading state ∧ Disabled here state) program state := by
  refine Guarded.of_makes leaves (loading_stable.and stable_disabled) ?_ ⟨loading, disabled⟩
  intro op allowed state held _
  rcases allowed with ⟨node, addr, value, rfl, apart⟩
  exact ⟨trivial, loading_wrmsr held.1, disabled_wrmsr apart value held.2⟩

/-- Clearing disables the node. -/
theorem nhmUncoreClearMsrs_guarded {state : TallyWorld} (loading : Loading state) :
    Guarded (tallyDevice here) (Writes here) (fun _ _ => True)
      (fun _ state => Loading state ∧ Disabled here state) (nhmUncoreClearMsrs here) state := by
  refine Guarded.access _ loading_stable loading fun later held _ => ⟨trivial, ?_⟩
  have control : ¬ nhmUncoreGlobalCtrl = nhmUncoreGlobalOvfCtrl := by decide
  have disabled : Disabled here ((tallyDevice here).exec
      (.wrmsr .main here nhmUncoreGlobalCtrl 0) later).2 := by
    rw [Disabled, msrs_wrmsr_self, MsrFile.wrmsr, if_neg control, Function.update_self]
    rfl
  exact leaves_guarded (clearPairs_leaves here) (loading_wrmsr held) disabled

/-- `nhm_uncore_clear_all` disables the node, whichever it is. -/
theorem nhmUncoreClearAll_guarded {state : TallyWorld} (loading : Loading state) :
    Guarded (tallyDevice here) (Writes here) (fun _ _ => True)
      (fun _ state => Loading state ∧ Disabled here state) nhmUncoreClearAll state := by
  cases here with
  | zero =>
      apply (nhmUncoreClearMsrs_guarded loading).bind
      intro _ later held
      exact leaves_guarded (nhmUncoreClearMsrs_leaves (by decide)) held.1 held.2
  | one =>
      have clears : Guarded (tallyDevice .one) (Writes .one) (fun _ _ => True)
          (fun _ => Loading) (nhmUncoreClearMsrs .zero) state := by
        have leaves : (nhmUncoreClearMsrs .zero).Makes (LeavesControl .one) :=
          nhmUncoreClearMsrs_leaves (by decide)
        refine Guarded.of_makes leaves loading_stable ?_ loading
        intro op allowed state held _
        rcases allowed with ⟨node, addr, value, rfl, apart⟩
        exact ⟨trivial, loading_wrmsr held⟩
      apply clears.bind
      intro _ later held
      exact nhmUncoreClearMsrs_guarded held

/-- The select register of PMC0 after `nhm_uncore_set_event`. -/
def remoteWritesSelect : BitVec 64 :=
  nhmUncoreEventMap .qhlRequestRemoteWrites ||| nhmPerevtselCountEnable |||
    nhmPerevtselPmiEnable

theorem enableMask_enables (garbage : BitVec 64) :
    (enableMask garbage false).getLsbD 0 = true := by
  have bit : nhmUncorePmcMask.getLsbD 0 = true := by decide
  rw [enableMask, BitVec.getLsbD_or, BitVec.getLsbD_or, bit, Bool.or_true, Bool.true_or]

/-- The counter when counting is enabled. -/
theorem shows_enabled (garbage : BitVec 64) (regs : MsrFile) :
    Shows (garbage.getLsbD 63) Account.start.counter
      (((regs.wrmsr nhmUncorePmc0 (-100 &&& nhmUncorePmcValueMask)).wrmsr nhmUncorePerfevtsel0
        remoteWritesSelect).wrmsr nhmUncoreGlobalCtrl (enableMask garbage false)) := by
  have plain : ¬ nhmUncorePmc0 = nhmUncoreGlobalOvfCtrl := by decide
  have plain' : ¬ nhmUncorePerfevtsel0 = nhmUncoreGlobalOvfCtrl := by decide
  have plain'' : ¬ nhmUncoreGlobalCtrl = nhmUncoreGlobalOvfCtrl := by decide
  have control : nhmUncorePmc0 ≠ nhmUncoreGlobalCtrl := by decide
  have select : nhmUncorePmc0 ≠ nhmUncorePerfevtsel0 := by decide
  have select' : nhmUncorePerfevtsel0 ≠ nhmUncoreGlobalCtrl := by decide
  have enabled := enableMask_enables garbage
  have frozen : (enableMask garbage false).getLsbD 63 = garbage.getLsbD 63 := by
    have bit : nhmUncorePmcMask.getLsbD 63 = false := by decide
    have bit' : nhmUncoreGlobalCtrlEnPmi.getLsbD 63 = false := by decide
    rw [enableMask, BitVec.getLsbD_or, BitVec.getLsbD_or, bit, bit', Bool.or_false, Bool.or_false]
    rfl
  have counts : remoteWritesSelect.getLsbD 22 = true := by decide
  have event : remoteWritesSelect &&& 0xffff = nhmUncoreEventMap .qhlRequestRemoteWrites := by
    decide
  rw [MsrFile.wrmsr, if_neg plain'', MsrFile.wrmsr, if_neg plain', MsrFile.wrmsr, if_neg plain]
  refine ⟨?_, ?_, ?_, by decide⟩
  · rw [Function.update_of_ne control, Function.update_of_ne select, Function.update_self]
    decide
  · rw [MsrFile.counting, Function.update_self, Function.update_of_ne select',
      Function.update_self, enabled, counts, decide_eq_true event]
    rfl
  · rw [Function.update_self, frozen]

/-- A read of the loading is not one of a tick. -/
theorem nhmUncoreShowAll_guarded {frz : Bool} {state : TallyWorld}
    (idle : Idle here frz state) :
    Guarded (tallyDevice here) (Writes here) (fun _ _ => True) (fun _ => Idle here frz)
      nhmUncoreShowAll state := by
  have shows : ∀ node, (nhmUncoreShowMsrs node).Makes fun op =>
      ∃ other addr, op = .rdmsr .main other addr := by
    intro node
    refine ⟨⟨_, _, rfl⟩, fun _ => ⟨⟨_, _, rfl⟩, fun _ => Program.Makes.forEach fun id _ => ?_⟩⟩
    exact ⟨⟨_, _, rfl⟩, fun _ => ⟨⟨_, _, rfl⟩, fun _ => trivial⟩⟩
  refine Guarded.of_makes ((shows .zero).bind fun _ => shows .one) idle_stable ?_ idle
  intro op allowed state idle _
  rcases allowed with ⟨other, addr, rfl⟩
  exact ⟨trivial, idle⟩

/-- Counting is enabled: the tally begins. -/
theorem idle_enabled (garbage : BitVec 64) {frz : Bool} (freeze : frz = false)
    {regs : MsrFile} {state : TallyWorld} (loading : Loading state)
    (loaded : state.1.msrs here =
      (regs.wrmsr nhmUncorePmc0 (-100 &&& nhmUncorePmcValueMask)).wrmsr nhmUncorePerfevtsel0
        remoteWritesSelect) :
    Idle here (garbage.getLsbD 63) ((tallyDevice here).exec
      (.wrmsr .main here nhmUncoreGlobalCtrl (enableMask garbage frz)) state).2 := by
  subst freeze
  have enabled := enableMask_enables garbage
  have tally : Tally.note here
      (.wrmsr .main here nhmUncoreGlobalCtrl (enableMask garbage false)) () state.2 = {} :=
    if_pos ⟨rfl, rfl, enabled⟩
  have step : ((tallyDevice here).exec
      (.wrmsr .main here nhmUncoreGlobalCtrl (enableMask garbage false)) state).2 =
        ((exec (.wrmsr .main here nhmUncoreGlobalCtrl (enableMask garbage false)) state.1).2,
          {}) := Prod.ext rfl tally
  rw [step]
  refine ⟨?_, ?_, loading.delta, rfl, rfl⟩
  · show Shows _ _ (Function.update state.1.msrs here _ here)
    rw [Function.update_self, loaded]
    exact shows_enabled garbage regs
  · show (state.1.delays.map _).sum = 0
    rw [loading.delays]
    rfl

/-- `uncore_pmu_main` once the node is disabled: from here nothing moves its registers until
counting is enabled. -/
theorem enable_guarded (garbage : BitVec 64) {pmcid : Nat} {pmcval : BitVec 64}
    (pmc : pmcid = 0) (initval : pmcval = -100) {state : TallyWorld} (loading : Loading state)
    (disabled : Disabled here state) :
    Guarded (tallyDevice here) (Writes here) (fun _ _ => True)
      (fun _ => Idle here (garbage.getLsbD 63))
      ((nhmUncoreSetEvent here pmcid .qhlRequestRemoteWrites pmcval).bind fun _ =>
        (access .globals).bind fun (globals : NhmGlobals) =>
        (nhmUncoreEnableCounting here garbage globals.freeze).bind fun _ =>
        nhmUncoreShowAll.bind fun _ => uncorePmuHrtimerStart 1) state := by
  subst pmc
  subst initval
  have counter : nhmUncorePmc0 ≠ nhmUncoreGlobalCtrl := by decide
  have select : nhmUncorePerfevtsel0 ≠ nhmUncoreGlobalCtrl := by decide
  let empty := state.1.msrs here
  let loaded := empty.wrmsr nhmUncorePmc0 (-100 &&& nhmUncorePmcValueMask)
  let selected := loaded.wrmsr nhmUncorePerfevtsel0 remoteWritesSelect
  have off : (loaded nhmUncoreGlobalCtrl).getLsbD 0 = false :=
    (congrArg (BitVec.getLsbD · 0) (ctrl_wrmsr counter _ empty)).trans disabled
  have off' : (selected nhmUncoreGlobalCtrl).getLsbD 0 = false :=
    (congrArg (BitVec.getLsbD · 0) (ctrl_wrmsr select _ loaded)).trans off
  have start : Loading state ∧ state.1.msrs here = empty := ⟨loading, rfl⟩
  refine Guarded.access _ (loading_stable.and (disabled_stable disabled)) start
    fun later held _ => ⟨trivial, ?_⟩
  have counts : ((tallyDevice here).exec (.wrmsr .main here nhmUncorePmc0
      (-100 &&& nhmUncorePmcValueMask)) later).2.1.msrs here = loaded := by
    rw [msrs_wrmsr_self, held.2]
  refine Guarded.access _ (loading_stable.and (disabled_stable off))
    ⟨loading_wrmsr held.1, counts⟩ fun later held _ => ⟨trivial, ?_⟩
  have selects : ((tallyDevice here).exec (.wrmsr .main here nhmUncorePerfevtsel0
      remoteWritesSelect) later).2.1.msrs here = selected := by
    rw [msrs_wrmsr_self, held.2]
  refine Guarded.access _ (loading_stable.and (disabled_stable off'))
    ⟨loading_wrmsr held.1, selects⟩ fun later held _ => ⟨trivial, ?_⟩
  have freeze := held.1.freeze
  refine Guarded.access _ (loading_stable.and (disabled_stable off')) held
    fun later held _ => ⟨trivial, ?_⟩
  have begins := idle_enabled garbage freeze held.1 held.2
  show Guarded _ _ _ _ (nhmUncoreShowAll.bind _) _
  apply (nhmUncoreShowAll_guarded begins).bind
  intro _ later idle
  refine Guarded.access _ idle_stable idle fun later idle _ => ⟨trivial, ?_⟩
  show Guarded _ _ _ _ (if later.1.globals.timerInited = true then _ else _) _
  split
  · refine Guarded.access _ idle_stable idle fun later idle _ => ⟨trivial, ?_⟩
    exact .ret idle_stable ⟨idle.shows, idle.converted, idle.delta, idle.fresh, idle.waiting⟩
  · exact .ret idle_stable idle

/-- Loading, whatever is written meanwhile. -/
theorem uncorePmuMain_guarded (garbage : BitVec 64) {world : NhmWorld}
    (fresh : world.delays = []) :
    Guarded (tallyDevice here) (Writes here) (fun _ _ => True)
      (fun _ => Idle here (garbage.getLsbD 63)) (uncorePmuMain here garbage) (world, {}) := by
  have noDelays : Stable (Writes here) fun state => state.1.delays = [] := by
    intro before after moves holds
    cases moves with
    | here world tally => exact holds
    | elsewhere apart world tally => exact holds
  refine Guarded.access _ noDelays fresh fun later fresh _ => ⟨trivial, ?_⟩
  have settled : Loading ((tallyDevice here).exec (.assign settings) later).2 :=
    ⟨rfl, rfl, rfl, rfl, fresh⟩
  refine Guarded.access _ loading_stable settled fun later loading _ => ⟨trivial, ?_⟩
  have unarmed : Loading ((tallyDevice here).exec .hrtimerInit later).2 :=
    ⟨loading.initval, loading.freeze, loading.pmc, loading.delta, loading.delays⟩
  refine Guarded.access _ loading_stable unarmed fun later loading _ => ⟨trivial, ?_⟩
  have inited : Loading ((tallyDevice here).exec
      (.assign fun state => { state with timerInited := true }) later).2 :=
    ⟨loading.initval, loading.freeze, loading.pmc, loading.delta, loading.delays⟩
  apply (nhmUncoreClearAll_guarded inited).bind
  intro _ later cleared
  refine Guarded.access _ (loading_stable.and stable_disabled) cleared
    fun later cleared _ => ⟨trivial, ?_⟩
  have pmc := cleared.1.pmc
  have initval := cleared.1.initval
  exact enable_guarded garbage pmc initval cleared.1 cleared.2

end Loading

/-! ## The ledger -/

/-- Between two ticks of any run, the registers hold what the tally's account says. -/
theorem NhmRun.idle {here : Node} {garbage : BitVec 64} {state : TallyWorld}
    (run : NhmRun here garbage state) : Idle here (garbage.getLsbD 63) state := by
  have all : ∀ before after, Writes here before after → Writes here before after :=
    fun _ _ moves => moves
  induction run with
  | start fresh main =>
      have guarded := @uncorePmuMain_guarded here garbage _ fresh
      have ends := guarded.completes all main
      exact ends
  | write run moves idle => exact idle_stable moves idle
  | @tick before after result run armed callback idle =>
      have disarmed : Idle here (garbage.getLsbD 63) (before.1.setArmed false, before.2) :=
        ⟨idle.shows, idle.converted, idle.delta, idle.fresh, idle.waiting⟩
      have guarded := uncorePmuHrtimerCb_guarded disarmed
      have ends := guarded.completes all callback
      exact ⟨ends.shows, ends.converted, ends.delta, ends.fresh, ends.waiting⟩

/-! ### Examples of runs -/

/-- No access of the emulator waits. -/
theorem tallyDevice_ready (here : Node) {α : Type} (program : NhmProgram α) :
    program.Makes fun op => ∀ state, (tallyDevice here).ready op state :=
  .of_forall (fun _ _ => trivial) program

/-- The module is loaded and no remote write comes. -/
def loadedState : TallyWorld :=
  ((uncorePmuMain .zero 0).run (tallyDevice .zero).exec ({ msrs := fun _ _ => 0 }, {})).2

theorem loadedState_run : NhmRun .zero 0 loadedState := by
  have world : NhmWorld := { msrs := fun _ _ => 0 }
  exact .start rfl (reaches_run (tallyDevice_ready .zero _) _)

/-- Remote writes that come one after the other while a tick is between its accesses. -/
theorem writes_reading (here : Node) (number : Nat) (world : NhmWorld) {tally : Tally}
    (reading : tally.hasRead = true) :
    ∃ after, Relation.ReflTransGen (Writes here) (world, tally) (after, { tally with
      current := { tally.current with between := tally.current.between + number } }) := by
  induction number with
  | zero => exact ⟨world, .refl⟩
  | succ number ih =>
      obtain ⟨after, moves⟩ := ih
      have last := @Writes.here here after { tally with
        current := { tally.current with between := tally.current.between + number } }
      rw [Tally.event, if_pos reading] at last
      exact ⟨after.remoteWrite here, moves.tail last⟩

/-- A tick that clears the counter after so many writes since its read. -/
theorem tick_writes (number : Nat) {state : TallyWorld} (run : NhmRun .zero 0 state)
    (armed : state.1.armed = true) :
    ∃ after, NhmRun .zero 0 after ∧
      after.2.ticks = state.2.ticks ++
        [{ state.2.current with between := state.2.current.between + number }] ∧
      after.2.current = {} := by
  let begun : TallyWorld := (state.1.setArmed false, state.2)
  let halfway := (uncorePmuHrtimerCb .zero).advance (tallyDevice .zero).exec 2 begun
  have reads : Reaches (tallyDevice .zero) (Writes .zero) (uncorePmuHrtimerCb .zero, begun)
      halfway := reaches_advance (tallyDevice_ready .zero _) 2 begun
  have reading : halfway.2.2.hasRead = true := rfl
  obtain ⟨world, moves⟩ := writes_reading .zero number halfway.2.1 reading
  have callback := Relation.ReflTransGen.trans reads
    (Completes.of_env moves (reaches_run (tallyDevice_ready .zero halfway.1) _))
  exact ⟨_, .tick run armed callback, rfl, rfl⟩

/-- One remote write, and a tick. -/
def tickedState : TallyWorld :=
  let begun : TallyWorld :=
    ((loadedState.1.remoteWrite .zero).setArmed false, loadedState.2.event)
  let ended := (uncorePmuHrtimerCb .zero).run (tallyDevice .zero).exec begun
  (ended.2.1.setArmed (decide (ended.1 = .restart)), ended.2.2)

theorem tickedState_run : NhmRun .zero 0 tickedState := by
  have armed : (loadedState.1.remoteWrite .zero).armed = true := by decide +kernel
  have write := NhmRun.write loadedState_run (.here loadedState.1 loadedState.2)
  exact .tick write armed (reaches_run (tallyDevice_ready .zero _) _)

/-! ### The theorem -/

/-- The counts make up the remote writes just when the initial value and the missed writes
cancel; before the first tick they never do. -/
theorem ledger_iff_cancels {here : Node} {garbage : BitVec 64} {state : TallyWorld}
    (run : NhmRun here garbage state) (few : state.2.occurred < 2 ^ 48) :
    Ledger here state ↔ state.2.Cancels (garbage.getLsbD 63) := by
  have idle := run.idle
  rw [Ledger, idle.converted, idle.shows.count]
  exact Tally.converted_add_count_eq_iff _ idle.fresh few

/-- As many writes between the first read and its clear as the counter starts with. -/
theorem ledger_iff_cancels_missed :
    ∃ state, NhmRun .zero 0 state ∧ state.2.occurred = 2 ^ 48 - 100 ∧ Ledger .zero state := by
  have armed : loadedState.1.armed = true := by decide +kernel
  have fresh : loadedState.2 = {} := by decide +kernel
  obtain ⟨after, run, ticks, current⟩ := tick_writes (2 ^ 48 - 100) loadedState_run armed
  have one : after.2.ticks = [⟨0, 2 ^ 48 - 100⟩] := by
    rw [ticks, fresh]
    rfl
  have occurred : after.2.occurred = 2 ^ 48 - 100 := by
    rw [Tally.occurred, one, current]
    rfl
  have few : after.2.occurred < 2 ^ 48 := by
    rw [occurred]
    exact Nat.sub_lt (by decide) (by decide)
  have cancels : after.2.Cancels false := by
    rw [Tally.Cancels, one]
    exact ⟨by decide, rfl⟩
  exact ⟨after, run, occurred, (ledger_iff_cancels run few).mpr cancels⟩

/-- One remote write is converted as 2^48 - 99. -/
theorem not_ledger_ticked :
    ∃ state, NhmRun .zero 0 state ∧ state.2.occurred = 1 ∧ state.1.converted = 2 ^ 48 - 99 ∧
      ¬ Ledger .zero state := by
  have occurred : tickedState.2.occurred = 1 := by decide +kernel
  have converted : tickedState.1.converted = 2 ^ 48 - 99 := by decide +kernel
  refine ⟨tickedState, tickedState_run, occurred, converted, fun ledger => ?_⟩
  rw [Ledger, converted, occurred] at ledger
  omega

end NvmEmulator.Nehalem
