/-
# Setting thresholds

A node takes a throttling call if its number is in range and it has a channel. On a node
that does, `uncore_imc_set_threshold` rewrites the three words of every channel;
`uncore_imc_set_threshold_all` walks the online nodes, leaves at the first that refuses,
and undoes nothing. What the methods do to the words is a contract here, so that the walks
mean the same wherever the words are kept.
-/

import NvmEmulator.Uncore.ImcCalls
import Mathlib.Data.List.TakeWhile

namespace NvmEmulator.Uncore

open NvmEmulator.Kernel NvmEmulator.Semantics

/-! ## The three updates -/

/-- The words of a channel after its threshold is set. -/
def limitTo (threshold : Nat) : RegFile 16 → RegFile 16 :=
  rewriteDimms (ImcCall.setThreshold 0 threshold).rewrite

/-- The words of a channel after throttling is enabled. -/
def switchOn : RegFile 16 → RegFile 16 := rewriteDimms (ImcCall.enableThrottle 0).rewrite

/-- The words of a channel after throttling is disabled. -/
def switchOff : RegFile 16 → RegFile 16 := rewriteDimms (ImcCall.disableThrottle 0).rewrite

theorem rewriteDimms_idem {update : BitVec 16 → BitVec 16}
    (idem : ∀ config, update (update config) = update config) (regs : RegFile 16) :
    rewriteDimms update (rewriteDimms update regs) = rewriteDimms update regs := by
  funext addr
  by_cases dimm : addr ∈ dimmOffsets
  · rw [rewriteDimms_of_mem dimm, rewriteDimms_of_mem dimm, idem]
  · rw [rewriteDimms_of_notMem dimm]

theorem limitTo_idem (threshold : Nat) (regs : RegFile 16) :
    limitTo threshold (limitTo threshold regs) = limitTo threshold regs := by
  apply rewriteDimms_idem
  intro config
  have apart : thrtPwr threshold &&& (1#16 <<< 15) = 0#16 := by
    unfold thrtPwr
    split
    · decide
    · decide
    · decide
  simp only [ImcCall.rewrite]
  rw [BitVec.and_or_distrib_right, apart, BitVec.and_assoc, BitVec.and_self, BitVec.or_zero]

theorem switchOn_idem (regs : RegFile 16) : switchOn (switchOn regs) = switchOn regs := by
  apply rewriteDimms_idem
  intro config
  simp only [ImcCall.rewrite, BitVec.or_assoc, BitVec.or_self]

theorem switchOff_idem (regs : RegFile 16) : switchOff (switchOff regs) = switchOff regs := by
  apply rewriteDimms_idem
  intro config
  simp only [ImcCall.rewrite, BitVec.and_assoc, BitVec.and_self]

/-! ## The walks -/

/-- The node takes throttling calls: its number is in range and it has a channel. -/
def served (devices : List UncoreImc) (node : Nat) : Bool :=
  decide (node ≤ uncoreMaxSocket) && !(devicesOn devices node).isEmpty

theorem served_iff {devices : List UncoreImc} {node : Nat} :
    served devices node = true ↔ node ≤ uncoreMaxSocket ∧ devicesOn devices node ≠ [] := by
  simp [served]

/-- The channels of a node, as a region. -/
def channelsOf (devices : List UncoreImc) (node : Nat) : Set PciDev :=
  { pdev | pdev ∈ devicesOn devices node }

section Contract

variable {Op : Type} {Res : Op → Type} {σ : Type}

/-- Methods that rewrite the words of their own device and report success; `words` finds
the words of a device in the state. -/
structure RewritesWords (exec : (op : Op) → σ → Res op × σ) (ops : UncoreImcOps Op Res)
    (words : PciDev → σ → RegFile 16) : Prop where
  setThreshold_result : ∀ pdev threshold world,
    ((ops.setThreshold pdev threshold).run exec world).1 = 0
  setThreshold : ∀ pdev threshold world, Rewrites words (limitTo threshold) {pdev} world
    ((ops.setThreshold pdev threshold).run exec world).2
  enableThrottle_result : ∀ pdev world, ((ops.enableThrottle pdev).run exec world).1 = 0
  enableThrottle : ∀ pdev world, Rewrites words switchOn {pdev} world
    ((ops.enableThrottle pdev).run exec world).2
  disableThrottle : ∀ pdev world, Rewrites words switchOff {pdev} world
    ((ops.disableThrottle pdev).run exec world).2

variable {exec : (op : Op) → σ → Res op × σ} {ops : UncoreImcOps Op Res}
  {words : PciDev → σ → RegFile 16} {devices : List UncoreImc}

/-- A node's walk from what each device of it does: it fails on a node that does not take
calls, and touches nothing there. -/
theorem attempt_node {rewrite : RegFile 16 → RegFile 16}
    (idem : ∀ regs, rewrite (rewrite regs) = rewrite regs)
    {body : Nat → PciDev → Program Op Res Int}
    (device : ∀ node pdev, Attempt exec words rewrite (fun pdev => {pdev}) (fun _ => true)
      (body node) pdev) (node : Nat) :
    Attempt exec words rewrite (channelsOf devices) (served devices)
      (fun node =>
        if node > uncoreMaxSocket then pure (-einval)
        else forNodeDevices node (body node) devices (-enxio)) node := by
  have walked : ∀ pdev ∈ devicesOn devices node, Attempt exec words rewrite
      (fun pdev => {pdev}) (fun _ => true) (body node) pdev := fun pdev _ => device node pdev
  have all : (devicesOn devices node).takeWhile (fun _ => true) = devicesOn devices node :=
    List.takeWhile_eq_self_iff.mpr fun _ _ => rfl
  have region : regionOf (fun pdev : PciDev => ({pdev} : Set PciDev))
      (devicesOn devices node) = channelsOf devices node := regionOf_singleton _
  have rewritten : ∀ world, Rewrites words rewrite (channelsOf devices node) world
      ((Program.untilError (body node) (devicesOn devices node) (-enxio)).run exec world).2 := by
    intro world
    have loop := Attempt.loop_rewrites idem walked (-enxio) world
    rw [all, region] at loop
    exact loop
  by_cases bound : node ≤ uncoreMaxSocket
  · have inRange : ¬ node > uncoreMaxSocket := Nat.not_lt.mpr bound
    refine ⟨fun world => ?_, fun world _ => ?_, fun world refuses => ?_⟩
    · rw [if_neg inRange, forNodeDevices_eq, Attempt.loop_result walked, served_iff]
      simp [bound, enxio]
    · rw [if_neg inRange, forNodeDevices_eq]
      exact rewritten world
    · have none : devicesOn devices node = [] := by
        by_contra some
        rw [served_iff.mpr ⟨bound, some⟩] at refuses
        exact absurd refuses (by decide)
      rw [if_neg inRange, forNodeDevices_eq, none]
      exact .empty
  · have refused : served devices node = false := by
      by_contra serves
      exact bound (served_iff.mp (by simpa using serves)).1
    refine ⟨fun world => ?_, fun world serves => ?_, fun world _ => ?_⟩
    · simp [Nat.not_le.mp bound, refused, einval]
    · exact absurd serves (by simp [refused])
    · rw [if_pos (Nat.not_le.mp bound)]
      exact .empty

namespace RewritesWords

variable (methods : RewritesWords exec ops words)
include methods

/-- `uncore_imc_set_threshold` on a node. -/
theorem attempt_setThreshold (threshold node : Nat) :
    Attempt exec words (limitTo threshold) (channelsOf devices) (served devices)
      (fun node => uncoreImcSetThreshold ops devices node threshold) node := by
  apply attempt_node (limitTo_idem threshold)
  intro _ pdev
  refine ⟨fun world => ?_, fun world _ => methods.setThreshold pdev threshold world,
    fun _ refuses => nomatch refuses⟩
  simp [methods.setThreshold_result]

/-- `uncore_imc_enable_throttle` on a node: its rollback is never taken. -/
theorem attempt_enableThrottle (node : Nat) :
    Attempt exec words switchOn (channelsOf devices) (served devices)
      (uncoreImcEnableThrottle ops devices) node := by
  apply attempt_node switchOn_idem
  intro node pdev
  refine ⟨fun world => ?_, fun world _ => ?_, fun _ refuses => nomatch refuses⟩
  · simp [methods.enableThrottle_result]
  · simpa [methods.enableThrottle_result] using methods.enableThrottle pdev world

/-- `uncore_imc_disable_throttle` on a node in range. -/
theorem rewrites_disableThrottle {node : Nat} (bound : node ≤ uncoreMaxSocket) (world : σ) :
    Rewrites words switchOff (channelsOf devices node) world
      ((uncoreImcDisableThrottle ops devices node).run exec world).2 := by
  have region : regionOf (fun pdev : PciDev => ({pdev} : Set PciDev))
      (devicesOn devices node) = channelsOf devices node := regionOf_singleton _
  rw [uncoreImcDisableThrottle_eq ops bound, ← region]
  exact rewrites_forEach switchOff_idem
    (fun pdev _ world => methods.disableThrottle pdev world) world

/-- `uncore_imc_set_threshold_all` returns 0 when every online node takes the call. -/
theorem setThresholdAll_result (online : List Nat) (threshold : Nat) (world : σ) :
    ((uncoreImcSetThresholdAll ops devices online threshold).run exec world).1 = 0 ↔
      online ≠ [] ∧ ∀ node ∈ online, served devices node = true := by
  rw [uncoreImcSetThresholdAll, Attempt.loop_result fun node _ =>
    methods.attempt_setThreshold threshold node]
  simp [enxio]

/-- It sets the threshold on the nodes before the first that refuses. -/
theorem setThresholdAll (online : List Nat) (threshold : Nat) (world : σ) :
    Rewrites words (limitTo threshold)
      (regionOf (channelsOf devices) (online.takeWhile (served devices))) world
      ((uncoreImcSetThresholdAll ops devices online threshold).run exec world).2 :=
  Attempt.loop_rewrites (limitTo_idem threshold)
    (fun node _ => methods.attempt_setThreshold threshold node) (-enxio) world

/-- Where every online node takes the call, `uncore_imc_enable_throttle_all` enables
throttling on all of them. -/
theorem enableThrottleAll {online : List Nat}
    (all : ∀ node ∈ online, served devices node = true) (world : σ) :
    Rewrites words switchOn (regionOf (channelsOf devices) online) world
      ((uncoreImcEnableThrottleAll ops devices online).run exec world).2 :=
  Attempt.cleanup_done switchOn_idem (fun node _ => methods.attempt_enableThrottle node) all
    (-enxio) world

/-- Where some online node refuses, it enables throttling on the nodes before it and then
disables it on all of them. -/
theorem enableThrottleAll_undone {online : List Nat}
    (some : ∃ node ∈ online, served devices node = false) (world : σ) :
    ∃ state, Rewrites words switchOn
        (regionOf (channelsOf devices) (online.takeWhile (served devices))) world state ∧
      ((uncoreImcEnableThrottleAll ops devices online).run exec world).2 =
        ((uncoreImcDisableThrottleAll ops devices online).run exec state).2 :=
  Attempt.cleanup_undone switchOn_idem (fun node _ => methods.attempt_enableThrottle node) some
    (-enxio) world

/-- `uncore_imc_disable_throttle_all` disables throttling on the nodes in range. -/
theorem disableThrottleAll (online : List Nat) (world : σ) :
    Rewrites words switchOff
      (regionOf (fun node => { pdev | node ≤ uncoreMaxSocket ∧ pdev ∈ devicesOn devices node })
        online) world
      ((uncoreImcDisableThrottleAll ops devices online).run exec world).2 := by
  apply rewrites_forEach switchOff_idem
  intro node _ world
  by_cases bound : node ≤ uncoreMaxSocket
  · have region : { pdev | node ≤ uncoreMaxSocket ∧ pdev ∈ devicesOn devices node } =
        channelsOf devices node := by
      ext pdev
      exact and_iff_right bound
    rw [region]
    exact methods.rewrites_disableThrottle bound world
  · have region : { pdev | node ≤ uncoreMaxSocket ∧ pdev ∈ devicesOn devices node } = ∅ := by
      ext pdev
      exact iff_of_false (fun here => bound here.1) fun here => here.elim
    rw [region, uncoreImcDisableThrottle, if_pos (Nat.not_le.mp bound)]
    exact .empty

end RewritesWords

/-- The Haswell methods, where a program on a device runs on the device's own words. -/
theorem hswep_rewritesWords {access : PciDev → (op : RegOp 16) → Program Op Res op.Res}
    (result : ∀ {α : Type} (program : RegProgram 16 α) pdev world,
      ((program.hoist (access pdev)).run exec world).1 =
        (program.run RegFile.exec (words pdev world)).1)
    (own : ∀ {α : Type} (program : RegProgram 16 α) pdev world,
      words pdev ((program.hoist (access pdev)).run exec world).2 =
        (program.run RegFile.exec (words pdev world)).2)
    (others : ∀ {α : Type} (program : RegProgram 16 α) pdev world, ∀ other ≠ pdev,
      words other ((program.hoist (access pdev)).run exec world).2 = words other world) :
    RewritesWords exec (hswepE5ImcOps access) words := by
  have rewrites : ∀ {α : Type} (update : BitVec 16 → BitVec 16)
      (program : RegProgram 16 α) (pdev : PciDev) (world : σ),
      (∀ regs, (program.run RegFile.exec regs).2 = rewriteDimms update regs) →
      Rewrites words (rewriteDimms update) {pdev} world
        ((program.hoist (access pdev)).run exec world).2 := by
    intro α update program pdev world walks
    apply Rewrites.single
    · rw [own, walks]
    · exact others program pdev world
  refine ⟨fun pdev threshold world => ?_, fun pdev threshold world => ?_,
    fun pdev world => ?_, fun pdev world => ?_, fun pdev world => ?_⟩
  · exact result (hswepImcSetThreshold threshold) pdev world
  · apply rewrites _ (hswepImcSetThreshold threshold)
    intro regs
    rw [hswepImcSetThreshold, Program.bind_eq, Program.run_bind]
    exact run_forDimms_rewrite (ImcCall.setThreshold 0 threshold).rewrite regs
  · exact result hswepImcEnableThrottle pdev world
  · apply rewrites _ hswepImcEnableThrottle
    intro regs
    rw [hswepImcEnableThrottle, Program.bind_eq, Program.run_bind]
    exact run_forDimms_rewrite (ImcCall.enableThrottle 0).rewrite regs
  · exact rewrites _ hswepImcDisableThrottle pdev world (run_forDimms_rewrite _)

end Contract

/-- On a bank of devices, the words of a device are its entry. -/
theorem hswep_bankWords :
    RewritesWords ImcBank.exec (hswepE5ImcOps ImcBank.access) fun pdev bank => bank pdev := by
  apply hswep_rewritesWords
  · intro α program pdev bank
    rw [run_hoist_access]
  · intro α program pdev bank
    rw [run_hoist_access]
    exact Function.update_self _ _ _
  · intro α program pdev bank other apart
    rw [run_hoist_access]
    exact Function.update_of_ne apart _ _

/-! ## One ratio against another -/

/-- The `THRT_PWR` limit of a word. -/
def limitOf (config : BitVec 16) : BitVec 16 := config &&& 0x0fff

theorem limitOf_limitTo (threshold : Nat) (regs : RegFile 16) {addr : BitVec 32}
    (dimm : addr ∈ dimmOffsets) : limitOf (limitTo threshold regs addr) = thrtPwr threshold := by
  have own : (ImcCall.setThreshold 0 threshold).thresholdOn 0 = some threshold := rfl
  have field := (rewrite_fields (.setThreshold 0 threshold) (regs addr)).1
  simp only [ImcCall.nodeid, own] at field
  rw [limitOf, limitTo, rewriteDimms_of_mem dimm, field]

/-- Where both calls succeed, asking a node for `1/more` of the bandwidth leaves no limit
above the one that asking for `1/less` leaves. -/
def ThresholdMonotone (devices : List UncoreImc) (node less more : Nat)
    (bank other : ImcBank) : Prop :=
  let ops := hswepE5ImcOps ImcBank.access
  let first := (uncoreImcSetThreshold ops devices node less).run ImcBank.exec bank
  let second := (uncoreImcSetThreshold ops devices node more).run ImcBank.exec other
  first.1 = 0 → second.1 = 0 → ∀ pdev ∈ devicesOn devices node, ∀ addr ∈ dimmOffsets,
    limitOf (second.2 pdev addr) ≤ limitOf (first.2 pdev addr)

/-- A call that succeeds leaves the limit it was asked for. -/
theorem limitOf_setThreshold {devices : List UncoreImc} {node threshold : Nat}
    (serves : served devices node = true) (bank : ImcBank) {pdev : PciDev}
    (mem : pdev ∈ devicesOn devices node) {addr : BitVec 32} (dimm : addr ∈ dimmOffsets) :
    limitOf (((uncoreImcSetThreshold (hswepE5ImcOps ImcBank.access) devices node
      threshold).run ImcBank.exec bank).2 pdev addr) = thrtPwr threshold := by
  have set := ((hswep_bankWords.attempt_setThreshold threshold node).done bank serves).inside
    pdev mem
  rw [set]
  exact limitOf_limitTo threshold (bank pdev) dimm

/-- Only the ratios 1/2 and 1/4 have limits of their own. -/
theorem thrtPwr_le_iff (less more : Nat) :
    thrtPwr more ≤ thrtPwr less ↔
      (less = 2 → more = 2 ∨ more = 4) ∧ (less = 4 → more = 4) := by
  have other : ∀ {threshold : Nat}, threshold ≠ 2 → threshold ≠ 4 →
      thrtPwr threshold = 0x0fff := by
    intro threshold two four
    unfold thrtPwr
    split
    · exact absurd rfl two
    · exact absurd rfl four
    · rfl
  have full : thrtPwr more ≤ 0x0fff := by
    unfold thrtPwr
    split
    · decide
    · decide
    · decide
  have half : ¬ (0x0fff#16) ≤ thrtPwr 2 := by decide
  have quarter : ¬ (0x0fff#16) ≤ thrtPwr 4 := by decide
  have between : ¬ thrtPwr 2 ≤ thrtPwr 4 := by decide
  have below : thrtPwr 4 ≤ thrtPwr 2 := by decide
  by_cases lessTwo : less = 2
  · subst lessTwo
    by_cases moreTwo : more = 2
    · simp [moreTwo]
    · by_cases moreFour : more = 4
      · simpa [moreFour] using below
      · rw [other moreTwo moreFour]
        simpa [moreTwo, moreFour] using half
  · by_cases lessFour : less = 4
    · subst lessFour
      by_cases moreFour : more = 4
      · simp [moreFour]
      · by_cases moreTwo : more = 2
        · subst moreTwo
          simpa using between
        · rw [other moreTwo moreFour]
          simpa [moreFour] using quarter
    · rw [other lessTwo lessFour]
      simpa [lessTwo, lessFour] using full

/-- On a node with a channel, a larger threshold never leaves a larger limit exactly when the
node's number is out of range, or the smaller threshold is neither 2 nor 4, or the larger
is among those that the smaller is compared with. -/
theorem thresholdMonotone_iff {devices : List UncoreImc} {node : Nat}
    (present : devicesOn devices node ≠ []) (less more : Nat) (bank other : ImcBank) :
    ThresholdMonotone devices node less more bank other ↔
      uncoreMaxSocket < node ∨
        ((less = 2 → more = 2 ∨ more = 4) ∧ (less = 4 → more = 4)) := by
  have result := fun threshold => (hswep_bankWords.attempt_setThreshold threshold node :
    Attempt _ _ _ (channelsOf devices) _ _ _).result
  rw [← thrtPwr_le_iff]
  by_cases bound : node ≤ uncoreMaxSocket
  · have serves := served_iff.mpr ⟨bound, present⟩
    rw [or_iff_right (Nat.not_lt.mpr bound)]
    constructor
    · intro monotone
      rcases List.exists_mem_of_ne_nil _ present with ⟨pdev, mem⟩
      have dimm : dimmOffset 0 ∈ dimmOffsets := by decide
      have limits := monotone ((result less bank).mpr serves) ((result more other).mpr serves)
        pdev mem (dimmOffset 0) dimm
      rwa [limitOf_setThreshold serves other mem dimm,
        limitOf_setThreshold serves bank mem dimm] at limits
    · intro order _ _ pdev mem addr dimm
      rw [limitOf_setThreshold serves other mem dimm, limitOf_setThreshold serves bank mem dimm]
      exact order
  · refine iff_of_true ?_ (Or.inl (Nat.not_le.mp bound))
    intro zero
    exact absurd (served_iff.mp ((result less bank).mp zero)).1 bound

/-- A node with one channel. -/
def oneChannel : List UncoreImc := [⟨0, ⟨0x8086, 0x2FB4, 0x7f, 0⟩⟩]

/-- A quarter of the bandwidth is not more than half of it. -/
theorem thresholdMonotone_twoFour :
    ThresholdMonotone oneChannel 0 2 4 (fun _ _ => 0) fun _ _ => 0 :=
  (thresholdMonotone_iff (by decide) 2 4 _ _).mpr (Or.inr (by decide))

/-- A third of the bandwidth is programmed as all of it. -/
theorem not_thresholdMonotone_three :
    ¬ ∀ (devices : List UncoreImc) (node less more : Nat) (bank : ImcBank),
      1 ≤ less → less ≤ more → devicesOn devices node ≠ [] →
        ThresholdMonotone devices node less more bank bank := by
  intro claim
  have monotone := claim oneChannel 0 2 3 (fun _ _ => 0) (by decide) (by decide) (by decide)
  have limits := monotone rfl rfl ⟨0x8086, 0x2FB4, 0x7f, 0⟩ (by decide) (dimmOffset 0)
    (by decide)
  revert limits
  decide

/-! ## All nodes at once -/

/-- A call that fails leaves the words of every device, and one that succeeds sets the limit
on every device of the online nodes. -/
def ThresholdAtomic (devices : List UncoreImc) (online : List Nat) (threshold : Nat)
    (bank : ImcBank) : Prop :=
  let final := (uncoreImcSetThresholdAll (hswepE5ImcOps ImcBank.access) devices online
    threshold).run ImcBank.exec bank
  (final.1 ≠ 0 → ∀ imc ∈ devices, ∀ addr ∈ dimmOffsets,
    final.2 imc.pdev addr = bank imc.pdev addr) ∧
  (final.1 = 0 → ∀ imc ∈ devices, imc.nodeid ∈ online → ∀ addr ∈ dimmOffsets,
    limitOf (final.2 imc.pdev addr) = thrtPwr threshold)

/-- Every online node takes the call, or those before the first that does not have the
setting already. -/
def SettingKept (devices : List UncoreImc) (online : List Nat) (threshold : Nat)
    (bank : ImcBank) : Prop :=
  (∀ node ∈ online, served devices node = true) ∨
    ∀ node ∈ online.takeWhile (served devices), ∀ pdev ∈ devicesOn devices node,
      limitTo threshold (bank pdev) = bank pdev

/-- A call is atomic exactly when no node before the first that refuses has anything to
lose. -/
theorem thresholdAtomic_iff (devices : List UncoreImc) (online : List Nat) (threshold : Nat)
    (bank : ImcBank) :
    ThresholdAtomic devices online threshold bank ↔
      SettingKept devices online threshold bank := by
  have result : _ ↔ online ≠ [] ∧ ∀ node ∈ online, served devices node = true :=
    hswep_bankWords.setThresholdAll_result online threshold bank
  have words : Rewrites _ _ (regionOf (channelsOf devices) _) _ _ :=
    hswep_bankWords.setThresholdAll online threshold bank
  by_cases all : ∀ node ∈ online, served devices node = true
  · refine iff_of_true ⟨fun failed => ?_, fun zero imc mem here addr dimm => ?_⟩ (Or.inl all)
    · -- The walk over no node fails, and touches nothing.
      have none : online = [] := by
        by_contra some
        exact failed (result.mpr ⟨some, all⟩)
      subst none
      intro imc _ addr _
      rfl
    · rw [List.takeWhile_eq_self_iff.mpr all] at words
      have inside : imc.pdev ∈ regionOf (channelsOf devices) online :=
        ⟨imc.nodeid, here, mem_devicesOn.mpr ⟨imc, mem, rfl, rfl⟩⟩
      rw [words.inside _ inside]
      exact limitOf_limitTo threshold _ dimm
  · have failed := mt result.mp fun zero => all zero.2
    constructor
    · intro atomic
      right
      intro node before pdev mem
      have inside : pdev ∈ regionOf (channelsOf devices) (online.takeWhile (served devices)) :=
        ⟨node, before, mem⟩
      rcases mem_devicesOn.mp mem with ⟨imc, listed, _, rfl⟩
      rw [← words.inside _ inside]
      funext addr
      by_cases dimm : addr ∈ dimmOffsets
      · exact atomic.1 failed imc listed addr dimm
      · rw [words.inside _ inside]
        exact rewriteDimms_of_notMem dimm
    · intro kept
      refine ⟨fun _ imc mem addr _ => ?_, fun zero => absurd zero failed⟩
      by_cases inside : imc.pdev ∈
          regionOf (channelsOf devices) (online.takeWhile (served devices))
      · rw [words.inside _ inside]
        rcases inside with ⟨node, before, here⟩
        rw [kept.resolve_left all node before imc.pdev here]
      · exact congrFun (words.outside _ inside) addr

/-! ## Sequences of calls -/

/-- A call of `uncore_imc_set_threshold_all`, and the nodes that are online then. -/
structure ThresholdCall where
  online : List Nat
  threshold : Nat

/-- A sequence of calls. -/
def runThresholdCalls (devices : List UncoreImc) (calls : List ThresholdCall)
    (bank : ImcBank) : ImcBank :=
  calls.foldl
    (fun bank call => ((uncoreImcSetThresholdAll (hswepE5ImcOps ImcBank.access) devices
      call.online call.threshold).run ImcBank.exec bank).2) bank

/-- Two nodes have the same setting: one limit in every word of their devices. -/
def SameSetting (devices : List UncoreImc) (first second : Nat) (bank : ImcBank) : Prop :=
  ∃ limit, ∀ node ∈ [first, second], ∀ pdev ∈ devicesOn devices node, ∀ addr ∈ dimmOffsets,
    limitOf (bank pdev addr) = limit

/-- An atomic call keeps two nodes together that are online together. -/
theorem SameSetting.call (devices : ImcDevices) {online : List Nat} {threshold : Nat}
    {bank : ImcBank} (atomic : ThresholdAtomic devices.list online threshold bank)
    {first second : Nat} (together : first ∈ online ↔ second ∈ online)
    (same : SameSetting devices.list first second bank) :
    SameSetting devices.list first second
      ((uncoreImcSetThresholdAll (hswepE5ImcOps ImcBank.access) devices.list online
        threshold).run ImcBank.exec bank).2 := by
  rcases same with ⟨limit, holds⟩
  by_cases zero : ((uncoreImcSetThresholdAll (hswepE5ImcOps ImcBank.access) devices.list
      online threshold).run ImcBank.exec bank).1 = 0
  · by_cases here : first ∈ online
    · refine ⟨thrtPwr threshold, fun node mem pdev listed addr dimm => ?_⟩
      have nodeOnline : node ∈ online := by
        rcases List.mem_pair.mp mem with rfl | rfl
        · exact here
        · exact together.mp here
      rcases mem_devicesOn.mp listed with ⟨imc, imcMem, rfl, rfl⟩
      exact atomic.2 zero imc imcMem nodeOnline addr dimm
    · refine ⟨limit, fun node mem pdev listed addr dimm => ?_⟩
      have nodeOffline : node ∉ online := by
        rcases List.mem_pair.mp mem with rfl | rfl
        · exact here
        · exact fun there => here (together.mpr there)
      have words : Rewrites _ _ (regionOf (channelsOf devices.list) _) _ _ :=
        hswep_bankWords.setThresholdAll online threshold bank
      -- a device of an offline node is on no online one
      have outside : pdev ∉ regionOf (channelsOf devices.list)
          (online.takeWhile (served devices.list)) := by
        rintro ⟨other, before, there⟩
        rcases mem_devicesOn.mp listed with ⟨imc, imcMem, rfl, rfl⟩
        have one := (devices.mem_devicesOn_iff imcMem other).mp there
        exact nodeOffline (one ▸ List.takeWhile_subset _ before)
      rw [words.outside _ outside]
      exact holds node mem pdev listed addr dimm
  · refine ⟨limit, fun node mem pdev listed addr dimm => ?_⟩
    rcases mem_devicesOn.mp listed with ⟨imc, imcMem, here, rfl⟩
    rw [atomic.1 zero imc imcMem addr dimm]
    exact holds node mem imc.pdev listed addr dimm

/-- A call of `uncore_imc_set_threshold_all` is atomic exactly when every online node takes
it or those before the first that does not have the setting already; and a sequence of
such calls keeps any two nodes together that are always online together. -/
theorem thresholdCalls_atomic (devices : ImcDevices) :
    (∀ online threshold bank, ThresholdAtomic devices.list online threshold bank ↔
      SettingKept devices.list online threshold bank) ∧
    ∀ (calls : List ThresholdCall) (bank : ImcBank) (first second : Nat),
      (∀ call ∈ calls, first ∈ call.online ↔ second ∈ call.online) →
      (∀ earlier call later, calls = earlier ++ call :: later →
        SettingKept devices.list call.online call.threshold
          (runThresholdCalls devices.list earlier bank)) →
      SameSetting devices.list first second bank →
      SameSetting devices.list first second (runThresholdCalls devices.list calls bank) := by
  refine ⟨thresholdAtomic_iff devices.list, ?_⟩
  intro calls bank first second together kept same
  induction calls using List.reverseRecOn with
  | nil => exact same
  | append_singleton calls call ih =>
      have before := ih
        (fun earlier mem => together earlier (List.mem_append_left _ mem))
        (fun earlier item later split => kept earlier item (later ++ [call]) (by simp [split]))
      have atomic := (thresholdAtomic_iff devices.list call.online call.threshold
        (runThresholdCalls devices.list calls bank)).mpr (kept calls call [] rfl)
      rw [runThresholdCalls, List.foldl_append]
      exact before.call devices atomic
        (together call (List.mem_append_right _ List.mem_cons_self))

/-- One channel on each of two nodes. -/
def twoSocketChannels : ImcDevices where
  list := [⟨0, ⟨0x8086, 0x2FB4, 0x7f, 0⟩⟩, ⟨1, ⟨0x8086, 0x2FB4, 0xff, 0⟩⟩]
  nodup := List.nodup_cons.mpr ⟨by decide, List.nodup_singleton _⟩

/-- Two calls on both nodes keep them together. -/
theorem thresholdCalls_atomic_twoSockets :
    SameSetting twoSocketChannels.list 0 1 (runThresholdCalls twoSocketChannels.list
      [⟨[0, 1], 2⟩, ⟨[0, 1], 4⟩] fun _ _ => 0) := by
  apply (thresholdCalls_atomic twoSocketChannels).2
  · simp
  · intro earlier call later split
    have mem : call ∈ [(⟨[0, 1], 2⟩ : ThresholdCall), ⟨[0, 1], 4⟩] := by simp [split]
    have online : call.online = [0, 1] := by
      rcases List.mem_pair.mp mem with rfl | rfl
      · rfl
      · rfl
    left
    rw [online]
    decide
  · have zero : limitOf 0 = 0 := by decide
    exact ⟨0, fun _ _ _ _ _ _ => zero⟩

/-- Node 1 has no channel, so the call fails after it has reprogrammed node 0. -/
theorem not_thresholdAtomic_oneChannel :
    ¬ ∀ (devices : List UncoreImc) (online : List Nat) (threshold : Nat) (bank : ImcBank),
      ThresholdAtomic devices online threshold bank := by
  intro claim
  have kept := (claim oneChannel [0, 1] 2 (fun _ _ => 0)).1 (by decide)
    ⟨0, ⟨0x8086, 0x2FB4, 0x7f, 0⟩⟩ (by decide) (dimmOffset 0) (by decide)
  revert kept
  decide

end NvmEmulator.Uncore
