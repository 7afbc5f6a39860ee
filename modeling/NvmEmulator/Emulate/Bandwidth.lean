/-
# Starting the bandwidth model

`start_emulate_bandwidth` sets every online node to full bandwidth and enables throttling
on all of them, and then returns 0 whatever the two calls returned. When a node refuses,
the first call has set the nodes before it only, and the second has disabled throttling on
every node it can.
-/

import NvmEmulator.Emulate.Nvm
import NvmEmulator.Uncore.Threshold

namespace NvmEmulator.Emulate

open NvmEmulator.Kernel NvmEmulator.Semantics NvmEmulator.Uncore

/-- A controller's method runs on the controller's own words. -/
theorem run_hoist_onImc {α : Type} (machine : Machine) (program : RegProgram 16 α)
    (pdev : PciDev) (world : World) :
    (program.hoist (onImc pdev)).run machine.exec world =
      ((program.run RegFile.exec (world.imc pdev)).1,
        { world with
          imc := Function.update world.imc pdev
            (program.run RegFile.exec (world.imc pdev)).2 }) := by
  apply Program.run_hoist (fun world : World => world.imc pdev)
    (fun world regs => { world with imc := Function.update world.imc pdev regs })
  · intro op world
    rfl
  · intro world regs
    exact Function.update_self _ _ _
  · intro world
    simp only [Function.update_eq_self]
  · intro world first second
    simp only [Function.update_idem]

/-- The machine's controllers, as the walks see them. -/
theorem hswep_machineWords (machine : Machine) :
    RewritesWords machine.exec uncoreImcOps fun pdev world => world.imc pdev := by
  apply hswep_rewritesWords
  · intro α program pdev world
    rw [run_hoist_onImc]
  · intro α program pdev world
    rw [run_hoist_onImc]
    exact Function.update_self _ _ _
  · intro α program pdev world other apart
    rw [run_hoist_onImc]
    exact Function.update_of_ne apart _ _

/-! ## What is reported and what is so -/

/-- A word is limited to full bandwidth, and the limit is on. -/
def FullAndEnabled (config : BitVec 16) : Prop :=
  limitOf config = thrtPwr 1 ∧ config.getLsbD 15 = true

instance (config : BitVec 16) : Decidable (FullAndEnabled config) :=
  inferInstanceAs (Decidable (_ ∧ _))

/-- If `start_emulate_bandwidth` returns 0, every online node has a controller, and every
controller of every online node has all three words limited to full bandwidth and enabled. -/
def BandwidthReported (machine : Machine) (world : World) : Prop :=
  let final := (startEmulateBandwidth machine).run machine.exec world
  final.1 = 0 → ∀ node ∈ machine.onlineNodes,
    devicesOn machine.imcDevices.list node ≠ [] ∧
      ∀ pdev ∈ devicesOn machine.imcDevices.list node, ∀ addr ∈ dimmOffsets,
        FullAndEnabled (final.2.imc pdev addr)

section

variable (machine : Machine) (world : World)

/-- The world after the thresholds are set. -/
def thresholdsSet : World :=
  ((uncoreImcSetThresholdAll uncoreImcOps machine.imcDevices.list machine.onlineNodes 1).run
    machine.exec world).2

theorem startEmulateBandwidth_run :
    (startEmulateBandwidth machine).run machine.exec world =
      (0, ((uncoreImcEnableThrottleAll uncoreImcOps machine.imcDevices.list
        machine.onlineNodes).run machine.exec (thresholdsSet machine world)).2) := by
  rw [startEmulateBandwidth, Program.bind_eq, Program.run_bind, Program.bind_eq,
    Program.run_bind]
  rfl

variable {machine world}

/-- Setting full bandwidth and enabling leaves a word as asked. -/
theorem fullAndEnabled_switchOn (regs : RegFile 16) {addr : BitVec 32}
    (dimm : addr ∈ dimmOffsets) : FullAndEnabled (switchOn (limitTo 1 regs) addr) := by
  have low : (1#16 <<< 15) &&& 0x0fff = 0#16 := by decide
  have high : (1#16 <<< 15).getLsbD 15 = true := by decide
  rw [switchOn, rewriteDimms_of_mem dimm]
  constructor
  · rw [ImcCall.rewrite, limitOf, BitVec.and_or_distrib_right, low, BitVec.or_zero]
    exact limitOf_limitTo 1 regs dimm
  · rw [ImcCall.rewrite, BitVec.getLsbD_or, high, Bool.or_true]

/-- Where every online node takes the calls, the report is true. -/
theorem bandwidthReported_of_served
    (all : ∀ node ∈ machine.onlineNodes, served machine.imcDevices.list node = true) :
    BandwidthReported machine world := by
  have limited : Rewrites _ _ (regionOf (channelsOf machine.imcDevices.list) _) _ _ :=
    (hswep_machineWords machine).setThresholdAll machine.onlineNodes 1 world
  rw [List.takeWhile_eq_self_iff.mpr all] at limited
  have enabled := (hswep_machineWords machine).enableThrottleAll all (thresholdsSet machine world)
  intro _ node mem
  refine ⟨(served_iff.mp (all node mem)).2, fun pdev here addr dimm => ?_⟩
  have inside : pdev ∈ regionOf (channelsOf machine.imcDevices.list) machine.onlineNodes :=
    ⟨node, mem, here⟩
  have words : ((startEmulateBandwidth machine).run machine.exec world).2.imc pdev =
      switchOn (limitTo 1 (world.imc pdev)) := by
    rw [startEmulateBandwidth_run]
    exact (enabled.inside pdev inside).trans (congrArg switchOn (limited.inside pdev inside))
  rw [words]
  exact fullAndEnabled_switchOn _ dimm

/-- Where some online node refuses, the controllers of every node in range end with
throttling disabled. -/
theorem startEmulateBandwidth_disabled
    (some : ∃ node ∈ machine.onlineNodes, served machine.imcDevices.list node = false)
    {node : Nat} (mem : node ∈ machine.onlineNodes) (bound : node ≤ uncoreMaxSocket)
    {pdev : PciDev} (here : pdev ∈ devicesOn machine.imcDevices.list node)
    {addr : BitVec 32} (dimm : addr ∈ dimmOffsets) :
    (((startEmulateBandwidth machine).run machine.exec world).2.imc pdev addr).getLsbD 15 =
      false := by
  rcases (hswep_machineWords machine).enableThrottleAll_undone some
    (thresholdsSet machine world) with ⟨state, -, ends⟩
  have off : Rewrites _ _ (regionOf (fun node => { pdev | node ≤ uncoreMaxSocket ∧
      pdev ∈ devicesOn machine.imcDevices.list node }) machine.onlineNodes) _ _ :=
    (hswep_machineWords machine).disableThrottleAll machine.onlineNodes state
  have mask : (~~~(1#16 <<< 15)).getLsbD 15 = false := by decide
  rw [startEmulateBandwidth_run, ends, off.inside pdev ⟨node, mem, bound, here⟩, switchOff,
    rewriteDimms_of_mem dimm, ImcCall.rewrite, BitVec.getLsbD_and, mask, Bool.and_false]

/-- Where no online node is in range, no word changes. -/
theorem startEmulateBandwidth_untouched
    (large : ∀ node ∈ machine.onlineNodes, uncoreMaxSocket < node)
    (some : machine.onlineNodes ≠ []) :
    ((startEmulateBandwidth machine).run machine.exec world).2.imc = world.imc := by
  have refuses : ∀ node ∈ machine.onlineNodes,
      served machine.imcDevices.list node = false := by
    intro node mem
    by_contra serves
    have bound := (served_iff.mp (by simpa using serves)).1
    exact absurd bound (Nat.not_le.mpr (large node mem))
  have none : machine.onlineNodes.takeWhile (served machine.imcDevices.list) = [] := by
    rcases List.exists_cons_of_ne_nil some with ⟨node, rest, split⟩
    have first := refuses node (by simp [split])
    rw [split, List.takeWhile_cons_of_neg (by simp [first])]
  rcases List.exists_mem_of_ne_nil _ some with ⟨node, mem⟩
  have limited : Rewrites _ _ (regionOf (channelsOf machine.imcDevices.list) _) _ _ :=
    (hswep_machineWords machine).setThresholdAll machine.onlineNodes 1 world
  rcases (hswep_machineWords machine).enableThrottleAll_undone
    ⟨node, mem, refuses node mem⟩ (thresholdsSet machine world) with ⟨state, enabled, ends⟩
  have off : Rewrites _ _ (regionOf (fun node => { pdev | node ≤ uncoreMaxSocket ∧
      pdev ∈ devicesOn machine.imcDevices.list node }) machine.onlineNodes) _ _ :=
    (hswep_machineWords machine).disableThrottleAll machine.onlineNodes state
  rw [none, regionOf_nil] at limited enabled
  rw [startEmulateBandwidth_run, ends]
  funext pdev
  have outside : pdev ∉ regionOf (fun node => { pdev | node ≤ uncoreMaxSocket ∧
      pdev ∈ devicesOn machine.imcDevices.list node }) machine.onlineNodes := by
    rintro ⟨node, mem, bound, _⟩
    exact absurd bound (Nat.not_le.mpr (large node mem))
  calc _ = state.imc pdev := off.outside pdev outside
    _ = (thresholdsSet machine world).imc pdev := enabled.outside pdev fun mem => mem.elim
    _ = world.imc pdev := limited.outside pdev fun mem => mem.elim

/-- The report is true exactly when every online node has a controller, and either all of
them are in range, or none is and their words already are as asked. -/
theorem bandwidthReported_iff (machine : Machine) (world : World) :
    BandwidthReported machine world ↔
      (∀ node ∈ machine.onlineNodes, devicesOn machine.imcDevices.list node ≠ []) ∧
      ((∀ node ∈ machine.onlineNodes, node ≤ uncoreMaxSocket) ∨
        ∀ node ∈ machine.onlineNodes, uncoreMaxSocket < node ∧
          ∀ pdev ∈ devicesOn machine.imcDevices.list node, ∀ addr ∈ dimmOffsets,
            FullAndEnabled (world.imc pdev addr)) := by
  have zero : ((startEmulateBandwidth machine).run machine.exec world).1 = 0 := by
    rw [startEmulateBandwidth_run]
  constructor
  · intro reported
    have present := fun node mem => (reported zero node mem).1
    refine ⟨present, ?_⟩
    by_cases all : ∀ node ∈ machine.onlineNodes, node ≤ uncoreMaxSocket
    · exact Or.inl all
    · right
      push Not at all
      rcases all with ⟨out, outMem, large⟩
      have refused : served machine.imcDevices.list out = false := by
        by_contra serves
        exact absurd (served_iff.mp (by simpa using serves)).1 (Nat.not_le.mpr large)
      -- the failure at that node disables throttling on any node in range
      have outOfRange : ∀ node ∈ machine.onlineNodes, uncoreMaxSocket < node := by
        intro node mem
        by_contra small
        rcases List.exists_mem_of_ne_nil _ (present node mem) with ⟨pdev, here⟩
        have dimm : dimmOffset 0 ∈ dimmOffsets := by decide
        have disabled : (((startEmulateBandwidth machine).run machine.exec world).2.imc pdev
            (dimmOffset 0)).getLsbD 15 = false :=
          startEmulateBandwidth_disabled ⟨out, outMem, refused⟩ mem (Nat.not_lt.mp small) here
            dimm
        rw [((reported zero node mem).2 pdev here _ dimm).2] at disabled
        exact absurd disabled (by decide)
      intro node mem
      refine ⟨outOfRange node mem, fun pdev here addr dimm => ?_⟩
      rw [← startEmulateBandwidth_untouched outOfRange (List.ne_nil_of_mem mem)]
      exact (reported zero node mem).2 pdev here addr dimm
  · rintro ⟨present, inRange | already⟩
    · exact bandwidthReported_of_served fun node mem =>
        served_iff.mpr ⟨inRange node mem, present node mem⟩
    · intro _ node mem
      refine ⟨present node mem, fun pdev here addr dimm => ?_⟩
      rw [startEmulateBandwidth_untouched (fun node mem => (already node mem).1)
        (List.ne_nil_of_mem mem)]
      exact (already node mem).2 pdev here addr dimm

end

/-! ## A socket without memory -/

/-- Two online nodes, the second without a controller. -/
def unpopulatedSocket : Machine where
  haBoxes := []
  haBoxes_type := noBoxes_type
  imcDevices := ⟨[⟨0, ⟨0x8086, 0x2FB4, 0x7f, 0⟩⟩], List.nodup_singleton _⟩
  onlineNodes := [0, 1]
  nrCpuIds := 8
  nrNodeIds := 2
  cpuToNode cpu := cpu / 4
  smpProcessorId := 6
  answer _ _ := 0

/-- Both calls fail there, and 0 is returned. -/
theorem not_bandwidthReported_unpopulated :
    ¬ ∀ (machine : Machine) (world : World), BandwidthReported machine world := by
  intro claim
  have reported := claim unpopulatedSocket
    { units := fun _ => { regs := fun _ => 0 }
      imc := fun _ _ => 0x8fff
      globalPmu := fun _ _ => 0
      online := fun _ => true }
  have present := (reported rfl 1 (by decide)).1
  exact present (by decide)

end NvmEmulator.Emulate
