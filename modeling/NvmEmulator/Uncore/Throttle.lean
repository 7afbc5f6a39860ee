/-
# All-or-nothing throttling

`uncore_imc_enable_throttle_all` walks the online nodes and, on each, the node's
channels; whatever fails, both levels roll back. `ThrottleContract` says what the
walks need of the CPU-specific methods and nothing about how a device throttles,
so the result holds for any of them; the Haswell methods meet it.
-/

import NvmEmulator.Semantics.Footprint
import NvmEmulator.Uncore.ImcHaswell

namespace NvmEmulator.Uncore

open NvmEmulator.Kernel NvmEmulator.Semantics

section Contract

variable {Op : Type} {Res : Op → Type} {σ δ : Type}

/-- Each method acts on its own device. `state` is a device's state, `throttled`
its enable state, and `outcome` the pattern of results of `enable_throttle`;
what a failing call leaves in its device is unspecified. -/
structure ThrottleContract (exec : (op : Op) → σ → Res op × σ)
    (ops : UncoreImcOps Op Res) (state : PciDev → σ → δ) (throttled : δ → Prop)
    (outcome : PciDev → Int) : Prop where
  enable_result : ∀ pdev world, ((ops.enableThrottle pdev).run exec world).1 = outcome pdev
  enable_sets : ∀ pdev world, outcome pdev = 0 →
    Drives state throttled {pdev} world ((ops.enableThrottle pdev).run exec world).2
  enable_frame : ∀ pdev world,
    Drives state (fun _ => True) {pdev} world ((ops.enableThrottle pdev).run exec world).2
  disable_clears : ∀ pdev world,
    Drives state (¬ throttled ·) {pdev} world ((ops.disableThrottle pdev).run exec world).2

/-- The devices on some node of a list. -/
def devicesOnSome (devices : List UncoreImc) (nodes : List Nat) : Set PciDev :=
  regionOf (fun node => { pdev | pdev ∈ devicesOn devices node }) nodes

variable {exec : (op : Op) → σ → Res op × σ} {ops : UncoreImcOps Op Res}
  {state : PciDev → σ → δ} {throttled : δ → Prop} {outcome : PciDev → Int}
  {devices : List UncoreImc}

/-- Disabling a node releases exactly its devices. -/
theorem ThrottleContract.disableThrottle
    (contract : ThrottleContract exec ops state throttled outcome) {nodeid : Nat}
    (bound : nodeid ≤ uncoreMaxSocket) (world : σ) :
    Drives state (¬ throttled ·) { pdev | pdev ∈ devicesOn devices nodeid } world
      ((uncoreImcDisableThrottle ops devices nodeid).run exec world).2 := by
  rw [uncoreImcDisableThrottle_eq ops bound, ← regionOf_singleton]
  exact drives_forEach (fun pdev _ world => contract.disable_clears pdev world) world

/-- Disabling a list of nodes releases exactly their devices. -/
theorem ThrottleContract.disableThrottleAll
    (contract : ThrottleContract exec ops state throttled outcome) {online : List Nat}
    (bound : ∀ node ∈ online, node ≤ uncoreMaxSocket) (world : σ) :
    Drives state (¬ throttled ·) (devicesOnSome devices online) world
      ((uncoreImcDisableThrottleAll ops devices online).run exec world).2 :=
  drives_forEach (fun node mem world => contract.disableThrottle (bound node mem) world)
    world

/-- One device of the walk of `uncore_imc_enable_throttle`, rollback included. -/
theorem ThrottleContract.enableDevice
    (contract : ThrottleContract exec ops state throttled outcome) {nodeid : Nat}
    (bound : nodeid ≤ uncoreMaxSocket) {pdev : PciDev}
    (mem : pdev ∈ devicesOn devices nodeid) :
    AllOrNothing exec state throttled (¬ throttled ·) (fun pdev => {pdev})
      (outcome · = 0) { pdev | pdev ∈ devicesOn devices nodeid }
      (fun pdev => do
        let ret ← ops.enableThrottle pdev
        if ret ≠ 0 then
          uncoreImcDisableThrottle ops devices nodeid
          pure ret
        else pure ret) pdev := by
  constructor
  · intro world
    by_cases fine : outcome pdev = 0 <;>
      simp [contract.enable_result, fine]
  · intro world fine
    simpa [contract.enable_result, fine] using contract.enable_sets pdev world fine
  · intro world failed
    have disabled : Drives state (¬ throttled ·) { pdev | pdev ∈ devicesOn devices nodeid }
        _ _ := contract.disableThrottle bound ((ops.enableThrottle pdev).run exec world).2
    have rollback := (contract.enable_frame pdev world).overwrite
      (Set.singleton_subset_iff.mpr mem) disabled
    simpa [contract.enable_result, failed] using rollback
  · exact Set.singleton_subset_iff.mpr mem

/-- A node can be throttled: it has a device, and every device of it accepts. -/
def NodeAccepts (devices : List UncoreImc) (outcome : PciDev → Int) (nodeid : Nat) : Prop :=
  devicesOn devices nodeid ≠ [] ∧ ∀ pdev ∈ devicesOn devices nodeid, outcome pdev = 0

theorem nodeAccepts_iff {nodeid : Nat} :
    NodeAccepts devices outcome nodeid ↔
      (∃ imc ∈ devices, imc.nodeid = nodeid) ∧
        ∀ imc ∈ devices, imc.nodeid = nodeid → outcome imc.pdev = 0 := by
  simp only [NodeAccepts, ne_eq, List.eq_nil_iff_forall_not_mem, mem_devicesOn]
  constructor
  · rintro ⟨some, all⟩
    refine ⟨?_, fun imc mem here => all imc.pdev ⟨imc, mem, here, rfl⟩⟩
    push Not at some
    obtain ⟨_, imc, mem, here, _⟩ := some
    exact ⟨imc, mem, here⟩
  · rintro ⟨⟨imc, mem, here⟩, all⟩
    refine ⟨fun none => none imc.pdev ⟨imc, mem, here, rfl⟩, ?_⟩
    rintro _ ⟨other, otherMem, otherHere, rfl⟩
    exact all other otherMem otherHere

section Node

variable (contract : ThrottleContract exec ops state throttled outcome) {nodeid : Nat}
  (bound : nodeid ≤ uncoreMaxSocket)
include contract bound

theorem ThrottleContract.enableThrottle_result (world : σ) :
    ((uncoreImcEnableThrottle ops devices nodeid).run exec world).1 = 0 ↔
      NodeAccepts devices outcome nodeid := by
  rw [uncoreImcEnableThrottle, if_neg (Nat.not_lt.mpr bound), forNodeDevices_eq,
    AllOrNothing.loop_result fun _ mem => contract.enableDevice bound mem]
  simp [NodeAccepts, enxio]

theorem ThrottleContract.enableThrottle_done
    (accepts : NodeAccepts devices outcome nodeid) (world : σ) :
    Drives state throttled { pdev | pdev ∈ devicesOn devices nodeid } world
      ((uncoreImcEnableThrottle ops devices nodeid).run exec world).2 := by
  rw [uncoreImcEnableThrottle, if_neg (Nat.not_lt.mpr bound), forNodeDevices_eq,
    ← regionOf_singleton]
  exact AllOrNothing.loop_done (fun _ mem => contract.enableDevice bound mem) _ world
    accepts.2

theorem ThrottleContract.enableThrottle_undone
    (refuses : ¬ NodeAccepts devices outcome nodeid) (world : σ) :
    Drives state (¬ throttled ·) { pdev | pdev ∈ devicesOn devices nodeid } world
      ((uncoreImcEnableThrottle ops devices nodeid).run exec world).2 := by
  rw [uncoreImcEnableThrottle, if_neg (Nat.not_lt.mpr bound), forNodeDevices_eq]
  by_cases none : devicesOn devices nodeid = []
  · -- No device: the walk ends at once with `-ENXIO`.
    rw [none]
    simpa using Drives.empty
  · refine AllOrNothing.loop_undone (fun _ mem => contract.enableDevice bound mem) _ world ?_
    simpa [NodeAccepts, none] using refuses

end Node

/-- One node of the walk of `uncore_imc_enable_throttle_all`, rollback included. -/
theorem ThrottleContract.enableNode
    (contract : ThrottleContract exec ops state throttled outcome)
    (devices : List UncoreImc) {online : List Nat}
    (bound : ∀ node ∈ online, node ≤ uncoreMaxSocket) {node : Nat} (mem : node ∈ online) :
    AllOrNothing exec state throttled (¬ throttled ·)
      (fun node => { pdev | pdev ∈ devicesOn devices node })
      (NodeAccepts devices outcome) (devicesOnSome devices online)
      (fun node => do
        let ret ← uncoreImcEnableThrottle ops devices node
        if ret ≠ 0 then
          uncoreImcDisableThrottleAll ops devices online
          pure ret
        else pure ret) node := by
  have within : { pdev | pdev ∈ devicesOn devices node } ⊆ devicesOnSome devices online :=
    fun pdev here => ⟨node, mem, here⟩
  refine ⟨fun world => ?_, fun world accepts => ?_, fun world refuses => ?_, within⟩
  · have accepts : _ ↔ NodeAccepts devices outcome node :=
      contract.enableThrottle_result (bound node mem) world
    rw [← accepts]
    by_cases zero : ((uncoreImcEnableThrottle ops devices node).run exec world).1 = 0 <;>
      simp [zero]
  · have zero := (contract.enableThrottle_result (bound node mem) world).mpr accepts
    simpa [zero] using contract.enableThrottle_done (bound node mem) accepts world
  · have failed : ((uncoreImcEnableThrottle ops devices node).run exec world).1 ≠ 0 :=
      fun zero => refuses ((contract.enableThrottle_result (bound node mem) world).mp zero)
    have rollback := (contract.enableThrottle_undone (bound node mem) refuses world).overwrite
      within (contract.disableThrottleAll bound _)
    simpa [failed] using rollback

theorem mem_devicesOnSome {online : List Nat} {pdev : PciDev} :
    pdev ∈ devicesOnSome devices online ↔
      ∃ imc ∈ devices, imc.nodeid ∈ online ∧ imc.pdev = pdev := by
  constructor
  · rintro ⟨node, here, listed⟩
    obtain ⟨imc, mem, rfl, same⟩ := mem_devicesOn.mp listed
    exact ⟨imc, mem, here, same⟩
  · rintro ⟨imc, mem, here, same⟩
    exact ⟨imc.nodeid, here, mem_devicesOn.mpr ⟨imc, mem, rfl, same⟩⟩

/-- A device of a node that is not online is not a device of an online one. -/
theorem ImcDevices.not_mem_devicesOnSome (devices : ImcDevices) {online : List Nat}
    {imc : UncoreImc} (mem : imc ∈ devices.list) (offline : imc.nodeid ∉ online) :
    imc.pdev ∉ devicesOnSome devices.list online := by
  rw [mem_devicesOnSome]
  rintro ⟨other, otherMem, otherOnline, same⟩
  have equal : other = imc := List.inj_on_of_nodup_map devices.nodup otherMem mem same
  exact offline (equal ▸ otherOnline)

/-- `uncore_imc_enable_throttle_all` is all-or-nothing: it returns 0 exactly when some
node is online and every online node has a device and accepts, and then all their
devices are throttled; otherwise none of them is. Other nodes are left alone. -/
theorem uncoreImcEnableThrottleAll_allOrNothing
    (contract : ThrottleContract exec ops state throttled outcome)
    (devices : ImcDevices) (online : List Nat)
    (bound : ∀ node ∈ online, node ≤ uncoreMaxSocket) (world : σ) :
    let final := (uncoreImcEnableThrottleAll ops devices.list online).run exec world
    (final.1 = 0 ↔ online ≠ [] ∧ ∀ node ∈ online,
      (∃ imc ∈ devices.list, imc.nodeid = node) ∧
        ∀ imc ∈ devices.list, imc.nodeid = node → outcome imc.pdev = 0) ∧
    (final.1 = 0 → ∀ imc ∈ devices.list, imc.nodeid ∈ online →
      throttled (state imc.pdev final.2)) ∧
    (final.1 ≠ 0 → ∀ imc ∈ devices.list, imc.nodeid ∈ online →
      ¬ throttled (state imc.pdev final.2)) ∧
    (∀ imc ∈ devices.list, imc.nodeid ∉ online →
      state imc.pdev final.2 = state imc.pdev world) := by
  intro final
  have round := fun node (mem : node ∈ online) =>
    contract.enableNode devices.list bound mem
  have result : final.1 = 0 ↔
      online ≠ [] ∧ ∀ node ∈ online, NodeAccepts devices.list outcome node := by
    have loop : final.1 = 0 ↔ (online = [] → -enxio = 0) ∧
        ∀ node ∈ online, NodeAccepts devices.list outcome node :=
      AllOrNothing.loop_result round (-enxio) world
    rw [loop]
    simp [enxio]
  have inside : ∀ imc ∈ devices.list, imc.nodeid ∈ online →
      imc.pdev ∈ devicesOnSome devices.list online :=
    fun imc mem here => mem_devicesOnSome.mpr ⟨imc, mem, here, rfl⟩
  by_cases accepted : ∀ node ∈ online, NodeAccepts devices.list outcome node
  · have done : Drives state throttled (devicesOnSome devices.list online) world final.2 :=
      AllOrNothing.loop_done round (-enxio) world accepted
    refine ⟨?_, fun _ imc mem here => done.reaches _ (inside imc mem here),
      fun failed imc mem here => ?_, fun imc mem offline =>
        done.frame _ (devices.not_mem_devicesOnSome mem offline)⟩
    · simpa only [nodeAccepts_iff] using result
    · -- Only an empty set of online nodes fails here, and it has no devices.
      have empty : online = [] := by
        by_contra some
        exact failed (result.mpr ⟨some, accepted⟩)
      rw [empty] at here
      exact absurd here List.not_mem_nil
  · have refused : ∃ node ∈ online, ¬ NodeAccepts devices.list outcome node := by
      push Not at accepted
      exact accepted
    have undone : Drives state (¬ throttled ·) (devicesOnSome devices.list online) world
        final.2 :=
      AllOrNothing.loop_undone round (-enxio) world refused
    refine ⟨?_, fun zero => absurd (result.mp zero).2 accepted,
      fun _ imc mem here => undone.reaches _ (inside imc mem here),
      fun imc mem offline => undone.frame _ (devices.not_mem_devicesOnSome mem offline)⟩
    simpa only [nodeAccepts_iff] using result

end Contract

/-! ## The Haswell methods -/

/-- Some DIMM word of the channel has its enable bit set. -/
def Throttled (regs : RegFile 16) : Prop :=
  ∃ addr ∈ dimmOffsets, (regs addr).getLsbD 15 = true

/-- A device's method drives the device's own words to where its program does. -/
theorem drives_access {α : Type} {good : RegFile 16 → Prop} {program : RegProgram 16 α}
    (reaches : ∀ regs, good (program.run RegFile.exec regs).2) (pdev : PciDev)
    (bank : ImcBank) :
    Drives (fun pdev (bank : ImcBank) => bank pdev) good {pdev} bank
      ((program.hoist (ImcBank.access pdev)).run ImcBank.exec bank).2 := by
  rw [run_hoist_access]
  constructor
  · intro index mem
    rw [Set.mem_singleton_iff.mp mem]
    simpa using reaches (bank pdev)
  · intro other apart
    exact Function.update_of_ne (by simpa using apart) _ _

/-- The Haswell methods meet the contract of the walks; none of them reports an error. -/
theorem hswep_throttleContract :
    ThrottleContract ImcBank.exec (hswepE5ImcOps ImcBank.access)
      (fun pdev bank => bank pdev) Throttled (fun _ => 0) := by
  have enables : ∀ regs, Throttled (hswepImcEnableThrottle.run RegFile.exec regs).2 := by
    intro regs
    have mem : dimmOffset 0 ∈ dimmOffsets := by decide
    refine ⟨dimmOffset 0, mem, ?_⟩
    simp [hswepImcEnableThrottle, run_forDimms, mem]
  have disables : ∀ regs, ¬ Throttled (hswepImcDisableThrottle.run RegFile.exec regs).2 := by
    rintro regs ⟨addr, mem, set⟩
    rw [hswepImcDisableThrottle, run_forDimms] at set
    simp [mem] at set
  exact ⟨fun pdev bank => congrArg Prod.fst (run_hoist_access hswepImcEnableThrottle pdev bank),
    fun pdev bank _ => drives_access enables pdev bank,
    fun pdev bank => drives_access (fun _ => trivial) pdev bank,
    fun pdev bank => drives_access disables pdev bank⟩

/-- A two-socket machine with one channel on each socket: throttling succeeds. -/
theorem uncoreImcEnableThrottleAll_twoSockets :
    ((uncoreImcEnableThrottleAll (hswepE5ImcOps ImcBank.access)
      [⟨0, ⟨0x8086, 0x2FB4, 0x7f, 0⟩⟩, ⟨1, ⟨0x8086, 0x2FB4, 0xff, 0⟩⟩] [0, 1]).run
        ImcBank.exec (fun _ _ => 0)).1 = 0 :=
  (uncoreImcEnableThrottleAll_allOrNothing hswep_throttleContract
    ⟨[⟨0, ⟨0x8086, 0x2FB4, 0x7f, 0⟩⟩, ⟨1, ⟨0x8086, 0x2FB4, 0xff, 0⟩⟩], by decide⟩
    [0, 1] (by decide) (fun _ _ => 0)).1.mpr (by decide)

end NvmEmulator.Uncore
