/-
# Integrated memory controllers

`uncore_imc.c` keeps one entry per memory-controller channel and throttles the
channels of a node, or of all online nodes, through three CPU-specific methods.
The list walks are embedded over any kind of access, so they serve the abstract
device below, the Haswell register file, and the interleavings with the `/proc`
handler alike.
-/

import NvmEmulator.Uncore.Box

namespace NvmEmulator.Uncore

open NvmEmulator.Kernel NvmEmulator.Semantics

/-- `struct uncore_imc` -/
structure UncoreImc where
  nodeid : Nat
  pdev : PciDev
  deriving DecidableEq

/-- The list `uncore_imc_devices`; discovery makes one entry per PCI device. -/
structure ImcDevices where
  list : List UncoreImc
  nodup : (list.map UncoreImc.pdev).Nodup

/-- `struct uncore_imc_ops` -/
structure UncoreImcOps (Op : Type) (Res : Op → Type) where
  setThreshold : PciDev → Nat → Program Op Res Int
  enableThrottle : PciDev → Program Op Res Int
  disableThrottle : PciDev → Program Op Res Unit

section Generic

variable {Op : Type} {Res : Op → Type}

/-- The walk `list_for_each_entry(imc, &uncore_imc_devices, next)` over the
entries of a node that leaves at the first error; `ret` is the walk's variable. -/
def forNodeDevices (nodeid : Nat) (body : PciDev → Program Op Res Int) :
    List UncoreImc → Int → Program Op Res Int
  | [], ret => pure ret
  | imc :: rest, ret =>
      if imc.nodeid = nodeid then do
        let ret ← body imc.pdev
        if ret = 0 then forNodeDevices nodeid body rest ret else pure ret
      else forNodeDevices nodeid body rest ret

variable (ops : UncoreImcOps Op Res) (devices : List UncoreImc)

/-- `uncore_imc_set_threshold` -/
def uncoreImcSetThreshold (nodeid threshold : Nat) : Program Op Res Int :=
  if nodeid > uncoreMaxSocket then pure (-einval)
  else forNodeDevices nodeid (ops.setThreshold · threshold) devices (-enxio)

/-- `uncore_imc_disable_throttle` -/
def uncoreImcDisableThrottle (nodeid : Nat) : Program Op Res Unit :=
  if nodeid > uncoreMaxSocket then pure ()
  else Program.forEach
    (fun imc => if imc.nodeid = nodeid then ops.disableThrottle imc.pdev else pure ())
    devices

/-- `uncore_imc_enable_throttle` -/
def uncoreImcEnableThrottle (nodeid : Nat) : Program Op Res Int :=
  if nodeid > uncoreMaxSocket then pure (-einval)
  else forNodeDevices nodeid
    (fun pdev => do
      let ret ← ops.enableThrottle pdev
      if ret ≠ 0 then
        uncoreImcDisableThrottle ops devices nodeid
        pure ret
      else pure ret)
    devices (-enxio)

/-- `uncore_imc_set_threshold_all`; `online` are the nodes `for_each_online_node`
visits. -/
def uncoreImcSetThresholdAll (online : List Nat) (threshold : Nat) : Program Op Res Int :=
  Program.untilError (fun node => uncoreImcSetThreshold ops devices node threshold)
    online (-enxio)

/-- `uncore_imc_disable_throttle_all` -/
def uncoreImcDisableThrottleAll (online : List Nat) : Program Op Res Unit :=
  Program.forEach (uncoreImcDisableThrottle ops devices) online

/-- `uncore_imc_enable_throttle_all` -/
def uncoreImcEnableThrottleAll (online : List Nat) : Program Op Res Int :=
  Program.untilError
    (fun node => do
      let ret ← uncoreImcEnableThrottle ops devices node
      if ret ≠ 0 then
        uncoreImcDisableThrottleAll ops devices online
        pure ret
      else pure ret)
    online (-enxio)

end Generic

/-! ## The walks as loops over a node's devices -/

section Walks

variable {Op : Type} {Res : Op → Type} (ops : UncoreImcOps Op Res)
  (devices : List UncoreImc)

/-- The PCI devices of a node, in list order. -/
def devicesOn (nodeid : Nat) : List PciDev :=
  (devices.filter (·.nodeid = nodeid)).map UncoreImc.pdev

variable {devices}

theorem mem_devicesOn {nodeid : Nat} {pdev : PciDev} :
    pdev ∈ devicesOn devices nodeid ↔ ∃ imc ∈ devices, imc.nodeid = nodeid ∧ imc.pdev = pdev := by
  simp [devicesOn, and_assoc]

theorem forNodeDevices_eq (nodeid : Nat) (body : PciDev → Program Op Res Int)
    (ret : Int) :
    forNodeDevices nodeid body devices ret =
      Program.untilError body (devicesOn devices nodeid) ret := by
  induction devices generalizing ret with
  | nil => rfl
  | cons imc rest ih =>
      by_cases here : imc.nodeid = nodeid
      · have split : devicesOn (imc :: rest) nodeid =
            imc.pdev :: devicesOn rest nodeid := by
          simp [devicesOn, here]
        rw [forNodeDevices, if_pos here, split, Program.untilError_cons]
        simp only [ih, Program.bind_eq, Program.pure_eq_ret]
      · have skip : devicesOn (imc :: rest) nodeid = devicesOn rest nodeid := by
          simp [devicesOn, here]
        rw [forNodeDevices, if_neg here, skip, ih]

theorem uncoreImcDisableThrottle_eq {nodeid : Nat} (bound : nodeid ≤ uncoreMaxSocket) :
    uncoreImcDisableThrottle ops devices nodeid =
      Program.forEach ops.disableThrottle (devicesOn devices nodeid) := by
  rw [uncoreImcDisableThrottle, if_neg (Nat.not_lt.mpr bound)]
  induction devices with
  | nil => rfl
  | cons imc rest ih =>
      by_cases here : imc.nodeid = nodeid
      · simp [devicesOn, here] at ih ⊢
        rw [ih]
      · simp [devicesOn, here] at ih ⊢
        rw [ih]

end Walks

/-! ## What the walks inherit from the methods -/

section Closed

variable {Op : Type} {Res : Op → Type} {ops : UncoreImcOps Op Res}
  {devices : List UncoreImc} {holds : (α : Type) → Program Op Res α → Prop}
  (closed : Program.Closed holds)
include closed

theorem closed_uncoreImcDisableThrottle {nodeid : Nat}
    (disable : ∀ pdev, holds _ (ops.disableThrottle pdev)) :
    holds _ (uncoreImcDisableThrottle ops devices nodeid) := by
  by_cases bound : nodeid ≤ uncoreMaxSocket
  · rw [uncoreImcDisableThrottle_eq ops bound]
    exact closed.forEach fun pdev _ => disable pdev
  · rw [uncoreImcDisableThrottle, if_pos (Nat.not_le.mp bound)]
    exact closed.ret ()

theorem closed_uncoreImcDisableThrottleAll {online : List Nat}
    (disable : ∀ pdev, holds _ (ops.disableThrottle pdev)) :
    holds _ (uncoreImcDisableThrottleAll ops devices online) :=
  closed.forEach fun _ _ => closed_uncoreImcDisableThrottle closed disable

theorem closed_uncoreImcSetThreshold {nodeid threshold : Nat}
    (set : ∀ pdev, holds _ (ops.setThreshold pdev threshold)) :
    holds _ (uncoreImcSetThreshold ops devices nodeid threshold) := by
  rw [uncoreImcSetThreshold, forNodeDevices_eq]
  split
  · exact closed.ret _
  · exact closed.untilError fun pdev _ => set pdev

theorem closed_uncoreImcSetThresholdAll {online : List Nat} {threshold : Nat}
    (set : ∀ pdev, holds _ (ops.setThreshold pdev threshold)) :
    holds _ (uncoreImcSetThresholdAll ops devices online threshold) :=
  closed.untilError fun _ _ => closed_uncoreImcSetThreshold closed set

theorem closed_uncoreImcEnableThrottle {nodeid : Nat}
    (enable : ∀ pdev, holds _ (ops.enableThrottle pdev))
    (disable : ∀ pdev, holds _ (ops.disableThrottle pdev)) :
    holds _ (uncoreImcEnableThrottle ops devices nodeid) := by
  rw [uncoreImcEnableThrottle, forNodeDevices_eq]
  split
  · exact closed.ret _
  · apply closed.untilError
    intro pdev _
    apply closed.bind (enable pdev)
    intro ret
    split
    · exact closed.bind (closed_uncoreImcDisableThrottle closed disable) fun _ => closed.ret _
    · exact closed.ret _

theorem closed_uncoreImcEnableThrottleAll {online : List Nat}
    (enable : ∀ pdev, holds _ (ops.enableThrottle pdev))
    (disable : ∀ pdev, holds _ (ops.disableThrottle pdev)) :
    holds _ (uncoreImcEnableThrottleAll ops devices online) := by
  apply closed.untilError
  intro node _
  apply closed.bind (closed_uncoreImcEnableThrottle closed enable disable)
  intro ret
  split
  · exact closed.bind (closed_uncoreImcDisableThrottleAll closed disable) fun _ => closed.ret _
  · exact closed.ret _

end Closed

end NvmEmulator.Uncore
