/-
# Boxes by hardware unit

The id table numbers the units of a type on one socket, but nothing reads that number: a
box gets the next index of its type on the whole machine. So a lookup by unit and node
finds the device's box where the two numbers happen to agree.
-/

import NvmEmulator.Discovery.Boxes

namespace NvmEmulator.Discovery

open NvmEmulator.Kernel NvmEmulator.Semantics NvmEmulator.Uncore

/-- The hardware unit an entry of the table names. -/
def PciDeviceId.unit (ids : PciDeviceId) : Nat := uncorePciDevIdx ids.driverData

/-- A device of the table, with its type and a bus that belongs to a node. -/
structure OnNode (bus : PciBus) (driver : Driver) (ids : PciDeviceId) (type : PciBoxType)
    (pdev : PciDev) : Prop where
  entry : ids ∈ untilZeroIds hswepUncorePciIds
  named : ids.type? = some type
  here : pdev ∈ bus.devices
  described : ids.describes pdev
  mapped : driver.uncorePcibusToNodeid pdev.bus ≠ unmapped

/-- A node has no two devices of one entry. -/
def OnePerNode (bus : PciBus) (driver : Driver) : Prop :=
  ∀ ids type first second, OnNode bus driver ids type first →
    OnNode bus driver ids type second →
    driver.uncorePcibusToNodeid first.bus = driver.uncorePcibusToNodeid second.bus →
    first = second

/-- Looking up the unit of an entry on a node where a device of the entry is present finds
the box of that device. -/
def FoundByUnit (bus : PciBus) (driver : Driver) : Prop :=
  ∀ ids type pdev, OnNode bus driver ids type pdev →
    ∃ box, uncoreGetBox (driver.pciBoxes type).boxes ids.unit
        (driver.uncorePcibusToNodeid pdev.bus) = some box ∧
      box.pdev = some pdev

/-- The device stands where its unit number says among the devices of its type, in the order
in which the loops over the table and the bus find them. -/
def InPlace (bus : PciBus) (ids : PciDeviceId) (type : PciBoxType) (pdev : PciDev) : Prop :=
  (devicesOfType type (bus.found (untilZeroIds hswepUncorePciIds)))[ids.unit]? = some pdev

/-- A lookup by number and node finds a device's box just when the number is the device's
position. -/
theorem getBox_enumerate_iff {type : PciBoxType} {nodes : BitVec 8 → Nat}
    {devices : List PciDev} {pdev : PciDev} (range : nodes pdev.bus ≤ uncoreMaxSocket)
    (idx : Nat) :
    (∃ box, uncoreGetBox (enumerate type nodes devices) idx (nodes pdev.bus) = some box ∧
        box.pdev = some pdev) ↔
      devices[idx]? = some pdev := by
  rw [uncoreGetBox, if_neg (Nat.not_lt.mpr range)]
  constructor
  · rintro ⟨box, found, device⟩
    have keys : box.idx = idx ∧ box.nodeid = nodes pdev.bus := by
      simpa using List.find?_some found
    rcases mem_enumerate.mp (List.mem_of_find?_eq_some found) with ⟨position, inside, rfl⟩
    have same : position = idx := keys.1
    subst same
    rw [List.getElem?_eq_getElem inside]
    exact device
  · intro there
    rcases List.getElem?_eq_some_iff.mp there with ⟨inside, rfl⟩
    have listed : boxAt type nodes idx devices[idx] ∈ enumerate type nodes devices :=
      mem_enumerate.mpr ⟨idx, inside, rfl⟩
    refine ⟨_, find?_eq_some_of_unique listed (decide_eq_true ⟨rfl, rfl⟩) ?_, rfl⟩
    intro other there same
    exact eq_of_idx_eq there listed (of_decide_eq_true same).1

namespace Listed

variable {bus : PciBus} {driver : Driver}
  (listed : Listed (bus.found (untilZeroIds hswepUncorePciIds)) driver)
include listed

theorem getBox_iff {ids : PciDeviceId} {type : PciBoxType} {pdev : PciDev}
    (there : OnNode bus driver ids type pdev) :
    (∃ box, uncoreGetBox (driver.pciBoxes type).boxes ids.unit
        (driver.uncorePcibusToNodeid pdev.bus) = some box ∧ box.pdev = some pdev) ↔
      InPlace bus ids type pdev := by
  have range : driver.uncorePcibusToNodeid pdev.bus ≤ uncoreMaxSocket := by
    have node := (listed.nodes pdev.bus).resolve_right there.mapped
    rw [uncoreMaxSocket]
    omega
  rw [listed.boxes type]
  exact getBox_enumerate_iff range ids.unit

theorem foundByUnit_iff :
    FoundByUnit bus driver ↔
      ∀ ids type pdev, OnNode bus driver ids type pdev → InPlace bus ids type pdev := by
  constructor
  · intro found ids type pdev there
    exact (listed.getBox_iff there).mp (found ids type pdev there)
  · intro inPlace ids type pdev there
    exact (listed.getBox_iff there).mpr (inPlace ids type pdev there)

end Listed

/-- After `uncore_pci_init` succeeds, the boxes of the devices on nodes are found by their
units exactly when each such device stands where its unit says among the devices of its
type. -/
theorem uncorePciInit_foundByUnit_iff (host : Host) (krefs : PciDev → Int)
    (success : (uncorePciInit host (Driver.loaded krefs)).1 = 0) :
    FoundByUnit host.bus (uncorePciInit host (Driver.loaded krefs)).2 ↔
      ∀ ids type pdev,
        OnNode host.bus (uncorePciInit host (Driver.loaded krefs)).2 ids type pdev →
          InPlace host.bus ids type pdev :=
  ((meets_uncorePciInit host).done (ready_loaded krefs) success).foundByUnit_iff

/-- One socket with the first home agent and the first channel: both are found. -/
theorem uncorePciInit_foundByUnit_socket :
    FoundByUnit (socketHost 0x2FB0 fun _ => true).bus
      (uncorePciInit (socketHost 0x2FB0 fun _ => true) (Driver.loaded fun _ => 1)).2 := by
  apply (uncorePciInit_foundByUnit_iff (socketHost 0x2FB0 fun _ => true) (fun _ => 1)
    (by decide +kernel)).mpr
  have places : ∀ ids ∈ untilZeroIds hswepUncorePciIds,
      ∀ pdev ∈ (socketHost 0x2FB0 fun _ => true).bus.devices, ids.describes pdev →
        ∀ type ∈ pciTypes, ids.type? = some type →
          (devicesOfType type ((socketHost 0x2FB0 fun _ => true).bus.found
            (untilZeroIds hswepUncorePciIds)))[ids.unit]? = some pdev := by
    decide +kernel
  intro ids type pdev there
  exact places ids there.entry pdev there.here there.described type
    (List.mem_of_getElem? there.named) there.named

/-! ## Two sockets -/

/-- Two sockets, nodes 0 and 1, each with the first home agent. -/
def twoHomeAgents : Host where
  bus :=
    { devices :=
        [⟨pciVendorIdIntel, 0x2F1E, 0x7F, 0x80⟩, ⟨pciVendorIdIntel, 0x2F30, 0x7F, 0x90⟩,
          ⟨pciVendorIdIntel, 0x2F1E, 0xFF, 0x80⟩, ⟨pciVendorIdIntel, 0x2F30, 0xFF, 0x90⟩]
      nodup := by decide }
  x86Model := 63
  x86MaxCores := 2
  configDword := fun pdev offset =>
    (0, if offset = 0x54 then 0x8 else if pdev.bus = 0xFF then 1 else 0)
  kzalloc := fun _ => true
  procCreate := true
  uninitialised := 1

/-- The second socket's home agent has index 1, so its unit 0 is not found. -/
theorem not_foundByUnit_twoHomeAgents :
    ¬ ∀ (host : Host) (krefs : PciDev → Int),
      (uncorePciInit host (Driver.loaded krefs)).1 = 0 →
      OnePerNode host.bus (uncorePciInit host (Driver.loaded krefs)).2 →
      FoundByUnit host.bus (uncorePciInit host (Driver.loaded krefs)).2 := by
  intro claim
  have success : (uncorePciInit twoHomeAgents (Driver.loaded fun _ => 1)).1 = 0 := by
    decide +kernel
  have first : (uncorePciInit twoHomeAgents
      (Driver.loaded fun _ => 1)).2.uncorePcibusToNodeid 0x7F = 0 := by decide +kernel
  have second : (uncorePciInit twoHomeAgents
      (Driver.loaded fun _ => 1)).2.uncorePcibusToNodeid 0xFF = 1 := by decide +kernel
  have pairs : ∀ ids ∈ untilZeroIds hswepUncorePciIds, ∀ one ∈ twoHomeAgents.bus.devices,
      ∀ other ∈ twoHomeAgents.bus.devices, ids.describes one → ids.describes other →
        one = other ∨ (one.bus = 0x7F ∧ other.bus = 0xFF) ∨
          (one.bus = 0xFF ∧ other.bus = 0x7F) := by
    decide +kernel
  have single : OnePerNode twoHomeAgents.bus
      (uncorePciInit twoHomeAgents (Driver.loaded fun _ => 1)).2 := by
    intro ids type one other there there' same
    rcases pairs ids there.entry one there.here other there'.here there.described
      there'.described with equal | ⟨left, right⟩ | ⟨left, right⟩
    · exact equal
    · rw [left, right, first, second] at same
      exact absurd same (by decide)
    · rw [left, right, first, second] at same
      exact absurd same (by decide)
  have found := claim twoHomeAgents (fun _ => 1) success single
  have agent : OnNode twoHomeAgents.bus
      (uncorePciInit twoHomeAgents (Driver.loaded fun _ => 1)).2 (pmonDevice 0x2F30 .ha 0) .ha
      ⟨pciVendorIdIntel, 0x2F30, 0xFF, 0x90⟩ := by
    refine ⟨by decide, by decide, by decide, by decide, ?_⟩
    rw [second]
    decide
  have listed := (meets_uncorePciInit twoHomeAgents).done (ready_loaded fun _ => 1) success
  have inPlace := listed.foundByUnit_iff.mp found _ _ _ agent
  revert inPlace
  unfold InPlace
  decide +kernel

end NvmEmulator.Discovery
