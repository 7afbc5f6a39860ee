/-
# Channels counted and channels throttled

The PMU counts a memory channel through a box, found with `HSWEP_UNCORE_PCI_IDS`; a
throttling call reaches a channel through `uncore_imc_devices`, found with
`HSWEP_E5_IMC`. The comment above the second table says that it holds the same PCI
devices as the first. It lacks two of them: the devices 2FD4 and 2FD5, channels 2 and 3
of the second controller.
-/

import NvmEmulator.Discovery.Boxes

namespace NvmEmulator.Discovery

open NvmEmulator.Kernel NvmEmulator.Semantics NvmEmulator.Uncore

/-- The entries on the list `uncore_imc_devices`. -/
def Driver.imcDevices (driver : Driver) : List UncoreImc :=
  driver.uncoreImcDevices.map Slab.object

/-- The boxes of the IMC type. -/
def Driver.imcBoxes (driver : Driver) : List UncoreBox := (driver.pciBoxes .imc).boxes

/-- The calls of `uncore_init` that find devices, in order. -/
def discovery (host : Host) : Call Driver :=
  (uncorePciInit host).andThen ((uncoreCpuInit host).andThen (uncoreImcInit host))

/-- The channels that can be throttled are those that are counted. -/
structure Covered (driver : Driver) : Prop where
  same : ∀ pdev, (∃ imc ∈ driver.imcDevices, imc.pdev = pdev) ↔
    ∃ box ∈ driver.imcBoxes, box.pdev = some pdev
  once : (driver.imcDevices.map UncoreImc.pdev).Nodup ∧
    (driver.imcBoxes.map UncoreBox.pdev).Nodup
  nodes : ∀ imc ∈ driver.imcDevices, ∀ box ∈ driver.imcBoxes, box.pdev = some imc.pdev →
    imc.nodeid = box.nodeid
  /-- A walk over a node's devices, which every throttling call is, reaches the channels
  that have a box on the node. -/
  reached : ∀ box ∈ driver.imcBoxes, ∀ pdev, box.pdev = some pdev →
    pdev ∈ devicesOn driver.imcDevices box.nodeid

/-! ## The channel list -/

/-- The channel list holds the devices found so far, beside the box lists. -/
structure Discovered (bus : PciBus) (pairs : List (PciDeviceId × PciDev)) (driver : Driver) :
    Prop where
  nodes : IsNodeTable driver.uncorePcibusToNodeid
  boxes : driver.imcBoxes = enumerate .imc driver.uncorePcibusToNodeid
    (devicesOfType .imc (bus.found (untilZeroIds hswepUncorePciIds)))
  channels : driver.imcDevices =
    (pairs.map Prod.snd).map fun pdev => ⟨driver.uncorePcibusToNodeid pdev.bus, pdev⟩

section Host

variable {host : Host} {bus : PciBus} {pairs : List (PciDeviceId × PciDev)}

theorem Discovered.addImcDevice {driver : Driver} (found : Discovered bus pairs driver)
    (ids : PciDeviceId) (pdev : PciDev) (address : Nat) :
    Discovered bus (pairs ++ [(ids, pdev)]) (driver.granted.addImcDevice pdev address) where
  nodes := found.nodes
  boxes := found.boxes
  channels := by
    have added : (driver.granted.addImcDevice pdev address).imcDevices =
        driver.imcDevices ++ [⟨driver.uncorePcibusToNodeid pdev.bus, pdev⟩] :=
      List.map_append
    rw [added, found.channels, List.map_append, List.map_append]
    rfl

theorem meets_uncoreImcVisit (ids : PciDeviceId) (pdev : PciDev) :
    Call.Meets (Discovered bus pairs) (visit (uncoreImcVisit host) pdev)
      (Discovered bus (pairs ++ [(ids, pdev)])) fun _ => True := by
  apply Call.Meets.andThen (Discovered bus pairs)
  · exact .act fun driver found => ⟨found.nodes, found.boxes, found.channels⟩
  · apply Call.Meets.andThen (Discovered bus (pairs ++ [(ids, pdev)]))
    · have round : uncoreImcVisit host pdev =
          (Call.act (Driver.getDevice pdev)).andThen (uncoreImcNewDevice host pdev) := rfl
      rw [round]
      apply Call.Meets.andThen (Discovered bus pairs)
      · exact .act fun driver found => ⟨found.nodes, found.boxes, found.channels⟩
      · exact meets_newObject (fun driver found _ => found.addImcDevice ids pdev _)
          fun _ _ _ => trivial
    · exact .act fun driver found => ⟨found.nodes, found.boxes, found.channels⟩

theorem meets_uncoreImcInit :
    Call.Meets (Discovered bus []) (uncoreImcInit host)
      (Discovered bus (host.bus.found (untilZeroVendor hswepE5Imc))) fun _ => True := by
  apply Call.Meets.andThen (Discovered bus [])
  · split
    · exact .ret
    · exact .fail (by decide) fun _ _ => trivial
  · rw [each_uncoreImcVisitAll]
    apply Call.Meets.onError (fun _ => True) _ fun _ _ => trivial
    apply Call.Meets.each (Discovered bus)
    rintro earlier ⟨ids, pdev⟩ later _
    exact meets_uncoreImcVisit ids pdev

/-! ## MSR boxes in between -/

/-- The boxes of an MSR type. -/
theorem meets_uncoreMsrNewBoxes (type : MsrBoxType) :
    Call.Meets (Discovered bus pairs) (uncoreMsrNewBoxes host type) (Discovered bus pairs)
      fun _ => True := by
  apply Call.Meets.read fun now =>
    Call.each (uncoreMsrNewBox host type) (List.range (now.msrBoxes type).numBoxes)
  intro now
  apply Call.Meets.imp _ (fun _ start => start.2) (fun _ found => found) fun _ left => left
  apply Call.Meets.loop
  intro idx _
  exact meets_newObject (fun driver found _ => ⟨found.nodes, found.boxes, found.channels⟩)
    fun _ _ _ => trivial

theorem meets_uncoreCpuInit :
    Call.Meets (Discovered bus pairs) (uncoreCpuInit host) (Discovered bus pairs)
      fun _ => True := by
  apply Call.Meets.andThen (Discovered bus pairs)
  · split
    · apply Call.Meets.act
      intro driver found
      rw [hswepCpuInit]
      split <;> exact ⟨found.nodes, found.boxes, found.channels⟩
    · exact .fail (by decide) fun _ _ => trivial
  · apply Call.Meets.andThen (Discovered bus pairs)
    · apply Call.Meets.act
      intro driver found
      rw [uncoreMsrTypesInit]
      exact List.foldlRecOn driver.uncoreMsrType _ found
        fun driver found type _ => ⟨found.nodes, found.boxes, found.channels⟩
    · apply Call.Meets.onError (fun _ => True) _ fun _ _ => trivial
      apply Call.Meets.read fun now => Call.each (uncoreMsrNewBoxes host) now.uncoreMsrType
      intro now
      apply Call.Meets.imp _ (fun _ start => start.2) (fun _ found => found) fun _ left => left
      exact .loop fun type _ => meets_uncoreMsrNewBoxes type

theorem meets_discovery :
    Call.Meets Ready (discovery host)
      (Discovered host.bus (host.bus.found (untilZeroVendor hswepE5Imc))) fun _ => True := by
  apply Call.Meets.andThen (Discovered host.bus [])
  · apply (meets_uncorePciInit host).imp (fun _ ready => ready) _ fun _ _ => trivial
    intro driver listed
    exact ⟨listed.nodes, listed.boxes .imc, congrArg (List.map Slab.object) listed.channels⟩
  · exact meets_uncoreCpuInit.andThen (Discovered host.bus []) meets_uncoreImcInit

/-! ## The two tables -/

/-- The ids of the entries that name the IMC type. -/
def countedIds : List (BitVec 16 × BitVec 16) :=
  ((untilZeroIds hswepUncorePciIds).filter (·.type? = some .imc)).map PciDeviceId.ids

/-- The ids of the entries of the second table. -/
def throttledIds : List (BitVec 16 × BitVec 16) :=
  (untilZeroVendor hswepE5Imc).map PciDeviceId.ids

theorem countedIds_of_throttledIds {kind : BitVec 16 × BitVec 16}
    (throttled : kind ∈ throttledIds) : kind ∈ countedIds := by
  have all : throttledIds.all (countedIds.contains ·) := by decide
  exact List.contains_iff_mem.mp (List.all_eq_true.mp all kind throttled)

theorem throttledIds_of_countedIds {kind : BitVec 16 × BitVec 16}
    (counted : kind ∈ countedIds) :
    kind ∈ throttledIds ∨
      kind = (pciVendorIdIntel, 0x2FD4) ∨ kind = (pciVendorIdIntel, 0x2FD5) := by
  have all : countedIds.all fun kind => throttledIds.contains kind ||
      (kind == (pciVendorIdIntel, 0x2FD4) || kind == (pciVendorIdIntel, 0x2FD5)) := by decide
  simpa using List.all_eq_true.mp all kind counted

theorem missing_of_throttledIds {kind : BitVec 16 × BitVec 16}
    (throttled : kind ∈ throttledIds) :
    kind ≠ (pciVendorIdIntel, 0x2FD4) ∧ kind ≠ (pciVendorIdIntel, 0x2FD5) := by
  have all : throttledIds.all fun kind =>
      kind != (pciVendorIdIntel, 0x2FD4) && kind != (pciVendorIdIntel, 0x2FD5) := by decide
  simpa using List.all_eq_true.mp all kind throttled

theorem mem_countedIds :
    (pciVendorIdIntel, 0x2FD4) ∈ countedIds ∧ (pciVendorIdIntel, 0x2FD5) ∈ countedIds := by
  decide

theorem nodup_throttledIds : throttledIds.Nodup := by decide

theorem mem_counted {pdev : PciDev} :
    pdev ∈ devicesOfType .imc (bus.found (untilZeroIds hswepUncorePciIds)) ↔
      pdev ∈ bus.devices ∧ (pdev.vendor, pdev.device) ∈ countedIds := by
  simp only [Listed.mem_devicesOfType, countedIds, List.mem_map, List.mem_filter,
    decide_eq_true_eq, describes_iff]
  constructor
  · rintro ⟨ids, entry, named, there, described⟩
    exact ⟨there, ids, ⟨entry, named⟩, described.symm⟩
  · rintro ⟨there, ids, ⟨entry, named⟩, described⟩
    exact ⟨ids, entry, named, there, described.symm⟩

theorem mem_throttled {pdev : PciDev} :
    pdev ∈ (bus.found (untilZeroVendor hswepE5Imc)).map Prod.snd ↔
      pdev ∈ bus.devices ∧ (pdev.vendor, pdev.device) ∈ throttledIds := by
  simp only [List.mem_map, Prod.exists, exists_eq_right, mem_found, throttledIds, describes_iff]
  constructor
  · rintro ⟨ids, entry, there, described⟩
    exact ⟨there, ids, entry, described.symm⟩
  · rintro ⟨there, ids, entry, described⟩
    exact ⟨ids, entry, there, described.symm⟩

end Host

namespace Discovered

variable {bus : PciBus} {driver : Driver}
  (found : Discovered bus (bus.found (untilZeroVendor hswepE5Imc)) driver)
include found

theorem mem_imcDevices {imc : UncoreImc} :
    imc ∈ driver.imcDevices ↔
      imc.pdev ∈ bus.devices ∧ (imc.pdev.vendor, imc.pdev.device) ∈ throttledIds ∧
        imc.nodeid = driver.uncorePcibusToNodeid imc.pdev.bus := by
  rw [found.channels, List.mem_map]
  constructor
  · rintro ⟨pdev, here, rfl⟩
    have known := mem_throttled.mp here
    exact ⟨known.1, known.2, rfl⟩
  · rintro ⟨there, kind, node⟩
    refine ⟨imc.pdev, mem_throttled.mpr ⟨there, kind⟩, ?_⟩
    rw [← node]

theorem exists_imcBoxes {pdev : PciDev} :
    (∃ box ∈ driver.imcBoxes, box.pdev = some pdev) ↔
      pdev ∈ bus.devices ∧ (pdev.vendor, pdev.device) ∈ countedIds := by
  have listed : (∃ box ∈ driver.imcBoxes, box.pdev = some pdev) ↔
      some pdev ∈ driver.imcBoxes.map UncoreBox.pdev := List.mem_map.symm
  rw [listed, found.boxes, map_pdev_enumerate, List.mem_map_of_injective (Option.some_injective _),
    mem_counted]

theorem nodeid_of_imcBoxes {box : UncoreBox} {pdev : PciDev} (here : box ∈ driver.imcBoxes)
    (device : box.pdev = some pdev) : box.nodeid = driver.uncorePcibusToNodeid pdev.bus := by
  rw [found.boxes] at here
  rcases mem_enumerate.mp here with ⟨idx, inside, rfl⟩
  cases device
  rfl

/-- Every entry is listed once, with the node of its bus, whatever the machine. -/
theorem once : (driver.imcDevices.map UncoreImc.pdev).Nodup ∧
    (driver.imcBoxes.map UncoreBox.pdev).Nodup := by
  constructor
  · have devices : driver.imcDevices.map UncoreImc.pdev =
        (bus.found (untilZeroVendor hswepE5Imc)).map Prod.snd := by
      rw [found.channels, List.map_map]
      exact List.map_id _
    rw [devices]
    exact nodup_found nodup_throttledIds
  · rw [found.boxes, map_pdev_enumerate]
    exact (Listed.nodup_devicesOfType bus .imc).map (Option.some_injective _)

theorem covered_iff : Covered driver ↔
    ∀ pdev ∈ bus.devices, (pdev.vendor, pdev.device) ≠ (pciVendorIdIntel, 0x2FD4) ∧
      (pdev.vendor, pdev.device) ≠ (pciVendorIdIntel, 0x2FD5) := by
  constructor
  · intro covered pdev there
    by_cases counted : (pdev.vendor, pdev.device) ∈ countedIds
    · rcases (covered.same pdev).mpr (found.exists_imcBoxes.mpr ⟨there, counted⟩) with
        ⟨imc, here, rfl⟩
      exact missing_of_throttledIds (found.mem_imcDevices.mp here).2.1
    · exact ⟨fun same => counted (same ▸ mem_countedIds.1),
        fun same => counted (same ▸ mem_countedIds.2)⟩
  · intro none
    have throttled : ∀ pdev ∈ bus.devices, (pdev.vendor, pdev.device) ∈ countedIds →
        (pdev.vendor, pdev.device) ∈ throttledIds := by
      intro pdev there counted
      rcases throttledIds_of_countedIds counted with listed | second | third
      · exact listed
      · exact absurd second (none pdev there).1
      · exact absurd third (none pdev there).2
    refine ⟨?_, found.once, ?_, ?_⟩
    · intro pdev
      rw [found.exists_imcBoxes]
      constructor
      · rintro ⟨imc, here, rfl⟩
        have known := found.mem_imcDevices.mp here
        exact ⟨known.1, countedIds_of_throttledIds known.2.1⟩
      · rintro ⟨there, counted⟩
        exact ⟨⟨driver.uncorePcibusToNodeid pdev.bus, pdev⟩,
          found.mem_imcDevices.mpr ⟨there, throttled pdev there counted, rfl⟩, rfl⟩
    · intro imc here box listed device
      rw [(found.mem_imcDevices.mp here).2.2, found.nodeid_of_imcBoxes listed device]
    · intro box here pdev device
      have known := found.exists_imcBoxes.mp ⟨box, here, device⟩
      rw [mem_devicesOn, found.nodeid_of_imcBoxes here device]
      exact ⟨⟨driver.uncorePcibusToNodeid pdev.bus, pdev⟩,
        found.mem_imcDevices.mpr ⟨known.1, throttled pdev known.1 known.2, rfl⟩, rfl, rfl⟩

end Discovered

/-- Discovery is what a successful `uncore_init` amounts to. -/
theorem uncoreInit_discovery {host : Host} {driver : Driver}
    (success : (uncoreInit host driver).1 = 0) :
    discovery host driver = uncoreInit host driver := by
  have whole := Call.onError_of_zero success
  rw [uncoreInit, whole] at success ⊢
  have pci := Call.andThen_of_zero success
  rw [pci.2] at success ⊢
  have outer := Call.onError_of_zero success
  rw [outer] at success ⊢
  have cpu := Call.andThen_of_zero success
  rw [cpu.2] at success ⊢
  have inner := Call.onError_of_zero success
  rw [inner] at success ⊢
  have imc := Call.andThen_of_zero success
  rw [imc.2] at success ⊢
  rw [discovery, Call.andThen, if_pos pci.1, Call.andThen, if_pos cpu.1]
  exact Prod.ext (imc.1.trans success.symm) rfl

/-- After both discoveries succeed, the channels that can be throttled are those that are
counted if and only if the machine has no device 2FD4 and no device 2FD5. -/
theorem discovery_covered_iff (host : Host) (krefs : PciDev → Int)
    (success : (discovery host (Driver.loaded krefs)).1 = 0) :
    Covered (discovery host (Driver.loaded krefs)).2 ↔
      ∀ pdev ∈ host.bus.devices, (pdev.vendor, pdev.device) ≠ (pciVendorIdIntel, 0x2FD4) ∧
        (pdev.vendor, pdev.device) ≠ (pciVendorIdIntel, 0x2FD5) :=
  (meets_discovery.done (ready_loaded krefs) success).covered_iff

theorem discovery_covered_socket :
    Covered (discovery (socketHost 0x2FB4 fun _ => true) (Driver.loaded fun _ => 1)).2 :=
  (discovery_covered_iff (socketHost 0x2FB4 fun _ => true) (fun _ => 1) (by decide +kernel)).mpr
    (by decide)

/-- A machine whose one channel is the device 2FD4: it is counted and never throttled. -/
theorem not_covered_socket :
    (discovery (socketHost 0x2FD4 fun _ => true) (Driver.loaded fun _ => 1)).1 = 0 ∧
      ¬ Covered (discovery (socketHost 0x2FD4 fun _ => true) (Driver.loaded fun _ => 1)).2 := by
  constructor
  · decide +kernel
  · intro covered
    have none : (discovery (socketHost 0x2FD4 fun _ => true)
        (Driver.loaded fun _ => 1)).2.imcDevices = [] := by decide +kernel
    have counted : ∃ box ∈ (discovery (socketHost 0x2FD4 fun _ => true)
        (Driver.loaded fun _ => 1)).2.imcBoxes,
        box.pdev = some ⟨pciVendorIdIntel, 0x2FD4, 0xFF, 0xA0⟩ := by decide +kernel
    rcases (covered.same _).mpr counted with ⟨imc, listed, _⟩
    rw [none] at listed
    exact absurd listed List.not_mem_nil

/-- The entries that are listed for an online node are on a node that the throttling calls
take: those of a bus without a node have the number -1, which no online node has. -/
theorem discovery_mapped (host : Host) (krefs : PciDev → Int)
    (success : (discovery host (Driver.loaded krefs)).1 = 0) {machine : Emulate.Machine}
    (listed : machine.imcDevices.list = (discovery host (Driver.loaded krefs)).2.imcDevices)
    (numbered : unmapped ∉ machine.onlineNodes) : Emulate.Mapped machine := by
  intro imc here online
  rw [listed] at here
  have found := meets_discovery.done (ready_loaded krefs) success
  have node := (found.mem_imcDevices.mp here).2.2
  rcases found.nodes imc.pdev.bus with near | apart
  · rw [node, uncoreMaxSocket]
    omega
  · rw [node, apart] at online
    exact absurd online numbered

end NvmEmulator.Discovery
