/-
# The parts of discovery

What each part of `Discovery.Init` does, said once: an allocation succeeds or not, the
two loops over a table and the bus are one loop over the devices found, and these are
found once. The invariants of the later modules are established from these facts, and do
not look into the functions again.
-/

import Mathlib.Data.Fintype.Prod
import Mathlib.Data.List.Nodup
import NvmEmulator.Discovery.Init

namespace NvmEmulator.Discovery

open NvmEmulator.Kernel NvmEmulator.Semantics NvmEmulator.Uncore

/-! ## Allocation -/

namespace Driver

variable (driver : Driver)

/-- After a `kzalloc` that found memory. -/
def granted : Driver :=
  { driver with
    kzallocCalls := driver.kzallocCalls + 1
    allocated := driver.allocated ++ [driver.kzallocCalls] }

/-- After a `kzalloc` that found none. -/
def refused : Driver := { driver with kzallocCalls := driver.kzallocCalls + 1 }

end Driver

section Host

variable {host : Host}

/-- A new object is added if there is memory; if not, only the call has happened. -/
theorem meets_newObject {before done failed : Driver → Prop} {add : Nat → Driver → Driver}
    (granted : ∀ driver, before driver → host.kzalloc driver.kzallocCalls = true →
      done (add driver.kzallocCalls driver.granted))
    (refused : ∀ driver, before driver → host.kzalloc driver.kzallocCalls = false →
      failed driver.refused) :
    Call.Meets before (newObject host add) done failed where
  done {driver} start zero := by
    cases memory : host.kzalloc driver.kzallocCalls with
    | true =>
        have added : newObject host add driver = (0, add driver.kzallocCalls driver.granted) := by
          simp [newObject, Driver.kzalloc, Driver.granted, memory]
        rw [added]
        exact granted driver start memory
    | false =>
        have code : (newObject host add driver).1 = -enomem := by
          simp [newObject, Driver.kzalloc, memory]
        rw [code] at zero
        exact absurd zero (by decide)
  failed {driver} start code := by
    cases memory : host.kzalloc driver.kzallocCalls with
    | true =>
        have zero : (newObject host add driver).1 = 0 := by
          simp [newObject, Driver.kzalloc, memory]
        exact absurd zero code
    | false =>
        have left : (newObject host add driver).2 = driver.refused := by
          simp [newObject, Driver.kzalloc, Driver.refused, memory]
        rw [left]
        exact refused driver start memory

/-! ## The loops -/

/-- The type an entry of the table names. -/
def PciDeviceId.type? (ids : PciDeviceId) : Option PciBoxType :=
  pciTypes[uncorePciDevType ids.driverData]?

/-- Every entry names a type. -/
theorem isSome_type? : ∀ ids ∈ untilZeroIds hswepUncorePciIds, ids.type?.isSome := by decide

/-- The devices a table finds, with the entry that finds each, in the order of the two
loops. -/
def PciBus.found (bus : PciBus) (table : List PciDeviceId) : List (PciDeviceId × PciDev) :=
  table.flatMap fun ids => (bus.matching ids).map (Prod.mk ids)

theorem mem_found {bus : PciBus} {table : List PciDeviceId} {ids : PciDeviceId}
    {pdev : PciDev} :
    (ids, pdev) ∈ bus.found table ↔
      ids ∈ table ∧ pdev ∈ bus.devices ∧ ids.describes pdev := by
  simp [PciBus.found, PciBus.matching]

theorem whilePciDevice_forget (ids : PciDeviceId) (body : PciDev → Call Driver) :
    (fun driver =>
      ((whilePciDevice host.bus ids body none 0 driver).1,
        (whilePciDevice host.bus ids body none 0 driver).2.2)) =
      Call.each (visit body) (host.bus.matching ids) := by
  funext driver
  rw [← walkDevices_eq_each, whilePciDevice_eq]
  rfl

/-- The loops of `uncore_pci_init` -/
theorem each_uncorePciVisitAll (table : List PciDeviceId) :
    Call.each (uncorePciVisitAll host) table =
      Call.each (fun pair => visit (uncorePciVisit host pair.1) pair.2)
        (host.bus.found table) := by
  have rounds : uncorePciVisitAll host =
      fun ids => Call.each (visit (uncorePciVisit host ids)) (host.bus.matching ids) :=
    funext fun ids => whilePciDevice_forget ids (uncorePciVisit host ids)
  rw [rounds]
  exact Call.each_each (fun ids => visit (uncorePciVisit host ids)) host.bus.matching table

/-- The loops of `uncore_imc_init` -/
theorem each_uncoreImcVisitAll (table : List PciDeviceId) :
    Call.each (uncoreImcVisitAll host) table =
      Call.each (fun pair => visit (uncoreImcVisit host) pair.2) (host.bus.found table) := by
  have rounds : uncoreImcVisitAll host =
      fun ids => Call.each (visit (uncoreImcVisit host)) (host.bus.matching ids) :=
    funext fun ids => whilePciDevice_forget ids (uncoreImcVisit host)
  rw [rounds]
  exact Call.each_each (fun _ => visit (uncoreImcVisit host)) host.bus.matching table

/-- A round of the loop of `uncore_pci_init`, for an entry that names a type. -/
theorem uncorePciVisit_eq {ids : PciDeviceId} {type : PciBoxType} {driver : Driver}
    (pdev : PciDev) (types : driver.uncorePciType = pciTypes) (named : ids.type? = some type) :
    uncorePciVisit host ids pdev driver =
      ((Call.act (Driver.getDevice pdev)).andThen
        (newObject host fun address driver => driver.addPciBox type pdev address)) driver := by
  have entry : (driver.getDevice pdev).uncorePciType[uncorePciDevType ids.driverData]? =
      some type := (congrArg (·[uncorePciDevType ids.driverData]?) types).trans named
  rw [uncorePciVisit, uncorePciNewBox, entry]
  rfl

theorem uncorePciTypesInit_eq {driver : Driver} (types : driver.uncorePciType = pciTypes) :
    uncorePciTypesInit driver =
      { driver with pciBoxes := fun type => ⟨(driver.pciBoxes type).numBoxes, []⟩ } := by
  rw [uncorePciTypesInit, types]
  simp only [pciTypes, List.foldl, Driver.setPciBoxList, Driver.setPciBoxes, Driver.mk.injEq,
    true_and, and_true]
  refine ⟨types, ?_⟩
  funext type
  cases type <;> rfl

/-! ## What a table finds

An entry of a table names ids that no other entry names, so a device is found once. -/

/-- The ids of an entry. -/
def PciDeviceId.ids (entry : PciDeviceId) : BitVec 16 × BitVec 16 := (entry.vendor, entry.device)

theorem describes_iff {entry : PciDeviceId} {pdev : PciDev} :
    entry.describes pdev ↔ (pdev.vendor, pdev.device) = entry.ids := by
  simp [PciDeviceId.describes, PciDeviceId.ids]

theorem nodup_matching (bus : PciBus) (ids : PciDeviceId) : (bus.matching ids).Nodup :=
  bus.nodup.filter _

theorem nodup_found {bus : PciBus} {table : List PciDeviceId}
    (distinct : (table.map PciDeviceId.ids).Nodup) :
    ((bus.found table).map Prod.snd).Nodup := by
  have flat : (bus.found table).map Prod.snd = table.flatMap bus.matching := by
    rw [PciBus.found, List.map_flatMap]
    simp [Function.comp_def]
  rw [flat, List.nodup_flatMap]
  constructor
  · intro ids _
    exact nodup_matching bus ids
  · apply (List.pairwise_map.mp distinct).imp
    intro first second apart pdev here there
    exact apart ((describes_iff.mp (List.mem_filter.mp here).2).symm.trans
      (describes_iff.mp (List.mem_filter.mp there).2))

/-- There are 65536 devices of one kind at most: one for each function of each bus. -/
theorem length_matching_le (bus : PciBus) (ids : PciDeviceId) :
    (bus.matching ids).length ≤ 2 ^ 16 := by
  let place (pdev : PciDev) : Fin (2 ^ 8) × Fin (2 ^ 8) := (pdev.bus.toFin, pdev.devfn.toFin)
  have apart : ((bus.matching ids).map place).Nodup := by
    apply List.Nodup.map_on _ (nodup_matching bus ids)
    intro first here second there same
    have kind := (describes_iff.mp (List.mem_filter.mp here).2).trans
      (describes_iff.mp (List.mem_filter.mp there).2).symm
    cases first
    cases second
    simp only [place, Prod.mk.injEq, BitVec.toFin_inj] at kind same
    simp only [PciDev.mk.injEq]
    exact ⟨kind.1, kind.2, same.1, same.2⟩
  have count := apart.length_le_card
  rw [List.length_map, Fintype.card_prod, Fintype.card_fin] at count
  exact count

theorem length_found_le (bus : PciBus) (table : List PciDeviceId) :
    (bus.found table).length ≤ table.length * 2 ^ 16 := by
  induction table with
  | nil => exact Nat.zero_le _
  | cons ids rest ih =>
      have here := length_matching_le bus ids
      rw [PciBus.found, List.flatMap_cons, List.length_append, List.length_map, List.length_cons]
      rw [PciBus.found] at ih
      omega

/-! ## The bus mapping -/

/-- What the mapping step can leave: a node, or no node. -/
def IsNodeTable (table : BitVec 8 → Nat) : Prop :=
  ∀ bus, table bus < 8 ∨ table bus = unmapped

/-- The driver with another node table. -/
def Driver.withNodes (driver : Driver) (table : BitVec 8 → Nat) : Driver :=
  { driver with uncorePcibusToNodeid := table }

/-- Both registers of a UBOX can be read. -/
def Host.Readable (host : Host) (ubox : PciDev) : Prop :=
  (host.configDword ubox 0x40).1 = 0 ∧ (host.configDword ubox 0x54).1 = 0

/-- The UBOX devices. -/
def uboxIds : PciDeviceId := ⟨pciVendorIdIntel, 0x2F1E, 0⟩

/-- Whether the bus mapping succeeds: every UBOX can be read, and if there is none, `err`
happens to hold 0. -/
def Host.Mapped (host : Host) : Prop :=
  (∀ ubox ∈ host.bus.matching uboxIds, host.Readable ubox) ∧
    (host.bus.matching uboxIds = [] → host.uninitialised = 0)

theorem pciDevPut_getDevice (pdev : PciDev) (driver : Driver) :
    (driver.getDevice pdev).pciDevPut (some pdev) = driver := by
  simp only [Driver.getDevice, Driver.pciDevPut, Function.update_self, Function.update_idem,
    add_sub_cancel_right, Function.update_eq_self]

end Host

end NvmEmulator.Discovery
