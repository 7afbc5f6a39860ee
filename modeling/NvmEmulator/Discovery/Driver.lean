/-
# What discovery works on

`uncore_init` finds the PCI devices it will drive, allocates a box for each PMON
unit and an entry for each memory channel, and keeps a reference on every device it
will use. This module holds what the kernel gives it (the devices on the buses, their
configuration space, `kzalloc`), the driver's data, and the loop around
`pci_get_device`, which moves a reference along as it goes.
-/

import Mathlib.Data.Int.Basic
import Mathlib.Data.List.Nodup
import Mathlib.Logic.Function.Basic
import NvmEmulator.Semantics.Call
import NvmEmulator.Uncore.Imc

namespace NvmEmulator.Discovery

open NvmEmulator.Kernel NvmEmulator.Semantics NvmEmulator.Uncore

/-! ## The machine -/

/-- The PCI devices of the machine, in the order of the kernel's list. -/
structure PciBus where
  devices : List PciDev
  nodup : devices.Nodup

/-- What one loading of the module meets: the devices, and how every call into the
kernel that can fail turns out. -/
structure Host where
  bus : PciBus
  /-- `boot_cpu_data.x86_model` -/
  x86Model : Nat
  /-- `boot_cpu_data.x86_max_cores` -/
  x86MaxCores : Nat
  /-- `pci_read_config_dword`: its code, and the value read. -/
  configDword : PciDev → BitVec 32 → Int × BitVec 32
  /-- Whether the `n`-th call of `kzalloc` finds memory. -/
  kzalloc : Nat → Bool
  /-- Whether `proc_create` makes the file. -/
  procCreate : Bool
  /-- What a local variable holds that was never assigned. -/
  uninitialised : Int

/-! ## The driver's data -/

/-- The array indices `UNCORE_PCI_*_ID`, and so the types they index. -/
inductive PciBoxType where
  | ha | imc | irp | qpi | r2pcie | r3qpi
  deriving DecidableEq

/-- The array indices `UNCORE_MSR_*_ID`, and so the types they index. -/
inductive MsrBoxType where
  | ubox | pcubox | sbox | cbox
  deriving DecidableEq

/-- An object that `kzalloc` returned, known by the number of the call. -/
structure Slab (α : Type) where
  address : Nat
  object : α
  deriving DecidableEq

/-- The part of a `struct uncore_box_type` that discovery writes. -/
structure BoxList where
  numBoxes : Nat
  boxList : List (Slab UncoreBox)

/-- The boxes on a list. -/
def BoxList.boxes (list : BoxList) : List UncoreBox := list.boxList.map Slab.object

/-- The driver's data, the reference counts of the devices and the log of the
allocator. -/
structure Driver where
  /-- The reference count of each device. -/
  krefs : PciDev → Int
  kzallocCalls : Nat
  /-- The objects `kzalloc` returned, in order. -/
  allocated : List Nat
  /-- The objects `kfree` was called on, in order. -/
  freed : List Nat
  /-- `uncore_pcibus_to_nodeid`, of unsigned ints -/
  uncorePcibusToNodeid : BitVec 8 → Nat
  /-- `uncore_pci_type`, up to its `NULL` -/
  uncorePciType : List PciBoxType
  /-- `uncore_msr_type`, up to its `NULL` -/
  uncoreMsrType : List MsrBoxType
  pciBoxes : PciBoxType → BoxList
  msrBoxes : MsrBoxType → BoxList
  uncoreImcDevices : List (Slab UncoreImc)

/-- The `-1` of a bus without a node, as an unsigned int. -/
def unmapped : Nat := 2 ^ 32 - 1

/-! ## References and memory -/

namespace Driver

/-- `get_device` -/
def getDevice (pdev : PciDev) (driver : Driver) : Driver :=
  { driver with krefs := Function.update driver.krefs pdev (driver.krefs pdev + 1) }

/-- `pci_dev_put`, which does nothing for `NULL` -/
def pciDevPut (pdev : Option PciDev) (driver : Driver) : Driver :=
  match pdev with
  | none => driver
  | some pdev =>
      { driver with krefs := Function.update driver.krefs pdev (driver.krefs pdev - 1) }

/-- `kzalloc` -/
def kzalloc (host : Host) (driver : Driver) : Option Nat × Driver :=
  let address := driver.kzallocCalls
  let driver := { driver with kzallocCalls := address + 1 }
  if host.kzalloc address then
    (some address, { driver with allocated := driver.allocated ++ [address] })
  else (none, driver)

/-- `kfree` -/
def kfree (address : Nat) (driver : Driver) : Driver :=
  { driver with freed := driver.freed ++ [address] }

theorem getDevice_pciDevPut (pdev : PciDev) (last : Option PciDev) (driver : Driver) :
    (driver.getDevice pdev).pciDevPut last = (driver.pciDevPut last).getDevice pdev := by
  cases last with
  | none => rfl
  | some last =>
      simp only [getDevice, pciDevPut, Driver.mk.injEq, and_true]
      by_cases same : last = pdev
      · subst same
        simp only [Function.update_self, Function.update_idem]
        exact congrArg _ (by omega)
      · rw [Function.update_of_ne same, Function.update_of_ne (Ne.symm same)]
        exact Function.update_comm (Ne.symm same) _ _ _

end Driver

/-! ## `pci_get_device` -/

/-- `struct pci_device_id`, as far as the driver fills it -/
structure PciDeviceId where
  vendor : BitVec 16
  device : BitVec 16
  driverData : Nat := 0
  deriving DecidableEq

/-- Whether a device has the ids that a table entry names. -/
def PciDeviceId.describes (ids : PciDeviceId) (pdev : PciDev) : Bool :=
  pdev.vendor = ids.vendor ∧ pdev.device = ids.device

namespace PciBus

variable (bus : PciBus)

/-- The devices after `last` in the kernel's list; all of them after `NULL`. -/
def after (last : Option PciDev) : List PciDev :=
  match last with
  | none => bus.devices
  | some last => (bus.devices.dropWhile (· ≠ last)).tail

/-- `pci_get_device`: the next device that has the ids. It takes a reference on that
device, and drops the one on the device it was called with. -/
def pciGetDevice (ids : PciDeviceId) (last : Option PciDev) (driver : Driver) :
    Option PciDev × Driver :=
  match (bus.after last).find? ids.describes with
  | none => (none, driver.pciDevPut last)
  | some pdev => (some pdev, (driver.getDevice pdev).pciDevPut last)

end PciBus

/-- The kernel's list holds a device once, so what follows it is what stands after it. -/
theorem after_of_append {bus : PciBus} {pdev : PciDev} {earlier later : List PciDev}
    (split : bus.devices = earlier ++ pdev :: later) : bus.after (some pdev) = later := by
  have apart : ∀ other ∈ earlier, other ≠ pdev := by
    intro other listed
    exact (List.nodup_append.mp (split ▸ bus.nodup)).2.2 other listed pdev List.mem_cons_self
  rw [PciBus.after, split, List.dropWhile_append_of_pos, List.dropWhile_cons_of_neg]
  · rfl
  · simp
  · simpa using apart

theorem exists_append_after (bus : PciBus) (last : Option PciDev) :
    ∃ earlier, bus.devices = earlier ++ bus.after last := by
  cases last with
  | none => exact ⟨[], rfl⟩
  | some last =>
      have suffix : bus.after (some last) <:+ bus.devices :=
        (List.tail_suffix _).trans (List.dropWhile_suffix _)
      rcases suffix with ⟨earlier, split⟩
      exact ⟨earlier, split.symm⟩

/-- A device that is found splits the devices still to come. -/
theorem after_of_find {bus : PciBus} {ids : PciDeviceId} {last : Option PciDev}
    {pdev : PciDev} (found : (bus.after last).find? ids.describes = some pdev) :
    ids.describes pdev ∧ ∃ skipped, (∀ other ∈ skipped, ¬ ids.describes other) ∧
      bus.after last = skipped ++ pdev :: bus.after (some pdev) := by
  rcases List.find?_eq_some_iff_append.mp found with ⟨described, skipped, later, split, none⟩
  rcases exists_append_after bus last with ⟨earlier, whole⟩
  have next : bus.after (some pdev) = later :=
    after_of_append (by rw [whole, split, ← List.append_assoc])
  exact ⟨described, skipped, fun other listed => by simpa using none other listed,
    by rw [next, split]⟩

theorem find_of_pciGetDevice {bus : PciBus} {ids : PciDeviceId} {last next : Option PciDev}
    {driver after : Driver} (found : bus.pciGetDevice ids last driver = (next, after)) :
    (bus.after last).find? ids.describes = next := by
  rw [PciBus.pciGetDevice] at found
  cases pdev : (bus.after last).find? ids.describes <;> rw [pdev] at found <;> cases found <;> rfl

theorem length_after_lt {bus : PciBus} {ids : PciDeviceId} {last : Option PciDev}
    {pdev : PciDev} (found : (bus.after last).find? ids.describes = some pdev) :
    (bus.after (some pdev)).length < (bus.after last).length := by
  rcases after_of_find found with ⟨_, skipped, _, split⟩
  rw [split, List.length_append, List.length_cons]
  omega

/-- The loop
`while (1) { pdev = pci_get_device(vendor, device, pdev); if (!pdev) break; body }`,
which an error in the body leaves at once. It ends with the code of the last round,
`err` if there was none, and with `pdev`. -/
def whilePciDevice (bus : PciBus) (ids : PciDeviceId) (body : PciDev → Call Driver)
    (last : Option PciDev) (err : Int) (driver : Driver) : Int × Option PciDev × Driver :=
  match _ : bus.pciGetDevice ids last driver with
  | (none, driver) => (err, none, driver)
  | (some pdev, driver) =>
      let result := body pdev driver
      if result.1 = 0 then whilePciDevice bus ids body (some pdev) 0 result.2
      else (result.1, some pdev, result.2)
termination_by (bus.after last).length
decreasing_by exact length_after_lt (find_of_pciGetDevice ‹_›)

/-! ## The loop as a walk over a list

The reference that `pci_get_device` drops is the one it took a round before. So the
loop visits the devices that have the ids, holds a reference on each during its round
only, and keeps it when it leaves early. -/

/-- The devices that have the ids, in the order of the bus. -/
def PciBus.matching (bus : PciBus) (ids : PciDeviceId) : List PciDev :=
  bus.devices.filter ids.describes

/-- The rounds of the loop, each with its own reference. -/
def walkDevices (body : PciDev → Call Driver) :
    List PciDev → Int → Driver → Int × Option PciDev × Driver
  | [], err, driver => (err, none, driver)
  | pdev :: rest, _, driver =>
      let result := body pdev (driver.getDevice pdev)
      if result.1 = 0 then walkDevices body rest 0 (result.2.pciDevPut (some pdev))
      else (result.1, some pdev, result.2)

theorem pciGetDevice_of_find {bus : PciBus} {ids : PciDeviceId} {last : Option PciDev}
    {pdev : PciDev} {driver : Driver}
    (found : (bus.after last).find? ids.describes = some pdev) :
    bus.pciGetDevice ids last driver =
      (some pdev, (driver.pciDevPut last).getDevice pdev) := by
  rw [PciBus.pciGetDevice, found, ← Driver.getDevice_pciDevPut]

theorem filter_after_of_find {bus : PciBus} {ids : PciDeviceId} {last : Option PciDev}
    {pdev : PciDev} (found : (bus.after last).find? ids.describes = some pdev) :
    (bus.after last).filter ids.describes =
      pdev :: (bus.after (some pdev)).filter ids.describes := by
  rcases after_of_find found with ⟨described, skipped, none, split⟩
  rw [split, List.filter_append, List.filter_cons_of_pos described,
    List.filter_eq_nil_iff.mpr none, List.nil_append]

section Turn

variable {bus : PciBus} {ids : PciDeviceId} {body : PciDev → Call Driver}
  {last : Option PciDev} {err : Int} {driver held : Driver}

theorem whilePciDevice_of_none (found : bus.pciGetDevice ids last driver = (none, held)) :
    whilePciDevice bus ids body last err driver = (err, none, held) := by
  rw [whilePciDevice]
  split
  · rename_i later nothing
    cases found.symm.trans nothing
    rfl
  · rename_i pdev later something
    cases found.symm.trans something

theorem whilePciDevice_of_some {pdev : PciDev}
    (found : bus.pciGetDevice ids last driver = (some pdev, held)) :
    whilePciDevice bus ids body last err driver =
      if (body pdev held).1 = 0 then
        whilePciDevice bus ids body (some pdev) 0 (body pdev held).2
      else ((body pdev held).1, some pdev, (body pdev held).2) := by
  rw [whilePciDevice]
  split
  · rename_i later nothing
    cases found.symm.trans nothing
  · rename_i next later something
    cases found.symm.trans something
    rfl

end Turn

theorem whilePciDevice_eq (bus : PciBus) (ids : PciDeviceId) (body : PciDev → Call Driver)
    (last : Option PciDev) (err : Int) (driver : Driver) :
    whilePciDevice bus ids body last err driver =
      walkDevices body ((bus.after last).filter ids.describes) err (driver.pciDevPut last) := by
  induction last, err, driver using whilePciDevice.induct bus ids body with
  | case1 last err driver later found =>
      have nothing := find_of_pciGetDevice found
      rw [whilePciDevice_of_none found,
        List.filter_eq_nil_iff.mpr (List.find?_eq_none.mp nothing)]
      rw [PciBus.pciGetDevice, nothing] at found
      cases found
      rfl
  | case2 last err driver pdev later found result passed ih =>
      have next := find_of_pciGetDevice found
      have held := (Prod.mk.inj (found.symm.trans (pciGetDevice_of_find next))).2
      rw [whilePciDevice_of_some found, filter_after_of_find next, walkDevices, ← held,
        if_pos passed]
      exact ih.trans (if_pos passed).symm
  | case3 last err driver pdev later found result code =>
      have next := find_of_pciGetDevice found
      have held := (Prod.mk.inj (found.symm.trans (pciGetDevice_of_find next))).2
      rw [whilePciDevice_of_some found, filter_after_of_find next, walkDevices, ← held,
        if_neg code]
      exact (if_neg code).symm

/-- A round of a caller that forgets `pdev` when it leaves: the reference the loop took
is dropped by the next `pci_get_device`, if there is one. -/
def visit (body : PciDev → Call Driver) (pdev : PciDev) : Call Driver :=
  (Call.act (Driver.getDevice pdev)).andThen
    ((body pdev).andThen (Call.act (Driver.pciDevPut (some pdev))))

theorem walkDevices_eq_each (body : PciDev → Call Driver) (devices : List PciDev)
    (driver : Driver) :
    ((walkDevices body devices 0 driver).1, (walkDevices body devices 0 driver).2.2) =
      Call.each (visit body) devices driver := by
  induction devices generalizing driver with
  | nil => rfl
  | cons pdev rest ih =>
      rw [walkDevices, Call.each, visit, Call.andThen_assoc, Call.andThen_assoc]
      by_cases passed : (body pdev (driver.getDevice pdev)).1 = 0
      · rw [if_pos passed, ih]
        simp only [Call.andThen, Call.act, if_pos passed, if_true]
      · rw [if_neg passed]
        simp only [Call.andThen, Call.act, if_neg passed, if_true]

end NvmEmulator.Discovery
