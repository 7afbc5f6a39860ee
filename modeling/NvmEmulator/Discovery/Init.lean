/-
# Discovery

`uncore_init` and `uncore_exit` of `uncore_pmu.c`, with what they call: the node
mapping and the id tables of `uncore_hswep.c`, the boxes of `uncore_pmu.c`, the memory
channels of `uncore_imc.c`. Messages and timers are left out, and so is the emulation
that `uncore_init` starts at its end and `uncore_exit` finishes first: it neither
allocates nor takes references.
-/

import NvmEmulator.Discovery.Driver

namespace NvmEmulator.Discovery

open NvmEmulator.Kernel NvmEmulator.Semantics NvmEmulator.Uncore

/-! ## The types and the id tables -/

/-- `UNCORE_PCI_HA_ID` and its siblings -/
def PciBoxType.id : PciBoxType → Nat
  | .ha => 0
  | .imc => 1
  | .irp => 2
  | .qpi => 3
  | .r2pcie => 4
  | .r3qpi => 5

/-- The registers of a PCI type. -/
def PciBoxType.boxType : PciBoxType → UncoreBoxType
  | .ha => hswepUncoreHa
  | .imc => hswepUncoreImc
  | .irp => hswepUncoreIrp
  | .qpi => hswepUncoreQpi
  | .r2pcie => hswepUncoreR2pcie
  | .r3qpi => hswepUncoreR3qpi

/-- The registers of an MSR type. -/
def MsrBoxType.boxType : MsrBoxType → UncoreBoxType
  | .ubox => hswepUncoreUbox
  | .pcubox => hswepUncorePcubox
  | .sbox => hswepUncoreSbox
  | .cbox => hswepUncoreCbox

/-- `HSWEP_UNCORE_PCI_TYPE`, up to its `NULL` -/
def pciTypes : List PciBoxType := [.ha, .imc, .irp, .qpi, .r2pcie, .r3qpi]

/-- `HSWEP_UNCORE_MSR_TYPE`, up to its `NULL` -/
def msrTypes : List MsrBoxType := [.ubox, .pcubox, .sbox, .cbox]

/-- `UNCORE_PCI_DEV_DATA` -/
def uncorePciDevData (type idx : Nat) : Nat := type <<< 8 ||| idx

/-- `UNCORE_PCI_DEV_TYPE` -/
def uncorePciDevType (data : Nat) : Nat := data >>> 8 &&& 0xFF

/-- `UNCORE_PCI_DEV_IDX` -/
def uncorePciDevIdx (data : Nat) : Nat := data &&& 0xFF

/-- `PCI_VENDOR_ID_INTEL` -/
def pciVendorIdIntel : BitVec 16 := 0x8086

/-- An entry of `HSWEP_UNCORE_PCI_IDS`. -/
def pmonDevice (device : BitVec 16) (type : PciBoxType) (idx : Nat) : PciDeviceId where
  vendor := pciVendorIdIntel
  device := device
  driverData := uncorePciDevData type.id idx

/-- `HSWEP_UNCORE_PCI_IDS` -/
def hswepUncorePciIds : List PciDeviceId :=
  [pmonDevice 0x2F30 .ha 0, pmonDevice 0x2F38 .ha 1,
    pmonDevice 0x2FB0 .imc 0, pmonDevice 0x2FB1 .imc 1,
    pmonDevice 0x2FB4 .imc 2, pmonDevice 0x2FB5 .imc 3,
    pmonDevice 0x2FD0 .imc 4, pmonDevice 0x2FD1 .imc 5,
    pmonDevice 0x2FD4 .imc 6, pmonDevice 0x2FD5 .imc 7,
    pmonDevice 0x2F39 .irp 0,
    pmonDevice 0x2F32 .qpi 0, pmonDevice 0x2F33 .qpi 1, pmonDevice 0x2F3A .qpi 2,
    pmonDevice 0x2F34 .r2pcie 0,
    pmonDevice 0x2F36 .r3qpi 0, pmonDevice 0x2F37 .r3qpi 1, pmonDevice 0x2F3E .r3qpi 2,
    { vendor := 0, device := 0 }]

/-- An entry of `HSWEP_E5_IMC`. -/
def channelDevice (device : BitVec 16) : PciDeviceId where
  vendor := pciVendorIdIntel
  device := device

/-- `HSWEP_E5_IMC` -/
def hswepE5Imc : List PciDeviceId :=
  [channelDevice 0x2FB4, channelDevice 0x2FB5, channelDevice 0x2FB0, channelDevice 0x2FB1,
    channelDevice 0x2FD0, channelDevice 0x2FD1, { vendor := 0, device := 0 }]

/-- The entries the loop `for (; ids->vendor || ids->device; ids++)` visits. -/
def untilZeroIds (table : List PciDeviceId) : List PciDeviceId :=
  table.takeWhile fun ids => ids.vendor ≠ 0 ∨ ids.device ≠ 0

/-- The entries the loop `for (; ids->vendor; ids++)` visits. -/
def untilZeroVendor (table : List PciDeviceId) : List PciDeviceId :=
  table.takeWhile fun ids => ids.vendor ≠ 0

/-! ## The driver when the module is loaded -/

/-- The static data of the module: no bus has a node, no type is in use. -/
def Driver.loaded (krefs : PciDev → Int) : Driver where
  krefs := krefs
  kzallocCalls := 0
  allocated := []
  freed := []
  uncorePcibusToNodeid := fun _ => unmapped
  uncorePciType := []
  uncoreMsrType := []
  pciBoxes := fun type => ⟨type.boxType.numBoxes, []⟩
  msrBoxes := fun type => ⟨type.boxType.numBoxes, []⟩
  uncoreImcDevices := []

namespace Driver

variable (driver : Driver)

/-- Assign to a PCI type. -/
def setPciBoxes (type : PciBoxType) (list : BoxList) : Driver :=
  { driver with pciBoxes := Function.update driver.pciBoxes type list }

/-- Assign to the box list of a PCI type. -/
def setPciBoxList (type : PciBoxType) (boxList : List (Slab UncoreBox)) : Driver :=
  driver.setPciBoxes type ⟨(driver.pciBoxes type).numBoxes, boxList⟩

/-- Assign to an MSR type. -/
def setMsrBoxes (type : MsrBoxType) (list : BoxList) : Driver :=
  { driver with msrBoxes := Function.update driver.msrBoxes type list }

/-- Assign to the box list of an MSR type. -/
def setMsrBoxList (type : MsrBoxType) (boxList : List (Slab UncoreBox)) : Driver :=
  driver.setMsrBoxes type ⟨(driver.msrBoxes type).numBoxes, boxList⟩

/-- Assign to `num_boxes` of an MSR type. -/
def setMsrNumBoxes (type : MsrBoxType) (numBoxes : Nat) : Driver :=
  driver.setMsrBoxes type ⟨numBoxes, (driver.msrBoxes type).boxList⟩

/-- Assign to `uncore_imc_devices`. -/
def setImcDevices (devices : List (Slab UncoreImc)) : Driver :=
  { driver with uncoreImcDevices := devices }

/-- The end of `uncore_pci_new_box`: number the allocated box after the last one of its
type, fill it in and append it. `idx` and `num_boxes` are unsigned ints. -/
def addPciBox (type : PciBoxType) (pdev : PciDev) (address : Nat) : Driver :=
  let list := driver.pciBoxes type
  let numbers :=
    match list.boxList.getLast? with
    | none => (0, 1)
    | some last => ((last.object.idx + 1) % 2 ^ 32, (list.numBoxes + 1) % 2 ^ 32)
  let box : UncoreBox :=
    { idx := numbers.1
      nodeid := driver.uncorePcibusToNodeid pdev.bus
      boxType := type.boxType
      pdev := some pdev }
  driver.setPciBoxes type ⟨numbers.2, list.boxList ++ [⟨address, box⟩]⟩

/-- The end of `uncore_msr_new_box`. -/
def addMsrBox (type : MsrBoxType) (idx address : Nat) : Driver :=
  let box : UncoreBox := { idx := idx, nodeid := 0, boxType := type.boxType }
  driver.setMsrBoxList type ((driver.msrBoxes type).boxList ++ [⟨address, box⟩])

/-- The end of `uncore_imc_new_device`. -/
def addImcDevice (pdev : PciDev) (address : Nat) : Driver :=
  let imc : UncoreImc :=
    { nodeid := driver.uncorePcibusToNodeid pdev.bus
      pdev := pdev }
  driver.setImcDevices (driver.uncoreImcDevices ++ [⟨address, imc⟩])

end Driver

/-- The loop `while (!list_empty(head))` that takes the first object off a list,
unlinks it and releases it. -/
def popAll {α : Type} (setList : Driver → List (Slab α) → Driver)
    (release : Slab α → Driver → Driver) : List (Slab α) → Driver → Driver
  | [], driver => driver
  | slab :: rest, driver => popAll setList release rest (release slab (setList driver rest))

/-! ## The bus mapping -/

/-- `pcibios_err_to_errno` -/
def pcibiosErrToErrno (err : Int) : Int :=
  if err ≤ 0 then err
  else if err = 0x81 then -enoent
  else if err = 0x83 then -25
  else if err = 0x86 then -19
  else if err = 0x87 then -efault
  else if err = 0x88 then -5
  else if err = 0x89 then -28
  else -34

section Host

variable (host : Host)

/-- The body of the loop of `hswep_pcibus_to_nodeid`. The inner loop looks for the
3-bit field that holds the node id. -/
def readNodeMapping (ubox : PciDev) : Call Driver := fun driver =>
  let nodeid := host.configDword ubox 0x40
  if nodeid.1 ≠ 0 then (nodeid.1, driver)
  else
    let mapping := host.configDword ubox 0x54
    if mapping.1 ≠ 0 then (mapping.1, driver)
    else
      match (List.range 8).find? fun i => nodeid.2 = mapping.2 >>> (i * 3) &&& 0x7 with
      | none => (0, driver)
      | some i =>
          (0, { driver with
            uncorePcibusToNodeid := Function.update driver.uncorePcibusToNodeid ubox.bus i })

/-- `hswep_pcibus_to_nodeid`; without a UBOX its `err` is never assigned. -/
def hswepPcibusToNodeid (devid : BitVec 16) : Call Driver := fun driver =>
  let result := whilePciDevice host.bus ⟨pciVendorIdIntel, devid, 0⟩ (readNodeMapping host)
    none host.uninitialised driver
  (if result.1 ≠ 0 then pcibiosErrToErrno result.1 else 0, result.2.2.pciDevPut result.2.1)

/-- `hswep_pci_init` -/
def hswepPciInit : Call Driver :=
  (hswepPcibusToNodeid host 0x2F1E).andThen
    (Call.act fun driver => { driver with uncorePciType := pciTypes })

/-! ## PCI boxes -/

/-- `uncore_types_init(uncore_pci_type)` -/
def uncorePciTypesInit (driver : Driver) : Driver :=
  driver.uncorePciType.foldl (fun driver type => driver.setPciBoxList type []) driver

/-- The three functions that make a new object: ask for memory, and add the object at
the address found. -/
def newObject (add : Nat → Driver → Driver) : Call Driver := fun driver =>
  match driver.kzalloc host with
  | (none, driver) => (-enomem, driver)
  | (some address, driver) => (0, add address driver)

/-- `uncore_pci_new_box` -/
def uncorePciNewBox (ids : PciDeviceId) (pdev : PciDev) : Call Driver := fun driver =>
  match driver.uncorePciType[uncorePciDevType ids.driverData]? with
  | none => (-efault, driver)
  | some type => newObject host (fun address driver => driver.addPciBox type pdev address) driver

/-- `uncore_pci_exit` -/
def uncorePciExit (driver : Driver) : Driver :=
  driver.uncorePciType.foldl
    (fun driver type =>
      popAll (fun driver => driver.setPciBoxList type)
        (fun slab driver => (driver.pciDevPut slab.object.pdev).kfree slab.address)
        (driver.pciBoxes type).boxList driver)
    driver

/-- A round of the loop of `uncore_pci_init`: the driver's own reference, and a box. -/
def uncorePciVisit (ids : PciDeviceId) (pdev : PciDev) : Call Driver := fun driver =>
  uncorePciNewBox host ids pdev (driver.getDevice pdev)

/-- The loop of `uncore_pci_init` for an entry of the table. -/
def uncorePciVisitAll (ids : PciDeviceId) : Call Driver := fun driver =>
  let result := whilePciDevice host.bus ids (uncorePciVisit host ids) none 0 driver
  (result.1, result.2.2)

/-- `uncore_pci_init` -/
def uncorePciInit : Call Driver :=
  (if host.x86Model = 63 then hswepPciInit host else Call.ret (-enxio)).andThen
    ((Call.act uncorePciTypesInit).andThen
      ((Call.each (uncorePciVisitAll host) (untilZeroIds hswepUncorePciIds)).onError
        uncorePciExit))

/-! ## MSR boxes -/

/-- `hswep_cpu_init` -/
def hswepCpuInit (driver : Driver) : Driver :=
  let driver :=
    if (driver.msrBoxes .cbox).numBoxes > host.x86MaxCores then
      driver.setMsrNumBoxes .cbox host.x86MaxCores
    else driver
  { driver with uncoreMsrType := msrTypes }

/-- `uncore_types_init(uncore_msr_type)` -/
def uncoreMsrTypesInit (driver : Driver) : Driver :=
  driver.uncoreMsrType.foldl (fun driver type => driver.setMsrBoxList type []) driver

/-- `uncore_msr_new_box` -/
def uncoreMsrNewBox (type : MsrBoxType) (idx : Nat) : Call Driver :=
  newObject host fun address driver => driver.addMsrBox type idx address

/-- `uncore_cpu_exit` -/
def uncoreCpuExit (driver : Driver) : Driver :=
  driver.uncoreMsrType.foldl
    (fun driver type =>
      popAll (fun driver => driver.setMsrBoxList type) (fun slab => Driver.kfree slab.address)
        (driver.msrBoxes type).boxList driver)
    driver

/-- The boxes of one type in `uncore_cpu_init`. -/
def uncoreMsrNewBoxes (type : MsrBoxType) : Call Driver := fun driver =>
  Call.each (uncoreMsrNewBox host type) (List.range (driver.msrBoxes type).numBoxes) driver

/-- `uncore_cpu_init` -/
def uncoreCpuInit : Call Driver :=
  (if host.x86Model = 63 then Call.act (hswepCpuInit host) else Call.ret (-enxio)).andThen
    ((Call.act uncoreMsrTypesInit).andThen
      (Call.onError
        (fun driver => Call.each (uncoreMsrNewBoxes host) driver.uncoreMsrType driver)
        uncoreCpuExit))

/-! ## Memory channels -/

/-- `uncore_imc_exit` -/
def uncoreImcExit (driver : Driver) : Driver :=
  popAll Driver.setImcDevices
    (fun slab driver => (driver.pciDevPut (some slab.object.pdev)).kfree slab.address)
    driver.uncoreImcDevices driver

/-- `uncore_imc_new_device` -/
def uncoreImcNewDevice (pdev : PciDev) : Call Driver :=
  newObject host fun address driver => driver.addImcDevice pdev address

/-- A round of the loop of `uncore_imc_init`: the driver's own reference, and an entry. -/
def uncoreImcVisit (pdev : PciDev) : Call Driver := fun driver =>
  uncoreImcNewDevice host pdev (driver.getDevice pdev)

/-- The loop of `uncore_imc_init` for an entry of the table. -/
def uncoreImcVisitAll (ids : PciDeviceId) : Call Driver := fun driver =>
  let result := whilePciDevice host.bus ids (uncoreImcVisit host) none 0 driver
  (result.1, result.2.2)

/-- `uncore_imc_init`. `hswep_imc_init` chooses the table, and methods of which none is
`NULL`. -/
def uncoreImcInit : Call Driver :=
  (if host.x86Model = 63 then Call.ret 0 else Call.ret (-enxio)).andThen
    ((Call.each (uncoreImcVisitAll host) (untilZeroVendor hswepE5Imc)).onError uncoreImcExit)

/-! ## The module -/

/-- `uncore_proc_create` -/
def uncoreProcCreate : Call Driver := Call.ret (if host.procCreate then 0 else -enoent)

/-- `uncore_init`. The labels `out`, `cpuerr` and `pcierr` follow each other, so an
error undoes all that came before. -/
def uncoreInit : Call Driver :=
  ((uncorePciInit host).andThen
    (((uncoreCpuInit host).andThen
      (((uncoreImcInit host).andThen (uncoreProcCreate host)).onError uncoreImcExit)).onError
        uncoreCpuExit)).onError uncorePciExit

end Host

/-- `uncore_exit` -/
def uncoreExit (driver : Driver) : Driver :=
  uncorePciExit (uncoreCpuExit (uncoreImcExit driver))

/-- A socket with a UBOX that names it node 0, one home agent, and one memory channel. -/
def socketHost (channel : BitVec 16) (kzalloc : Nat → Bool) : Host where
  bus :=
    { devices :=
        [⟨pciVendorIdIntel, 0x2F1E, 0xFF, 0x80⟩, ⟨pciVendorIdIntel, 0x2F30, 0xFF, 0x90⟩,
          ⟨pciVendorIdIntel, channel, 0xFF, 0xA0⟩]
      nodup := by simp [pciVendorIdIntel] }
  x86Model := 63
  x86MaxCores := 2
  configDword := fun _ _ => (0, 0)
  kzalloc := kzalloc
  procCreate := true
  uninitialised := 1

/-! ## Looking a box up -/

/-- `uncore_get_box` -/
def uncoreGetBox (boxes : List UncoreBox) (idx nodeid : Nat) : Option UncoreBox :=
  if nodeid > uncoreMaxSocket then none
  else boxes.find? fun box => box.idx = idx ∧ box.nodeid = nodeid

end NvmEmulator.Discovery
