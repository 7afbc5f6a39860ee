/-
# Uncore PMU boxes

A box is one monitoring unit of a socket. `uncore_pmu.h` describes its registers
in a box type, gives the generic operations (`uncore_init_box` and its
siblings), and leaves the work to one of two back ends: boxes reached through
MSRs and boxes reached through PCI configuration space. Both back ends are
embedded as the source has them, each access separately, so that events and
timers can later be placed between any two of them.
-/

import NvmEmulator.Kernel.Proc
import NvmEmulator.Uncore.Register

namespace NvmEmulator.Uncore

open NvmEmulator.Kernel NvmEmulator.Semantics

/-- `struct pci_dev`, as far as the driver reads it. -/
structure PciDev where
  vendor : BitVec 16
  device : BitVec 16
  bus : BitVec 8
  devfn : BitVec 8
  deriving DecidableEq

/-- `struct uncore_event`. -/
structure UncoreEvent where
  /-- Bit mask to enable this event. -/
  enable : BitVec 64
  /-- Bit mask to disable this event. -/
  disable : BitVec 64
  deriving DecidableEq

/-- `struct uncore_box_type`: register addresses are 0 where the type has no
such register. -/
structure UncoreBoxType where
  numBoxes : Nat := 0
  perfCtrBits : Nat := 0
  perfCtr : BitVec 32 := 0
  perfCtl : BitVec 32 := 0
  boxCtl : BitVec 32 := 0
  boxStatus : BitVec 32 := 0
  msrOffset : BitVec 32 := 0
  deriving DecidableEq

/-- `struct uncore_box`. A box of an MSR type has no PCI device. -/
structure UncoreBox where
  idx : Nat
  nodeid : Nat
  boxType : UncoreBoxType
  pdev : Option PciDev := none
  deriving DecidableEq

/-- `UNCORE_MAX_SOCKET` -/
def uncoreMaxSocket : Nat := 8

/-- `uncore_box_ctr_mask` -/
def uncoreBoxCtrMask (box : UncoreBox) : BitVec 64 :=
  (1#64 <<< box.boxType.perfCtrBits) - 1

/-! ## Register addresses -/

section PciAddresses

variable (box : UncoreBox)

/-- `uncore_pci_box_status` -/
def uncorePciBoxStatus : BitVec 32 := box.boxType.boxStatus

/-- `uncore_pci_box_ctl` -/
def uncorePciBoxCtl : BitVec 32 := box.boxType.boxCtl

/-- `uncore_pci_perf_ctl` -/
def uncorePciPerfCtl : BitVec 32 := box.boxType.perfCtl

/-- `uncore_pci_perf_ctr` -/
def uncorePciPerfCtr : BitVec 32 := box.boxType.perfCtr

/-- The PMON unit behind a PCI box; its counter takes two dwords. -/
def pciLayout : PmonLayout where
  boxCtl := uncorePciBoxCtl box
  boxStatus := uncorePciBoxStatus box
  perfCtl := uncorePciPerfCtl box
  counters :=
    if uncorePciPerfCtr box = 0 then []
    else [uncorePciPerfCtr box, uncorePciPerfCtr box + 4]

end PciAddresses

section MsrAddresses

variable (box : UncoreBox)

/-- `uncore_msr_box_offset` -/
def uncoreMsrBoxOffset : BitVec 32 := BitVec.ofNat 32 box.idx * box.boxType.msrOffset

/-- `uncore_msr_box_status` -/
def uncoreMsrBoxStatus : BitVec 32 := box.boxType.boxStatus + uncoreMsrBoxOffset box

/-- `uncore_msr_box_ctl` -/
def uncoreMsrBoxCtl : BitVec 32 := box.boxType.boxCtl + uncoreMsrBoxOffset box

/-- `uncore_msr_perf_ctl` -/
def uncoreMsrPerfCtl : BitVec 32 := box.boxType.perfCtl + uncoreMsrBoxOffset box

/-- `uncore_msr_perf_ctr` -/
def uncoreMsrPerfCtr : BitVec 32 := box.boxType.perfCtr + uncoreMsrBoxOffset box

/-- The PMON unit behind an MSR box. -/
def msrLayout : PmonLayout where
  boxCtl := uncoreMsrBoxCtl box
  boxStatus := uncoreMsrBoxStatus box
  perfCtl := uncoreMsrPerfCtl box
  counters := if uncoreMsrPerfCtr box = 0 then [] else [uncoreMsrPerfCtr box]

end MsrAddresses

/-! ## The generic operations -/

/-- `struct uncore_box_ops`; a method is `none` where the table holds `NULL`. -/
structure UncoreBoxOps (w : Nat) where
  showBox : Option (UncoreBox → RegProgram w Unit) := none
  initBox : Option (UncoreBox → RegProgram w Unit) := none
  clearBox : Option (UncoreBox → RegProgram w Unit) := none
  enableBox : Option (UncoreBox → RegProgram w Unit) := none
  disableBox : Option (UncoreBox → RegProgram w Unit) := none
  enableEvent : Option (UncoreBox → UncoreEvent → RegProgram w Unit) := none
  disableEvent : Option (UncoreBox → UncoreEvent → RegProgram w Unit) := none
  writeCounter : Option (UncoreBox → BitVec 64 → RegProgram w Unit) := none
  readCounter : Option (UncoreBox → RegProgram w (BitVec 64)) := none

section Generic

variable {w : Nat} (ops : UncoreBoxOps w) (box : UncoreBox)

/-- Call a method if the table has it. -/
def callMethod (method : Option (RegProgram w Unit)) : RegProgram w Unit :=
  method.getD (pure ())

/-- `uncore_show_box` -/
def uncoreShowBox : RegProgram w Unit := callMethod (ops.showBox.map (· box))

/-- `uncore_init_box` -/
def uncoreInitBox : RegProgram w Unit := callMethod (ops.initBox.map (· box))

/-- `uncore_clear_box` -/
def uncoreClearBox : RegProgram w Unit := callMethod (ops.clearBox.map (· box))

/-- `uncore_enable_box` -/
def uncoreEnableBox : RegProgram w Unit := callMethod (ops.enableBox.map (· box))

/-- `uncore_disable_box` -/
def uncoreDisableBox : RegProgram w Unit := callMethod (ops.disableBox.map (· box))

/-- `uncore_enable_event` -/
def uncoreEnableEvent (event : UncoreEvent) : RegProgram w Unit :=
  callMethod (ops.enableEvent.map (· box event))

/-- `uncore_disable_event` -/
def uncoreDisableEvent (event : UncoreEvent) : RegProgram w Unit :=
  callMethod (ops.disableEvent.map (· box event))

/-- `uncore_write_counter` -/
def uncoreWriteCounter (value : BitVec 64) : RegProgram w Unit :=
  callMethod (ops.writeCounter.map (· box value))

/-- `uncore_read_counter`; `value` is what the caller's variable held before. -/
def uncoreReadCounter (value : BitVec 64) : RegProgram w (BitVec 64) :=
  (ops.readCounter.map (· box)).getD (pure value)

end Generic

/-! ## The MSR back end -/

section Msr

/-- `HSWEP_MSR_BOX_CTL_FRZ` -/
def hswepMsrBoxCtlFrz : BitVec 64 := 1 <<< 8

/-- `HSWEP_MSR_BOX_CTL_INIT` -/
def hswepMsrBoxCtlInit : BitVec 64 := 1 <<< 0 ||| 1 <<< 1

/-- `rdmsrl` -/
def rdmsrl (msr : BitVec 32) : RegProgram 64 (BitVec 64) := do
  let (_, value) ← RegProgram.read msr
  pure value

/-- `wrmsrl` -/
def wrmsrl (msr : BitVec 32) (value : BitVec 64) : RegProgram 64 Unit := do
  let _ ← RegProgram.write msr value
  pure ()

variable (box : UncoreBox)

/-- `hswep_uncore_msr_show_box`: the reads; the printing is left out. -/
def hswepUncoreMsrShowBox : RegProgram 64 Unit := do
  let _ ← rdmsrl (uncoreMsrBoxCtl box)
  let _ ← rdmsrl (uncoreMsrBoxStatus box)
  let _ ← rdmsrl (uncoreMsrPerfCtl box)
  let _ ← rdmsrl (uncoreMsrPerfCtr box)
  pure ()

/-- `hswep_uncore_msr_init_box` -/
def hswepUncoreMsrInitBox : RegProgram 64 Unit :=
  let msr := uncoreMsrBoxCtl box
  if msr ≠ 0 then wrmsrl msr hswepMsrBoxCtlInit else pure ()

/-- `hswep_uncore_msr_enable_box` -/
def hswepUncoreMsrEnableBox : RegProgram 64 Unit :=
  let msr := uncoreMsrBoxCtl box
  if msr ≠ 0 then do
    let config ← rdmsrl msr
    wrmsrl msr (config &&& ~~~hswepMsrBoxCtlFrz)
  else pure ()

/-- `hswep_uncore_msr_disable_box` -/
def hswepUncoreMsrDisableBox : RegProgram 64 Unit :=
  let msr := uncoreMsrBoxCtl box
  if msr ≠ 0 then do
    let config ← rdmsrl msr
    wrmsrl msr (config ||| hswepMsrBoxCtlFrz)
  else pure ()

/-- `hswep_uncore_msr_enable_event`: the source writes `event->disable` here. -/
def hswepUncoreMsrEnableEvent (event : UncoreEvent) : RegProgram 64 Unit :=
  wrmsrl (uncoreMsrPerfCtl box) event.disable

/-- `hswep_uncore_msr_disable_event`: the source writes `event->enable` here. -/
def hswepUncoreMsrDisableEvent (event : UncoreEvent) : RegProgram 64 Unit :=
  wrmsrl (uncoreMsrPerfCtl box) event.enable

/-- `hswep_uncore_msr_write_counter` -/
def hswepUncoreMsrWriteCounter (value : BitVec 64) : RegProgram 64 Unit :=
  wrmsrl (uncoreMsrPerfCtr box) (value &&& uncoreBoxCtrMask box)

/-- `hswep_uncore_msr_read_counter` -/
def hswepUncoreMsrReadCounter : RegProgram 64 (BitVec 64) := do
  let tmp ← rdmsrl (uncoreMsrPerfCtr box)
  pure (tmp &&& uncoreBoxCtrMask box)

end Msr

/-- `HSWEP_UNCORE_MSR_BOX_OPS` -/
def hswepUncoreMsrBoxOps : UncoreBoxOps 64 where
  showBox := some hswepUncoreMsrShowBox
  initBox := some hswepUncoreMsrInitBox
  clearBox := some hswepUncoreMsrInitBox
  enableBox := some hswepUncoreMsrEnableBox
  disableBox := some hswepUncoreMsrDisableBox
  enableEvent := some hswepUncoreMsrEnableEvent
  disableEvent := some hswepUncoreMsrDisableEvent
  writeCounter := some hswepUncoreMsrWriteCounter
  readCounter := some hswepUncoreMsrReadCounter

/-! ## The PCI back end -/

section Pci

/-- `HSWEP_PCI_BOX_CTL_FRZ` -/
def hswepPciBoxCtlFrz : BitVec 32 := 1 <<< 8

/-- `HSWEP_PCI_BOX_CTL_INIT` -/
def hswepPciBoxCtlInit : BitVec 32 := 1 <<< 0 ||| 1 <<< 1

variable (box : UncoreBox)

/-- `hswep_uncore_pci_show_box`: the reads; the printing is left out. -/
def hswepUncorePciShowBox : RegProgram 32 Unit := do
  let _ ← RegProgram.read (uncorePciBoxCtl box)
  let _ ← RegProgram.read (uncorePciBoxStatus box)
  let _ ← RegProgram.read (uncorePciPerfCtl box)
  let _ ← RegProgram.read (uncorePciPerfCtr box)
  let _ ← RegProgram.read (uncorePciPerfCtr box + 4)
  pure ()

/-- `hswep_uncore_pci_init_box` -/
def hswepUncorePciInitBox : RegProgram 32 Unit := do
  let _ ← RegProgram.write (uncorePciBoxCtl box) hswepPciBoxCtlInit
  let _ ← RegProgram.write (uncorePciBoxStatus box) 0xf
  pure ()

/-- `hswep_uncore_pci_enable_box` -/
def hswepUncorePciEnableBox : RegProgram 32 Unit := do
  let ctl := uncorePciBoxCtl box
  let (err, config) ← RegProgram.read ctl
  if err = 0 then
    let _ ← RegProgram.write ctl (config &&& ~~~hswepPciBoxCtlFrz)
    pure ()
  else pure ()

/-- `hswep_uncore_pci_disable_box` -/
def hswepUncorePciDisableBox : RegProgram 32 Unit := do
  let ctl := uncorePciBoxCtl box
  let (err, config) ← RegProgram.read ctl
  if err = 0 then
    let _ ← RegProgram.write ctl (config ||| hswepPciBoxCtlFrz)
    pure ()
  else pure ()

/-- `hswep_uncore_pci_enable_event` -/
def hswepUncorePciEnableEvent (event : UncoreEvent) : RegProgram 32 Unit := do
  let _ ← RegProgram.write (uncorePciPerfCtl box) (event.enable.setWidth 32)
  pure ()

/-- `hswep_uncore_pci_disable_event` -/
def hswepUncorePciDisableEvent (event : UncoreEvent) : RegProgram 32 Unit := do
  let _ ← RegProgram.write (uncorePciPerfCtl box) (event.disable.setWidth 32)
  pure ()

/-- `hswep_uncore_pci_write_counter` -/
def hswepUncorePciWriteCounter (value : BitVec 64) : RegProgram 32 Unit := do
  let low := (value &&& 0xffffffff).setWidth 32
  let high := ((value &&& uncoreBoxCtrMask box) >>> 32).setWidth 32
  let _ ← RegProgram.write (uncorePciPerfCtr box) low
  let _ ← RegProgram.write (uncorePciPerfCtr box + 4) high
  pure ()

/-- `hswep_uncore_pci_read_counter` -/
def hswepUncorePciReadCounter : RegProgram 32 (BitVec 64) := do
  let (_, low) ← RegProgram.read (uncorePciPerfCtr box)
  let (_, high) ← RegProgram.read (uncorePciPerfCtr box + 4)
  pure (((high.setWidth 64 <<< 32) ||| low.setWidth 64) &&& uncoreBoxCtrMask box)

end Pci

/-- `HSWEP_UNCORE_PCI_BOX_OPS` -/
def hswepUncorePciBoxOps : UncoreBoxOps 32 where
  showBox := some hswepUncorePciShowBox
  initBox := some hswepUncorePciInitBox
  clearBox := some hswepUncorePciInitBox
  enableBox := some hswepUncorePciEnableBox
  disableBox := some hswepUncorePciDisableBox
  enableEvent := some hswepUncorePciEnableEvent
  disableEvent := some hswepUncorePciDisableEvent
  writeCounter := some hswepUncorePciWriteCounter
  readCounter := some hswepUncorePciReadCounter

/-! ## The box types of Haswell-EP -/

/-- `HSWEP_UNCORE_UBOX` -/
def hswepUncoreUbox : UncoreBoxType where
  numBoxes := 1
  perfCtrBits := 48
  perfCtr := 0x709
  perfCtl := 0x705
  boxStatus := 0x708

/-- `HSWEP_UNCORE_PCUBOX` -/
def hswepUncorePcubox : UncoreBoxType where
  numBoxes := 1
  perfCtrBits := 48
  perfCtr := 0x717
  perfCtl := 0x711
  boxCtl := 0x710
  boxStatus := 0x716

/-- `HSWEP_UNCORE_SBOX` -/
def hswepUncoreSbox : UncoreBoxType where
  numBoxes := 4
  perfCtrBits := 48
  perfCtr := 0x726
  perfCtl := 0x721
  boxCtl := 0x720
  boxStatus := 0x725
  msrOffset := 0xA

/-- `HSWEP_UNCORE_CBOX` -/
def hswepUncoreCbox : UncoreBoxType where
  numBoxes := 18
  perfCtrBits := 48
  perfCtr := 0xE08
  perfCtl := 0xE01
  boxCtl := 0xE00
  boxStatus := 0xE07
  msrOffset := 0x10

/-- `HSWEP_UNCORE_MSR_TYPE` -/
def hswepUncoreMsrType : List UncoreBoxType :=
  [hswepUncoreUbox, hswepUncorePcubox, hswepUncoreSbox, hswepUncoreCbox]

/-- A PCI type with the register block every counting PCI unit of Haswell-EP has. -/
def hswepPciPmon (numBoxes : Nat) : UncoreBoxType where
  numBoxes := numBoxes
  perfCtrBits := 48
  perfCtr := 0xA0
  perfCtl := 0xD8
  boxCtl := 0xF4
  boxStatus := 0xF8

/-- `HSWEP_UNCORE_HA` -/
def hswepUncoreHa : UncoreBoxType := hswepPciPmon 2

/-- `HSWEP_UNCORE_IMC` -/
def hswepUncoreImc : UncoreBoxType := hswepPciPmon 8

/-- `HSWEP_UNCORE_IRP`: no event select and no counter. -/
def hswepUncoreIrp : UncoreBoxType where
  numBoxes := 1
  boxCtl := 0xF4
  boxStatus := 0xF8

/-- `HSWEP_UNCORE_QPI` -/
def hswepUncoreQpi : UncoreBoxType := hswepPciPmon 3

/-- `HSWEP_UNCORE_R2PCIE` -/
def hswepUncoreR2pcie : UncoreBoxType := hswepPciPmon 1

/-- `HSWEP_UNCORE_R3QPI` -/
def hswepUncoreR3qpi : UncoreBoxType := hswepPciPmon 3

/-- `HSWEP_UNCORE_PCI_TYPE` -/
def hswepUncorePciType : List UncoreBoxType :=
  [hswepUncoreHa, hswepUncoreImc, hswepUncoreIrp, hswepUncoreQpi, hswepUncoreR2pcie,
    hswepUncoreR3qpi]

/-- The remote-read event of the home agent, `ha_requests_remote_reads`. -/
def haRequestsRemoteReads : UncoreEvent where
  enable := 1 <<< 22 ||| 1 <<< 20 ||| 0x0200 ||| 0x0001
  disable := 0

/-- Every PCI box type of the source describes a wired unit. -/
theorem pciLayout_wired {box : UncoreBox} (known : box.boxType ∈ hswepUncorePciType) :
    (pciLayout box).Wired := by
  have wired : ∀ type ∈ hswepUncorePciType, (pciLayout ⟨0, 0, type, none⟩).Wired := by
    decide
  exact wired box.boxType known

/-- Every MSR box the source creates, of a type with a box control register, is
a wired unit that has an event select. -/
theorem msrLayout_wired {box : UncoreBox} (known : box.boxType ∈ hswepUncoreMsrType)
    (created : box.idx < box.boxType.numBoxes) (control : box.boxType.boxCtl ≠ 0) :
    (msrLayout box).Wired ∧ (msrLayout box).perfCtl ≠ 0 := by
  obtain ⟨idx, nodeid, type, pdev⟩ := box
  have wired : ∀ type ∈ hswepUncoreMsrType, type.boxCtl ≠ 0 → ∀ idx < type.numBoxes,
      (msrLayout ⟨idx, 0, type, none⟩).Wired ∧
        (msrLayout ⟨idx, 0, type, none⟩).perfCtl ≠ 0 := by
    decide
  exact wired type known control idx created

end NvmEmulator.Uncore
