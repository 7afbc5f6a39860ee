/-
# Registers a box does not have

A box type gives address 0 for a register its boxes do not have. An operation that needs
such a register should leave the device alone: for a PCI box address 0 is the header of the
configuration space, for an MSR box it is whatever register the box's offset names.

Only the MSR back end tests for it, and only in three operations, after the offset has been
added. What each operation needs is stated per back end; a sequence of operations stays
within the registers the box has exactly if each of them finds what it needs.
-/

import NvmEmulator.Uncore.Box

namespace NvmEmulator.Uncore

open NvmEmulator.Kernel NvmEmulator.Semantics

/-! ## Operations -/

/-- A generic operation that may write to a box. -/
inductive BoxOperation
  | initBox
  | clearBox
  | enableBox
  | disableBox
  | enableEvent (event : UncoreEvent)
  | disableEvent (event : UncoreEvent)
  | writeCounter (value : BitVec 64)
  deriving DecidableEq

/-- The driver code of an operation. -/
def BoxOperation.program {w : Nat} (ops : UncoreBoxOps w) (box : UncoreBox) :
    BoxOperation → RegProgram w Unit
  | .initBox => uncoreInitBox ops box
  | .clearBox => uncoreClearBox ops box
  | .enableBox => uncoreEnableBox ops box
  | .disableBox => uncoreDisableBox ops box
  | .enableEvent event => uncoreEnableEvent ops box event
  | .disableEvent event => uncoreDisableEvent ops box event
  | .writeCounter value => uncoreWriteCounter ops box value

/-- A sequence of operations on a box. -/
def runOperations {w : Nat} (ops : UncoreBoxOps w) (box : UncoreBox)
    (operations : List BoxOperation) : RegProgram w Unit :=
  Program.forEach (BoxOperation.program ops box) operations

/-! ## What a box has -/

/-- A write goes to one of the addresses. -/
def WritesTo {w : Nat} (addresses : BitVec 32 → Prop) : RegOp w → Prop
  | .read _ => True
  | .write addr _ => addresses addr

/-- The registers a PCI box has. -/
def PciPresent (box : UncoreBox) (addr : BitVec 32) : Prop :=
  addr ≠ 0 ∧
    (box.boxType.boxCtl ≠ 0 ∧ addr = uncorePciBoxCtl box ∨
      box.boxType.boxStatus ≠ 0 ∧ addr = uncorePciBoxStatus box ∨
      box.boxType.perfCtl ≠ 0 ∧ addr = uncorePciPerfCtl box ∨
      box.boxType.perfCtr ≠ 0 ∧
        (addr = uncorePciPerfCtr box ∨ addr = uncorePciPerfCtr box + 4))

/-- The registers an MSR box has. -/
def MsrPresent (box : UncoreBox) (addr : BitVec 32) : Prop :=
  box.boxType.boxCtl ≠ 0 ∧ addr = uncoreMsrBoxCtl box ∨
    box.boxType.boxStatus ≠ 0 ∧ addr = uncoreMsrBoxStatus box ∨
    box.boxType.perfCtl ≠ 0 ∧ addr = uncoreMsrPerfCtl box ∨
    box.boxType.perfCtr ≠ 0 ∧ addr = uncoreMsrPerfCtr box

/-- A PCI box of the type has what an operation writes. The counter takes two dwords. -/
def PciHonours (boxType : UncoreBoxType) : BoxOperation → Prop
  | .initBox | .clearBox => boxType.boxCtl ≠ 0 ∧ boxType.boxStatus ≠ 0
  | .enableBox | .disableBox => boxType.boxCtl ≠ 0
  | .enableEvent _ | .disableEvent _ => boxType.perfCtl ≠ 0
  | .writeCounter _ => boxType.perfCtr ≠ 0 ∧ boxType.perfCtr + 4 ≠ 0

/-- An MSR box has what an operation writes, or the test of the operation works because
the box's offset is 0. -/
def MsrHonours (box : UncoreBox) : BoxOperation → Prop
  | .initBox | .clearBox | .enableBox | .disableBox =>
      box.boxType.boxCtl ≠ 0 ∨ uncoreMsrBoxOffset box = 0
  | .enableEvent _ | .disableEvent _ => box.boxType.perfCtl ≠ 0
  | .writeCounter _ => box.boxType.perfCtr ≠ 0

instance (boxType : UncoreBoxType) (operation : BoxOperation) :
    Decidable (PciHonours boxType operation) := by
  cases operation <;> unfold PciHonours <;> infer_instance

/-! ## One operation -/

/-- Each register access can be answered. -/
instance {w : Nat} (op : RegOp w) : Nonempty op.Res := by
  cases op with
  | read addr => exact ⟨((0, 0) : Int × BitVec w)⟩
  | write addr value => exact ⟨(0 : Int)⟩

section Pci

variable (box : UncoreBox) (addresses : BitVec 32 → Prop)

/-- The registers an operation on a PCI box writes. -/
def pciWrites : BoxOperation → Prop
  | .initBox | .clearBox =>
      addresses (uncorePciBoxCtl box) ∧ addresses (uncorePciBoxStatus box)
  | .enableBox | .disableBox => addresses (uncorePciBoxCtl box)
  | .enableEvent _ | .disableEvent _ => addresses (uncorePciPerfCtl box)
  | .writeCounter _ =>
      addresses (uncorePciPerfCtr box) ∧ addresses (uncorePciPerfCtr box + 4)

/-- A single write. -/
theorem makes_write {w : Nat} (addr : BitVec 32) (value : BitVec w) :
    ((RegProgram.write addr value).bind fun _ => (Program.ret () : RegProgram w Unit)).Makes
      (WritesTo addresses) ↔ addresses addr := by
  constructor
  · exact fun makes => makes.1
  · exact fun writes => ⟨writes, fun _ => trivial⟩

/-- A register that is read, and written back if the read succeeds. -/
theorem makes_readModifyWrite (addr : BitVec 32) (update : BitVec 32 → BitVec 32) :
    ((RegProgram.read addr).bind fun answer =>
      if answer.1 = 0 then
        (RegProgram.write addr (update answer.2)).bind fun _ =>
          (Program.ret () : RegProgram 32 Unit)
      else .ret ()).Makes (WritesTo addresses) ↔ addresses addr := by
  constructor
  · intro makes
    have fine := makes.2 ((0, 0) : Int × BitVec 32)
    exact (makes_write addresses addr (update 0)).mp fine
  · intro writes
    refine ⟨trivial, fun answer => ?_⟩
    show (if (show Int × BitVec 32 from answer).1 = 0 then _ else _ : RegProgram 32 Unit).Makes _
    split
    · exact (makes_write addresses addr _).mpr writes
    · trivial

theorem pci_makes_iff (operation : BoxOperation) :
    (operation.program hswepUncorePciBoxOps box).Makes (WritesTo addresses) ↔
      pciWrites box addresses operation := by
  have initBox : (hswepUncorePciInitBox box).Makes (WritesTo addresses) ↔
      addresses (uncorePciBoxCtl box) ∧ addresses (uncorePciBoxStatus box) := by
    constructor
    · exact fun makes => ⟨makes.1, (makes.2 (0 : Int)).1⟩
    · exact fun writes => ⟨writes.1, fun _ => ⟨writes.2, fun _ => trivial⟩⟩
  cases operation with
  | initBox => exact initBox
  | clearBox => exact initBox
  | enableBox =>
      exact makes_readModifyWrite addresses (uncorePciBoxCtl box) (· &&& ~~~hswepPciBoxCtlFrz)
  | disableBox =>
      exact makes_readModifyWrite addresses (uncorePciBoxCtl box) (· ||| hswepPciBoxCtlFrz)
  | enableEvent event => exact makes_write addresses (uncorePciPerfCtl box) _
  | disableEvent event => exact makes_write addresses (uncorePciPerfCtl box) _
  | writeCounter value =>
      constructor
      · exact fun makes => ⟨makes.1, (makes.2 (0 : Int)).1⟩
      · exact fun writes => ⟨writes.1, fun _ => ⟨writes.2, fun _ => trivial⟩⟩

end Pci

section Msr

variable (box : UncoreBox) (addresses : BitVec 32 → Prop)

/-- The registers an operation on an MSR box writes. -/
def msrWrites : BoxOperation → Prop
  | .initBox | .clearBox | .enableBox | .disableBox =>
      uncoreMsrBoxCtl box ≠ 0 → addresses (uncoreMsrBoxCtl box)
  | .enableEvent _ | .disableEvent _ => addresses (uncoreMsrPerfCtl box)
  | .writeCounter _ => addresses (uncoreMsrPerfCtr box)

/-- What is done only if the register has an address. -/
theorem makes_ifPresent {addr : BitVec 32} {program : RegProgram 64 Unit}
    (writes : program.Makes (WritesTo addresses) ↔ addresses addr) :
    (if addr ≠ 0 then program else pure ()).Makes (WritesTo addresses) ↔
      (addr ≠ 0 → addresses addr) := by
  by_cases here : addr ≠ 0
  · rw [if_pos here, writes]
    exact ⟨fun made _ => made, fun made => made here⟩
  · rw [if_neg here]
    exact ⟨fun _ there => absurd there here, fun _ => trivial⟩

theorem msr_makes_iff (operation : BoxOperation) :
    (operation.program hswepUncoreMsrBoxOps box).Makes (WritesTo addresses) ↔
      msrWrites box addresses operation := by
  have update : ∀ change : BitVec 64 → BitVec 64,
      ((rdmsrl (uncoreMsrBoxCtl box)).bind fun config =>
        wrmsrl (uncoreMsrBoxCtl box) (change config)).Makes (WritesTo addresses) ↔
        addresses (uncoreMsrBoxCtl box) := by
    intro change
    constructor
    · exact fun makes => (makes.2 ((0, 0) : Int × BitVec 64)).1
    · exact fun writes => ⟨trivial, fun _ => ⟨writes, fun _ => trivial⟩⟩
  cases operation with
  | initBox => exact makes_ifPresent addresses (makes_write addresses _ _)
  | clearBox => exact makes_ifPresent addresses (makes_write addresses _ _)
  | enableBox => exact makes_ifPresent addresses (update _)
  | disableBox => exact makes_ifPresent addresses (update _)
  | enableEvent event => exact makes_write addresses (uncoreMsrPerfCtl box) _
  | disableEvent event => exact makes_write addresses (uncoreMsrPerfCtl box) _
  | writeCounter value => exact makes_write addresses (uncoreMsrPerfCtr box) _

end Msr

/-! ## What the registers of a box are -/

/-- An operation on a PCI box stays within the box exactly if it finds what it needs. -/
theorem pciWrites_present_iff (box : UncoreBox) (operation : BoxOperation) :
    pciWrites box (PciPresent box) operation ↔ PciHonours box.boxType operation := by
  have boxCtl : PciPresent box (uncorePciBoxCtl box) ↔ box.boxType.boxCtl ≠ 0 :=
    ⟨fun present => present.1, fun here => ⟨here, Or.inl ⟨here, rfl⟩⟩⟩
  have boxStatus : PciPresent box (uncorePciBoxStatus box) ↔ box.boxType.boxStatus ≠ 0 :=
    ⟨fun present => present.1, fun here => ⟨here, Or.inr (Or.inl ⟨here, rfl⟩)⟩⟩
  have perfCtl : PciPresent box (uncorePciPerfCtl box) ↔ box.boxType.perfCtl ≠ 0 :=
    ⟨fun present => present.1, fun here => ⟨here, Or.inr (Or.inr (Or.inl ⟨here, rfl⟩))⟩⟩
  cases operation with
  | initBox => exact and_congr boxCtl boxStatus
  | clearBox => exact and_congr boxCtl boxStatus
  | enableBox => exact boxCtl
  | disableBox => exact boxCtl
  | enableEvent event => exact perfCtl
  | disableEvent event => exact perfCtl
  | writeCounter value =>
      constructor
      · exact fun present => ⟨present.1.1, present.2.1⟩
      · intro honours
        exact ⟨⟨honours.1, Or.inr (Or.inr (Or.inr ⟨honours.1, Or.inl rfl⟩))⟩,
          honours.2, Or.inr (Or.inr (Or.inr ⟨honours.1, Or.inr rfl⟩))⟩

/-- No register of an MSR box is at its bare offset. -/
theorem not_msrPresent_offset (box : UncoreBox) : ¬ MsrPresent box (uncoreMsrBoxOffset box) := by
  have apart : ∀ register : BitVec 32, register ≠ 0 →
      uncoreMsrBoxOffset box ≠ register + uncoreMsrBoxOffset box := by
    intro register here same
    exact here (BitVec.self_eq_add_left.mp same)
  intro present
  rcases present with ⟨here, same⟩ | ⟨here, same⟩ | ⟨here, same⟩ | ⟨here, same⟩
  · exact apart _ here same
  · exact apart _ here same
  · exact apart _ here same
  · exact apart _ here same

/-- A register the type does not have is at the bare offset. -/
theorem absent_addr {register : BitVec 32} (box : UncoreBox) (absent : register = 0) :
    register + uncoreMsrBoxOffset box = uncoreMsrBoxOffset box := by
  rw [absent]
  exact BitVec.zero_add _

/-- An operation on an MSR box stays within the box exactly if it finds what it needs. -/
theorem msrWrites_present_iff (box : UncoreBox) (operation : BoxOperation) :
    msrWrites box (MsrPresent box) operation ↔ MsrHonours box operation := by
  have control : (uncoreMsrBoxCtl box ≠ 0 → MsrPresent box (uncoreMsrBoxCtl box)) ↔
      box.boxType.boxCtl ≠ 0 ∨ uncoreMsrBoxOffset box = 0 := by
    constructor
    · intro present
      by_contra neither
      rcases not_or.mp neither with ⟨absent, offset⟩
      have bare : uncoreMsrBoxCtl box = uncoreMsrBoxOffset box :=
        absent_addr box (not_not.mp absent)
      rw [bare] at present
      exact not_msrPresent_offset box (present offset)
    · intro honours somewhere
      rcases honours with here | offset
      · exact Or.inl ⟨here, rfl⟩
      · by_cases here : box.boxType.boxCtl = 0
        · have bare : uncoreMsrBoxCtl box = uncoreMsrBoxOffset box := absent_addr box here
          exact absurd (bare.trans offset) somewhere
        · exact Or.inl ⟨here, rfl⟩
  have perfCtl : MsrPresent box (uncoreMsrPerfCtl box) ↔ box.boxType.perfCtl ≠ 0 := by
    constructor
    · intro present absent
      have bare : uncoreMsrPerfCtl box = uncoreMsrBoxOffset box := absent_addr box absent
      rw [bare] at present
      exact not_msrPresent_offset box present
    · exact fun here => Or.inr (Or.inr (Or.inl ⟨here, rfl⟩))
  have perfCtr : MsrPresent box (uncoreMsrPerfCtr box) ↔ box.boxType.perfCtr ≠ 0 := by
    constructor
    · intro present absent
      have bare : uncoreMsrPerfCtr box = uncoreMsrBoxOffset box := absent_addr box absent
      rw [bare] at present
      exact not_msrPresent_offset box present
    · exact fun here => Or.inr (Or.inr (Or.inr ⟨here, rfl⟩))
  cases operation with
  | initBox => exact control
  | clearBox => exact control
  | enableBox => exact control
  | disableBox => exact control
  | enableEvent event => exact perfCtl
  | disableEvent event => exact perfCtl
  | writeCounter value => exact perfCtr

/-- The end of the standard header of PCI configuration space. -/
def pciHeaderEnd : BitVec 32 := 0x40

/-- The registers of the known PCI types are behind the header. -/
theorem pciWrites_header_iff {box : UncoreBox} (known : box.boxType ∈ hswepUncorePciType)
    (operation : BoxOperation) :
    pciWrites box (pciHeaderEnd ≤ ·) operation ↔ PciHonours box.boxType operation := by
  have behind : ∀ boxType ∈ hswepUncorePciType,
      (pciHeaderEnd ≤ boxType.boxCtl ↔ boxType.boxCtl ≠ 0) ∧
      (pciHeaderEnd ≤ boxType.boxStatus ↔ boxType.boxStatus ≠ 0) ∧
      (pciHeaderEnd ≤ boxType.perfCtl ↔ boxType.perfCtl ≠ 0) ∧
      (pciHeaderEnd ≤ boxType.perfCtr ∧ pciHeaderEnd ≤ boxType.perfCtr + 4 ↔
        boxType.perfCtr ≠ 0 ∧ boxType.perfCtr + 4 ≠ 0) := by
    decide
  rcases behind box.boxType known with ⟨boxCtl, boxStatus, perfCtl, perfCtr⟩
  cases operation with
  | initBox => exact and_congr boxCtl boxStatus
  | clearBox => exact and_congr boxCtl boxStatus
  | enableBox => exact boxCtl
  | disableBox => exact boxCtl
  | enableEvent event => exact perfCtl
  | disableEvent event => exact perfCtl
  | writeCounter value => exact perfCtr

/-! ## The result -/

/-- A sequence of operations stays within the registers of its box exactly if the box has
what each of them writes; for the known PCI types it otherwise writes to the header. -/
theorem writesPresent_iff (box : UncoreBox) (operations : List BoxOperation) :
    ((runOperations hswepUncorePciBoxOps box operations).Makes (WritesTo (PciPresent box)) ↔
      ∀ operation ∈ operations, PciHonours box.boxType operation) ∧
    ((runOperations hswepUncoreMsrBoxOps box operations).Makes (WritesTo (MsrPresent box)) ↔
      ∀ operation ∈ operations, MsrHonours box operation) ∧
    (box.boxType ∈ hswepUncorePciType →
      ((runOperations hswepUncorePciBoxOps box operations).Makes (WritesTo (pciHeaderEnd ≤ ·)) ↔
        ∀ operation ∈ operations, PciHonours box.boxType operation)) := by
  refine ⟨?_, ?_, fun known => ?_⟩
  · rw [runOperations, Program.makes_forEach_iff]
    simp only [pci_makes_iff, pciWrites_present_iff]
  · rw [runOperations, Program.makes_forEach_iff]
    simp only [msr_makes_iff, msrWrites_present_iff]
  · rw [runOperations, Program.makes_forEach_iff]
    simp only [pci_makes_iff, pciWrites_header_iff known]

/-- Home agents have every register, so measuring on one leaves its header alone. -/
theorem writesPresent_homeAgent :
    (runOperations hswepUncorePciBoxOps ⟨1, 0, hswepUncoreHa, none⟩
      [.initBox, .enableEvent haRequestsRemoteReads, .enableBox, .writeCounter 0]).Makes
        (WritesTo (pciHeaderEnd ≤ ·)) :=
  ((writesPresent_iff ⟨1, 0, hswepUncoreHa, none⟩ [.initBox,
    .enableEvent haRequestsRemoteReads, .enableBox, .writeCounter 0]).2.2 (by decide)).mpr
    (by decide)

/-- An IRP box has no event select: enabling an event writes to the first dword of its
device's header. -/
theorem not_writesPresent_irp :
    hswepUncoreIrp ∈ hswepUncorePciType ∧
    ¬ (runOperations hswepUncorePciBoxOps ⟨0, 0, hswepUncoreIrp, none⟩
      [.enableEvent haRequestsRemoteReads]).Makes
        (WritesTo (PciPresent ⟨0, 0, hswepUncoreIrp, none⟩)) ∧
    ¬ (runOperations hswepUncorePciBoxOps ⟨0, 0, hswepUncoreIrp, none⟩
      [.enableEvent haRequestsRemoteReads]).Makes (WritesTo (pciHeaderEnd ≤ ·)) := by
  refine ⟨by decide, fun makes => makes.1.1 rfl, fun makes => ?_⟩
  have behind : pciHeaderEnd ≤ hswepUncoreIrp.perfCtl := makes.1
  exact absurd behind (by decide)

end NvmEmulator.Uncore
