/-
# Register files and PMON units

The uncore driver reaches hardware through two address spaces: model-specific
registers of 64 bits and PCI configuration space, read and written in dwords
(PMON units) or 16-bit words (memory controllers). All three are register files
here, differing in the width of a word, and a driver function is a program of
reads and writes.

A PMON unit is a register file in which two addresses are special: writing the
reset bits of the box control register clears the unit's event select and
counter, while the bits themselves read back as 0, and writing 1 to a status bit
clears it. Everything else stores what is written.
-/

import NvmEmulator.Semantics.Program
import Mathlib.Data.BitVec
import Mathlib.Data.List.Nodup

namespace NvmEmulator.Uncore

open NvmEmulator.Semantics

/-- One access to a register file with words of `w` bits. -/
inductive RegOp (w : Nat)
  | read (addr : BitVec 32)
  | write (addr : BitVec 32) (value : BitVec w)
  deriving DecidableEq

/-- A read answers an error code and what its destination then holds; a write
answers an error code. -/
abbrev RegOp.Res {w : Nat} : RegOp w → Type
  | .read _ => Int × BitVec w
  | .write _ _ => Int

/-- A driver function on one register file. -/
abbrev RegProgram (w : Nat) := Program (RegOp w) RegOp.Res

/-- The contents of a register file. -/
abbrev RegFile (w : Nat) := BitVec 32 → BitVec w

namespace RegProgram

variable {w : Nat}

/-- `pci_read_config_*` and `rdmsrl`. -/
def read (addr : BitVec 32) : RegProgram w (Int × BitVec w) :=
  Program.lift (RegOp.read addr)

/-- `pci_write_config_*` and `wrmsrl`. -/
def write (addr : BitVec 32) (value : BitVec w) : RegProgram w Int :=
  Program.lift (RegOp.write addr value)

end RegProgram

/-! ## Plain registers -/

/-- A register file whose accesses all succeed and that stores what is written. -/
def RegFile.exec {w : Nat} : (op : RegOp w) → RegFile w → op.Res × RegFile w
  | .read addr, regs => ((0, regs addr), regs)
  | .write addr value, regs => (0, Function.update regs addr value)

/-! ## PMON units -/

/-- Where a PMON unit has its registers. Address 0 stands for a register the
unit does not have. -/
structure PmonLayout where
  boxCtl : BitVec 32
  boxStatus : BitVec 32
  perfCtl : BitVec 32
  counters : List (BitVec 32)
  deriving DecidableEq

namespace PmonLayout

variable {w : Nat} (layout : PmonLayout)

/-- What the reset bits of a control word do: bit 0 clears the event select,
bit 1 the counter. -/
def reset (control : BitVec w) (regs : RegFile w) : RegFile w := fun addr =>
  if control.getLsbD 0 ∧ addr = layout.perfCtl ∧ addr ≠ 0 then 0
  else if control.getLsbD 1 ∧ addr ∈ layout.counters then 0
  else regs addr

/-- What a read finds. -/
def read (addr : BitVec 32) (regs : RegFile w) : BitVec w :=
  if addr = layout.boxCtl ∧ addr ≠ 0 then regs addr &&& ~~~3#w else regs addr

/-- The effect of a write on the unit. -/
def write (addr : BitVec 32) (value : BitVec w) (regs : RegFile w) : RegFile w :=
  if addr = layout.boxCtl ∧ addr ≠ 0 then
    Function.update (layout.reset value regs) addr value
  else if addr = layout.boxStatus ∧ addr ≠ 0 then
    Function.update regs addr (regs addr &&& ~~~value)
  else Function.update regs addr value

/-- Accesses to a PMON unit; all succeed. -/
def exec : (op : RegOp w) → RegFile w → op.Res × RegFile w
  | .read addr, regs => ((0, layout.read addr regs), regs)
  | .write addr value, regs => (0, layout.write addr value regs)

/-- A unit that has a box control register and no two registers at one address. -/
structure Wired : Prop where
  control : layout.boxCtl ≠ 0
  status_ne : layout.boxStatus ≠ layout.boxCtl
  select_ne : layout.perfCtl ≠ layout.boxCtl
  select_ne_status : layout.perfCtl = layout.boxStatus → layout.perfCtl = 0
  counters_nodup : layout.counters.Nodup
  control_not_counter : layout.boxCtl ∉ layout.counters
  status_not_counter : layout.boxStatus ∉ layout.counters
  select_not_counter : layout.perfCtl ∉ layout.counters

instance : Decidable layout.Wired :=
  decidable_of_iff
    (layout.boxCtl ≠ 0 ∧ layout.boxStatus ≠ layout.boxCtl ∧
      layout.perfCtl ≠ layout.boxCtl ∧
      (layout.perfCtl = layout.boxStatus → layout.perfCtl = 0) ∧
      layout.counters.Nodup ∧ layout.boxCtl ∉ layout.counters ∧
      layout.boxStatus ∉ layout.counters ∧ layout.perfCtl ∉ layout.counters)
    ⟨fun ⟨control, status, select, both, nodup, first, second, third⟩ =>
      ⟨control, status, select, both, nodup, first, second, third⟩,
      fun h => ⟨h.control, h.status_ne, h.select_ne, h.select_ne_status,
        h.counters_nodup, h.control_not_counter, h.status_not_counter,
        h.select_not_counter⟩⟩

/-- The freeze bit of the box control register. -/
def freezeBit (w : Nat) : BitVec w := 1#w <<< 8

theorem getLsbD_freezeBit (w index : Nat) :
    (freezeBit w).getLsbD index = (decide (index < w) && decide (index = 8)) := by
  rw [freezeBit, BitVec.getLsbD_shiftLeft, BitVec.getLsbD_one]
  by_cases below : index < 8
  · simp [below, Nat.ne_of_lt below]
  · by_cases same : index = 8
    · simp only [same, Nat.lt_irrefl, decide_false, Bool.not_false, Bool.and_true,
        Nat.sub_self, decide_true]
      by_cases wide : 8 < w <;> simp [wide]
      omega
    · have apart : index - 8 ≠ 0 := by omega
      simp [below, same, apart]

/-- The unit's counters stand still. -/
def frozen (regs : RegFile w) : Bool := (regs layout.boxCtl).getLsbD 8

variable {layout}

@[simp]
theorem exec_read (addr : BitVec 32) (regs : RegFile w) :
    layout.exec (.read addr) regs = ((0, layout.read addr regs), regs) := rfl

@[simp]
theorem exec_write (addr : BitVec 32) (value : BitVec w) (regs : RegFile w) :
    layout.exec (.write addr value) regs = (0, layout.write addr value regs) := rfl

theorem read_boxCtl (wired : layout.Wired) (regs : RegFile w) :
    layout.read layout.boxCtl regs = regs layout.boxCtl &&& ~~~3#w :=
  if_pos ⟨rfl, wired.control⟩

/-- The reset bits read back as 0. -/
theorem getLsbD_read_boxCtl (wired : layout.Wired) (regs : RegFile w) :
    (layout.read layout.boxCtl regs).getLsbD 0 = false ∧
      (layout.read layout.boxCtl regs).getLsbD 1 = false := by
  rw [read_boxCtl wired]
  have low : Nat.testBit 3 1 = true := rfl
  constructor <;> simp +contextual [BitVec.getLsbD_ofNat, low]

theorem read_of_ne {addr : BitVec 32} (other : addr ≠ layout.boxCtl)
    (regs : RegFile w) : layout.read addr regs = regs addr :=
  if_neg fun h => other h.1

theorem write_of_plain {addr : BitVec 32} (control : addr ≠ layout.boxCtl)
    (status : addr = layout.boxStatus → addr = 0) (value : BitVec w)
    (regs : RegFile w) :
    layout.write addr value regs = Function.update regs addr value := by
  rw [write, if_neg fun h => control h.1, if_neg fun h => h.2 (status h.1)]

theorem write_boxCtl (wired : layout.Wired) (value : BitVec w) (regs : RegFile w) :
    layout.write layout.boxCtl value regs =
      Function.update (layout.reset value regs) layout.boxCtl value :=
  if_pos ⟨rfl, wired.control⟩

/-- A control word without reset bits disturbs nothing but the control register. -/
theorem write_boxCtl_of_no_reset (wired : layout.Wired) {value : BitVec w}
    (keepsSelect : value.getLsbD 0 = false) (keepsCounter : value.getLsbD 1 = false)
    (regs : RegFile w) :
    layout.write layout.boxCtl value regs =
      Function.update regs layout.boxCtl value := by
  have unchanged : layout.reset value regs = regs := by
    funext addr
    simp [reset, keepsSelect, keepsCounter]
  rw [write_boxCtl wired, unchanged]

theorem write_perfCtl (wired : layout.Wired) (value : BitVec w) (regs : RegFile w) :
    layout.write layout.perfCtl value regs =
      Function.update regs layout.perfCtl value :=
  write_of_plain wired.select_ne wired.select_ne_status value regs

theorem write_counter (wired : layout.Wired) {addr : BitVec 32}
    (counter : addr ∈ layout.counters) (value : BitVec w) (regs : RegFile w) :
    layout.write addr value regs = Function.update regs addr value :=
  write_of_plain (fun same => wired.control_not_counter (same ▸ counter))
    (fun same => absurd (same ▸ counter) wired.status_not_counter) value regs

/-- A status write reaches nothing but the status register. -/
theorem write_boxStatus_of_ne (wired : layout.Wired) (value : BitVec w)
    (regs : RegFile w) {addr : BitVec 32} (other : addr ≠ layout.boxStatus) :
    layout.write layout.boxStatus value regs addr = regs addr := by
  rw [write, if_neg fun h => wired.status_ne h.1]
  split <;> exact Function.update_of_ne other _ _

theorem select_ne_boxStatus (wired : layout.Wired) (present : layout.perfCtl ≠ 0) :
    layout.perfCtl ≠ layout.boxStatus :=
  fun same => present (wired.select_ne_status same)

theorem counter_ne_boxCtl (wired : layout.Wired) {addr : BitVec 32}
    (counter : addr ∈ layout.counters) : addr ≠ layout.boxCtl :=
  fun same => wired.control_not_counter (same ▸ counter)

theorem counter_ne_boxStatus (wired : layout.Wired) {addr : BitVec 32}
    (counter : addr ∈ layout.counters) : addr ≠ layout.boxStatus :=
  fun same => wired.status_not_counter (same ▸ counter)

theorem counter_ne_perfCtl (wired : layout.Wired) {addr : BitVec 32}
    (counter : addr ∈ layout.counters) : addr ≠ layout.perfCtl :=
  fun same => wired.select_not_counter (same ▸ counter)

end PmonLayout

end NvmEmulator.Uncore
