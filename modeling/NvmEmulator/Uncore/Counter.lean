/-
# Counters as memories

The counter of a frozen box keeps what `uncore_write_counter` puts there, as far as its
width goes. The MSR back end masks the value once; the PCI back end splits it in two
dwords, masks the upper one only, and masks again when it has joined them. Events may
come between any two accesses; a frozen box ignores them.
-/

import NvmEmulator.Semantics.Interference
import NvmEmulator.Uncore.Box

namespace NvmEmulator.Uncore

open NvmEmulator.Kernel NvmEmulator.Semantics

/-! ## Boxes under events -/

section Unit

variable {w : Nat} (layout : PmonLayout)

/-- An event, which moves the counters of a unit that is not frozen. -/
def Counts (before after : RegFile w) : Prop :=
  if layout.frozen before then after = before
  else ∀ addr, addr ∉ layout.counters → after addr = before addr

/-- A unit as a device. -/
def PmonLayout.device : Device (RegOp w) RegOp.Res (RegFile w) where
  exec := layout.exec

/-- The counter registers store what is written. -/
def PmonLayout.StoresCounters : Prop :=
  ∀ addr ∈ layout.counters, addr ≠ layout.boxCtl ∧ addr ≠ layout.boxStatus

/-- A wired unit does. -/
theorem PmonLayout.Wired.storesCounters {layout : PmonLayout} (wired : layout.Wired) :
    layout.StoresCounters := fun _ counter =>
  ⟨PmonLayout.counter_ne_boxCtl wired counter, PmonLayout.counter_ne_boxStatus wired counter⟩

/-- Accesses to the counter registers. -/
def PmonLayout.OnCounters : RegOp w → Prop
  | .read addr => addr ∈ layout.counters
  | .write addr _ => addr ∈ layout.counters

end Unit

section Calls

variable {w : Nat} (ops : UncoreBoxOps w) (box : UncoreBox)

/-- Write a value, and read it back. -/
def writeRead (value : BitVec 64) : RegProgram w (BitVec 64) := do
  uncoreWriteCounter ops box value
  uncoreReadCounter ops box 0

/-- Read the counter, write the value back, and read again. -/
def readWriteRead : RegProgram w (BitVec 64 × BitVec 64) := do
  let first ← uncoreReadCounter ops box 0
  uncoreWriteCounter ops box first
  let second ← uncoreReadCounter ops box 0
  pure (first, second)

/-- A program on the counter always returns, its result is as said, and no other register
changes. -/
def Yields {α : Type} (layout : PmonLayout) (program : RegProgram w α) (regs : RegFile w)
    (good : α → Prop) : Prop :=
  (∃ result after, Completes layout.device (Counts layout) program regs result after) ∧
  ∀ result after, Completes layout.device (Counts layout) program regs result after →
    good result ∧ ∀ addr, addr ∉ layout.counters → after addr = regs addr

/-- The counter is a memory of `perf_ctr_bits` bits. -/
structure Remembers (layout : PmonLayout) (regs : RegFile w) : Prop where
  written : ∀ value, Yields layout (writeRead ops box value) regs fun result =>
    result.toNat = value.toNat % 2 ^ box.boxType.perfCtrBits
  rewritten : Yields layout (readWriteRead ops box) regs fun results =>
    results.2 = results.1

end Calls

/-! ## The mask -/

theorem toNat_uncoreBoxCtrMask {box : UncoreBox} (width : box.boxType.perfCtrBits ≤ 63) :
    (uncoreBoxCtrMask box).toNat = 2 ^ box.boxType.perfCtrBits - 1 := by
  have small : 2 ^ box.boxType.perfCtrBits < 2 ^ 64 :=
    Nat.pow_lt_pow_right (by decide) (by omega)
  have positive : 0 < 2 ^ box.boxType.perfCtrBits := Nat.pow_pos (by decide)
  rw [uncoreBoxCtrMask, BitVec.toNat_sub, BitVec.toNat_shiftLeft, BitVec.toNat_ofNat,
    Nat.one_shiftLeft]
  simp
  omega

/-- The mask takes a value modulo the width. -/
theorem toNat_and_uncoreBoxCtrMask {box : UncoreBox} (width : box.boxType.perfCtrBits ≤ 63)
    (value : BitVec 64) :
    (value &&& uncoreBoxCtrMask box).toNat =
      value.toNat % 2 ^ box.boxType.perfCtrBits := by
  rw [BitVec.toNat_and, toNat_uncoreBoxCtrMask width, Nat.and_two_pow_sub_one_eq_mod]

/-- The two dwords of a value, the upper one masked, join to the value once they are masked
again. -/
theorem joined_and_mask (value mask : BitVec 64) :
    (((((value &&& mask) >>> 32).setWidth 32).setWidth 64 <<< 32) |||
        ((value &&& 0xffffffff).setWidth 32).setWidth 64) &&& mask = value &&& mask := by
  have low : ∀ index, index < 64 →
      (0xffffffff : BitVec 64).getLsbD index = decide (index < 32) := by decide
  apply BitVec.eq_of_getLsbD_eq
  intro index below
  simp only [BitVec.getLsbD_and, BitVec.getLsbD_or, BitVec.getLsbD_shiftLeft,
    BitVec.getLsbD_setWidth, BitVec.getLsbD_ushiftRight, low index below]
  by_cases half : index < 32
  · simp [half, below]
  · have upper : index - 32 < 32 := by omega
    have inside : index - 32 < 64 := by omega
    have back : 32 + (index - 32) = index := by omega
    simp [half, below, upper, inside, back]

/-! ## Running alone -/

section Alone

variable {w : Nat} {layout : PmonLayout} {regs : RegFile w}

theorem read_counter (stores : layout.StoresCounters) {addr : BitVec 32}
    (counter : addr ∈ layout.counters) (regs : RegFile w) :
    layout.read addr regs = regs addr :=
  PmonLayout.read_of_ne (stores addr counter).1 regs

theorem write_counter (stores : layout.StoresCounters) {addr : BitVec 32}
    (counter : addr ∈ layout.counters) (value : BitVec w) (regs : RegFile w) :
    layout.write addr value regs = Function.update regs addr value :=
  PmonLayout.write_of_plain (stores addr counter).1
    (fun same => absurd same (stores addr counter).2) value regs

/-- A counter access leaves every other register alone, the control register among them. -/
theorem exec_onCounters (stores : layout.StoresCounters) {op : RegOp w}
    (counter : layout.OnCounters op) (regs : RegFile w) {addr : BitVec 32}
    (other : addr ∉ layout.counters) : (layout.exec op regs).2 addr = regs addr := by
  cases op with
  | read place => rfl
  | write place value =>
      rw [PmonLayout.exec_write, write_counter stores counter]
      apply Function.update_of_ne
      intro same
      rw [same] at other
      exact other counter

/-- The box is frozen, and its registers other than the counters are as at first. -/
structure Held (layout : PmonLayout) (regs state : RegFile w) : Prop where
  frozen : layout.frozen state = true
  others : ∀ addr, addr ∉ layout.counters → state addr = regs addr

theorem Held.exec {state : RegFile w} (held : Held layout regs state)
    (stores : layout.StoresCounters) {op : RegOp w} (counter : layout.OnCounters op) :
    Held layout regs (layout.exec op state).2 := by
  have control : layout.boxCtl ∉ layout.counters := fun counter => (stores _ counter).1 rfl
  constructor
  · rw [PmonLayout.frozen, exec_onCounters stores counter state control]
    exact held.frozen
  · intro addr other
    rw [exec_onCounters stores counter state other]
    exact held.others addr other

/-- A program on the counters of a frozen box runs as if there were no events. -/
theorem yields_of_run {α : Type} {program : RegProgram w α} {good : α → Prop}
    (stores : layout.StoresCounters) (frozen : layout.frozen regs = true)
    (makes : program.Makes layout.OnCounters) (run : good (program.run layout.exec regs).1) :
    Yields layout program regs good := by
  have start : Held layout regs regs := ⟨frozen, fun _ _ => rfl⟩
  have keeps : program.Makes fun op => ∀ state, Held layout regs state →
      Held layout regs (layout.device.exec op state).2 :=
    makes.mono fun op counter state held => held.exec stores counter
  have still : ∀ before after, Held layout regs before → Counts layout before after →
      after = before := by
    intro before after held moves
    rwa [Counts, if_pos held.frozen] at moves
  constructor
  · exact ⟨_, _, reaches_run (makes.mono fun _ _ _ => trivial) regs⟩
  · intro result after completes
    have ends : (result, after) = program.run layout.exec regs :=
      Reaches.run_eq still keeps start completes
    have left : Held layout regs (program.run layout.exec regs).2 :=
      makes.run (fun op counter state held => held.exec stores counter) start
    rw [← ends] at run left
    exact ⟨run, left.others⟩

end Alone

/-! ## The two back ends -/

section BackEnd

variable {w : Nat} {ops : UncoreBoxOps w} {box : UncoreBox} {layout : PmonLayout}

/-- What the two methods of a back end do to the registers. -/
structure CounterMethods (ops : UncoreBoxOps w) (box : UncoreBox) (layout : PmonLayout)
    (get : RegFile w → BitVec 64) (put : BitVec 64 → RegFile w → RegFile w) : Prop where
  reads : ∀ regs, (uncoreReadCounter ops box 0).run layout.exec regs = (get regs, regs)
  writes : ∀ value regs,
    (uncoreWriteCounter ops box value).run layout.exec regs = ((), put value regs)
  back : ∀ value regs, get (put value regs) = value &&& uncoreBoxCtrMask box
  masked : ∀ regs, get regs &&& uncoreBoxCtrMask box = get regs
  read_makes : (uncoreReadCounter ops box 0).Makes layout.OnCounters
  write_makes : ∀ value, (uncoreWriteCounter ops box value).Makes layout.OnCounters

variable {get : RegFile w → BitVec 64} {put : BitVec 64 → RegFile w → RegFile w}

theorem CounterMethods.remembers (methods : CounterMethods ops box layout get put)
    (width : box.boxType.perfCtrBits ≤ 63) (stores : layout.StoresCounters)
    {regs : RegFile w} (frozen : layout.frozen regs = true) :
    Remembers ops box layout regs := by
  constructor
  · intro value
    apply yields_of_run stores frozen
    · exact (methods.write_makes value).bind fun _ => methods.read_makes
    · have run : ((writeRead ops box value).run layout.exec regs).1 =
          value &&& uncoreBoxCtrMask box := by
        rw [writeRead, Program.bind_eq, Program.run_bind, methods.writes, methods.reads]
        exact methods.back value regs
      rw [run]
      exact toNat_and_uncoreBoxCtrMask width value
  · apply yields_of_run stores frozen
    · apply methods.read_makes.bind
      intro first
      apply (methods.write_makes first).bind
      intro _
      exact methods.read_makes.bind fun _ => trivial
    · have run : ((readWriteRead ops box).run layout.exec regs).1 =
          (get regs, get (put (get regs) regs)) := by
        simp only [readWriteRead, Program.bind_eq, Program.run_bind, methods.writes,
          methods.reads]
        rfl
      rw [run]
      show get (put (get regs) regs) = get regs
      rw [methods.back, methods.masked]

end BackEnd

section Pci

variable {box : UncoreBox}

/-- The counter in two dwords of the configuration space. -/
def pciCounter (box : UncoreBox) (regs : RegFile 32) : BitVec 64 :=
  (((regs (uncorePciPerfCtr box + 4)).setWidth 64 <<< 32) |||
    (regs (uncorePciPerfCtr box)).setWidth 64) &&& uncoreBoxCtrMask box

/-- The two dwords written. -/
def pciPutCounter (box : UncoreBox) (value : BitVec 64) (regs : RegFile 32) : RegFile 32 :=
  Function.update
    (Function.update regs (uncorePciPerfCtr box) ((value &&& 0xffffffff).setWidth 32))
    (uncorePciPerfCtr box + 4) (((value &&& uncoreBoxCtrMask box) >>> 32).setWidth 32)

theorem pciCounterMethods (present : uncorePciPerfCtr box ≠ 0)
    (stores : (pciLayout box).StoresCounters) :
    CounterMethods hswepUncorePciBoxOps box (pciLayout box) (pciCounter box)
      (pciPutCounter box) := by
  have counters : (pciLayout box).counters =
      [uncorePciPerfCtr box, uncorePciPerfCtr box + 4] := if_neg present
  have low : uncorePciPerfCtr box ∈ (pciLayout box).counters := by
    rw [counters]
    exact List.mem_cons_self
  have high : uncorePciPerfCtr box + 4 ∈ (pciLayout box).counters := by
    rw [counters]
    exact List.mem_cons_of_mem _ List.mem_cons_self
  have apart : uncorePciPerfCtr box ≠ uncorePciPerfCtr box + 4 := by simp
  constructor
  · intro regs
    show (((((pciLayout box).read (uncorePciPerfCtr box + 4) regs).setWidth 64 <<< 32) |||
      ((pciLayout box).read (uncorePciPerfCtr box) regs).setWidth 64) &&&
        uncoreBoxCtrMask box, regs) = _
    rw [read_counter stores low, read_counter stores high]
    rfl
  · intro value regs
    show ((), (pciLayout box).write (uncorePciPerfCtr box + 4) _
      ((pciLayout box).write (uncorePciPerfCtr box) _ regs)) = _
    rw [write_counter stores high, write_counter stores low]
    rfl
  · intro value regs
    rw [pciCounter, pciPutCounter, Function.update_self, Function.update_of_ne apart,
      Function.update_self]
    exact joined_and_mask value (uncoreBoxCtrMask box)
  · intro regs
    rw [pciCounter, BitVec.and_assoc, BitVec.and_self]
  · exact ⟨low, fun _ => ⟨high, fun _ => trivial⟩⟩
  · intro value
    exact ⟨low, fun _ => ⟨high, fun _ => trivial⟩⟩

end Pci

section Msr

variable {box : UncoreBox}

/-- The counter in one register. -/
def msrCounter (box : UncoreBox) (regs : RegFile 64) : BitVec 64 :=
  regs (uncoreMsrPerfCtr box) &&& uncoreBoxCtrMask box

/-- The register written. -/
def msrPutCounter (box : UncoreBox) (value : BitVec 64) (regs : RegFile 64) : RegFile 64 :=
  Function.update regs (uncoreMsrPerfCtr box) (value &&& uncoreBoxCtrMask box)

theorem msrCounterMethods (present : uncoreMsrPerfCtr box ≠ 0)
    (stores : (msrLayout box).StoresCounters) :
    CounterMethods hswepUncoreMsrBoxOps box (msrLayout box) (msrCounter box)
      (msrPutCounter box) := by
  have counter : uncoreMsrPerfCtr box ∈ (msrLayout box).counters := by
    have counters : (msrLayout box).counters = [uncoreMsrPerfCtr box] := if_neg present
    rw [counters]
    exact List.mem_cons_self
  constructor
  · intro regs
    show ((msrLayout box).read (uncoreMsrPerfCtr box) regs &&& uncoreBoxCtrMask box, regs) = _
    rw [read_counter stores counter]
    rfl
  · intro value regs
    show ((), (msrLayout box).write (uncoreMsrPerfCtr box) _ regs) = _
    rw [write_counter stores counter]
    rfl
  · intro value regs
    rw [msrCounter, msrPutCounter, Function.update_self, BitVec.and_assoc, BitVec.and_self]
  · intro regs
    rw [msrCounter, BitVec.and_assoc, BitVec.and_self]
  · exact ⟨counter, fun _ => trivial⟩
  · intro value
    exact ⟨counter, fun _ => trivial⟩

end Msr

/-- **Counters are memories.** On a frozen box whose counter registers exist and store what
is written, either back end reads back a value modulo the width of the counter, a value
read and written back is read again, and no other register changes. -/
theorem counter_remembers (box : UncoreBox) (width : box.boxType.perfCtrBits ≤ 63) :
    (uncorePciPerfCtr box ≠ 0 → (pciLayout box).StoresCounters →
      ∀ regs : RegFile 32, (pciLayout box).frozen regs = true →
        Remembers hswepUncorePciBoxOps box (pciLayout box) regs) ∧
    (uncoreMsrPerfCtr box ≠ 0 → (msrLayout box).StoresCounters →
      ∀ regs : RegFile 64, (msrLayout box).frozen regs = true →
        Remembers hswepUncoreMsrBoxOps box (msrLayout box) regs) := by
  constructor
  · intro present stores regs frozen
    exact (pciCounterMethods present stores).remembers width stores frozen
  · intro present stores regs frozen
    exact (msrCounterMethods present stores).remembers width stores frozen

/-- A frozen home agent. -/
theorem counter_remembers_homeAgent :
    Remembers hswepUncorePciBoxOps ⟨0, 1, hswepUncoreHa, none⟩
      (pciLayout ⟨0, 1, hswepUncoreHa, none⟩) (fun _ => 0x100) := by
  apply (counter_remembers ⟨0, 1, hswepUncoreHa, none⟩ (by decide)).1
  · decide
  · exact (pciLayout_wired (by decide)).storesCounters
  · decide

end NvmEmulator.Uncore
