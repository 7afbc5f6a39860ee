/-
# What register accesses do to a counting box

One lemma for each register a driver function touches: which part of the unit
changes, counter and ghost counts included. Whether the box counts depends on two
bits only, the freeze bit and bit 22 of the event select, and events change
nothing in a box that does not count.
-/

import NvmEmulator.Emulate.World

namespace NvmEmulator.Emulate

open NvmEmulator.Kernel NvmEmulator.Semantics NvmEmulator.Uncore

/-! ## The counter in two dwords -/

section Counter

variable {box : UncoreBox}

/-- The two dwords of a read make one 64-bit word. -/
theorem halves_eq_append (high low : BitVec 32) :
    (high.setWidth 64 <<< 32) ||| low.setWidth 64 = high ++ low := by
  apply BitVec.eq_of_getLsbD_eq
  intro index below
  rw [BitVec.getLsbD_or, BitVec.getLsbD_shiftLeft, BitVec.getLsbD_setWidth,
    BitVec.getLsbD_setWidth, BitVec.getLsbD_append]
  by_cases half : index < 32
  · simp [half]
    exact fun _ => below
  · have upper : low.getLsbD index = false := BitVec.getLsbD_of_ge _ _ (Nat.not_lt.mp half)
    simp [half, below, upper]
    intro _
    omega

/-- The counter mask keeps the low 48 bits. -/
theorem and_mask_eq (word : BitVec 64) :
    word &&& 0xffffffffffff#64 = (word.setWidth 48).setWidth 64 := by
  have bits : ∀ index, index < 64 →
      (0xffffffffffff#64).getLsbD index = decide (index < 48) := by decide
  apply BitVec.eq_of_getLsbD_eq
  intro index below
  rw [BitVec.getLsbD_and, bits index below, BitVec.getLsbD_setWidth, BitVec.getLsbD_setWidth]
  simp [below, Bool.and_comm]

theorem counterValue_setCounter (value : BitVec 48) (regs : RegFile 32) :
    counterValue box (setCounter box value regs) = value := by
  have apart : uncorePciPerfCtr box ≠ uncorePciPerfCtr box + 4 := by simp
  rw [counterValue, setCounter, Function.update_self, Function.update_of_ne apart,
    Function.update_self]
  apply BitVec.eq_of_getLsbD_eq
  intro index below
  rw [BitVec.getLsbD_setWidth, BitVec.getLsbD_append]
  by_cases low : index < 32
  · simp [low, below]
  · have high : index - 32 < 32 := by omega
    have back : 32 + (index - 32) = index := by omega
    simp [low, below, high, back]

/-- The counter depends on its two dwords only. -/
theorem counterValue_congr {before after : RegFile 32}
    (low : after (uncorePciPerfCtr box) = before (uncorePciPerfCtr box))
    (high : after (uncorePciPerfCtr box + 4) = before (uncorePciPerfCtr box + 4)) :
    counterValue box after = counterValue box before := by
  rw [counterValue, counterValue, low, high]

theorem setCounter_of_ne {addr : BitVec 32} (low : addr ≠ uncorePciPerfCtr box)
    (high : addr ≠ uncorePciPerfCtr box + 4) (value : BitVec 48) (regs : RegFile 32) :
    setCounter box value regs addr = regs addr := by
  rw [setCounter, Function.update_of_ne high, Function.update_of_ne low]

/-- Two cleared dwords are a cleared counter. -/
theorem counterValue_zero {regs : RegFile 32} (low : regs (uncorePciPerfCtr box) = 0)
    (high : regs (uncorePciPerfCtr box + 4) = 0) : counterValue box regs = 0 := by
  rw [counterValue, low, high]
  rfl

end Counter

/-! ## Boxes that count -/

/-- A wired PCI box whose counter is 48 bits wide. -/
structure CountingBox (box : UncoreBox) : Prop where
  wired : (pciLayout box).Wired
  select : uncorePciPerfCtl box ≠ 0
  counter : uncorePciPerfCtr box ≠ 0
  bits : box.boxType.perfCtrBits = 48

/-- Home-agent boxes are. -/
theorem countingBox_of_ha {box : UncoreBox} (agent : box.boxType = hswepUncoreHa) :
    CountingBox box := by
  refine ⟨pciLayout_wired (by simp [agent, hswepUncorePciType]), ?_, ?_, ?_⟩ <;>
    simp [uncorePciPerfCtl, uncorePciPerfCtr, agent, hswepUncoreHa, hswepPciPmon]

namespace CountingBox

variable {box : UncoreBox} (counting : CountingBox box)
include counting

theorem counters_eq : (pciLayout box).counters =
    [uncorePciPerfCtr box, uncorePciPerfCtr box + 4] :=
  if_neg counting.counter

theorem low_mem : uncorePciPerfCtr box ∈ (pciLayout box).counters := by
  rw [counting.counters_eq]
  exact List.mem_cons_self

theorem high_mem : uncorePciPerfCtr box + 4 ∈ (pciLayout box).counters := by
  rw [counting.counters_eq]
  exact List.mem_cons_of_mem _ List.mem_cons_self

end CountingBox

namespace PmonUnit

variable {box : UncoreBox}

/-- Whether a unit counts depends on its control register and its event select. -/
theorem counting_congr {before after : PmonUnit}
    (control : after.regs (uncorePciBoxCtl box) = before.regs (uncorePciBoxCtl box))
    (select : after.regs (uncorePciPerfCtl box) = before.regs (uncorePciPerfCtl box)) :
    after.counting box = before.counting box := by
  unfold counting PmonLayout.frozen
  rw [select]
  exact congrArg (fun word : BitVec 32 => _ && !word.getLsbD 8) control

/-- Events pass by a unit that does not count. -/
theorem arrive_of_not_counting {unit : PmonUnit} (still : unit.counting box = false) :
    unit.arrive box = unit := by
  rw [arrive, still]
  rfl

theorem exec_read (addr : BitVec 32) (unit : PmonUnit) :
    unit.exec box (.read addr) = ((0, (pciLayout box).read addr unit.regs), unit) := rfl

theorem note_write_boxCtl (value : BitVec 32) (unit : PmonUnit) :
    note box (.write (uncorePciBoxCtl box) value) unit =
      { unit with
        arrived := if value.getLsbD 1 then 0 else unit.arrived
        window := 0 } :=
  if_pos rfl

theorem note_write_of_ne {addr : BitVec 32} (other : addr ≠ uncorePciBoxCtl box)
    (value : BitVec 32) (unit : PmonUnit) : note box (.write addr value) unit = unit :=
  if_neg other

variable (counting : CountingBox box)
include counting

/-- A control word without reset bits changes the control register only. -/
theorem exec_write_boxCtl {value : BitVec 32} (keepsSelect : value.getLsbD 0 = false)
    (keepsCounter : value.getLsbD 1 = false) (unit : PmonUnit) :
    (unit.exec box (.write (uncorePciBoxCtl box) value)).2 =
      ⟨Function.update unit.regs (uncorePciBoxCtl box) value, unit.arrived, 0⟩ := by
  have plain : (pciLayout box).write (uncorePciBoxCtl box) value unit.regs = _ :=
    PmonLayout.write_boxCtl_of_no_reset counting.wired keepsSelect keepsCounter unit.regs
  rw [exec, note_write_boxCtl, keepsCounter, PmonLayout.exec_write, plain]
  rfl

/-- The event select is an ordinary register. -/
theorem exec_write_perfCtl (value : BitVec 32) (unit : PmonUnit) :
    (unit.exec box (.write (uncorePciPerfCtl box) value)).2 =
      { unit with regs := Function.update unit.regs (uncorePciPerfCtl box) value } := by
  have other : uncorePciPerfCtl box ≠ uncorePciBoxCtl box := counting.wired.select_ne
  have plain : (pciLayout box).write (uncorePciPerfCtl box) value unit.regs = _ :=
    PmonLayout.write_perfCtl counting.wired value unit.regs
  rw [exec, note_write_of_ne other, PmonLayout.exec_write, plain]
  rfl

/-- The dwords of the counter are ordinary registers. -/
theorem exec_write_counter {addr : BitVec 32} (mem : addr ∈ (pciLayout box).counters)
    (value : BitVec 32) (unit : PmonUnit) :
    (unit.exec box (.write addr value)).2 =
      { unit with regs := Function.update unit.regs addr value } := by
  have other : addr ≠ uncorePciBoxCtl box := PmonLayout.counter_ne_boxCtl counting.wired mem
  rw [exec, note_write_of_ne other, PmonLayout.exec_write,
    PmonLayout.write_counter counting.wired mem]

/-- The status register is not part of what the unit counts. -/
theorem exec_write_boxStatus (value : BitVec 32) (unit : PmonUnit) {addr : BitVec 32}
    (other : addr ≠ uncorePciBoxStatus box) :
    (unit.exec box (.write (uncorePciBoxStatus box) value)).2.regs addr = unit.regs addr ∧
      (unit.exec box (.write (uncorePciBoxStatus box) value)).2.arrived = unit.arrived := by
  have apart : uncorePciBoxStatus box ≠ uncorePciBoxCtl box := counting.wired.status_ne
  refine ⟨PmonLayout.write_boxStatus_of_ne counting.wired value unit.regs other, ?_⟩
  rw [exec, note_write_of_ne apart]

/-- The reset word empties the unit. -/
theorem exec_reset (unit : PmonUnit) :
    let reset := (unit.exec box (.write (uncorePciBoxCtl box) hswepPciBoxCtlInit)).2
    reset.counting box = false ∧ counterValue box reset.regs = 0 ∧ reset.arrived = 0 := by
  intro reset
  have written : reset.regs = Function.update
      ((pciLayout box).reset hswepPciBoxCtlInit unit.regs) (uncorePciBoxCtl box)
      hswepPciBoxCtlInit := PmonLayout.write_boxCtl counting.wired _ _
  have elsewhere : ∀ addr ≠ (pciLayout box).boxCtl,
      reset.regs addr = (pciLayout box).reset hswepPciBoxCtlInit unit.regs addr := by
    intro addr other
    rw [written]
    exact Function.update_of_ne other _ _
  have select : reset.regs (pciLayout box).perfCtl = 0 := by
    rw [elsewhere _ counting.wired.select_ne, PmonLayout.reset,
      if_pos ⟨by decide, rfl, counting.select⟩]
  have cleared : ∀ addr ∈ (pciLayout box).counters, reset.regs addr = 0 := by
    intro addr mem
    have apart : addr ≠ (pciLayout box).perfCtl :=
      PmonLayout.counter_ne_perfCtl counting.wired mem
    rw [elsewhere addr (PmonLayout.counter_ne_boxCtl counting.wired mem),
      PmonLayout.reset, if_neg fun selects => apart selects.2.1,
      if_pos ⟨by decide, mem⟩]
  refine ⟨?_, ?_, ?_⟩
  · have none : (reset.regs (uncorePciPerfCtl box)).getLsbD 22 = false :=
      congrArg (·.getLsbD 22) select
    rw [PmonUnit.counting, none, Bool.false_and]
  · exact counterValue_zero (cleared _ counting.low_mem) (cleared _ counting.high_mem)
  · have resets : hswepPciBoxCtlInit.getLsbD 1 = true := by decide
    show (note box (.write (uncorePciBoxCtl box) hswepPciBoxCtlInit) unit).arrived = 0
    rw [note_write_boxCtl, resets]
    rfl

/-- The reset word leaves no event selected. -/
theorem exec_reset_select (unit : PmonUnit) :
    ((unit.exec box (.write (uncorePciBoxCtl box) hswepPciBoxCtlInit)).2).regs
      (uncorePciPerfCtl box) = 0 := by
  have written : ((unit.exec box (.write (uncorePciBoxCtl box) hswepPciBoxCtlInit)).2).regs =
      Function.update ((pciLayout box).reset hswepPciBoxCtlInit unit.regs)
        (uncorePciBoxCtl box) hswepPciBoxCtlInit := PmonLayout.write_boxCtl counting.wired _ _
  have other : uncorePciPerfCtl box ≠ uncorePciBoxCtl box := counting.wired.select_ne
  rw [written, Function.update_of_ne other, PmonLayout.reset,
    if_pos ⟨by decide, rfl, counting.select⟩]

/-- A control word without reset bits leaves counter, event select and arrivals, and
opens a new window. -/
theorem exec_control {value : BitVec 32} (keepsSelect : value.getLsbD 0 = false)
    (keepsCounter : value.getLsbD 1 = false) (unit : PmonUnit) :
    let after := (unit.exec box (.write (uncorePciBoxCtl box) value)).2
    after.regs (uncorePciBoxCtl box) = value ∧
      after.regs (uncorePciPerfCtl box) = unit.regs (uncorePciPerfCtl box) ∧
      counterValue box after.regs = counterValue box unit.regs ∧
      after.arrived = unit.arrived ∧ after.window = 0 := by
  intro after
  have written : after = _ := exec_write_boxCtl counting keepsSelect keepsCounter unit
  have select : uncorePciPerfCtl box ≠ uncorePciBoxCtl box := counting.wired.select_ne
  have low : uncorePciPerfCtr box ≠ uncorePciBoxCtl box :=
    PmonLayout.counter_ne_boxCtl counting.wired counting.low_mem
  have high : uncorePciPerfCtr box + 4 ≠ uncorePciBoxCtl box :=
    PmonLayout.counter_ne_boxCtl counting.wired counting.high_mem
  rw [written]
  refine ⟨Function.update_self _ _ _, Function.update_of_ne select _ _,
    counterValue_congr ?_ ?_, rfl, rfl⟩
  · exact Function.update_of_ne low _ _
  · exact Function.update_of_ne high _ _

end PmonUnit

/-- Setting the freeze bit of a control word that was read. -/
theorem freeze_word {config : BitVec 32} (keepsSelect : config.getLsbD 0 = false)
    (keepsCounter : config.getLsbD 1 = false) :
    (config ||| hswepPciBoxCtlFrz).getLsbD 0 = false ∧
      (config ||| hswepPciBoxCtlFrz).getLsbD 1 = false ∧
      (config ||| hswepPciBoxCtlFrz).getLsbD 8 = true := by
  refine ⟨?_, ?_, ?_⟩
  · rw [BitVec.getLsbD_or, keepsSelect]
    rfl
  · rw [BitVec.getLsbD_or, keepsCounter]
    rfl
  · rw [BitVec.getLsbD_or]
    exact Bool.or_true _

/-- Clearing the freeze bit of a control word that was read. -/
theorem unfreeze_word {config : BitVec 32} (keepsSelect : config.getLsbD 0 = false)
    (keepsCounter : config.getLsbD 1 = false) :
    (config &&& ~~~hswepPciBoxCtlFrz).getLsbD 0 = false ∧
      (config &&& ~~~hswepPciBoxCtlFrz).getLsbD 1 = false ∧
      (config &&& ~~~hswepPciBoxCtlFrz).getLsbD 8 = false := by
  refine ⟨?_, ?_, ?_⟩
  · rw [BitVec.getLsbD_and, keepsSelect, Bool.false_and]
  · rw [BitVec.getLsbD_and, keepsCounter, Bool.false_and]
  · rw [BitVec.getLsbD_and]
    exact Bool.and_false _

end NvmEmulator.Emulate
