/-
# The Haswell memory controller

A Haswell channel throttles through three 16-bit words of its PCI configuration
space, one per DIMM. Bits 11:0 (`THRT_PWR`) limit the power, and so the
bandwidth; bit 15 (`THRT_PER_EN`) enables the limit. Each method of the source
walks the three words with one read-modify-write, so each is `forDimms` applied
to the method's own update.
-/

import NvmEmulator.Uncore.Imc

namespace NvmEmulator.Uncore

open NvmEmulator.Kernel NvmEmulator.Semantics

/-- `0x190 + 2 * i` -/
def dimmOffset (i : Nat) : BitVec 32 := 0x190 + 2 * BitVec.ofNat 32 i

/-- The loop over the DIMMs of a channel: read a word, update it, write it back. -/
def forDimms (update : BitVec 16 → BitVec 16) : RegProgram 16 Unit :=
  Program.forEach
    (fun i => do
      let (_, config) ← RegProgram.read (dimmOffset i)
      let _ ← RegProgram.write (dimmOffset i) (update config)
      pure ())
    [0, 1, 2]

/-- The `THRT_PWR` limit `hswep_imc_set_threshold` programs for a threshold. -/
def thrtPwr (threshold : Nat) : BitVec 16 :=
  match threshold with
  | 2 => 0x00ff
  | 4 => 0x007f
  | _ => 0x0fff

/-- `hswep_imc_set_threshold` -/
def hswepImcSetThreshold (threshold : Nat) : RegProgram 16 Int := do
  forDimms fun config => (config &&& (1#16 <<< 15)) ||| thrtPwr threshold
  pure 0

/-- `hswep_imc_enable_throttle` -/
def hswepImcEnableThrottle : RegProgram 16 Int := do
  forDimms fun config => config ||| (1#16 <<< 15)
  pure 0

/-- `hswep_imc_disable_throttle` -/
def hswepImcDisableThrottle : RegProgram 16 Unit :=
  forDimms fun config => config &&& ~~~(1#16 <<< 15)

/-- `HSWEP_E5_IMC_OPS`, given how a device's words are accessed. -/
def hswepE5ImcOps {Op : Type} {Res : Op → Type}
    (access : PciDev → (op : RegOp 16) → Program Op Res op.Res) : UncoreImcOps Op Res where
  setThreshold pdev threshold := (hswepImcSetThreshold threshold).hoist (access pdev)
  enableThrottle pdev := hswepImcEnableThrottle.hoist (access pdev)
  disableThrottle pdev := hswepImcDisableThrottle.hoist (access pdev)

/-! ## What a walk over the DIMMs does -/

/-- The three words the methods touch. -/
def dimmOffsets : List (BitVec 32) := [0, 1, 2].map dimmOffset

/-- The update of the three words of a channel. -/
def rewriteDimms (update : BitVec 16 → BitVec 16) (regs : RegFile 16) : RegFile 16 :=
  fun addr => if dimmOffsets.contains addr then update (regs addr) else regs addr

theorem rewriteDimms_of_mem {update : BitVec 16 → BitVec 16} {regs : RegFile 16}
    {addr : BitVec 32} (dimm : addr ∈ dimmOffsets) :
    rewriteDimms update regs addr = update (regs addr) :=
  if_pos (List.contains_iff_mem.mpr dimm)

theorem rewriteDimms_of_notMem {update : BitVec 16 → BitVec 16} {regs : RegFile 16}
    {addr : BitVec 32} (plain : addr ∉ dimmOffsets) :
    rewriteDimms update regs addr = regs addr :=
  if_neg fun dimm => plain (List.contains_iff_mem.mp dimm)

/-- The walk applies the update to the three words and to nothing else. -/
theorem run_forDimms (update : BitVec 16 → BitVec 16) (regs : RegFile 16) :
    ((forDimms update).run RegFile.exec regs).2 =
      fun addr => if addr ∈ dimmOffsets then update (regs addr) else regs addr := by
  have first : dimmOffset 1 ≠ dimmOffset 0 := by decide
  have second : dimmOffset 2 ≠ dimmOffset 0 := by decide
  have third : dimmOffset 2 ≠ dimmOffset 1 := by decide
  funext addr
  show Function.update (Function.update (Function.update regs (dimmOffset 0) _)
    (dimmOffset 1) _) (dimmOffset 2) _ addr = _
  simp only [dimmOffsets, List.map_cons, List.map_nil, List.mem_cons, List.not_mem_nil,
    or_false]
  by_cases zero : addr = dimmOffset 0
  · subst zero
    simp [first.symm, second.symm, RegFile.exec]
  · by_cases one : addr = dimmOffset 1
    · subst one
      simp [third.symm, first, RegFile.exec]
    · by_cases two : addr = dimmOffset 2
      · subst two
        simp [second, third, RegFile.exec]
      · simp [zero, one, two]

/-- The same, as the update of a channel. -/
theorem run_forDimms_rewrite (update : BitVec 16 → BitVec 16) (regs : RegFile 16) :
    ((forDimms update).run RegFile.exec regs).2 = rewriteDimms update regs := by
  rw [run_forDimms]
  funext addr
  by_cases dimm : addr ∈ dimmOffsets
  · rw [if_pos dimm, rewriteDimms_of_mem dimm]
  · rw [if_neg dimm, rewriteDimms_of_notMem dimm]

/-! ## Devices side by side -/

/-- The configuration words of every device. -/
abbrev ImcBank := PciDev → RegFile 16

/-- Accesses addressed to a device of the bank. -/
def ImcBank.exec : (op : PciDev × RegOp 16) → ImcBank → op.2.Res × ImcBank
  | (pdev, op), bank =>
      ((RegFile.exec op (bank pdev)).1,
        Function.update bank pdev (RegFile.exec op (bank pdev)).2)

/-- An access to a device of the bank. -/
def ImcBank.access (pdev : PciDev) (op : RegOp 16) :
    Program (PciDev × RegOp 16) (·.2.Res) op.Res := .lift (pdev, op)

/-- A device's method runs on the device's own words. -/
theorem run_hoist_access {α : Type} (program : RegProgram 16 α) (pdev : PciDev)
    (bank : ImcBank) :
    (program.hoist (ImcBank.access pdev)).run ImcBank.exec bank =
      ((program.run RegFile.exec (bank pdev)).1,
        Function.update bank pdev (program.run RegFile.exec (bank pdev)).2) := by
  apply Program.run_hoist (fun bank : ImcBank => bank pdev)
    (fun bank regs => Function.update bank pdev regs)
  · intro op bank
    rfl
  · intro bank regs
    exact Function.update_self _ _ _
  · intro bank
    exact Function.update_eq_self _ _
  · intro bank first second
    exact Function.update_idem _ _ _

end NvmEmulator.Uncore
