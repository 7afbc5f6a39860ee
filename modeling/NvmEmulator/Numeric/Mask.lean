/-
# Words within a mask

A word is within a mask when all its bits are bits of the mask. Bit by bit this is an
inclusion, so a word put together from parts is within a mask when its parts are.
-/

namespace NvmEmulator.Numeric

variable {w : Nat}

/-- All bits of the word are bits of the mask. -/
def Within (word mask : BitVec w) : Prop := word &&& ~~~mask = 0

instance (word mask : BitVec w) : Decidable (Within word mask) :=
  inferInstanceAs (Decidable (word &&& ~~~mask = 0))

theorem within_iff (word mask : BitVec w) :
    Within word mask ↔ ∀ i, word.getLsbD i = true → mask.getLsbD i = true := by
  show word &&& ~~~mask = 0#w ↔ _
  rw [BitVec.zero_iff_eq_false]
  apply forall_congr'
  intro i
  rw [BitVec.getLsbD_and, BitVec.getLsbD_not]
  by_cases inside : i < w
  · rw [decide_eq_true inside]
    cases word.getLsbD i <;> cases mask.getLsbD i <;> decide
  · rw [BitVec.getLsbD_of_ge word i (by omega)]
    simp

theorem within_or (first second mask : BitVec w) :
    Within (first ||| second) mask ↔ Within first mask ∧ Within second mask := by
  simp only [within_iff, BitVec.getLsbD_or, Bool.or_eq_true, or_imp, forall_and]

theorem within_and (word mask : BitVec w) : Within (word &&& mask) mask := by
  rw [within_iff]
  intro i bit
  rw [BitVec.getLsbD_and, Bool.and_eq_true] at bit
  exact bit.2

theorem within_zero (mask : BitVec w) : Within 0 mask := BitVec.zero_and

theorem Within.trans {word mask larger : BitVec w} (first : Within word mask)
    (second : Within mask larger) : Within word larger := by
  rw [within_iff] at first second ⊢
  exact fun i bit => second i (first i bit)

end NvmEmulator.Numeric
