/-
# Reserved bits

A reserved bit written to a register of the uncore faults, so `uncore_nhmep.c` assembles what
it writes from masks. This module follows every value that the operations of the driver
write, in sequences of operations in any order. One value escapes the masks: the local
variable of `nhm_uncore_enable_counting` is not initialised.
-/

import NvmEmulator.Nehalem.Pmu
import NvmEmulator.Numeric.Mask
import NvmEmulator.Semantics.Trace

namespace NvmEmulator.Nehalem

open NvmEmulator.Numeric NvmEmulator.Semantics NvmEmulator.Uncore

/-! ## Registers -/

/-- The registers that the driver writes. -/
inductive NhmRegister
  | globalCtrl
  | globalOvfCtrl
  | pmc (pmcid : Fin 8)
  | perfevtsel (pmcid : Fin 8)
  deriving DecidableEq

namespace NhmRegister

/-- Where a register is. -/
def addr : NhmRegister → BitVec 32
  | globalCtrl => nhmUncoreGlobalCtrl
  | globalOvfCtrl => nhmUncoreGlobalOvfCtrl
  | pmc pmcid => nhmUncorePmc0 + BitVec.ofNat 32 pmcid
  | perfevtsel pmcid => nhmUncorePerfevtsel0 + BitVec.ofNat 32 pmcid

/-- The writable bits of the global control: `EN_FRZ` only to freeze. -/
def ctrlMask (frz : Bool) : BitVec 64 :=
  nhmUncoreGlobalCtrlMask ||| if frz then nhmUncoreGlobalCtrlEnFrz else 0

/-- The writable bits of a select register. -/
def selMask : BitVec 64 :=
  nhmPerevtselEventMask ||| nhmPerevtselUnitMask ||| nhmPerevtselPmiEnable |||
    nhmPerevtselCountEnable

/-- A value that may be written. -/
def Accepts (frz : Bool) (value : BitVec 64) : NhmRegister → Prop
  | globalCtrl => Within value (ctrlMask frz)
  | globalOvfCtrl => Within value nhmUncoreGlobalOvfCtrlMask
  | pmc _ => value.toNat < 2 ^ 48
  | perfevtsel _ => Within value selMask

/-- Only the global control is at its address. -/
theorem addr_eq_ctrl {register : NhmRegister} (same : register.addr = nhmUncoreGlobalCtrl) :
    register = globalCtrl := by
  cases register with
  | globalCtrl => rfl
  | globalOvfCtrl => exact absurd same (by decide)
  | pmc pmcid => exact absurd same (by revert pmcid; decide)
  | perfevtsel pmcid => exact absurd same (by revert pmcid; decide)

theorem accepts_zero (frz : Bool) (register : NhmRegister) : register.Accepts frz 0 := by
  cases register with
  | globalCtrl => exact within_zero _
  | globalOvfCtrl => exact within_zero _
  | pmc pmcid => exact Nat.two_pow_pos 48
  | perfevtsel pmcid => exact within_zero _

end NhmRegister

/-- An access writes to a register of the driver what may be written there, if it writes. -/
def NhmOp.Keeps (frz : Bool) : NhmOp → Prop
  | .wrmsr _ _ addr value =>
      ∃ register : NhmRegister, register.addr = addr ∧ register.Accepts frz value
  | _ => True

/-! ## Sequences of operations -/

/-- An operation of the driver, with its arguments. The mask of `clear_ovf` are the counters'
bits of a status word, as in `nhm_uncore_nmi_handler`; `garbage` is what the local variable
of `enable_counting` holds at first. -/
inductive NhmCall
  | clearMsrs
  | clearOvf (status : BitVec 64)
  | setEvent (pmcid : Fin 8) (event : NhmUncoreEventId) (pmcval : BitVec 64)
  | enableCounting (garbage : BitVec 64) (frz : Int)
  | disableCounting

namespace NhmCall

/-- The operation on a processor of a node. -/
def program (node : Node) : NhmCall → NhmProgram Unit
  | clearMsrs => nhmUncoreClearMsrs node
  | clearOvf status => nhmUncoreClearOvf node (status &&& nhmUncorePmcMask)
  | setEvent pmcid event pmcval => nhmUncoreSetEvent node pmcid event pmcval
  | enableCounting garbage frz => nhmUncoreEnableCounting node garbage (decide (frz ≠ 0))
  | disableCounting => nhmUncoreDisableCounting node

/-- The operation is asked to freeze. -/
def frz : NhmCall → Bool
  | enableCounting _ frz => decide (frz ≠ 0)
  | _ => false

/-- What the operation finds in its uninitialised variable, if it has one, is writable. -/
def Clean : NhmCall → Prop
  | enableCounting garbage frz => Within garbage (NhmRegister.ctrlMask (decide (frz ≠ 0)))
  | _ => True

end NhmCall

/-- The world after some operations, each on a node. -/
def ranCalls (calls : List (Node × NhmCall)) (world : NhmWorld) : NhmWorld :=
  ((Program.forEach (fun call => call.2.program call.1) calls).run exec world).2

/-- Each operation of a sequence writes only what may be written. -/
def WritesWithin (calls : List (Node × NhmCall)) (world : NhmWorld) : Prop :=
  ∀ earlier call later, calls = earlier ++ call :: later →
    ∀ op ∈ (call.2.program call.1).trace exec (ranCalls earlier world), op.Keeps call.2.frz

/-! ## One operation -/

section Calls

variable {frz : Bool} {node : Node}

theorem makes_uncoreWrmsr (register : NhmRegister) {addr : BitVec 32} {value : BitVec 64}
    (same : register.addr = addr) (accepts : register.Accepts frz value) :
    (uncoreWrmsr .main node addr value).Makes (NhmOp.Keeps frz) :=
  ⟨⟨register, same, accepts⟩, fun _ => trivial⟩

theorem makes_nhmUncoreClearMsrs : (nhmUncoreClearMsrs node).Makes (NhmOp.Keeps frz) := by
  apply Program.Makes.bind
  · exact makes_uncoreWrmsr .globalCtrl rfl (within_zero _)
  intro _
  apply Program.Makes.bind
  · exact makes_uncoreWrmsr .globalOvfCtrl rfl
      (by decide : Within nhmUncoreGlobalOvfCtrlMask nhmUncoreGlobalOvfCtrlMask)
  intro _
  apply Program.Makes.forEach
  intro id listed
  let pmcid : Fin 8 := ⟨id, List.mem_range.mp listed⟩
  apply Program.Makes.bind
  · exact makes_uncoreWrmsr (.pmc pmcid) rfl (NhmRegister.accepts_zero frz (.pmc pmcid))
  · intro _
    exact makes_uncoreWrmsr (.perfevtsel pmcid) rfl (within_zero _)

theorem makes_nhmUncoreClearOvf (status : BitVec 64) :
    (nhmUncoreClearOvf node (status &&& nhmUncorePmcMask)).Makes (NhmOp.Keeps frz) := by
  apply makes_uncoreWrmsr .globalOvfCtrl rfl
  have counters : Within nhmUncorePmcMask nhmUncoreGlobalOvfCtrlMask := by decide
  have others : Within (nhmUncoreGlobalOvfPmi ||| nhmUncoreGlobalOvfChg)
      nhmUncoreGlobalOvfCtrlMask := by decide
  exact (within_or _ _ _).mpr ⟨(within_and _ _).trans counters, others⟩

/-- Every event's select value has an event, a unit mask and the two enable bits. -/
theorem selval_within (event : NhmUncoreEventId) :
    Within (nhmUncoreEventMap event ||| nhmPerevtselCountEnable ||| nhmPerevtselPmiEnable)
      NhmRegister.selMask := by
  cases event <;> decide

theorem makes_nhmUncoreSetEvent (pmcid : Fin 8) (event : NhmUncoreEventId)
    (pmcval : BitVec 64) :
    (nhmUncoreSetEvent node pmcid event pmcval).Makes (NhmOp.Keeps frz) := by
  apply Program.Makes.bind
  · apply makes_uncoreWrmsr (.pmc pmcid) (BitVec.add_comm _ _)
    show (pmcval &&& nhmUncorePmcValueMask).toNat < 2 ^ 48
    rw [BitVec.toNat_and]
    exact Nat.lt_of_le_of_lt Nat.and_le_right (by decide)
  · intro _
    exact makes_uncoreWrmsr (.perfevtsel pmcid) (BitVec.add_comm _ _)
      (selval_within event)

/-- What `nhm_uncore_enable_counting` adds to its variable is writable. -/
theorem enableMask_within (garbage : BitVec 64) (frz : Bool) :
    Within (enableMask garbage frz) (NhmRegister.ctrlMask frz) ↔
      Within garbage (NhmRegister.ctrlMask frz) := by
  have counters : Within nhmUncorePmcMask (NhmRegister.ctrlMask frz) := by
    cases frz <;> decide
  have pmi : Within nhmUncoreGlobalCtrlEnPmi (NhmRegister.ctrlMask frz) := by
    cases frz <;> decide
  have freeze : Within nhmUncoreGlobalCtrlEnFrz (NhmRegister.ctrlMask true) := by decide
  rw [enableMask, within_or, within_or, and_iff_left pmi, and_iff_left counters]
  cases frz with
  | false => rfl
  | true => exact (within_or _ _ _).trans (and_iff_left freeze)

theorem makes_program {call : NhmCall} (clean : call.Clean) :
    (call.program node).Makes (NhmOp.Keeps call.frz) := by
  cases call with
  | clearMsrs => exact makes_nhmUncoreClearMsrs
  | clearOvf status => exact makes_nhmUncoreClearOvf status
  | setEvent pmcid event pmcval => exact makes_nhmUncoreSetEvent pmcid event pmcval
  | enableCounting garbage frz =>
      exact makes_uncoreWrmsr .globalCtrl rfl ((enableMask_within _ _).mpr clean)
  | disableCounting => exact makes_uncoreWrmsr .globalCtrl rfl (within_zero _)

/-- An operation that is not clean writes what it found. -/
theorem clean_of_keeps {call : NhmCall} {world : NhmWorld}
    (keeps : ∀ op ∈ (call.program node).trace exec world, op.Keeps call.frz) : call.Clean := by
  cases call with
  | enableCounting garbage frz =>
      rcases keeps (.wrmsr .main node nhmUncoreGlobalCtrl (enableMask garbage (decide (frz ≠ 0))))
        List.mem_cons_self with ⟨register, same, accepts⟩
      rw [NhmRegister.addr_eq_ctrl same] at accepts
      exact (enableMask_within _ _).mp accepts
  | _ => trivial

end Calls

/-! ## The theorem -/

/-- **Reserved bits.** All operations of a sequence write within the masks just when no
`enable_counting` finds a stray bit in its variable. -/
theorem writesWithin_iff (calls : List (Node × NhmCall)) (world : NhmWorld) :
    WritesWithin calls world ↔ ∀ call ∈ calls, call.2.Clean := by
  constructor
  · intro within call listed
    rcases List.append_of_mem listed with ⟨earlier, later, split⟩
    exact clean_of_keeps (within earlier call later split)
  · intro clean earlier call later split
    have listed : call ∈ calls := by
      rw [split]
      exact List.mem_append_right _ List.mem_cons_self
    exact (makes_program (clean call listed)).trace exec _

/-- Bit 8 of the global control is reserved. -/
theorem not_writesWithin_bit8 :
    ¬ ∀ (calls : List (Node × NhmCall)) (world : NhmWorld), WritesWithin calls world := by
  intro claim
  have within := claim [(.zero, .enableCounting 0x100 0)] { msrs := fun _ _ => 0 }
  have clean := clean_of_keeps (within [] _ [] rfl)
  exact absurd clean (by decide : ¬ Within (0x100 : BitVec 64) (NhmRegister.ctrlMask false))

end NvmEmulator.Nehalem
