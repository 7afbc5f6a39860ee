/-
# Enabling throttling with failing accesses

A configuration access can fail: a failing read leaves some word in its destination and a
failing write changes nothing. `hswep_imc_enable_throttle` looks at neither code and
returns 0, so the generic layer never sees a failure and its rollback is never taken. Here
the accesses of the call are numbered and any of them may fail.
-/

import NvmEmulator.Uncore.ImcHaswell

namespace NvmEmulator.Uncore

open NvmEmulator.Kernel NvmEmulator.Semantics

/-! ## Failing accesses -/

/-- Which accesses fail, by their number: the code, and what a read leaves behind. -/
structure AccessFaults where
  read : Nat → Option (Int × BitVec 16)
  write : Nat → Option Int

/-- The words of every device, and how many accesses have been made. -/
structure FaultyBank where
  bank : ImcBank
  accesses : Nat

/-- Accesses to a bank under a pattern of faults. -/
def FaultyBank.exec (faults : AccessFaults) :
    (op : PciDev × RegOp 16) → FaultyBank → op.2.Res × FaultyBank
  | (pdev, .read addr), state =>
      ((faults.read state.accesses).getD (0, state.bank pdev addr),
        { state with accesses := state.accesses + 1 })
  | (pdev, .write addr value), state =>
      match faults.write state.accesses with
      | some code => (code, { state with accesses := state.accesses + 1 })
      | none => (0,
          { bank := Function.update state.bank pdev
              (Function.update (state.bank pdev) addr value)
            accesses := state.accesses + 1 })

/-- What a round of `hswep_imc_enable_throttle` leaves in a word, its read having the given
number. -/
def enabledWord (faults : AccessFaults) (number : Nat) (config : BitVec 16) : BitVec 16 :=
  if (faults.write (number + 1)).isSome then config
  else ((faults.read number).getD (0, config)).2 ||| (1#16 <<< 15)

/-! ## One device -/

/-- What the method does to its device, whichever accesses fail. -/
structure EnabledUnder (faults : AccessFaults) (pdev : PciDev) (before after : FaultyBank) :
    Prop where
  accesses : after.accesses = before.accesses + 6
  words : ∀ i ∈ [0, 1, 2], after.bank pdev (dimmOffset i) =
    enabledWord faults (before.accesses + 2 * i) (before.bank pdev (dimmOffset i))
  others : ∀ other ≠ pdev, after.bank other = before.bank other

section Device

variable (faults : AccessFaults) (pdev : PciDev) (state : FaultyBank)

/-- One word: a read, and a write that changes this word only. -/
theorem run_enableWord (addr : BitVec 32) :
    ((Program.hoist (ImcBank.access pdev) (do
        let (_, config) ← RegProgram.read addr
        let _ ← RegProgram.write addr (config ||| (1#16 <<< 15))
        pure ())).run (FaultyBank.exec faults) state).2 =
      { bank := Function.update state.bank pdev (Function.update (state.bank pdev) addr
          (enabledWord faults state.accesses (state.bank pdev addr)))
        accesses := state.accesses + 2 } := by
  simp only [RegProgram.read, RegProgram.write, Program.lift, ImcBank.access, Program.bind_eq,
    Program.access_bind, Program.ret_bind, Program.pure_eq_ret, Program.hoist_access,
    Program.hoist_ret, Program.run_access, Program.run_ret, FaultyBank.exec]
  cases failed : faults.write (state.accesses + 1) with
  | some code =>
      simp [enabledWord, failed]
  | none =>
      simp [enabledWord, failed]

/-- The words, one after the other. -/
theorem run_forDimms_enable :
    (((forDimms fun config => config ||| (1#16 <<< 15)).hoist (ImcBank.access pdev)).run
      (FaultyBank.exec faults) state).2 =
      { bank := Function.update state.bank pdev (fun addr =>
          if addr = dimmOffset 0 then enabledWord faults state.accesses (state.bank pdev addr)
          else if addr = dimmOffset 1 then
            enabledWord faults (state.accesses + 2) (state.bank pdev addr)
          else if addr = dimmOffset 2 then
            enabledWord faults (state.accesses + 4) (state.bank pdev addr)
          else state.bank pdev addr)
        accesses := state.accesses + 6 } := by
  have first : dimmOffset 1 ≠ dimmOffset 0 := by decide
  have second : dimmOffset 2 ≠ dimmOffset 0 := by decide
  have third : dimmOffset 2 ≠ dimmOffset 1 := by decide
  rw [forDimms, Program.hoist_forEach]
  simp only [Program.forEach_cons, Program.forEach_nil, Program.run_bind, Program.run_ret,
    run_enableWord, Function.update_idem, Function.update_self]
  congr 2
  funext addr
  by_cases zero : addr = dimmOffset 0
  · subst zero
    simp [first.symm, second.symm]
  · by_cases one : addr = dimmOffset 1
    · subst one
      simp [first, third.symm]
    · by_cases two : addr = dimmOffset 2
      · subst two
        simp [second, third]
      · simp [zero, one, two]

/-- The method reports success, whatever failed. -/
theorem run_hswepImcEnableThrottle :
    ((hswepImcEnableThrottle.hoist (ImcBank.access pdev)).run (FaultyBank.exec faults)
      state).1 = 0 ∧
    EnabledUnder faults pdev state
      ((hswepImcEnableThrottle.hoist (ImcBank.access pdev)).run (FaultyBank.exec faults)
        state).2 := by
  have first : dimmOffset 1 ≠ dimmOffset 0 := by decide
  have second : dimmOffset 2 ≠ dimmOffset 0 := by decide
  have third : dimmOffset 2 ≠ dimmOffset 1 := by decide
  rw [hswepImcEnableThrottle, Program.bind_eq, Program.hoist_bind, Program.run_bind,
    run_forDimms_enable]
  refine ⟨rfl, rfl, ?_, ?_⟩
  · intro i dimm
    simp only [Program.pure_eq_ret, Program.hoist_ret, Program.run_ret, Function.update_self]
    rcases List.mem_cons.mp dimm with rfl | rest
    · simp
    · rcases List.mem_pair.mp rest with rfl | rfl
      · simp [first]
      · simp [second, third]
  · intro other apart
    exact Function.update_of_ne apart _ _

/-- A round of `uncore_imc_enable_throttle`: its rollback is never taken. -/
theorem run_enableDevice (devices : List UncoreImc) (node : Nat) :
    let round : Program (PciDev × RegOp 16) (·.2.Res) Int := do
      let ret ← (hswepE5ImcOps ImcBank.access).enableThrottle pdev
      if ret ≠ 0 then
        uncoreImcDisableThrottle (hswepE5ImcOps ImcBank.access) devices node
        pure ret
      else pure ret
    (round.run (FaultyBank.exec faults) state).1 = 0 ∧
      EnabledUnder faults pdev state (round.run (FaultyBank.exec faults) state).2 := by
  intro round
  have device := run_hswepImcEnableThrottle faults pdev state
  have ends : round.run (FaultyBank.exec faults) state =
      (hswepImcEnableThrottle.hoist (ImcBank.access pdev)).run (FaultyBank.exec faults)
        state := by
    simp only [round]
    rw [Program.bind_eq, Program.run_bind]
    show Program.run _ (if ((hswepImcEnableThrottle.hoist (ImcBank.access pdev)).run
      (FaultyBank.exec faults) state).1 ≠ 0 then _ else _) _ = _
    rw [if_neg (not_not.mpr device.1)]
    rfl
  rw [ends]
  exact device

end Device

/-! ## The devices of a node -/

/-- The walk over the devices of a node: the read of word `i` of its device number `index`
is access `6 * index + 2 * i`. -/
theorem run_enableDevices (faults : AccessFaults) {pdevs : List PciDev} (nodup : pdevs.Nodup)
    {body : PciDev → Program (PciDev × RegOp 16) (·.2.Res) Int}
    (device : ∀ pdev state, ((body pdev).run (FaultyBank.exec faults) state).1 = 0 ∧
      EnabledUnder faults pdev state ((body pdev).run (FaultyBank.exec faults) state).2)
    (code : Int) (state : FaultyBank) :
    let final := (Program.untilError body pdevs code).run (FaultyBank.exec faults) state
    (final.1 = if pdevs = [] then code else 0) ∧
    (∀ index (below : index < pdevs.length), ∀ i ∈ [0, 1, 2],
      final.2.bank pdevs[index] (dimmOffset i) =
        enabledWord faults (state.accesses + 6 * index + 2 * i)
          (state.bank pdevs[index] (dimmOffset i))) ∧
    ∀ other ∉ pdevs, final.2.bank other = state.bank other := by
  induction pdevs generalizing code state with
  | nil =>
      refine ⟨rfl, fun index below => absurd below (Nat.not_lt_zero index), fun _ _ => rfl⟩
  | cons pdev rest ih =>
      rcases List.nodup_cons.mp nodup with ⟨apart, restNodup⟩
      rcases device pdev state with ⟨zero, enabled⟩
      rcases ih restNodup 0 ((body pdev).run (FaultyBank.exec faults) state).2 with
        ⟨result, words, others⟩
      intro final
      have ends : final = (Program.untilError body rest 0).run (FaultyBank.exec faults)
          ((body pdev).run (FaultyBank.exec faults) state).2 := by
        simp only [final]
        rw [Program.untilError_cons, Program.run_bind, zero, if_pos rfl]
      rw [ends]
      refine ⟨?_, ?_, ?_⟩
      · rw [result, if_neg (List.cons_ne_nil pdev rest), ite_self]
      · intro index below i dimm
        cases index with
        | zero =>
            rw [List.getElem_cons_zero, others pdev apart]
            exact enabled.words i dimm
        | succ index =>
            have inRest : index < rest.length := Nat.lt_of_succ_lt_succ below
            have other : rest[index] ≠ pdev := fun same => apart (same ▸ List.getElem_mem inRest)
            rw [List.getElem_cons_succ, words index inRest i dimm, enabled.accesses,
              enabled.others _ other]
            congr 1
            omega
      · intro other outside
        have differs : other ≠ pdev := fun same => outside (same ▸ List.mem_cons_self)
        have absent : other ∉ rest := fun mem => outside (List.mem_cons_of_mem _ mem)
        rw [others other absent, enabled.others other differs]

/-! ## What is reported -/

/-- If the call on a node returns 0, every word of the node's devices has its enable bit set
and is otherwise as it was. -/
def EnableReported (devices : List UncoreImc) (node : Nat) (faults : AccessFaults)
    (bank : ImcBank) : Prop :=
  let final := (uncoreImcEnableThrottle (hswepE5ImcOps ImcBank.access) devices node).run
    (FaultyBank.exec faults) ⟨bank, 0⟩
  final.1 = 0 → ∀ pdev ∈ devicesOn devices node, ∀ i ∈ [0, 1, 2],
    final.2.bank pdev (dimmOffset i) = bank pdev (dimmOffset i) ||| (1#16 <<< 15)

/-- The accesses to a word do what they should: the write succeeds and its read did not
spoil the other bits, or the write fails and there was nothing to do. -/
def AccessesServe (faults : AccessFaults) (number : Nat) (config : BitVec 16) : Prop :=
  if (faults.write (number + 1)).isSome then config.getLsbD 15 = true
  else ∀ failed ∈ faults.read number, failed.2 ||| (1#16 <<< 15) = config ||| (1#16 <<< 15)

/-- Setting a bit that is set changes nothing, and only then. -/
theorem or_enable_eq_iff (config : BitVec 16) :
    config = config ||| (1#16 <<< 15) ↔ config.getLsbD 15 = true := by
  have bit : 1#16 <<< 15 = BitVec.twoPow 16 15 := by decide
  rw [bit]
  constructor
  · intro same
    rw [same]
    simp
  · intro set
    apply BitVec.eq_of_getLsbD_eq
    intro i _
    rw [BitVec.getLsbD_or, BitVec.getLsbD_twoPow]
    by_cases here : 15 = i
    · subst here
      rw [set]
      rfl
    · simp [here]

theorem accessesServe_iff (faults : AccessFaults) (number : Nat) (config : BitVec 16) :
    AccessesServe faults number config ↔
      enabledWord faults number config = config ||| (1#16 <<< 15) := by
  by_cases failed : (faults.write (number + 1)).isSome
  · rw [AccessesServe, if_pos failed, enabledWord, if_pos failed, or_enable_eq_iff]
  · rw [AccessesServe, if_neg failed, enabledWord, if_neg failed]
    cases faults.read number with
    | none => simp
    | some result => simp

/-- The report is true exactly when the node's number is out of range or the accesses to
every word of its devices do what they should. -/
theorem enableReported_iff (devices : ImcDevices) (node : Nat) (faults : AccessFaults)
    (bank : ImcBank) :
    EnableReported devices.list node faults bank ↔
      uncoreMaxSocket < node ∨
        ∀ index (below : index < (devicesOn devices.list node).length), ∀ i ∈ [0, 1, 2],
          AccessesServe faults (6 * index + 2 * i)
            (bank (devicesOn devices.list node)[index] (dimmOffset i)) := by
  by_cases bound : node ≤ uncoreMaxSocket
  · have nodup : (devicesOn devices.list node).Nodup :=
      devices.nodup.sublist (List.filter_sublist.map UncoreImc.pdev)
    have walk := run_enableDevices faults nodup
      (fun pdev state => run_enableDevice faults pdev state devices.list node) (-enxio) ⟨bank, 0⟩
    rw [or_iff_right (Nat.not_lt.mpr bound), EnableReported, uncoreImcEnableThrottle,
      if_neg (Nat.not_lt.mpr bound), forNodeDevices_eq]
    rcases walk with ⟨result, words, -⟩
    constructor
    · intro reported index below i dimm
      have some : devicesOn devices.list node ≠ [] := by
        intro none
        rw [none] at below
        exact absurd below (Nat.not_lt_zero index)
      rw [if_neg some] at result
      have enabled := reported result _ (List.getElem_mem below) i dimm
      rw [words index below i dimm, Nat.zero_add] at enabled
      exact (accessesServe_iff _ _ _).mpr enabled
    · intro serve _ pdev mem i dimm
      rcases List.getElem_of_mem mem with ⟨index, below, rfl⟩
      rw [words index below i dimm, Nat.zero_add]
      exact (accessesServe_iff _ _ _).mp (serve index below i dimm)
  · refine iff_of_true ?_ (Or.inl (Nat.not_le.mp bound))
    intro zero
    rw [uncoreImcEnableThrottle, if_pos (Nat.not_le.mp bound)] at zero
    have code : -einval = 0 := zero
    exact absurd code (by decide)

/-- The write of the first word fails, and the call reports success. -/
theorem not_enableReported_write :
    ¬ ∀ (devices : ImcDevices) (node : Nat) (faults : AccessFaults) (bank : ImcBank),
      EnableReported devices.list node faults bank := by
  intro claim
  let device : PciDev := ⟨0x8086, 0x2FB4, 0x7f, 0⟩
  have reported := claim ⟨[⟨0, device⟩], List.nodup_singleton _⟩ 0
    ⟨fun _ => none, fun number => if number = 1 then some (-einval) else none⟩ fun _ _ => 0
  have enabled := reported rfl device (by decide) 0 (by decide)
  revert enabled
  decide

end NvmEmulator.Uncore
