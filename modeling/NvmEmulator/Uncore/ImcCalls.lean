/-
# Sequences of throttling calls

The three calls on a node share the three words of each of its channels. Each call
rewrites every such word once, so what a sequence of calls leaves in a word is a fold over
the calls on the word's node, and the fold keeps the two settings apart: the limit is that
of the last `set_threshold`, the enable bit that of the last switch.
-/

import NvmEmulator.Semantics.Footprint
import NvmEmulator.Uncore.ImcHaswell

namespace NvmEmulator.Uncore

open NvmEmulator.Kernel NvmEmulator.Semantics

/-! ## Calls -/

/-- A call of the throttling interface on a node. -/
inductive ImcCall
  | setThreshold (nodeid threshold : Nat)
  | enableThrottle (nodeid : Nat)
  | disableThrottle (nodeid : Nat)

namespace ImcCall

/-- The node the call is on. -/
def nodeid : ImcCall → Nat
  | .setThreshold nodeid _ => nodeid
  | .enableThrottle nodeid => nodeid
  | .disableThrottle nodeid => nodeid

/-- What the call does to a word of its node. -/
def rewrite : ImcCall → BitVec 16 → BitVec 16
  | .setThreshold _ threshold, config => (config &&& (1#16 <<< 15)) ||| thrtPwr threshold
  | .enableThrottle _, config => config ||| (1#16 <<< 15)
  | .disableThrottle _, config => config &&& ~~~(1#16 <<< 15)

/-- The threshold the call sets on a node, if it does. -/
def thresholdOn (node : Nat) : ImcCall → Option Nat
  | .setThreshold nodeid threshold => if nodeid = node then some threshold else none
  | _ => none

/-- How the call switches throttling of a node, if it does. -/
def switchOn (node : Nat) : ImcCall → Option Bool
  | .enableThrottle nodeid => if nodeid = node then some true else none
  | .disableThrottle nodeid => if nodeid = node then some false else none
  | _ => none

/-- The call, on the Haswell devices of a list. -/
def run (devices : List UncoreImc) (call : ImcCall) (bank : ImcBank) : ImcBank :=
  let ops := hswepE5ImcOps ImcBank.access
  match call with
  | .setThreshold nodeid threshold =>
      ((uncoreImcSetThreshold ops devices nodeid threshold).run ImcBank.exec bank).2
  | .enableThrottle nodeid =>
      ((uncoreImcEnableThrottle ops devices nodeid).run ImcBank.exec bank).2
  | .disableThrottle nodeid =>
      ((uncoreImcDisableThrottle ops devices nodeid).run ImcBank.exec bank).2

/-- What the call returns; `uncore_imc_disable_throttle` returns nothing. -/
def returns (devices : List UncoreImc) (call : ImcCall) (bank : ImcBank) : Option Int :=
  let ops := hswepE5ImcOps ImcBank.access
  match call with
  | .setThreshold nodeid threshold =>
      some ((uncoreImcSetThreshold ops devices nodeid threshold).run ImcBank.exec bank).1
  | .enableThrottle nodeid =>
      some ((uncoreImcEnableThrottle ops devices nodeid).run ImcBank.exec bank).1
  | .disableThrottle _ => none

/-- What the call returns on a node that the code does not take. -/
def refusal : ImcCall → Option Int
  | .setThreshold _ _ => some (-einval)
  | .enableThrottle _ => some (-einval)
  | .disableThrottle _ => none

end ImcCall

/-- A sequence of calls. -/
def runImcCalls (devices : List UncoreImc) (calls : List ImcCall) (bank : ImcBank) : ImcBank :=
  calls.foldl (fun bank call => call.run devices bank) bank

/-- The last threshold a sequence of calls sets on a node. -/
def lastThreshold (node : Nat) (calls : List ImcCall) : Option Nat :=
  (calls.filterMap (ImcCall.thresholdOn node)).getLast?

/-- The last switch of a node's throttling. -/
def lastSwitch (node : Nat) (calls : List ImcCall) : Option Bool :=
  (calls.filterMap (ImcCall.switchOn node)).getLast?

/-- What a sequence of calls leaves in a word of a node. -/
structure WordAfter (calls : List ImcCall) (node : Nat) (before after : BitVec 16) : Prop where
  threshold : after &&& 0x0fff =
    match lastThreshold node calls with
    | some threshold => thrtPwr threshold
    | none => before &&& 0x0fff
  enabled : after.getLsbD 15 = (lastSwitch node calls).getD (before.getLsbD 15)
  between : after &&& 0x7000 =
    match lastThreshold node calls with
    | some _ => 0
    | none => before &&& 0x7000

/-! ## One call -/

section Methods

variable (pdev : PciDev) (bank : ImcBank)

/-- A walk over the DIMMs of a device, with the method's result. -/
theorem run_access_forDimms {α : Type} (update : BitVec 16 → BitVec 16)
    (follow : Unit → RegProgram 16 α) (result : α) (same : follow () = .ret result) :
    (((forDimms update).bind follow).hoist (ImcBank.access pdev)).run ImcBank.exec bank =
      (result, Function.update bank pdev (rewriteDimms update (bank pdev))) := by
  rw [run_hoist_access, Program.run_bind, same, Program.run_ret, run_forDimms_rewrite]

theorem run_setThreshold (threshold : Nat) :
    ((hswepE5ImcOps ImcBank.access).setThreshold pdev threshold).run ImcBank.exec bank =
      (0, Function.update bank pdev
        (rewriteDimms (ImcCall.setThreshold 0 threshold).rewrite (bank pdev))) := by
  have walk : hswepImcSetThreshold threshold =
      (forDimms (ImcCall.setThreshold 0 threshold).rewrite).bind fun _ => .ret 0 := rfl
  show ((hswepImcSetThreshold threshold).hoist (ImcBank.access pdev)).run ImcBank.exec bank = _
  rw [walk]
  exact run_access_forDimms pdev bank _ (fun _ => .ret 0) (0 : Int) rfl

theorem run_enableThrottle :
    ((hswepE5ImcOps ImcBank.access).enableThrottle pdev).run ImcBank.exec bank =
      (0, Function.update bank pdev
        (rewriteDimms (ImcCall.enableThrottle 0).rewrite (bank pdev))) := by
  have walk : hswepImcEnableThrottle =
      (forDimms (ImcCall.enableThrottle 0).rewrite).bind fun _ => .ret 0 := rfl
  show (hswepImcEnableThrottle.hoist (ImcBank.access pdev)).run ImcBank.exec bank = _
  rw [walk]
  exact run_access_forDimms pdev bank _ (fun _ => .ret 0) (0 : Int) rfl

theorem run_disableThrottle :
    ((hswepE5ImcOps ImcBank.access).disableThrottle pdev).run ImcBank.exec bank =
      ((), Function.update bank pdev
        (rewriteDimms (ImcCall.disableThrottle 0).rewrite (bank pdev))) := by
  have walk : hswepImcDisableThrottle =
      (forDimms (ImcCall.disableThrottle 0).rewrite).bind .ret := (Program.bind_ret _).symm
  show (hswepImcDisableThrottle.hoist (ImcBank.access pdev)).run ImcBank.exec bank = _
  rw [walk]
  exact run_access_forDimms pdev bank _ .ret () rfl

end Methods

theorem devicesOn_nodup (devices : ImcDevices) (node : Nat) :
    (devicesOn devices.list node).Nodup :=
  devices.nodup.sublist (List.filter_sublist.map UncoreImc.pdev)

section Call

variable (devices : ImcDevices) {node : Nat} (bound : node ≤ uncoreMaxSocket) (bank : ImcBank)
include bound

theorem run_uncoreImcSetThreshold (threshold : Nat) :
    (ImcCall.setThreshold node threshold).run devices.list bank = fun pdev =>
      if pdev ∈ devicesOn devices.list node then
        rewriteDimms (ImcCall.setThreshold node threshold).rewrite (bank pdev)
      else bank pdev := by
  rw [ImcCall.run, uncoreImcSetThreshold, if_neg (Nat.not_lt.mpr bound), forNodeDevices_eq]
  apply run_untilError_rewrite _ _ (devicesOn_nodup devices node)
  · intro pdev state
    rw [run_setThreshold]
  · intro pdev state
    rw [run_setThreshold]
    rfl

theorem run_uncoreImcEnableThrottle :
    (ImcCall.enableThrottle node).run devices.list bank = fun pdev =>
      if pdev ∈ devicesOn devices.list node then
        rewriteDimms (ImcCall.enableThrottle node).rewrite (bank pdev)
      else bank pdev := by
  rw [ImcCall.run, uncoreImcEnableThrottle, if_neg (Nat.not_lt.mpr bound), forNodeDevices_eq]
  -- No device fails, so the walk never comes to its rollback.
  apply run_untilError_rewrite _ _ (devicesOn_nodup devices node)
  · intro pdev state
    rw [Program.bind_eq, Program.run_bind, run_enableThrottle, if_neg (not_not.mpr rfl)]
    rfl
  · intro pdev state
    rw [Program.bind_eq, Program.run_bind, run_enableThrottle, if_neg (not_not.mpr rfl)]
    rfl

theorem run_uncoreImcDisableThrottle :
    (ImcCall.disableThrottle node).run devices.list bank = fun pdev =>
      if pdev ∈ devicesOn devices.list node then
        rewriteDimms (ImcCall.disableThrottle node).rewrite (bank pdev)
      else bank pdev := by
  rw [ImcCall.run, uncoreImcDisableThrottle_eq _ bound]
  apply run_forEach_rewrite _ (devicesOn_nodup devices node)
  intro pdev state
  rw [run_disableThrottle]
  rfl

end Call

/-- A call rewrites the words of the devices on its node. -/
theorem run_call (devices : ImcDevices) (call : ImcCall)
    (bound : call.nodeid ≤ uncoreMaxSocket) (bank : ImcBank) :
    call.run devices.list bank = fun pdev =>
      if pdev ∈ devicesOn devices.list call.nodeid then rewriteDimms call.rewrite (bank pdev)
      else bank pdev := by
  cases call with
  | setThreshold node threshold => exact run_uncoreImcSetThreshold devices bound bank threshold
  | enableThrottle node => exact run_uncoreImcEnableThrottle devices bound bank
  | disableThrottle node => exact run_uncoreImcDisableThrottle devices bound bank

/-- A call on a node number that is too large changes nothing. -/
theorem run_call_refused (devices : List UncoreImc) (call : ImcCall)
    (large : uncoreMaxSocket < call.nodeid) (bank : ImcBank) : call.run devices bank = bank := by
  cases call with
  | setThreshold node threshold =>
      have refused : node > uncoreMaxSocket := large
      rw [ImcCall.run, uncoreImcSetThreshold, if_pos refused]
      rfl
  | enableThrottle node =>
      have refused : node > uncoreMaxSocket := large
      rw [ImcCall.run, uncoreImcEnableThrottle, if_pos refused]
      rfl
  | disableThrottle node =>
      have refused : node > uncoreMaxSocket := large
      rw [ImcCall.run, uncoreImcDisableThrottle, if_pos refused]
      rfl

/-- The two calls that return something refuse it with `-EINVAL`. -/
theorem returns_call_refused (devices : List UncoreImc) (call : ImcCall)
    (large : uncoreMaxSocket < call.nodeid) (bank : ImcBank) :
    call.returns devices bank = call.refusal := by
  cases call with
  | setThreshold node threshold =>
      have refused : node > uncoreMaxSocket := large
      rw [ImcCall.returns, uncoreImcSetThreshold, if_pos refused]
      rfl
  | enableThrottle node =>
      have refused : node > uncoreMaxSocket := large
      rw [ImcCall.returns, uncoreImcEnableThrottle, if_pos refused]
      rfl
  | disableThrottle node => rfl

/-! ## Any number of calls -/

/-- What the calls do to a word of a node, one after the other. -/
def rewrites (node : Nat) (calls : List ImcCall) (config : BitVec 16) : BitVec 16 :=
  calls.foldl (fun config call => if call.nodeid = node then call.rewrite config else config)
    config

theorem rewrites_concat (node : Nat) (calls : List ImcCall) (call : ImcCall)
    (config : BitVec 16) :
    rewrites node (calls ++ [call]) config =
      if call.nodeid = node then call.rewrite (rewrites node calls config)
      else rewrites node calls config := by
  rw [rewrites, List.foldl_append]
  rfl

theorem rewrites_uncalled {node : Nat} {calls : List ImcCall}
    (other : ∀ call ∈ calls, call.nodeid ≠ node) (config : BitVec 16) :
    rewrites node calls config = config := by
  induction calls with
  | nil => rfl
  | cons call rest ih =>
      rw [rewrites, List.foldl_cons, if_neg (other call List.mem_cons_self)]
      exact ih fun later mem => other later (List.mem_cons_of_mem _ mem)

theorem runImcCalls_concat (devices : List UncoreImc) (calls : List ImcCall) (call : ImcCall)
    (bank : ImcBank) :
    runImcCalls devices (calls ++ [call]) bank =
      call.run devices (runImcCalls devices calls bank) := by
  rw [runImcCalls, List.foldl_append]
  rfl

/-- A device is on one node only. -/
theorem ImcDevices.mem_devicesOn_iff (devices : ImcDevices) {imc : UncoreImc}
    (mem : imc ∈ devices.list) (node : Nat) :
    imc.pdev ∈ devicesOn devices.list node ↔ node = imc.nodeid := by
  rw [mem_devicesOn]
  constructor
  · intro listed
    rcases listed with ⟨other, otherMem, here, same⟩
    have equal : other = imc := List.inj_on_of_nodup_map devices.nodup otherMem mem same
    rw [← here, equal]
  · intro here
    exact ⟨imc, mem, here.symm, rfl⟩

/-- The calls rewrite the words of a device by those on its node. -/
theorem runImcCalls_device (devices : ImcDevices) (calls : List ImcCall) (bank : ImcBank)
    {imc : UncoreImc} (mem : imc ∈ devices.list) (bound : imc.nodeid ≤ uncoreMaxSocket) :
    runImcCalls devices.list calls bank imc.pdev =
      rewriteDimms (rewrites imc.nodeid calls) (bank imc.pdev) := by
  induction calls using List.reverseRecOn with
  | nil =>
      funext addr
      simp [runImcCalls, rewriteDimms, rewrites]
  | append_singleton calls call ih =>
      rw [runImcCalls_concat]
      funext addr
      by_cases here : call.nodeid = imc.nodeid
      · rw [run_call devices call (here ▸ bound)]
        dsimp only
        rw [if_pos ((devices.mem_devicesOn_iff mem _).mpr here), ih]
        by_cases dimm : addr ∈ dimmOffsets
        · simp [rewriteDimms, dimm, rewrites_concat, here]
        · simp [rewriteDimms, dimm]
      · have kept : call.run devices.list (runImcCalls devices.list calls bank) imc.pdev =
            runImcCalls devices.list calls bank imc.pdev := by
          by_cases refused : call.nodeid ≤ uncoreMaxSocket
          · rw [run_call devices call refused]
            dsimp only
            rw [if_neg fun listed => here ((devices.mem_devicesOn_iff mem _).mp listed)]
          · rw [run_call_refused _ _ (Nat.not_le.mp refused)]
        rw [kept, ih]
        simp [rewriteDimms, rewrites_concat, here]

/-- A device on no node the code takes is left alone. -/
theorem runImcCalls_other (devices : ImcDevices) (calls : List ImcCall) (bank : ImcBank)
    {pdev : PciDev}
    (other : ∀ imc ∈ devices.list, imc.pdev = pdev → uncoreMaxSocket < imc.nodeid) :
    runImcCalls devices.list calls bank pdev = bank pdev := by
  induction calls using List.reverseRecOn with
  | nil => rfl
  | append_singleton calls call ih =>
      rw [runImcCalls_concat]
      by_cases bound : call.nodeid ≤ uncoreMaxSocket
      · rw [run_call devices call bound]
        have apart : pdev ∉ devicesOn devices.list call.nodeid := by
          intro listed
          rcases mem_devicesOn.mp listed with ⟨imc, mem, here, same⟩
          have large := other imc mem same
          rw [here] at large
          exact absurd bound (Nat.not_le.mpr large)
        dsimp only
        rw [if_neg apart, ih]
      · rw [run_call_refused _ _ (Nat.not_le.mp bound), ih]

/-! ## One word -/

section Word

variable {node : Nat} {calls : List ImcCall} {call : ImcCall}

theorem lastThreshold_concat :
    lastThreshold node (calls ++ [call]) =
      (call.thresholdOn node).or (lastThreshold node calls) := by
  rw [lastThreshold, List.filterMap_append]
  cases threshold : call.thresholdOn node with
  | none => simp [lastThreshold, threshold]
  | some value => simp [threshold]

theorem lastSwitch_concat :
    lastSwitch node (calls ++ [call]) = (call.switchOn node).or (lastSwitch node calls) := by
  rw [lastSwitch, List.filterMap_append]
  cases switch : call.switchOn node with
  | none => simp [lastSwitch, switch]
  | some value => simp [switch]

end Word

/-- Which bits of a masked word remain under another mask. -/
theorem and_or_and (config mask other limit : BitVec 16) :
    ((config &&& mask) ||| limit) &&& other =
      (config &&& (mask &&& other)) ||| (limit &&& other) := by
  rw [BitVec.and_or_distrib_right, BitVec.and_assoc]

/-- Under a mask, a limit is all there is of its own bits. -/
theorem thrtPwr_and (threshold : Nat) :
    thrtPwr threshold &&& 0x0fff = thrtPwr threshold ∧ thrtPwr threshold &&& 0x7000 = 0 ∧
      (thrtPwr threshold).getLsbD 15 = false := by
  unfold thrtPwr
  split
  · decide
  · decide
  · decide

/-- What a call does to the three fields of a word. -/
theorem rewrite_fields (call : ImcCall) (config : BitVec 16) :
    (call.rewrite config &&& 0x0fff =
      match call.thresholdOn call.nodeid with
      | some threshold => thrtPwr threshold
      | none => config &&& 0x0fff) ∧
    ((call.rewrite config).getLsbD 15 =
      (call.switchOn call.nodeid).getD (config.getLsbD 15)) ∧
    (call.rewrite config &&& 0x7000 =
      match call.thresholdOn call.nodeid with
      | some _ => 0
      | none => config &&& 0x7000) := by
  cases call with
  | setThreshold node threshold =>
      rcases thrtPwr_and threshold with ⟨limit, between, enabled⟩
      have own : (ImcCall.setThreshold node threshold).thresholdOn node = some threshold :=
        if_pos rfl
      have low : (1#16 <<< 15) &&& 0x0fff = 0#16 := by decide
      have middle : (1#16 <<< 15) &&& 0x7000 = 0#16 := by decide
      have high : (1#16 <<< 15).getLsbD 15 = true := by decide
      refine ⟨?_, ?_, ?_⟩
      · simp only [ImcCall.nodeid, own]
        rw [ImcCall.rewrite, and_or_and, low, limit, BitVec.and_zero, BitVec.zero_or]
      · rw [ImcCall.rewrite, BitVec.getLsbD_or, BitVec.getLsbD_and, high, enabled, Bool.and_true,
          Bool.or_false]
        rfl
      · simp only [ImcCall.nodeid, own]
        rw [ImcCall.rewrite, and_or_and, middle, between, BitVec.and_zero, BitVec.zero_or]
  | enableThrottle node =>
      have own : (ImcCall.enableThrottle node).switchOn node = some true := if_pos rfl
      have low : (1#16 <<< 15) &&& 0x0fff = 0#16 := by decide
      have middle : (1#16 <<< 15) &&& 0x7000 = 0#16 := by decide
      have high : (1#16 <<< 15).getLsbD 15 = true := by decide
      refine ⟨?_, ?_, ?_⟩
      · show (config ||| (1#16 <<< 15)) &&& 0x0fff = config &&& 0x0fff
        rw [BitVec.and_or_distrib_right, low, BitVec.or_zero]
      · simp only [ImcCall.nodeid, own]
        rw [ImcCall.rewrite, BitVec.getLsbD_or, high, Bool.or_true]
        rfl
      · show (config ||| (1#16 <<< 15)) &&& 0x7000 = config &&& 0x7000
        rw [BitVec.and_or_distrib_right, middle, BitVec.or_zero]
  | disableThrottle node =>
      have own : (ImcCall.disableThrottle node).switchOn node = some false := if_pos rfl
      have low : ~~~(1#16 <<< 15) &&& 0x0fff = 0x0fff#16 := by decide
      have middle : ~~~(1#16 <<< 15) &&& 0x7000 = 0x7000#16 := by decide
      have high : (~~~(1#16 <<< 15)).getLsbD 15 = false := by decide
      refine ⟨?_, ?_, ?_⟩
      · show (config &&& ~~~(1#16 <<< 15)) &&& 0x0fff = config &&& 0x0fff
        rw [BitVec.and_assoc, low]
        rfl
      · simp only [ImcCall.nodeid, own]
        rw [ImcCall.rewrite, BitVec.getLsbD_and, high, Bool.and_false]
        rfl
      · show (config &&& ~~~(1#16 <<< 15)) &&& 0x7000 = config &&& 0x7000
        rw [BitVec.and_assoc, middle]
        rfl

/-- A call sets nothing on another node. -/
theorem ImcCall.sets_own {call : ImcCall} {node : Nat} (other : call.nodeid ≠ node) :
    call.thresholdOn node = none ∧ call.switchOn node = none := by
  cases call with
  | setThreshold nodeid threshold => exact ⟨if_neg other, rfl⟩
  | enableThrottle nodeid => exact ⟨rfl, if_neg other⟩
  | disableThrottle nodeid => exact ⟨rfl, if_neg other⟩

/-- The calls leave in a word what the last of each kind says. -/
theorem rewrites_wordAfter (node : Nat) (calls : List ImcCall) (config : BitVec 16) :
    WordAfter calls node config (rewrites node calls config) := by
  induction calls using List.reverseRecOn with
  | nil => exact ⟨rfl, rfl, rfl⟩
  | append_singleton calls call ih =>
      rw [rewrites_concat]
      by_cases here : call.nodeid = node
      · subst here
        rw [if_pos rfl]
        rcases rewrite_fields call (rewrites call.nodeid calls config) with
          ⟨threshold, enabled, between⟩
        refine ⟨?_, ?_, ?_⟩
        · rw [threshold, lastThreshold_concat]
          cases call.thresholdOn call.nodeid with
          | none => exact ih.threshold
          | some value => rfl
        · rw [enabled, lastSwitch_concat]
          cases call.switchOn call.nodeid with
          | none => exact ih.enabled
          | some value => rfl
        · rw [between, lastThreshold_concat]
          cases call.thresholdOn call.nodeid with
          | none => exact ih.between
          | some value => rfl
      · rw [if_neg here]
        rcases call.sets_own here with ⟨threshold, switch⟩
        refine ⟨?_, ?_, ?_⟩
        · rw [lastThreshold_concat, threshold]
          exact ih.threshold
        · rw [lastSwitch_concat, switch]
          exact ih.enabled
        · rw [lastThreshold_concat, threshold]
          exact ih.between

/-- A word is its three fields. -/
theorem word_ext {first second : BitVec 16} (low : first &&& 0x0fff = second &&& 0x0fff)
    (between : first &&& 0x7000 = second &&& 0x7000)
    (high : first.getLsbD 15 = second.getLsbD 15) : first = second := by
  have fields : ∀ word : BitVec 16, word =
      ((word &&& 0x0fff) ||| (word &&& 0x7000)) |||
        if word.getLsbD 15 then BitVec.twoPow 16 15 else 0#16 := by
    intro word
    have every : (0x0fff ||| 0x7000) ||| BitVec.twoPow 16 15 = BitVec.allOnes 16 := by decide
    rw [← BitVec.and_twoPow, ← BitVec.and_or_distrib_left, ← BitVec.and_or_distrib_left, every,
      BitVec.and_allOnes]
  rw [fields first, fields second, low, between, high]

/-- What is left of a word is decided by the last calls. -/
theorem WordAfter.unique {first second : List ImcCall} {node : Nat}
    {config left right : BitVec 16} (one : WordAfter first node config left)
    (other : WordAfter second node config right)
    (threshold : lastThreshold node first = lastThreshold node second)
    (switch : lastSwitch node first = lastSwitch node second) : left = right := by
  apply word_ext
  · rw [one.threshold, other.threshold, threshold]
  · rw [one.between, other.between, threshold]
  · rw [one.enabled, other.enabled, switch]

/-- Two sequences with the same last calls on every node leave the same words. -/
theorem runImcCalls_congr (devices : ImcDevices) {first second : List ImcCall}
    (threshold : ∀ node, lastThreshold node first = lastThreshold node second)
    (switch : ∀ node, lastSwitch node first = lastSwitch node second) (bank : ImcBank) :
    runImcCalls devices.list first bank = runImcCalls devices.list second bank := by
  funext pdev
  by_cases listed : ∃ imc ∈ devices.list, imc.pdev = pdev ∧ imc.nodeid ≤ uncoreMaxSocket
  · rcases listed with ⟨imc, mem, rfl, bound⟩
    rw [runImcCalls_device devices first bank mem bound,
      runImcCalls_device devices second bank mem bound]
    funext addr
    rw [rewriteDimms, rewriteDimms]
    have same := (rewrites_wordAfter imc.nodeid first (bank imc.pdev addr)).unique
      (rewrites_wordAfter imc.nodeid second (bank imc.pdev addr)) (threshold _) (switch _)
    rw [same]
  · have other : ∀ imc ∈ devices.list, imc.pdev = pdev → uncoreMaxSocket < imc.nodeid := by
      intro imc mem same
      by_contra small
      exact listed ⟨imc, mem, same, Nat.not_lt.mp small⟩
    rw [runImcCalls_other devices first bank other, runImcCalls_other devices second bank other]

/-! ## The result -/

/-- A switch of throttling. -/
def switchCall (enable : Bool) (node : Nat) : ImcCall :=
  if enable then .enableThrottle node else .disableThrottle node

/-- Setting a limit and switching throttling are each the last of their kind in either
order. -/
theorem lastCalls_comm (calls : List ImcCall) (enable : Bool) (node other threshold at' : Nat) :
    lastThreshold at' (calls ++ [.setThreshold node threshold] ++ [switchCall enable other]) =
      lastThreshold at' (calls ++ [switchCall enable other] ++ [.setThreshold node threshold]) ∧
    lastSwitch at' (calls ++ [.setThreshold node threshold] ++ [switchCall enable other]) =
      lastSwitch at' (calls ++ [switchCall enable other] ++ [.setThreshold node threshold]) := by
  have keeps : (switchCall enable other).thresholdOn at' = none := by
    cases enable with
    | false => rfl
    | true => rfl
  have apart : (ImcCall.setThreshold node threshold).switchOn at' = none := rfl
  constructor
  · rw [lastThreshold_concat, lastThreshold_concat, lastThreshold_concat, lastThreshold_concat,
      keeps]
    cases (ImcCall.setThreshold node threshold).thresholdOn at' with
    | none => rfl
    | some value => rfl
  · rw [lastSwitch_concat, lastSwitch_concat, lastSwitch_concat, lastSwitch_concat, apart]
    cases (switchCall enable other).switchOn at' with
    | none => rfl
    | some value => rfl

/-- After any sequence of calls, each word of a device on a node that the code takes has the
limit of the last `set_threshold` and the enable bit of the last switch on its node. No
other word changes, nor a device without a call on its node; a call on a node that the code
does not take is refused and changes nothing; and setting a limit commutes with switching. -/
theorem runImcCalls_words (devices : ImcDevices) (calls : List ImcCall) (bank : ImcBank) :
    (∀ call : ImcCall, uncoreMaxSocket < call.nodeid →
      call.returns devices.list (runImcCalls devices.list calls bank) = call.refusal ∧
        call.run devices.list (runImcCalls devices.list calls bank) =
          runImcCalls devices.list calls bank) ∧
    (∀ imc ∈ devices.list, imc.nodeid ≤ uncoreMaxSocket → ∀ addr ∈ dimmOffsets,
      WordAfter calls imc.nodeid (bank imc.pdev addr)
        (runImcCalls devices.list calls bank imc.pdev addr)) ∧
    (∀ imc ∈ devices.list, imc.nodeid ≤ uncoreMaxSocket → ∀ addr ∉ dimmOffsets,
      runImcCalls devices.list calls bank imc.pdev addr = bank imc.pdev addr) ∧
    (∀ pdev, (∀ imc ∈ devices.list, imc.pdev = pdev → uncoreMaxSocket < imc.nodeid ∨
        ∀ call ∈ calls, call.nodeid ≠ imc.nodeid) →
      runImcCalls devices.list calls bank pdev = bank pdev) ∧
    ∀ enable node other threshold,
      runImcCalls devices.list
          (calls ++ [.setThreshold node threshold] ++ [switchCall enable other]) bank =
        runImcCalls devices.list
          (calls ++ [switchCall enable other] ++ [.setThreshold node threshold]) bank := by
  refine ⟨?_, ?_, ?_, ?_, ?_⟩
  · intro call large
    exact ⟨returns_call_refused _ _ large _, run_call_refused _ _ large _⟩
  · intro imc mem bound addr dimm
    rw [runImcCalls_device devices calls bank mem bound, rewriteDimms_of_mem dimm]
    exact rewrites_wordAfter _ _ _
  · intro imc mem bound addr plain
    rw [runImcCalls_device devices calls bank mem bound, rewriteDimms_of_notMem plain]
  · intro pdev other
    by_cases listed : ∃ imc ∈ devices.list, imc.pdev = pdev ∧ imc.nodeid ≤ uncoreMaxSocket
    · rcases listed with ⟨imc, mem, rfl, bound⟩
      have uncalled := (other imc mem rfl).resolve_left (Nat.not_lt.mpr bound)
      rw [runImcCalls_device devices calls bank mem bound]
      funext addr
      rw [rewriteDimms, rewrites_uncalled uncalled, ite_self]
    · apply runImcCalls_other
      intro imc mem same
      by_contra small
      exact listed ⟨imc, mem, same, Nat.not_lt.mp small⟩
  · intro enable node other threshold
    have same := lastCalls_comm calls enable node other threshold
    exact runImcCalls_congr devices (fun at' => (same at').1) (fun at' => (same at').2) bank

/-- On a bus without a node the entry has the number -1, which no call takes. -/
theorem not_wordAfter_unmapped :
    ¬ ∀ (devices : ImcDevices) (calls : List ImcCall) (bank : ImcBank),
      ∀ imc ∈ devices.list, ∀ addr ∈ dimmOffsets,
        WordAfter calls imc.nodeid (bank imc.pdev addr)
          (runImcCalls devices.list calls bank imc.pdev addr) := by
  intro claim
  let device : UncoreImc := ⟨0xffffffff, ⟨0x8086, 0x2FB4, 0x7f, 0⟩⟩
  have word := claim ⟨[device], List.nodup_singleton _⟩ [.setThreshold 0xffffffff 2]
    (fun _ _ => 0) device List.mem_cons_self (dimmOffset 0) (by decide)
  have refused : runImcCalls [device] [.setThreshold 0xffffffff 2] (fun _ _ => 0) =
      fun _ _ => 0 :=
    run_call_refused [device] (.setThreshold 0xffffffff 2) (by decide) (fun _ _ => 0)
  have limit := word.threshold
  rw [refused] at limit
  exact absurd limit (by decide)

end NvmEmulator.Uncore
