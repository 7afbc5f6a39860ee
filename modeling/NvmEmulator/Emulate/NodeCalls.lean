/-
# Calls on a node

`uncore_call_function_on_node` runs a function on the first processor of a node's mask. Two
tests guard it, of the processor that `cpumask_first` found and of the number of the node,
and both let the first value that is out of range pass. The theorem at the end says for
which nodes that makes a difference.
-/

import Mathlib.Order.Bounds.Defs
import NvmEmulator.Emulate.Accesses
import NvmEmulator.Semantics.Trace

namespace NvmEmulator.Emulate

open NvmEmulator.Kernel NvmEmulator.Semantics NvmEmulator.Uncore

/-! ## Topologies -/

/-- The world after one more fallible call that left the processors as they were. -/
def World.called (world : World) : World := { world with calls := world.calls + 1 }

/-- The online processors of a node. -/
def onlineCpus (machine : Machine) (world : World) (node : Nat) : Set Nat :=
  { cpu | world.online cpu = true ∧ machine.cpuToNode cpu = node }

/-- Online processors have a number below `nr_cpu_ids`, and `smp_call_function_single` fails
for the others. -/
structure Topology (machine : Machine) (world : World) : Prop where
  cpus : ∀ cpu, world.online cpu = true → cpu < machine.nrCpuIds
  offline : ∀ calls cpu, world.online cpu = false →
    machine.answer calls (.smpCallFunctionSingle cpu) ≠ 0

/-- `uncore_call_function_on_node` with `func` as the source has it, a pointer that may be
`NULL`. -/
def uncoreCallOnNode (machine : Machine) (node : Nat) :
    Option (Nat → UncoreProgram Unit) → UncoreProgram Int
  | none => pure (-einval)
  | some func => uncoreCallFunctionOnNode machine node func

/-! ## What the functions are to do -/

section Statement

variable (machine : Machine) (world : World) (node : Nat)

/-- `first_online_cpu_of_node` finds the lowest online processor, and returns -1 just when
there is none. -/
structure FirstOnline : Prop where
  lowest : ∀ cpu : Nat, IsLeast (onlineCpus machine world node) cpu →
    ((firstOnlineCpuOfNode machine node).run machine.exec world).1 = cpu
  absent : ((firstOnlineCpuOfNode machine node).run machine.exec world).1 = -1 ↔
    onlineCpus machine world node = ∅

/-- Lookups in the mask of a node. -/
def Lookups (ops : List UncoreOp) : Prop :=
  ∀ op ∈ ops, ∃ cpu, op = .cpumaskOfNode node cpu

/-- The call returned 0 and its function has run once, on the lowest online processor of
the node. -/
def RanOnce (func : Nat → UncoreProgram Unit) (outcome : Int × World) (ops : List UncoreOp) :
    Prop :=
  ∃ cpu lookups, IsLeast (onlineCpus machine world node) cpu ∧ Lookups node lookups ∧
    outcome = (0, ((func cpu).run machine.exec world.called).2) ∧
    ops = lookups ++ .kernel (.smpCallFunctionSingle cpu) ::
      (func cpu).trace machine.exec world.called

/-- The call returned an error and its function has not run. -/
def RanNowhere (outcome : Int × World) (ops : List UncoreOp) : Prop :=
  outcome.1 ≠ 0 ∧
    (outcome.2 = world ∧ ops = [] ∨
      ∃ cpu lookups, Lookups node lookups ∧ outcome.2 = world.called ∧
        ops = lookups ++ [.kernel (.smpCallFunctionSingle cpu)])

/-- Calls on a node keep to the topology. -/
structure CallsOnNode (func : Option (Nat → UncoreProgram Unit)) : Prop where
  first : node < machine.nrNodeIds → FirstOnline machine world node
  once :
    (∃ body, func = some body ∧ RanOnce machine world node body
      ((uncoreCallOnNode machine node func).run machine.exec world)
      ((uncoreCallOnNode machine node func).trace machine.exec world)) ∨
    RanNowhere world node ((uncoreCallOnNode machine node func).run machine.exec world)
      ((uncoreCallOnNode machine node func).trace machine.exec world)
  rejected : machine.nrNodeIds ≤ node →
    (uncoreCallOnNode machine node func).run machine.exec world = (-einval, world) ∧
      (uncoreCallOnNode machine node func).trace machine.exec world = []

end Statement

/-! ## The first processor of a mask -/

section First

variable (machine : Machine) (node : Nat)

/-- What `cpumask_first` finds among the processors listed. -/
def firstOf (world : World) (cpus : List Nat) : Nat :=
  (cpus.find? fun cpu => world.online cpu && machine.cpuToNode cpu == node).getD
    machine.nrCpuIds

theorem run_cpumaskFirst (cpus : List Nat) (world : World) :
    (cpumaskFirst machine node cpus).run machine.exec world =
      (firstOf machine node world cpus, world) := by
  induction cpus with
  | nil => rfl
  | cons cpu rest ih =>
      rw [firstOf, List.find?_cons, cpumaskFirst]
      show (Program.bind (access _) _).run machine.exec world = _
      rw [Program.run_bind]
      show (if world.online cpu && machine.cpuToNode cpu == node then _ else _ :
        UncoreProgram Nat).run machine.exec world = _
      cases set : world.online cpu && machine.cpuToNode cpu == node with
      | true => rfl
      | false => exact ih

theorem lookups_cpumaskFirst (cpus : List Nat) (world : World) :
    Lookups node ((cpumaskFirst machine node cpus).trace machine.exec world) :=
  (makes_cpumaskFirst (fun cpu => ⟨cpu, rfl⟩) cpus).trace machine.exec world

end First

section Find

variable {machine : Machine} {world : World} {node : Nat}

/-- The lowest online processor of a node is the first of its mask. -/
theorem firstOf_eq {cpu : Nat} (bound : cpu < machine.nrCpuIds)
    (least : IsLeast (onlineCpus machine world node) cpu) :
    firstOf machine node world (List.range machine.nrCpuIds) = cpu := by
  have found : (List.range machine.nrCpuIds).find?
      (fun cpu => world.online cpu && machine.cpuToNode cpu == node) = some cpu := by
    rw [List.find?_range_eq_some]
    refine ⟨?_, List.mem_range.mpr bound, ?_⟩
    · rw [least.1.1, least.1.2, beq_self_eq_true]
      rfl
    · intro lower before
      rw [Bool.not_eq_true', Bool.and_eq_false_iff]
      by_contra set
      rw [not_or, Bool.not_eq_false, Bool.not_eq_false, beq_iff_eq] at set
      exact absurd (least.2 set) (Nat.not_le_of_lt before)
  rw [firstOf, found]
  rfl

/-- The mask of a node without online processors is empty. -/
theorem firstOf_empty (empty : onlineCpus machine world node = ∅) (cpus : List Nat) :
    firstOf machine node world cpus = machine.nrCpuIds := by
  have none : cpus.find? (fun cpu => world.online cpu && machine.cpuToNode cpu == node) =
      none := by
    rw [List.find?_eq_none]
    intro cpu _ set
    rw [Bool.and_eq_true, beq_iff_eq] at set
    have listed : cpu ∈ onlineCpus machine world node := set
    rw [empty] at listed
    exact listed
  rw [firstOf, none]
  rfl

theorem firstOf_le : firstOf machine node world (List.range machine.nrCpuIds) ≤
    machine.nrCpuIds := by
  rw [firstOf]
  cases found : (List.range machine.nrCpuIds).find?
      (fun cpu => world.online cpu && machine.cpuToNode cpu == node) with
  | none => exact le_refl _
  | some cpu => exact Nat.le_of_lt (List.mem_range.mp (List.mem_of_find?_eq_some found))

/-- The test of the processor is never met. -/
theorem run_firstOnlineCpuOfNode (machine : Machine) (node : Nat) (world : World) :
    (firstOnlineCpuOfNode machine node).run machine.exec world =
      ((firstOf machine node world (List.range machine.nrCpuIds) : Int), world) := by
  rw [firstOnlineCpuOfNode, Program.bind_eq, Program.run_bind, run_cpumaskFirst,
    if_neg (Nat.not_lt_of_le firstOf_le)]
  rfl

theorem lookups_firstOnlineCpuOfNode (machine : Machine) (node : Nat) (world : World) :
    Lookups node ((firstOnlineCpuOfNode machine node).trace machine.exec world) := by
  rw [firstOnlineCpuOfNode, Program.bind_eq, Program.trace_bind, run_cpumaskFirst,
    if_neg (Nat.not_lt_of_le firstOf_le)]
  show Lookups node (_ ++ [])
  rw [List.append_nil]
  exact lookups_cpumaskFirst machine node _ world

/-- It returns -1 for no node. -/
theorem firstOnlineCpuOfNode_ne : ((firstOnlineCpuOfNode machine node).run machine.exec world).1 ≠
    -1 := by
  rw [run_firstOnlineCpuOfNode]
  show ((firstOf machine node world _ : Nat) : Int) ≠ -1
  omega

/-- So it is right for the nodes that have an online processor. -/
theorem firstOnline_iff (topology : Topology machine world) :
    FirstOnline machine world node ↔ (onlineCpus machine world node).Nonempty := by
  constructor
  · intro first
    rw [Set.nonempty_iff_ne_empty]
    intro empty
    exact firstOnlineCpuOfNode_ne (first.absent.mpr empty)
  · intro some
    constructor
    · intro cpu least
      rw [run_firstOnlineCpuOfNode, firstOf_eq (topology.cpus cpu least.1.1) least]
    · constructor
      · intro absent
        exact absurd absent firstOnlineCpuOfNode_ne
      · intro empty
        exact absurd empty some.ne_empty

end Find

/-! ## The call -/

section Call

variable {machine : Machine} {world : World} {node : Nat} {func : Nat → UncoreProgram Unit}

theorem run_smpCallFunctionSingle_zero {cpu : Nat}
    (zero : machine.answer world.calls (.smpCallFunctionSingle cpu) = 0) :
    (smpCallFunctionSingle cpu func).run machine.exec world =
      (0, ((func cpu).run machine.exec world.called).2) := by
  show Program.run machine.exec (if machine.answer world.calls (.smpCallFunctionSingle cpu) = 0
    then _ else _) world.called = _
  rw [if_pos zero, Program.bind_eq, Program.run_bind]
  exact congrArg (fun err => (err, ((func cpu).run machine.exec world.called).2)) zero

theorem run_smpCallFunctionSingle_error {cpu : Nat}
    (error : machine.answer world.calls (.smpCallFunctionSingle cpu) ≠ 0) :
    (smpCallFunctionSingle cpu func).run machine.exec world =
      (machine.answer world.calls (.smpCallFunctionSingle cpu), world.called) := by
  show Program.run machine.exec (if machine.answer world.calls (.smpCallFunctionSingle cpu) = 0
    then _ else _) world.called = _
  rw [if_neg error]
  rfl

theorem trace_smpCallFunctionSingle (machine : Machine) (world : World) (cpu : Nat) :
    (smpCallFunctionSingle cpu func).trace machine.exec world =
      .kernel (.smpCallFunctionSingle cpu) ::
        if machine.answer world.calls (.smpCallFunctionSingle cpu) = 0 then
          (func cpu).trace machine.exec world.called
        else [] := by
  show .kernel (.smpCallFunctionSingle cpu) :: Program.trace machine.exec
    (if machine.answer world.calls (.smpCallFunctionSingle cpu) = 0 then _ else _)
      world.called = _
  by_cases zero : machine.answer world.calls (.smpCallFunctionSingle cpu) = 0
  · rw [if_pos zero, if_pos zero, Program.bind_eq, Program.trace_bind]
    exact congrArg _ (List.append_nil _)
  · rw [if_neg zero, if_neg zero]
    rfl

/-- A node that is not refused: the call goes to the first processor of its mask. -/
theorem uncoreCallFunctionOnNode_eq (admitted : node ≤ machine.nrNodeIds) (world : World) :
    (uncoreCallFunctionOnNode machine node func).run machine.exec world =
        (smpCallFunctionSingle (firstOf machine node world (List.range machine.nrCpuIds))
          func).run machine.exec world ∧
      (uncoreCallFunctionOnNode machine node func).trace machine.exec world =
        (firstOnlineCpuOfNode machine node).trace machine.exec world ++
          (smpCallFunctionSingle (firstOf machine node world (List.range machine.nrCpuIds))
            func).trace machine.exec world := by
  have found : ¬ (firstOf machine node world (List.range machine.nrCpuIds) : Int) < 0 := by
    omega
  rw [uncoreCallFunctionOnNode, if_neg (Nat.not_lt_of_le admitted), Program.bind_eq]
  constructor
  · rw [Program.run_bind, run_firstOnlineCpuOfNode, if_neg found]
    rfl
  · rw [Program.trace_bind, run_firstOnlineCpuOfNode, if_neg found]
    rfl

/-- A call that is refused before anything is done. -/
theorem ranNowhere_refused (world : World) (node : Nat) :
    RanNowhere world node (-einval, world) [] := by
  have error : -einval ≠ 0 := by decide
  exact ⟨error, .inl ⟨rfl, rfl⟩⟩

/-- A node with a number that is too high. -/
theorem uncoreCallFunctionOnNode_refused (refused : machine.nrNodeIds < node) :
    uncoreCallFunctionOnNode machine node func = .ret (-einval) := if_pos refused

theorem exists_isLeast_onlineCpus (some : (onlineCpus machine world node).Nonempty) :
    ∃ cpu, IsLeast (onlineCpus machine world node) cpu := by
  classical
  exact ⟨Nat.find some, Nat.find_spec some, fun _ listed => Nat.find_min' some listed⟩

/-- A call whose processor refuses it. -/
theorem ranNowhere_of_error (admitted : node ≤ machine.nrNodeIds)
    (error : machine.answer world.calls (.smpCallFunctionSingle
      (firstOf machine node world (List.range machine.nrCpuIds))) ≠ 0) :
    RanNowhere world node ((uncoreCallFunctionOnNode machine node func).run machine.exec world)
      ((uncoreCallFunctionOnNode machine node func).trace machine.exec world) := by
  have call := @uncoreCallFunctionOnNode_eq machine node func admitted world
  rw [run_smpCallFunctionSingle_error error, trace_smpCallFunctionSingle, if_neg error] at call
  rw [call.1, call.2]
  exact ⟨error, .inr ⟨_, _, lookups_firstOnlineCpuOfNode machine node world, rfl, rfl⟩⟩

/-- A call that is made. -/
theorem ranOnce_of_zero (admitted : node ≤ machine.nrNodeIds) {cpu : Nat}
    (least : IsLeast (onlineCpus machine world node) cpu)
    (found : firstOf machine node world (List.range machine.nrCpuIds) = cpu)
    (zero : machine.answer world.calls (.smpCallFunctionSingle cpu) = 0) :
    RanOnce machine world node func
      ((uncoreCallFunctionOnNode machine node func).run machine.exec world)
      ((uncoreCallFunctionOnNode machine node func).trace machine.exec world) := by
  have call := @uncoreCallFunctionOnNode_eq machine node func admitted world
  rw [found, run_smpCallFunctionSingle_zero zero, trace_smpCallFunctionSingle, if_pos zero] at call
  rw [call.1, call.2]
  exact ⟨cpu, _, least, lookups_firstOnlineCpuOfNode machine node world, rfl, rfl⟩

/-- A function runs once or nowhere, whether its node has processors or not. -/
theorem ranOnce_or_ranNowhere (topology : Topology machine world)
    (admitted : node ≤ machine.nrNodeIds) :
    RanOnce machine world node func
        ((uncoreCallFunctionOnNode machine node func).run machine.exec world)
        ((uncoreCallFunctionOnNode machine node func).trace machine.exec world) ∨
      RanNowhere world node ((uncoreCallFunctionOnNode machine node func).run machine.exec world)
        ((uncoreCallFunctionOnNode machine node func).trace machine.exec world) := by
  rcases Set.eq_empty_or_nonempty (onlineCpus machine world node) with empty | some
  · -- `cpumask_first` found `nr_cpu_ids`, which is no processor
    right
    apply ranNowhere_of_error admitted
    rw [firstOf_empty empty]
    apply topology.offline
    cases online : world.online machine.nrCpuIds with
    | false => rfl
    | true => exact absurd (topology.cpus _ online) (Nat.lt_irrefl _)
  · rcases exists_isLeast_onlineCpus some with ⟨cpu, least⟩
    have found := firstOf_eq (topology.cpus cpu least.1.1) least
    by_cases zero : machine.answer world.calls (.smpCallFunctionSingle cpu) = 0
    · exact .inl (ranOnce_of_zero admitted least found zero)
    · rw [← found] at zero
      exact .inr (ranNowhere_of_error admitted zero)

end Call

/-! ## The theorem -/

/-- **Calls on a node.** They keep to the topology except on a node without online processors,
which is given `nr_cpu_ids`, and on node `nr_node_ids`, which is not refused. -/
theorem callsOnNode_iff {machine : Machine} {world : World} (topology : Topology machine world)
    (node : Nat) (func : Option (Nat → UncoreProgram Unit)) :
    CallsOnNode machine world node func ↔
      (node < machine.nrNodeIds → (onlineCpus machine world node).Nonempty) ∧
        (node = machine.nrNodeIds → func = none) := by
  constructor
  · intro calls
    refine ⟨fun low => (firstOnline_iff topology).mp (calls.first low), ?_⟩
    intro limit
    cases func with
    | none => rfl
    | some body =>
        have silent := (calls.rejected (Nat.le_of_eq limit.symm)).2
        have call := (@uncoreCallFunctionOnNode_eq machine node body (Nat.le_of_eq limit) world).2
        rw [trace_smpCallFunctionSingle] at call
        rw [uncoreCallOnNode, call] at silent
        exact absurd silent (List.append_ne_nil_of_right_ne_nil _ (List.cons_ne_nil _ _))
  · rintro ⟨populated, limit⟩
    constructor
    · intro low
      exact (firstOnline_iff topology).mpr (populated low)
    · cases func with
      | none => exact .inr (ranNowhere_refused world node)
      | some body =>
          by_cases admitted : node ≤ machine.nrNodeIds
          · rcases @ranOnce_or_ranNowhere machine world node body topology admitted with
              once | nowhere
            · exact .inl ⟨body, rfl, once⟩
            · exact .inr nowhere
          · have refused := @uncoreCallFunctionOnNode_refused machine node body
              (Nat.lt_of_not_le admitted)
            rw [uncoreCallOnNode, refused]
            exact .inr (ranNowhere_refused world node)
    · intro high
      cases func with
      | none => exact ⟨rfl, rfl⟩
      | some body =>
          have other : machine.nrNodeIds ≠ node := by
            intro same
            cases limit same.symm
          have refused := @uncoreCallFunctionOnNode_refused machine node body
            (Nat.lt_of_le_of_ne high other)
          rw [uncoreCallOnNode, refused]
          exact ⟨rfl, rfl⟩

/-- Eight processors on nodes 0 and 1, and a node 2 that has memory only. -/
def memoryNode : Machine where
  haBoxes := []
  haBoxes_type := noBoxes_type
  imcDevices := ⟨[], List.nodup_nil⟩
  onlineNodes := [0, 1, 2]
  nrCpuIds := 8
  nrNodeIds := 3
  cpuToNode cpu := cpu / 4
  smpProcessorId := 0
  answer _ call := match call with
    | .smpCallFunctionSingle cpu => if cpu < 8 then 0 else -enxio
    | _ => 0

/-- All eight are online; the global MSRs hold the word given. -/
def eightOnline (word : BitVec 64) : World where
  units _ := { regs := fun _ => 0 }
  imc _ _ := 0
  globalPmu _ _ := word
  online cpu := decide (cpu < 8)

theorem memoryNode_topology (word : BitVec 64) : Topology memoryNode (eightOnline word) where
  cpus cpu online := of_decide_eq_true online
  offline calls cpu offline := by
    have high : ¬ cpu < 8 := of_decide_eq_false offline
    show (if cpu < 8 then 0 else -enxio : Int) ≠ 0
    rw [if_neg high]
    decide

theorem memoryNode_onlineCpus {word : BitVec 64} {node cpu : Nat} :
    cpu ∈ onlineCpus memoryNode (eightOnline word) node ↔ cpu < 8 ∧ cpu / 4 = node :=
  and_congr_left fun _ => decide_eq_true_iff

theorem callsOnNode_memoryNode :
    CallsOnNode memoryNode (eightOnline 0) 1 (some fun cpu => access (.udelay cpu 3)) := by
  apply (callsOnNode_iff (memoryNode_topology 0) 1 (some fun cpu => access (.udelay cpu 3))).mpr
  constructor
  · intro _
    exact ⟨4, memoryNode_onlineCpus.mpr ⟨by decide, rfl⟩⟩
  · intro limit
    cases limit

/-- Node 2 gets processor 8, and the mask of node 3 is looked up. -/
theorem not_callsOnNode_memoryNode :
    ((firstOnlineCpuOfNode memoryNode 2).run memoryNode.exec (eightOnline 0)).1 = 8 ∧
      UncoreOp.cpumaskOfNode 3 0 ∈
        (uncoreCallOnNode memoryNode 3 (some fun _ => pure ())).trace memoryNode.exec
          (eightOnline 0) ∧
      ¬ ∀ (machine : Machine) (world : World), Topology machine world →
        ∀ node func, CallsOnNode machine world node func := by
  refine ⟨rfl, List.mem_cons_self, ?_⟩
  intro claim
  have first := (claim memoryNode (eightOnline 0) (memoryNode_topology 0) 2 none).first
  have empty : onlineCpus memoryNode (eightOnline 0) 2 = ∅ := by
    rw [Set.eq_empty_iff_forall_notMem]
    intro cpu listed
    have place := memoryNode_onlineCpus.mp listed
    omega
  exact firstOnlineCpuOfNode_ne ((first (by decide)).absent.mpr empty)

end NvmEmulator.Emulate
