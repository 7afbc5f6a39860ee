/-
# Clearing the global PMU

`uncore_clear_global_pmu` visits the online nodes and has each one's global control and
status cleared on one of its processors. The status register clears where a 1 is written, so
it is read and written back; but the local variable between the two has 32 bits of the
register's 64. The theorem at the end says what is left of a status with high bits.
-/

import NvmEmulator.Emulate.NodeCalls
import NvmEmulator.Numeric.Mask

namespace NvmEmulator.Emulate

open NvmEmulator.Kernel NvmEmulator.Numeric NvmEmulator.Semantics NvmEmulator.Uncore

/-! ## What the function is to do -/

/-- An access to a global MSR of a node. -/
def onNode (machine : Machine) (node : Nat) : UncoreOp → Bool
  | .msr cpu _ => machine.cpuToNode cpu == node
  | _ => false

/-- Each online node that has an online processor is cleared, once and on one of its
processors; nodes without one are left alone. -/
structure ClearsGlobalPmu (machine : Machine) (pmu : UncorePmu) (world : World) : Prop where
  zero : ∀ node ∈ machine.onlineNodes, (onlineCpus machine world node).Nonempty →
    let regs := ((uncoreClearGlobalPmu machine pmu).run machine.exec world).2.globalPmu node
    regs pmu.globalCtl = 0 ∧ regs pmu.globalStatus = 0
  once : ∀ node ∈ machine.onlineNodes, (onlineCpus machine world node).Nonempty →
    ∃ cpu ∈ onlineCpus machine world node,
      ((uncoreClearGlobalPmu machine pmu).trace machine.exec world).filter (onNode machine node) =
        (onCpu cpu (uncoreClearGlobalPmuOnCpu pmu)).trace machine.exec world
  unchanged : ∀ node, onlineCpus machine world node = ∅ →
    ((uncoreClearGlobalPmu machine pmu).run machine.exec world).2.globalPmu node =
      world.globalPmu node

/-- The topology as the loop over the nodes meets it: the nodes are listed once, by numbers
below `nr_node_ids`, and a call to an online processor is made. -/
structure NodeTopology (machine : Machine) (world : World) : Prop extends
    Topology machine world where
  nodes : ∀ node ∈ machine.onlineNodes, node < machine.nrNodeIds
  distinct : machine.onlineNodes.Nodup
  reached : ∀ calls cpu, world.online cpu = true →
    machine.answer calls (.smpCallFunctionSingle cpu) = 0

/-- A PMU whose registers are there; the status is the register of the machine that clears
where a 1 is written. -/
structure UncorePmu.Present (pmu : UncorePmu) : Prop where
  control : pmu.globalCtl ≠ 0
  status : pmu.globalStatus = globalPmuLayout.boxStatus

/-! ## One node -/

section Clear

variable {pmu : UncorePmu}

/-- The part of a word that 32 bits hold. -/
def lowWord (word : BitVec 64) : BitVec 64 := (word.setWidth 32).setWidth 64

theorem lowWord_getLsbD (word : BitVec 64) (i : Nat) :
    (lowWord word).getLsbD i = (decide (i < 32) && word.getLsbD i) := by
  rw [lowWord, BitVec.getLsbD_setWidth, BitVec.getLsbD_setWidth]
  by_cases inside : i < 64
  · rw [decide_eq_true inside, Bool.true_and]
  · rw [BitVec.getLsbD_of_ge word i (by omega), Bool.and_false, Bool.and_false]

/-- Nothing is left of a word when the bits of its low half are cleared only if there are no
others. -/
theorem within_lowWord_iff (word : BitVec 64) : Within word (lowWord word) ↔ word >>> 32 = 0 := by
  rw [within_iff]
  show _ ↔ word >>> 32 = 0#64
  rw [BitVec.zero_iff_eq_false]
  constructor
  · intro low i
    rw [BitVec.getLsbD_ushiftRight, ← Bool.not_eq_true]
    intro bit
    have inside := low (32 + i) bit
    rw [lowWord_getLsbD, Bool.and_eq_true, decide_eq_true_iff] at inside
    omega
  · intro high i bit
    have inside : i < 32 := by
      by_contra outside
      have zero := high (i - 32)
      rw [BitVec.getLsbD_ushiftRight, Nat.add_sub_of_le (Nat.le_of_not_lt outside), bit] at zero
      cases zero
    rw [lowWord_getLsbD, decide_eq_true inside, Bool.true_and, bit]

/-- The registers of a node after `__uncore_clear_global_pmu`. -/
def clearedRegs (pmu : UncorePmu) (regs : RegFile 64) : RegFile 64 :=
  let stopped := globalPmuLayout.write pmu.globalCtl 0 regs
  globalPmuLayout.write pmu.globalStatus
    (lowWord (globalPmuLayout.read pmu.globalStatus stopped)) stopped

/-- The accesses of `__uncore_clear_global_pmu` on a processor. -/
def clearAccesses (pmu : UncorePmu) (cpu : Nat) (regs : RegFile 64) : List UncoreOp :=
  let stopped := globalPmuLayout.write pmu.globalCtl 0 regs
  [.msr cpu (.write pmu.globalCtl 0), .msr cpu (.read pmu.globalStatus),
    .msr cpu (.write pmu.globalStatus (lowWord (globalPmuLayout.read pmu.globalStatus stopped)))]

theorem UncorePmu.Present.status_ne (present : pmu.Present) : pmu.globalStatus ≠ 0 := by
  rw [present.status]
  decide

/-- A register program on a processor acts on the registers of its node. -/
theorem run_onCpu {α : Type} (machine : Machine) (cpu : Nat) (program : RegProgram 64 α)
    (world : World) :
    (onCpu cpu program).run machine.exec world =
      ((program.run globalPmuLayout.exec (world.globalPmu (machine.cpuToNode cpu))).1,
        { world with
          globalPmu := Function.update world.globalPmu (machine.cpuToNode cpu)
            (program.run globalPmuLayout.exec (world.globalPmu (machine.cpuToNode cpu))).2 }) := by
  apply Program.run_hoist (fun world : World => world.globalPmu (machine.cpuToNode cpu))
    fun world regs => { world with
      globalPmu := Function.update world.globalPmu (machine.cpuToNode cpu) regs }
  · intro op world
    rfl
  · intro world regs
    exact Function.update_self _ _ _
  · intro world
    rw [Function.update_eq_self]
  · intro world first second
    rw [Function.update_idem]

theorem run_clear (present : pmu.Present) (regs : RegFile 64) :
    ((uncoreClearGlobalPmuOnCpu pmu).run globalPmuLayout.exec regs).2 = clearedRegs pmu regs := by
  rw [uncoreClearGlobalPmuOnCpu, if_pos present.control, if_pos present.status_ne]
  rfl

theorem trace_clear (present : pmu.Present) (machine : Machine) (cpu : Nat) (world : World) :
    (onCpu cpu (uncoreClearGlobalPmuOnCpu pmu)).trace machine.exec world =
      clearAccesses pmu cpu (world.globalPmu (machine.cpuToNode cpu)) := by
  let node := machine.cpuToNode cpu
  let stopped := Function.update world.globalPmu node
    (globalPmuLayout.write pmu.globalCtl 0 (world.globalPmu node))
  have after : stopped node = globalPmuLayout.write pmu.globalCtl 0 (world.globalPmu node) :=
    Function.update_self _ _ _
  rw [uncoreClearGlobalPmuOnCpu, if_pos present.control, if_pos present.status_ne]
  show [UncoreOp.msr cpu (.write pmu.globalCtl 0), .msr cpu (.read pmu.globalStatus),
    .msr cpu (.write pmu.globalStatus
      (lowWord (globalPmuLayout.read pmu.globalStatus (stopped node))))] = _
  rw [after]
  rfl

theorem globalPmu_read (addr : BitVec 32) (regs : RegFile 64) :
    globalPmuLayout.read addr regs = regs addr := by
  rw [PmonLayout.read, if_neg]
  rintro ⟨zero, other⟩
  exact other zero

theorem globalPmu_write (addr : BitVec 32) (value : BitVec 64) (regs : RegFile 64) :
    globalPmuLayout.write addr value regs =
      if addr = globalPmuLayout.boxStatus then Function.update regs addr (regs addr &&& ~~~value)
      else Function.update regs addr value := by
  have control : ¬ (addr = globalPmuLayout.boxCtl ∧ addr ≠ 0) := by
    rintro ⟨zero, other⟩
    exact other zero
  rw [PmonLayout.write, if_neg control]
  by_cases status : addr = globalPmuLayout.boxStatus
  · have other : addr ≠ 0 := by
      rw [status]
      decide
    rw [if_pos ⟨status, other⟩, if_pos status]
  · rw [if_neg fun both => status both.1, if_neg status]

/-- What is left of the status are its high bits. -/
theorem clearedRegs_status (present : pmu.Present) (regs : RegFile 64) :
    clearedRegs pmu regs pmu.globalStatus =
      regs pmu.globalStatus &&& ~~~lowWord (regs pmu.globalStatus) := by
  have kept : globalPmuLayout.write pmu.globalCtl 0 regs pmu.globalStatus =
      regs pmu.globalStatus := by
    rw [globalPmu_write]
    by_cases same : pmu.globalCtl = globalPmuLayout.boxStatus
    · rw [if_pos same, present.status, ← same, Function.update_self]
      exact BitVec.and_allOnes
    · rw [if_neg same, present.status, Function.update_of_ne fun other => same other.symm]
  rw [clearedRegs, globalPmu_read, globalPmu_write, if_pos present.status, Function.update_self,
    kept]

/-- The control is cleared whatever the status, unless both are one register. -/
theorem clearedRegs_control (present : pmu.Present) {regs : RegFile 64}
    (status : clearedRegs pmu regs pmu.globalStatus = 0) :
    clearedRegs pmu regs pmu.globalCtl = 0 := by
  by_cases same : pmu.globalCtl = pmu.globalStatus
  · rw [same]
    exact status
  · have other : pmu.globalCtl ≠ globalPmuLayout.boxStatus := by
      rw [← present.status]
      exact same
    rw [clearedRegs, globalPmu_write, if_pos present.status, Function.update_of_ne same,
      globalPmu_write, if_neg other, Function.update_self]

theorem clearedRegs_zero_iff (present : pmu.Present) (regs : RegFile 64) :
    (clearedRegs pmu regs pmu.globalCtl = 0 ∧ clearedRegs pmu regs pmu.globalStatus = 0) ↔
      regs pmu.globalStatus >>> 32 = 0 := by
  rw [← within_lowWord_iff, Within, ← clearedRegs_status present]
  exact ⟨fun both => both.2, fun status => ⟨clearedRegs_control present status, status⟩⟩

end Clear

/-! ## The loop over the nodes -/

/-- What the rounds for some nodes do: those with an online processor are cleared there,
and no others are touched. -/
structure ClearedNodes (machine : Machine) (pmu : UncorePmu) (nodes : List Nat)
    (before after : World) (ops : List UncoreOp) : Prop where
  online : after.online = before.online
  cleared : ∀ node ∈ nodes, (onlineCpus machine before node).Nonempty →
    ∃ cpu ∈ onlineCpus machine before node,
      after.globalPmu node = clearedRegs pmu (before.globalPmu node) ∧
      ops.filter (onNode machine node) = clearAccesses pmu cpu (before.globalPmu node)
  others : ∀ node, (node ∈ nodes → onlineCpus machine before node = ∅) →
    after.globalPmu node = before.globalPmu node ∧ ops.filter (onNode machine node) = []

section Loop

variable {machine : Machine} {pmu : UncorePmu} {before middle after : World}

theorem onlineCpus_congr (same : after.online = before.online) (node : Nat) :
    onlineCpus machine after node = onlineCpus machine before node := by
  rw [onlineCpus, onlineCpus, same]

theorem Topology.congr (topology : Topology machine before)
    (same : after.online = before.online) : Topology machine after where
  cpus cpu online := topology.cpus cpu (by rw [← same]; exact online)
  offline calls cpu offline := topology.offline calls cpu (by rw [← same]; exact offline)

theorem NodeTopology.congr (topology : NodeTopology machine before)
    (same : after.online = before.online) : NodeTopology machine after where
  toTopology := topology.toTopology.congr same
  nodes := topology.nodes
  distinct := topology.distinct
  reached calls cpu online := topology.reached calls cpu (by rw [← same]; exact online)

theorem ClearedNodes.nil (world : World) : ClearedNodes machine pmu [] world world [] where
  online := rfl
  cleared _ listed := absurd listed List.not_mem_nil
  others _ _ := ⟨rfl, rfl⟩

/-- A round for a node, and the rounds for other nodes. -/
theorem ClearedNodes.cons {node : Nat} {nodes : List Nat} {first rest : List UncoreOp}
    (round : ClearedNodes machine pmu [node] before middle first)
    (loop : ClearedNodes machine pmu nodes middle after rest) (fresh : node ∉ nodes) :
    ClearedNodes machine pmu (node :: nodes) before after (first ++ rest) := by
  have same : ∀ other, onlineCpus machine middle other = onlineCpus machine before other :=
    onlineCpus_congr round.online
  constructor
  · rw [loop.online, round.online]
  · intro other listed some
    rw [List.filter_append]
    by_cases here : other = node
    · rcases round.cleared other (List.mem_singleton.mpr here) some with ⟨cpu, online, regs, ops⟩
      have later := loop.others other fun inside => absurd (here ▸ inside) fresh
      refine ⟨cpu, online, ?_, ?_⟩
      · rw [later.1, regs]
      · rw [later.2, ops, List.append_nil]
    · have earlier := round.others other fun inside => absurd (List.mem_singleton.mp inside) here
      have inside := (List.mem_cons.mp listed).resolve_left here
      rw [← same other] at some
      rcases loop.cleared other inside some with ⟨cpu, online, regs, ops⟩
      refine ⟨cpu, by rw [← same other]; exact online, ?_, ?_⟩
      · rw [regs, earlier.1]
      · rw [earlier.2, ops, List.nil_append, earlier.1]
  · intro other empty
    have earlier := round.others other fun inside =>
      empty (List.mem_cons.mpr (.inl (List.mem_singleton.mp inside)))
    have later := loop.others other fun inside => by
      rw [same other]
      exact empty (List.mem_cons_of_mem _ inside)
    rw [List.filter_append, later.1, earlier.1, earlier.2, later.2]
    exact ⟨rfl, rfl⟩

theorem filter_lookups {node : Nat} {ops : List UncoreOp} (lookups : Lookups node ops)
    (other : Nat) : ops.filter (onNode machine other) = [] := by
  rw [List.filter_eq_nil_iff]
  intro op listed
  rcases lookups op listed with ⟨cpu, rfl⟩
  exact Bool.false_ne_true

theorem mem_clearAccesses {cpu : Nat} {regs : RegFile 64} {op : UncoreOp}
    (listed : op ∈ clearAccesses pmu cpu regs) : ∃ inner, op = .msr cpu inner := by
  simp only [clearAccesses, List.mem_cons, List.not_mem_nil, or_false] at listed
  rcases listed with rfl | rfl | rfl <;> exact ⟨_, rfl⟩

theorem filter_clearAccesses_self (cpu : Nat) (regs : RegFile 64) :
    (clearAccesses pmu cpu regs).filter (onNode machine (machine.cpuToNode cpu)) =
      clearAccesses pmu cpu regs := by
  rw [List.filter_eq_self]
  intro op listed
  rcases mem_clearAccesses listed with ⟨inner, rfl⟩
  exact beq_self_eq_true (machine.cpuToNode cpu)

theorem filter_clearAccesses_of_ne {cpu node : Nat} (apart : machine.cpuToNode cpu ≠ node)
    (regs : RegFile 64) :
    (clearAccesses pmu cpu regs).filter (onNode machine node) = [] := by
  rw [List.filter_eq_nil_iff]
  intro op listed on
  rcases mem_clearAccesses listed with ⟨inner, rfl⟩
  exact apart (beq_iff_eq.mp on)

/-- A node is cleared on its lowest processor. -/
theorem ClearedNodes.of_ranOnce (present : pmu.Present) {node : Nat} {outcome : Int × World}
    {ops : List UncoreOp}
    (once : RanOnce machine before node (fun cpu => onCpu cpu (uncoreClearGlobalPmuOnCpu pmu))
      outcome ops) :
    ClearedNodes machine pmu [node] before outcome.2 ops := by
  rcases once with ⟨cpu, lookups, least, looked, rfl, rfl⟩
  have here : machine.cpuToNode cpu = node := least.1.2
  have call : ∀ other, lookups.filter (onNode machine other) = [] := filter_lookups looked
  rw [trace_clear present, run_onCpu, run_clear present, here]
  constructor
  · rfl
  · intro other listed _
    rw [List.mem_singleton.mp listed]
    refine ⟨cpu, least.1, Function.update_self _ _ _, ?_⟩
    rw [List.filter_append, call, List.nil_append, ← here]
    exact filter_clearAccesses_self cpu _
  · intro other empty
    have apart : other ≠ node := by
      intro same
      have none := empty (List.mem_singleton.mpr same)
      rw [same] at none
      exact (Set.nonempty_iff_ne_empty.mp ⟨cpu, least.1⟩) none
    refine ⟨Function.update_of_ne apart _ _, ?_⟩
    rw [List.filter_append, call, List.nil_append]
    exact filter_clearAccesses_of_ne (fun same => apart (same.symm.trans here)) _

/-- A node without an online processor is not touched. -/
theorem ClearedNodes.of_ranNowhere {node : Nat} {outcome : Int × World} {ops : List UncoreOp}
    (empty : onlineCpus machine before node = ∅) (nowhere : RanNowhere before node outcome ops) :
    ClearedNodes machine pmu [node] before outcome.2 ops := by
  have none : ∀ other ∈ [node], ¬ (onlineCpus machine before other).Nonempty := by
    intro other listed
    rw [List.mem_singleton.mp listed, empty]
    exact Set.not_nonempty_empty
  rcases nowhere.2 with ⟨same, silent⟩ | ⟨cpu, lookups, looked, same, calls⟩
  · rw [same, silent]
    exact ⟨rfl, fun other listed some => absurd some (none other listed), fun _ _ => ⟨rfl, rfl⟩⟩
  · rw [same, calls]
    refine ⟨rfl, fun other listed some => absurd some (none other listed), fun other _ => ⟨rfl, ?_⟩⟩
    rw [List.filter_append, filter_lookups looked]
    rfl

/-- One round of the loop. -/
theorem clearedNodes_round (topology : NodeTopology machine before) (present : pmu.Present)
    {node : Nat} (admitted : node < machine.nrNodeIds) :
    ClearedNodes machine pmu [node] before
      ((uncoreCallFunctionOnNode machine node fun cpu =>
        onCpu cpu (uncoreClearGlobalPmuOnCpu pmu)).run machine.exec before).2
      ((uncoreCallFunctionOnNode machine node fun cpu =>
        onCpu cpu (uncoreClearGlobalPmuOnCpu pmu)).trace machine.exec before) := by
  have low := Nat.le_of_lt admitted
  rcases Set.eq_empty_or_nonempty (onlineCpus machine before node) with empty | some
  · rcases ranOnce_or_ranNowhere topology.toTopology low with once | nowhere
    · exact .of_ranOnce present once
    · exact .of_ranNowhere empty nowhere
  · rcases exists_isLeast_onlineCpus some with ⟨cpu, least⟩
    have found := firstOf_eq (topology.cpus cpu least.1.1) least
    exact .of_ranOnce present
      (ranOnce_of_zero low least found (topology.reached _ cpu least.1.1))

/-- The loop over some of the nodes. -/
theorem clearedNodes_loop (present : pmu.Present) {nodes : List Nat}
    (topology : NodeTopology machine before) (admitted : ∀ node ∈ nodes, node < machine.nrNodeIds)
    (distinct : nodes.Nodup) :
    let loop := Program.forEach
      (fun node => (uncoreCallFunctionOnNode machine node fun cpu =>
        onCpu cpu (uncoreClearGlobalPmuOnCpu pmu)).bind fun _ => .ret ()) nodes
    ClearedNodes machine pmu nodes before (loop.run machine.exec before).2
      (loop.trace machine.exec before) := by
  induction nodes generalizing before with
  | nil => exact .nil before
  | cons node rest ih =>
      have fresh := (List.nodup_cons.mp distinct).1
      have round := clearedNodes_round topology present (admitted node List.mem_cons_self)
      have loop := ih (topology.congr round.online)
        (fun later mem => admitted later (List.mem_cons_of_mem _ mem))
        (List.nodup_cons.mp distinct).2
      have both := round.cons loop fresh
      intro whole
      show ClearedNodes machine pmu (node :: rest) before
        (Program.run machine.exec (Program.forEach _ (node :: rest)) before).2
        (Program.trace machine.exec (Program.forEach _ (node :: rest)) before)
      rw [Program.forEach_cons, Program.run_bind, Program.trace_bind, Program.run_bind,
        Program.trace_bind, Program.trace_ret, List.append_nil]
      exact both

end Loop

/-! ## The theorem -/

theorem clearedNodes {machine : Machine} {pmu : UncorePmu} {world : World}
    (topology : NodeTopology machine world) (present : pmu.Present) :
    ClearedNodes machine pmu machine.onlineNodes world
      ((uncoreClearGlobalPmu machine pmu).run machine.exec world).2
      ((uncoreClearGlobalPmu machine pmu).trace machine.exec world) :=
  clearedNodes_loop present topology topology.nodes topology.distinct

/-- **Clearing the global PMU.** It clears the nodes whose status has no bits above the 32
that the local variable holds. -/
theorem clearsGlobalPmu_iff {machine : Machine} {pmu : UncorePmu} {world : World}
    (topology : NodeTopology machine world) (present : pmu.Present) :
    ClearsGlobalPmu machine pmu world ↔
      ∀ node ∈ machine.onlineNodes, (onlineCpus machine world node).Nonempty →
        world.globalPmu node pmu.globalStatus >>> 32 = 0 := by
  have loop := clearedNodes topology present
  constructor
  · intro clears node listed some
    have zero := clears.zero node listed some
    rcases loop.cleared node listed some with ⟨cpu, _, regs, _⟩
    rw [regs] at zero
    exact (clearedRegs_zero_iff present _).mp zero
  · intro low
    constructor
    · intro node listed some
      rcases loop.cleared node listed some with ⟨cpu, _, regs, _⟩
      rw [regs]
      exact (clearedRegs_zero_iff present _).mpr (low node listed some)
    · intro node listed some
      rcases loop.cleared node listed some with ⟨cpu, online, _, ops⟩
      refine ⟨cpu, online, ?_⟩
      rw [ops, trace_clear present, online.2]
    · intro node empty
      exact (loop.others node fun _ => empty).1

theorem uncorePmu_present : uncorePmu.Present := ⟨by decide, rfl⟩

theorem memoryNode_nodeTopology (word : BitVec 64) :
    NodeTopology memoryNode (eightOnline word) where
  toTopology := memoryNode_topology word
  nodes := by decide
  distinct := by decide
  reached calls cpu online := if_pos (of_decide_eq_true online)

theorem clearsGlobalPmu_lowBits :
    ClearsGlobalPmu memoryNode uncorePmu (eightOnline 0x80000001) := by
  apply (clearsGlobalPmu_iff (memoryNode_nodeTopology 0x80000001) uncorePmu_present).mpr
  intro node _ _
  exact (by decide : (0x80000001 : BitVec 64) >>> 32 = 0)

/-- Bit 32 of the status stays. -/
theorem not_clearsGlobalPmu_highBit :
    ((uncoreClearGlobalPmu memoryNode uncorePmu).run memoryNode.exec
        (eightOnline 0x100000001)).2.globalPmu 0 uncorePmu.globalStatus = 0x100000000 ∧
      ¬ ∀ (machine : Machine) (world : World), NodeTopology machine world →
        ClearsGlobalPmu machine uncorePmu world := by
  have left : ((uncoreClearGlobalPmu memoryNode uncorePmu).run memoryNode.exec
      (eightOnline 0x100000001)).2.globalPmu 0 uncorePmu.globalStatus = 0x100000000 := by
    decide +kernel
  refine ⟨left, fun claim => ?_⟩
  have clears := claim memoryNode (eightOnline 0x100000001) (memoryNode_nodeTopology _)
  have some : (onlineCpus memoryNode (eightOnline 0x100000001) 0).Nonempty :=
    ⟨0, memoryNode_onlineCpus.mpr ⟨by decide, rfl⟩⟩
  have zero := (clears.zero 0 List.mem_cons_self some).2
  rw [left] at zero
  exact absurd zero (by decide)

end NvmEmulator.Emulate
