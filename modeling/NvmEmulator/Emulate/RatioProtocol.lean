/-
# The start and the writers of the ratio

The task that loads the module and the writers of `/proc/uncore_pmu` run as threads
over one world. This module has the pool they form, what it means that the ratio shown
is the one there is, and what each thread relies on and guarantees. The invariant is
that a free mutex means consistency, once the home agents are found; until then the
start relies on every ratio being 1, and the writers of ratio 1 on the start doing the
same.

Both sides program the registers with one function, so its rule is here too.
-/

import NvmEmulator.Semantics.Coverage
import NvmEmulator.Semantics.Threads
import NvmEmulator.Emulate.UncoreProc

namespace NvmEmulator.Emulate

open Relation NvmEmulator.Kernel NvmEmulator.Semantics NvmEmulator.Uncore

/-! ## The system -/

/-- The task in `uncore_init` is `none`; `some task` writes to `/proc/uncore_pmu`. -/
abbrev RatioPool := Pool (Option Nat) UncoreOp UncoreOp.Res World

/-- A write, as a thread. -/
def writeTask (machine : Machine) (task : Nat) (request : ProcWrite) : UncoreProgram Unit := do
  let _ ← uncoreProcWrite machine task request
  pure ()

/-- A task begins a write; `may` says when a ratio can be asked for. -/
inductive Writes (machine : Machine) (may : World → Nat → Prop) :
    RatioPool → Option Nat → UncoreProgram Unit → World → Prop
  | write {pool : RatioPool} {task : Nat} (request : ProcWrite)
      (idle : pool.threads (some task) = .ret ())
      (permitted : ∀ ratio, ratioAsked request = some ratio → may pool.state ratio) :
      Writes machine may pool (some task) (writeTask machine task request) pool.state

/-- `uncore_init` goes on, and nobody writes. -/
def initThreads (machine : Machine) : Option Nat → UncoreProgram Unit
  | none => uncoreInitTail machine
  | some _ => .ret ()

/-- The file has just been made. -/
def fileCreated (machine : Machine) (world : World) : RatioPool := ⟨initThreads machine, world⟩

/-- A step of anything else: it leaves the controllers, the mutex and the globals of
this protocol alone. -/
structure Elsewhere (before after : World) : Prop where
  imc : after.imc = before.imc
  mutex : after.mutex = before.mutex
  bwRatio : after.globals.bwRatio = before.globals.bwRatio
  started : after.globals.emulationStarted = before.globals.emulationStarted
  haBox0 : after.globals.haBox0 = before.globals.haBox0
  haBox1 : after.globals.haBox1 = before.globals.haBox1

/-- The globals as the module is loaded. -/
structure Fresh (world : World) : Prop where
  bwRatio : world.globals.bwRatio = 1
  mutex : world.mutex = none
  started : world.globals.emulationStarted = false
  haBox0 : world.globals.haBox0 = none

/-- `uncore_init` has returned, the emulation has started, and no write is in progress. -/
structure AtRest (pool : RatioPool) : Prop where
  returned : pool.threads none = .ret ()
  started : pool.state.globals.emulationStarted = true
  idle : ∀ task, pool.threads (some task) = .ret ()

/-- A DIMM register: a controller and an offset. -/
abbrev DimmWord := PciDev × BitVec 32

/-- The `THRT_PWR` field of a DIMM register. -/
def World.thrtPwrField (world : World) (word : DimmWord) : BitVec 16 :=
  world.imc word.1 word.2 &&& 0x0fff

/-- Every DIMM register of every controller on every online node has the ratio. -/
def Programmed (machine : Machine) (ratio : Nat) (world : World) : Prop :=
  ∀ imc ∈ machine.imcDevices.list, imc.nodeid ∈ machine.onlineNodes →
    ∀ addr ∈ dimmOffsets, world.thrtPwrField (imc.pdev, addr) = thrtPwr ratio

/-- What `/proc/uncore_pmu` shows is what the hardware has. -/
def ShowsRatio (machine : Machine) (world : World) : Prop :=
  ∃ ratio ∈ [1, 2, 4],
    (pmuProcShow.run machine.exec world).1 =
      "Bandwidth Throttling Ratio: 1/" ++ toString ratio ∧
    Programmed machine ratio world

/-- Both home agents have been found. -/
def FoundBoxes (world : World) : Prop :=
  world.globals.haBox0.isSome = true ∧ world.globals.haBox1.isSome = true

/-- Every online memory controller is on one of the two nodes a write programs. -/
def TwoNodes (machine : Machine) : Prop :=
  ∀ imc ∈ machine.imcDevices.list, imc.nodeid ∈ machine.onlineNodes → imc.nodeid ≤ 1

/-- The walk over the online nodes gets to every node that has a controller: it stops at
the first node without one, or with a number the driver does not take. -/
def WalkReaches (machine : Machine) : Prop :=
  ∀ before node after, machine.onlineNodes = before ++ node :: after →
    devicesOn machine.imcDevices.list node ≠ [] →
      ∀ earlier ∈ before ++ [node], earlier ≤ uncoreMaxSocket ∧
        devicesOn machine.imcDevices.list earlier ≠ []

/-- A ratio other than 1 waits until the start is done with the controllers, and for a
machine whose controllers a write reaches. -/
def Late (machine : Machine) (world : World) (ratio : Nat) : Prop :=
  ratio = 1 ∨ (FoundBoxes world ∧ TwoNodes machine)

section

variable {machine : Machine}

/-! ## DIMM registers -/

/-- The DIMM registers of a controller. -/
def deviceWords (pdev : PciDev) : Set DimmWord :=
  regionOf (fun i => {(pdev, dimmOffset i)}) [0, 1, 2]

/-- The DIMM registers of a node. -/
def nodeWords (machine : Machine) (nodeid : Nat) : Set DimmWord :=
  regionOf deviceWords (devicesOn machine.imcDevices.list nodeid)

/-- The DIMM registers of the online nodes. -/
def onlineWords (machine : Machine) : Set DimmWord :=
  regionOf (nodeWords machine) machine.onlineNodes

theorem mem_deviceWords {pdev : PciDev} {word : DimmWord} :
    word ∈ deviceWords pdev ↔ word.1 = pdev ∧ word.2 ∈ dimmOffsets := by
  rcases word with ⟨device, addr⟩
  simp only [deviceWords, regionOf, Set.mem_ofPred_eq, Set.mem_singleton_iff, Prod.mk.injEq,
    dimmOffsets, List.mem_map]
  constructor
  · intro found
    rcases found with ⟨i, mem, same, here⟩
    exact ⟨same, i, mem, here.symm⟩
  · intro found
    rcases found with ⟨same, i, mem, here⟩
    exact ⟨i, mem, same, here.symm⟩

theorem mem_nodeWords {nodeid : Nat} {word : DimmWord} :
    word ∈ nodeWords machine nodeid ↔
      ∃ imc ∈ machine.imcDevices.list, imc.nodeid = nodeid ∧ imc.pdev = word.1 ∧
        word.2 ∈ dimmOffsets := by
  constructor
  · intro mem
    rcases mem with ⟨pdev, listed, here⟩
    rcases mem_devicesOn.mp listed with ⟨imc, there, node, same⟩
    have inside := mem_deviceWords.mp here
    exact ⟨imc, there, node, same.trans inside.1.symm, inside.2⟩
  · intro found
    rcases found with ⟨imc, there, node, same, addr⟩
    exact ⟨imc.pdev, mem_devicesOn.mpr ⟨imc, there, node, rfl⟩,
      mem_deviceWords.mpr ⟨same.symm, addr⟩⟩

theorem mem_onlineWords {word : DimmWord} :
    word ∈ onlineWords machine ↔
      ∃ imc ∈ machine.imcDevices.list, imc.nodeid ∈ machine.onlineNodes ∧
        imc.pdev = word.1 ∧ word.2 ∈ dimmOffsets := by
  constructor
  · intro mem
    rcases mem with ⟨node, listed, here⟩
    rcases mem_nodeWords.mp here with ⟨imc, there, rfl, same, addr⟩
    exact ⟨imc, there, listed, same, addr⟩
  · intro found
    rcases found with ⟨imc, there, listed, same, addr⟩
    exact ⟨imc.nodeid, listed, mem_nodeWords.mpr ⟨imc, there, rfl, same, addr⟩⟩

theorem programmed_iff {ratio : Nat} {world : World} :
    Programmed machine ratio world ↔
      ∀ word ∈ onlineWords machine, world.thrtPwrField word = thrtPwr ratio := by
  constructor
  · intro programmed word mem
    rcases mem_onlineWords.mp mem with ⟨imc, there, listed, same, addr⟩
    have here := programmed imc there listed word.2 addr
    rw [same] at here
    exact here
  · intro every imc there listed addr mem
    exact every _ (mem_onlineWords.mpr ⟨imc, there, listed, rfl, mem⟩)

/-- Where writes reach every controller, the nodes 0 and 1 have all registers. -/
theorem TwoNodes.near (sockets : TwoNodes machine) {word : DimmWord}
    (mem : word ∈ onlineWords machine) :
    word ∈ nodeWords machine 0 ∪ nodeWords machine 1 := by
  rcases mem_onlineWords.mp mem with ⟨imc, there, listed, same, addr⟩
  have small := sockets imc there listed
  have cases : imc.nodeid = 0 ∨ imc.nodeid = 1 := by omega
  rcases cases with zero | one
  · exact Or.inl (mem_nodeWords.mpr ⟨imc, there, zero, same, addr⟩)
  · exact Or.inr (mem_nodeWords.mpr ⟨imc, there, one, same, addr⟩)

/-! ## Accesses to the controllers -/

theorem exec_imc_read (machine : Machine) (pdev : PciDev) (addr : BitVec 32) (world : World) :
    (machine.device.exec (.imc pdev (.read addr)) world).2 = world := by
  show { world with imc := Function.update world.imc pdev (world.imc pdev) } = world
  rw [Function.update_eq_self]

/-- A write to a controller sets the field of its word. -/
theorem thrtPwrField_write (machine : Machine) (pdev : PciDev) (addr : BitVec 32)
    (value : BitVec 16) (world : World) (word : DimmWord) :
    (machine.device.exec (.imc pdev (.write addr value)) world).2.thrtPwrField word =
      if word = (pdev, addr) then value &&& 0x0fff else world.thrtPwrField word := by
  rcases word with ⟨device, place⟩
  show Function.update world.imc pdev (Function.update (world.imc pdev) addr value) device
    place &&& 0x0fff = _
  by_cases same : device = pdev
  · subst same
    rw [Function.update_self]
    by_cases here : place = addr
    · subst here
      simp
    · simp [here, World.thrtPwrField]
  · rw [Function.update_of_ne same]
    simp [same, World.thrtPwrField]

/-- The value `hswep_imc_set_threshold` writes has the ratio, whatever was read. -/
theorem setThreshold_field (config : BitVec 16) (ratio : Nat) :
    ((config &&& (1#16 <<< 15)) ||| thrtPwr ratio) &&& 0x0fff = thrtPwr ratio := by
  have enable : (1#16 <<< 15 : BitVec 16) &&& 0x0fff = 0 := by decide
  have field : thrtPwr ratio &&& 0x0fff = thrtPwr ratio := by
    unfold thrtPwr
    split <;> decide
  rw [BitVec.and_or_distrib_right, field, BitVec.and_assoc, enable]
  simp

/-- Enabling the throttle leaves the ratio alone. -/
theorem enableThrottle_field (config : BitVec 16) :
    (config ||| (1#16 <<< 15)) &&& 0x0fff = config &&& 0x0fff := by
  have enable : (1#16 <<< 15 : BitVec 16) &&& 0x0fff = 0 := by decide
  rw [BitVec.and_or_distrib_right, enable]
  simp

/-- So does disabling it. -/
theorem disableThrottle_field (config : BitVec 16) :
    (config &&& ~~~(1#16 <<< 15)) &&& 0x0fff = config &&& 0x0fff := by
  have enable : (~~~(1#16 <<< 15) : BitVec 16) &&& 0x0fff = 0x0fff := by decide
  rw [BitVec.and_assoc, enable]

/-! ## Rely and guarantee -/

/-- Some ratio is in `bw_ratio` and in every register. -/
def Consistent (machine : Machine) (world : World) : Prop :=
  ∃ ratio ∈ [1, 2, 4], world.globals.bwRatio = (ratio : Nat) ∧ Programmed machine ratio world

/-- The invariant: once the home agents are found, the registers out of a writer's reach
have ratio 1, and a free mutex means consistency. -/
def Coherent (machine : Machine) (world : World) : Prop :=
  FoundBoxes world →
    (∀ word ∈ onlineWords machine, word ∉ nodeWords machine 0 ∪ nodeWords machine 1 →
      world.thrtPwrField word = thrtPwr 1) ∧
    (world.mutex = none → Consistent machine world)

/-- Where ratio 1 is, it stays. -/
structure KeepsOnes (machine : Machine) (before after : World) : Prop where
  bwRatio : before.globals.bwRatio = 1 → after.globals.bwRatio = 1
  words : ∀ word ∈ onlineWords machine,
    before.thrtPwrField word = thrtPwr 1 → after.thrtPwrField word = thrtPwr 1

/-- What the start relies on. -/
structure StartRely (machine : Machine) (before after : World) : Prop where
  found : FoundBoxes after ↔ FoundBoxes before
  started : after.globals.emulationStarted = before.globals.emulationStarted
  ones : ¬ FoundBoxes before → KeepsOnes machine before after

/-- What a step of the start does: it programs nothing but ratio 1, and has done so
everywhere when it finds the home agents. -/
structure StartGuar (machine : Machine) (before after : World) : Prop where
  mutex : after.mutex = before.mutex
  bwRatio : after.globals.bwRatio = before.globals.bwRatio
  found : FoundBoxes before → FoundBoxes after
  words : ∀ word ∈ onlineWords machine,
    after.thrtPwrField word = before.thrtPwrField word ∨
      (before.globals.bwRatio = 1 ∧ after.thrtPwrField word = thrtPwr 1)
  finds : ¬ FoundBoxes before → FoundBoxes after →
    after.globals.bwRatio = 1 ∧ Programmed machine 1 after

/-- What a writer relies on: the mutex is its own, and so is what the mutex protects,
unless ratio 1 is being programmed. -/
structure WriteRely (machine : Machine) (task : Nat) (before after : World) : Prop where
  found : FoundBoxes before → FoundBoxes after
  mutex : after.mutex = some task ↔ before.mutex = some task
  bwRatio : before.mutex = some task → after.globals.bwRatio = before.globals.bwRatio
  words : before.mutex = some task → ∀ word ∈ onlineWords machine,
    after.thrtPwrField word = before.thrtPwrField word ∨
      (before.globals.bwRatio = 1 ∧ after.thrtPwrField word = thrtPwr 1)
  finds : ¬ FoundBoxes before → FoundBoxes after →
    after.globals.bwRatio = 1 ∧ Programmed machine 1 after
  coherent : Coherent machine before → Coherent machine after

/-- What a step of a writer does: nothing without the mutex, and nothing but ratio 1
before the home agents are found. -/
structure WriteGuar (machine : Machine) (task : Nat) (before after : World) : Prop where
  found : FoundBoxes after ↔ FoundBoxes before
  started : after.globals.emulationStarted = before.globals.emulationStarted
  waits : before.mutex ≠ some task →
    after.globals.bwRatio = before.globals.bwRatio ∧ after.imc = before.imc ∧
      (after.mutex = before.mutex ∨ (before.mutex = none ∧ after.mutex = some task))
  mutex : before.mutex = some task → after.mutex = some task ∨ after.mutex = none
  ones : ¬ FoundBoxes before → KeepsOnes machine before after
  coherent : Coherent machine before → Coherent machine after

def ratioRely (machine : Machine) : Option Nat → World → World → Prop
  | none => StartRely machine
  | some task => WriteRely machine task

def ratioGuar (machine : Machine) : Option Nat → World → World → Prop
  | none => StartGuar machine
  | some task => WriteGuar machine task

/-- When a thread has finished: the start has found the home agents if the emulation has
started, a writer does not have the mutex. -/
def ratioPost : Option Nat → Unit → World → Prop
  | none => fun _ world => world.globals.emulationStarted = true → FoundBoxes world
  | some task => fun _ world => world.mutex ≠ some task

theorem ShowsRatio.of_consistent {world : World} (consistent : Consistent machine world) :
    ShowsRatio machine world := by
  rcases consistent with ⟨ratio, mem, shown, programmed⟩
  refine ⟨ratio, mem, ?_, programmed⟩
  show "Bandwidth Throttling Ratio: 1/" ++ toString world.globals.bwRatio = _
  rw [shown]
  rfl

/-- Programming ratio 1 where the ratio is 1 keeps consistency. -/
theorem Consistent.kept {before after : World} (consistent : Consistent machine before)
    (bwRatio : after.globals.bwRatio = before.globals.bwRatio)
    (words : ∀ word ∈ onlineWords machine,
      after.thrtPwrField word = before.thrtPwrField word ∨
        (before.globals.bwRatio = 1 ∧ after.thrtPwrField word = thrtPwr 1)) :
    Consistent machine after := by
  rcases consistent with ⟨ratio, mem, shown, programmed⟩
  refine ⟨ratio, mem, bwRatio.trans shown, programmed_iff.mpr fun word online => ?_⟩
  rcases words word online with same | one
  · exact same.trans (programmed_iff.mp programmed word online)
  · have single : ratio = 1 := by
      have both := shown.symm.trans one.1
      exact_mod_cast both
    rw [one.2, single]

/-! ### Steps of anything else -/

namespace Elsewhere

variable {before after : World}

theorem found (elsewhere : Elsewhere before after) : FoundBoxes after ↔ FoundBoxes before := by
  rw [FoundBoxes, FoundBoxes, elsewhere.haBox0, elsewhere.haBox1]

theorem field (elsewhere : Elsewhere before after) (word : DimmWord) :
    after.thrtPwrField word = before.thrtPwrField word := by
  rw [World.thrtPwrField, World.thrtPwrField, elsewhere.imc]

theorem startRely (elsewhere : Elsewhere before after) : StartRely machine before after := by
  refine ⟨elsewhere.found, elsewhere.started, fun _ => ⟨fun one => ?_, fun word _ one => ?_⟩⟩
  · rw [elsewhere.bwRatio, one]
  · rw [elsewhere.field, one]

theorem startGuar (elsewhere : Elsewhere before after) : StartGuar machine before after :=
  ⟨elsewhere.mutex, elsewhere.bwRatio, elsewhere.found.mpr,
    fun word _ => Or.inl (elsewhere.field word),
    fun unfound found => absurd (elsewhere.found.mp found) unfound⟩

end Elsewhere

/-! ### The threads fit together -/

/-- A step of the start keeps the invariant. -/
theorem StartGuar.coherent {before after : World} (step : StartGuar machine before after)
    (coherent : Coherent machine before) : Coherent machine after := by
  intro found
  by_cases earlier : FoundBoxes before
  · rcases coherent earlier with ⟨far, free⟩
    constructor
    · intro word online apart
      rcases step.words word online with same | one
      · exact same.trans (far word online apart)
      · exact one.2
    · intro released
      exact (free (step.mutex.symm.trans released)).kept step.bwRatio step.words
  · rcases step.finds earlier found with ⟨one, programmed⟩
    exact ⟨fun word online _ => programmed_iff.mp programmed word online,
      fun _ => ⟨1, List.mem_cons_self, one, programmed⟩⟩

theorem StartGuar.writeRely {before after : World} (step : StartGuar machine before after)
    (task : Nat) : WriteRely machine task before after := by
  refine ⟨step.found, ?_, fun _ => step.bwRatio, fun _ => step.words, step.finds, step.coherent⟩
  rw [step.mutex]

theorem WriteGuar.startRely {task : Nat} {before after : World}
    (step : WriteGuar machine task before after) : StartRely machine before after :=
  ⟨step.found, step.started, step.ones⟩

theorem WriteGuar.writeRely {task other : Nat} (apart : other ≠ task) {before after : World}
    (step : WriteGuar machine task before after) : WriteRely machine other before after := by
  have mine : before.mutex = some other → before.mutex ≠ some task := by
    intro here there
    rw [here] at there
    exact apart (Option.some.inj there)
  refine ⟨step.found.mpr, ⟨fun later => ?_, fun earlier => ?_⟩, fun here => ?_,
    fun here word _ => ?_, fun unfound found => absurd (step.found.mp found) unfound,
    step.coherent⟩
  · by_cases held : before.mutex = some task
    · rcases step.mutex held with same | free
      · rw [same] at later
        exact absurd (Option.some.inj later).symm apart
      · rw [free] at later
        cases later
    · rcases (step.waits held).2.2 with same | taken
      · exact same.symm.trans later
      · rw [taken.2] at later
        exact absurd (Option.some.inj later).symm apart
  · rcases (step.waits (mine earlier)).2.2 with same | taken
    · exact same.trans earlier
    · rw [taken.1] at earlier
      cases earlier
  · exact (step.waits (mine here)).1
  · left
    rw [World.thrtPwrField, World.thrtPwrField, (step.waits (mine here)).2.1]

theorem ratio_compatible :
    Pool.Compatible (ratioRely machine) (ratioGuar machine) (Coherent machine) Elsewhere where
  thread
    | none, none, other, _, _, _ => absurd rfl other
    | none, some task, _, _, _, step => StartGuar.writeRely step task
    | some _, none, _, _, _, step => WriteGuar.startRely step
    | some _, some _, apart, _, _, step =>
        WriteGuar.writeRely (fun same => apart (congrArg some same)) step
  environment
    | none, _, _, moves => Elsewhere.startRely moves
    | some task, _, _, moves => (Elsewhere.startGuar moves).writeRely task
  kept
    | none, _, _, step => StartGuar.coherent step
    | some _, _, _, step => WriteGuar.coherent step
  keptByEnvironment _ _ moves := moves.startGuar.coherent

/-! ## Programming a ratio -/

/-- What the program owns, and the ratio in the part of the online registers covered. -/
def Holding (machine : Machine) (owns : World → Prop) (ratio : Nat) (covered : Set DimmWord)
    (world : World) : Prop :=
  owns world ∧
    ∀ word ∈ covered, word ∈ onlineWords machine → world.thrtPwrField word = thrtPwr ratio

section Programming

variable {rely guar : World → World → Prop} {owns : World → Prop} {ratio : Nat}
  (stable : ∀ covered, Stable rely (Holding machine owns ratio covered))
  (idle : ∀ world, guar world world)
  (writes : ∀ world pdev addr value, owns world → value &&& 0x0fff = thrtPwr ratio →
    guar world (machine.device.exec (.imc pdev (.write addr value)) world).2 ∧
      owns (machine.device.exec (.imc pdev (.write addr value)) world).2)
include stable idle writes

/-- The read-modify-write of one DIMM register. -/
theorem setDimm_guarded (pdev : PciDev) (i : Nat) (covered : Set DimmWord) (world : World)
    (holding : Holding machine owns ratio covered world) :
    Guarded machine.device rely guar
      (fun _ => Holding machine owns ratio (covered ∪ {(pdev, dimmOffset i)}))
      (.access (.imc pdev (.read (dimmOffset i))) fun answer =>
        .access (.imc pdev (.write (dimmOffset i)
          ((answer.2 &&& (1#16 <<< 15)) ||| thrtPwr ratio))) fun _ => .ret ()) world := by
  refine Guarded.access _ (stable covered) holding fun later held _ => ?_
  have unread : (machine.device.exec (.imc pdev (.read (dimmOffset i))) later).2 = later :=
    exec_imc_read machine pdev (dimmOffset i) later
  rw [unread]
  refine ⟨idle later, Guarded.access _ (stable covered) held fun final still _ => ?_⟩
  have field := setThreshold_field (later.imc pdev (dimmOffset i)) ratio
  have step := writes final pdev (dimmOffset i) _ still.1 field
  refine ⟨step.1, Guarded.ret (stable _) ⟨step.2, fun word mem online => ?_⟩⟩
  rw [thrtPwrField_write machine]
  by_cases here : word = (pdev, dimmOffset i)
  · rw [if_pos here]
    exact field
  · rw [if_neg here]
    exact still.2 word (mem.resolve_right here) online

/-- `hswep_imc_set_threshold` -/
theorem setDevice_guarded (pdev : PciDev) (covered : Set DimmWord) (world : World)
    (holding : Holding machine owns ratio covered world) :
    Guarded machine.device rely guar
      (fun code later => code = 0 ∧
        Holding machine owns ratio (covered ∪ deviceWords pdev) later)
      (uncoreImcOps.setThreshold pdev ratio) world := by
  show Guarded _ _ _ _ (Program.hoist (onImc pdev)
    ((forDimms fun config => (config &&& (1#16 <<< 15)) ||| thrtPwr ratio).bind
      fun _ => .ret 0)) world
  rw [Program.hoist_bind, forDimms, Program.hoist_forEach]
  refine Guarded.bind (Guarded.forEach_covers stable
    (setDimm_guarded stable idle writes pdev) holding) ?_
  intro _ later covers final moves
  exact ⟨rfl, (stable _).star moves covers⟩

/-- `uncore_imc_set_threshold`, on a node the driver takes. -/
theorem setNode_guarded {nodeid : Nat} (bound : nodeid ≤ uncoreMaxSocket)
    (covered : Set DimmWord) (world : World)
    (holding : Holding machine owns ratio covered world) :
    Guarded machine.device rely guar
      (fun code later => (code = 0 ∨ devicesOn machine.imcDevices.list nodeid = []) ∧
        Holding machine owns ratio (covered ∪ nodeWords machine nodeid) later)
      (uncoreImcSetThreshold uncoreImcOps machine.imcDevices.list nodeid ratio) world := by
  rw [uncoreImcSetThreshold, if_neg (Nat.not_lt.mpr bound), forNodeDevices_eq]
  apply (Guarded.untilError_covers stable (setDevice_guarded stable idle writes) holding).mono
  intro code later covers
  exact ⟨covers.1.imp_right And.left, covers.2⟩

end Programming

end

end NvmEmulator.Emulate
