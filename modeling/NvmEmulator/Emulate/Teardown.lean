/-
# Who else is online while the timer runs

The emulation charges every remote read of a node to one CPU, so that CPU must be
the only one online on its node while the timer is armed or its callback runs.
`prepare_platform_configuration` sees to that before the timer is started, and where
`start_emulate_nvm` fails it restores the platform with no timer armed.
`finish_emulate_nvm`, however, restores the platform *before* it cancels the timer: there
the property ends with the first other CPU of the node that `cpu_up` brings up.

The module's task and the timer callbacks run as threads. The task relies on the
callbacks for next to nothing (they touch no CPU, and none of them runs while all
timers are quiet), which the parallel rule turns into a statement about every
reachable state. The task's own invariant has two sides: either all timers are quiet, and
CPUs may come and go, or the emulating CPU is alone.
-/

import NvmEmulator.Semantics.Threads
import NvmEmulator.Emulate.Platform
import NvmEmulator.Emulate.Ledger

namespace NvmEmulator.Emulate

open Relation NvmEmulator.Kernel NvmEmulator.Semantics NvmEmulator.Uncore

/-! ## The system -/

/-- The module's task is `none`; `some box` runs the callback of the box's timer. -/
abbrev Task := Option UncoreBox

/-- The module's task and the timer callbacks. -/
abbrev ModulePool := Pool Task UncoreOp UncoreOp.Res World

/-- An armed timer expires: it leaves the queue and its callback starts. -/
inductive Expires : ModulePool → Task → UncoreProgram Unit → World → Prop
  | timer {pool : ModulePool} {box : UncoreBox} (idle : pool.threads (some box) = .ret ())
      (armed : (pool.state.timers box).armed = true)
      (waiting : (pool.state.timers box).running = false) :
      Expires pool (some box) (runHrtimer box (pool.state.boxes box).function)
        { pool.state with timers := Function.update pool.state.timers box ⟨false, true⟩ }

/-- What expires: the timer of some box, from armed to running. -/
theorem Expires.cases {pool : ModulePool} {task : Task} {program : UncoreProgram Unit}
    {after : World} (expires : Expires pool task program after) :
    ∃ box, task = some box ∧ (pool.state.timers box).armed = true ∧
      program = runHrtimer box (pool.state.boxes box).function ∧
      after = { pool.state with
        timers := Function.update pool.state.timers box ⟨false, true⟩ } := by
  cases expires with
  | timer idle armed waiting => exact ⟨_, rfl, armed, rfl, rfl⟩

/-- Load the module and, at some later time, unload it. -/
def moduleTask (machine : Machine) : UncoreProgram Unit := do
  startEmulateNvm machine
  finishEmulateNvm machine

/-- No function runs. -/
def idlePool (world : World) : ModulePool where
  threads _ := .ret ()
  state := world

/-- The module's task calls a function. -/
def calling (pool : ModulePool) (program : UncoreProgram Unit) : ModulePool where
  threads := Function.update pool.threads none program
  state := pool.state

theorem calling_task (pool : ModulePool) (program : UncoreProgram Unit) :
    (calling pool program).threads none = program := by
  show Function.update pool.threads none program none = program
  rw [Function.update_self]

/-- The module is about to be loaded; no callback runs. -/
def loading (machine : Machine) (world : World) : ModulePool :=
  calling (idlePool world) (moduleTask machine)

/-- No timer is armed and no callback runs. -/
def Quiet (world : World) : Prop :=
  ∀ box, world.timers box = ⟨false, false⟩

/-- The emulating CPU is the only one online on its node. -/
def OnlyEmulating (machine : Machine) (world : World) : Prop :=
  ∀ cpu, (world.online cpu = true ∧
    machine.cpuToNode cpu = world.globals.emulateNvmNode) ↔
      cpu = world.globals.emulateNvmCpu

/-- While a timer is armed or its callback runs, the emulating CPU is alone. -/
def Exclusive (machine : Machine) (world : World) : Prop :=
  ∀ box, (world.timers box).armed = true ∨ (world.timers box).running = true →
    OnlyEmulating machine world

/-- No other CPU of the emulated node is brought up while a timer is armed or its callback
runs. -/
def StaysDown (machine : Machine) : UncoreOp → World → Prop
  | .kernel (.cpuUp cpu), world =>
      (∃ box, (world.timers box).armed = true ∨ (world.timers box).running = true) →
        machine.cpuToNode cpu = world.globals.emulateNvmNode →
          cpu ≠ world.globals.emulateNvmCpu →
            KernelCall.reply machine world (.cpuUp cpu) ≠ 0
  | _, _ => True

/-- The world in which `prepare_platform_configuration` is called. -/
def enteringPrepare (machine : Machine) (world : World) : World :=
  (emulateNvmProcCreate.run machine.exec
    ((setEmulateParameters machine).run machine.exec world).2).2

section

variable {machine : Machine}

theorem onlyEmulating_congr {before after : World} (online : after.online = before.online)
    (cpu : after.globals.emulateNvmCpu = before.globals.emulateNvmCpu)
    (node : after.globals.emulateNvmNode = before.globals.emulateNvmNode) :
    OnlyEmulating machine after ↔ OnlyEmulating machine before := by
  rw [OnlyEmulating, OnlyEmulating, online, cpu, node]

theorem Quiet.exclusive {world : World} (quiet : Quiet world) : Exclusive machine world := by
  intro box active
  rw [quiet box] at active
  exact absurd active (by decide)

theorem OnlyEmulating.exclusive {world : World} (only : OnlyEmulating machine world) :
    Exclusive machine world :=
  fun _ _ => only

/-! ## What the threads rely on -/

/-- What the task sees of the world: everything but the boxes' registers. -/
def seen (world : World) : World :=
  { world with units := fun _ => ⟨fun _ => 0, 0, 0⟩ }

/-- What the callbacks and the events do to the task: they touch no CPU, and nothing
at all but registers while all timers are quiet. -/
structure ModuleRely (before after : World) : Prop where
  online : after.online = before.online
  cpu : after.globals.emulateNvmCpu = before.globals.emulateNvmCpu
  node : after.globals.emulateNvmNode = before.globals.emulateNvmNode
  quiet : Quiet before → seen after = seen before

/-- The callback of the box's timer is running, or it is not, as before. -/
def SameRunning (box : UncoreBox) (before after : World) : Prop :=
  (after.timers box).running = (before.timers box).running

def teardownRely : Task → World → World → Prop
  | none => ModuleRely
  | some box => SameRunning box

def teardownGuar (machine : Machine) : Task → World → World → Prop
  | none => fun before after =>
      (Exclusive machine before → Exclusive machine after) ∧
        ∀ box, SameRunning box before after
  | some box => fun before after =>
      (Exclusive machine before → Exclusive machine after) ∧ ModuleRely before after ∧
        ∀ other ≠ box, SameRunning other before after

theorem teardown_compatible :
    Pool.Compatible teardownRely (teardownGuar machine) (Exclusive machine) Arrives where
  thread
    | none, none, other, _, _, _ => absurd rfl other
    | none, some box, _, _, _, guaranteed => guaranteed.2 box
    | some _, none, _, _, _, guaranteed => guaranteed.2.1
    | some box, some apart, other, _, _, guaranteed =>
        guaranteed.2.2 apart fun same => other (congrArg some same)
  environment := by
    rintro (_ | box) _ _ ⟨other, world, room⟩
    · exact ⟨rfl, rfl, rfl, fun _ => rfl⟩
    · exact rfl
  kept
    | none, _, _, guaranteed => guaranteed.1
    | some _, _, _, guaranteed => guaranteed.1
  keptByEnvironment := by
    rintro _ _ ⟨other, world, room⟩ exclusive
    exact exclusive

/-! ## The callbacks -/

/-- An access that leaves alone CPUs, timers and the emulator's parameters. -/
def Apart (machine : Machine) (op : UncoreOp) : Prop :=
  ∀ world, (machine.exec op world).2.online = world.online ∧
    (machine.exec op world).2.globals.emulateNvmCpu = world.globals.emulateNvmCpu ∧
    (machine.exec op world).2.globals.emulateNvmNode = world.globals.emulateNvmNode ∧
    (machine.exec op world).2.timers = world.timers

theorem emulateNvmHrtimer_apart (box : UncoreBox) :
    (emulateNvmHrtimer box).Makes (Apart machine) :=
  makes_emulateNvmHrtimer (fun _ _ => ⟨rfl, rfl, rfl, rfl⟩) (fun _ => ⟨rfl, rfl, rfl, rfl⟩)
    (fun _ _ => ⟨rfl, rfl, rfl, rfl⟩) (fun _ => ⟨rfl, rfl, rfl, rfl⟩)
    (fun _ _ => ⟨rfl, rfl, rfl, rfl⟩) (fun _ _ _ => ⟨rfl, rfl, rfl, rfl⟩)

/-- A step from a world in which a callback runs, as the other threads see it. -/
theorem callback_step {box : UncoreBox} {before after : World}
    (running : (before.timers box).running = true) (online : after.online = before.online)
    (cpu : after.globals.emulateNvmCpu = before.globals.emulateNvmCpu)
    (node : after.globals.emulateNvmNode = before.globals.emulateNvmNode)
    (others : ∀ other ≠ box, SameRunning other before after) :
    teardownGuar machine (some box) before after := by
  refine ⟨fun exclusive _ _ => ?_, ⟨online, cpu, node, fun quiet => ?_⟩, others⟩
  · exact (onlyEmulating_congr online cpu node).mpr (exclusive box (Or.inr running))
  · rw [quiet box] at running
    exact absurd running (by decide)

variable {allowed : UncoreOp → World → Prop}

/-- A callback does what the task relies on. -/
theorem runHrtimer_guarded {box : UncoreBox} (function : HrtimerFunction) {world : World}
    (running : (world.timers box).running = true) :
    Guarded (machine.device.restrict allowed) (teardownRely (some box))
      (teardownGuar machine (some box)) (fun _ _ => True) (runHrtimer box function) world := by
  let active : World → Prop := fun world => (world.timers box).running = true
  have stable : Stable (teardownRely (some box)) active :=
    fun _ _ same holds => same.trans holds
  have body : (hrtimerFunction box function).Makes (Apart machine) := by
    cases function with
    | uncoreBoxHrtimerDef => trivial
    | emulateNvmHrtimer => exact emulateNvmHrtimer_apart box
  have keeps : ∀ op, Apart machine op → ∀ world, active world →
      (machine.device.restrict allowed).ready op world →
        teardownGuar machine (some box) world (machine.exec op world).2 ∧
          active (machine.exec op world).2 := by
    intro op apart world holds _
    obtain ⟨online, cpu, node, timers⟩ := apart world
    refine ⟨callback_step holds online cpu node fun other _ => ?_, ?_⟩
    · exact congrArg (fun timers => (timers other).running) timers
    · exact (congrArg (fun timers => (timers box).running) timers).trans holds
  refine Guarded.bind (Guarded.of_makes body stable keeps running) ?_
  intro again later holds
  refine Guarded.access active stable holds fun later holds _ => ⟨?_, fun _ _ => trivial⟩
  refine callback_step holds rfl rfl rfl fun other apart => ?_
  show (Function.update later.timers box _ other).running = _
  rw [Function.update_of_ne apart]

/-! ## The module's task -/

/-- The emulator's parameters are set and its CPU is alone on its node. -/
structure Settled (machine : Machine) (world : World) : Prop where
  cpu : world.globals.emulateNvmCpu = 0
  node : world.globals.emulateNvmNode = machine.cpuToNode 0
  only : OnlyEmulating machine world

/-- Either way the property holds. -/
def QuietOrSettled (machine : Machine) (world : World) : Prop :=
  Quiet world ∨ Settled machine world

theorem QuietOrSettled.exclusive {world : World} (safe : QuietOrSettled machine world) :
    Exclusive machine world := by
  rcases safe with quiet | settled
  · exact quiet.exclusive
  · exact settled.only.exclusive

/-- An access that keeps an assertion and starts or ends no callback, in the runs whose
accesses are `allowed`. -/
def Keeps (machine : Machine) (allowed : UncoreOp → World → Prop) (assertion : World → Prop)
    (op : UncoreOp) : Prop :=
  ∀ world, assertion world → allowed op world →
    assertion (machine.exec op world).2 ∧
      ∀ box, SameRunning box world (machine.exec op world).2

/-- The task's obligation. -/
abbrev ModuleMeets (machine : Machine) (allowed : UncoreOp → World → Prop) {α : Type}
    (post : α → World → Prop) (program : UncoreProgram α) (world : World) : Prop :=
  Guarded (machine.device.restrict allowed) (teardownRely none) (teardownGuar machine none) post
    program world

theorem settled_stable : Stable ModuleRely (Settled machine) := by
  intro before after moves settled
  refine ⟨moves.cpu.trans settled.cpu, moves.node.trans settled.node, ?_⟩
  exact (onlyEmulating_congr moves.online moves.cpu moves.node).mpr settled.only

theorem quiet_stable : Stable ModuleRely Quiet := by
  intro before after moves quiet box
  have same : (seen after).timers = (seen before).timers := by rw [moves.quiet quiet]
  exact (congrFun same box).trans (quiet box)

theorem quietOrSettled_stable : Stable ModuleRely (QuietOrSettled machine) :=
  fun _ _ moves safe => safe.imp (quiet_stable moves ·) (settled_stable moves ·)

/-- Accesses that keep an assertion under which the timers are exclusive meet the
task's obligation. -/
theorem guarded_of_keeps {α : Type} {program : UncoreProgram α} {assertion : World → Prop}
    (stable : Stable ModuleRely assertion)
    (exclusive : ∀ world, assertion world → Exclusive machine world)
    (makes : program.Makes (Keeps machine allowed assertion)) {world : World}
    (holds : assertion world) : ModuleMeets machine allowed (fun _ => assertion) program world := by
  refine Guarded.of_makes makes stable (fun op keeps world held ready => ?_) holds
  obtain ⟨kept, running⟩ := keeps world held ready.2
  exact ⟨⟨fun _ => exclusive _ kept, running⟩, kept⟩

/-- What the task does while all timers are quiet, and starts none. -/
theorem quiet_meets {α : Type} {program : UncoreProgram α}
    (makes : program.Makes (Keeps machine allowed Quiet)) {world : World} (quiet : Quiet world) :
    ModuleMeets machine allowed (fun _ => Quiet) program world :=
  guarded_of_keeps quiet_stable (fun _ => Quiet.exclusive) makes quiet

/-- An access that leaves CPUs, timers and parameters alone keeps everything. -/
theorem Apart.keepsSettled {op : UncoreOp} (apart : Apart machine op) :
    Keeps machine allowed (Settled machine) op := by
  intro world settled _
  obtain ⟨online, cpu, node, timers⟩ := apart world
  refine ⟨⟨cpu.trans settled.cpu, node.trans settled.node, ?_⟩, fun box => ?_⟩
  · exact (onlyEmulating_congr online cpu node).mpr settled.only
  · exact congrArg (fun timers => (timers box).running) timers

theorem Apart.keepsQuiet {op : UncoreOp} (apart : Apart machine op) :
    Keeps machine allowed Quiet op := by
  intro world quiet _
  obtain ⟨-, -, -, timers⟩ := apart world
  refine ⟨fun box => ?_, fun box => ?_⟩
  · rw [timers]
    exact quiet box
  · exact congrArg (fun timers => (timers box).running) timers

/-- What keeps both sides keeps either. -/
theorem Keeps.either {op : UncoreOp} (quiet : Keeps machine allowed Quiet op)
    (settled : Keeps machine allowed (Settled machine) op) :
    Keeps machine allowed (QuietOrSettled machine) op := by
  intro world safe permitted
  rcases safe with held | held
  · exact ⟨.inl (quiet world held permitted).1, (quiet world held permitted).2⟩
  · exact ⟨.inr (settled world held permitted).1, (settled world held permitted).2⟩

theorem Apart.keeps {op : UncoreOp} (apart : Apart machine op) :
    Keeps machine allowed (QuietOrSettled machine) op := apart.keepsQuiet.either apart.keepsSettled

/-- A hotplug call starts no timer. -/
theorem quiet_kernel (call : KernelCall) : Keeps machine allowed Quiet (.kernel call) :=
  fun _ quiet _ => ⟨quiet, fun _ => rfl⟩

/-- A timer that is set anew runs its callback as before. -/
theorem sameRunning_update {timers : UncoreBox → Hrtimer} {box : UncoreBox} {timer : Hrtimer}
    (same : timer.running = (timers box).running) (other : UncoreBox) :
    (Function.update timers box timer other).running = (timers other).running := by
  by_cases here : other = box
  · subst here
    rw [Function.update_self, same]
  · rw [Function.update_of_ne here]

theorem sameRunning_cancel (box : UncoreBox) (world : World) (other : UncoreBox) :
    SameRunning other world (machine.exec (.hrtimerCancel box) world).2 := by
  show (Function.update world.timers box _ other).running = (world.timers other).running
  exact sameRunning_update (by rfl) other

theorem sameRunning_start (box : UncoreBox) (world : World) (other : UncoreBox) :
    SameRunning other world (machine.exec (.hrtimerStart box) world).2 := by
  show (Function.update world.timers box _ other).running = (world.timers other).running
  exact sameRunning_update (by rfl) other

theorem quiet_cancel (box : UncoreBox) : Keeps machine allowed Quiet (.hrtimerCancel box) := by
  refine fun world quiet _ => ⟨fun other => ?_, sameRunning_cancel box world⟩
  show Function.update world.timers box _ other = _
  by_cases same : other = box
  · subst same
    rw [Function.update_self, quiet other]
  · rw [Function.update_of_ne same]
    exact quiet other

theorem settled_cancel (box : UncoreBox) :
    Keeps machine allowed (Settled machine) (.hrtimerCancel box) :=
  fun world settled _ =>
    ⟨⟨settled.cpu, settled.node, settled.only⟩, sameRunning_cancel box world⟩

theorem settled_start (box : UncoreBox) :
    Keeps machine allowed (Settled machine) (.hrtimerStart box) :=
  fun world settled _ =>
    ⟨⟨settled.cpu, settled.node, settled.only⟩, sameRunning_start box world⟩

/-- A CPU that is brought up elsewhere leaves the emulating CPU alone. -/
theorem settled_cpuUp {cpu : Nat} {world : World} (settled : Settled machine world)
    (elsewhere : KernelCall.reply machine world (.cpuUp cpu) = 0 →
      machine.cpuToNode cpu = machine.cpuToNode 0 → cpu = 0) :
    Settled machine (machine.exec (.kernel (.cpuUp cpu)) world).2 := by
  have here : OnlyEmulating machine world := settled.only
  refine ⟨settled.cpu, settled.node, fun other => ?_⟩
  show (KernelCall.onlineAfter (KernelCall.reply machine world (.cpuUp cpu)) world.online
      (.cpuUp cpu) other = true ∧ machine.cpuToNode other = world.globals.emulateNvmNode) ↔
    other = world.globals.emulateNvmCpu
  rw [KernelCall.onlineAfter]
  by_cases success : KernelCall.reply machine world (.cpuUp cpu) = 0
  · rw [if_pos success]
    by_cases same : other = cpu
    · subst same
      rw [Function.update_self, settled.node, settled.cpu]
      refine ⟨fun both => elsewhere success both.2, fun zero => ⟨rfl, ?_⟩⟩
      exact congrArg machine.cpuToNode zero
    · rw [Function.update_of_ne same]
      exact here other
  · rw [if_neg success]
    exact here other

/-- While all timers are quiet any CPU may come up, and otherwise no other CPU of the node
does. -/
theorem cpuUp_keeps (cpu : Nat) :
    Keeps machine (StaysDown machine) (QuietOrSettled machine) (.kernel (.cpuUp cpu)) := by
  intro world safe staysDown
  refine ⟨?_, fun _ => rfl⟩
  rcases safe with quiet | settled
  · exact .inl (quiet_kernel (.cpuUp cpu) world quiet staysDown).1
  · by_cases active : ∃ box, (world.timers box).armed = true ∨ (world.timers box).running = true
    · refine .inr (settled_cpuUp settled fun success here => ?_)
      by_contra other
      refine staysDown active (here.trans settled.node.symm) ?_ success
      rw [settled.cpu]
      exact other
    · have quiet : Quiet world := by
        intro box
        have idle := not_exists.mp active box
        rw [not_or, Bool.not_eq_true, Bool.not_eq_true] at idle
        cases here : world.timers box with
        | mk armed running =>
            rw [here] at idle
            exact congrArg₂ Hrtimer.mk idle.1 idle.2
      exact .inl (quiet_kernel (.cpuUp cpu) world quiet staysDown).1

/-- Tearing down keeps the property, as long as no other CPU of the node comes up under an
armed timer. -/
theorem finishEmulateNvm_keeps :
    (finishEmulateNvm machine).Makes
      (Keeps machine (StaysDown machine) (QuietOrSettled machine)) := by
  have apart : ∀ op, Apart machine op →
      Keeps machine (StaysDown machine) (QuietOrSettled machine) op := fun _ apart => apart.keeps
  exact makes_finishEmulateNvm (fun _ _ => apart _ fun _ => ⟨rfl, rfl, rfl, rfl⟩)
    (fun _ _ => apart _ fun _ => ⟨rfl, rfl, rfl, rfl⟩)
    (fun _ _ => apart _ fun _ => ⟨rfl, rfl, rfl, rfl⟩)
    (apart _ fun _ => ⟨rfl, rfl, rfl, rfl⟩)
    (fun _ _ => apart _ fun _ => ⟨rfl, rfl, rfl, rfl⟩) cpuUp_keeps
    (fun _ => apart _ fun _ => ⟨rfl, rfl, rfl, rfl⟩)
    (fun box => (quiet_cancel box).either (settled_cancel box))
    (apart _ fun _ => ⟨rfl, rfl, rfl, rfl⟩) (apart _ fun _ => ⟨rfl, rfl, rfl, rfl⟩)
    (apart _ fun _ => ⟨rfl, rfl, rfl, rfl⟩)

/-! ### Up to the prepared platform

While all timers are quiet only registers of boxes change under the task's feet, and
nothing it does before the timer is started depends on them: it does what it would
do alone. -/

/-- An access that neither reads nor writes registers of boxes and starts no timer. -/
def Blind (machine : Machine) (op : UncoreOp) : Prop :=
  ∀ world, (machine.exec op world).1 = (machine.exec op (seen world)).1 ∧
    seen (machine.exec op world).2 = seen (machine.exec op (seen world)).2 ∧
    (machine.exec op world).2.timers = world.timers

theorem blind_kernel (call : KernelCall) : Blind machine (.kernel call) := by
  intro world
  have answer : call.reply machine (seen world) = call.reply machine world := by
    cases call <;> rfl
  refine ⟨answer.symm, ?_, rfl⟩
  show seen { world with
      online := call.onlineAfter (call.reply machine world) world.online
      calls := world.calls + 1 } =
    seen { seen world with
      online := call.onlineAfter (call.reply machine (seen world)) world.online
      calls := world.calls + 1 }
  rw [answer]
  rfl

theorem blind_assign (update : Globals → Globals) : Blind machine (.assign update) :=
  fun _ => ⟨rfl, rfl, rfl⟩

/-- While the timers are quiet, a blind program does what it would do alone. -/
theorem blind_guarded {α : Type} {program : UncoreProgram α}
    (makes : program.Makes (Blind machine)) {world alone : World}
    (same : seen world = seen alone) (quiet : Quiet world) :
    ModuleMeets machine allowed
      (fun value later => value = (program.run machine.exec alone).1 ∧
        seen later = seen (program.run machine.exec alone).2 ∧ Quiet later)
      program world := by
  have moved : ∀ before after, teardownRely none before after → Quiet (seen before) →
      seen after = seen before := fun _ _ moves still => moves.quiet still
  refine Guarded.of_run makes moved ?_ same quiet
  · intro op blind state alone same quiet
    obtain ⟨answer, result, timers⟩ := blind state
    obtain ⟨answer', result', -⟩ := blind alone
    rw [same] at answer result
    have still : Quiet (machine.exec op state).2 := by
      intro box
      rw [timers]
      exact quiet box
    refine ⟨answer.trans answer'.symm, result.trans result'.symm, still,
      fun _ => still.exclusive, fun box => ?_⟩
    exact congrArg (fun timers => (timers box).running) timers

/-- The parameters hold from their assignment on. -/
theorem prepare_parameters (machine : Machine) (world : World) :
    let prepared := ((preparePlatformConfiguration machine).run machine.exec
      (enteringPrepare machine world)).2
    prepared.globals.emulateNvmCpu = 0 ∧
      prepared.globals.emulateNvmNode = machine.cpuToNode 0 := by
  let parameters : World → Prop := fun world =>
    world.globals.emulateNvmCpu = 0 ∧ world.globals.emulateNvmNode = machine.cpuToNode 0
  let same : UncoreOp → Prop := fun op => ∀ world,
    (machine.exec op world).2.globals.emulateNvmCpu = world.globals.emulateNvmCpu ∧
      (machine.exec op world).2.globals.emulateNvmNode = world.globals.emulateNvmNode
  have keeps : ∀ op, same op → ∀ world, parameters world →
      parameters (machine.exec op world).2 :=
    fun _ same world held => ⟨(same world).1.trans held.1, (same world).2.trans held.2⟩
  have kernel : ∀ call, same (.kernel call) := fun _ _ => ⟨rfl, rfl⟩
  have set : parameters ((setEmulateParameters machine).run machine.exec world).2 :=
    ⟨rfl, rfl⟩
  have entered : parameters (enteringPrepare machine world) :=
    (makes_emulateNvmProcCreate (kernel _) fun _ => ⟨rfl, rfl⟩).run keeps set
  exact (makes_preparePlatformConfiguration (fun _ => ⟨rfl, rfl⟩) (fun _ _ _ => ⟨rfl, rfl⟩)
    fun _ => kernel _).run keeps entered

/-- The premise on `prepare_platform_configuration`: where it is called, it leaves the
emulating CPU alone on its node if it succeeds. -/
def Prepares (machine : Machine) (world : World) : Prop :=
  let prepared := (preparePlatformConfiguration machine).run machine.exec
    (enteringPrepare machine world)
  prepared.1 = 0 → OnlyEmulating machine prepared.2

/-! ### The whole task -/

theorem restorePlatformConfiguration_quiet :
    ((restorePlatformConfiguration machine).bind fun _ => emulateNvmProcRemove).Makes
      (Keeps machine allowed Quiet) := by
  have apart : ∀ op, Apart machine op → Keeps machine allowed Quiet op :=
    fun _ apart => apart.keepsQuiet
  have state : Keeps machine allowed Quiet .globals := apart _ fun _ => ⟨rfl, rfl, rfl, rfl⟩
  have restore : (restorePlatformConfiguration machine).Makes (Keeps machine allowed Quiet) :=
    makes_restorePlatformConfiguration state
      (fun _ _ => apart _ fun _ => ⟨rfl, rfl, rfl, rfl⟩) fun _ => quiet_kernel _
  exact restore.bind fun _ => makes_emulateNvmProcRemove state
    (apart _ fun _ => ⟨rfl, rfl, rfl, rfl⟩)

/-- `start_emulate_latency` arms a timer only if it succeeds, and the platform stays as it
was prepared. -/
theorem startEmulateLatency_keeps {world : World} (quiet : Quiet world)
    (settled : Settled machine world) :
    ModuleMeets machine allowed
      (fun ret later => (ret = 0 → Settled machine later) ∧ (ret ≠ 0 → Quiet later))
      (startEmulateLatency machine) world := by
  have assigns : ∀ {program : UncoreProgram Int} (update : Globals → Globals),
      Apart machine (.assign update) →
      (∀ later, Quiet later → Settled machine later → ModuleMeets machine allowed
        (fun ret later => (ret = 0 → Settled machine later) ∧ (ret ≠ 0 → Quiet later))
        program later) →
      ModuleMeets machine allowed
        (fun ret later => (ret = 0 → Settled machine later) ∧ (ret ≠ 0 → Quiet later))
        ((assign update).bind fun _ => program) world := by
    intro program update apart rest
    refine Guarded.access _ (quiet_stable.and settled_stable) ⟨quiet, settled⟩
      fun later held ready => ?_
    have quietly := Apart.keepsQuiet apart later held.1 ready.2
    have settles := Apart.keepsSettled apart later held.2 ready.2
    exact ⟨⟨fun _ => settles.1.only.exclusive, settles.2⟩, rest _ quietly.1 settles.1⟩
  have fails : ∀ later, Quiet later → Settled machine later → ModuleMeets machine allowed
      (fun ret later => (ret = 0 → Settled machine later) ∧ (ret ≠ 0 → Quiet later))
      (.ret (-enxio)) later := by
    intro later quiet _ final moves
    refine ⟨fun zero => ?_, fun _ => quiet_stable.star moves quiet⟩
    exact absurd zero (by decide)
  unfold startEmulateLatency
  cases uncoreGetFirstBox machine.haBoxes 0 with
  | none => exact assigns _ (fun _ => ⟨rfl, rfl, rfl, rfl⟩) fails
  | some first =>
    cases uncoreGetFirstBox machine.haBoxes 1 with
    | none => exact assigns _ (fun _ => ⟨rfl, rfl, rfl, rfl⟩) fails
    | some second =>
      refine assigns _ (fun _ => ⟨rfl, rfl, rfl, rfl⟩) fun later _ settled => ?_
      have apart : ∀ op, Apart machine op → Keeps machine allowed (Settled machine) op :=
        fun _ apart => apart.keepsSettled
      have polls : (startPolling second).Makes (Keeps machine allowed (Settled machine)) :=
        makes_startPolling (fun _ => apart _ fun _ => ⟨rfl, rfl, rfl, rfl⟩)
          (apart _ fun _ => ⟨rfl, rfl, rfl, rfl⟩) (fun _ => apart _ fun _ => ⟨rfl, rfl, rfl, rfl⟩)
          (settled_start second) (fun _ => apart _ fun _ => ⟨rfl, rfl, rfl, rfl⟩)
          (apart _ fun _ => ⟨rfl, rfl, rfl, rfl⟩)
      apply (guarded_of_keeps settled_stable (fun _ settled => settled.only.exclusive) polls
        settled).bind
      intro _ later settled final moves
      exact ⟨fun _ => settled_stable.star moves settled, fun failed => absurd rfl failed⟩

/-- What is left of `start_emulate_nvm` once the platform is prepared: what it undoes, it
undoes with all timers quiet. -/
theorem afterPrepare_meets {world : World} (quiet : Quiet world)
    (settled : Settled machine world) :
    ModuleMeets machine allowed (fun _ => QuietOrSettled machine)
      (do
        let ret ← startEmulateBandwidth machine
        if ret ≠ 0 then do
          restorePlatformConfiguration machine
          emulateNvmProcRemove
        else do
          let ret ← startEmulateLatency machine
          if ret ≠ 0 then do
            finishEmulateBandwidth machine
            restorePlatformConfiguration machine
            emulateNvmProcRemove
          else assign fun state => { state with emulationStarted := true }) world := by
  have imc : ∀ pdev op, Apart machine (.imc pdev op) := fun _ _ _ => ⟨rfl, rfl, rfl, rfl⟩
  have undoes : ∀ {later : World}, Quiet later →
      ModuleMeets machine allowed (fun _ => QuietOrSettled machine)
        ((restorePlatformConfiguration machine).bind fun _ => emulateNvmProcRemove) later :=
    fun quiet => (quiet_meets restorePlatformConfiguration_quiet quiet).mono
      fun _ _ quiet => .inl quiet
  have limits : ModuleMeets machine allowed (fun _ later => Quiet later ∧ Settled machine later)
      (startEmulateBandwidth machine) world := by
    have both : ∀ pdev op, Keeps machine allowed
        (fun later => Quiet later ∧ Settled machine later) (.imc pdev op) :=
      fun pdev op later held permitted =>
        ⟨⟨((imc pdev op).keepsQuiet later held.1 permitted).1,
          ((imc pdev op).keepsSettled later held.2 permitted).1⟩,
          ((imc pdev op).keepsQuiet later held.1 permitted).2⟩
    exact guarded_of_keeps (quiet_stable.and settled_stable)
      (fun _ held => held.1.exclusive) (makes_startEmulateBandwidth both) ⟨quiet, settled⟩
  apply limits.bind
  intro ret later held
  by_cases failed : ret ≠ 0
  · rw [if_pos failed]
    exact undoes held.1
  rw [if_neg failed]
  apply (startEmulateLatency_keeps held.1 held.2).bind
  intro ret later latency
  by_cases failed : ret ≠ 0
  · rw [if_pos failed]
    have opens : (finishEmulateBandwidth machine).Makes (Keeps machine allowed Quiet) :=
      makes_finishEmulateBandwidth fun pdev op => (imc pdev op).keepsQuiet
    exact (quiet_meets opens (latency.2 failed)).bind fun _ _ quiet => undoes quiet
  · rw [if_neg failed]
    have starts : (assign fun state => { state with emulationStarted := true }).Makes
        (Keeps machine allowed (Settled machine)) :=
      makes_access (Apart.keepsSettled fun _ => ⟨rfl, rfl, rfl, rfl⟩)
    exact (guarded_of_keeps settled_stable (fun _ settled => settled.only.exclusive) starts
      (latency.1 (not_not.mp failed))).mono fun _ _ settled => .inr settled

/-- `start_emulate_nvm` keeps the property, and leaves the timers quiet or the platform
settled. -/
theorem startEmulateNvm_meets {world : World} (quiet : Quiet world)
    (prepares : Prepares machine world) :
    ModuleMeets machine allowed (fun _ => QuietOrSettled machine) (startEmulateNvm machine)
      world := by
  have quietly : ∀ {program : UncoreProgram Unit}, program.Makes (Keeps machine allowed Quiet) →
      ∀ {later : World}, Quiet later →
        ModuleMeets machine allowed (fun _ => QuietOrSettled machine) program later :=
    fun makes _ quiet => (quiet_meets makes quiet).mono fun _ _ quiet => .inl quiet
  have set : (setEmulateParameters machine).Makes (Blind machine) :=
    ⟨blind_assign _, fun _ => ⟨blind_assign _, fun _ => ⟨blind_assign _, fun _ =>
      ⟨blind_assign _, fun _ => trivial⟩⟩⟩⟩
  refine Guarded.bind (blind_guarded set rfl quiet) ?_
  rintro _ later ⟨-, same, quiet⟩
  refine Guarded.bind (blind_guarded (makes_emulateNvmProcCreate (blind_kernel _)
    (blind_assign _)) same quiet) ?_
  rintro created later ⟨-, same, quiet⟩
  split
  · have nothing : (Program.ret () : UncoreProgram Unit).Makes (Keeps machine allowed Quiet) :=
      trivial
    exact quietly nothing quiet
  · refine Guarded.bind (blind_guarded (makes_preparePlatformConfiguration
      (fun _ => ⟨rfl, rfl, rfl⟩) (fun _ _ _ => ⟨rfl, rfl, rfl⟩) fun _ => blind_kernel _)
      same quiet) ?_
    rintro prepared later ⟨value, same, quiet⟩
    split
    · exact quietly (makes_emulateNvmProcRemove (fun _ quiet _ => ⟨quiet, fun _ => rfl⟩)
        (fun _ quiet _ => ⟨quiet, fun _ => rfl⟩)) quiet
    · rename_i success
      have online := congrArg World.online same
      have globals := congrArg World.globals same
      obtain ⟨cpu, node⟩ := prepare_parameters machine world
      have zero : ((preparePlatformConfiguration machine).run machine.exec
          (enteringPrepare machine world)).1 = 0 := value.symm.trans (not_not.mp success)
      have settled : Settled machine later := by
        refine ⟨(congrArg Globals.emulateNvmCpu globals).trans cpu,
          (congrArg Globals.emulateNvmNode globals).trans node, ?_⟩
        exact (onlyEmulating_congr online (congrArg Globals.emulateNvmCpu globals)
          (congrArg Globals.emulateNvmNode globals)).mpr (prepares zero)
      exact afterPrepare_meets quiet settled

/-- The whole task, in the runs in which no other CPU of the node comes up under an armed
timer. -/
theorem moduleTask_meets {world : World} (quiet : Quiet world)
    (prepares : Prepares machine world) :
    ModuleMeets machine (StaysDown machine) (fun _ _ => True) (moduleTask machine) world := by
  refine Guarded.bind (startEmulateNvm_meets quiet prepares) fun _ later safe => ?_
  exact (guarded_of_keeps quietOrSettled_stable (fun _ => QuietOrSettled.exclusive)
    finishEmulateNvm_keeps safe).mono fun _ _ _ => trivial

/-- What meets the task's obligation keeps the property, with the callbacks beside it. -/
theorem ModuleMeets.exclusive {program : UncoreProgram Unit} {world : World}
    (task : ModuleMeets machine allowed (fun _ _ => True) program world) (quiet : Quiet world)
    {pool : ModulePool}
    (reaches : Pool.Reaches (machine.device.restrict allowed) Arrives Expires
      (calling (idlePool world) program) pool) : Exclusive machine pool.state := by
  have meets : Pool.Meets (machine.device.restrict allowed) teardownRely (teardownGuar machine)
      (fun _ _ _ => True) (Exclusive machine) (calling (idlePool world) program) := by
    refine ⟨fun thread => ?_, quiet.exclusive⟩
    cases thread with
    | none =>
        rw [calling_task]
        exact task
    | some box => exact fun _ _ => trivial
  refine (Pool.Meets.reaches teardown_compatible ?_ meets reaches).holds
  intro pool thread program after meets expires
  obtain ⟨box, rfl, armed, rfl, rfl⟩ := expires.cases
  have only := meets.holds box (Or.inl armed)
  have running : ∀ other ≠ box,
      SameRunning other pool.state { pool.state with
        timers := Function.update pool.state.timers box ⟨false, true⟩ } :=
    fun other apart => congrArg Hrtimer.running (Function.update_of_ne apart _ _)
  refine ⟨fun thread => ?_, fun _ _ => only⟩
  by_cases same : thread = some box
  · subst same
    dsimp only
    rw [Function.update_self]
    exact runHrtimer_guarded _ (by simp)
  · dsimp only
    rw [Function.update_of_ne same]
    refine (meets.guarded thread).of_rely (.single ?_)
    cases thread with
    | some other => exact running other fun equal => same (congrArg some equal)
    | none =>
        refine ⟨rfl, rfl, rfl, fun quiet => ?_⟩
        rw [quiet box] at armed
        exact absurd armed (by decide)

/-- The condition on a step is exact: where it fails, the property ends. -/
theorem not_exclusive_of_step {op : UncoreOp} {world : World}
    (comesUp : ¬ StaysDown machine op world) :
    ¬ Exclusive machine (machine.exec op world).2 := by
  intro exclusive
  apply comesUp
  cases op with
  | kernel call =>
      cases call with
      | cpuUp cpu =>
          rintro ⟨box, active⟩ here other success
          have online : (machine.exec (.kernel (.cpuUp cpu)) world).2.online cpu = true := by
            show KernelCall.onlineAfter (KernelCall.reply machine world (.cpuUp cpu))
              world.online (.cpuUp cpu) cpu = true
            rw [KernelCall.onlineAfter, if_pos success, Function.update_self]
          exact other ((exclusive box active cpu).mp ⟨online, here⟩)
      | cpuDown cpu => trivial
      | smpCallFunctionSingle cpu => trivial
      | procCreate => trivial
  | _ => trivial

/-- The emulating CPU is alone on its node in every state in which a timer is armed or its
callback runs: throughout `start_emulate_nvm` and its unwinding, with any ticks, and through
the whole life of the module in the runs in which no other CPU of the node is brought up
under an armed timer or a running callback. A step that brings one up ends it. -/
theorem exclusive_of_reaches (machine : Machine) {world : World} (quiet : Quiet world)
    (prepares : Prepares machine world) :
    (∀ pool, Pool.Reaches machine.device Arrives Expires
        (calling (idlePool world) (startEmulateNvm machine)) pool →
      Exclusive machine pool.state) ∧
    (∀ pool, Pool.Reaches (machine.device.restrict (StaysDown machine)) Arrives Expires
        (loading machine world) pool → Exclusive machine pool.state) ∧
    ∀ op state, ¬ StaysDown machine op state → ¬ Exclusive machine (machine.exec op state).2 := by
  refine ⟨fun pool reaches => ?_, fun pool reaches => ?_, fun _ _ => not_exclusive_of_step⟩
  · have starts : ModuleMeets machine (fun _ _ => True) (fun _ _ => True)
        (startEmulateNvm machine) world :=
      (startEmulateNvm_meets quiet prepares).mono fun _ _ _ => trivial
    exact starts.exclusive quiet (reaches.restrict fun _ _ => trivial)
  · exact (moduleTask_meets quiet prepares).exclusive quiet reaches

end

/-! ### Two sockets -/

/-- The world after a tick whose callback nothing interrupts. -/
def afterTick (machine : Machine) (box : UncoreBox) (world : World) : World :=
  ((runHrtimer box (world.boxes box).function).run machine.exec
    { world with timers := Function.update world.timers box ⟨false, true⟩ }).2

/-- A callback waits for nothing. -/
theorem runHrtimer_ready (machine : Machine) (box : UncoreBox) (function : HrtimerFunction) :
    (runHrtimer box function).Makes fun op => ∀ state, machine.device.ready op state := by
  refine Program.Makes.bind ?_ fun _ => makes_access fun _ => trivial
  cases function with
  | uncoreBoxHrtimerDef => trivial
  | emulateNvmHrtimer =>
      exact makes_emulateNvmHrtimer (fun _ _ => trivial) (fun _ => trivial) (fun _ _ => trivial)
        (fun _ => trivial) (fun _ _ => trivial) fun _ _ _ => trivial

/-- An armed timer ticks. -/
theorem reaches_afterTick {machine : Machine} {threads : Task → UncoreProgram Unit} {world : World}
    {box : UncoreBox} (idle : threads (some box) = .ret ())
    (armed : (world.timers box).armed = true) (waiting : (world.timers box).running = false) :
    Pool.Reaches machine.device Arrives Expires ⟨threads, world⟩
      ⟨threads, afterTick machine box world⟩ :=
  Pool.reaches_of_launch idle (.timer idle armed waiting)
    (reaches_run (runHrtimer_ready machine box _) _)

/-- A started emulation that is finished gets to where the platform is restored, with
the timer as it was. -/
theorem finishEmulateNvm_reaches_restored {machine : Machine} {world : World}
    (started : world.globals.emulationStarted = true) :
    Reaches machine.device Arrives (finishEmulateNvm machine, world)
      (do
        finishEmulateBandwidth machine
        finishEmulateLatency machine
        assign fun state => { state with emulationStarted := false },
        ((restorePlatformConfiguration machine).run machine.exec world).2) := by
  have removes : Completes machine.device Arrives emulateNvmProcRemove world
      (emulateNvmProcRemove.run machine.exec world).1
      (emulateNvmProcRemove.run machine.exec world).2 :=
    reaches_run (makes_emulateNvmProcRemove (fun _ => trivial) fun _ => trivial) world
  have unchanged : (emulateNvmProcRemove.run machine.exec world).2 = world := by
    cases registed : world.globals.emulateNvmProcRegisted <;>
      simp [emulateNvmProcRemove, globals, access, Program.lift, Machine.exec, registed]
  rw [unchanged] at removes
  have restores : Completes machine.device Arrives (restorePlatformConfiguration machine)
      world _ _ := reaches_run (makes_restorePlatformConfiguration (fun _ => trivial)
        (fun _ _ _ => trivial) fun _ _ => trivial) world
  have reads : Completes machine.device Arrives globals world world.globals world :=
    .single (.access trivial)
  refine reads.followed ?_
  rw [if_pos started]
  exact removes.followed (restores.followed .refl)

/-- The world in which `restore_platform_configuration` has returned. -/
def restoredWorld (machine : Machine) (world : World) : World :=
  ((restorePlatformConfiguration machine).run machine.exec
    ((startEmulateNvm machine).run machine.exec world).2).2

/-- The emulation starts, and is torn down to where the platform is restored. -/
theorem loading_reaches_restored {machine : Machine} {world : World}
    (started : ((startEmulateNvm machine).run machine.exec
      world).2.globals.emulationStarted = true) :
    ∃ threads, Pool.Reaches machine.device Arrives Expires (loading machine world)
      ⟨threads, restoredWorld machine world⟩ := by
  have starts : Completes machine.device Arrives (startEmulateNvm machine) world
      ((startEmulateNvm machine).run machine.exec world).1
      ((startEmulateNvm machine).run machine.exec world).2 :=
    reaches_run (startEmulateNvm_ready machine) world
  have runs : Reaches machine.device Arrives (moduleTask machine, world)
      (_, restoredWorld machine world) :=
    starts.followed (finishEmulateNvm_reaches_restored started)
  rw [← calling_task (idlePool world) (moduleTask machine)] at runs
  exact ⟨_, Pool.reaches_of_thread (loading machine world) none runs⟩

/-- The CPUs 0 to 3 make up node 0, and only the first of them is online. -/
theorem onlyEmulating_of_four {machine : Machine} {world : World}
    (cpu : world.globals.emulateNvmCpu = 0) (node : world.globals.emulateNvmNode = 0)
    (nodes : ∀ cpu, machine.cpuToNode cpu = cpu / 4)
    (four : ∀ cpu < 4, world.online cpu = decide (cpu = 0)) : OnlyEmulating machine world := by
  intro other
  rw [cpu, node, nodes]
  by_cases near : other < 4
  · rw [four other near, decide_eq_true_eq]
    refine and_iff_left_of_imp fun zero => ?_
    rw [zero]
  · constructor
    · rintro ⟨-, here⟩
      omega
    · intro zero
      omega

theorem twoAgents_prepares : Prepares twoAgents quietWorld :=
  fun _ => onlyEmulating_of_four (by decide) (by decide) (fun _ => rfl) (by decide)

/-- Two sockets on which no CPU that is down can be brought up again: `-EBUSY`. -/
def busyAgents : Machine :=
  { twoAgents with
    answer := fun _ call => match call with
      | .cpuUp _ => -16
      | _ => 0 }

theorem busyAgents_staysDown (op : UncoreOp) (state : World) : StaysDown busyAgents op state := by
  cases op with
  | kernel call =>
      cases call with
      | cpuUp cpu =>
          intro _ _ _ success
          rw [KernelCall.reply] at success
          split at success
          · exact absurd success (by decide)
          · have busy : (-16 : Int) = 0 := success
            exact absurd busy (by decide)
      | cpuDown cpu => trivial
      | smpCallFunctionSingle cpu => trivial
      | procCreate => trivial
  | _ => trivial

/-- With four CPUs on each socket, the emulating CPU is alone after the start and a tick,
with the timer armed again; and where no CPU comes up, also once the teardown has tried to
restore the platform under the armed timer. -/
theorem exclusive_twoAgents :
    let ticked := afterTick twoAgents (haBox 1) (ranAlone (startEmulateNvm twoAgents) quietWorld)
    let restored := restoredWorld busyAgents quietWorld
    (Exclusive twoAgents ticked ∧ (ticked.timers (haBox 1)).armed = true) ∧
      Exclusive busyAgents restored ∧ (restored.timers (haBox 1)).armed = true := by
  intro ticked restored
  refine ⟨⟨?_, by decide +kernel⟩, ?_, by decide +kernel⟩
  · let started := ranAlone (startEmulateNvm twoAgents) quietWorld
    let begun := calling (idlePool quietWorld) (startEmulateNvm twoAgents)
    have starts : Pool.Reaches twoAgents.device Arrives Expires begun
        ⟨Function.update begun.threads none (.ret ()), started⟩ := by
      have runs : Reaches twoAgents.device Arrives (begun.threads none, begun.state)
          (.ret (), started) := by
        rw [calling_task]
        exact reaches_run (startEmulateNvm_ready twoAgents) quietWorld
      exact Pool.reaches_of_thread begun none runs
    have ticks : Pool.Reaches twoAgents.device Arrives Expires
        ⟨Function.update begun.threads none (.ret ()), started⟩
        ⟨Function.update begun.threads none (.ret ()), ticked⟩ :=
      reaches_afterTick rfl (by decide +kernel) (by decide +kernel)
    exact (exclusive_of_reaches twoAgents (fun _ => rfl) twoAgents_prepares).1 _
      (starts.trans ticks)
  · have prepares : Prepares busyAgents quietWorld :=
      fun _ => onlyEmulating_of_four (by decide) (by decide) (fun _ => rfl) (by decide)
    obtain ⟨threads, reaches⟩ := @loading_reaches_restored busyAgents quietWorld (by decide)
    exact (exclusive_of_reaches busyAgents (fun _ => rfl) prepares).2.1 _
      (reaches.restrict busyAgents_staysDown)

/-- With four CPUs on each socket, `finish_emulate_nvm` brings up CPUs 1 to 3 beside the
emulating CPU while the timer is still armed. -/
theorem not_exclusive_twoAgents :
    Quiet quietWorld ∧ Prepares twoAgents quietWorld ∧
      ∃ pool, Pool.Reaches twoAgents.device Arrives Expires (loading twoAgents quietWorld)
        pool ∧ ¬ Exclusive twoAgents pool.state := by
  obtain ⟨threads, reaches⟩ := @loading_reaches_restored twoAgents quietWorld (by decide)
  refine ⟨fun _ => rfl, twoAgents_prepares, _, reaches, fun exclusive => ?_⟩
  have armed : ((restoredWorld twoAgents quietWorld).timers (haBox 1)).armed = true := by
    decide
  have online : (restoredWorld twoAgents quietWorld).online 1 = true := by decide
  have node : (restoredWorld twoAgents quietWorld).globals.emulateNvmNode = 0 := by decide
  have cpu : (restoredWorld twoAgents quietWorld).globals.emulateNvmCpu = 0 := by decide
  have only : OnlyEmulating twoAgents (restoredWorld twoAgents quietWorld) :=
    exclusive (haBox 1) (Or.inl armed)
  have same := (only 1).mp ⟨online, node ▸ rfl⟩
  rw [cpu] at same
  exact absurd same (by decide)

end NvmEmulator.Emulate
