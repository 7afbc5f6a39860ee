/-
# What finishing leaves behind

`finish_emulate_nvm` cancels the timer while a callback may be at any of its
accesses, one of which unfreezes the box, and the callback asks to be armed again
when it returns. `hrtimer_cancel` waits for it; from then on nothing but events
reaches the box, and the reset that follows leaves it counting nothing.

The task relies on one thing: a box whose timer is neither armed nor running is
left to its events. A callback guarantees it because it runs in every state in
which it makes an access.
-/

import NvmEmulator.Emulate.Drift
import NvmEmulator.Emulate.Teardown

namespace NvmEmulator.Emulate

open Relation NvmEmulator.Kernel NvmEmulator.Semantics NvmEmulator.Uncore

variable {machine : Machine}

/-! ## The system -/

/-- The box's timer is not armed and its callback does not run. -/
def Asleep (box : UncoreBox) (world : World) : Prop :=
  world.timers box = ⟨false, false⟩

/-- What the task knows of the globals. -/
structure Flags where
  emulationStarted : Bool
  latencyStarted : Bool
  haBox0 : Option UncoreBox
  haBox1 : Option UncoreBox

def Globals.flags (state : Globals) : Flags :=
  ⟨state.emulationStarted, state.latencyStarted, state.haBox0, state.haBox1⟩

/-! ## What the threads rely on -/

/-- The task's flags are its own, and a sleeping box is left to its events. -/
structure TaskRely (before after : World) : Prop where
  flags : after.globals.flags = before.globals.flags
  asleep : ∀ box, Asleep box before → Asleep box after ∧
    (after.units box = before.units box ∨ after.units box = (before.units box).arrive box)

/-- A callback makes its accesses while it runs, and keeps to its box. -/
structure CallbackGuar (box : UncoreBox) (before after : World) : Prop where
  running : (before.timers box).running = true
  flags : after.globals.flags = before.globals.flags
  timers : ∀ other ≠ box, after.timers other = before.timers other
  units : ∀ other ≠ box, after.units other = before.units other

def finishRely : Task → World → World → Prop
  | none => TaskRely
  | some box => SameRunning box

def finishGuar : Task → World → World → Prop
  | none => fun before after => ∀ box, SameRunning box before after
  | some box => CallbackGuar box

theorem CallbackGuar.taskRely {box : UncoreBox} {before after : World}
    (guaranteed : CallbackGuar box before after) : TaskRely before after := by
  refine ⟨guaranteed.flags, fun other asleep => ?_⟩
  have apart : other ≠ box := by
    intro same
    have running := guaranteed.running
    rw [← same, asleep] at running
    exact absurd running (by decide)
  exact ⟨(guaranteed.timers other apart).trans asleep, Or.inl (guaranteed.units other apart)⟩

theorem Arrives.taskRely {before after : World} (arrives : Arrives before after) :
    TaskRely before after := by
  cases arrives with
  | event box room =>
      refine ⟨rfl, fun other asleep => ⟨asleep, ?_⟩⟩
      by_cases same : other = box
      · right
        rw [same]
        exact Function.update_self box _ before.units
      · left
        exact Function.update_of_ne same _ before.units

theorem finish_compatible :
    Pool.Compatible finishRely finishGuar (fun _ : World => True) Arrives where
  thread
    | none, none, other, _, _, _ => absurd rfl other
    | none, some box, _, _, _, guaranteed => guaranteed box
    | some _, none, _, _, _, guaranteed => guaranteed.taskRely
    | some box, some apart, other, _, _, guaranteed =>
        congrArg Hrtimer.running
          (guaranteed.timers apart fun same => other (congrArg some same))
  environment
    | none, _, _, arrives => arrives.taskRely
    | some box, _, _, arrives => by
        cases arrives with
        | event other room => exact rfl
  kept _ _ _ _ _ := trivial
  keptByEnvironment _ _ _ _ := trivial

/-! ## The callbacks -/

/-- An access that reaches one box only, and neither flags nor timers. -/
def KeepsTo (machine : Machine) (box : UncoreBox) (op : UncoreOp) : Prop :=
  ∀ world, (machine.exec op world).2.globals.flags = world.globals.flags ∧
    (machine.exec op world).2.timers = world.timers ∧
    ∀ other ≠ box, (machine.exec op world).2.units other = world.units other

theorem emulateNvmHrtimer_keepsTo (box : UncoreBox) :
    (emulateNvmHrtimer box).Makes (KeepsTo machine box) := by
  apply makes_emulateNvmHrtimer
  · intro op world
    exact ⟨rfl, rfl, fun other apart => Function.update_of_ne apart _ _⟩
  · exact fun _ => ⟨rfl, rfl, fun _ _ => rfl⟩
  · exact fun _ _ => ⟨rfl, rfl, fun _ _ => rfl⟩
  · exact fun _ => ⟨rfl, rfl, fun _ _ => rfl⟩
  · exact fun _ _ => ⟨rfl, rfl, fun _ _ => rfl⟩
  · exact fun _ _ _ => ⟨rfl, rfl, fun _ _ => rfl⟩

/-- A callback does what the task relies on, from its launch to its return. -/
theorem runHrtimer_finish {box : UncoreBox} (function : HrtimerFunction) {world : World}
    (running : (world.timers box).running = true) :
    Guarded machine.device (finishRely (some box)) (finishGuar (some box))
      (fun _ _ => True) (runHrtimer box function) world := by
  let active : World → Prop := fun world => (world.timers box).running = true
  have stable : Stable (finishRely (some box)) active :=
    fun _ _ same holds => same.trans holds
  have body : (hrtimerFunction box function).Makes (KeepsTo machine box) := by
    cases function with
    | uncoreBoxHrtimerDef => trivial
    | emulateNvmHrtimer => exact emulateNvmHrtimer_keepsTo box
  have keeps : ∀ op, KeepsTo machine box op → ∀ world, active world →
      machine.device.ready op world →
        finishGuar (some box) world (machine.device.exec op world).2 ∧
          active (machine.device.exec op world).2 := by
    intro op within world holds _
    obtain ⟨flags, timers, units⟩ := within world
    have same : (machine.device.exec op world).2.timers = world.timers := timers
    refine ⟨⟨holds, flags, fun other _ => congrFun timers other, units⟩, ?_⟩
    show ((machine.device.exec op world).2.timers box).running = true
    rw [same]
    exact holds
  apply Guarded.bind (Guarded.of_makes body stable keeps running)
  intro again later holds
  apply Guarded.access active stable holds
  intro later holds ready
  refine ⟨⟨holds, rfl, fun other apart => ?_, fun _ _ => rfl⟩, fun _ _ => trivial⟩
  exact Function.update_of_ne apart _ later.timers

/-! ## The module's task -/

/-- The obligation of the module's task. -/
abbrev TaskMeets (machine : Machine) {α : Type} (post : α → World → Prop) :
    UncoreProgram α → World → Prop :=
  Guarded machine.device TaskRely (fun before after => ∀ box, SameRunning box before after) post

/-- A fact about the flags, and boxes that sleep. -/
structure Known (fact : Flags → Prop) (sleeping : Set UncoreBox) (world : World) : Prop where
  flags : fact world.globals.flags
  asleep : ∀ box ∈ sleeping, Asleep box world

theorem known_stable (fact : Flags → Prop) (sleeping : Set UncoreBox) :
    Stable TaskRely (Known fact sleeping) := by
  intro before after moves known
  refine ⟨?_, fun box mem => (moves.asleep box (known.asleep box mem)).1⟩
  rw [moves.flags]
  exact known.flags

/-- An access that changes neither flags nor timers. -/
def Steady (machine : Machine) (op : UncoreOp) : Prop :=
  ∀ world, (machine.exec op world).2.globals.flags = world.globals.flags ∧
    (machine.exec op world).2.timers = world.timers

section Task

variable {fact : Flags → Prop} {sleeping : Set UncoreBox} {world : World}

theorem sameRunning_of_timers {before after : World} (timers : after.timers = before.timers)
    (box : UncoreBox) : SameRunning box before after :=
  congrArg (fun timers : UncoreBox → Hrtimer => (timers box).running) timers

theorem Known.steady {op : UncoreOp} (steady : Steady machine op)
    (known : Known fact sleeping world) : Known fact sleeping (machine.exec op world).2 := by
  obtain ⟨flags, timers⟩ := steady world
  refine ⟨?_, fun box mem => ?_⟩
  · rw [flags]
    exact known.flags
  · exact (congrFun timers box).trans (known.asleep box mem)

/-- Steady programs keep what is known. -/
theorem steady_meets {α : Type} {program : UncoreProgram α}
    (makes : program.Makes (Steady machine)) (known : Known fact sleeping world) :
    TaskMeets machine (fun _ => Known fact sleeping) program world := by
  apply Guarded.of_makes makes (known_stable fact sleeping) _ known
  intro op steady world known _
  exact ⟨sameRunning_of_timers (steady world).2, known.steady steady⟩

/-- An assignment to the flags. -/
theorem assign_meets (sets : Flags → Prop) {α : Type} {post : α → World → Prop}
    {update : Globals → Globals} {follow : Unit → UncoreProgram α}
    (known : Known fact sleeping world)
    (assigns : ∀ state : Globals, fact state.flags → sets (update state).flags)
    (rest : ∀ later, Known sets sleeping later → TaskMeets machine post (follow ()) later) :
    TaskMeets machine post ((assign update).bind follow) world := by
  apply Guarded.access _ (known_stable fact sleeping) known
  intro later known _
  refine ⟨fun _ => rfl, rest _ ⟨assigns _ known.flags, known.asleep⟩⟩

/-! ### Starting -/

/-- The boxes are found; the emulation is not started yet. -/
def Found (first second : UncoreBox) (flags : Flags) : Prop :=
  flags.emulationStarted = false ∧ flags.haBox0 = some first ∧ flags.haBox1 = some second

/-- The flags of an emulation: started or not yet, with latency. -/
def emulating (started : Bool) (first second : UncoreBox) : Flags :=
  ⟨started, true, some first, some second⟩

/-- Polling a box wakes no other box. -/
theorem startPolling_meets {first second : UncoreBox}
    (known : Known (Found first second) Set.univ world) :
    TaskMeets machine
      (fun _ => Known (· = emulating false first second) { box | box ≠ second })
      (startPolling second) world := by
  refine assign_meets (Found first second) known (fun _ found => found) ?_
  intro world known
  apply Guarded.bind (steady_meets (makes_access fun _ => ⟨rfl, rfl⟩) known)
  intro _ world known
  apply Guarded.bind (steady_meets (makes_onBox (fun _ _ => ⟨rfl, rfl⟩) _) known)
  intro _ world known
  apply Guarded.bind (steady_meets (makes_onBox (fun _ _ => ⟨rfl, rfl⟩) _) known)
  intro _ world known
  apply Guarded.bind (steady_meets (makes_onBox (fun _ _ => ⟨rfl, rfl⟩) _) known)
  intro _ world known
  apply Guarded.bind (steady_meets (makes_onBox (fun _ _ => ⟨rfl, rfl⟩) _) known)
  intro _ world known
  apply Guarded.bind (steady_meets (makes_access fun _ => ⟨rfl, rfl⟩) known)
  intro _ world known
  apply Guarded.bind (steady_meets (makes_access fun _ => ⟨rfl, rfl⟩) known)
  intro _ world known
  apply Guarded.bind (steady_meets (makes_access fun _ => ⟨rfl, rfl⟩) known)
  intro _ world known
  -- The timer is armed here: from now on its callback may run at any time.
  apply Guarded.access _ (known_stable _ _) known
  intro world known _
  have same : ∀ box, SameRunning box world (machine.exec (.hrtimerStart second) world).2 :=
    sameRunning_start second world
  refine ⟨same, ?_⟩
  have armed : Known (Found first second) { box | box ≠ second }
      (machine.device.exec (.hrtimerStart second) world).2 := by
    refine ⟨known.flags, fun box other => ?_⟩
    exact (Function.update_of_ne other _ world.timers).trans (known.asleep box trivial)
  apply Guarded.access _ (known_stable _ _) armed
  intro world armed _
  have done : Known (· = emulating false first second) { box | box ≠ second }
      (machine.device.exec (.assign fun state => { state with latencyStarted := true })
        world).2 := by
    obtain ⟨waiting, zero, one⟩ := armed.flags
    refine ⟨?_, armed.asleep⟩
    show Flags.mk world.globals.emulationStarted true world.globals.haBox0
      world.globals.haBox1 = _
    have waits : world.globals.emulationStarted = false := waiting
    have firstBox : world.globals.haBox0 = some first := zero
    have secondBox : world.globals.haBox1 = some second := one
    rw [waits, firstBox, secondBox]
    rfl
  exact ⟨fun _ => rfl, .ret (known_stable _ _) done⟩

/-- An emulation that has begun: all boxes but the polled one sleep. -/
def Begun (started : Bool) (world : World) : Prop :=
  ∃ first second, CountingBox second ∧
    Known (· = emulating started first second) { box | box ≠ second } world

/-- Nothing is armed and nothing started. -/
abbrev Unstarted (world : World) : Prop :=
  Known (·.emulationStarted = false) Set.univ world

/-- `start_emulate_latency` polls a home-agent box or changes nothing that is known. -/
theorem startEmulateLatency_meets (known : Unstarted world) :
    TaskMeets machine
      (fun ret later => (ret = 0 ∧ Begun false later) ∨ (ret ≠ 0 ∧ Unstarted later))
      (startEmulateLatency machine) world := by
  have fails : ∀ later, Unstarted later → TaskMeets machine
      (fun ret later => (ret = 0 ∧ Begun false later) ∨ (ret ≠ 0 ∧ Unstarted later))
      (.ret (-enxio)) later := by
    intro later known
    have kept : TaskMeets machine (fun _ => Unstarted) (.ret (-enxio)) later :=
      .ret (known_stable _ _) known
    exact fun final moves => Or.inr ⟨by decide, kept final moves⟩
  unfold startEmulateLatency
  cases uncoreGetFirstBox machine.haBoxes 0 with
  | none => exact assign_meets _ known (fun _ fresh => fresh) fails
  | some first =>
    cases chosen : uncoreGetFirstBox machine.haBoxes 1 with
    | none => exact assign_meets _ known (fun _ fresh => fresh) fails
    | some second =>
      have counting := countingBox_of_first chosen
      refine assign_meets (Found first second) known (fun _ fresh => ⟨fresh, rfl, rfl⟩) ?_
      intro world known
      apply Guarded.bind (startPolling_meets known)
      intro _ world known
      have polled : TaskMeets machine
          (fun _ => Known (· = emulating false first second) { box | box ≠ second })
          (.ret (0 : Int)) world := .ret (known_stable _ _) known
      exact fun final moves => Or.inl ⟨rfl, first, second, counting, polled final moves⟩

/-- `start_emulate_nvm` says that it started only with one box polled. -/
theorem startEmulateNvm_begins (known : Unstarted world) :
    TaskMeets machine (fun _ later => later.globals.emulationStarted = true → Begun true later)
      (startEmulateNvm machine) world := by
  have quits : ∀ {program : UncoreProgram Unit}, program.Makes (Steady machine) →
      ∀ {world : World}, Unstarted world → TaskMeets machine
        (fun _ later => later.globals.emulationStarted = true → Begun true later)
        program world := by
    intro program makes world known
    apply (steady_meets makes known).mono
    intro _ later known started
    have waits : later.globals.emulationStarted = false := known.flags
    rw [waits] at started
    exact absurd started (by decide)
  have remove : emulateNvmProcRemove.Makes (Steady machine) :=
    makes_emulateNvmProcRemove (fun _ => ⟨rfl, rfl⟩) fun _ => ⟨rfl, rfl⟩
  have restore : (restorePlatformConfiguration machine).Makes (Steady machine) :=
    makes_restorePlatformConfiguration (fun _ => ⟨rfl, rfl⟩) (fun _ _ _ => ⟨rfl, rfl⟩)
      fun _ _ => ⟨rfl, rfl⟩
  have set : (setEmulateParameters machine).Makes (Steady machine) :=
    ⟨fun _ => ⟨rfl, rfl⟩, fun _ => ⟨fun _ => ⟨rfl, rfl⟩, fun _ => ⟨fun _ => ⟨rfl, rfl⟩,
      fun _ => ⟨fun _ => ⟨rfl, rfl⟩, fun _ => trivial⟩⟩⟩⟩
  have nothing : (Program.ret () : UncoreProgram Unit).Makes (Steady machine) := trivial
  apply startEmulateNvm_stages (steady_meets set known)
  · intro world known
    exact steady_meets (makes_emulateNvmProcCreate (fun _ => ⟨rfl, rfl⟩)
      fun _ => ⟨rfl, rfl⟩) known
  · intro _ world _ known
    exact quits nothing known
  · intro world known
    exact steady_meets (makes_preparePlatformConfiguration
      (fun _ => ⟨rfl, rfl⟩) (fun _ _ _ => ⟨rfl, rfl⟩) fun _ _ => ⟨rfl, rfl⟩) known
  · intro _ world _ known
    exact quits remove known
  · intro world known
    exact steady_meets (makes_startEmulateBandwidth fun _ _ _ => ⟨rfl, rfl⟩) known
  · intro _ world _ known
    exact quits (restore.bind fun _ => remove) known
  · intro world known
    exact startEmulateLatency_meets known
  · intro ret world failed outcome
    rcases outcome with ⟨zero, _⟩ | ⟨_, known⟩
    · exact absurd zero failed
    · exact quits ((makes_finishEmulateBandwidth fun _ _ _ => ⟨rfl, rfl⟩).bind
        fun _ => restore.bind fun _ => remove) known
  · intro world outcome
    rcases outcome with ⟨_, first, second, counting, known⟩ | ⟨failed, _⟩
    · apply Guarded.access _ (known_stable _ _) known
      intro world known _
      have begun : Known (· = emulating true first second) { box | box ≠ second }
          (machine.device.exec
            (.assign fun state => { state with emulationStarted := true }) world).2 := by
        refine ⟨?_, known.asleep⟩
        have flags : world.globals.flags = emulating false first second := known.flags
        exact congrArg (fun flags => { flags with emulationStarted := true }) flags
      have done : TaskMeets machine
          (fun _ => Known (· = emulating true first second) { box | box ≠ second })
          (.ret ()) _ := .ret (known_stable _ _) begun
      exact ⟨fun _ => rfl, done.mono fun _ _ known _ => ⟨first, second, counting, known⟩⟩
    · exact absurd rfl failed

/-! ### Finishing -/

/-- No event is selected, and the counter is 0. -/
structure Cleared (box : UncoreBox) (unit : PmonUnit) : Prop where
  select : unit.regs (uncorePciPerfCtl box) = 0
  counter : counterValue box unit.regs = 0

/-- Events pass by a cleared box. -/
theorem Cleared.arrive {box : UncoreBox} {unit : PmonUnit} (cleared : Cleared box unit) :
    unit.arrive box = unit := by
  have disabled : unit.counting box = false := by
    rw [PmonUnit.counting, cleared.select]
    rfl
  exact PmonUnit.arrive_of_not_counting disabled

/-- The box has been reset, and nothing can wake it. -/
structure Reset (fact : Flags → Prop) (box : UncoreBox) (world : World) : Prop where
  known : Known fact Set.univ world
  cleared : Cleared box (world.units box)

theorem reset_stable (fact : Flags → Prop) (box : UncoreBox) :
    Stable TaskRely (Reset fact box) := by
  intro before after moves reset
  refine ⟨known_stable fact _ moves reset.known, ?_⟩
  rcases (moves.asleep box (reset.known.asleep box trivial)).2 with same | arrived
  · rw [same]
    exact reset.cleared
  · rw [arrived, reset.cleared.arrive]
    exact reset.cleared

/-- `uncore_clear_box` clears a sleeping box for good. -/
theorem clearBox_meets {box : UncoreBox} (counting : CountingBox box)
    (known : Known fact Set.univ world) :
    TaskMeets machine (fun _ => Reset fact box)
      (onBox box (uncoreClearBox hswepUncorePciBoxOps box)) world := by
  have steady : ∀ op, Steady machine (.pci box op) := fun _ _ => ⟨rfl, rfl⟩
  apply Guarded.access _ (known_stable _ _) known
  intro world known _
  have reset : Reset fact box
      (machine.device.exec (.pci box (.write (uncorePciBoxCtl box) hswepPciBoxCtlInit))
        world).2 := by
    have unit : ((machine.device.exec
        (.pci box (.write (uncorePciBoxCtl box) hswepPciBoxCtlInit)) world).2).units box = _ :=
      Function.update_self box _ world.units
    refine ⟨known.steady (steady _), ?_, ?_⟩
    · rw [unit]
      exact PmonUnit.exec_reset_select counting _
    · rw [unit]
      exact (PmonUnit.exec_reset counting _).2.1
  refine ⟨fun _ => rfl, Guarded.access _ (reset_stable _ _) reset ?_⟩
  intro world reset _
  have status : Reset fact box
      (machine.device.exec (.pci box (.write (uncorePciBoxStatus box) 0xf)) world).2 := by
    have unit : ((machine.device.exec
        (.pci box (.write (uncorePciBoxStatus box) 0xf)) world).2).units box = _ :=
      Function.update_self box _ world.units
    have keeps := fun addr (other : addr ≠ uncorePciBoxStatus box) =>
      (PmonUnit.exec_write_boxStatus counting 0xf (world.units box) other).1
    have select : uncorePciPerfCtl box ≠ uncorePciBoxStatus box :=
      PmonLayout.select_ne_boxStatus counting.wired counting.select
    have low : uncorePciPerfCtr box ≠ uncorePciBoxStatus box :=
      PmonLayout.counter_ne_boxStatus counting.wired counting.low_mem
    have high : uncorePciPerfCtr box + 4 ≠ uncorePciBoxStatus box :=
      PmonLayout.counter_ne_boxStatus counting.wired counting.high_mem
    refine ⟨reset.known.steady (steady _), ?_, ?_⟩
    · rw [unit]
      exact (keeps _ select).trans reset.cleared.select
    · rw [unit]
      exact (counterValue_congr (keeps _ low) (keeps _ high)).trans reset.cleared.counter
  exact ⟨fun _ => rfl, .ret (reset_stable _ _) status⟩

/-- `hrtimer_cancel` leaves a box asleep, and wakes none. -/
theorem cancel_meets {α : Type} {post : α → World → Prop} {box : UncoreBox}
    {follow : Unit → UncoreProgram α} (known : Known fact sleeping world)
    (rest : ∀ later, Known fact (insert box sleeping) later →
      TaskMeets machine post (follow ()) later) :
    TaskMeets machine post ((access (.hrtimerCancel box)).bind follow) world := by
  apply Guarded.access _ (known_stable _ _) known
  intro world known idle
  have waited : (world.timers box).running = false := idle
  have same : ∀ other, SameRunning other world (machine.exec (.hrtimerCancel box) world).2 :=
    sameRunning_cancel box world
  refine ⟨same, rest _ ⟨known.flags, fun other mem => ?_⟩⟩
  by_cases this : other = box
  · rw [this]
    have cancelled : ((machine.exec (.hrtimerCancel box) world).2).timers box =
        ⟨false, (world.timers box).running⟩ := Function.update_self box _ world.timers
    rw [waited] at cancelled
    exact cancelled
  · have slept : Asleep other world := known.asleep other (mem.resolve_left this)
    exact (Function.update_of_ne this _ world.timers).trans slept

/-- `finish_emulate_latency` puts every box to sleep and clears the polled one. -/
theorem finishEmulateLatency_meets {first second : UncoreBox} (counting : CountingBox second)
    (known : Known (· = emulating true first second) { box | box ≠ second } world) :
    TaskMeets machine
      (fun _ => Reset (fun flags => flags.latencyStarted = false ∧ flags.haBox1 = some second)
        second)
      (finishEmulateLatency machine) world := by
  apply Guarded.access _ (known_stable _ _) known
  intro world known _
  have flags : world.globals.flags = emulating true first second := known.flags
  have latency : world.globals.latencyStarted = true := congrArg Flags.latencyStarted flags
  have zero : world.globals.haBox0 = some first := congrArg Flags.haBox0 flags
  have one : world.globals.haBox1 = some second := congrArg Flags.haBox1 flags
  refine ⟨fun _ => rfl, ?_⟩
  have read : (machine.device.exec .globals world).1 = world.globals := rfl
  rw [read, Program.ret_bind, if_pos latency, zero, one]
  refine cancel_meets known ?_
  intro world known
  refine cancel_meets known ?_
  intro world known
  have known : Known (· = emulating true first second) Set.univ world := by
    refine ⟨known.flags, fun box _ => known.asleep box ?_⟩
    by_cases same : box = second
    · exact Or.inl same
    · exact Or.inr (Or.inr same)
  apply Guarded.bind (steady_meets (makes_onBox (fun _ _ => ⟨rfl, rfl⟩) _) known)
  intro _ world known
  apply Guarded.bind (steady_meets (makes_onBox (fun _ _ => ⟨rfl, rfl⟩) _) known)
  intro _ world known
  apply Guarded.bind (steady_meets (makes_onBox (fun _ _ => ⟨rfl, rfl⟩) _) known)
  intro _ world known
  apply Guarded.bind (steady_meets (makes_onBox (fun _ _ => ⟨rfl, rfl⟩) _) known)
  intro _ world known
  apply Guarded.bind (steady_meets (makes_uncorePrintGlobalPmu (fun _ _ _ => ⟨rfl, rfl⟩)
    (fun _ _ => ⟨rfl, rfl⟩) fun _ _ _ => ⟨rfl, rfl⟩) known)
  intro _ world known
  apply Guarded.bind (steady_meets (makes_onBox (fun _ _ => ⟨rfl, rfl⟩) _) known)
  intro _ world known
  apply Guarded.bind (clearBox_meets counting known)
  intro _ world reset
  apply Guarded.access _ (reset_stable _ _) reset
  intro world reset _
  have same : world.globals.flags = emulating true first second := reset.known.flags
  refine ⟨fun _ => rfl, .ret (reset_stable _ _) ⟨⟨⟨rfl, ?_⟩, reset.known.asleep⟩, reset.cleared⟩⟩
  exact congrArg Flags.haBox1 same

/-- What `finish_emulate_nvm` leaves: every box asleep, the polled one cleared. -/
def Done (box : UncoreBox) (flags : Flags) : Prop :=
  flags.emulationStarted = false ∧ flags.latencyStarted = false ∧ flags.haBox1 = some box

/-- `finish_emulate_nvm`, beside callbacks at any of their accesses. -/
theorem finishEmulateNvm_meets (begun : Begun true world) :
    TaskMeets machine (fun _ later => ∃ box, Reset (Done box) box later)
      (finishEmulateNvm machine) world := by
  obtain ⟨first, second, counting, known⟩ := begun
  apply Guarded.access _ (known_stable _ _) known
  intro world known _
  have flags : world.globals.flags = emulating true first second := known.flags
  have started : world.globals.emulationStarted = true :=
    congrArg Flags.emulationStarted flags
  refine ⟨fun _ => rfl, ?_⟩
  show TaskMeets machine _ (if world.globals.emulationStarted = true then _ else _) world
  rw [if_pos started]
  apply Guarded.bind (steady_meets (makes_emulateNvmProcRemove (fun _ => ⟨rfl, rfl⟩)
    fun _ => ⟨rfl, rfl⟩) known)
  intro _ world known
  apply Guarded.bind (steady_meets (makes_restorePlatformConfiguration (fun _ => ⟨rfl, rfl⟩)
    (fun _ _ _ => ⟨rfl, rfl⟩) fun _ _ => ⟨rfl, rfl⟩) known)
  intro _ world known
  apply Guarded.bind (steady_meets
    (makes_finishEmulateBandwidth fun _ _ _ => ⟨rfl, rfl⟩) known)
  intro _ world known
  apply Guarded.bind (finishEmulateLatency_meets counting known)
  intro _ world reset
  apply Guarded.access _ (reset_stable _ _) reset
  intro world reset _
  obtain ⟨latency, chosen⟩ := reset.known.flags
  have done : TaskMeets machine (fun _ => Reset (Done second) second) (.ret ())
      (machine.device.exec (.assign fun state => { state with emulationStarted := false })
        world).2 :=
    .ret (reset_stable _ _) ⟨⟨⟨rfl, latency, chosen⟩, reset.known.asleep⟩, reset.cleared⟩
  exact ⟨fun _ => rfl, done.mono fun _ _ reset => ⟨second, reset⟩⟩

end Task

/-! ## Whole runs -/

/-- What each thread ends with: only the task owes anything. -/
def finishPost (post : World → Prop) : Task → Unit → World → Prop
  | none => fun _ => post
  | some _ => fun _ _ => True

/-- Every thread meets its obligation, the task with a postcondition. -/
abbrev FinishMeets (machine : Machine) (post : World → Prop) (pool : ModulePool) : Prop :=
  Pool.Meets machine.device finishRely finishGuar (finishPost post) (fun _ => True) pool

theorem finishMeets_reaches {post : World → Prop} {pool later : ModulePool}
    (meets : FinishMeets machine post pool)
    (reaches : Pool.Reaches machine.device Arrives Expires pool later) :
    FinishMeets machine post later := by
  refine Pool.Meets.reaches finish_compatible ?_ meets reaches
  intro pool thread program after meets expires
  obtain ⟨box, rfl, armed, rfl, rfl⟩ := expires.cases
  have elsewhere : ∀ other ≠ box,
      Function.update pool.state.timers box ⟨false, true⟩ other = pool.state.timers other :=
    fun other apart => Function.update_of_ne apart _ _
  refine ⟨fun thread => ?_, trivial⟩
  by_cases same : thread = some box
  · subst same
    dsimp only
    rw [Function.update_self]
    exact runHrtimer_finish _ (by simp)
  · dsimp only
    rw [Function.update_of_ne same]
    apply (meets.guarded thread).of_rely (.single _)
    cases thread with
    | some other =>
        exact congrArg Hrtimer.running
          (elsewhere other fun equal => same (congrArg some equal))
    | none =>
        refine ⟨rfl, fun other asleep => ?_⟩
        have apart : other ≠ box := by
          intro equal
          have slept : pool.state.timers box = ⟨false, false⟩ := equal ▸ asleep
          rw [slept] at armed
          exact absurd armed (by decide)
        exact ⟨(elsewhere other apart).trans asleep, Or.inl rfl⟩

/-- What a function the task has returned from leaves. -/
theorem post_of_returned {post : World → Prop} {pool : ModulePool}
    (meets : FinishMeets machine post pool) (returned : pool.threads none = .ret ()) :
    post pool.state := by
  have obligation := meets.guarded none
  rw [returned] at obligation
  exact obligation pool.state .refl

/-- The task's next call, beside the callbacks that are under way. -/
theorem finishMeets_calling {earlier post : World → Prop} {pool : ModulePool}
    {program : UncoreProgram Unit} (meets : FinishMeets machine earlier pool)
    (task : TaskMeets machine (fun _ => post) program pool.state) :
    FinishMeets machine post (calling pool program) := by
  refine ⟨fun thread => ?_, trivial⟩
  cases thread with
  | none =>
      rw [calling_task]
      exact task
  | some box => exact meets.guarded (some box)

/-- The callback of a sleeping box has returned: it could not make another access. -/
theorem callback_returned {box : UncoreBox} {program : UncoreProgram Unit} {world : World}
    (guarded : Guarded machine.device (finishRely (some box)) (finishGuar (some box))
      (fun _ _ => True) program world)
    (asleep : Asleep box world) : program = .ret () := by
  cases program with
  | ret value => rfl
  | access op next =>
      -- Its rely lets every other thread stand out of its way.
      let free : World := { world with timers := fun _ => ⟨false, false⟩, mutex := none }
      have same : SameRunning box world free := (congrArg Hrtimer.running asleep).symm
      have ready : machine.device.ready op free := by
        cases op <;> first | exact rfl | trivial
      obtain ⟨permitted, -⟩ := guarded free (.single same) ready
      have running : (free.timers box).running = true := permitted.running
      exact absurd running Bool.false_ne_true

/-- A second `finish_emulate_nvm` does nothing: what changes is due to events. -/
theorem finishEmulateNvm_again {world after : World}
    (finished : world.globals.emulationStarted = false)
    (again : Completes machine.device Arrives (finishEmulateNvm machine) world () after) :
    ReflTransGen Arrives world after := by
  let same : World → Prop := fun later =>
    ReflTransGen Arrives world later ∧ later.globals.emulationStarted = false
  have stable : Stable Arrives same := by
    intro before after moves held
    refine ⟨held.1.tail moves, ?_⟩
    cases moves with
    | event box room => exact held.2
  have quits : UnderEvents machine (fun _ => same) (finishEmulateNvm machine) world := by
    apply Guarded.access same stable ⟨.refl, finished⟩
    intro later held _
    refine ⟨trivial, ?_⟩
    show UnderEvents machine _
      (if later.globals.emulationStarted = true then _ else Program.ret ()) later
    rw [if_neg (by rw [held.2]; decide)]
    exact .ret stable held
  exact (quits.completes (fun _ _ moves => moves) again).1

/-- After a started emulation, whatever ticks and events there were and wherever a
callback was: once `finish_emulate_nvm` returns no callback runs and no timer is armed,
the second home agent has no event selected and its counter stays 0 under any events,
both flags are false, and finishing again changes nothing. -/
theorem finishEmulateNvm_final (machine : Machine) {world : World} {started finished : ModulePool}
    (quiet : Quiet world) (fresh : world.globals.emulationStarted = false)
    (starts : Pool.Reaches machine.device Arrives Expires
      (calling (idlePool world) (startEmulateNvm machine)) started)
    (loaded : started.threads none = .ret ())
    (success : started.state.globals.emulationStarted = true)
    (finishes : Pool.Reaches machine.device Arrives Expires
      (calling started (finishEmulateNvm machine)) finished)
    (returned : finished.threads none = .ret ()) :
    (∀ box, finished.threads (some box) = .ret () ∧
      finished.state.timers box = ⟨false, false⟩) ∧
      (∃ box, finished.state.globals.haBox1 = some box ∧
        ∀ later, ReflTransGen Arrives finished.state later →
          (later.units box).regs (uncorePciPerfCtl box) = 0 ∧
            counterValue box (later.units box).regs = 0) ∧
      finished.state.globals.latencyStarted = false ∧
      finished.state.globals.emulationStarted = false ∧
      ∀ after, Completes machine.device Arrives (finishEmulateNvm machine) finished.state ()
        after → ReflTransGen Arrives finished.state after := by
  have idle : FinishMeets machine (fun _ => True) (idlePool world) := by
    refine ⟨fun thread => ?_, trivial⟩
    cases thread with
    | none => exact fun _ _ => trivial
    | some box => exact fun _ _ => trivial
  have unstarted : Unstarted world := ⟨fresh, fun box _ => quiet box⟩
  have begun := finishMeets_reaches
    (finishMeets_calling idle (startEmulateNvm_begins unstarted)) starts
  have meets := finishMeets_reaches (finishMeets_calling begun
    (finishEmulateNvm_meets (post_of_returned begun loaded success))) finishes
  obtain ⟨box, reset⟩ := post_of_returned meets returned
  obtain ⟨stopped, latency, chosen⟩ := reset.known.flags
  have asleep : ∀ other, Asleep other finished.state :=
    fun other => reset.known.asleep other trivial
  refine ⟨fun other => ⟨callback_returned (meets.guarded (some other)) (asleep other),
    asleep other⟩, ⟨box, chosen, fun later events => ?_⟩, latency, stopped,
    fun after again => finishEmulateNvm_again stopped again⟩
  have stable : Stable Arrives (Reset (Done box) box) :=
    fun _ _ arrives => reset_stable (Done box) box arrives.taskRely
  have cleared := (stable.star events reset).cleared
  exact ⟨cleared.select, cleared.counter⟩

/-! ### Two sockets -/

/-- An access that waits for callbacks at most, and starts or ends none. -/
def Awaits (machine : Machine) (op : UncoreOp) : Prop :=
  ∀ world, ((∀ box, (world.timers box).running = false) → machine.device.ready op world) ∧
    ∀ box, SameRunning box world (machine.exec op world).2

theorem finishEmulateNvm_awaits : (finishEmulateNvm machine).Makes (Awaits machine) := by
  apply makes_finishEmulateNvm
  · exact fun _ _ _ => ⟨fun _ => trivial, fun _ => rfl⟩
  · exact fun _ _ _ => ⟨fun _ => trivial, fun _ => rfl⟩
  · exact fun _ _ _ => ⟨fun _ => trivial, fun _ => rfl⟩
  · exact fun _ => ⟨fun _ => trivial, fun _ => rfl⟩
  · exact fun _ _ _ => ⟨fun _ => trivial, fun _ => rfl⟩
  · exact fun _ _ => ⟨fun _ => trivial, fun _ => rfl⟩
  · exact fun _ _ => ⟨fun _ => trivial, fun _ => rfl⟩
  · exact fun box world => ⟨fun idle => idle box, sameRunning_cancel box world⟩
  · exact fun _ => ⟨fun _ => trivial, fun _ => rfl⟩
  · exact fun _ => ⟨fun _ => trivial, fun _ => rfl⟩
  · exact fun _ => ⟨fun _ => trivial, fun _ => rfl⟩

/-- While no callback runs, it goes on to its end. -/
theorem awaits_completes {env : World → World → Prop} {program : UncoreProgram Unit}
    (makes : program.Makes (Awaits machine)) {world : World}
    (idle : ∀ box, (world.timers box).running = false) :
    Completes machine.device env program world () (program.run machine.exec world).2 := by
  have keeps : program.Makes fun op => ∀ world,
      (∀ box, (world.timers box).running = false) → machine.device.ready op world ∧
        ∀ box, ((machine.device.exec op world).2.timers box).running = false :=
    makes.mono fun _ awaits world idle =>
      ⟨(awaits world).1 idle, fun box => ((awaits world).2 box).trans (idle box)⟩
  exact reaches_run_of_keeps keeps idle

/-- While no callback runs, `finish_emulate_nvm` waits for nothing. -/
theorem finishEmulateNvm_alone {env : World → World → Prop} {world : World}
    (idle : ∀ box, (world.timers box).running = false) :
    Completes machine.device env (finishEmulateNvm machine) world ()
      ((finishEmulateNvm machine).run machine.exec world).2 :=
  awaits_completes finishEmulateNvm_awaits idle

/-- A started emulation runs no callback, if that of the polled box does not run. -/
theorem idle_of_started {world later : World} {box : UncoreBox} (unstarted : Unstarted world)
    (starts : Completes machine.device Arrives (startEmulateNvm machine) world () later)
    (success : later.globals.emulationStarted = true)
    (polled : later.globals.haBox1 = some box) (idle : (later.timers box).running = false)
    (other : UncoreBox) : (later.timers other).running = false := by
  obtain ⟨first, second, -, known⟩ := (startEmulateNvm_begins unstarted).completes
    (fun _ _ arrives => arrives.taskRely) starts success
  have chosen : later.globals.haBox1 = some second := congrArg Flags.haBox1 known.flags
  by_cases same : other = second
  · rw [same, ← Option.some.inj (polled.symm.trans chosen)]
    exact idle
  · exact congrArg Hrtimer.running (known.asleep other same)

/-- No callback runs when the emulation has started on two sockets. -/
theorem agentsWorld_idle (box : UncoreBox) : (agentsWorld.timers box).running = false := by
  have unstarted : Unstarted quietWorld := ⟨rfl, fun _ _ => rfl⟩
  have polled : agentsWorld.globals.haBox1 = some (haBox 1) := by decide +kernel
  exact idle_of_started unstarted agentsWorld_starts (by decide +kernel) polled
    (by decide +kernel) box

/-- The pool after the task's function has run alone. -/
def ranTo (pool : ModulePool) (after : World) : ModulePool where
  threads := Function.update pool.threads none (.ret ())
  state := after

theorem calling_reaches {pool : ModulePool} {program : UncoreProgram Unit} {after : World}
    (completes : Completes machine.device Arrives program pool.state () after) :
    Pool.Reaches machine.device Arrives Expires (calling pool program)
      (ranTo (calling pool program) after) := by
  have runs : Semantics.Reaches machine.device Arrives
      ((calling pool program).threads none, (calling pool program).state) (.ret (), after) := by
    rw [calling_task]
    exact completes
  exact Pool.reaches_of_thread (calling pool program) none runs

theorem ranTo_returned (pool : ModulePool) (after : World) :
    (ranTo pool after).threads none = .ret () := by
  dsimp only [ranTo]
  rw [Function.update_self]

/-- The world in which the timer of the polled box is about to be cancelled. -/
def cancellingWorld (machine : Machine) (first : UncoreBox) (world : World) : World :=
  (machine.exec (.hrtimerCancel first)
    ((finishEmulateBandwidth machine).run machine.exec
      ((restorePlatformConfiguration machine).run machine.exec world).2).2).2

/-- A started emulation that is finished gets to where it cancels that timer, whether or not
its callback runs. -/
theorem finishEmulateNvm_reaches_cancel {world : World} {first second : UncoreBox}
    (flags : world.globals.flags = emulating true first second)
    (idle : (world.timers first).running = false) :
    ∃ rest, Reaches machine.device Arrives (finishEmulateNvm machine, world)
      (.access (.hrtimerCancel second) rest, cancellingWorld machine first world) := by
  let restored := ((restorePlatformConfiguration machine).run machine.exec world).2
  let opened := ((finishEmulateBandwidth machine).run machine.exec restored).2
  let same : World → Prop := fun later =>
    later.globals.flags = world.globals.flags ∧ later.timers = world.timers
  have keeps : ∀ op, Steady machine op → ∀ later, same later →
      same (machine.exec op later).2 := fun _ steady later held =>
    ⟨(steady later).1.trans held.1, (steady later).2.trans held.2⟩
  have restore : same restored := (makes_restorePlatformConfiguration (fun _ => ⟨rfl, rfl⟩)
    (fun _ _ _ => ⟨rfl, rfl⟩) fun _ _ => ⟨rfl, rfl⟩).run keeps ⟨rfl, rfl⟩
  obtain ⟨kept, timers⟩ : same opened :=
    (makes_finishEmulateBandwidth fun _ _ _ => ⟨rfl, rfl⟩).run keeps restore
  have opens : Completes machine.device Arrives (finishEmulateBandwidth machine) restored ()
      opened := reaches_run (makes_finishEmulateBandwidth fun _ _ _ => trivial) restored
  have now : opened.globals.flags = emulating true first second := kept.trans flags
  have latency : opened.globals.latencyStarted = true := congrArg Flags.latencyStarted now
  have zero : opened.globals.haBox0 = some first := congrArg Flags.haBox0 now
  have one : opened.globals.haBox1 = some second := congrArg Flags.haBox1 now
  have still : (opened.timers first).running = false := by
    rw [timers]
    exact idle
  have cancels : ∃ rest, Reaches machine.device Arrives (finishEmulateLatency machine, opened)
      (.access (.hrtimerCancel second) rest, cancellingWorld machine first world) := by
    have reads : Reaches machine.device Arrives (finishEmulateLatency machine, opened) _ :=
      .single (.access trivial)
    have answer : (machine.device.exec .globals opened).1 = opened.globals := rfl
    rw [Program.ret_bind, answer, if_pos latency, zero, one] at reads
    exact ⟨_, reads.tail (.access still)⟩
  obtain ⟨rest, cancels⟩ := cancels
  have started : world.globals.emulationStarted = true := congrArg Flags.emulationStarted flags
  exact ⟨_, (finishEmulateNvm_reaches_restored started).trans
    (opens.followed (Reaches.bind cancels _))⟩

/-- Nothing that a callback does starts or ends another one. -/
theorem runHrtimer_sameRunning (box : UncoreBox) (function : HrtimerFunction) :
    (runHrtimer box function).Makes fun op => ∀ world, ∀ other ≠ box,
      SameRunning other world (machine.exec op world).2 := by
  refine Program.Makes.bind ?_ fun again => makes_access fun world other apart => ?_
  · cases function with
    | uncoreBoxHrtimerDef => trivial
    | emulateNvmHrtimer =>
        exact (emulateNvmHrtimer_keepsTo box).mono fun _ within world other _ =>
          sameRunning_of_timers (within world).2.1 other
  · show (Function.update world.timers box _ other).running = _
    rw [Function.update_of_ne apart]

/-- The threads while a callback is under way: the task and what is left of it. -/
def besideTick (task callback : UncoreProgram Unit) : Task → UncoreProgram Unit
  | none => task
  | some box => if box = haBox 1 then callback else .ret ()

theorem besideTick_task (task callback other : UncoreProgram Unit) :
    Function.update (besideTick task callback) none other = besideTick other callback := by
  funext thread
  cases thread <;> rfl

theorem besideTick_callback (task callback other : UncoreProgram Unit) :
    Function.update (besideTick task callback) (some (haBox 1)) other = besideTick task other := by
  funext thread
  cases thread with
  | none => rfl
  | some box =>
      by_cases same : box = haBox 1
      · subst same
        rw [Function.update_self, besideTick, if_pos rfl]
      · rw [Function.update_of_ne fun equal => same (Option.some.inj equal), besideTick, besideTick,
          if_neg same, if_neg same]

/-- The task goes on while a callback is under way. -/
theorem besideTick_reaches_task {task callback after : UncoreProgram Unit} {world final : World}
    (reaches : Reaches machine.device Arrives (task, world) (after, final)) :
    Pool.Reaches machine.device Arrives Expires ⟨besideTick task callback, world⟩
      ⟨besideTick after callback, final⟩ := by
  have run : Pool.Reaches machine.device Arrives Expires _ _ :=
    Pool.reaches_of_thread ⟨besideTick task callback, world⟩ none reaches
  rw [besideTick_task] at run
  exact run

/-- The callback goes on, wherever the task is. -/
theorem besideTick_reaches_callback {task callback after : UncoreProgram Unit} {world final : World}
    (reaches : Reaches machine.device Arrives (callback, world) (after, final)) :
    Pool.Reaches machine.device Arrives Expires ⟨besideTick task callback, world⟩
      ⟨besideTick task after, final⟩ := by
  have here : besideTick task callback (some (haBox 1)) = callback := by rw [besideTick, if_pos rfl]
  rw [← here] at reaches
  have run : Pool.Reaches machine.device Arrives Expires _ _ :=
    Pool.reaches_of_thread ⟨besideTick task callback, world⟩ (some (haBox 1)) reaches
  rw [besideTick_callback] at run
  exact run

/-- No callback but that of the polled box runs. -/
def OnlyPolled (world : World) : Prop :=
  ∀ other ≠ haBox 1, (world.timers other).running = false

theorem onlyPolled_arrives (before after : World) (only : OnlyPolled before)
    (arrives : Arrives before after) : OnlyPolled after := by
  cases arrives with
  | event box room => exact only

theorem onlyPolled_expires {world : World} (only : OnlyPolled world) (timer : Hrtimer) :
    OnlyPolled { world with timers := Function.update world.timers (haBox 1) timer } := by
  intro other apart
  show (Function.update world.timers (haBox 1) timer other).running = false
  rw [Function.update_of_ne apart]
  exact only other apart

/-- Accesses that start or end no other callback. -/
theorem onlyPolled_keeps (op : UncoreOp)
    (same : ∀ world, ∀ other ≠ haBox 1, SameRunning other world (twoAgents.exec op world).2)
    (world : World) (only : OnlyPolled world) : OnlyPolled (twoAgents.exec op world).2 :=
  fun other apart => (same world other apart).trans (only other apart)

/-- A tick after the emulation has started on two sockets. -/
def tickedOnce : World := afterTick twoAgents (haBox 1) agentsWorld

/-- The timer expires again. -/
def nextTickWorld : World :=
  { tickedOnce with timers := Function.update tickedOnce.timers (haBox 1) ⟨false, true⟩ }

/-- The callback of the next tick. -/
def nextCallback : UncoreProgram Unit :=
  runHrtimer (haBox 1) (tickedOnce.boxes (haBox 1)).function

/-- It has made its first accesses. -/
def halfTick : UncoreProgram Unit × World :=
  nextCallback.advance twoAgents.exec 3 nextTickWorld

theorem halfTick_begins : Reaches twoAgents.device Arrives (nextCallback, nextTickWorld) halfTick :=
  reaches_advance (runHrtimer_ready twoAgents (haBox 1) _) 3 nextTickWorld

theorem halfTick_only : OnlyPolled halfTick.2 := by
  have ticked : OnlyPolled tickedOnce := (runHrtimer_sameRunning (haBox 1) _).run
    onlyPolled_keeps (onlyPolled_expires (fun other _ => agentsWorld_idle other) ⟨false, true⟩)
  exact (halfTick_begins.keeps onlyPolled_arrives onlyPolled_keeps
    (runHrtimer_sameRunning (haBox 1) _) (onlyPolled_expires ticked ⟨false, true⟩)).2

theorem halfTick_flags : halfTick.2.globals.flags = emulating true (haBox 0) (haBox 1) := by
  have emulates : halfTick.2.globals.emulationStarted = true := by decide +kernel
  have latency : halfTick.2.globals.latencyStarted = true := by decide +kernel
  have zero : halfTick.2.globals.haBox0 = some (haBox 0) := by decide +kernel
  have one : halfTick.2.globals.haBox1 = some (haBox 1) := by decide +kernel
  rw [Globals.flags, emulates, latency, zero, one, emulating]

/-- The next tick begins. -/
theorem ticked_reaches_halfTick (task : UncoreProgram Unit) :
    Pool.Reaches twoAgents.device Arrives Expires ⟨besideTick task (.ret ()), tickedOnce⟩
      ⟨besideTick task halfTick.1, halfTick.2⟩ := by
  have idle : besideTick task (.ret ()) (some (haBox 1)) = .ret () := by rw [besideTick, if_pos rfl]
  have armed : (tickedOnce.timers (haBox 1)).armed = true := by decide +kernel
  have idleTimer : (tickedOnce.timers (haBox 1)).running = false := by decide +kernel
  have expires : Pool.Step twoAgents.device Arrives Expires
      ⟨besideTick task (.ret ()), tickedOnce⟩
      ⟨Function.update (besideTick task (.ret ())) (some (haBox 1)) nextCallback, nextTickWorld⟩ :=
    .launch (.timer idle armed idleTimer)
  rw [besideTick_callback] at expires
  exact ReflTransGen.head expires (besideTick_reaches_callback halfTick_begins)

/-- What is left of the callback runs to its end, wherever the task is. -/
theorem halfTick_returns {world : World} (only : OnlyPolled world) :
    Reaches twoAgents.device Arrives (halfTick.1, world)
        (.ret (), (halfTick.1.run twoAgents.exec world).2) ∧
      OnlyPolled (halfTick.1.run twoAgents.exec world).2 :=
  ⟨reaches_run ((runHrtimer_ready twoAgents (haBox 1) _).advance 3 nextTickWorld) world,
    ((runHrtimer_sameRunning (haBox 1) _).advance 3 nextTickWorld).run onlyPolled_keeps only⟩

/-- On two sockets a tick runs, and `finish_emulate_nvm` comes to where it cancels the timer
while the callback of the next tick is under way: it waits for the callback, which asks to be
armed again, and cancels the timer. -/
theorem finishEmulateNvm_final_twoAgents :
    ∃ started cancelling finished : ModulePool,
      (Pool.Reaches twoAgents.device Arrives Expires
          (calling (idlePool quietWorld) (startEmulateNvm twoAgents)) started ∧
        started.state.globals.hrtimerJiffies = 1) ∧
      (Pool.Reaches twoAgents.device Arrives Expires
          (calling started (finishEmulateNvm twoAgents)) cancelling ∧
        (∃ rest, cancelling.threads none = .access (.hrtimerCancel (haBox 1)) rest) ∧
        (cancelling.state.timers (haBox 1)).running = true) ∧
      Pool.Reaches twoAgents.device Arrives Expires cancelling finished ∧
      finished.threads none = .ret () ∧
      (∀ box, finished.threads (some box) = .ret () ∧
        finished.state.timers box = ⟨false, false⟩) ∧
      (∃ box, finished.state.globals.haBox1 = some box ∧
        ∀ later, ReflTransGen Arrives finished.state later →
          (later.units box).regs (uncorePciPerfCtl box) = 0 ∧
            counterValue box (later.units box).regs = 0) ∧
      finished.state.globals.latencyStarted = false ∧
      finished.state.globals.emulationStarted = false := by
  let loaded := ranTo (calling (idlePool quietWorld) (startEmulateNvm twoAgents)) agentsWorld
  let started : ModulePool := ⟨loaded.threads, tickedOnce⟩
  have starts : Pool.Reaches twoAgents.device Arrives Expires
      (calling (idlePool quietWorld) (startEmulateNvm twoAgents)) started :=
    (calling_reaches agentsWorld_starts).trans
      (reaches_afterTick rfl (by decide +kernel) (by decide +kernel))
  have begins : calling started (finishEmulateNvm twoAgents) =
      ⟨besideTick (finishEmulateNvm twoAgents) (.ret ()), tickedOnce⟩ := by
    refine congrArg (fun threads => Pool.mk threads tickedOnce) (funext fun thread => ?_)
    cases thread with
    | none => rfl
    | some box => exact (ite_self (Program.ret ())).symm
  obtain ⟨rest, cancels⟩ := @finishEmulateNvm_reaches_cancel twoAgents halfTick.2 _ _
    halfTick_flags (halfTick_only (haBox 0) (by decide))
  let waiting := cancellingWorld twoAgents (haBox 0) halfTick.2
  let cancelling : ModulePool :=
    ⟨besideTick (.access (.hrtimerCancel (haBox 1)) rest) halfTick.1, waiting⟩
  have comes : Pool.Reaches twoAgents.device Arrives Expires
      (calling started (finishEmulateNvm twoAgents)) cancelling := by
    rw [begins]
    exact (ticked_reaches_halfTick _).trans (besideTick_reaches_task cancels)
  -- The callback returns first: the cancellation waits for it.
  have awaits : ∀ op, Awaits twoAgents op → ∀ world, OnlyPolled world →
      OnlyPolled (twoAgents.device.exec op world).2 :=
    fun op awaits => onlyPolled_keeps op fun world other _ => (awaits world).2 other
  obtain ⟨makes, only⟩ :=
    cancels.keeps onlyPolled_arrives awaits finishEmulateNvm_awaits halfTick_only
  obtain ⟨returns, still⟩ := halfTick_returns only
  have idle : ∀ box, ((halfTick.1.run twoAgents.exec waiting).2.timers box).running = false := by
    intro box
    by_cases polled : box = haBox 1
    · rw [polled]
      decide +kernel
    · exact still box polled
  have running : (waiting.timers (haBox 1)).running = true := by decide +kernel
  have finishes := (besideTick_reaches_callback returns).trans
    (besideTick_reaches_task (awaits_completes makes idle))
  have final := finishEmulateNvm_final twoAgents (fun _ => rfl) rfl starts rfl (by decide +kernel)
    (comes.trans finishes) rfl
  exact ⟨started, cancelling, _, ⟨starts, by decide +kernel⟩,
    ⟨comes, ⟨rest, rfl⟩, running⟩, finishes, rfl, final.1, final.2.1, final.2.2.1,
    final.2.2.2.1⟩

end NvmEmulator.Emulate
