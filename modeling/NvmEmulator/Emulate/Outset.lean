/-
# Started, or nothing

`start_emulate_nvm` goes through four stages and undoes the earlier ones where a later one
fails. What they check is settled before the call: whether the `/proc` file can be created, the
processor the module is loaded on, and the home-agent boxes that were found. Where all of it
is as it should be the second home agent ends up polled. Otherwise no timer is armed, every box
is as it was set up before, and no throttle is enabled that was not. Ticks and events may come
at any time.
-/

import NvmEmulator.Emulate.Bandwidth
import NvmEmulator.Emulate.Unload

namespace NvmEmulator.Emulate

open Relation NvmEmulator.Kernel NvmEmulator.Semantics NvmEmulator.Uncore

variable {machine : Machine}

/-! ## Outcomes -/

/-- What the stages check, in the world in which `start_emulate_nvm` is called. -/
structure Startable (machine : Machine) (world : World) (haBox0 haBox1 : UncoreBox) : Prop where
  proc : machine.answer world.calls .procCreate = 0
  polling : machine.smpProcessorId = 6
  zero : uncoreGetFirstBox machine.haBoxes 0 = some haBox0
  one : uncoreGetFirstBox machine.haBoxes 1 = some haBox1

/-- The timer of the box is armed, or its callback runs. -/
def Active (box : UncoreBox) (world : World) : Prop :=
  (world.timers box).armed = true ∨ (world.timers box).running = true

/-- Only events have reached the box. -/
structure LeftAlone (before : World) (box : UncoreBox) (world : World) : Prop where
  asleep : Asleep box world
  fields : world.boxes box = before.boxes box
  unit : ∃ count, world.units box = (PmonUnit.arrive box)^[count] (before.units box)

/-- The box is polled with the tick of the emulator, and no other box is. -/
structure Polled (before : World) (box : UncoreBox) (world : World) : Prop where
  fields : world.boxes box =
    ⟨some haRequestsRemoteReads, 1000000 * 100, .emulateNvmHrtimer⟩
  active : Active box world
  others : ∀ other ≠ box, LeftAlone before other world

/-- Nothing is left of a start that failed. -/
structure Undone (before world : World) : Prop where
  emulation : world.globals.emulationStarted = false
  latency : world.globals.latencyStarted = false
  left : ∀ box, LeftAlone before box world
  throttle : ∀ pdev, ∀ addr ∈ dimmOffsets, world.thrtPerEn (pdev, addr) = true →
    before.thrtPerEn (pdev, addr) = true

/-! ## What the threads rely on -/

/-- What ticks and events leave to the module's task. -/
structure OutsetRely (before after : World) : Prop where
  task : TaskRely before after
  boxes : after.boxes = before.boxes
  active : ∀ box, Active box before → Active box after
  quiet : Quiet before → seen after = seen before

/-- A callback sets up no box, and its timer goes on. -/
structure OutsetCallback (box : UncoreBox) (before after : World) : Prop where
  callback : CallbackGuar box before after
  boxes : after.boxes = before.boxes
  active : Active box after

def outsetRely : Task → World → World → Prop
  | none => OutsetRely
  | some box => SameRunning box

def outsetGuar : Task → World → World → Prop
  | none => fun before after => ∀ box, SameRunning box before after
  | some box => OutsetCallback box

theorem OutsetCallback.outsetRely {box : UncoreBox} {before after : World}
    (guaranteed : OutsetCallback box before after) : OutsetRely before after := by
  refine ⟨guaranteed.callback.taskRely, guaranteed.boxes, fun other active => ?_,
    fun quiet => ?_⟩
  · by_cases same : other = box
    · rw [same]
      exact guaranteed.active
    · rwa [Active, guaranteed.callback.timers other same]
  · have running := guaranteed.callback.running
    rw [quiet box] at running
    exact absurd running (by decide)

theorem Arrives.outsetRely {before after : World} (arrives : Arrives before after) :
    OutsetRely before after := by
  refine ⟨arrives.taskRely, ?_, fun box active => ?_, fun _ => ?_⟩
  · cases arrives with
    | event box room => rfl
  · cases arrives with
    | event other room => exact active
  · cases arrives with
    | event box room => rfl

theorem outset_compatible :
    Pool.Compatible outsetRely outsetGuar (fun _ : World => True) Arrives where
  thread
    | none, none, other, _, _, _ => absurd rfl other
    | none, some box, _, _, _, guaranteed => guaranteed box
    | some _, none, _, _, _, guaranteed => guaranteed.outsetRely
    | some box, some apart, other, _, _, guaranteed =>
        congrArg Hrtimer.running
          (guaranteed.callback.timers apart fun same => other (congrArg some same))
  environment
    | none, _, _, arrives => arrives.outsetRely
    | some box, _, _, arrives => by
        cases arrives with
        | event other room => exact rfl
  kept _ _ _ _ _ := trivial
  keptByEnvironment _ _ _ _ := trivial

/-! ## The callbacks -/

/-- Both functions ask to be armed again. -/
theorem hrtimerFunction_ends (box : UncoreBox) (function : HrtimerFunction) :
    (hrtimerFunction box function).Ends (· = .restart) := by
  have again : (Program.ret HrtimerRestart.restart : UncoreProgram HrtimerRestart).Ends
      (· = .restart) := rfl
  cases function with
  | uncoreBoxHrtimerDef => exact again
  | emulateNvmHrtimer =>
      refine .bind fun _ => .bind fun counts => .bind fun _ => .bind fun state => ?_
      exact .bind fun _ => .bind fun _ => .bind fun _ => .bind fun _ => again

/-- An access that keeps to one box and sets up none. -/
def SetsNone (machine : Machine) (box : UncoreBox) (op : UncoreOp) : Prop :=
  KeepsTo machine box op ∧ ∀ world, (machine.exec op world).2.boxes = world.boxes

theorem hrtimerFunction_setsNone (box : UncoreBox) (function : HrtimerFunction) :
    (hrtimerFunction box function).Makes (SetsNone machine box) := by
  cases function with
  | uncoreBoxHrtimerDef => trivial
  | emulateNvmHrtimer =>
      apply makes_emulateNvmHrtimer
      · intro op
        exact ⟨fun _ => ⟨rfl, rfl, fun other apart => Function.update_of_ne apart _ _⟩,
          fun _ => rfl⟩
      · exact ⟨fun _ => ⟨rfl, rfl, fun _ _ => rfl⟩, fun _ => rfl⟩
      · exact fun _ => ⟨fun _ => ⟨rfl, rfl, fun _ _ => rfl⟩, fun _ => rfl⟩
      · exact ⟨fun _ => ⟨rfl, rfl, fun _ _ => rfl⟩, fun _ => rfl⟩
      · exact fun _ => ⟨fun _ => ⟨rfl, rfl, fun _ _ => rfl⟩, fun _ => rfl⟩
      · exact fun _ _ => ⟨fun _ => ⟨rfl, rfl, fun _ _ => rfl⟩, fun _ => rfl⟩

/-- A callback does what the task relies on, from its launch to its return. -/
theorem runHrtimer_outset {box : UncoreBox} (function : HrtimerFunction) {world : World}
    (running : (world.timers box).running = true) :
    Guarded machine.device (outsetRely (some box)) (outsetGuar (some box))
      (fun _ _ => True) (runHrtimer box function) world := by
  let acting : World → Prop := fun world => (world.timers box).running = true
  have stable : Stable (outsetRely (some box)) acting :=
    fun _ _ same holds => same.trans holds
  have keeps : ∀ op, SetsNone machine box op → ∀ world, acting world →
      machine.device.ready op world →
        outsetGuar (some box) world (machine.device.exec op world).2 ∧
          acting (machine.device.exec op world).2 := by
    rintro op ⟨within, boxes⟩ world holds _
    obtain ⟨flags, timers, units⟩ := within world
    have still : acting (machine.device.exec op world).2 :=
      (congrArg (fun timers : UncoreBox → Hrtimer => (timers box).running) timers).trans holds
    exact ⟨⟨⟨holds, flags, fun other _ => congrFun timers other, units⟩, boxes world,
      Or.inr still⟩, still⟩
  apply Guarded.bind ((Guarded.of_makes (hrtimerFunction_setsNone box function) stable keeps
    running).ends (hrtimerFunction_ends box function))
  rintro again later ⟨rfl, holds⟩
  apply Guarded.access acting stable holds
  intro later holds _
  refine ⟨⟨⟨holds, rfl, fun other apart => ?_, fun _ _ => rfl⟩, rfl, Or.inl ?_⟩,
    fun _ _ => trivial⟩
  · exact Function.update_of_ne apart _ later.timers
  · show (Function.update later.timers box _ box).armed = true
    rw [Function.update_self]
    exact Bool.or_true _

/-! ## Before a timer is armed -/

/-- The obligation of the module's task. -/
abbrev OutsetMeets (machine : Machine) {α : Type} (post : α → World → Prop) :
    UncoreProgram α → World → Prop :=
  Guarded machine.device OutsetRely (fun before after => ∀ box, SameRunning box before after) post

section Waiting

variable {before : World}

theorem LeftAlone.outsetRely {box : UncoreBox} {world later : World}
    (left : LeftAlone before box world) (moves : OutsetRely world later) :
    LeftAlone before box later := by
  obtain ⟨asleep, events⟩ := moves.task.asleep box left.asleep
  refine ⟨asleep, (congrFun moves.boxes box).trans left.fields, ?_⟩
  obtain ⟨count, unit⟩ := left.unit
  rcases events with same | arrives
  · exact ⟨count, same.trans unit⟩
  · refine ⟨count + 1, ?_⟩
    rw [arrives, unit, Function.iterate_succ_apply']

theorem LeftAlone.of_eq {box : UncoreBox} {world later : World}
    (left : LeftAlone before box world) (timers : later.timers box = world.timers box)
    (boxes : later.boxes box = world.boxes box) (units : later.units box = world.units box) :
    LeftAlone before box later := by
  obtain ⟨count, unit⟩ := left.unit
  exact ⟨timers.trans left.asleep, boxes.trans left.fields, count, units.trans unit⟩

theorem leftAlone_self (quiet : Quiet before) (box : UncoreBox) : LeftAlone before box before :=
  ⟨quiet box, rfl, 0, rfl⟩

/-- An access that reaches neither boxes nor timers. -/
structure Remote (machine : Machine) (op : UncoreOp) : Prop where
  blind : Blind machine op
  boxes : ∀ world, (machine.exec op world).2.boxes = world.boxes
  units : ∀ world, (machine.exec op world).2.units = world.units

theorem Remote.leftAlone {op : UncoreOp} (remote : Remote machine op) {box : UncoreBox}
    {world : World} (left : LeftAlone before box world) :
    LeftAlone before box (machine.exec op world).2 :=
  left.of_eq (congrFun (remote.blind world).2.2 box) (congrFun (remote.boxes world) box)
    (congrFun (remote.units world) box)

theorem remote_kernel (call : KernelCall) : Remote machine (.kernel call) :=
  ⟨blind_kernel call, fun _ => rfl, fun _ => rfl⟩

theorem remote_assign (update : Globals → Globals) : Remote machine (.assign update) :=
  ⟨blind_assign update, fun _ => rfl, fun _ => rfl⟩

theorem remote_globals : Remote machine .globals :=
  ⟨fun _ => ⟨rfl, rfl, rfl⟩, fun _ => rfl, fun _ => rfl⟩

theorem remote_cpumaskOfNode (node cpu : Nat) : Remote machine (.cpumaskOfNode node cpu) :=
  ⟨fun _ => ⟨rfl, rfl, rfl⟩, fun _ => rfl, fun _ => rfl⟩

theorem remote_procRemove : Remote machine .procRemove :=
  ⟨fun _ => ⟨rfl, rfl, rfl⟩, fun _ => rfl, fun _ => rfl⟩

theorem remote_imc (pdev : PciDev) (op : RegOp 16) : Remote machine (.imc pdev op) :=
  ⟨fun _ => ⟨rfl, rfl, rfl⟩, fun _ => rfl, fun _ => rfl⟩

/-- Where only registers change while the timers are quiet, a blind program does what it would
do alone. -/
theorem blind_meets {α : Type} {rely guar : World → World → Prop}
    (moved : ∀ before after, rely before after → Quiet before → seen after = seen before)
    (permits : ∀ before after, Quiet before → Quiet after → guar before after)
    {program : UncoreProgram α} (makes : program.Makes (Blind machine)) {world : World}
    (quiet : Quiet world) :
    Guarded machine.device rely guar (fun value later =>
      value = (program.run machine.exec world).1 ∧
        seen later = seen (program.run machine.exec world).2 ∧ Quiet later) program world := by
  have fixed : ∀ before after, rely before after → Quiet (seen before) →
      seen after = seen before := fun _ _ moves still => moved _ _ moves still
  refine Guarded.of_run makes fixed ?_ rfl quiet
  intro op blind state alone same quiet
  obtain ⟨answer, result, timers⟩ := blind state
  obtain ⟨answer', result', -⟩ := blind alone
  rw [same] at answer result
  have still : Quiet (machine.exec op state).2 := by
    intro box
    rw [timers]
    exact quiet box
  exact ⟨answer.trans answer'.symm, result.trans result'.symm, still,
    permits state _ quiet still⟩

/-- While no timer is armed, a program that keeps to the rest does what it would do alone. -/
theorem remote_meets {α : Type} {program : UncoreProgram α}
    (makes : program.Makes (Remote machine)) {world : World}
    (left : ∀ box, LeftAlone before box world) :
    OutsetMeets machine (fun value later => (value = (program.run machine.exec world).1 ∧
        seen later = seen (program.run machine.exec world).2 ∧ Quiet later) ∧
      ∀ box, LeftAlone before box later) program world := by
  have alone : OutsetMeets machine (fun value later => value = (program.run machine.exec world).1 ∧
      seen later = seen (program.run machine.exec world).2 ∧ Quiet later) program world :=
    blind_meets (fun _ _ moves still => moves.quiet still)
      (fun _ _ still quiet box => by rw [SameRunning, still, quiet])
      (makes.mono fun _ remote => remote.blind) fun box => (left box).asleep
  have kept : OutsetMeets machine (fun _ later => ∀ box, LeftAlone before box later) program
      world := by
    have stable : Stable OutsetRely fun later => ∀ box, LeftAlone before box later :=
      fun _ _ moves left box => (left box).outsetRely moves
    refine Guarded.of_makes makes stable ?_ left
    intro op remote state left _
    exact ⟨fun box => sameRunning_of_timers (remote.blind state).2.2 box,
      fun box => remote.leftAlone (left box)⟩
  exact alone.both kept

/-- The parameters are set, and nothing is started. -/
structure Primed (world : World) : Prop where
  emulation : world.globals.emulationStarted = false
  latency : world.globals.latencyStarted = false
  polling : world.globals.pollingCpu = 6
  duration : world.globals.emulateNvmHrtimerDurationNs = 1000000 * 100

theorem Primed.of_seen {world later : World} (primed : Primed world)
    (same : seen later = seen world) : Primed later := by
  have globals := congrArg World.globals same
  exact ⟨(congrArg Globals.emulationStarted globals).trans primed.emulation,
    (congrArg Globals.latencyStarted globals).trans primed.latency,
    (congrArg Globals.pollingCpu globals).trans primed.polling,
    (congrArg Globals.emulateNvmHrtimerDurationNs globals).trans primed.duration⟩

/-- What is known until a timer is armed: the controllers are as `words` says. -/
structure Waits (before : World) (words : ImcBank → Prop) (world : World) : Prop where
  primed : Primed world
  left : ∀ box, LeftAlone before box world
  imc : words world.imc

/-- An access before the timer is armed. -/
structure Early (machine : Machine) (op : UncoreOp) : Prop where
  remote : Remote machine op
  primed : ∀ world, Primed world → Primed (machine.exec op world).2

variable {words : ImcBank → Prop} {world : World}

/-- Such a program leaves the controllers as it does alone. -/
theorem early_meets {α : Type} {program : UncoreProgram α} (makes : program.Makes (Early machine))
    (waits : Waits before words world) :
    OutsetMeets machine (fun value later => value = (program.run machine.exec world).1 ∧
      Waits before (· = (program.run machine.exec world).2.imc) later) program world := by
  refine (remote_meets (makes.mono fun _ early => early.remote) waits.left).mono ?_
  rintro value later ⟨⟨returned, same, -⟩, left⟩
  have imc := congrArg World.imc same
  have primed : Primed (program.run machine.exec world).2 :=
    makes.run (fun op early => early.primed) waits.primed
  exact ⟨returned, primed.of_seen same, left, imc⟩

/-- An access that leaves the controllers alone too. -/
def Mild (machine : Machine) (op : UncoreOp) : Prop := Early machine op ∧ NotImc machine op

theorem mild_meets {α : Type} {program : UncoreProgram α} (makes : program.Makes (Mild machine))
    (waits : Waits before words world) :
    OutsetMeets machine (fun value later => value = (program.run machine.exec world).1 ∧
      Waits before words later) program world := by
  refine (early_meets (makes.mono fun _ mild => mild.1) waits).mono ?_
  rintro value later ⟨returned, primed, left, imc⟩
  let unmoved : World → Prop := fun later => later.imc = world.imc
  have same : unmoved (program.run machine.exec world).2 :=
    makes.run (fun op mild later held => (mild.2 later).trans held) rfl
  refine ⟨returned, primed, left, ?_⟩
  rw [imc, same]
  exact waits.imc

theorem mild_kernel (call : KernelCall) : Mild machine (.kernel call) :=
  ⟨⟨remote_kernel call, fun _ held => ⟨held.emulation, held.latency, held.polling,
    held.duration⟩⟩, fun _ => rfl⟩

theorem mild_registed : Mild machine (.assign fun state =>
    { state with emulateNvmProcRegisted := true }) :=
  ⟨⟨remote_assign _, fun _ held => ⟨held.emulation, held.latency, held.polling,
    held.duration⟩⟩, fun _ => rfl⟩

theorem mild_globals : Mild machine .globals :=
  ⟨⟨remote_globals, fun _ held => held⟩, fun _ => rfl⟩

theorem mild_cpumaskOfNode (node cpu : Nat) : Mild machine (.cpumaskOfNode node cpu) :=
  ⟨⟨remote_cpumaskOfNode node cpu, fun _ held => held⟩, fun _ => rfl⟩

theorem mild_procRemove : Mild machine .procRemove :=
  ⟨⟨remote_procRemove, fun _ held => held⟩, fun _ => rfl⟩

theorem early_imc (pdev : PciDev) (op : RegOp 16) : Early machine (.imc pdev op) :=
  ⟨remote_imc pdev op, fun _ held => ⟨held.emulation, held.latency, held.polling,
    held.duration⟩⟩

end Waiting

/-! ## The throttle -/

section Throttle

/-- The controllers that throttling calls reach. -/
def reached (machine : Machine) : Set PciDev :=
  regionOf (fun node => { pdev | node ≤ uncoreMaxSocket ∧
    pdev ∈ devicesOn machine.imcDevices.list node }) machine.onlineNodes

theorem mem_reached_of_served {nodes : List Nat} (within : nodes.Sublist machine.onlineNodes)
    (serves : ∀ node ∈ nodes, served machine.imcDevices.list node = true) {pdev : PciDev}
    (mem : pdev ∈ regionOf (channelsOf machine.imcDevices.list) nodes) :
    pdev ∈ reached machine := by
  obtain ⟨node, there, here⟩ := mem
  exact ⟨node, within.subset there, (served_iff.mp (serves node there)).1, here⟩

/-- Starting leaves every other controller alone. -/
theorem startEmulateBandwidth_outside (world : World) {pdev : PciDev}
    (outside : pdev ∉ reached machine) :
    ((startEmulateBandwidth machine).run machine.exec world).2.imc pdev = world.imc pdev := by
  have limited : Rewrites _ _ (regionOf (channelsOf machine.imcDevices.list) _) _ _ :=
    (hswep_machineWords machine).setThresholdAll machine.onlineNodes 1 world
  have taken : pdev ∉ regionOf (channelsOf machine.imcDevices.list)
      (machine.onlineNodes.takeWhile (served machine.imcDevices.list)) := fun mem =>
    outside (mem_reached_of_served (List.takeWhile_sublist _)
      (fun _ there => List.mem_takeWhile_imp there) mem)
  have set : (thresholdsSet machine world).imc pdev = world.imc pdev := limited.outside pdev taken
  rw [startEmulateBandwidth_run]
  by_cases all : ∀ node ∈ machine.onlineNodes, served machine.imcDevices.list node = true
  · have enabled := (hswep_machineWords machine).enableThrottleAll all (thresholdsSet machine world)
    refine (enabled.outside pdev fun mem => outside ?_).trans set
    exact mem_reached_of_served (List.Sublist.refl _) all mem
  · push Not at all
    obtain ⟨node, there, refuses⟩ := all
    obtain ⟨state, enabled, ends⟩ := (hswep_machineWords machine).enableThrottleAll_undone
      ⟨node, there, Bool.eq_false_of_not_eq_true refuses⟩ (thresholdsSet machine world)
    have off : Rewrites _ _ (reached machine) _ _ :=
      (hswep_machineWords machine).disableThrottleAll machine.onlineNodes state
    rw [ends]
    exact (off.outside pdev outside).trans ((enabled.outside pdev taken).trans set)

/-- Finishing enables no throttle, and disables those that starting enabled. -/
theorem finishEmulateBandwidth_bit {before world : World}
    (elsewhere : ∀ pdev ∉ reached machine, world.imc pdev = before.imc pdev) (pdev : PciDev)
    {addr : BitVec 32} (dimm : addr ∈ dimmOffsets)
    (set : (((finishEmulateBandwidth machine).run machine.exec world).2.imc pdev addr).getLsbD 15 =
      true) : before.thrtPerEn (pdev, addr) = true := by
  have off : Rewrites (fun pdev world => world.imc pdev) switchOff (reached machine) world
      ((finishEmulateBandwidth machine).run machine.exec world).2 :=
    (hswep_machineWords machine).disableThrottleAll machine.onlineNodes world
  by_cases mem : pdev ∈ reached machine
  · have mask : (~~~(1#16 <<< 15)).getLsbD 15 = false := by decide
    have inside := off.inside pdev mem
    rw [inside, switchOff, rewriteDimms_of_mem dimm, ImcCall.rewrite, BitVec.getLsbD_and, mask,
      Bool.and_false] at set
    exact absurd set (by decide)
  · have outside := off.outside pdev mem
    rw [outside, elsewhere pdev mem] at set
    exact set

end Throttle

/-! ## Polling -/

section Polling

variable {before world : World} {first second : UncoreBox} {fields : BoxFields}

/-- The flags while the second box is set up and after. -/
def outsetFlags (emulation latency : Bool) (first second : UncoreBox) : Flags :=
  ⟨emulation, latency, some first, some second⟩

/-- The box is set up, and its timer is not armed yet. -/
structure SettingUp (before : World) (first second : UncoreBox) (fields : BoxFields)
    (world : World) : Prop where
  flags : world.globals.flags = outsetFlags false false first second
  duration : world.globals.emulateNvmHrtimerDurationNs = 1000000 * 100
  fields : world.boxes second = fields
  asleep : Asleep second world
  others : ∀ other ≠ second, LeftAlone before other world

theorem SettingUp.quiet (setting : SettingUp before first second fields world) : Quiet world := by
  intro box
  by_cases same : box = second
  · rw [same]
    exact setting.asleep
  · exact (setting.others box same).asleep

theorem settingUp_stable : Stable OutsetRely (SettingUp before first second fields) := by
  intro world later moves setting
  have globals := congrArg World.globals (moves.quiet setting.quiet)
  exact ⟨moves.task.flags.trans setting.flags,
    (congrArg Globals.emulateNvmHrtimerDurationNs globals).trans setting.duration,
    (congrFun moves.boxes second).trans setting.fields,
    (moves.task.asleep second setting.asleep).1,
    fun other apart => (setting.others other apart).outsetRely moves⟩

/-- An access to the registers of the box. -/
theorem SettingUp.pci (machine : Machine) (op : RegOp 32)
    (setting : SettingUp before first second fields world) :
    SettingUp before first second fields (machine.exec (.pci second op) world).2 := by
  refine ⟨setting.flags, setting.duration, setting.fields, setting.asleep, fun other apart => ?_⟩
  exact (setting.others other apart).of_eq rfl rfl (Function.update_of_ne apart _ world.units)

/-- The registers of the box are programmed. -/
theorem onBox_outset {α : Type} (program : RegProgram 32 α)
    (setting : SettingUp before first second fields world) :
    OutsetMeets machine (fun _ => SettingUp before first second fields) (onBox second program)
      world := by
  have makes : (onBox second program).Makes fun op => ∃ reg, op = .pci second reg :=
    makes_onBox (fun reg => ⟨reg, rfl⟩) program
  refine Guarded.of_makes makes settingUp_stable ?_ setting
  rintro _ ⟨reg, rfl⟩ later setting _
  exact ⟨fun _ => rfl, setting.pci machine reg⟩

/-- Its members are assigned. -/
theorem setBoxFields_outset {α : Type} {post : α → World → Prop} {update : BoxFields → BoxFields}
    {follow : Unit → UncoreProgram α} (setting : SettingUp before first second fields world)
    (rest : ∀ later, SettingUp before first second (update fields) later →
      OutsetMeets machine post (follow ()) later) :
    OutsetMeets machine post ((access (.setBoxFields second update)).bind follow) world := by
  apply Guarded.access _ settingUp_stable setting
  intro later setting _
  refine ⟨fun _ => rfl, rest _ ⟨setting.flags, setting.duration, ?_, setting.asleep,
    fun other apart => ?_⟩⟩
  · show Function.update later.boxes second (update (later.boxes second)) second = _
    rw [Function.update_self, setting.fields]
  · exact (setting.others other apart).of_eq rfl (Function.update_of_ne apart _ later.boxes) rfl

/-- The box is polled, with some flags set. -/
structure Underway (before : World) (flags : Flags) (box : UncoreBox) (world : World) : Prop where
  flags : world.globals.flags = flags
  polled : Polled before box world

theorem underway_stable {flags : Flags} : Stable OutsetRely (Underway before flags second) := by
  intro world later moves underway
  exact ⟨moves.task.flags.trans underway.flags,
    (congrFun moves.boxes second).trans underway.polled.fields,
    moves.active second underway.polled.active,
    fun other apart => (underway.polled.others other apart).outsetRely moves⟩

/-- A flag is set while the box is polled. -/
theorem assign_underway {flags later : Flags} {update : Globals → Globals}
    (sets : ∀ state : Globals, state.flags = flags → (update state).flags = later)
    (underway : Underway before flags second world) :
    OutsetMeets machine (fun _ => Underway before later second) (assign update) world := by
  apply Guarded.access _ underway_stable underway
  intro now underway _
  refine ⟨fun _ => rfl, .ret underway_stable ⟨sets _ underway.flags, underway.polled.fields,
    underway.polled.active, fun other apart => ?_⟩⟩
  exact (underway.polled.others other apart).of_eq rfl rfl rfl

/-- From the found boxes on, `start_emulate_latency` polls the second one. -/
theorem startPolling_outset (setting : SettingUp before first second fields world) :
    OutsetMeets machine
      (fun _ => Underway before (outsetFlags false true first second) second)
      (startPolling second) world := by
  apply Guarded.access _ settingUp_stable setting
  intro world setting _
  refine ⟨fun _ => rfl, ?_⟩
  have setting : SettingUp before first second fields (machine.exec (.assign fun state =>
      { state with event := some haRequestsRemoteReads }) world).2 :=
    ⟨setting.flags, setting.duration, setting.fields, setting.asleep,
      fun other apart => (setting.others other apart).of_eq rfl rfl rfl⟩
  refine setBoxFields_outset setting fun world setting => ?_
  refine (onBox_outset _ setting).bind fun _ world setting => ?_
  refine (onBox_outset _ setting).bind fun _ world setting => ?_
  refine (onBox_outset _ setting).bind fun _ world setting => ?_
  refine (onBox_outset _ setting).bind fun _ world setting => ?_
  refine setBoxFields_outset setting fun world setting => ?_
  apply Guarded.access _ settingUp_stable setting
  intro world setting _
  refine ⟨fun _ => rfl, setBoxFields_outset setting fun later setting' => ?_⟩
  have duration : (machine.device.exec .globals world).1.emulateNvmHrtimerDurationNs =
    1000000 * 100 := setting.duration
  rw [duration] at setting'
  -- The timer is armed here: from now on its callback may run at any time.
  apply Guarded.access _ settingUp_stable setting'
  intro world setting _
  have same : ∀ box, SameRunning box world (machine.exec (.hrtimerStart second) world).2 :=
    sameRunning_start second world
  refine ⟨same, ?_⟩
  have armed : Underway before (outsetFlags false false first second) second
      (machine.exec (.hrtimerStart second) world).2 := by
    refine ⟨setting.flags, setting.fields, Or.inl ?_, fun other apart => ?_⟩
    · show (Function.update world.timers second _ second).armed = true
      rw [Function.update_self]
    · exact (setting.others other apart).of_eq (Function.update_of_ne apart _ world.timers) rfl rfl
  exact assign_underway (fun state same =>
    congrArg (fun flags => { flags with latencyStarted := true }) same) armed

end Polling

/-! ## The stages -/

section Stages

variable {before world : World} {words : ImcBank → Prop}

theorem waits_stable : Stable OutsetRely (Waits before words) := by
  intro world later moves waits
  have quiet : Quiet world := fun box => (waits.left box).asleep
  have imc := congrArg World.imc (moves.quiet quiet)
  refine ⟨waits.primed.of_seen (moves.quiet quiet),
    fun box => (waits.left box).outsetRely moves, ?_⟩
  have same : later.imc = world.imc := imc
  rw [same]
  exact waits.imc

/-- The first assignments. -/
theorem setEmulateParameters_outset (quiet : Quiet before)
    (emulation : before.globals.emulationStarted = false)
    (latency : before.globals.latencyStarted = false) :
    OutsetMeets machine
      (fun _ later => Waits before (· = before.imc) later ∧ later.calls = before.calls)
      (setEmulateParameters machine) before := by
  have makes : (setEmulateParameters machine).Makes (Remote machine) :=
    ⟨remote_assign _, fun _ => ⟨remote_assign _, fun _ => ⟨remote_assign _, fun _ =>
      ⟨remote_assign _, fun _ => trivial⟩⟩⟩⟩
  refine (remote_meets makes fun box => leftAlone_self quiet box).mono ?_
  rintro _ later ⟨⟨-, same, -⟩, left⟩
  have imc := congrArg World.imc same
  have calls := congrArg World.calls same
  have primed : Primed ((setEmulateParameters machine).run machine.exec before).2 :=
    ⟨emulation, latency, rfl, rfl⟩
  exact ⟨⟨primed.of_seen same, left, imc⟩, calls⟩

theorem run_emulateNvmProcCreate :
    (emulateNvmProcCreate.run machine.exec world).1 = 0 ↔
      machine.answer world.calls .procCreate = 0 := by
  show (Program.run machine.exec (if machine.answer world.calls .procCreate = 0
    then _ else _) _).1 = 0 ↔ _
  by_cases created : machine.answer world.calls .procCreate = 0
  · rw [if_pos created]
    exact iff_of_true rfl created
  · have code : (-enoent : Int) ≠ 0 := by decide
    rw [if_neg created]
    exact iff_of_false code created

theorem emulateNvmProcCreate_outset (waits : Waits before words world)
    (calls : world.calls = before.calls) :
    OutsetMeets machine (fun ret later =>
      (ret = 0 ↔ machine.answer before.calls .procCreate = 0) ∧ Waits before words later)
      emulateNvmProcCreate world := by
  refine (mild_meets (makes_emulateNvmProcCreate (mild_kernel _) mild_registed) waits).mono ?_
  rintro ret later ⟨rfl, waits⟩
  rw [run_emulateNvmProcCreate, calls]
  exact ⟨Iff.rfl, waits⟩

theorem run_preparePlatformConfiguration_zero :
    ((preparePlatformConfiguration machine).run machine.exec world).1 = 0 ↔
      machine.smpProcessorId = world.globals.pollingCpu := by
  show (Program.run machine.exec (if machine.smpProcessorId ≠ world.globals.pollingCpu
    then _ else _) world).1 = 0 ↔ _
  by_cases here : machine.smpProcessorId = world.globals.pollingCpu
  · rw [if_neg (not_not.mpr here), Program.bind_eq, Program.run_bind, Program.bind_eq,
      Program.run_bind]
    exact iff_of_true rfl here
  · have code : (-1 : Int) ≠ 0 := by decide
    rw [if_pos here]
    exact iff_of_false code here

theorem preparePlatformConfiguration_outset (waits : Waits before words world) :
    OutsetMeets machine (fun ret later =>
      (ret = 0 ↔ machine.smpProcessorId = 6) ∧ Waits before words later)
      (preparePlatformConfiguration machine) world := by
  refine (mild_meets (makes_preparePlatformConfiguration mild_globals mild_cpumaskOfNode
    fun _ => mild_kernel _) waits).mono ?_
  rintro ret later ⟨rfl, waits'⟩
  rw [run_preparePlatformConfiguration_zero, waits.primed.polling]
  exact ⟨Iff.rfl, waits'⟩

/-- The controllers out of reach are as they were. -/
def AsBefore (machine : Machine) (before : World) (imc : ImcBank) : Prop :=
  ∀ pdev ∉ reached machine, imc pdev = before.imc pdev

theorem startEmulateBandwidth_outset (waits : Waits before (· = before.imc) world) :
    OutsetMeets machine (fun ret later => ret = 0 ∧ Waits before (AsBefore machine before) later)
      (startEmulateBandwidth machine) world := by
  refine (early_meets (makes_startEmulateBandwidth early_imc) waits).mono ?_
  rintro ret later ⟨rfl, primed, left, imc⟩
  refine ⟨by rw [startEmulateBandwidth_run], primed, left, fun pdev outside => ?_⟩
  rw [imc, startEmulateBandwidth_outside world outside, waits.imc]

/-- What `start_emulate_latency` leaves: the second box polled, or a box is missing. -/
def LatencyOutcome (machine : Machine) (before : World) (words : ImcBank → Prop) (ret : Int)
    (later : World) : Prop :=
  (ret = 0 ∧ ∃ first second, uncoreGetFirstBox machine.haBoxes 0 = some first ∧
    uncoreGetFirstBox machine.haBoxes 1 = some second ∧
      Underway before (outsetFlags false true first second) second later) ∨
  (ret ≠ 0 ∧ (uncoreGetFirstBox machine.haBoxes 0 = none ∨
    uncoreGetFirstBox machine.haBoxes 1 = none) ∧ Waits before words later)

theorem assignBoxes_waits (waits : Waits before words world) (first second : Option UncoreBox) :
    Waits before words (machine.device.exec (.assign fun state =>
      { state with haBox0 := first, haBox1 := second }) world).2 := by
  obtain ⟨emulation, latency, polling, duration⟩ := waits.primed
  exact ⟨⟨emulation, latency, polling, duration⟩, fun box => (waits.left box).of_eq rfl rfl rfl,
    waits.imc⟩

theorem startEmulateLatency_outset (waits : Waits before words world) :
    OutsetMeets machine (LatencyOutcome machine before words) (startEmulateLatency machine)
      world := by
  have fails : uncoreGetFirstBox machine.haBoxes 0 = none ∨
      uncoreGetFirstBox machine.haBoxes 1 = none → ∀ later, Waits before words later →
        OutsetMeets machine (LatencyOutcome machine before words) (.ret (-enxio)) later := by
    intro missing later waits
    have kept : OutsetMeets machine (fun _ => Waits before words) (.ret (-enxio)) later :=
      .ret waits_stable waits
    exact fun final moves => Or.inr ⟨by decide, missing, kept final moves⟩
  unfold startEmulateLatency
  cases zero : uncoreGetFirstBox machine.haBoxes 0 with
  | none =>
      refine .access _ waits_stable waits fun later waits _ => ⟨fun _ => rfl, ?_⟩
      exact fails (Or.inl zero) _ (assignBoxes_waits waits _ _)
  | some first =>
    cases one : uncoreGetFirstBox machine.haBoxes 1 with
    | none =>
        refine .access _ waits_stable waits fun later waits _ => ⟨fun _ => rfl, ?_⟩
        exact fails (Or.inr one) _ (assignBoxes_waits waits _ _)
    | some second =>
        refine .access _ waits_stable waits fun later waits _ => ⟨fun _ => rfl, ?_⟩
        have assigned : Waits before words (machine.device.exec (.assign fun state =>
            { state with haBox0 := some first, haBox1 := some second }) later).2 :=
          assignBoxes_waits waits _ _
        have flags := congrArg₂ (fun emulation latency =>
          Flags.mk emulation latency (some first) (some second))
          assigned.primed.emulation assigned.primed.latency
        have setting : SettingUp before first second _ _ :=
          ⟨flags, assigned.primed.duration, rfl, (assigned.left second).asleep,
            fun other _ => assigned.left other⟩
        refine (startPolling_outset setting).bind fun _ later underway => ?_
        have polled : OutsetMeets machine
            (fun _ => Underway before (outsetFlags false true first second) second)
            (.ret (0 : Int)) later := .ret underway_stable underway
        exact fun final moves => Or.inl ⟨rfl, first, second, zero, one, polled final moves⟩

/-! ## The whole start -/

/-- Either the emulation is started, or nothing of it is left. -/
def Outcome (machine : Machine) (before later : World) : Prop :=
  (∀ first second, Startable machine before first second →
    later.globals.flags = outsetFlags true true first second ∧ Polled before second later) ∧
  ((¬ ∃ first second, Startable machine before first second) → Undone before later)

/-- No enable bit is set that was not. -/
def NoneEnabled (before : World) (imc : ImcBank) : Prop :=
  ∀ pdev, ∀ addr ∈ dimmOffsets, (imc pdev addr).getLsbD 15 = true →
    before.thrtPerEn (pdev, addr) = true

theorem Waits.mono {weaker : ImcBank → Prop} (waits : Waits before words world)
    (implies : ∀ imc, words imc → weaker imc) : Waits before weaker world :=
  ⟨waits.primed, waits.left, implies _ waits.imc⟩

/-- What is left to undo of a failed start leaves nothing of it. -/
theorem fails_outcome {program : UncoreProgram Unit} (makes : program.Makes (Mild machine))
    (refused : ∀ first second, ¬ Startable machine before first second)
    (waits : Waits before (NoneEnabled before) world) :
    OutsetMeets machine (fun _ => Outcome machine before) program world := by
  refine (mild_meets makes waits).mono fun _ later ended => ⟨fun first second startable => ?_,
    fun _ => ?_⟩
  · exact absurd startable (refused first second)
  · have waits := ended.2
    exact ⟨waits.primed.emulation, waits.primed.latency, waits.left, waits.imc⟩

/-- Before the bandwidth model is started the controllers are untouched. -/
theorem Waits.noneEnabled (waits : Waits before (· = before.imc) world) :
    Waits before (NoneEnabled before) world := by
  refine waits.mono fun imc same pdev addr _ set => ?_
  rw [same] at set
  exact set

theorem finishEmulateBandwidth_outset (waits : Waits before (AsBefore machine before) world) :
    OutsetMeets machine (fun _ => Waits before (NoneEnabled before))
      (finishEmulateBandwidth machine) world := by
  refine (early_meets (makes_finishEmulateBandwidth early_imc) waits).mono ?_
  rintro _ later ⟨-, ended⟩
  refine ended.mono fun imc same pdev addr dimm set => ?_
  rw [same] at set
  exact finishEmulateBandwidth_bit waits.imc pdev dimm set

theorem startEmulateNvm_outset (quiet : Quiet before)
    (emulation : before.globals.emulationStarted = false)
    (latency : before.globals.latencyStarted = false) :
    OutsetMeets machine (fun _ => Outcome machine before) (startEmulateNvm machine) before := by
  have remove : emulateNvmProcRemove.Makes (Mild machine) :=
    makes_emulateNvmProcRemove mild_globals mild_procRemove
  have restore : (restorePlatformConfiguration machine).Makes (Mild machine) :=
    makes_restorePlatformConfiguration mild_globals mild_cpumaskOfNode fun _ => mild_kernel _
  have nothing : (Program.ret () : UncoreProgram Unit).Makes (Mild machine) := trivial
  -- Each stage adds what it has checked to what those before it have.
  let created : Prop := machine.answer before.calls .procCreate = 0
  let here : Prop := machine.smpProcessorId = 6
  have create : ∀ state, Waits before (· = before.imc) state ∧ state.calls = before.calls →
      OutsetMeets machine (fun ret later =>
        (ret = 0 ↔ created) ∧ Waits before (· = before.imc) later) emulateNvmProcCreate state :=
    fun _ held => emulateNvmProcCreate_outset held.1 held.2
  have prepare : ∀ state, ((0 : Int) = 0 ↔ created) ∧ Waits before (· = before.imc) state →
      OutsetMeets machine (fun ret later =>
        created ∧ (ret = 0 ↔ here) ∧ Waits before (· = before.imc) later)
        (preparePlatformConfiguration machine) state :=
    fun _ held => (preparePlatformConfiguration_outset held.2).mono
      fun _ _ ended => ⟨held.1.mp rfl, ended⟩
  have limit : ∀ state, created ∧ ((0 : Int) = 0 ↔ here) ∧ Waits before (· = before.imc) state →
      OutsetMeets machine (fun ret later =>
        (created ∧ here) ∧ ret = 0 ∧ Waits before (AsBefore machine before) later)
        (startEmulateBandwidth machine) state :=
    fun _ held => (startEmulateBandwidth_outset held.2.2).mono
      fun _ _ ended => ⟨⟨held.1, held.2.1.mp rfl⟩, ended⟩
  have find : ∀ state, (created ∧ here) ∧ (0 : Int) = 0 ∧
      Waits before (AsBefore machine before) state →
        OutsetMeets machine (fun ret later =>
          (created ∧ here) ∧ LatencyOutcome machine before (AsBefore machine before) ret later)
          (startEmulateLatency machine) state :=
    fun _ held => (startEmulateLatency_outset held.2.2).mono fun _ _ ended => ⟨held.1, ended⟩
  apply startEmulateNvm_stages (setEmulateParameters_outset quiet emulation latency) create
    _ prepare _ limit _ find
  · rintro ret later failed ⟨missing, latency⟩
    rcases latency with ⟨zero, _⟩ | ⟨_, gone, waits⟩
    · exact absurd zero failed
    refine (finishEmulateBandwidth_outset waits).bind fun _ world waits => ?_
    refine fails_outcome (restore.bind fun _ => remove) (fun first second startable => ?_) waits
    rcases gone with zero | one
    · exact Option.some_ne_none first (startable.zero.symm.trans zero)
    · exact Option.some_ne_none second (startable.one.symm.trans one)
  · rintro later ⟨⟨proc, polling⟩, latency⟩
    rcases latency with ⟨_, first, second, zero, one, underway⟩ | ⟨failed, _⟩
    · have ends : OutsetMeets machine
          (fun _ => Underway before (outsetFlags true true first second) second)
          (assign fun state => { state with emulationStarted := true }) later :=
        assign_underway (fun state same =>
          congrArg (fun flags => { flags with emulationStarted := true }) same) underway
      refine ends.mono fun _ final underway => ⟨fun first' second' startable => ?_, fun none => ?_⟩
      · obtain rfl := Option.some.inj (startable.zero.symm.trans zero)
        obtain rfl := Option.some.inj (startable.one.symm.trans one)
        exact ⟨underway.flags, underway.polled⟩
      · exact absurd ⟨first, second, proc, polling, zero, one⟩ none
    · exact absurd rfl failed
  · rintro ret later failed ⟨proc, waits⟩
    exact fails_outcome nothing (fun _ _ startable => failed (proc.mpr startable.proc))
      waits.noneEnabled
  · rintro ret later failed ⟨_, polling, waits⟩
    exact fails_outcome remove (fun _ _ startable => failed (polling.mpr startable.polling))
      waits.noneEnabled
  · rintro ret later failed ⟨_, zero, _⟩
    exact absurd zero failed

end Stages

/-! ## Whole runs -/

/-- Every thread meets its obligation while `start_emulate_nvm` runs. -/
abbrev StartMeets (machine : Machine) (post : World → Prop) (pool : ModulePool) : Prop :=
  Pool.Meets machine.device outsetRely outsetGuar (finishPost post) (fun _ => True) pool

theorem startMeets_reaches {post : World → Prop} {pool later : ModulePool}
    (meets : StartMeets machine post pool)
    (reaches : Pool.Reaches machine.device Arrives Expires pool later) :
    StartMeets machine post later := by
  refine Pool.Meets.reaches outset_compatible ?_ meets reaches
  intro pool thread program after meets expires
  obtain ⟨box, rfl, armed, rfl, rfl⟩ := expires.cases
  have elsewhere : ∀ other ≠ box,
      Function.update pool.state.timers box ⟨false, true⟩ other = pool.state.timers other :=
    fun other apart => Function.update_of_ne apart _ _
  have awake : ¬ Asleep box pool.state := by
    intro asleep
    rw [asleep] at armed
    exact absurd armed (by decide)
  refine ⟨fun thread => ?_, trivial⟩
  by_cases same : thread = some box
  · subst same
    dsimp only
    rw [Function.update_self]
    exact runHrtimer_outset _ (by simp)
  · dsimp only
    rw [Function.update_of_ne same]
    apply (meets.guarded thread).of_rely (.single _)
    cases thread with
    | some other =>
        exact congrArg Hrtimer.running
          (elsewhere other fun equal => same (congrArg some equal))
    | none =>
        refine ⟨⟨rfl, fun other asleep => ?_⟩, rfl, fun other active => ?_, fun quiet => ?_⟩
        · have apart : other ≠ box := fun equal => awake (equal ▸ asleep)
          exact ⟨(elsewhere other apart).trans asleep, Or.inl rfl⟩
        · by_cases here : other = box
          · rw [here]
            refine Or.inr ?_
            dsimp only
            rw [Function.update_self]
          · rw [Active]
            dsimp only
            rwa [elsewhere other here]
        · exact absurd (quiet box) awake

/-- **All or nothing.** Once `start_emulate_nvm` has returned, whatever events came and
wherever ticks of the timer it armed have got to: if the file could be created, the module is
loaded on the polling processor and both home agents were found, both flags are set and the
second home agent is polled, its timer armed or its callback running; otherwise no flag is set,
no timer is armed, only events have reached the boxes, and no throttle is enabled that was
not. -/
theorem startEmulateNvm_allOrNothing (machine : Machine) {world : World} {pool : ModulePool}
    (quiet : Quiet world) (emulation : world.globals.emulationStarted = false)
    (latency : world.globals.latencyStarted = false)
    (starts : Pool.Reaches machine.device Arrives Expires
      (calling (idlePool world) (startEmulateNvm machine)) pool)
    (returned : pool.threads none = .ret ()) : Outcome machine world pool.state := by
  have begun : StartMeets machine (Outcome machine world)
      (calling (idlePool world) (startEmulateNvm machine)) := by
    refine ⟨fun thread => ?_, trivial⟩
    cases thread with
    | none =>
        rw [calling_task]
        exact startEmulateNvm_outset quiet emulation latency
    | some box => exact fun _ _ => trivial
  have obligation := (startMeets_reaches begun starts).guarded none
  rw [returned] at obligation
  exact obligation pool.state .refl

/-- On two sockets, with no event on the way, the emulation is started. -/
theorem startEmulateNvm_allOrNothing_twoAgents :
    agentsWorld.globals.flags = outsetFlags true true (haBox 0) (haBox 1) ∧
      Polled quietWorld (haBox 1) agentsWorld :=
  (startEmulateNvm_allOrNothing twoAgents (fun _ => rfl) rfl rfl
    (calling_reaches agentsWorld_starts) (ranTo_returned _ _)).1 (haBox 0) (haBox 1)
      ⟨rfl, rfl, by decide, by decide⟩

end NvmEmulator.Emulate
