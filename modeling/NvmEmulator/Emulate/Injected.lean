/-
# What reads cost

The emulation charges the emulating CPU for the reads that arrive at the second home agent. The
pieces are elsewhere: a tick reads what the counter held, and wastes that many times the
latency in whole microseconds. Here they are put together over whole runs, from the start of
the emulation on, with the ticks as threads of their own that come at any time. Between two
ticks the CPU has never wasted more than what the reads cost that were counted and are no
longer in the counter, and at most 800 ns less for each delay.

While it starts the task relies on the timers being quiet, and a tick on the task keeping to
its flags. Both see a smaller world than there is, so what is known of a tick alone with events
is carried over.
-/

import NvmEmulator.Semantics.Simulation
import NvmEmulator.Emulate.Outset

namespace NvmEmulator.Emulate

open Relation NvmEmulator.Kernel NvmEmulator.Semantics NvmEmulator.Uncore

variable {machine : Machine}

/-! ## The balance -/

/-- Every call to the emulating CPU is made. -/
def CallsSucceed (machine : Machine) : Prop :=
  ∀ calls, machine.answer calls (.smpCallFunctionSingle 0) = 0

/-- The time wasted since a state, against so many reads. -/
structure Charged (machine : Machine) (start : World) (reads : Nat) (world : World) : Prop where
  most : delayedNs 0 world ≤ delayedNs 0 start + 200 * reads
  least : CallsSucceed machine → delayedNs 0 start + 200 * reads + 800 * start.delays.length ≤
    delayedNs 0 world + 800 * world.delays.length

/-- Of the events that the box has counted, the CPU was charged for those that are not in the
counter. -/
structure Injected (machine : Machine) (start : World) (box : UncoreBox) (world : World) :
    Prop where
  most : delayedNs 0 world + 200 * (counterValue box (world.units box).regs).toNat ≤
    delayedNs 0 start + 200 * (world.units box).arrived
  least : CallsSucceed machine →
    delayedNs 0 start + 200 * (world.units box).arrived + 800 * start.delays.length ≤
      delayedNs 0 world + 200 * (counterValue box (world.units box).regs).toNat +
        800 * world.delays.length

/-- The box is polled, and the balance is drawn. -/
structure Balanced (machine : Machine) (start : World) (box : UncoreBox) (world : World) :
    Prop where
  function : (world.boxes box).function = .emulateNvmHrtimer
  parameters : Parameters world.globals
  due : ∃ reads, Running box reads (world.units box) ∧ Charged machine start reads world

/-- Between ticks the balance is drawn; no other timer is armed. -/
structure Ledgered (machine : Machine) (start : World) (polled : UncoreBox) (world : World) :
    Prop where
  others : ∀ box ≠ polled, Asleep box world
  balanced : (world.timers polled).armed = true → (world.timers polled).running = false ∧
    Balanced machine start polled world

/-! ## What the threads rely on -/

/-- At most one event arrives at the box. -/
def EventAt (box : UncoreBox) (before after : World) : Prop :=
  after.units box = before.units box ∨
    ((before.units box).window + 1 < 2 ^ 48 ∧
      after.units box = (before.units box).arrive box)

/-- What a tick sees of the globals. -/
def tickGlobals (state : Globals) : BitVec 64 × Nat × BitVec 64 :=
  (state.readLatencyDeltaNs, state.emulateNvmCpu, state.procCounts)

/-- While the tick of the box runs, it is left to its events. -/
structure TickPeace (box : UncoreBox) (before after : World) : Prop where
  timers : after.timers = before.timers
  unit : EventAt box before after
  boxes : after.boxes = before.boxes
  globals : tickGlobals after.globals = tickGlobals before.globals
  calls : after.calls = before.calls
  delays : after.delays = before.delays

/-- While no timer is armed, only events come. -/
structure TaskPeace (box : UncoreBox) (before after : World) : Prop where
  same : seen after = seen before
  unit : EventAt box before after

def injectedRely (polled : UncoreBox) : Task → World → World → Prop
  | none => fun before after => Quiet before → TaskPeace polled before after
  | some box => fun before after => box = polled → (before.timers polled).running = true →
      TickPeace polled before after

def injectedGuar (machine : Machine) (start : World) (polled : UncoreBox) :
    Task → World → World → Prop
  | none => fun before after =>
      ((before.timers polled).running = true → TickPeace polled before after) ∧
        (Ledgered machine start polled before → Ledgered machine start polled after)
  | some box => fun before after =>
      (box = polled ∧ (before.timers polled).running = true) ∧
        (Ledgered machine start polled before → Ledgered machine start polled after)

theorem Arrives.eventAt {before after : World} (arrives : Arrives before after)
    (box : UncoreBox) : EventAt box before after := by
  obtain ⟨other, _, room⟩ := arrives
  by_cases same : box = other
  · subst same
    exact Or.inr ⟨room, Function.update_self box _ before.units⟩
  · exact Or.inl (Function.update_of_ne same _ before.units)

theorem parameters_of_tick {state other : Globals} (same : tickGlobals state = tickGlobals other)
    (parameters : Parameters other) : Parameters state :=
  ⟨(congrArg Prod.fst same).trans parameters.1,
    (congrArg (fun seen => seen.2.1) same).trans parameters.2⟩

section Balance

variable {start before after world : World} {polled : UncoreBox}

/-- An event finds the box counting. -/
theorem EventAt.running {reads : Nat} (counting : CountingBox polled)
    (event : EventAt polled before after) (running : Running polled reads (before.units polled)) :
    Running polled reads (after.units polled) := by
  rcases event with same | ⟨room, arrives⟩
  · rw [same]
    exact running
  · rw [arrives]
    exact running.arrive counting room

theorem Charged.of_delays {reads : Nat} (charged : Charged machine start reads before)
    (delays : after.delays = before.delays) : Charged machine start reads after := by
  obtain ⟨most, least⟩ := charged
  have spent : delayedNs 0 after = delayedNs 0 before := by rw [delayedNs, delayedNs, delays]
  rw [← spent] at most
  refine ⟨most, fun succeed => ?_⟩
  rw [spent, delays]
  exact least succeed

/-- No other timer is armed than that of the polled box. -/
theorem Ledgered.armed_box {box : UncoreBox} (ledgered : Ledgered machine start polled world)
    (armed : (world.timers box).armed = true) : box = polled := by
  by_contra apart
  rw [ledgered.others box apart] at armed
  exact absurd armed (by decide)

/-- The balance in terms of what has arrived. -/
theorem Balanced.injected (balanced : Balanced machine start polled world) :
    Injected machine start polled world := by
  obtain ⟨-, -, reads, running, most, least⟩ := balanced
  have arrived := running.balance
  refine ⟨by omega, fun succeed => ?_⟩
  have short := least succeed
  omega

theorem Ledgered.arrives (counting : CountingBox polled)
    (ledgered : Ledgered machine start polled before) (arrives : Arrives before after) :
    Ledgered machine start polled after := by
  have event := arrives.eventAt polled
  cases arrives with
  | event box room =>
      refine ⟨ledgered.others, fun armed => ?_⟩
      obtain ⟨idle, function, parameters, reads, running, charged⟩ := ledgered.balanced armed
      exact ⟨idle, function, parameters, reads, event.running counting running,
        charged.of_delays rfl⟩

theorem injected_compatible (counting : CountingBox polled) :
    Pool.Compatible (injectedRely polled) (injectedGuar machine start polled)
      (Ledgered machine start polled) Arrives where
  thread
    | none, none, other, _, _, _ => absurd rfl other
    | none, some _, _, _, _, guaranteed => fun _ => guaranteed.1
    | some _, none, _, before, after, guaranteed => fun quiet => by
        have running := guaranteed.1.2
        rw [quiet polled] at running
        exact absurd running (by decide)
    | some _, some _, other, _, _, guaranteed => fun same =>
        absurd (congrArg some (same.trans guaranteed.1.1.symm)) other
  environment
    | none, before, after, arrives => fun _ => ⟨by cases arrives with
        | event box room => rfl, arrives.eventAt polled⟩
    | some _, before, after, arrives => fun _ _ => by
        have unit := arrives.eventAt polled
        cases arrives with
        | event box room => exact ⟨rfl, unit, rfl, rfl, rfl, rfl⟩
  kept
    | none, _, _, guaranteed => guaranteed.2
    | some _, _, _, guaranteed => guaranteed.2
  keptByEnvironment _ _ arrives ledgered := ledgered.arrives counting arrives

end Balance

/-! ## The tick -/

section Tick

variable {start world : World} {polled : UncoreBox}

/-- What a tick is charged. -/
theorem Charged.tick {reads : Nat} {counts : BitVec 64} {before after : World}
    (charged : Charged machine start reads before) (narrow : counts.toNat < 2 ^ 48)
    (delays : after.delays = delaysAfter
      (machine.answer before.calls (.smpCallFunctionSingle 0) == 0)
      (countsToDelayNs 200 counts) 0 before.delays) :
    Charged machine start (reads + counts.toNat) after := by
  have wasted := delayedNs_delaysAfter narrow _ 0 delays
  obtain ⟨most, least⟩ := charged
  refine ⟨by omega, fun succeed => ?_⟩
  rw [succeed before.calls, beq_self_eq_true] at wasted delays
  have length : after.delays.length = before.delays.length + 1 := by
    rw [delays]
    rfl
  have some : undelivered counts true = counts.toNat % 5 := rfl
  have earlier := least succeed
  omega

/-- The callback of the box is at work, and the balance was drawn when it began. -/
structure Ticking (machine : Machine) (start : World) (polled : UncoreBox) (world : World) :
    Prop where
  others : ∀ box ≠ polled, Asleep box world
  timer : world.timers polled = ⟨false, true⟩
  balanced : Balanced machine start polled world

theorem Ticking.ledgered (others : ∀ box ≠ polled, Asleep box world)
    (timer : world.timers polled = ⟨false, true⟩) : Ledgered machine start polled world := by
  refine ⟨others, fun armed => ?_⟩
  rw [timer] at armed
  exact absurd armed (by decide)

theorem ticking_stable (counting : CountingBox polled) :
    Stable (injectedRely polled (some polled)) (Ticking machine start polled) := by
  intro before after moves ticking
  have peace : TickPeace polled before after := moves rfl (by rw [ticking.timer])
  obtain ⟨function, parameters, reads, running, charged⟩ := ticking.balanced
  refine ⟨fun box apart => ?_, ?_, by rw [peace.boxes]; exact function,
    parameters_of_tick peace.globals parameters, reads, peace.unit.running counting running,
    charged.of_delays peace.delays⟩
  · exact (congrFun peace.timers box).trans (ticking.others box apart)
  · exact (congrFun peace.timers polled).trans ticking.timer

/-- The world of a tick, and one in which there is nothing but the tick and events. -/
structure SameTick (polled : UncoreBox) (world small : World) : Prop where
  others : ∀ box ≠ polled, Asleep box world
  timer : world.timers polled = ⟨false, true⟩
  function : (world.boxes polled).function = .emulateNvmHrtimer
  unit : world.units polled = small.units polled
  globals : tickGlobals world.globals = tickGlobals small.globals
  calls : world.calls = small.calls
  delays : world.delays = small.delays

theorem sameTick_follows :
    Follows (injectedRely polled (some polled)) Arrives (SameTick polled) := by
  intro before after small same moves
  have peace : TickPeace polled before after := moves rfl (by rw [same.timer])
  have others : ∀ box ≠ polled, Asleep box after :=
    fun box apart => (congrFun peace.timers box).trans (same.others box apart)
  have timer := (congrFun peace.timers polled).trans same.timer
  have function : (after.boxes polled).function = .emulateNvmHrtimer := by
    rw [peace.boxes]
    exact same.function
  have globals := peace.globals.trans same.globals
  have calls := peace.calls.trans same.calls
  have delays := peace.delays.trans same.delays
  rcases peace.unit with unmoved | ⟨room, event⟩
  · exact ⟨small, .refl, others, timer, function, unmoved.trans same.unit, globals, calls, delays⟩
  · rw [same.unit] at room event
    refine ⟨_, .single (.event polled small room), others, timer, function, ?_, globals, calls,
      delays⟩
    exact event.trans (Function.update_self polled _ small.units).symm

/-- The accesses of a tick. -/
inductive TickAccess (polled : UncoreBox) : UncoreOp → Prop
  | pci (op : RegOp 32) : TickAccess polled (.pci polled op)
  | globals : TickAccess polled .globals
  | counts (value : BitVec 64) :
      TickAccess polled (.assign fun state => { state with procCounts := value })
  | jiffies : TickAccess polled (.assign fun state =>
      { state with hrtimerJiffies := state.hrtimerJiffies + 1 })
  | call (cpu : Nat) : TickAccess polled (.kernel (.smpCallFunctionSingle cpu))
  | delay (cpu : Nat) (usecs : BitVec 64) : TickAccess polled (.udelay cpu usecs)

/-- Of the globals a tick looks at two. -/
def SameAnswer : (op : UncoreOp) → op.Res → op.Res → Prop
  | .globals, first, second => (first : Globals).readLatencyDeltaNs =
      (second : Globals).readLatencyDeltaNs ∧
        (first : Globals).emulateNvmCpu = (second : Globals).emulateNvmCpu
  | _, first, second => first = second

theorem emulateNvmHrtimer_respects : (emulateNvmHrtimer polled).Respects SameAnswer := by
  have box : ∀ {α : Type} (program : RegProgram 32 α),
      (onBox polled program).Respects SameAnswer := fun program =>
    .of_makes (makes_onBox (fun _ _ _ same => same) program)
  have assigned : ∀ update, (assign update).Respects SameAnswer := fun _ =>
    ⟨fun _ _ _ => rfl, fun _ => trivial⟩
  have called : ∀ (cpu : Nat) (delayNs : BitVec 64),
      (smpCallFunctionSingle cpu (emulateNvmFunc delayNs)).Respects SameAnswer := fun cpu delayNs =>
    .of_makes (makes_smpCallFunctionSingle (fun _ _ same => same)
      (makes_access fun _ _ same => same))
  refine (box _).bind fun _ => (box _).bind fun counts => (assigned _).bind fun _ => ?_
  refine ⟨fun first second same => ?_, fun state => ?_⟩
  · obtain ⟨delta, cpu⟩ := same
    show (smpCallFunctionSingle first.emulateNvmCpu
      (emulateNvmFunc (countsToDelayNs first.readLatencyDeltaNs counts))).bind _ = _
    rw [delta, cpu]
    rfl
  · show ((smpCallFunctionSingle state.emulateNvmCpu
      (emulateNvmFunc (countsToDelayNs state.readLatencyDeltaNs counts))).bind _).Respects _
    refine (called _ _).bind fun _ => ?_
    refine (box _).bind fun _ => (box _).bind fun _ => ?_
    exact (assigned _).bind fun _ => trivial

theorem emulateNvmHrtimer_makes : (emulateNvmHrtimer polled).Makes (TickAccess polled) :=
  makes_emulateNvmHrtimer .pci .globals .counts .jiffies .call .delay

/-- An access of the tick is the same in both worlds. -/
theorem tickAccess_acts {op : UncoreOp} (allowed : TickAccess polled op) {world small : World}
    (same : SameTick polled world small) :
    machine.device.ready op small ∧
      SameAnswer op (machine.device.exec op world).1 (machine.device.exec op small).1 ∧
      SameTick polled (machine.device.exec op world).2 (machine.device.exec op small).2 ∧
      injectedGuar machine start polled (some polled) world (machine.device.exec op world).2 := by
  have running : (world.timers polled).running = true := by rw [same.timer]
  have kept : ∀ {later small' : World}, later.timers = world.timers → later.boxes = world.boxes →
      later.units polled = small'.units polled →
      tickGlobals later.globals = tickGlobals small'.globals → later.calls = small'.calls →
      later.delays = small'.delays → SameTick polled later small' ∧
        injectedGuar machine start polled (some polled) world later := by
    intro later small' timers boxes unit globals calls delays
    have others : ∀ box ≠ polled, Asleep box later :=
      fun box apart => (congrFun timers box).trans (same.others box apart)
    have timer := (congrFun timers polled).trans same.timer
    refine ⟨⟨others, timer, ?_, unit, globals, calls, delays⟩, ⟨rfl, running⟩,
      fun _ => Ticking.ledgered others timer⟩
    rw [boxes]
    exact same.function
  have delta := congrArg Prod.fst same.globals
  have cpu := congrArg (fun state => state.2.1) same.globals
  have calls := same.calls
  have delays := same.delays
  cases allowed with
  | pci op =>
      refine ⟨trivial, ?_, kept rfl rfl ?_ same.globals calls delays⟩
      · show ((world.units polled).exec polled op).1 = _
        rw [same.unit]
        rfl
      · show Function.update world.units polled _ polled =
          Function.update small.units polled _ polled
        rw [Function.update_self, Function.update_self, same.unit]
  | globals => exact ⟨trivial, ⟨delta, cpu⟩, kept rfl rfl same.unit same.globals calls delays⟩
  | counts value =>
      have noted := congrArg (fun state : BitVec 64 × Nat × BitVec 64 =>
        (state.1, state.2.1, value)) same.globals
      exact ⟨trivial, rfl, kept rfl rfl same.unit noted calls delays⟩
  | jiffies => exact ⟨trivial, rfl, kept rfl rfl same.unit same.globals calls delays⟩
  | call target =>
      refine ⟨trivial, ?_, kept rfl rfl same.unit same.globals (congrArg (· + 1) calls) delays⟩
      show machine.answer world.calls _ = machine.answer small.calls _
      rw [calls]
  | delay target usecs =>
      exact ⟨trivial, rfl, kept rfl rfl same.unit same.globals calls
        (congrArg ((target, usecs) :: ·) delays)⟩

/-- A tick adds what it charges to the balance. -/
theorem emulateNvmHrtimer_injected (counting : CountingBox polled)
    (ticking : Ticking machine start polled world) :
    Guarded machine.device (injectedRely polled (some polled))
      (injectedGuar machine start polled (some polled))
      (fun _ => Ticking machine start polled) (emulateNvmHrtimer polled) world := by
  obtain ⟨others, timer, function, parameters, reads, running, charged⟩ := ticking
  have alone : UnderEvents machine _ (emulateNvmHrtimer polled) world :=
    (tick_underEvents counting running).both (tick_account counting ⟨parameters, rfl, rfl⟩)
  have same : SameTick polled world world := ⟨others, timer, function, rfl, rfl, rfl, rfl⟩
  refine (alone.simulate emulateNvmHrtimer_respects emulateNvmHrtimer_makes sameTick_follows
    (fun op allowed _ _ same _ => tickAccess_acts allowed same) same).mono ?_
  rintro _ later ⟨last, same, owed, narrow, account⟩
  refine ⟨same.others, same.timer, same.function, parameters_of_tick same.globals account.known,
    _, ?_, charged.tick narrow (same.delays.trans account.delays)⟩
  rw [same.unit]
  exact owed

/-- A callback is charged from its launch to its return. -/
theorem runHrtimer_injected (counting : CountingBox polled)
    (ticking : Ticking machine start polled world) :
    Guarded machine.device (injectedRely polled (some polled))
      (injectedGuar machine start polled (some polled)) (fun _ _ => True)
      (runHrtimer polled .emulateNvmHrtimer) world := by
  apply Guarded.bind ((emulateNvmHrtimer_injected counting ticking).ends
    (hrtimerFunction_ends polled .emulateNvmHrtimer))
  rintro again later ⟨rfl, ticking⟩
  apply Guarded.access _ (ticking_stable counting) ticking
  intro later ticking _
  have running : (later.timers polled).running = true := by rw [ticking.timer]
  refine ⟨⟨⟨rfl, running⟩, fun _ => ⟨fun other apart => ?_, fun _ => ⟨?_, ?_⟩⟩⟩, fun _ _ => trivial⟩
  · exact (Function.update_of_ne apart _ later.timers).trans (ticking.others other apart)
  · show (Function.update later.timers polled _ polled).running = false
    rw [Function.update_self]
  · obtain ⟨function, parameters, reads, owed, charged⟩ := ticking.balanced
    exact ⟨function, parameters, reads, owed, charged.of_delays rfl⟩

end Tick

/-! ## The start -/

section Start

variable {start world : World} {polled : UncoreBox} {known : World → Prop} {owes : PmonUnit → Prop}

/-- The obligation of the module's task. -/
abbrev LedgerMeets (machine : Machine) (start : World) (polled : UncoreBox) {α : Type}
    (post : α → World → Prop) : UncoreProgram α → World → Prop :=
  Guarded machine.device (injectedRely polled none) (injectedGuar machine start polled none) post

/-- No timer is armed; what is known of the rest and owed by the box. -/
structure Poised (known : World → Prop) (polled : UncoreBox) (owes : PmonUnit → Prop)
    (world : World) : Prop where
  quiet : Quiet world
  known : known (seen world)
  owes : owes (world.units polled)

/-- The parameters are set, and nothing is wasted yet. -/
def Ready (start world : World) : Prop :=
  Parameters world.globals ∧ world.delays = start.delays

/-- The box's timer calls the emulator, too. -/
def Installed (start : World) (polled : UncoreBox) (world : World) : Prop :=
  Ready start world ∧ (world.boxes polled).function = .emulateNvmHrtimer

theorem quiet_permits {before after : World} (still : Quiet before) (quiet : Quiet after) :
    injectedGuar machine start polled none before after := by
  refine ⟨fun running => ?_, fun _ => ⟨fun box _ => quiet box, fun armed => ?_⟩⟩
  · rw [still polled] at running
    exact absurd running (by decide)
  · rw [quiet polled] at armed
    exact absurd armed (by decide)

theorem Poised.peace {before after : World} (poised : Poised known polled owes before)
    (peace : TaskPeace polled before after) (owes' : PmonUnit → Prop)
    (owed : owes' (after.units polled)) : Poised known polled owes' after := by
  have timers := congrArg World.timers peace.same
  refine ⟨fun box => (congrFun timers box).trans (poised.quiet box), ?_, owed⟩
  rw [peace.same]
  exact poised.known

theorem poised_stable (undisturbed : Undisturbed polled owes) :
    Stable (injectedRely polled none) (Poised known polled owes) := by
  intro before after moves poised
  have peace : TaskPeace polled before after := moves poised.quiet
  apply poised.peace peace owes
  rcases peace.unit with same | ⟨room, event⟩
  · rw [same]
    exact poised.owes
  · rw [event]
    exact undisturbed _ room poised.owes

/-- An access that leaves timers and registers alone. -/
theorem poised_access {α : Type} {post : α → World → Prop} {op : UncoreOp}
    {follow : op.Res → UncoreProgram α} (later : World → Prop)
    (undisturbed : Undisturbed polled owes) (poised : Poised known polled owes world)
    (timers : ∀ world, (machine.exec op world).2.timers = world.timers)
    (units : ∀ world, (machine.exec op world).2.units = world.units)
    (learns : ∀ world, known (seen world) → later (seen (machine.exec op world).2))
    (rest : ∀ answer after, Poised later polled owes after →
      LedgerMeets machine start polled post (follow answer) after) :
    LedgerMeets machine start polled post ((access op).bind follow) world := by
  apply Guarded.access _ (poised_stable undisturbed) poised
  intro world poised _
  have quiet : Quiet (machine.device.exec op world).2 :=
    fun box => (congrFun (timers world) box).trans (poised.quiet box)
  refine ⟨quiet_permits poised.quiet quiet, rest _ _ ⟨quiet, learns world poised.known, ?_⟩⟩
  have same : (machine.device.exec op world).2.units = world.units := units world
  rw [same]
  exact poised.owes

/-- What a program does to the box while only events come is what it does in the task. -/
theorem onBox_poised {α : Type} {program : RegProgram 32 α} {after : PmonUnit → Prop}
    (alone : UnderEvents machine (fun _ => Here polled after fun _ => True)
      (onBox polled program) world) (poised : Poised known polled owes world) :
    LedgerMeets machine start polled (fun _ => Poised known polled after) (onBox polled program)
      world := by
  let related : World → World → Prop := fun world small =>
    Poised known polled (· = small.units polled) world
  have follows : Follows (injectedRely polled none) Arrives related := by
    intro before after small same moves
    have peace : TaskPeace polled before after := moves same.quiet
    have unit : before.units polled = small.units polled := same.owes
    rcases peace.unit with unmoved | ⟨room, event⟩
    · exact ⟨small, .refl, same.peace peace _ (unmoved.trans unit)⟩
    · rw [unit] at room event
      refine ⟨_, .single (.event polled small room), same.peace peace _ ?_⟩
      exact event.trans (Function.update_self polled _ small.units).symm
  have makes : (onBox polled program).Makes fun op => ∃ reg, op = .pci polled reg :=
    makes_onBox (fun reg => ⟨reg, rfl⟩) program
  have respects : (onBox polled program).Respects fun _ first second => first = second :=
    .of_makes (makes_onBox (fun _ _ _ same => same) program)
  have begins : related world world := ⟨poised.quiet, poised.known, rfl⟩
  refine (alone.simulate respects makes follows ?_ begins).mono ?_
  · rintro _ ⟨reg, rfl⟩ state small same _
    have unit : state.units polled = small.units polled := same.owes
    refine ⟨trivial, ?_, ⟨same.quiet, same.known, ?_⟩, quiet_permits same.quiet same.quiet⟩
    · show ((state.units polled).exec polled reg).1 = _
      rw [unit]
      rfl
    · show Function.update state.units polled _ polled = Function.update small.units polled _ polled
      rw [Function.update_self, Function.update_self, unit]
  · rintro _ later ⟨last, same, owed⟩
    have unit : later.units polled = last.units polled := same.owes
    refine ⟨same.quiet, same.known, ?_⟩
    rw [unit]
    exact owed.1

/-- Where the timer is armed, the balance begins. -/
theorem hrtimerStart_ledgered
    (poised : Poised (Installed start polled) polled (Running polled 0) world) :
    Ledgered machine start polled (machine.exec (.hrtimerStart polled) world).2 := by
  obtain ⟨quiet, ⟨⟨parameters, delays⟩, function⟩, running⟩ := poised
  have wasted : delayedNs 0 world = delayedNs 0 start := by
    rw [delayedNs, delayedNs, show world.delays = start.delays from delays]
  have charged : Charged machine start 0 world := by
    refine ⟨wasted.le, fun _ => ?_⟩
    rw [wasted, show world.delays = start.delays from delays]
    exact Nat.le_refl _
  refine ⟨fun box apart => ?_, fun _ => ⟨?_, function, parameters, 0, running,
    charged.of_delays rfl⟩⟩
  · exact (Function.update_of_ne apart _ world.timers).trans (quiet box)
  · show (Function.update world.timers polled _ polled).running = false
    rw [Function.update_self, quiet polled]

/-- An assignment that no tick sees. -/
def Unseen (op : UncoreOp) : Prop :=
  ∃ update, op = .assign update ∧ ∀ state, tickGlobals (update state) = tickGlobals state

/-- Once the timer is armed, the task makes such assignments only. -/
theorem unseen_meets {α : Type} {program : UncoreProgram α} (makes : program.Makes Unseen) :
    LedgerMeets machine start polled (fun _ _ => True) program world := by
  let any : World → Prop := fun _ => True
  have stable : Stable (injectedRely polled none) any := fun _ _ _ _ => trivial
  refine Guarded.of_makes makes stable ?_ trivial
  rintro _ ⟨update, rfl, same⟩ world _ _
  refine ⟨⟨fun _ => ⟨rfl, Or.inl rfl, rfl, same world.globals, rfl, rfl⟩, fun ledgered =>
    ⟨ledgered.others, fun armed => ?_⟩⟩, trivial⟩
  obtain ⟨idle, function, parameters, reads, running, charged⟩ := ledgered.balanced armed
  exact ⟨idle, function, parameters_of_tick (same world.globals) parameters, reads, running,
    charged.of_delays rfl⟩

/-- The second box is set up, and polled from then on. -/
theorem startPolling_injected (counting : CountingBox polled)
    (poised : Poised (Ready start) polled (fun _ => True) world) :
    LedgerMeets machine start polled (fun _ _ => True) (startPolling polled) world := by
  have any : Undisturbed polled fun _ => True := fun _ _ _ => trivial
  refine poised_access (Ready start) any poised (fun _ => rfl) (fun _ => rfl)
    (fun _ ready => ready) fun _ world poised => ?_
  refine poised_access (Ready start) any poised (fun _ => rfl) (fun _ => rfl)
    (fun _ ready => ready) fun _ world poised => ?_
  refine (onBox_poised (underEvents_initBox counting ⟨trivial, trivial⟩) poised).bind
    fun _ world poised => ?_
  let halted : PmonUnit → Prop := fun unit =>
    (unit.regs (uncorePciBoxCtl polled)).getLsbD 8 = true ∧ Emptied polled unit
  have halts : UnderEvents machine (fun _ => Here polled halted fun _ => True)
      (onBox polled (uncoreDisableBox hswepUncorePciBoxOps polled)) world :=
    underEvents_disableBox counting (undisturbed_still fun _ owed => owed.still)
      (undisturbed_frozen fun _ owed => owed.1)
      (fun _ owed _ first second => owed.freeze counting first second) ⟨poised.owes, trivial⟩
  refine (onBox_poised halts poised).bind fun _ world poised => ?_
  refine (onBox_poised (underEvents_enableEvent counting (by decide) ⟨poised.owes, trivial⟩)
    poised).bind fun _ world poised => ?_
  refine (onBox_poised (underEvents_enableBox counting ⟨poised.owes, trivial⟩) poised).bind
    fun _ world poised => ?_
  have running : Undisturbed polled (Running polled 0) := undisturbed_running counting 0
  refine poised_access (Installed start polled) running poised (fun _ => rfl) (fun _ => rfl)
    (fun world ready => ⟨ready, ?_⟩) fun _ world poised => ?_
  · show (Function.update world.boxes polled _ polled).function = _
    rw [Function.update_self]
  refine poised_access (Installed start polled) running poised (fun _ => rfl) (fun _ => rfl)
    (fun _ installed => installed) fun state world poised => ?_
  refine poised_access (Installed start polled) running poised (fun _ => rfl) (fun _ => rfl)
    (fun world installed => ⟨installed.1, ?_⟩) fun _ world poised => ?_
  · show (Function.update world.boxes polled _ polled).function = _
    rw [Function.update_self]
    exact installed.2
  -- From here on a tick may come at any time.
  apply Guarded.access _ (poised_stable running) poised
  intro world poised _
  refine ⟨⟨fun ticking => ?_, fun _ => hrtimerStart_ledgered poised⟩,
    unseen_meets (makes_access ⟨_, rfl, fun _ => rfl⟩)⟩
  rw [poised.quiet polled] at ticking
  exact absurd ticking (by decide)

/-- An access before the timer is armed. -/
structure Ahead (machine : Machine) (start : World) (op : UncoreOp) : Prop where
  remote : Remote machine op
  ready : ∀ world, Ready start world → Ready start (machine.exec op world).2

theorem ahead_meets {α : Type} {program : UncoreProgram α}
    (makes : program.Makes (Ahead machine start))
    (poised : Poised (Ready start) polled (fun _ => True) world) :
    LedgerMeets machine start polled (fun _ => Poised (Ready start) polled fun _ => True) program
      world := by
  refine Guarded.of_makes makes (poised_stable fun _ _ _ => trivial) ?_ poised
  intro op ahead world poised _
  have quiet : Quiet (machine.exec op world).2 :=
    fun box => (congrFun (ahead.remote.blind world).2.2 box).trans (poised.quiet box)
  exact ⟨quiet_permits poised.quiet quiet, quiet, ahead.ready world poised.known, trivial⟩

theorem ahead_kernel (call : KernelCall) : Ahead machine start (.kernel call) :=
  ⟨remote_kernel call, fun _ ready => ready⟩

theorem ahead_globals : Ahead machine start .globals :=
  ⟨remote_globals, fun _ ready => ready⟩

theorem ahead_cpumaskOfNode (node cpu : Nat) : Ahead machine start (.cpumaskOfNode node cpu) :=
  ⟨remote_cpumaskOfNode node cpu, fun _ ready => ready⟩

theorem ahead_procRemove : Ahead machine start .procRemove :=
  ⟨remote_procRemove, fun _ ready => ready⟩

theorem ahead_imc (pdev : PciDev) (op : RegOp 16) : Ahead machine start (.imc pdev op) :=
  ⟨remote_imc pdev op, fun _ ready => ready⟩

/-- The first assignments. -/
theorem setEmulateParameters_poised (quiet : Quiet start) :
    LedgerMeets machine start polled (fun _ => Poised (Ready start) polled fun _ => True)
      (setEmulateParameters machine) start := by
  have makes : (setEmulateParameters machine).Makes (Blind machine) :=
    ⟨blind_assign _, fun _ => ⟨blind_assign _, fun _ => ⟨blind_assign _, fun _ =>
      ⟨blind_assign _, fun _ => trivial⟩⟩⟩⟩
  have alone : LedgerMeets machine start polled (fun value later =>
      value = ((setEmulateParameters machine).run machine.exec start).1 ∧
        seen later = seen ((setEmulateParameters machine).run machine.exec start).2 ∧
          Quiet later) (setEmulateParameters machine) start :=
    blind_meets (fun _ _ moves still => (moves still).same) (fun _ _ => quiet_permits) makes quiet
  refine alone.mono ?_
  rintro _ later ⟨-, same, still⟩
  refine ⟨still, ?_, trivial⟩
  rw [same]
  exact ⟨⟨rfl, rfl⟩, rfl⟩

/-- If no box is missing the timer has been armed. -/
theorem startEmulateLatency_injected
    (found : ∀ box, uncoreGetFirstBox machine.haBoxes 1 = some box → box = polled)
    (poised : Poised (Ready start) polled (fun _ => True) world) :
    LedgerMeets machine start polled
      (fun ret later => ret ≠ 0 → Poised (Ready start) polled (fun _ => True) later)
      (startEmulateLatency machine) world := by
  have any : Undisturbed polled fun _ => True := fun _ _ _ => trivial
  have fails : ∀ later, Poised (Ready start) polled (fun _ => True) later →
      LedgerMeets machine start polled
        (fun ret later => ret ≠ 0 → Poised (Ready start) polled (fun _ => True) later)
        (.ret (-enxio)) later := fun later poised final moves _ =>
    (poised_stable any).star moves poised
  unfold startEmulateLatency
  refine poised_access (Ready start) any poised (fun _ => rfl) (fun _ => rfl)
    (fun _ ready => ready) fun _ world poised => ?_
  cases uncoreGetFirstBox machine.haBoxes 0 with
  | none => exact fails world poised
  | some first =>
    cases second : uncoreGetFirstBox machine.haBoxes 1 with
    | none => exact fails world poised
    | some box =>
        obtain rfl := found box second
        refine (startPolling_injected (countingBox_of_first second) poised).bind
          fun _ world _ => ?_
        exact fun _ _ failed => absurd rfl failed

theorem startEmulateNvm_injected
    (found : ∀ box, uncoreGetFirstBox machine.haBoxes 1 = some box → box = polled)
    (quiet : Quiet start) :
    LedgerMeets machine start polled (fun _ _ => True) (startEmulateNvm machine) start := by
  let waits : World → Prop := Poised (Ready start) polled fun _ => True
  have remove : emulateNvmProcRemove.Makes (Ahead machine start) :=
    makes_emulateNvmProcRemove ahead_globals ahead_procRemove
  have restore : (restorePlatformConfiguration machine).Makes (Ahead machine start) :=
    makes_restorePlatformConfiguration ahead_globals ahead_cpumaskOfNode fun _ => ahead_kernel _
  have undo : ∀ {program : UncoreProgram Unit}, program.Makes (Ahead machine start) →
      ∀ world, waits world → LedgerMeets machine start polled (fun _ _ => True) program world :=
    fun makes _ poised => (ahead_meets makes poised).mono fun _ _ _ => trivial
  apply startEmulateNvm_stages (setEmulateParameters_poised quiet)
  · intro world poised
    exact ahead_meets (makes_emulateNvmProcCreate (ahead_kernel _)
      ⟨remote_assign _, fun _ ready => ready⟩) poised
  · intro _ world _ _ _ _
    trivial
  · intro world poised
    exact ahead_meets (makes_preparePlatformConfiguration ahead_globals ahead_cpumaskOfNode
      fun _ => ahead_kernel _) poised
  · intro _ world _ poised
    exact undo remove world poised
  · intro world poised
    exact ahead_meets (makes_startEmulateBandwidth ahead_imc) poised
  · intro _ world _ poised
    exact undo (restore.bind fun _ => remove) world poised
  · intro world poised
    exact startEmulateLatency_injected found poised
  · intro _ world failed poised
    have finish : (finishEmulateBandwidth machine).Makes (Ahead machine start) :=
      makes_finishEmulateBandwidth ahead_imc
    exact undo (finish.bind fun _ => restore.bind fun _ => remove) world (poised failed)
  · intro world _
    exact unseen_meets (makes_access ⟨_, rfl, fun _ => rfl⟩)

end Start

/-! ## Whole runs -/

/-- Every thread meets its obligation, and the balance is drawn between ticks. -/
abbrev LedgerKept (machine : Machine) (start : World) (polled : UncoreBox) : ModulePool → Prop :=
  Pool.Meets machine.device (injectedRely polled) (injectedGuar machine start polled)
    (fun _ _ _ => True) (Ledgered machine start polled)

section Runs

variable {start : World} {polled : UncoreBox}

/-- The timer that expires is that of the polled box. -/
theorem ledgerKept_expires (counting : CountingBox polled) {pool : ModulePool} {thread : Task}
    {program : UncoreProgram Unit} {after : World} (kept : LedgerKept machine start polled pool)
    (expires : Expires pool thread program after) :
    LedgerKept machine start polled ⟨Function.update pool.threads thread program, after⟩ := by
  obtain ⟨box, rfl, armed, rfl, rfl⟩ := expires.cases
  obtain rfl := kept.holds.armed_box armed
  have others := kept.holds.others
  obtain ⟨idle, balanced⟩ := kept.holds.balanced armed
  have asleep : ∀ other ≠ box, Asleep other { pool.state with
      timers := Function.update pool.state.timers box ⟨false, true⟩ } :=
    fun other apart => (Function.update_of_ne apart _ _).trans (others other apart)
  have timer : Function.update pool.state.timers box ⟨false, true⟩ box = ⟨false, true⟩ :=
    Function.update_self _ _ _
  refine ⟨fun thread => ?_, Ticking.ledgered asleep timer⟩
  by_cases same : thread = some box
  · subst same
    dsimp only
    obtain ⟨function, parameters, reads, running, charged⟩ := balanced
    rw [Function.update_self, function]
    exact runHrtimer_injected counting
      ⟨asleep, timer, function, parameters, reads, running, charged.of_delays rfl⟩
  · dsimp only
    rw [Function.update_of_ne same]
    apply (kept.guarded thread).of_rely (.single _)
    cases thread with
    | none =>
        intro quiet
        rw [quiet box] at armed
        exact absurd armed (by decide)
    | some other => exact fun equal => absurd (congrArg some equal) same

theorem ledgerKept_reaches (counting : CountingBox polled) {pool later : ModulePool}
    (kept : LedgerKept machine start polled pool)
    (reaches : Pool.Reaches machine.device Arrives Expires pool later) :
    LedgerKept machine start polled later :=
  kept.reaches (injected_compatible counting)
    (fun _ _ _ _ kept expires => ledgerKept_expires counting kept expires) reaches

end Runs

/-- **The CPU pays for what was counted.** In every run of `start_emulate_nvm` and of the ticks
of the timer it arms, with events at any time, of which a box counts fewer than 2^48 between
two writes of its control register: whenever a timer is armed, the delays executed on the
emulating CPU are at most 200 ns for each event that its box has counted since the reset and
that is not in the counter, and, if every call to the CPU is made, at most 800 ns less for each
delay. -/
theorem injected_of_reaches (machine : Machine) {world : World} {pool : ModulePool}
    {box : UncoreBox} (quiet : Quiet world)
    (runs : Pool.Reaches machine.device Arrives Expires
      (calling (idlePool world) (startEmulateNvm machine)) pool)
    (armed : (pool.state.timers box).armed = true) : Injected machine world box pool.state := by
  obtain ⟨polled, counting, found⟩ : ∃ polled, CountingBox polled ∧
      ∀ box, uncoreGetFirstBox machine.haBoxes 1 = some box → box = polled := by
    cases one : uncoreGetFirstBox machine.haBoxes 1 with
    | none => exact ⟨haBox 1, countingBox_of_ha rfl, fun _ first => nomatch first⟩
    | some polled =>
        exact ⟨polled, countingBox_of_first one, fun _ first => (Option.some.inj first).symm⟩
  have begun : LedgerKept machine world polled
      (calling (idlePool world) (startEmulateNvm machine)) := by
    refine ⟨fun thread => ?_, fun box _ => quiet box, fun armed => ?_⟩
    · cases thread with
      | none =>
          rw [calling_task]
          exact startEmulateNvm_injected found quiet
      | some box => exact fun _ _ => trivial
    · have none : (world.timers polled).armed = true := armed
      rw [quiet polled] at none
      exact absurd none (by decide)
  have kept := ledgerKept_reaches counting begun runs
  obtain rfl := kept.holds.armed_box armed
  exact (kept.holds.balanced armed).2.injected

/-- Seven reads have arrived on two sockets, and the timer has expired. -/
def expiredWorld : World :=
  { oneRead^[7] agentsWorld with
    timers := Function.update (oneRead^[7] agentsWorld).timers (haBox 1) ⟨false, true⟩ }

/-- The tick has returned. -/
def tickedWorld : World := ranAlone (runHrtimer (haBox 1) .emulateNvmHrtimer) expiredWorld

/-- For seven reads the tick wastes 1000 ns of 1400. -/
theorem injected_of_reaches_sevenReads :
    Injected twoAgents quietWorld (haBox 1) tickedWorld ∧
      (tickedWorld.units (haBox 1)).arrived = 7 ∧ delayedNs 0 tickedWorld = 1000 := by
  let started := ranTo (calling (idlePool quietWorld) (startEmulateNvm twoAgents)) agentsWorld
  have starts : Pool.Reaches twoAgents.device Arrives Expires
      (calling (idlePool quietWorld) (startEmulateNvm twoAgents)) started :=
    calling_reaches agentsWorld_starts
  have reads : Pool.Reaches twoAgents.device Arrives Expires started
      ⟨started.threads, oneRead^[7] agentsWorld⟩ := by
    have moves : ReflTransGen Arrives agentsWorld (oneRead^[7] agentsWorld) :=
      arrives_oneRead 7 (by decide +kernel)
    exact moves.lift (fun state => (⟨started.threads, state⟩ : ModulePool))
      fun _ _ move => .environment move
  have idle : started.threads (some (haBox 1)) = .ret () := rfl
  have ready : (runHrtimer (haBox 1) .emulateNvmHrtimer).Makes
      fun op => ∀ state, twoAgents.device.ready op state :=
    (makes_emulateNvmHrtimer (fun _ _ => trivial) (fun _ => trivial) (fun _ _ => trivial)
      (fun _ => trivial) (fun _ _ => trivial) fun _ _ _ => trivial).bind
      fun _ => makes_access fun _ => trivial
  have ticks : Pool.Reaches twoAgents.device Arrives Expires
      ⟨started.threads, oneRead^[7] agentsWorld⟩ ⟨started.threads, tickedWorld⟩ :=
    Pool.reaches_of_launch idle (.timer idle (by decide +kernel) (by decide +kernel))
      (reaches_run ready expiredWorld)
  exact ⟨injected_of_reaches twoAgents (fun _ => rfl) ((starts.trans reads).trans ticks)
    (by decide +kernel), by decide +kernel, by decide +kernel⟩

end NvmEmulator.Emulate
