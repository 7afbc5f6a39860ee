/-
# Writers of `/proc/core_pmu`

Any number of tasks write to `/proc/core_pmu` at the same time, and NMIs come to the
processors in the middle of any of it. `core_pmu_proc_mutex` keeps the writers apart, but not
the NMI handlers: a handler clears and reprograms its own processor, from globals that a
writer has changed or is about to change, while a writer reprograms every online processor in
three passes.

Still a write takes effect everywhere. Whenever the mutex is free, `pre_event_init_value` is
what the last accepted write asked for, and if that was an interval, every online processor
that is not in an NMI samples LLC misses with it.

A ghost record has what was last written to each register, and whether the writer has put the
register where it belongs. A handler that runs later leaves such a register as it found it,
because it is programmed from the globals the writer has set.
-/

import NvmEmulator.CorePmu.Restart
import NvmEmulator.Semantics.Ghost

namespace NvmEmulator.CorePmu

open Relation NvmEmulator.Kernel NvmEmulator.Semantics NvmEmulator.Uncore

/-! ## The system -/

/-- The writers of the file, and the handlers of the processors. -/
inductive CoreThread
  | writer (task : Nat)
  | nmi (cpu : Nat)
  deriving DecidableEq

/-- The machine, and the order in which the writers took the mutex. -/
abbrev WriterWorld := CoreWorld × List Nat

/-- The writers, the handlers and the machine. -/
abbrev WriterPool := Pool CoreThread CoreOp CoreOp.Res WriterWorld

/-- An access may take the mutex. -/
def noteOrder : (op : CoreOp) → op.Res → List Nat → List Nat
  | .mutexLock task, _, order => order ++ [task]
  | _, _, order => order

/-- The machine as a device, with the order in which the mutex is taken. -/
def writerDevice : Device CoreOp CoreOp.Res WriterWorld := coreDevice.observe noteOrder

/-- What a task does to write to the file. -/
def requestTask (online : List Nat) (task : Nat) (request : ProcWrite) : CoreProgram Unit := do
  let _ ← corePmuProcWrite online task request
  pure ()

/-- An idle task begins its write, or an NMI comes to a processor, from an overflow or any
other source. -/
inductive WriteOrNmi (online : List Nat) (requests : Nat → ProcWrite) :
    Pool CoreThread CoreOp CoreOp.Res CoreWorld → CoreThread → CoreProgram Unit → CoreWorld → Prop
  | write {pool : Pool CoreThread CoreOp CoreOp.Res CoreWorld} {task : Nat}
      (idle : pool.threads (.writer task) = .ret ()) :
      WriteOrNmi online requests pool (.writer task) (requestTask online task (requests task))
        pool.state
  | nmi {pool : Pool CoreThread CoreOp CoreOp.Res CoreWorld} {cpu : Nat}
      (idle : pool.threads (.nmi cpu) = .ret ()) (outside : pool.state.inNmi cpu = false)
      (registered : pool.state.nmiRegistered = true) :
      WriteOrNmi online requests pool (.nmi cpu) (runNmi cpu) (pool.state.setInNmi cpu true)

/-- Nobody writes yet, and no handler is in progress. -/
def quietPool (world : CoreWorld) : WriterPool := ⟨fun _ => .ret (), world, []⟩

/-- Any number of steps of the writers, the handlers and the counters. -/
abbrev WriterRun (online : List Nat) (requests : Nat → ProcWrite) :
    WriterPool → WriterPool → Prop :=
  Pool.Reaches writerDevice (Pool.ghostEnv Misses) (Pool.ghostLaunch (WriteOrNmi online requests))

/-- The initial value that a write asks for: 0 for `'0'`, nothing if it is not accepted. -/
def intervalAsked (request : ProcWrite) : Option (BitVec 64) :=
  if request.count ≠ 2 ∨ request.offs ≠ 0 then none
  else request.buf.bind fun ctl => if ctl.1 = 0x30 then some 0 else samplingValue ctl.1

/-- What the last accepted write of an order asked for. -/
def lastInterval (requests : Nat → ProcWrite) (order : List Nat) : Option (BitVec 64) :=
  (order.filterMap fun task => intervalAsked (requests task)).getLast?

/-- A processor samples LLC misses, an interval at a time. -/
structure SamplesMisses (value : BitVec 64) (world : CoreWorld) (cpu : Nat) : Prop where
  select : world.msrs cpu msrIa32Perfevtsel0 = eventSelect .llcMisses
  control : world.msrs cpu msrCorePerfGlobalCtrl = 1
  interval : (world.notes cpu).interval = some (initCount value)

/-- The initial value is the globals', and the online processors sample with it unless it is
the 0 that stops them. -/
structure SamplesOn (online : List Nat) (value : BitVec 64) (world : CoreWorld) : Prop where
  shown : world.globals.preEventInitValue = value
  samples : value ≠ 0 → ∀ cpu ∈ online, world.inNmi cpu = false → SamplesMisses value world cpu

/-- What writes leave is decided by the last one that was accepted. -/
def IntervalSettled (online : List Nat) : Option (BitVec 64) → CoreWorld → CoreWorld → Prop
  | some value => fun _ after => SamplesOn online value after
  | none => fun before after => after.globals = before.globals

/-! ## The record -/

/-- The registers that start a processor. -/
def startRegisters : List (BitVec 32) :=
  [msrIa32Pmc0, msrIa32Perfevtsel0, msrCorePerfGlobalCtrl]

/-- What belongs in them. -/
def startTarget (value : BitVec 64) (addr : BitVec 32) : Option (BitVec 64) :=
  if addr = msrIa32Pmc0 then some (initCount value)
  else if addr = msrIa32Perfevtsel0 then some (eventSelect .llcMisses)
  else if addr = msrCorePerfGlobalCtrl then some 1
  else none

/-- The initial value of the last accepted write that has begun, the writer that has not ended
it, what was last written to the registers of each processor, and whether the writer has
written there what belongs there. -/
structure StartNote where
  aim : Option (BitVec 64) := none
  pending : Option Nat := none
  written : Nat → BitVec 32 → Option (BitVec 64) := fun _ _ => none
  set : Nat → BitVec 32 → Bool := fun _ _ => false

/-- What belongs in a register. -/
def StartNote.target (note : StartNote) (addr : BitVec 32) : Option (BitVec 64) :=
  note.aim.bind fun value => startTarget value addr

/-- A register is written. -/
def StartNote.wrmsr (context : Context) (cpu : Nat) (addr : BitVec 32) (data : BitVec 64)
    (note : StartNote) : StartNote :=
  { note with
    written := fun other place =>
      if other = cpu ∧ place = addr then some data else note.written other place
    set := fun other place =>
      if context = .task ∧ other = cpu ∧ place = addr then decide (some data = note.target addr)
      else note.set other place }

/-- A writer begins what its request asks for; if that is nothing it has nothing to end. -/
def StartNote.begin (task : Nat) : Option (BitVec 64) → StartNote → StartNote
  | some value, note =>
      { note with aim := some value, pending := some task, set := fun _ _ => false }
  | none, note => { note with pending := none }

/-- What an access adds to the record. -/
def StartNote.note (requests : Nat → ProcWrite) : (op : CoreOp) → op.Res → StartNote → StartNote
  | .wrmsr context cpu addr data, _, note => note.wrmsr context cpu addr data
  | .mutexLock task, _, note => note.begin task (intervalAsked (requests task))
  | .mutexUnlock, _, note => { note with pending := none }
  | _, _, note => note

/-- The machine with the record. -/
abbrev StartWorld := WriterWorld × StartNote

/-- The machine as a device, with the record. -/
def startDevice (requests : Nat → ProcWrite) : Device CoreOp CoreOp.Res StartWorld :=
  writerDevice.observe (StartNote.note requests)

/-- What the writers have set is there. -/
def Steady (cpu : Nat) (state : StartWorld) : Prop :=
  ∀ addr ∈ startRegisters, state.2.set cpu addr = true →
    state.2.written cpu addr = state.2.target addr

/-- The globals tell a handler to write what the writers have set. -/
structure Announced (cpu : Nat) (state : StartWorld) : Prop where
  counter : state.2.set cpu msrIa32Pmc0 = true →
    some (initCount state.1.1.globals.preEventInitValue) = state.2.target msrIa32Pmc0
  select : state.2.set cpu msrIa32Perfevtsel0 = true →
    some (eventSelect state.1.1.globals.preEventInfo.event) =
      state.2.target msrIa32Perfevtsel0
  control : state.2.set cpu msrCorePerfGlobalCtrl = true →
    some 1 = state.2.target msrCorePerfGlobalCtrl

/-- The last accepted write has ended: the globals are as it asked, and so is what has been set
on the online processors. -/
def Complete (online : List Nat) (state : StartWorld) : Prop :=
  ∀ value, state.2.aim = some value → state.1.1.globals.preEventInitValue = value ∧
    (value ≠ 0 → ∀ cpu ∈ online, ∀ addr ∈ startRegisters, state.2.set cpu addr = true)

/-- What holds throughout. -/
structure Starting (online : List Nat) (requests : Nat → ProcWrite) (globals : CoreGlobals)
    (state : StartWorld) : Prop where
  steady : ∀ cpu, state.1.1.inNmi cpu = false → Steady cpu state
  announced : ∀ cpu, Announced cpu state
  complete : state.2.pending = none → Complete online state
  owner : ∀ task, state.2.pending = some task → state.1.1.mutex = some task
  aim : state.2.aim = lastInterval requests state.1.2
  untouched : state.2.aim = none → state.1.1.globals = globals

/-! ## Rely and guarantee -/

/-- What a handler relies on: while it runs, its processor is left alone, and a new write only
takes back what the writers have set. -/
structure HandlerPeace (cpu : Nat) (before after : StartWorld) : Prop where
  inNmi : after.1.1.inNmi cpu = before.1.1.inNmi cpu
  written : before.1.1.inNmi cpu = true → after.2.written cpu = before.2.written cpu
  set : before.1.1.inNmi cpu = true → ∀ addr, after.2.set cpu addr = true →
    before.2.set cpu addr = true ∧ after.2.aim = before.2.aim
  announced : Announced cpu before → Announced cpu after

/-- What a step of a handler does: it acts on its own processor, and the NMI ends with what the
writers have set. -/
structure HandlerStep (cpu : Nat) (before after : StartWorld) : Prop where
  globals : after.1.1.globals = before.1.1.globals
  mutex : after.1.1.mutex = before.1.1.mutex
  order : after.1.2 = before.1.2
  aim : after.2.aim = before.2.aim
  pending : after.2.pending = before.2.pending
  set : after.2.set = before.2.set
  others : ∀ other ≠ cpu, after.1.1.inNmi other = before.1.1.inNmi other ∧
    after.2.written other = before.2.written other
  steady : after.1.1.inNmi cpu = false → Steady cpu after

/-- What a writer relies on: while it has the mutex, the globals and the record of what is set
are its own. -/
def WriterPeace (task : Nat) (before after : StartWorld) : Prop :=
  before.1.1.mutex = some task → after.1.1.mutex = some task ∧
    after.1.1.globals = before.1.1.globals ∧ after.2.aim = before.2.aim ∧
      after.2.pending = before.2.pending ∧ after.2.set = before.2.set

/-- What a step of a writer does: it leaves processors that are in an NMI alone, and keeps
what holds throughout. -/
structure WriterStep (online : List Nat) (requests : Nat → ProcWrite) (globals : CoreGlobals)
    (task : Nat) (before after : StartWorld) : Prop where
  inNmi : after.1.1.inNmi = before.1.1.inNmi
  waits : ∀ cpu, before.1.1.inNmi cpu = true → after.2.written cpu = before.2.written cpu ∧
    ∀ addr, after.2.set cpu addr = true →
      before.2.set cpu addr = true ∧ after.2.aim = before.2.aim
  announced : ∀ cpu, Announced cpu before → Announced cpu after
  others : ∀ other ≠ task, before.1.1.mutex ≠ some other
  keeps : Starting online requests globals before → Starting online requests globals after

/-- The relies of the threads. -/
def writersRely : CoreThread → StartWorld → StartWorld → Prop
  | .writer task => WriterPeace task
  | .nmi cpu => HandlerPeace cpu

/-- The guarantees of the threads. -/
def writersGuar (online : List Nat) (requests : Nat → ProcWrite) (globals : CoreGlobals) :
    CoreThread → StartWorld → StartWorld → Prop
  | .writer task => WriterStep online requests globals task
  | .nmi cpu => HandlerStep cpu

section Relations

variable {online : List Nat} {requests : Nat → ProcWrite} {globals : CoreGlobals}
  {before after : StartWorld}

theorem StartNote.target_of_aim {first second : StartNote} (aim : second.aim = first.aim)
    (addr : BitVec 32) : second.target addr = first.target addr := by
  rw [StartNote.target, StartNote.target, aim]

theorem Steady.of_same {cpu : Nat} (steady : Steady cpu before)
    (written : after.2.written cpu = before.2.written cpu)
    (set : after.2.set cpu = before.2.set cpu) (aim : after.2.aim = before.2.aim) :
    Steady cpu after := by
  intro addr mem here
  rw [set] at here
  rw [written, StartNote.target_of_aim aim]
  exact steady addr mem here

theorem Announced.of_same {cpu : Nat} (announced : Announced cpu before)
    (globals : after.1.1.globals = before.1.1.globals)
    (set : after.2.set cpu = before.2.set cpu) (aim : after.2.aim = before.2.aim) :
    Announced cpu after := by
  constructor
  · rw [set, globals, StartNote.target_of_aim aim]
    exact announced.counter
  · rw [set, globals, StartNote.target_of_aim aim]
    exact announced.select
  · rw [set, StartNote.target_of_aim aim]
    exact announced.control

theorem Complete.of_same (complete : Complete online before)
    (globals : after.1.1.globals = before.1.1.globals) (set : after.2.set = before.2.set)
    (aim : after.2.aim = before.2.aim) : Complete online after := by
  intro value here
  rw [aim] at here
  rw [globals, set]
  exact complete value here

/-- A step of a handler keeps what holds throughout. -/
theorem Starting.handler {cpu : Nat} (starting : Starting online requests globals before)
    (step : HandlerStep cpu before after) : Starting online requests globals after where
  steady other outside := by
    by_cases same : other = cpu
    · rw [same] at outside ⊢
      exact step.steady outside
    · have others := step.others other same
      rw [others.1] at outside
      exact (starting.steady other outside).of_same others.2 (congrFun step.set other) step.aim
  announced other :=
    (starting.announced other).of_same step.globals (congrFun step.set other) step.aim
  complete none := by
    rw [step.pending] at none
    exact (starting.complete none).of_same step.globals step.set step.aim
  owner task pending := by
    rw [step.pending] at pending
    rw [step.mutex]
    exact starting.owner task pending
  aim := by
    rw [step.aim, step.order]
    exact starting.aim
  untouched none := by
    rw [step.aim] at none
    rw [step.globals]
    exact starting.untouched none

/-- The counters leave all but the registers alone. -/
structure OnlyCounts (before after : StartWorld) : Prop where
  globals : after.1.1.globals = before.1.1.globals
  mutex : after.1.1.mutex = before.1.1.mutex
  inNmi : after.1.1.inNmi = before.1.1.inNmi
  order : after.1.2 = before.1.2
  record : after.2 = before.2

theorem onlyCounts_of_misses (moves : Pool.ghostEnv (Pool.ghostEnv Misses) before after) :
    OnlyCounts before after := by
  obtain ⟨⟨world, order⟩, note⟩ := before
  obtain ⟨⟨later, ordered⟩, noted⟩ := after
  obtain ⟨⟨misses, sameOrder⟩, sameNote⟩ := moves
  cases sameOrder
  cases sameNote
  cases misses with
  | miss cpu => exact ⟨rfl, rfl, rfl, rfl, rfl⟩

/-- Where only counters count, all that holds throughout is kept. -/
theorem Starting.counts (starting : Starting online requests globals before)
    (counts : OnlyCounts before after) : Starting online requests globals after where
  steady cpu outside := by
    rw [counts.inNmi] at outside
    exact (starting.steady cpu outside).of_same (by rw [counts.record]) (by rw [counts.record])
      (by rw [counts.record])
  announced cpu := (starting.announced cpu).of_same counts.globals (by rw [counts.record])
    (by rw [counts.record])
  complete none := by
    rw [counts.record] at none
    exact (starting.complete none).of_same counts.globals (by rw [counts.record])
      (by rw [counts.record])
  owner task pending := by
    rw [counts.record] at pending
    rw [counts.mutex]
    exact starting.owner task pending
  aim := by
    rw [counts.record, counts.order]
    exact starting.aim
  untouched none := by
    rw [counts.record] at none
    rw [counts.globals]
    exact starting.untouched none

theorem OnlyCounts.handlerPeace (counts : OnlyCounts before after) (cpu : Nat) :
    HandlerPeace cpu before after where
  inNmi := congrFun counts.inNmi cpu
  written _ := by rw [counts.record]
  set _ addr here := by
    rw [counts.record] at here ⊢
    exact ⟨here, rfl⟩
  announced known :=
    known.of_same counts.globals (by rw [counts.record]) (by rw [counts.record])

theorem OnlyCounts.writerPeace (counts : OnlyCounts before after) (task : Nat) :
    WriterPeace task before after := by
  intro holds
  rw [counts.mutex, counts.record]
  exact ⟨holds, counts.globals, rfl, rfl, rfl⟩

/-- Handlers act on their own processors. -/
theorem HandlerStep.handlerPeace {cpu other : Nat} (step : HandlerStep cpu before after)
    (apart : other ≠ cpu) : HandlerPeace other before after where
  inNmi := (step.others other apart).1
  written _ := (step.others other apart).2
  set _ addr here := by
    rw [step.set] at here
    exact ⟨here, step.aim⟩
  announced known := known.of_same step.globals (congrFun step.set other) step.aim

theorem HandlerStep.writerPeace {cpu : Nat} (step : HandlerStep cpu before after) (task : Nat) :
    WriterPeace task before after := by
  intro holds
  exact ⟨step.mutex.trans holds, step.globals, step.aim, step.pending, step.set⟩

theorem WriterStep.handlerPeace {task : Nat}
    (step : WriterStep online requests globals task before after) (cpu : Nat) :
    HandlerPeace cpu before after where
  inNmi := congrFun step.inNmi cpu
  written inside := (step.waits cpu inside).1
  set inside := (step.waits cpu inside).2
  announced := step.announced cpu

theorem writers_compatible :
    Pool.Compatible writersRely (writersGuar online requests globals)
      (Starting online requests globals) (Pool.ghostEnv (Pool.ghostEnv Misses)) where
  thread
    | .writer task, .writer other, apart, before, after, step => by
        have guaranteed : WriterStep online requests globals task before after := step
        have differ : other ≠ task := fun equal => apart (congrArg CoreThread.writer equal)
        exact fun holds => absurd holds (guaranteed.others other differ)
    | .writer task, .nmi cpu, _, before, after, step => by
        have guaranteed : WriterStep online requests globals task before after := step
        exact guaranteed.handlerPeace cpu
    | .nmi cpu, .writer task, _, before, after, step => by
        have guaranteed : HandlerStep cpu before after := step
        exact guaranteed.writerPeace task
    | .nmi cpu, .nmi other, apart, before, after, step => by
        have guaranteed : HandlerStep cpu before after := step
        exact guaranteed.handlerPeace fun equal => apart (congrArg CoreThread.nmi equal)
  environment
    | .writer task, _, _, moves => (onlyCounts_of_misses moves).writerPeace task
    | .nmi cpu, _, _, moves => (onlyCounts_of_misses moves).handlerPeace cpu
  kept
    | .writer task, before, after, step, starting => by
        have guaranteed : WriterStep online requests globals task before after := step
        exact guaranteed.keeps starting
    | .nmi cpu, before, after, step, starting => by
        have guaranteed : HandlerStep cpu before after := step
        exact starting.handler guaranteed
  keptByEnvironment _ _ moves starting := starting.counts (onlyCounts_of_misses moves)

end Relations

/-! ## The handlers -/

section Handler

variable {requests : Nat → ProcWrite} {cpu : Nat} {read : List (BitVec 32 × BitVec 64)}
  {restored : List (BitVec 32)} {state : StartWorld}

/-- A handler is in progress. What it has found in the globals is what the writers have set,
and so are the registers it has restored. -/
structure Within (cpu : Nat) (read : List (BitVec 32 × BitVec 64)) (restored : List (BitVec 32))
    (state : StartWorld) : Prop where
  inside : state.1.1.inNmi cpu = true
  announced : Announced cpu state
  fits : ∀ load ∈ read, state.2.set cpu load.1 = true → some load.2 = state.2.target load.1
  restored : ∀ addr ∈ restored, state.2.set cpu addr = true →
    state.2.written cpu addr = state.2.target addr

theorem within_stable (cpu : Nat) (read : List (BitVec 32 × BitVec 64))
    (restored : List (BitVec 32)) : Stable (HandlerPeace cpu) (Within cpu read restored) := by
  intro before after peace within
  have kept : ∀ addr, after.2.set cpu addr = true →
      before.2.set cpu addr = true ∧ after.2.target addr = before.2.target addr := by
    intro addr here
    obtain ⟨was, aim⟩ := peace.set within.inside addr here
    exact ⟨was, StartNote.target_of_aim aim addr⟩
  refine ⟨peace.inNmi.trans within.inside, peace.announced within.announced,
    fun load mem here => ?_, fun addr mem here => ?_⟩
  · obtain ⟨was, same⟩ := kept load.1 here
    rw [same]
    exact within.fits load mem was
  · obtain ⟨was, same⟩ := kept addr here
    rw [same, peace.written within.inside]
    exact within.restored addr mem was

/-- An access of a handler in progress. -/
theorem nmiAccess_step (requests : Nat → ProcWrite) {op : CoreOp}
    (allowed : NmiAccess cpu op) (within : Within cpu read restored state)
    (ready : coreDevice.ready op state.1.1) :
    HandlerStep cpu state ((startDevice requests).exec op state).2 ∧
      Within cpu read [] ((startDevice requests).exec op state).2 := by
  have done : ∀ after : StartWorld, after.1.1.globals = state.1.1.globals →
      after.1.1.mutex = state.1.1.mutex → after.1.1.inNmi = state.1.1.inNmi →
      after.1.2 = state.1.2 → after.2.aim = state.2.aim → after.2.pending = state.2.pending →
      after.2.set = state.2.set →
      (∀ other ≠ cpu, after.2.written other = state.2.written other) →
      HandlerStep cpu state after ∧ Within cpu read [] after := by
    intro after globals mutex inNmi order aim pending set written
    have inside : after.1.1.inNmi cpu = true := (congrFun inNmi cpu).trans within.inside
    have marked := congrFun set cpu
    refine ⟨⟨globals, mutex, order, aim, pending, set,
      fun other apart => ⟨congrFun inNmi other, written other apart⟩, fun outside => ?_⟩, inside,
      within.announced.of_same globals marked aim, fun load mem here => ?_,
      fun _ none => absurd none List.not_mem_nil⟩
    · rw [inside] at outside
      cases outside
    · rw [marked] at here
      rw [StartNote.target_of_aim aim]
      exact within.fits load mem here
  cases op with
  | rdmsr context other addr => exact done _ rfl rfl rfl rfl rfl rfl rfl fun _ _ => rfl
  | globals => exact done _ rfl rfl rfl rfl rfl rfl rfl fun _ _ => rfl
  | incNmiTimes other => exact done _ rfl rfl rfl rfl rfl rfl rfl fun _ _ => rfl
  | wrmsr context other addr data =>
      have own : other = cpu := allowed
      subst own
      have handler : context ≠ .task := by
        rintro rfl
        have outside : state.1.1.inNmi other = false := ready
        rw [within.inside] at outside
        cases outside
      refine done _ rfl rfl rfl rfl rfl rfl ?_ fun third apart => ?_
      · funext third place
        exact if_neg fun same : context = .task ∧ third = other ∧ place = addr => handler same.1
      · funext place
        exact if_neg fun same : third = other ∧ place = addr => apart same.1
  | assign update => exact absurd allowed id
  | clearNmiTimes other => exact absurd allowed id
  | nmiReturn other => exact absurd allowed id
  | nmiListDel => exact absurd allowed id
  | synchronizeRcu => exact absurd allowed id
  | mutexLock task => exact absurd allowed id
  | mutexUnlock => exact absurd allowed id
  | procRemove => exact absurd allowed id

/-- What a read of the globals finds is what the writers have set. -/
theorem Within.found (within : Within cpu read restored state) {addr : BitVec 32}
    {data : BitVec 64} (fits : state.2.set cpu addr = true → some data = state.2.target addr) :
    Within cpu ((addr, data) :: read) restored state := by
  refine ⟨within.inside, within.announced, fun load mem here => ?_, within.restored⟩
  rcases List.mem_cons.mp mem with rfl | earlier
  · exact fits here
  · exact within.fits load earlier here

/-- A write puts a register where it belongs. -/
theorem within_wrmsr (requests : Nat → ProcWrite) {addr : BitVec 32} {data : BitVec 64}
    (within : Within cpu read restored state) (mem : (addr, data) ∈ read) :
    HandlerStep cpu state ((startDevice requests).exec (.wrmsr .nmi cpu addr data) state).2 ∧
      Within cpu read (addr :: restored)
        ((startDevice requests).exec (.wrmsr .nmi cpu addr data) state).2 := by
  have allowed : NmiAccess cpu (.wrmsr .nmi cpu addr data) := rfl
  obtain ⟨step, kept⟩ := nmiAccess_step requests allowed within trivial
  refine ⟨step, kept.inside, kept.announced, kept.fits, fun place listed here => ?_⟩
  have was : state.2.set cpu place = true := by
    rw [step.set] at here
    exact here
  rw [StartNote.target_of_aim step.aim]
  show (if cpu = cpu ∧ place = addr then some data else state.2.written cpu place) = _
  by_cases same : place = addr
  · subst same
    rw [if_pos ⟨rfl, rfl⟩]
    exact within.fits _ mem was
  · rw [if_neg fun both => same both.2]
    rcases List.mem_cons.mp listed with first | later
    · exact absurd first same
    · exact within.restored place later was

/-- The obligation of a part of a handler. -/
abbrev NmiMeets (requests : Nat → ProcWrite) (cpu : Nat) {α : Type} (post : StartWorld → Prop)
    (program : CoreProgram α) (state : StartWorld) : Prop :=
  Guarded (startDevice requests) (HandlerPeace cpu) (HandlerStep cpu) (fun _ => post) program state

/-- What clears a processor. -/
theorem clears_within (within : Within cpu read restored state) :
    NmiMeets requests cpu (Within cpu [] []) (corePmuClearMsrsOnCpu .nmi cpu) state := by
  have own : ∀ addr, NmiAccess cpu (.wrmsr .nmi cpu addr 0) := fun _ => rfl
  have makes : (corePmuClearMsrsOnCpu .nmi cpu).Makes (NmiAccess cpu) :=
    makes_clearMsrsOnCpu (own _) (own _) (own _) (own _)
  have start : Within cpu [] [] state :=
    ⟨within.inside, within.announced, fun _ none => absurd none List.not_mem_nil,
      fun _ none => absurd none List.not_mem_nil⟩
  exact Guarded.of_makes makes (within_stable cpu [] [])
    (fun op allowed later held ready => nmiAccess_step requests allowed held ready) start

/-- What programs a processor, from the globals as they are. -/
theorem programs_within (within : Within cpu [] [] state) :
    NmiMeets requests cpu
      (fun later => Within cpu [] [msrIa32Perfevtsel0, msrIa32Pmc0] later)
      (corePmuEnablePredefinedEventOnCpu .nmi cpu) state := by
  have globals : NmiAccess cpu .globals := trivial
  refine .access _ (within_stable cpu [] []) within fun first held ready => ?_
  have counter := held.found held.announced.counter
  refine ⟨(nmiAccess_step requests globals held ready).1, ?_⟩
  refine .access _ (within_stable cpu _ []) counter fun second held ready => ?_
  have both := held.found held.announced.select
  refine ⟨(nmiAccess_step requests globals held ready).1, ?_⟩
  refine .access _ (within_stable cpu _ []) both fun third held ready => ?_
  have step := within_wrmsr requests held (List.mem_cons_of_mem _ List.mem_cons_self)
  refine ⟨step.1, .access _ (within_stable cpu _ _) step.2 fun last held ready => ?_⟩
  have step := within_wrmsr requests held List.mem_cons_self
  exact ⟨step.1, .ret (within_stable cpu _ _)
    ⟨step.2.inside, step.2.announced, fun _ none => absurd none List.not_mem_nil,
      step.2.restored⟩⟩

/-- All registers that the writers have set are there. -/
theorem Within.steady (within : Within cpu read
      [msrCorePerfGlobalCtrl, msrIa32Perfevtsel0, msrIa32Pmc0] state) :
    Within cpu [] startRegisters state := by
  refine ⟨within.inside, within.announced, fun _ none => absurd none List.not_mem_nil,
    fun addr mem => within.restored addr ?_⟩
  simp only [startRegisters, List.mem_cons, List.not_mem_nil, or_false] at mem ⊢
  tauto

/-- What the handler does once it has seen an overflow. -/
theorem restart_within (within : Within cpu read restored state) :
    NmiMeets requests cpu (Within cpu [] startRegisters)
      ((corePmuClearMsrsOnCpu .nmi cpu).bind fun _ =>
        (corePmuEnablePredefinedEventOnCpu .nmi cpu).bind fun _ =>
          (corePmuEnableCountingOnCpu .nmi cpu).bind fun _ =>
            (access (.incNmiTimes cpu)).bind fun _ =>
              (Program.ret NmiResult.handled : CoreProgram NmiResult)) state := by
  have counts : NmiAccess cpu (.incNmiTimes cpu) := rfl
  apply (clears_within within).bind
  intro _ cleared held
  apply (programs_within held).bind
  intro _ programmed held
  refine .access _ (within_stable cpu [] _) held fun enabled held ready => ?_
  have control : Within cpu [(msrCorePerfGlobalCtrl, 1)] _ enabled :=
    held.found held.announced.control
  have step := within_wrmsr requests control List.mem_cons_self
  refine ⟨step.1, .access _ (within_stable cpu [] startRegisters) step.2.steady
    fun counted held ready => ?_⟩
  exact ⟨(nmiAccess_step requests counts held ready).1, .ret (within_stable cpu _ _)
    ⟨held.inside, held.announced.of_same rfl rfl rfl, held.fits, held.restored⟩⟩

/-- The end of an NMI. -/
theorem nmiReturn_within (within : Within cpu [] startRegisters state) :
    NmiMeets requests cpu (fun _ => True) (access (.nmiReturn cpu)) state := by
  refine .access _ (within_stable cpu [] _) within fun later held _ => ⟨?_, ?_⟩
  · refine ⟨rfl, rfl, rfl, rfl, rfl, rfl, fun other apart => ?_, fun _ => held.restored⟩
    exact ⟨Function.update_of_ne apart _ _, rfl⟩
  · exact fun _ _ => trivial

/-- A handler that comes to a processor which has what the writers have set leaves it so. -/
theorem runNmi_within (inside : state.1.1.inNmi cpu = true) (steady : Steady cpu state)
    (announced : Announced cpu state) :
    NmiMeets requests cpu (fun _ => True) (runNmi cpu) state := by
  have start : Within cpu [] startRegisters state :=
    ⟨inside, announced, fun _ none => absurd none List.not_mem_nil, steady⟩
  have status : NmiAccess cpu (.rdmsr .nmi cpu msrCorePerfGlobalStatus) := rfl
  have handles : NmiMeets requests cpu (Within cpu [] startRegisters) (corePmuNmiHandler cpu)
      state := by
    refine .access _ (within_stable cpu [] _) start fun later held ready => ?_
    refine ⟨(nmiAccess_step requests status held ready).1, ?_⟩
    have read : Within cpu [] startRegisters
        ((startDevice requests).exec (.rdmsr .nmi cpu msrCorePerfGlobalStatus) later).2 := held
    let bits : BitVec 64 := later.1.1.msrs cpu msrCorePerfGlobalStatus
    show Guarded _ _ _ _ (if bits.getLsbD 0 = true then _ else _ : CoreProgram NmiResult) _
    split
    · exact restart_within read
    · exact .ret (within_stable cpu [] _) read
  exact handles.bind fun _ _ held => nmiReturn_within held

end Handler

/-! ## The writers -/

theorem startTarget_counter (value : BitVec 64) :
    startTarget value msrIa32Pmc0 = some (initCount value) := if_pos rfl

theorem startTarget_select (value : BitVec 64) :
    startTarget value msrIa32Perfevtsel0 = some (eventSelect .llcMisses) := by
  rw [startTarget, if_neg (by decide), if_pos rfl]

theorem startTarget_control (value : BitVec 64) :
    startTarget value msrCorePerfGlobalCtrl = some 1 := by
  rw [startTarget, if_neg (by decide), if_neg (by decide), if_pos rfl]

section Writer

variable {online : List Nat} {requests : Nat → ProcWrite} {globals : CoreGlobals} {task : Nat}
  {value : BitVec 64} {state before after : StartWorld}

/-- A writer whose request is accepted has the mutex. -/
structure Owned (task : Nat) (value : BitVec 64) (state : StartWorld) : Prop where
  mutex : state.1.1.mutex = some task
  pending : state.2.pending = some task
  aim : state.2.aim = some value

/-- What an access of that writer keeps: it waits for NMIs to end, and never takes back what
it has announced. -/
structure Sets (before after : StartWorld) : Prop where
  inNmi : after.1.1.inNmi = before.1.1.inNmi
  mutex : after.1.1.mutex = before.1.1.mutex
  order : after.1.2 = before.1.2
  aim : after.2.aim = before.2.aim
  pending : after.2.pending = before.2.pending
  waits : ∀ cpu, before.1.1.inNmi cpu = true →
    after.2.written cpu = before.2.written cpu ∧ after.2.set cpu = before.2.set cpu
  steady : ∀ cpu, before.1.1.inNmi cpu = false → Steady cpu before → Steady cpu after
  announced : ∀ cpu, Announced cpu before → Announced cpu after

/-- An access of that writer is a step of a writer. -/
theorem Owned.step (owned : Owned task value before) (sets : Sets before after) :
    WriterStep online requests globals task before after ∧ Owned task value after := by
  have still : Owned task value after :=
    ⟨sets.mutex.trans owned.mutex, sets.pending.trans owned.pending, sets.aim.trans owned.aim⟩
  refine ⟨⟨sets.inNmi, fun cpu inside => ?_, sets.announced, fun other apart holds => ?_,
    fun starting => ⟨fun cpu outside => ?_, fun cpu => sets.announced cpu (starting.announced cpu),
      fun none => ?_, fun other pending => ?_, ?_, fun none => ?_⟩⟩, still⟩
  · obtain ⟨written, set⟩ := sets.waits cpu inside
    refine ⟨written, fun addr here => ?_⟩
    rw [set] at here
    exact ⟨here, sets.aim⟩
  · rw [owned.mutex] at holds
    exact apart (Option.some.inj holds).symm
  · rw [sets.inNmi] at outside
    exact sets.steady cpu outside (starting.steady cpu outside)
  · rw [still.pending] at none
    cases none
  · rw [sets.pending] at pending
    rw [sets.mutex]
    exact starting.owner other pending
  · rw [sets.aim, sets.order]
    exact starting.aim
  · rw [still.aim] at none
    cases none

/-- How far that writer has come: the initial value is in the globals, then the event as well,
and registers are set on some processors. -/
structure Underhand (task : Nat) (value : BitVec 64) (chosen : Bool)
    (marked : Nat → BitVec 32 → Prop) (state : StartWorld) : Prop extends
    Owned task value state where
  interval : state.1.1.globals.preEventInitValue = value
  event : chosen = true → state.1.1.globals.preEventInfo.event = .llcMisses
  set : ∀ cpu addr, marked cpu addr → state.2.set cpu addr = true

/-- No register is asked for. -/
def unmarked (_ : Nat) (_ : BitVec 32) : Prop := False

theorem owned_stable : Stable (WriterPeace task) (Owned task value) := by
  intro before after peace owned
  obtain ⟨mutex, -, aim, pending, -⟩ := peace owned.mutex
  exact ⟨mutex, pending.trans owned.pending, aim.trans owned.aim⟩

theorem underhand_stable (chosen : Bool) (marked : Nat → BitVec 32 → Prop) :
    Stable (WriterPeace task) (Underhand task value chosen marked) := by
  intro before after peace held
  obtain ⟨-, globals, -, -, set⟩ := peace held.mutex
  refine ⟨owned_stable peace held.toOwned, ?_, fun here => ?_, fun cpu addr here => ?_⟩
  · rw [globals]
    exact held.interval
  · rw [globals]
    exact held.event here
  · rw [set]
    exact held.set cpu addr here

theorem Underhand.mono {chosen : Bool} {marked fewer : Nat → BitVec 32 → Prop}
    (held : Underhand task value chosen marked state)
    (implies : ∀ cpu addr, fewer cpu addr → marked cpu addr) :
    Underhand task value chosen fewer state :=
  ⟨held.toOwned, held.interval, held.event,
    fun cpu addr here => held.set cpu addr (implies cpu addr here)⟩

/-- What belongs in a register is what the writer's initial value says. -/
theorem Owned.target (owned : Owned task value state) (addr : BitVec 32) :
    state.2.target addr = startTarget value addr := by
  rw [StartNote.target, owned.aim]
  rfl

/-- An access that leaves the globals, the NMIs, the mutex and the record alone. -/
theorem sets_same (globals : after.1.1.globals = before.1.1.globals)
    (inNmi : after.1.1.inNmi = before.1.1.inNmi) (mutex : after.1.1.mutex = before.1.1.mutex)
    (order : after.1.2 = before.1.2) (record : after.2 = before.2) : Sets before after := by
  refine ⟨inNmi, mutex, order, congrArg StartNote.aim record, congrArg StartNote.pending record,
    fun _ _ => ?_, fun _ _ steady => ?_, fun _ announced => ?_⟩
  · rw [record]
    exact ⟨rfl, rfl⟩
  · exact steady.of_same (by rw [record]) (by rw [record]) (by rw [record])
  · exact announced.of_same globals (by rw [record]) (by rw [record])

/-- An assignment to the globals that announces what is set. -/
theorem Owned.assign (owned : Owned task value state) {update : CoreGlobals → CoreGlobals}
    (interval :
      (update state.1.1.globals).preEventInitValue = state.1.1.globals.preEventInitValue ∨
        (update state.1.1.globals).preEventInitValue = value)
    (event :
      (update state.1.1.globals).preEventInfo.event = state.1.1.globals.preEventInfo.event ∨
        (update state.1.1.globals).preEventInfo.event = .llcMisses) :
    Sets state ((startDevice requests).exec (.assign update) state).2 := by
  refine ⟨rfl, rfl, rfl, rfl, rfl, fun _ _ => ⟨rfl, rfl⟩, fun _ _ steady => steady,
    fun cpu announced => ⟨fun here => ?_, fun here => ?_, announced.control⟩⟩
  · show some (initCount (update state.1.1.globals).preEventInitValue) =
      state.2.target msrIa32Pmc0
    rcases interval with same | new
    · rw [same]
      exact announced.counter here
    · rw [new, owned.target, startTarget_counter]
  · show some (eventSelect (update state.1.1.globals).preEventInfo.event) =
      state.2.target msrIa32Perfevtsel0
    rcases event with same | new
    · rw [same]
      exact announced.select here
    · rw [new, owned.target, startTarget_select]

/-- A register is written, and marked if it is now as it belongs. -/
theorem Owned.wrmsr (owned : Owned task value state) {cpu : Nat} {addr : BitVec 32}
    {data : BitVec 64} (outside : state.1.1.inNmi cpu = false)
    (interval : state.1.1.globals.preEventInitValue = value)
    (select : addr = msrIa32Perfevtsel0 → data = eventSelect .llcMisses →
      state.1.1.globals.preEventInfo.event = .llcMisses) :
    Sets state ((startDevice requests).exec (.wrmsr .task cpu addr data) state).2 := by
  let after := ((startDevice requests).exec (.wrmsr .task cpu addr data) state).2
  have own : after.2.set cpu addr = decide (some data = state.2.target addr) :=
    if_pos ⟨rfl, rfl, rfl⟩
  have other : ∀ third place, ¬ (third = cpu ∧ place = addr) →
      after.2.set third place = state.2.set third place ∧
        after.2.written third place = state.2.written third place :=
    fun third place apart => ⟨if_neg fun same => apart same.2, if_neg apart⟩
  refine ⟨rfl, rfl, rfl, rfl, rfl, fun third inside => ?_, fun third _ steady place mem here => ?_,
    fun third announced => ⟨fun _ => ?_, fun here => ?_, fun _ => ?_⟩⟩
  · have apart : third ≠ cpu := by
      rintro rfl
      rw [outside] at inside
      cases inside
    exact ⟨funext fun place => (other third place fun same => apart same.1).2,
      funext fun place => (other third place fun same => apart same.1).1⟩
  · by_cases same : third = cpu ∧ place = addr
    · obtain ⟨rfl, rfl⟩ := same
      have fits : some data = state.2.target place := of_decide_eq_true (own.symm.trans here)
      have written : after.2.written third place = some data := if_pos ⟨rfl, rfl⟩
      exact written.trans fits
    · have kept := other third place same
      exact kept.2.trans (steady place mem (kept.1.symm.trans here))
  · show some (initCount state.1.1.globals.preEventInitValue) = state.2.target msrIa32Pmc0
    rw [interval, owned.target, startTarget_counter]
  · by_cases same : third = cpu ∧ msrIa32Perfevtsel0 = addr
    · obtain ⟨rfl, rfl⟩ := same
      have fits := of_decide_eq_true (own.symm.trans here)
      rw [owned.target, startTarget_select] at fits
      show some (eventSelect state.1.1.globals.preEventInfo.event) =
        state.2.target msrIa32Perfevtsel0
      rw [select rfl (Option.some.inj fits), owned.target, startTarget_select]
    · exact announced.select ((other third _ same).1.symm.trans here)
  · show some 1 = state.2.target msrCorePerfGlobalCtrl
    rw [owned.target, startTarget_control]

/-- The obligation of a part of a writer. -/
abbrev WriterMeets (online : List Nat) (requests : Nat → ProcWrite) (globals : CoreGlobals)
    (task : Nat) {α : Type} (post : StartWorld → Prop) (program : CoreProgram α)
    (state : StartWorld) : Prop :=
  Guarded (startDevice requests) (WriterPeace task) (WriterStep online requests globals task)
    (fun _ => post) program state

/-- Accesses of a writer that do not concern the start. -/
def Incidental : CoreOp → Prop
  | .clearNmiTimes _ | .globals => True
  | _ => False

theorem incidental_sets (requests : Nat → ProcWrite) (state : StartWorld) {op : CoreOp}
    (allowed : Incidental op) :
    Sets state ((startDevice requests).exec op state).2 ∧
      ((startDevice requests).exec op state).2.1.1.globals = state.1.1.globals ∧
        ((startDevice requests).exec op state).2.2 = state.2 := by
  cases op with
  | clearNmiTimes cpu => exact ⟨sets_same rfl rfl rfl rfl rfl, rfl, rfl⟩
  | globals => exact ⟨sets_same rfl rfl rfl rfl rfl, rfl, rfl⟩
  | mutexLock task => exact absurd allowed id
  | mutexUnlock => exact absurd allowed id
  | rdmsr context cpu addr => exact absurd allowed id
  | wrmsr context cpu addr data => exact absurd allowed id
  | assign update => exact absurd allowed id
  | incNmiTimes cpu => exact absurd allowed id
  | nmiReturn cpu => exact absurd allowed id
  | nmiListDel => exact absurd allowed id
  | synchronizeRcu => exact absurd allowed id
  | procRemove => exact absurd allowed id

/-- A step of the writer once the initial value is in the globals. -/
theorem Underhand.step {chosen later : Bool} {marked more : Nat → BitVec 32 → Prop}
    (held : Underhand task value chosen marked before) (sets : Sets before after)
    (interval : after.1.1.globals.preEventInitValue = value)
    (event : later = true → after.1.1.globals.preEventInfo.event = .llcMisses)
    (set : ∀ cpu addr, more cpu addr → after.2.set cpu addr = true) :
    WriterStep online requests globals task before after ∧
      Underhand task value later more after := by
  obtain ⟨step, owned⟩ := held.toOwned.step sets
  exact ⟨step, owned, interval, event, set⟩

theorem Underhand.incidental {chosen : Bool} {marked : Nat → BitVec 32 → Prop}
    (held : Underhand task value chosen marked state) {op : CoreOp} (allowed : Incidental op) :
    WriterStep online requests globals task state ((startDevice requests).exec op state).2 ∧
      Underhand task value chosen marked ((startDevice requests).exec op state).2 := by
  obtain ⟨sets, same, record⟩ := incidental_sets requests state allowed
  refine held.step sets ?_ (fun here => ?_) fun cpu addr here => ?_
  · rw [same]
    exact held.interval
  · rw [same]
    exact held.event here
  · rw [record]
    exact held.set cpu addr here

/-- An assignment to the globals before any register is set. -/
theorem Underhand.assign {chosen : Bool} (held : Underhand task value chosen unmarked state)
    (later : Bool) {update : CoreGlobals → CoreGlobals}
    (interval : (update state.1.1.globals).preEventInitValue = value)
    (event :
      (update state.1.1.globals).preEventInfo.event = state.1.1.globals.preEventInfo.event ∨
        (update state.1.1.globals).preEventInfo.event = .llcMisses)
    (chooses : later = true → (update state.1.1.globals).preEventInfo.event = .llcMisses) :
    WriterStep online requests globals task state
        ((startDevice requests).exec (.assign update) state).2 ∧
      Underhand task value later unmarked
        ((startDevice requests).exec (.assign update) state).2 :=
  held.step (held.toOwned.assign (Or.inr interval) event) interval chooses
    fun _ _ here => here.elim

/-- A write that puts a register where it belongs marks it. -/
theorem Underhand.wrmsr {marked : Nat → BitVec 32 → Prop}
    (held : Underhand task value true marked state) {cpu : Nat} {addr : BitVec 32}
    {data : BitVec 64} (fits : some data = startTarget value addr)
    (outside : state.1.1.inNmi cpu = false) :
    WriterStep online requests globals task state
        ((startDevice requests).exec (.wrmsr .task cpu addr data) state).2 ∧
      Underhand task value true (fun third place => marked third place ∨ third = cpu ∧ place = addr)
        ((startDevice requests).exec (.wrmsr .task cpu addr data) state).2 := by
  refine held.step (held.toOwned.wrmsr outside held.interval fun _ _ => held.event rfl)
    held.interval held.event fun third place here => ?_
  show (if Context.task = .task ∧ third = cpu ∧ place = addr then
    decide (some data = state.2.target addr) else state.2.set third place) = true
  by_cases same : third = cpu ∧ place = addr
  · rw [if_pos ⟨rfl, same⟩, held.toOwned.target]
    exact decide_eq_true fits
  · rw [if_neg fun both => same both.2]
    exact held.set third place (here.resolve_right same)

/-! ### The passes -/

/-- Clearing a processor sets nothing. -/
theorem clears_underhand (cpu : Nat) (held : Underhand task value false unmarked state) :
    WriterMeets online requests globals task (Underhand task value false unmarked)
      (corePmuClearMsrsOnCpu .task cpu) state := by
  let clears : CoreOp → Prop := fun op => ∃ addr, op = .wrmsr .task cpu addr 0
  have own : ∀ addr, clears (.wrmsr .task cpu addr 0) := fun addr => ⟨addr, rfl⟩
  have makes : (corePmuClearMsrsOnCpu .task cpu).Makes clears :=
    makes_clearMsrsOnCpu (own _) (own _) (own _) (own _)
  refine Guarded.of_makes makes (underhand_stable false unmarked) ?_ held
  rintro op ⟨addr, rfl⟩ later held ready
  have chosen : eventSelect .llcMisses ≠ 0 := by decide
  exact held.step (held.toOwned.wrmsr ready held.interval fun _ zero => absurd zero.symm chosen)
    held.interval held.event fun _ _ here => here.elim

theorem clears_online (held : Underhand task value false unmarked state) :
    WriterMeets online requests globals task (Underhand task value false unmarked)
      (corePmuClearMsrs online) state :=
  Guarded.forEach (fun _ => Underhand task value false unmarked) (underhand_stable false unmarked)
    (fun cpu _ _ held => clears_underhand cpu held) held

/-- Programming a processor sets its counter and its event select. -/
theorem programs_underhand {marked : Nat → BitVec 32 → Prop} (cpu : Nat)
    (held : Underhand task value true marked state) :
    WriterMeets online requests globals task
      (Underhand task value true fun third place =>
        (marked third place ∨ third = cpu ∧ place = msrIa32Pmc0) ∨
          third = cpu ∧ place = msrIa32Perfevtsel0)
      (corePmuEnablePredefinedEventOnCpu .task cpu) state := by
  have reads : Incidental .globals := trivial
  refine .access _ (underhand_stable true marked) held fun first held _ => ?_
  refine ⟨(held.incidental reads).1, ?_⟩
  have counter : some (initCount first.1.1.globals.preEventInitValue) =
      startTarget value msrIa32Pmc0 := by
    rw [startTarget_counter, held.interval]
  refine .access _ (underhand_stable true marked) held fun second held _ => ?_
  refine ⟨(held.incidental reads).1, ?_⟩
  have select : some (eventSelect second.1.1.globals.preEventInfo.event) =
      startTarget value msrIa32Perfevtsel0 := by
    rw [startTarget_select, held.event rfl]
  refine .access _ (underhand_stable true marked) held fun third held ready => ?_
  refine And.imp_right (fun held => ?_) (held.wrmsr counter ready)
  refine .access _ (underhand_stable true _) held fun last held ready => ?_
  exact And.imp_right (.ret (underhand_stable true _)) (held.wrmsr select ready)

/-- Enabling a processor sets its global control. -/
theorem enables_underhand {marked : Nat → BitVec 32 → Prop} (cpu : Nat)
    (held : Underhand task value true marked state) :
    WriterMeets online requests globals task
      (Underhand task value true fun third place =>
        marked third place ∨ third = cpu ∧ place = msrCorePerfGlobalCtrl)
      (corePmuEnableCountingOnCpu .task cpu) state := by
  refine .access _ (underhand_stable true marked) held fun later held ready => ?_
  exact And.imp_right (.ret (underhand_stable true _))
    (held.wrmsr (startTarget_control value).symm ready)

/-- The registers that a pass has set, on the processors it has come past. -/
def passed (online rest : List Nat) (registers : List (BitVec 32)) (cpu : Nat)
    (addr : BitVec 32) : Prop :=
  cpu ∈ online ∧ cpu ∉ rest ∧ addr ∈ registers

/-- The registers of the first two passes. -/
def programmedRegisters : List (BitVec 32) := [msrIa32Pmc0, msrIa32Perfevtsel0]

theorem programs_online (held : Underhand task value true unmarked state) :
    WriterMeets online requests globals task
      (Underhand task value true (passed online [] programmedRegisters))
      (forEachOnlineCpu online (corePmuEnablePredefinedEventOnCpu .task)) state := by
  apply Guarded.forEach
    (fun rest => Underhand task value true (passed online rest programmedRegisters))
    (underhand_stable true _)
  · intro cpu rest later held
    apply (programs_underhand cpu held).mono
    intro _ after done
    apply done.mono
    rintro third place ⟨mem, beyond, register⟩
    by_cases here : third = cpu
    · simp only [programmedRegisters, List.mem_cons, List.not_mem_nil, or_false] at register
      rcases register with counter | select
      · exact Or.inl (Or.inr ⟨here, counter⟩)
      · exact Or.inr ⟨here, select⟩
    · exact Or.inl (Or.inl ⟨mem, fun listed => (List.mem_cons.mp listed).elim here beyond,
        register⟩)
  · exact held.mono fun _ _ none => none.2.1 none.1

/-- What has been set when the last pass has come past some processors. -/
def enabledTo (online rest : List Nat) (cpu : Nat) (addr : BitVec 32) : Prop :=
  passed online [] programmedRegisters cpu addr ∨
    passed online rest [msrCorePerfGlobalCtrl] cpu addr

theorem enables_online
    (held : Underhand task value true (passed online [] programmedRegisters) state) :
    WriterMeets online requests globals task (Underhand task value true (enabledTo online []))
      (corePmuEnableCounting online) state := by
  apply Guarded.forEach (fun rest => Underhand task value true (enabledTo online rest))
    (underhand_stable true _)
  · intro cpu rest later held
    apply (enables_underhand cpu held).mono
    intro _ after done
    apply done.mono
    rintro third place (programmed | ⟨mem, beyond, register⟩)
    · exact Or.inl (Or.inl programmed)
    · by_cases here : third = cpu
      · exact Or.inr ⟨here, List.mem_singleton.mp register⟩
      · exact Or.inl (Or.inr ⟨mem, fun listed => (List.mem_cons.mp listed).elim here beyond,
          register⟩)
  · exact held.mono fun _ _ here => here.resolve_right fun enabled => enabled.2.1 enabled.1

/-- The initial value calls for sampling, and everything is set on the online processors. -/
def startedOn (value : BitVec 64) (online : List Nat) (cpu : Nat) (addr : BitVec 32) : Prop :=
  value ≠ 0 ∧ cpu ∈ online ∧ addr ∈ startRegisters

theorem enabledTo_of_started {cpu : Nat} {addr : BitVec 32}
    (started : startedOn value online cpu addr) : enabledTo online [] cpu addr := by
  obtain ⟨-, mem, register⟩ := started
  simp only [startRegisters, List.mem_cons, List.not_mem_nil, or_false] at register
  rcases register with counter | select | control
  · exact Or.inl ⟨mem, List.not_mem_nil, by simp [programmedRegisters, counter]⟩
  · exact Or.inl ⟨mem, List.not_mem_nil, by simp [programmedRegisters, select]⟩
  · exact Or.inr ⟨mem, List.not_mem_nil, List.mem_singleton.mpr control⟩

/-- `core_pmu_start_sampling` sets everything on the online processors. -/
theorem startSampling_underhand (held : Underhand task value false unmarked state) :
    WriterMeets online requests globals task (Underhand task value true (startedOn value online))
      (corePmuStartSampling online) state := by
  apply (clears_online held).bind
  intro _ cleared held
  have reads : Incidental .globals := trivial
  refine .access _ (underhand_stable false unmarked) held fun read held _ => ?_
  refine ⟨(held.incidental reads).1, ?_⟩
  have held : Underhand task value false unmarked
      ((startDevice requests).exec .globals read).2 := held
  -- The event is chosen before any processor is programmed.
  have chooses : ∀ later, Underhand task value false unmarked later → ∀ threshold,
      WriterMeets online requests globals task
        (Underhand task value true (passed online [] programmedRegisters))
        (corePmuEnablePredefinedEvent online .llcMisses threshold) later := by
    intro later held threshold
    refine .access _ (underhand_stable false unmarked) held fun first held _ => ?_
    refine And.imp_right (fun held => ?_)
      (held.assign true held.interval (Or.inr rfl) fun _ => rfl)
    refine .access _ (underhand_stable true unmarked) held fun second held _ => ?_
    exact And.imp_right programs_online
      (held.assign true held.interval (Or.inl rfl) fun _ => held.event rfl)
  apply (chooses _ held _).bind
  intro _ programmed held
  apply (enables_online held).mono
  intro _ enabled done
  exact done.mono fun _ _ started => enabledTo_of_started started

/-! ### A request -/

/-- A writer whose request is refused has the mutex, and nothing to end. -/
structure Refused (task : Nat) (state : StartWorld) : Prop where
  mutex : state.1.1.mutex = some task
  pending : state.2.pending = none

theorem refused_stable : Stable (WriterPeace task) (Refused task) := by
  intro before after peace refused
  obtain ⟨mutex, -, -, pending, -⟩ := peace refused.mutex
  exact ⟨mutex, pending.trans refused.pending⟩

theorem lastInterval_append (requests : Nat → ProcWrite) (task : Nat) (order : List Nat) :
    lastInterval requests (order ++ [task]) =
      match intervalAsked (requests task) with
      | some asked => some asked
      | none => lastInterval requests order := by
  unfold lastInterval
  cases asked : intervalAsked (requests task) with
  | none => simp [asked]
  | some value => simp [asked]

/-- A writer takes the mutex. -/
theorem lock_step (free : state.1.1.mutex = none) :
    WriterStep online requests globals task state
      ((startDevice requests).exec (.mutexLock task) state).2 := by
  let after := ((startDevice requests).exec (.mutexLock task) state).2
  have record : after.2 = state.2.begin task (intervalAsked (requests task)) := rfl
  have order := lastInterval_append requests task state.1.2
  have unowned : ∀ other, state.1.1.mutex ≠ some other := fun other holds => by
    rw [free] at holds
    cases holds
  cases asked : intervalAsked (requests task) with
  | none =>
      rw [asked] at record order
      have same : after.2.written = state.2.written ∧ after.2.set = state.2.set ∧
          after.2.aim = state.2.aim := by
        rw [record]
        exact ⟨rfl, rfl, rfl⟩
      obtain ⟨written, set, aim⟩ := same
      have announced : ∀ cpu, Announced cpu state → Announced cpu after :=
        fun cpu known => known.of_same rfl (congrFun set cpu) aim
      refine ⟨rfl, fun cpu _ => ⟨congrFun written cpu, fun addr here => ?_⟩, announced,
        fun other _ => unowned other, fun starting => ?_⟩
      · rw [congrFun set cpu] at here
        exact ⟨here, aim⟩
      · have ended : state.2.pending = none := by
          cases pending : state.2.pending with
          | none => rfl
          | some other => exact absurd (starting.owner other pending) (unowned other)
        refine ⟨fun cpu outside => ?_, fun cpu => announced cpu (starting.announced cpu),
          fun _ => (starting.complete ended).of_same rfl set aim, fun other pending => ?_, ?_,
          fun none => ?_⟩
        · exact (starting.steady cpu outside).of_same (congrFun written cpu) (congrFun set cpu) aim
        · rw [record] at pending
          cases pending
        · rw [aim, starting.aim]
          exact order.symm
        · rw [aim] at none
          exact starting.untouched none
  | some value =>
      rw [asked] at record order
      have blank : ∀ cpu addr, after.2.set cpu addr ≠ true := by
        intro cpu addr here
        rw [record] at here
        cases here
      have announced : ∀ cpu, Announced cpu after := fun cpu =>
        ⟨fun here => absurd here (blank cpu _), fun here => absurd here (blank cpu _),
          fun here => absurd here (blank cpu _)⟩
      have aim : after.2.aim = some value := by rw [record, StartNote.begin]
      have pending : after.2.pending = some task := by rw [record, StartNote.begin]
      refine ⟨rfl, fun cpu _ => ⟨by rw [record, StartNote.begin], fun addr here => ?_⟩,
        fun cpu _ => announced cpu, fun other _ => unowned other, fun starting => ?_⟩
      · exact absurd here (blank cpu addr)
      · refine ⟨fun cpu _ addr _ here => absurd here (blank cpu addr), announced, fun none => ?_,
          fun other owns => ?_, aim.trans order.symm, fun none => ?_⟩
        · rw [pending] at none
          cases none
        · rw [pending] at owns
          cases owns
          rfl
        · rw [aim] at none
          cases none

/-- A writer releases the mutex, when it has done what its request asks for. -/
theorem unlock_step (mutex : state.1.1.mutex = some task)
    (done : state.2.pending = none ∨ Complete online state) :
    WriterStep online requests globals task state
      ((startDevice requests).exec .mutexUnlock state).2 := by
  have announced : ∀ cpu, Announced cpu state →
      Announced cpu ((startDevice requests).exec .mutexUnlock state).2 :=
    fun cpu known => known.of_same rfl rfl rfl
  refine ⟨rfl, fun cpu _ => ⟨rfl, fun addr here => ⟨here, rfl⟩⟩, announced,
    fun other apart holds => ?_, fun starting => ?_⟩
  · rw [mutex] at holds
    exact apart (Option.some.inj holds).symm
  · have complete : Complete online state := done.elim starting.complete id
    refine ⟨fun cpu outside => (starting.steady cpu outside).of_same rfl rfl rfl,
      fun cpu => announced cpu (starting.announced cpu), fun _ => complete.of_same rfl rfl rfl,
      fun other pending => ?_, starting.aim, starting.untouched⟩
    cases pending

/-- The initial value is announced, and the counts are cleared, before any register is
touched. -/
theorem begins_underhand {post : StartWorld → Prop} {rest : CoreProgram Unit}
    (owned : Owned task value state)
    (follows : ∀ later, Underhand task value false unmarked later →
      WriterMeets online requests globals task post rest later) :
    WriterMeets online requests globals task post
      ((access (.assign fun state => { state with preEventInitValue := value })).bind fun _ =>
        (corePmuClearCounter online).bind fun _ => rest) state := by
  refine .access _ owned_stable owned fun begun owned _ => ?_
  have sets : Sets begun ((startDevice requests).exec
      (.assign fun state => { state with preEventInitValue := value }) begun).2 :=
    owned.assign (Or.inr rfl) (Or.inl rfl)
  have both : WriterStep online requests globals task begun _ ∧ Owned task value _ :=
    owned.step sets
  refine ⟨both.1, ?_⟩
  have held : Underhand task value false unmarked _ :=
    ⟨both.2, rfl, fun none => (Bool.false_ne_true none).elim, fun _ _ here => here.elim⟩
  have clears : (corePmuClearCounter online).Makes Incidental :=
    .forEach fun cpu _ => ⟨trivial, fun _ => trivial⟩
  apply (Guarded.of_makes clears (underhand_stable false unmarked)
    (fun op allowed later held _ => held.incidental allowed) held).bind
  exact fun _ counted held => follows counted held

/-- Everything that the initial value calls for is set. -/
abbrev Done (online : List Nat) (task : Nat) (value : BitVec 64) : StartWorld → Prop :=
  Underhand task value false (startedOn value online)

theorem Underhand.done {chosen : Bool} {marked : Nat → BitVec 32 → Prop}
    (held : Underhand task value chosen marked state)
    (marks : ∀ cpu addr, startedOn value online cpu addr → marked cpu addr) :
    Done online task value state :=
  ⟨held.toOwned, held.interval, fun none => (Bool.false_ne_true none).elim,
    fun cpu addr here => held.set cpu addr (marks cpu addr here)⟩

theorem complete_of_done (done : Done online task value state) : Complete online state := by
  intro aimed here
  rw [done.aim] at here
  cases here
  exact ⟨done.interval, fun samples cpu mem addr register =>
    done.set cpu addr ⟨samples, mem, register⟩⟩

/-- The `switch` does what an accepted request asks for. -/
theorem switch_underhand {ctl : BitVec 8} {count : Nat}
    (asked : (if ctl = 0x30 then some 0 else samplingValue ctl) = some value)
    (owned : Owned task value state) :
    WriterMeets online requests globals task (Done online task value)
      (switchSampling online ctl count) state := by
  by_cases stop : ctl = 0x30
  · rw [if_pos stop] at asked
    cases asked
    have stops : WriterMeets online requests globals task (Done online task 0)
        (stopSampling online) state := by
      apply begins_underhand owned
      intro later held
      exact (clears_online held).mono fun _ _ cleared =>
        cleared.done fun _ _ started => absurd rfl started.1
    rw [switchSampling, if_pos stop]
    exact stops.bind fun _ _ done => .ret (underhand_stable false _) done
  · rw [if_neg stop] at asked
    have restarts : WriterMeets online requests globals task (Done online task value)
        (restartSampling online value) state := by
      apply begins_underhand owned
      intro later held
      exact (startSampling_underhand held).mono fun _ _ started => started.done fun _ _ => id
    rw [switchSampling_of_value asked]
    exact restarts.bind fun _ _ done => .ret (underhand_stable false _) done

/-- The `switch` refuses any other request. -/
theorem switchSampling_refused {ctl : BitVec 8} {count : Nat}
    (asked : (if ctl = 0x30 then some 0 else samplingValue ctl) = none) :
    switchSampling online ctl count = .ret (-einval) := by
  by_cases stop : ctl = 0x30
  · rw [if_pos stop] at asked
    cases asked
  · rw [if_neg stop] at asked
    rw [switchSampling, if_neg stop, asked]
    rfl

theorem intervalAsked_of_formed {request : ProcWrite} {ctl : BitVec 8 × BitVec 8}
    (formed : ¬ (request.count ≠ 2 ∨ request.offs ≠ 0)) (copied : request.buf = some ctl) :
    intervalAsked request = if ctl.1 = 0x30 then some 0 else samplingValue ctl.1 := by
  rw [intervalAsked, if_neg formed, copied]
  rfl

/-- A writer does what its request asks for, and nothing if it is refused. -/
theorem requestTask_meets (online : List Nat) (requests : Nat → ProcWrite) (globals : CoreGlobals)
    (task : Nat) (state : StartWorld) :
    WriterMeets online requests globals task (fun _ => True)
      (requestTask online task (requests task)) state := by
  have ended : ∀ {α : Type} (result : α) (later : StartWorld),
      WriterMeets online requests globals task (fun _ => True) (Program.ret result) later :=
    fun _ _ _ _ => trivial
  have always : Stable (WriterPeace task) fun _ => True := fun _ _ _ _ => trivial
  have writes : WriterMeets online requests globals task (fun _ => True)
      (corePmuProcWrite online task (requests task)) state := by
    rw [corePmuProcWrite]
    split
    · exact ended _ _
    · next formed =>
        cases copied : (requests task).buf with
        | none => exact ended _ _
        | some ctl =>
            have reads := intervalAsked_of_formed formed copied
            refine .access _ always trivial fun locked _ free => ⟨lock_step free, ?_⟩
            show Guarded _ _ _ _ ((switchSampling online ctl.1 (requests task).count).bind _) _
            cases asked : (if ctl.1 = 0x30 then some 0 else samplingValue ctl.1) with
            | none =>
                rw [switchSampling_refused asked]
                have refused : Refused task
                    ((startDevice requests).exec (.mutexLock task) locked).2 := by
                  refine ⟨rfl, ?_⟩
                  show (locked.2.begin task (intervalAsked (requests task))).pending = none
                  rw [reads, asked, StartNote.begin]
                refine .access _ refused_stable refused fun later held _ => ?_
                exact ⟨unlock_step held.mutex (Or.inl held.pending), ended _ _⟩
            | some value =>
                have owned : Owned task value
                    ((startDevice requests).exec (.mutexLock task) locked).2 := by
                  have begins : ((startDevice requests).exec (.mutexLock task) locked).2.2 =
                      locked.2.begin task (some value) :=
                    congrArg (fun asks => locked.2.begin task asks) (reads.trans asked)
                  refine ⟨rfl, ?_, ?_⟩
                  · rw [begins, StartNote.begin]
                  · rw [begins, StartNote.begin]
                apply (switch_underhand asked owned).bind
                intro _ switched done
                refine .access _ (underhand_stable false _) done fun later done _ => ?_
                exact ⟨unlock_step done.mutex (Or.inr (complete_of_done done)), ended _ _⟩
  exact writes.bind fun _ later _ => ended () later

end Writer

/-! ## What the record is a record of -/

/-- The registers that start a processor have what was last written to them; the counter has
moved on, and its note says what it was loaded with. -/
def Recorded (state : StartWorld) : Prop :=
  ∀ cpu addr data, state.2.written cpu addr = some data →
    (addr = msrIa32Perfevtsel0 ∨ addr = msrCorePerfGlobalCtrl →
      state.1.1.msrs cpu addr = data) ∧
    (addr = msrIa32Pmc0 → (state.1.1.notes cpu).interval = some data)

section Recorded

variable {online : List Nat} {requests : Nat → ProcWrite} {state : StartWorld}

theorem Recorded.of_same (recorded : Recorded state) {after : StartWorld}
    (msrs : ∀ cpu addr, addr = msrIa32Perfevtsel0 ∨ addr = msrCorePerfGlobalCtrl →
      after.1.1.msrs cpu addr = state.1.1.msrs cpu addr)
    (notes : ∀ cpu, (after.1.1.notes cpu).interval = (state.1.1.notes cpu).interval)
    (written : after.2.written = state.2.written) : Recorded after := by
  intro cpu addr data here
  rw [written] at here
  have known := recorded cpu addr data here
  refine ⟨fun register => ?_, fun counter => ?_⟩
  · rw [msrs cpu addr register]
    exact known.1 register
  · rw [notes cpu]
    exact known.2 counter

/-- Counting moves neither the event select nor the global control. -/
theorem miss_register {regs : MsrFile} {addr : BitVec 32}
    (register : addr = msrIa32Perfevtsel0 ∨ addr = msrCorePerfGlobalCtrl) :
    regs.miss addr = regs addr := by
  have apart : addr ≠ msrIa32Pmc0 ∧ addr ≠ msrCorePerfGlobalStatus := by
    rcases register with rfl | rfl
    · decide
    · decide
  rw [MsrFile.miss]
  split
  · split
    · rw [MsrFile.overflow, Function.update_of_ne apart.2, Function.update_of_ne apart.1]
    · exact Function.update_of_ne apart.1 _ _
  · rfl

theorem Recorded.environment (recorded : Recorded state) {after : StartWorld}
    (moves : Pool.ghostEnv (Pool.ghostEnv Misses) state after) : Recorded after := by
  obtain ⟨⟨world, order⟩, note⟩ := state
  obtain ⟨⟨later, ordered⟩, noted⟩ := after
  obtain ⟨⟨misses, -⟩, same⟩ := moves
  cases misses with
  | miss own =>
      refine recorded.of_same (fun cpu addr register => ?_) (fun _ => rfl)
        (congrArg StartNote.written same)
      show Function.update world.msrs own (world.msrs own).miss cpu addr = world.msrs cpu addr
      by_cases same : cpu = own
      · rw [same, Function.update_self]
        exact miss_register register
      · rw [Function.update_of_ne same]

/-- A write to a register leaves the others that start a processor alone. -/
theorem wrmsr_register {regs : MsrFile} {addr place : BitVec 32} {data : BitVec 64}
    (register : place = msrIa32Perfevtsel0 ∨ place = msrCorePerfGlobalCtrl) :
    regs.wrmsr addr data place = if place = addr then data else regs place := by
  have apart : place ≠ msrCorePerfGlobalOvfCtrl ∧ place ≠ msrCorePerfGlobalStatus := by
    rcases register with rfl | rfl
    · decide
    · decide
  rw [MsrFile.wrmsr]
  split
  · next control =>
      rw [Function.update_of_ne apart.2, if_neg fun same => apart.1 (same.trans control)]
  · by_cases same : place = addr
    · rw [same, Function.update_self, if_pos rfl]
    · rw [Function.update_of_ne same, if_neg same]

theorem Recorded.wrmsr (recorded : Recorded state) (context : Context) (own : Nat)
    (place : BitVec 32) (value : BitVec 64) :
    Recorded ((startDevice requests).exec (.wrmsr context own place value) state).2 := by
  intro cpu addr data written
  have record : (if cpu = own ∧ addr = place then some value else state.2.written cpu addr) =
      some data := written
  by_cases here : cpu = own
  · subst here
    refine ⟨fun register => ?_, fun counter => ?_⟩
    · show Function.update state.1.1.msrs cpu ((state.1.1.msrs cpu).wrmsr place value) cpu addr =
        data
      rw [Function.update_self, wrmsr_register register]
      by_cases same : addr = place
      · rw [if_pos ⟨rfl, same⟩] at record
        rw [if_pos same]
        exact Option.some.inj record
      · rw [if_neg fun both => same both.2] at record
        rw [if_neg same]
        exact (recorded cpu addr data record).1 register
    · subst counter
      show (Function.update state.1.1.notes cpu
        ((state.1.1.notes cpu).wrmsr place value) cpu).interval = some data
      rw [Function.update_self, CoreNote.wrmsr]
      by_cases same : msrIa32Pmc0 = place
      · rw [if_pos ⟨rfl, same⟩] at record
        rw [if_pos same.symm]
        exact record
      · rw [if_neg fun both => same both.2] at record
        rw [if_neg fun equal => same equal.symm]
        exact (recorded cpu msrIa32Pmc0 data record).2 rfl
  · rw [if_neg fun both => here both.1] at record
    refine ⟨fun register => ?_, fun counter => ?_⟩
    · show Function.update state.1.1.msrs own _ cpu addr = data
      rw [Function.update_of_ne here]
      exact (recorded cpu addr data record).1 register
    · show (Function.update state.1.1.notes own _ cpu).interval = some data
      rw [Function.update_of_ne here]
      exact (recorded cpu addr data record).2 counter

/-- Taking the mutex writes to no register. -/
theorem begin_written (task : Nat) (asked : Option (BitVec 64)) (note : StartNote) :
    (note.begin task asked).written = note.written := by
  cases asked with
  | none => rfl
  | some value => rfl

theorem Recorded.access (recorded : Recorded state) (op : CoreOp) :
    Recorded ((startDevice requests).exec op state).2 := by
  cases op with
  | wrmsr context own place data => exact recorded.wrmsr context own place data
  | clearNmiTimes own =>
      refine recorded.of_same (fun _ _ _ => rfl) (fun cpu => ?_) rfl
      show (Function.update state.1.1.notes own (state.1.1.notes own).clear cpu).interval = _
      by_cases same : cpu = own
      · rw [same, Function.update_self]
        rfl
      · rw [Function.update_of_ne same]
  | mutexLock task =>
      exact recorded.of_same (fun _ _ _ => rfl) (fun _ => rfl) (begin_written task _ _)
  | _ => exact recorded.of_same (fun _ _ _ => rfl) (fun _ => rfl) rfl

end Recorded

/-! ## The result -/

/-- A pool of the machine with the record. -/
abbrev StartPool := Pool CoreThread CoreOp CoreOp.Res StartWorld

/-- What starts a writer or a handler, with the record. -/
abbrev Launches (online : List Nat) (requests : Nat → ProcWrite) :
    StartPool → CoreThread → CoreProgram Unit → StartWorld → Prop :=
  Pool.ghostLaunch (Pool.ghostLaunch (WriteOrNmi online requests))

/-- The obligations of the writers and the handlers. -/
abbrev WritersMeet (online : List Nat) (requests : Nat → ProcWrite) (globals : CoreGlobals)
    (pool : StartPool) : Prop :=
  Pool.Meets (startDevice requests) writersRely (writersGuar online requests globals)
    (fun _ _ _ => True) (Starting online requests globals) pool

section Result

variable {online : List Nat} {requests : Nat → ProcWrite} {globals : CoreGlobals}

/-- A processor enters an NMI. -/
def entering (cpu : Nat) (state : StartWorld) : StartWorld :=
  ((state.1.1.setInNmi cpu true, state.1.2), state.2)

theorem Starting.enters {state : StartWorld} (starting : Starting online requests globals state)
    (cpu : Nat) : Starting online requests globals (entering cpu state) where
  steady other outside := by
    have was : Function.update state.1.1.inNmi cpu true other = false := outside
    by_cases same : other = cpu
    · rw [same, Function.update_self] at was
      cases was
    · rw [Function.update_of_ne same] at was
      exact (starting.steady other was).of_same rfl rfl rfl
  announced other := (starting.announced other).of_same rfl rfl rfl
  complete none := (starting.complete none).of_same rfl rfl rfl
  owner := starting.owner
  aim := starting.aim
  untouched := starting.untouched

/-- What starts a thread finds the others as they were. -/
theorem launches_meets {pool : StartPool} {thread : CoreThread} {program : CoreProgram Unit}
    {after : StartWorld} (meets : WritersMeet online requests globals pool)
    (launches : Launches online requests pool thread program after) :
    WritersMeet online requests globals ⟨Function.update pool.threads thread program, after⟩ := by
  obtain ⟨threads, ⟨world, order⟩, note⟩ := pool
  obtain ⟨⟨later, ordered⟩, noted⟩ := after
  obtain ⟨⟨launches, sameOrder⟩, sameNote⟩ := launches
  cases sameOrder
  cases sameNote
  cases launches with
  | @write task idle =>
      refine ⟨fun other => ?_, meets.holds⟩
      by_cases same : other = .writer task
      · subst same
        dsimp only
        rw [Function.update_self]
        exact requestTask_meets online requests globals task _
      · dsimp only
        rw [Function.update_of_ne same]
        exact meets.guarded other
  | @nmi cpu idle outside registered =>
      let state : StartWorld := ((world, order), note)
      have holds : Starting online requests globals state := meets.holds
      refine ⟨fun other => ?_, holds.enters cpu⟩
      by_cases same : other = .nmi cpu
      · subst same
        dsimp only
        rw [Function.update_self]
        have inside : (entering cpu state).1.1.inNmi cpu = true := Function.update_self _ _ _
        have steady : Steady cpu (entering cpu state) :=
          (holds.steady cpu outside).of_same rfl rfl rfl
        exact runNmi_within inside steady ((holds.announced cpu).of_same rfl rfl rfl)
      · dsimp only
        rw [Function.update_of_ne same]
        apply (meets.guarded other).of_rely
        apply ReflTransGen.single
        cases other with
        | writer task => exact fun held => ⟨held, rfl, rfl, rfl, rfl⟩
        | nmi apart =>
            have elsewhere : apart ≠ cpu := fun equal => same (congrArg CoreThread.nmi equal)
            exact ⟨Function.update_of_ne elsewhere _ _, fun _ => rfl,
              fun _ _ here => ⟨here, rfl⟩, fun known => known.of_same rfl rfl rfl⟩

theorem Recorded.step {before after : StartPool} (recorded : Recorded before.state)
    (step : Pool.Step (startDevice requests) (Pool.ghostEnv (Pool.ghostEnv Misses))
      (Launches online requests) before after) : Recorded after.state := by
  cases step with
  | environment moves => exact recorded.environment moves
  | access here ready => exact recorded.access _
  | @launch thread program after launches =>
      obtain ⟨⟨world, order⟩, note⟩ := after
      obtain ⟨⟨launches, -⟩, same⟩ := launches
      cases launches with
      | write idle =>
          exact recorded.of_same (fun _ _ _ => rfl) (fun _ => rfl) (congrArg StartNote.written same)
      | nmi idle outside registered =>
          exact recorded.of_same (fun _ _ _ => rfl) (fun _ => rfl) (congrArg StartNote.written same)

theorem Recorded.reaches {before after : StartPool} (recorded : Recorded before.state)
    (reaches : Pool.Reaches (startDevice requests) (Pool.ghostEnv (Pool.ghostEnv Misses))
      (Launches online requests) before after) : Recorded after.state := by
  induction reaches with
  | refl => exact recorded
  | tail _ step ih => exact ih.step step

/-- Before the first write the record is blank. -/
theorem starting_quiet (online : List Nat) (requests : Nat → ProcWrite) (world : CoreWorld) :
    Starting online requests world.globals ((world, []), {}) := by
  have blank : ∀ {claim : Prop}, false = true → claim :=
    fun none => (Bool.false_ne_true none).elim
  refine ⟨fun _ _ _ _ here => blank here, fun _ => ⟨blank, blank, blank⟩,
    fun _ _ none => ?_, fun _ none => ?_, rfl, fun _ => rfl⟩
  · cases none
  · cases none

/-- A processor where everything is set samples LLC misses. -/
theorem samplesMisses_of_set {state : StartWorld} {value : BitVec 64} {cpu : Nat}
    (recorded : Recorded state) (aim : state.2.aim = some value) (steady : Steady cpu state)
    (set : ∀ addr ∈ startRegisters, state.2.set cpu addr = true) :
    SamplesMisses value state.1.1 cpu := by
  have there : ∀ addr ∈ startRegisters, state.2.written cpu addr = startTarget value addr := by
    intro addr register
    rw [steady addr register (set addr register), StartNote.target, aim]
    rfl
  have select := there msrIa32Perfevtsel0 (by decide)
  have control := there msrCorePerfGlobalCtrl (by decide)
  have counter := there msrIa32Pmc0 (by decide)
  rw [startTarget_select] at select
  rw [startTarget_control] at control
  rw [startTarget_counter] at counter
  exact ⟨(recorded cpu _ _ select).1 (Or.inl rfl), (recorded cpu _ _ control).1 (Or.inr rfl),
    (recorded cpu _ _ counter).2 rfl⟩

/-- Any number of tasks write to the file, and NMIs come to any processor at any time. Whenever
the mutex is free, the initial value is what the last accepted write asked for, or what it was
if there was none; and if that is an interval, every online processor that is not in an NMI
samples LLC misses with it. -/
theorem intervalSettled_of_reaches (online : List Nat) (requests : Nat → ProcWrite)
    {world : CoreWorld} {pool : WriterPool}
    (run : WriterRun online requests (quietPool world) pool)
    (released : pool.state.1.mutex = none) :
    IntervalSettled online (lastInterval requests pool.state.2) world pool.state.1 := by
  obtain ⟨record, recording⟩ := Pool.reaches_observe (StartNote.note requests) run {}
  have begins : WritersMeet online requests world.globals
      ⟨(quietPool world).threads, (quietPool world).state, {}⟩ :=
    ⟨fun _ _ _ => trivial, starting_quiet online requests world⟩
  have ended := (begins.reaches writers_compatible
    (fun _ _ _ _ meets launches => launches_meets meets launches) recording).holds
  have blank : Recorded ((quietPool world).state, {}) := fun _ _ _ none => nomatch none
  have recorded := blank.reaches recording
  have idle : record.pending = none := by
    cases pending : record.pending with
    | none => rfl
    | some task =>
        have holds := (ended.owner task pending).symm.trans released
        cases holds
  have aim : record.aim = lastInterval requests pool.state.2 := ended.aim
  cases last : lastInterval requests pool.state.2 with
  | none => exact ended.untouched (aim.trans last)
  | some value =>
      obtain ⟨shown, set⟩ := ended.complete idle value (aim.trans last)
      exact ⟨shown, fun samples cpu mem outside => samplesMisses_of_set recorded (aim.trans last)
        (ended.steady cpu outside) (set samples cpu mem)⟩

/-! ### One processor -/

/-- The passes of a start wait for no more than the end of the NMIs. -/
theorem corePmuStartSampling_prompt (online : List Nat) :
    (corePmuStartSampling online).Makes Prompt := by
  have waits : ∀ {op : CoreOp}, (∀ world, coreDevice.ready op world) →
      (∀ world, (exec op world).2.inNmi = world.inNmi) → Prompt op :=
    fun ready same => (prompt_of_ready ready same).1
  apply makes_corePmuStartSampling
  · exact waits (fun _ => trivial) fun _ => rfl
  · exact fun update => waits (fun _ => trivial) fun _ => rfl
  · exact fun cpu _ => makes_clearMsrsOnCpu (prompt_wrmsr cpu _ _) (prompt_wrmsr cpu _ _)
      (prompt_wrmsr cpu _ _) (prompt_wrmsr cpu _ _)
  · exact fun cpu _ => makes_enablePredefinedEventOnCpu (waits (fun _ => trivial) fun _ => rfl)
      (fun _ => prompt_wrmsr cpu _ _) fun _ => prompt_wrmsr cpu _ _
  · exact fun cpu _ => makes_enableCountingOnCpu (prompt_wrmsr cpu _ _)

/-- What a program leaves when it runs alone. -/
def ranWriter (program : CoreProgram Unit) (state : WriterWorld) : WriterWorld :=
  (program.run writerDevice.exec state).2

/-- The task writes `'1'`. -/
def startRequest : ProcWrite := ⟨2, 0, some (0x31, 0x0a)⟩

/-- A write of `'1'` that finds the mutex free can run to its end. -/
theorem startRequest_completes (online : List Nat) (task : Nat) {state : WriterWorld}
    (outside : OutsideNmi state.1) (free : state.1.mutex = none) :
    Completes writerDevice (Pool.ghostEnv Misses) (requestTask online task startRequest) state ()
      (ranWriter (requestTask online task startRequest) state) := by
  have assigns : (access (.assign fun state => { state with preEventInitValue := -32 })).Makes
      Prompt := prompt_of_ready (fun _ => trivial) fun _ => rfl
  have unlocks : (access .mutexUnlock).Makes Prompt :=
    prompt_of_ready (fun _ => trivial) fun _ => rfl
  have restarts : (restartSampling online (-32)).Makes Prompt :=
    assigns.bind fun _ => (corePmuClearCounter_prompt online).bind fun _ =>
      corePmuStartSampling_prompt online
  have switches : (switchSampling online 0x31 2).Makes Prompt := by
    have sampling : samplingValue 0x31 = some (-32) := rfl
    rw [switchSampling_of_value sampling]
    exact restarts.bind fun _ => trivial
  have finishes : ∀ count : Int, ((access .mutexUnlock).bind fun _ =>
      (Program.ret count : CoreProgram Int)).Makes Prompt :=
    fun _ => unlocks.bind fun _ => trivial
  have prompt : Program.Makes Prompt (((switchSampling online 0x31 2).bind fun count : Int =>
      (access .mutexUnlock).bind fun _ => .ret count).bind fun _ =>
        (Program.ret () : CoreProgram Unit)) :=
    (switches.bind finishes).bind fun _ => trivial
  let calm : WriterWorld → Prop := fun state => OutsideNmi state.1
  have locked : calm (writerDevice.exec (.mutexLock task) state).2 := outside
  refine ReflTransGen.head (.access free) (reaches_run_of_keeps ?_ locked)
  exact prompt.mono fun _ waits state outside => waits state.1 outside

/-- The processor, which has overflowed, after a write of `'1'` and an NMI. -/
def restartedState : WriterWorld :=
  let written := ranWriter (requestTask [0] 0 startRequest) (overflowedWorld, [])
  ranWriter (runNmi 0) (written.1.setInNmi 0 true, written.2)

/-- The overflow bit is still set, so the NMI restarts the processor, with the new
interval. -/
theorem samplesMisses_restarted : SamplesMisses (-32) restartedState.1 0 := by
  let written := ranWriter (requestTask [0] 0 startRequest) (overflowedWorld, [])
  let idle : CoreThread → CoreProgram Unit := fun _ => .ret ()
  have writes : WriterRun [0] (fun _ => startRequest) (quietPool overflowedWorld)
      ⟨idle, written⟩ := by
    have begins : Pool.ghostLaunch (WriteOrNmi [0] fun _ => startRequest)
        (quietPool overflowedWorld) (.writer 0) (requestTask [0] 0 startRequest)
        (overflowedWorld, []) := ⟨.write rfl, rfl⟩
    exact Pool.reaches_of_launch rfl begins
      (startRequest_completes [0] 0 overflowedWorld_outside (by decide +kernel))
  have handles : WriterRun [0] (fun _ => startRequest) ⟨idle, written⟩ ⟨idle, restartedState⟩ := by
    have arrives : Pool.ghostLaunch (WriteOrNmi [0] fun _ => startRequest) ⟨idle, written⟩
        (.nmi 0) (runNmi 0) (written.1.setInNmi 0 true, written.2) :=
      ⟨.nmi rfl (by decide +kernel) (by decide +kernel), rfl⟩
    refine Pool.reaches_of_launch rfl arrives (reaches_run ?_ _)
    exact (runNmi_ready 0).mono fun _ ready state => ready state.1
  have settled := intervalSettled_of_reaches [0] (fun _ => startRequest) (writes.trans handles)
    (by decide +kernel)
  have last : lastInterval (fun _ => startRequest) restartedState.2 = some (-32) := by
    decide +kernel
  dsimp only at settled
  rw [last] at settled
  exact settled.samples (by decide) 0 List.mem_cons_self (by decide +kernel)

end Result

end NvmEmulator.CorePmu
