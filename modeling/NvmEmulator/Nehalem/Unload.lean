/-
# Unloading the Nehalem emulator

`uncore_pmu_exit` shows and clears the registers of both sockets, cancels the timer and
prints how many ticks there were. It clears the registers while the timer still ticks and
remote writes go on: a tick may be between its read and its clear, or begin after the clear.

The module's task, from its loading to the end of its unloading, and the timer are threads.
The task relies on a tick to touch no register of a disabled socket but PMC0, and on nothing
to move while the timer sleeps.
-/

import NvmEmulator.Nehalem.Ticks
import NvmEmulator.Semantics.Coverage
import NvmEmulator.Semantics.Threads

namespace NvmEmulator.Nehalem

open Relation NvmEmulator.Semantics NvmEmulator.Uncore

/-! ## Accesses -/

/-- What the module does to its surroundings from loading to unloading. -/
inductive ModuleOp
  | emulator (op : NhmOp)
  | hrtimerCancel
  | /-- The callback of the timer has returned. -/
    hrtimerReturn (again : HrtimerRestart)
  | unregisterNmiHandler
  | /-- The line with `DELAY_JIFFIES`. -/
    printk (delayJiffies : BitVec 64)

/-- What each access answers. -/
abbrev ModuleOp.Res : ModuleOp → Type
  | .emulator op => op.Res
  | _ => Unit

/-- A function of the module. -/
abbrev ModuleProgram := Program ModuleOp ModuleOp.Res

/-- The emulator's world, the timer's callback and what has been printed. -/
structure ModuleWorld where
  nhm : NhmWorld
  /-- The timer's callback is running. -/
  running : Bool := false
  printed : Option (BitVec 64) := none

namespace ModuleWorld

/-- The effect and the answer of an access. -/
def exec : (op : ModuleOp) → ModuleWorld → op.Res × ModuleWorld
  | .emulator op, world =>
      ((Nehalem.exec op world.nhm).1, { world with nhm := (Nehalem.exec op world.nhm).2 })
  | .hrtimerCancel, world => ((), { world with nhm := world.nhm.setArmed false })
  | .hrtimerReturn again, world =>
      ((), { world with
        nhm := world.nhm.setArmed (world.nhm.armed || again == .restart)
        running := false })
  | .unregisterNmiHandler, world => ((), world)
  | .printk delayJiffies, world => ((), { world with printed := some delayJiffies })

/-- `hrtimer_cancel` waits for a running callback. -/
def ready : ModuleOp → ModuleWorld → Prop
  | .hrtimerCancel, world => world.running = false
  | _, _ => True

end ModuleWorld

/-- The machine as a device. -/
def moduleDevice : Device ModuleOp ModuleOp.Res ModuleWorld where
  exec := ModuleWorld.exec
  ready := ModuleWorld.ready

/-- One access. -/
def moduleAccess (op : ModuleOp) : ModuleProgram op.Res := Program.lift op

/-- One access of the emulator. -/
def onEmulator (op : NhmOp) : ModuleProgram op.Res := moduleAccess (.emulator op)

/-! ## Unloading -/

/-- `uncore_nmi_unregister` -/
def uncoreNmiUnregister : ModuleProgram Unit := do
  let state ← onEmulator .globals
  if state.nmiRegisted then moduleAccess .unregisterNmiHandler else pure ()

/-- `uncore_pmu_hrtimer_cancel` -/
def uncorePmuHrtimerCancel : ModuleProgram Unit := do
  let state ← onEmulator .globals
  if state.timerInited then moduleAccess .hrtimerCancel else pure ()

/-- `uncore_pmu_exit` -/
def uncorePmuExit : ModuleProgram Unit := do
  Program.hoist onEmulator nhmUncoreShowAll
  Program.hoist onEmulator nhmUncoreClearAll
  uncoreNmiUnregister
  uncorePmuHrtimerCancel
  let state ← onEmulator .globals
  moduleAccess (.printk state.delayJiffies)

/-! ## The system -/

/-- The module's own task, and its timer. -/
inductive NhmTask
  | task
  | timer
  deriving DecidableEq

/-- The module's task and the timer's callback. -/
abbrev NhmPool := Pool NhmTask ModuleOp ModuleOp.Res ModuleWorld

/-- A remote write reaches a socket. -/
inductive RemoteWrites : ModuleWorld → ModuleWorld → Prop
  | write (node : Node) (world : ModuleWorld) :
      RemoteWrites world { world with nhm := world.nhm.remoteWrite node }

/-- The timer's callback, on a processor of the node, and what the kernel does when it has
returned. -/
def runTimer (here : Node) : ModuleProgram Unit := do
  let again ← Program.hoist onEmulator (uncorePmuHrtimerCb here)
  moduleAccess (.hrtimerReturn again)

/-- The armed timer expires: it leaves the queue and its callback starts. -/
inductive Expires (here : Node) : NhmPool → NhmTask → ModuleProgram Unit → ModuleWorld → Prop
  | timer {pool : NhmPool} (idle : pool.threads .timer = .ret ())
      (armed : pool.state.nhm.armed = true) (waiting : pool.state.running = false) :
      Expires here pool .timer (runTimer here)
        { pool.state with nhm := pool.state.nhm.setArmed false, running := true }

/-- Load the module and, at some later time, unload it. -/
def moduleLife (here : Node) (garbage : BitVec 64) : ModuleProgram Unit := do
  Program.hoist onEmulator (uncorePmuMain here garbage)
  uncorePmuExit

/-- The module is about to be loaded. -/
def aboutToLoad (here : Node) (garbage : BitVec 64) (world : ModuleWorld) : NhmPool where
  threads
    | .task => moduleLife here garbage
    | .timer => .ret ()
  state := world

/-- Nothing of the module has run: no jiffy is counted, no delay executed and no callback
runs. -/
structure Unused (world : ModuleWorld) : Prop where
  delayJiffies : world.nhm.globals.delayJiffies = 0
  delays : world.nhm.delays = []
  running : world.running = false

/-- The timer is not armed, and its callback does not run. -/
structure Asleep (world : ModuleWorld) : Prop where
  armed : world.nhm.armed = false
  running : world.running = false

/-- A socket as `nhm_uncore_clear_msrs` leaves it. -/
structure SocketCleared (regs : MsrFile) : Prop where
  ctrl : regs nhmUncoreGlobalCtrl = 0
  status : regs nhmUncoreGlobalStatus &&& nhmUncoreGlobalOvfCtrlMask = 0
  pmc : ∀ id < 8, regs (nhmUncorePmc0 + BitVec.ofNat 32 id) = 0
  sel : ∀ id < 8, regs (nhmUncorePerfevtsel0 + BitVec.ofNat 32 id) = 0

/-- The globals but for the number of ticks. -/
def NhmGlobals.settled (state : NhmGlobals) : NhmGlobals := { state with delayJiffies := 0 }

/-- Outside a tick, as many ticks were counted as delays were asked for. -/
def CountsDelays (world : ModuleWorld) : Prop :=
  world.running = false →
    world.nhm.globals.delayJiffies = BitVec.ofNat 64 world.nhm.delays.length

/-- What ticks and remote writes do to the task: of a disabled socket they write PMC0 only,
and while the timer sleeps they leave everything else alone. -/
structure TaskRely (before after : ModuleWorld) : Prop where
  settled : after.nhm.globals.settled = before.nhm.globals.settled
  disabled : ∀ node, (before.nhm.msrs node nhmUncoreGlobalCtrl).getLsbD 0 = false →
    after.nhm.msrs node = before.nhm.msrs node ∨
      after.nhm.msrs node = Function.update (before.nhm.msrs node) nhmUncorePmc0 0
  asleep : Asleep before → Asleep after ∧ after.nhm.delays = before.nhm.delays
  counts : CountsDelays before → CountsDelays after
  printed : after.printed = before.printed

/-- What the task and remote writes do to the timer: they neither start a callback nor end
one, and do not count. -/
structure TimerRely (before after : ModuleWorld) : Prop where
  running : after.running = before.running
  delayJiffies : after.nhm.globals.delayJiffies = before.nhm.globals.delayJiffies
  delays : after.nhm.delays = before.nhm.delays

def nhmRely : NhmTask → ModuleWorld → ModuleWorld → Prop
  | .task => TaskRely
  | .timer => TimerRely

def nhmGuar : NhmTask → ModuleWorld → ModuleWorld → Prop
  | .task => TimerRely
  | .timer => TaskRely

theorem TimerRely.countsDelays {before after : ModuleWorld} (same : TimerRely before after)
    (counts : CountsDelays before) : CountsDelays after := by
  intro waiting
  rw [same.delayJiffies, same.delays]
  exact counts (same.running ▸ waiting)

theorem RemoteWrites.timer {before after : ModuleWorld} (moves : RemoteWrites before after) :
    TimerRely before after := by
  cases moves with
  | write node world => exact ⟨rfl, rfl, rfl⟩

/-- A remote write moves nothing of a disabled socket. -/
theorem RemoteWrites.task {before after : ModuleWorld} (moves : RemoteWrites before after) :
    TaskRely before after := by
  have counts := moves.timer.countsDelays
  cases moves with
  | write node world =>
      refine ⟨rfl, fun other disabled => Or.inl ?_,
        fun asleep => ⟨⟨asleep.armed, asleep.running⟩, rfl⟩, counts, rfl⟩
      by_cases same : node = other
      · subst same
        rw [msrs_remoteWrite_self, remoteWrite_of_disabled disabled]
      · rw [msrs_remoteWrite_of_ne same]

theorem nhm_compatible :
    Pool.Compatible nhmRely nhmGuar CountsDelays RemoteWrites where
  thread
    | .task, .task, other, _, _, _ => absurd rfl other
    | .task, .timer, _, _, _, guaranteed => guaranteed
    | .timer, .task, _, _, _, guaranteed => guaranteed
    | .timer, .timer, other, _, _, _ => absurd rfl other
  environment
    | .task, _, _, moves => moves.task
    | .timer, _, _, moves => moves.timer
  kept
    | .task, _, _, guaranteed => guaranteed.countsDelays
    | .timer, _, _, guaranteed => guaranteed.counts
  keptByEnvironment _ _ moves := moves.timer.countsDelays

/-! ## The timer -/

/-- In a callback, with so many ticks counted whose delay is still to come. -/
structure Ticking (owed : Nat) (world : ModuleWorld) : Prop where
  running : world.running = true
  delayJiffies : world.nhm.globals.delayJiffies =
    BitVec.ofNat 64 (world.nhm.delays.length + owed)

theorem ticking_stable {owed : Nat} : Stable TimerRely (Ticking owed) := by
  intro before after same ticking
  refine ⟨same.running.trans ticking.running, ?_⟩
  rw [same.delayJiffies, same.delays]
  exact ticking.delayJiffies

/-- A step of a callback that writes no register but PMC0. -/
theorem taskRely_of_running {before after : ModuleWorld} (running : before.running = true)
    (settled : after.nhm.globals.settled = before.nhm.globals.settled)
    (msrs : ∀ node, after.nhm.msrs node = before.nhm.msrs node ∨
      after.nhm.msrs node = Function.update (before.nhm.msrs node) nhmUncorePmc0 0)
    (counts : CountsDelays after) (printed : after.printed = before.printed) :
    TaskRely before after := by
  refine ⟨settled, fun node _ => msrs node, fun asleep => ?_, fun _ => counts, printed⟩
  exact absurd (running.symm.trans asleep.running) (by decide)

/-- In a callback no account is due. -/
theorem countsDelays_of_running {world : ModuleWorld} (running : world.running = true) :
    CountsDelays world :=
  fun waiting => absurd (running.symm.trans waiting) (by decide)

/-- The write of a tick clears PMC0 of its socket. -/
theorem msrs_clear (here node : Node) (world : ModuleWorld) :
    (moduleDevice.exec (.emulator (.wrmsr .timer here nhmUncorePmc0 0)) world).2.nhm.msrs node =
        world.nhm.msrs node ∨
      (moduleDevice.exec (.emulator (.wrmsr .timer here nhmUncorePmc0 0)) world).2.nhm.msrs node =
        Function.update (world.nhm.msrs node) nhmUncorePmc0 0 := by
  have plain : ¬ nhmUncorePmc0 = nhmUncoreGlobalOvfCtrl := by decide
  by_cases same : node = here
  · subst same
    refine Or.inr ?_
    show Function.update world.nhm.msrs node _ node = _
    rw [Function.update_self, MsrFile.wrmsr, if_neg plain]
  · exact Or.inl (Function.update_of_ne same _ _)

/-- A tick counts itself once and asks for one delay. -/
theorem runTimer_guarded {here : Node} {world : ModuleWorld} (ticking : Ticking 0 world) :
    Guarded moduleDevice TimerRely TaskRely (fun _ _ => True) (runTimer here) world := by
  have step : ∀ {before after : ModuleWorld}, before.running = true → after.running = true →
      after.nhm.globals.settled = before.nhm.globals.settled →
      after.nhm.msrs = before.nhm.msrs → after.printed = before.printed →
      TaskRely before after :=
    fun running still settled msrs printed => taskRely_of_running running settled
      (fun node => Or.inl (congrFun msrs node)) (countsDelays_of_running still) printed
  refine Guarded.access _ ticking_stable ticking fun later ticking _ =>
    ⟨step ticking.running ticking.running rfl rfl rfl, ?_⟩
  have counted : Ticking 1 (moduleDevice.exec (.emulator (.assign fun state =>
      { state with delayJiffies := state.delayJiffies + 1 })) later).2 := by
    refine ⟨ticking.running, ?_⟩
    show later.nhm.globals.delayJiffies + 1 = _
    rw [ticking.delayJiffies, Nat.add_zero, BitVec.ofNat_add]
    rfl
  refine Guarded.access _ ticking_stable counted fun later ticking _ =>
    ⟨step ticking.running ticking.running rfl rfl rfl, ?_⟩
  refine Guarded.access _ ticking_stable ticking fun later ticking _ =>
    ⟨step ticking.running ticking.running rfl rfl rfl, ?_⟩
  refine Guarded.access _ ticking_stable ticking fun later ticking _ =>
    ⟨step ticking.running ticking.running rfl rfl rfl, ?_⟩
  -- The delay is asked for: the tick owes nothing any more.
  have delayed : ∀ cpu ns, Ticking 0
      (moduleDevice.exec (.emulator (.delayCpu cpu ns)) later).2 := by
    intro cpu ns
    refine ⟨ticking.running, ?_⟩
    show later.nhm.globals.delayJiffies = BitVec.ofNat 64 ((later.nhm.delays ++ [ns]).length + 0)
    rw [ticking.delayJiffies, List.length_append]
    rfl
  refine Guarded.access _ ticking_stable (delayed _ _) fun later ticking _ =>
    ⟨taskRely_of_running ticking.running rfl (fun node => msrs_clear here node later)
      (countsDelays_of_running ticking.running) rfl, ?_⟩
  have cleared : Ticking 0
      (moduleDevice.exec (.emulator (.wrmsr .timer here nhmUncorePmc0 0)) later).2 :=
    ⟨ticking.running, ticking.delayJiffies⟩
  refine Guarded.access _ ticking_stable cleared fun later ticking _ =>
    ⟨step ticking.running ticking.running rfl rfl rfl, ?_⟩
  refine Guarded.access _ ticking_stable ticking fun later ticking _ =>
    ⟨step ticking.running ticking.running rfl rfl rfl, ?_⟩
  refine Guarded.access _ ticking_stable ticking fun later ticking _ => ⟨?_, fun _ _ => trivial⟩
  exact taskRely_of_running ticking.running rfl (fun _ => Or.inl rfl)
    (fun _ => ticking.delayJiffies) rfl

/-! ## The module's task -/

/-- What `uncore_pmu_exit` needs of the loading: the timer is initialised, and the handler is
not registered. -/
structure Loaded (world : ModuleWorld) : Prop where
  timerInited : world.nhm.globals.timerInited = true
  nmiRegisted : world.nhm.globals.nmiRegisted = false
  counts : CountsDelays world

theorem loaded_stable : Stable TaskRely Loaded := by
  intro before after rely loaded
  have inited := congrArg NhmGlobals.timerInited rely.settled
  have registed := congrArg NhmGlobals.nmiRegisted rely.settled
  exact ⟨inited.trans loaded.timerInited, registed.trans loaded.nmiRegisted,
    rely.counts loaded.counts⟩

theorem countsDelays_stable : Stable TaskRely CountsDelays := fun _ _ rely => rely.counts

/-- An access of the task that assigns no global. -/
def KeepsGlobals (op : ModuleOp) : Prop :=
  ∀ world, (ModuleWorld.exec op world).2.nhm.globals = world.nhm.globals ∧
    TimerRely world (ModuleWorld.exec op world).2

theorem Loaded.keeps {op : ModuleOp} (keeps : KeepsGlobals op) {world : ModuleWorld}
    (loaded : Loaded world) : Loaded (ModuleWorld.exec op world).2 := by
  obtain ⟨globals, timer⟩ := keeps world
  refine ⟨?_, ?_, timer.countsDelays loaded.counts⟩
  · rw [globals]
    exact loaded.timerInited
  · rw [globals]
    exact loaded.nmiRegisted

/-- Programs that assign no global leave the module loaded. -/
theorem loaded_guarded {α : Type} {program : ModuleProgram α} (makes : program.Makes KeepsGlobals)
    {world : ModuleWorld} (loaded : Loaded world) :
    Guarded moduleDevice TaskRely TimerRely (fun _ => Loaded) program world :=
  Guarded.of_makes makes loaded_stable
    (fun _ keeps world loaded _ => ⟨(keeps world).2, loaded.keeps keeps⟩) loaded

/-- Programs of the emulator that read and write registers and start the timer. -/
theorem keepsGlobals_hoist {α : Type} {program : NhmProgram α}
    (makes : program.Makes fun op => KeepsGlobals (.emulator op)) :
    (Program.hoist onEmulator program).Makes KeepsGlobals := by
  have each : ∀ op, KeepsGlobals (.emulator op) → (onEmulator op).Makes KeepsGlobals :=
    fun _ keeps => ⟨keeps, fun _ => trivial⟩
  exact Program.Makes.hoist_of each makes

theorem nhmUncoreShowAll_keeps :
    nhmUncoreShowAll.Makes fun op => KeepsGlobals (.emulator op) := by
  have read : ∀ node addr, KeepsGlobals (.emulator (.rdmsr .main node addr)) :=
    fun _ _ _ => ⟨rfl, rfl, rfl, rfl⟩
  have shows : ∀ node, (nhmUncoreShowMsrs node).Makes fun op => KeepsGlobals (.emulator op) := by
    intro node
    refine ⟨read _ _, fun _ => ⟨read _ _, fun _ => Program.Makes.forEach fun id _ => ?_⟩⟩
    exact ⟨read _ _, fun _ => ⟨read _ _, fun _ => trivial⟩⟩
  exact (shows .zero).bind fun _ => shows .one

theorem keepsGlobals_wrmsr (node : Node) (addr : BitVec 32) (value : BitVec 64) :
    KeepsGlobals (.emulator (.wrmsr .main node addr value)) :=
  fun _ => ⟨rfl, rfl, rfl, rfl⟩

theorem nhmUncoreClearMsrs_keeps (node : Node) :
    (nhmUncoreClearMsrs node).Makes fun op => KeepsGlobals (.emulator op) := by
  have write := keepsGlobals_wrmsr node
  refine ⟨write _ _, fun _ => ⟨write _ _, fun _ => Program.Makes.forEach fun id _ => ?_⟩⟩
  exact ⟨write _ _, fun _ => ⟨write _ _, fun _ => trivial⟩⟩

/-- `uncore_pmu_main` initialises the timer and registers no handler. -/
theorem uncorePmuMain_loads (here : Node) (garbage : BitVec 64) {world : ModuleWorld}
    (counts : CountsDelays world) :
    Guarded moduleDevice TaskRely TimerRely (fun _ => Loaded)
      (Program.hoist onEmulator (uncorePmuMain here garbage)) world := by
  have write := keepsGlobals_wrmsr here
  have globals : KeepsGlobals (.emulator .globals) := fun _ => ⟨rfl, rfl, rfl, rfl⟩
  have start : ∀ ns, KeepsGlobals (.emulator (.hrtimerStart ns)) :=
    fun _ _ => ⟨rfl, rfl, rfl, rfl⟩
  let unregistered : ModuleWorld → Prop := fun world =>
    world.nhm.globals.nmiRegisted = false ∧ CountsDelays world
  have stable : Stable TaskRely unregistered := by
    intro before after rely holds
    exact ⟨(congrArg NhmGlobals.nmiRegisted rely.settled).trans holds.1, rely.counts holds.2⟩
  refine Guarded.access _ countsDelays_stable counts fun later counts _ => ⟨⟨rfl, rfl, rfl⟩, ?_⟩
  refine Guarded.access unregistered stable ⟨rfl, counts⟩ fun later holds _ =>
    ⟨⟨rfl, rfl, rfl⟩, ?_⟩
  refine Guarded.access unregistered stable holds fun later holds _ => ⟨⟨rfl, rfl, rfl⟩, ?_⟩
  refine loaded_guarded (keepsGlobals_hoist ?_) ⟨rfl, holds.1, holds.2⟩
  have clears : nhmUncoreClearAll.Makes fun op => KeepsGlobals (.emulator op) :=
    (nhmUncoreClearMsrs_keeps .zero).bind fun _ => nhmUncoreClearMsrs_keeps .one
  apply clears.bind
  intro _
  refine ⟨globals, fun _ => ⟨write _ _, fun _ => ⟨write _ _, fun _ => ?_⟩⟩⟩
  refine ⟨globals, fun _ => ⟨write _ _, fun _ => ?_⟩⟩
  apply nhmUncoreShowAll_keeps.bind
  intro _
  refine ⟨globals, fun state => ?_⟩
  show Program.Makes _ (if state.timerInited = true then _ else _)
  split
  · exact ⟨start _, fun _ => trivial⟩
  · trivial

/-! ### Clearing -/

/-- A disabled and cleared socket, with so many more registers cleared. -/
structure Blank (node : Node) (covered : Set (BitVec 32)) (world : ModuleWorld) : Prop where
  ctrl : world.nhm.msrs node nhmUncoreGlobalCtrl = 0
  status : world.nhm.msrs node nhmUncoreGlobalStatus &&& nhmUncoreGlobalOvfCtrlMask = 0
  covered : ∀ addr ∈ covered, world.nhm.msrs node addr = 0

/-- Nothing a tick or a remote write does is seen on a disabled socket. -/
theorem blank_stable (node : Node) (covered : Set (BitVec 32)) :
    Stable TaskRely (Blank node covered) := by
  intro before after rely blank
  have disabled : (before.nhm.msrs node nhmUncoreGlobalCtrl).getLsbD 0 = false := by
    rw [blank.ctrl]
    rfl
  rcases rely.disabled node disabled with same | cleared
  · exact ⟨same ▸ blank.ctrl, same ▸ blank.status, same ▸ blank.covered⟩
  · have control : nhmUncoreGlobalCtrl ≠ nhmUncorePmc0 := by decide
    have status : nhmUncoreGlobalStatus ≠ nhmUncorePmc0 := by decide
    refine ⟨?_, ?_, fun addr mem => ?_⟩
    · rw [cleared, Function.update_of_ne control]
      exact blank.ctrl
    · rw [cleared, Function.update_of_ne status]
      exact blank.status
    · rw [cleared]
      by_cases same : addr = nhmUncorePmc0
      · rw [same, Function.update_self]
      · rw [Function.update_of_ne same]
        exact blank.covered addr mem

/-- The counters of a socket are disabled. -/
def CtrlOff (node : Node) (world : ModuleWorld) : Prop :=
  world.nhm.msrs node nhmUncoreGlobalCtrl = 0

theorem ctrlOff_stable (node : Node) : Stable TaskRely (CtrlOff node) := by
  intro before after rely off
  have disabled : (before.nhm.msrs node nhmUncoreGlobalCtrl).getLsbD 0 = false := by
    rw [off]
    rfl
  have control : nhmUncoreGlobalCtrl ≠ nhmUncorePmc0 := by decide
  rw [CtrlOff]
  rcases rely.disabled node disabled with same | cleared
  · rw [same]
    exact off
  · rw [cleared, Function.update_of_ne control]
    exact off

/-- The registers of a socket after a write there. -/
theorem module_msrs_wrmsr (node : Node) (addr : BitVec 32) (value : BitVec 64)
    (world : ModuleWorld) :
    (moduleDevice.exec (.emulator (.wrmsr .main node addr value)) world).2.nhm.msrs node =
      (world.nhm.msrs node).wrmsr addr value :=
  Function.update_self _ _ _

theorem Blank.mono {node : Node} {covered fewer : Set (BitVec 32)} {world : ModuleWorld}
    (blank : Blank node covered world) (subset : fewer ⊆ covered) : Blank node fewer world :=
  ⟨blank.ctrl, blank.status, fun addr mem => blank.covered addr (subset mem)⟩

/-- Clearing one more register. -/
theorem Blank.write {node : Node} {covered : Set (BitVec 32)} {world : ModuleWorld}
    (blank : Blank node covered world) {addr : BitVec 32}
    (plain : ¬ addr = nhmUncoreGlobalOvfCtrl) :
    Blank node (insert addr covered)
      (moduleDevice.exec (.emulator (.wrmsr .main node addr 0)) world).2 := by
  have zero : ∀ other, world.nhm.msrs node other = 0 →
      Function.update (world.nhm.msrs node) addr 0 other = 0 := by
    intro other was
    by_cases same : other = addr
    · rw [same, Function.update_self]
    · rw [Function.update_of_ne same, was]
  refine ⟨?_, ?_, fun other mem => ?_⟩
  · rw [module_msrs_wrmsr, MsrFile.wrmsr, if_neg plain]
    exact zero _ blank.ctrl
  · rw [module_msrs_wrmsr, MsrFile.wrmsr, if_neg plain]
    by_cases same : nhmUncoreGlobalStatus = addr
    · rw [same, Function.update_self]
      rfl
    · rw [Function.update_of_ne same]
      exact blank.status
  · rw [module_msrs_wrmsr, MsrFile.wrmsr, if_neg plain]
    rcases mem with rfl | old
    · exact Function.update_self _ _ _
    · exact zero _ (blank.covered other old)

/-- The two registers of a pair. -/
def pairRegisters (id : Nat) : Set (BitVec 32) :=
  {nhmUncorePmc0 + BitVec.ofNat 32 id, nhmUncorePerfevtsel0 + BitVec.ofNat 32 id}

/-- The registers of the pairs that are not still to be visited. -/
def pairsBut (rest : List Nat) : Set (BitVec 32) :=
  {addr | ∃ id < 8, id ∉ rest ∧ addr ∈ pairRegisters id}

/-- What is kept beside the clearing of a socket. -/
structure Frame (node : Node) (frame : ModuleWorld → Prop) : Prop where
  stable : Stable TaskRely frame
  write : ∀ addr value world, frame world →
    frame (moduleDevice.exec (.emulator (.wrmsr .main node addr value)) world).2

section ClearSocket

variable {node : Node} {frame : ModuleWorld → Prop}

/-- What holds in the loop over the pairs. -/
def PairsLeft (node : Node) (frame : ModuleWorld → Prop) (rest : List Nat)
    (world : ModuleWorld) : Prop :=
  (∀ id ∈ rest, id < 8) ∧ frame world ∧ Blank node (pairsBut rest) world

theorem pairsLeft_stable (kept : Frame node frame) (rest : List Nat) :
    Stable TaskRely (PairsLeft node frame rest) :=
  fun _ _ rely holds =>
    ⟨holds.1, kept.stable rely holds.2.1, blank_stable node _ rely holds.2.2⟩

theorem pairsBut_cons (id : Nat) {rest : List Nat} {addr : BitVec 32}
    (mem : addr ∈ pairsBut rest) : addr ∈ pairRegisters id ∨ addr ∈ pairsBut (id :: rest) := by
  obtain ⟨other, bound, outside, own⟩ := mem
  by_cases same : other = id
  · exact Or.inl (same ▸ own)
  · refine Or.inr ⟨other, bound, fun within => ?_, own⟩
    rcases List.mem_cons.mp within with here | there
    · exact same here
    · exact outside there

/-- One pair of the loop. -/
theorem clearPair_blanks (kept : Frame node frame) {id : Nat} {rest : List Nat}
    {world : ModuleWorld} (left : PairsLeft node frame (id :: rest) world) :
    Guarded moduleDevice TaskRely TimerRely (fun _ => PairsLeft node frame rest)
      (Program.hoist onEmulator
        ((uncoreWrmsr .main node (nhmUncorePmc0 + BitVec.ofNat 32 id) 0).bind fun _ =>
          uncoreWrmsr .main node (nhmUncorePerfevtsel0 + BitVec.ofNat 32 id) 0)) world := by
  have plain : ∀ id < 8, ¬ nhmUncorePmc0 + BitVec.ofNat 32 id = nhmUncoreGlobalOvfCtrl ∧
      ¬ nhmUncorePerfevtsel0 + BitVec.ofNat 32 id = nhmUncoreGlobalOvfCtrl := by decide
  have own := plain id (left.1 id List.mem_cons_self)
  have rest_lt : ∀ other ∈ rest, other < 8 :=
    fun other mem => left.1 other (List.mem_cons_of_mem _ mem)
  let halfway : ModuleWorld → Prop := fun world =>
    frame world ∧
      Blank node (insert (nhmUncorePmc0 + BitVec.ofNat 32 id) (pairsBut (id :: rest))) world
  have halfway_stable : Stable TaskRely halfway := kept.stable.and (blank_stable node _)
  refine Guarded.access _ (pairsLeft_stable kept (id :: rest)) left fun later holds _ =>
    ⟨⟨rfl, rfl, rfl⟩, ?_⟩
  refine Guarded.access halfway halfway_stable
    ⟨kept.write _ _ _ holds.2.1, holds.2.2.write own.1⟩ fun final both _ =>
      ⟨⟨rfl, rfl, rfl⟩, .ret (pairsLeft_stable kept rest) ?_⟩
  refine ⟨rest_lt, kept.write _ _ _ both.1, (both.2.write own.2).mono fun addr mem => ?_⟩
  rcases pairsBut_cons id mem with (rfl | rfl) | earlier
  · exact Or.inr (Or.inl rfl)
  · exact Or.inl rfl
  · exact Or.inr (Or.inr earlier)

/-- `nhm_uncore_clear_msrs`, whatever ticks and remote writes do meanwhile. -/
theorem nhmUncoreClearMsrs_blanks (kept : Frame node frame) {world : ModuleWorld}
    (holds : frame world) :
    Guarded moduleDevice TaskRely TimerRely
      (fun _ later => frame later ∧ Blank node (pairsBut []) later)
      (Program.hoist onEmulator (nhmUncoreClearMsrs node)) world := by
  have none : ∀ world, world.nhm.msrs node nhmUncoreGlobalCtrl = 0 →
      world.nhm.msrs node nhmUncoreGlobalStatus &&& nhmUncoreGlobalOvfCtrlMask = 0 →
      Blank node (pairsBut (List.range 8)) world := by
    refine fun world ctrl status => ⟨ctrl, status, ?_⟩
    rintro addr ⟨id, bound, rest, -⟩
    exact absurd (List.mem_range.mpr bound) rest
  have plain : ¬ nhmUncoreGlobalCtrl = nhmUncoreGlobalOvfCtrl := by decide
  have apart : nhmUncoreGlobalCtrl ≠ nhmUncoreGlobalStatus := by decide
  refine Guarded.access _ kept.stable holds fun later holds _ => ⟨⟨rfl, rfl, rfl⟩, ?_⟩
  have off : CtrlOff node (moduleDevice.exec
      (.emulator (.wrmsr .main node nhmUncoreGlobalCtrl 0)) later).2 := by
    rw [CtrlOff, module_msrs_wrmsr, MsrFile.wrmsr, if_neg plain, Function.update_self]
  refine Guarded.access _ (kept.stable.and (ctrlOff_stable node))
    ⟨kept.write _ _ _ holds, off⟩ fun later holds _ => ⟨⟨rfl, rfl, rfl⟩, ?_⟩
  have start : PairsLeft node frame (List.range 8) (moduleDevice.exec (.emulator (.wrmsr .main
      node nhmUncoreGlobalOvfCtrl nhmUncoreGlobalOvfCtrlMask)) later).2 := by
    refine ⟨fun id mem => List.mem_range.mp mem, kept.write _ _ _ holds.1, none _ ?_ ?_⟩
    · rw [module_msrs_wrmsr, MsrFile.wrmsr, if_pos rfl, Function.update_of_ne apart]
      exact holds.2
    · rw [module_msrs_wrmsr, MsrFile.wrmsr, if_pos rfl, Function.update_self, BitVec.and_assoc,
        BitVec.and_comm (~~~ _), BitVec.and_not_self]
      exact BitVec.and_zero
  show Guarded moduleDevice TaskRely TimerRely _
    (Program.hoist onEmulator (Program.forEach (fun id =>
      (uncoreWrmsr .main node (nhmUncorePmc0 + BitVec.ofNat 32 id) 0).bind fun _ =>
        uncoreWrmsr .main node (nhmUncorePerfevtsel0 + BitVec.ofNat 32 id) 0) (List.range 8))) _
  rw [Program.hoist_forEach]
  have loop := Guarded.forEach (PairsLeft node frame) (pairsLeft_stable kept [])
    (fun _ _ _ left => clearPair_blanks kept left) start
  exact loop.mono fun _ _ left => left.2

end ClearSocket

theorem Blank.cleared {node : Node} {world : ModuleWorld}
    (blank : Blank node (pairsBut []) world) : SocketCleared (world.nhm.msrs node) := by
  have within : ∀ id < 8, pairRegisters id ⊆ pairsBut [] :=
    fun id bound _ mem => ⟨id, bound, List.not_mem_nil, mem⟩
  exact ⟨blank.ctrl, blank.status, fun id bound => blank.covered _ (within id bound (Or.inl rfl)),
    fun id bound => blank.covered _ (within id bound (Or.inr rfl))⟩

/-- The loaded module with both sockets cleared. -/
structure Cleared (world : ModuleWorld) : Prop where
  loaded : Loaded world
  blank : ∀ node, Blank node (pairsBut []) world

theorem cleared_stable : Stable TaskRely Cleared := fun _ _ rely cleared =>
  ⟨loaded_stable rely cleared.loaded, fun node => blank_stable node _ rely (cleared.blank node)⟩

/-- The first socket stays cleared while the second is. -/
theorem frame_loaded : Frame .zero Loaded :=
  ⟨loaded_stable, fun addr value _ loaded => loaded.keeps (keepsGlobals_wrmsr .zero addr value)⟩

theorem frame_firstCleared :
    Frame .one fun world => Loaded world ∧ Blank .zero (pairsBut []) world := by
  refine ⟨loaded_stable.and (blank_stable .zero _), fun addr value world holds => ?_⟩
  have apart : Node.zero ≠ Node.one := by decide
  have same : (moduleDevice.exec (.emulator (.wrmsr .main .one addr value)) world).2.nhm.msrs
      .zero = world.nhm.msrs .zero :=
    Function.update_of_ne apart ((world.nhm.msrs .one).wrmsr addr value) world.nhm.msrs
  refine ⟨holds.1.keeps (keepsGlobals_wrmsr .one addr value), ?_, ?_, ?_⟩
  · rw [same]
    exact holds.2.ctrl
  · rw [same]
    exact holds.2.status
  · rw [same]
    exact holds.2.covered

/-- `nhm_uncore_clear_all`, whatever ticks and remote writes do meanwhile. -/
theorem nhmUncoreClearAll_clears {world : ModuleWorld} (loaded : Loaded world) :
    Guarded moduleDevice TaskRely TimerRely (fun _ => Cleared)
      (Program.hoist onEmulator nhmUncoreClearAll) world := by
  rw [nhmUncoreClearAll, Program.bind_eq, Program.hoist_bind]
  apply (nhmUncoreClearMsrs_blanks frame_loaded loaded).bind
  intro _ later first
  refine (nhmUncoreClearMsrs_blanks frame_firstCleared first).mono ?_
  rintro _ final ⟨⟨loaded, zero⟩, one⟩
  refine ⟨loaded, fun node => ?_⟩
  cases node with
  | zero => exact zero
  | one => exact one

/-- The module is unloaded, and has printed the number of the delays. -/
structure Unloaded (world : ModuleWorld) : Prop where
  asleep : Asleep world
  blank : ∀ node, Blank node (pairsBut []) world
  printed : world.printed = some (BitVec.ofNat 64 world.nhm.delays.length)

theorem unloaded_stable : Stable TaskRely Unloaded := by
  intro before after rely unloaded
  obtain ⟨asleep, delays⟩ := rely.asleep unloaded.asleep
  refine ⟨asleep, fun node => blank_stable node _ rely (unloaded.blank node), ?_⟩
  rw [rely.printed, delays]
  exact unloaded.printed

/-- The cancelled timer sleeps. -/
structure Cancelled (world : ModuleWorld) : Prop where
  cleared : Cleared world
  asleep : Asleep world

theorem cancelled_stable : Stable TaskRely Cancelled := fun _ _ rely cancelled =>
  ⟨cleared_stable rely cancelled.cleared, (rely.asleep cancelled.asleep).1⟩

/-- What is printed is the number of the delays, from before the line to after it. -/
theorem printk_guarded {world : ModuleWorld} (cancelled : Cancelled world) :
    Guarded moduleDevice TaskRely TimerRely (fun _ => Unloaded)
      (moduleAccess (.printk (BitVec.ofNat 64 world.nhm.delays.length))) world := by
  let delays := world.nhm.delays
  have stable : Stable TaskRely fun world => Cancelled world ∧ world.nhm.delays = delays :=
    fun _ _ rely holds => ⟨cancelled_stable rely holds.1,
      (rely.asleep holds.1.asleep).2.trans holds.2⟩
  refine Guarded.access _ stable ⟨cancelled, rfl⟩ fun later holds _ =>
    ⟨⟨rfl, rfl, rfl⟩, .ret unloaded_stable ?_⟩
  have blank := holds.1.cleared.blank
  refine ⟨⟨holds.1.asleep.armed, holds.1.asleep.running⟩,
    fun node => ⟨(blank node).ctrl, (blank node).status, (blank node).covered⟩, ?_⟩
  show some (BitVec.ofNat 64 delays.length) = some (BitVec.ofNat 64 later.nhm.delays.length)
  rw [holds.2]

/-- `uncore_pmu_exit` -/
theorem uncorePmuExit_guarded {world : ModuleWorld} (loaded : Loaded world) :
    Guarded moduleDevice TaskRely TimerRely (fun _ => Unloaded) uncorePmuExit world := by
  apply (loaded_guarded (keepsGlobals_hoist nhmUncoreShowAll_keeps) loaded).bind
  intro _ later loaded
  apply (nhmUncoreClearAll_clears loaded).bind
  intro _ later cleared
  -- `uncore_nmi_unregister` finds the handler not registered.
  refine Guarded.access _ cleared_stable cleared fun later cleared _ => ⟨⟨rfl, rfl, rfl⟩, ?_⟩
  have registed : ¬ later.nhm.globals.nmiRegisted = true := by
    rw [cleared.loaded.nmiRegisted]
    exact Bool.false_ne_true
  show Guarded moduleDevice TaskRely TimerRely _ (Program.bind
    (if later.nhm.globals.nmiRegisted = true then _ else _) _) later
  rw [if_neg registed]
  -- `uncore_pmu_hrtimer_cancel` finds the timer initialised.
  refine Guarded.access _ cleared_stable cleared fun later cleared _ => ⟨⟨rfl, rfl, rfl⟩, ?_⟩
  show Guarded moduleDevice TaskRely TimerRely _ (Program.bind
    (if later.nhm.globals.timerInited = true then _ else _) _) later
  rw [if_pos cleared.loaded.timerInited]
  refine Guarded.access _ cleared_stable cleared fun later cleared ready =>
    ⟨⟨rfl, rfl, rfl⟩, ?_⟩
  have cancelled : Cancelled (moduleDevice.exec .hrtimerCancel later).2 := by
    have loaded := cleared.loaded
    refine ⟨⟨⟨loaded.timerInited, loaded.nmiRegisted, loaded.counts⟩, fun node => ?_⟩, rfl, ready⟩
    exact ⟨(cleared.blank node).ctrl, (cleared.blank node).status, (cleared.blank node).covered⟩
  refine Guarded.access _ cancelled_stable cancelled fun later cancelled _ =>
    ⟨⟨rfl, rfl, rfl⟩, ?_⟩
  have counts := cancelled.cleared.loaded.counts cancelled.asleep.running
  show Guarded moduleDevice TaskRely TimerRely _
    (moduleAccess (.printk later.nhm.globals.delayJiffies)) later
  rw [counts]
  exact printk_guarded cancelled

/-! ## Whole lives -/

/-- The obligation of the module's task is to have unloaded the module when it ends. -/
def nhmPost : NhmTask → Unit → ModuleWorld → Prop
  | .task => fun _ => Unloaded
  | .timer => fun _ _ => True

/-- In every life of the module, every thread meets its obligation. -/
theorem moduleLife_meets {here : Node} {garbage : BitVec 64} {world : ModuleWorld}
    (unused : Unused world) {pool : NhmPool}
    (reaches : Pool.Reaches moduleDevice RemoteWrites (Expires here)
      (aboutToLoad here garbage world) pool) :
    Pool.Meets moduleDevice nhmRely nhmGuar nhmPost CountsDelays pool := by
  have counts : CountsDelays world := by
    intro _
    rw [unused.delayJiffies, unused.delays]
    rfl
  have begins : Pool.Meets moduleDevice nhmRely nhmGuar nhmPost CountsDelays
      (aboutToLoad here garbage world) := by
    refine ⟨fun thread => ?_, counts⟩
    cases thread with
    | task =>
        exact (uncorePmuMain_loads here garbage counts).bind fun _ _ loaded =>
          uncorePmuExit_guarded loaded
    | timer => exact fun _ _ => trivial
  refine Pool.Meets.reaches nhm_compatible ?_ begins reaches
  intro pool thread program after meets expires
  cases expires with
  | timer idle armed waiting =>
      let begun : ModuleWorld :=
        { pool.state with nhm := pool.state.nhm.setArmed false, running := true }
      have expired : TaskRely pool.state begun := by
        refine ⟨rfl, fun _ _ => Or.inl rfl, fun asleep => ?_,
          fun _ => countsDelays_of_running rfl, rfl⟩
        exact absurd (armed.symm.trans asleep.armed) (by decide)
      refine ⟨fun thread => ?_, countsDelays_of_running rfl⟩
      cases thread with
      | timer =>
          have ticking : Ticking 0 begun := ⟨rfl, meets.holds waiting⟩
          dsimp only
          rw [Function.update_self]
          exact (runTimer_guarded ticking).mono fun _ _ _ => trivial
      | task =>
          have apart : NhmTask.task ≠ NhmTask.timer := by decide
          dsimp only
          rw [Function.update_of_ne apart]
          exact (meets.guarded .task).of_rely (.single expired)

/-- The obligation of the task at its end, in every later state. -/
theorem unloaded_of_reaches {here : Node} {garbage : BitVec 64} {world : ModuleWorld}
    (unused : Unused world) {pool : NhmPool}
    (reaches : Pool.Reaches moduleDevice RemoteWrites (Expires here)
      (aboutToLoad here garbage world) pool)
    (returned : pool.threads .task = .ret ()) : Unloaded pool.state := by
  have ends := (moduleLife_meets unused reaches).guarded .task
  rw [returned] at ends
  exact ends _ .refl

/-! ### A life with one tick -/

/-- The module is loaded on a machine with cleared registers. -/
def loadedModule : ModuleWorld :=
  ((Program.hoist onEmulator (uncorePmuMain .zero 0)).run ModuleWorld.exec
    { nhm := { msrs := fun _ _ => 0 } }).2

/-- Its timer ticks. -/
def tickedModule : ModuleWorld :=
  ((runTimer .zero).run ModuleWorld.exec
    { loadedModule with nhm := loadedModule.nhm.setArmed false, running := true }).2

/-- It is unloaded. -/
def unloadedModule : ModuleWorld := (uncorePmuExit.run ModuleWorld.exec tickedModule).2

theorem unused_empty : Unused { nhm := { msrs := fun _ _ => 0 } } := ⟨rfl, rfl, rfl⟩

/-- While no callback runs, the task never waits. -/
theorem moduleTask_ready {α : Type} (program : ModuleProgram α) {world : ModuleWorld}
    (waiting : world.running = false) :
    Completes moduleDevice RemoteWrites program world (program.run ModuleWorld.exec world).1
      (program.run ModuleWorld.exec world).2 := by
  have keeps : program.Makes fun op => ∀ state : ModuleWorld, state.running = false →
      moduleDevice.ready op state ∧ (moduleDevice.exec op state).2.running = false := by
    refine .of_forall (fun op state idle => ?_) program
    cases op with
    | hrtimerCancel => exact ⟨idle, idle⟩
    | hrtimerReturn again => exact ⟨trivial, rfl⟩
    | _ => exact ⟨trivial, idle⟩
  exact reaches_run_of_keeps keeps waiting

/-- A tick never waits. -/
theorem runTimer_ready (here : Node) (world : ModuleWorld) :
    Completes moduleDevice RemoteWrites (runTimer here) world ()
      ((runTimer here).run ModuleWorld.exec world).2 := by
  have emulator : ∀ op, (onEmulator op).Makes fun op => ∀ state, moduleDevice.ready op state :=
    fun _ => ⟨fun _ => trivial, fun _ => trivial⟩
  have always : (runTimer here).Makes fun op => ∀ state, moduleDevice.ready op state :=
    (Program.Makes.hoist emulator _).bind fun _ => ⟨fun _ => trivial, fun _ => trivial⟩
  exact reaches_run always world

theorem unloadedModule_reached :
    ∃ threads, threads .task = .ret () ∧ Pool.Reaches moduleDevice RemoteWrites (Expires .zero)
      (aboutToLoad .zero 0 { nhm := { msrs := fun _ _ => 0 } }) ⟨threads, unloadedModule⟩ := by
  let start := aboutToLoad .zero 0 { nhm := { msrs := fun _ _ => 0 } }
  have loads : Reaches moduleDevice RemoteWrites (start.threads .task, start.state)
      (uncorePmuExit, loadedModule) :=
    (moduleTask_ready (Program.hoist onEmulator (uncorePmuMain .zero 0)) rfl).followed .refl
  let loaded := Function.update start.threads .task uncorePmuExit
  have sleeps : loaded .timer = .ret () := Function.update_of_ne (by decide) _ _
  have armed : loadedModule.nhm.armed = true := by decide +kernel
  have expires : Expires .zero ⟨loaded, loadedModule⟩ .timer (runTimer .zero)
      { loadedModule with nhm := loadedModule.nhm.setArmed false, running := true } :=
    .timer sleeps armed rfl
  have ticks : Pool.Reaches moduleDevice RemoteWrites (Expires .zero) ⟨loaded, loadedModule⟩
      ⟨loaded, tickedModule⟩ :=
    Pool.reaches_of_launch sleeps expires (runTimer_ready .zero _)
  have exits : Reaches moduleDevice RemoteWrites (loaded .task, tickedModule)
      (.ret (), unloadedModule) := by
    have here : loaded .task = uncorePmuExit := Function.update_self _ _ _
    rw [here]
    exact moduleTask_ready uncorePmuExit rfl
  refine ⟨Function.update loaded .task (.ret ()), Function.update_self _ _ _, ?_⟩
  exact ((Pool.reaches_of_thread start .task loads).trans ticks).trans
    (Pool.reaches_of_thread ⟨loaded, tickedModule⟩ .task exits)

/-! ### The theorems -/

/-- What is printed last is the number of the delays that were ever asked for. -/
theorem printed_of_reaches {here : Node} {garbage : BitVec 64} {world : ModuleWorld}
    (unused : Unused world) {pool : NhmPool}
    (reaches : Pool.Reaches moduleDevice RemoteWrites (Expires here)
      (aboutToLoad here garbage world) pool)
    (returned : pool.threads .task = .ret ()) :
    pool.state.printed = some (BitVec.ofNat 64 pool.state.nhm.delays.length) :=
  (unloaded_of_reaches unused reaches returned).printed

theorem printed_unloadedModule :
    unloadedModule.nhm.delays.length = 1 ∧
      unloadedModule.printed = some (BitVec.ofNat 64 unloadedModule.nhm.delays.length) := by
  obtain ⟨threads, returned, reaches⟩ := unloadedModule_reached
  exact ⟨by decide +kernel, printed_of_reaches unused_empty reaches returned⟩

end NvmEmulator.Nehalem
