/-
# The core PMU's machine

Each processor has its own general-purpose counter, PMC0, programmed through
model-specific registers. When the counter wraps it sets bit 0 of the global status
register and raises a non-maskable interrupt; the bit stays until a 1 is written to the
same bit of the overflow control register.

Several things move at once: a task that walks the online processors, an NMI handler on
each of them, and the counters. `CoreOp` has one constructor for each access, so that any
of them may come between any two of another's. A function that the task sends to a
processor waits while that processor is in an NMI.
-/

import NvmEmulator.Semantics.Interference
import NvmEmulator.Uncore.Register

namespace NvmEmulator.CorePmu

open NvmEmulator.Semantics NvmEmulator.Uncore

/-! ## Registers -/

/-- `__MSR_IA32_PMC0` -/
def msrIa32Pmc0 : BitVec 32 := 0x0C1

/-- `__MSR_IA32_PERFEVTSEL0` -/
def msrIa32Perfevtsel0 : BitVec 32 := 0x186

/-- `__MSR_CORE_PERF_GLOBAL_STATUS` -/
def msrCorePerfGlobalStatus : BitVec 32 := 0x38E

/-- `__MSR_CORE_PERF_GLOBAL_CTRL` -/
def msrCorePerfGlobalCtrl : BitVec 32 := 0x38F

/-- `__MSR_CORE_PERF_GLOBAL_OVF_CTRL` -/
def msrCorePerfGlobalOvfCtrl : BitVec 32 := 0x390

/-- The model-specific registers of one processor. -/
abbrev MsrFile := RegFile 64

namespace MsrFile

/-- The effect of `wrmsr`: a 1 in the overflow control register clears the status bit. -/
def wrmsr (addr : BitVec 32) (value : BitVec 64) (regs : MsrFile) : MsrFile :=
  if addr = msrCorePerfGlobalOvfCtrl then
    Function.update regs msrCorePerfGlobalStatus
      (regs msrCorePerfGlobalStatus &&& ~~~value)
  else Function.update regs addr value

/-- PMC0 counts: bit 0 of the global control and the enable bit of the event select. -/
def counting (regs : MsrFile) : Bool :=
  (regs msrCorePerfGlobalCtrl).getLsbD 0 && (regs msrIa32Perfevtsel0).getLsbD 22

/-- Bit 0 of the global status: PMC0 has overflowed. -/
def overflowed (regs : MsrFile) : Bool := (regs msrCorePerfGlobalStatus).getLsbD 0

/-- The largest value of the 48-bit counter. -/
def pmc0Max : BitVec 64 := 0xffffffffffff

/-- PMC0 wraps. -/
def overflow (regs : MsrFile) : MsrFile :=
  Function.update (Function.update regs msrIa32Pmc0 0) msrCorePerfGlobalStatus
    (regs msrCorePerfGlobalStatus ||| 1)

/-- An occurrence of the event PMC0 is programmed for. -/
def miss (regs : MsrFile) : MsrFile :=
  if regs.counting then
    if regs msrIa32Pmc0 = pmc0Max then regs.overflow
    else Function.update regs msrIa32Pmc0 (regs msrIa32Pmc0 + 1)
  else regs

end MsrFile

/-! ## Globals -/

/-- `enum PERF_EVENT_ID` -/
inductive PerfEventId
  | unhaltedCycles
  | instructionsRetired
  | unhaltedRefCycles
  | llcReferences
  | llcMisses
  | branchInstructionsRetired
  | branchMissesRetired
  deriving DecidableEq

/-- `struct pre_event` -/
structure PreEvent where
  event : PerfEventId := .unhaltedCycles
  threshold : BitVec 64 := 0
  deriving DecidableEq

/-- The globals of `core_pmu.c` and `core_proc.c`. -/
structure CoreGlobals where
  preEventInitValue : BitVec 64 := 0
  preEventInfo : PreEvent := {}
  isProcRegisted : Bool := false
  deriving DecidableEq

/-! ## Accesses -/

/-- Who makes an access to a processor's registers: a function the task has sent there,
or the processor's NMI handler. -/
inductive Context
  | task
  | nmi
  deriving DecidableEq

/-- What the core PMU driver does to its surroundings. -/
inductive CoreOp
  | rdmsr (context : Context) (cpu : Nat) (addr : BitVec 32)
  | wrmsr (context : Context) (cpu : Nat) (addr : BitVec 32) (value : BitVec 64)
  | globals
  | assign (update : CoreGlobals → CoreGlobals)
  | /-- `*per_cpu_ptr(&PERCPU_NMI_TIMES, cpu) = 0` -/
    clearNmiTimes (cpu : Nat)
  | /-- `this_cpu_inc(PERCPU_NMI_TIMES)` -/
    incNmiTimes (cpu : Nat)
  | /-- The handler of the processor's NMI has returned. -/
    nmiReturn (cpu : Nat)
  | /-- `unregister_nmi_handler` takes the handler off the list. -/
    nmiListDel
  | /-- It then waits for the handlers in progress. -/
    synchronizeRcu
  | /-- Take `core_pmu_proc_mutex`, on behalf of a task. -/
    mutexLock (task : Nat)
  | mutexUnlock
  | procRemove

/-- What each access answers. -/
abbrev CoreOp.Res : CoreOp → Type
  | .rdmsr _ _ _ => BitVec 64
  | .globals => CoreGlobals
  | _ => Unit

/-- A function of the core PMU driver. -/
abbrev CoreProgram := Program CoreOp CoreOp.Res

/-- What has happened to a processor since a run began. No program reads it. -/
structure CoreNote where
  /-- The value PMC0 was last loaded with, if it was. -/
  interval : Option (BitVec 64) := none
  /-- The values PMC0 has been loaded with. -/
  loaded : BitVec 64 → Bool := fun _ => false
  /-- PMC0 has been loaded, and last with another value than 0, since its count of NMIs was
  cleared, or since the run began if it was not. -/
  programmed : Bool := false
  /-- The overflows of the intervals that were started with each value. -/
  overflows : BitVec 64 → Nat := fun _ => 0
  /-- Its count of NMIs has been cleared. -/
  cleared : Bool := false
  /-- The NMI of an overflow is on its way to it. -/
  pending : Bool := false

/-- Everything that changes. -/
structure CoreWorld where
  msrs : Nat → MsrFile
  percpuNmiTimes : Nat → BitVec 64
  globals : CoreGlobals := {}
  /-- The processor is in an NMI. -/
  inNmi : Nat → Bool := fun _ => false
  /-- `core_pmu_nmi_handler` is on the list of NMI handlers. -/
  nmiRegistered : Bool := true
  /-- The task that holds `core_pmu_proc_mutex`. -/
  mutex : Option Nat := none
  /-- Ghost. -/
  notes : Nat → CoreNote := fun _ => {}

namespace CoreWorld

/-- The world with other registers on a processor. -/
def setMsrs (cpu : Nat) (regs : MsrFile) (world : CoreWorld) : CoreWorld :=
  { world with msrs := Function.update world.msrs cpu regs }

/-- The world with another count of NMIs on a processor. -/
def setNmiTimes (cpu : Nat) (times : BitVec 64) (world : CoreWorld) : CoreWorld :=
  { world with percpuNmiTimes := Function.update world.percpuNmiTimes cpu times }

/-- The world with another note on a processor. -/
def setNote (cpu : Nat) (note : CoreNote) (world : CoreWorld) : CoreWorld :=
  { world with notes := Function.update world.notes cpu note }

/-- The world with a processor in an NMI, or out of it. -/
def setInNmi (cpu : Nat) (inside : Bool) (world : CoreWorld) : CoreWorld :=
  { world with inNmi := Function.update world.inNmi cpu inside }

end CoreWorld

/-- An interval starts where PMC0 is loaded. -/
def CoreNote.wrmsr (addr : BitVec 32) (value : BitVec 64) (note : CoreNote) : CoreNote :=
  if addr = msrIa32Pmc0 then
    { note with
      interval := some value
      loaded := Function.update note.loaded value true
      programmed := decide (value ≠ 0) }
  else note

/-- A write to a register notes at most an interval. -/
theorem CoreNote.wrmsr_same (addr : BitVec 32) (value : BitVec 64) (note : CoreNote) :
    (note.wrmsr addr value).cleared = note.cleared ∧
      (note.wrmsr addr value).pending = note.pending ∧
      (note.wrmsr addr value).overflows = note.overflows := by
  rw [wrmsr]
  split
  · exact ⟨rfl, rfl, rfl⟩
  · exact ⟨rfl, rfl, rfl⟩

/-- An overflow belongs to the interval it ends, and raises an NMI. -/
def CoreNote.overflow (note : CoreNote) : CoreNote :=
  { note with
    overflows :=
      match note.interval with
      | none => note.overflows
      | some value => Function.update note.overflows value (note.overflows value + 1)
    pending := true }

/-- The count of NMIs is cleared. -/
def CoreNote.clear (note : CoreNote) : CoreNote :=
  { note with cleared := true, programmed := false }

/-- The effect and the answer of an access. -/
def exec : (op : CoreOp) → CoreWorld → op.Res × CoreWorld
  | .rdmsr _ cpu addr, world => (world.msrs cpu addr, world)
  | .wrmsr _ cpu addr value, world =>
      ((), (world.setMsrs cpu ((world.msrs cpu).wrmsr addr value)).setNote cpu
        ((world.notes cpu).wrmsr addr value))
  | .globals, world => (world.globals, world)
  | .assign update, world => ((), { world with globals := update world.globals })
  | .clearNmiTimes cpu, world =>
      ((), (world.setNmiTimes cpu 0).setNote cpu (world.notes cpu).clear)
  | .incNmiTimes cpu, world => ((), world.setNmiTimes cpu (world.percpuNmiTimes cpu + 1))
  | .nmiReturn cpu, world => ((), world.setInNmi cpu false)
  | .nmiListDel, world => ((), { world with nmiRegistered := false })
  | .synchronizeRcu, world => ((), world)
  | .mutexLock task, world => ((), { world with mutex := some task })
  | .mutexUnlock, world => ((), { world with mutex := none })
  | .procRemove, world => ((), world)

/-- A function sent to a processor waits for the end of its NMI, `synchronize_rcu` for all
of them, and `mutex_lock` for the holder. -/
def ready : CoreOp → CoreWorld → Prop
  | .rdmsr .task cpu _, world => world.inNmi cpu = false
  | .wrmsr .task cpu _ _, world => world.inNmi cpu = false
  | .synchronizeRcu, world => ∀ cpu, world.inNmi cpu = false
  | .mutexLock _, world => world.mutex = none
  | _, _ => True

/-- The machine as a device. -/
def coreDevice : Device CoreOp CoreOp.Res CoreWorld where
  exec := exec
  ready := ready

/-! ## What happens by itself -/

/-- A processor's counter counts, and may wrap. -/
inductive Misses : CoreWorld → CoreWorld → Prop
  | miss (world : CoreWorld) (cpu : Nat) :
      Misses world (world.setMsrs cpu (world.msrs cpu).miss)

end NvmEmulator.CorePmu
