/-
# The emulator's machine

The emulation part of the driver touches home-agent boxes and memory controllers
through PCI configuration space, takes processors down and up, arms a timer,
calls functions on other processors, and keeps its parameters in globals that a
timer callback and a `/proc` writer share. `UncoreOp` has one constructor for
each such access, so that anything may happen between any two of them, and
`exec` says what each one does.

A home-agent box carries two ghost counts beside its registers. They follow the
events that arrive while the box counts and are never read by a program.
-/

import NvmEmulator.Semantics.Interference
import NvmEmulator.Uncore.ImcHaswell

namespace NvmEmulator.Emulate

open NvmEmulator.Kernel NvmEmulator.Semantics NvmEmulator.Uncore

/-! ## Counting boxes -/

/-- A PMON unit of PCI configuration space and what has arrived at it. -/
@[ext]
structure PmonUnit where
  regs : RegFile 32
  /-- Ghost: events counted since the counter was last reset. -/
  arrived : Nat := 0
  /-- Ghost: events counted since the box control register was last written. -/
  window : Nat := 0

/-- The 48-bit counter of a box, kept in two dwords. -/
def counterValue (box : UncoreBox) (regs : RegFile 32) : BitVec 48 :=
  (regs (uncorePciPerfCtr box + 4) ++ regs (uncorePciPerfCtr box)).setWidth 48

/-- The registers with another value in the counter. -/
def setCounter (box : UncoreBox) (value : BitVec 48) (regs : RegFile 32) : RegFile 32 :=
  Function.update
    (Function.update regs (uncorePciPerfCtr box) (value.setWidth 32))
    (uncorePciPerfCtr box + 4) ((value >>> 32).setWidth 32)

namespace PmonUnit

variable (box : UncoreBox)

/-- An event is enabled (bit 22 of the event select) and the box is not frozen. -/
def counting (unit : PmonUnit) : Bool :=
  (unit.regs (uncorePciPerfCtl box)).getLsbD 22 && !(pciLayout box).frozen unit.regs

/-- An occurrence of the event the box is programmed for. -/
def arrive (unit : PmonUnit) : PmonUnit :=
  if unit.counting box then
    { regs := setCounter box (counterValue box unit.regs + 1) unit.regs
      arrived := unit.arrived + 1
      window := unit.window + 1 }
  else unit

/-- What an access leaves of the ghost counts. -/
def note : RegOp 32 → PmonUnit → PmonUnit
  | .read _, unit => unit
  | .write addr value, unit =>
      if addr = uncorePciBoxCtl box then
        { unit with
          arrived := if value.getLsbD 1 then 0 else unit.arrived
          window := 0 }
      else unit

/-- An access to the registers of the unit. -/
def exec (op : RegOp 32) (unit : PmonUnit) : op.Res × PmonUnit :=
  (((pciLayout box).exec op unit.regs).1,
    { note box op unit with regs := ((pciLayout box).exec op unit.regs).2 })

end PmonUnit

/-! ## Timers and globals -/

/-- The functions a box's hrtimer is given. -/
inductive HrtimerFunction
  | uncoreBoxHrtimerDef
  | emulateNvmHrtimer
  deriving DecidableEq

/-- `enum hrtimer_restart` -/
inductive HrtimerRestart
  | norestart
  | restart
  deriving DecidableEq

/-- The members of `struct uncore_box` that change after discovery. -/
structure BoxFields where
  event : Option UncoreEvent := none
  hrtimerDuration : BitVec 64 := 0
  function : HrtimerFunction := .uncoreBoxHrtimerDef
  deriving DecidableEq

/-- The state of a box's hrtimer. -/
structure Hrtimer where
  /-- It is queued and will expire. -/
  armed : Bool := false
  /-- Its callback is running. -/
  running : Bool := false
  deriving DecidableEq

/-- The globals of `emulate_nvm.c`, `emulate_nvm_proc.c` and `uncore_proc.c`. -/
structure Globals where
  dramReadLatencyNs : BitVec 64 := 0
  nvmReadLatencyNs : BitVec 64 := 0
  readLatencyDeltaNs : BitVec 64 := 0
  pollingCpu : Nat := 0
  pollingNode : Nat := 0
  emulateNvmCpu : Nat := 0
  emulateNvmNode : Nat := 0
  emulateNvmHrtimerDurationNs : BitVec 64 := 0
  hrtimerJiffies : BitVec 64 := 0
  emulationStarted : Bool := false
  latencyStarted : Bool := false
  haBox0 : Option UncoreBox := none
  haBox1 : Option UncoreBox := none
  event : Option UncoreEvent := none
  procCounts : BitVec 64 := 0
  emulateNvmProcRegisted : Bool := false
  bwRatio : Int := 1
  deriving DecidableEq

/-! ## Accesses -/

/-- A call into the kernel that can fail. -/
inductive KernelCall
  | cpuDown (cpu : Nat)
  | cpuUp (cpu : Nat)
  | smpCallFunctionSingle (cpu : Nat)
  | procCreate
  deriving DecidableEq

/-- What the emulation part of the driver does to its surroundings. -/
inductive UncoreOp
  | /-- A dword of a box's PCI configuration space. -/
    pci (box : UncoreBox) (op : RegOp 32)
  | /-- A word of a memory controller's PCI configuration space. -/
    imc (pdev : PciDev) (op : RegOp 16)
  | /-- A global uncore MSR, accessed on a processor. -/
    msr (cpu : Nat) (op : RegOp 64)
  | /-- Is the processor in `cpumask_of_node(node)` now? -/
    cpumaskOfNode (node cpu : Nat)
  | kernel (call : KernelCall)
  | procRemove
  | udelay (cpu : Nat) (usecs : BitVec 64)
  | hrtimerStart (box : UncoreBox)
  | hrtimerCancel (box : UncoreBox)
  | /-- The callback of the box's timer has returned. -/
    hrtimerReturn (box : UncoreBox) (again : HrtimerRestart)
  | boxFields (box : UncoreBox)
  | setBoxFields (box : UncoreBox) (update : BoxFields → BoxFields)
  | globals
  | assign (update : Globals → Globals)
  | /-- Take `uncore_proc_mutex`, on behalf of a task. -/
    mutexLock (task : Nat)
  | mutexUnlock

/-- What each access answers. -/
abbrev UncoreOp.Res : UncoreOp → Type
  | .pci _ op => op.Res
  | .imc _ op => op.Res
  | .msr _ op => op.Res
  | .cpumaskOfNode _ _ => Bool
  | .kernel _ => Int
  | .boxFields _ => BoxFields
  | .globals => Globals
  | _ => Unit

/-- A function of the emulation part. -/
abbrev UncoreProgram := Program UncoreOp UncoreOp.Res

/-- The parts of the machine that do not change. -/
structure Machine where
  /-- The boxes of `uncore_pci_type[UNCORE_PCI_HA_ID]`, in list order. -/
  haBoxes : List UncoreBox
  haBoxes_type : ∀ box ∈ haBoxes, box.boxType = hswepUncoreHa
  /-- The list `uncore_imc_devices`. -/
  imcDevices : ImcDevices
  /-- The nodes `for_each_online_node` visits. -/
  onlineNodes : List Nat
  nrCpuIds : Nat
  nrNodeIds : Nat
  cpuToNode : Nat → Nat
  /-- `smp_processor_id()` of the task that loads the module. -/
  smpProcessorId : Nat
  /-- What a fallible call returns, after so many earlier ones. -/
  answer : Nat → KernelCall → Int

/-- A controller on an online node is on one that the throttling calls take. -/
def Mapped (machine : Machine) : Prop :=
  ∀ imc ∈ machine.imcDevices.list, imc.nodeid ∈ machine.onlineNodes →
    imc.nodeid ≤ uncoreMaxSocket

theorem noBoxes_type : ∀ box ∈ ([] : List UncoreBox), box.boxType = hswepUncoreHa :=
  fun _ mem => absurd mem List.not_mem_nil

/-- Everything that changes. -/
structure World where
  units : UncoreBox → PmonUnit
  imc : ImcBank
  /-- The global uncore MSRs of each node. -/
  globalPmu : Nat → RegFile 64
  online : Nat → Bool
  boxes : UncoreBox → BoxFields := fun _ => {}
  timers : UncoreBox → Hrtimer := fun _ => {}
  globals : Globals := {}
  /-- How many fallible calls have been made. -/
  calls : Nat := 0
  /-- The delays executed, latest first: processor and microseconds. -/
  delays : List (Nat × BitVec 64) := []
  /-- The task that holds `uncore_proc_mutex`. -/
  mutex : Option Nat := none

/-- The global uncore MSRs: the status register 0x701 clears where 1 is written. -/
def globalPmuLayout : PmonLayout where
  boxCtl := 0
  boxStatus := 0x701
  perfCtl := 0
  counters := []

namespace KernelCall

/-- What a fallible call returns: a CPU that is already down is not taken down, nor
one that is up brought up. -/
def reply (machine : Machine) (world : World) : KernelCall → Int
  | .cpuDown cpu =>
      if world.online cpu then machine.answer world.calls (.cpuDown cpu) else -einval
  | .cpuUp cpu =>
      if world.online cpu then -einval else machine.answer world.calls (.cpuUp cpu)
  | call => machine.answer world.calls call

/-- The CPUs online after a fallible call that returned `answer`. -/
def onlineAfter (answer : Int) (online : Nat → Bool) : KernelCall → Nat → Bool
  | .cpuDown cpu => if answer = 0 then Function.update online cpu false else online
  | .cpuUp cpu => if answer = 0 then Function.update online cpu true else online
  | _ => online

end KernelCall

namespace Machine

variable (machine : Machine)

/-- The effect and the answer of an access. -/
def exec : (op : UncoreOp) → World → op.Res × World
  | .pci box op, world =>
      (((world.units box).exec box op).1,
        { world with
          units := Function.update world.units box ((world.units box).exec box op).2 })
  | .imc pdev op, world =>
      ((RegFile.exec op (world.imc pdev)).1,
        { world with
          imc := Function.update world.imc pdev (RegFile.exec op (world.imc pdev)).2 })
  | .msr cpu op, world =>
      let node := machine.cpuToNode cpu
      ((globalPmuLayout.exec op (world.globalPmu node)).1,
        { world with
          globalPmu := Function.update world.globalPmu node
            (globalPmuLayout.exec op (world.globalPmu node)).2 })
  | .cpumaskOfNode node cpu, world =>
      (world.online cpu && machine.cpuToNode cpu == node, world)
  | .kernel call, world =>
      let answer := call.reply machine world
      (answer, { world with
        online := call.onlineAfter answer world.online
        calls := world.calls + 1 })
  | .procRemove, world => ((), world)
  | .udelay cpu usecs, world => ((), { world with delays := (cpu, usecs) :: world.delays })
  | .hrtimerStart box, world =>
      ((), { world with
        timers := Function.update world.timers box
          { world.timers box with armed := true } })
  | .hrtimerCancel box, world =>
      ((), { world with
        timers := Function.update world.timers box
          { world.timers box with armed := false } })
  | .hrtimerReturn box again, world =>
      ((), { world with
        timers := Function.update world.timers box
          ⟨(world.timers box).armed || again == .restart, false⟩ })
  | .boxFields box, world => (world.boxes box, world)
  | .setBoxFields box update, world =>
      ((), { world with
        boxes := Function.update world.boxes box (update (world.boxes box)) })
  | .globals, world => (world.globals, world)
  | .assign update, world => ((), { world with globals := update world.globals })
  | .mutexLock task, world => ((), { world with mutex := some task })
  | .mutexUnlock, world => ((), { world with mutex := none })

/-- `hrtimer_cancel` waits for a running callback, `mutex_lock` for the holder. -/
def ready : UncoreOp → World → Prop
  | .hrtimerCancel box, world => (world.timers box).running = false
  | .mutexLock _, world => world.mutex = none
  | _, _ => True

/-- The machine as a device. -/
def device : Device UncoreOp UncoreOp.Res World where
  exec := machine.exec
  ready := ready

end Machine

end NvmEmulator.Emulate
