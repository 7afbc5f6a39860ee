/-
# Emulating NVM

The functions of `emulate_nvm.c` and what they call of `uncore_pmu.c`, as
programs over the accesses of `World`. Messages are left out: nothing depends on
them. A loop over a CPU mask tests the mask at each CPU, because the masks of
`cpumask_of_node` change while these functions take CPUs down and up.
-/

import NvmEmulator.Emulate.World

namespace NvmEmulator.Emulate

open NvmEmulator.Kernel NvmEmulator.Semantics NvmEmulator.Uncore

/-! ## Accesses -/

section Access

/-- One access. -/
def access (op : UncoreOp) : UncoreProgram op.Res := Program.lift op

/-- Read the globals. -/
def globals : UncoreProgram Globals := access .globals

/-- Assign to globals. -/
def assign (update : Globals → Globals) : UncoreProgram Unit := access (.assign update)

/-- Run a register program on a box. -/
def onBox {α : Type} (box : UncoreBox) (program : RegProgram 32 α) : UncoreProgram α :=
  program.hoist fun op => access (.pci box op)

/-- Run a register program on the global MSRs seen from a processor. -/
def onCpu {α : Type} (cpu : Nat) (program : RegProgram 64 α) : UncoreProgram α :=
  program.hoist fun op => access (.msr cpu op)

/-- An access to a word of a memory controller. -/
def onImc (pdev : PciDev) (op : RegOp 16) : UncoreProgram op.Res := access (.imc pdev op)

/-- The memory-controller methods in use. -/
def uncoreImcOps : UncoreImcOps UncoreOp UncoreOp.Res := hswepE5ImcOps onImc

end Access

section Platform

variable (machine : Machine)

/-! ## CPU masks -/

/-- `for_each_cpu(cpu, cpumask_of_node(node))` -/
def forEachCpu (node : Nat) (body : Nat → UncoreProgram Unit) : UncoreProgram Unit :=
  Program.forEach
    (fun cpu => do
      let set ← access (.cpumaskOfNode node cpu)
      if set then body cpu else pure ())
    (List.range machine.nrCpuIds)

/-- `for_each_cpu_not(cpu, cpumask_of_node(node))` -/
def forEachCpuNot (node : Nat) (body : Nat → UncoreProgram Unit) : UncoreProgram Unit :=
  Program.forEach
    (fun cpu => do
      let set ← access (.cpumaskOfNode node cpu)
      if set then pure () else body cpu)
    (List.range machine.nrCpuIds)

/-- `cpumask_first` over the CPUs still to be looked at; `nr_cpu_ids` when none is set. -/
def cpumaskFirst (node : Nat) : List Nat → UncoreProgram Nat
  | [] => pure machine.nrCpuIds
  | cpu :: rest => do
      let set ← access (.cpumaskOfNode node cpu)
      if set then pure cpu else cpumaskFirst node rest

/-- `first_online_cpu_of_node` -/
def firstOnlineCpuOfNode (node : Nat) : UncoreProgram Int := do
  let cpu ← cpumaskFirst machine node (List.range machine.nrCpuIds)
  if cpu > machine.nrCpuIds then pure (-1) else pure cpu

/-! ## Calls on other processors -/

/-- `smp_call_function_single`, waiting: a call that fails runs nothing. -/
def smpCallFunctionSingle (cpu : Nat) (func : Nat → UncoreProgram Unit) :
    UncoreProgram Int := do
  let err ← access (.kernel (.smpCallFunctionSingle cpu))
  if err = 0 then
    func cpu
    pure err
  else pure err

/-- `uncore_call_function_on_node` -/
def uncoreCallFunctionOnNode (node : Nat) (func : Nat → UncoreProgram Unit) :
    UncoreProgram Int :=
  if node > machine.nrNodeIds then pure (-einval)
  else do
    let cpu ← firstOnlineCpuOfNode machine node
    if cpu < 0 then pure (-enxio)
    else smpCallFunctionSingle cpu.toNat func

/-! ## The global PMU -/

/-- `struct uncore_pmu` -/
structure UncorePmu where
  globalCtl : BitVec 32
  globalStatus : BitVec 32
  globalConfig : BitVec 32
  deriving DecidableEq

/-- `uncore_pmu`, as `hswep_cpu_init` fills it. -/
def uncorePmu : UncorePmu where
  globalCtl := 0x700
  globalStatus := 0x701
  globalConfig := 0x702

/-- `__uncore_clear_global_pmu`; `status` has 32 bits. -/
def uncoreClearGlobalPmuOnCpu (pmu : UncorePmu) : RegProgram 64 Unit := do
  if pmu.globalCtl ≠ 0 then wrmsrl pmu.globalCtl 0 else pure ()
  if pmu.globalStatus ≠ 0 then
    let status ← rdmsrl pmu.globalStatus
    wrmsrl pmu.globalStatus ((status.setWidth 32).setWidth 64)
  else pure ()

/-- `uncore_clear_global_pmu` -/
def uncoreClearGlobalPmu (pmu : UncorePmu) : UncoreProgram Unit :=
  Program.forEach
    (fun node => do
      let _ ← uncoreCallFunctionOnNode machine node fun cpu =>
        onCpu cpu (uncoreClearGlobalPmuOnCpu pmu)
      pure ())
    machine.onlineNodes

/-- The reads of `__uncore_print_global_pmu`. -/
def uncorePrintGlobalPmuOnCpu (pmu : UncorePmu) : RegProgram 64 Unit := do
  let readIfPresent (msr : BitVec 32) : RegProgram 64 Unit :=
    if msr ≠ 0 then do
      let _ ← rdmsrl msr
      pure ()
    else pure ()
  readIfPresent pmu.globalCtl
  readIfPresent pmu.globalStatus
  readIfPresent pmu.globalConfig

/-- `uncore_print_global_pmu` -/
def uncorePrintGlobalPmu (pmu : UncorePmu) : UncoreProgram Unit :=
  Program.forEach
    (fun node => do
      let _ ← uncoreCallFunctionOnNode machine node fun cpu =>
        onCpu cpu (uncorePrintGlobalPmuOnCpu pmu)
      pure ())
    machine.onlineNodes

/-! ## The timer callback -/

/-- `emulate_nvm_func`, on the processor it was sent to. -/
def emulateNvmFunc (delayNs : BitVec 64) (cpu : Nat) : UncoreProgram Unit :=
  access (.udelay cpu (delayNs / 1000))

/-- `counts_to_delay_ns` -/
def countsToDelayNs (readLatencyDeltaNs counts : BitVec 64) : BitVec 64 :=
  counts * readLatencyDeltaNs

/-- `emulate_nvm_hrtimer`. The expiry that `hrtimer_forward_now` sets is left out:
time does not appear in the model. -/
def emulateNvmHrtimer (box : UncoreBox) : UncoreProgram HrtimerRestart := do
  onBox box (uncoreDisableBox hswepUncorePciBoxOps box)
  let counts ← onBox box (uncoreReadCounter hswepUncorePciBoxOps box 0)
  assign fun state => { state with procCounts := counts }
  let state ← globals
  let delayNs := countsToDelayNs state.readLatencyDeltaNs counts
  let _ ← smpCallFunctionSingle state.emulateNvmCpu (emulateNvmFunc delayNs)
  onBox box (uncoreWriteCounter hswepUncorePciBoxOps box 0)
  onBox box (uncoreEnableBox hswepUncorePciBoxOps box)
  assign fun state => { state with hrtimerJiffies := state.hrtimerJiffies + 1 }
  pure .restart

/-- `uncore_box_hrtimer_def` -/
def uncoreBoxHrtimerDef (_ : UncoreBox) : UncoreProgram HrtimerRestart := pure .restart

/-- The function of a box's timer. -/
def hrtimerFunction (box : UncoreBox) : HrtimerFunction → UncoreProgram HrtimerRestart
  | .emulateNvmHrtimer => emulateNvmHrtimer box
  | .uncoreBoxHrtimerDef => uncoreBoxHrtimerDef box

/-- The callback of a box's timer, as the kernel runs it. -/
def runHrtimer (box : UncoreBox) (function : HrtimerFunction) : UncoreProgram Unit := do
  let again ← hrtimerFunction box function
  access (.hrtimerReturn box again)

/-! ## Latency -/

/-- `uncore_get_first_box` -/
def uncoreGetFirstBox (boxes : List UncoreBox) (nodeid : Nat) : Option UncoreBox :=
  if nodeid > uncoreMaxSocket then none else boxes.find? (·.nodeid = nodeid)

/-- `start_emulate_latency`, from the found box on: count remote reads from 0 and poll
the box. -/
def startPolling (box : UncoreBox) : UncoreProgram Unit := do
  let event := haRequestsRemoteReads
  assign fun state => { state with event := some event }
  access (.setBoxFields box fun fields => { fields with event := some event })
  onBox box (uncoreInitBox hswepUncorePciBoxOps box)
  onBox box (uncoreDisableBox hswepUncorePciBoxOps box)
  onBox box (uncoreEnableEvent hswepUncorePciBoxOps box event)
  onBox box (uncoreEnableBox hswepUncorePciBoxOps box)
  access (.setBoxFields box fun fields => { fields with function := .emulateNvmHrtimer })
  let state ← globals
  access (.setBoxFields box fun fields =>
    { fields with hrtimerDuration := state.emulateNvmHrtimerDurationNs })
  access (.hrtimerStart box)
  assign fun state => { state with latencyStarted := true }

/-- `start_emulate_latency` -/
def startEmulateLatency : UncoreProgram Int := do
  let haBox0 := uncoreGetFirstBox machine.haBoxes 0
  let haBox1 := uncoreGetFirstBox machine.haBoxes 1
  assign fun state => { state with haBox0 := haBox0, haBox1 := haBox1 }
  match haBox0, haBox1 with
  | some _, some box => do
      startPolling box
      pure 0
  | _, _ => pure (-enxio)

/-- `finish_emulate_latency`. `latency_started` is set only once both boxes are
found, so the last case does not arise. -/
def finishEmulateLatency : UncoreProgram Unit := do
  let state ← globals
  if state.latencyStarted then
    match state.haBox0, state.haBox1 with
    | some first, some second =>
        access (.hrtimerCancel first)
        access (.hrtimerCancel second)
        onBox first (uncoreDisableBox hswepUncorePciBoxOps first)
        onBox first (uncoreShowBox hswepUncorePciBoxOps first)
        onBox second (uncoreDisableBox hswepUncorePciBoxOps second)
        onBox second (uncoreShowBox hswepUncorePciBoxOps second)
        uncorePrintGlobalPmu machine uncorePmu
        onBox first (uncoreClearBox hswepUncorePciBoxOps first)
        onBox second (uncoreClearBox hswepUncorePciBoxOps second)
        assign fun state => { state with latencyStarted := false }
    | _, _ => pure ()
  else pure ()

/-! ## Bandwidth -/

/-- `start_emulate_bandwidth`: both error codes are dropped. -/
def startEmulateBandwidth : UncoreProgram Int := do
  let _ ← uncoreImcSetThresholdAll uncoreImcOps machine.imcDevices.list machine.onlineNodes 1
  let _ ← uncoreImcEnableThrottleAll uncoreImcOps machine.imcDevices.list
    machine.onlineNodes
  pure 0

/-- `finish_emulate_bandwidth` -/
def finishEmulateBandwidth : UncoreProgram Unit :=
  uncoreImcDisableThrottleAll uncoreImcOps machine.imcDevices.list machine.onlineNodes

/-! ## Platform -/

/-- `if (cpu != keep) cpu_down(cpu);` -/
def cpuDownExcept (keep cpu : Nat) : UncoreProgram Unit :=
  if cpu ≠ keep then do
    let _ ← access (.kernel (.cpuDown cpu))
    pure ()
  else pure ()

/-- `if (cpu != keep) cpu_up(cpu);` -/
def cpuUpExcept (keep cpu : Nat) : UncoreProgram Unit :=
  if cpu ≠ keep then do
    let _ ← access (.kernel (.cpuUp cpu))
    pure ()
  else pure ()

/-- `prepare_platform_configuration` -/
def preparePlatformConfiguration : UncoreProgram Int := do
  let state ← globals
  if machine.smpProcessorId ≠ state.pollingCpu then pure (-1)
  else do
    forEachCpu machine state.emulateNvmNode (cpuDownExcept state.emulateNvmCpu)
    forEachCpu machine state.pollingNode (cpuDownExcept state.pollingCpu)
    pure 0

/-- `restore_platform_configuration`: the first loop of the source walks the CPUs
that are *not* in the node's mask. -/
def restorePlatformConfiguration : UncoreProgram Unit := do
  let state ← globals
  forEachCpuNot machine state.emulateNvmNode (cpuUpExcept state.emulateNvmCpu)
  forEachCpu machine state.pollingNode (cpuUpExcept state.pollingCpu)

/-! ## Starting and finishing -/

/-- `emulate_nvm_proc_create` -/
def emulateNvmProcCreate : UncoreProgram Int := do
  let err ← access (.kernel .procCreate)
  if err = 0 then
    assign fun state => { state with emulateNvmProcRegisted := true }
    pure 0
  else pure (-enoent)

/-- `emulate_nvm_proc_remove` -/
def emulateNvmProcRemove : UncoreProgram Unit := do
  let state ← globals
  if state.emulateNvmProcRegisted then access .procRemove else pure ()

/-- The parameters `start_emulate_nvm` sets first. -/
def setEmulateParameters : UncoreProgram Unit := do
  assign fun state =>
    { state with
      dramReadLatencyNs := 100, nvmReadLatencyNs := 300, readLatencyDeltaNs := 200 }
  assign fun state => { state with pollingCpu := 6, emulateNvmCpu := 0 }
  assign fun state =>
    { state with
      pollingNode := machine.cpuToNode state.pollingCpu
      emulateNvmNode := machine.cpuToNode state.emulateNvmCpu }
  assign fun state => { state with emulateNvmHrtimerDurationNs := 1000000 * 100 }

/-- `start_emulate_nvm` -/
def startEmulateNvm : UncoreProgram Unit := do
  setEmulateParameters machine
  let ret ← emulateNvmProcCreate
  if ret ≠ 0 then pure ()
  else do
    let ret ← preparePlatformConfiguration machine
    if ret ≠ 0 then emulateNvmProcRemove
    else do
      let ret ← startEmulateBandwidth machine
      if ret ≠ 0 then do
        restorePlatformConfiguration machine
        emulateNvmProcRemove
      else do
        let ret ← startEmulateLatency machine
        if ret ≠ 0 then do
          finishEmulateBandwidth machine
          restorePlatformConfiguration machine
          emulateNvmProcRemove
        else assign fun state => { state with emulationStarted := true }

/-- `finish_emulate_nvm` -/
def finishEmulateNvm : UncoreProgram Unit := do
  let state ← globals
  if state.emulationStarted then do
    emulateNvmProcRemove
    restorePlatformConfiguration machine
    finishEmulateBandwidth machine
    finishEmulateLatency machine
    assign fun state => { state with emulationStarted := false }
  else pure ()

end Platform

end NvmEmulator.Emulate
