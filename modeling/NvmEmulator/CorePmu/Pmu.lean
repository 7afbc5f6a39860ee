/-
# The core PMU driver

The functions of `core_pmu.c` and `core_proc.c` that program the counters, as programs
over the accesses of `World`. A `__core_pmu_` function runs on one processor, either sent
there by the task or called by the NMI handler; it keeps its name with the suffix `OnCpu`.
Messages are left out: nothing depends on them.
-/

import NvmEmulator.CorePmu.World
import NvmEmulator.Kernel.Proc

namespace NvmEmulator.CorePmu

open NvmEmulator.Kernel NvmEmulator.Semantics NvmEmulator.Uncore

/-! ## Accesses -/

/-- One access. -/
def access (op : CoreOp) : CoreProgram op.Res := Program.lift op

/-- `core_pmu_rdmsr` -/
def corePmuRdmsr (context : Context) (cpu : Nat) (addr : BitVec 32) :
    CoreProgram (BitVec 64) := access (.rdmsr context cpu addr)

/-- `core_pmu_wrmsr` -/
def corePmuWrmsr (context : Context) (cpu : Nat) (addr : BitVec 32) (value : BitVec 64) :
    CoreProgram Unit := access (.wrmsr context cpu addr value)

/-! ## Events -/

/-- `predefined_event_map`: unit mask and event select. -/
def predefinedEventMap : PerfEventId → BitVec 64
  | .unhaltedCycles => 0x003c
  | .instructionsRetired => 0x00c0
  | .unhaltedRefCycles => 0x013c
  | .llcReferences => 0x4f2e
  | .llcMisses => 0x412e
  | .branchInstructionsRetired => 0x00c4
  | .branchMissesRetired => 0x00c5

/-- `USR_MODE` -/
def usrMode : BitVec 64 := 1 <<< 16

/-- `INT_ENABLE` -/
def intEnable : BitVec 64 := 1 <<< 20

/-- `ENABLE` -/
def enable : BitVec 64 := 1 <<< 22

/-- The 48 bits of an initial value that PMC0 takes. -/
def initCount (value : BitVec 64) : BitVec 64 := value &&& 0xffffffffffff

/-- The event select for an event. -/
def eventSelect (event : PerfEventId) : BitVec 64 :=
  predefinedEventMap event ||| usrMode ||| intEnable ||| enable

/-! ## On one processor -/

section OnCpu

variable (context : Context) (cpu : Nat)

/-- `__core_pmu_clear_msrs` -/
def corePmuClearMsrsOnCpu : CoreProgram Unit := do
  corePmuWrmsr context cpu msrIa32Pmc0 0
  corePmuWrmsr context cpu msrIa32Perfevtsel0 0
  corePmuWrmsr context cpu msrCorePerfGlobalCtrl 0
  corePmuWrmsr context cpu msrCorePerfGlobalOvfCtrl 0

/-- `__core_pmu_enable_counting` -/
def corePmuEnableCountingOnCpu : CoreProgram Unit :=
  corePmuWrmsr context cpu msrCorePerfGlobalCtrl 1

/-- `__core_pmu_clear_ovf` -/
def corePmuClearOvfOnCpu : CoreProgram Unit :=
  corePmuWrmsr context cpu msrCorePerfGlobalOvfCtrl 1

/-- `__core_pmu_enable_predefined_event`, whose argument is always `&pre_event_info`. -/
def corePmuEnablePredefinedEventOnCpu : CoreProgram Unit := do
  let value ← access .globals
  let info ← access .globals
  corePmuWrmsr context cpu msrIa32Pmc0 (initCount value.preEventInitValue)
  corePmuWrmsr context cpu msrIa32Perfevtsel0 (eventSelect info.preEventInfo.event)

end OnCpu

/-! ## The NMI handler -/

/-- `NMI_DONE` and `NMI_HANDLED` -/
inductive NmiResult
  | done
  | handled
  deriving DecidableEq

/-- `core_pmu_nmi_handler` -/
def corePmuNmiHandler (cpu : Nat) : CoreProgram NmiResult := do
  let tmsr ← corePmuRdmsr .nmi cpu msrCorePerfGlobalStatus
  if tmsr.getLsbD 0 then do
    corePmuClearMsrsOnCpu .nmi cpu
    corePmuEnablePredefinedEventOnCpu .nmi cpu
    corePmuEnableCountingOnCpu .nmi cpu
    access (.incNmiTimes cpu)
    pure .handled
  else pure .done

/-- An NMI of a processor, as the kernel runs the handler. -/
def runNmi (cpu : Nat) : CoreProgram Unit := do
  let _ ← corePmuNmiHandler cpu
  access (.nmiReturn cpu)

/-! ### The accesses on one processor -/

section Makes

variable {allowed : CoreOp → Prop} {context : Context} {cpu : Nat}

theorem makes_clearMsrsOnCpu (counter : allowed (.wrmsr context cpu msrIa32Pmc0 0))
    (select : allowed (.wrmsr context cpu msrIa32Perfevtsel0 0))
    (control : allowed (.wrmsr context cpu msrCorePerfGlobalCtrl 0))
    (overflow : allowed (.wrmsr context cpu msrCorePerfGlobalOvfCtrl 0)) :
    (corePmuClearMsrsOnCpu context cpu).Makes allowed :=
  ⟨counter, fun _ => ⟨select, fun _ => ⟨control, fun _ => ⟨overflow, fun _ => trivial⟩⟩⟩⟩

theorem makes_enablePredefinedEventOnCpu (globals : allowed .globals)
    (counter : ∀ value, allowed (.wrmsr context cpu msrIa32Pmc0 (initCount value)))
    (select : ∀ event, allowed (.wrmsr context cpu msrIa32Perfevtsel0 (eventSelect event))) :
    (corePmuEnablePredefinedEventOnCpu context cpu).Makes allowed :=
  ⟨globals, fun value => ⟨globals, fun info => ⟨counter value.preEventInitValue, fun _ =>
    ⟨select info.preEventInfo.event, fun _ => trivial⟩⟩⟩⟩

theorem makes_enableCountingOnCpu (control : allowed (.wrmsr context cpu msrCorePerfGlobalCtrl 1)) :
    (corePmuEnableCountingOnCpu context cpu).Makes allowed :=
  ⟨control, fun _ => trivial⟩

/-- What the handler does once it has seen an overflow. -/
theorem makes_restart (clears : (corePmuClearMsrsOnCpu .nmi cpu).Makes allowed)
    (event : (corePmuEnablePredefinedEventOnCpu .nmi cpu).Makes allowed)
    (counting : (corePmuEnableCountingOnCpu .nmi cpu).Makes allowed)
    (count : allowed (.incNmiTimes cpu)) :
    ((corePmuClearMsrsOnCpu .nmi cpu).bind fun _ =>
      (corePmuEnablePredefinedEventOnCpu .nmi cpu).bind fun _ =>
        (corePmuEnableCountingOnCpu .nmi cpu).bind fun _ =>
          (access (.incNmiTimes cpu)).bind fun _ =>
            (Program.ret NmiResult.handled : CoreProgram NmiResult)).Makes allowed :=
  clears.bind fun _ => event.bind fun _ => counting.bind fun _ => ⟨count, fun _ => trivial⟩

theorem makes_nmiHandler (status : allowed (.rdmsr .nmi cpu msrCorePerfGlobalStatus))
    (clears : (corePmuClearMsrsOnCpu .nmi cpu).Makes allowed)
    (event : (corePmuEnablePredefinedEventOnCpu .nmi cpu).Makes allowed)
    (counting : (corePmuEnableCountingOnCpu .nmi cpu).Makes allowed)
    (count : allowed (.incNmiTimes cpu)) : (corePmuNmiHandler cpu).Makes allowed := by
  refine ⟨status, fun tmsr => ?_⟩
  show (if tmsr.getLsbD 0 = true then _ else _ : CoreProgram NmiResult).Makes allowed
  split
  · exact makes_restart clears event counting count
  · trivial

end Makes

/-! ## On all online processors -/

section Online

variable (online : List Nat)

/-- `for_each_online_cpu` with `core_pmu_cpu_function_call`; the call on an online
processor succeeds. -/
def forEachOnlineCpu (func : Nat → CoreProgram Unit) : CoreProgram Unit :=
  Program.forEach func online

/-- `core_pmu_clear_counter` -/
def corePmuClearCounter : CoreProgram Unit :=
  forEachOnlineCpu online fun cpu => access (.clearNmiTimes cpu)

/-- `core_pmu_clear_msrs` -/
def corePmuClearMsrs : CoreProgram Unit :=
  forEachOnlineCpu online (corePmuClearMsrsOnCpu .task)

/-- `core_pmu_enable_counting` -/
def corePmuEnableCounting : CoreProgram Unit :=
  forEachOnlineCpu online (corePmuEnableCountingOnCpu .task)

/-- `core_pmu_enable_predefined_event` -/
def corePmuEnablePredefinedEvent (event : PerfEventId) (threshold : BitVec 64) :
    CoreProgram Unit := do
  access (.assign fun state =>
    { state with preEventInfo := { state.preEventInfo with event := event } })
  access (.assign fun state =>
    { state with preEventInfo := { state.preEventInfo with threshold := threshold } })
  forEachOnlineCpu online (corePmuEnablePredefinedEventOnCpu .task)

/-- `core_pmu_start_sampling` -/
def corePmuStartSampling : CoreProgram Unit := do
  corePmuClearMsrs online
  let state ← access .globals
  corePmuEnablePredefinedEvent online .llcMisses state.preEventInitValue
  corePmuEnableCounting online

/-- The three passes of `core_pmu_start_sampling`. -/
theorem makes_corePmuStartSampling {allowed : CoreOp → Prop} (globals : allowed .globals)
    (assign : ∀ update, allowed (.assign update))
    (clears : ∀ cpu ∈ online, (corePmuClearMsrsOnCpu .task cpu).Makes allowed)
    (event : ∀ cpu ∈ online, (corePmuEnablePredefinedEventOnCpu .task cpu).Makes allowed)
    (counting : ∀ cpu ∈ online, (corePmuEnableCountingOnCpu .task cpu).Makes allowed) :
    (corePmuStartSampling online).Makes allowed := by
  have clearing : (corePmuClearMsrs online).Makes allowed := .forEach clears
  have enabling : ∀ threshold,
      (corePmuEnablePredefinedEvent online .llcMisses threshold).Makes allowed :=
    fun _ => ⟨assign _, fun _ => ⟨assign _, fun _ => .forEach event⟩⟩
  have started : (corePmuEnableCounting online).Makes allowed := .forEach counting
  exact clearing.bind fun _ => ⟨globals, fun state =>
    (enabling state.preEventInitValue).bind fun _ => started⟩

/-! ## The `/proc` file and the end of the module -/

/-- The cases `'1'` to `'4'` of the `switch`, with the initial value each one sets. -/
def samplingValue (ctl : BitVec 8) : Option (BitVec 64) :=
  if ctl = 0x31 then some (-32)
  else if ctl = 0x32 then some (-64)
  else if ctl = 0x33 then some (-128)
  else if ctl = 0x34 then some (-256)
  else none

/-- The case `'0'`: no overflow, disabled. -/
def stopSampling : CoreProgram Unit := do
  access (.assign fun state => { state with preEventInitValue := 0 })
  corePmuClearCounter online
  corePmuClearMsrs online

/-- A case that sets another initial value and starts afresh. -/
def restartSampling (value : BitVec 64) : CoreProgram Unit := do
  access (.assign fun state => { state with preEventInitValue := value })
  corePmuClearCounter online
  corePmuStartSampling online

/-- The `switch` of `core_pmu_proc_write`, with the `count` it leaves. -/
def switchSampling (ctl : BitVec 8) (count : Nat) : CoreProgram Int :=
  if ctl = 0x30 then do
    stopSampling online
    pure count
  else
    match samplingValue ctl with
    | some value => do
        restartSampling online value
        pure count
    | none => pure (-einval)

/-- `core_pmu_proc_write`, called by a task. -/
def corePmuProcWrite (task : Nat) (request : ProcWrite) : CoreProgram Int :=
  if request.count ≠ 2 ∨ request.offs ≠ 0 then pure (-einval)
  else
    match request.buf with
    | none => pure (-efault)
    | some ctl => do
        access (.mutexLock task)
        let count ← switchSampling online ctl.1 request.count
        access .mutexUnlock
        pure count

/-- `core_pmu_proc_remove` -/
def corePmuProcRemove : CoreProgram Unit := do
  let state ← access .globals
  if state.isProcRegisted then access .procRemove else pure ()

/-- `core_pmu_unregister_nmi_handler` -/
def corePmuUnregisterNmiHandler : CoreProgram Unit := do
  access .nmiListDel
  access .synchronizeRcu

/-- `core_pmu_exit` -/
def corePmuExit : CoreProgram Unit := do
  corePmuProcRemove
  corePmuClearMsrs online
  corePmuUnregisterNmiHandler

end Online

end NvmEmulator.CorePmu
