/-
# The Nehalem emulator

`uncore_nhmep.c` is a module of its own, for machines with two sockets. PMC0 of the uncore
counts the remote writes that reach the memory of its socket. A timer turns what PMC0 holds
into a delay on the survivor, a processor of the other socket, and clears PMC0, while remote
writes go on.

The uncore's registers belong to a socket. The pairs beside PMC0 have a cleared select
register and do not count. The overflow interrupt, whose handler is not registered, and the
messages are left out.
-/

import NvmEmulator.Semantics.Interference
import NvmEmulator.Uncore.Register

namespace NvmEmulator.Nehalem

open NvmEmulator.Semantics NvmEmulator.Uncore

/-! ## Registers -/

/-- `NHM_UNCORE_GLOBAL_CTRL` -/
def nhmUncoreGlobalCtrl : BitVec 32 := 0x391

/-- `NHM_UNCORE_GLOBAL_STATUS` -/
def nhmUncoreGlobalStatus : BitVec 32 := 0x392

/-- `NHM_UNCORE_GLOBAL_OVF_CTRL` -/
def nhmUncoreGlobalOvfCtrl : BitVec 32 := 0x393

/-- `NHM_UNCORE_PMCO`, which is `NHM_UNCORE_PMC_BASE`. -/
def nhmUncorePmc0 : BitVec 32 := 0x3b0

/-- `NHM_UNCORE_PERFEVTSEL0`, which is `NHM_UNCORE_SEL_BASE`. -/
def nhmUncorePerfevtsel0 : BitVec 32 := 0x3c0

/-- `NHM_UNCORE_PMC_VALUE_MASK` -/
def nhmUncorePmcValueMask : BitVec 64 := 0xffffffffffff

/-- `NHM_PEREVTSEL_EVENT_MASK` -/
def nhmPerevtselEventMask : BitVec 64 := 0xff

/-- `NHM_PEREVTSEL_UNIT_MASK` -/
def nhmPerevtselUnitMask : BitVec 64 := 0xff <<< 8

/-- `NHM_PEREVTSEL_PMI_ENABLE` -/
def nhmPerevtselPmiEnable : BitVec 64 := 1 <<< 20

/-- `NHM_PEREVTSEL_COUNT_ENABLE` -/
def nhmPerevtselCountEnable : BitVec 64 := 1 <<< 22

/-- `NHM_UNCORE_PMC_MASK`: the enable bits of the eight counters. -/
def nhmUncorePmcMask : BitVec 64 := 0xff

/-- `NHM_UNCORE_GLOBAL_CTRL_EN_PMI` -/
def nhmUncoreGlobalCtrlEnPmi : BitVec 64 := 0xf <<< 48

/-- `NHM_UNCORE_GLOBAL_CTRL_EN_FRZ` -/
def nhmUncoreGlobalCtrlEnFrz : BitVec 64 := 1 <<< 63

/-- `NHM_UNCORE_GLOBAL_CTRL_MASK` -/
def nhmUncoreGlobalCtrlMask : BitVec 64 := nhmUncorePmcMask ||| nhmUncoreGlobalCtrlEnPmi

/-- `NHM_UNCORE_GLOBAL_OVF_PMI` -/
def nhmUncoreGlobalOvfPmi : BitVec 64 := 1 <<< 61

/-- `NHM_UNCORE_GLOBAL_OVF_CHG` -/
def nhmUncoreGlobalOvfChg : BitVec 64 := 1 <<< 63

/-- `NHM_UNCORE_GLOBAL_STATUS_MASK` -/
def nhmUncoreGlobalStatusMask : BitVec 64 := nhmUncorePmcMask ||| 1 <<< 61 ||| 1 <<< 63

/-- `NHM_UNCORE_GLOBAL_OVF_CTRL_MASK` -/
def nhmUncoreGlobalOvfCtrlMask : BitVec 64 := nhmUncoreGlobalStatusMask ||| 1 <<< 32

/-- `enum nhm_uncore_event_id` -/
inductive NhmUncoreEventId
  | qhlRequestIohReads
  | qhlRequestIohWrites
  | qhlRequestRemoteReads
  | qhlRequestRemoteWrites
  | qhlRequestLocalReads
  | qhlRequestLocalWrites
  | qmcNormalReadsAny
  | qmcWritesFullAny
  | qmcWritesPartialAny
  deriving DecidableEq

/-- `nhm_uncore_event_map` -/
def nhmUncoreEventMap : NhmUncoreEventId → BitVec 64
  | .qhlRequestIohReads => 0x0120
  | .qhlRequestIohWrites => 0x0220
  | .qhlRequestRemoteReads => 0x0420
  | .qhlRequestRemoteWrites => 0x0820
  | .qhlRequestLocalReads => 0x1020
  | .qhlRequestLocalWrites => 0x2020
  | .qmcNormalReadsAny => 0x072c
  | .qmcWritesFullAny => 0x072f
  | .qmcWritesPartialAny => 0x382f

/-- The uncore's registers of one socket. -/
abbrev MsrFile := RegFile 64

namespace MsrFile

/-- The effect of `wrmsr`: a 1 in the overflow control register clears a status bit. -/
def wrmsr (addr : BitVec 32) (value : BitVec 64) (regs : MsrFile) : MsrFile :=
  if addr = nhmUncoreGlobalOvfCtrl then
    Function.update regs nhmUncoreGlobalStatus (regs nhmUncoreGlobalStatus &&& ~~~value)
  else Function.update regs addr value

/-- PMC0 is enabled in the global control and counts remote writes. -/
def counting (regs : MsrFile) : Bool :=
  (regs nhmUncoreGlobalCtrl).getLsbD 0 && (regs nhmUncorePerfevtsel0).getLsbD 22 &&
    decide (regs nhmUncorePerfevtsel0 &&& 0xffff = nhmUncoreEventMap .qhlRequestRemoteWrites)

/-- PMC0 wraps. With `EN_FRZ` all counters stop counting until their enable bits are set
again. -/
def overflow (regs : MsrFile) : MsrFile :=
  let wrapped := Function.update (Function.update regs nhmUncorePmc0 0) nhmUncoreGlobalStatus
    (regs nhmUncoreGlobalStatus ||| 1)
  if (regs nhmUncoreGlobalCtrl).getLsbD 63 then
    Function.update wrapped nhmUncoreGlobalCtrl
      (regs nhmUncoreGlobalCtrl &&& ~~~nhmUncorePmcMask)
  else wrapped

/-- A remote write. -/
def remoteWrite (regs : MsrFile) : MsrFile :=
  if regs.counting then
    if regs nhmUncorePmc0 = nhmUncorePmcValueMask then regs.overflow
    else Function.update regs nhmUncorePmc0 (regs nhmUncorePmc0 + 1)
  else regs

end MsrFile

/-! ## Accesses -/

/-- The sockets: processor 0 is on node 0 and processor 6 on node 1. -/
inductive Node
  | zero
  | one
  deriving DecidableEq

/-- The globals of `uncore_nhmep.c`. -/
structure NhmGlobals where
  nmiRegisted : Bool := false
  freeze : Bool := false
  pmc : Nat := 0
  survivor : Nat := 0
  xyz : Nat := 0
  initval : BitVec 64 := 0
  timerInited : Bool := false
  delayJiffies : BitVec 64 := 0
  intervalNs : BitVec 64 := 0
  writeLatencyDelta : BitVec 64 := 0
  deriving DecidableEq

/-- Who makes an access to the registers: the loading of the module, or the timer. -/
inductive Context
  | main
  | timer
  deriving DecidableEq

/-- What the emulator does to its surroundings. -/
inductive NhmOp
  | rdmsr (context : Context) (node : Node) (addr : BitVec 32)
  | wrmsr (context : Context) (node : Node) (addr : BitVec 32) (value : BitVec 64)
  | globals
  | assign (update : NhmGlobals → NhmGlobals)
  | /-- `smp_call_function_single` with `uncore_pmu_delay` -/
    delayCpu (cpu : Nat) (ns : BitVec 64)
  | hrtimerInit
  | hrtimerStart (ns : Nat)
  | hrtimerForwardNow (ns : BitVec 64)

/-- What each access answers. -/
abbrev NhmOp.Res : NhmOp → Type
  | .rdmsr _ _ _ => BitVec 64
  | .globals => NhmGlobals
  | _ => Unit

/-- A function of the emulator. -/
abbrev NhmProgram := Program NhmOp NhmOp.Res

/-- Everything that changes. When the timer expires is left open: it is armed or not. -/
structure NhmWorld where
  msrs : Node → MsrFile
  globals : NhmGlobals := {}
  /-- The delays that were asked for, the first one first. -/
  delays : List (BitVec 64) := []
  armed : Bool := false

namespace NhmWorld

/-- The world with other registers on a socket. -/
def setMsrs (node : Node) (regs : MsrFile) (world : NhmWorld) : NhmWorld :=
  { world with msrs := Function.update world.msrs node regs }

/-- A remote write reaches a socket. -/
def remoteWrite (node : Node) (world : NhmWorld) : NhmWorld :=
  world.setMsrs node (world.msrs node).remoteWrite

/-- The world with the timer armed or not. -/
def setArmed (armed : Bool) (world : NhmWorld) : NhmWorld := { world with armed := armed }

end NhmWorld

/-- The effect and the answer of an access. -/
def exec : (op : NhmOp) → NhmWorld → op.Res × NhmWorld
  | .rdmsr _ node addr, world => (world.msrs node addr, world)
  | .wrmsr _ node addr value, world =>
      ((), world.setMsrs node ((world.msrs node).wrmsr addr value))
  | .globals, world => (world.globals, world)
  | .assign update, world => ((), { world with globals := update world.globals })
  | .delayCpu _ ns, world => ((), { world with delays := world.delays ++ [ns] })
  | .hrtimerInit, world => ((), world.setArmed false)
  | .hrtimerStart _, world => ((), world.setArmed true)
  | .hrtimerForwardNow _, world => ((), world)

/-- The machine as a device. -/
def nhmDevice : Device NhmOp NhmOp.Res NhmWorld where
  exec := exec

/-- One access. -/
def access (op : NhmOp) : NhmProgram op.Res := Program.lift op

/-- `uncore_rdmsr` -/
def uncoreRdmsr (context : Context) (node : Node) (addr : BitVec 32) :
    NhmProgram (BitVec 64) :=
  access (.rdmsr context node addr)

/-- `uncore_wrmsr` -/
def uncoreWrmsr (context : Context) (node : Node) (addr : BitVec 32) (value : BitVec 64) :
    NhmProgram Unit :=
  access (.wrmsr context node addr value)

/-! ## The uncore PMU -/

section OnNode

variable (node : Node)

/-- `for_each_pmc_pair` -/
def forEachPmcPair (body : BitVec 32 → BitVec 32 → NhmProgram Unit) : NhmProgram Unit :=
  Program.forEach
    (fun id =>
      body (nhmUncorePmc0 + BitVec.ofNat 32 id) (nhmUncorePerfevtsel0 + BitVec.ofNat 32 id))
    (List.range 8)

/-- `nhm_uncore_show_msrs`, whose reads are printed. -/
def nhmUncoreShowMsrs : NhmProgram Unit := do
  let _ ← uncoreRdmsr .main node nhmUncoreGlobalCtrl
  let _ ← uncoreRdmsr .main node nhmUncoreGlobalStatus
  forEachPmcPair fun pmc sel => do
    let _ ← uncoreRdmsr .main node pmc
    let _ ← uncoreRdmsr .main node sel
    pure ()

/-- `nhm_uncore_clear_ovf` -/
def nhmUncoreClearOvf (pmcmask : BitVec 64) : NhmProgram Unit :=
  uncoreWrmsr .main node nhmUncoreGlobalOvfCtrl
    (pmcmask ||| (nhmUncoreGlobalOvfPmi ||| nhmUncoreGlobalOvfChg))

/-- `nhm_uncore_clear_status` -/
def nhmUncoreClearStatus : NhmProgram Unit :=
  uncoreWrmsr .main node nhmUncoreGlobalOvfCtrl nhmUncoreGlobalOvfCtrlMask

/-- `nhm_uncore_clear_ctrl` -/
def nhmUncoreClearCtrl : NhmProgram Unit :=
  uncoreWrmsr .main node nhmUncoreGlobalCtrl 0

/-- `nhm_uncore_clear_msrs` -/
def nhmUncoreClearMsrs : NhmProgram Unit := do
  nhmUncoreClearCtrl node
  nhmUncoreClearStatus node
  forEachPmcPair fun pmc sel => do
    uncoreWrmsr .main node pmc 0
    uncoreWrmsr .main node sel 0

/-- `nhm_uncore_set_event` -/
def nhmUncoreSetEvent (pmcid : Nat) (event : NhmUncoreEventId) (pmcval : BitVec 64) :
    NhmProgram Unit := do
  let pmcval := pmcval &&& nhmUncorePmcValueMask
  let selval := nhmUncoreEventMap event ||| nhmPerevtselCountEnable ||| nhmPerevtselPmiEnable
  uncoreWrmsr .main node (BitVec.ofNat 32 pmcid + nhmUncorePmc0) pmcval
  uncoreWrmsr .main node (BitVec.ofNat 32 pmcid + nhmUncorePerfevtsel0) selval

/-- What `nhm_uncore_enable_counting` writes. Nothing assigns `mask` before its first use:
`garbage` is what it holds. -/
def enableMask (garbage : BitVec 64) (frz : Bool) : BitVec 64 :=
  (if frz then garbage ||| nhmUncoreGlobalCtrlEnFrz else garbage) ||| nhmUncorePmcMask |||
    nhmUncoreGlobalCtrlEnPmi

/-- `nhm_uncore_enable_counting` -/
def nhmUncoreEnableCounting (garbage : BitVec 64) (frz : Bool) : NhmProgram Unit :=
  uncoreWrmsr .main node nhmUncoreGlobalCtrl (enableMask garbage frz)

/-- `nhm_uncore_disable_counting` -/
def nhmUncoreDisableCounting : NhmProgram Unit :=
  uncoreWrmsr .main node nhmUncoreGlobalCtrl 0

end OnNode

/-- `nhm_uncore_clear_all` -/
def nhmUncoreClearAll : NhmProgram Unit := do
  nhmUncoreClearMsrs .zero
  nhmUncoreClearMsrs .one

/-- `nhm_uncore_show_all` -/
def nhmUncoreShowAll : NhmProgram Unit := do
  nhmUncoreShowMsrs .zero
  nhmUncoreShowMsrs .one

/-! ## The timer -/

/-- `enum hrtimer_restart` -/
inductive HrtimerRestart
  | norestart
  | restart
  deriving DecidableEq

/-- `writes_to_delay` -/
def writesToDelay (writeLatencyDelta nrWrites : BitVec 64) : BitVec 64 :=
  nrWrites * writeLatencyDelta

/-- `uncore_pmu_hrtimer_cb`, on a processor of the node. -/
def uncorePmuHrtimerCb (node : Node) : NhmProgram HrtimerRestart := do
  access (.assign fun state => { state with delayJiffies := state.delayJiffies + 1 })
  let remoteWrites ← uncoreRdmsr .timer node nhmUncorePmc0
  let state ← access .globals
  access (.delayCpu state.survivor (writesToDelay state.writeLatencyDelta remoteWrites))
  uncoreWrmsr .timer node nhmUncorePmc0 0
  let state ← access .globals
  access (.hrtimerForwardNow state.intervalNs)
  pure .restart

/-- `uncore_pmu_hrtimer_init` -/
def uncorePmuHrtimerInit : NhmProgram Unit := do
  access .hrtimerInit
  access (.assign fun state => { state with timerInited := true })

/-- `uncore_pmu_hrtimer_start` -/
def uncorePmuHrtimerStart (time : Nat) : NhmProgram Unit := do
  let state ← access .globals
  if state.timerInited then access (.hrtimerStart time) else pure ()

/-! ## Loading -/

/-- The assignments at the beginning of `uncore_pmu_main`. -/
def settings (state : NhmGlobals) : NhmGlobals where
  timerInited := false
  nmiRegisted := false
  survivor := 6
  xyz := 0
  initval := -100
  freeze := false
  pmc := 0
  intervalNs := 1000000
  writeLatencyDelta := 150
  delayJiffies := state.delayJiffies

/-- `uncore_pmu_main`, on a processor of the node. -/
def uncorePmuMain (node : Node) (garbage : BitVec 64) : NhmProgram Unit := do
  access (.assign settings)
  uncorePmuHrtimerInit
  nhmUncoreClearAll
  let state ← access .globals
  nhmUncoreSetEvent node state.pmc .qhlRequestRemoteWrites state.initval
  let state ← access .globals
  nhmUncoreEnableCounting node garbage state.freeze
  nhmUncoreShowAll
  uncorePmuHrtimerStart 1

end NvmEmulator.Nehalem
