/-
# The bandwidth ratio

`uncore_proc.c` keeps the bandwidth ratio in `bw_ratio`, shows it in
`/proc/uncore_pmu`, and sets it from there: a write programs the controllers of
nodes 0 and 1, under a mutex. `uncore_init` makes the file before it starts the
emulation, which programs the controllers of all nodes and takes no mutex.
-/

import NvmEmulator.Emulate.Accesses

namespace NvmEmulator.Emulate

open NvmEmulator.Kernel NvmEmulator.Semantics NvmEmulator.Uncore

/-- The cases of the `switch`: `'0'`, `'2'` and `'4'`. -/
def ratioOf (ctl : BitVec 8) : Option Nat :=
  if ctl = 0x30 then some 1
  else if ctl = 0x32 then some 2
  else if ctl = 0x34 then some 4
  else none

/-- The ratio an accepted write asks for. -/
def ratioAsked (request : ProcWrite) : Option Nat :=
  if request.count ≠ 2 ∨ request.offs ≠ 0 then none
  else request.buf.bind fun ctl => ratioOf ctl.1

section

variable (machine : Machine)

/-- A case of the `switch`: both error codes are dropped. -/
def setBandwidth (ratio : Nat) : UncoreProgram Unit := do
  assign fun state => { state with bwRatio := ratio }
  let _ ← uncoreImcSetThreshold uncoreImcOps machine.imcDevices.list 0 ratio
  let _ ← uncoreImcSetThreshold uncoreImcOps machine.imcDevices.list 1 ratio
  pure ()

/-- The `switch` of `uncore_proc_write`, with the `count` it leaves. -/
def switchBandwidth (ctl : BitVec 8) (count : Nat) : UncoreProgram Int :=
  match ratioOf ctl with
  | some ratio => do
      setBandwidth machine ratio
      pure count
  | none => pure (-einval)

/-- `uncore_proc_write`, called by a task. -/
def uncoreProcWrite (task : Nat) (request : ProcWrite) : UncoreProgram Int :=
  if request.count ≠ 2 ∨ request.offs ≠ 0 then pure (-einval)
  else
    match request.buf with
    | none => pure (-efault)
    | some ctl => do
        access (.mutexLock task)
        let count ← switchBandwidth machine ctl.1 request.count
        access .mutexUnlock
        pure count

/-- What `pmu_proc_show` prints. -/
def pmuProcShow : UncoreProgram String := do
  let state ← globals
  pure ("Bandwidth Throttling Ratio: 1/" ++ toString state.bwRatio)

/-- `uncore_init` from `uncore_proc_create` on. The listings it prints besides touch no
register. -/
def uncoreInitTail : UncoreProgram Unit := do
  uncoreClearGlobalPmu machine uncorePmu
  uncorePrintGlobalPmu machine uncorePmu
  startEmulateNvm machine

end

/-- A ratio is one of the three the hardware is programmed for. -/
theorem ratioOf_mem {ctl : BitVec 8} {ratio : Nat} (some : ratioOf ctl = some ratio) :
    ratio ∈ [1, 2, 4] := by
  rw [ratioOf] at some
  split at some
  · cases some
    decide
  · split at some
    · cases some
      decide
    · split at some
      · cases some
        decide
      · cases some

end NvmEmulator.Emulate
