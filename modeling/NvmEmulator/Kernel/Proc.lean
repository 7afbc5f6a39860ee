/-
# What the kernel hands a driver

The error codes the driver returns, and the arguments of a write to one of its `/proc`
files, which two of its modules read alike.
-/

import Mathlib.Data.BitVec

namespace NvmEmulator.Kernel

/-- `ENOENT` -/
def enoent : Int := 2

/-- `ENXIO` -/
def enxio : Int := 6

/-- `ENOMEM` -/
def enomem : Int := 12

/-- `EFAULT` -/
def efault : Int := 14

/-- `EINVAL` -/
def einval : Int := 22

/-- The arguments of a `write`: `buf` is what `copy_from_user` copies of the user's
buffer, nothing if it faults. -/
structure ProcWrite where
  count : Nat
  offs : Int
  buf : Option (BitVec 8 × BitVec 8)
  deriving DecidableEq

end NvmEmulator.Kernel
