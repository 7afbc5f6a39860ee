/-
# Routing entries

The I/O APIC has two words for each of its pins, `union route_entry_union`, which say where
an interrupt of the pin goes. Two bits of the low word tell the state of the pin and are not
software's to write. What software configures decides which message the pin sends.
-/

import Mathlib.Data.BitVec

namespace NvmEmulator.Ioapic

/-! ## The entry -/

/-- `union route_entry_union` -/
@[ext]
structure RouteEntry where
  w1 : BitVec 32 := 0
  w2 : BitVec 32 := 0
  deriving DecidableEq

namespace RouteEntry

variable (entry : RouteEntry)

def vector : BitVec 8 := entry.w1.extractLsb' 0 8

def deliveryMode : BitVec 3 := entry.w1.extractLsb' 8 3

/-- 0: physical, 1: logical -/
def destMode : BitVec 1 := entry.w1.extractLsb' 11 1

def deliveryStatus : BitVec 1 := entry.w1.extractLsb' 12 1

def polarity : BitVec 1 := entry.w1.extractLsb' 13 1

def irr : BitVec 1 := entry.w1.extractLsb' 14 1

/-- 0: edge, 1: level -/
def trigger : BitVec 1 := entry.w1.extractLsb' 15 1

/-- 0: enabled, 1: disabled -/
def mask : BitVec 1 := entry.w1.extractLsb' 16 1

def dest : BitVec 8 := entry.w2.extractLsb' 24 8

end RouteEntry

/-! ## What software configures -/

/-- The bits of the low word that a write changes: all fields but the delivery status and the
remote IRR. -/
def lowConfig : BitVec 32 := 0x1AFFF

/-- The bits of the high word that a write changes: the destination. -/
def highConfig : BitVec 32 := 0xFF000000

/-- A word after a write, of which some bits count. -/
def rewrite (config old value : BitVec 32) : BitVec 32 := old &&& ~~~config ||| value &&& config

/-- What software has configured. -/
def RouteEntry.configured (entry : RouteEntry) : RouteEntry :=
  ⟨entry.w1 &&& lowConfig, entry.w2 &&& highConfig⟩

section Rewrite

variable {config other old value : BitVec 32}

/-- The bits that count are as written. -/
theorem rewrite_and (config old value : BitVec 32) :
    rewrite config old value &&& config = value &&& config := by
  ext bit inside
  simp only [rewrite, BitVec.getElem_and, BitVec.getElem_or, BitVec.getElem_not]
  cases old[bit] <;> cases value[bit] <;> cases config[bit] <;> rfl

/-- The others are as they were. -/
theorem rewrite_and_apart (apart : config &&& other = 0#32) :
    rewrite config old value &&& other = old &&& other := by
  ext bit inside
  have clear : (config &&& other)[bit] = (0#32)[bit] := by rw [apart]
  simp only [BitVec.getElem_and, BitVec.getElem_zero] at clear
  simp only [rewrite, BitVec.getElem_and, BitVec.getElem_or, BitVec.getElem_not]
  revert clear
  cases old[bit] <;> cases value[bit] <;> cases config[bit] <;> cases other[bit] <;> decide

/-- A field within the bits of a mask is read off them. -/
theorem extractLsb'_and {start length : Nat} (word : BitVec 32)
    (within : config.extractLsb' start length = BitVec.allOnes length) :
    (word &&& config).extractLsb' start length = word.extractLsb' start length := by
  rw [BitVec.extractLsb'_and, within, BitVec.and_allOnes]

end Rewrite

/-! ## Messages -/

/-- The interrupt message that a pin sends. -/
structure Message where
  vector : BitVec 8
  deliveryMode : BitVec 3
  destMode : BitVec 1
  trigger : BitVec 1
  dest : BitVec 8
  deriving DecidableEq

/-- The message an entry sends, unless it is masked. -/
def RouteEntry.message (entry : RouteEntry) : Option Message :=
  if entry.mask = 1 then none
  else some ⟨entry.vector, entry.deliveryMode, entry.destMode, entry.trigger, entry.dest⟩

/-- The message is a matter of what is configured. -/
theorem message_configured (entry : RouteEntry) : entry.configured.message = entry.message := by
  have low : ∀ {start length : Nat}, lowConfig.extractLsb' start length = BitVec.allOnes length →
      entry.configured.w1.extractLsb' start length = entry.w1.extractLsb' start length :=
    extractLsb'_and entry.w1
  have vector : entry.configured.vector = entry.vector := low (by decide)
  have deliveryMode : entry.configured.deliveryMode = entry.deliveryMode := low (by decide)
  have destMode : entry.configured.destMode = entry.destMode := low (by decide)
  have trigger : entry.configured.trigger = entry.trigger := low (by decide)
  have mask : entry.configured.mask = entry.mask := low (by decide)
  have dest : entry.configured.dest = entry.dest := extractLsb'_and entry.w2 (by decide)
  rw [RouteEntry.message, RouteEntry.message, vector, deliveryMode, destMode, trigger, mask, dest]

theorem message_congr {first second : RouteEntry} (same : first.configured = second.configured) :
    first.message = second.message := by
  rw [← message_configured first, ← message_configured second, same]

end NvmEmulator.Ioapic
