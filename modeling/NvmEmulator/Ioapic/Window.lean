/-
# The window of the I/O APIC

Software reaches the registers of an I/O APIC through a window of two: the number of a register
goes to one, its value goes through the other. A routing entry takes two registers, so writing
it takes four accesses, and interrupts come in the middle. The high word is written first,
"because if the mask bit in the low word is clear, the interrupt is enabled, and we need to make
sure the entry is fully populated before that happens".

That helps when the entry was masked. When it was not, an interrupt between the two words goes
out as the old entry says, to the new destination.

The model has one user of the window; the module takes no lock for it.
-/

import NvmEmulator.Ioapic.Entry
import NvmEmulator.Semantics.Interference
import Mathlib.Data.List.Basic

namespace NvmEmulator.Ioapic

open Relation NvmEmulator.Semantics

/-! ## The hardware -/

/-- What does not change of an I/O APIC. Some have no register 2 or 3. The pins are numbered up
to the entries of register 1, and the index register counts to 255. -/
structure Chip where
  reg00 : BitVec 32
  reg01 : BitVec 32
  reg02 : Option (BitVec 32)
  reg03 : Option (BitVec 32)
  entries_le : (reg01.extractLsb' 16 8).toNat ≤ 119

/-- The number of the last pin: `reg_01.bits.entries` -/
def Chip.entries (chip : Chip) : Nat := (chip.reg01.extractLsb' 16 8).toNat

/-- What changes. -/
structure Apic where
  index : BitVec 32 := 0
  /-- The value that was read last. -/
  lastRead : BitVec 32 := 0
  table : Nat → RouteEntry := fun _ => {}

/-- The registers. -/
inductive Register
  | reg00
  | reg01
  | reg02
  | reg03
  | reserved
  | low (pin : Nat)
  | high (pin : Nat)
  deriving DecidableEq

/-- The register that the index selects, by its low 8 bits. -/
def selected (index : BitVec 32) : Register :=
  match index.toNat % 256 with
  | 0 => .reg00
  | 1 => .reg01
  | 2 => .reg02
  | 3 => .reg03
  | number =>
      if number < 0x10 then .reserved
      else if number % 2 = 0 then .low ((number - 0x10) / 2)
      else .high ((number - 0x10) / 2)

/-- What a register holds, if the I/O APIC has it. -/
def Chip.value (chip : Chip) (table : Nat → RouteEntry) : Register → Option (BitVec 32)
  | .reg00 => some chip.reg00
  | .reg01 => some chip.reg01
  | .reg02 => chip.reg02
  | .reg03 => chip.reg03
  | .reserved => none
  | .low pin => if pin ≤ chip.entries then some (table pin).w1 else none
  | .high pin => if pin ≤ chip.entries then some (table pin).w2 else none

/-- A register that is not there reads as the one read before. -/
def Chip.read (chip : Chip) (apic : Apic) : BitVec 32 :=
  (chip.value apic.table (selected apic.index)).getD apic.lastRead

/-- The I/O APIC with another entry. -/
def Apic.setEntry (apic : Apic) (pin : Nat) (entry : RouteEntry) : Apic :=
  { apic with table := Function.update apic.table pin entry }

/-- The effect of a write; the driver writes to the routing table only. -/
def Chip.write (chip : Chip) (value : BitVec 32) (apic : Apic) : Apic :=
  match selected apic.index with
  | .low pin =>
      if pin ≤ chip.entries then
        apic.setEntry pin
          { apic.table pin with w1 := rewrite lowConfig (apic.table pin).w1 value }
      else apic
  | .high pin =>
      if pin ≤ chip.entries then
        apic.setEntry pin
          { apic.table pin with w2 := rewrite highConfig (apic.table pin).w2 value }
      else apic
  | _ => apic

/-! ## Accesses -/

/-- The log levels in use. -/
inductive Level
  | /-- `KERN_INFO` -/
    info
  | /-- `KERN_DEBUG` -/
    debug
  deriving DecidableEq

/-- What `printk` prints: a format and its arguments. -/
structure Line where
  level : Level
  format : String
  arguments : List Nat
  deriving DecidableEq

/-- What the driver does to its surroundings. -/
inductive ApicOp
  | /-- `writel(reg, &ioapic->index)` -/
    writeIndex (apic : Nat) (reg : BitVec 32)
  | /-- `readl(&ioapic->data)` -/
    readData (apic : Nat)
  | /-- `writel(value, &ioapic->data)` -/
    writeData (apic : Nat) (value : BitVec 32)
  | printk (line : Line)

/-- What each access answers. -/
abbrev ApicOp.Res : ApicOp → Type
  | .readData _ => BitVec 32
  | _ => Unit

/-- A function of the driver. -/
abbrev ApicProgram := Program ApicOp ApicOp.Res

/-- Everything that changes. -/
structure ApicWorld where
  apics : Nat → Apic := fun _ => {}
  printed : List Line := []
  /-- The messages sent, by I/O APIC and pin. -/
  messages : List (Nat × Nat × Message) := []

/-- The world with another I/O APIC. -/
def ApicWorld.setApic (world : ApicWorld) (apic : Nat) (after : Apic) : ApicWorld :=
  { world with apics := Function.update world.apics apic after }

section

variable (chips : Nat → Chip)

/-- The effect and the answer of an access. -/
def exec : (op : ApicOp) → ApicWorld → op.Res × ApicWorld
  | .writeIndex apic reg, world =>
      ((), world.setApic apic { world.apics apic with index := reg })
  | .readData apic, world =>
      let value := (chips apic).read (world.apics apic)
      (value, world.setApic apic { world.apics apic with lastRead := value })
  | .writeData apic value, world =>
      ((), world.setApic apic ((chips apic).write value (world.apics apic)))
  | .printk line, world => ((), { world with printed := world.printed ++ [line] })

/-- The I/O APICs as a device. -/
def apicDevice : Device ApicOp ApicOp.Res ApicWorld where
  exec := exec chips

end

/-- The bits of the low word that tell the state of the pin. -/
def statusBits : BitVec 32 := 0x5000

/-- A pin sends the message of its entry, or its state changes. -/
inductive Interrupts : ApicWorld → ApicWorld → Prop
  | arrives (world : ApicWorld) (apic pin : Nat) {message : Message}
      (sends : ((world.apics apic).table pin).message = some message) :
      Interrupts world { world with messages := world.messages ++ [(apic, pin, message)] }
  | status (world : ApicWorld) (apic pin : Nat) (bits : BitVec 32) :
      Interrupts world (world.setApic apic ((world.apics apic).setEntry pin
        { (world.apics apic).table pin with
          w1 := rewrite statusBits ((world.apics apic).table pin).w1 bits }))

/-! ## The functions -/

/-- One access. -/
def access (op : ApicOp) : ApicProgram op.Res := Program.lift op

/-- `IO_APIC_READ` -/
def ioApicRead (apic : Nat) (reg : BitVec 32) : ApicProgram (BitVec 32) := do
  access (.writeIndex apic reg)
  access (.readData apic)

/-- `IO_APIC_WRITE` -/
def ioApicWrite (apic : Nat) (reg value : BitVec 32) : ApicProgram Unit := do
  access (.writeIndex apic reg)
  access (.writeData apic value)

/-- The registers of a pin: `0x10+2*pin` and `0x11+2*pin` -/
def lowRegister (pin : Nat) : BitVec 32 := BitVec.ofNat 32 (0x10 + 2 * pin)

def highRegister (pin : Nat) : BitVec 32 := BitVec.ofNat 32 (0x11 + 2 * pin)

/-- `IO_APIC_READ_ENTRY` -/
def ioApicReadEntry (apic pin : Nat) : ApicProgram RouteEntry := do
  let w1 ← ioApicRead apic (lowRegister pin)
  let w2 ← ioApicRead apic (highRegister pin)
  pure ⟨w1, w2⟩

/-- `IO_APIC_WRITE_ENTRY` -/
def ioApicWriteEntry (apic pin : Nat) (e : RouteEntry) : ApicProgram Unit := do
  ioApicWrite apic (highRegister pin) e.w2
  ioApicWrite apic (lowRegister pin) e.w1

/-- The index reaches the registers of every pin. -/
theorem selected_lowRegister {pin : Nat} (le : pin ≤ 119) :
    selected (lowRegister pin) = .low pin := by
  have number : (lowRegister pin).toNat % 256 = 0x10 + 2 * pin := by
    rw [lowRegister, BitVec.toNat_ofNat]
    omega
  rw [selected, number]
  split
  · omega
  · omega
  · omega
  · omega
  · rw [if_neg (by omega), if_pos (by omega)]
    congr 1
    omega

theorem selected_highRegister {pin : Nat} (le : pin ≤ 119) :
    selected (highRegister pin) = .high pin := by
  have number : (highRegister pin).toNat % 256 = 0x11 + 2 * pin := by
    rw [highRegister, BitVec.toNat_ofNat]
    omega
  rw [selected, number]
  split
  · omega
  · omega
  · omega
  · omega
  · rw [if_neg (by omega), if_neg (by omega)]
    congr 1
    omega

/-! ## What is configured -/

/-- The entries of all pins, as they are configured. -/
abbrev Routing := Nat → Nat → RouteEntry

/-- The I/O APICs are configured like this. -/
def Routes (routing : Routing) (world : ApicWorld) : Prop :=
  ∀ apic pin, ((world.apics apic).table pin).configured = routing apic pin

/-- The routing with another entry. -/
def Routing.set (routing : Routing) (apic pin : Nat) (entry : RouteEntry) : Routing :=
  Function.update routing apic (Function.update (routing apic) pin entry)

/-- What is configured, what was printed, and what each I/O APIC read as last. -/
structure Known (routing : Routing) (printed : List Line) (last : Nat → BitVec 32)
    (world : ApicWorld) : Prop where
  routes : Routes routing world
  printed : world.printed = printed
  last : ∀ apic, (world.apics apic).lastRead = last apic

/-- Nobody else uses the window or prints, and what is configured stays. -/
structure WindowRely (before after : ApicWorld) : Prop where
  index : ∀ apic, (after.apics apic).index = (before.apics apic).index
  lastRead : ∀ apic, (after.apics apic).lastRead = (before.apics apic).lastRead
  printed : after.printed = before.printed
  table : ∀ apic pin,
    ((after.apics apic).table pin).configured = ((before.apics apic).table pin).configured

/-- What a step does: it sends nothing, and an entry stays or becomes another. -/
structure TableStep (becomes : Nat → Nat → RouteEntry → Prop) (before after : ApicWorld) :
    Prop where
  messages : after.messages = before.messages
  entry : ∀ apic pin, ((after.apics apic).table pin).configured =
      ((before.apics apic).table pin).configured ∨
    becomes apic pin ((after.apics apic).table pin).configured

/-- A register is selected. -/
structure Selecting (routing : Routing) (apic : Nat) (reg : BitVec 32) (world : ApicWorld) :
    Prop where
  routes : Routes routing world
  index : (world.apics apic).index = reg

section Rules

variable {chips : Nat → Chip} {routing : Routing} {apic pin : Nat}
  {becomes : Nat → Nat → RouteEntry → Prop} {world : ApicWorld}

theorem setApic_self (world : ApicWorld) (apic : Nat) (after : Apic) :
    (world.setApic apic after).apics apic = after := Function.update_self _ _ _

theorem setApic_of_ne {other : Nat} (apart : other ≠ apic) (after : Apic) :
    (world.setApic apic after).apics other = world.apics other := Function.update_of_ne apart _ _

/-- A change of an I/O APIC that keeps what is configured. -/
theorem configured_setApic {after : Apic}
    (same : ∀ pin, (after.table pin).configured = ((world.apics apic).table pin).configured)
    (other pin : Nat) : (((world.setApic apic after).apics other).table pin).configured =
      ((world.apics other).table pin).configured := by
  by_cases here : other = apic
  · rw [here, setApic_self]
    exact same pin
  · rw [setApic_of_ne here]

/-- An entry is neither the index nor what was read. -/
theorem setApic_setEntry (pin : Nat) (entry : RouteEntry) (other : Nat) :
    ((world.setApic apic ((world.apics apic).setEntry pin entry)).apics other).index =
        (world.apics other).index ∧
      ((world.setApic apic ((world.apics apic).setEntry pin entry)).apics other).lastRead =
        (world.apics other).lastRead := by
  by_cases here : other = apic
  · rw [here, setApic_self]
    exact ⟨rfl, rfl⟩
  · rw [setApic_of_ne here]
    exact ⟨rfl, rfl⟩

/-- Interrupts leave alone what is configured. -/
theorem Interrupts.rely {before after : ApicWorld} (moves : Interrupts before after) :
    WindowRely before after := by
  cases moves with
  | arrives apic pin sends => exact ⟨fun _ => rfl, fun _ => rfl, rfl, fun _ _ => rfl⟩
  | status apic pin bits =>
      refine ⟨fun other => (setApic_setEntry pin _ other).1,
        fun other => (setApic_setEntry pin _ other).2, rfl, configured_setApic fun place => ?_⟩
      · show (Function.update (before.apics apic).table pin _ place).configured = _
        by_cases same : place = pin
        · rw [same, Function.update_self, RouteEntry.configured, RouteEntry.configured,
            rewrite_and_apart (by decide)]
        · rw [Function.update_of_ne same]

theorem routes_stable (routing : Routing) : Stable WindowRely (Routes routing) :=
  fun _ _ moves routes apic pin => (moves.table apic pin).trans (routes apic pin)

theorem selecting_stable (routing : Routing) (apic : Nat) (reg : BitVec 32) :
    Stable WindowRely (Selecting routing apic reg) :=
  fun _ _ moves held =>
    ⟨routes_stable routing moves held.routes, (moves.index apic).trans held.index⟩

/-- Selecting a register configures nothing. -/
theorem writeIndex_step (routes : Routes routing world) (apic : Nat) (reg : BitVec 32) :
    TableStep becomes world ((apicDevice chips).exec (.writeIndex apic reg) world).2 ∧
      Selecting routing apic reg ((apicDevice chips).exec (.writeIndex apic reg) world).2 := by
  let after : ApicWorld := world.setApic apic { world.apics apic with index := reg }
  have same : ∀ other place, ((after.apics other).table place).configured =
      ((world.apics other).table place).configured := configured_setApic fun _ => rfl
  refine ⟨⟨rfl, fun other place => Or.inl (same other place)⟩, fun other place => ?_, ?_⟩
  · exact (same other place).trans (routes other place)
  · exact congrArg Apic.index (setApic_self world apic _)

/-- What an access through the window leaves in an entry. -/
theorem routes_setEntry (routes : Routes routing world) (apic pin : Nat) (entry : RouteEntry) :
    Routes (routing.set apic pin entry.configured)
      (world.setApic apic ((world.apics apic).setEntry pin entry)) := by
  intro other place
  rw [Routing.set]
  by_cases here : other = apic
  · rw [here, setApic_self, Function.update_self]
    show (Function.update (world.apics apic).table pin entry place).configured = _
    by_cases same : place = pin
    · rw [same, Function.update_self, Function.update_self]
    · rw [Function.update_of_ne same, Function.update_of_ne same]
      exact routes apic place
  · rw [setApic_of_ne here, Function.update_of_ne here]
    exact routes other place

/-- Another entry leaves the others as they were. -/
theorem set_of_ne {other place : Nat} (entry : RouteEntry)
    (apart : ¬ (other = apic ∧ place = pin)) :
    routing.set apic pin entry other place = routing other place := by
  rw [Routing.set]
  by_cases here : other = apic
  · subst here
    rw [Function.update_self, Function.update_of_ne fun same => apart ⟨rfl, same⟩]
  · rw [Function.update_of_ne here]

theorem set_self (entry : RouteEntry) : routing.set apic pin entry apic pin = entry := by
  rw [Routing.set, Function.update_self, Function.update_self]

theorem set_set (first second : RouteEntry) :
    (routing.set apic pin first).set apic pin second = routing.set apic pin second := by
  rw [Routing.set, Routing.set, Routing.set, Function.update_self, Function.update_idem,
    Function.update_idem]

/-! ## Writing an entry -/

/-- The obligation of a part of the driver. -/
abbrev TableMeets (chips : Nat → Chip) (becomes : Nat → Nat → RouteEntry → Prop) {α : Type}
    (post : α → ApicWorld → Prop) (program : ApicProgram α) (world : ApicWorld) : Prop :=
  Guarded (apicDevice chips) WindowRely (TableStep becomes) post program world

/-- A word is written: `entry` is what the window makes of the one that is there. -/
theorem ioApicWrite_meets {reg value : BitVec 32} {entry : RouteEntry}
    (routes : Routes routing world) (possible : becomes apic pin entry)
    (writes : ∀ before : Apic, before.index = reg →
      (before.table pin).configured = routing apic pin →
        ∃ after : RouteEntry, (chips apic).write value before = before.setEntry pin after ∧
          after.configured = entry) :
    TableMeets chips becomes (fun _ => Routes (routing.set apic pin entry))
      (ioApicWrite apic reg value) world := by
  refine .access _ (routes_stable routing) routes fun start routes _ => ?_
  refine And.imp_right (fun selects => ?_) (writeIndex_step routes apic reg)
  refine .access _ (selecting_stable routing apic reg) selects fun later held _ => ?_
  obtain ⟨after, effect, config⟩ := writes (later.apics apic) held.index (held.routes apic pin)
  have written : ((apicDevice chips).exec (.writeData apic value) later).2 =
      later.setApic apic ((later.apics apic).setEntry pin after) :=
    congrArg (later.setApic apic) effect
  rw [written, ← config]
  have configured := routes_setEntry held.routes apic pin after
  refine ⟨⟨rfl, fun other place => ?_⟩, .ret (routes_stable _) configured⟩
  rw [configured other place, held.routes other place]
  by_cases here : other = apic ∧ place = pin
  · obtain ⟨rfl, rfl⟩ := here
    rw [set_self, config]
    exact Or.inr possible
  · exact Or.inl (set_of_ne _ here)

/-- The entry with the high word of another. -/
def RouteEntry.withDest (old new : RouteEntry) : RouteEntry := ⟨old.w1, new.w2⟩

theorem writeHigh_meets (exist : pin ≤ (chips apic).entries) (entry : RouteEntry)
    (routes : Routes routing world)
    (half : becomes apic pin ((routing apic pin).withDest entry.configured)) :
    TableMeets chips becomes
      (fun _ => Routes (routing.set apic pin ((routing apic pin).withDest entry.configured)))
      (ioApicWrite apic (highRegister pin) entry.w2) world := by
  refine ioApicWrite_meets routes half fun before index config => ?_
  refine ⟨{ before.table pin with w2 := rewrite highConfig (before.table pin).w2 entry.w2 },
    ?_, ?_⟩
  · rw [Chip.write, index, selected_highRegister (exist.trans (chips apic).entries_le)]
    exact if_pos exist
  · rw [← config]
    exact congrArg (RouteEntry.mk _) (rewrite_and highConfig _ entry.w2)

/-- `IO_APIC_WRITE_ENTRY` replaces the high word, then the low word. -/
theorem ioApicWriteEntry_meets (exist : pin ≤ (chips apic).entries) (entry : RouteEntry)
    (routes : Routes routing world)
    (half : becomes apic pin ((routing apic pin).withDest entry.configured))
    (whole : becomes apic pin entry.configured) :
    TableMeets chips becomes (fun _ => Routes (routing.set apic pin entry.configured))
      (ioApicWriteEntry apic pin entry) world := by
  refine (writeHigh_meets exist entry routes half).bind fun _ later routes => ?_
  rw [← set_set ((routing apic pin).withDest entry.configured) entry.configured]
  refine ioApicWrite_meets routes whole fun before index config => ?_
  refine ⟨{ before.table pin with w1 := rewrite lowConfig (before.table pin).w1 entry.w1 },
    ?_, ?_⟩
  · rw [Chip.write, index, selected_lowRegister (exist.trans (chips apic).entries_le)]
    exact if_pos exist
  · rw [set_self] at config
    have high : (before.table pin).w2 &&& highConfig = entry.w2 &&& highConfig :=
      congrArg RouteEntry.w2 config
    rw [RouteEntry.configured, RouteEntry.configured, rewrite_and, high]

/-! ## Reading -/

variable {printed : List Line} {last : Nat → BitVec 32}

theorem Routes.known (routes : Routes routing world) :
    Known routing world.printed (fun apic => (world.apics apic).lastRead) world :=
  ⟨routes, rfl, fun _ => rfl⟩

theorem known_stable (routing : Routing) (printed : List Line) (last : Nat → BitVec 32) :
    Stable WindowRely (Known routing printed last) :=
  fun _ _ moves held => ⟨routes_stable routing moves held.routes,
    moves.printed.trans held.printed, fun apic => (moves.lastRead apic).trans (held.last apic)⟩

/-- A change of the index, or of what was read last. -/
theorem known_setApic (known : Known routing printed last world) {after : Apic}
    (table : after.table = (world.apics apic).table) :
    Known routing printed (Function.update last apic after.lastRead)
      (world.setApic apic after) := by
  refine ⟨fun other place => ?_, known.printed, fun other => ?_⟩
  · rw [configured_setApic fun _ => by rw [table]]
    exact known.routes other place
  · by_cases here : other = apic
    · rw [here, setApic_self, Function.update_self]
    · rw [setApic_of_ne here, Function.update_of_ne here]
      exact known.last other

/-- A step that keeps what is configured. -/
theorem tableStep_of_known {after : ApicWorld} (messages : after.messages = world.messages)
    (before : Routes routing world) (routes : Routes routing after) :
    TableStep becomes world after :=
  ⟨messages, fun apic pin => Or.inl ((routes apic pin).trans (before apic pin).symm)⟩

/-- A register is read: the answer is what the I/O APIC holds that has been selected. -/
theorem ioApicRead_meets (apic : Nat) (reg : BitVec 32)
    (known : Known routing printed last world) :
    TableMeets chips becomes
      (fun value later =>
        (∃ before : Apic, before.index = reg ∧ before.lastRead = last apic ∧
          (∀ pin, (before.table pin).configured = routing apic pin) ∧
            (chips apic).read before = value) ∧
          Known routing printed (Function.update last apic value) later)
      (ioApicRead apic reg) world := by
  refine .access _ (known_stable routing printed last) known fun start known _ => ?_
  have picked := known_setApic known (rfl : { start.apics apic with index := reg }.table = _)
  have unread : Function.update last apic (start.apics apic).lastRead = last := by
    rw [known.last, Function.update_eq_self]
  rw [unread] at picked
  refine ⟨tableStep_of_known rfl known.routes picked.routes, ?_⟩
  have stable : Stable WindowRely fun world =>
      Known routing printed last world ∧ (world.apics apic).index = reg := fun _ _ moves held =>
    ⟨known_stable routing printed last moves held.1, (moves.index apic).trans held.2⟩
  refine .access _ stable ⟨picked, congrArg Apic.index (setApic_self start apic _)⟩
    fun later held _ => ?_
  obtain ⟨known, index⟩ := held
  let value := (chips apic).read (later.apics apic)
  have reads := known_setApic known (rfl : { later.apics apic with lastRead := value }.table = _)
  refine ⟨tableStep_of_known rfl known.routes reads.routes, .ret ?_ ⟨?_, reads⟩⟩
  · exact fun _ _ moves held => ⟨held.1, known_stable routing printed _ moves held.2⟩
  · exact ⟨later.apics apic, index, known.last apic, fun pin => known.routes apic pin, rfl⟩

/-- `IO_APIC_READ_ENTRY` finds what is configured. -/
theorem ioApicReadEntry_meets (exist : pin ≤ (chips apic).entries)
    (known : Known routing printed last world) :
    TableMeets chips becomes
      (fun entry later => entry.configured = routing apic pin ∧
        ∃ last, Known routing printed last later)
      (ioApicReadEntry apic pin) world := by
  have le : pin ≤ 119 := exist.trans (chips apic).entries_le
  apply (ioApicRead_meets apic (lowRegister pin) known).bind
  rintro w1 middle ⟨⟨first, lowIndex, -, lowConfigured, lowRead⟩, known⟩
  apply (ioApicRead_meets apic (highRegister pin) known).bind
  rintro w2 later ⟨⟨second, highIndex, -, highConfigured, highRead⟩, known⟩
  have low : w1 = (first.table pin).w1 := by
    rw [← lowRead, Chip.read, lowIndex, selected_lowRegister le, Chip.value, if_pos exist]
    rfl
  have high : w2 = (second.table pin).w2 := by
    rw [← highRead, Chip.read, highIndex, selected_highRegister le, Chip.value, if_pos exist]
    rfl
  refine .ret (fun _ _ moves held => ⟨held.1, ?_⟩) ⟨?_, _, known⟩
  · obtain ⟨last, known⟩ := held.2
    exact ⟨last, known_stable routing printed last moves known⟩
  · have lowHalf := congrArg RouteEntry.w1 (lowConfigured pin)
    have highHalf := congrArg RouteEntry.w2 (highConfigured pin)
    rw [low, high]
    exact RouteEntry.ext lowHalf highHalf

end Rules

end NvmEmulator.Ioapic
