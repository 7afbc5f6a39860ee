/-
# Writing the routing table

After any writes to the routing table an entry reads back as the last one written there, and
the entries of other pins as they were. While an entry is being written its pin may send. What
it sends is always the old message or the new one, unless the entry was not masked and the
write changes its destination and something else.
-/

import NvmEmulator.Ioapic.Window

namespace NvmEmulator.Ioapic

open Relation NvmEmulator.Semantics

variable {chips : Nat → Chip}

/-! ## Reading back -/

/-- A call of `IO_APIC_WRITE_ENTRY`. -/
structure EntryWrite where
  apic : Nat
  pin : Nat
  entry : RouteEntry

/-- One call after the other. -/
def writeEntries (writes : List EntryWrite) : ApicProgram Unit :=
  Program.forEach (fun write => ioApicWriteEntry write.apic write.pin write.entry) writes

/-- What was written to a pin last. -/
def lastEntry (apic pin : Nat) : List EntryWrite → Option RouteEntry
  | [] => none
  | write :: later =>
      (lastEntry apic pin later).orElse fun _ =>
        if write.apic = apic ∧ write.pin = pin then some write.entry else none

/-- The routing after the writes. -/
def Routing.after (routing : Routing) (writes : List EntryWrite) : Routing :=
  writes.foldl (fun routing write => routing.set write.apic write.pin write.entry.configured)
    routing

theorem after_eq (routing : Routing) (writes : List EntryWrite) (apic pin : Nat) :
    routing.after writes apic pin =
      ((lastEntry apic pin writes).map RouteEntry.configured).getD (routing apic pin) := by
  induction writes generalizing routing with
  | nil => rfl
  | cons write later ih =>
      have step : routing.after (write :: later) =
          (routing.set write.apic write.pin write.entry.configured).after later := rfl
      rw [step, ih, lastEntry]
      cases lastEntry apic pin later with
      | some entry => rfl
      | none =>
          by_cases here : write.apic = apic ∧ write.pin = pin
          · obtain ⟨rfl, rfl⟩ := here
            simp [set_self]
          · rw [set_of_ne _ fun same => here ⟨same.1.symm, same.2.symm⟩]
            simp [here]

/-- The writes leave the routing they ask for. -/
theorem writeEntries_meets {routing : Routing} {world : ApicWorld} {writes : List EntryWrite}
    (exist : ∀ write ∈ writes, write.pin ≤ (chips write.apic).entries)
    (routes : Routes routing world) :
    TableMeets chips (fun _ _ _ => True) (fun _ => Routes (routing.after writes))
      (writeEntries writes) world := by
  induction writes generalizing routing world with
  | nil => exact .ret (routes_stable _) routes
  | cons write later ih =>
      have first : TableMeets chips (fun _ _ _ => True) _
          (ioApicWriteEntry write.apic write.pin write.entry) world :=
        ioApicWriteEntry_meets (exist write List.mem_cons_self) write.entry routes trivial trivial
      refine first.bind fun _ middle routes => ?_
      exact ih (fun other mem => exist other (List.mem_cons_of_mem _ mem)) routes

/-- Whatever interrupts come in between, an entry reads back as it was written last, or as it
was if it was not written, but for the bits that tell the state of the pin. -/
theorem readEntry_of_writes {writes : List EntryWrite}
    (exist : ∀ write ∈ writes, write.pin ≤ (chips write.apic).entries) {apic pin : Nat}
    (here : pin ≤ (chips apic).entries) {before after : ApicWorld} {entry : RouteEntry}
    (completes : Completes (apicDevice chips) Interrupts
      ((writeEntries writes).bind fun _ => ioApicReadEntry apic pin) before entry after) :
    entry.configured =
      ((lastEntry apic pin writes).getD ((before.apics apic).table pin)).configured := by
  let routing : Routing := fun apic pin => ((before.apics apic).table pin).configured
  have routes : Routes routing before := fun _ _ => rfl
  have meets := (writeEntries_meets exist routes).bind fun _ later routes =>
    (ioApicReadEntry_meets here routes.known).mono fun _ _ read => read.1
  rw [meets.completes (fun _ _ moves => moves.rely) completes, after_eq]
  cases lastEntry apic pin writes with
  | none => rfl
  | some entry => rfl

/-! ### One chip -/

/-- The usual I/O APIC of 24 pins: version 0x20, without register 3. -/
def usualChip : Chip where
  reg00 := 0x08000000
  reg01 := 0x00170020
  reg02 := some 0
  reg03 := none
  entries_le := by decide

/-- Every I/O APIC is of that kind. -/
def usualChips (_ : Nat) : Chip := usualChip

/-- An edge-triggered interrupt with a vector, for a processor. -/
def routeTo (vector dest : BitVec 8) : RouteEntry :=
  ⟨vector.setWidth 32, dest.setWidth 32 <<< 24⟩

/-- The interrupts of two pins are routed, then one of them again. -/
def usualWrites : List EntryWrite :=
  [⟨0, 2, routeTo 0x30 1⟩, ⟨0, 4, routeTo 0x34 1⟩, ⟨0, 2, routeTo 0x30 2⟩]

/-- A program that runs alone. -/
theorem apic_alone {α : Type} (program : ApicProgram α) (world : ApicWorld) :
    Completes (apicDevice chips) Interrupts program world (program.run (exec chips) world).1
      (program.run (exec chips) world).2 := by
  have ready : program.Makes fun op => ∀ state, (apicDevice chips).ready op state :=
    .of_forall (fun _ _ => trivial) program
  exact reaches_run ready world

/-- The pin has its last entry. -/
theorem readEntry_usualWrites :
    (((writeEntries usualWrites).bind fun _ => ioApicReadEntry 0 2).run
      (exec usualChips) {}).1.configured = (routeTo 0x30 2).configured := by
  have exist : ∀ write ∈ usualWrites, write.pin ≤ (usualChips write.apic).entries := by decide
  have here : 2 ≤ (usualChips 0).entries := by decide
  exact readEntry_of_writes exist here (apic_alone _ {})

/-! ## What is sent meanwhile -/

/-- The message belongs to one of two entries. -/
def OfEither (old new : RouteEntry) (message : Message) : Prop :=
  some message = old.message ∨ some message = new.message

/-- Wherever the write of an entry has got to, its pin has sent nothing but messages of the
entry that was there and of the one that is written. -/
def SendsWhole (chips : Nat → Chip) (apic pin : Nat) (entry : RouteEntry) (world : ApicWorld) :
    Prop :=
  ∀ target, Reaches (apicDevice chips) Interrupts (ioApicWriteEntry apic pin entry, world) target →
    ∃ later, target.2.messages = world.messages ++ later ∧
      ∀ message, (apic, pin, message) ∈ later →
        OfEither ((world.apics apic).table pin) entry message

/-- Between the two words, the old entry sends to the new destination. It may send nothing, or
one of the two messages. -/
def Untorn (old new : RouteEntry) : Prop :=
  old.mask = 1 ∨ new.dest = old.dest ∨ (old.withDest new).message = new.message

instance (old new : RouteEntry) : Decidable (Untorn old new) :=
  inferInstanceAs (Decidable (_ ∨ _ ∨ _))

section Sending

variable {apic pin : Nat} {old new : RouteEntry} {start : List (Nat × Nat × Message)}
  {world : ApicWorld}

/-- What the pin has sent, and would send now, is whole. -/
structure Whole (apic pin : Nat) (old new : RouteEntry) (start : List (Nat × Nat × Message))
    (world : ApicWorld) : Prop where
  sent : ∃ later, world.messages = start ++ later ∧
    ∀ message, (apic, pin, message) ∈ later → OfEither old new message
  sends : ∀ message, ((world.apics apic).table pin).message = some message →
    OfEither old new message

/-- What half an entry sends. -/
theorem message_withDest (old new : RouteEntry) :
    (old.withDest new).message = if old.mask = 1 then none else
      some ⟨old.vector, old.deliveryMode, old.destMode, old.trigger, new.dest⟩ := rfl

/-- Where an entry cannot be torn, half an entry sends a whole message. -/
theorem ofEither_of_untorn (untorn : Untorn old new) {message : Message}
    (half : (old.withDest new).message = some message) : OfEither old new message := by
  rcases untorn with masked | same | whole
  · rw [message_withDest, if_pos masked] at half
    cases half
  · left
    rw [← half, message_withDest, same]
    rfl
  · right
    rw [← half, whole]

/-- Where an entry can be torn, half an entry sends a message of neither. -/
theorem exists_torn (torn : ¬ Untorn old new) :
    ∃ message, (old.withDest new).message = some message ∧ ¬ OfEither old new message := by
  have unmasked : old.mask ≠ 1 := fun masked => torn (Or.inl masked)
  have half := message_withDest old new
  rw [if_neg unmasked] at half
  refine ⟨_, half, ?_⟩
  rintro (ofOld | ofNew)
  · rw [RouteEntry.message, if_neg unmasked] at ofOld
    have same : new.dest = old.dest := congrArg Message.dest (Option.some.inj ofOld)
    exact torn (Or.inr (Or.inl same))
  · exact torn (Or.inr (Or.inr (half.trans ofNew)))

theorem whole_of_interrupts : Stable Interrupts (Whole apic pin old new start) := by
  intro before after moves whole
  have same := message_congr (moves.rely.table apic pin)
  refine ⟨?_, fun message sends => whole.sends message (same.symm.trans sends)⟩
  obtain ⟨later, messages, fits⟩ := whole.sent
  cases moves with
  | status other place bits => exact ⟨later, messages, fits⟩
  | @arrives other place message sends =>
      refine ⟨later ++ [(other, place, message)], ?_, fun sent mem => ?_⟩
      · show before.messages ++ _ = _
        rw [messages, List.append_assoc]
      · rcases List.mem_append.mp mem with earlier | last
        · exact fits sent earlier
        · cases List.mem_singleton.mp last
          exact whole.sends _ sends

/-- What an entry may become while it is written. -/
def Becomes (apic pin : Nat) (old new : RouteEntry) (other place : Nat) (entry : RouteEntry) :
    Prop :=
  other = apic → place = pin → ∀ message, entry.message = some message → OfEither old new message

theorem whole_of_step :
    Stable (TableStep (Becomes apic pin old new)) (Whole apic pin old new start) := by
  intro before after step whole
  refine ⟨?_, fun message sends => ?_⟩
  · rw [step.messages]
    exact whole.sent
  · rcases step.entry apic pin with same | becomes
    · exact whole.sends message ((message_congr same).symm.trans sends)
    · exact becomes rfl rfl message ((message_configured _).trans sends)

/-- What is sent during a write is whole exactly when the entry cannot be torn. -/
theorem sendsWhole_iff (exist : pin ≤ (chips apic).entries) (entry : RouteEntry)
    (world : ApicWorld) :
    SendsWhole chips apic pin entry world ↔ Untorn ((world.apics apic).table pin) entry := by
  let old : RouteEntry := (world.apics apic).table pin
  let routing : Routing := fun apic pin => ((world.apics apic).table pin).configured
  have routes : Routes routing world := fun _ _ => rfl
  -- The fields of an entry and its configured part agree, so half of one is half of the other.
  have half : ((routing apic pin).withDest entry.configured).message =
      (old.withDest entry).message := message_configured (old.withDest entry)
  constructor
  · intro sends
    by_contra torn
    obtain ⟨message, sent, neither⟩ := exists_torn torn
    let after : ApicWorld := ((ioApicWrite apic (highRegister pin) entry.w2).run (exec chips)
      world).2
    have written : Completes (apicDevice chips) Interrupts
        (ioApicWrite apic (highRegister pin) entry.w2) world () after := apic_alone _ world
    have meets : TableMeets chips (fun _ _ _ => True) _
        (ioApicWrite apic (highRegister pin) entry.w2) world :=
      writeHigh_meets exist entry routes trivial
    have halved := meets.completes (fun _ _ moves => moves.rely) written apic pin
    rw [set_self] at halved
    have arrives : ((after.apics apic).table pin).message = some message := by
      rw [← message_configured, halved, half, sent]
    have reaches := (written.bind fun _ => ioApicWrite apic (lowRegister pin) entry.w1).tail
      (.environment (Interrupts.arrives after apic pin arrives))
    obtain ⟨later, messages, fits⟩ := sends _ reaches
    -- Nothing was sent before: the two accesses leave the messages alone.
    have first : later = [(apic, pin, message)] :=
      (List.append_cancel_left (messages : world.messages ++ _ = world.messages ++ later)).symm
    exact neither (fits message (by rw [first]; exact List.mem_singleton_self _))
  · intro untorn
    have starts : Whole apic pin old entry world.messages world :=
      ⟨⟨[], (List.append_nil _).symm, fun _ none => absurd none List.not_mem_nil⟩,
        fun _ sends => Or.inl sends.symm⟩
    have becomes : Becomes apic pin old entry apic pin
        ((routing apic pin).withDest entry.configured) := by
      intro _ _ message sends
      exact ofEither_of_untorn untorn (half.symm.trans sends)
    have final : Becomes apic pin old entry apic pin entry.configured :=
      fun _ _ message sends => Or.inr (sends.symm.trans (message_configured entry))
    have meets := ioApicWriteEntry_meets exist entry routes becomes final
    intro target reaches
    exact (Guarded.holds_of_reaches (fun _ _ moves => moves.rely) whole_of_interrupts
      whole_of_step meets starts reaches).sent

/-- A pin that is not masked, of which the vector and the destination both change. -/
def routed : ApicWorld := { apics := fun _ => { table := fun _ => routeTo 0x30 1 } }

/-- Its interrupt can go out with the old vector to the new destination. -/
theorem not_sendsWhole_routed : ¬ SendsWhole usualChips 0 2 (routeTo 0x34 2) routed := by
  have exist : 2 ≤ (usualChips 0).entries := by decide
  have torn : ¬ Untorn (routeTo 0x30 1) (routeTo 0x34 2) := by decide
  exact fun whole => torn ((sendsWhole_iff exist (routeTo 0x34 2) routed).mp whole)

end Sending

end NvmEmulator.Ioapic
