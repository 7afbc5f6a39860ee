/-
# The report

The module prints the registers of two I/O APICs and their routing tables, and stays loaded. An
I/O APIC may have no register 2 or 3, and then reads as whatever was read before; "ignore it"
is what the driver does with a register that reads like an earlier one. Interrupts arrive while
it reads. The report is right all the same: each register is shown exactly when it is there and
reads unlike the earlier ones, and the table shows what is configured.
-/

import NvmEmulator.Ioapic.Delivery

namespace NvmEmulator.Ioapic

open Relation NvmEmulator.Semantics

/-! ## The registers -/

namespace Reg00

variable (raw : BitVec 32)

def LTS : BitVec 1 := raw.extractLsb' 14 1

def deliveryType : BitVec 1 := raw.extractLsb' 15 1

def ID : BitVec 8 := raw.extractLsb' 24 8

end Reg00

namespace Reg01

variable (raw : BitVec 32)

def version : BitVec 8 := raw.extractLsb' 0 8

def PRQ : BitVec 1 := raw.extractLsb' 15 1

def entries : BitVec 8 := raw.extractLsb' 16 8

end Reg01

def Reg02.arbitration (raw : BitVec 32) : BitVec 4 := raw.extractLsb' 24 4

def Reg03.bootDT (raw : BitVec 32) : BitVec 1 := raw.extractLsb' 0 1

/-! ## What is printed -/

/-- The first registers. -/
def registerLines (apic : Nat) (reg00 reg01 : BitVec 32) : List Line :=
  [⟨.debug, "IO APIC #%d......\n", [apic]⟩,
    ⟨.debug, ".... register #00: %08X\n", [reg00.toNat]⟩,
    ⟨.debug, ".......    : physical APIC id: %02X\n", [(Reg00.ID reg00).toNat]⟩,
    ⟨.debug, ".......    : Delivery Type: %X\n", [(Reg00.deliveryType reg00).toNat]⟩,
    ⟨.debug, ".......    : LTS          : %X\n", [(Reg00.LTS reg00).toNat]⟩,
    ⟨.debug, ".... register #01: %08X\n", [reg01.toNat]⟩,
    ⟨.debug, ".......     : max redirection entries: %02X\n", [(Reg01.entries reg01).toNat]⟩,
    ⟨.debug, ".......     : PRQ implemented: %X\n", [(Reg01.PRQ reg01).toNat]⟩,
    ⟨.debug, ".......     : IO APIC version: %02X\n", [(Reg01.version reg01).toNat]⟩]

def reg02Lines (reg02 : BitVec 32) : List Line :=
  [⟨.debug, ".... register #02: %08X\n", [reg02.toNat]⟩,
    ⟨.debug, ".......     : arbitration: %02X\n", [(Reg02.arbitration reg02).toNat]⟩]

def reg03Lines (reg03 : BitVec 32) : List Line :=
  [⟨.debug, ".... register #03: %08X\n", [reg03.toNat]⟩,
    ⟨.debug, ".......     : Boot DT    : %X\n", [(Reg03.bootDT reg03).toNat]⟩]

def tableHeader : Line := ⟨.debug, ".... IRQ redirection table:\n", []⟩

/-- An entry of the table. -/
def entryLines (i : Nat) (entry : RouteEntry) : List Line :=
  [⟨.info, " %02x %02X  ", [i, entry.dest.toNat]⟩,
    ⟨.info, "MASK = %1d    %1d    %1d   %1d   %1d    %1d    %1d    %02X\n",
      [entry.mask.toNat, entry.trigger.toNat, entry.irr.toNat, entry.polarity.toNat,
        entry.deliveryStatus.toNat, entry.destMode.toNat, entry.deliveryMode.toNat,
        entry.vector.toNat]⟩]

/-! ## The functions -/

/-- One `printk` after the other. -/
def printAll : List Line → ApicProgram Unit := Program.forEach fun line => access (.printk line)

/-- `IO_APIC_PRINT_ENTRIES` -/
def ioApicPrintEntries (apic nr_entries : Nat) : ApicProgram Unit :=
  Program.forEach
    (fun i => do
      let entry ← ioApicReadEntry apic i
      printAll (entryLines i entry))
    (List.range (nr_entries + 1))

/-- A register is read from some version on; else the variable is not initialized. -/
def readFrom (least version : BitVec 8) (apic : Nat) (reg uninitialized : BitVec 32) :
    ApicProgram (BitVec 32) :=
  if least ≤ version then ioApicRead apic reg else .ret uninitialized

/-- What is on the stack where `reg_02` and `reg_03` are. -/
structure Uninitialized where
  reg02 : BitVec 32
  reg03 : BitVec 32

/-- `IO_APIC_PRINT_APIC` -/
def ioApicPrintApic (uninitialized : Uninitialized) (apic : Nat) : ApicProgram Unit := do
  let reg00 ← ioApicRead apic 0
  let reg01 ← ioApicRead apic 1
  let version := Reg01.version reg01
  let reg02 ← readFrom 0x10 version apic 2 uninitialized.reg02
  let reg03 ← readFrom 0x20 version apic 3 uninitialized.reg03
  printAll (registerLines apic reg00 reg01)
  printAll (if 0x10 ≤ version ∧ reg02 ≠ reg01 then reg02Lines reg02 else [])
  printAll (if 0x20 ≤ version ∧ reg03 ≠ reg02 ∧ reg03 ≠ reg01 then reg03Lines reg03 else [])
  printAll [tableHeader]
  ioApicPrintEntries apic (Reg01.entries reg01).toNat

/-- `apicinit` -/
def apicinit (first second : Uninitialized) : ApicProgram Int := do
  ioApicPrintApic first 0
  ioApicPrintApic second 1
  pure 0

/-! ## What the report should be -/

/-- Register 2 is shown if the I/O APIC has it and it reads unlike register 1. -/
def Chip.report02 (chip : Chip) : List Line :=
  match chip.reg02 with
  | none => []
  | some reg02 =>
      if 0x10 ≤ Reg01.version chip.reg01 ∧ reg02 ≠ chip.reg01 then reg02Lines reg02 else []

/-- What register 2 reads as. -/
def Chip.reads02 (chip : Chip) : BitVec 32 := chip.reg02.getD chip.reg01

/-- Register 3 is shown if the I/O APIC has it and it reads unlike the two before. -/
def Chip.report03 (chip : Chip) : List Line :=
  match chip.reg03 with
  | none => []
  | some reg03 =>
      if 0x20 ≤ Reg01.version chip.reg01 ∧ reg03 ≠ chip.reads02 ∧ reg03 ≠ chip.reg01 then
        reg03Lines reg03
      else []

/-- What is said of the registers. -/
def Chip.registerReport (chip : Chip) (apic : Nat) : List Line :=
  registerLines apic chip.reg00 chip.reg01 ++ chip.report02 ++ chip.report03 ++ [tableHeader]

/-- The table shows what is configured, whatever the state of the pins. -/
def Tabulates (routing : Nat → RouteEntry) (pins : List Nat) (lines : List Line) : Prop :=
  ∃ entries : List RouteEntry, entries.map RouteEntry.configured = pins.map routing ∧
    lines = (pins.zip entries).flatMap fun (i, entry) => entryLines i entry

/-- The report on an I/O APIC. -/
def Reports (chips : Nat → Chip) (routing : Routing) (apic : Nat) (lines : List Line) : Prop :=
  ∃ table, Tabulates (routing apic) (List.range ((chips apic).entries + 1)) table ∧
    lines = (chips apic).registerReport apic ++ table

section Rules

variable {chips : Nat → Chip} {routing : Routing} {apic : Nat} {printed : List Line}
  {last : Nat → BitVec 32} {becomes : Nat → Nat → RouteEntry → Prop} {world : ApicWorld}

/-! ## Printing -/

theorem printAll_meets (lines : List Line) (known : Known routing printed last world) :
    TableMeets chips becomes (fun _ => Known routing (printed ++ lines) last) (printAll lines)
      world := by
  induction lines generalizing printed world with
  | nil =>
      rw [List.append_nil]
      exact .ret (known_stable routing printed last) known
  | cons line later ih =>
      refine .access _ (known_stable routing printed last) known fun start known _ => ?_
      have prints : Known routing (printed ++ [line]) last
          ((apicDevice chips).exec (.printk line) start).2 :=
        ⟨known.routes, congrArg (· ++ [line]) known.printed, known.last⟩
      refine ⟨tableStep_of_known rfl known.routes prints.routes, ?_⟩
      rw [← List.singleton_append, ← List.append_assoc]
      exact ih prints

theorem ioApicPrintEntries_round {pins : List Nat}
    (exist : ∀ pin ∈ pins, pin ≤ (chips apic).entries)
    (known : Known routing printed last world) :
    TableMeets chips becomes
      (fun _ later => ∃ table last, Tabulates (routing apic) pins table ∧
        Known routing (printed ++ table) last later)
      (Program.forEach (fun i => (ioApicReadEntry apic i).bind fun entry =>
        printAll (entryLines i entry)) pins) world := by
  induction pins generalizing printed last world with
  | nil =>
      refine .ret ?_ ⟨[], last, ⟨[], rfl, rfl⟩, (List.append_nil printed).symm ▸ known⟩
      rintro _ _ moves ⟨table, last, shows, known⟩
      exact ⟨table, last, shows, known_stable routing _ _ moves known⟩
  | cons pin rest ih =>
      have first : TableMeets chips becomes _ (ioApicReadEntry apic pin) world :=
        ioApicReadEntry_meets (exist pin List.mem_cons_self) known
      rw [Program.forEach_cons, Program.bind_assoc]
      refine first.bind ?_
      rintro entry later ⟨configured, last, known⟩
      refine (printAll_meets (entryLines pin entry) known).bind fun _ later known => ?_
      refine (ih (fun other mem => exist other (List.mem_cons_of_mem _ mem)) known).mono ?_
      rintro - final ⟨table, last, ⟨entries, same, lines⟩, known⟩
      refine ⟨entryLines pin entry ++ table, last, ⟨entry :: entries, ?_, ?_⟩, ?_⟩
      · rw [List.map_cons, List.map_cons, configured, same]
      · rw [lines]
        rfl
      · rw [← List.append_assoc]
        exact known

/-! ## The registers that may not be there -/

/-- A register before the table is read. -/
theorem register_meets {reg : BitVec 32} {register : Register} {held : Option (BitVec 32)}
    (selects : selected reg = register) (holds : ∀ table, (chips apic).value table register = held)
    (known : Known routing printed last world) :
    TableMeets chips becomes
      (fun value later => ∃ next, (value = held.getD (last apic) ∧ next apic = value) ∧
        Known routing printed next later)
      (ioApicRead apic reg) world := by
  refine (ioApicRead_meets apic reg known).mono ?_
  rintro value later ⟨⟨before, index, read, -, answers⟩, known⟩
  rw [Chip.read, index, selects, holds, read] at answers
  exact ⟨_, ⟨answers.symm, Function.update_self _ _ _⟩, known⟩

/-- A register of later versions. -/
theorem readFrom_meets {least version : BitVec 8} {reg : BitVec 32} {register : Register}
    {held : Option (BitVec 32)} (uninitialized : BitVec 32) (selects : selected reg = register)
    (holds : ∀ table, (chips apic).value table register = held)
    (known : Known routing printed last world) :
    TableMeets chips becomes
      (fun value later => ∃ next, (least ≤ version → value = held.getD (last apic) ∧
        next apic = value) ∧ Known routing printed next later)
      (readFrom least version apic reg uninitialized) world := by
  have stable : ∀ value, Stable WindowRely fun later => ∃ next : Nat → BitVec 32,
      (least ≤ version → value = held.getD (last apic) ∧ next apic = value) ∧
        Known routing printed next later := by
    rintro value _ _ moves ⟨next, reads, known⟩
    exact ⟨next, reads, known_stable routing printed next moves known⟩
  rw [readFrom]
  split
  · refine (register_meets selects holds known).mono ?_
    rintro value later ⟨next, reads, known⟩
    exact ⟨next, fun _ => reads, known⟩
  next early => exact .ret (stable _) ⟨last, fun late => absurd late early, known⟩

/-- A register 2 that is not there reads as register 1, and is not shown. -/
theorem report02_eq {chip : Chip} {reg02 : BitVec 32}
    (reads : 0x10 ≤ Reg01.version chip.reg01 → reg02 = chip.reads02) :
    (if 0x10 ≤ Reg01.version chip.reg01 ∧ reg02 ≠ chip.reg01 then reg02Lines reg02 else []) =
      chip.report02 := by
  rw [Chip.report02]
  by_cases recent : 0x10 ≤ Reg01.version chip.reg01
  · rw [reads recent, Chip.reads02]
    cases chip.reg02 with
    | none => exact if_neg fun shown => shown.2 rfl
    | some value => rfl
  · rw [if_neg fun shown => recent shown.1]
    cases chip.reg02 with
    | none => rfl
    | some value => exact (if_neg fun shown => recent shown.1).symm

/-- A register 3 that is not there reads as the one before, and is not shown. -/
theorem report03_eq {chip : Chip} {reg02 reg03 : BitVec 32}
    (reads : 0x20 ≤ Reg01.version chip.reg01 →
      reg02 = chip.reads02 ∧ reg03 = chip.reg03.getD reg02) :
    (if 0x20 ≤ Reg01.version chip.reg01 ∧ reg03 ≠ reg02 ∧ reg03 ≠ chip.reg01 then
        reg03Lines reg03 else []) = chip.report03 := by
  rw [Chip.report03]
  by_cases recent : 0x20 ≤ Reg01.version chip.reg01
  · obtain ⟨same, reads⟩ := reads recent
    rw [reads, same]
    cases chip.reg03 with
    | none => exact if_neg fun shown => shown.2.1 rfl
    | some value => rfl
  · rw [if_neg fun shown => recent shown.1]
    cases chip.reg03 with
    | none => rfl
    | some value => exact (if_neg fun shown => recent shown.1).symm

theorem le_of_version {version : BitVec 8} (recent : 0x20 ≤ version) : 0x10 ≤ version := by
  bv_omega

/-! ## The report is right -/

theorem ioApicPrintApic_meets (uninitialized : Uninitialized) (apic : Nat)
    (known : Known routing printed last world) :
    TableMeets chips becomes
      (fun _ later => ∃ lines last, Reports chips routing apic lines ∧
        Known routing (printed ++ lines) last later)
      (ioApicPrintApic uninitialized apic) world := by
  let chip : Chip := chips apic
  have start : TableMeets chips becomes
      (fun value later => ∃ next, (value = chip.reg00 ∧ next apic = value) ∧
        Known routing printed next later)
      (ioApicRead apic 0) world :=
    register_meets (by decide : selected 0 = .reg00) (fun _ => rfl) known
  refine start.bind ?_
  rintro reg00 world ⟨last, ⟨rfl, -⟩, known⟩
  have second : TableMeets chips becomes
      (fun value later => ∃ next, (value = chip.reg01 ∧ next apic = value) ∧
        Known routing printed next later)
      (ioApicRead apic 1) world :=
    register_meets (by decide : selected 1 = .reg01) (fun _ => rfl) known
  refine second.bind ?_
  rintro reg01 world ⟨last, ⟨rfl, is01⟩, known⟩
  have third : TableMeets chips becomes _
      (readFrom 0x10 (Reg01.version chip.reg01) apic 2 uninitialized.reg02) world :=
    readFrom_meets _ (by decide : selected 2 = .reg02) (fun _ => rfl) known
  refine third.bind ?_
  rintro reg02 world ⟨last, reads02, known⟩
  have fourth : TableMeets chips becomes _
      (readFrom 0x20 (Reg01.version chip.reg01) apic 3 uninitialized.reg03) world :=
    readFrom_meets _ (by decide : selected 3 = .reg03) (fun _ => rfl) known
  refine fourth.bind ?_
  rintro reg03 world ⟨last, reads03, known⟩
  have second02 : 0x10 ≤ Reg01.version chip.reg01 → reg02 = chip.reads02 := fun recent =>
    (reads02 recent).1.trans (congrArg chip.reg02.getD is01)
  have both : 0x20 ≤ Reg01.version chip.reg01 →
      reg02 = chip.reads02 ∧ reg03 = chip.reg03.getD reg02 := by
    intro recent
    have earlier := le_of_version recent
    exact ⟨second02 earlier, (reads03 recent).1.trans (congrArg _ (reads02 earlier).2)⟩
  refine (printAll_meets _ known).bind fun _ world known => ?_
  refine (printAll_meets _ known).bind fun _ world known => ?_
  refine (printAll_meets _ known).bind fun _ world known => ?_
  refine (printAll_meets _ known).bind fun _ world known => ?_
  rw [report02_eq second02, report03_eq both] at known
  have exist : ∀ pin ∈ List.range (chip.entries + 1), pin ≤ (chips apic).entries :=
    fun pin mem => Nat.le_of_lt_succ (List.mem_range.mp mem)
  refine (ioApicPrintEntries_round exist known).mono ?_
  rintro - later ⟨table, last, shows, known⟩
  refine ⟨chip.registerReport apic ++ table, last, ⟨table, shows, rfl⟩, ?_⟩
  have same : printed ++ (chip.registerReport apic ++ table) =
      printed ++ registerLines apic chip.reg00 chip.reg01 ++ chip.report02 ++ chip.report03 ++
        [tableHeader] ++ table := by
    simp only [Chip.registerReport, List.append_assoc]
  rw [same]
  exact known

/-- Whatever interrupts come in between, the report on both I/O APICs is right, and nothing
is configured. -/
theorem apicinit_reports (first second : Uninitialized) {before after : ApicWorld} {code : Int}
    (completes : Completes (apicDevice chips) Interrupts (apicinit first second) before code
      after) :
    code = 0 ∧
      (∃ lines lines', Reports chips (fun apic pin => ((before.apics apic).table pin).configured)
          0 lines ∧
        Reports chips (fun apic pin => ((before.apics apic).table pin).configured) 1 lines' ∧
          after.printed = before.printed ++ lines ++ lines') ∧
      ∀ apic pin, ((after.apics apic).table pin).configured =
        ((before.apics apic).table pin).configured := by
  let routing : Routing := fun apic pin => ((before.apics apic).table pin).configured
  have routes : Routes routing before := fun _ _ => rfl
  have meets : TableMeets chips (fun _ _ _ => True)
      (fun code later => code = 0 ∧ ∃ lines lines' last, Reports chips routing 0 lines ∧
        Reports chips routing 1 lines' ∧
          Known routing (before.printed ++ lines ++ lines') last later)
      (apicinit first second) before := by
    refine (ioApicPrintApic_meets first 0 routes.known).bind ?_
    rintro - middle ⟨lines, last, reports, known⟩
    refine (ioApicPrintApic_meets second 1 known).bind ?_
    rintro - later ⟨lines', last, reports', known⟩
    refine .ret ?_ ⟨rfl, lines, lines', last, reports, reports', known⟩
    rintro _ _ moves ⟨zero, lines, lines', last, reports, reports', known⟩
    exact ⟨zero, lines, lines', last, reports, reports', known_stable _ _ _ moves known⟩
  obtain ⟨zero, lines, lines', last, reports, reports', known⟩ :=
    meets.completes (fun _ _ moves => moves.rely) completes
  exact ⟨zero, ⟨lines, lines', reports, reports', known.printed⟩, known.routes⟩

end Rules

/-- The report on two I/O APICs of the usual kind, with nothing configured. -/
theorem apicinit_reports_usual :
    ∃ lines lines', Reports usualChips (fun _ _ => RouteEntry.configured {}) 0 lines ∧
      Reports usualChips (fun _ _ => RouteEntry.configured {}) 1 lines' ∧
        ((apicinit ⟨0, 0⟩ ⟨0, 0⟩).run (exec usualChips) {}).2.printed = lines ++ lines' :=
  (apicinit_reports ⟨0, 0⟩ ⟨0, 0⟩ (apic_alone _ {})).2.1

end NvmEmulator.Ioapic
