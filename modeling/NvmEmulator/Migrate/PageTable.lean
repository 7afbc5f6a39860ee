/-
# Page tables

The walk of `migrate.c` goes through the four levels of an x86-64 page table. Each level
is a table of 512 entries; an entry of an upper level is empty, or leads to a table of
the level below, or is something else (a huge page, an entry that is not present). The
source tests for the first case only, so an entry of the third case carries what its
frame reads as when it is taken for a table. Past its 512 entries a table continues with
whatever memory follows it.
-/

import Mathlib.Data.BitVec

namespace NvmEmulator.Migrate

/-! ## Page table entries -/

/-- `pte_t` -/
abbrev Pte := BitVec 64

/-- `_PAGE_ACCESSED` -/
def pageAccessed : Pte := 1 <<< 5

/-- `_PAGE_PRESENT | _PAGE_PROTNONE` -/
def pagePresent : Pte := 1 ||| 1 <<< 8

/-- `PTE_PFN_MASK`: bits 45:12 -/
def ptePfnMask : Pte := 0x00003FFFFFFFF000

/-- `pte_none` -/
def pteNone (pte : Pte) : Bool := pte == 0

/-- `pte_present` -/
def ptePresent (pte : Pte) : Bool := pte &&& pagePresent != 0

/-- `pte_young` -/
def pteYoung (pte : Pte) : Bool := pte &&& pageAccessed != 0

/-- `pte_pfn` -/
def ptePfn (pte : Pte) : Nat := ((pte &&& ptePfnMask) >>> 12).toNat

/-- `pte_clear_flags`, which returns the entry without the flags -/
def pteClearFlags (pte flags : Pte) : Pte := pte &&& ~~~flags

/-! ## Tables -/

/-- An entry of an upper level. -/
inductive Entry (Table : Type) where
  | none
  | table (next : Table)
  /-- It maps a huge page. -/
  | huge (frame : Table)
  /-- It is not present, and not empty. -/
  | absent (frame : Table)

/-- What a dereference of an entry finds: `pgd_none`, `pud_none` and `pmd_none` are all
that is tested first. -/
def Entry.follow {Table : Type} : Entry Table → Option Table
  | .none => Option.none
  | .table next => some next
  | .huge frame => some frame
  | .absent frame => some frame

/-- The last level. -/
abbrev PteTable := Nat → Pte

/-- The level of the page middle directories. -/
abbrev PmdTable := Nat → Entry PteTable

/-- The level of the page upper directories. -/
abbrev PudTable := Nat → Entry PmdTable

/-- The page global directory. -/
abbrev PgdTable := Nat → Entry PudTable

/-- `PTRS_PER_PTE`, and the same for the other levels -/
def ptrsPerTable : Nat := 512

/-- `PAGE_SIZE` -/
def pageSize : Nat := 2 ^ 12

/-- `PMD_SIZE` -/
def pmdSize : Nat := 2 ^ 21

/-- `PUD_SIZE` -/
def pudSize : Nat := 2 ^ 30

/-- `PGDIR_SIZE` -/
def pgdirSize : Nat := 2 ^ 39

/-- The index of an address in a table whose entries span `size` bytes each: `pte_index`,
`pmd_index`, `pud_index` and `pgd_index`. -/
def entryIndex (size addr : Nat) : Nat := addr / size % ptrsPerTable

/-- `pmd_addr_end`, `pud_addr_end` and `pgd_addr_end`: the next boundary, or `stop` if that
comes first. -/
def addrEnd (size addr stop : Nat) : Nat := min ((addr / size + 1) * size) stop

/-! ## What a page table maps -/

/-- The entry of an address in a table of the last level. -/
def pteAt (ptes : PteTable) (addr : Nat) : Option Pte := some (ptes (entryIndex pageSize addr))

/-- The entry of an address below a table of an upper level. -/
def lookEntry {Table : Type} (size : Nat) (look : Table → Nat → Option Pte)
    (table : Nat → Entry Table) (addr : Nat) : Option Pte :=
  match table (entryIndex size addr) with
  | .table next => look next addr
  | _ => none

/-- The entry of an address below a page middle directory. -/
def pmdAt : PmdTable → Nat → Option Pte := lookEntry pmdSize pteAt

/-- The entry of an address below a page upper directory. -/
def pudAt : PudTable → Nat → Option Pte := lookEntry pudSize pmdAt

/-- The entry of an address. -/
def pgdAt : PgdTable → Nat → Option Pte := lookEntry pgdirSize pudAt

/-- What a walk reads for an address below a table of an upper level, following every entry
that is not empty. -/
def readEntry {Table : Type} (size : Nat) (read : Table → Nat → Option Pte)
    (table : Nat → Entry Table) (addr : Nat) : Option Pte :=
  (table (entryIndex size addr)).follow.bind fun next => read next addr

/-- What a walk reads below a page middle directory. -/
def pmdRead : PmdTable → Nat → Option Pte := readEntry pmdSize pteAt

/-- What a walk reads below a page upper directory. -/
def pudRead : PudTable → Nat → Option Pte := readEntry pudSize pmdRead

/-- What a walk reads for an address. -/
def pgdRead : PgdTable → Nat → Option Pte := readEntry pgdirSize pudRead

/-- The entries of a table are empty or lead to tables, all of which are such. -/
def OnlyTables {Table : Type} (below : Table → Prop) (table : Nat → Entry Table) : Prop :=
  ∀ index < ptrsPerTable, table index = .none ∨ ∃ next, table index = .table next ∧ below next

/-- A page table without huge pages and bad entries. -/
def PgdTable.Plain (pgd : PgdTable) : Prop :=
  OnlyTables (OnlyTables (OnlyTables fun _ => True)) pgd

section Read

variable {Table : Type} {size : Nat} {look read : Table → Nat → Option Pte}
  {table : Nat → Entry Table} {addr : Nat}

/-- A walk finds what is mapped. -/
theorem readEntry_of_look {pte : Pte}
    (below : ∀ next, look next addr = some pte → read next addr = some pte)
    (mapped : lookEntry size look table addr = some pte) :
    readEntry size read table addr = some pte := by
  rw [lookEntry] at mapped
  rw [readEntry]
  cases entry : table (entryIndex size addr) with
  | none =>
      rw [entry] at mapped
      cases mapped
  | table next =>
      rw [entry] at mapped
      exact below next mapped
  | huge frame =>
      rw [entry] at mapped
      cases mapped
  | absent frame =>
      rw [entry] at mapped
      cases mapped

/-- Without huge pages and bad entries it finds nothing else. -/
theorem readEntry_eq {plain : Table → Prop}
    (below : ∀ next, plain next → read next addr = look next addr)
    (tables : OnlyTables plain table) :
    readEntry size read table addr = lookEntry size look table addr := by
  have index : entryIndex size addr < ptrsPerTable := Nat.mod_lt _ (by decide)
  rw [readEntry, lookEntry]
  rcases tables (entryIndex size addr) index with empty | ⟨next, leads, all⟩
  · rw [empty]
    rfl
  · rw [leads]
    exact below next all

end Read

theorem pgdRead_of_pgdAt {pgd : PgdTable} {addr : Nat} {pte : Pte}
    (mapped : pgdAt pgd addr = some pte) : pgdRead pgd addr = some pte :=
  readEntry_of_look
    (fun _ => readEntry_of_look fun _ => readEntry_of_look fun _ here => here) mapped

theorem PgdTable.Plain.pgdRead_eq {pgd : PgdTable} (plain : pgd.Plain) (addr : Nat) :
    pgdRead pgd addr = pgdAt pgd addr :=
  readEntry_eq (fun _ => readEntry_eq fun _ => readEntry_eq fun _ _ => rfl) plain

/-! ## Virtual memory areas -/

/-- `struct vm_area_struct`. Its addresses are a part of what one page table maps. -/
structure Vma where
  vmStart : Nat
  vmEnd : Nat
  nonempty : vmStart < vmEnd
  aligned : pageSize ∣ vmStart ∧ pageSize ∣ vmEnd
  bounded : vmEnd < 2 ^ 64
  oneTable : vmStart / 2 ^ 48 = (vmEnd - 1) / 2 ^ 48

/-- The pages from one address to another, each by its first address. -/
def pagesIn (start stop : Nat) : List Nat :=
  List.range' start ((stop - start) / pageSize) pageSize

end NvmEmulator.Migrate
