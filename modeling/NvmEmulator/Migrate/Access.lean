/-
# Accesses to memory

A processor that reads or writes through a page table sets the accessed bit of the entry it
uses. Between two scans the program makes any number of accesses; what they leave in the
table is stated for an arbitrary address, by the pages that were accessed.
-/

import Mathlib.Logic.Function.Basic
import Mathlib.Tactic.Common
import NvmEmulator.Migrate.PageTable

namespace NvmEmulator.Migrate

/-! ## Pages -/

/-- The page of an address, by its place in the page table. -/
def pageOf (addr : Nat) : Nat := addr / pageSize % 2 ^ 36

/-- The same page is the same entry at each level. -/
theorem pageOf_eq_iff {first second : Nat} :
    pageOf first = pageOf second ↔
      entryIndex pgdirSize first = entryIndex pgdirSize second ∧
      entryIndex pudSize first = entryIndex pudSize second ∧
      entryIndex pmdSize first = entryIndex pmdSize second ∧
      entryIndex pageSize first = entryIndex pageSize second := by
  simp only [pageOf, entryIndex, pgdirSize, pudSize, pmdSize, pageSize, ptrsPerTable,
    Nat.reducePow]
  omega

theorem lookEntry_congr {Table : Type} {size : Nat} {look : Table → Nat → Option Pte}
    {table : Nat → Entry Table} {first second : Nat}
    (same : entryIndex size first = entryIndex size second)
    (below : ∀ next, look next first = look next second) :
    lookEntry size look table first = lookEntry size look table second := by
  rw [lookEntry, lookEntry, same]
  cases table (entryIndex size second) with
  | none => rfl
  | table next => exact below next
  | huge frame => rfl
  | absent frame => rfl

/-- An entry maps a page, whichever address of the page is asked for. -/
theorem pgdAt_congr {pgd : PgdTable} {first second : Nat} (same : pageOf first = pageOf second) :
    pgdAt pgd first = pgdAt pgd second := by
  rcases pageOf_eq_iff.mp same with ⟨pgdIndex, pudIndex, pmdIndex, pteIndex⟩
  apply lookEntry_congr pgdIndex
  intro pud
  apply lookEntry_congr pudIndex
  intro pmd
  apply lookEntry_congr pmdIndex
  intro ptes
  rw [pteAt, pteAt, pteIndex]

/-! ## One access -/

/-- `_PAGE_PRESENT`. The processor uses no other entry. -/
def pageMapped : Pte := 1

def pteMapped (pte : Pte) : Bool := pte &&& pageMapped != 0

/-- The processor uses an entry. -/
def touch (pte : Pte) : Pte := if pteMapped pte then pte ||| pageAccessed else pte

/-- An access to an address, in a table of the last level. -/
def accessPte (access : Nat) (ptes : PteTable) : PteTable :=
  let index := entryIndex pageSize access
  Function.update ptes index (touch (ptes index))

/-- The entry with its table changed; the processor goes on through no other entry. -/
def Entry.mapTable {Table : Type} (change : Table → Table) : Entry Table → Entry Table
  | .table next => .table (change next)
  | other => other

/-- An access to an address, in a table of an upper level. -/
def accessEntry {Table : Type} (size : Nat) (below : Nat → Table → Table) (access : Nat)
    (table : Nat → Entry Table) : Nat → Entry Table :=
  let index := entryIndex size access
  Function.update table index ((table index).mapTable (below access))

/-- An access to an address. -/
def accessPgd : Nat → PgdTable → PgdTable :=
  accessEntry pgdirSize (accessEntry pudSize (accessEntry pmdSize accessPte))

theorem pteAt_accessPte (access : Nat) (ptes : PteTable) (addr : Nat) :
    pteAt (accessPte access ptes) addr =
      (pteAt ptes addr).map fun pte =>
        if entryIndex pageSize access = entryIndex pageSize addr then touch pte else pte := by
  rw [pteAt, pteAt, Option.map_some, accessPte]
  by_cases same : entryIndex pageSize access = entryIndex pageSize addr
  · rw [if_pos same, same, Function.update_self]
  · rw [if_neg same, Function.update_of_ne (Ne.symm same)]

section Level

variable {Table : Type} {size : Nat} {below : Nat → Table → Table}
  {look read : Table → Nat → Option Pte} {same : Nat → Nat → Prop}
  [DecidableRel same]

/-- What an access changes at one level, from what it changes below. -/
theorem lookEntry_accessEntry
    (inner : ∀ access next addr, look (below access next) addr =
      (look next addr).map fun pte => if same access addr then touch pte else pte)
    (access : Nat) (table : Nat → Entry Table) (addr : Nat) :
    lookEntry size look (accessEntry size below access table) addr =
      (lookEntry size look table addr).map fun pte =>
        if entryIndex size access = entryIndex size addr ∧ same access addr then touch pte
        else pte := by
  rw [lookEntry, lookEntry, accessEntry]
  by_cases here : entryIndex size access = entryIndex size addr
  · rw [here, Function.update_self]
    simp only [true_and]
    cases table (entryIndex size addr) with
    | none => rfl
    | table next => exact inner access next addr
    | huge frame => rfl
    | absent frame => rfl
  · rw [Function.update_of_ne (Ne.symm here)]
    simp only [here, false_and, if_false]
    exact Option.map_id'.symm ▸ rfl

/-- What is not mapped stays as a walk reads it. -/
theorem readEntry_accessEntry
    (inner : ∀ access next addr, look next addr = none →
      read (below access next) addr = read next addr)
    (access : Nat) (table : Nat → Entry Table) (addr : Nat)
    (unmapped : lookEntry size look table addr = none) :
    readEntry size read (accessEntry size below access table) addr =
      readEntry size read table addr := by
  rw [readEntry, readEntry, accessEntry]
  by_cases here : entryIndex size access = entryIndex size addr
  · rw [here, Function.update_self]
    rw [lookEntry] at unmapped
    cases entry : table (entryIndex size addr) with
    | none => rfl
    | table next =>
        rw [entry] at unmapped
        exact inner access next addr unmapped
    | huge frame => rfl
    | absent frame => rfl
  · rw [Function.update_of_ne (Ne.symm here)]

end Level

/-- An access touches the entry of its page. -/
theorem pgdAt_accessPgd (access : Nat) (pgd : PgdTable) (addr : Nat) :
    pgdAt (accessPgd access pgd) addr =
      (pgdAt pgd addr).map fun pte => if pageOf access = pageOf addr then touch pte else pte := by
  simp only [pageOf_eq_iff]
  exact lookEntry_accessEntry
    (lookEntry_accessEntry (lookEntry_accessEntry pteAt_accessPte)) access pgd addr

theorem pgdRead_accessPgd (access : Nat) (pgd : PgdTable) (addr : Nat)
    (unmapped : pgdAt pgd addr = none) :
    pgdRead (accessPgd access pgd) addr = pgdRead pgd addr := by
  have last : ∀ access ptes addr, pteAt ptes addr = none →
      pteAt (accessPte access ptes) addr = pteAt ptes addr := by
    intro access ptes addr none
    cases none
  exact readEntry_accessEntry (readEntry_accessEntry (readEntry_accessEntry last)) access pgd
    addr unmapped

/-! ## Flags of a touched entry -/

theorem touch_of_mapped {pte : Pte} (mapped : pteMapped pte = true) :
    touch pte = pte ||| pageAccessed := by
  rw [touch, if_pos mapped]

theorem touch_of_unmapped {pte : Pte} (unmapped : pteMapped pte = false) : touch pte = pte := by
  rw [touch, unmapped]
  rfl

theorem pteYoung_or (pte : Pte) : pteYoung (pte ||| pageAccessed) = true := by
  rw [pteYoung, bne_iff_ne]
  intro none
  have bit := congrArg (fun flags => flags.getLsbD 5) none
  simp [pageAccessed] at bit

theorem ptePresent_of_mapped {pte : Pte} (mapped : pteMapped pte = true) :
    ptePresent pte = true := by
  rw [pteMapped, bne_iff_ne] at mapped
  rw [ptePresent, bne_iff_ne]
  intro none
  apply mapped
  have part : pageMapped = pagePresent &&& pageMapped := by decide
  rw [part, ← BitVec.and_assoc, none]
  exact BitVec.zero_and

theorem pteMapped_touch (pte : Pte) : pteMapped (touch pte) = pteMapped pte := by
  cases mapped : pteMapped pte with
  | true =>
      rw [touch_of_mapped mapped, ← mapped, pteMapped, pteMapped, BitVec.and_comm,
        BitVec.and_or_distrib_left, BitVec.and_comm]
      have other : pageMapped &&& pageAccessed = 0 := by decide
      rw [other]
      exact congrArg (· != 0) (BitVec.or_zero)
  | false => rw [touch_of_unmapped mapped, mapped]

theorem touch_touch (pte : Pte) : touch (touch pte) = touch pte := by
  cases mapped : pteMapped pte with
  | true =>
      have still : pteMapped (touch pte) = true := (pteMapped_touch pte).trans mapped
      rw [touch_of_mapped still, touch_of_mapped mapped, BitVec.or_assoc, BitVec.or_self]
  | false => rw [touch_of_unmapped mapped, touch_of_unmapped mapped]

/-! ## Any number of accesses -/

/-- Accesses to the addresses listed, one after another. -/
def accessAll (accesses : List Nat) (pgd : PgdTable) : PgdTable :=
  accesses.foldl (fun pgd access => accessPgd access pgd) pgd

/-- Some access went to the page of the address. -/
def Touched (accesses : List Nat) (addr : Nat) : Prop :=
  ∃ access ∈ accesses, pageOf access = pageOf addr

theorem touched_cons {access : Nat} {accesses : List Nat} {addr : Nat} :
    Touched (access :: accesses) addr ↔ pageOf access = pageOf addr ∨ Touched accesses addr := by
  simp [Touched]

theorem pgdAt_accessAll_of_not_touched {accesses : List Nat} {addr : Nat} (pgd : PgdTable)
    (untouched : ¬ Touched accesses addr) :
    pgdAt (accessAll accesses pgd) addr = pgdAt pgd addr := by
  induction accesses generalizing pgd with
  | nil => rfl
  | cons access accesses ih =>
      rw [touched_cons, not_or] at untouched
      show pgdAt (accessAll accesses (accessPgd access pgd)) addr = _
      rw [ih _ untouched.2, pgdAt_accessPgd]
      simp only [untouched.1, if_false]
      exact Option.map_id'.symm ▸ rfl

/-- The accesses touch the entries of their pages. -/
theorem pgdAt_accessAll_of_touched {accesses : List Nat} {addr : Nat} (pgd : PgdTable)
    (touched : Touched accesses addr) :
    pgdAt (accessAll accesses pgd) addr = (pgdAt pgd addr).map touch := by
  induction accesses generalizing pgd with
  | nil =>
      rcases touched with ⟨access, listed, _⟩
      cases listed
  | cons access accesses ih =>
      show pgdAt (accessAll accesses (accessPgd access pgd)) addr = _
      by_cases later : Touched accesses addr
      · rw [ih _ later, pgdAt_accessPgd, Option.map_map]
        congr 1
        funext pte
        show touch (if _ then touch pte else pte) = touch pte
        by_cases first : pageOf access = pageOf addr
        · rw [if_pos first, touch_touch]
        · rw [if_neg first]
      · have first := (touched_cons.mp touched).resolve_right later
        rw [pgdAt_accessAll_of_not_touched _ later, pgdAt_accessPgd]
        simp only [first, if_true]

theorem pgdRead_accessAll {accesses : List Nat} {pgd : PgdTable} {addr : Nat}
    (unmapped : pgdAt pgd addr = none) :
    pgdRead (accessAll accesses pgd) addr = pgdRead pgd addr := by
  induction accesses generalizing pgd with
  | nil => rfl
  | cons access accesses ih =>
      have still : pgdAt (accessPgd access pgd) addr = none := by
        rw [pgdAt_accessPgd, unmapped]
        rfl
      exact (ih still).trans (pgdRead_accessPgd access pgd addr unmapped)

end NvmEmulator.Migrate
