/-
# The scan of a running program

`hrtimer_def` holds the semaphore of the memory while it walks the page table, which keeps the
areas and the tables as they are. It does not keep the program from running: between any two
reads of the walk an access may set an accessed bit, before the place the walk has got to or
after it. The walk is embedded once more, read by read. Its report is between what was accessed
when it began and what has been accessed when it ends.
-/

import NvmEmulator.Migrate.Scan
import NvmEmulator.Semantics.ProgramLoop

namespace NvmEmulator.Migrate

open NvmEmulator.Semantics

/-! ## Reads of the page table -/

/-- An entry of an upper level, by the indices that lead to it. -/
inductive EntryPath
  | pgd (pgd : Nat)
  | pud (pgd pud : Nat)
  | pmd (pgd pud pmd : Nat)

/-- What the walk does. -/
inductive WalkOp
  | /-- `pgd_none(*pgd)`, `pud_none(*pud)` or `pmd_none(*pmd)` -/
    entryNone (path : EntryPath)
  | /-- `ptecont = *pte` -/
    readPte (pgd pud pmd pte : Nat)
  | /-- `collect_statistics(pfn)` -/
    collectStatistics (pfn : Nat)

/-- What each of them answers. -/
abbrev WalkOp.Res : WalkOp → Type
  | .entryNone _ => Bool
  | .readPte _ _ _ _ => Pte
  | .collectStatistics _ => Unit

/-- A part of the walk. -/
abbrev WalkProgram := Program WalkOp WalkOp.Res

/-- The page table, and the frames reported. -/
structure WalkWorld where
  pgd : PgdTable
  reported : List Nat

/-- The entry that some indices lead to. -/
def pteOf (table : PgdTable) (pgd pud pmd pte : Nat) : Option Pte :=
  (table pgd).follow.bind fun puds => (puds pud).follow.bind fun pmds =>
    (pmds pmd).follow.bind fun ptes => some (ptes pte)

/-- The entry is empty, or the walk does not get to it. -/
def entryNone (table : PgdTable) : EntryPath → Bool
  | .pgd pgd => (table pgd).follow.elim true fun _ => false
  | .pud pgd pud =>
      (table pgd).follow.elim true fun puds => (puds pud).follow.elim true fun _ => false
  | .pmd pgd pud pmd =>
      (table pgd).follow.elim true fun puds => (puds pud).follow.elim true fun pmds =>
        (pmds pmd).follow.elim true fun _ => false

/-- The effect and the answer. -/
def walkExec : (op : WalkOp) → WalkWorld → op.Res × WalkWorld
  | .entryNone path, world => (Migrate.entryNone world.pgd path, world)
  | .readPte pgd pud pmd pte, world => ((pteOf world.pgd pgd pud pmd pte).getD 0, world)
  | .collectStatistics pfn, world => ((), { world with reported := world.reported ++ [pfn] })

/-- The memory, as the walk sees it. -/
def walkDevice : Device WalkOp WalkOp.Res WalkWorld where
  exec := walkExec

/-- The program accesses an address. -/
inductive Accesses : WalkWorld → WalkWorld → Prop
  | access (world : WalkWorld) (addr : Nat) :
      Accesses world { world with pgd := accessPgd addr world.pgd }

/-! ## The functions -/

/-- The state of a loop: the entry the pointer is at, and `addr`. -/
structure Place where
  entry : Nat
  addr : Nat

namespace Live

/-- What is done with an entry that was read. -/
def collectPte (ptecont : Pte) : WalkProgram Unit :=
  if pteNone ptecont then .ret ()
  else if ptePresent ptecont && pteYoung ptecont then
    let _ := pteClearFlags ptecont pageAccessed
    .access (.collectStatistics (ptePfn ptecont)) fun _ => .ret ()
  else .ret ()

/-- A round of `clear_pte_range` -/
def pteRound (pgd pud pmd : Nat) (place : Place) : WalkProgram (Option Place) :=
  let pte := entryIndex pageSize place.addr
  .access (.readPte pgd pud pmd pte) fun ptecont =>
    (collectPte ptecont).bind fun _ => .ret (some ⟨pte + 1, (place.addr + pageSize) % 2 ^ 64⟩)

/-- `clear_pte_range` -/
def clearPteRange (pgd pud pmd fuel addr stop : Nat) : WalkProgram (Option Nat) :=
  (Program.doWhile (pteRound pgd pud pmd) (fun place => place.addr != stop) fuel
    ⟨entryIndex pageSize addr, addr⟩).bind fun place => .ret (place.map Place.addr)

/-- A round of the loops over the upper levels. -/
def entryRound (size : Nat) (path : Nat → EntryPath)
    (walk : Nat → Nat → Nat → Nat → WalkProgram (Option Nat)) (fuel stop : Nat) (place : Place) :
    WalkProgram (Option Place) :=
  let next := addrEnd size place.addr stop
  .access (.entryNone (path place.entry)) fun none =>
    if none then .ret (some ⟨place.entry + 1, next⟩)
    else (walk place.entry fuel place.addr next).bind fun addr =>
      .ret (addr.map fun addr => ⟨place.entry + 1, addr⟩)

/-- The three functions over the upper levels. -/
def clearEntries (size : Nat) (path : Nat → EntryPath)
    (walk : Nat → Nat → Nat → Nat → WalkProgram (Option Nat)) (fuel addr stop : Nat) :
    WalkProgram (Option Nat) :=
  (Program.doWhile (entryRound size path walk fuel stop) (fun place => place.addr != stop) fuel
    ⟨entryIndex size addr, addr⟩).bind fun place => .ret (place.map Place.addr)

/-- `clear_pmd_range` -/
def clearPmdRange (pgd pud : Nat) : Nat → Nat → Nat → WalkProgram (Option Nat) :=
  clearEntries pmdSize (.pmd pgd pud) (clearPteRange pgd pud)

/-- `clear_pud_range` -/
def clearPudRange (pgd : Nat) : Nat → Nat → Nat → WalkProgram (Option Nat) :=
  clearEntries pudSize (.pud pgd) (clearPmdRange pgd)

/-- `clear_page_range` -/
def clearPageRange (fuel : Nat) (vma : Vma) : WalkProgram (Option Nat) :=
  clearEntries pgdirSize .pgd clearPudRange fuel vma.vmStart
    vma.vmEnd

/-- The loop of `hrtimer_def` over the list of areas. -/
def whileVma (fuel : Nat) : List Vma → WalkProgram (Option Unit)
  | [] => .ret (some ())
  | vma :: next =>
      (clearPageRange fuel vma).bind fun result =>
        match result with
        | none => .ret none
        | some _ => whileVma fuel next

end Live

/-! ## What accesses leave of the tables -/

/-- The second table is the first one after some accesses. -/
def Later (first now : PgdTable) : Prop := ∃ accesses, now = accessAll accesses first

theorem Later.refl (table : PgdTable) : Later table table := ⟨[], rfl⟩

theorem Later.access {first now : PgdTable} (later : Later first now) (addr : Nat) :
    Later first (accessPgd addr now) := by
  obtain ⟨accesses, rfl⟩ := later
  refine ⟨accesses ++ [addr], ?_⟩
  rw [accessAll, accessAll, List.foldl_append]
  rfl

theorem Later.trans {first middle last : PgdTable} (one : Later first middle)
    (two : Later middle last) : Later first last := by
  obtain ⟨accesses, rfl⟩ := two
  induction accesses generalizing middle with
  | nil => exact one
  | cons access accesses ih => exact ih (one.access access)

section Shape

variable {Table : Type} {size : Nat} {below : Nat → Table → Table} {α : Type} {empty : α}
  {test : Table → α}

/-- Accesses go on through the tables that are there. -/
theorem elim_accessEntry (same : ∀ access next, test (below access next) = test next)
    (access : Nat) (table : Nat → Entry Table) (index : Nat) :
    (accessEntry size below access table index).follow.elim empty test =
      (table index).follow.elim empty test := by
  rw [accessEntry]
  by_cases here : index = entryIndex size access
  · rw [here, Function.update_self]
    cases table (entryIndex size access) with
    | none => rfl
    | table next => exact same access next
    | huge frame => rfl
    | absent frame => rfl
  · rw [Function.update_of_ne here]

end Shape

theorem entryNone_accessPgd (access : Nat) (table : PgdTable) (path : EntryPath) :
    entryNone (accessPgd access table) path = entryNone table path := by
  cases path with
  | pgd pgd =>
      refine elim_accessEntry (fun _ _ => ?_) access table pgd
      rfl
  | pud pgd pud =>
      refine elim_accessEntry (fun access puds => ?_) access table pgd
      refine elim_accessEntry (fun _ _ => ?_) access puds pud
      rfl
  | pmd pgd pud pmd =>
      refine elim_accessEntry (fun access puds => ?_) access table pgd
      refine elim_accessEntry (fun access pmds => ?_) access puds pud
      refine elim_accessEntry (fun _ _ => ?_) access pmds pmd
      rfl

/-- Which tables are there stays. -/
theorem Later.entryNone_eq {first now : PgdTable} (later : Later first now) (path : EntryPath) :
    entryNone now path = entryNone first path := by
  obtain ⟨accesses, rfl⟩ := later
  induction accesses generalizing first with
  | nil => rfl
  | cons access accesses ih =>
      exact ih.trans (entryNone_accessPgd access first path)

/-- Where there is no table there is nothing below it. -/
theorem bind_eq_none_of_elim {α β : Type} {found : Option α} {gone : α → Bool}
    {look : α → Option β} (empty : found.elim true gone = true)
    (below : ∀ next, gone next = true → look next = none) : found.bind look = none := by
  cases found with
  | none => rfl
  | some next => exact below next empty

section Empty

variable {table : PgdTable} {addr : Nat}

theorem pgdRead_of_pgdNone (empty : entryNone table (.pgd (entryIndex pgdirSize addr)) = true) :
    pgdRead table addr = none :=
  bind_eq_none_of_elim empty fun _ there => absurd there Bool.false_ne_true

theorem pgdRead_of_pudNone
    (empty : entryNone table (.pud (entryIndex pgdirSize addr) (entryIndex pudSize addr)) = true) :
    pgdRead table addr = none :=
  bind_eq_none_of_elim empty fun _ empty =>
    bind_eq_none_of_elim empty fun _ there => absurd there Bool.false_ne_true

theorem pgdRead_of_pmdNone
    (empty : entryNone table (.pmd (entryIndex pgdirSize addr) (entryIndex pudSize addr)
      (entryIndex pmdSize addr)) = true) : pgdRead table addr = none :=
  bind_eq_none_of_elim empty fun _ empty => bind_eq_none_of_elim empty fun _ empty =>
    bind_eq_none_of_elim empty fun _ there => absurd there Bool.false_ne_true

end Empty

/-! ## What accesses leave of the entries -/

theorem ptePfn_touch (pte : Pte) : ptePfn (touch pte) = ptePfn pte := by
  cases mapped : pteMapped pte with
  | true =>
      have frame : (pte ||| pageAccessed) &&& ptePfnMask = pte &&& ptePfnMask := by
        have apart : pageAccessed &&& ptePfnMask = 0#64 := by decide
        rw [BitVec.and_comm, BitVec.and_or_distrib_left, BitVec.and_comm ptePfnMask pageAccessed,
          apart, BitVec.or_zero, BitVec.and_comm]
      rw [touch_of_mapped mapped, ptePfn, frame, ptePfn]
  | false => rw [touch_of_unmapped mapped]

theorem accessed_touch {pte : Pte} (here : accessed pte = true) : accessed (touch pte) = true := by
  cases mapped : pteMapped pte with
  | true =>
      have still : pteMapped (touch pte) = true := (pteMapped_touch pte).trans mapped
      rw [accessed, ptePresent_of_mapped still, touch_of_mapped mapped, pteYoung_or]
      rfl
  | false => rw [touch_of_unmapped mapped, here]

/-- Accesses map nothing. -/
theorem Later.pgdRead_none {first now : PgdTable} (later : Later first now) {addr : Nat}
    (none : pgdRead first addr = none) : pgdRead now addr = Option.none := by
  obtain ⟨accesses, rfl⟩ := later
  cases mapped : pgdAt first addr with
  | none => exact (pgdRead_accessAll mapped).trans none
  | some pte => cases none.symm.trans (pgdRead_of_pgdAt mapped)

/-- What is there to report for an address does not go away. -/
theorem Later.frameAt {first now : PgdTable} (later : Later first now) {addr frame : Nat}
    (found : frameAt (pgdRead first) addr = some frame) :
    Migrate.frameAt (pgdRead now) addr = some frame := by
  obtain ⟨accesses, rfl⟩ := later
  obtain ⟨pte, filtered, rfl⟩ := Option.map_eq_some_iff.mp found
  obtain ⟨read, here⟩ := Option.filter_eq_some_iff.mp filtered
  cases mapped : pgdAt first addr with
  | none => rw [Migrate.frameAt, pgdRead_accessAll mapped, ← Migrate.frameAt, found]
  | some entry =>
      have same : entry = pte := Option.some.inj ((pgdRead_of_pgdAt mapped).symm.trans read)
      subst same
      by_cases touched : Touched accesses addr
      · have after := pgdAt_accessAll_of_touched first touched
        rw [mapped, Option.map_some] at after
        rw [Migrate.frameAt, pgdRead_of_pgdAt after, Option.filter_some,
          if_pos (accessed_touch here), Option.map_some, ptePfn_touch]
      · have after := (pgdAt_accessAll_of_not_touched first touched).trans mapped
        rw [Migrate.frameAt, pgdRead_of_pgdAt after, ← read, ← Migrate.frameAt, found]

/-! ## What there is to report -/

/-- The pages from one address to another that are present and accessed, each with its frame. -/
def foundIn (look : Nat → Option Pte) (start stop : Nat) : List (Nat × Nat) :=
  (pagesIn start stop).filterMap fun addr => (frameAt look addr).map fun frame => (addr, frame)

theorem foundIn_append {look : Nat → Option Pte} {start middle stop : Nat}
    (first : start ≤ middle) (second : middle ≤ stop) (start_aligned : pageSize ∣ start)
    (middle_aligned : pageSize ∣ middle) :
    foundIn look start stop = foundIn look start middle ++ foundIn look middle stop := by
  rw [foundIn, pagesIn_append first second start_aligned middle_aligned, List.filterMap_append]
  rfl

theorem map_foundIn (look : Nat → Option Pte) (start stop : Nat) :
    (foundIn look start stop).map Prod.snd = framesIn look start stop := by
  rw [foundIn, List.map_filterMap, framesIn]
  apply List.filterMap_congr
  intro addr _
  rw [Option.map_map]
  exact Option.map_id'

/-- What finds at least as much. -/
theorem sublist_filterMap {α β : Type} {less more : α → Option β} {items : List α}
    (within : ∀ item value, less item = some value → more item = some value) :
    (items.filterMap less).Sublist (items.filterMap more) := by
  induction items with
  | nil => exact List.Sublist.refl _
  | cons item rest ih =>
      cases here : less item with
      | none =>
          rw [List.filterMap_cons_none here]
          cases there : more item with
          | none => rwa [List.filterMap_cons_none there]
          | some value =>
              rw [List.filterMap_cons_some there]
              exact ih.cons value
      | some value =>
          rw [List.filterMap_cons_some here, List.filterMap_cons_some (within item value here)]
          exact ih.cons_cons value

theorem Later.foundIn {first now : PgdTable} (later : Later first now) (start stop : Nat) :
    (foundIn (pgdRead first) start stop).Sublist (Migrate.foundIn (pgdRead now) start stop) := by
  apply sublist_filterMap
  intro addr page found
  obtain ⟨frame, here, rfl⟩ := Option.map_eq_some_iff.mp found
  rw [later.frameAt here, Option.map_some]

/-- The pages are between what there was to report first, and what there is now. -/
structure Between (first now : PgdTable) (start stop : Nat) (pages : List (Nat × Nat)) : Prop where
  early : (foundIn (pgdRead first) start stop).Sublist pages
  late : pages.Sublist (foundIn (pgdRead now) start stop)

section Between

variable {first middle now : PgdTable} {start addr stop : Nat} {pages more : List (Nat × Nat)}

theorem Between.later (between : Between first middle start stop pages)
    (later : Later middle now) : Between first now start stop pages :=
  ⟨between.early, between.late.trans (later.foundIn start stop)⟩

/-- What is found at any moment in between. -/
theorem Between.of_moment (one : Later first middle) (two : Later middle now) :
    Between first now start stop (foundIn (pgdRead middle) start stop) :=
  ⟨one.foundIn start stop, two.foundIn start stop⟩

theorem Between.append (low : Between first now start addr pages)
    (high : Between first now addr stop more) (first_le : start ≤ addr) (le_last : addr ≤ stop)
    (start_aligned : pageSize ∣ start) (aligned : pageSize ∣ addr) :
    Between first now start stop (pages ++ more) := by
  refine ⟨?_, ?_⟩
  · rw [foundIn_append first_le le_last start_aligned aligned]
    exact low.early.append high.early
  · rw [foundIn_append first_le le_last start_aligned aligned]
    exact low.late.append high.late

end Between

end NvmEmulator.Migrate
