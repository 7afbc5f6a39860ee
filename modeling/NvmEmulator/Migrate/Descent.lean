/-
# Where the walk descends

The functions of the walk with a record of what they do to the tables: which entries of the
upper levels they go down through, and which frames they pass to `collect_statistics`. The
record changes nothing, so it is one of `clear_page_range`. The source goes down through every
entry that is not empty, and with `pte_present` only the last level asks for more. The theorem
at the end says for which page tables the walk stays in the tables.
-/

import NvmEmulator.Migrate.Walk

namespace NvmEmulator.Migrate

open NvmEmulator.Semantics

/-! ## The walk with a record -/

/-- The upper levels. -/
inductive Level
  | pgd
  | pud
  | pmd
  deriving DecidableEq

/-- What an entry of an upper level is. -/
inductive EntryKind
  | none
  | table
  | huge
  | absent
  deriving DecidableEq

def Entry.kind {Table : Type} : Entry Table → EntryKind
  | .none => .none
  | .table _ => .table
  | .huge _ => .huge
  | .absent _ => .absent

/-- What a walk does: it takes what an entry points to for a table, or reports a frame. -/
inductive WalkStep
  | descend (level : Level) (addr : Nat) (kind : EntryKind)
  | collect (pfn : Nat)
  deriving DecidableEq

/-- The state of a loop, with what was done so far. -/
structure StepCursor where
  entry : Nat
  addr : Nat
  steps : List WalkStep

/-- `Walk`, with a record of steps. -/
abbrev StepWalk (Table : Type) :=
  (fuel : Nat) → Table → (addr stop : Nat) → (steps : List WalkStep) →
    Option (Nat × List WalkStep)

/-- `reportPte`, as a record. -/
def pteSteps (ptecont : Pte) : List WalkStep :=
  if pteNone ptecont then []
  else if ptePresent ptecont && pteYoung ptecont then [.collect (ptePfn ptecont)]
  else []

/-- A round of `clear_pte_range`. -/
def stepPteRound (ptes : PteTable) (cursor : StepCursor) : Option StepCursor :=
  let pte := entryIndex pageSize cursor.addr
  some
    { entry := pte + 1
      addr := (cursor.addr + pageSize) % 2 ^ 64
      steps := cursor.steps ++ pteSteps (ptes pte) }

/-- `clear_pte_range` -/
def stepPteRange : StepWalk PteTable := fun fuel ptes addr stop steps =>
  (doWhile (stepPteRound ptes) (fun cursor => cursor.addr != stop) fuel
    ⟨entryIndex pageSize addr, addr, steps⟩).map fun cursor => (cursor.addr, cursor.steps)

/-- A round of the loops over the upper levels. -/
def stepEntryRound {Table : Type} (level : Level) (size : Nat) (walk : StepWalk Table)
    (fuel : Nat) (table : Nat → Entry Table) (stop : Nat) (cursor : StepCursor) :
    Option StepCursor :=
  let next := addrEnd size cursor.addr stop
  let entry := table cursor.entry
  match entry.follow with
  | none => some { entry := cursor.entry + 1, addr := next, steps := cursor.steps }
  | some below =>
      (walk fuel below cursor.addr next
        (cursor.steps ++ [.descend level cursor.addr entry.kind])).map fun result =>
          { entry := cursor.entry + 1, addr := result.1, steps := result.2 }

/-- The three functions over the upper levels. -/
def stepEntries {Table : Type} (level : Level) (size : Nat) (walk : StepWalk Table) :
    StepWalk (Nat → Entry Table) :=
  fun fuel table addr stop steps =>
    (doWhile (stepEntryRound level size walk fuel table stop) (fun cursor => cursor.addr != stop)
      fuel ⟨entryIndex size addr, addr, steps⟩).map fun cursor => (cursor.addr, cursor.steps)

/-- `clear_pmd_range` -/
def stepPmdRange : StepWalk PmdTable := stepEntries .pmd pmdSize stepPteRange

/-- `clear_pud_range` -/
def stepPudRange : StepWalk PudTable := stepEntries .pud pudSize stepPmdRange

/-- `clear_page_range` -/
def stepPageRange (fuel : Nat) (pgd : PgdTable) (vma : Vma) : Option (List WalkStep) :=
  (stepEntries .pgd pgdirSize stepPudRange fuel pgd vma.vmStart vma.vmEnd []).map Prod.snd

/-! ## The record changes nothing -/

/-- The frame that a step reports. -/
def WalkStep.frame : WalkStep → Option Nat
  | .descend _ _ _ => none
  | .collect pfn => some pfn

/-- The frames that some steps report. -/
def collected (steps : List WalkStep) : List Nat := steps.filterMap WalkStep.frame

theorem collected_append (first second : List WalkStep) :
    collected (first ++ second) = collected first ++ collected second := List.filterMap_append

/-- Without its record a walk is the other one. -/
def Erases {Table : Type} (walk : Walk Table) (steps : StepWalk Table) : Prop :=
  ∀ fuel table addr stop done, walk fuel table addr stop (collected done) =
    (steps fuel table addr stop done).map fun result => (result.1, collected result.2)

/-- The state of a loop without the record. -/
def StepCursor.erase (cursor : StepCursor) : Cursor :=
  ⟨cursor.entry, cursor.addr, collected cursor.steps⟩

theorem reportPte_collected (pte : Pte) (steps : List WalkStep) :
    reportPte pte (collected steps) = collected (steps ++ pteSteps pte) := by
  rw [collected_append, reportPte, pteSteps]
  by_cases none : pteNone pte
  · rw [if_pos none, if_pos none]
    exact (List.append_nil _).symm
  · rw [if_neg none, if_neg none]
    cases flags : ptePresent pte && pteYoung pte with
    | true => rfl
    | false => exact (List.append_nil _).symm

theorem erases_stepPteRange : Erases clearPteRange stepPteRange := by
  intro fuel ptes addr stop done
  have round : ∀ cursor, pteRound ptes cursor.erase =
      (stepPteRound ptes cursor).map StepCursor.erase := by
    intro cursor
    exact congrArg (fun reported => some (Cursor.mk (entryIndex pageSize cursor.addr + 1)
      ((cursor.addr + pageSize) % 2 ^ 64) reported)) (reportPte_collected _ cursor.steps)
  have loop : doWhile (pteRound ptes) (fun cursor => cursor.addr != stop) fuel
      ⟨entryIndex pageSize addr, addr, collected done⟩ =
        (doWhile (stepPteRound ptes) (fun cursor => cursor.addr != stop) fuel
          ⟨entryIndex pageSize addr, addr, done⟩).map StepCursor.erase :=
    doWhile_map StepCursor.erase round (fun _ => rfl) fuel ⟨_, _, done⟩
  rw [clearPteRange, stepPteRange, loop, Option.map_map, Option.map_map]
  rfl

theorem erases_stepEntries {Table : Type} {walk : Walk Table} {steps : StepWalk Table}
    (level : Level) (size : Nat) (below : Erases walk steps) :
    Erases (clearEntries size walk) (stepEntries level size steps) := by
  intro fuel table addr stop done
  have round : ∀ cursor, entryRound size walk fuel table stop cursor.erase =
      (stepEntryRound level size steps fuel table stop cursor).map StepCursor.erase := by
    intro cursor
    rw [entryRound, stepEntryRound]
    show (match (table cursor.entry).follow with
      | none => _
      | some next => _) = _
    cases follow : (table cursor.entry).follow with
    | none => rfl
    | some next =>
        have record : collected (cursor.steps ++
            [.descend level cursor.addr (table cursor.entry).kind]) = collected cursor.steps := by
          rw [collected_append]
          exact List.append_nil _
        have inner := below fuel next cursor.addr (addrEnd size cursor.addr stop)
          (cursor.steps ++ [.descend level cursor.addr (table cursor.entry).kind])
        rw [record] at inner
        show (walk fuel next cursor.addr (addrEnd size cursor.addr stop)
          (collected cursor.steps)).map _ = _
        rw [inner, Option.map_map, Option.map_map]
        rfl
  have loop : doWhile (entryRound size walk fuel table stop) (fun cursor => cursor.addr != stop)
      fuel ⟨entryIndex size addr, addr, collected done⟩ =
        (doWhile (stepEntryRound level size steps fuel table stop)
          (fun cursor => cursor.addr != stop) fuel
          ⟨entryIndex size addr, addr, done⟩).map StepCursor.erase :=
    doWhile_map StepCursor.erase round (fun _ => rfl) fuel ⟨_, _, done⟩
  rw [clearEntries, stepEntries, loop, Option.map_map, Option.map_map]
  rfl

/-- The frames in the record are those that the walk reports. -/
theorem clearPageRange_stepPageRange (fuel : Nat) (pgd : PgdTable) (vma : Vma) :
    clearPageRange fuel pgd vma [] = (stepPageRange fuel pgd vma).map collected := by
  have pmd : Erases clearPmdRange stepPmdRange := erases_stepEntries _ _ erases_stepPteRange
  have pud : Erases clearPudRange stepPudRange := erases_stepEntries _ _ pmd
  have whole : clearEntries pgdirSize clearPudRange fuel pgd vma.vmStart vma.vmEnd [] = _ :=
    erases_stepEntries .pgd pgdirSize pud fuel pgd vma.vmStart vma.vmEnd []
  rw [clearPageRange, stepPageRange, whole, Option.map_map, Option.map_map]
  rfl

/-! ## What the walk is to do -/

/-- A step that goes down through a present entry that points to a table, if it goes down. -/
def WalkStep.IntoTable : WalkStep → Prop
  | .descend _ _ kind => kind = .table
  | .collect _ => True

/-- All steps do. -/
def IntoTables (steps : List WalkStep) : Prop := ∀ step ∈ steps, step.IntoTable

/-- The walk returns, has only gone down into tables, and only reported frames that a page of
the area maps. -/
def StaysInTables (fuel : Nat) (pgd : PgdTable) (vma : Vma) : Prop :=
  ∃ steps, stepPageRange fuel pgd vma = some steps ∧
    clearPageRange fuel pgd vma [] = some (collected steps) ∧ IntoTables steps ∧
    ∀ pfn ∈ collected steps, ∃ addr pte, pageSize ∣ addr ∧ vma.vmStart ≤ addr ∧
      addr < vma.vmEnd ∧ pgdAt pgd addr = some pte ∧ ptePresent pte ∧ ptePfn pte = pfn

/-- On the way to an address the entry of a table is empty, or leads to a table that is as
required. -/
def cleanEntry {Table : Type} (size : Nat) (below : Table → Nat → Prop)
    (table : Nat → Entry Table) (addr : Nat) : Prop :=
  match table (entryIndex size addr) with
  | .none => True
  | .table next => below next addr
  | .huge _ => False
  | .absent _ => False

/-- Below a page middle directory. -/
def pmdClean : PmdTable → Nat → Prop := cleanEntry pmdSize fun _ _ => True

/-- Below a page upper directory. -/
def pudClean : PudTable → Nat → Prop := cleanEntry pudSize pmdClean

/-- The way to an address meets no huge page and no bad entry. -/
def pgdClean : PgdTable → Nat → Prop := cleanEntry pgdirSize pudClean

/-! ## Clean entries -/

section Clean

variable {Table : Type} {size addr page next stop : Nat} {below : Table → Nat → Prop}
  {table : Nat → Entry Table}

theorem cleanEntry_none (empty : (table (entryIndex size addr)).follow = none) :
    cleanEntry size below table addr := by
  rw [cleanEntry]
  cases entry : table (entryIndex size addr) with
  | none => trivial
  | table next =>
      rw [entry] at empty
      cases empty
  | huge frame =>
      rw [entry] at empty
      cases empty
  | absent frame =>
      rw [entry] at empty
      cases empty

theorem cleanEntry_some {inner : Table}
    (leads : (table (entryIndex size addr)).follow = some inner) :
    cleanEntry size below table addr ↔
      (table (entryIndex size addr)).kind = .table ∧ below inner addr := by
  rw [cleanEntry]
  cases entry : table (entryIndex size addr) with
  | none =>
      rw [entry] at leads
      cases leads
  | table next =>
      rw [entry] at leads
      cases leads
      exact (and_iff_right rfl).symm
  | huge frame => exact ⟨False.elim, fun both => nomatch both.1⟩
  | absent frame => exact ⟨False.elim, fun both => nomatch both.1⟩

/-- On a clean way the walk reads what is mapped. -/
theorem readEntry_of_clean {look read : Table → Nat → Option Pte}
    (inner : ∀ next, below next addr → read next addr = look next addr)
    (clean : cleanEntry size below table addr) :
    readEntry size read table addr = lookEntry size look table addr := by
  rw [cleanEntry] at clean
  rw [readEntry, lookEntry]
  cases entry : table (entryIndex size addr) with
  | none => rfl
  | table next =>
      rw [entry] at clean
      exact inner next clean
  | huge frame =>
      rw [entry] at clean
      exact clean.elim
  | absent frame =>
      rw [entry] at clean
      exact clean.elim

end Clean

theorem pgdRead_of_clean {pgd : PgdTable} {addr : Nat} (clean : pgdClean pgd addr) :
    pgdRead pgd addr = pgdAt pgd addr :=
  readEntry_of_clean (fun _ => readEntry_of_clean fun _ => readEntry_of_clean fun _ _ => rfl) clean

/-! ## Where the loops descend -/

theorem intoTables_append (first second : List WalkStep) :
    IntoTables (first ++ second) ↔ IntoTables first ∧ IntoTables second :=
  List.forall_mem_append

theorem intoTables_pteSteps (pte : Pte) : IntoTables (pteSteps pte) := by
  intro step listed
  have collects : ∃ pfn, step = .collect pfn := by
    rw [pteSteps] at listed
    split at listed
    · cases listed
    · split at listed
      · exact ⟨_, List.mem_singleton.mp listed⟩
      · cases listed
  rcases collects with ⟨pfn, rfl⟩
  trivial

/-- A walk of a part of a table goes down into tables only just when the ways to its pages are
as required. -/
def Descends {Table : Type} (span : Nat) (clean : Table → Nat → Prop) (walk : StepWalk Table) :
    Prop :=
  ∀ fuel table start stop, Part span start stop → ∀ steps result,
    walk fuel table start stop steps = some result → result.1 = stop ∧
      (IntoTables result.2 ↔ IntoTables steps ∧ ∀ page ∈ pagesIn start stop, clean table page)

theorem descends_stepPteRange :
    Descends (ptrsPerTable * pageSize) (fun _ _ => True) stepPteRange := by
  intro fuel ptes start stop part steps result walk
  rcases Option.map_eq_some_iff.mp walk with ⟨final, loop, rfl⟩
  have post : final.addr = stop ∧ (IntoTables final.steps ↔ IntoTables steps) := by
    apply doWhile_post (fun cursor => IntoTables cursor.steps ↔ IntoTables steps)
      (fun cursor => cursor.addr = stop ∧ (IntoTables cursor.steps ↔ IntoTables steps))
      _ Iff.rfl loop
    intro cursor next here step
    cases step
    have same : IntoTables (cursor.steps ++ pteSteps (ptes (entryIndex pageSize cursor.addr))) ↔
        IntoTables steps := by
      rw [intoTables_append, and_iff_left (intoTables_pteSteps _), here]
    exact ⟨fun _ => same, fun done => ⟨by simpa using done, same⟩⟩
  exact ⟨post.1, post.2.trans (and_iff_left fun _ _ => trivial).symm⟩

section Entry

variable {Table : Type} {level : Level} {size fuel start stop : Nat}
  {clean : Table → Nat → Prop} {walk : StepWalk Table} {table : Nat → Entry Table}

/-- What a loop over the entries of a table keeps. -/
structure DescendsTo (size : Nat) (clean : Table → Nat → Prop) (table : Nat → Entry Table)
    (start stop : Nat) (steps : List WalkStep) (cursor : StepCursor) : Prop where
  low : start ≤ cursor.addr
  high : cursor.addr < stop
  aligned : pageSize ∣ cursor.addr
  entry : cursor.entry = entryIndex size cursor.addr
  steps : IntoTables cursor.steps ↔ IntoTables steps ∧
    ∀ page ∈ pagesIn start cursor.addr, cleanEntry size clean table page

/-- The pages up to the next address. -/
theorem clean_next {addr next : Nat} (step : Next size addr stop next)
    (aligned : pageSize ∣ addr) :
    (∀ page ∈ pagesIn addr next, cleanEntry size clean table page) ↔
      ∀ inner, (table (entryIndex size addr)).follow = some inner →
        (table (entryIndex size addr)).kind = .table ∧
          ∀ page ∈ pagesIn addr next, clean inner page := by
  have same : ∀ page ∈ pagesIn addr next, entryIndex size page = entryIndex size addr := by
    intro page listed
    have place := (mem_pagesIn aligned step.aligned).mp listed
    exact step.entryIndex_eq place.2.1 place.2.2
  have first : addr ∈ pagesIn addr next :=
    (mem_pagesIn aligned step.aligned).mpr ⟨aligned, le_refl _, step.later⟩
  constructor
  · intro all inner leads
    refine ⟨((cleanEntry_some leads).mp (all addr first)).1, ?_⟩
    intro page listed
    have here := leads
    rw [← same page listed] at here
    exact ((cleanEntry_some here).mp (all page listed)).2
  · intro all page listed
    cases follow : (table (entryIndex size page)).follow with
    | none => exact cleanEntry_none follow
    | some inner =>
        rw [cleanEntry_some follow, same page listed]
        rw [same page listed] at follow
        exact ⟨(all inner follow).1, (all inner follow).2 page listed⟩

/-- One round goes down into a table just when the ways to its pages are clean. -/
theorem stepEntryRound_post (inner : Descends size clean walk) {steps : List WalkStep}
    {cursor next : StepCursor} (here : DescendsTo size clean table start stop steps cursor)
    (start_aligned : pageSize ∣ start)
    (step : Next size cursor.addr stop (addrEnd size cursor.addr stop))
    (inside : Part size cursor.addr (addrEnd size cursor.addr stop))
    (round : stepEntryRound level size walk fuel table stop cursor = some next) :
    next.addr = addrEnd size cursor.addr stop ∧ next.entry = cursor.entry + 1 ∧
      (IntoTables next.steps ↔ IntoTables steps ∧
        ∀ page ∈ pagesIn start next.addr, cleanEntry size clean table page) := by
  have split := pagesIn_append here.low (Nat.le_of_lt step.later) start_aligned here.aligned
  have pages : (∀ page ∈ pagesIn cursor.addr (addrEnd size cursor.addr stop),
      cleanEntry size clean table page) ↔ _ := clean_next step here.aligned
  rw [← here.entry] at pages
  rw [stepEntryRound] at round
  cases follow : (table cursor.entry).follow with
  | none =>
      simp only [follow] at round
      cases round
      refine ⟨rfl, rfl, ?_⟩
      rw [split, List.forall_mem_append, ← and_assoc, ← here.steps, pages]
      refine (and_iff_left ?_).symm
      intro below leads
      rw [follow] at leads
      cases leads
  | some below =>
      simp only [follow] at round
      rcases Option.map_eq_some_iff.mp round with ⟨result, walked, rfl⟩
      have lower := inner fuel below cursor.addr _ inside _ result walked
      have down : IntoTables [.descend level cursor.addr (table cursor.entry).kind] ↔
          (table cursor.entry).kind = .table := by
        rw [IntoTables, List.forall_mem_singleton]
        rfl
      refine ⟨lower.1, rfl, ?_⟩
      show IntoTables result.2 ↔ IntoTables steps ∧
        ∀ page ∈ pagesIn start result.1, cleanEntry size clean table page
      rw [lower.1, lower.2, intoTables_append, down, split, List.forall_mem_append, ← and_assoc,
        ← here.steps, pages, and_assoc]
      apply and_congr_right
      intro _
      constructor
      · intro both inner leads
        rw [follow] at leads
        cases leads
        exact both
      · intro all
        exact all below follow

/-- A level descends into tables only if the level below does. -/
theorem descends_stepEntries (level : Level) (positive : 0 < size) (whole : pageSize ∣ size)
    (inner : Descends size clean walk) :
    Descends (ptrsPerTable * size) (cleanEntry size clean) (stepEntries level size walk) := by
  intro fuel table start stop part steps result walked
  rcases Option.map_eq_some_iff.mp walked with ⟨final, loop, rfl⟩
  apply doWhile_post (DescendsTo size clean table start stop steps)
    (fun cursor => cursor.addr = stop ∧ (IntoTables cursor.steps ↔ IntoTables steps ∧
      ∀ page ∈ pagesIn start stop, cleanEntry size clean table page)) _ _ loop
  · intro cursor next here round
    have step := addrEnd_next positive whole part.aligned.2 here.high
    have post := stepEntryRound_post inner here part.aligned.1 step
      (step.part part here.aligned) round
    constructor
    · intro again
      have other : next.addr ≠ stop := by simpa using again
      rw [post.1] at other
      refine ⟨?_, ?_, ?_, ?_, post.2.2⟩
      · rw [post.1]
        exact here.low.trans (Nat.le_of_lt step.later)
      · rw [post.1]
        exact Nat.lt_of_le_of_ne step.within other
      · rw [post.1]
        exact step.aligned
      · rw [post.1, post.2.1, here.entry]
        exact (step.entryIndex part here.low other).symm
    · intro done
      have last : next.addr = stop := by simpa using done
      have frames := post.2.2
      rw [last] at frames
      exact ⟨last, frames⟩
  · refine ⟨le_refl _, part.nonempty, part.aligned.1, rfl, ?_⟩
    have none : pagesIn start start = [] := by
      rw [pagesIn, Nat.sub_self, Nat.zero_div]
      rfl
    show IntoTables steps ↔ IntoTables steps ∧ ∀ page ∈ pagesIn start start, _
    rw [none]
    exact (and_iff_left fun _ listed => absurd listed List.not_mem_nil).symm

end Entry

/-! ## The theorem -/

/-- The whole walk goes down into tables only just when the ways to its pages are clean. -/
theorem stepPageRange_intoTables {fuel : Nat} {pgd : PgdTable} {vma : Vma}
    {steps : List WalkStep} (walk : stepPageRange fuel pgd vma = some steps) :
    IntoTables steps ↔ ∀ page ∈ pagesIn vma.vmStart vma.vmEnd, pgdClean pgd page := by
  have pmd : Descends (ptrsPerTable * pmdSize) pmdClean stepPmdRange :=
    descends_stepEntries .pmd (by decide) (by decide) descends_stepPteRange
  have pud : Descends (ptrsPerTable * pudSize) pudClean stepPudRange :=
    descends_stepEntries .pud (by decide) (by decide) pmd
  have all : Descends (ptrsPerTable * pgdirSize) pgdClean
      (stepEntries .pgd pgdirSize stepPudRange) :=
    descends_stepEntries .pgd (by decide) (by decide) pud
  rcases Option.map_eq_some_iff.mp walk with ⟨result, whole, rfl⟩
  have post := (all fuel pgd vma.vmStart vma.vmEnd vma.part [] result whole).2
  rw [post]
  exact and_iff_right fun _ listed => absurd listed List.not_mem_nil

/-- The walk returns. -/
theorem exists_stepPageRange {fuel : Nat} (enough : ptrsPerTable ≤ fuel) (pgd : PgdTable)
    (vma : Vma) :
    ∃ steps, stepPageRange fuel pgd vma = some steps ∧
      collected steps = framesIn (pgdRead pgd) vma.vmStart vma.vmEnd := by
  have plain := clearPageRange_eq enough pgd vma []
  rw [clearPageRange_stepPageRange] at plain
  rcases Option.map_eq_some_iff.mp plain with ⟨steps, walk, frames⟩
  exact ⟨steps, walk, frames⟩

/-- On clean ways only mapped frames are reported. -/
theorem mapped_of_clean {pgd : PgdTable} {vma : Vma}
    (clean : ∀ page ∈ pagesIn vma.vmStart vma.vmEnd, pgdClean pgd page) {pfn : Nat}
    (reported : pfn ∈ framesIn (pgdRead pgd) vma.vmStart vma.vmEnd) :
    ∃ addr pte, pageSize ∣ addr ∧ vma.vmStart ≤ addr ∧ addr < vma.vmEnd ∧
      pgdAt pgd addr = some pte ∧ ptePresent pte ∧ ptePfn pte = pfn := by
  rw [framesIn_congr fun page listed => pgdRead_of_clean (clean page listed), framesIn_eq_map]
    at reported
  rcases List.mem_map.mp reported with ⟨⟨addr, pte⟩, listed, frame⟩
  have page := (mem_accessedIn vma.aligned.1 vma.aligned.2).mp listed
  exact ⟨addr, pte, page.1, page.2.1, page.2.2.1, page.2.2.2.1, page.2.2.2.2.1, frame⟩

/-- **Where the walk descends.** It stays in the tables just when the ways to the pages of
the area meet no huge page and no bad entry. -/
theorem staysInTables_iff (fuel : Nat) (enough : ptrsPerTable ≤ fuel) (pgd : PgdTable)
    (vma : Vma) :
    StaysInTables fuel pgd vma ↔
      ∀ addr, pageSize ∣ addr → vma.vmStart ≤ addr → addr < vma.vmEnd → pgdClean pgd addr := by
  have pages : (∀ page ∈ pagesIn vma.vmStart vma.vmEnd, pgdClean pgd page) ↔
      ∀ addr, pageSize ∣ addr → vma.vmStart ≤ addr → addr < vma.vmEnd → pgdClean pgd addr := by
    simp only [mem_pagesIn vma.aligned.1 vma.aligned.2, and_imp]
  rw [← pages]
  constructor
  · rintro ⟨steps, walk, _, tables, _⟩
    exact (stepPageRange_intoTables walk).mp tables
  · intro clean
    rcases exists_stepPageRange enough pgd vma with ⟨steps, walk, frames⟩
    refine ⟨steps, walk, ?_, (stepPageRange_intoTables walk).mpr clean, ?_⟩
    · rw [clearPageRange_stepPageRange, walk]
      rfl
    · intro pfn reported
      rw [frames] at reported
      exact mapped_of_clean clean reported

/-- A page table with a page, and a huge page outside the area around the boundary. -/
def hugeBeyond (pte : Pte) : PgdTable :=
  onlyFirst (onlyFirst fun index =>
    if index = 0 then .table fun index => if index = 511 then pte else 0
    else if index = 7 then .huge fun _ => 0x5021
    else .none)

theorem staysInTables_hugeBeyond :
    StaysInTables 512 (hugeBeyond 0x5021) aroundBoundary := by
  apply (staysInTables_iff 512 (le_refl _) (hugeBeyond 0x5021) aroundBoundary).mpr
  intro addr aligned low high
  have place : addr = 0x1ff000 ∨ addr = 0x200000 := by
    rcases aligned with ⟨page, rfl⟩
    have start : aroundBoundary.vmStart = 0x1ff000 := rfl
    have stop : aroundBoundary.vmEnd = 0x201000 := rfl
    rw [start] at low
    rw [stop] at high
    unfold pageSize at *
    omega
  rcases place with rfl | rfl <;> exact trivial

/-- A page table that maps one huge page, whose memory holds the word. -/
def hugePage (word : Pte) : PgdTable :=
  onlyFirst (onlyFirst fun index => if index = 0 then .huge fun _ => word else .none)

theorem lookEntry_onlyFirst {Table : Type} {size : Nat} {look : Table → Nat → Option Pte}
    {next : Table} {addr : Nat} (below : look next addr = none) :
    lookEntry size look (onlyFirst next) addr = none := by
  rw [lookEntry, onlyFirst]
  by_cases first : entryIndex size addr = 0
  · rw [if_pos first]
    exact below
  · rw [if_neg first]

theorem pgdAt_hugePage (word : Pte) (addr : Nat) : pgdAt (hugePage word) addr = none := by
  apply lookEntry_onlyFirst
  apply lookEntry_onlyFirst
  rw [pmdAt, lookEntry]
  by_cases first : entryIndex pmdSize addr = 0
  · rw [if_pos first]
  · rw [if_neg first]

/-- The walk reads the memory of a huge page as a table, and reports frame 5 from it. -/
theorem not_staysInTables_hugePage :
    stepPageRange 512 (hugePage 0x5021) aroundBoundary =
        some [.descend .pgd 0x1ff000 .table, .descend .pud 0x1ff000 .table,
          .descend .pmd 0x1ff000 .huge, .collect 5] ∧
      (∀ addr, pgdAt (hugePage 0x5021) addr = none) ∧
      ¬ StaysInTables 512 (hugePage 0x5021) aroundBoundary := by
  have walk : stepPageRange 512 (hugePage 0x5021) aroundBoundary =
      some [.descend .pgd 0x1ff000 .table, .descend .pud 0x1ff000 .table,
        .descend .pmd 0x1ff000 .huge, .collect 5] := by
    decide +kernel
  refine ⟨walk, pgdAt_hugePage _, ?_⟩
  rintro ⟨steps, same, _, tables, _⟩
  rw [walk] at same
  cases same
  have huge := tables (.descend .pmd 0x1ff000 .huge) (by decide)
  cases huge

end NvmEmulator.Migrate
