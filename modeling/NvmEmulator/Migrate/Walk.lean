/-
# The page table walk

`clear_page_range` and the functions under it, down to `clear_pte_range`, which passes
the frame of each page accessed to `collect_statistics`. The walk is embedded with the
loops of the source, each a `do … while` over an address; the theorem at the end says
what it reports for every page table without huge pages and bad entries.
-/

import Mathlib.Data.Nat.Basic
import Mathlib.Tactic.Common
import NvmEmulator.Migrate.PageTable
import NvmEmulator.Semantics.Loop

namespace NvmEmulator.Migrate

open NvmEmulator.Semantics

/-! ## The functions -/

/-- The state of a loop: the entry the pointer is at, `addr`, and the frames that
`collect_statistics` was called with so far. -/
structure Cursor where
  entry : Nat
  addr : Nat
  reported : List Nat

/-- What a walk of a part of the table returns, its address and the frames reported; `none`
if its loops need more than `fuel` rounds. -/
abbrev Walk (Table : Type) :=
  (fuel : Nat) → Table → (addr stop : Nat) → (reported : List Nat) → Option (Nat × List Nat)

/-- What one entry adds to the frames reported. The flags are cleared in the local copy
`ptecont`, or rather in the value that `pte_clear_flags` returns, which is dropped. -/
def reportPte (ptecont : Pte) (reported : List Nat) : List Nat :=
  if pteNone ptecont then reported
  else if ptePresent ptecont && pteYoung ptecont then
    let _ := pteClearFlags ptecont pageAccessed
    reported ++ [ptePfn ptecont]
  else reported

/-- A round of `clear_pte_range`, which computes `pte` from `addr` each time. -/
def pteRound (ptes : PteTable) (cursor : Cursor) : Option Cursor :=
  let pte := entryIndex pageSize cursor.addr
  some
    { entry := pte + 1
      addr := (cursor.addr + pageSize) % 2 ^ 64
      reported := reportPte (ptes pte) cursor.reported }

/-- `clear_pte_range` -/
def clearPteRange : Walk PteTable := fun fuel ptes addr stop reported =>
  (doWhile (pteRound ptes) (fun cursor => cursor.addr != stop) fuel
    ⟨entryIndex pageSize addr, addr, reported⟩).map fun cursor => (cursor.addr, cursor.reported)

/-- A round of the loops over the upper levels: walk what the entry leads to, unless it is
empty. -/
def entryRound {Table : Type} (size : Nat) (walk : Walk Table) (fuel : Nat)
    (table : Nat → Entry Table) (stop : Nat) (cursor : Cursor) : Option Cursor :=
  let next := addrEnd size cursor.addr stop
  match (table cursor.entry).follow with
  | none => some { entry := cursor.entry + 1, addr := next, reported := cursor.reported }
  | some below =>
      (walk fuel below cursor.addr next cursor.reported).map fun result =>
        { entry := cursor.entry + 1, addr := result.1, reported := result.2 }

/-- The three functions over the upper levels. -/
def clearEntries {Table : Type} (size : Nat) (walk : Walk Table) : Walk (Nat → Entry Table) :=
  fun fuel table addr stop reported =>
    (doWhile (entryRound size walk fuel table stop) (fun cursor => cursor.addr != stop) fuel
      ⟨entryIndex size addr, addr, reported⟩).map fun cursor => (cursor.addr, cursor.reported)

/-- `clear_pmd_range` -/
def clearPmdRange : Walk PmdTable := clearEntries pmdSize clearPteRange

/-- `clear_pud_range` -/
def clearPudRange : Walk PudTable := clearEntries pudSize clearPmdRange

/-- `clear_page_range`, for the table `vma->vm_mm->pgd` -/
def clearPageRange (fuel : Nat) (pgd : PgdTable) (vma : Vma) (reported : List Nat) :
    Option (List Nat) :=
  (clearEntries pgdirSize clearPudRange fuel pgd vma.vmStart vma.vmEnd reported).map Prod.snd

/-! ## What the walk is to report -/

/-- An entry that is present and has the accessed bit set. -/
def accessed (pte : Pte) : Bool := ptePresent pte && pteYoung pte

/-- The frame to report for an address. -/
def frameAt (look : Nat → Option Pte) (addr : Nat) : Option Nat :=
  ((look addr).filter accessed).map ptePfn

/-- The frames to report for the pages from one address to another. -/
def framesIn (look : Nat → Option Pte) (start stop : Nat) : List Nat :=
  (pagesIn start stop).filterMap (frameAt look)

/-- A part of the addresses that one table spans. -/
structure Part (span start stop : Nat) : Prop where
  nonempty : start < stop
  aligned : pageSize ∣ start ∧ pageSize ∣ stop
  bounded : stop < 2 ^ 64
  oneTable : start / span = (stop - 1) / span

/-- A walk of any part of a table reports what it is to report, with 512 rounds for each
loop. -/
def Reports {Table : Type} (span : Nat) (read : Table → Nat → Option Pte) (walk : Walk Table) :
    Prop :=
  ∀ fuel ≥ ptrsPerTable, ∀ table start stop, Part span start stop → ∀ reported,
    walk fuel table start stop reported =
      some (stop, reported ++ framesIn (read table) start stop)

/-! ## Pages and parts -/

theorem pagesIn_append {start middle stop : Nat} (first : start ≤ middle) (second : middle ≤ stop)
    (start_aligned : pageSize ∣ start) (middle_aligned : pageSize ∣ middle) :
    pagesIn start stop = pagesIn start middle ++ pagesIn middle stop := by
  rcases start_aligned with ⟨m, rfl⟩
  rcases middle_aligned with ⟨n, rfl⟩
  have positive : 0 < pageSize := by decide
  have pages : m ≤ n := Nat.le_of_mul_le_mul_left first positive
  have here : (pageSize * n - pageSize * m) / pageSize = n - m := by
    rw [← Nat.mul_sub, Nat.mul_div_cancel_left _ positive]
  have total : (stop - pageSize * m) / pageSize = n - m + (stop - pageSize * n) / pageSize := by
    have whole : stop - pageSize * m = pageSize * (n - m) + (stop - pageSize * n) := by
      rw [Nat.mul_sub]
      omega
    rw [whole, Nat.mul_add_div positive]
  have place : pageSize * n = pageSize * m + pageSize * (n - m) := by
    rw [← Nat.mul_add]
    congr 1
    omega
  rw [pagesIn, pagesIn, pagesIn, here, total, ← List.range'_append, ← place]

theorem framesIn_append {look : Nat → Option Pte} {start middle stop : Nat}
    (first : start ≤ middle) (second : middle ≤ stop) (start_aligned : pageSize ∣ start)
    (middle_aligned : pageSize ∣ middle) :
    framesIn look start stop = framesIn look start middle ++ framesIn look middle stop := by
  rw [framesIn, pagesIn_append first second start_aligned middle_aligned, List.filterMap_append]
  rfl

theorem mem_pagesIn {start stop addr : Nat} (start_aligned : pageSize ∣ start)
    (stop_aligned : pageSize ∣ stop) :
    addr ∈ pagesIn start stop ↔ pageSize ∣ addr ∧ start ≤ addr ∧ addr < stop := by
  rcases start_aligned with ⟨m, rfl⟩
  rcases stop_aligned with ⟨n, rfl⟩
  have positive : 0 < pageSize := by decide
  have count : (pageSize * n - pageSize * m) / pageSize = n - m := by
    rw [← Nat.mul_sub, Nat.mul_div_cancel_left _ positive]
  rw [pagesIn, count, List.mem_range']
  constructor
  · rintro ⟨i, bound, rfl⟩
    have place : pageSize * m + pageSize * i = pageSize * (m + i) := (Nat.mul_add _ _ _).symm
    rw [place]
    exact ⟨Nat.dvd_mul_right _ _, Nat.mul_le_mul_left _ (by omega),
      Nat.mul_lt_mul_of_pos_left (by omega) positive⟩
  · rintro ⟨⟨k, rfl⟩, low, high⟩
    have after := Nat.le_of_mul_le_mul_left low positive
    have before := Nat.lt_of_mul_lt_mul_left high
    refine ⟨k - m, by omega, ?_⟩
    rw [← Nat.mul_add]
    congr 1
    omega

/-- Frames depend on the entries of the pages only. -/
theorem framesIn_congr {look look' : Nat → Option Pte} {start stop : Nat}
    (same : ∀ addr ∈ pagesIn start stop, look addr = look' addr) :
    framesIn look start stop = framesIn look' start stop := by
  apply List.filterMap_congr
  intro addr listed
  rw [frameAt, frameAt, same addr listed]

/-! ## The last level -/

theorem reportPte_eq (pte : Pte) (reported : List Nat) :
    reportPte pte reported =
      reported ++ ((Option.filter accessed (some pte)).map ptePfn).toList := by
  rw [reportPte]
  by_cases none : pteNone pte
  · have empty : pte = 0 := by simpa [pteNone] using none
    have clear : ¬ accessed pte := by
      rw [empty]
      decide
    rw [if_pos none, Option.filter_some, if_neg clear]
    exact (List.append_nil _).symm
  · rw [if_neg none, Option.filter_some]
    by_cases here : accessed pte
    · rw [if_pos here]
      exact if_pos here
    · rw [if_neg here]
      exact (if_neg here).trans (List.append_nil _).symm

/-- The frame of one page. -/
theorem framesIn_page (look : Nat → Option Pte) (addr : Nat) :
    framesIn look addr (addr + pageSize) = (frameAt look addr).toList := by
  have one : pagesIn addr (addr + pageSize) = [addr] := by
    rw [pagesIn, Nat.add_sub_cancel_left, Nat.div_self (by decide)]
    rfl
  rw [framesIn, one, List.filterMap_cons, List.filterMap_nil]
  cases frameAt look addr <;> rfl

theorem framesIn_self (look : Nat → Option Pte) (addr : Nat) : framesIn look addr addr = [] := by
  rw [framesIn, pagesIn, Nat.sub_self, Nat.zero_div]
  rfl

theorem add_pageSize_le {addr stop : Nat} (addr_aligned : pageSize ∣ addr)
    (stop_aligned : pageSize ∣ stop) (before : addr < stop) : addr + pageSize ≤ stop := by
  rcases addr_aligned with ⟨m, rfl⟩
  rcases stop_aligned with ⟨n, rfl⟩
  have less := Nat.lt_of_mul_lt_mul_left before
  have next : pageSize * (m + 1) ≤ pageSize * n := Nat.mul_le_mul_left _ less
  rwa [Nat.mul_succ] at next

/-! ## Rounds -/

/-- What a loop over the entries of a table keeps: the pages before `addr` are reported. -/
structure Rounds (look : Nat → Option Pte) (start stop : Nat) (reported : List Nat)
    (cursor : Cursor) : Prop where
  low : start ≤ cursor.addr
  high : cursor.addr < stop
  aligned : pageSize ∣ cursor.addr
  reported : cursor.reported = reported ++ framesIn look start cursor.addr

/-- What it leaves. -/
def Done (look : Nat → Option Pte) (start stop : Nat) (reported : List Nat) (cursor : Cursor) :
    Prop :=
  cursor.addr = stop ∧ cursor.reported = reported ++ framesIn look start stop

theorem Rounds.start {look : Nat → Option Pte} {span start stop : Nat}
    (part : Part span start stop) (entry : Nat) (reported : List Nat) :
    Rounds look start stop reported ⟨entry, start, reported⟩ := by
  refine ⟨le_refl start, part.nonempty, part.aligned.1, ?_⟩
  rw [framesIn_self, List.append_nil]

/-- A round that reports the pages up to the next address. -/
theorem Rounds.extend {look : Nat → Option Pte} {start stop addr : Nat} {reported more : List Nat}
    {cursor : Cursor} (here : Rounds look start stop reported cursor)
    (start_aligned : pageSize ∣ start) (later : cursor.addr ≤ addr)
    (frames : more = framesIn look cursor.addr addr) :
    cursor.reported ++ more = reported ++ framesIn look start addr := by
  rw [here.reported, frames, List.append_assoc,
    ← framesIn_append here.low later start_aligned here.aligned]

/-- The rounds still to come, with entries of the given size. -/
def roundsLeft (size stop : Nat) (cursor : Cursor) : Nat :=
  (stop - 1) / size - cursor.addr / size + 1

theorem roundsLeft_lt {size stop : Nat} {cursor next : Cursor}
    (step : next.addr / size = cursor.addr / size + 1) (before : next.addr < stop) :
    roundsLeft size stop next < roundsLeft size stop cursor := by
  have bound : next.addr / size ≤ (stop - 1) / size := Nat.div_le_div_right (by omega)
  rw [roundsLeft, roundsLeft, step]
  omega

/-- The entries of a part lie in one table. -/
theorem Part.sameTable {size start stop : Nat} (part : Part (ptrsPerTable * size) start stop) :
    start / size / ptrsPerTable = (stop - 1) / size / ptrsPerTable := by
  rw [Nat.div_div_eq_div_mul, Nat.div_div_eq_div_mul, Nat.mul_comm]
  exact part.oneTable

theorem roundsLeft_le {size start stop : Nat} (part : Part (ptrsPerTable * size) start stop)
    (entry : Nat) (reported : List Nat) :
    roundsLeft size stop ⟨entry, start, reported⟩ ≤ ptrsPerTable := by
  have same := part.sameTable
  show (stop - 1) / size - start / size + 1 ≤ ptrsPerTable
  unfold ptrsPerTable at *
  omega

/-- The loop over one table: if every round takes the next entry, and reports what is to be
reported up to it, then the loop returns with everything reported. -/
theorem exists_rounds {look : Nat → Option Pte} {size start stop fuel : Nat}
    {reported : List Nat} {body : Cursor → Option Cursor} (extra : Cursor → Prop)
    (part : Part (ptrsPerTable * size) start stop) (enough : ptrsPerTable ≤ fuel)
    (round : ∀ cursor, Rounds look start stop reported cursor → extra cursor →
      ∃ next, body cursor = some next ∧ cursor.addr < next.addr ∧ next.addr ≤ stop ∧
        pageSize ∣ next.addr ∧ next.reported = reported ++ framesIn look start next.addr ∧
        (next.addr ≠ stop → next.addr / size = cursor.addr / size + 1 ∧ extra next))
    (entry : Nat) (first : extra ⟨entry, start, reported⟩) :
    ∃ final, doWhile body (fun cursor => cursor.addr != stop) fuel ⟨entry, start, reported⟩ =
      some final ∧ Done look start stop reported final := by
  apply exists_doWhile (fun cursor => Rounds look start stop reported cursor ∧ extra cursor)
    (Done look start stop reported) (roundsLeft size stop)
  · intro cursor here
    exact Nat.succ_pos _
  · intro cursor here
    rcases round cursor here.1 here.2 with ⟨next, step, later, within, aligned, frames, more⟩
    refine ⟨next, step, ?_, ?_⟩
    · intro again
      have other : next.addr ≠ stop := by simpa using again
      have before : next.addr < stop := by omega
      have low := here.1.low
      have low' : start ≤ next.addr := by omega
      exact ⟨⟨⟨low', before, aligned, frames⟩, (more other).2⟩,
        roundsLeft_lt (more other).1 before⟩
    · intro done
      have last : next.addr = stop := by simpa using done
      rw [last] at frames
      exact ⟨last, frames⟩
  · exact ⟨Rounds.start part entry reported, first⟩
  · exact (roundsLeft_le part entry reported).trans enough

/-! ## The last level -/

/-- One round reports one page more. -/
theorem Rounds.pteRound {ptes : PteTable} {span start stop : Nat} {reported : List Nat}
    {cursor : Cursor} (here : Rounds (pteAt ptes) start stop reported cursor)
    (part : Part span start stop) :
    pteRound ptes cursor = some
      { entry := entryIndex pageSize cursor.addr + 1
        addr := cursor.addr + pageSize
        reported := reported ++ framesIn (pteAt ptes) start (cursor.addr + pageSize) } := by
  have room := add_pageSize_le here.aligned part.aligned.2 here.high
  have small : cursor.addr + pageSize < 2 ^ 64 := Nat.lt_of_le_of_lt room part.bounded
  rw [Migrate.pteRound, Nat.mod_eq_of_lt small, reportPte_eq,
    here.extend part.aligned.1 (Nat.le_add_right _ _)]
  rw [framesIn_page]
  rfl

theorem clearPteRange_reports :
    Reports (ptrsPerTable * pageSize) pteAt clearPteRange := by
  intro fuel enough ptes start stop part reported
  have loop : ∃ final, doWhile (pteRound ptes) (fun cursor => cursor.addr != stop) fuel
      ⟨entryIndex pageSize start, start, reported⟩ = some final ∧
        Done (pteAt ptes) start stop reported final := by
    apply exists_rounds (fun _ => True) part enough
    · intro cursor here _
      have positive : 0 < pageSize := by decide
      refine ⟨_, here.pteRound part, ?_, ?_, ?_, rfl, ?_⟩
      · exact Nat.lt_add_of_pos_right positive
      · exact add_pageSize_le here.aligned part.aligned.2 here.high
      · exact Nat.dvd_add here.aligned (dvd_refl _)
      · intro _
        exact ⟨Nat.add_div_right _ positive, trivial⟩
    · trivial
  rcases loop with ⟨final, run, addr, frames⟩
  rw [clearPteRange, run, Option.map_some, addr, frames]

/-! ## The upper levels -/

/-- The next address of a round over entries of the given size. -/
structure Next (size addr stop next : Nat) : Prop where
  later : addr < next
  within : next ≤ stop
  aligned : pageSize ∣ next
  sameEntry : addr / size = (next - 1) / size
  boundary : next ≠ stop → next / size = addr / size + 1

theorem addrEnd_next {size addr stop : Nat} (positive : 0 < size) (whole : pageSize ∣ size)
    (aligned : pageSize ∣ stop) (before : addr < stop) :
    Next size addr stop (addrEnd size addr stop) := by
  have below : addr < (addr / size + 1) * size := by
    rw [Nat.succ_mul]
    exact Nat.lt_div_mul_add positive
  have floor := Nat.div_mul_le_self addr size
  have multiple : pageSize ∣ (addr / size + 1) * size := Nat.dvd_mul_left_of_dvd whole _
  have place : addr / size * size + size = (addr / size + 1) * size := (Nat.succ_mul _ _).symm
  have later : addr < addrEnd size addr stop := Nat.lt_min.mpr ⟨below, before⟩
  have capped : addrEnd size addr stop ≤ (addr / size + 1) * size := Nat.min_le_left _ _
  refine ⟨later, Nat.min_le_right _ _, ?_, ?_, ?_⟩
  · rw [addrEnd]
    rcases Nat.le_total ((addr / size + 1) * size) stop with first | first
    · rw [Nat.min_eq_left first]
      exact multiple
    · rw [Nat.min_eq_right first]
      exact aligned
  · symm
    apply Nat.div_eq_of_lt_le
    · omega
    · omega
  · intro other
    have first : addrEnd size addr stop = (addr / size + 1) * size := by
      rw [addrEnd] at other ⊢
      omega
    rw [first, Nat.mul_div_cancel _ positive]

/-- The entry after an entry is the entry of the next address. -/
theorem Next.entryIndex {size start stop addr next : Nat} (step : Next size addr stop next)
    (part : Part (ptrsPerTable * size) start stop) (low : start ≤ addr) (other : next ≠ stop) :
    entryIndex size next = entryIndex size addr + 1 := by
  have same := part.sameTable
  have after := step.boundary other
  have within := step.within
  have from_start : start / size ≤ addr / size := Nat.div_le_div_right low
  have to_stop : next / size ≤ (stop - 1) / size := Nat.div_le_div_right (by omega)
  rw [Migrate.entryIndex, Migrate.entryIndex]
  unfold ptrsPerTable at *
  omega

theorem Next.part {size start stop addr next : Nat} (step : Next size addr stop next)
    (part : Part (ptrsPerTable * size) start stop) (aligned : pageSize ∣ addr) :
    Part size addr next :=
  ⟨step.later, ⟨aligned, step.aligned⟩, Nat.lt_of_le_of_lt step.within part.bounded,
    step.sameEntry⟩

/-- The pages up to the next address belong to one entry. -/
theorem Next.entryIndex_eq {size addr stop next page : Nat} (step : Next size addr stop next)
    (low : addr ≤ page) (high : page < next) :
    Migrate.entryIndex size page = Migrate.entryIndex size addr := by
  have same := step.sameEntry
  have above : addr / size ≤ page / size := Nat.div_le_div_right low
  have below : page / size ≤ (next - 1) / size := Nat.div_le_div_right (by omega)
  have equal : page / size = addr / size := by omega
  rw [Migrate.entryIndex, Migrate.entryIndex, equal]

section Entry

variable {Table : Type} {size addr stop next : Nat} {read : Table → Nat → Option Pte}
  {table : Nat → Entry Table}

/-- An entry that leads nowhere has nothing to report. -/
theorem Next.framesIn_none (step : Next size addr stop next) (aligned : pageSize ∣ addr)
    (empty : (table (Migrate.entryIndex size addr)).follow = none) :
    framesIn (readEntry size read table) addr next = [] := by
  rw [framesIn, List.filterMap_eq_nil_iff]
  intro page listed
  have place := (mem_pagesIn aligned step.aligned).mp listed
  rw [frameAt, readEntry, step.entryIndex_eq place.2.1 place.2.2, empty]
  rfl

/-- An entry that leads to a table has what the table has to report. -/
theorem Next.framesIn_table (step : Next size addr stop next) (aligned : pageSize ∣ addr)
    {below : Table} (leads : (table (Migrate.entryIndex size addr)).follow = some below) :
    framesIn (readEntry size read table) addr next = framesIn (read below) addr next := by
  apply framesIn_congr
  intro page listed
  have place := (mem_pagesIn aligned step.aligned).mp listed
  rw [readEntry, step.entryIndex_eq place.2.1 place.2.2, leads]
  rfl

/-- One round reports the pages of one entry. -/
theorem entryRound_eq {walk : Walk Table} {fuel : Nat} (inner : Reports size read walk)
    (enough : ptrsPerTable ≤ fuel) (table : Nat → Entry Table)
    (step : Next size addr stop (addrEnd size addr stop))
    (inside : Part size addr (addrEnd size addr stop)) (reported : List Nat) :
    entryRound size walk fuel table stop ⟨entryIndex size addr, addr, reported⟩ = some
      { entry := entryIndex size addr + 1
        addr := addrEnd size addr stop
        reported :=
          reported ++ framesIn (readEntry size read table) addr (addrEnd size addr stop) } := by
  rw [entryRound]
  cases follow : (table (entryIndex size addr)).follow with
  | none =>
      rw [step.framesIn_none inside.aligned.1 follow, List.append_nil]
  | some below =>
      rw [step.framesIn_table inside.aligned.1 follow]
      show (walk fuel below addr (addrEnd size addr stop) reported).map _ = _
      rw [inner fuel enough below addr _ inside reported]
      rfl

end Entry

/-- A level reports what it is to report if the level below does. -/
theorem clearEntries_reports {Table : Type} {size : Nat} {walk : Walk Table}
    {read : Table → Nat → Option Pte} (positive : 0 < size) (whole : pageSize ∣ size)
    (inner : Reports size read walk) :
    Reports (ptrsPerTable * size) (readEntry size read) (clearEntries size walk) := by
  intro fuel enough table start stop part reported
  have loop : ∃ final, doWhile (entryRound size walk fuel table stop)
      (fun cursor => cursor.addr != stop) fuel ⟨entryIndex size start, start, reported⟩ =
        some final ∧ Done (readEntry size read table) start stop reported final := by
    apply exists_rounds (fun cursor => cursor.entry = entryIndex size cursor.addr) part enough
    · intro cursor here entry
      have step := addrEnd_next positive whole part.aligned.2 here.high
      have run :=
        entryRound_eq inner enough table step (step.part part here.aligned) cursor.reported
      rw [← entry] at run
      refine ⟨_, run, step.later, step.within, step.aligned, ?_, ?_⟩
      · exact here.extend part.aligned.1 (Nat.le_of_lt step.later) rfl
      · intro other
        have next := step.entryIndex part here.low other
        rw [← entry] at next
        exact ⟨step.boundary other, next.symm⟩
    · rfl
  rcases loop with ⟨final, run, addr, frames⟩
  rw [clearEntries, run, Option.map_some, addr, frames]

/-! ## The whole walk -/

theorem clearPmdRange_reports : Reports (ptrsPerTable * pmdSize) pmdRead clearPmdRange :=
  clearEntries_reports (by decide) (by decide) clearPteRange_reports

theorem clearPudRange_reports : Reports (ptrsPerTable * pudSize) pudRead clearPudRange :=
  clearEntries_reports (by decide) (by decide) clearPmdRange_reports

theorem clearPgdRange_reports : Reports (ptrsPerTable * pgdirSize) pgdRead
    (clearEntries pgdirSize clearPudRange) :=
  clearEntries_reports (by decide) (by decide) clearPudRange_reports

/-- The addresses of a virtual memory area are a part of a page table. -/
theorem Vma.part (vma : Vma) : Part (ptrsPerTable * pgdirSize) vma.vmStart vma.vmEnd :=
  ⟨vma.nonempty, vma.aligned, vma.bounded, vma.oneTable⟩

theorem clearPageRange_eq {fuel : Nat} (enough : ptrsPerTable ≤ fuel) (pgd : PgdTable)
    (vma : Vma) (reported : List Nat) :
    clearPageRange fuel pgd vma reported =
      some (reported ++ framesIn (pgdRead pgd) vma.vmStart vma.vmEnd) := by
  have walk := clearPgdRange_reports fuel enough pgd vma.vmStart vma.vmEnd vma.part reported
  rw [clearPageRange, walk]
  rfl

/-- The pages from one address to another that are present and accessed, each with its
entry. -/
def accessedIn (look : Nat → Option Pte) (start stop : Nat) : List (Nat × Pte) :=
  (pagesIn start stop).filterMap fun addr =>
    ((look addr).filter accessed).map fun pte => (addr, pte)

theorem framesIn_eq_map (look : Nat → Option Pte) (start stop : Nat) :
    framesIn look start stop = (accessedIn look start stop).map fun page => ptePfn page.2 := by
  rw [accessedIn, List.map_filterMap, framesIn]
  apply List.filterMap_congr
  intro addr _
  rw [frameAt, Option.map_map]
  rfl

theorem pairwise_accessedIn (look : Nat → Option Pte) (start stop : Nat) :
    (accessedIn look start stop).Pairwise fun first second => first.1 < second.1 := by
  rw [accessedIn, List.pairwise_filterMap]
  have ordered : (pagesIn start stop).Pairwise (· < ·) :=
    List.pairwise_lt_range' pageSize (by decide)
  apply ordered.imp
  intro first second before page found page' found'
  rcases Option.map_eq_some_iff.mp found with ⟨pte, _, rfl⟩
  rcases Option.map_eq_some_iff.mp found' with ⟨pte', _, rfl⟩
  exact before

theorem mem_accessedIn {look : Nat → Option Pte} {start stop addr : Nat} {pte : Pte}
    (start_aligned : pageSize ∣ start) (stop_aligned : pageSize ∣ stop) :
    (addr, pte) ∈ accessedIn look start stop ↔
      pageSize ∣ addr ∧ start ≤ addr ∧ addr < stop ∧
        look addr = some pte ∧ ptePresent pte ∧ pteYoung pte := by
  have two : accessed pte = true ↔ ptePresent pte ∧ pteYoung pte := by
    rw [accessed, Bool.and_eq_true]
  rw [accessedIn, List.mem_filterMap]
  constructor
  · rintro ⟨page, listed, found⟩
    rcases Option.map_eq_some_iff.mp found with ⟨entry, filtered, same⟩
    have here := Option.filter_eq_some_iff.mp filtered
    cases same
    have place := (mem_pagesIn start_aligned stop_aligned).mp listed
    exact ⟨place.1, place.2.1, place.2.2, here.1, two.mp here.2⟩
  · rintro ⟨aligned, low, high, entry, flags⟩
    refine ⟨addr, (mem_pagesIn start_aligned stop_aligned).mpr ⟨aligned, low, high⟩, ?_⟩
    rw [entry, Option.filter_some, if_pos (two.mpr flags)]
    rfl

/-- **The walk reports the pages accessed.** On every page table without huge pages and bad
entries `clear_page_range` returns, and has called `collect_statistics` with the frames of
the pages of the area that are present and accessed, once each and by increasing address. -/
theorem clearPageRange_reports (fuel : Nat) (enough : ptrsPerTable ≤ fuel) (pgd : PgdTable)
    (plain : pgd.Plain) (vma : Vma) (reported : List Nat) :
    ∃ pages : List (Nat × Pte),
      clearPageRange fuel pgd vma reported =
        some (reported ++ pages.map fun page => ptePfn page.2) ∧
      (pages.Pairwise fun first second => first.1 < second.1) ∧
      ∀ addr pte, (addr, pte) ∈ pages ↔
        pageSize ∣ addr ∧ vma.vmStart ≤ addr ∧ addr < vma.vmEnd ∧
          pgdAt pgd addr = some pte ∧ ptePresent pte ∧ pteYoung pte := by
  have read : pgdRead pgd = pgdAt pgd := funext plain.pgdRead_eq
  refine ⟨accessedIn (pgdAt pgd) vma.vmStart vma.vmEnd, ?_, pairwise_accessedIn _ _ _, ?_⟩
  · rw [clearPageRange_eq enough, framesIn_eq_map, read]
  · intro addr pte
    exact mem_accessedIn vma.aligned.1 vma.aligned.2

/-- A table with its first entry only. -/
def onlyFirst {Table : Type} (next : Table) : Nat → Entry Table := fun index =>
  if index = 0 then .table next else .none

theorem onlyFirst_tables {Table : Type} {below : Table → Prop} {next : Table} (all : below next) :
    OnlyTables below (onlyFirst next) := by
  intro index _
  rw [onlyFirst]
  by_cases first : index = 0
  · rw [if_pos first]
    exact .inr ⟨next, rfl, all⟩
  · rw [if_neg first]
    exact .inl rfl

/-- A page table with one page, the last one below the boundary of a page middle directory. -/
def onePage (pte : Pte) : PgdTable :=
  onlyFirst (onlyFirst (onlyFirst fun index => if index = 511 then pte else 0))

theorem onePage_plain (pte : Pte) : (onePage pte).Plain :=
  onlyFirst_tables (onlyFirst_tables (onlyFirst_tables trivial))

/-- An area of two pages around that boundary. -/
def aroundBoundary : Vma where
  vmStart := 0x1ff000
  vmEnd := 0x201000
  nonempty := by decide
  aligned := by decide
  bounded := by decide
  oneTable := by decide

theorem clearPageRange_reports_onePage :
    ∃ pages : List (Nat × Pte),
      clearPageRange 512 (onePage 0x5021) aroundBoundary [] =
        some (pages.map fun page => ptePfn page.2) ∧
      (0x1ff000, 0x5021) ∈ pages := by
  rcases clearPageRange_reports 512 (le_refl _) (onePage 0x5021) (onePage_plain _)
    aroundBoundary [] with ⟨pages, run, _, listed⟩
  refine ⟨pages, run, ?_⟩
  rw [listed]
  decide +kernel

end NvmEmulator.Migrate
