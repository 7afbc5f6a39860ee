/-
# What a scan of a running program reports

The obligation of a walk of some part of the table: what was to report when it began, and maybe
some of what has come since, each page once and in the order of the addresses. A loop over the
entries of a table meets it if the walk below does. The theorem at the end is about the whole
list of areas.
-/

import NvmEmulator.Migrate.Live

namespace NvmEmulator.Migrate

open NvmEmulator.Semantics

/-- The walk reads the table only. -/
def ReadsOnly (before after : WalkWorld) : Prop := after.pgd = before.pgd

/-- The obligation of a part of the walk. -/
abbrev WalkMeets {α : Type} (post : α → WalkWorld → Prop) (program : WalkProgram α)
    (world : WalkWorld) : Prop :=
  Guarded walkDevice Accesses ReadsOnly post program world

/-- The pages from one address to another are reported, after the frames that were. -/
def Reported (first : PgdTable) (reported : List Nat) (start addr : Nat) (world : WalkWorld) :
    Prop :=
  Later first world.pgd ∧ ∃ pages : List (Nat × Nat),
    world.reported = reported ++ pages.map Prod.snd ∧ Between first world.pgd start addr pages

section Walk

variable {first : PgdTable} {reported : List Nat} {start addr stop : Nat} {world : WalkWorld}

theorem Accesses.later {before after : WalkWorld} (moves : Accesses before after) :
    Later before.pgd after.pgd := by
  cases moves with
  | access addr => exact (Later.refl _).access addr

theorem Accesses.silent {before after : WalkWorld} (moves : Accesses before after) :
    after.reported = before.reported := by
  cases moves with
  | access addr => rfl

theorem reported_stable (first : PgdTable) (reported : List Nat) (start addr : Nat) :
    Stable Accesses (Reported first reported start addr) := by
  rintro before after moves ⟨later, pages, shown, between⟩
  exact ⟨later.trans moves.later, pages, moves.silent.trans shown,
    between.later moves.later⟩

/-- Before the first page nothing is reported. -/
theorem Reported.first_page (later : Later first world.pgd) (start : Nat) :
    Reported first world.reported start start world := by
  have none : ∀ look, foundIn look start start = [] := by
    intro look
    rw [foundIn, pagesIn, Nat.sub_self, Nat.zero_div]
    rfl
  refine ⟨later, [], (List.append_nil _).symm, ?_, ?_⟩
  · rw [none]
  · exact List.nil_sublist _

/-! ## The last level -/

/-- An entry is reported if it is present and accessed. -/
theorem collectPte_meets (look : Option Pte) (now : WalkWorld) :
    WalkMeets
      (fun _ world => Later now.pgd world.pgd ∧
        world.reported = now.reported ++ ((look.filter accessed).map ptePfn).toList)
      (Live.collectPte (look.getD 0)) now := by
  have stable : ∀ frames, Stable Accesses fun world : WalkWorld =>
      Later now.pgd world.pgd ∧ world.reported = frames := fun frames _ _ moves held =>
    ⟨held.1.trans moves.later, moves.silent.trans held.2⟩
  have silent : ∀ frames : List Nat, frames = [] → WalkMeets
      (fun _ world => Later now.pgd world.pgd ∧ world.reported = now.reported ++ frames)
      (.ret ()) now := by
    rintro frames rfl
    exact .ret (stable _) ⟨Later.refl _, (List.append_nil _).symm⟩
  cases look with
  | none => exact silent _ rfl
  | some pte =>
      rw [Option.getD_some, Live.collectPte, Option.filter_some]
      by_cases empty : pteNone pte
      · have zero : pte = 0 := by simpa [pteNone] using empty
        have clear : ¬ accessed pte := by
          rw [zero]
          decide
        rw [if_pos empty, if_neg clear]
        exact silent _ rfl
      · rw [if_neg empty]
        by_cases here : accessed pte
        · have two : (ptePresent pte && pteYoung pte) = true := here
          rw [if_pos two, if_pos here]
          refine .access _ (stable now.reported) ⟨Later.refl _, rfl⟩ fun world held _ => ?_
          exact ⟨rfl, .ret (stable _) ⟨held.1, congrArg (· ++ [ptePfn pte]) held.2⟩⟩
        · have two : ¬ (ptePresent pte && pteYoung pte) = true := here
          rw [if_neg two, if_neg here]
          exact silent _ rfl

/-- One round reports one page more. -/
theorem pteRound_meets {low : Nat} {place : Place} (low_le : low ≤ place.addr)
    (low_aligned : pageSize ∣ low) (aligned : pageSize ∣ place.addr)
    (room : place.addr + pageSize < 2 ^ 64)
    (held : Reported first reported low place.addr world) :
    WalkMeets
      (Returns fun next later => next.addr = place.addr + pageSize ∧
        Reported first reported low next.addr later)
      (Live.pteRound (entryIndex pgdirSize place.addr) (entryIndex pudSize place.addr)
        (entryIndex pmdSize place.addr) place) world := by
  refine .access _ (reported_stable first reported low place.addr) held fun now held _ => ⟨rfl, ?_⟩
  obtain ⟨later, pages, shown, between⟩ := held
  let here := foundIn (pgdRead now.pgd) place.addr (place.addr + pageSize)
  have frames : here.map Prod.snd = (frameAt (pgdRead now.pgd) place.addr).toList :=
    (map_foundIn _ _ _).trans (framesIn_page _ _)
  refine (collectPte_meets (pgdRead now.pgd place.addr) now).bind fun _ last collected => ?_
  obtain ⟨since, collected⟩ := collected
  have next : (place.addr + pageSize) % 2 ^ 64 = place.addr + pageSize := Nat.mod_eq_of_lt room
  refine .ret (returns_stable (fun value => ?_) _) ⟨_, rfl, next, ?_⟩
  · exact fun _ _ moves held => ⟨held.1, reported_stable _ _ _ _ moves held.2⟩
  · rw [next]
    refine ⟨later.trans since, pages ++ here, ?_, ?_⟩
    · rw [collected, shown, List.map_append, frames, List.append_assoc]
      rfl
    · exact (between.later since).append (.of_moment later since) low_le (Nat.le_add_right _ _)
        low_aligned aligned

/-! ## Loops -/

/-- The obligation of a walk of the pages that satisfy a condition. -/
def Scans (first : PgdTable) (inside : Nat → Prop) (span : Nat)
    (walk : Nat → Nat → Nat → WalkProgram (Option Nat)) : Prop :=
  ∀ fuel ≥ ptrsPerTable, ∀ start stop, Part span start stop →
    (∀ page, start ≤ page → page < stop → inside page) →
      ∀ reported low world, low ≤ start → pageSize ∣ low →
        Reported first reported low start world →
          WalkMeets (Returns fun addr later => addr = stop ∧ Reported first reported low stop later)
            (walk fuel start stop) world

/-- The loop over one table: every round takes the next entry and reports the pages up to it. -/
theorem loop_meets {size fuel low : Nat} {body : Place → WalkProgram (Option Place)}
    (extra : Place → Prop) (part : Part (ptrsPerTable * size) start stop)
    (enough : ptrsPerTable ≤ fuel)
    (round : ∀ place world, start ≤ place.addr → place.addr < stop → pageSize ∣ place.addr →
      extra place → Reported first reported low place.addr world →
        WalkMeets
          (Returns fun next later => (place.addr < next.addr ∧ next.addr ≤ stop ∧
            pageSize ∣ next.addr ∧ (next.addr ≠ stop →
              next.addr / size = place.addr / size + 1 ∧ extra next)) ∧
                Reported first reported low next.addr later)
          (body place) world)
    (entry : Nat) (starts : extra ⟨entry, start⟩) (held : Reported first reported low start world) :
    WalkMeets (Returns fun addr later => addr = stop ∧ Reported first reported low stop later)
      ((Program.doWhile body (fun place => place.addr != stop) fuel ⟨entry, start⟩).bind
        fun place => .ret (place.map Place.addr)) world := by
  let left (place : Place) : Nat := roundsLeft size stop ⟨place.entry, place.addr, []⟩
  have loop : WalkMeets
      (Returns fun place later => place.addr = stop ∧ Reported first reported low stop later)
      (Program.doWhile body (fun place => place.addr != stop) fuel ⟨entry, start⟩) world := by
    refine .doWhile (fun place later => (start ≤ place.addr ∧ place.addr < stop ∧
      pageSize ∣ place.addr ∧ extra place) ∧ Reported first reported low place.addr later) _ left
      (fun _ _ _ moves held => ⟨held.1, reported_stable _ _ _ _ moves held.2⟩) ?_
      ⟨⟨le_refl _, part.nonempty, part.aligned.1, starts⟩, held⟩
      ((roundsLeft_le part entry []).trans enough)
    rintro place now ⟨⟨low_le, before, aligned, here⟩, held⟩
    refine ⟨Nat.succ_pos _, (round place now low_le before aligned here held).mono ?_⟩
    rintro _ later ⟨next, rfl, ⟨further, within, multiple, more⟩, held⟩
    refine ⟨next, rfl, ?_, ?_⟩
    · intro again
      have other : next.addr ≠ stop := by simpa using again
      have bound : next.addr < stop := by omega
      exact ⟨⟨⟨by omega, bound, multiple, (more other).2⟩, held⟩,
        roundsLeft_lt (more other).1 bound⟩
    · intro done
      have last : next.addr = stop := by simpa using done
      rw [last] at held
      exact ⟨last, held⟩
  refine loop.bind ?_
  rintro _ later ⟨place, rfl, last, held⟩
  refine .ret (returns_stable (fun value => ?_) _) ⟨_, rfl, last, held⟩
  exact fun _ _ moves held => ⟨held.1, reported_stable _ _ _ _ moves held.2⟩

theorem clearPteRange_scans (pgd pud pmd : Nat) :
    Scans first
      (fun page => entryIndex pgdirSize page = pgd ∧ entryIndex pudSize page = pud ∧
        entryIndex pmdSize page = pmd)
      (ptrsPerTable * pageSize) (Live.clearPteRange pgd pud pmd) := by
  intro fuel enough start stop part inside reported low world low_le low_aligned held
  refine loop_meets (fun _ => True) part enough ?_ _ trivial held
  intro place now start_le before aligned _ held
  have within := add_pageSize_le aligned part.aligned.2 before
  obtain ⟨rfl, rfl, rfl⟩ := inside place.addr start_le before
  refine (pteRound_meets (low_le.trans start_le) low_aligned aligned
    (within.trans_lt part.bounded) held).mono ?_
  rintro _ later ⟨next, rfl, addr, held⟩
  refine ⟨next, rfl, ?_, held⟩
  rw [addr]
  exact ⟨Nat.lt_add_of_pos_right (by decide), within, Nat.dvd_add aligned (dvd_refl _),
    fun _ => ⟨Nat.add_div_right _ (by decide), trivial⟩⟩

/-! ## The upper levels -/

/-- Where an entry is empty there is nothing to report, and nothing comes. -/
theorem foundIn_none {now : PgdTable} (later : Later first now)
    (none : ∀ page, start ≤ page → page < stop → pgdRead first page = none)
    (aligned : pageSize ∣ start ∧ pageSize ∣ stop) : foundIn (pgdRead now) start stop = [] := by
  rw [foundIn, List.filterMap_eq_nil_iff]
  intro page listed
  obtain ⟨-, low, high⟩ := (mem_pagesIn aligned.1 aligned.2).mp listed
  rw [frameAt, later.pgdRead_none (none page low high)]
  rfl

/-- A round that skips an empty entry. -/
theorem Reported.skip {low : Nat} (held : Reported first reported low start world)
    (low_le : low ≤ start) (later : start ≤ stop) (low_aligned : pageSize ∣ low)
    (aligned : pageSize ∣ start ∧ pageSize ∣ stop)
    (none : ∀ page, start ≤ page → page < stop → pgdRead first page = none) :
    Reported first reported low stop world := by
  obtain ⟨since, pages, shown, between⟩ := held
  refine ⟨since, pages, shown, ?_⟩
  have nothing : Between first world.pgd start stop [] := by
    constructor
    · rw [foundIn_none (.refl first) none aligned]
    · exact List.nil_sublist _
  have whole := between.append nothing low_le later low_aligned aligned.1
  rwa [List.append_nil] at whole

/-- A level meets its obligation if the level below does. -/
theorem clearEntries_scans {size : Nat} {inside : Nat → Prop} {within : Nat → Nat → Prop}
    {path : Nat → EntryPath} {walk : Nat → Nat → Nat → Nat → WalkProgram (Option Nat)}
    (positive : 0 < size) (whole : pageSize ∣ size)
    (nothing : ∀ page, inside page → entryNone first (path (entryIndex size page)) = true →
      pgdRead first page = none)
    (below : ∀ page, inside page → within (entryIndex size page) page)
    (inner : ∀ index, Scans first (within index) size (walk index)) :
    Scans first inside (ptrsPerTable * size) (Live.clearEntries size path walk) := by
  intro fuel enough start stop part inside reported low world low_le low_aligned held
  refine loop_meets (fun place => place.entry = entryIndex size place.addr) part enough ?_ _ rfl
    held
  rintro ⟨entry, addr⟩ now start_le before aligned here held
  have here : entry = entryIndex size addr := here
  subst here
  have step := addrEnd_next positive whole part.aligned.2 before
  have moves : addr < addrEnd size addr stop ∧ addrEnd size addr stop ≤ stop ∧
      pageSize ∣ addrEnd size addr stop ∧ (addrEnd size addr stop ≠ stop →
        addrEnd size addr stop / size = addr / size + 1 ∧
          entryIndex size addr + 1 = entryIndex size (addrEnd size addr stop)) :=
    ⟨step.later, step.within, step.aligned, fun other =>
      ⟨step.boundary other, (step.entryIndex part start_le other).symm⟩⟩
  have pages : ∀ page, addr ≤ page → page < addrEnd size addr stop →
      entryIndex size page = entryIndex size addr := fun page => step.entryIndex_eq
  have inside : ∀ page, addr ≤ page → page < addrEnd size addr stop → _ := fun page low high =>
    inside page (start_le.trans low) (high.trans_le step.within)
  have stable : ∀ value : Place, Stable Accesses fun later => (addr < value.addr ∧
      value.addr ≤ stop ∧ pageSize ∣ value.addr ∧ (value.addr ≠ stop →
        value.addr / size = addr / size + 1 ∧ value.entry = entryIndex size value.addr)) ∧
          Reported first reported low value.addr later :=
    fun _ _ _ moves held => ⟨held.1, reported_stable _ _ _ _ moves held.2⟩
  refine .access _ (reported_stable first reported low addr) held fun now held _ => ⟨rfl, ?_⟩
  have test : (walkDevice.exec (.entryNone (path (entryIndex size addr))) now).1 =
      entryNone first (path (entryIndex size addr)) := held.1.entryNone_eq _
  rw [test]
  cases empty : entryNone first (path (entryIndex size addr)) with
  | true =>
      refine .ret (returns_stable stable _) ⟨_, rfl, moves, ?_⟩
      refine held.skip (low_le.trans start_le) step.later.le low_aligned
        ⟨aligned, step.aligned⟩ fun page low high => ?_
      refine nothing page (inside page low high) ?_
      rw [pages page low high, empty]
  | false =>
      have belongs : ∀ page, addr ≤ page → page < addrEnd size addr stop →
          within (entryIndex size addr) page := by
        intro page low high
        rw [← pages page low high]
        exact below page (inside page low high)
      have walks := inner _ fuel enough addr _ (step.part part aligned) belongs reported low now
        (low_le.trans start_le) low_aligned held
      refine walks.bind ?_
      rintro _ later ⟨_, rfl, rfl, held⟩
      exact .ret (returns_stable stable _) ⟨_, rfl, moves, held⟩

/-! ## The whole walk -/

theorem clearPmdRange_scans (pgd pud : Nat) :
    Scans first (fun page => entryIndex pgdirSize page = pgd ∧ entryIndex pudSize page = pud)
      (ptrsPerTable * pmdSize) (Live.clearPmdRange pgd pud) := by
  refine clearEntries_scans (by decide) (by decide) ?_ ?_ (clearPteRange_scans pgd pud)
  · rintro page ⟨rfl, rfl⟩ empty
    exact pgdRead_of_pmdNone empty
  · rintro page ⟨rfl, rfl⟩
    exact ⟨rfl, rfl, rfl⟩

theorem clearPudRange_scans (pgd : Nat) :
    Scans first (fun page => entryIndex pgdirSize page = pgd) (ptrsPerTable * pudSize)
      (Live.clearPudRange pgd) := by
  refine clearEntries_scans (by decide) (by decide) ?_ ?_ (clearPmdRange_scans pgd)
  · rintro page rfl empty
    exact pgdRead_of_pudNone empty
  · rintro page rfl
    exact ⟨rfl, rfl⟩

theorem clearPgdRange_scans :
    Scans first (fun _ => True) (ptrsPerTable * pgdirSize)
      (Live.clearEntries pgdirSize .pgd Live.clearPudRange) :=
  clearEntries_scans (by decide) (by decide) (fun _ _ empty => pgdRead_of_pgdNone empty)
    (fun _ _ => rfl) clearPudRange_scans

/-- What there is to report for some areas. -/
def foundInAreas (look : Nat → Option Pte) (areas : List Vma) : List (Nat × Nat) :=
  areas.flatMap fun vma => foundIn look vma.vmStart vma.vmEnd

theorem Later.foundInAreas {first now : PgdTable} (later : Later first now) (areas : List Vma) :
    (foundInAreas (pgdRead first) areas).Sublist (Migrate.foundInAreas (pgdRead now) areas) := by
  induction areas with
  | nil => exact List.Sublist.refl _
  | cons vma next ih =>
      rw [Migrate.foundInAreas, Migrate.foundInAreas, List.flatMap_cons, List.flatMap_cons]
      exact (later.foundIn _ _).append ih

/-- What the loop over some areas leaves. -/
structure ReportedAreas (areas : List Vma) (before : WalkWorld) (pages : List (Nat × Nat))
    (after : WalkWorld) : Prop where
  later : Later before.pgd after.pgd
  reported : after.reported = before.reported ++ pages.map Prod.snd
  early : (foundInAreas (pgdRead before.pgd) areas).Sublist pages
  late : pages.Sublist (foundInAreas (pgdRead after.pgd) areas)

theorem whileVma_meets {fuel : Nat} (enough : ptrsPerTable ≤ fuel) (areas : List Vma)
    (world : WalkWorld) :
    WalkMeets (Returns fun _ later => ∃ pages, ReportedAreas areas world pages later)
      (Live.whileVma fuel areas) world := by
  induction areas generalizing world with
  | nil =>
      refine .ret (returns_stable (fun _ => ?_) _) ⟨(), rfl, [], .refl _, (List.append_nil _).symm,
        List.Sublist.refl _, List.Sublist.refl _⟩
      rintro before after moves ⟨pages, later, shown, early, late⟩
      exact ⟨pages, later.trans moves.later, moves.silent.trans shown, early,
        late.trans (moves.later.foundInAreas _)⟩
  | cons vma next ih =>
      have area : WalkMeets _ (Live.clearPageRange fuel vma) world :=
        clearPgdRange_scans fuel enough vma.vmStart vma.vmEnd vma.part (fun _ _ _ => trivial)
          world.reported vma.vmStart world (le_refl _) vma.aligned.1
          (.first_page (.refl world.pgd) vma.vmStart)
      refine area.bind ?_
      rintro _ middle ⟨_, rfl, -, since, pages, shown, between⟩
      refine (ih middle).mono ?_
      rintro _ last ⟨_, rfl, more, later, shown', early, late⟩
      refine ⟨(), rfl, pages ++ more, since.trans later, ?_, ?_, ?_⟩
      · rw [shown', shown, List.map_append, List.append_assoc]
      · rw [foundInAreas, List.flatMap_cons]
        exact between.early.append ((since.foundInAreas next).trans early)
      · rw [foundInAreas, List.flatMap_cons]
        exact (between.late.trans (later.foundIn _ _)).append late

/-- Nothing has to wait. -/
theorem walk_alone {α : Type} (env : WalkWorld → WalkWorld → Prop) (program : WalkProgram α)
    (world : WalkWorld) :
    Completes walkDevice env program world (program.run walkExec world).1
      (program.run walkExec world).2 := by
  have ready : program.Makes fun op => ∀ state, walkDevice.ready op state :=
    .of_forall (fun _ _ => trivial) program
  exact reaches_run ready world

/-- While the program is not running, the walk reports what the embedding without reads does. -/
theorem run_whileVma {fuel : Nat} (enough : ptrsPerTable ≤ fuel) (areas : List Vma)
    (pgd : PgdTable) (state : State) :
    ∃ walked, whileVma fuel pgd areas state = some walked ∧
      (Live.whileVma fuel areas).run walkExec ⟨pgd, state.reported⟩ =
        (some (), ⟨pgd, walked.reported⟩) := by
  refine ⟨_, whileVma_eq enough pgd areas state, ?_⟩
  have meets := whileVma_meets enough areas ⟨pgd, state.reported⟩
  have alone := walk_alone (fun _ _ => False) (Live.whileVma fuel areas) ⟨pgd, state.reported⟩
  have unmoved : Stable ReadsOnly fun world => world.pgd = pgd := fun _ _ => Eq.trans
  have still : ((Live.whileVma fuel areas).run walkExec ⟨pgd, state.reported⟩).2.pgd = pgd :=
    Guarded.holds_of_reaches (fun _ _ => False.elim) (fun _ _ => False.elim) unmoved meets rfl
      alone
  obtain ⟨_, returns, pages, -, shown, early, late⟩ :=
    meets.completes (fun _ _ => False.elim) alone
  rw [still] at late
  have same : pages = foundInAreas (pgdRead pgd) areas := late.antisymm early
  have frames : pages.map Prod.snd =
      areas.flatMap fun vma => framesIn (pgdRead pgd) vma.vmStart vma.vmEnd := by
    rw [same, foundInAreas, List.map_flatMap]
    exact List.flatMap_congr fun vma _ => map_foundIn _ _ _
  rw [frames] at shown
  exact Prod.ext returns (congrArg₂ WalkWorld.mk still shown)

/-! ## The theorem -/

end Walk

end NvmEmulator.Migrate
