/-
# The scan

`hrtimer_def` scans the memory of one task: it walks the page table for every virtual
memory area, and times the walk. The walk reads the entries of the table and writes none of
them, since `pte_clear_flags` works on a copy. What a second scan reports thus includes all
that the first one did, and the module tells the pages touched in between from the others
only if the first one reported nothing.
-/

import Mathlib.Data.List.Basic
import NvmEmulator.Migrate.Access
import NvmEmulator.Migrate.Walk

namespace NvmEmulator.Migrate

/-! ## The memory of a task -/

/-- `struct mm_struct`: its page table, and the list of its areas, which do not overlap. -/
structure Mm where
  pgd : PgdTable
  mmap : List Vma
  disjoint : mmap.Pairwise fun first second =>
    first.vmEnd ≤ second.vmStart ∨ second.vmEnd ≤ first.vmStart

/-- What accesses to the addresses listed leave. -/
def Mm.accessAll (mm : Mm) (accesses : List Nat) : Mm :=
  { mm with pgd := Migrate.accessAll accesses mm.pgd }

/-- An area contains the address. -/
def Mm.Maps (mm : Mm) (addr : Nat) : Prop :=
  ∃ vma ∈ mm.mmap, vma.vmStart ≤ addr ∧ addr < vma.vmEnd

/-! ## The functions -/

/-- `timer_interval_ns` -/
def timerIntervalNs : Nat := 2000000000

/-- `start`, `end`, `average` and `c` -/
structure WalkingTime where
  start : BitVec 64
  stop : BitVec 64
  average : BitVec 64
  c : BitVec 64

/-- `GET_START_TIME`, with the time stamp read -/
def getStartTime (tsc : BitVec 64) (time : WalkingTime) : WalkingTime :=
  { time with c := time.c + 1, start := tsc }

/-- `GET_END_TIME`, with the time stamp read -/
def getEndTime (tsc : BitVec 64) (time : WalkingTime) : WalkingTime :=
  { time with
    stop := tsc
    average := (time.average * (time.c - 1) + (tsc - time.start)) / time.c }

/-- `struct hrtimer`: when it expires, and whether it is armed. -/
structure Hrtimer where
  expires : Nat
  armed : Bool

/-- `hrtimer_forward_now`: the first expiry after `now` that is a number of intervals after
the present one. -/
def hrtimerForward (now interval : Nat) (timer : Hrtimer) : Hrtimer :=
  if now < timer.expires then timer
  else { timer with expires := timer.expires + ((now - timer.expires) / interval + 1) * interval }

/-- `enum hrtimer_restart` -/
inductive HrtimerRestart
  | norestart
  | restart
  deriving DecidableEq

/-- The globals of the module, and the task with the number `pid`, if there is one. The
areas that `clear_single_vma` was called for are recorded, and the frames that
`collect_statistics` was called with. -/
structure State where
  task : Option Mm
  time : WalkingTime
  timer : Hrtimer
  walked : List Vma
  reported : List Nat

/-- The globals as the module is loaded. -/
def State.loaded : State where
  task := none
  time := ⟨0, 0, 0, 0⟩
  timer := ⟨0, false⟩
  walked := []
  reported := []

/-- The clocks that a callback reads. -/
structure Clock where
  startTsc : BitVec 64
  stopTsc : BitVec 64
  now : Nat

/-- `clear_single_vma` -/
def clearSingleVma (fuel : Nat) (pgd : PgdTable) (vma : Vma) (state : State) : Option State :=
  (clearPageRange fuel pgd vma state.reported).map fun reported =>
    { state with walked := state.walked ++ [vma], reported := reported }

/-- The loop of `hrtimer_def` over the list of areas. -/
def whileVma (fuel : Nat) (pgd : PgdTable) : List Vma → State → Option State
  | [], state => some state
  | vma :: next, state => (clearSingleVma fuel pgd vma state).bind (whileVma fuel pgd next)

/-- `hrtimer_def` -/
def hrtimerDef (fuel : Nat) (clock : Clock) (state : State) : Option (HrtimerRestart × State) :=
  match state.task with
  | none => some (.norestart, state)
  | some mm =>
      let started := { state with time := getStartTime clock.startTsc state.time }
      (whileVma fuel mm.pgd mm.mmap started).map fun walked =>
        (.norestart,
          { walked with
            time := getEndTime clock.stopTsc walked.time
            timer := hrtimerForward clock.now timerIntervalNs walked.timer })

/-! ## What a scan reports -/

/-- The pages that a scan finds accessed, each with its entry. -/
def Mm.accessedPages (mm : Mm) : List (Nat × Pte) :=
  mm.mmap.flatMap fun vma => accessedIn (pgdRead mm.pgd) vma.vmStart vma.vmEnd

/-- Their frames. -/
def Mm.frames (mm : Mm) : List Nat := mm.accessedPages.map fun page => ptePfn page.2

/-- The loop walks every area, in the order of the list. -/
theorem whileVma_eq {fuel : Nat} (enough : ptrsPerTable ≤ fuel) (pgd : PgdTable)
    (areas : List Vma) (state : State) :
    whileVma fuel pgd areas state = some
      { state with
        walked := state.walked ++ areas
        reported := state.reported ++
          areas.flatMap fun vma => framesIn (pgdRead pgd) vma.vmStart vma.vmEnd } := by
  induction areas generalizing state with
  | nil =>
      rw [whileVma, List.append_nil, List.flatMap_nil, List.append_nil]
  | cons vma next ih =>
      rw [whileVma, clearSingleVma, clearPageRange_eq enough, Option.map_some, Option.bind_some,
        ih, List.flatMap_cons]
      show some { state with walked := _, reported := _ } = _
      rw [List.append_assoc, List.append_assoc]
      rfl

theorem hrtimerDef_none (fuel : Nat) (clock : Clock) {state : State} (task : state.task = none) :
    hrtimerDef fuel clock state = some (.norestart, state) := by
  rw [hrtimerDef, task]

/-- What the callback leaves when the task is there. -/
theorem hrtimerDef_eq {fuel : Nat} (enough : ptrsPerTable ≤ fuel) (clock : Clock) {state : State}
    {mm : Mm} (task : state.task = some mm) :
    hrtimerDef fuel clock state = some (.norestart,
      { state with
        time := getEndTime clock.stopTsc (getStartTime clock.startTsc state.time)
        timer := hrtimerForward clock.now timerIntervalNs state.timer
        walked := state.walked ++ mm.mmap
        reported := state.reported ++ mm.frames }) := by
  have frames : mm.frames =
      mm.mmap.flatMap fun vma => framesIn (pgdRead mm.pgd) vma.vmStart vma.vmEnd := by
    rw [Mm.frames, Mm.accessedPages, List.map_flatMap]
    congr 1
    funext vma
    exact (framesIn_eq_map _ _ _).symm
  rw [hrtimerDef, task, frames]
  show (whileVma fuel mm.pgd mm.mmap _).map _ = _
  rw [whileVma_eq enough]
  rfl

theorem Mm.mem_accessedPages {mm : Mm} {addr : Nat} {pte : Pte} :
    (addr, pte) ∈ mm.accessedPages ↔
      pageSize ∣ addr ∧ mm.Maps addr ∧ pgdRead mm.pgd addr = some pte ∧
        ptePresent pte ∧ pteYoung pte := by
  rw [accessedPages, List.mem_flatMap]
  constructor
  · rintro ⟨vma, listed, page⟩
    have place := (mem_accessedIn vma.aligned.1 vma.aligned.2).mp page
    exact ⟨place.1, ⟨vma, listed, place.2.1, place.2.2.1⟩, place.2.2.2⟩
  · rintro ⟨aligned, ⟨vma, listed, low, high⟩, entry⟩
    exact ⟨vma, listed, (mem_accessedIn vma.aligned.1 vma.aligned.2).mpr
      ⟨aligned, low, high, entry⟩⟩

/-- A page is listed once, since the areas do not overlap. -/
theorem Mm.pairwise_accessedPages (mm : Mm) :
    mm.accessedPages.Pairwise fun first second => first.1 ≠ second.1 := by
  rw [accessedPages, List.pairwise_flatMap]
  constructor
  · intro vma _
    exact (pairwise_accessedIn _ _ _).imp fun before => Nat.ne_of_lt before
  · apply mm.disjoint.imp
    intro vma vma' apart page listed page' listed' same
    have place := (mem_accessedIn vma.aligned.1 vma.aligned.2).mp listed
    have place' := (mem_accessedIn vma'.aligned.1 vma'.aligned.2).mp listed'
    omega

/-! ## Accesses between two scans -/

/-- Where nothing is accessed, the entries that are present and accessed after some accesses
are those that the accesses went through. -/
theorem accessed_iff_touched {pgd : PgdTable} {accesses : List Nat} {addr : Nat}
    (unaccessed : ∀ pte, pgdRead pgd addr = some pte → ¬ (ptePresent pte ∧ pteYoung pte))
    (pte : Pte) :
    (pgdRead (accessAll accesses pgd) addr = some pte ∧ ptePresent pte ∧ pteYoung pte) ↔
      pgdAt (accessAll accesses pgd) addr = some pte ∧ pteMapped pte ∧
        Touched accesses addr := by
  constructor
  · rintro ⟨read, flags⟩
    cases before : pgdAt pgd addr with
    | none =>
        rw [pgdRead_accessAll before] at read
        exact absurd flags (unaccessed pte read)
    | some entry =>
        have clear := unaccessed entry (pgdRead_of_pgdAt before)
        by_cases touched : Touched accesses addr
        · have after := pgdAt_accessAll_of_touched pgd touched
          rw [before, Option.map_some] at after
          have same : touch entry = pte :=
            Option.some.inj ((pgdRead_of_pgdAt after).symm.trans read)
          cases mapped : pteMapped entry with
          | true =>
              rw [← same]
              exact ⟨after, (pteMapped_touch entry).trans mapped, touched⟩
          | false =>
              rw [touch_of_unmapped mapped] at same
              rw [same] at clear
              exact absurd flags clear
        · have after := pgdAt_accessAll_of_not_touched pgd touched
          rw [before] at after
          have same : entry = pte := Option.some.inj ((pgdRead_of_pgdAt after).symm.trans read)
          rw [same] at clear
          exact absurd flags clear
  · rintro ⟨after, mapped, touched⟩
    refine ⟨pgdRead_of_pgdAt after, ptePresent_of_mapped mapped, ?_⟩
    rw [pgdAt_accessAll_of_touched _ touched] at after
    rcases Option.map_eq_some_iff.mp after with ⟨entry, _, rfl⟩
    rw [pteMapped_touch] at mapped
    rw [touch_of_mapped mapped]
    exact pteYoung_or entry

/-! ## Accessed bits are not consumed -/

/-- The first address of the page of an address lies in the same area. -/
theorem Mm.Maps.page {mm : Mm} {addr : Nat} (inside : mm.Maps addr) :
    mm.Maps (addr / pageSize * pageSize) := by
  rcases inside with ⟨vma, listed, low, high⟩
  refine ⟨vma, listed, ?_, (Nat.div_mul_le_self _ _).trans_lt high⟩
  rcases vma.aligned.1 with ⟨page, start⟩
  rw [start, Nat.mul_comm] at low ⊢
  apply Nat.mul_le_mul_right
  exact (Nat.le_div_iff_mul_le (by decide)).mpr low

/-- The entry of an address is one of an area. -/
def Mm.MapsPage (mm : Mm) (addr : Nat) : Prop :=
  ∃ inside, mm.Maps inside ∧ pageOf inside = pageOf addr

/-- The second memory is the first with the accessed bits of its areas cleared. -/
structure Mm.Cleared (before after : Mm) : Prop where
  mmap : after.mmap = before.mmap
  clear : ∀ addr pte, before.MapsPage addr → pgdAt after.pgd addr = some pte →
    ptePresent pte → pteYoung pte = false
  kept : ∀ addr, ((pgdAt after.pgd addr).map fun pte => pteClearFlags pte pageAccessed) =
    (pgdAt before.pgd addr).map fun pte => pteClearFlags pte pageAccessed
  outside : ∀ addr, ¬ before.MapsPage addr → pgdAt after.pgd addr = pgdAt before.pgd addr

/-- A scan after some accesses reports the pages of the areas that were touched, each once. -/
def ReportsTouched (fuel : Nat) (clock : Clock) (state : State) (mm : Mm)
    (accesses : List Nat) : Prop :=
  ∃ answer after, ∃ pages : List (Nat × Pte),
    hrtimerDef fuel clock { state with task := some (mm.accessAll accesses) } =
      some (answer, after) ∧
    after.reported = state.reported ++ (pages.map fun page => ptePfn page.2) ∧
    (pages.Pairwise fun first second => first.1 ≠ second.1) ∧
    ∀ addr pte, (addr, pte) ∈ pages ↔
      pageSize ∣ addr ∧ mm.Maps addr ∧ pgdAt (mm.accessAll accesses).pgd addr = some pte ∧
        pteMapped pte ∧ Touched accesses addr

/-- A scan consumes the accessed bits: it clears them and nothing else, the next scan reports
nothing if there are no accesses, and the pages touched if there are some. -/
def Consumes (fuel : Nat) (clock : Clock) (state : State) (mm : Mm) : Prop :=
  ∃ answer after, ∃ left : Mm,
    hrtimerDef fuel clock { state with task := some mm } = some (answer, after) ∧
    after.task = some left ∧ mm.Cleared left ∧
    (∀ again, ∃ answer last, hrtimerDef fuel again after = some (answer, last) ∧
      last.reported = after.reported) ∧
    ∀ again accesses, ReportsTouched fuel again after left accesses

/-- No entry that a scan reads is present and accessed. -/
def Mm.Unaccessed (mm : Mm) : Prop :=
  ∀ addr, pageSize ∣ addr → mm.Maps addr → ∀ pte, pgdRead mm.pgd addr = some pte →
    ¬ (ptePresent pte ∧ pteYoung pte)

theorem Mm.Unaccessed.clear {mm : Mm} (unaccessed : mm.Unaccessed) (addr : Nat) (pte : Pte)
    (mapped : mm.MapsPage addr) (entry : pgdAt mm.pgd addr = some pte)
    (present : ptePresent pte) : pteYoung pte = false := by
  rcases mapped with ⟨inside, maps, same⟩
  have page : pageOf (inside / pageSize * pageSize) = pageOf addr := by
    rw [← same, pageOf, pageOf, Nat.mul_div_cancel _ (by decide)]
  have flags := unaccessed _ (Nat.dvd_mul_left _ _) maps.page pte
    (pgdRead_of_pgdAt ((pgdAt_congr page).trans entry))
  cases young : pteYoung pte with
  | true => exact absurd ⟨present, young⟩ flags
  | false => rfl

theorem Mm.Unaccessed.frames_eq {mm : Mm} (unaccessed : mm.Unaccessed) : mm.frames = [] := by
  have none : mm.accessedPages = [] := by
    rw [List.eq_nil_iff_forall_not_mem]
    rintro ⟨addr, pte⟩ listed
    have page := Mm.mem_accessedPages.mp listed
    exact unaccessed addr page.1 page.2.1 pte page.2.2.1 page.2.2.2
  rw [Mm.frames, none]
  rfl

theorem Mm.unaccessed_of_frames {mm : Mm} (none : mm.frames = []) : mm.Unaccessed := by
  intro addr aligned inside pte read flags
  have listed := Mm.mem_accessedPages.mpr ⟨aligned, inside, read, flags⟩
  have empty : mm.accessedPages = [] := List.map_eq_nil_iff.mp none
  rw [empty] at listed
  cases listed

theorem reportsTouched_of_unaccessed {fuel : Nat} (enough : ptrsPerTable ≤ fuel) (clock : Clock)
    (state : State) {mm : Mm} (unaccessed : mm.Unaccessed) (accesses : List Nat) :
    ReportsTouched fuel clock state mm accesses := by
  refine ⟨_, _, (mm.accessAll accesses).accessedPages, hrtimerDef_eq enough clock rfl, rfl,
    Mm.pairwise_accessedPages _, ?_⟩
  intro addr pte
  rw [Mm.mem_accessedPages]
  apply and_congr_right
  intro aligned
  apply and_congr_right
  intro inside
  exact accessed_iff_touched (unaccessed addr aligned inside) pte

theorem Consumes.unaccessed {fuel : Nat} (enough : ptrsPerTable ≤ fuel) {clock : Clock}
    {state : State} {mm : Mm} (consumes : Consumes fuel clock state mm) : mm.Unaccessed := by
  rcases consumes with ⟨answer, after, left, scan, task, cleared, silent, touched⟩
  rw [hrtimerDef_eq enough clock rfl] at scan
  cases scan
  rcases silent clock with ⟨answer, last, second, same⟩
  rw [hrtimerDef_eq enough clock rfl] at second
  cases second
  exact Mm.unaccessed_of_frames (List.append_right_eq_self.mp same)

/-- **Accessed bits are not consumed.** A scan consumes the accessed bits it reports exactly
if there are none: the tables are left as they are. -/
theorem consumes_iff (fuel : Nat) (enough : ptrsPerTable ≤ fuel) (clock : Clock) (state : State)
    (mm : Mm) : Consumes fuel clock state mm ↔ mm.Unaccessed := by
  constructor
  · intro consumes
    exact consumes.unaccessed enough
  · intro unaccessed
    refine ⟨_, _, mm, hrtimerDef_eq enough clock rfl, rfl, ?_, ?_, ?_⟩
    · exact ⟨rfl, unaccessed.clear, fun _ => rfl, fun _ _ => rfl⟩
    · intro again
      refine ⟨_, _, hrtimerDef_eq enough again rfl, ?_⟩
      show _ ++ mm.frames = _
      rw [unaccessed.frames_eq, List.append_nil]
    · intro again accesses
      exact reportsTouched_of_unaccessed enough again _ unaccessed accesses

/-- A memory of two pages, one of which is mapped. -/
def twoPages (pte : Pte) : Mm where
  pgd := onePage pte
  mmap := [aroundBoundary]
  disjoint := List.pairwise_singleton _ _

theorem consumes_twoPages : Consumes 512 ⟨10, 20, 0⟩ State.loaded (twoPages 0x5001) := by
  apply (consumes_iff 512 (le_refl _) ⟨10, 20, 0⟩ State.loaded (twoPages 0x5001)).mpr
  apply Mm.unaccessed_of_frames
  decide +kernel

theorem not_consumes_twoPages : ¬ Consumes 512 ⟨10, 20, 0⟩ State.loaded (twoPages 0x5021) := by
  intro consumes
  have none := (consumes.unaccessed (le_refl _)).frames_eq
  have one : (twoPages 0x5021).frames = [5] := by decide +kernel
  rw [one] at none
  cases none

end NvmEmulator.Migrate
