/-
# Footprints

A state is often a family of components (the devices on a list, the registers of
a file) and a program acts on some of them. `Drives` says where a program leaves
the components of a region and that it leaves every other component alone. The
rules compose such facts along a program; the last one is the loop that undoes
everything at the first error.
-/

import NvmEmulator.Semantics.Program
import Mathlib.Data.Set.Insert

namespace NvmEmulator.Semantics

universe u v w x

variable {ι σ δ : Type*}

/-- Between two states, every component of the region ends `good` and every
other component is unchanged. -/
structure Drives (component : ι → σ → δ) (good : δ → Prop) (region : Set ι)
    (before after : σ) : Prop where
  reaches : ∀ index ∈ region, good (component index after)
  frame : ∀ index ∉ region, component index after = component index before

namespace Drives

variable {component : ι → σ → δ} {good bad : δ → Prop} {region larger : Set ι}
  {before middle after : σ}

/-- Doing nothing drives the empty region. -/
theorem empty : Drives component good ∅ before before :=
  ⟨fun _ mem => mem.elim, fun _ _ => rfl⟩

/-- Two regions driven one after the other, to the same end. -/
theorem trans (first : Drives component good region before middle)
    (second : Drives component good larger middle after) :
    Drives component good (region ∪ larger) before after := by
  constructor
  · intro index mem
    by_cases later : index ∈ larger
    · exact second.reaches index later
    · rw [second.frame index later]
      exact first.reaches index (mem.resolve_right later)
  · intro index mem
    rw [second.frame index fun later => mem (Or.inr later),
      first.frame index fun earlier => mem (Or.inl earlier)]

/-- What is driven again, all of it, need not be remembered. -/
theorem overwrite (first : Drives component good region before middle)
    (covered : region ⊆ larger) (second : Drives component bad larger middle after) :
    Drives component bad larger before after := by
  refine ⟨second.reaches, fun index mem => ?_⟩
  rw [second.frame index mem, first.frame index fun earlier => mem (covered earlier)]

end Drives

/-! ## Loops -/

section Loops

variable {Op : Type u} {Res : Op → Type v} {κ : Type*}
  {exec : (op : Op) → σ → Res op × σ} {component : ι → σ → δ} {good bad : δ → Prop}
  {region : κ → Set ι}

/-- The components some item of a list is responsible for. -/
def regionOf (region : κ → Set ι) (items : List κ) : Set ι :=
  { index | ∃ item ∈ items, index ∈ region item }

@[simp]
theorem regionOf_nil : regionOf region [] = ∅ := by
  ext index
  simp [regionOf]

theorem regionOf_cons (item : κ) (rest : List κ) :
    regionOf region (item :: rest) = region item ∪ regionOf region rest := by
  ext index
  simp [regionOf]

theorem regionOf_append (front back : List κ) :
    regionOf region (front ++ back) = regionOf region front ∪ regionOf region back := by
  ext index
  simp [regionOf, or_and_right, exists_or]

/-- Where each item is responsible for itself. -/
theorem regionOf_singleton (items : List ι) :
    regionOf (fun item : ι => ({item} : Set ι)) items = { item | item ∈ items } := by
  ext item
  simp [regionOf]

/-- A loop drives the regions of all its items. -/
theorem drives_forEach {body : κ → Program Op Res PUnit.{w + 1}} {items : List κ}
    (each : ∀ item ∈ items, ∀ world,
      Drives component good (region item) world ((body item).run exec world).2)
    (world : σ) :
    Drives component good (regionOf region items) world
      ((Program.forEach body items).run exec world).2 := by
  induction items generalizing world with
  | nil =>
      rw [regionOf_nil]
      exact .empty
  | cons item rest ih =>
      rw [Program.forEach_cons, Program.run_bind, regionOf_cons]
      exact (each item List.mem_cons_self world).trans
        (ih (fun later mem => each later (List.mem_cons_of_mem _ mem)) _)

/-- What one round of an all-or-nothing loop does: it succeeds exactly on the
items that are `ok`, then drives its own region; when it fails it has already
driven everything the loop is about to the other end. -/
structure AllOrNothing (exec : (op : Op) → σ → Res op × σ) (component : ι → σ → δ)
    (good bad : δ → Prop) (region : κ → Set ι) (ok : κ → Prop) (total : Set ι)
    (body : κ → Program Op Res Int) (item : κ) : Prop where
  result : ∀ world, ((body item).run exec world).1 = 0 ↔ ok item
  done : ∀ world, ok item →
    Drives component good (region item) world ((body item).run exec world).2
  undone : ∀ world, ¬ ok item →
    Drives component bad total world ((body item).run exec world).2
  within : region item ⊆ total

variable {ok : κ → Prop} {total : Set ι} {body : κ → Program Op Res Int}

/-- The loop returns 0 exactly when every item is ok (and, over no items, when it
began with 0). -/
theorem AllOrNothing.loop_result {items : List κ}
    (each : ∀ item ∈ items,
      AllOrNothing exec component good bad region ok total body item)
    (code : Int) (world : σ) :
    ((Program.untilError body items code).run exec world).1 = 0 ↔
      (items = [] → code = 0) ∧ ∀ item ∈ items, ok item := by
  induction items generalizing code world with
  | nil => simp
  | cons item rest ih =>
      have head := each item List.mem_cons_self
      rw [Program.untilError_cons, Program.run_bind]
      by_cases good : ok item
      · rw [if_pos ((head.result world).mpr good),
          ih fun later mem => each later (List.mem_cons_of_mem _ mem),
          (head.result world).mpr good]
        simp [good]
      · have failed : ((body item).run exec world).1 ≠ 0 :=
          fun zero => good ((head.result world).mp zero)
        rw [if_neg failed]
        simp [good, failed]

/-- A loop that returns 0 has driven every item's region. -/
theorem AllOrNothing.loop_done {items : List κ}
    (each : ∀ item ∈ items,
      AllOrNothing exec component good bad region ok total body item)
    (code : Int) (world : σ) (all : ∀ item ∈ items, ok item) :
    Drives component good (regionOf region items) world
      ((Program.untilError body items code).run exec world).2 := by
  induction items generalizing code world with
  | nil =>
      rw [regionOf_nil]
      exact .empty
  | cons item rest ih =>
      have head := each item List.mem_cons_self
      have fine := all item List.mem_cons_self
      rw [Program.untilError_cons, Program.run_bind,
        if_pos ((head.result world).mpr fine), regionOf_cons]
      exact (head.done world fine).trans
        (ih (fun later mem => each later (List.mem_cons_of_mem _ mem)) _ _
          fun later mem => all later (List.mem_cons_of_mem _ mem))

/-- A loop that meets an item that is not ok has undone everything. -/
theorem AllOrNothing.loop_undone {items : List κ}
    (each : ∀ item ∈ items,
      AllOrNothing exec component good bad region ok total body item)
    (code : Int) (world : σ) (some : ∃ item ∈ items, ¬ ok item) :
    Drives component bad total world
      ((Program.untilError body items code).run exec world).2 := by
  induction items generalizing code world with
  | nil => simp at some
  | cons item rest ih =>
      have head := each item List.mem_cons_self
      rw [Program.untilError_cons, Program.run_bind]
      by_cases fine : ok item
      · rw [if_pos ((head.result world).mpr fine)]
        have later : ∃ item ∈ rest, ¬ ok item := by
          simpa [fine] using some
        exact (head.done world fine).overwrite head.within
          (ih (fun later mem => each later (List.mem_cons_of_mem _ mem)) _ _ later)
      · rw [if_neg fun zero => fine ((head.result world).mp zero)]
        exact head.undone world fine

end Loops

/-! ## Regions that are rewritten -/

/-- Between two states, every component of the region is rewritten and every other
component is unchanged. -/
structure Rewrites (component : ι → σ → δ) (rewrite : δ → δ) (region : Set ι)
    (before after : σ) : Prop where
  inside : ∀ index ∈ region, component index after = rewrite (component index before)
  outside : ∀ index ∉ region, component index after = component index before

namespace Rewrites

variable {component : ι → σ → δ} {rewrite : δ → δ} {region larger : Set ι}
  {before middle after : σ}

/-- Doing nothing rewrites the empty region. -/
theorem empty : Rewrites component rewrite ∅ before before :=
  ⟨fun _ mem => mem.elim, fun _ _ => rfl⟩

/-- One component is rewritten and the others are left alone. -/
theorem single {index : ι} (own : component index after = rewrite (component index before))
    (others : ∀ other ≠ index, component other after = component other before) :
    Rewrites component rewrite {index} before after := by
  constructor
  · intro here mem
    rw [Set.mem_singleton_iff.mp mem]
    exact own
  · intro other apart
    exact others other fun same => apart (Set.mem_singleton_iff.mpr same)

/-- Two regions one after the other, where rewriting twice is rewriting once. -/
theorem trans (idem : ∀ value, rewrite (rewrite value) = rewrite value)
    (first : Rewrites component rewrite region before middle)
    (second : Rewrites component rewrite larger middle after) :
    Rewrites component rewrite (region ∪ larger) before after := by
  constructor
  · intro index mem
    by_cases later : index ∈ larger
    · rw [second.inside index later]
      by_cases earlier : index ∈ region
      · rw [first.inside index earlier, idem]
      · rw [first.outside index earlier]
    · rw [second.outside index later]
      exact first.inside index (mem.resolve_right later)
  · intro index mem
    rw [second.outside index fun later => mem (Or.inr later),
      first.outside index fun earlier => mem (Or.inl earlier)]

/-- Two rewritings of one region. -/
theorem comp {next : δ → δ} (first : Rewrites component rewrite region before middle)
    (second : Rewrites component next region middle after) :
    Rewrites component (fun value => next (rewrite value)) region before after := by
  constructor
  · intro index mem
    rw [second.inside index mem, first.inside index mem]
  · intro index mem
    rw [second.outside index mem, first.outside index mem]

end Rewrites

section Attempts

variable {Op : Type u} {Res : Op → Type v} {κ : Type*}
  {exec : (op : Op) → σ → Res op × σ} {component : ι → σ → δ} {rewrite : δ → δ}
  {region : κ → Set ι} {ok : κ → Bool}

/-- A loop rewrites the regions of all its items. -/
theorem rewrites_forEach (idem : ∀ value, rewrite (rewrite value) = rewrite value)
    {body : κ → Program Op Res PUnit.{w + 1}} {items : List κ}
    (each : ∀ item ∈ items, ∀ world,
      Rewrites component rewrite (region item) world ((body item).run exec world).2)
    (world : σ) :
    Rewrites component rewrite (regionOf region items) world
      ((Program.forEach body items).run exec world).2 := by
  induction items generalizing world with
  | nil =>
      rw [regionOf_nil]
      exact .empty
  | cons item rest ih =>
      rw [Program.forEach_cons, Program.run_bind, regionOf_cons]
      exact (each item List.mem_cons_self world).trans idem
        (ih (fun later mem => each later (List.mem_cons_of_mem _ mem)) _)

/-- What one round of a loop does that leaves at the first error and undoes nothing: it
rewrites its region, or it fails and has changed nothing itself. -/
structure Attempt (exec : (op : Op) → σ → Res op × σ) (component : ι → σ → δ)
    (rewrite : δ → δ) (region : κ → Set ι) (ok : κ → Bool)
    (body : κ → Program Op Res Int) (item : κ) : Prop where
  result : ∀ world, ((body item).run exec world).1 = 0 ↔ ok item = true
  done : ∀ world, ok item = true →
    Rewrites component rewrite (region item) world ((body item).run exec world).2
  untouched : ∀ world, ok item = false →
    Rewrites component rewrite ∅ world ((body item).run exec world).2

variable {body : κ → Program Op Res Int} {items : List κ}

/-- The loop returns 0 exactly when every item is ok (and, over no items, when it
began with 0). -/
theorem Attempt.loop_result
    (each : ∀ item ∈ items, Attempt exec component rewrite region ok body item)
    (code : Int) (world : σ) :
    ((Program.untilError body items code).run exec world).1 = 0 ↔
      (items = [] → code = 0) ∧ ∀ item ∈ items, ok item = true := by
  induction items generalizing code world with
  | nil => simp
  | cons item rest ih =>
      have head := each item List.mem_cons_self
      rw [Program.untilError_cons, Program.run_bind]
      by_cases good : ok item = true
      · rw [if_pos ((head.result world).mpr good),
          ih fun later mem => each later (List.mem_cons_of_mem _ mem),
          (head.result world).mpr good]
        simp [good]
      · have failed : ((body item).run exec world).1 ≠ 0 :=
          fun zero => good ((head.result world).mp zero)
        rw [if_neg failed]
        simp [good, failed]

/-- The loop has rewritten the regions of the items before the first that is not ok. -/
theorem Attempt.loop_rewrites (idem : ∀ value, rewrite (rewrite value) = rewrite value)
    (each : ∀ item ∈ items, Attempt exec component rewrite region ok body item)
    (code : Int) (world : σ) :
    Rewrites component rewrite (regionOf region (items.takeWhile ok)) world
      ((Program.untilError body items code).run exec world).2 := by
  induction items generalizing code world with
  | nil =>
      rw [List.takeWhile_nil, regionOf_nil]
      exact .empty
  | cons item rest ih =>
      have head := each item List.mem_cons_self
      rw [Program.untilError_cons, Program.run_bind]
      by_cases good : ok item = true
      · rw [if_pos ((head.result world).mpr good), List.takeWhile_cons_of_pos good,
          regionOf_cons]
        exact (head.done world good).trans idem
          (ih (fun later mem => each later (List.mem_cons_of_mem _ mem)) _ _)
      · have failed : ((body item).run exec world).1 ≠ 0 :=
          fun zero => good ((head.result world).mp zero)
        rw [if_neg failed, List.takeWhile_cons_of_neg good, regionOf_nil]
        exact head.untouched world (by simpa using good)

/-- A step, and a cleanup if it fails. -/
def orCleanup (step : κ → Program Op Res Int) (cleanup : Program Op Res Unit) (item : κ) :
    Program Op Res Int :=
  (step item).bind fun ret => if ret ≠ 0 then cleanup.bind fun _ => .ret ret else .ret ret

/-- A loop whose items are all ok rewrites all their regions and never cleans up. -/
theorem Attempt.cleanup_done (idem : ∀ value, rewrite (rewrite value) = rewrite value)
    {cleanup : Program Op Res Unit}
    (each : ∀ item ∈ items, Attempt exec component rewrite region ok body item)
    (all : ∀ item ∈ items, ok item = true) (code : Int) (world : σ) :
    Rewrites component rewrite (regionOf region items) world
      ((Program.untilError (orCleanup body cleanup) items code).run exec world).2 := by
  induction items generalizing code world with
  | nil =>
      rw [regionOf_nil]
      exact .empty
  | cons item rest ih =>
      have head := each item List.mem_cons_self
      have good := all item List.mem_cons_self
      have zero := (head.result world).mpr good
      rw [Program.untilError_cons, orCleanup, Program.run_bind, Program.run_bind,
        if_neg (not_not.mpr zero), Program.run_ret, if_pos zero, regionOf_cons]
      exact (head.done world good).trans idem
        (ih (fun later mem => each later (List.mem_cons_of_mem _ mem))
          (fun later mem => all later (List.mem_cons_of_mem _ mem)) _ _)

/-- A loop that meets an item that is not ok rewrites the regions before it and ends with the
cleanup. -/
theorem Attempt.cleanup_undone (idem : ∀ value, rewrite (rewrite value) = rewrite value)
    {cleanup : Program Op Res Unit}
    (each : ∀ item ∈ items, Attempt exec component rewrite region ok body item)
    (some : ∃ item ∈ items, ok item = false) (code : Int) (world : σ) :
    ∃ state, Rewrites component rewrite (regionOf region (items.takeWhile ok)) world state ∧
      ((Program.untilError (orCleanup body cleanup) items code).run exec world).2 =
        (cleanup.run exec state).2 := by
  induction items generalizing code world with
  | nil => simp at some
  | cons item rest ih =>
      have head := each item List.mem_cons_self
      rw [Program.untilError_cons, orCleanup, Program.run_bind, Program.run_bind]
      by_cases good : ok item = true
      · have zero := (head.result world).mpr good
        have later : ∃ item ∈ rest, ok item = false := by
          simpa [good] using some
        rw [if_neg (not_not.mpr zero), Program.run_ret, if_pos zero,
          List.takeWhile_cons_of_pos good, regionOf_cons]
        rcases ih (fun item mem => each item (List.mem_cons_of_mem _ mem)) later _ _ with
          ⟨state, before, ends⟩
        exact ⟨state, (head.done world good).trans idem before, ends⟩
      · have failed : ((body item).run exec world).1 ≠ 0 :=
          fun zero => good ((head.result world).mp zero)
        rw [if_pos failed, Program.run_bind, Program.run_ret, if_neg failed,
          List.takeWhile_cons_of_neg good, regionOf_nil]
        exact ⟨_, head.untouched world (by simpa using good), rfl⟩

end Attempts

/-! ## Rounds that rewrite their own component -/

section Own

variable {Op : Type u} {Res : Op → Type v} [DecidableEq ι]
  {exec : (op : Op) → (ι → δ) → Res op × (ι → δ)} {rewrite : δ → δ}

/-- A loop over distinct components rewrites each of them once. -/
theorem run_forEach_rewrite {body : ι → Program Op Res PUnit.{w + 1}}
    (own : ∀ item state, ((body item).run exec state).2 =
      Function.update state item (rewrite (state item)))
    {items : List ι} (nodup : items.Nodup) (state : ι → δ) :
    ((Program.forEach body items).run exec state).2 =
      fun item => if item ∈ items then rewrite (state item) else state item := by
  induction items generalizing state with
  | nil => simp
  | cons item rest ih =>
      have apart := List.nodup_cons.mp nodup
      rw [Program.forEach_cons, Program.run_bind, ih apart.2, own]
      funext other
      by_cases same : other = item
      · subst same
        simp [apart.1]
      · simp [same]

/-- A walk none of whose rounds fails rewrites each component once as well. -/
theorem run_untilError_rewrite {body : ι → Program Op Res Int}
    (fine : ∀ item state, ((body item).run exec state).1 = 0)
    (own : ∀ item state, ((body item).run exec state).2 =
      Function.update state item (rewrite (state item)))
    {items : List ι} (nodup : items.Nodup) (code : Int) (state : ι → δ) :
    ((Program.untilError body items code).run exec state).2 =
      fun item => if item ∈ items then rewrite (state item) else state item := by
  induction items generalizing code state with
  | nil => simp
  | cons item rest ih =>
      have apart := List.nodup_cons.mp nodup
      rw [Program.untilError_cons, Program.run_bind, if_pos (fine item state), ih apart.2, own]
      funext other
      by_cases same : other = item
      · subst same
        simp [apart.1]
      · simp [same]

end Own

end NvmEmulator.Semantics
