/-
# Calls that may fail

A kernel function returns 0 or an error code and leaves a state behind either way.
Here such functions are composed as C composes them: one after the other while they
succeed, in a loop that the first error leaves, and under a label that undoes what
was done. `Meets` is their triple: one postcondition for success, one for failure.
-/

import Mathlib.Logic.Basic

namespace NvmEmulator.Semantics

universe u v w

/-- A function that returns 0 or an error code, and a state. -/
abbrev Call (σ : Type u) := σ → Int × σ

namespace Call

variable {σ : Type u} {α : Type v} {β : Type w}

/-- Return a code. -/
def ret (code : Int) : Call σ := fun state => (code, state)

/-- A step that cannot fail. -/
def act (change : σ → σ) : Call σ := fun state => (0, change state)

/-- `ret = first(); if (ret) return ret; return second();` -/
def andThen (first second : Call σ) : Call σ := fun state =>
  if (first state).1 = 0 then second (first state).2 else first state

/-- `ret = call(); if (ret) goto label;`, where the code at the label returns `ret`. -/
def onError (call : Call σ) (label : σ → σ) : Call σ := fun state =>
  if (call state).1 = 0 then call state else ((call state).1, label (call state).2)

/-- A loop that the first error leaves. -/
def each (step : α → Call σ) : List α → Call σ
  | [] => ret 0
  | item :: rest => (step item).andThen (each step rest)

theorem andThen_of_zero {first second : Call σ} {state : σ}
    (zero : (first.andThen second state).1 = 0) :
    (first state).1 = 0 ∧ first.andThen second state = second (first state).2 := by
  by_cases passed : (first state).1 = 0
  · exact ⟨passed, if_pos passed⟩
  · rw [andThen, if_neg passed] at zero
    exact absurd zero passed

theorem onError_of_zero {call : Call σ} {label : σ → σ} {state : σ}
    (zero : (call.onError label state).1 = 0) : call.onError label state = call state := by
  by_cases passed : (call state).1 = 0
  · exact if_pos passed
  · rw [onError, if_neg passed] at zero
    exact absurd zero passed

/-! ## Loops put together -/

theorem andThen_assoc (first second third : Call σ) :
    (first.andThen second).andThen third = first.andThen (second.andThen third) := by
  funext state
  by_cases zero : (first state).1 = 0
  · simp only [andThen, if_pos zero]
  · simp only [andThen, if_neg zero]

theorem each_append (step : α → Call σ) (first second : List α) :
    each step (first ++ second) = (each step first).andThen (each step second) := by
  induction first with
  | nil => rfl
  | cons item rest ih =>
      rw [List.cons_append, each, each, ih, andThen_assoc]

theorem each_map (step : β → Call σ) (f : α → β) (items : List α) :
    each step (items.map f) = each (fun item => step (f item)) items := by
  induction items with
  | nil => rfl
  | cons item rest ih => rw [List.map_cons, each, each, ih]

/-- A loop in a loop is one loop over the pairs. -/
theorem each_each (step : α → β → Call σ) (inner : α → List β) (items : List α) :
    each (fun item => each (step item) (inner item)) items =
      each (fun pair : α × β => step pair.1 pair.2)
        (items.flatMap fun item => (inner item).map (Prod.mk item)) := by
  induction items with
  | nil => rfl
  | cons item rest ih =>
      rw [each, ih, List.flatMap_cons, each_append, each_map]

/-! ## Triples -/

/-- From `before`, the call establishes `done` if it succeeds and `failed` if not. -/
structure Meets (before : σ → Prop) (call : Call σ) (done failed : σ → Prop) : Prop where
  done : ∀ {state}, before state → (call state).1 = 0 → done (call state).2
  failed : ∀ {state}, before state → (call state).1 ≠ 0 → failed (call state).2

namespace Meets

variable {before done failed : σ → Prop} {call : Call σ}

/-- The rule of consequence. -/
theorem imp {before' done' failed' : σ → Prop} (meets : Meets before call done failed)
    (pre : ∀ state, before' state → before state) (post : ∀ state, done state → done' state)
    (err : ∀ state, failed state → failed' state) : Meets before' call done' failed' where
  done start zero := post _ (meets.done (pre _ start) zero)
  failed start code := err _ (meets.failed (pre _ start) code)

/-- What does not depend on the state is a hypothesis. -/
theorem given {fact : Prop} (meets : fact → Meets before call done failed) :
    Meets (fun state => fact ∧ before state) call done failed where
  done start zero := (meets start.1).done start.2 zero
  failed start code := (meets start.1).failed start.2 code

/-- Calls that agree where the triple starts. -/
theorem congr {other : Call σ} (meets : Meets before other done failed)
    (same : ∀ state, before state → call state = other state) :
    Meets before call done failed where
  done start zero := by
    rw [same _ start] at zero ⊢
    exact meets.done start zero
  failed start code := by
    rw [same _ start] at code ⊢
    exact meets.failed start code

theorem ret : Meets done (ret 0) done failed where
  done start _ := start
  failed _ code := absurd rfl code

theorem fail {code : Int} (error : code ≠ 0) (fails : ∀ state, before state → failed state) :
    Meets before (Call.ret code) done failed where
  done _ zero := absurd zero error
  failed start _ := fails _ start

theorem act {change : σ → σ} (moves : ∀ state, before state → done (change state)) :
    Meets before (act change) done failed where
  done start _ := moves _ start
  failed _ code := absurd rfl code

/-- A call that depends on the state it starts from. -/
theorem read (call : σ → Call σ)
    (meets : ∀ now, Meets (fun state => state = now ∧ before state) (call now) done failed) :
    Meets before (fun state => call state state) done failed where
  done start zero := (meets _).done ⟨rfl, start⟩ zero
  failed start code := (meets _).failed ⟨rfl, start⟩ code

theorem andThen {second : Call σ} (between : σ → Prop)
    (first : Meets before call between failed) (next : Meets between second done failed) :
    Meets before (call.andThen second) done failed where
  done {state} start zero := by
    by_cases passed : (call state).1 = 0
    · simp only [Call.andThen, if_pos passed] at zero ⊢
      exact next.done (first.done start passed) zero
    · simp only [Call.andThen, if_neg passed] at zero
      exact absurd zero passed
  failed {state} start code := by
    by_cases passed : (call state).1 = 0
    · simp only [Call.andThen, if_pos passed] at code ⊢
      exact next.failed (first.done start passed) code
    · simp only [Call.andThen, if_neg passed] at code ⊢
      exact first.failed start code

theorem onError {label : σ → σ} (broken : σ → Prop) (meets : Meets before call done broken)
    (undo : ∀ state, broken state → failed (label state)) :
    Meets before (call.onError label) done failed where
  done {state} start zero := by
    by_cases passed : (call state).1 = 0
    · simp only [Call.onError, if_pos passed]
      exact meets.done start passed
    · simp only [Call.onError, if_neg passed] at zero
      exact absurd zero passed
  failed {state} start code := by
    by_cases passed : (call state).1 = 0
    · simp only [Call.onError, if_pos passed] at code
      exact absurd passed code
    · simp only [Call.onError, if_neg passed]
      exact undo _ (meets.failed start passed)

/-- A loop whose rounds each extend what holds of the items done so far. -/
theorem each {step : α → Call σ} (holds : List α → σ → Prop) {items : List α}
    (round : ∀ earlier item later, items = earlier ++ item :: later →
      Meets (holds earlier) (step item) (holds (earlier ++ [item])) failed) :
    Meets (holds []) (each step items) (holds items) failed := by
  -- the invariant speaks of the items before the rest of the loop
  have suffix : ∀ rest earlier, items = earlier ++ rest →
      Meets (holds earlier) (Call.each step rest) (holds items) failed := by
    intro rest
    induction rest with
    | nil =>
        intro earlier split
        rw [split, List.append_nil]
        exact .ret
    | cons item later ih =>
        intro earlier split
        exact (round earlier item later split).andThen (holds (earlier ++ [item]))
          (ih (earlier ++ [item]) (by rw [split, List.append_assoc, List.singleton_append]))
  exact suffix items [] rfl

/-- A loop whose rounds keep an invariant. -/
theorem loop {step : α → Call σ} {items : List α}
    (round : ∀ item ∈ items, Meets done (step item) done failed) :
    Meets done (Call.each step items) done failed := by
  apply each (fun _ => done)
  intro earlier item later split
  exact round item (by simp [split])

end Meets

end Call

end NvmEmulator.Semantics
