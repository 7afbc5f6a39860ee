/-
# Loops of accesses

`do body while (again)` where the body is a program: between any two of its accesses the
environment may move. The loop is bounded as in the sequential case, and its rule asks for the
same things, each round with an obligation of its own.
-/

import NvmEmulator.Semantics.Interference

namespace NvmEmulator.Semantics

universe u v w x

variable {Op : Type u} {Res : Op → Type v} {σ : Type x} {τ : Type w}

/-- `do body while (again)`, of `fuel` rounds at most. -/
def Program.doWhile (body : τ → Program Op Res (Option τ)) (again : τ → Bool) :
    Nat → τ → Program Op Res (Option τ)
  | 0, _ => .ret none
  | fuel + 1, place =>
      (body place).bind fun result =>
        match result with
        | none => .ret none
        | some next => if again next then Program.doWhile body again fuel next else .ret (some next)

/-- What a loop or a part of one leaves: it is not out of rounds, and something holds of what
it returns. -/
def Returns (post : τ → σ → Prop) (result : Option τ) (state : σ) : Prop :=
  ∃ value, result = some value ∧ post value state

theorem returns_stable {rely : σ → σ → Prop} {post : τ → σ → Prop}
    (stable : ∀ value, Stable rely (post value)) (result : Option τ) :
    Stable rely (Returns post result) := by
  rintro before after moves ⟨value, same, holds⟩
  exact ⟨value, same, stable value moves holds⟩

/-- A loop whose rounds keep an invariant and lower the rounds left returns, whatever comes in
between. -/
theorem Guarded.doWhile {device : Device Op Res σ} {rely guar : σ → σ → Prop}
    {body : τ → Program Op Res (Option τ)} {again : τ → Bool} (invariant post : τ → σ → Prop)
    (left : τ → Nat) (stable : ∀ place, Stable rely (post place))
    (round : ∀ place state, invariant place state → 0 < left place ∧
      Guarded device rely guar
        (Returns fun next later => (again next = true → invariant next later ∧
          left next < left place) ∧ (again next = false → post next later))
        (body place) state)
    {fuel : Nat} {place : τ} {state : σ} (start : invariant place state)
    (enough : left place ≤ fuel) :
    Guarded device rely guar (Returns post) (Program.doWhile body again fuel place) state := by
  induction fuel generalizing place state with
  | zero =>
      have positive := (round place state start).1
      omega
  | succ fuel ih =>
      refine (round place state start).2.bind ?_
      rintro _ later ⟨next, rfl, more, done⟩
      show Guarded device rely guar _ (if again next then _ else _) later
      cases again_next : again next with
      | true =>
          obtain ⟨holds, fewer⟩ := more again_next
          exact ih holds (by omega)
      | false =>
          exact .ret (returns_stable stable _) ⟨next, rfl, done again_next⟩

end NvmEmulator.Semantics
