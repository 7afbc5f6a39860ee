/-
# Loops that test at the end

`do body while (again)` with a bound on its rounds: the result is `none` when the bound
is not enough, so a result is a loop that terminates. The first rule asks for an invariant,
and for a count of the rounds still to come that each round lowers; the second one is about
a loop that is known to terminate. The third one compares two loops round by round.
-/

import Mathlib.Data.Nat.Notation

namespace NvmEmulator.Semantics

universe u

variable {σ : Type u}

/-- `do body while (again)`, of `fuel` rounds at most. -/
def doWhile (body : σ → Option σ) (again : σ → Bool) : Nat → σ → Option σ
  | 0, _ => none
  | fuel + 1, state =>
      (body state).bind fun next =>
        if again next then doWhile body again fuel next else some next

/-- A loop whose rounds keep an invariant and lower the rounds left returns. -/
theorem exists_doWhile {body : σ → Option σ} {again : σ → Bool} (holds post : σ → Prop)
    (left : σ → Nat) (some_left : ∀ state, holds state → 0 < left state)
    (round : ∀ state, holds state → ∃ next, body state = some next ∧
      (again next = true → holds next ∧ left next < left state) ∧
      (again next = false → post next))
    {fuel : Nat} {state : σ} (start : holds state) (enough : left state ≤ fuel) :
    ∃ final, doWhile body again fuel state = some final ∧ post final := by
  induction fuel generalizing state with
  | zero =>
      have positive := some_left state start
      omega
  | succ fuel ih =>
      rcases round state start with ⟨next, step, more, done⟩
      rw [doWhile, step, Option.bind_some]
      cases again_next : again next with
      | true =>
          have rest := more again_next
          rw [if_pos rfl]
          exact ih rest.1 (by omega)
      | false =>
          exact ⟨next, if_neg (by decide), done again_next⟩

/-- What each round keeps, and the last one turns into the postcondition, holds of a result. -/
theorem doWhile_post {body : σ → Option σ} {again : σ → Bool} (holds post : σ → Prop)
    (round : ∀ state next, holds state → body state = some next →
      (again next = true → holds next) ∧ (again next = false → post next))
    {fuel : Nat} {state final : σ} (start : holds state)
    (result : doWhile body again fuel state = some final) : post final := by
  induction fuel generalizing state with
  | zero => cases result
  | succ fuel ih =>
      rw [doWhile] at result
      rcases Option.bind_eq_some_iff.mp result with ⟨next, step, rest⟩
      have later := round state next start step
      cases again_next : again next with
      | true =>
          rw [if_pos again_next] at rest
          exact ih (later.1 again_next) rest
      | false =>
          rw [again_next, if_neg Bool.false_ne_true] at rest
          cases rest
          exact later.2 again_next

/-- A loop whose rounds are those of another one, seen through a map. -/
theorem doWhile_map {τ : Type*} {body : σ → Option σ} {body' : τ → Option τ}
    {again : σ → Bool} {again' : τ → Bool} (f : σ → τ)
    (round : ∀ state, body' (f state) = (body state).map f)
    (test : ∀ state, again' (f state) = again state) (fuel : Nat) (state : σ) :
    doWhile body' again' fuel (f state) = (doWhile body again fuel state).map f := by
  induction fuel generalizing state with
  | zero => rfl
  | succ fuel ih =>
      rw [doWhile, doWhile, round]
      cases step : body state with
      | none => rfl
      | some next =>
          rw [Option.map_some, Option.bind_some, Option.bind_some, test]
          cases again next with
          | true => exact ih next
          | false => rfl

end NvmEmulator.Semantics
