/-
# Simulation

A program meets its obligation on a small device, where little comes in between. On a larger
one more does, and some answers are different, but of these the program looks only at a part.
When the states of the two devices stay related, the program meets its obligation on the larger
device as well.
-/

import NvmEmulator.Semantics.Interference

namespace NvmEmulator.Semantics

open Relation

universe u v w x y

variable {Op : Type u} {Res : Op → Type v} {α β : Type w}

namespace Program

variable {same : (op : Op) → Res op → Res op → Prop}

/-- The program goes on alike after answers that are the same to it. -/
def Respects (same : (op : Op) → Res op → Res op → Prop) : Program Op Res α → Prop
  | .ret _ => True
  | .access op next =>
      (∀ first second, same op first second → next first = next second) ∧
        ∀ answer, (next answer).Respects same

theorem Respects.bind {program : Program Op Res α} {follow : α → Program Op Res β}
    (first : program.Respects same) (later : ∀ value, (follow value).Respects same) :
    (program.bind follow).Respects same := by
  induction program with
  | ret value => exact later value
  | access op next ih =>
      refine ⟨fun one two alike => ?_, fun answer => ih answer (first.2 answer)⟩
      exact congrArg (fun program => program.bind follow) (first.1 one two alike)

/-- Where only equal answers are the same, there is nothing to show. -/
theorem Respects.of_makes {program : Program Op Res α}
    (makes : program.Makes fun op => ∀ first second, same op first second → first = second) :
    program.Respects same := by
  induction program with
  | ret value => trivial
  | access op next ih =>
      exact ⟨fun one two alike => congrArg next (makes.1 one two alike),
        fun answer => ih answer (makes.2 answer)⟩

end Program

section Simulation

variable {σ : Type x} {τ : Type y} {device : Device Op Res σ} {model : Device Op Res τ}
  {rely guar : σ → σ → Prop} {modelRely modelGuar : τ → τ → Prop} {related : σ → τ → Prop}
  {same : (op : Op) → Res op → Res op → Prop} {allowed : Op → Prop}

/-- What comes in between on the device comes in between on the model. -/
def Follows (rely : σ → σ → Prop) (modelRely : τ → τ → Prop) (related : σ → τ → Prop) : Prop :=
  ∀ before after small, related before small → rely before after →
    ∃ later, ReflTransGen modelRely small later ∧ related after later

theorem Follows.star (follows : Follows rely modelRely related) {before after : σ} {small : τ}
    (start : related before small) (moves : ReflTransGen rely before after) :
    ∃ later, ReflTransGen modelRely small later ∧ related after later := by
  induction moves with
  | refl => exact ⟨small, .refl, start⟩
  | tail _ move ih =>
      obtain ⟨middle, first, held⟩ := ih
      obtain ⟨later, second, held⟩ := follows _ _ middle held move
      exact ⟨later, first.trans second, held⟩

/-- An obligation that is met on the model is met on the device. -/
theorem Guarded.simulate {post : α → τ → Prop} {program : Program Op Res α}
    (respects : program.Respects same) (makes : program.Makes allowed)
    (follows : Follows rely modelRely related)
    (acts : ∀ op, allowed op → ∀ state small, related state small → device.ready op state →
      model.ready op small ∧ same op (device.exec op state).1 (model.exec op small).1 ∧
        related (device.exec op state).2 (model.exec op small).2 ∧
          guar state (device.exec op state).2)
    {state : σ} {small : τ} (start : related state small)
    (guarded : Guarded model modelRely modelGuar post program small) :
    Guarded device rely guar (fun value later => ∃ last, related later last ∧ post value last)
      program state := by
  induction program generalizing state small with
  | ret value =>
      intro later moves
      obtain ⟨last, run, held⟩ := follows.star start moves
      exact ⟨last, held, guarded last run⟩
  | access op next ih =>
      intro later moves ready
      obtain ⟨last, run, held⟩ := follows.star start moves
      obtain ⟨able, alike, held, permitted⟩ := acts op makes.1 later last held ready
      have rest := (guarded last run able).2
      rw [← respects.1 _ _ alike] at rest
      exact ⟨permitted, ih _ (respects.2 _) (makes.2 _) held rest⟩

end Simulation

end NvmEmulator.Semantics
