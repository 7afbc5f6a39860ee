/-
# Programs under interference

A driver function is rarely alone: hardware events, interrupts and other
processors change the state between any two of its accesses. `Reaches` is that
interleaved semantics, one access or one environment step at a time.

`Guarded` is the proof obligation that replaces reasoning about interleavings.
It is computed from the program text: before each access the environment may
have moved any number of times, the access must be one the guarantee permits,
and at the end the postcondition must hold however the environment goes on. The
soundness theorem says an obligation that held at the start holds, for what is
left of the program, in every state the interleaving reaches. Assertions stable
under the rely are the only ones the rules need.
-/

import NvmEmulator.Semantics.Program
import Mathlib.Logic.Relation

namespace NvmEmulator.Semantics

open Relation

universe u v w x

/-- What the accesses act on: how each one changes the state and answers, and in
which states it can be made at all. An access that is not ready waits. -/
structure Device (Op : Type u) (Res : Op → Type v) (σ : Type x) where
  /-- The effect and the answer of an access. -/
  exec : (op : Op) → σ → Res op × σ
  /-- The states in which the access does not block. -/
  ready : Op → σ → Prop := fun _ _ => True

variable {Op : Type u} {Res : Op → Type v} {σ : Type x} {α β : Type w}

/-! ## The interleaved semantics -/

/-- One step of a program and its environment. -/
inductive Step (device : Device Op Res σ) (env : σ → σ → Prop) :
    Program Op Res α × σ → Program Op Res α × σ → Prop
  | /-- The environment moves. -/
    environment {program : Program Op Res α} {before after : σ}
      (moves : env before after) : Step device env (program, before) (program, after)
  | /-- The program makes its next access. -/
    access {op : Op} {next : Res op → Program Op Res α} {state : σ}
      (ready : device.ready op state) :
      Step device env (.access op next, state)
        (next (device.exec op state).1, (device.exec op state).2)

/-- Any number of steps of a program and its environment. -/
def Reaches (device : Device Op Res σ) (env : σ → σ → Prop) :
    Program Op Res α × σ → Program Op Res α × σ → Prop :=
  ReflTransGen (Step device env)

/-- The program can run to the end with result `value` and final state `after`,
the environment having moved anywhere in between. -/
def Completes (device : Device Op Res σ) (env : σ → σ → Prop)
    (program : Program Op Res α) (before : σ) (value : α) (after : σ) : Prop :=
  Reaches device env (program, before) (.ret value, after)

/-- What the environment does before the program starts is part of its run. -/
theorem Completes.of_env {device : Device Op Res σ} {env : σ → σ → Prop}
    {program : Program Op Res α} {before middle after : σ} {value : α}
    (moves : ReflTransGen env before middle)
    (rest : Completes device env program middle value after) :
    Completes device env program before value after := by
  induction moves using ReflTransGen.head_induction_on with
  | refl => exact rest
  | head move _ ih => exact ReflTransGen.head (.environment move) ih

/-- A run of the first part continues as a run of the composition. -/
theorem Reaches.bind {device : Device Op Res σ} {env : σ → σ → Prop}
    {source target : Program Op Res α × σ} (reaches : Reaches device env source target)
    (follow : α → Program Op Res β) :
    Reaches device env (source.1.bind follow, source.2)
      (target.1.bind follow, target.2) := by
  induction reaches with
  | refl => exact .refl
  | tail _ step ih =>
      refine ih.tail ?_
      cases step with
      | environment moves => exact .environment moves
      | access ready => exact .access ready

/-- A composition gets as far as its second part does, once the first has ended. -/
theorem Completes.followed {device : Device Op Res σ} {env : σ → σ → Prop}
    {first : Program Op Res α} {before middle : σ} {value : α}
    (completes : Completes device env first before value middle)
    {follow : α → Program Op Res β} {target : Program Op Res β × σ}
    (rest : Reaches device env (follow value, middle) target) :
    Reaches device env (first.bind follow, before) target :=
  ReflTransGen.trans (Reaches.bind completes follow) rest

/-- Running alone is one of the interleavings, when no access has to wait as long as an
invariant holds that each access keeps. -/
theorem reaches_run_of_keeps {device : Device Op Res σ} {env : σ → σ → Prop}
    {program : Program Op Res α} {invariant : σ → Prop}
    (makes : program.Makes fun op => ∀ state, invariant state →
      device.ready op state ∧ invariant (device.exec op state).2)
    {before : σ} (holds : invariant before) :
    Completes device env program before (program.run device.exec before).1
      (program.run device.exec before).2 := by
  induction program generalizing before with
  | ret value => exact .refl
  | access op next ih =>
      have step := makes.1 before holds
      exact ReflTransGen.head (.access step.1) (ih _ (makes.2 _) step.2)

/-- Running alone is one of the interleavings, when no access ever has to wait. -/
theorem reaches_run {device : Device Op Res σ} {env : σ → σ → Prop}
    {program : Program Op Res α} (ready : program.Makes fun op => ∀ state, device.ready op state)
    (before : σ) :
    Completes device env program before (program.run device.exec before).1
      (program.run device.exec before).2 := by
  have keeps : program.Makes fun op => ∀ state, True → device.ready op state ∧ True :=
    ready.mono fun _ always state _ => ⟨always state, trivial⟩
  exact reaches_run_of_keeps keeps trivial

/-- While an environment that cannot move watches, a program only runs alone. -/
theorem Reaches.run_eq {device : Device Op Res σ} {env : σ → σ → Prop} {invariant : σ → Prop}
    (still : ∀ before after, invariant before → env before after → after = before)
    {source target : Program Op Res α × σ}
    (makes : source.1.Makes fun op => ∀ state, invariant state →
      invariant (device.exec op state).2)
    (holds : invariant source.2) (reaches : Reaches device env source target) :
    target.1.run device.exec target.2 = source.1.run device.exec source.2 := by
  induction reaches using ReflTransGen.head_induction_on with
  | refl => rfl
  | head step _ ih =>
      cases step with
      | environment moves =>
          have same := still _ _ holds moves
          subst same
          exact ih makes holds
      | access ready => exact ih (makes.2 _) (makes.1 _ holds)

/-- Wherever a program gets it makes no other accesses, and what they and the environment keep
still holds. -/
theorem Reaches.keeps {device : Device Op Res σ} {env : σ → σ → Prop} {allowed : Op → Prop}
    {invariant : σ → Prop} {source target : Program Op Res α × σ}
    (reaches : Reaches device env source target)
    (stable : ∀ before after, invariant before → env before after → invariant after)
    (keeps : ∀ op, allowed op → ∀ state, invariant state → invariant (device.exec op state).2)
    (makes : source.1.Makes allowed) (holds : invariant source.2) :
    target.1.Makes allowed ∧ invariant target.2 := by
  induction reaches with
  | refl => exact ⟨makes, holds⟩
  | tail _ step ih =>
      cases step with
      | environment moves => exact ⟨ih.1, stable _ _ ih.2 moves⟩
      | access ready => exact ⟨ih.1.2 _, keeps _ ih.1.1 _ ih.2⟩

/-- A program can make its first accesses alone, when no access has to wait as long as an
invariant holds that each access keeps. -/
theorem reaches_advance_of_keeps {device : Device Op Res σ} {env : σ → σ → Prop}
    {program : Program Op Res α} {invariant : σ → Prop}
    (makes : program.Makes fun op => ∀ state, invariant state →
      device.ready op state ∧ invariant (device.exec op state).2)
    (count : Nat) {state : σ} (holds : invariant state) :
    Reaches device env (program, state) (program.advance device.exec count state) ∧
      invariant (program.advance device.exec count state).2 := by
  induction count generalizing program state with
  | zero => exact ⟨.refl, holds⟩
  | succ count ih =>
      cases program with
      | ret value => exact ⟨.refl, holds⟩
      | access op next =>
          have step := makes.1 state holds
          have rest := ih (makes.2 (device.exec op state).1) step.2
          exact ⟨ReflTransGen.head (.access step.1) rest.1, rest.2⟩

/-- The same, when none ever has to wait. -/
theorem reaches_advance {device : Device Op Res σ} {env : σ → σ → Prop}
    {program : Program Op Res α} (ready : program.Makes fun op => ∀ state, device.ready op state)
    (count : Nat) (state : σ) :
    Reaches device env (program, state) (program.advance device.exec count state) := by
  have keeps : program.Makes fun op => ∀ state, True → device.ready op state ∧ True :=
    ready.mono fun _ always state _ => ⟨always state, trivial⟩
  exact (reaches_advance_of_keeps keeps count trivial).1

/-! ### Runs under a condition -/

/-- The device on which an access waits for a condition as well: its runs are the runs of
the device in which every access meets the condition. -/
def Device.restrict (device : Device Op Res σ) (allowed : Op → σ → Prop) : Device Op Res σ where
  exec := device.exec
  ready op state := device.ready op state ∧ allowed op state

/-- The device with a record of the accesses beside its state. -/
def Device.observe {τ : Type*} (device : Device Op Res σ)
    (note : (op : Op) → Res op → τ → τ) : Device Op Res (σ × τ) where
  exec op state :=
    let outcome := device.exec op state.1
    (outcome.1, outcome.2, note op outcome.1 state.2)
  ready op state := device.ready op state.1

/-! ## Stable assertions -/

/-- An assertion no step of the rely can falsify. -/
def Stable (rely : σ → σ → Prop) (assertion : σ → Prop) : Prop :=
  ∀ ⦃before after : σ⦄, rely before after → assertion before → assertion after

theorem Stable.star {rely : σ → σ → Prop} {assertion : σ → Prop}
    (stable : Stable rely assertion) : Stable (ReflTransGen rely) assertion := by
  intro before after moves holds
  induction moves with
  | refl => exact holds
  | tail _ move ih => exact stable move ih

theorem Stable.and {rely : σ → σ → Prop} {first second : σ → Prop}
    (left : Stable rely first) (right : Stable rely second) :
    Stable rely fun state => first state ∧ second state :=
  fun _ _ move holds => ⟨left move holds.1, right move holds.2⟩

/-! ## Proof obligations -/

section Guarded

variable (device : Device Op Res σ) (rely guar : σ → σ → Prop)

/-- The rely/guarantee obligation of a program in a state. -/
def Guarded (post : α → σ → Prop) : Program Op Res α → σ → Prop
  | .ret value, state => ∀ later, ReflTransGen rely state later → post value later
  | .access op next, state => ∀ later, ReflTransGen rely state later →
      device.ready op later →
        guar later (device.exec op later).2 ∧
          Guarded post (next (device.exec op later).1) (device.exec op later).2

variable {device rely guar}

/-- An obligation survives the environment. -/
theorem Guarded.of_rely {post : α → σ → Prop} {program : Program Op Res α}
    {state later : σ} (guarded : Guarded device rely guar post program state)
    (moves : ReflTransGen rely state later) :
    Guarded device rely guar post program later := by
  cases program with
  | ret value => exact fun final rest => guarded final (moves.trans rest)
  | access op next => exact fun final rest => guarded final (moves.trans rest)

/-- A finished program owes its postcondition in every state the rely leads to. -/
theorem Guarded.ret {post : α → σ → Prop} {value : α} {state : σ}
    (stable : Stable rely (post value)) (holds : post value state) :
    Guarded device rely guar post (.ret value) state :=
  fun _ moves => stable.star moves holds

/-- The obligation of one access, under an assertion the rely keeps. -/
theorem Guarded.access {post : α → σ → Prop} {op : Op}
    {next : Res op → Program Op Res α} {state : σ} (assertion : σ → Prop)
    (stable : Stable rely assertion) (holds : assertion state)
    (step : ∀ later, assertion later → device.ready op later →
      guar later (device.exec op later).2 ∧
        Guarded device rely guar post (next (device.exec op later).1)
          (device.exec op later).2) :
    Guarded device rely guar post (.access op next) state :=
  fun later moves => step later (stable.star moves holds)

theorem Guarded.mono {post weaker : α → σ → Prop} {program : Program Op Res α}
    {state : σ} (guarded : Guarded device rely guar post program state)
    (implies : ∀ value later, post value later → weaker value later) :
    Guarded device rely guar weaker program state := by
  induction program generalizing state with
  | ret value => exact fun later moves => implies value later (guarded later moves)
  | access op next ih =>
      intro later moves ready
      obtain ⟨permitted, rest⟩ := guarded later moves ready
      exact ⟨permitted, ih _ rest⟩

/-- Two obligations of one program, kept together. -/
theorem Guarded.both {first second : α → σ → Prop} {other : σ → σ → Prop}
    {program : Program Op Res α} {state : σ}
    (left : Guarded device rely guar first program state)
    (right : Guarded device rely other second program state) :
    Guarded device rely guar (fun value later => first value later ∧ second value later)
      program state := by
  induction program generalizing state with
  | ret value => exact fun later moves => ⟨left later moves, right later moves⟩
  | access op next ih =>
      intro later moves ready
      obtain ⟨permitted, rest⟩ := left later moves ready
      exact ⟨permitted, ih _ rest (right later moves ready).2⟩

/-- Sequential composition: the first postcondition is the second precondition. -/
theorem Guarded.bind {middle : α → σ → Prop} {post : β → σ → Prop}
    {program : Program Op Res α} {follow : α → Program Op Res β} {state : σ}
    (first : Guarded device rely guar middle program state)
    (second : ∀ value later, middle value later →
      Guarded device rely guar post (follow value) later) :
    Guarded device rely guar post (program.bind follow) state := by
  induction program generalizing state with
  | ret value => exact second value state (first state .refl)
  | access op next ih =>
      intro later moves ready
      obtain ⟨permitted, rest⟩ := first later moves ready
      exact ⟨permitted, ih _ rest⟩

/-- The loop rule: an invariant of what is still to be visited. -/
theorem Guarded.forEach {ι : Type*} {body : ι → Program Op Res PUnit.{w + 1}}
    (invariant : List ι → σ → Prop) (stable : Stable rely (invariant []))
    (round : ∀ item rest state, invariant (item :: rest) state →
      Guarded device rely guar (fun _ => invariant rest) (body item) state)
    {items : List ι} {state : σ} (start : invariant items state) :
    Guarded device rely guar (fun _ => invariant []) (Program.forEach body items)
      state := by
  induction items generalizing state with
  | nil => exact .ret stable start
  | cons item rest ih =>
      exact (round item rest state start).bind fun _ later holds => ih holds

/-- The loop rule for a walk that leaves at the first error: `remaining` is the
invariant of what is still to be visited, `final` what holds when the walk ends. -/
theorem Guarded.untilError {ι : Type*} {body : ι → Program Op Res Int}
    (remaining : List ι → σ → Prop) (final : σ → Prop) (stable : Stable rely final)
    (finish : ∀ state, remaining [] state → final state)
    (round : ∀ item rest state, remaining (item :: rest) state →
      Guarded device rely guar
        (fun code later => (code = 0 → remaining rest later) ∧ (code ≠ 0 → final later))
        (body item) state)
    {items : List ι} {code : Int} {state : σ} (start : remaining items state) :
    Guarded device rely guar (fun _ => final) (Program.untilError body items code) state := by
  induction items generalizing code state with
  | nil => exact .ret stable (finish state start)
  | cons item rest ih =>
      refine (round item rest state start).bind fun ret later holds => ?_
      by_cases fine : ret = 0
      · rw [if_pos fine]
        exact ih (holds.1 fine)
      · rw [if_neg fine]
        exact .ret stable (holds.2 fine)

/-- A stable assertion that every permitted access keeps is kept by the program. -/
theorem Guarded.of_makes {allowed : Op → Prop} {program : Program Op Res α}
    {invariant : σ → Prop} (makes : program.Makes allowed)
    (stable : Stable rely invariant)
    (keeps : ∀ op, allowed op → ∀ state, invariant state → device.ready op state →
      guar state (device.exec op state).2 ∧ invariant (device.exec op state).2)
    {state : σ} (holds : invariant state) :
    Guarded device rely guar (fun _ => invariant) program state := by
  induction program generalizing state with
  | ret value => exact .ret stable holds
  | access op next ih =>
      refine .access invariant stable holds fun later held ready => ?_
      obtain ⟨permitted, kept⟩ := keeps op makes.1 later held ready
      exact ⟨permitted, ih _ (makes.2 _) kept⟩

/-- Where the rely does not touch what a program sees, the program does what it would
do alone. `view` is what it sees, `good` the views in which the rely keeps off. -/
theorem Guarded.of_run {τ : Type*} {view : σ → τ} {good : τ → Prop} {allowed : Op → Prop}
    {program : Program Op Res α} (makes : program.Makes allowed)
    (fixed : ∀ before after, rely before after → good (view before) →
      view after = view before)
    (acts : ∀ op, allowed op → ∀ state alone, view state = view alone → good (view state) →
      (device.exec op state).1 = (device.exec op alone).1 ∧
        view (device.exec op state).2 = view (device.exec op alone).2 ∧
        good (view (device.exec op state).2) ∧ guar state (device.exec op state).2)
    {state alone : σ} (same : view state = view alone) (start : good (view state)) :
    Guarded device rely guar
      (fun value later => value = (program.run device.exec alone).1 ∧
        view later = view (program.run device.exec alone).2 ∧ good (view later))
      program state := by
  have off : ∀ before later, ReflTransGen rely before later → good (view before) →
      view later = view before := by
    intro before later moves holds
    induction moves with
    | refl => rfl
    | tail _ move ih => rw [fixed _ _ move (ih ▸ holds), ih]
  induction program generalizing state alone with
  | ret value =>
      intro later moves
      have unmoved := off state later moves start
      exact ⟨rfl, unmoved.trans same, unmoved ▸ start⟩
  | access op next ih =>
      intro later moves _
      have unmoved := off state later moves start
      obtain ⟨answer, view', good', permitted⟩ :=
        acts op makes.1 later alone (unmoved.trans same) (unmoved ▸ start)
      refine ⟨permitted, ?_⟩
      rw [answer]
      exact ih _ (makes.2 _) view' good'

/-- What both the rely and the guarantee keep may be added to the postcondition. -/
theorem Guarded.conserve {post : α → σ → Prop} {program : Program Op Res α}
    {invariant : σ → Prop} {state : σ} (guarded : Guarded device rely guar post program state)
    (stable : Stable rely invariant) (kept : Stable guar invariant) (holds : invariant state) :
    Guarded device rely guar (fun value later => post value later ∧ invariant later) program
      state := by
  induction program generalizing state with
  | ret value => exact fun later moves => ⟨guarded later moves, stable.star moves holds⟩
  | access op next ih =>
      intro later moves ready
      obtain ⟨permitted, rest⟩ := guarded later moves ready
      exact ⟨permitted, ih _ rest (kept permitted (stable.star moves holds))⟩

/-- What every run returns may be added to the postcondition. -/
theorem Guarded.ends {post : α → σ → Prop} {good : α → Prop} {program : Program Op Res α}
    {state : σ} (guarded : Guarded device rely guar post program state)
    (ends : program.Ends good) :
    Guarded device rely guar (fun value later => good value ∧ post value later) program
      state := by
  induction program generalizing state with
  | ret value => exact fun later moves => ⟨ends, guarded later moves⟩
  | access op next ih =>
      intro later moves ready
      obtain ⟨permitted, rest⟩ := guarded later moves ready
      exact ⟨permitted, ih _ rest (ends _)⟩

/-- Keeping a stable assertion is closed under composition. -/
theorem Guarded.closed {Res : Op → Type} {device : Device Op Res σ} {assertion : σ → Prop}
    (stable : Stable rely assertion) :
    Program.Closed fun α (program : Program Op Res α) => ∀ state, assertion state →
      Guarded device rely guar (fun _ => assertion) program state where
  ret _ _ holds := .ret stable holds
  bind first later state holds := (first state holds).bind later

/-! ## Soundness -/

variable {env : σ → σ → Prop}

theorem Guarded.of_step {post : α → σ → Prop}
    {source target : Program Op Res α × σ}
    (covered : ∀ before after, env before after → rely before after)
    (guarded : Guarded device rely guar post source.1 source.2)
    (step : Step device env source target) :
    Guarded device rely guar post target.1 target.2 := by
  cases step with
  | environment moves => exact guarded.of_rely (.single (covered _ _ moves))
  | access ready => exact (guarded _ .refl ready).2

/-- What is left of the program still meets its obligation, wherever the
interleaving has got to. -/
theorem Guarded.of_reaches {post : α → σ → Prop}
    {source target : Program Op Res α × σ}
    (covered : ∀ before after, env before after → rely before after)
    (guarded : Guarded device rely guar post source.1 source.2)
    (reaches : Reaches device env source target) :
    Guarded device rely guar post target.1 target.2 := by
  induction reaches with
  | refl => exact guarded
  | tail _ step ih => exact ih.of_step covered step

/-- What both the environment and the guarantee keep holds wherever the interleaving has got
to. -/
theorem Guarded.holds_of_reaches {post : α → σ → Prop} {invariant : σ → Prop}
    {source target : Program Op Res α × σ}
    (covered : ∀ before after, env before after → rely before after)
    (stable : Stable env invariant) (kept : Stable guar invariant)
    (guarded : Guarded device rely guar post source.1 source.2) (holds : invariant source.2)
    (reaches : Reaches device env source target) : invariant target.2 := by
  induction reaches with
  | refl => exact holds
  | @tail middle final earlier step ih =>
      have rest := guarded.of_reaches covered earlier
      cases step with
      | environment moves => exact stable moves ih
      | access ready => exact kept (rest _ .refl ready).1 ih

/-- A guarded program establishes its postcondition in every interleaving. -/
theorem Guarded.completes {post : α → σ → Prop} {program : Program Op Res α}
    {before after : σ} {value : α}
    (covered : ∀ before after, env before after → rely before after)
    (guarded : Guarded device rely guar post program before)
    (completes : Completes device env program before value after) :
    post value after :=
  (guarded.of_reaches covered completes) after .refl

end Guarded

end NvmEmulator.Semantics
