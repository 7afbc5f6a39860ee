/-
# Threads

Several programs over one state: the module's own task, timer callbacks, writers
of a `/proc` file, handlers on each processor. A pool takes one access of one
thread at a time; threads are launched under conditions the system gives, which
may look at the whole pool.

The parallel rule makes the per-thread obligations of `Interference` enough: when
each thread's guarantee is covered by the others' relies, every thread still meets
its obligation in every pool that is reached.
-/

import NvmEmulator.Semantics.Interference

namespace NvmEmulator.Semantics

open Relation

universe u v x y

/-- Threads and the state they share. A finished thread is idle. -/
structure Pool (ι : Type y) (Op : Type u) (Res : Op → Type v) (σ : Type x) where
  threads : ι → Program Op Res Unit
  state : σ

namespace Pool

variable {ι : Type y} [DecidableEq ι] {Op : Type u} {Res : Op → Type v} {σ : Type x}

/-- One step of a pool. -/
inductive Step (device : Device Op Res σ) (env : σ → σ → Prop)
    (launch : Pool ι Op Res σ → ι → Program Op Res Unit → σ → Prop) :
    Pool ι Op Res σ → Pool ι Op Res σ → Prop
  | /-- The environment moves. -/
    environment {pool : Pool ι Op Res σ} {after : σ} (moves : env pool.state after) :
      Step device env launch pool ⟨pool.threads, after⟩
  | /-- A thread makes its next access. -/
    access {pool : Pool ι Op Res σ} {thread : ι} {op : Op}
      {next : Res op → Program Op Res Unit} (here : pool.threads thread = .access op next)
      (ready : device.ready op pool.state) :
      Step device env launch pool
        ⟨Function.update pool.threads thread (next (device.exec op pool.state).1),
          (device.exec op pool.state).2⟩
  | /-- A thread is given a program. -/
    launch {pool : Pool ι Op Res σ} {thread : ι} {program : Program Op Res Unit} {after : σ}
      (launches : launch pool thread program after) :
      Step device env launch pool ⟨Function.update pool.threads thread program, after⟩

/-- Any number of steps of a pool. -/
def Reaches (device : Device Op Res σ) (env : σ → σ → Prop)
    (launch : Pool ι Op Res σ → ι → Program Op Res Unit → σ → Prop) :
    Pool ι Op Res σ → Pool ι Op Res σ → Prop :=
  ReflTransGen (Step device env launch)

/-- A run of one thread in the environment is a run of the pool. -/
theorem reaches_of_thread {device : Device Op Res σ} {env : σ → σ → Prop}
    {launch : Pool ι Op Res σ → ι → Program Op Res Unit → σ → Prop}
    (pool : Pool ι Op Res σ) (thread : ι) {target : Program Op Res Unit × σ}
    (reaches : Semantics.Reaches device env (pool.threads thread, pool.state) target) :
    Reaches device env launch pool
      ⟨Function.update pool.threads thread target.1, target.2⟩ := by
  induction reaches with
  | refl =>
      rw [Function.update_eq_self]
      exact .refl
  | tail _ step ih =>
      refine ih.tail ?_
      cases step with
      | environment moves => exact .environment moves
      | @access op next state ready =>
          let waiting : Pool ι Op Res σ :=
            ⟨Function.update pool.threads thread (.access op next), state⟩
          have here : waiting.threads thread = .access op next := Function.update_self _ _ _
          have step : Step device env launch waiting _ := .access here ready
          rwa [Function.update_idem] at step

/-- A thread can be launched and run to its end. -/
theorem reaches_of_launch {device : Device Op Res σ} {env : σ → σ → Prop}
    {launch : Pool ι Op Res σ → ι → Program Op Res Unit → σ → Prop}
    {threads : ι → Program Op Res Unit} {thread : ι} {program : Program Op Res Unit}
    {before after final : σ} (idle : threads thread = .ret ())
    (launches : launch ⟨threads, before⟩ thread program after)
    (completes : Completes device env program after () final) :
    Reaches device env launch ⟨threads, before⟩ ⟨threads, final⟩ := by
  let begun : Pool ι Op Res σ := ⟨Function.update threads thread program, after⟩
  have here : begun.threads thread = program := Function.update_self _ _ _
  have runs : Semantics.Reaches device env (begun.threads thread, begun.state)
      (.ret (), final) := by
    rw [here]
    exact completes
  have ends : Reaches device env launch begun _ := reaches_of_thread begun thread runs
  have same : Function.update begun.threads thread (.ret ()) = threads := by
    rw [Function.update_idem, ← idle, Function.update_eq_self]
  rw [same] at ends
  exact ReflTransGen.head (.launch launches) ends

/-- A run in which every access meets a condition is a run. -/
theorem Reaches.of_restrict {device : Device Op Res σ} {allowed : Op → σ → Prop}
    {env : σ → σ → Prop} {launch : Pool ι Op Res σ → ι → Program Op Res Unit → σ → Prop}
    {before after : Pool ι Op Res σ}
    (reaches : Reaches (device.restrict allowed) env launch before after) :
    Reaches device env launch before after := by
  induction reaches with
  | refl => exact .refl
  | tail _ step ih =>
      apply ih.tail
      cases step with
      | environment moves => exact .environment moves
      | access here ready => exact .access here ready.1
      | launch launches => exact .launch launches

/-- Where every access meets the condition, so does a run. -/
theorem Reaches.restrict {device : Device Op Res σ} {allowed : Op → σ → Prop}
    {env : σ → σ → Prop} {launch : Pool ι Op Res σ → ι → Program Op Res Unit → σ → Prop}
    {before after : Pool ι Op Res σ} (reaches : Reaches device env launch before after)
    (always : ∀ op state, allowed op state) :
    Reaches (device.restrict allowed) env launch before after := by
  induction reaches with
  | refl => exact .refl
  | tail _ step ih =>
      apply ih.tail
      cases step with
      | environment moves => exact .environment moves
      | access here ready => exact .access here ⟨ready, always _ _⟩
      | launch launches => exact .launch launches

/-! ### Runs under a condition

A condition on the steps of a run may look at the whole pool: what the other threads are
about to do when one makes an access. -/

/-- One step of a pool in which every access meets a condition. -/
inductive StepWhen (device : Device Op Res σ) (env : σ → σ → Prop)
    (launch : Pool ι Op Res σ → ι → Program Op Res Unit → σ → Prop)
    (permitted : Pool ι Op Res σ → ι → Op → Prop) : Pool ι Op Res σ → Pool ι Op Res σ → Prop
  | environment {pool : Pool ι Op Res σ} {after : σ} (moves : env pool.state after) :
      StepWhen device env launch permitted pool ⟨pool.threads, after⟩
  | access {pool : Pool ι Op Res σ} {thread : ι} {op : Op}
      {next : Res op → Program Op Res Unit} (here : pool.threads thread = .access op next)
      (ready : device.ready op pool.state) (meets : permitted pool thread op) :
      StepWhen device env launch permitted pool
        ⟨Function.update pool.threads thread (next (device.exec op pool.state).1),
          (device.exec op pool.state).2⟩
  | launch {pool : Pool ι Op Res σ} {thread : ι} {program : Program Op Res Unit} {after : σ}
      (launches : launch pool thread program after) :
      StepWhen device env launch permitted pool
        ⟨Function.update pool.threads thread program, after⟩

/-- Any number of steps of a pool that meet a condition. -/
def ReachesWhen (device : Device Op Res σ) (env : σ → σ → Prop)
    (launch : Pool ι Op Res σ → ι → Program Op Res Unit → σ → Prop)
    (permitted : Pool ι Op Res σ → ι → Op → Prop) :
    Pool ι Op Res σ → Pool ι Op Res σ → Prop :=
  ReflTransGen (StepWhen device env launch permitted)

/-- A run of one thread is such a run, when the condition holds as the others stand. -/
theorem reachesWhen_of_thread {device : Device Op Res σ} {env : σ → σ → Prop}
    {launch : Pool ι Op Res σ → ι → Program Op Res Unit → σ → Prop}
    {permitted : Pool ι Op Res σ → ι → Op → Prop} {threads : ι → Program Op Res Unit}
    {thread : ι}
    (meets : ∀ program state op, permitted ⟨Function.update threads thread program, state⟩
      thread op)
    {source target : Program Op Res Unit × σ}
    (reaches : Semantics.Reaches device env source target) :
    ReachesWhen device env launch permitted ⟨Function.update threads thread source.1, source.2⟩
      ⟨Function.update threads thread target.1, target.2⟩ := by
  induction reaches with
  | refl => exact .refl
  | tail _ step ih =>
      apply ih.tail
      cases step with
      | environment moves => exact .environment moves
      | @access op next state ready =>
          let waiting : Pool ι Op Res σ :=
            ⟨Function.update threads thread (.access op next), state⟩
          have here : waiting.threads thread = .access op next := Function.update_self _ _ _
          have step : StepWhen device env launch permitted waiting _ :=
            .access here ready (meets _ _ _)
          rwa [Function.update_idem] at step

/-! ## The parallel rule -/

section Parallel

variable (device : Device Op Res σ) (rely guar : ι → σ → σ → Prop)
  (post : ι → Unit → σ → Prop) (invariant : σ → Prop)

/-- Every thread meets its obligation, and the invariant holds. -/
structure Meets (pool : Pool ι Op Res σ) : Prop where
  guarded : ∀ thread,
    Guarded device (rely thread) (guar thread) (post thread) (pool.threads thread) pool.state
  holds : invariant pool.state

/-- What the threads guarantee is what the others rely on. -/
structure Compatible (env : σ → σ → Prop) : Prop where
  thread : ∀ thread other, other ≠ thread → ∀ before after,
    guar thread before after → rely other before after
  environment : ∀ thread before after, env before after → rely thread before after
  kept : ∀ thread before after, guar thread before after → invariant before → invariant after
  keptByEnvironment : ∀ before after, env before after → invariant before → invariant after

variable {device rely guar post invariant} {env : σ → σ → Prop}
  {launch : Pool ι Op Res σ → ι → Program Op Res Unit → σ → Prop}

/-- One step of the pool keeps every thread's obligation. -/
theorem Meets.step (compatible : Compatible rely guar invariant env)
    (launched : ∀ pool thread program after,
      Meets device rely guar post invariant pool → launch pool thread program after →
        Meets device rely guar post invariant
          ⟨Function.update pool.threads thread program, after⟩)
    {before after : Pool ι Op Res σ} (meets : Meets device rely guar post invariant before)
    (step : Step device env launch before after) :
    Meets device rely guar post invariant after := by
  cases step with
  | environment moves =>
      exact ⟨fun thread => (meets.guarded thread).of_rely
          (.single (compatible.environment thread _ _ moves)),
        compatible.keptByEnvironment _ _ moves meets.holds⟩
  | @access thread op next here ready =>
      have obligation := meets.guarded thread
      rw [here] at obligation
      obtain ⟨permitted, rest⟩ := obligation _ .refl ready
      refine ⟨fun other => ?_, compatible.kept thread _ _ permitted meets.holds⟩
      by_cases same : other = thread
      · subst same
        simpa using rest
      · simpa [Function.update_of_ne same] using (meets.guarded other).of_rely
          (.single (compatible.thread thread other same _ _ permitted))
  | launch launches => exact launched _ _ _ _ meets launches

/-- Every pool that is reached keeps every thread's obligation. -/
theorem Meets.reaches (compatible : Compatible rely guar invariant env)
    (launched : ∀ pool thread program after,
      Meets device rely guar post invariant pool → launch pool thread program after →
        Meets device rely guar post invariant
          ⟨Function.update pool.threads thread program, after⟩)
    {before after : Pool ι Op Res σ} (meets : Meets device rely guar post invariant before)
    (reaches : Reaches device env launch before after) :
    Meets device rely guar post invariant after := by
  induction reaches with
  | refl => exact meets
  | tail _ step ih => exact ih.step compatible launched step

end Parallel

end Pool

end NvmEmulator.Semantics
