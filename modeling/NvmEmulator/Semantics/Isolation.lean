/-
# Threads that work apart

Threads whose accesses each depend on a part of the state, and change no other thread's
part, run as if each were alone on its part. Nothing is asked of the order in which the
accesses come, and no thread waits for another.

`Isolation` has the parts and the accesses of each thread. A run of the pool is a run of
every single thread on its own part, and a thread that has finished has left on its part
what it leaves when nothing else runs, if the environment does not move that part.
-/

import NvmEmulator.Semantics.Threads

namespace NvmEmulator.Semantics

open Relation

universe u v x y z

variable {Op : Type u} {Res : Op → Type v} {σ : Type x} {ι : Type y} {τ : ι → Type z}

/-- The part of the state that each thread works on, and the accesses it may make. -/
structure Isolation (device : Device Op Res σ) (env : σ → σ → Prop) (τ : ι → Type z) where
  view : (thread : ι) → σ → τ thread
  /-- The accesses of a thread, on its own part alone. -/
  own : (thread : ι) → Device Op Res (τ thread)
  /-- What the environment does to a part. -/
  rely : (thread : ι) → τ thread → τ thread → Prop
  allowed : ι → Op → Prop
  own_ready : ∀ thread op, allowed thread op → ∀ state, device.ready op state →
    (own thread).ready op (view thread state)
  answer : ∀ thread op, allowed thread op → ∀ state,
    (device.exec op state).1 = ((own thread).exec op (view thread state)).1
  inside : ∀ thread op, allowed thread op → ∀ state,
    view thread (device.exec op state).2 = ((own thread).exec op (view thread state)).2
  outside : ∀ thread op, allowed thread op → ∀ other ≠ thread, ∀ state,
    view other (device.exec op state).2 = view other state
  environment : ∀ before after, env before after → ∀ thread,
    rely thread (view thread before) (view thread after)

namespace Isolation

variable {device : Device Op Res σ} {env : σ → σ → Prop} (isolation : Isolation device env τ)

/-- No thread is given a new program. -/
def noLaunch : Pool ι Op Res σ → ι → Program Op Res Unit → σ → Prop := fun _ _ _ _ => False

/-- What a thread still has to do, and its part of the state. -/
def single (pool : Pool ι Op Res σ) (thread : ι) : Program Op Res Unit × τ thread :=
  (pool.threads thread, isolation.view thread pool.state)

/-- Every thread has run alone on its part, and what is left of it stays there. -/
structure Alone (start pool : Pool ι Op Res σ) : Prop where
  reaches : ∀ thread, Reaches (isolation.own thread) (isolation.rely thread)
    (isolation.single start thread) (isolation.single pool thread)
  makes : ∀ thread, (pool.threads thread).Makes (isolation.allowed thread)

variable {isolation} {start before after : Pool ι Op Res σ}

/-- Run on the whole state, a program of a thread does to the thread's part what it does when
it is run on that part. -/
theorem run_view {α : Type*} {thread : ι} {program : Program Op Res α}
    (makes : program.Makes (isolation.allowed thread)) (state : σ) :
    isolation.view thread (program.run device.exec state).2 =
      (program.run (isolation.own thread).exec (isolation.view thread state)).2 := by
  induction program generalizing state with
  | ret value => rfl
  | access op next ih =>
      rw [Program.run_access, Program.run_access, ih _ (makes.2 _),
        isolation.answer thread op makes.1, isolation.inside thread op makes.1]

theorem Alone.refl (makes : ∀ thread, (start.threads thread).Makes (isolation.allowed thread)) :
    isolation.Alone start start := ⟨fun _ => .refl, makes⟩

/-- One step of the pool is a step of each thread on its part, or none. -/
theorem Alone.step [DecidableEq ι] (alone : isolation.Alone start before)
    (step : Pool.Step device env noLaunch before after) : isolation.Alone start after := by
  cases step with
  | environment moves =>
      exact ⟨fun thread => (alone.reaches thread).tail
        (.environment (isolation.environment _ _ moves thread)), alone.makes⟩
  | @access thread op next here ready =>
      have makes := alone.makes thread
      rw [here] at makes
      have allowed := makes.1
      refine ⟨fun other => ?_, fun other => ?_⟩
      · by_cases same : other = thread
        · subst same
          have moved : Step (isolation.own other) (isolation.rely other)
              (isolation.single before other) (next (device.exec op before.state).1,
                isolation.view other (device.exec op before.state).2) := by
            rw [single, here, isolation.answer other op allowed,
              isolation.inside other op allowed]
            exact .access (isolation.own_ready other op allowed _ ready)
          have now := (alone.reaches other).tail moved
          rw [single, single]
          dsimp only
          rwa [Function.update_self]
        · have unmoved := alone.reaches other
          rw [single, single] at unmoved ⊢
          dsimp only
          rwa [Function.update_of_ne same, isolation.outside thread op allowed other same]
      · by_cases same : other = thread
        · subst same
          dsimp only
          rw [Function.update_self]
          exact makes.2 _
        · dsimp only
          rw [Function.update_of_ne same]
          exact alone.makes other
  | launch launches => exact launches.elim

/-- Every thread of a pool that is reached has run alone on its part. -/
theorem alone_of_reaches [DecidableEq ι]
    (makes : ∀ thread, (start.threads thread).Makes (isolation.allowed thread))
    (reaches : Pool.Reaches device env noLaunch start after) : isolation.Alone start after := by
  induction reaches with
  | refl => exact .refl makes
  | tail _ step ih => exact ih.step step

/-- A thread that has finished has left on its part what it leaves when nothing else runs,
where the environment does not move that part. -/
theorem Alone.run_eq (alone : isolation.Alone start after) {thread : ι}
    (program : (start.threads thread).Makes (isolation.allowed thread))
    (still : ∀ first second, isolation.rely thread first second → second = first)
    (finished : after.threads thread = .ret ()) :
    isolation.view thread after.state =
      isolation.view thread ((start.threads thread).run device.exec start.state).2 := by
  have unmoved : ∀ first second, True → isolation.rely thread first second → second = first :=
    fun first second _ moves => still first second moves
  have makes : (start.threads thread).Makes fun op => ∀ part : τ thread, True → True :=
    Program.Makes.of_forall (fun _ _ _ => trivial) _
  have same := Reaches.run_eq unmoved makes trivial (alone.reaches thread)
  rw [single, finished, Program.run_ret] at same
  rw [run_view program]
  exact congrArg Prod.snd same

end Isolation

end NvmEmulator.Semantics
