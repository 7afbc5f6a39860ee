/-
# Ghost state

A proof may keep a record beside the state, which no program reads and which the environment
does not see. Every run of a pool is a run of the pool with such a record, so what is proved
with the record holds without it.
-/

import NvmEmulator.Semantics.Threads

namespace NvmEmulator.Semantics.Pool

open Relation

universe u v x y z

variable {ι : Type y} {Op : Type u} {Res : Op → Type v} {σ : Type x} {τ : Type z}

/-- The pool without the record. -/
def erase (pool : Pool ι Op Res (σ × τ)) : Pool ι Op Res σ := ⟨pool.threads, pool.state.1⟩

/-- The environment leaves the record alone. -/
def ghostEnv (env : σ → σ → Prop) (before after : σ × τ) : Prop :=
  env before.1 after.1 ∧ after.2 = before.2

/-- So does what launches a thread. -/
def ghostLaunch (launch : Pool ι Op Res σ → ι → Program Op Res Unit → σ → Prop)
    (pool : Pool ι Op Res (σ × τ)) (thread : ι) (program : Program Op Res Unit)
    (after : σ × τ) : Prop :=
  launch pool.erase thread program after.1 ∧ after.2 = pool.state.2

variable [DecidableEq ι] {device : Device Op Res σ} {env : σ → σ → Prop}
  {launch : Pool ι Op Res σ → ι → Program Op Res Unit → σ → Prop} {before after : Pool ι Op Res σ}

/-- A step can be made with any record. -/
theorem step_observe (note : (op : Op) → Res op → τ → τ)
    (step : Step device env launch before after) (ghost : τ) :
    ∃ ghost', Step (device.observe note) (ghostEnv env) (ghostLaunch launch)
      ⟨before.threads, before.state, ghost⟩ ⟨after.threads, after.state, ghost'⟩ := by
  let here : Pool ι Op Res (σ × τ) := ⟨before.threads, before.state, ghost⟩
  cases step with
  | @environment state moves =>
      have moved : ghostEnv env here.state (state, ghost) := ⟨moves, rfl⟩
      exact ⟨ghost, .environment moved⟩
  | @access thread op next waits ready =>
      have waiting : here.threads thread = .access op next := waits
      have able : (device.observe note).ready op here.state := ready
      exact ⟨_, .access waiting able⟩
  | @launch thread program state launches =>
      have launched : ghostLaunch launch here thread program (state, ghost) := ⟨launches, rfl⟩
      exact ⟨ghost, .launch launched⟩

/-- A run can be made with any record. -/
theorem reaches_observe (note : (op : Op) → Res op → τ → τ)
    (reaches : Reaches device env launch before after) (ghost : τ) :
    ∃ ghost', Reaches (device.observe note) (ghostEnv env) (ghostLaunch launch)
      ⟨before.threads, before.state, ghost⟩ ⟨after.threads, after.state, ghost'⟩ := by
  induction reaches with
  | refl => exact ⟨ghost, .refl⟩
  | tail _ step ih =>
      obtain ⟨middle, reached⟩ := ih
      obtain ⟨final, last⟩ := step_observe note step middle
      exact ⟨final, reached.tail last⟩

end NvmEmulator.Semantics.Pool
