/-
# Traces

The accesses that a run makes, in order. What a program does to its state says nothing
about an access that changes nothing, or about one made twice with the effect of one; the
trace does.
-/

import NvmEmulator.Semantics.Program

namespace NvmEmulator.Semantics.Program

universe u v w x

variable {Op : Type u} {Res : Op → Type v} {σ : Type x} {α β : Type w}
  (exec : (op : Op) → σ → Res op × σ)

/-- The accesses of a run, the first one first. -/
def trace : Program Op Res α → σ → List Op
  | .ret _, _ => []
  | .access op next, state => op :: trace (next (exec op state).1) (exec op state).2

@[simp]
theorem trace_ret (value : α) (state : σ) :
    trace exec (.ret value : Program Op Res α) state = [] := rfl

@[simp]
theorem trace_access (op : Op) (next : Res op → Program Op Res α) (state : σ) :
    trace exec (.access op next) state =
      op :: trace exec (next (exec op state).1) (exec op state).2 := rfl

/-- The second part begins in the state that the first one leaves. -/
theorem trace_bind (program : Program Op Res α) (follow : α → Program Op Res β) (state : σ) :
    trace exec (program.bind follow) state =
      trace exec program state ++
        trace exec (follow (run exec program state).1) (run exec program state).2 := by
  induction program generalizing state with
  | ret value => rfl
  | access op next ih =>
      rw [access_bind, trace_access, ih, trace_access, run_access, List.cons_append]

/-- A run makes accesses that the program can make. -/
theorem Makes.trace {allowed : Op → Prop} {program : Program Op Res α}
    (makes : program.Makes allowed) (state : σ) :
    ∀ op ∈ program.trace exec state, allowed op := by
  induction program generalizing state with
  | ret value => exact fun _ listed => absurd listed List.not_mem_nil
  | access op next ih =>
      rw [trace_access, List.forall_mem_cons]
      exact ⟨makes.1, ih _ (makes.2 _) _⟩

end NvmEmulator.Semantics.Program
