/-
# Coverage under interference

A loop often settles one part of the state a round: the registers of a device, the
devices of a node. `holding covered` says that the covered part is settled. If each
round adds its own region, and the environment unsettles nothing, the loop settles
the regions of all its items, whatever is interleaved.
-/

import NvmEmulator.Semantics.Footprint
import NvmEmulator.Semantics.Interference

namespace NvmEmulator.Semantics

universe u v w x

variable {Op : Type u} {Res : Op → Type v} {σ : Type x} {ι τ : Type*}
  {device : Device Op Res σ} {rely guar : σ → σ → Prop} {holding : Set τ → σ → Prop}
  {region : ι → Set τ}

/-- A loop covers the regions of all its items. -/
theorem Guarded.forEach_covers {body : ι → Program Op Res PUnit.{w + 1}}
    (stable : ∀ covered, Stable rely (holding covered))
    (round : ∀ item covered state, holding covered state →
      Guarded device rely guar (fun _ => holding (covered ∪ region item)) (body item) state)
    {items : List ι} {covered : Set τ} {state : σ} (start : holding covered state) :
    Guarded device rely guar (fun _ => holding (covered ∪ regionOf region items))
      (Program.forEach body items) state := by
  induction items generalizing covered state with
  | nil =>
      rw [regionOf_nil, Set.union_empty]
      exact .ret (stable covered) start
  | cons item rest ih =>
      rw [regionOf_cons, ← Set.union_assoc]
      exact (round item covered state start).bind fun _ _ covers => ih covers

/-- A walk none of whose rounds fails covers the regions of all its items; it returns
0 unless there is nothing to visit. -/
theorem Guarded.untilError_covers {body : ι → Program Op Res Int}
    (stable : ∀ covered, Stable rely (holding covered))
    (round : ∀ item covered state, holding covered state →
      Guarded device rely guar
        (fun code later => code = 0 ∧ holding (covered ∪ region item) later)
        (body item) state)
    {items : List ι} {code : Int} {covered : Set τ} {state : σ}
    (start : holding covered state) :
    Guarded device rely guar
      (fun result later => (result = 0 ∨ items = [] ∧ result = code) ∧
        holding (covered ∪ regionOf region items) later)
      (Program.untilError body items code) state := by
  induction items generalizing code covered state with
  | nil =>
      rw [regionOf_nil, Set.union_empty]
      intro later moves
      exact ⟨Or.inr ⟨rfl, rfl⟩, (stable covered).star moves start⟩
  | cons item rest ih =>
      rw [regionOf_cons, ← Set.union_assoc]
      apply (round item covered state start).bind
      intro ret later covers
      rw [if_pos covers.1]
      apply (ih covers.2).mono
      intro result final settled
      rcases settled.1 with zero | nothing
      · exact ⟨Or.inl zero, settled.2⟩
      · exact ⟨Or.inl (nothing.2.trans covers.1), settled.2⟩

end NvmEmulator.Semantics
