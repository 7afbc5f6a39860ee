/-
# Programs over primitive accesses

A driver function is a sequence of accesses to something outside it: a
register, a timer, a hotplug call. `Program` records that sequence as a tree
that branches on what each access answers, and says nothing about what the
accesses do. One program can therefore be run alone, interleaved with an
environment, or scheduled beside other programs, and every such run is about
the same tree.

This module has the tree, its monad, the translation of one kind of access into
another, the loops the kernel's list walks need, and the sequential run.
-/

import Mathlib.Data.Prod.Basic
import Mathlib.Logic.Function.Basic

namespace NvmEmulator.Semantics

universe u v w x

/-- A program whose accesses are drawn from `Op`; access `op` answers in
`Res op`. -/
inductive Program (Op : Type u) (Res : Op → Type v) (α : Type w)
  | /-- Finished, with a result. -/
    ret (value : α)
  | /-- Make one access and go on from its answer. -/
    access (op : Op) (next : Res op → Program Op Res α)

namespace Program

variable {Op : Type u} {Res : Op → Type v} {α β γ : Type w}

/-- Sequential composition. -/
def bind : Program Op Res α → (α → Program Op Res β) → Program Op Res β
  | .ret value, follow => follow value
  | .access op next, follow => .access op fun answer => (next answer).bind follow

instance : Monad (Program Op Res) where
  pure := .ret
  bind := bind

/-- The program that makes one access and returns its answer. -/
def lift (op : Op) : Program Op Res (Res op) := .access op .ret

@[simp]
theorem pure_eq_ret (value : α) : (pure value : Program Op Res α) = .ret value := rfl

@[simp]
theorem bind_eq (first : Program Op Res α) (follow : α → Program Op Res β) :
    (first >>= follow) = first.bind follow := rfl

@[simp]
theorem ret_bind (value : α) (follow : α → Program Op Res β) :
    (Program.ret value : Program Op Res α).bind follow = follow value := rfl

@[simp]
theorem access_bind (op : Op) (next : Res op → Program Op Res α)
    (follow : α → Program Op Res β) :
    (Program.access op next).bind follow =
      .access op fun answer => (next answer).bind follow := rfl

theorem bind_ret (program : Program Op Res α) : program.bind .ret = program := by
  induction program with
  | ret value => rfl
  | access op next ih => simp only [access_bind, ih]

theorem bind_assoc (program : Program Op Res α) (first : α → Program Op Res β)
    (second : β → Program Op Res γ) :
    (program.bind first).bind second =
      program.bind fun value => (first value).bind second := by
  induction program with
  | ret value => rfl
  | access op next ih => simp only [access_bind, ih]

/-! ## Loops

The kernel's iterators walk a list and either run to its end or leave at the
first error.  Both are recursions on the list, so an invariant of the loop is an
induction on what is still to be visited. -/

/-- Run `body` on each item in turn. -/
def forEach {ι : Type x} (body : ι → Program Op Res PUnit.{w + 1}) :
    List ι → Program Op Res PUnit.{w + 1}
  | [] => .ret ⟨⟩
  | item :: rest => (body item).bind fun _ => forEach body rest

@[simp]
theorem forEach_nil {ι : Type x} (body : ι → Program Op Res PUnit.{w + 1}) :
    forEach body [] = .ret ⟨⟩ := rfl

@[simp]
theorem forEach_cons {ι : Type x} (body : ι → Program Op Res PUnit.{w + 1})
    (item : ι) (rest : List ι) :
    forEach body (item :: rest) = (body item).bind fun _ => forEach body rest := rfl

end Program

namespace Program

variable {Op : Type u} {Res : Op → Type v}

/-- Run `body` on each item until one returns an error code, carrying the last
code. `code` is what the loop variable holds when the walk begins. -/
def untilError {ι : Type x} (body : ι → Program Op Res Int) :
    List ι → Int → Program Op Res Int
  | [], code => .ret code
  | item :: rest, _ => (body item).bind fun code =>
      if code = 0 then untilError body rest code else .ret code

@[simp]
theorem untilError_nil {ι : Type x} (body : ι → Program Op Res Int) (code : Int) :
    untilError body [] code = .ret code := rfl

@[simp]
theorem untilError_cons {ι : Type x} (body : ι → Program Op Res Int)
    (item : ι) (rest : List ι) (code : Int) :
    untilError body (item :: rest) code = (body item).bind fun code =>
      if code = 0 then untilError body rest code else .ret code := rfl

/-! ## Translating accesses -/

universe u' v'

/-- Replace every access by a program over another kind of access. -/
def hoist {Op' : Type u'} {Res' : Op' → Type v} {α : Type v}
    (translate : (op : Op) → Program Op' Res' (Res op)) :
    Program Op Res α → Program Op' Res' α
  | .ret value => .ret value
  | .access op next => (translate op).bind fun answer => hoist translate (next answer)

@[simp]
theorem hoist_ret {Op' : Type u'} {Res' : Op' → Type v} {α : Type v}
    (translate : (op : Op) → Program Op' Res' (Res op)) (value : α) :
    hoist translate (.ret value) = .ret value := rfl

@[simp]
theorem hoist_access {Op' : Type u'} {Res' : Op' → Type v} {α : Type v}
    (translate : (op : Op) → Program Op' Res' (Res op)) (op : Op)
    (next : Res op → Program Op Res α) :
    hoist translate (.access op next) =
      (translate op).bind fun answer => hoist translate (next answer) := rfl

theorem hoist_bind {Op' : Type u'} {Res' : Op' → Type v} {α β : Type v}
    (translate : (op : Op) → Program Op' Res' (Res op))
    (program : Program Op Res α) (follow : α → Program Op Res β) :
    hoist translate (program.bind follow) =
      (hoist translate program).bind fun value => hoist translate (follow value) := by
  induction program with
  | ret value => rfl
  | access op next ih => simp only [access_bind, hoist_access, bind_assoc, ih]

theorem hoist_forEach {Op' : Type u'} {Res' : Op' → Type v} {ι : Type x}
    (translate : (op : Op) → Program Op' Res' (Res op))
    (body : ι → Program Op Res PUnit.{v + 1}) (items : List ι) :
    hoist translate (forEach body items) =
      forEach (fun item => hoist translate (body item)) items := by
  induction items with
  | nil => rfl
  | cons item rest ih => simp only [forEach_cons, hoist_bind, ih]

/-! ## Running alone -/

section Run

variable {σ : Type x} {α β : Type w} (exec : (op : Op) → σ → Res op × σ)

/-- Run a program with nothing interleaved. -/
def run : Program Op Res α → σ → α × σ
  | .ret value, state => (value, state)
  | .access op next, state =>
      run (next (exec op state).1) (exec op state).2

@[simp]
theorem run_ret (value : α) (state : σ) :
    run exec (.ret value : Program Op Res α) state = (value, state) := rfl

@[simp]
theorem run_access (op : Op) (next : Res op → Program Op Res α) (state : σ) :
    run exec (.access op next) state =
      run exec (next (exec op state).1) (exec op state).2 := rfl

/-- The first so many accesses of a run: what is left of the program, and the state. -/
def advance : Nat → Program Op Res α → σ → Program Op Res α × σ
  | 0, program, state => (program, state)
  | _ + 1, .ret value, state => (.ret value, state)
  | count + 1, .access op next, state =>
      advance count (next (exec op state).1) (exec op state).2

@[simp]
theorem run_bind (program : Program Op Res α) (follow : α → Program Op Res β)
    (state : σ) :
    run exec (program.bind follow) state =
      run exec (follow (run exec program state).1) (run exec program state).2 := by
  induction program generalizing state with
  | ret value => rfl
  | access op next ih => simp only [access_bind, run_access, ih]

/-- Where translated accesses run on a part of a state, so does the translated program. -/
theorem run_hoist {Op' : Type u'} {Res' : Op' → Type v} {α : Type v} {τ : Type*}
    {exec : (op : Op) → σ → Res op × σ} {exec' : (op : Op') → τ → Res' op × τ}
    {translate : (op : Op) → Program Op' Res' (Res op)} (get : τ → σ) (put : τ → σ → τ)
    (each : ∀ op state, (translate op).run exec' state =
      ((exec op (get state)).1, put state (exec op (get state)).2))
    (get_put : ∀ state part, get (put state part) = part)
    (put_get : ∀ state, put state (get state) = state)
    (put_put : ∀ state first second, put (put state first) second = put state second)
    (program : Program Op Res α) (state : τ) :
    (program.hoist translate).run exec' state =
      ((program.run exec (get state)).1, put state (program.run exec (get state)).2) := by
  induction program generalizing state with
  | ret value => rw [hoist_ret, run_ret, run_ret, put_get]
  | access op next ih =>
      rw [hoist_access, run_bind, each, ih, get_put, put_put]
      rfl

/-- A loop keeps what each of its rounds keeps. -/
theorem run_forEach_induction {ι : Type x}
    {body : ι → Program Op Res PUnit.{w + 1}} {invariant : σ → Prop}
    {items : List ι}
    (keeps : ∀ item ∈ items, ∀ state, invariant state →
      invariant (run exec (body item) state).2)
    {state : σ} (start : invariant state) :
    invariant (run exec (forEach body items) state).2 := by
  induction items generalizing state with
  | nil => exact start
  | cons item rest ih =>
      rw [forEach_cons, run_bind]
      exact ih (fun later mem => keeps later (List.mem_cons_of_mem _ mem))
        (keeps item List.mem_cons_self state start)

theorem forEach_append {ι : Type x} (body : ι → Program Op Res PUnit.{w + 1})
    (front back : List ι) :
    forEach body (front ++ back) = (forEach body front).bind fun _ => forEach body back := by
  induction front with
  | nil => rfl
  | cons item rest ih => rw [List.cons_append, forEach_cons, forEach_cons, bind_assoc, ih]

/-- A loop over an index, from where each of its rounds leads. -/
theorem run_forEach_range {body : Nat → Program Op Res PUnit.{w + 1}} {after : Nat → σ}
    (rounds : ∀ index, (run exec (body index) (after index)).2 = after (index + 1))
    (count : Nat) : (run exec (forEach body (List.range count)) (after 0)).2 = after count := by
  induction count with
  | zero => rfl
  | succ count ih =>
      rw [List.range_succ, forEach_append, run_bind, ih, forEach_cons, run_bind, rounds]
      rfl

end Run

/-! ## Accesses a program can make -/

/-- Every access the program can make, whatever the answers, satisfies `allowed`. -/
def Makes {α : Type w} (allowed : Op → Prop) : Program Op Res α → Prop
  | .ret _ => True
  | .access op next => allowed op ∧ ∀ answer, (next answer).Makes allowed

@[simp]
theorem makes_ret {α : Type w} {allowed : Op → Prop} (value : α) :
    (Program.ret value : Program Op Res α).Makes allowed := trivial

@[simp]
theorem makes_access {α : Type w} {allowed : Op → Prop} (op : Op)
    (next : Res op → Program Op Res α) :
    (Program.access op next).Makes allowed ↔
      allowed op ∧ ∀ answer, (next answer).Makes allowed := Iff.rfl

/-! ## Properties closed under composition

What holds of a finished program and survives sequential composition survives every
loop as well, so a walk needs one lemma and not one for each such property. -/

/-- A property of programs that sequential composition keeps. -/
structure Closed (holds : (α : Type) → Program Op Res α → Prop) : Prop where
  ret : ∀ {α : Type} (value : α), holds α (.ret value)
  bind : ∀ {α β : Type} {program : Program Op Res α} {follow : α → Program Op Res β},
    holds α program → (∀ value, holds β (follow value)) → holds β (program.bind follow)

theorem Closed.forEach {holds : (α : Type) → Program Op Res α → Prop} (closed : Closed holds)
    {ι : Type x} {body : ι → Program Op Res Unit} {items : List ι}
    (each : ∀ item ∈ items, holds Unit (body item)) :
    holds Unit (Program.forEach body items) := by
  induction items with
  | nil => exact closed.ret ()
  | cons item rest ih =>
      exact closed.bind (each item List.mem_cons_self) fun _ =>
        ih fun later mem => each later (List.mem_cons_of_mem _ mem)

theorem Closed.untilError {holds : (α : Type) → Program Op Res α → Prop}
    (closed : Closed holds) {ι : Type x} {body : ι → Program Op Res Int} {items : List ι}
    {code : Int} (each : ∀ item ∈ items, holds Int (body item)) :
    holds Int (Program.untilError body items code) := by
  induction items generalizing code with
  | nil => exact closed.ret code
  | cons item rest ih =>
      apply closed.bind (each item List.mem_cons_self)
      intro ret
      by_cases fine : ret = 0
      · rw [if_pos fine]
        exact ih fun later mem => each later (List.mem_cons_of_mem _ mem)
      · rw [if_neg fine]
        exact closed.ret ret

theorem Makes.mono {α : Type w} {allowed weaker : Op → Prop} {program : Program Op Res α}
    (makes : program.Makes allowed) (implies : ∀ op, allowed op → weaker op) :
    program.Makes weaker := by
  induction program with
  | ret value => trivial
  | access op next ih => exact ⟨implies op makes.1, fun answer => ih answer (makes.2 answer)⟩

/-- Where every access is allowed, so is every program. -/
theorem Makes.of_forall {α : Type w} {allowed : Op → Prop} (always : ∀ op, allowed op)
    (program : Program Op Res α) : program.Makes allowed := by
  induction program with
  | ret value => trivial
  | access op next ih => exact ⟨always op, ih⟩

theorem Makes.bind {α β : Type w} {allowed : Op → Prop}
    {program : Program Op Res α} {follow : α → Program Op Res β}
    (first : program.Makes allowed) (later : ∀ value, (follow value).Makes allowed) :
    (program.bind follow).Makes allowed := by
  induction program with
  | ret value => exact later value
  | access op next ih => exact ⟨first.1, fun answer => ih answer (first.2 answer)⟩

/-- Making only allowed accesses is such a property. -/
theorem Makes.closed (allowed : Op → Prop) :
    Closed fun α (program : Program Op Res α) => program.Makes allowed where
  ret _ := trivial
  bind first later := first.bind later

theorem Makes.forEach {ι : Type x} {allowed : Op → Prop} {body : ι → Program Op Res Unit}
    {items : List ι} (each : ∀ item ∈ items, (body item).Makes allowed) :
    (Program.forEach body items).Makes allowed :=
  (Makes.closed allowed).forEach each

section Exact

variable [∀ op, Nonempty (Res op)] {allowed : Op → Prop}

/-- Where every access can be answered, what follows a program is made as well. -/
theorem makes_bind_iff {α : Type w} {program : Program Op Res PUnit.{w + 1}}
    {follow : PUnit → Program Op Res α} :
    (program.bind follow).Makes allowed ↔ program.Makes allowed ∧ (follow ⟨⟩).Makes allowed := by
  induction program with
  | ret value => exact (and_iff_right trivial).symm
  | access op next ih =>
      simp only [access_bind, makes_access, ih]
      constructor
      · intro makes
        exact ⟨⟨makes.1, fun answer => (makes.2 answer).1⟩,
          (makes.2 (Classical.arbitrary (Res op))).2⟩
      · intro makes
        exact ⟨makes.1.1, fun answer => ⟨makes.1.2 answer, makes.2⟩⟩

/-- A loop makes what its rounds make. -/
theorem makes_forEach_iff {ι : Type x} {body : ι → Program Op Res PUnit.{w + 1}}
    {items : List ι} :
    (Program.forEach body items).Makes allowed ↔ ∀ item ∈ items, (body item).Makes allowed := by
  induction items with
  | nil => simp
  | cons item rest ih => rw [forEach_cons, makes_bind_iff, ih, List.forall_mem_cons]

end Exact

/-- Translating accesses makes only what the translations make. -/
theorem Makes.hoist {Op' : Type u'} {Res' : Op' → Type v} {α : Type v}
    {allowed : Op' → Prop} {translate : (op : Op) → Program Op' Res' (Res op)}
    (each : ∀ op, (translate op).Makes allowed) (program : Program Op Res α) :
    (Program.hoist translate program).Makes allowed := by
  induction program with
  | ret value => trivial
  | access op next ih => exact (each op).bind ih

/-- Translating the accesses a program makes. -/
theorem Makes.hoist_of {Op' : Type u'} {Res' : Op' → Type v} {α : Type v} {allowed : Op → Prop}
    {permitted : Op' → Prop} {translate : (op : Op) → Program Op' Res' (Res op)}
    (each : ∀ op, allowed op → (translate op).Makes permitted) {program : Program Op Res α}
    (makes : program.Makes allowed) : (Program.hoist translate program).Makes permitted := by
  induction program with
  | ret value => trivial
  | access op next ih => exact (each op makes.1).bind fun answer => ih answer (makes.2 answer)

/-- A run keeps what each access it can make keeps. -/
theorem Makes.run {α : Type w} {σ : Type x} {exec : (op : Op) → σ → Res op × σ}
    {allowed : Op → Prop} {program : Program Op Res α} {invariant : σ → Prop}
    (makes : program.Makes allowed)
    (keeps : ∀ op, allowed op → ∀ state, invariant state → invariant (exec op state).2)
    {state : σ} (start : invariant state) : invariant (program.run exec state).2 := by
  induction program generalizing state with
  | ret value => exact start
  | access op next ih => exact ih _ (makes.2 _) (keeps op makes.1 state start)

/-- What is left of a program makes no other accesses. -/
theorem Makes.advance {α : Type w} {σ : Type x} {exec : (op : Op) → σ → Res op × σ}
    {allowed : Op → Prop} {program : Program Op Res α} (makes : program.Makes allowed)
    (count : Nat) (state : σ) : (program.advance exec count state).1.Makes allowed := by
  induction count generalizing program state with
  | zero => exact makes
  | succ count ih =>
      cases program with
      | ret value => trivial
      | access op next => exact ih (makes.2 _) _

/-! ## What a program returns -/

/-- Whatever the answers, what the program returns is `good`. -/
def Ends {α : Type w} (good : α → Prop) : Program Op Res α → Prop
  | .ret value => good value
  | .access _ next => ∀ answer, (next answer).Ends good

/-- A program returns what its last part does. -/
theorem Ends.bind {α β : Type w} {good : β → Prop} {program : Program Op Res α}
    {follow : α → Program Op Res β} (last : ∀ value, (follow value).Ends good) :
    (program.bind follow).Ends good := by
  induction program with
  | ret value => exact last value
  | access op next ih => exact ih

end Program

end NvmEmulator.Semantics
