/-
# Critical sections

Threads that change a part of the state only between taking and giving back one mutex run
their critical sections one after the other. A mutex comes with the part it protects, and
with what an access of a critical section does to that part alone. A log beside the state
has the threads in the order in which they took the mutex.

Whenever the mutex is free, the protected part is what the sections of the log leave when
they are run one after the other, nothing interleaved.
-/

import NvmEmulator.Semantics.Threads

namespace NvmEmulator.Semantics

open Relation

universe u v x y

variable {Op : Type u} {Res : Op → Type v} {σ : Type x} {ι : Type y} {τ : Type*} {α : Type}

/-- A mutex, and the part of the state it protects. -/
structure Mutex (device : Device Op Res σ) (ι : Type y) (τ : Type*) where
  view : σ → τ
  /-- What an access of a critical section does to the protected part. -/
  act : (op : Op) → τ → Res op × τ
  holder : σ → Option ι
  lock : ι → Op
  unlock : Op
  /-- The accesses of critical sections. -/
  inside : Op → Prop
  /-- Who takes the mutex with an access. -/
  locker : Op → Option ι
  locker_lock : ∀ thread, locker (lock thread) = some thread
  locker_unlock : locker unlock = none
  locker_inside : ∀ op, inside op → locker op = none
  lock_ready : ∀ thread state, device.ready (lock thread) state → holder state = none
  lock_holder : ∀ thread state, holder (device.exec (lock thread) state).2 = some thread
  lock_view : ∀ thread state, view (device.exec (lock thread) state).2 = view state
  unlock_holder : ∀ state, holder (device.exec unlock state).2 = none
  unlock_view : ∀ state, view (device.exec unlock state).2 = view state
  inside_holder : ∀ op, inside op → ∀ state,
    holder (device.exec op state).2 = holder state
  inside_answer : ∀ op, inside op → ∀ state,
    (device.exec op state).1 = (act op (view state)).1
  inside_view : ∀ op, inside op → ∀ state,
    view (device.exec op state).2 = (act op (view state)).2

namespace Mutex

variable {device : Device Op Res σ} (mutex : Mutex device ι τ)

/-- The log of the threads that took the mutex. -/
def note (op : Op) (_ : Res op) (log : List ι) : List ι :=
  match mutex.locker op with
  | some thread => log ++ [thread]
  | none => log

/-- The device with the log. -/
def logged : Device Op Res (σ × List ι) := device.observe mutex.note

/-- What is left of a critical section, and the giving back. -/
def closing (body : Program Op Res α) : Program Op Res Unit :=
  body.bind fun _ => .access mutex.unlock fun _ => .ret ()

/-- Take the mutex, run the section, give the mutex back. -/
def locked (thread : ι) (body : Program Op Res α) : Program Op Res Unit :=
  .access (mutex.lock thread) fun _ => mutex.closing body

/-- The protected part after some sections, one after the other. -/
def serial (bodies : ι → Program Op Res α) (log : List ι) (part : τ) : τ :=
  log.foldl (fun part thread => ((bodies thread).run mutex.act part).2) part

theorem serial_append (bodies : ι → Program Op Res α) (log : List ι) (thread : ι) (part : τ) :
    mutex.serial bodies (log ++ [thread]) part =
      ((bodies thread).run mutex.act (mutex.serial bodies log part)).2 := by
  rw [serial, List.foldl_append]
  rfl

/-- An idle thread begins its section, or a request without one. -/
inductive Begins (bodies : ι → Program Op Res α) :
    Pool ι Op Res (σ × List ι) → ι → Program Op Res Unit → σ × List ι → Prop
  | locks {pool : Pool ι Op Res (σ × List ι)} {thread : ι}
      (idle : pool.threads thread = .ret ()) :
      Begins bodies pool thread (mutex.locked thread (bodies thread)) pool.state
  | nothing {pool : Pool ι Op Res (σ × List ι)} {thread : ι}
      (idle : pool.threads thread = .ret ()) : Begins bodies pool thread (.ret ()) pool.state

/-- The environment leaves the protected part and the mutex alone. -/
structure Aside (before after : σ × List ι) : Prop where
  view : mutex.view after.1 = mutex.view before.1
  holder : mutex.holder after.1 = mutex.holder before.1
  log : after.2 = before.2

/-- A thread that is not in its section. -/
def Outside (bodies : ι → Program Op Res α) (thread : ι) (program : Program Op Res Unit) : Prop :=
  program = .ret () ∨ program = mutex.locked thread (bodies thread)

/-- A thread in its section, which has come from where the sections before it led, and leads
where the whole section does. -/
structure Within (bodies : ι → Program Op Res α) (start : τ) (thread : ι) (earlier : List ι)
    (program : Program Op Res Unit) (part : τ) : Prop where
  left : ∃ rest : Program Op Res α, program = mutex.closing rest ∧ rest.Makes mutex.inside ∧
    (rest.run mutex.act part).2 =
      ((bodies thread).run mutex.act (mutex.serial bodies earlier start)).2

/-- The mutex is free, and the sections of the log have run one after the other. -/
structure Free (bodies : ι → Program Op Res α) (start : τ)
    (pool : Pool ι Op Res (σ × List ι)) : Prop where
  holder : mutex.holder pool.state.1 = none
  view : mutex.view pool.state.1 = mutex.serial bodies pool.state.2 start
  outside : ∀ thread, mutex.Outside bodies thread (pool.threads thread)

/-- A thread holds the mutex and is in its section; the others are not. -/
structure Held (bodies : ι → Program Op Res α) (start : τ)
    (pool : Pool ι Op Res (σ × List ι)) (thread : ι) (earlier : List ι) : Prop where
  holder : mutex.holder pool.state.1 = some thread
  log : pool.state.2 = earlier ++ [thread]
  within : mutex.Within bodies start thread earlier (pool.threads thread)
    (mutex.view pool.state.1)
  outside : ∀ other ≠ thread, mutex.Outside bodies other (pool.threads other)

/-- The sections run one after the other. -/
def Serial (bodies : ι → Program Op Res α) (start : τ)
    (pool : Pool ι Op Res (σ × List ι)) : Prop :=
  mutex.Free bodies start pool ∨ ∃ thread earlier, mutex.Held bodies start pool thread earlier

/-! ## Steps -/

section Steps

variable {mutex} {bodies : ι → Program Op Res α} {start : τ}
  {before after : Pool ι Op Res (σ × List ι)}

theorem Outside.ret (thread : ι) : mutex.Outside bodies thread (.ret ()) := Or.inl rfl

theorem Outside.locked (thread : ι) :
    mutex.Outside bodies thread (mutex.locked thread (bodies thread)) := Or.inr rfl

/-- The only access of a thread outside its section is taking the mutex. -/
theorem Outside.access {thread : ι} {op : Op} {next : Res op → Program Op Res Unit}
    (outside : mutex.Outside bodies thread (.access op next)) :
    Program.access op next = mutex.locked thread (bodies thread) := by
  rcases outside with done | waiting
  · exact absurd done (by simp)
  · exact waiting

theorem logged_log (op : Op) (state : σ × List ι) :
    (mutex.logged.exec op state).2.2 =
      match mutex.locker op with
      | some thread => state.2 ++ [thread]
      | none => state.2 := rfl

theorem logged_inside {op : Op} (inside : mutex.inside op) (state : σ × List ι) :
    (mutex.logged.exec op state).2.2 = state.2 := by
  rw [logged_log, mutex.locker_inside op inside]

theorem logged_unlock (state : σ × List ι) :
    (mutex.logged.exec mutex.unlock state).2.2 = state.2 := by
  rw [logged_log, mutex.locker_unlock]

theorem logged_lock (thread : ι) (state : σ × List ι) :
    (mutex.logged.exec (mutex.lock thread) state).2.2 = state.2 ++ [thread] := by
  rw [logged_log, mutex.locker_lock]

/-- A thread that is not in its section waits. -/
theorem Held.waits {thread : ι} {earlier : List ι}
    (held : mutex.Held bodies start before thread earlier) {other : ι} (apart : other ≠ thread)
    {op : Op} {next : Res op → Program Op Res Unit}
    (here : before.threads other = .access op next) :
    ¬ mutex.logged.ready op before.state := by
  intro ready
  have waits := held.outside other apart
  rw [here] at waits
  cases waits.access
  have free := mutex.lock_ready other before.state.1 ready
  rw [held.holder] at free
  exact absurd free (Option.some_ne_none thread)

theorem Held.busy {thread : ι} {earlier : List ι}
    (held : mutex.Held bodies start before thread earlier) :
    before.threads thread ≠ .ret () := by
  intro idle
  obtain ⟨rest, left, -⟩ := held.within.left
  rw [idle] at left
  cases rest with
  | ret value => exact absurd left (by simp [closing])
  | access op next => exact absurd left (by simp [closing])

/-- What begins: a section, or a request that has none. -/
theorem Begins.cases {thread : ι} {program : Program Op Res Unit} {state : σ × List ι}
    (begins : mutex.Begins bodies before thread program state) :
    before.threads thread = .ret () ∧ state = before.state ∧
      mutex.Outside bodies thread program := by
  cases begins with
  | locks idle => exact ⟨idle, rfl, .locked thread⟩
  | nothing idle => exact ⟨idle, rfl, .ret thread⟩

variable [DecidableEq ι]

/-- With the mutex free, the only access is to take it. -/
theorem Free.access (sections : ∀ thread, (bodies thread).Makes mutex.inside)
    (free : mutex.Free bodies start before) {thread : ι} {op : Op}
    {next : Res op → Program Op Res Unit} (here : before.threads thread = .access op next) :
    mutex.Held bodies start
      ⟨Function.update before.threads thread (next (mutex.logged.exec op before.state).1),
        (mutex.logged.exec op before.state).2⟩ thread before.state.2 := by
  have waits := free.outside thread
  rw [here] at waits
  cases waits.access
  refine ⟨mutex.lock_holder thread _, logged_lock thread _, ⟨bodies thread, ?_, sections thread,
    ?_⟩, fun other apart => ?_⟩
  · exact Function.update_self _ _ _
  · rw [← free.view]
    exact congrArg (fun part => ((bodies thread).run mutex.act part).2)
      (mutex.lock_view thread _)
  · dsimp only
    rw [Function.update_of_ne apart]
    exact free.outside other

/-- An access of the thread in its section: it goes on, or gives the mutex back. -/
theorem Held.access {thread : ι} {earlier : List ι}
    (held : mutex.Held bodies start before thread earlier) {op : Op}
    {next : Res op → Program Op Res Unit} (here : before.threads thread = .access op next) :
    mutex.Serial bodies start
      ⟨Function.update before.threads thread (next (mutex.logged.exec op before.state).1),
        (mutex.logged.exec op before.state).2⟩ := by
  obtain ⟨rest, left, makes, leads⟩ := held.within.left
  rw [here] at left
  have others : ∀ (program : Program Op Res Unit), ∀ other ≠ thread, mutex.Outside bodies other
      (Function.update before.threads thread program other) := by
    intro program other apart
    rw [Function.update_of_ne apart]
    exact held.outside other apart
  cases rest with
  | ret value =>
      cases left
      refine Or.inl ⟨mutex.unlock_holder _, ?_, fun other => ?_⟩
      · dsimp only
        rw [logged_unlock, held.log, serial_append, ← leads]
        exact mutex.unlock_view _
      · by_cases same : other = thread
        · subst same
          dsimp only
          rw [Function.update_self]
          exact .ret other
        · exact others _ other same
  | access first later =>
      cases left
      have inside := makes.1
      let answer := (device.exec op before.state.1).1
      refine Or.inr ⟨thread, earlier, ?_, ?_, ⟨later answer, ?_, makes.2 answer, ?_⟩, others _⟩
      · exact (mutex.inside_holder op inside _).trans held.holder
      · exact (logged_inside inside before.state).trans held.log
      · exact Function.update_self thread _ before.threads
      · rw [← leads]
        show ((later (device.exec op before.state.1).1).run mutex.act
          (mutex.view (device.exec op before.state.1).2)).2 = _
        rw [mutex.inside_answer op inside, mutex.inside_view op inside]
        rfl

/-- One step of the pool. -/
theorem Serial.step (sections : ∀ thread, (bodies thread).Makes mutex.inside)
    (serial : mutex.Serial bodies start before)
    (step : Pool.Step mutex.logged mutex.Aside (mutex.Begins bodies) before after) :
    mutex.Serial bodies start after := by
  cases step with
  | environment moves =>
      rcases serial with free | ⟨thread, earlier, held⟩
      · refine Or.inl ⟨moves.holder.trans free.holder, ?_, free.outside⟩
        rw [moves.view, moves.log]
        exact free.view
      · refine Or.inr ⟨thread, earlier, moves.holder.trans held.holder,
          moves.log.trans held.log, ?_, held.outside⟩
        rw [moves.view]
        exact held.within
  | @access thread op next here ready =>
      rcases serial with free | ⟨holder, earlier, held⟩
      · exact Or.inr ⟨thread, _, free.access sections here⟩
      · by_cases same : thread = holder
        · subst same
          exact held.access here
        · exact absurd ready (held.waits same here)
  | @launch thread program after launches =>
      obtain ⟨idle, rfl, outside⟩ := launches.cases
      rcases serial with free | ⟨holder, earlier, held⟩
      · refine Or.inl ⟨free.holder, free.view, fun other => ?_⟩
        by_cases same : other = thread
        · subst same
          dsimp only
          rw [Function.update_self]
          exact outside
        · dsimp only
          rw [Function.update_of_ne same]
          exact free.outside other
      · -- The holder of the mutex is not idle.
        have apart : holder ≠ thread := by
          rintro rfl
          exact held.busy idle
        refine Or.inr ⟨holder, earlier, held.holder, held.log, ?_, fun other differs => ?_⟩
        · dsimp only
          rw [Function.update_of_ne apart]
          exact held.within
        · by_cases same : other = thread
          · subst same
            dsimp only
            rw [Function.update_self]
            exact outside
          · dsimp only
            rw [Function.update_of_ne same]
            exact held.outside other differs

/-- Sections run one after the other in every pool that is reached. -/
theorem Serial.reaches (sections : ∀ thread, (bodies thread).Makes mutex.inside)
    (serial : mutex.Serial bodies start before)
    (reaches : Pool.Reaches mutex.logged mutex.Aside (mutex.Begins bodies) before after) :
    mutex.Serial bodies start after := by
  induction reaches with
  | refl => exact serial
  | tail _ step ih => exact ih.step sections step

/-- Whenever the mutex is free, the protected part is what the sections of the log leave,
one after the other. -/
theorem serial_of_reaches (sections : ∀ thread, (bodies thread).Makes mutex.inside)
    {state : σ} (free : mutex.holder state = none)
    (reaches : Pool.Reaches mutex.logged mutex.Aside (mutex.Begins bodies)
      ⟨fun _ => .ret (), state, []⟩ after)
    (released : mutex.holder after.state.1 = none) :
    mutex.view after.state.1 = mutex.serial bodies after.state.2 (mutex.view state) := by
  have begins : mutex.Serial bodies (mutex.view state) ⟨fun _ => .ret (), state, []⟩ :=
    Or.inl ⟨free, rfl, fun thread => .ret thread⟩
  rcases begins.reaches sections reaches with free | ⟨holder, earlier, held⟩
  · exact free.view
  · exact absurd (held.holder.symm.trans released) (Option.some_ne_none holder)

end Steps

end Mutex

end NvmEmulator.Semantics
