/-
# The MSR boxes of a socket

All MSR boxes of a socket lie in one address space, and a box is told from the others of its
type only by an offset. Here the boxes are one device: an access goes to the box that has a
register at the address. No address belongs to two boxes, so one thread for each box can use
its box as if the others were not there.
-/

import NvmEmulator.Semantics.Isolation
import NvmEmulator.Uncore.BoxWrites
import Mathlib.Data.List.Pairwise

namespace NvmEmulator.Uncore

open NvmEmulator.Semantics

/-! ## Addresses -/

/-- The box of a type at a position. -/
def msrBoxAt (type : UncoreBoxType) (idx : Nat) : UncoreBox where
  idx := idx
  nodeid := 0
  boxType := type

/-- Every box that the types of Haswell-EP provide for. -/
def hswepMsrBoxes : List UncoreBox :=
  hswepUncoreMsrType.flatMap fun type => (List.range type.numBoxes).map (msrBoxAt type)

/-- The address of a register of a box, if its type has the register. -/
def msrRegister (box : UncoreBox) (register : BitVec 32) : List (BitVec 32) :=
  if register = 0 then [] else [register + uncoreMsrBoxOffset box]

/-- The registers that only calls on the box change: box control and event select. -/
def msrControls (box : UncoreBox) : List (BitVec 32) :=
  msrRegister box box.boxType.boxCtl ++ msrRegister box box.boxType.perfCtl

/-- All registers of a box. -/
def msrRegisters (box : UncoreBox) : List (BitVec 32) :=
  msrControls box ++ msrRegister box box.boxType.boxStatus ++ msrRegister box box.boxType.perfCtr

theorem mem_msrRegisters_of_control {box : UncoreBox} {addr : BitVec 32}
    (control : addr ∈ msrControls box) : addr ∈ msrRegisters box :=
  List.mem_append_left _ (List.mem_append_left _ control)

/-- No two boxes have a register in common. -/
theorem nodup_msrRegisters : (hswepMsrBoxes.flatMap msrRegisters).Nodup := by decide +kernel

theorem eq_of_mem_msrRegisters {first second : UncoreBox} (here : first ∈ hswepMsrBoxes)
    (there : second ∈ hswepMsrBoxes) {addr : BitVec 32} (inFirst : addr ∈ msrRegisters first)
    (inSecond : addr ∈ msrRegisters second) : first = second := by
  have apart := (List.nodup_flatMap.mp nodup_msrRegisters).2
  have symmetric : Std.Symm (Function.onFun List.Disjoint msrRegisters) :=
    ⟨fun _ _ disjoint => disjoint.symm⟩
  by_contra differ
  exact apart.forall here there differ inFirst inSecond

/-- Every box has an event select and a counter, and a box without a control register is at
offset 0. -/
theorem msrRegisters_present : ∀ box ∈ hswepMsrBoxes,
    box.boxType.perfCtl ≠ 0 ∧ box.boxType.perfCtr ≠ 0 ∧
      (box.boxType.boxCtl = 0 → uncoreMsrBoxCtl box = 0) := by
  decide +kernel

theorem boxCtl_mem_msrControls {box : UncoreBox} (known : box ∈ hswepMsrBoxes)
    (present : uncoreMsrBoxCtl box ≠ 0) : uncoreMsrBoxCtl box ∈ msrControls box := by
  have register : box.boxType.boxCtl ≠ 0 :=
    fun absent => present ((msrRegisters_present box known).2.2 absent)
  rw [msrControls, msrRegister, if_neg register]
  exact List.mem_append_left _ (List.mem_singleton_self _)

theorem perfCtl_mem_msrControls {box : UncoreBox} (known : box ∈ hswepMsrBoxes) :
    uncoreMsrPerfCtl box ∈ msrControls box := by
  have register := (msrRegisters_present box known).1
  rw [msrControls, msrRegister, msrRegister, if_neg register]
  exact List.mem_append_right _ (List.mem_singleton_self _)

theorem perfCtr_mem_msrRegisters {box : UncoreBox} (known : box ∈ hswepMsrBoxes) :
    uncoreMsrPerfCtr box ∈ msrRegisters box := by
  have register := (msrRegisters_present box known).2.1
  rw [msrRegisters]
  apply List.mem_append_right
  rw [msrRegister, if_neg register]
  exact List.mem_singleton_self _

/-! ## Accesses -/

/-- The address of an access. -/
def RegOp.addr {w : Nat} : RegOp w → BitVec 32
  | .read addr => addr
  | .write addr _ => addr

/-- The accesses of the operations on a box: they read the box control only. -/
def MsrAccess (box : UncoreBox) : RegOp 64 → Prop
  | .read addr => addr ∈ msrControls box
  | .write addr _ => addr ∈ msrRegisters box

theorem MsrAccess.mem {box : UncoreBox} {op : RegOp 64} (access : MsrAccess box op) :
    op.addr ∈ msrRegisters box := by
  cases op with
  | read addr => exact mem_msrRegisters_of_control access
  | write addr value => exact access

/-- Every operation on a box makes such accesses. -/
theorem makes_msrAccess {box : UncoreBox} (known : box ∈ hswepMsrBoxes)
    (operation : BoxOperation) :
    (operation.program hswepUncoreMsrBoxOps box).Makes (MsrAccess box) := by
  have control := boxCtl_mem_msrControls known
  have select := mem_msrRegisters_of_control (perfCtl_mem_msrControls known)
  have counter := perfCtr_mem_msrRegisters known
  have init : (hswepUncoreMsrInitBox box).Makes (MsrAccess box) := by
    rw [hswepUncoreMsrInitBox]
    split
    · next present => exact ⟨mem_msrRegisters_of_control (control present), fun _ => trivial⟩
    · trivial
  have update : ∀ change : BitVec 64 → BitVec 64,
      (if uncoreMsrBoxCtl box ≠ 0 then
        (rdmsrl (uncoreMsrBoxCtl box)).bind fun config =>
          wrmsrl (uncoreMsrBoxCtl box) (change config)
      else .ret () : RegProgram 64 Unit).Makes (MsrAccess box) := by
    intro change
    split
    · next present =>
        exact ⟨control present, fun _ =>
          ⟨mem_msrRegisters_of_control (control present), fun _ => trivial⟩⟩
    · trivial
  cases operation with
  | initBox => exact init
  | clearBox => exact init
  | enableBox => exact update _
  | disableBox => exact update _
  | enableEvent event => exact ⟨select, fun _ => trivial⟩
  | disableEvent event => exact ⟨select, fun _ => trivial⟩
  | writeCounter value => exact ⟨counter, fun _ => trivial⟩

theorem makes_runOperations {box : UncoreBox} (known : box ∈ hswepMsrBoxes)
    (operations : List BoxOperation) :
    (runOperations hswepUncoreMsrBoxOps box operations).Makes (MsrAccess box) :=
  .forEach fun operation _ => makes_msrAccess known operation

/-! ## The socket -/

/-- The box that has a register at an address. -/
def msrOwner (boxes : List UncoreBox) (addr : BitVec 32) : Option UncoreBox :=
  boxes.find? fun box => (msrRegisters box).contains addr

/-- The model-specific registers of a socket. -/
def msrNode (boxes : List UncoreBox) : Device (RegOp 64) RegOp.Res (RegFile 64) where
  exec op regs :=
    match msrOwner boxes op.addr with
    | some box => (msrLayout box).exec op regs
    | none => RegFile.exec op regs

/-- The hardware counts, and other code uses other registers: every box keeps its box control
and its event select. -/
def KeepsControls (boxes : List UncoreBox) (before after : RegFile 64) : Prop :=
  ∀ box ∈ boxes, ∀ addr ∈ msrControls box, after addr = before addr

/-- The box control and the event select of a box. -/
def controlsOf (box : UncoreBox) (regs : RegFile 64) : RegFile 64 := fun addr =>
  if (msrControls box).contains addr then regs addr else 0

theorem controlsOf_of_mem {box : UncoreBox} {addr : BitVec 32} (control : addr ∈ msrControls box)
    (regs : RegFile 64) : controlsOf box regs addr = regs addr :=
  if_pos (List.contains_iff_mem.mpr control)

theorem controlsOf_of_not_mem {box : UncoreBox} {addr : BitVec 32}
    (other : addr ∉ msrControls box) (regs : RegFile 64) : controlsOf box regs addr = 0 :=
  if_neg fun here => other (List.contains_iff_mem.mp here)

/-- A box alone, as far as its box control and its event select go. -/
def msrUnit (box : UncoreBox) : Device (RegOp 64) RegOp.Res (RegFile 64) where
  exec op regs :=
    (((msrLayout box).exec op regs).1, controlsOf box ((msrLayout box).exec op regs).2)

section Layout

variable {w : Nat} (layout : PmonLayout)

/-- What a write leaves at an address depends on what was there. -/
theorem write_congr {first second : RegFile w} {place : BitVec 32}
    (same : first place = second place) (addr : BitVec 32) (value : BitVec w) :
    layout.write addr value first place = layout.write addr value second place := by
  have reset : layout.reset value first place = layout.reset value second place := by
    simp only [PmonLayout.reset, same]
  by_cases here : place = addr
  · subst here
    rw [PmonLayout.write, PmonLayout.write]
    split
    · rw [Function.update_self, Function.update_self]
    · split
      · rw [Function.update_self, Function.update_self, same]
      · rw [Function.update_self, Function.update_self]
  · rw [PmonLayout.write, PmonLayout.write]
    split
    · rw [Function.update_of_ne here, Function.update_of_ne here, reset]
    · split
      · rw [Function.update_of_ne here, Function.update_of_ne here, same]
      · rw [Function.update_of_ne here, Function.update_of_ne here, same]

/-- A write reaches the address written, and what the reset bits clear. -/
theorem write_of_elsewhere {addr place : BitVec 32} (address : place ≠ addr)
    (select : place = layout.perfCtl → place = 0) (counter : place ∉ layout.counters)
    (value : BitVec w) (regs : RegFile w) : layout.write addr value regs place = regs place := by
  have reset : layout.reset value regs place = regs place := by
    rw [PmonLayout.reset, if_neg fun cleared => cleared.2.2 (select cleared.2.1),
      if_neg fun cleared => counter cleared.2]
  rw [PmonLayout.write]
  split
  · rw [Function.update_of_ne address, reset]
  · split
    · exact Function.update_of_ne address _ _
    · exact Function.update_of_ne address _ _

end Layout

section Node

variable {boxes : List UncoreBox}

/-- An address of a box is owned by that box. -/
theorem msrOwner_eq (known : ∀ box ∈ boxes, box ∈ hswepMsrBoxes) {box : UncoreBox}
    (mem : box ∈ boxes) {addr : BitVec 32} (register : addr ∈ msrRegisters box) :
    msrOwner boxes addr = some box := by
  cases found : msrOwner boxes addr with
  | none =>
      have free := List.find?_eq_none.mp found box mem
      exact absurd register (by simpa using free)
  | some owner =>
      have owns : addr ∈ msrRegisters owner := by simpa using List.find?_some found
      have listed : owner ∈ boxes := List.mem_of_find?_eq_some found
      rw [eq_of_mem_msrRegisters (known owner listed) (known box mem) owns register]

/-- An access of a box goes to the box. -/
theorem msrNode_exec (known : ∀ box ∈ boxes, box ∈ hswepMsrBoxes) {box : UncoreBox}
    (mem : box ∈ boxes) {op : RegOp 64} (access : MsrAccess box op) (regs : RegFile 64) :
    (msrNode boxes).exec op regs = (msrLayout box).exec op regs := by
  rw [msrNode]
  dsimp only
  rw [msrOwner_eq known mem access.mem]

/-- An access of a box leaves the other boxes alone. -/
theorem controlsOf_exec_other {box other : UncoreBox} (known : box ∈ hswepMsrBoxes)
    (knownOther : other ∈ hswepMsrBoxes) (differ : other ≠ box) {op : RegOp 64}
    (access : MsrAccess box op) (regs : RegFile 64) :
    controlsOf other ((msrLayout box).exec op regs).2 = controlsOf other regs := by
  funext place
  by_cases control : place ∈ msrControls other
  · rw [controlsOf_of_mem control, controlsOf_of_mem control]
    have apart : place ∉ msrRegisters box := fun register =>
      differ (eq_of_mem_msrRegisters knownOther known (mem_msrRegisters_of_control control)
        register)
    cases op with
    | read addr => rfl
    | write addr value =>
        apply write_of_elsewhere
        · rintro rfl
          exact apart access
        · rintro rfl
          exact absurd (mem_msrRegisters_of_control (perfCtl_mem_msrControls known)) apart
        · intro counter
          have here : place = uncoreMsrPerfCtr box := by
            rw [msrLayout] at counter
            dsimp only at counter
            split at counter
            · exact absurd counter List.not_mem_nil
            · exact List.mem_singleton.mp counter
          rw [here] at apart
          exact apart (perfCtr_mem_msrRegisters known)
  · rw [controlsOf_of_not_mem control, controlsOf_of_not_mem control]

/-- What an access does to the controls of its box is read off the controls. -/
theorem exec_controlsOf {box : UncoreBox} {op : RegOp 64} (access : MsrAccess box op)
    (regs : RegFile 64) :
    ((msrLayout box).exec op regs).1 = ((msrUnit box).exec op (controlsOf box regs)).1 ∧
      controlsOf box ((msrLayout box).exec op regs).2 =
        ((msrUnit box).exec op (controlsOf box regs)).2 := by
  cases op with
  | read addr =>
      have same := controlsOf_of_mem access regs
      constructor
      · show ((0, (msrLayout box).read addr regs) : Int × BitVec 64) =
          (0, (msrLayout box).read addr (controlsOf box regs))
        rw [PmonLayout.read, PmonLayout.read, same]
      · funext place
        show controlsOf box regs place = controlsOf box (controlsOf box regs) place
        by_cases control : place ∈ msrControls box
        · rw [controlsOf_of_mem control, controlsOf_of_mem control, controlsOf_of_mem control]
        · rw [controlsOf_of_not_mem control, controlsOf_of_not_mem control]
  | write addr value =>
      refine ⟨rfl, ?_⟩
      funext place
      show controlsOf box ((msrLayout box).write addr value regs) place =
        controlsOf box ((msrLayout box).write addr value (controlsOf box regs)) place
      by_cases control : place ∈ msrControls box
      · rw [controlsOf_of_mem control, controlsOf_of_mem control]
        exact write_congr _ (controlsOf_of_mem control regs).symm addr value
      · rw [controlsOf_of_not_mem control, controlsOf_of_not_mem control]

/-- An access of a box does to its controls what it does to them alone. -/
theorem msrNode_inside (known : ∀ box ∈ boxes, box ∈ hswepMsrBoxes)
    (thread : {box : UncoreBox // box ∈ boxes}) (op : RegOp 64)
    (access : MsrAccess thread.val op) (regs : RegFile 64) :
    ((msrNode boxes).exec op regs).1 =
        ((msrUnit thread.val).exec op (controlsOf thread.val regs)).1 ∧
      controlsOf thread.val ((msrNode boxes).exec op regs).2 =
        ((msrUnit thread.val).exec op (controlsOf thread.val regs)).2 := by
  rw [msrNode_exec known thread.property access]
  exact exec_controlsOf access regs

theorem msrNode_outside (known : ∀ box ∈ boxes, box ∈ hswepMsrBoxes)
    (thread : {box : UncoreBox // box ∈ boxes}) (op : RegOp 64)
    (access : MsrAccess thread.val op) (other : {box : UncoreBox // box ∈ boxes})
    (differ : other ≠ thread) (regs : RegFile 64) :
    controlsOf other.val ((msrNode boxes).exec op regs).2 = controlsOf other.val regs := by
  rw [msrNode_exec known thread.property access]
  apply controlsOf_exec_other (known _ thread.property) (known _ other.property) _ access
  exact fun same => differ (Subtype.ext same)

theorem controlsOf_of_keeps (before after : RegFile 64) (keeps : KeepsControls boxes before after)
    (thread : {box : UncoreBox // box ∈ boxes}) :
    controlsOf thread.val after = controlsOf thread.val before := by
  funext addr
  by_cases control : addr ∈ msrControls thread.val
  · rw [controlsOf_of_mem control, controlsOf_of_mem control]
    exact keeps _ thread.property addr control
  · rw [controlsOf_of_not_mem control, controlsOf_of_not_mem control]

/-- One thread for each box. -/
def msrIsolation (known : ∀ box ∈ boxes, box ∈ hswepMsrBoxes) :
    Isolation (msrNode boxes) (KeepsControls boxes)
      (fun _ : {box : UncoreBox // box ∈ boxes} => RegFile 64) where
  view thread := controlsOf thread.val
  own thread := msrUnit thread.val
  rely _ before after := after = before
  allowed thread := MsrAccess thread.val
  own_ready _ _ _ _ _ := trivial
  answer thread op access regs := (msrNode_inside known thread op access regs).1
  inside thread op access regs := (msrNode_inside known thread op access regs).2
  outside := msrNode_outside known
  environment := controlsOf_of_keeps

/-- One thread for each box, with its operations. -/
def boxThreads (operations : UncoreBox → List BoxOperation)
    (thread : {box : UncoreBox // box ∈ boxes}) : RegProgram 64 Unit :=
  runOperations hswepUncoreMsrBoxOps thread.val (operations thread.val)

/-- A box whose thread has finished has the controls that its own operations leave when no
other thread runs. -/
theorem controls_of_reaches (known : ∀ box ∈ boxes, box ∈ hswepMsrBoxes)
    {operations : UncoreBox → List BoxOperation} {regs : RegFile 64}
    {pool : Pool {box : UncoreBox // box ∈ boxes} (RegOp 64) RegOp.Res (RegFile 64)}
    (reaches : Pool.Reaches (msrNode boxes) (KeepsControls boxes) Isolation.noLaunch
      ⟨boxThreads operations, regs⟩ pool)
    (thread : {box : UncoreBox // box ∈ boxes}) (finished : pool.threads thread = .ret ())
    {addr : BitVec 32} (control : addr ∈ msrControls thread.val) :
    pool.state addr = ((boxThreads operations thread).run (msrNode boxes).exec regs).2 addr := by
  have makes : ∀ thread, (boxThreads operations thread).Makes
      ((msrIsolation known).allowed thread) :=
    fun thread => makes_runOperations (known _ thread.property) _
  have alone := Isolation.alone_of_reaches makes reaches
  have left := alone.run_eq (makes thread) (fun _ _ same => same) finished
  have here : controlsOf thread.val pool.state addr = _ := congrFun left addr
  rw [controlsOf_of_mem control] at here
  rw [here]
  exact controlsOf_of_mem control _

end Node

end NvmEmulator.Uncore
