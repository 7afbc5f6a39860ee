/-
# Two back ends, one box

`uncore_pmu.h` documents the generic operations by what they mean for a box: an
event is assigned or removed, counting is frozen or resumed, everything is
cleared. `AbstractBox` is that meaning and nothing else. This module proves what
each back end implements of it, for every sequence of calls.

The PCI back end simulates the abstract box. The MSR back end simulates the
abstract box *with the two masks of every event exchanged*: its
`enable_event` writes `event->disable` and its `disable_event` writes
`event->enable`. The two agree exactly when the last call that decided the event
select did not tell the masks apart.
-/

import NvmEmulator.Uncore.Box

namespace NvmEmulator.Uncore

open NvmEmulator.Kernel NvmEmulator.Semantics

/-! ## The abstract box -/

/-- A call of the generic interface that the box's state depends on. -/
inductive BoxCall
  | initBox
  | enableBox
  | disableBox
  | enableEvent (event : UncoreEvent)
  | disableEvent (event : UncoreEvent)
  deriving DecidableEq

/-- What a box is to its clients: the event it is assigned and whether its
counter stands still. -/
@[ext]
structure AbstractBox where
  eventSelect : BitVec 64
  frozen : Bool
  deriving DecidableEq

namespace AbstractBox

/-- The documented effect of a call. -/
def step (box : AbstractBox) : BoxCall → AbstractBox
  | .initBox => ⟨0, false⟩
  | .enableBox => { box with frozen := false }
  | .disableBox => { box with frozen := true }
  | .enableEvent event => { box with eventSelect := event.enable }
  | .disableEvent event => { box with eventSelect := event.disable }

/-- The documented effect of a sequence of calls. -/
def run (box : AbstractBox) (calls : List BoxCall) : AbstractBox :=
  calls.foldl step box

end AbstractBox

namespace BoxCall

/-- The same call on the event with its masks exchanged. -/
def exchanged : BoxCall → BoxCall
  | .enableEvent event => .enableEvent ⟨event.disable, event.enable⟩
  | .disableEvent event => .disableEvent ⟨event.disable, event.enable⟩
  | call => call

/-- The masks of the call's event fit the 32-bit registers of PCI boxes. -/
def Narrow : BoxCall → Prop
  | .enableEvent event | .disableEvent event =>
      event.enable < 2 ^ 32 ∧ event.disable < 2 ^ 32
  | _ => True

instance (call : BoxCall) : Decidable call.Narrow := by
  cases call <;> unfold Narrow <;> infer_instance

/-- The event of the last call that decided the event select, when that call
was about an event and not a reset. -/
def lastEvent (calls : List BoxCall) : Option UncoreEvent :=
  calls.foldl (fun last call => match call with
    | .initBox => none
    | .enableEvent event | .disableEvent event => some event
    | _ => last) none

variable {w : Nat}

/-- The driver code a call runs. -/
def program (ops : UncoreBoxOps w) (box : UncoreBox) : BoxCall → RegProgram w Unit
  | .initBox => uncoreInitBox ops box
  | .enableBox => uncoreEnableBox ops box
  | .disableBox => uncoreDisableBox ops box
  | .enableEvent event => uncoreEnableEvent ops box event
  | .disableEvent event => uncoreDisableEvent ops box event

/-- The unit after a sequence of calls. -/
def runAll (ops : UncoreBoxOps w) (box : UncoreBox) (layout : PmonLayout)
    (calls : List BoxCall) (regs : RegFile w) : RegFile w :=
  calls.foldl (fun regs call => ((call.program ops box).run layout.exec regs).2) regs

end BoxCall

/-- The unit's registers present the abstract box. -/
structure Presents {w : Nat} (layout : PmonLayout) (box : AbstractBox)
    (regs : RegFile w) : Prop where
  select : layout.perfCtl ≠ 0 →
    (regs layout.perfCtl).setWidth 64 = box.eventSelect
  frozen : layout.frozen regs = box.frozen

/-- The unit counts occurrences of `event`. -/
def CountsEvent {w : Nat} (layout : PmonLayout) (regs : RegFile w)
    (event : UncoreEvent) : Prop :=
  (regs layout.perfCtl).setWidth 64 = event.enable ∧ layout.frozen regs = false

/-! ## What the register writes present

Each lemma is about one register write, at either width; the back ends are
compositions of these. -/

section Presents

variable {w : Nat} {layout : PmonLayout} {box : AbstractBox} {regs : RegFile w}

theorem presents_reset (wired : layout.Wired) {control : BitVec w}
    (resets : control.getLsbD 0 = true) (thaws : control.getLsbD 8 = false) :
    Presents layout ⟨0, false⟩ (layout.write layout.boxCtl control regs) := by
  rw [PmonLayout.write_boxCtl wired]
  constructor
  · intro present
    rw [Function.update_of_ne wired.select_ne, PmonLayout.reset,
      if_pos ⟨resets, rfl, present⟩]
    simp
  · rw [PmonLayout.frozen, Function.update_self, thaws]

theorem presents_status (wired : layout.Wired) (presents : Presents layout box regs)
    (value : BitVec w) :
    Presents layout box (layout.write layout.boxStatus value regs) := by
  constructor
  · intro present
    rw [PmonLayout.write_boxStatus_of_ne wired _ _
      (PmonLayout.select_ne_boxStatus wired present)]
    exact presents.select present
  · rw [PmonLayout.frozen, PmonLayout.write_boxStatus_of_ne wired _ _
      wired.status_ne.symm]
    exact presents.frozen

theorem presents_select (wired : layout.Wired) (presents : Presents layout box regs)
    {mask : BitVec 64} {value : BitVec w} (same : value.setWidth 64 = mask) :
    Presents layout { box with eventSelect := mask }
      (layout.write layout.perfCtl value regs) := by
  rw [PmonLayout.write_perfCtl wired]
  constructor
  · intro _
    rw [Function.update_self, same]
  · rw [PmonLayout.frozen, Function.update_of_ne wired.select_ne.symm]
    exact presents.frozen

/-- Rewriting the control register without its reset bits changes the freeze bit
and nothing else a client sees. -/
theorem presents_control (wired : layout.Wired) (presents : Presents layout box regs)
    (control : BitVec w) (keepsSelect : control.getLsbD 0 = false)
    (keepsCounter : control.getLsbD 1 = false) :
    Presents layout { box with frozen := control.getLsbD 8 }
      (layout.write layout.boxCtl control regs) := by
  rw [PmonLayout.write_boxCtl_of_no_reset wired keepsSelect keepsCounter]
  constructor
  · intro present
    rw [Function.update_of_ne wired.select_ne]
    exact presents.select present
  · rw [PmonLayout.frozen, Function.update_self]

/-- The read-modify-write that clears the freeze bit. -/
theorem presents_thaw (wired : layout.Wired) (presents : Presents layout box regs) :
    Presents layout { box with frozen := false }
      (layout.write layout.boxCtl
        (layout.read layout.boxCtl regs &&& ~~~PmonLayout.freezeBit w) regs) := by
  obtain ⟨select, counter⟩ := PmonLayout.getLsbD_read_boxCtl wired regs
  have stepped := presents_control wired presents
    (layout.read layout.boxCtl regs &&& ~~~PmonLayout.freezeBit w)
    (by rw [BitVec.getLsbD_and, select, Bool.false_and])
    (by rw [BitVec.getLsbD_and, counter, Bool.false_and])
  have thawed : (layout.read layout.boxCtl regs &&&
      ~~~PmonLayout.freezeBit w).getLsbD 8 = false := by
    rw [BitVec.getLsbD_and, BitVec.getLsbD_not, PmonLayout.getLsbD_freezeBit]
    by_cases wide : 8 < w <;> simp [wide]
  rwa [thawed] at stepped

/-- The read-modify-write that sets the freeze bit. -/
theorem presents_freeze (wired : layout.Wired) (wide : 8 < w)
    (presents : Presents layout box regs) :
    Presents layout { box with frozen := true }
      (layout.write layout.boxCtl
        (layout.read layout.boxCtl regs ||| PmonLayout.freezeBit w) regs) := by
  obtain ⟨select, counter⟩ := PmonLayout.getLsbD_read_boxCtl wired regs
  have stepped := presents_control wired presents
    (layout.read layout.boxCtl regs ||| PmonLayout.freezeBit w)
    (by rw [BitVec.getLsbD_or, select, PmonLayout.getLsbD_freezeBit]; simp)
    (by rw [BitVec.getLsbD_or, counter, PmonLayout.getLsbD_freezeBit]; simp)
  have frozen : (layout.read layout.boxCtl regs |||
      PmonLayout.freezeBit w).getLsbD 8 = true := by
    rw [BitVec.getLsbD_or, PmonLayout.getLsbD_freezeBit]
    simp [wide]
  rwa [frozen] at stepped

end Presents

/-! ## The PCI back end -/

section Pci

variable {box : UncoreBox} {abstract : AbstractBox} {regs : RegFile 32}

theorem setWidth_of_narrow {mask : BitVec 64} (narrow : mask < 2 ^ 32) :
    (mask.setWidth 32).setWidth 64 = mask := by
  apply BitVec.eq_of_toNat_eq
  have bound : mask.toNat < 2 ^ 32 := narrow
  simp only [BitVec.toNat_setWidth]
  omega

/-- Every call on a PCI box has its documented effect. -/
theorem pci_presents_step (wired : (pciLayout box).Wired) {call : BoxCall}
    (narrow : call.Narrow) (presents : Presents (pciLayout box) abstract regs) :
    Presents (pciLayout box) (abstract.step call)
      ((call.program hswepUncorePciBoxOps box).run (pciLayout box).exec regs).2 := by
  cases call with
  | initBox =>
      exact presents_status wired (presents_reset wired (by decide) (by decide)) _
  | enableBox => exact presents_thaw wired presents
  | disableBox => exact presents_freeze wired (by decide) presents
  | enableEvent event => exact presents_select wired presents (setWidth_of_narrow narrow.1)
  | disableEvent event => exact presents_select wired presents (setWidth_of_narrow narrow.2)

/-- The PCI back end simulates the abstract box over every sequence of calls. -/
theorem pci_presents (wired : (pciLayout box).Wired) {calls : List BoxCall}
    (narrow : ∀ call ∈ calls, call.Narrow)
    (presents : Presents (pciLayout box) abstract regs) :
    Presents (pciLayout box) (abstract.run calls)
      (BoxCall.runAll hswepUncorePciBoxOps box (pciLayout box) calls regs) :=
  List.foldl_rel presents fun call mem _ _ now =>
    pci_presents_step wired (narrow call mem) now

end Pci

/-! ## The MSR back end -/

section Msr

variable {box : UncoreBox} {abstract : AbstractBox} {regs : RegFile 64}

/-- Every call on an MSR box has the documented effect of the call with the
event's masks exchanged. -/
theorem msr_presents_step (wired : (msrLayout box).Wired) (call : BoxCall)
    (presents : Presents (msrLayout box) abstract regs) :
    Presents (msrLayout box) (abstract.step call.exchanged)
      ((call.program hswepUncoreMsrBoxOps box).run (msrLayout box).exec regs).2 := by
  have control : uncoreMsrBoxCtl box ≠ 0 := wired.control
  cases call with
  | initBox =>
      have program : BoxCall.initBox.program hswepUncoreMsrBoxOps box =
          wrmsrl (uncoreMsrBoxCtl box) hswepMsrBoxCtlInit := if_pos control
      rw [program]
      exact presents_reset wired (by decide) (by decide)
  | enableBox =>
      have program : BoxCall.enableBox.program hswepUncoreMsrBoxOps box =
          (rdmsrl (uncoreMsrBoxCtl box)).bind fun config =>
            wrmsrl (uncoreMsrBoxCtl box) (config &&& ~~~hswepMsrBoxCtlFrz) :=
        if_pos control
      rw [program]
      exact presents_thaw wired presents
  | disableBox =>
      have program : BoxCall.disableBox.program hswepUncoreMsrBoxOps box =
          (rdmsrl (uncoreMsrBoxCtl box)).bind fun config =>
            wrmsrl (uncoreMsrBoxCtl box) (config ||| hswepMsrBoxCtlFrz) :=
        if_pos control
      rw [program]
      exact presents_freeze wired (by decide) presents
  | enableEvent event => exact presents_select wired presents (BitVec.setWidth_eq _)
  | disableEvent event => exact presents_select wired presents (BitVec.setWidth_eq _)

/-- The MSR back end simulates the abstract box of the exchanged events. -/
theorem msr_presents (wired : (msrLayout box).Wired) (calls : List BoxCall)
    (presents : Presents (msrLayout box) abstract regs) :
    Presents (msrLayout box) (abstract.run (calls.map BoxCall.exchanged))
      (BoxCall.runAll hswepUncoreMsrBoxOps box (msrLayout box) calls regs) := by
  rw [AbstractBox.run, List.foldl_map]
  exact List.foldl_rel presents fun call _ _ _ now => msr_presents_step wired call now

end Msr

/-! ## Comparing the two -/

section Exchange

variable (abstract : AbstractBox)

/-- Exchanging masks leaves the freeze bit alone. -/
theorem run_exchanged_frozen (calls : List BoxCall) :
    (abstract.run (calls.map BoxCall.exchanged)).frozen = (abstract.run calls).frozen := by
  induction calls using List.reverseRecOn with
  | nil => rfl
  | append_singleton earlier last ih =>
      simp only [AbstractBox.run, List.map_append, List.map_cons, List.map_nil,
        List.foldl_append, List.foldl_cons, List.foldl_nil] at ih ⊢
      cases last <;> first | rfl | exact ih

/-- Exchanging masks leaves the event select alone exactly when the last call
that decided it does not tell the masks apart. -/
theorem run_exchanged_eventSelect (calls : List BoxCall) :
    (abstract.run (calls.map BoxCall.exchanged)).eventSelect =
        (abstract.run calls).eventSelect ↔
      ∀ event ∈ BoxCall.lastEvent calls, event.enable = event.disable := by
  induction calls using List.reverseRecOn with
  | nil => simp [AbstractBox.run, BoxCall.lastEvent]
  | append_singleton earlier last ih =>
      simp only [AbstractBox.run, BoxCall.lastEvent, List.map_append, List.map_cons,
        List.map_nil, List.foldl_append, List.foldl_cons, List.foldl_nil] at ih ⊢
      cases last with
      | initBox => simp [BoxCall.exchanged, AbstractBox.step]
      | enableBox => exact ih
      | disableBox => exact ih
      | enableEvent event => simp [BoxCall.exchanged, AbstractBox.step, eq_comm]
      | disableEvent event => simp [BoxCall.exchanged, AbstractBox.step]

end Exchange

/-- What the interface promises of one sequence of calls made on an MSR box and on
a PCI box: both end as the abstract box does, and they count the same events. -/
structure BackEndsAgree (msrBox pciBox : UncoreBox) (abstract : AbstractBox)
    (calls : List BoxCall) (msrRegs : RegFile 64) (pciRegs : RegFile 32) : Prop where
  msr : Presents (msrLayout msrBox) (abstract.run calls)
    (BoxCall.runAll hswepUncoreMsrBoxOps msrBox (msrLayout msrBox) calls msrRegs)
  pci : Presents (pciLayout pciBox) (abstract.run calls)
    (BoxCall.runAll hswepUncorePciBoxOps pciBox (pciLayout pciBox) calls pciRegs)
  counts : (msrLayout msrBox).perfCtl ≠ 0 → (pciLayout pciBox).perfCtl ≠ 0 →
    ∀ event,
      CountsEvent (msrLayout msrBox)
          (BoxCall.runAll hswepUncoreMsrBoxOps msrBox (msrLayout msrBox) calls msrRegs)
          event ↔
        CountsEvent (pciLayout pciBox)
          (BoxCall.runAll hswepUncorePciBoxOps pciBox (pciLayout pciBox) calls pciRegs)
          event

/-- The two back ends keep the interface's promise exactly when the last call that
decided the event select was a reset or was about an event whose masks are equal
(or the MSR unit has no event select to go wrong). -/
theorem backEndsAgree_iff {msrBox pciBox : UncoreBox} {abstract : AbstractBox}
    {calls : List BoxCall} {msrRegs : RegFile 64} {pciRegs : RegFile 32}
    (msrWired : (msrLayout msrBox).Wired) (pciWired : (pciLayout pciBox).Wired)
    (narrow : ∀ call ∈ calls, call.Narrow)
    (msrStart : Presents (msrLayout msrBox) abstract msrRegs)
    (pciStart : Presents (pciLayout pciBox) abstract pciRegs) :
    BackEndsAgree msrBox pciBox abstract calls msrRegs pciRegs ↔
      ((msrLayout msrBox).perfCtl ≠ 0 →
        ∀ event ∈ BoxCall.lastEvent calls, event.enable = event.disable) := by
  have exchanged := msr_presents msrWired calls msrStart
  have documented := pci_presents pciWired narrow pciStart
  rw [← run_exchanged_eventSelect abstract calls]
  constructor
  · intro agree present
    rw [← exchanged.select present, agree.msr.select present]
  · intro same
    have msr : Presents (msrLayout msrBox) (abstract.run calls)
        (BoxCall.runAll hswepUncoreMsrBoxOps msrBox (msrLayout msrBox) calls msrRegs) :=
      ⟨fun present => (exchanged.select present).trans (same present),
        exchanged.frozen.trans (run_exchanged_frozen abstract calls)⟩
    refine ⟨msr, documented, fun msrPresent pciPresent event => ?_⟩
    rw [CountsEvent, CountsEvent, msr.select msrPresent, documented.select pciPresent,
      msr.frozen, documented.frozen]

/-- The promise is kept where the box is reset after an event was assigned, and then frozen. -/
theorem backEndsAgree_reset :
    BackEndsAgree ⟨0, 0, hswepUncoreCbox, none⟩ ⟨0, 0, hswepUncoreHa, none⟩ ⟨0, false⟩
      [.enableEvent haRequestsRemoteReads, .initBox, .disableBox] (fun _ => 0)
      (fun _ => 0) :=
  (backEndsAgree_iff (by decide) (by decide) (by decide)
    ⟨fun _ => rfl, rfl⟩ ⟨fun _ => rfl, rfl⟩).mpr (by decide)

/-- Assigning the remote-read event to a C-box leaves its event select 0, while the
home agent's box counts the event. -/
theorem not_backEndsAgree_enableEvent :
    ¬ BackEndsAgree ⟨0, 0, hswepUncoreCbox, none⟩ ⟨0, 0, hswepUncoreHa, none⟩ ⟨0, false⟩
      [.initBox, .enableEvent haRequestsRemoteReads, .enableBox] (fun _ => 0)
      (fun _ => 0) := by
  intro agree
  have select := agree.msr.select (by decide)
  revert select
  decide

end NvmEmulator.Uncore
