/-
# The event ledger

Events arrive at the home agent at any time, also between the accesses of a timer
tick. What a tick charges is what it read from the counter. This module accounts
for every event: the counts of the completed ticks and the counter's present value
add up to the events that arrived while the box was counting.

The argument follows the box through a tick. While it counts, the counter and the
window since its last control write move together. Once it is frozen, events pass
by, so the unit is a constant until the unfreezing write, and the two halves of the
counter belong to one value.
-/

import NvmEmulator.Emulate.Counting
import NvmEmulator.Emulate.Accesses

namespace NvmEmulator.Emulate

open Relation NvmEmulator.Kernel NvmEmulator.Semantics NvmEmulator.Uncore

/-- A home-agent box sees one occurrence of the event it is programmed for. Fewer
than `2 ^ 48` of them arrive between two writes of its control register. -/
inductive Arrives : World → World → Prop
  | event (box : UncoreBox) (world : World) (room : (world.units box).window + 1 < 2 ^ 48) :
      Arrives world
        { world with
          units := Function.update world.units box ((world.units box).arrive box) }

/-- Ticks of a box's timer that ran to their end, with the `counts` each of them
read, and events at any time. -/
inductive Ticks (machine : Machine) (box : UncoreBox) :
    World → List (BitVec 64) → World → Prop
  | none {before after : World} (moves : ReflTransGen Arrives before after) :
      Ticks machine box before [] after
  | tick {before middle after : World} {counts : List (BitVec 64)}
      (earlier : Ticks machine box before counts middle)
      (completes : Completes machine.device Arrives (emulateNvmHrtimer box) middle .restart
        after) :
      Ticks machine box before (counts ++ [after.globals.procCounts]) after

/-! ## What a unit owes -/

/-- A unit that was reset and is not counting. -/
structure Emptied (box : UncoreBox) (unit : PmonUnit) : Prop where
  still : unit.counting box = false
  counter : counterValue box unit.regs = 0
  arrived : unit.arrived = 0

/-- A frozen unit: of the events that arrived, `due` are in no counter. -/
structure Frozen (box : UncoreBox) (due : Nat) (unit : PmonUnit) : Prop where
  frozen : (unit.regs (uncorePciBoxCtl box)).getLsbD 8 = true
  selected : (unit.regs (uncorePciPerfCtl box)).getLsbD 22 = true
  balance : unit.arrived = due + (counterValue box unit.regs).toNat

/-- A counting unit, its counter cleared when it began to count. -/
structure Running (box : UncoreBox) (due : Nat) (unit : PmonUnit) : Prop where
  counts : unit.counting box = true
  balance : unit.arrived = due + (counterValue box unit.regs).toNat
  fresh : (counterValue box unit.regs).toNat = unit.window

section Unit

variable {box : UncoreBox} {due : Nat} {unit : PmonUnit}

theorem counting_of_frozen (frozen : (unit.regs (uncorePciBoxCtl box)).getLsbD 8 = true) :
    unit.counting box = false := by
  have control : (pciLayout box).frozen unit.regs = true := frozen
  rw [PmonUnit.counting, control, Bool.not_true, Bool.and_false]

theorem Frozen.arrive (frozen : Frozen box due unit) : unit.arrive box = unit :=
  PmonUnit.arrive_of_not_counting (counting_of_frozen frozen.frozen)

theorem Emptied.arrive (emptied : Emptied box unit) : unit.arrive box = unit :=
  PmonUnit.arrive_of_not_counting emptied.still

variable (counting : CountingBox box)
include counting

/-- An event moves the counter, the arrivals and the window by one. -/
theorem Running.arrive (running : Running box due unit)
    (room : unit.window + 1 < 2 ^ 48) : Running box due (unit.arrive box) := by
  have apart : ∀ addr, addr ∉ (pciLayout box).counters →
      setCounter box (counterValue box unit.regs + 1) unit.regs addr = unit.regs addr := by
    intro addr outside
    rw [counting.counters_eq, List.mem_cons, List.mem_singleton, not_or] at outside
    exact setCounter_of_ne outside.1 outside.2 _ _
  have moved : unit.arrive box =
      ⟨setCounter box (counterValue box unit.regs + 1) unit.regs, unit.arrived + 1,
        unit.window + 1⟩ := if_pos running.counts
  have next : (counterValue box unit.regs + 1).toNat =
      (counterValue box unit.regs).toNat + 1 := by
    rw [BitVec.toNat_add]
    exact Nat.mod_eq_of_lt (by rw [running.fresh]; exact room)
  rw [moved]
  constructor
  · rw [← running.counts]
    exact PmonUnit.counting_congr (apart _ counting.wired.control_not_counter)
      (apart _ counting.wired.select_not_counter)
  · show unit.arrived + 1 = _
    rw [counterValue_setCounter, next, running.balance, Nat.add_assoc]
  · show _ = unit.window + 1
    rw [counterValue_setCounter, next, running.fresh]

section Control

variable {config : BitVec 32} (keepsSelect : config.getLsbD 0 = false)
  (keepsCounter : config.getLsbD 1 = false)
include keepsSelect keepsCounter

/-- The freezing write stops a running unit where it is. -/
theorem Running.freeze (running : Running box due unit) :
    Frozen box due
      (unit.exec box (.write (uncorePciBoxCtl box) (config ||| hswepPciBoxCtlFrz))).2 := by
  obtain ⟨first, second, freezes⟩ := freeze_word keepsSelect keepsCounter
  obtain ⟨control, select, counter, arrived, -⟩ :=
    PmonUnit.exec_control counting first second unit
  have both := running.counts
  rw [PmonUnit.counting, Bool.and_eq_true] at both
  refine ⟨?_, ?_, ?_⟩
  · rw [control, freezes]
  · rw [select, both.1]
  · rw [arrived, counter, running.balance]

/-- The freezing write on an emptied unit: from here on an event can be selected. -/
theorem Emptied.freeze (emptied : Emptied box unit) :
    let after :=
      (unit.exec box (.write (uncorePciBoxCtl box) (config ||| hswepPciBoxCtlFrz))).2
    (after.regs (uncorePciBoxCtl box)).getLsbD 8 = true ∧ Emptied box after := by
  intro after
  obtain ⟨first, second, freezes⟩ := freeze_word keepsSelect keepsCounter
  obtain ⟨control, -, counter, arrived, -⟩ :=
    PmonUnit.exec_control counting first second unit
  have frozen : (after.regs (uncorePciBoxCtl box)).getLsbD 8 = true := by
    rw [control, freezes]
  exact ⟨frozen, counting_of_frozen frozen, counter.trans emptied.counter,
    arrived.trans emptied.arrived⟩

/-- The unfreezing write starts the unit, when its counter is clear. -/
theorem Frozen.resume (frozen : Frozen box due unit)
    (clear : counterValue box unit.regs = 0) :
    Running box due
      (unit.exec box (.write (uncorePciBoxCtl box) (config &&& ~~~hswepPciBoxCtlFrz))).2 := by
  obtain ⟨first, second, resumes⟩ := unfreeze_word keepsSelect keepsCounter
  obtain ⟨control, select, counter, arrived, window⟩ :=
    PmonUnit.exec_control counting first second unit
  have layout : (pciLayout box).boxCtl = uncorePciBoxCtl box := rfl
  refine ⟨?_, ?_, ?_⟩
  · rw [PmonUnit.counting, PmonLayout.frozen, layout, control, select, frozen.selected,
      resumes]
    rfl
  · rw [arrived, counter, frozen.balance]
  · rw [counter, window, clear]
    rfl

end Control

/-- Selecting the event on a frozen, emptied unit. -/
theorem Emptied.select (emptied : Emptied box unit)
    (frozen : (unit.regs (uncorePciBoxCtl box)).getLsbD 8 = true) {value : BitVec 32}
    (enables : value.getLsbD 22 = true) :
    let after := (unit.exec box (.write (uncorePciPerfCtl box) value)).2
    Frozen box 0 after ∧ counterValue box after.regs = 0 := by
  intro after
  have written : after = _ := PmonUnit.exec_write_perfCtl counting value unit
  have control : uncorePciBoxCtl box ≠ uncorePciPerfCtl box :=
    counting.wired.select_ne.symm
  have low : uncorePciPerfCtr box ≠ uncorePciPerfCtl box :=
    PmonLayout.counter_ne_perfCtl counting.wired counting.low_mem
  have high : uncorePciPerfCtr box + 4 ≠ uncorePciPerfCtl box :=
    PmonLayout.counter_ne_perfCtl counting.wired counting.high_mem
  have counter : counterValue box after.regs = 0 := by
    rw [written, ← emptied.counter]
    exact counterValue_congr (Function.update_of_ne low _ _)
      (Function.update_of_ne high _ _)
  refine ⟨⟨?_, ?_, ?_⟩, counter⟩
  · have same : after.regs (uncorePciBoxCtl box) = unit.regs (uncorePciBoxCtl box) := by
      rw [written]
      exact Function.update_of_ne control _ _
    rw [same, frozen]
  · have stored : after.regs (uncorePciPerfCtl box) = value := by
      rw [written]
      exact Function.update_self _ _ _
    rw [stored, enables]
  · rw [counter, written]
    exact emptied.arrived

/-- Writing the status register leaves an emptied unit emptied. -/
theorem Emptied.status (emptied : Emptied box unit) {value : BitVec 32} :
    Emptied box (unit.exec box (.write (uncorePciBoxStatus box) value)).2 := by
  have keeps := fun addr (other : addr ≠ uncorePciBoxStatus box) =>
    (PmonUnit.exec_write_boxStatus counting value unit other).1
  have control : uncorePciBoxCtl box ≠ uncorePciBoxStatus box :=
    counting.wired.status_ne.symm
  have select : uncorePciPerfCtl box ≠ uncorePciBoxStatus box :=
    PmonLayout.select_ne_boxStatus counting.wired counting.select
  have low : uncorePciPerfCtr box ≠ uncorePciBoxStatus box :=
    PmonLayout.counter_ne_boxStatus counting.wired counting.low_mem
  have high : uncorePciPerfCtr box + 4 ≠ uncorePciBoxStatus box :=
    PmonLayout.counter_ne_boxStatus counting.wired counting.high_mem
  refine ⟨?_, ?_, ?_⟩
  · rw [PmonUnit.counting_congr (keeps _ control) (keeps _ select), emptied.still]
  · rw [counterValue_congr (keeps _ low) (keeps _ high), emptied.counter]
  · rw [(PmonUnit.exec_write_boxStatus counting value unit control).2, emptied.arrived]

/-- Clearing both dwords of a frozen unit turns what they held into what is due. -/
theorem Frozen.clear (frozen : Frozen box due unit) :
    let low := (unit.exec box (.write (uncorePciPerfCtr box) 0)).2
    let after := (low.exec box (.write (uncorePciPerfCtr box + 4) 0)).2
    (low.regs (uncorePciBoxCtl box)).getLsbD 8 = true ∧
      Frozen box (due + (counterValue box unit.regs).toNat) after ∧
      counterValue box after.regs = 0 := by
  intro low after
  have first : low = _ := PmonUnit.exec_write_counter counting counting.low_mem 0 unit
  have second : after = _ := PmonUnit.exec_write_counter counting counting.high_mem 0 low
  have elsewhere : ∀ addr ∉ (pciLayout box).counters, after.regs addr = unit.regs addr := by
    intro addr outside
    rw [counting.counters_eq, List.mem_cons, List.mem_singleton, not_or] at outside
    rw [second, first]
    exact (Function.update_of_ne outside.2 _ _).trans (Function.update_of_ne outside.1 _ _)
  have apart : uncorePciPerfCtr box ≠ uncorePciPerfCtr box + 4 := by simp
  have counter : counterValue box after.regs = 0 := by
    apply counterValue_zero
    · rw [second, first]
      exact (Function.update_of_ne apart _ _).trans (Function.update_self _ _ _)
    · rw [second]
      exact Function.update_self _ _ _
  refine ⟨?_, ⟨?_, ?_, ?_⟩, counter⟩
  · have other : uncorePciBoxCtl box ≠ uncorePciPerfCtr box :=
      (PmonLayout.counter_ne_boxCtl counting.wired counting.low_mem).symm
    rw [← frozen.frozen, first]
    exact congrArg (fun word : BitVec 32 => word.getLsbD 8)
      (Function.update_of_ne other _ unit.regs)
  · rw [← frozen.frozen]
    exact congrArg (·.getLsbD 8) (elsewhere _ counting.wired.control_not_counter)
  · rw [← frozen.selected]
    exact congrArg (·.getLsbD 22) (elsewhere _ counting.wired.select_not_counter)
  · rw [counter, second, first]
    exact frozen.balance

end Unit

/-! ## Accesses under events -/

section Accesses

variable {machine : Machine} {box : UncoreBox}

/-- The obligation of a program of the driver while events arrive. -/
abbrev UnderEvents (machine : Machine) {α : Type} (post : α → World → Prop) :
    UncoreProgram α → World → Prop :=
  Guarded machine.device Arrives (fun _ _ => True) post

/-- An assertion about one box's unit and about the globals. -/
def Here (box : UncoreBox) (owes : PmonUnit → Prop) (known : Globals → Prop)
    (world : World) : Prop :=
  owes (world.units box) ∧ known world.globals

/-- No event falsifies what the unit owes. -/
def Undisturbed (box : UncoreBox) (owes : PmonUnit → Prop) : Prop :=
  ∀ unit, unit.window + 1 < 2 ^ 48 → owes unit → owes (unit.arrive box)

theorem Undisturbed.stable {owes : PmonUnit → Prop} (undisturbed : Undisturbed box owes)
    (known : Globals → Prop) : Stable Arrives (Here box owes known) := by
  rintro _ _ ⟨other, world, room⟩ ⟨owed, fact⟩
  refine ⟨?_, fact⟩
  by_cases same : other = box
  · subst same
    simpa using undisturbed _ room owed
  · simpa [Function.update_of_ne (Ne.symm same)] using owed

theorem undisturbed_running (counting : CountingBox box) (due : Nat) :
    Undisturbed box (Running box due) :=
  fun _ room running => running.arrive counting room

/-- A unit that does not count is a constant. -/
theorem undisturbed_still {owes : PmonUnit → Prop}
    (still : ∀ unit, owes unit → unit.counting box = false) : Undisturbed box owes := by
  intro unit _ owed
  rw [PmonUnit.arrive_of_not_counting (still unit owed)]
  exact owed

theorem undisturbed_frozen {owes : PmonUnit → Prop}
    (frozen : ∀ unit, owes unit → (unit.regs (uncorePciBoxCtl box)).getLsbD 8 = true) :
    Undisturbed box owes :=
  undisturbed_still fun unit owed => counting_of_frozen (frozen unit owed)

variable {α : Type} {post : α → World → Prop} {owes later : PmonUnit → Prop}
  {known : Globals → Prop}

/-- One access to the box. -/
theorem underEvents_pci {op : RegOp 32} {next : op.Res → UncoreProgram α} {world : World}
    (undisturbed : Undisturbed box owes) (here : Here box owes known world)
    (step : ∀ unit, owes unit → ∀ world,
      Here box (· = (unit.exec box op).2) known world →
        UnderEvents machine post (next (unit.exec box op).1) world) :
    UnderEvents machine post (.access (.pci box op) next) world :=
  .access (Here box owes known) (undisturbed.stable known) here fun _ held _ =>
    ⟨trivial, step _ held.1 _ ⟨Function.update_self _ _ _, held.2⟩⟩

/-- One access that leaves the units alone. -/
theorem underEvents_other {op : UncoreOp} {follow : op.Res → UncoreProgram α}
    {world : World} (nowKnown : Globals → Prop)
    (apart : ∀ world, (machine.exec op world).2.units = world.units)
    (learns : ∀ world, known world.globals → nowKnown (machine.exec op world).2.globals)
    (undisturbed : Undisturbed box owes) (here : Here box owes known world)
    (step : ∀ answer later, Here box owes nowKnown later →
      UnderEvents machine post (follow answer) later) :
    UnderEvents machine post ((access op).bind follow) world := by
  refine .access (Here box owes known) (undisturbed.stable known) here fun world held _ =>
    ⟨trivial, step _ _ ⟨?_, learns world held.2⟩⟩
  rw [show (machine.device.exec op world).2.units = world.units from apart world]
  exact held.1

/-- A read-modify-write of the control register: freezing or unfreezing. -/
theorem underEvents_control (update : BitVec 32 → BitVec 32)
    {program : RegProgram 32 Unit} (counting : CountingBox box)
    (rmw : program = .access (.read (uncorePciBoxCtl box)) fun answer =>
      if answer.1 = 0
        then .access (.write (uncorePciBoxCtl box) (update answer.2)) fun _ => .ret ()
        else .ret ())
    (before : Undisturbed box owes) (after : Undisturbed box later)
    (step : ∀ unit, owes unit → ∀ config : BitVec 32, config.getLsbD 0 = false →
      config.getLsbD 1 = false →
        later (unit.exec box (.write (uncorePciBoxCtl box) (update config))).2)
    {world : World} (here : Here box owes known world) :
    UnderEvents machine (fun _ => Here box later known) (onBox box program) world := by
  rw [rmw]
  refine underEvents_pci before here fun unit owed _ held => ?_
  obtain ⟨first, second⟩ := PmonLayout.getLsbD_read_boxCtl counting.wired unit.regs
  show UnderEvents machine _ (onBox box (if (0 : Int) = 0
    then .access (.write (uncorePciBoxCtl box) (update _)) fun _ => .ret ()
    else .ret ())) _
  rw [if_pos rfl]
  refine underEvents_pci before ⟨by rw [held.1]; exact owed, held.2⟩ fun unit owed world held => ?_
  refine .ret (after.stable known) ⟨?_, held.2⟩
  rw [held.1]
  exact step unit owed _ first second

/-- Freezing, as `uncore_disable_box` does it. -/
theorem underEvents_disableBox (counting : CountingBox box)
    (before : Undisturbed box owes) (after : Undisturbed box later)
    (step : ∀ unit, owes unit → ∀ config : BitVec 32, config.getLsbD 0 = false →
      config.getLsbD 1 = false → later
        (unit.exec box (.write (uncorePciBoxCtl box) (config ||| hswepPciBoxCtlFrz))).2)
    {world : World} (here : Here box owes known world) :
    UnderEvents machine (fun _ => Here box later known)
      (onBox box (uncoreDisableBox hswepUncorePciBoxOps box)) world :=
  underEvents_control (· ||| hswepPciBoxCtlFrz) counting rfl before after step here

/-- Resuming a frozen box whose counter is clear, as `uncore_enable_box` does it. -/
theorem underEvents_enableBox (counting : CountingBox box) {due : Nat} {world : World}
    (here : Here box (fun unit => Frozen box due unit ∧ counterValue box unit.regs = 0)
      known world) :
    UnderEvents machine (fun _ => Here box (Running box due) known)
      (onBox box (uncoreEnableBox hswepUncorePciBoxOps box)) world := by
  refine underEvents_control (· &&& ~~~hswepPciBoxCtlFrz) counting rfl
    (undisturbed_frozen fun _ owed => owed.1.frozen) (undisturbed_running counting due) ?_
    here
  intro unit owed config first second
  exact owed.1.resume counting first second owed.2

/-- Resetting, as `uncore_init_box` does it. -/
theorem underEvents_initBox (counting : CountingBox box) {world : World}
    (here : Here box (fun _ => True) known world) :
    UnderEvents machine (fun _ => Here box (Emptied box) known)
      (onBox box (uncoreInitBox hswepUncorePciBoxOps box)) world := by
  have empty : Undisturbed box (Emptied box) := undisturbed_still fun _ owed => owed.still
  refine underEvents_pci (fun _ _ _ => trivial) here fun unit _ later held => ?_
  obtain ⟨still, counter, arrived⟩ := PmonUnit.exec_reset counting unit
  have emptied : Here box (Emptied box) known later :=
    ⟨by rw [held.1]; exact ⟨still, counter, arrived⟩, held.2⟩
  refine underEvents_pci empty emptied fun unit owed later held => ?_
  refine .ret (empty.stable known) ⟨?_, held.2⟩
  rw [held.1]
  exact owed.status counting

/-- Selecting the event of a frozen, emptied box. -/
theorem underEvents_enableEvent (counting : CountingBox box) {event : UncoreEvent}
    (enables : (event.enable.setWidth 32).getLsbD 22 = true) {world : World}
    (here : Here box (fun unit => (unit.regs (uncorePciBoxCtl box)).getLsbD 8 = true ∧
      Emptied box unit) known world) :
    UnderEvents machine
      (fun _ => Here box
        (fun unit => Frozen box 0 unit ∧ counterValue box unit.regs = 0) known)
      (onBox box (uncoreEnableEvent hswepUncorePciBoxOps box event)) world := by
  refine underEvents_pci (undisturbed_frozen fun _ owed => owed.1) here
    fun unit owed later held => ?_
  refine .ret ((undisturbed_frozen fun _ owed => owed.1.frozen).stable known) ⟨?_, held.2⟩
  rw [held.1]
  exact owed.2.select counting owed.1 enables

/-- The two halves of the counter of a frozen box are one value. -/
theorem readCounter_value (counting : CountingBox box) (regs : RegFile 32) :
    ((((regs (uncorePciPerfCtr box + 4)).setWidth 64 <<< 32) |||
      (regs (uncorePciPerfCtr box)).setWidth 64) &&& uncoreBoxCtrMask box).toNat =
      (counterValue box regs).toNat := by
  have mask : uncoreBoxCtrMask box = 0xffffffffffff#64 := by
    rw [uncoreBoxCtrMask, counting.bits]
    rfl
  rw [mask, halves_eq_append, and_mask_eq, ← counterValue, BitVec.toNat_setWidth]
  exact Nat.mod_eq_of_lt (Nat.lt_of_lt_of_le (counterValue box regs).isLt (by decide))

theorem underEvents_readCounter (counting : CountingBox box) {unit : PmonUnit}
    (frozen : (unit.regs (uncorePciBoxCtl box)).getLsbD 8 = true) {world : World}
    (here : Here box (· = unit) known world) :
    UnderEvents machine
      (fun counts world => counts.toNat = (counterValue box unit.regs).toNat ∧
        Here box (· = unit) known world)
      (onBox box (uncoreReadCounter hswepUncorePciBoxOps box 0)) world := by
  have still : Undisturbed box (· = unit) :=
    undisturbed_frozen fun _ same => by rw [same]; exact frozen
  have low : uncorePciPerfCtr box ≠ (pciLayout box).boxCtl :=
    PmonLayout.counter_ne_boxCtl counting.wired counting.low_mem
  have high : uncorePciPerfCtr box + 4 ≠ (pciLayout box).boxCtl :=
    PmonLayout.counter_ne_boxCtl counting.wired counting.high_mem
  refine underEvents_pci still here ?_
  rintro _ rfl world held
  refine underEvents_pci still held ?_
  rintro _ rfl world held
  refine .ret (fun _ _ moves both => ⟨both.1, still.stable known moves both.2⟩) ⟨?_, held⟩
  rw [PmonLayout.read_of_ne low, PmonLayout.read_of_ne high]
  exact readCounter_value counting _

theorem underEvents_clearCounter (counting : CountingBox box) {due : Nat}
    {unit : PmonUnit} (frozen : Frozen box due unit) {world : World}
    (here : Here box (· = unit) known world) :
    UnderEvents machine
      (fun _ => Here box
        (fun after => Frozen box (due + (counterValue box unit.regs).toNat) after ∧
          counterValue box after.regs = 0) known)
      (onBox box (uncoreWriteCounter hswepUncorePciBoxOps box 0)) world := by
  have zeros : onBox box (uncoreWriteCounter hswepUncorePciBoxOps box 0) =
      .access (.pci box (.write (uncorePciPerfCtr box) 0)) fun _ =>
        .access (.pci box (.write (uncorePciPerfCtr box + 4) 0)) fun _ => .ret () := by
    have high : ((0 &&& uncoreBoxCtrMask box) >>> 32).setWidth 32 = 0#32 := by simp
    show Program.access (UncoreOp.pci box (.write (uncorePciPerfCtr box) _)) (fun _ =>
      Program.access (UncoreOp.pci box (.write (uncorePciPerfCtr box + 4) _)) fun _ =>
        .ret ()) = _
    rw [high]
    rfl
  obtain ⟨halfway, cleared, empty⟩ := frozen.clear counting
  rw [zeros]
  refine underEvents_pci (undisturbed_frozen fun _ same => by rw [same]; exact frozen.frozen)
    here ?_
  rintro _ rfl world held
  refine underEvents_pci (undisturbed_frozen fun _ same => by rw [same]; exact halfway)
    held ?_
  rintro _ rfl world held
  refine .ret ((undisturbed_frozen fun _ owed => owed.1.frozen).stable known)
    ⟨?_, held.2⟩
  rw [held.1]
  exact ⟨cleared, empty⟩

end Accesses

/-! ## The tick -/

section Tick

variable {machine : Machine} {box : UncoreBox}

/-- A call on another processor leaves the boxes alone, whether it succeeds or not. -/
theorem underEvents_emulateNvmFunc {owes : PmonUnit → Prop} {known : Globals → Prop}
    (undisturbed : Undisturbed box owes) {cpu : Nat} {delayNs : BitVec 64} {world : World}
    (here : Here box owes known world) :
    UnderEvents machine (fun _ => Here box owes known)
      (smpCallFunctionSingle cpu (emulateNvmFunc delayNs)) world := by
  refine underEvents_other known (fun _ => rfl) (fun _ fact => fact) undisturbed here ?_
  intro err later held
  by_cases called : err = 0
  · rw [if_pos called]
    exact underEvents_other known (fun _ => rfl) (fun _ fact => fact) undisturbed held
      fun _ _ kept => .ret (undisturbed.stable known) kept
  · rw [if_neg called]
    exact .ret (undisturbed.stable known) held

/-- A tick charges exactly what the counter held when the box was frozen. -/
theorem tick_underEvents (counting : CountingBox box) {due : Nat} {world : World}
    (running : Running box due (world.units box)) :
    UnderEvents machine
      (fun _ later => Running box (due + later.globals.procCounts.toNat) (later.units box))
      (emulateNvmHrtimer box) world := by
  have any : Here box (Running box due) (fun _ => True) world := ⟨running, trivial⟩
  have frozen : Undisturbed box (Frozen box due) :=
    undisturbed_frozen fun _ owed => owed.frozen
  refine Guarded.bind (underEvents_disableBox counting (undisturbed_running counting due)
    frozen (fun _ owed _ first second => owed.freeze counting first second) any) ?_
  rintro _ world ⟨owed, -⟩
  -- From here to the unfreezing write the unit is a constant.
  have still : Undisturbed box (· = world.units box) :=
    undisturbed_frozen fun _ same => by rw [same]; exact owed.frozen
  have fixed : Here box (· = world.units box) (fun _ => True) world := ⟨rfl, trivial⟩
  refine Guarded.bind (underEvents_readCounter counting owed.frozen fixed) ?_
  rintro counts later ⟨value, held⟩
  refine underEvents_other (fun state => state.procCounts = counts) (fun _ => rfl)
    (fun _ _ => rfl) still held ?_
  intro _ later held
  refine underEvents_other _ (fun _ => rfl) (fun _ fact => fact) still held ?_
  intro state later held
  refine Guarded.bind (underEvents_emulateNvmFunc still held) ?_
  intro _ later held
  refine Guarded.bind (underEvents_clearCounter counting owed held) ?_
  intro _ later held
  refine Guarded.bind (underEvents_enableBox counting held) ?_
  intro _ later held
  have resumed := undisturbed_running counting (due + counts.toNat)
  rw [← value] at held
  refine underEvents_other (fun state => state.procCounts = counts) (fun _ => rfl)
    (fun _ fact => fact) resumed held ?_
  intro _ later held
  have done : UnderEvents machine
      (fun _ => Here box (Running box (due + counts.toNat))
        (fun state => state.procCounts = counts))
      (.ret HrtimerRestart.restart) later := .ret (resumed.stable _) held
  refine done.mono ?_
  rintro _ after ⟨owed, same⟩
  rw [same]
  exact owed

end Tick

/-! ## Starting to count -/

/-- A box that discovery listed is a home-agent box. -/
theorem countingBox_of_first {machine : Machine} {nodeid : Nat} {box : UncoreBox}
    (first : uncoreGetFirstBox machine.haBoxes nodeid = some box) : CountingBox box := by
  refine countingBox_of_ha (machine.haBoxes_type box ?_)
  rw [uncoreGetFirstBox] at first
  split at first
  · exact absurd first (by simp)
  · exact List.mem_of_find?_eq_some first

/-- Whatever the box did before, it counts from 0 once it is polled. -/
theorem startPolling_underEvents {machine : Machine} {box : UncoreBox}
    (counting : CountingBox box) {known : Globals → Prop}
    (event : ∀ state, known state →
      known { state with event := some haRequestsRemoteReads })
    (started : ∀ state, known state → known { state with latencyStarted := true })
    {world : World} (here : Here box (fun _ => True) known world) :
    UnderEvents machine (fun _ => Here box (Running box 0) known) (startPolling box)
      world := by
  have free : Undisturbed box fun _ => True := fun _ _ _ => trivial
  have running := undisturbed_running counting 0
  let halted : PmonUnit → Prop := fun unit =>
    (unit.regs (uncorePciBoxCtl box)).getLsbD 8 = true ∧ Emptied box unit
  have still : Undisturbed box halted := undisturbed_frozen fun _ owed => owed.1
  refine underEvents_other known (fun _ => rfl) (fun _ => event _) free here ?_
  intro _ later held
  refine underEvents_other known (fun _ => rfl) (fun _ fact => fact) free held ?_
  intro _ later held
  refine Guarded.bind (underEvents_initBox counting held) ?_
  intro _ later held
  refine Guarded.bind (underEvents_disableBox counting
    (undisturbed_still fun _ owed => owed.still) still
    (fun _ owed _ first second => owed.freeze counting first second) held) ?_
  intro _ later held
  refine Guarded.bind (underEvents_enableEvent counting (by decide) held) ?_
  intro _ later held
  refine Guarded.bind (underEvents_enableBox counting held) ?_
  intro _ later held
  refine underEvents_other known (fun _ => rfl) (fun _ fact => fact) running held ?_
  intro _ later held
  refine underEvents_other known (fun _ => rfl) (fun _ fact => fact) running held ?_
  intro state later held
  refine underEvents_other known (fun _ => rfl) (fun _ fact => fact) running held ?_
  intro _ later held
  refine underEvents_other known (fun _ => rfl) (fun _ fact => fact) running held ?_
  intro _ later held
  exact underEvents_other known (fun _ => rfl) (fun _ => started _) running held
    fun _ _ held => .ret (running.stable known) held

/-- A successful `start_emulate_latency` leaves its box counting from 0. -/
theorem start_underEvents (machine : Machine) (world : World) :
    UnderEvents machine
      (fun ret later => ret = 0 → ∃ box, later.globals.haBox1 = some box ∧
        CountingBox box ∧ Running box 0 (later.units box))
      (startEmulateLatency machine) world := by
  have fails : ∀ later : World, UnderEvents machine
      (fun ret later => ret = 0 → ∃ box, later.globals.haBox1 = some box ∧
        CountingBox box ∧ Running box 0 (later.units box)) (.ret (-enxio)) later :=
    fun _ _ _ zero => absurd zero (by decide)
  unfold startEmulateLatency
  cases uncoreGetFirstBox machine.haBoxes 0 with
  | none => exact fun _ _ _ => ⟨trivial, fails _⟩
  | some other =>
    cases second : uncoreGetFirstBox machine.haBoxes 1 with
    | none => exact fun _ _ _ => ⟨trivial, fails _⟩
    | some box =>
      have counting := countingBox_of_first second
      let found : Globals → Prop := fun state => state.haBox1 = some box
      have start : Here box (fun _ => True) (fun _ => True) world := ⟨trivial, trivial⟩
      refine underEvents_other found (fun _ => rfl) (fun _ _ => rfl) (fun _ _ _ => trivial)
        start ?_
      intro _ later held
      refine Guarded.bind (startPolling_underEvents counting (fun _ fact => fact)
        (fun _ fact => fact) held) ?_
      intro _ later held
      have done : UnderEvents machine (fun _ => Here box (Running box 0) found)
        (.ret (0 : Int)) later := .ret ((undisturbed_running counting 0).stable _) held
      exact done.mono fun _ _ owed _ => ⟨box, owed.2, counting, owed.1⟩

/-! ## The account of all runs -/

/-- The ticks keep the balance: one more tick charges what the counter held. -/
theorem Ticks.running {machine : Machine} {box : UncoreBox} (counting : CountingBox box)
    {before after : World} {counts : List (BitVec 64)}
    (ticks : Ticks machine box before counts after)
    (start : Running box 0 (before.units box)) :
    Running box (counts.map BitVec.toNat).sum (after.units box) := by
  induction ticks with
  | none moves =>
      have stable := (undisturbed_running counting 0).stable fun _ => True
      exact (stable.star moves ⟨start, trivial⟩).1
  | tick earlier completes ih =>
      have charged := (tick_underEvents counting ih).completes
        (fun _ _ moves => moves) completes
      simpa using charged

/-- After a successful `start_emulate_latency`, any number of ticks and any events at
any of their accesses: the counts read by the completed ticks and the counter's
present value add up to the events that arrived while the box was counting. -/
theorem latency_ledger (machine : Machine) {before started after : World}
    {counts : List (BitVec 64)} {box : UncoreBox}
    (starts : Completes machine.device Arrives (startEmulateLatency machine) before 0 started)
    (chosen : started.globals.haBox1 = some box)
    (ticks : Ticks machine box started counts after) :
    (counts.map BitVec.toNat).sum + (counterValue box (after.units box).regs).toNat =
      (after.units box).arrived := by
  obtain ⟨other, found, counting, running⟩ := (start_underEvents machine before).completes
    (fun _ _ moves => moves) starts rfl
  obtain rfl : other = box := by
    rw [chosen] at found
    exact (Option.some.inj found).symm
  exact (ticks.running counting running).balance.symm

/-! ### One tick on two sockets -/

/-- A home-agent box of a socket. -/
def haBox (nodeid : Nat) : UncoreBox := ⟨0, nodeid, hswepUncoreHa, none⟩

/-- Two sockets with a home agent each; every fallible call succeeds. -/
def twoAgents : Machine where
  haBoxes := [haBox 0, haBox 1]
  haBoxes_type := by decide
  imcDevices := ⟨[], List.nodup_nil⟩
  onlineNodes := [0, 1]
  nrCpuIds := 8
  nrNodeIds := 2
  cpuToNode cpu := cpu / 4
  smpProcessorId := 6
  answer _ _ := 0

/-- The sockets before the module is loaded. -/
def quietWorld : World where
  units _ := { regs := fun _ => 0 }
  imc _ _ := 0
  globalPmu _ _ := 0
  online cpu := decide (cpu < 8)

/-- The world a program of the driver leaves when it runs alone. -/
def ranAlone {α : Type} (program : UncoreProgram α) (world : World) : World :=
  (program.run twoAgents.exec world).2

/-- One read arrives at the home agent of the second socket. -/
def oneRead (world : World) : World :=
  { world with
    units := Function.update world.units (haBox 1) ((world.units (haBox 1)).arrive (haBox 1)) }

/-- Start, two reads, a tick, one more read: the tick has read two, and one is in the counter. -/
theorem latency_ledger_oneTick :
    let started := ranAlone (startEmulateLatency twoAgents) quietWorld
    let ticked := ranAlone (emulateNvmHrtimer (haBox 1)) (oneRead (oneRead started))
    let after := oneRead ticked
    after.globals.procCounts.toNat +
          (counterValue (haBox 1) (after.units (haBox 1)).regs).toNat =
        (after.units (haBox 1)).arrived ∧
      after.globals.procCounts = 2 ∧ counterValue (haBox 1) (after.units (haBox 1)).regs = 1 := by
  intro started ticked after
  have readyStart : (startEmulateLatency twoAgents).Makes
      fun op => ∀ state, twoAgents.device.ready op state :=
    makes_startEmulateLatency (fun _ _ _ => trivial) (fun _ => trivial)
      (fun _ _ _ => trivial) (fun _ _ => trivial) (fun _ _ _ => trivial)
      (fun _ _ => trivial) (fun _ => trivial)
  have readyTick : (emulateNvmHrtimer (haBox 1)).Makes
      fun op => ∀ state, twoAgents.device.ready op state :=
    makes_emulateNvmHrtimer (fun _ _ => trivial) (fun _ => trivial) (fun _ _ => trivial)
      (fun _ => trivial) (fun _ _ => trivial) (fun _ _ _ => trivial)
  have tick : Completes twoAgents.device Arrives (emulateNvmHrtimer (haBox 1))
      (oneRead (oneRead started)) .restart after :=
    (reaches_run readyTick _).tail (.environment (.event (haBox 1) ticked (by decide +kernel)))
  have ticks : Ticks twoAgents (haBox 1) started [after.globals.procCounts] after :=
    .tick (.none (.tail (.single (.event (haBox 1) started (by decide)))
      (.event (haBox 1) (oneRead started) (by decide)))) tick
  have ledger := latency_ledger twoAgents (reaches_run readyStart quietWorld) rfl ticks
  rw [List.map_singleton, List.sum_singleton] at ledger
  exact ⟨ledger, by decide +kernel, by decide +kernel⟩

end NvmEmulator.Emulate
