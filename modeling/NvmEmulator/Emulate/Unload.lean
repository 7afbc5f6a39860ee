/-
# Back to DRAM

`uncore_exit` disables the throttle with one read-modify-write for each DIMM register,
while `/proc/uncore_pmu` is still there and without the mutex of its writers. A write
sets the ratio with a read-modify-write of the same registers, and puts back the
enable bit it has read: if the throttle is disabled in between, it is enabled again.

A write never changes an enable bit otherwise. So the bits are clear in the end when no
register is disabled while a write holds a set bit of it.
-/

import NvmEmulator.Emulate.Finish
import NvmEmulator.Emulate.Ratio

namespace NvmEmulator.Emulate

open Relation NvmEmulator.Kernel NvmEmulator.Semantics NvmEmulator.Uncore

/-! ## The system -/

/-- `uncore_proc_remove`: the module was loaded, so the file is registered. -/
def uncoreProcRemove : UncoreProgram Unit := access .procRemove

/-- `uncore_exit`. What it frees in the end is not in any register. -/
def uncoreExit (machine : Machine) : UncoreProgram Unit := do
  finishEmulateNvm machine
  uncoreClearGlobalPmu machine uncorePmu
  uncoreProcRemove

/-- `uncore_exit` begins, and nobody writes. -/
def exitThreads (machine : Machine) : Option Nat → UncoreProgram Unit
  | none => uncoreExit machine
  | some _ => .ret ()

/-- The module is about to be unloaded. -/
def exiting (machine : Machine) (world : World) : RatioPool := ⟨exitThreads machine, world⟩

/-- The enable bit of a DIMM register. -/
def World.thrtPerEn (world : World) (word : DimmWord) : Bool :=
  (world.imc word.1 word.2).getLsbD 15

/-- When the exiting task writes a register, no writer is about to write a set enable bit
back to it. -/
def Unstale (pool : RatioPool) : Option Nat → UncoreOp → Prop
  | none, .imc pdev (.write addr _) => ∀ task value next,
      pool.threads (some task) = .access (.imc pdev (.write addr value)) next →
        value.getLsbD 15 = false
  | _, _ => True

/-- The throttle is disabled at every DIMM register of every online controller. -/
def Unthrottled (machine : Machine) (world : World) : Prop :=
  ∀ imc ∈ machine.imcDevices.list, imc.nodeid ∈ machine.onlineNodes →
    ∀ addr ∈ dimmOffsets, world.thrtPerEn (imc.pdev, addr) = false

variable {machine : Machine}

/-! ## Writes put back the bit they read -/

/-- A program all of whose writes to controllers come right after a read of the same
register and put back its enable bit. `held` is what was read last. -/
def PutsBack {α : Type} (held : Option (DimmWord × Bool)) : UncoreProgram α → Prop
  | .ret _ => True
  | .access (.imc pdev (.read addr)) next =>
      ∀ answer, PutsBack (some ((pdev, addr), answer.2.getLsbD 15)) (next answer)
  | .access (.imc pdev (.write addr value)) next =>
      held = some ((pdev, addr), value.getLsbD 15) ∧ ∀ answer, PutsBack none (next answer)
  | .access _ next => ∀ answer, PutsBack none (next answer)

/-- A program that starts with no read behind it may follow any read. -/
theorem PutsBack.weaken {α : Type} {program : UncoreProgram α}
    (putsBack : PutsBack none program) (held : Option (DimmWord × Bool)) :
    PutsBack held program := by
  cases program with
  | ret value => trivial
  | access op next =>
    cases op with
    | imc pdev reg =>
      cases reg with
      | read addr => exact putsBack
      | write addr value => exact absurd putsBack.1 (Option.some_ne_none _).symm
    | _ => exact putsBack

/-- What was read last matters to a write only. -/
theorem PutsBack.drop {α : Type} {program : UncoreProgram α} {held : Option (DimmWord × Bool)}
    (putsBack : PutsBack held program)
    (reads : ∀ pdev addr value next, program ≠ .access (.imc pdev (.write addr value)) next) :
    PutsBack none program := by
  cases program with
  | ret value => trivial
  | access op next =>
    cases op with
    | imc pdev reg =>
      cases reg with
      | read addr => exact putsBack
      | write addr value => exact absurd rfl (reads pdev addr value next)
    | _ => exact putsBack

theorem PutsBack.bind {α β : Type} {program : UncoreProgram α} {follow : α → UncoreProgram β}
    {held : Option (DimmWord × Bool)} (first : PutsBack held program)
    (later : ∀ value, PutsBack none (follow value)) : PutsBack held (program.bind follow) := by
  induction program generalizing held with
  | ret value => exact (later value).weaken held
  | access op next ih =>
    cases op with
    | imc pdev reg =>
      cases reg with
      | read addr => exact fun answer => ih answer (first answer)
      | write addr value => exact ⟨first.1, fun answer => ih answer (first.2 answer)⟩
    | _ => exact fun answer => ih answer (first answer)

theorem putsBack_closed :
    Program.Closed fun α (program : UncoreProgram α) => PutsBack none program where
  ret _ := trivial
  bind first later := first.bind later

/-- The value `hswep_imc_set_threshold` writes has the enable bit that was read. -/
theorem setThreshold_enable (config : BitVec 16) (ratio : Nat) :
    ((config &&& (1#16 <<< 15)) ||| thrtPwr ratio).getLsbD 15 = config.getLsbD 15 := by
  have field : (thrtPwr ratio).getLsbD 15 = false := by
    unfold thrtPwr
    split <;> decide
  have enable : (1#16 <<< 15 : BitVec 16).getLsbD 15 = true := by decide
  rw [BitVec.getLsbD_or, BitVec.getLsbD_and, field, enable, Bool.and_true, Bool.or_false]

/-- The value `hswep_imc_disable_throttle` writes has it clear. -/
theorem disableThrottle_enable (config : BitVec 16) :
    (config &&& ~~~(1#16 <<< 15)).getLsbD 15 = false := by
  have mask : (~~~(1#16 <<< 15) : BitVec 16).getLsbD 15 = false := by decide
  rw [BitVec.getLsbD_and, mask, Bool.and_false]

theorem setThreshold_putsBack (pdev : PciDev) (ratio : Nat) :
    PutsBack none (uncoreImcOps.setThreshold pdev ratio) := by
  show PutsBack none (Program.hoist (onImc pdev)
    ((forDimms fun config => (config &&& (1#16 <<< 15)) ||| thrtPwr ratio).bind
      fun _ => .ret 0))
  rw [Program.hoist_bind, forDimms, Program.hoist_forEach]
  refine PutsBack.bind (putsBack_closed.forEach fun i _ => ?_) fun _ => trivial
  intro answer
  have same := setThreshold_enable answer.2 ratio
  refine ⟨?_, fun _ => trivial⟩
  rw [same]

/-- A write to `/proc/uncore_pmu` puts back every enable bit. -/
theorem writeTask_putsBack (task : Nat) (request : ProcWrite) :
    PutsBack none (writeTask machine task request) := by
  have sets : ∀ nodeid ratio, PutsBack none
      (uncoreImcSetThreshold uncoreImcOps machine.imcDevices.list nodeid ratio) :=
    fun _ _ => closed_uncoreImcSetThreshold putsBack_closed fun pdev =>
      setThreshold_putsBack pdev _
  have switches : ∀ ctl count, PutsBack none (switchBandwidth machine ctl count) := by
    intro ctl count
    rw [switchBandwidth]
    split
    · refine PutsBack.bind (fun _ => ?_) fun _ => trivial
      exact (sets 0 _).bind fun _ => (sets 1 _).bind fun _ => trivial
    · trivial
  apply PutsBack.bind
  · rw [uncoreProcWrite]
    split
    · trivial
    · split
      · trivial
      · exact fun _ => (switches _ _).bind fun _ _ => trivial
  · exact fun _ => trivial

/-- An access that does not start or stop the emulation. -/
def KeepsStarted (machine : Machine) (op : UncoreOp) : Prop :=
  ∀ world, (machine.exec op world).2.globals.emulationStarted = world.globals.emulationStarted

theorem writeTask_keepsStarted (task : Nat) (request : ProcWrite) :
    (writeTask machine task request).Makes (KeepsStarted machine) := by
  have closed : Program.Closed fun α (program : UncoreProgram α) =>
      program.Makes (KeepsStarted machine) := Program.Makes.closed _
  have sets : ∀ nodeid ratio, (uncoreImcSetThreshold uncoreImcOps machine.imcDevices.list
      nodeid ratio).Makes (KeepsStarted machine) :=
    fun _ _ => closed_uncoreImcSetThreshold closed fun _ =>
      makes_hoist_onImc (fun _ _ => rfl) _
  have switches : ∀ ctl count,
      (switchBandwidth machine ctl count).Makes (KeepsStarted machine) := by
    intro ctl count
    rw [switchBandwidth]
    split
    · refine Program.Makes.bind ⟨fun _ => rfl, fun _ => ?_⟩ fun _ => trivial
      exact (sets 0 _).bind fun _ => (sets 1 _).bind fun _ => trivial
    · trivial
  refine Program.Makes.bind ?_ fun _ => trivial
  rw [uncoreProcWrite]
  split
  · trivial
  · split
    · trivial
    · refine ⟨fun _ => rfl, fun _ => (switches _ _).bind fun _ => ?_⟩
      exact ⟨fun _ => rfl, fun _ => trivial⟩

/-! ## Writers in a world -/

/-- A writer in a world: what it holds of an enable bit is what the bit is. -/
structure Writer (machine : Machine) (program : UncoreProgram Unit) (world : World) : Prop where
  keeps : program.Makes (KeepsStarted machine)
  faithful : ∃ held, PutsBack held program ∧
    ∀ word bit, held = some (word, bit) → bit = world.thrtPerEn word

/-- No enable bit changes, nor whether the emulation is started. -/
structure SameBits (before after : World) : Prop where
  bits : ∀ word, after.thrtPerEn word = before.thrtPerEn word
  started : after.globals.emulationStarted = before.globals.emulationStarted

/-- A write to a controller sets the enable bit of its word. -/
theorem thrtPerEn_write (machine : Machine) (pdev : PciDev) (addr : BitVec 32)
    (value : BitVec 16) (world : World) (word : DimmWord) :
    (machine.device.exec (.imc pdev (.write addr value)) world).2.thrtPerEn word =
      if word = (pdev, addr) then value.getLsbD 15 else world.thrtPerEn word := by
  rcases word with ⟨device, place⟩
  show (Function.update world.imc pdev (Function.update (world.imc pdev) addr value) device
    place).getLsbD 15 = _
  by_cases same : device = pdev
  · subst same
    rw [Function.update_self]
    by_cases here : place = addr
    · subst here
      simp
    · simp [here, World.thrtPerEn]
  · rw [Function.update_of_ne same]
    simp [same, World.thrtPerEn]

/-- Nothing but a write to a controller changes enable bits. -/
theorem thrtPerEn_of_not_write {op : UncoreOp}
    (other : ∀ pdev addr value, op ≠ .imc pdev (.write addr value)) (world : World)
    (word : DimmWord) :
    (machine.device.exec op world).2.thrtPerEn word = world.thrtPerEn word := by
  cases op with
  | imc pdev reg =>
    cases reg with
    | read addr => rw [exec_imc_read]
    | write addr value => exact absurd rfl (other pdev addr value)
  | _ => rfl

theorem Writer.of_sameBits {program : UncoreProgram Unit} {before after : World}
    (writer : Writer machine program before) (same : SameBits before after) :
    Writer machine program after := by
  obtain ⟨held, putsBack, faithful⟩ := writer.faithful
  refine ⟨writer.keeps, held, putsBack, fun word bit equal => ?_⟩
  rw [same.bits]
  exact faithful word bit equal

/-- A writer's access changes no enable bit, and it remains a writer. -/
theorem Writer.step {op : UncoreOp} {next : op.Res → UncoreProgram Unit} {world : World}
    (writer : Writer machine (.access op next) world) :
    SameBits world (machine.device.exec op world).2 ∧
      Writer machine (next (machine.device.exec op world).1) (machine.device.exec op world).2 := by
  obtain ⟨held, putsBack, faithful⟩ := writer.faithful
  have keeps := writer.keeps.2 (machine.device.exec op world).1
  have started := writer.keeps.1 world
  have nothing : ∀ word bit, (none : Option (DimmWord × Bool)) = some (word, bit) →
      bit = (machine.device.exec op world).2.thrtPerEn word :=
    fun _ _ impossible => absurd impossible (Option.some_ne_none _).symm
  cases op with
  | imc pdev reg =>
    cases reg with
    | read addr =>
        have bits : ∀ word,
            (machine.device.exec (.imc pdev (.read addr)) world).2.thrtPerEn word =
              world.thrtPerEn word :=
          thrtPerEn_of_not_write (fun _ _ _ => by simp) world
        refine ⟨⟨bits, started⟩, keeps, _, putsBack _, fun word bit equal => ?_⟩
        obtain ⟨rfl, rfl⟩ := Prod.mk.inj (Option.some.inj equal)
        rw [bits]
        rfl
    | write addr value =>
        have current : value.getLsbD 15 = world.thrtPerEn (pdev, addr) :=
          faithful _ _ putsBack.1
        have bits : ∀ word,
            (machine.device.exec (.imc pdev (.write addr value)) world).2.thrtPerEn word =
              world.thrtPerEn word := by
          intro word
          rw [thrtPerEn_write]
          by_cases here : word = (pdev, addr)
          · rw [if_pos here, here, current]
          · rw [if_neg here]
        exact ⟨⟨bits, started⟩, keeps, none, putsBack.2 _, nothing⟩
  | _ => exact ⟨⟨fun _ => rfl, started⟩, keeps, none, putsBack _, nothing⟩

/-! ## The exiting task -/

/-- What a step of the exiting task does to enable bits: nothing, or it clears one. -/
def Clears (before after : World) : Prop :=
  ∀ word, after.thrtPerEn word = before.thrtPerEn word ∨ after.thrtPerEn word = false

/-- The obligation of the exiting task, which relies on the writers to change no bit. -/
abbrev ExitMeets (machine : Machine) {α : Type} (post : α → World → Prop) :
    UncoreProgram α → World → Prop :=
  Guarded machine.device SameBits Clears post

/-- The enable bits of the covered registers are clear. -/
def DisabledOn (covered : Set DimmWord) (world : World) : Prop :=
  ∀ word ∈ covered, world.thrtPerEn word = false

theorem disabledOn_stable (covered : Set DimmWord) : Stable SameBits (DisabledOn covered) := by
  intro before after same disabled word mem
  rw [same.bits]
  exact disabled word mem

section Exit

variable {covered : Set DimmWord} {world : World}

/-- An access that leaves the controllers alone. -/
def NotImc (machine : Machine) (op : UncoreOp) : Prop :=
  ∀ world, (machine.exec op world).2.imc = world.imc

/-- Programs that leave the controllers alone keep what is disabled. -/
theorem notImc_meets {α : Type} {program : UncoreProgram α}
    (makes : program.Makes (NotImc machine)) (disabled : DisabledOn covered world) :
    ExitMeets machine (fun _ => DisabledOn covered) program world := by
  apply Guarded.of_makes makes (disabledOn_stable covered) _ disabled
  intro op apart world disabled _
  have bits : ∀ word, (machine.device.exec op world).2.thrtPerEn word = world.thrtPerEn word :=
    fun word => congrArg (fun imc : ImcBank => (imc word.1 word.2).getLsbD 15) (apart world)
  refine ⟨fun word => Or.inl (bits word), fun word mem => ?_⟩
  rw [bits]
  exact disabled word mem

/-- The read-modify-write of one DIMM register. -/
theorem disableDimm_meets (pdev : PciDev) (i : Nat) (covered : Set DimmWord) (world : World)
    (disabled : DisabledOn covered world) :
    ExitMeets machine (fun _ => DisabledOn (covered ∪ {(pdev, dimmOffset i)}))
      (.access (.imc pdev (.read (dimmOffset i))) fun answer =>
        .access (.imc pdev (.write (dimmOffset i) (answer.2 &&& ~~~(1#16 <<< 15)))) fun _ =>
          .ret ()) world := by
  apply Guarded.access _ (disabledOn_stable covered) disabled
  intro world disabled _
  rw [show (machine.device.exec (.imc pdev (.read (dimmOffset i))) world).2 = world from
    exec_imc_read machine pdev (dimmOffset i) world]
  refine ⟨fun _ => Or.inl rfl, Guarded.access _ (disabledOn_stable covered) disabled ?_⟩
  intro later disabled _
  have clear := disableThrottle_enable (world.imc pdev (dimmOffset i))
  have bits := thrtPerEn_write machine pdev (dimmOffset i)
    (world.imc pdev (dimmOffset i) &&& ~~~(1#16 <<< 15)) later
  refine ⟨fun word => ?_, .ret (disabledOn_stable _) fun word mem => ?_⟩
  · refine (bits word).symm ▸ ?_
    by_cases here : word = (pdev, dimmOffset i)
    · rw [if_pos here]
      exact Or.inr clear
    · rw [if_neg here]
      exact Or.inl rfl
  · refine (bits word).symm ▸ ?_
    by_cases here : word = (pdev, dimmOffset i)
    · rw [if_pos here]
      exact clear
    · rw [if_neg here]
      exact disabled word (mem.resolve_right here)

/-- `hswep_imc_disable_throttle` -/
theorem disableDevice_meets (pdev : PciDev) (covered : Set DimmWord) (world : World)
    (disabled : DisabledOn covered world) :
    ExitMeets machine (fun _ => DisabledOn (covered ∪ deviceWords pdev))
      (uncoreImcOps.disableThrottle pdev) world := by
  show ExitMeets machine _ (Program.hoist (onImc pdev)
    (forDimms fun config => config &&& ~~~(1#16 <<< 15))) world
  rw [forDimms, Program.hoist_forEach]
  exact Guarded.forEach_covers disabledOn_stable (disableDimm_meets pdev) disabled

/-- The registers that a call on a node reaches: none on a node the code does not take. -/
def takenWords (machine : Machine) (nodeid : Nat) : Set DimmWord :=
  { word | word ∈ nodeWords machine nodeid ∧ nodeid ≤ uncoreMaxSocket }

/-- `uncore_imc_disable_throttle` -/
theorem disableNode_meets (nodeid : Nat) (covered : Set DimmWord) (world : World)
    (disabled : DisabledOn covered world) :
    ExitMeets machine (fun _ => DisabledOn (covered ∪ takenWords machine nodeid))
      (uncoreImcDisableThrottle uncoreImcOps machine.imcDevices.list nodeid) world := by
  by_cases bound : nodeid ≤ uncoreMaxSocket
  · rw [uncoreImcDisableThrottle_eq uncoreImcOps bound]
    have all : ExitMeets machine (fun _ => DisabledOn (covered ∪ nodeWords machine nodeid))
        (Program.forEach uncoreImcOps.disableThrottle (devicesOn machine.imcDevices.list nodeid))
        world := Guarded.forEach_covers disabledOn_stable disableDevice_meets disabled
    refine all.mono fun _ _ disabled word mem => disabled word ?_
    exact mem.imp id fun taken => taken.1
  · rw [uncoreImcDisableThrottle, if_pos (Nat.not_le.mp bound)]
    refine .ret (disabledOn_stable _) fun word mem => ?_
    exact disabled word (mem.resolve_right fun taken => bound taken.2)

/-- `finish_emulate_bandwidth` -/
theorem finishEmulateBandwidth_meets (mapped : Mapped machine) (world : World) :
    ExitMeets machine (fun _ => DisabledOn (onlineWords machine))
      (finishEmulateBandwidth machine) world := by
  have nothing : DisabledOn ∅ world := fun word mem => absurd mem (Set.notMem_empty word)
  have all : ExitMeets machine
      (fun _ => DisabledOn (∅ ∪ regionOf (takenWords machine) machine.onlineNodes))
      (finishEmulateBandwidth machine) world :=
    Guarded.forEach_covers disabledOn_stable disableNode_meets nothing
  refine all.mono fun _ _ disabled word mem => disabled word (Or.inr ?_)
  obtain ⟨imc, listed, online, device, dimm⟩ := mem_onlineWords.mp mem
  refine ⟨imc.nodeid, online, ?_, mapped imc listed online⟩
  exact mem_nodeWords.mpr ⟨imc, listed, rfl, device, dimm⟩

theorem unthrottled_of_disabledOn (disabled : DisabledOn (onlineWords machine) world) :
    Unthrottled machine world :=
  fun imc listed online _ dimm =>
    disabled _ (mem_onlineWords.mpr ⟨imc, listed, online, rfl, dimm⟩)

/-- `uncore_exit`, beside writers. -/
theorem uncoreExit_meets (mapped : Mapped machine)
    (started : world.globals.emulationStarted = true) :
    ExitMeets machine (fun _ => DisabledOn (onlineWords machine)) (uncoreExit machine) world := by
  let running : World → Prop := fun world => world.globals.emulationStarted = true
  have stable : Stable SameBits running := fun _ _ same holds => same.started.trans holds
  have anything : ∀ world, DisabledOn ∅ world :=
    fun _ word mem => absurd mem (Set.notMem_empty word)
  have finishes : ExitMeets machine (fun _ => DisabledOn (onlineWords machine))
      (finishEmulateNvm machine) world := by
    apply Guarded.access running stable started
    intro world started _
    refine ⟨fun _ => Or.inl rfl, ?_⟩
    show ExitMeets machine _ (if world.globals.emulationStarted = true then _ else _) world
    rw [if_pos started]
    apply Guarded.bind (notImc_meets (makes_emulateNvmProcRemove (fun _ => rfl) fun _ => rfl)
      (anything world))
    intro _ world _
    apply Guarded.bind (notImc_meets (makes_restorePlatformConfiguration (fun _ => rfl)
      (fun _ _ _ => rfl) fun _ _ => rfl) (anything world))
    intro _ world _
    apply Guarded.bind (finishEmulateBandwidth_meets mapped world)
    intro _ world disabled
    apply Guarded.bind (notImc_meets (makes_finishEmulateLatency (fun _ _ _ => rfl)
      (fun _ => rfl) (fun _ _ => rfl) (fun _ _ _ => rfl) (fun _ _ => rfl) (fun _ _ _ => rfl)
      fun _ => rfl) disabled)
    intro _ world disabled
    exact notImc_meets (makes_access fun _ => rfl) disabled
  apply Guarded.bind finishes
  intro _ world disabled
  apply Guarded.bind (notImc_meets (makes_uncoreClearGlobalPmu (fun _ _ _ => rfl)
    (fun _ _ => rfl) fun _ _ _ => rfl) disabled)
  intro _ world disabled
  exact notImc_meets (makes_access fun _ => rfl) disabled

end Exit

/-! ## Whole runs -/

/-- The pool while the module is unloaded. -/
structure Leaving (machine : Machine) (pool : RatioPool) : Prop where
  writers : ∀ task, Writer machine (pool.threads (some task)) pool.state
  exit : ExitMeets machine (fun _ => DisabledOn (onlineWords machine)) (pool.threads none)
    pool.state

theorem Elsewhere.sameBits {before after : World} (elsewhere : Elsewhere before after) :
    SameBits before after :=
  ⟨fun word => congrArg (fun imc : ImcBank => (imc word.1 word.2).getLsbD 15) elsewhere.imc,
    elsewhere.started⟩

/-- The step that clears an enable bit is a write to its register. -/
theorem writes_of_cleared {op : UncoreOp} {world : World} {word : DimmWord}
    (set : world.thrtPerEn word = true)
    (clear : (machine.device.exec op world).2.thrtPerEn word = false) :
    ∃ value, op = .imc word.1 (.write word.2 value) := by
  by_contra other
  have kept : (machine.device.exec op world).2.thrtPerEn word = world.thrtPerEn word := by
    by_cases write : ∃ pdev addr value, op = .imc pdev (.write addr value)
    · obtain ⟨pdev, addr, value, rfl⟩ := write
      rw [thrtPerEn_write, if_neg]
      rintro rfl
      exact other ⟨value, rfl⟩
    · exact thrtPerEn_of_not_write (fun pdev addr value same =>
        write ⟨pdev, addr, value, same⟩) world word
  rw [set, clear] at kept
  exact absurd kept (by decide)

/-- A writer outlives a step of the exiting task at which no stale bit is about to be put
back. -/
theorem Writer.cleared {pool : RatioPool} {task : Nat} {op : UncoreOp}
    (writer : Writer machine (pool.threads (some task)) pool.state)
    (unstale : Unstale pool none op)
    (clears : Clears pool.state (machine.device.exec op pool.state).2) :
    Writer machine (pool.threads (some task)) (machine.device.exec op pool.state).2 := by
  obtain ⟨held, putsBack, faithful⟩ := writer.faithful
  refine ⟨writer.keeps, ?_⟩
  by_cases same : ∀ word bit, held = some (word, bit) →
      bit = (machine.device.exec op pool.state).2.thrtPerEn word
  · exact ⟨held, putsBack, same⟩
  · -- The bit that is held was set, and this step clears it: the writer is not at its write.
    push Not at same
    obtain ⟨word, bit, holds, differs⟩ := same
    have current := faithful word bit holds
    have clear : (machine.device.exec op pool.state).2.thrtPerEn word = false :=
      (clears word).resolve_left fun kept => differs (current.trans kept.symm)
    have set : bit = true := by
      rw [clear] at differs
      exact Bool.eq_true_of_not_eq_false differs
    obtain ⟨value, rfl⟩ := writes_of_cleared (current.symm.trans set) clear
    refine ⟨none, putsBack.drop ?_, fun _ _ impossible =>
      absurd impossible (Option.some_ne_none _).symm⟩
    intro pdev addr old next writes
    rw [writes] at putsBack
    obtain ⟨rfl, rfl⟩ := Prod.mk.inj (Option.some.inj (holds.symm.trans putsBack.1))
    have stale := unstale task old next writes
    rw [set] at stale
    exact absurd stale (by decide)

theorem Leaving.step {before after : RatioPool} (leaving : Leaving machine before)
    (step : Pool.StepWhen machine.device Elsewhere (Writes machine fun _ _ => True) Unstale
      before after) : Leaving machine after := by
  cases step with
  | environment moves =>
      exact ⟨fun task => (leaving.writers task).of_sameBits moves.sameBits,
        leaving.exit.of_rely (.single moves.sameBits)⟩
  | @access thread op next here ready meets =>
      cases thread with
      | none =>
          have obligation := leaving.exit
          rw [here] at obligation
          obtain ⟨clears, rest⟩ := obligation _ .refl ready
          refine ⟨fun task => ?_, ?_⟩
          · dsimp only
            rw [Function.update_of_ne (Option.some_ne_none task)]
            exact (leaving.writers task).cleared meets clears
          · dsimp only
            rw [Function.update_self]
            exact rest
      | some task =>
          have writer := leaving.writers task
          rw [here] at writer
          obtain ⟨same, rest⟩ := writer.step
          refine ⟨fun other => ?_, ?_⟩
          · dsimp only
            by_cases this : other = task
            · subst this
              rw [Function.update_self]
              exact rest
            · rw [Function.update_of_ne fun equal => this (Option.some.inj equal)]
              exact (leaving.writers other).of_sameBits same
          · dsimp only
            rw [Function.update_of_ne (Option.some_ne_none task).symm]
            exact leaving.exit.of_rely (.single same)
  | launch launches =>
      cases launches with
      | @write task request idle permitted =>
          refine ⟨fun other => ?_, ?_⟩
          · dsimp only
            by_cases this : other = task
            · subst this
              rw [Function.update_self]
              exact ⟨writeTask_keepsStarted _ _, none, writeTask_putsBack _ _,
                fun _ _ impossible => absurd impossible (Option.some_ne_none _).symm⟩
            · rw [Function.update_of_ne fun equal => this (Option.some.inj equal)]
              exact leaving.writers other
          · dsimp only
            rw [Function.update_of_ne (Option.some_ne_none task).symm]
            exact leaving.exit

theorem Leaving.reaches {before after : RatioPool} (leaving : Leaving machine before)
    (run : Pool.ReachesWhen machine.device Elsewhere (Writes machine fun _ _ => True) Unstale
      before after) : Leaving machine after := by
  induction run with
  | refl => exact leaving
  | tail _ step ih => exact ih.step step

/-- After a started emulation, whatever is written to `/proc/uncore_pmu` before and while
the module is unloaded: if no register is disabled while a write is about to put a set
enable bit back to it, then every register of every online controller is unthrottled when
`uncore_exit` has returned. -/
theorem unthrottled_of_reaches (machine : Machine) (mapped : Mapped machine) {world : World}
    (started : world.globals.emulationStarted = true) {pool : RatioPool}
    (run : Pool.ReachesWhen machine.device Elsewhere (Writes machine fun _ _ => True) Unstale
      (exiting machine world) pool)
    (returned : pool.threads none = .ret ()) : Unthrottled machine pool.state := by
  have begins : Leaving machine (exiting machine world) := by
    refine ⟨fun task => ⟨trivial, none, trivial, fun _ _ impossible => ?_⟩,
      uncoreExit_meets mapped started⟩
    exact absurd impossible (Option.some_ne_none _).symm
  have left := (begins.reaches run).exit
  rw [returned] at left
  exact unthrottled_of_disabledOn (left _ .refl)

/-! ### Two sockets -/

/-- The emulation has started on two sockets with a controller each. -/
def channelsWorld : World := ((startEmulateNvm twoChannels).run twoChannels.exec quietWorld).2

theorem channelsWorld_idle (box : UncoreBox) : (channelsWorld.timers box).running = false := by
  have unstarted : Unstarted quietWorld := ⟨rfl, fun _ _ => rfl⟩
  have starts : Completes twoChannels.device Arrives (startEmulateNvm twoChannels) quietWorld ()
      channelsWorld := reaches_run (startEmulateNvm_ready twoChannels) quietWorld
  have polled : channelsWorld.globals.haBox1 = some (haBox 1) := by decide +kernel
  exact idle_of_started unstarted starts (by decide +kernel) polled (by decide +kernel) box

theorem twoChannels_mapped : Mapped twoChannels := by
  intro imc
  revert imc
  decide

/-- The world in which `uncore_exit` removes the file, when nothing else runs. -/
def disabledWorld (machine : Machine) (world : World) : World :=
  ((uncoreClearGlobalPmu machine uncorePmu).run machine.exec
    ((finishEmulateNvm machine).run machine.exec world).2).2

/-- While no callback runs, `uncore_exit` gets to where it removes the file. -/
theorem uncoreExit_reaches {env : World → World → Prop} {world : World}
    (idle : ∀ box, (world.timers box).running = false) :
    Reaches machine.device env (uncoreExit machine, world)
      (uncoreProcRemove, disabledWorld machine world) := by
  have clears : Completes machine.device env (uncoreClearGlobalPmu machine uncorePmu)
      ((finishEmulateNvm machine).run machine.exec world).2 () (disabledWorld machine world) :=
    reaches_run (makes_uncoreClearGlobalPmu (fun _ _ _ => trivial) (fun _ _ => trivial)
      fun _ _ _ => trivial) _
  exact (finishEmulateNvm_alone idle).followed (clears.followed .refl)

theorem uncoreProcRemove_completes {env : World → World → Prop} (world : World) :
    Completes machine.device env uncoreProcRemove world () world :=
  .single (.access trivial)

/-- `echo 2 > /proc/uncore_pmu`, once it has the mutex. -/
def lockedWrite : UncoreProgram Unit :=
  ((switchBandwidth twoChannels 0x32 2).bind fun count =>
    .access .mutexUnlock fun _ => .ret count).bind fun _ => .ret ()

theorem writeTwo_eq :
    writeTask twoChannels 0 writeTwo = .access (.mutexLock 0) fun _ => lockedWrite := rfl

theorem lockedWrite_ready :
    lockedWrite.Makes fun op => ∀ state, twoChannels.device.ready op state := by
  have closed : Program.Closed fun α (program : UncoreProgram α) =>
      program.Makes fun op => ∀ state, twoChannels.device.ready op state :=
    Program.Makes.closed _
  have sets : ∀ nodeid, (uncoreImcSetThreshold uncoreImcOps twoChannels.imcDevices.list nodeid
      2).Makes fun op => ∀ state, twoChannels.device.ready op state :=
    fun _ => closed_uncoreImcSetThreshold closed fun _ =>
      makes_hoist_onImc (fun _ _ => trivial) _
  have switches : (switchBandwidth twoChannels 0x32 2).Makes
      fun op => ∀ state, twoChannels.device.ready op state :=
    ⟨fun _ => trivial, fun _ => Program.Makes.bind
      ((sets 0).bind fun _ => (sets 1).bind fun _ => trivial) fun _ => trivial⟩
  have unlocks : ∀ count : Int, (Program.access UncoreOp.mutexUnlock fun _ =>
      (.ret count : UncoreProgram Int)).Makes
        fun op => ∀ state, twoChannels.device.ready op state :=
    fun _ => ⟨fun _ => trivial, fun _ => trivial⟩
  exact (switches.bind unlocks).bind fun _ => trivial

/-- It has the mutex and has made that many accesses: it sets `bw_ratio`, reads the first
register and writes it, reads the second one and so on. -/
def partWritten (accesses : Nat) : UncoreProgram Unit × World :=
  lockedWrite.advance twoChannels.exec accesses
    (twoChannels.exec (.mutexLock 0) channelsWorld).2

/-- It goes on when every register has been disabled. -/
def resumedWorld (accesses : Nat) : World :=
  ((partWritten accesses).1.run twoChannels.exec
    (disabledWorld twoChannels (partWritten accesses).2)).2

theorem partWritten_reaches {env : World → World → Prop} (accesses : Nat) :
    Reaches twoChannels.device env (writeTask twoChannels 0 writeTwo, channelsWorld)
      (partWritten accesses) := by
  have free : channelsWorld.mutex = none := by decide +kernel
  rw [writeTwo_eq]
  exact ReflTransGen.head (.access free) (reaches_advance lockedWrite_ready accesses _)

theorem partWritten_resumes {env : World → World → Prop} (accesses : Nat) :
    Completes twoChannels.device env (partWritten accesses).1
      (disabledWorld twoChannels (partWritten accesses).2) () (resumedWorld accesses) :=
  reaches_run (lockedWrite_ready.advance accesses _) _

/-- The threads while the write is under way: the exiting task and what is left of it. -/
def racing (exit write : UncoreProgram Unit) : Option Nat → UncoreProgram Unit
  | none => exit
  | some 0 => write
  | some _ => .ret ()

theorem racing_write (exit write other : UncoreProgram Unit) :
    Function.update (racing exit write) (some 0) other = racing exit other := by
  funext thread
  rcases thread with _ | _ | task <;> rfl

theorem racing_exit (exit write other : UncoreProgram Unit) :
    Function.update (racing exit write) none other = racing other write := by
  funext thread
  rcases thread with _ | _ | task <;> rfl

theorem exitThreads_eq (machine : Machine) :
    exitThreads machine = racing (uncoreExit machine) (.ret ()) := by
  funext thread
  rcases thread with _ | _ | task <;> rfl

/-- The file is about to be removed: the write is over. -/
def removing (accesses : Nat) : RatioPool :=
  ⟨racing uncoreProcRemove (.ret ()), resumedWorld accesses⟩

/-- The file is removed. -/
def removed (accesses : Nat) : RatioPool := ⟨racing (.ret ()) (.ret ()), resumedWorld accesses⟩

/-- A write that is under way when the registers are disabled, and goes on afterwards. -/
theorem exiting_reaches_removing {env : World → World → Prop} {accesses : Nat}
    (idle : ∀ box, ((partWritten accesses).2.timers box).running = false) :
    Pool.Reaches twoChannels.device env (Writes twoChannels fun _ _ => True)
      (exiting twoChannels channelsWorld) (removing accesses) := by
  let waiting : RatioPool := ⟨racing (uncoreExit twoChannels) (.ret ()), channelsWorld⟩
  have noWrite : waiting.threads (some 0) = .ret () := rfl
  have launched : Pool.Step twoChannels.device env (Writes twoChannels fun _ _ => True) waiting _ :=
    .launch (.write writeTwo noWrite fun _ _ => trivial)
  rw [racing_write] at launched
  have half : Pool.Reaches twoChannels.device env (Writes twoChannels fun _ _ => True) _ _ :=
    Pool.reaches_of_thread
      ⟨racing (uncoreExit twoChannels) (writeTask twoChannels 0 writeTwo), channelsWorld⟩ (some 0)
      (partWritten_reaches accesses)
  rw [racing_write] at half
  have disabled : Pool.Reaches twoChannels.device env (Writes twoChannels fun _ _ => True) _ _ :=
    Pool.reaches_of_thread
      ⟨racing (uncoreExit twoChannels) (partWritten accesses).1, (partWritten accesses).2⟩ none
      (uncoreExit_reaches idle)
  rw [racing_exit] at disabled
  have resumed : Pool.Reaches twoChannels.device env (Writes twoChannels fun _ _ => True) _ _ :=
    Pool.reaches_of_thread ⟨racing uncoreProcRemove (partWritten accesses).1,
      disabledWorld twoChannels (partWritten accesses).2⟩ (some 0) (partWritten_resumes accesses)
  rw [racing_write] at resumed
  rw [exiting, exitThreads_eq]
  exact ReflTransGen.head launched (half.trans (disabled.trans resumed))

theorem removing_reaches_removed {env : World → World → Prop} (accesses : Nat) :
    Pool.Reaches twoChannels.device env (Writes twoChannels fun _ _ => True) (removing accesses)
      (removed accesses) := by
  have returns : Pool.Reaches twoChannels.device env (Writes twoChannels fun _ _ => True)
      (removing accesses) _ :=
    Pool.reaches_of_thread (removing accesses) none
      (uncoreProcRemove_completes (resumedWorld accesses))
  rw [removing, racing_exit] at returns
  exact returns

/-- The exiting task goes on while the write is not about to write a register. -/
theorem reachesWhen_exit {env : World → World → Prop} {exit after write : UncoreProgram Unit}
    {world final : World}
    (calm : ∀ pdev addr value next, write ≠ .access (.imc pdev (.write addr value)) next)
    (reaches : Reaches machine.device env (exit, world) (after, final)) :
    Pool.ReachesWhen machine.device env (Writes machine fun _ _ => True) Unstale
      ⟨racing exit write, world⟩ ⟨racing after write, final⟩ := by
  have meets : ∀ program state op,
      Unstale ⟨Function.update (racing exit write) none program, state⟩ none op := by
    intro program state op
    cases op with
    | imc pdev reg =>
      cases reg with
      | read addr => trivial
      | write addr value =>
          intro task old next writes
          rw [racing_exit] at writes
          cases task with
          | zero => exact absurd writes (calm pdev addr old next)
          | succ task => cases writes
    | _ => trivial
  have run : Pool.ReachesWhen machine.device env (Writes machine fun _ _ => True) Unstale
      ⟨Function.update (racing exit write) none exit, world⟩
      ⟨Function.update (racing exit write) none after, final⟩ :=
    Pool.reachesWhen_of_thread meets reaches
  rw [racing_exit, racing_exit] at run
  exact run

/-- The write goes on at any time. -/
theorem reachesWhen_write {env : World → World → Prop} {exit write after : UncoreProgram Unit}
    {world final : World} (reaches : Reaches machine.device env (write, world) (after, final)) :
    Pool.ReachesWhen machine.device env (Writes machine fun _ _ => True) Unstale
      ⟨racing exit write, world⟩ ⟨racing exit after, final⟩ := by
  have run : Pool.ReachesWhen machine.device env (Writes machine fun _ _ => True) Unstale
      ⟨Function.update (racing exit write) (some 0) write, world⟩
      ⟨Function.update (racing exit write) (some 0) after, final⟩ :=
    Pool.reachesWhen_of_thread (fun _ _ _ => trivial) reaches
  rw [racing_write, racing_write] at run
  exact run

/-- A write that is under way when the registers are disabled, but is not about to write one
of them. -/
theorem exiting_reachesWhen_removed {env : World → World → Prop} {accesses : Nat}
    (idle : ∀ box, ((partWritten accesses).2.timers box).running = false)
    (calm : ∀ pdev addr value next,
      (partWritten accesses).1 ≠ .access (.imc pdev (.write addr value)) next) :
    Pool.ReachesWhen twoChannels.device env (Writes twoChannels fun _ _ => True) Unstale
      (exiting twoChannels channelsWorld) (removed accesses) := by
  let waiting : RatioPool := ⟨racing (uncoreExit twoChannels) (.ret ()), channelsWorld⟩
  have noWrite : waiting.threads (some 0) = .ret () := rfl
  have launched : Pool.StepWhen twoChannels.device env (Writes twoChannels fun _ _ => True)
      Unstale waiting _ := .launch (.write writeTwo noWrite fun _ _ => trivial)
  rw [racing_write] at launched
  rw [exiting, exitThreads_eq]
  refine ReflTransGen.head launched ?_
  refine ReflTransGen.trans (reachesWhen_write (partWritten_reaches accesses)) ?_
  refine ReflTransGen.trans (reachesWhen_exit calm (uncoreExit_reaches idle)) ?_
  refine ReflTransGen.trans (reachesWhen_write (partWritten_resumes accesses)) ?_
  exact reachesWhen_exit (fun _ _ _ _ same => by cases same)
    (uncoreProcRemove_completes (resumedWorld accesses))

/-- A write that has written the first register of a controller when `uncore_exit` clears
every enable bit, and goes on with the second one afterwards: both have its limit in the end,
and memory is not throttled. -/
theorem unthrottled_twoChannels :
    Unthrottled twoChannels (removed 3).state ∧
      (removed 3).state.thrtPwrField (⟨0x8086, 0x2FB4, 0x7f, 0⟩, dimmOffset 0) = thrtPwr 2 ∧
      (removed 3).state.thrtPwrField (⟨0x8086, 0x2FB4, 0x7f, 0⟩, dimmOffset 1) = thrtPwr 2 := by
  have started : channelsWorld.globals.emulationStarted = true := by decide +kernel
  have calm : ∀ pdev addr value next,
      (partWritten 3).1 ≠ .access (.imc pdev (.write addr value)) next := by
    intro pdev addr value next same
    have reads : (match (partWritten 3).1 with
        | .access (.imc _ (.write _ _)) _ => true
        | _ => false) = false := by decide +kernel
    rw [same] at reads
    cases reads
  have run : Pool.ReachesWhen twoChannels.device Elsewhere (Writes twoChannels fun _ _ => True)
      Unstale (exiting twoChannels channelsWorld) (removed 3) :=
    exiting_reachesWhen_removed channelsWorld_idle calm
  exact ⟨unthrottled_of_reaches twoChannels twoChannels_mapped started run rfl,
    by decide +kernel, by decide +kernel⟩

/-- A write that has read the first register of a controller puts its enable bit back after
`uncore_exit` has cleared it: when the write is over the file is removed and `uncore_exit`
returns, and memory stays throttled. -/
theorem not_unthrottled_twoChannels :
    Mapped twoChannels ∧ channelsWorld.globals.emulationStarted = true ∧
      Pool.Reaches twoChannels.device Elsewhere (Writes twoChannels fun _ _ => True)
        (exiting twoChannels channelsWorld) (removing 2) ∧
      ((removing 2).threads none = uncoreProcRemove ∧
        ∀ task, (removing 2).threads (some task) = .ret ()) ∧
      Pool.Reaches twoChannels.device Elsewhere (Writes twoChannels fun _ _ => True)
        (removing 2) (removed 2) ∧
      (removed 2).threads none = .ret () ∧ ¬ Unthrottled twoChannels (removed 2).state := by
  have idle : ∀ box, ((partWritten 2).2.timers box).running = false := channelsWorld_idle
  have idleTasks : ∀ task, (removing 2).threads (some task) = .ret () := by
    intro task
    cases task <;> rfl
  refine ⟨twoChannels_mapped, by decide +kernel, exiting_reaches_removing idle, ⟨rfl, idleTasks⟩,
    removing_reaches_removed 2, rfl, fun unthrottled => ?_⟩
  have enabled : (resumedWorld 2).thrtPerEn (⟨0x8086, 0x2FB4, 0x7f, 0⟩, dimmOffset 0) = true := by
    decide +kernel
  have clear : (resumedWorld 2).thrtPerEn (⟨0x8086, 0x2FB4, 0x7f, 0⟩, dimmOffset 0) = false :=
    unthrottled ⟨0, ⟨0x8086, 0x2FB4, 0x7f, 0⟩⟩ List.mem_cons_self (by decide) (dimmOffset 0)
      (by decide)
  rw [enabled] at clear
  exact absurd clear (by decide)

end NvmEmulator.Emulate
