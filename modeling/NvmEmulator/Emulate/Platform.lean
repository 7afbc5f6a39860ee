/-
# Preparing and restoring the platform

`prepare_platform_configuration` takes down all CPUs of the emulated node but one
and all CPUs of the polling node but one; `restore_platform_configuration` is its
counterpart. Each of their four loops drives the CPUs of a region online or
offline. Composing the four regions says which CPUs are online at the end, and so
when the second function undoes the first.

The restoring loop for the emulated node walks the CPUs *outside* the node's
mask. That brings up every CPU that can be brought up, wherever it is and whether
or not it was online before.
-/

import NvmEmulator.Emulate.Accesses
import NvmEmulator.Semantics.Footprint

namespace NvmEmulator.Emulate

open NvmEmulator.Kernel NvmEmulator.Semantics NvmEmulator.Uncore

/-- Exactly the eligible CPUs can be taken down and brought up. -/
structure Hotplug (machine : Machine) (eligible : Nat → Prop) : Prop where
  down : ∀ calls cpu, machine.answer calls (.cpuDown cpu) = 0 ↔ eligible cpu
  up : ∀ calls cpu, machine.answer calls (.cpuUp cpu) = 0 ↔ eligible cpu

/-- `prepare_platform_configuration` and then `restore_platform_configuration`,
nothing in between. -/
def preparedAndRestored (machine : Machine) (world : World) : World :=
  let prepared := (preparePlatformConfiguration machine).run machine.exec world
  ((restorePlatformConfiguration machine).run machine.exec prepared.2).2

section Loops

variable {machine : Machine} {eligible : Nat → Prop}

/-- The CPUs that exist and satisfy a condition. -/
def cpusWith (machine : Machine) (condition : Nat → Prop) : Set Nat :=
  { cpu | cpu < machine.nrCpuIds ∧ condition cpu }

theorem regionOf_cpus (condition : Nat → Prop) :
    regionOf (fun cpu => { other | other = cpu ∧ condition cpu })
      (List.range machine.nrCpuIds) = cpusWith machine condition := by
  ext cpu
  simp [regionOf, cpusWith]

/-- Whether a CPU is online, as a component of the world. -/
def cpuOnline (cpu : Nat) (world : World) : Bool := world.online cpu

/-- A loop over the machine's CPUs drives the CPUs its rounds drive. -/
theorem drives_cpus {good : Bool → Prop} {condition : Nat → Prop}
    {body : Nat → UncoreProgram Unit}
    (each : ∀ cpu world, Drives cpuOnline good { other | other = cpu ∧ condition cpu } world
      ((body cpu).run machine.exec world).2) (world : World) :
    Drives cpuOnline good (cpusWith machine condition) world
      ((Program.forEach body (List.range machine.nrCpuIds)).run machine.exec world).2 := by
  rw [← regionOf_cpus]
  exact drives_forEach (fun cpu _ world => each cpu world) world

/-- A round that sets one CPU, unless it has the value already, drives that CPU. -/
theorem drives_cpu {cpu : Nat} {value : Bool} {acts condition : Prop} [Decidable acts]
    {before after : World}
    (round : after.online = if acts then Function.update before.online cpu value
      else before.online)
    (only : acts → condition) (idle : condition → ¬ acts → before.online cpu = value) :
    Drives cpuOnline (· = value) { other | other = cpu ∧ condition } before after := by
  constructor
  · rintro other ⟨rfl, holds⟩
    rw [cpuOnline, round]
    by_cases act : acts
    · rw [if_pos act, Function.update_self]
    · rw [if_neg act, idle holds act]
  · intro other apart
    rw [cpuOnline, cpuOnline, round]
    by_cases act : acts
    · rw [if_pos act, Function.update_of_ne fun same => apart ⟨same, only act⟩]
    · rw [if_neg act]

/-- One round of a loop of `prepare`. -/
theorem online_cpuDown (node keep cpu : Nat) (world : World) :
    (Program.run machine.exec (do
        let set ← access (.cpumaskOfNode node cpu)
        if set then cpuDownExcept keep cpu else pure ()) world).2.online =
      if world.online cpu ∧ machine.cpuToNode cpu = node ∧ cpu ≠ keep ∧
          machine.answer world.calls (.cpuDown cpu) = 0
        then Function.update world.online cpu false else world.online := by
  by_cases set : world.online cpu ∧ machine.cpuToNode cpu = node
  · by_cases kept : cpu = keep <;>
      by_cases answer : machine.answer world.calls (.cpuDown cpu) = 0 <;>
        simp [access, Program.lift, Machine.exec, cpuDownExcept, KernelCall.onlineAfter,
          KernelCall.reply, set, kept, answer]
  · have unset : (world.online cpu && machine.cpuToNode cpu == node) = false := by
      simpa using set
    rw [if_neg fun acts => set ⟨acts.1, acts.2.1⟩]
    simp [access, Program.lift, Machine.exec, unset]

/-- One round of the loop of `restore` over the CPUs outside a mask. -/
theorem online_cpuUp_not (node keep cpu : Nat) (world : World) :
    (Program.run machine.exec (do
        let set ← access (.cpumaskOfNode node cpu)
        if set then pure () else cpuUpExcept keep cpu) world).2.online =
      if world.online cpu = false ∧ cpu ≠ keep ∧
          machine.answer world.calls (.cpuUp cpu) = 0
        then Function.update world.online cpu true else world.online := by
  cases online : world.online cpu with
  | true =>
      -- Already online: in the mask it is skipped, outside it `cpu_up` fails.
      by_cases here : machine.cpuToNode cpu = node <;> by_cases kept : cpu = keep <;>
        simp [access, Program.lift, Machine.exec, cpuUpExcept, KernelCall.onlineAfter,
          KernelCall.reply, online, here, kept, einval]
  | false =>
      by_cases kept : cpu = keep <;>
        by_cases answer : machine.answer world.calls (.cpuUp cpu) = 0 <;>
          simp [access, Program.lift, Machine.exec, cpuUpExcept, KernelCall.onlineAfter,
            KernelCall.reply, online, kept, answer]

/-- One round of the loop of `restore` over a mask: the CPU is online already. -/
theorem online_cpuUp (node keep cpu : Nat) (world : World) :
    (Program.run machine.exec (do
        let set ← access (.cpumaskOfNode node cpu)
        if set then cpuUpExcept keep cpu else pure ()) world).2.online = world.online := by
  by_cases set : world.online cpu ∧ machine.cpuToNode cpu = node
  · by_cases kept : cpu = keep <;>
      simp [access, Program.lift, Machine.exec, cpuUpExcept, KernelCall.onlineAfter,
        KernelCall.reply, set, kept, einval]
  · have unset : (world.online cpu && machine.cpuToNode cpu == node) = false := by
      simpa using set
    simp [access, Program.lift, Machine.exec, unset]

/-! ## The four regions -/

variable (hotplug : Hotplug machine eligible)
include hotplug

/-- The loop of `prepare` over a node takes down its eligible CPUs but the kept one. -/
theorem drives_cpuDown (node keep : Nat) (world : World) :
    Drives cpuOnline (· = false)
      (cpusWith machine fun cpu => machine.cpuToNode cpu = node ∧ cpu ≠ keep ∧ eligible cpu)
      world ((forEachCpu machine node (cpuDownExcept keep)).run machine.exec world).2 := by
  refine drives_cpus (fun cpu world => drives_cpu (online_cpuDown node keep cpu world) ?_ ?_)
    world
  · rintro ⟨-, here, other, answer⟩
    exact ⟨here, other, (hotplug.down _ cpu).mp answer⟩
  · rintro ⟨here, other, can⟩ idle
    by_contra online
    exact idle ⟨by simpa using online, here, other, (hotplug.down _ cpu).mpr can⟩

/-- The first loop of `restore` brings up every eligible CPU but the kept one,
whatever its node. -/
theorem drives_cpuUp_not (node keep : Nat) (world : World) :
    Drives cpuOnline (· = true) (cpusWith machine fun cpu => cpu ≠ keep ∧ eligible cpu)
      world ((forEachCpuNot machine node (cpuUpExcept keep)).run machine.exec world).2 := by
  refine drives_cpus (fun cpu world => drives_cpu (online_cpuUp_not node keep cpu world) ?_ ?_)
    world
  · rintro ⟨-, other, answer⟩
    exact ⟨other, (hotplug.up _ cpu).mp answer⟩
  · rintro ⟨other, can⟩ idle
    by_contra offline
    exact idle ⟨by simpa using offline, other, (hotplug.up _ cpu).mpr can⟩

omit hotplug in
/-- The second loop of `restore` changes nothing. -/
theorem online_cpuUp_loop (node keep : Nat) (world : World) :
    ((forEachCpu machine node (cpuUpExcept keep)).run machine.exec world).2.online =
      world.online := by
  have keeps : ∀ cpu ∈ List.range machine.nrCpuIds, ∀ later : World,
      (fun later => later.online = world.online) later →
        (fun later => later.online = world.online) (Program.run machine.exec (do
          let set ← access (.cpumaskOfNode node cpu)
          if set then cpuUpExcept keep cpu else pure ()) later).2 :=
    fun cpu _ later same => (online_cpuUp node keep cpu later).trans same
  exact Program.run_forEach_induction machine.exec keeps rfl

omit hotplug in
/-- The loops of `prepare` leave the globals alone. -/
theorem globals_cpuDown_loop (node keep : Nat) (world : World) :
    ((forEachCpu machine node (cpuDownExcept keep)).run machine.exec world).2.globals =
      world.globals := by
  have makes : (forEachCpu machine node (cpuDownExcept keep)).Makes fun op =>
      ∀ later, (machine.exec op later).2.globals = later.globals := by
    exact makes_forEachCpu (fun _ _ => rfl) fun cpu => makes_cpuDownExcept fun _ _ => rfl
  have keeps := fun op (keep : ∀ later, (machine.exec op later).2.globals = later.globals)
    (later : World) (same : (fun later : World => later.globals = world.globals) later) =>
      (keep later).trans same
  exact makes.run keeps rfl

/-! ## Restoring -/

/-- CPUs `prepare` takes down if they are online. -/
def takenDown (machine : Machine) (eligible : Nat → Prop) (state : Globals) : Set Nat :=
  cpusWith machine
      (fun cpu => machine.cpuToNode cpu = state.emulateNvmNode ∧
        cpu ≠ state.emulateNvmCpu ∧ eligible cpu) ∪
    cpusWith machine
      (fun cpu => machine.cpuToNode cpu = state.pollingNode ∧
        cpu ≠ state.pollingCpu ∧ eligible cpu)

/-- A successful `prepare` takes down its two regions and keeps the globals. -/
theorem prepare_drives {world : World}
    (success : ((preparePlatformConfiguration machine).run machine.exec world).1 = 0) :
    let prepared := ((preparePlatformConfiguration machine).run machine.exec world).2
    Drives cpuOnline (· = false) (takenDown machine eligible world.globals) world prepared ∧
      prepared.globals = world.globals := by
  intro prepared
  have here : machine.smpProcessorId = world.globals.pollingCpu := by
    by_contra elsewhere
    simp [preparePlatformConfiguration, globals, access, Program.lift, Machine.exec,
      elsewhere] at success
  have ends : prepared =
      (Program.run machine.exec
        (forEachCpu machine world.globals.pollingNode (cpuDownExcept world.globals.pollingCpu))
        (Program.run machine.exec (forEachCpu machine world.globals.emulateNvmNode
          (cpuDownExcept world.globals.emulateNvmCpu)) world).2).2 := by
    simp [prepared, preparePlatformConfiguration, globals, access, Program.lift,
      Machine.exec, here]
  rw [ends]
  exact ⟨(drives_cpuDown hotplug _ _ world).trans (drives_cpuDown hotplug _ _ _),
    (globals_cpuDown_loop _ _ _).trans (globals_cpuDown_loop _ _ _)⟩

/-- `restore` brings up every eligible CPU but the emulating one. -/
theorem restore_drives (world : World) :
    Drives cpuOnline (· = true)
      (cpusWith machine fun cpu => cpu ≠ world.globals.emulateNvmCpu ∧ eligible cpu) world
      ((restorePlatformConfiguration machine).run machine.exec world).2 := by
  have up := drives_cpuUp_not hotplug world.globals.emulateNvmNode
    world.globals.emulateNvmCpu world
  have ends : ((restorePlatformConfiguration machine).run machine.exec world).2.online =
      (Program.run machine.exec (forEachCpuNot machine world.globals.emulateNvmNode
        (cpuUpExcept world.globals.emulateNvmCpu)) world).2.online := by
    simp [restorePlatformConfiguration, globals, access, Program.lift, Machine.exec,
      online_cpuUp_loop]
  refine ⟨fun cpu mem => ?_, fun cpu apart => ?_⟩
  · exact (congrFun ends cpu).trans (up.reaches cpu mem)
  · exact (congrFun ends cpu).trans (up.frame cpu apart)

/-- A successful `prepare_platform_configuration` followed by
`restore_platform_configuration` leaves the initial CPUs online exactly when every
eligible CPU but the emulating one was online, and the emulating one was not among
those the loop over the polling node takes down. -/
theorem preparedAndRestored_iff (world : World)
    (success : ((preparePlatformConfiguration machine).run machine.exec world).1 = 0) :
    (preparedAndRestored machine world).online = world.online ↔
      (∀ cpu < machine.nrCpuIds, cpu ≠ world.globals.emulateNvmCpu → eligible cpu →
        world.online cpu = true) ∧
      ¬ (world.globals.emulateNvmCpu < machine.nrCpuIds ∧
        eligible world.globals.emulateNvmCpu ∧
        machine.cpuToNode world.globals.emulateNvmCpu = world.globals.pollingNode ∧
        world.globals.emulateNvmCpu ≠ world.globals.pollingCpu ∧
        world.online world.globals.emulateNvmCpu = true) := by
  obtain ⟨down, same⟩ := prepare_drives hotplug success
  have up := restore_drives hotplug
    ((preparePlatformConfiguration machine).run machine.exec world).2
  rw [same] at up
  constructor
  · intro restored
    refine ⟨fun cpu exist other can => ?_, ?_⟩
    · rw [← restored]
      exact up.reaches cpu ⟨exist, other, can⟩
    · -- The emulating CPU, once down, is in no region `restore` drives.
      rintro ⟨exist, can, here, other, online⟩
      have lost := down.reaches world.globals.emulateNvmCpu
        (Or.inr ⟨exist, here, other, can⟩)
      have still := up.frame world.globals.emulateNvmCpu fun mem => mem.2.1 rfl
      have offline : (preparedAndRestored machine world).online
          world.globals.emulateNvmCpu = false := still.trans lost
      rw [restored, online] at offline
      exact absurd offline (by decide)
  · rintro ⟨all, kept⟩
    funext cpu
    by_cases driven : cpu ∈ cpusWith machine
        fun cpu => cpu ≠ world.globals.emulateNvmCpu ∧ eligible cpu
    · rw [all cpu driven.1 driven.2.1 driven.2.2]
      exact up.reaches cpu driven
    · have still : (preparedAndRestored machine world).online cpu = _ := up.frame cpu driven
      rw [still]
      by_cases taken : cpu ∈ takenDown machine eligible world.globals
      · -- Only the emulating CPU is taken down and not brought up; it was offline.
        have gone := down.reaches cpu taken
        have only : cpu = world.globals.emulateNvmCpu := by
          by_contra other
          cases taken with
          | inl first => exact driven ⟨first.1, other, first.2.2.2⟩
          | inr second => exact driven ⟨second.1, other, second.2.2.2⟩
        have polling : cpu ∈ cpusWith machine fun cpu =>
            machine.cpuToNode cpu = world.globals.pollingNode ∧
              cpu ≠ world.globals.pollingCpu ∧ eligible cpu :=
          taken.resolve_left fun first => first.2.2.1 only
        obtain ⟨exist, here, other, can⟩ := polling
        subst only
        have offline : world.online world.globals.emulateNvmCpu = false := by
          by_contra online
          exact kept ⟨exist, can, here, other, by simpa using online⟩
        rw [offline]
        exact gone
      · exact down.frame cpu taken

end Loops

/-! ## Two sockets of four CPUs -/

/-- Two nodes of four CPUs, the first with the emulating CPU 0, the second with the
polling CPU 6; every CPU but the emulating one can be taken down. -/
def twoSockets : Machine where
  haBoxes := []
  haBoxes_type := by simp
  imcDevices := ⟨[], List.nodup_nil⟩
  onlineNodes := [0, 1]
  nrCpuIds := 8
  nrNodeIds := 2
  cpuToNode cpu := cpu / 4
  smpProcessorId := 6
  answer _ call := match call with
    | .cpuDown 0 | .cpuUp 0 => -einval
    | _ => 0

/-- The two sockets with the given CPUs online and the emulator's parameters set. -/
def twoSocketsWith (online : Nat → Bool) : World where
  units _ := { regs := fun _ => 0 }
  imc _ _ := 0
  globalPmu _ _ := 0
  online := online
  globals := { pollingCpu := 6, pollingNode := 1, emulateNvmCpu := 0, emulateNvmNode := 0 }

theorem twoSockets_hotplug : Hotplug twoSockets (· ≠ 0) := by
  constructor <;> intro calls cpu <;> cases cpu <;> simp [twoSockets, einval]

/-- With all eight CPUs online, what `prepare` takes down comes back. -/
theorem preparedAndRestored_allOnline :
    (preparedAndRestored twoSockets (twoSocketsWith fun cpu => decide (cpu < 8))).online =
      fun cpu => decide (cpu < 8) :=
  (preparedAndRestored_iff twoSockets_hotplug (twoSocketsWith fun cpu => decide (cpu < 8))
    rfl).mpr ⟨by decide, by decide⟩

/-- CPU 7 was offline before and is online after. -/
theorem preparedAndRestored_offlineCpu :
    ((preparePlatformConfiguration twoSockets).run twoSockets.exec
        (twoSocketsWith fun cpu => decide (cpu < 7))).1 = 0 ∧
      (preparedAndRestored twoSockets (twoSocketsWith fun cpu => decide (cpu < 7))).online ≠
        (twoSocketsWith fun cpu => decide (cpu < 7)).online := by
  refine ⟨rfl, fun restored => ?_⟩
  have seven := congrFun restored 7
  revert seven
  decide

end NvmEmulator.Emulate
