/-
# Taking CPUs down, whatever `cpu_down` answers

`prepare_platform_configuration` drops the results of `cpu_down`, and its two loops each
exempt a CPU of their own. Each loop makes one call for each CPU that is online when the
loop begins, in its node and not exempt; so the number of the call for a CPU, and with it
its result, is known before the loop.
-/

import NvmEmulator.Emulate.Platform

namespace NvmEmulator.Emulate

open NvmEmulator.Kernel NvmEmulator.Semantics NvmEmulator.Uncore

/-! ## One loop -/

section Loop

variable (machine : Machine) (node keep : Nat) (world : World)

/-- The loop over a node calls `cpu_down` for the CPU. -/
def tried (cpu : Nat) : Bool :=
  world.online cpu && machine.cpuToNode cpu == node && cpu != keep

/-- The number of the call for a CPU: the calls made before, and those for smaller CPUs. -/
def tryNumber (cpu : Nat) : Nat :=
  world.calls + (List.range cpu).countP (tried machine node keep world)

/-- What `cpu_down` returns for a CPU in the loop. -/
def tryResult (cpu : Nat) : Int :=
  machine.answer (tryNumber machine node keep world cpu) (.cpuDown cpu)

/-- The world when the loop has come to a CPU. -/
def downBelow (cpu : Nat) : World :=
  { world with
    online := fun other => world.online other && !(decide (other < cpu) &&
      tried machine node keep world other && tryResult machine node keep world other == 0)
    calls := tryNumber machine node keep world cpu }

theorem downBelow_zero : downBelow machine node keep world 0 = world := by
  simp [downBelow, tryNumber]

theorem tryNumber_succ (cpu : Nat) :
    tryNumber machine node keep world (cpu + 1) =
      tryNumber machine node keep world cpu +
        if tried machine node keep world cpu then 1 else 0 := by
  rw [tryNumber, List.range_succ, List.countP_append, ← Nat.add_assoc, List.countP_singleton]
  rfl

/-- At a CPU the loop has not come to yet, the world is as it was. -/
theorem online_downBelow {cpu other : Nat} (later : cpu ≤ other) :
    (downBelow machine node keep world cpu).online other = world.online other := by
  simp [downBelow, Nat.not_lt.mpr later]

theorem online_downBelow_succ (cpu : Nat) :
    (downBelow machine node keep world (cpu + 1)).online =
      if tried machine node keep world cpu ∧ tryResult machine node keep world cpu = 0 then
        Function.update (downBelow machine node keep world cpu).online cpu false
      else (downBelow machine node keep world cpu).online := by
  funext other
  by_cases same : other = cpu
  · subst same
    by_cases down : tried machine node keep world other ∧
        tryResult machine node keep world other = 0
    · rw [if_pos down, Function.update_self]
      simp [downBelow, down.1, down.2]
    · rw [if_neg down, online_downBelow machine node keep world (Nat.le_refl other)]
      by_cases tries : tried machine node keep world other = true
      · have fails : tryResult machine node keep world other ≠ 0 := fun zero => down ⟨tries, zero⟩
        simp [downBelow, fails]
      · simp [downBelow, tries]
  · have below : decide (other < cpu + 1) = decide (other < cpu) := by
      rw [decide_eq_decide, Nat.lt_succ_iff_lt_or_eq, or_iff_left same]
    have kept : (downBelow machine node keep world (cpu + 1)).online other =
        (downBelow machine node keep world cpu).online other := by
      simp only [downBelow, below]
    rw [kept]
    split
    · rw [Function.update_of_ne same]
    · rfl

theorem run_cpuDownRound_tried {cpu : Nat} (tries : tried machine node keep world cpu = true) :
    (Program.run machine.exec (do
        let set ← access (.cpumaskOfNode node cpu)
        if set then cpuDownExcept keep cpu else pure ()) world).2 =
      { world with
        online := if machine.answer world.calls (.cpuDown cpu) = 0 then
          Function.update world.online cpu false else world.online
        calls := world.calls + 1 } := by
  have here : world.online cpu = true ∧ machine.cpuToNode cpu = node ∧ cpu ≠ keep := by
    simpa [tried, and_assoc] using tries
  simp [access, Program.lift, Machine.exec, cpuDownExcept, KernelCall.onlineAfter,
    KernelCall.reply, here]

theorem run_cpuDownRound_skipped {cpu : Nat}
    (skips : tried machine node keep world cpu = false) :
    (Program.run machine.exec (do
        let set ← access (.cpumaskOfNode node cpu)
        if set then cpuDownExcept keep cpu else pure ()) world).2 = world := by
  by_cases set : (world.online cpu && machine.cpuToNode cpu == node) = true
  · have kept : cpu = keep := by simpa [tried, set] using skips
    simp [access, Program.lift, Machine.exec, cpuDownExcept, kept]
  · simp [access, Program.lift, Machine.exec, set]

/-- One round of the loop. -/
theorem run_cpuDownRound (cpu : Nat) :
    (Program.run machine.exec (do
        let set ← access (.cpumaskOfNode node cpu)
        if set then cpuDownExcept keep cpu else pure ())
      (downBelow machine node keep world cpu)).2 =
      downBelow machine node keep world (cpu + 1) := by
  have online := online_downBelow_succ machine node keep world cpu
  have calls := tryNumber_succ machine node keep world cpu
  have same : tried machine node keep (downBelow machine node keep world cpu) cpu =
      tried machine node keep world cpu := by
    rw [tried, online_downBelow machine node keep world (Nat.le_refl cpu)]
    rfl
  have whole : downBelow machine node keep world (cpu + 1) =
      { downBelow machine node keep world cpu with
        online := (downBelow machine node keep world (cpu + 1)).online
        calls := tryNumber machine node keep world (cpu + 1) } := rfl
  rw [whole, online, calls]
  cases tries : tried machine node keep world cpu with
  | true =>
      rw [run_cpuDownRound_tried machine node keep _ (same.trans tries)]
      simp only [true_and, if_true]
      rfl
  | false =>
      rw [run_cpuDownRound_skipped machine node keep _ (same.trans tries)]
      simp only [Bool.false_eq_true, false_and, if_false, Nat.add_zero]
      rfl

/-- The whole loop. -/
theorem run_forEachCpu_cpuDown :
    ((forEachCpu machine node (cpuDownExcept keep)).run machine.exec world).2 =
      downBelow machine node keep world machine.nrCpuIds := by
  have loop := Program.run_forEach_range machine.exec
    (run_cpuDownRound machine node keep world) machine.nrCpuIds
  rw [downBelow_zero] at loop
  exact loop

end Loop

/-! ## Both loops -/

/-- What is asked of `prepare_platform_configuration`: when it returns 0 the polling and the
emulating CPU are online and no other CPU of their nodes is; when it does not, no CPU has
been touched. -/
def Prepared (machine : Machine) (world : World) : Prop :=
  let state := world.globals
  let final := (preparePlatformConfiguration machine).run machine.exec world
  (final.1 = 0 →
    final.2.online state.pollingCpu = true ∧ final.2.online state.emulateNvmCpu = true ∧
      ∀ cpu < machine.nrCpuIds, cpu ≠ state.pollingCpu → cpu ≠ state.emulateNvmCpu →
        machine.cpuToNode cpu = state.pollingNode ∨
          machine.cpuToNode cpu = state.emulateNvmNode →
        final.2.online cpu = false) ∧
  (final.1 ≠ 0 → final.2.online = world.online)

section Both

variable (machine : Machine) (world : World)

/-- The world between the two loops. -/
def afterFirstLoop : World :=
  downBelow machine world.globals.emulateNvmNode world.globals.emulateNvmCpu world
    machine.nrCpuIds

/-- The world after both loops. -/
def afterBothLoops : World :=
  downBelow machine world.globals.pollingNode world.globals.pollingCpu
    (afterFirstLoop machine world) machine.nrCpuIds

theorem run_preparePlatformConfiguration :
    (preparePlatformConfiguration machine).run machine.exec world =
      if machine.smpProcessorId ≠ world.globals.pollingCpu then (-1, world)
      else (0, afterBothLoops machine world) := by
  have first := run_forEachCpu_cpuDown machine world.globals.emulateNvmNode
    world.globals.emulateNvmCpu world
  have second := run_forEachCpu_cpuDown machine world.globals.pollingNode
    world.globals.pollingCpu (afterFirstLoop machine world)
  rw [afterFirstLoop, ← first] at second
  rw [afterBothLoops, afterFirstLoop, ← first, ← second]
  by_cases elsewhere : machine.smpProcessorId = world.globals.pollingCpu
  · simp [preparePlatformConfiguration, globals, access, Program.lift, Machine.exec, elsewhere]
  · simp [preparePlatformConfiguration, globals, access, Program.lift, Machine.exec, elsewhere]

variable {machine world}

/-- A CPU a loop does not try stays as it was. -/
theorem online_downBelow_of_not_tried {node keep cpu : Nat} (bound : Nat)
    (skips : tried machine node keep world cpu = false) :
    (downBelow machine node keep world bound).online cpu = world.online cpu := by
  simp [downBelow, skips]

/-- A CPU that is online after a loop was online before it, and if the loop tried it, that
failed. -/
theorem online_of_online_downBelow {node keep cpu : Nat} (present : cpu < machine.nrCpuIds)
    (still : (downBelow machine node keep world machine.nrCpuIds).online cpu = true) :
    world.online cpu = true ∧
      (machine.cpuToNode cpu = node → cpu ≠ keep →
        tryResult machine node keep world cpu ≠ 0) := by
  have before : world.online cpu = true := by
    simp only [downBelow, Bool.and_eq_true] at still
    exact still.1
  refine ⟨before, fun here other zero => ?_⟩
  have tries : tried machine node keep world cpu = true := by
    simp [tried, before, here, other]
  simp [downBelow, present, tries, zero] at still

end Both

/-- Whatever the topology and whatever `cpu_down` answers: when the function fails, no CPU
has been touched. When it returns 0, the polling and the emulating CPU are as they were if
neither is on the other's node, and any other CPU that is still online in one of the two
nodes is one that the loop over its node failed to take down. -/
theorem preparePlatformConfiguration_online (machine : Machine) (world : World) :
    let state := world.globals
    let final := (preparePlatformConfiguration machine).run machine.exec world
    (final.1 ≠ 0 → final.2.online = world.online) ∧
    (final.1 = 0 →
      (machine.cpuToNode state.pollingCpu ≠ state.emulateNvmNode →
        machine.cpuToNode state.emulateNvmCpu ≠ state.pollingNode →
        final.2.online state.pollingCpu = world.online state.pollingCpu ∧
          final.2.online state.emulateNvmCpu = world.online state.emulateNvmCpu) ∧
      ∀ cpu < machine.nrCpuIds, cpu ≠ state.pollingCpu → cpu ≠ state.emulateNvmCpu →
        final.2.online cpu = true →
        (machine.cpuToNode cpu = state.emulateNvmNode →
          tryResult machine state.emulateNvmNode state.emulateNvmCpu world cpu ≠ 0) ∧
        (machine.cpuToNode cpu = state.pollingNode →
          tryResult machine state.pollingNode state.pollingCpu
            (afterFirstLoop machine world) cpu ≠ 0)) := by
  intro state final
  have run : final = _ := run_preparePlatformConfiguration machine world
  by_cases elsewhere : machine.smpProcessorId ≠ world.globals.pollingCpu
  · rw [if_pos elsewhere] at run
    rw [run]
    refine ⟨fun _ => rfl, fun zero => ?_⟩
    have code : (-1 : Int) = 0 := zero
    exact absurd code (by decide)
  · rw [if_neg elsewhere] at run
    rw [run]
    refine ⟨fun failed => absurd rfl failed, fun _ => ⟨fun polling emulating => ⟨?_, ?_⟩, ?_⟩⟩
    · -- the first loop is over another node, the second exempts the CPU
      have second : tried machine state.pollingNode state.pollingCpu
          (afterFirstLoop machine world) state.pollingCpu = false := by simp [tried]
      have first : tried machine state.emulateNvmNode state.emulateNvmCpu world
          state.pollingCpu = false := by simp [tried, polling]
      exact (online_downBelow_of_not_tried _ second).trans (online_downBelow_of_not_tried _ first)
    · -- and the other way round
      have second : tried machine state.pollingNode state.pollingCpu
          (afterFirstLoop machine world) state.emulateNvmCpu = false := by
        simp [tried, emulating]
      have first : tried machine state.emulateNvmNode state.emulateNvmCpu world
          state.emulateNvmCpu = false := by simp [tried]
      exact (online_downBelow_of_not_tried _ second).trans (online_downBelow_of_not_tried _ first)
    · intro cpu present notPolling notEmulating still
      rcases online_of_online_downBelow present still with ⟨between, second⟩
      rcases online_of_online_downBelow present between with ⟨_, first⟩
      exact ⟨fun here => first here notEmulating, fun here => second here notPolling⟩

/-- On the two sockets the CPUs 6 and 0 are still online. -/
theorem preparePlatformConfiguration_online_twoSockets :
    ((preparePlatformConfiguration twoSockets).run twoSockets.exec
        (twoSocketsWith fun cpu => decide (cpu < 8))).2.online 6 = true ∧
      ((preparePlatformConfiguration twoSockets).run twoSockets.exec
        (twoSocketsWith fun cpu => decide (cpu < 8))).2.online 0 = true :=
  ((preparePlatformConfiguration_online twoSockets
    (twoSocketsWith fun cpu => decide (cpu < 8))).2 rfl).1 (by decide) (by decide)

/-- The two sockets, where CPU 7 cannot be taken down either. -/
def busyPollingNode : Machine :=
  { twoSockets with
    answer := fun _ call => match call with
      | .cpuDown 7 => -16
      | _ => 0 }

/-- CPU 7 of the polling node is still online when the function returns 0. -/
theorem not_prepared_busyPollingNode :
    ¬ ∀ (machine : Machine) (world : World), Prepared machine world := by
  intro claim
  have others := ((claim busyPollingNode (twoSocketsWith fun cpu => decide (cpu < 8))).1
    (by decide)).2.2 7 (by decide) (by decide) (by decide) (Or.inl (by decide))
  revert others
  decide

end NvmEmulator.Emulate
