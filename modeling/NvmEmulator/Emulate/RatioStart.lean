/-
# The start programs ratio 1

Until the home agents are found every ratio is 1: nobody may write another one. So
`uncore_imc_set_threshold_all` leaves ratio 1 on every online node that its walk
reaches, the read-modify-writes that enable and disable the throttle leave it there,
and when `start_emulate_latency` finds the home agents, ratio 1 is everywhere.
-/

import NvmEmulator.Emulate.RatioProtocol

namespace NvmEmulator.Emulate

open Relation NvmEmulator.Kernel NvmEmulator.Semantics NvmEmulator.Uncore

variable {machine : Machine}

/-- The home agents are not found yet, and every ratio is 1. -/
structure Starting (world : World) : Prop where
  searching : ¬ FoundBoxes world
  bwRatio : world.globals.bwRatio = 1
  started : world.globals.emulationStarted = false

/-- So it is, and the registers covered have ratio 1. -/
abbrev StartHolding (machine : Machine) : Set DimmWord → World → Prop :=
  Holding machine Starting 1

theorem Starting.stable {before after : World} (step : StartRely machine before after)
    (starting : Starting before) : Starting after :=
  ⟨fun found => starting.searching (step.found.mp found),
    (step.ones starting.searching).bwRatio starting.bwRatio,
    step.started.trans starting.started⟩

theorem startHolding_stable (covered : Set DimmWord) :
    Stable (StartRely machine) (StartHolding machine covered) :=
  fun _ _ step holding => ⟨holding.1.stable step, fun word mem online =>
    (step.ones holding.1.searching).words word online (holding.2 word mem online)⟩

/-- The start may write a register when it leaves ratio 1 there. -/
theorem startGuar_write {pdev : PciDev} {addr : BitVec 32} {value : BitVec 16} {world : World}
    (starting : Starting world)
    (one : (pdev, addr) ∈ onlineWords machine → value &&& 0x0fff = thrtPwr 1) :
    StartGuar machine world (machine.device.exec (.imc pdev (.write addr value)) world).2 := by
  refine ⟨rfl, rfl, fun found => found, fun word online => ?_, fun _ found =>
    absurd found starting.searching⟩
  rw [thrtPwrField_write]
  by_cases here : word = (pdev, addr)
  · subst here
    rw [if_pos rfl]
    exact Or.inr ⟨starting.bwRatio, one online⟩
  · rw [if_neg here]
    exact Or.inl rfl

theorem Starting.write {pdev : PciDev} {addr : BitVec 32} {value : BitVec 16} {world : World}
    (starting : Starting world) :
    Starting (machine.device.exec (.imc pdev (.write addr value)) world).2 :=
  ⟨starting.searching, starting.bwRatio, starting.started⟩

theorem startGuar_refl (world : World) : StartGuar machine world world :=
  ⟨rfl, rfl, fun found => found, fun _ _ => Or.inl rfl,
    fun unfound found => absurd found unfound⟩

/-- The programs of the start that keep an assertion. -/
abbrev StartKeeps (machine : Machine) (assertion : World → Prop) (α : Type)
    (program : UncoreProgram α) : Prop :=
  ∀ world, assertion world →
    Guarded machine.device (StartRely machine) (StartGuar machine) (fun _ => assertion)
      program world

/-- An access of no concern to the ratio. -/
def Aside (machine : Machine) (op : UncoreOp) : Prop :=
  ∀ world, Elsewhere world (machine.exec op world).2

theorem startKeeps_aside {α : Type} {program : UncoreProgram α} {assertion : World → Prop}
    (stable : Stable (StartRely machine) assertion) (makes : program.Makes (Aside machine)) :
    StartKeeps machine assertion α program :=
  fun _ holds => Guarded.of_makes makes stable (fun _ aside world held _ =>
    ⟨(aside world).startGuar, stable (aside world).startRely held⟩) holds

/-! ## Bandwidth -/

/-- The walk stops only where no controller is left. -/
theorem WalkReaches.stops (reaches : WalkReaches machine) {done rest : List Nat} {node : Nat}
    (split : machine.onlineNodes = done ++ node :: rest)
    (stop : node ≤ uncoreMaxSocket → devicesOn machine.imcDevices.list node = [])
    {word : DimmWord} (mem : word ∈ onlineWords machine) :
    word ∈ regionOf (nodeWords machine) done := by
  rcases mem with ⟨later, listed, here⟩
  have some : devicesOn machine.imcDevices.list later ≠ [] := by
    intro none
    rcases here with ⟨pdev, there, -⟩
    rw [none] at there
    exact List.not_mem_nil there
  rw [split] at listed
  rcases List.mem_append.mp listed with earlier | after
  · exact ⟨later, earlier, here⟩
  · rcases List.append_of_mem after with ⟨front, back, cut⟩
    have whole : machine.onlineNodes = (done ++ front) ++ later :: back := by
      rw [split, cut, List.append_assoc]
    have visited : node ∈ (done ++ front) ++ [later] := by
      cases front with
      | nil =>
          have same : node = later := (List.cons.inj cut).1
          simp [same]
      | cons first others =>
          have same : node = first := (List.cons.inj cut).1
          simp [same]
    have fine := reaches _ later back whole some node visited
    exact absurd (stop fine.1) fine.2

/-- `uncore_imc_set_threshold_all` programs ratio 1 on every online node. -/
theorem setThresholdAll_guarded (reaches : WalkReaches machine) {world : World}
    (starting : Starting world) :
    Guarded machine.device (StartRely machine) (StartGuar machine)
      (fun _ => StartHolding machine (onlineWords machine))
      (uncoreImcSetThresholdAll uncoreImcOps machine.imcDevices.list machine.onlineNodes 1)
      world := by
  let remaining : List Nat → World → Prop := fun rest world =>
    ∃ done, machine.onlineNodes = done ++ rest ∧
      StartHolding machine (regionOf (nodeWords machine) done) world
  refine Guarded.untilError remaining (StartHolding machine (onlineWords machine))
    (startHolding_stable _) ?_ ?_ ⟨[], rfl, starting, ?_⟩
  · intro world left
    rcases left with ⟨done, all, holding⟩
    rw [List.append_nil] at all
    rw [onlineWords, all]
    exact holding
  · intro node rest world left
    rcases left with ⟨done, split, holding⟩
    have stopped : ∀ {covered : Set DimmWord} {later : World},
        (node ≤ uncoreMaxSocket → devicesOn machine.imcDevices.list node = []) →
        regionOf (nodeWords machine) done ⊆ covered → StartHolding machine covered later →
          StartHolding machine (onlineWords machine) later :=
      fun stop within held =>
        ⟨held.1, fun word _ online => held.2 word (within (reaches.stops split stop online)) online⟩
    by_cases bound : node ≤ uncoreMaxSocket
    · refine (setNode_guarded startHolding_stable startGuar_refl
        (fun _ _ _ _ starting field => ⟨startGuar_write starting fun _ => field, starting.write⟩)
        bound _ world holding).mono ?_
      intro code later covers
      constructor
      · intro _
        refine ⟨done ++ [node], by simp [split], ?_⟩
        rw [regionOf_append, regionOf_cons, regionOf_nil, Set.union_empty]
        exact covers.2
      · intro failed
        exact stopped (fun _ => covers.1.resolve_left failed) Set.subset_union_left covers.2
    · rw [uncoreImcSetThreshold, if_pos (Nat.not_le.mp bound)]
      intro later moves
      have held := (startHolding_stable _).star moves holding
      refine ⟨fun fine => absurd fine (by decide), fun _ => ?_⟩
      exact stopped (fun fine => absurd fine bound) subset_rfl held
  · intro word mem
    rw [regionOf_nil] at mem
    exact absurd mem (Set.notMem_empty word)

/-- A read-modify-write that leaves the field of the register alone. -/
theorem keepDimm_guarded {update : BitVec 16 → BitVec 16}
    (field : ∀ config, update config &&& 0x0fff = config &&& 0x0fff) (pdev : PciDev) (i : Nat) :
    StartKeeps machine (StartHolding machine (onlineWords machine)) Unit
      (.access (.imc pdev (.read (dimmOffset i))) fun answer =>
        .access (.imc pdev (.write (dimmOffset i) (update answer.2))) fun _ => .ret ()) := by
  intro world holding
  refine Guarded.access _ (startHolding_stable _) holding fun later held _ => ?_
  have unread : (machine.device.exec (.imc pdev (.read (dimmOffset i))) later).2 = later :=
    exec_imc_read machine pdev (dimmOffset i) later
  have one : (pdev, dimmOffset i) ∈ onlineWords machine →
      update (later.imc pdev (dimmOffset i)) &&& 0x0fff = thrtPwr 1 :=
    fun online => (field _).trans (held.2 _ online online)
  rw [unread]
  refine ⟨startGuar_refl later,
    Guarded.access _ (startHolding_stable _) held fun final still _ => ?_⟩
  refine ⟨startGuar_write still.1 one, Guarded.ret (startHolding_stable _)
    ⟨still.1.write, fun word mem online => ?_⟩⟩
  rw [thrtPwrField_write machine]
  by_cases here : word = (pdev, dimmOffset i)
  · subst here
    rw [if_pos rfl]
    exact one online
  · rw [if_neg here]
    exact still.2 word mem online

theorem ones_closed (machine : Machine) :
    Program.Closed (StartKeeps machine (StartHolding machine (onlineWords machine))) :=
  Guarded.closed (startHolding_stable _)

/-- The walk over a device's registers that leaves their fields alone. -/
theorem keepDevice_guarded {update : BitVec 16 → BitVec 16}
    (field : ∀ config, update config &&& 0x0fff = config &&& 0x0fff) (pdev : PciDev) :
    StartKeeps machine (StartHolding machine (onlineWords machine)) Unit
      ((forDimms update).hoist (onImc pdev)) := by
  rw [forDimms, Program.hoist_forEach]
  exact (ones_closed machine).forEach fun i _ => keepDimm_guarded field pdev i

theorem disableThrottle_guarded (pdev : PciDev) :
    StartKeeps machine (StartHolding machine (onlineWords machine)) Unit
      (uncoreImcOps.disableThrottle pdev) :=
  keepDevice_guarded disableThrottle_field pdev

theorem enableThrottle_guarded (pdev : PciDev) :
    StartKeeps machine (StartHolding machine (onlineWords machine)) Int
      (uncoreImcOps.enableThrottle pdev) := by
  have closed := ones_closed machine
  show StartKeeps machine _ Int (Program.hoist (onImc pdev)
    ((forDimms fun config => config ||| (1#16 <<< 15)).bind fun _ => .ret 0))
  rw [Program.hoist_bind]
  exact closed.bind (keepDevice_guarded enableThrottle_field pdev) fun _ => closed.ret 0

/-- `start_emulate_bandwidth` leaves ratio 1 on every online node. -/
theorem startEmulateBandwidth_guarded (reaches : WalkReaches machine) {world : World}
    (starting : Starting world) :
    Guarded machine.device (StartRely machine) (StartGuar machine)
      (fun _ => StartHolding machine (onlineWords machine))
      (startEmulateBandwidth machine) world := by
  have closed := ones_closed machine
  apply (setThresholdAll_guarded reaches starting).bind
  intro _ later holding
  exact closed.bind (closed_uncoreImcEnableThrottleAll closed enableThrottle_guarded
    disableThrottle_guarded) (fun _ => closed.ret 0) later holding

theorem finishEmulateBandwidth_guarded :
    StartKeeps machine (StartHolding machine (onlineWords machine)) Unit
      (finishEmulateBandwidth machine) :=
  closed_uncoreImcDisableThrottleAll (ones_closed machine) disableThrottle_guarded

/-! ## Latency and the rest -/

theorem ones_programmed {world : World}
    (ones : StartHolding machine (onlineWords machine) world) : Programmed machine 1 world :=
  programmed_iff.mpr fun word online => ones.2 word online online

/-- The home agents are found and the start is about to say so. -/
def Polling (world : World) : Prop :=
  FoundBoxes world ∧ world.globals.emulationStarted = false

theorem polling_stable : Stable (StartRely machine) Polling :=
  fun _ _ step polling => ⟨step.found.mpr polling.1, step.started.trans polling.2⟩

/-- `start_emulate_latency` finds the home agents when every ratio is 1, or does not find
them. -/
theorem startEmulateLatency_guarded {world : World}
    (ones : StartHolding machine (onlineWords machine) world) :
    Guarded machine.device (StartRely machine) (StartGuar machine)
      (fun code later => (code = 0 → Polling later) ∧
        (code ≠ 0 → StartHolding machine (onlineWords machine) later))
      (startEmulateLatency machine) world := by
  refine Guarded.access _ (startHolding_stable _) ones fun later held _ => ⟨?_, ?_⟩
  · have programmed := ones_programmed held
    exact ⟨rfl, rfl, fun found => absurd found held.1.searching, fun _ _ => Or.inl rfl,
      fun _ _ => ⟨held.1.bwRatio, programmed⟩⟩
  · have unfound : ∀ {first second : Option UncoreBox}, first = none ∨ second = none →
        StartHolding machine (onlineWords machine) (machine.exec (.assign fun state =>
          { state with haBox0 := first, haBox1 := second }) later).2 := by
      intro first second missing
      refine ⟨⟨fun found => ?_, held.1.bwRatio, held.1.started⟩, held.2⟩
      have both : first.isSome = true ∧ second.isSome = true := found
      rcases missing with none | none
      · rw [none] at both
        exact absurd both.1 (by decide)
      · rw [none] at both
        exact absurd both.2 (by decide)
    have failed : ∀ {state : World}, StartHolding machine (onlineWords machine) state →
        Guarded machine.device (StartRely machine) (StartGuar machine)
          (fun code later => (code = 0 → Polling later) ∧
            (code ≠ 0 → StartHolding machine (onlineWords machine) later))
          (.ret (-enxio)) state :=
      fun holds final moves => ⟨fun zero => absurd zero (by decide),
        fun _ => (startHolding_stable _).star moves holds⟩
    cases found0 : uncoreGetFirstBox machine.haBoxes 0 with
    | none => exact failed (unfound (Or.inl rfl))
    | some first =>
      cases found1 : uncoreGetFirstBox machine.haBoxes 1 with
      | none => exact failed (unfound (Or.inr rfl))
      | some box =>
        have aside : (startPolling box).Makes (Aside machine) :=
          makes_startPolling (fun _ _ => ⟨rfl, rfl, rfl, rfl, rfl, rfl⟩)
            (fun _ => ⟨rfl, rfl, rfl, rfl, rfl, rfl⟩) (fun _ _ => ⟨rfl, rfl, rfl, rfl, rfl, rfl⟩)
            (fun _ => ⟨rfl, rfl, rfl, rfl, rfl, rfl⟩) (fun _ _ => ⟨rfl, rfl, rfl, rfl, rfl, rfl⟩)
            fun _ => ⟨rfl, rfl, rfl, rfl, rfl, rfl⟩
        have polling : Polling (machine.exec (.assign fun state =>
            { state with haBox0 := some first, haBox1 := some box }) later).2 :=
          ⟨⟨rfl, rfl⟩, held.1.started⟩
        apply (startKeeps_aside polling_stable aside _ polling).bind
        intro _ _ polling final moves
        exact ⟨fun _ => polling_stable.star moves polling, fun failed => absurd rfl failed⟩

theorem ratioPost_stable : Stable (StartRely machine) (ratioPost none ()) := by
  intro before after step holds started
  exact step.found.mpr (holds (step.started.symm.trans started))

theorem Starting.post {world : World} (starting : Starting world) : ratioPost none () world := by
  intro started
  rw [starting.started] at started
  cases started

/-- `start_emulate_nvm` -/
theorem startEmulateNvm_ratio (reaches : WalkReaches machine) {world : World}
    (starting : Starting world) :
    Guarded machine.device (StartRely machine) (StartGuar machine) (ratioPost none)
      (startEmulateNvm machine) world := by
  have stable : Stable (StartRely machine) Starting := fun _ _ step held => held.stable step
  have remove : emulateNvmProcRemove.Makes (Aside machine) :=
    makes_emulateNvmProcRemove (fun _ => ⟨rfl, rfl, rfl, rfl, rfl, rfl⟩)
      fun _ => ⟨rfl, rfl, rfl, rfl, rfl, rfl⟩
  have restore : (restorePlatformConfiguration machine).Makes (Aside machine) :=
    makes_restorePlatformConfiguration (fun _ => ⟨rfl, rfl, rfl, rfl, rfl, rfl⟩)
      (fun _ _ _ => ⟨rfl, rfl, rfl, rfl, rfl, rfl⟩) fun _ _ => ⟨rfl, rfl, rfl, rfl, rfl, rfl⟩
  have undo : ∀ {assertion : World → Prop}, Stable (StartRely machine) assertion →
      (∀ state, assertion state → Starting state) → ∀ {program : UncoreProgram Unit},
        program.Makes (Aside machine) → ∀ {state : World}, assertion state →
          Guarded machine.device (StartRely machine) (StartGuar machine) (ratioPost none)
            program state :=
    fun stable still _ makes _ holds => (startKeeps_aside stable makes _ holds).mono
      fun _ _ held => (still _ held).post
  have set : (setEmulateParameters machine).Makes (Aside machine) :=
    ⟨fun _ => ⟨rfl, rfl, rfl, rfl, rfl, rfl⟩, fun _ => ⟨fun _ => ⟨rfl, rfl, rfl, rfl, rfl, rfl⟩,
      fun _ => ⟨fun _ => ⟨rfl, rfl, rfl, rfl, rfl, rfl⟩, fun _ =>
        ⟨fun _ => ⟨rfl, rfl, rfl, rfl, rfl, rfl⟩, fun _ => trivial⟩⟩⟩⟩
  have create : emulateNvmProcCreate.Makes (Aside machine) :=
    makes_emulateNvmProcCreate (fun _ => ⟨rfl, rfl, rfl, rfl, rfl, rfl⟩)
      fun _ => ⟨rfl, rfl, rfl, rfl, rfl, rfl⟩
  have prepare : (preparePlatformConfiguration machine).Makes (Aside machine) :=
    makes_preparePlatformConfiguration (fun _ => ⟨rfl, rfl, rfl, rfl, rfl, rfl⟩)
      (fun _ _ _ => ⟨rfl, rfl, rfl, rfl, rfl, rfl⟩) fun _ _ => ⟨rfl, rfl, rfl, rfl, rfl, rfl⟩
  have nothing : (Program.ret () : UncoreProgram Unit).Makes (Aside machine) := trivial
  apply startEmulateNvm_stages (startKeeps_aside stable set _ starting)
  · exact startKeeps_aside stable create
  · intro _ _ _ starting
    exact undo stable (fun _ held => held) nothing starting
  · exact startKeeps_aside stable prepare
  · intro _ _ _ starting
    exact undo stable (fun _ held => held) remove starting
  · intro _ starting
    exact startEmulateBandwidth_guarded reaches starting
  · intro _ _ _ ones
    exact undo (startHolding_stable _) (fun _ held => held.1) (restore.bind fun _ => remove) ones
  · intro _ ones
    exact startEmulateLatency_guarded ones
  · intro _ _ unfound searched
    apply (finishEmulateBandwidth_guarded _ (searched.2 unfound)).bind
    intro _ _ ones
    exact undo (startHolding_stable _) (fun _ held => held.1) (restore.bind fun _ => remove) ones
  · intro _ searched
    refine Guarded.access _ polling_stable (searched.1 rfl) fun later polling _ => ⟨?_, ?_⟩
    · exact ⟨rfl, rfl, fun found => found, fun _ _ => Or.inl rfl,
        fun unfound found => absurd found unfound⟩
    · exact Guarded.ret ratioPost_stable fun _ => polling.1

/-- The task in `uncore_init` meets its obligation. -/
theorem uncoreInitTail_guarded (reaches : WalkReaches machine) {world : World}
    (starting : Starting world) :
    Guarded machine.device (StartRely machine) (StartGuar machine) (ratioPost none)
      (uncoreInitTail machine) world := by
  have stable : Stable (StartRely machine) Starting := fun _ _ step held => held.stable step
  apply (startKeeps_aside stable (makes_uncoreClearGlobalPmu
    (fun _ _ _ => ⟨rfl, rfl, rfl, rfl, rfl, rfl⟩) (fun _ _ => ⟨rfl, rfl, rfl, rfl, rfl, rfl⟩)
    fun _ _ _ => ⟨rfl, rfl, rfl, rfl, rfl, rfl⟩) _ starting).bind
  intro _ _ starting
  apply (startKeeps_aside stable (makes_uncorePrintGlobalPmu
    (fun _ _ _ => ⟨rfl, rfl, rfl, rfl, rfl, rfl⟩) (fun _ _ => ⟨rfl, rfl, rfl, rfl, rfl, rfl⟩)
    fun _ _ _ => ⟨rfl, rfl, rfl, rfl, rfl, rfl⟩) _ starting).bind
  intro _ _ starting
  exact startEmulateNvm_ratio reaches starting

end NvmEmulator.Emulate
