/-
# The accesses each function makes

A frame argument needs to know what a function can touch, not what it computes.
Each lemma lists the accesses of one function of `emulate_nvm.c`, as permissions
the caller supplies: which ones keep an invariant is the caller's business. The last
lemma puts the obligation of `start_emulate_nvm` together from those of its stages.
-/

import NvmEmulator.Emulate.Nvm

namespace NvmEmulator.Emulate

open NvmEmulator.Kernel NvmEmulator.Semantics NvmEmulator.Uncore

variable {machine : Machine} {allowed : UncoreOp → Prop}

theorem makes_access {op : UncoreOp} (permitted : allowed op) :
    (access op).Makes allowed :=
  ⟨permitted, fun _ => trivial⟩

theorem makes_onBox {α : Type} {box : UncoreBox} (permitted : ∀ op, allowed (.pci box op))
    (program : RegProgram 32 α) : (onBox box program).Makes allowed :=
  Program.Makes.hoist (fun op => makes_access (permitted op)) program

theorem makes_forEachCpu {node : Nat} {body : Nat → UncoreProgram Unit}
    (mask : ∀ cpu, allowed (.cpumaskOfNode node cpu))
    (each : ∀ cpu, (body cpu).Makes allowed) :
    (forEachCpu machine node body).Makes allowed := by
  refine Program.Makes.forEach fun cpu _ => ⟨mask cpu, fun set => ?_⟩
  cases set with
  | true => exact each cpu
  | false => trivial

theorem makes_forEachCpuNot {node : Nat} {body : Nat → UncoreProgram Unit}
    (mask : ∀ cpu, allowed (.cpumaskOfNode node cpu))
    (each : ∀ cpu, (body cpu).Makes allowed) :
    (forEachCpuNot machine node body).Makes allowed := by
  refine Program.Makes.forEach fun cpu _ => ⟨mask cpu, fun set => ?_⟩
  cases set with
  | true => trivial
  | false => exact each cpu

theorem makes_cpuDownExcept {keep cpu : Nat}
    (permitted : cpu ≠ keep → allowed (.kernel (.cpuDown cpu))) :
    (cpuDownExcept keep cpu).Makes allowed := by
  by_cases kept : cpu = keep
  · simp [cpuDownExcept, kept]
  · simpa [cpuDownExcept, kept, access, Program.lift] using permitted kept

theorem makes_cpuUpExcept {keep cpu : Nat}
    (permitted : cpu ≠ keep → allowed (.kernel (.cpuUp cpu))) :
    (cpuUpExcept keep cpu).Makes allowed := by
  by_cases kept : cpu = keep
  · simp [cpuUpExcept, kept]
  · simpa [cpuUpExcept, kept, access, Program.lift] using permitted kept

theorem makes_smpCallFunctionSingle {cpu : Nat} {func : Nat → UncoreProgram Unit}
    (call : allowed (.kernel (.smpCallFunctionSingle cpu)))
    (each : (func cpu).Makes allowed) :
    (smpCallFunctionSingle cpu func).Makes allowed := by
  refine (makes_access call).bind fun err => ?_
  by_cases called : err = 0
  · rw [if_pos called]
    exact each.bind fun _ => trivial
  · rw [if_neg called]
    trivial

/-- A tick reaches its box, the other processor, and the globals. -/
theorem makes_emulateNvmHrtimer {box : UncoreBox} (pci : ∀ op, allowed (.pci box op))
    (state : allowed .globals)
    (counts : ∀ value, allowed (.assign fun state => { state with procCounts := value }))
    (jiffies : allowed (.assign fun state =>
      { state with hrtimerJiffies := state.hrtimerJiffies + 1 }))
    (call : ∀ cpu, allowed (.kernel (.smpCallFunctionSingle cpu)))
    (delay : ∀ cpu usecs, allowed (.udelay cpu usecs)) :
    (emulateNvmHrtimer box).Makes allowed := by
  refine (makes_onBox pci _).bind fun _ => (makes_onBox pci _).bind fun value => ?_
  refine (makes_access (counts value)).bind fun _ => (makes_access state).bind fun now => ?_
  refine (makes_smpCallFunctionSingle (call _) (makes_access (delay _ _))).bind fun _ => ?_
  refine (makes_onBox pci _).bind fun _ => (makes_onBox pci _).bind fun _ => ?_
  exact (makes_access jiffies).bind fun _ => trivial

theorem makes_startPolling {box : UncoreBox} (pci : ∀ op, allowed (.pci box op))
    (state : allowed .globals) (set : ∀ update, allowed (.setBoxFields box update))
    (timer : allowed (.hrtimerStart box))
    (event : ∀ event, allowed (.assign fun state => { state with event := some event }))
    (started : allowed (.assign fun state => { state with latencyStarted := true })) :
    (startPolling box).Makes allowed := by
  refine (makes_access (event _)).bind fun _ => (makes_access (set _)).bind fun _ => ?_
  refine (makes_onBox pci _).bind fun _ => (makes_onBox pci _).bind fun _ => ?_
  refine (makes_onBox pci _).bind fun _ => (makes_onBox pci _).bind fun _ => ?_
  refine (makes_access (set _)).bind fun _ => (makes_access state).bind fun _ => ?_
  refine (makes_access (set _)).bind fun _ => (makes_access timer).bind fun _ => ?_
  exact makes_access started

theorem makes_startEmulateLatency (pci : ∀ box op, allowed (.pci box op))
    (state : allowed .globals) (set : ∀ box update, allowed (.setBoxFields box update))
    (timer : ∀ box, allowed (.hrtimerStart box))
    (boxes : ∀ first second, allowed (.assign fun state =>
      { state with haBox0 := first, haBox1 := second }))
    (event : ∀ event, allowed (.assign fun state => { state with event := some event }))
    (started : allowed (.assign fun state => { state with latencyStarted := true })) :
    (startEmulateLatency machine).Makes allowed := by
  refine (makes_access (boxes _ _)).bind fun _ => ?_
  cases uncoreGetFirstBox machine.haBoxes 0 with
  | none => trivial
  | some first =>
    cases uncoreGetFirstBox machine.haBoxes 1 with
    | none => trivial
    | some box =>
      exact (makes_startPolling (pci box) state (set box) (timer box) event
        started).bind fun _ => trivial

theorem makes_onCpu {α : Type} {cpu : Nat} (msr : ∀ op, allowed (.msr cpu op))
    (program : RegProgram 64 α) : (onCpu cpu program).Makes allowed :=
  Program.Makes.hoist (fun op => makes_access (msr op)) program

theorem makes_cpumaskFirst {node : Nat} (mask : ∀ cpu, allowed (.cpumaskOfNode node cpu))
    (cpus : List Nat) : (cpumaskFirst machine node cpus).Makes allowed := by
  induction cpus with
  | nil => trivial
  | cons cpu rest ih =>
      refine (makes_access (mask cpu)).bind fun set => ?_
      cases set with
      | true => trivial
      | false => exact ih

theorem makes_uncoreCallFunctionOnNode {node : Nat} {func : Nat → UncoreProgram Unit}
    (mask : ∀ cpu, allowed (.cpumaskOfNode node cpu))
    (call : ∀ cpu, allowed (.kernel (.smpCallFunctionSingle cpu)))
    (each : ∀ cpu, (func cpu).Makes allowed) :
    (uncoreCallFunctionOnNode machine node func).Makes allowed := by
  rw [uncoreCallFunctionOnNode]
  split
  · trivial
  · have first : (firstOnlineCpuOfNode machine node).Makes allowed := by
      refine (makes_cpumaskFirst mask _).bind fun cpu => ?_
      split <;> trivial
    refine first.bind fun cpu => ?_
    split
    · trivial
    · exact makes_smpCallFunctionSingle (call _) (each _)

theorem makes_uncorePrintGlobalPmu {pmu : UncorePmu}
    (mask : ∀ node cpu, allowed (.cpumaskOfNode node cpu))
    (call : ∀ cpu, allowed (.kernel (.smpCallFunctionSingle cpu)))
    (msr : ∀ cpu op, allowed (.msr cpu op)) :
    (uncorePrintGlobalPmu machine pmu).Makes allowed :=
  .forEach fun node _ => (makes_uncoreCallFunctionOnNode (mask node) call
    fun cpu => makes_onCpu (msr cpu) _).bind fun _ => trivial

theorem makes_uncoreClearGlobalPmu {pmu : UncorePmu}
    (mask : ∀ node cpu, allowed (.cpumaskOfNode node cpu))
    (call : ∀ cpu, allowed (.kernel (.smpCallFunctionSingle cpu)))
    (msr : ∀ cpu op, allowed (.msr cpu op)) :
    (uncoreClearGlobalPmu machine pmu).Makes allowed :=
  .forEach fun node _ => (makes_uncoreCallFunctionOnNode (mask node) call
    fun cpu => makes_onCpu (msr cpu) _).bind fun _ => trivial

theorem makes_finishEmulateLatency (pci : ∀ box op, allowed (.pci box op))
    (state : allowed .globals) (cancel : ∀ box, allowed (.hrtimerCancel box))
    (mask : ∀ node cpu, allowed (.cpumaskOfNode node cpu))
    (call : ∀ cpu, allowed (.kernel (.smpCallFunctionSingle cpu)))
    (msr : ∀ cpu op, allowed (.msr cpu op))
    (finished : allowed (.assign fun state => { state with latencyStarted := false })) :
    (finishEmulateLatency machine).Makes allowed := by
  refine (makes_access state).bind fun now => ?_
  split
  · split
    · refine (makes_access (cancel _)).bind fun _ => (makes_access (cancel _)).bind fun _ => ?_
      refine (makes_onBox (pci _) _).bind fun _ => (makes_onBox (pci _) _).bind fun _ => ?_
      refine (makes_onBox (pci _) _).bind fun _ => (makes_onBox (pci _) _).bind fun _ => ?_
      refine (makes_uncorePrintGlobalPmu mask call msr).bind fun _ => ?_
      refine (makes_onBox (pci _) _).bind fun _ => (makes_onBox (pci _) _).bind fun _ => ?_
      exact makes_access finished
    · trivial
  · trivial

/-! ## Bandwidth -/

theorem makes_hoist_onImc {α : Type} {pdev : PciDev} (imc : ∀ op, allowed (.imc pdev op))
    (program : RegProgram 16 α) : (program.hoist (onImc pdev)).Makes allowed :=
  Program.Makes.hoist (fun op => makes_access (imc op)) program

theorem makes_startEmulateBandwidth (imc : ∀ pdev op, allowed (.imc pdev op)) :
    (startEmulateBandwidth machine).Makes allowed := by
  have closed : Program.Closed fun α (program : UncoreProgram α) => program.Makes allowed :=
    Program.Makes.closed allowed
  apply closed.bind
  · exact closed_uncoreImcSetThresholdAll closed fun pdev => makes_hoist_onImc (imc pdev) _
  · intro _
    exact closed.bind (closed_uncoreImcEnableThrottleAll closed
      (fun pdev => makes_hoist_onImc (imc pdev) _)
      fun pdev => makes_hoist_onImc (imc pdev) _) fun _ => trivial

theorem makes_finishEmulateBandwidth (imc : ∀ pdev op, allowed (.imc pdev op)) :
    (finishEmulateBandwidth machine).Makes allowed :=
  closed_uncoreImcDisableThrottleAll (Program.Makes.closed allowed)
    fun pdev => makes_hoist_onImc (imc pdev) _

/-! ## Platform -/

theorem makes_preparePlatformConfiguration (state : allowed .globals)
    (mask : ∀ node cpu, allowed (.cpumaskOfNode node cpu))
    (down : ∀ cpu, allowed (.kernel (.cpuDown cpu))) :
    (preparePlatformConfiguration machine).Makes allowed := by
  refine (makes_access state).bind fun now => ?_
  split
  · trivial
  · refine (makes_forEachCpu (mask _) fun cpu =>
      makes_cpuDownExcept fun _ => down cpu).bind fun _ => ?_
    exact (makes_forEachCpu (mask _) fun cpu =>
      makes_cpuDownExcept fun _ => down cpu).bind fun _ => trivial

theorem makes_restorePlatformConfiguration (state : allowed .globals)
    (mask : ∀ node cpu, allowed (.cpumaskOfNode node cpu))
    (up : ∀ cpu, allowed (.kernel (.cpuUp cpu))) :
    (restorePlatformConfiguration machine).Makes allowed := by
  refine (makes_access state).bind fun now => ?_
  refine (makes_forEachCpuNot (mask _) fun cpu =>
    makes_cpuUpExcept fun _ => up cpu).bind fun _ => ?_
  exact makes_forEachCpu (mask _) fun cpu => makes_cpuUpExcept fun _ => up cpu

/-! ## Starting and finishing -/

theorem makes_emulateNvmProcCreate (create : allowed (.kernel .procCreate))
    (registed : allowed (.assign fun state => { state with emulateNvmProcRegisted := true })) :
    emulateNvmProcCreate.Makes allowed := by
  refine (makes_access create).bind fun err => ?_
  split
  · exact (makes_access registed).bind fun _ => trivial
  · trivial

theorem makes_emulateNvmProcRemove (state : allowed .globals)
    (remove : allowed .procRemove) : emulateNvmProcRemove.Makes allowed := by
  refine (makes_access state).bind fun now => ?_
  split
  · exact makes_access remove
  · trivial

theorem makes_finishEmulateNvm (pci : ∀ box op, allowed (.pci box op))
    (imc : ∀ pdev op, allowed (.imc pdev op)) (msr : ∀ cpu op, allowed (.msr cpu op))
    (state : allowed .globals) (mask : ∀ node cpu, allowed (.cpumaskOfNode node cpu))
    (up : ∀ cpu, allowed (.kernel (.cpuUp cpu)))
    (call : ∀ cpu, allowed (.kernel (.smpCallFunctionSingle cpu)))
    (cancel : ∀ box, allowed (.hrtimerCancel box)) (remove : allowed .procRemove)
    (latency : allowed (.assign fun state => { state with latencyStarted := false }))
    (finished : allowed (.assign fun state => { state with emulationStarted := false })) :
    (finishEmulateNvm machine).Makes allowed := by
  refine (makes_access state).bind fun now => ?_
  split
  · refine (makes_emulateNvmProcRemove state remove).bind fun _ => ?_
    refine (makes_restorePlatformConfiguration state mask up).bind fun _ => ?_
    refine (makes_finishEmulateBandwidth imc).bind fun _ => ?_
    refine (makes_finishEmulateLatency pci state cancel mask call msr latency).bind fun _ => ?_
    exact makes_access finished
  · trivial

/-- Starting the emulation waits for nothing. -/
theorem startEmulateNvm_ready (machine : Machine) : (startEmulateNvm machine).Makes
    fun op => ∀ state, machine.device.ready op state := by
  have remove : emulateNvmProcRemove.Makes fun op => ∀ state, machine.device.ready op state :=
    makes_emulateNvmProcRemove (fun _ => trivial) fun _ => trivial
  have restore : (restorePlatformConfiguration machine).Makes
      fun op => ∀ state, machine.device.ready op state :=
    makes_restorePlatformConfiguration (fun _ => trivial) (fun _ _ _ => trivial)
      fun _ _ => trivial
  have set : (setEmulateParameters machine).Makes
      fun op => ∀ state, machine.device.ready op state :=
    ⟨fun _ => trivial, fun _ => ⟨fun _ => trivial, fun _ => ⟨fun _ => trivial, fun _ =>
      ⟨fun _ => trivial, fun _ => trivial⟩⟩⟩⟩
  refine set.bind fun _ => (makes_emulateNvmProcCreate (fun _ => trivial)
    fun _ => trivial).bind fun _ => ?_
  split
  · trivial
  · refine (makes_preparePlatformConfiguration (fun _ => trivial) (fun _ _ _ => trivial)
      fun _ _ => trivial).bind fun _ => ?_
    split
    · exact remove
    · refine (makes_startEmulateBandwidth fun _ _ _ => trivial).bind fun _ => ?_
      split
      · exact restore.bind fun _ => remove
      · refine (makes_startEmulateLatency (fun _ _ _ => trivial) (fun _ => trivial)
          (fun _ _ _ => trivial) (fun _ _ => trivial) (fun _ _ _ => trivial)
          (fun _ _ => trivial) fun _ => trivial).bind fun _ => ?_
        split
        · exact (makes_finishEmulateBandwidth fun _ _ _ => trivial).bind fun _ =>
            restore.bind fun _ => remove
        · exact ⟨fun _ => trivial, fun _ => trivial⟩

/-! ## The stages of starting -/

section Stages

variable {rely guar : World → World → Prop} {post : Unit → World → Prop}
  {configured : World → Prop} {created prepared limited found : Int → World → Prop}

/-- The obligation of `start_emulate_nvm` from those of its stages: each begins with what the
one before it has established, and a stage that fails leaves to what undoes those before. -/
theorem startEmulateNvm_stages {world : World}
    (set : Guarded machine.device rely guar (fun _ => configured)
      (setEmulateParameters machine) world)
    (create : ∀ state, configured state →
      Guarded machine.device rely guar created emulateNvmProcCreate state)
    (uncreated : ∀ ret state, ret ≠ 0 → created ret state →
      Guarded machine.device rely guar post (.ret ()) state)
    (prepare : ∀ state, created 0 state →
      Guarded machine.device rely guar prepared (preparePlatformConfiguration machine) state)
    (unprepared : ∀ ret state, ret ≠ 0 → prepared ret state →
      Guarded machine.device rely guar post emulateNvmProcRemove state)
    (limit : ∀ state, prepared 0 state →
      Guarded machine.device rely guar limited (startEmulateBandwidth machine) state)
    (unlimited : ∀ ret state, ret ≠ 0 → limited ret state →
      Guarded machine.device rely guar post
        ((restorePlatformConfiguration machine).bind fun _ => emulateNvmProcRemove) state)
    (find : ∀ state, limited 0 state →
      Guarded machine.device rely guar found (startEmulateLatency machine) state)
    (unfound : ∀ ret state, ret ≠ 0 → found ret state →
      Guarded machine.device rely guar post ((finishEmulateBandwidth machine).bind fun _ =>
        (restorePlatformConfiguration machine).bind fun _ => emulateNvmProcRemove) state)
    (started : ∀ state, found 0 state → Guarded machine.device rely guar post
      (assign fun state => { state with emulationStarted := true }) state) :
    Guarded machine.device rely guar post (startEmulateNvm machine) world := by
  apply set.bind
  intro _ world configured
  apply (create world configured).bind
  intro ret world created
  by_cases failed : ret ≠ 0
  · rw [if_pos failed]
    exact uncreated ret world failed created
  rw [if_neg failed]
  rw [not_not.mp failed] at created
  apply (prepare world created).bind
  intro ret world prepared
  by_cases failed : ret ≠ 0
  · rw [if_pos failed]
    exact unprepared ret world failed prepared
  rw [if_neg failed]
  rw [not_not.mp failed] at prepared
  apply (limit world prepared).bind
  intro ret world limited
  by_cases failed : ret ≠ 0
  · rw [if_pos failed]
    exact unlimited ret world failed limited
  rw [if_neg failed]
  rw [not_not.mp failed] at limited
  apply (find world limited).bind
  intro ret world found
  by_cases failed : ret ≠ 0
  · rw [if_pos failed]
    exact unfound ret world failed found
  · rw [if_neg failed]
    rw [not_not.mp failed] at found
    exact started world found

end Stages

end NvmEmulator.Emulate
