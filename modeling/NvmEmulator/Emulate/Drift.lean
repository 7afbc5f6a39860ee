/-
# What the delays leave out

A tick asks the emulating CPU to waste the delay of the reads it counted, in whole
microseconds, through a call that can fail. What a tick does not waste is lost: the
counter is cleared either way. This module adds up what is lost over a run. Nothing
in it depends on what the counters hold, so the events may do as they like to them.
-/

import NvmEmulator.Emulate.Ledger

namespace NvmEmulator.Emulate

open Relation NvmEmulator.Kernel NvmEmulator.Semantics NvmEmulator.Uncore

variable {machine : Machine} {box : UncoreBox}

/-! ## What is wasted and what is owed -/

/-- The nanoseconds a processor has wasted in `udelay`. -/
def delayedNs (cpu : Nat) (world : World) : Nat :=
  ((world.delays.filter (·.1 == cpu)).map fun delay => 1000 * delay.2.toNat).sum

/-- Whether the cross calls of the next so many ticks succeed. -/
def outcomes (machine : Machine) (started : World) (ticks : Nat) : List Bool :=
  (List.range ticks).map fun tick =>
    machine.answer (started.calls + tick)
      (.smpCallFunctionSingle started.globals.emulateNvmCpu) == 0

/-- The reads whose delay a tick does not deliver: five of them make a microsecond. -/
def undelivered (counts : BitVec 64) (called : Bool) : Nat :=
  if called then counts.toNat % 5 else counts.toNat

/-- The reads whose delay a run does not deliver. -/
def leftover (counts : List (BitVec 64)) (called : List Bool) : Nat :=
  (List.zipWith undelivered counts called).sum

/-- The delay of one more tick. -/
def delaysAfter (called : Bool) (delayNs : BitVec 64) (cpu : Nat)
    (delays : List (Nat × BitVec 64)) : List (Nat × BitVec 64) :=
  if called then (cpu, delayNs / 1000) :: delays else delays

/-- With 200 ns a read, no product of a 48-bit count wraps. -/
theorem countsToDelayNs_toNat {counts : BitVec 64} (narrow : counts.toNat < 2 ^ 48) :
    (countsToDelayNs 200 counts).toNat = counts.toNat * 200 := by
  have room : counts.toNat * 200 < 2 ^ 64 := by omega
  rw [countsToDelayNs, BitVec.toNat_mul]
  exact Nat.mod_eq_of_lt room

/-- A tick wastes all but what it leaves undelivered. -/
theorem delayedNs_delaysAfter {counts : BitVec 64} (narrow : counts.toNat < 2 ^ 48)
    (called : Bool) (cpu : Nat) {before after : World}
    (delays : after.delays =
      delaysAfter called (countsToDelayNs 200 counts) cpu before.delays) :
    delayedNs cpu after + 200 * undelivered counts called =
      delayedNs cpu before + 200 * counts.toNat := by
  cases called with
  | false =>
      have same : after.delays = before.delays := delays
      rw [delayedNs, same]
      rfl
  | true =>
      have wasted : (countsToDelayNs 200 counts / 1000).toNat = counts.toNat * 200 / 1000 := by
        rw [BitVec.toNat_udiv, countsToDelayNs_toNat narrow]
        rfl
      have more : delayedNs cpu after =
          1000 * (counts.toNat * 200 / 1000) + delayedNs cpu before := by
        rw [delayedNs, delays, delaysAfter, if_pos rfl, List.filter_cons_of_pos (by simp),
          List.map_cons, List.sum_cons, wasted]
        rfl
      have rest : undelivered counts true = counts.toNat % 5 := rfl
      rw [more, rest]
      omega

/-! ## One tick -/

/-- What a tick goes by, apart from the registers of its box. -/
structure Account (known : Globals → Prop) (calls : Nat) (delays : List (Nat × BitVec 64))
    (world : World) : Prop where
  known : known world.globals
  calls : world.calls = calls
  delays : world.delays = delays

section Tick

variable {known : Globals → Prop} {calls : Nat} {delays : List (Nat × BitVec 64)}

theorem account_stable : Stable Arrives (Account known calls delays) := by
  intro before after moves account
  cases moves with
  | event other room => exact ⟨account.known, account.calls, account.delays⟩

/-- Registers of boxes are not in the account. -/
theorem account_onBox {α : Type} (program : RegProgram 32 α) {world : World}
    (account : Account known calls delays world) :
    UnderEvents machine (fun _ => Account known calls delays) (onBox box program) world := by
  let registers : UncoreOp → Prop := fun op => ∃ access, op = .pci box access
  have makes : (onBox box program).Makes registers :=
    makes_onBox (fun access => ⟨access, rfl⟩) program
  apply Guarded.of_makes makes account_stable _ account
  rintro _ ⟨access, rfl⟩ world account ready
  exact ⟨trivial, account.known, account.calls, account.delays⟩

/-- What is read from a 48-bit counter has 48 bits, whatever its two halves hold. -/
theorem account_readCounter (counting : CountingBox box) {world : World}
    (account : Account known calls delays world) :
    UnderEvents machine
      (fun counts later => counts.toNat < 2 ^ 48 ∧ Account known calls delays later)
      (onBox box (uncoreReadCounter hswepUncorePciBoxOps box 0)) world := by
  have mask : uncoreBoxCtrMask box = 0xffffffffffff#64 := by
    rw [uncoreBoxCtrMask, counting.bits]
    rfl
  have stable : Stable Arrives (Account known calls delays) := account_stable
  apply Guarded.access _ stable account
  intro later account ready
  refine ⟨trivial, Guarded.access (Account known calls delays) stable
    ⟨account.known, account.calls, account.delays⟩ ?_⟩
  intro last account ready
  refine ⟨trivial, Guarded.ret ?_ ⟨?_, account.known, account.calls, account.delays⟩⟩
  · intro before after moves both
    exact ⟨both.1, stable moves both.2⟩
  · rw [mask, and_mask_eq, BitVec.toNat_setWidth]
    exact Nat.lt_of_le_of_lt (Nat.mod_le _ _) (BitVec.isLt _)

/-- The call on the emulating CPU wastes the delay if it is made, and counts either way. -/
theorem account_smpCall {cpu : Nat} {delayNs : BitVec 64} {world : World}
    (account : Account known calls delays world) :
    UnderEvents machine
      (fun _ => Account known (calls + 1)
        (delaysAfter (machine.answer calls (.smpCallFunctionSingle cpu) == 0) delayNs cpu
          delays))
      (smpCallFunctionSingle cpu (emulateNvmFunc delayNs)) world := by
  apply Guarded.access _ account_stable account
  intro later account ready
  refine ⟨trivial, ?_⟩
  have answer : (machine.device.exec (.kernel (.smpCallFunctionSingle cpu)) later).1 =
      machine.answer calls (.smpCallFunctionSingle cpu) := by
    rw [← account.calls]
    rfl
  have counted : Account known (calls + 1) delays
      (machine.device.exec (.kernel (.smpCallFunctionSingle cpu)) later).2 :=
    ⟨account.known, congrArg (· + 1) account.calls, account.delays⟩
  rw [answer, Program.ret_bind]
  by_cases called : machine.answer calls (.smpCallFunctionSingle cpu) = 0
  · rw [if_pos called, called]
    apply Guarded.access _ account_stable counted
    intro last counted ready
    have wasted : Account known (calls + 1) (delaysAfter true delayNs cpu delays)
        (machine.device.exec (.udelay cpu (delayNs / 1000)) last).2 :=
      ⟨counted.known, counted.calls, congrArg (_ :: ·) counted.delays⟩
    exact ⟨trivial, .ret account_stable wasted⟩
  · have missed : (machine.answer calls (.smpCallFunctionSingle cpu) == 0) = false :=
      beq_eq_false_iff_ne.mpr called
    rw [if_neg called, missed]
    exact .ret account_stable counted

end Tick

/-- The parameters that `start_emulate_nvm` sets and a tick reads. -/
def Parameters (state : Globals) : Prop :=
  state.readLatencyDeltaNs = 200 ∧ state.emulateNvmCpu = 0

/-- A tick reads a 48-bit count and wastes its delay, unless its call fails. -/
theorem tick_account (counting : CountingBox box) {calls : Nat}
    {delays : List (Nat × BitVec 64)} {world : World}
    (account : Account Parameters calls delays world) :
    UnderEvents machine
      (fun _ later => later.globals.procCounts.toNat < 2 ^ 48 ∧
        Account Parameters (calls + 1)
          (delaysAfter (machine.answer calls (.smpCallFunctionSingle 0) == 0)
            (countsToDelayNs 200 later.globals.procCounts) 0 delays) later)
      (emulateNvmHrtimer box) world := by
  apply Guarded.bind (account_onBox _ account)
  intro _ world account
  apply Guarded.bind (account_readCounter counting account)
  rintro counts world ⟨narrow, account⟩
  -- From here on the count that was read is in the globals.
  let noted : Globals → Prop := fun state => Parameters state ∧ state.procCounts = counts
  apply Guarded.access _ account_stable account
  intro world account ready
  refine ⟨trivial, ?_⟩
  have written : Account noted calls delays
      (machine.device.exec (.assign fun state => { state with procCounts := counts })
        world).2 :=
    ⟨⟨account.known, rfl⟩, account.calls, account.delays⟩
  apply Guarded.access _ account_stable written
  intro world account ready
  refine ⟨trivial, ?_⟩
  have delta : world.globals.readLatencyDeltaNs = 200 := account.known.1.1
  have cpu : world.globals.emulateNvmCpu = 0 := account.known.1.2
  show UnderEvents machine _ ((smpCallFunctionSingle world.globals.emulateNvmCpu
    (emulateNvmFunc (countsToDelayNs world.globals.readLatencyDeltaNs counts))).bind _) world
  rw [delta, cpu]
  apply Guarded.bind (account_smpCall account)
  intro _ world account
  apply Guarded.bind (account_onBox _ account)
  intro _ world account
  apply Guarded.bind (account_onBox _ account)
  intro _ world account
  apply Guarded.access _ account_stable account
  intro world account ready
  have done : UnderEvents machine (fun _ => Account noted (calls + 1)
      (delaysAfter (machine.answer calls (.smpCallFunctionSingle 0) == 0)
        (countsToDelayNs 200 counts) 0 delays)) (.ret HrtimerRestart.restart)
      (machine.device.exec (.assign fun state =>
        { state with hrtimerJiffies := state.hrtimerJiffies + 1 }) world).2 :=
    .ret account_stable ⟨account.known, account.calls, account.delays⟩
  refine ⟨trivial, done.mono ?_⟩
  intro _ later account
  have same : later.globals.procCounts = counts := account.known.2
  rw [same]
  exact ⟨narrow, account.known.1, account.calls, account.delays⟩

/-! ## Loading -/

/-- No event changes a global. -/
theorem globals_stable (known : Globals → Prop) :
    Stable Arrives fun world => known world.globals := by
  intro before after moves holds
  cases moves with
  | event other room => exact holds

/-- An assignment to globals, in a program under events. -/
theorem underEvents_assign (known sets : Globals → Prop) {α : Type}
    {post : α → World → Prop} {update : Globals → Globals}
    {follow : Unit → UncoreProgram α} {world : World}
    (assigns : ∀ state, known state → sets (update state)) (holds : known world.globals)
    (rest : ∀ later, sets later.globals → UnderEvents machine post (follow ()) later) :
    UnderEvents machine post ((assign update).bind follow) world := by
  apply Guarded.access _ (globals_stable known) holds
  intro later holds ready
  exact ⟨trivial, rest _ (assigns later.globals holds)⟩

/-- `start_emulate_nvm` has set the parameters and, if it says so, found its boxes. -/
structure Loaded (world : World) : Prop where
  parameters : Parameters world.globals
  box : world.globals.emulationStarted = true →
    ∃ box, world.globals.haBox1 = some box ∧ CountingBox box

/-- The parameters are set, and the emulation is not started yet. -/
def Configured (world : World) : Prop :=
  Parameters world.globals ∧ world.globals.emulationStarted = false

theorem configured_stable : Stable Arrives Configured :=
  globals_stable fun state => Parameters state ∧ state.emulationStarted = false

theorem loaded_stable : Stable Arrives Loaded := by
  intro before after moves loaded
  cases moves with
  | event other room => exact ⟨loaded.parameters, loaded.box⟩

theorem Configured.loaded {world : World} (configured : Configured world) : Loaded world :=
  ⟨configured.1, fun started => absurd (configured.2.symm.trans started) (by decide)⟩

/-- An access that leaves alone what `start_emulate_nvm` sets first and last. -/
def Unset (machine : Machine) (op : UncoreOp) : Prop :=
  ∀ world, Configured world → Configured (machine.exec op world).2

theorem configured_guarded {α : Type} {program : UncoreProgram α} {world : World}
    (makes : program.Makes (Unset machine)) (configured : Configured world) :
    UnderEvents machine (fun _ => Configured) program world :=
  Guarded.of_makes makes configured_stable
    (fun _ unset world configured _ => ⟨trivial, unset world configured⟩) configured

/-- The first accesses set the parameters. -/
theorem setEmulateParameters_configured {world : World}
    (fresh : world.globals.emulationStarted = false) :
    UnderEvents machine (fun _ => Configured) (setEmulateParameters machine) world := by
  let delta : Globals → Prop := fun state =>
    state.readLatencyDeltaNs = 200 ∧ state.emulationStarted = false
  let both : Globals → Prop := fun state =>
    Parameters state ∧ state.emulationStarted = false
  refine underEvents_assign (·.emulationStarted = false) delta ?_ fresh ?_
  · intro _ fresh
    exact ⟨rfl, fresh⟩
  intro world half
  refine underEvents_assign delta both ?_ half ?_
  · intro _ half
    exact ⟨⟨half.1, rfl⟩, half.2⟩
  intro world configured
  refine underEvents_assign both both (fun _ set => set) configured ?_
  intro world configured
  apply Guarded.access _ configured_stable configured
  intro world configured ready
  exact ⟨trivial, .ret configured_stable configured⟩

/-- Whatever `start_emulate_nvm` comes to, it has set the parameters; once it has
started the emulation, a home-agent box is polled. -/
theorem startEmulateNvm_loaded {world : World}
    (fresh : world.globals.emulationStarted = false) :
    UnderEvents machine (fun _ => Loaded) (startEmulateNvm machine) world := by
  have quits : ∀ {program : UncoreProgram Unit}, program.Makes (Unset machine) →
      ∀ {world : World}, Configured world →
        UnderEvents machine (fun _ => Loaded) program world :=
    fun makes _ configured =>
      (configured_guarded makes configured).mono fun _ _ => Configured.loaded
  have nothing : (Program.ret () : UncoreProgram Unit).Makes (Unset machine) := trivial
  have remove : emulateNvmProcRemove.Makes (Unset machine) :=
    makes_emulateNvmProcRemove (fun _ configured => configured) fun _ configured => configured
  have restore : (restorePlatformConfiguration machine).Makes (Unset machine) :=
    makes_restorePlatformConfiguration (fun _ configured => configured)
      (fun _ _ _ configured => configured) fun _ _ configured => configured
  apply startEmulateNvm_stages (setEmulateParameters_configured fresh)
  · intro world configured
    exact configured_guarded (makes_emulateNvmProcCreate
      (fun _ configured => configured) fun _ configured => configured) configured
  · intro _ world _ configured
    exact quits nothing configured
  · intro world configured
    exact configured_guarded (makes_preparePlatformConfiguration
      (fun _ configured => configured) (fun _ _ _ configured => configured)
      fun _ _ configured => configured) configured
  · intro _ world _ configured
    exact quits remove configured
  · intro world configured
    exact configured_guarded
      (makes_startEmulateBandwidth fun _ _ _ configured => configured) configured
  · intro _ world _ configured
    exact quits (restore.bind fun _ => remove) configured
  · intro world configured
    exact (start_underEvents machine world).both (configured_guarded
      (makes_startEmulateLatency (fun _ _ _ configured => configured)
        (fun _ configured => configured) (fun _ _ _ configured => configured)
        (fun _ _ configured => configured) (fun _ _ _ configured => configured)
        (fun _ _ configured => configured) fun _ configured => configured) configured)
  · rintro _ world _ ⟨-, configured⟩
    exact quits ((makes_finishEmulateBandwidth fun _ _ _ configured => configured).bind
      fun _ => restore.bind fun _ => remove) configured
  · rintro world ⟨found, configured⟩
    obtain ⟨box, chosen, counting, -⟩ := found rfl
    let polled : Globals → Prop := fun state =>
      Parameters state ∧ state.haBox1 = some box
    apply Guarded.access _ (globals_stable polled) ⟨configured.1, chosen⟩
    intro world polled ready
    have loaded : Loaded (machine.device.exec
        (.assign fun state => { state with emulationStarted := true }) world).2 :=
      ⟨polled.1, fun _ => ⟨box, polled.2, counting⟩⟩
    exact ⟨trivial, .ret loaded_stable loaded⟩

/-! ## Runs -/

/-- The nanoseconds wasted on the emulating CPU since the start, less those that the
counts read since then stand for. -/
def drift (started after : World) (counts : List (BitVec 64)) : Int :=
  (delayedNs started.globals.emulateNvmCpu after : Int) -
    delayedNs started.globals.emulateNvmCpu started -
    started.globals.readLatencyDeltaNs.toNat * (counts.map BitVec.toNat).sum

theorem outcomes_succ (started : World) (ticks : Nat) :
    outcomes machine started (ticks + 1) = outcomes machine started ticks ++
      [machine.answer (started.calls + ticks)
        (.smpCallFunctionSingle started.globals.emulateNvmCpu) == 0] := by
  rw [outcomes, List.range_succ, List.map_append]
  rfl

theorem length_outcomes (started : World) (ticks : Nat) :
    (outcomes machine started ticks).length = ticks := by
  rw [outcomes, List.length_map, List.length_range]

theorem leftover_concat {counts : List (BitVec 64)} {called : List Bool}
    (paired : counts.length = called.length) (last : BitVec 64) (success : Bool) :
    leftover (counts ++ [last]) (called ++ [success]) =
      leftover counts called + undelivered last success := by
  rw [leftover, List.zipWith_append paired, List.sum_append]
  rfl

/-- What is wasted and what is left over make up what was counted, tick by tick. -/
theorem Ticks.account (counting : CountingBox box) {started after : World}
    {counts : List (BitVec 64)} (ticks : Ticks machine box started counts after)
    (parameters : Parameters started.globals) :
    (∀ count ∈ counts, count.toNat < 2 ^ 48) ∧
      Account Parameters (started.calls + counts.length) after.delays after ∧
      delayedNs 0 after + 200 * leftover counts (outcomes machine started counts.length) =
        delayedNs 0 started + 200 * (counts.map BitVec.toNat).sum := by
  induction ticks with
  | none moves =>
      have start : Account Parameters started.calls started.delays started :=
        ⟨parameters, rfl, rfl⟩
      have later := account_stable.star moves start
      refine ⟨fun _ mem => absurd mem List.not_mem_nil, ⟨later.known, later.calls, rfl⟩, ?_⟩
      rw [delayedNs, later.delays]
      rfl
  | @tick middle after counts earlier completes ih =>
      obtain ⟨narrow, account, balance⟩ := ih
      have ticked := (tick_account counting account).completes (fun _ _ moves => moves)
        completes
      obtain ⟨last, account'⟩ := ticked
      have cpu : started.globals.emulateNvmCpu = 0 := parameters.2
      have step := delayedNs_delaysAfter last _ 0 account'.delays
      have paired : counts.length = (outcomes machine started counts.length).length :=
        (length_outcomes _ _).symm
      have length : (counts ++ [after.globals.procCounts]).length = counts.length + 1 :=
        List.length_append
      refine ⟨?_, ⟨account'.known, ?_, rfl⟩, ?_⟩
      · intro count mem
        rcases List.mem_append.mp mem with old | new
        · exact narrow count old
        · rw [List.mem_singleton.mp new]
          exact last
      · rw [account'.calls, length, Nat.add_assoc]
      · rw [length, outcomes_succ, leftover_concat paired, List.map_append, List.sum_append, cpu]
        simp only [List.map_cons, List.map_nil, List.sum_cons, List.sum_nil]
        omega

/-- No product wraps; and after any number of ticks the time wasted is less than a
microsecond off if and only if less than a microsecond's worth of reads was left over:
those beyond a multiple of five at each tick whose call succeeded, and all of them at
each tick whose call failed. -/
theorem drift_lt_iff (machine : Machine) {before started after : World} {box : UncoreBox}
    {counts : List (BitVec 64)} (fresh : before.globals.emulationStarted = false)
    (starts : Completes machine.device Arrives (startEmulateNvm machine) before () started)
    (success : started.globals.emulationStarted = true)
    (chosen : started.globals.haBox1 = some box)
    (ticks : Ticks machine box started counts after) :
    (∀ count ∈ counts,
      (countsToDelayNs started.globals.readLatencyDeltaNs count).toNat =
        count.toNat * started.globals.readLatencyDeltaNs.toNat) ∧
      ((drift started after counts).natAbs < 1000 ↔
        leftover counts (outcomes machine started counts.length) < 5) := by
  obtain ⟨parameters, found⟩ := (startEmulateNvm_loaded fresh).completes
    (fun _ _ moves => moves) starts
  obtain ⟨other, same, counting⟩ := found success
  obtain rfl : other = box := by
    rw [chosen] at same
    exact (Option.some.inj same).symm
  obtain ⟨narrow, -, balance⟩ := ticks.account counting parameters
  obtain ⟨delta, cpu⟩ := parameters
  constructor
  · intro count mem
    rw [delta]
    exact countsToDelayNs_toNat (narrow count mem)
  · have value : (200 : BitVec 64).toNat = 200 := rfl
    rw [drift, delta, cpu, value]
    omega

/-! ### Two sockets -/

/-- So many reads, then a tick. -/
def readsThenTick (reads : Nat) (world : World) : World :=
  ranAlone (emulateNvmHrtimer (haBox 1)) (oneRead^[reads] world)

/-- The emulation has started on two sockets. -/
def agentsWorld : World := ranAlone (startEmulateNvm twoAgents) quietWorld

theorem agentsWorld_starts :
    Completes twoAgents.device Arrives (startEmulateNvm twoAgents) quietWorld ()
      agentsWorld :=
  reaches_run (startEmulateNvm_ready twoAgents) quietWorld

theorem arrives_oneRead (reads : Nat) {world : World}
    (room : (world.units (haBox 1)).window + reads < 2 ^ 48) :
    ReflTransGen Arrives world (oneRead^[reads] world) := by
  induction reads generalizing world with
  | zero => exact .refl
  | succ reads ih =>
      have next : ((oneRead world).units (haBox 1)).window ≤
          (world.units (haBox 1)).window + 1 := by
        have moved : (oneRead world).units (haBox 1) =
            (world.units (haBox 1)).arrive (haBox 1) :=
          Function.update_self (haBox 1) _ world.units
        rw [moved, PmonUnit.arrive]
        split
        · exact Nat.le_refl _
        · exact Nat.le_succ _
      rw [Function.iterate_succ_apply]
      have first : Arrives world (oneRead world) := .event (haBox 1) world (by omega)
      exact .head first (ih (by omega))

theorem Ticks.readsThenTick {started world : World} {counts : List (BitVec 64)}
    (ticks : Ticks twoAgents (haBox 1) started counts world) (reads : Nat)
    (room : (world.units (haBox 1)).window + reads < 2 ^ 48) :
    Ticks twoAgents (haBox 1) started
      (counts ++ [(Emulate.readsThenTick reads world).globals.procCounts])
      (Emulate.readsThenTick reads world) := by
  have ready : (emulateNvmHrtimer (haBox 1)).Makes
      fun op => ∀ state, twoAgents.device.ready op state :=
    makes_emulateNvmHrtimer (fun _ _ => trivial) (fun _ => trivial) (fun _ _ => trivial)
      (fun _ => trivial) (fun _ _ => trivial) (fun _ _ _ => trivial)
  exact .tick ticks (Completes.of_env (arrives_oneRead reads room)
    (reaches_run ready _))

/-- Five reads are delivered whole. -/
theorem drift_lt_iff_fiveReads :
    let after := readsThenTick 5 agentsWorld
    (∀ count ∈ [after.globals.procCounts],
      (countsToDelayNs agentsWorld.globals.readLatencyDeltaNs count).toNat =
        count.toNat * agentsWorld.globals.readLatencyDeltaNs.toNat) ∧
      ((drift agentsWorld after [after.globals.procCounts]).natAbs < 1000 ↔
        leftover [after.globals.procCounts] (outcomes twoAgents agentsWorld 1) < 5) := by
  intro after
  have ticks : Ticks twoAgents (haBox 1) agentsWorld ([] ++ [after.globals.procCounts]) after :=
    Ticks.readsThenTick (.none .refl) 5 (by decide +kernel)
  exact drift_lt_iff twoAgents rfl agentsWorld_starts rfl rfl ticks

/-- Two ticks that count four reads each waste nothing, though both calls succeed: they
are 1600 ns short. -/
theorem drift_fourAndFour :
    let middle := readsThenTick 4 agentsWorld
    let after := readsThenTick 4 middle
    Completes twoAgents.device Arrives (startEmulateNvm twoAgents) quietWorld ()
        agentsWorld ∧
      quietWorld.globals.emulationStarted = false ∧
      agentsWorld.globals.emulationStarted = true ∧
      agentsWorld.globals.haBox1 = some (haBox 1) ∧
      Ticks twoAgents (haBox 1) agentsWorld [4, 4] after ∧
      outcomes twoAgents agentsWorld 2 = [true, true] ∧
      drift agentsWorld after [4, 4] = -1600 ∧
      ¬ (drift agentsWorld after [4, 4]).natAbs < 1000 := by
  intro middle after
  have first : middle.globals.procCounts = 4 := by decide +kernel
  have second : after.globals.procCounts = 4 := by decide +kernel
  have once : Ticks twoAgents (haBox 1) agentsWorld ([] ++ [middle.globals.procCounts])
      middle := Ticks.readsThenTick (.none .refl) 4 (by decide +kernel)
  have twice : Ticks twoAgents (haBox 1) agentsWorld
      (([] ++ [middle.globals.procCounts]) ++ [after.globals.procCounts]) after :=
    once.readsThenTick 4 (by decide +kernel)
  rw [first, second] at twice
  have short : drift agentsWorld after [4, 4] = -1600 := by decide +kernel
  refine ⟨agentsWorld_starts, rfl, by decide +kernel, by decide +kernel, twice, rfl, short, ?_⟩
  rw [short]
  decide

end NvmEmulator.Emulate
