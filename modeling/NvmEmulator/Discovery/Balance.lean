/-
# What a failed or finished loading leaves behind

`uncore_init` undoes what it did when a part of it fails, and `uncore_exit` undoes what
a successful one did. The objects are always freed, each once. The references are not:
where the allocation of a PCI box or of a memory channel fails, the loop is left with
the reference of `pci_get_device` and the driver's own, and no list holds the device
yet. `hswep_pcibus_to_nodeid`, which leaves its loop the same way, drops the first.
-/

import NvmEmulator.Discovery.Accounts

namespace NvmEmulator.Discovery

open NvmEmulator.Kernel NvmEmulator.Semantics NvmEmulator.Uncore

/-! ## The account closed -/

/-- No memory channel is listed. -/
def ImcClosed (driver : Driver) : Prop := driver.uncoreImcDevices = []

/-- No MSR box is listed. -/
def MsrClosed (driver : Driver) : Prop := ∀ type, (driver.msrBoxes type).boxList = []

/-- No PCI box is listed. -/
def PciClosed (driver : Driver) : Prop := ∀ type, (driver.pciBoxes type).boxList = []

/-- An account whose cleanup functions know their lists. -/
structure Open (krefs : PciDev → Int) (loose : List PciDev) (driver : Driver) : Prop extends
    Accounted krefs loose driver where
  pci : driver.uncorePciType = pciTypes ∨ PciClosed driver
  msr : driver.uncoreMsrType = msrTypes ∨ MsrClosed driver

/-- Every object was freed once, and every device of the machine has the references it
had. -/
structure Balanced (host : Host) (krefs : PciDev → Int) (driver : Driver) : Prop where
  freedOnce : ∀ address ∈ driver.allocated, driver.freed.count address = 1
  freedOnly : ∀ address ∈ driver.freed, address ∈ driver.allocated
  krefs : ∀ pdev ∈ host.bus.devices, driver.krefs pdev = krefs pdev

section Closed

variable {krefs : PciDev → Int} {loose : List PciDev} {driver : Driver}

theorem live_of_closed (imc : ImcClosed driver) (msr : MsrClosed driver)
    (pci : PciClosed driver) : driver.live = [] := by
  have noPci : (pciTypes.flatMap fun type => addresses (driver.pciBoxes type).boxList) = [] :=
    List.flatMap_eq_nil_iff.mpr fun type _ => congrArg addresses (pci type)
  have noMsr : (msrTypes.flatMap fun type => addresses (driver.msrBoxes type).boxList) = [] :=
    List.flatMap_eq_nil_iff.mpr fun type _ => congrArg addresses (msr type)
  have noImc : addresses driver.uncoreImcDevices = [] := congrArg addresses imc
  rw [Driver.live, noPci, noMsr, noImc]
  rfl

theorem held_of_closed (imc : ImcClosed driver) (pci : PciClosed driver) :
    driver.held = [] := by
  have noPci : (pciTypes.flatMap fun type => boxDevices (driver.pciBoxes type).boxList) = [] :=
    List.flatMap_eq_nil_iff.mpr fun type _ => congrArg boxDevices (pci type)
  have noImc : (driver.uncoreImcDevices.map fun slab => slab.object.pdev) = [] :=
    congrArg (List.map fun slab : Slab UncoreImc => slab.object.pdev) imc
  rw [Driver.held, noPci, noImc]
  rfl

/-- With nothing on a list, the loose references are what is missing. -/
theorem Accounted.balanced_iff {host : Host} (accounted : Accounted krefs loose driver)
    (imc : ImcClosed driver) (msr : MsrClosed driver) (pci : PciClosed driver)
    (known : ∀ pdev ∈ loose, pdev ∈ host.bus.devices) :
    Balanced host krefs driver ↔ loose = [] := by
  have count : ∀ address, driver.freed.count address = driver.allocated.count address := by
    intro address
    have objects := accounted.objects address
    rw [live_of_closed imc msr pci] at objects
    exact objects
  have refs : ∀ pdev, driver.krefs pdev = krefs pdev + loose.count pdev := by
    intro pdev
    have total := accounted.krefs pdev
    rw [held_of_closed imc pci, List.count_nil] at total
    omega
  constructor
  · intro balanced
    apply List.eq_nil_iff_forall_not_mem.mpr
    intro pdev here
    have same := balanced.krefs pdev (known pdev here)
    have some := List.count_pos_iff.mpr here
    have total := refs pdev
    omega
  · intro nothing
    refine ⟨?_, ?_, ?_⟩
    · intro address here
      rw [count]
      exact List.count_eq_one_of_mem accounted.nodup here
    · intro address here
      apply List.count_pos_iff.mp
      rw [← count]
      exact List.count_pos_iff.mpr here
    · intro pdev _
      rw [refs, nothing]
      exact add_zero _

/-- An account of a driver that has no object and no loose reference. -/
theorem accounted_of_unused (imc : ImcClosed driver) (msr : MsrClosed driver)
    (pci : PciClosed driver) (refs : driver.krefs = krefs) (allocated : driver.allocated = [])
    (freed : driver.freed = []) : Accounted krefs [] driver where
  krefs pdev := by
    simp [held_of_closed imc pci, refs]
  objects address := by
    rw [live_of_closed imc msr pci, allocated, freed]
    rfl
  nodup := by
    rw [allocated]
    exact List.nodup_nil
  fresh address here := by
    rw [allocated] at here
    exact absurd here List.not_mem_nil

end Closed

/-! ## The cleanup functions -/

/-- A cleanup loop keeps what each of its rounds keeps. -/
theorem popAll_induct {α : Type} {setList : Driver → List (Slab α) → Driver}
    {release : Slab α → Driver → Driver} (holds : List (Slab α) → Driver → Prop)
    (round : ∀ slab rest driver, holds (slab :: rest) driver →
      holds rest (release slab (setList driver rest)))
    {list : List (Slab α)} {driver : Driver} (start : holds list driver) :
    holds [] (popAll setList release list driver) := by
  induction list generalizing driver with
  | nil => exact start
  | cons slab rest ih => exact ih (round slab rest driver start)

section Exit

variable {ι : Type} [DecidableEq ι] (lists : Driver → ι → List (Slab UncoreBox))
  (setList : ι → Driver → List (Slab UncoreBox) → Driver)
  (release : Slab UncoreBox → Driver → Driver) (kept : Driver → Prop)

/-- The cleanup of an array of types empties the lists of its types. -/
theorem foldl_popAll
    (keeps : ∀ type slab rest driver, kept driver → lists driver type = slab :: rest →
      kept (release slab (setList type driver rest)))
    (pops : ∀ type slab rest driver,
      lists (release slab (setList type driver rest)) = Function.update (lists driver) type rest)
    {types : List ι} {driver : Driver} (start : kept driver)
    (others : ∀ type, type ∉ types → lists driver type = []) :
    kept (types.foldl
        (fun driver type => popAll (setList type) release (lists driver type) driver) driver) ∧
      ∀ type, lists (types.foldl
        (fun driver type => popAll (setList type) release (lists driver type) driver) driver)
          type = [] := by
  induction types generalizing driver with
  | nil => exact ⟨start, fun type => others type List.not_mem_nil⟩
  | cons type rest ih =>
      have popped : kept (popAll (setList type) release (lists driver type) driver) ∧
          lists (popAll (setList type) release (lists driver type) driver) =
            Function.update (lists driver) type [] := by
        apply popAll_induct fun list now =>
          kept now ∧ lists now = Function.update (lists driver) type list
        · intro slab later now here
          have first : lists now type = slab :: later := by
            rw [here.2, Function.update_self]
          refine ⟨keeps type slab later now here.1 first, ?_⟩
          rw [pops, here.2, Function.update_idem]
        · exact ⟨start, (Function.update_eq_self type (lists driver)).symm⟩
      apply ih popped.1
      intro other apart
      rw [popped.2]
      by_cases same : other = type
      · rw [same, Function.update_self]
      · rw [Function.update_of_ne same]
        exact others other fun listed => (List.mem_cons.mp listed).elim same apart

end Exit

theorem boxList_update {ι : Type} [DecidableEq ι] (boxes : ι → BoxList) (type : ι)
    (list : BoxList) :
    (fun other => (Function.update boxes type list other).boxList) =
      Function.update (fun other => (boxes other).boxList) type list.boxList := by
  funext other
  by_cases same : other = type
  · rw [same, Function.update_self, Function.update_self]
  · rw [Function.update_of_ne same, Function.update_of_ne same]

section Exits

variable {krefs : PciDev → Int} {loose : List PciDev} {driver : Driver}

/-- `uncore_imc_exit` empties the channel list. -/
theorem open_uncoreImcExit (opened : Open krefs loose driver) :
    Open krefs loose (uncoreImcExit driver) ∧ ImcClosed (uncoreImcExit driver) := by
  apply popAll_induct fun list now => Open krefs loose now ∧ now.uncoreImcDevices = list
  · intro slab rest now here
    exact ⟨⟨here.1.freeImcDevice here.2, here.1.pci, here.1.msr⟩, rfl⟩
  · exact ⟨opened, rfl⟩

/-- `uncore_cpu_exit` empties the MSR lists. -/
theorem open_uncoreCpuExit (opened : Open krefs loose driver) (imc : ImcClosed driver) :
    Open krefs loose (uncoreCpuExit driver) ∧ ImcClosed (uncoreCpuExit driver) ∧
      MsrClosed (uncoreCpuExit driver) := by
  have others : ∀ type, type ∉ driver.uncoreMsrType → (driver.msrBoxes type).boxList = [] := by
    intro type apart
    rcases opened.msr with types | closed
    · rw [types] at apart
      exact absurd (mem_msrTypes type) apart
    · exact closed type
  have emptied := foldl_popAll (fun driver type => (driver.msrBoxes type).boxList)
    (fun type driver => driver.setMsrBoxList type) (fun slab => Driver.kfree slab.address)
    (fun driver => Accounted krefs loose driver ∧
      (driver.uncorePciType = pciTypes ∨ PciClosed driver) ∧ ImcClosed driver)
    (fun type slab rest driver kept list => ⟨kept.1.freeMsrBox list, kept.2⟩)
    (fun type slab rest driver => boxList_update driver.msrBoxes type _)
    ⟨opened.toAccounted, opened.pci, imc⟩ others
  exact ⟨⟨emptied.1.1, emptied.1.2.1, Or.inr emptied.2⟩, emptied.1.2.2, emptied.2⟩

theorem pciBoxes_pciDevPut (pdev : Option PciDev) (driver : Driver) :
    (driver.pciDevPut pdev).pciBoxes = driver.pciBoxes := by
  cases pdev <;> rfl

/-- `uncore_pci_exit` empties the PCI lists. -/
theorem open_uncorePciExit (opened : Open krefs loose driver) (imc : ImcClosed driver)
    (msr : MsrClosed driver) :
    Open krefs loose (uncorePciExit driver) ∧ ImcClosed (uncorePciExit driver) ∧
      MsrClosed (uncorePciExit driver) ∧ PciClosed (uncorePciExit driver) := by
  have others : ∀ type, type ∉ driver.uncorePciType → (driver.pciBoxes type).boxList = [] := by
    intro type apart
    rcases opened.pci with types | closed
    · rw [types] at apart
      exact absurd (mem_pciTypes type) apart
    · exact closed type
  have emptied := foldl_popAll (fun driver type => (driver.pciBoxes type).boxList)
    (fun type driver => driver.setPciBoxList type)
    (fun slab driver => (driver.pciDevPut slab.object.pdev).kfree slab.address)
    (fun driver => Accounted krefs loose driver ∧ ImcClosed driver ∧ MsrClosed driver)
    (by
      intro type slab rest driver kept list
      refine ⟨kept.1.freePciBox list, ?_⟩
      cases slab.object.pdev <;> exact kept.2)
    (by
      intro type slab rest driver
      have same := pciBoxes_pciDevPut slab.object.pdev (driver.setPciBoxList type rest)
      rw [Driver.kfree]
      dsimp only
      rw [same]
      exact boxList_update driver.pciBoxes type _)
    ⟨opened.toAccounted, imc, msr⟩ others
  exact ⟨⟨emptied.1.1, Or.inr emptied.2, Or.inr emptied.1.2.2⟩, emptied.1.2.1, emptied.1.2.2,
    emptied.2⟩

end Exits

/-! ## What the allocations decide -/

namespace Host

variable (host : Host)

/-- The boxes of an MSR type: `hswep_cpu_init` leaves no more C-boxes than cores. -/
def msrBoxCount (type : MsrBoxType) : Nat :=
  if type = .cbox then min type.boxType.numBoxes host.x86MaxCores else type.boxType.numBoxes

/-- How many PCI boxes the machine asks for. -/
def pciObjects : Nat := (host.bus.found (untilZeroIds hswepUncorePciIds)).length

/-- How many MSR boxes the machine asks for. -/
def msrObjects : Nat := (msrTypes.map host.msrBoxCount).sum

/-- How many memory channels the machine asks for. -/
def imcObjects : Nat := (host.bus.found (untilZeroVendor hswepE5Imc)).length

/-- The calls of `kzalloc` from one on find memory. -/
def Grants (first count : Nat) : Prop := ∀ n < count, host.kzalloc (first + n) = true

/-- The loops are reached: the processor is known and the bus mapping succeeds. -/
def Begins : Prop := host.x86Model = 63 ∧ host.Mapped

/-- No allocation of a PCI box or of a memory channel is refused: if the loops are
reached, every PCI box gets memory, and then, if every MSR box does, every channel. -/
def Spares : Prop :=
  host.Begins → host.Grants 0 host.pciObjects ∧
    (host.Grants host.pciObjects host.msrObjects →
      host.Grants (host.pciObjects + host.msrObjects) host.imcObjects)

end Host

/-- The account while the allocations succeed: `n` of them so far. -/
structure Going (host : Host) (krefs : PciDev → Int) (loose : List PciDev) (n : Nat)
    (driver : Driver) : Prop extends Accounted krefs loose driver where
  calls : driver.kzallocCalls = n
  memory : ∀ k < n, host.kzalloc k = true

/-- After a refusal: `loose` is empty if that was harmless, and lists are as `closed`
says. -/
def Undone (host : Host) (krefs : PciDev → Int) (closed : Driver → Prop) (driver : Driver) :
    Prop :=
  ∃ loose, (∀ pdev ∈ loose, pdev ∈ host.bus.devices) ∧ (loose = [] ↔ host.Spares) ∧
    Open krefs loose driver ∧ closed driver

section Rounds

variable {host : Host} {krefs : PciDev → Int}

theorem Going.getDevice {loose : List PciDev} {n : Nat} {driver : Driver}
    (going : Going host krefs loose n driver) (pdev : PciDev) :
    Going host krefs (pdev :: loose) n (driver.getDevice pdev) :=
  ⟨going.toAccounted.getDevice pdev, going.calls, going.memory⟩

theorem Going.pciDevPut {loose : List PciDev} {n : Nat} {pdev : PciDev} {driver : Driver}
    (going : Going host krefs (pdev :: loose) n driver) :
    Going host krefs loose n (driver.pciDevPut (some pdev)) :=
  ⟨going.toAccounted.pciDevPut, going.calls, going.memory⟩

/-- One more object. -/
theorem Going.succ {loose loose' : List PciDev} {n : Nat} {driver added : Driver}
    (going : Going host krefs loose n driver) (accounted : Accounted krefs loose' added)
    (calls : added.kzallocCalls = driver.kzallocCalls + 1)
    (memory : host.kzalloc driver.kzallocCalls = true) :
    Going host krefs loose' (n + 1) added where
  toAccounted := accounted
  calls := by rw [calls, going.calls]
  memory k bound := by
    rcases Nat.lt_succ_iff_lt_or_eq.mp bound with earlier | last
    · exact going.memory k earlier
    · rw [last, ← going.calls]
      exact memory

/-- A round over a device: if there is memory the loop goes on with no loose reference,
and if not the round leaves both its references. -/
theorem meets_round {n : Nat} {pdev : PciDev} {body : PciDev → Call Driver}
    {add : Nat → Driver → Driver} {frame : Driver → Prop}
    (round : ∀ driver, frame driver → body pdev driver =
      ((Call.act (Driver.getDevice pdev)).andThen (newObject host add)) driver)
    (adds : ∀ driver, Accounted krefs [pdev, pdev] driver →
      Accounted krefs [pdev] (add driver.kzallocCalls driver.granted))
    (calls : ∀ address driver, (add address driver).kzallocCalls = driver.kzallocCalls)
    (get : ∀ driver, frame driver → frame (driver.getDevice pdev))
    (put : ∀ driver, frame driver → frame (driver.pciDevPut (some pdev)))
    (added : ∀ address driver, frame driver → frame (add address driver.granted))
    (refused : ∀ driver, frame driver → frame driver.refused) :
    Call.Meets (fun driver => Going host krefs [] n driver ∧ frame driver) (visit body pdev)
      (fun driver => Going host krefs [] (n + 1) driver ∧ frame driver)
      (fun driver => Accounted krefs [pdev, pdev] driver ∧ frame driver ∧
        host.kzalloc n = false) := by
  apply Call.Meets.andThen fun driver => Going host krefs [pdev] n driver ∧ frame driver
  · exact .act fun driver here => ⟨here.1.getDevice pdev, get driver here.2⟩
  · apply Call.Meets.andThen fun driver => Going host krefs [pdev] (n + 1) driver ∧ frame driver
    · apply Call.Meets.congr _ fun driver here => round driver here.2
      apply Call.Meets.andThen fun driver => Going host krefs [pdev, pdev] n driver ∧ frame driver
      · exact .act fun driver here => ⟨here.1.getDevice pdev, get driver here.2⟩
      · apply meets_newObject
        · intro driver here memory
          exact ⟨here.1.succ (adds driver here.1.toAccounted) (calls _ _) memory,
            added _ driver here.2⟩
        · intro driver here memory
          rw [here.1.calls] at memory
          exact ⟨here.1.toAccounted.refused, refused driver here.2, memory⟩
    · exact .act fun driver here => ⟨here.1.pciDevPut, put driver here.2⟩

/-- The loop over the devices found: all of them get an object, or one is refused. -/
theorem meets_rounds {pairs : List (PciDeviceId × PciDev)} {first : Nat}
    (body : PciDeviceId → PciDev → Call Driver) {frame : Driver → Prop}
    (rounds : ∀ pair ∈ pairs, ∀ n,
      Call.Meets (fun driver => Going host krefs [] n driver ∧ frame driver)
        (visit (body pair.1) pair.2)
        (fun driver => Going host krefs [] (n + 1) driver ∧ frame driver)
        (fun driver => Accounted krefs [pair.2, pair.2] driver ∧ frame driver ∧
          host.kzalloc n = false)) :
    Call.Meets (fun driver => Going host krefs [] first driver ∧ frame driver)
      (Call.each (fun pair => visit (body pair.1) pair.2) pairs)
      (fun driver => Going host krefs [] (first + pairs.length) driver ∧ frame driver)
      (fun driver => (∃ pair ∈ pairs, Accounted krefs [pair.2, pair.2] driver) ∧ frame driver ∧
        ¬ host.Grants first pairs.length) := by
  apply Call.Meets.each fun earlier driver =>
    Going host krefs [] (first + earlier.length) driver ∧ frame driver
  intro earlier pair later split
  have here : pair ∈ pairs := by simp [split]
  apply (rounds pair here (first + earlier.length)).imp (fun _ start => start)
  · intro driver done
    rw [List.length_append]
    exact done
  · intro driver left
    refine ⟨⟨pair, here, left.1⟩, left.2.1, ?_⟩
    intro grants
    have granted := grants earlier.length (by simp [split])
    rw [left.2.2] at granted
    exact absurd granted (by decide)

end Rounds

/-! ## The bus mapping and the PCI boxes -/

/-- A driver that has made nothing yet. -/
structure Unused (krefs : PciDev → Int) (driver : Driver) : Prop where
  imc : ImcClosed driver
  msr : MsrClosed driver
  pci : PciClosed driver
  numBoxes : ∀ type, (driver.msrBoxes type).numBoxes = type.boxType.numBoxes
  krefs : driver.krefs = krefs
  allocated : driver.allocated = []
  freed : driver.freed = []
  calls : driver.kzallocCalls = 0

theorem unused_loaded (krefs : PciDev → Int) : Unused krefs (Driver.loaded krefs) :=
  ⟨rfl, fun _ => rfl, fun _ => rfl, fun _ => rfl, rfl, rfl, rfl, rfl⟩

/-- What the loop over the PCI table leaves alone. -/
def PciFrame (driver : Driver) : Prop :=
  driver.uncorePciType = pciTypes ∧ ImcClosed driver ∧ MsrClosed driver ∧
    ∀ type, (driver.msrBoxes type).numBoxes = type.boxType.numBoxes

section Stages

variable {host : Host} {krefs : PciDev → Int}

theorem Unused.accounted {driver : Driver} (unused : Unused krefs driver) :
    Accounted krefs [] driver :=
  accounted_of_unused unused.imc unused.msr unused.pci unused.krefs unused.allocated unused.freed

theorem Unused.going {driver : Driver} (unused : Unused krefs driver) :
    Going host krefs [] 0 driver :=
  ⟨unused.accounted, unused.calls, fun _ bound => absurd bound (Nat.not_lt_zero _)⟩

/-- If the loops are not reached, there is nothing to undo. -/
theorem Unused.undone {driver : Driver} (unused : Unused krefs driver)
    (early : ¬ host.Begins) :
    Undone host krefs (fun driver => ImcClosed driver ∧ MsrClosed driver) driver := by
  refine ⟨[], fun _ here => absurd here List.not_mem_nil, ?_, ?_, unused.imc, unused.msr⟩
  · exact iff_of_true rfl fun begins => absurd begins early
  · exact ⟨unused.accounted, Or.inr unused.pci, Or.inr unused.msr⟩

theorem meets_mapping :
    Call.Meets (Unused krefs)
      (if host.x86Model = 63 then hswepPciInit host else Call.ret (-enxio))
      (fun driver => host.Begins ∧ Unused krefs driver ∧ driver.uncorePciType = pciTypes)
      (Undone host krefs fun driver => ImcClosed driver ∧ MsrClosed driver) := by
  split
  next known =>
    apply Call.Meets.andThen fun driver => host.Begins ∧ Unused krefs driver
    · constructor
      · intro driver unused zero
        rcases hswepPcibusToNodeid_spec host driver with ⟨table, _, left, code⟩
        rw [left]
        exact ⟨⟨known, code.mp zero⟩, unused.imc, unused.msr, unused.pci, unused.numBoxes,
          unused.krefs, unused.allocated, unused.freed, unused.calls⟩
      · intro driver unused error
        rcases hswepPcibusToNodeid_spec host driver with ⟨table, _, left, code⟩
        rw [left]
        have same : Unused krefs (driver.withNodes table) :=
          ⟨unused.imc, unused.msr, unused.pci, unused.numBoxes, unused.krefs, unused.allocated,
            unused.freed, unused.calls⟩
        exact same.undone fun begins => error (code.mpr begins.2)
    · apply Call.Meets.act
      intro driver here
      have unused := here.2
      exact ⟨here.1, ⟨unused.imc, unused.msr, unused.pci, unused.numBoxes, unused.krefs,
        unused.allocated, unused.freed, unused.calls⟩, rfl⟩
  next other =>
    exact .fail (by decide) fun driver unused => unused.undone fun begins => other begins.1

theorem going_uncorePciTypesInit {driver : Driver} (unused : Unused krefs driver)
    (types : driver.uncorePciType = pciTypes) :
    Going host krefs [] 0 (uncorePciTypesInit driver) ∧ PciFrame (uncorePciTypesInit driver) := by
  rw [uncorePciTypesInit_eq types]
  have empty : Unused krefs
      { driver with pciBoxes := fun type => ⟨(driver.pciBoxes type).numBoxes, []⟩ } :=
    ⟨unused.imc, unused.msr, fun _ => rfl, unused.numBoxes, unused.krefs, unused.allocated,
      unused.freed, unused.calls⟩
  exact ⟨empty.going, types, unused.imc, unused.msr, unused.numBoxes⟩

theorem meets_pciRounds :
    Call.Meets (fun driver => Going host krefs [] 0 driver ∧ PciFrame driver)
      (Call.each (uncorePciVisitAll host) (untilZeroIds hswepUncorePciIds))
      (fun driver => Going host krefs [] (0 + host.pciObjects) driver ∧ PciFrame driver)
      (fun driver => (∃ pair ∈ host.bus.found (untilZeroIds hswepUncorePciIds),
        Accounted krefs [pair.2, pair.2] driver) ∧ PciFrame driver ∧
          ¬ host.Grants 0 host.pciObjects) := by
  rw [each_uncorePciVisitAll]
  apply meets_rounds (uncorePciVisit host)
  rintro ⟨ids, pdev⟩ here n
  rcases Option.isSome_iff_exists.mp (isSome_type? ids (mem_found.mp here).1) with ⟨type, named⟩
  apply meets_round
  · exact fun driver frame => uncorePciVisit_eq pdev frame.1 named
  · exact fun driver accounted => accounted.addPciBox type
  · exact fun _ _ => rfl
  · exact fun _ frame => frame
  · exact fun _ frame => frame
  · exact fun _ _ frame => frame
  · exact fun _ frame => frame

/-- A device whose object is refused keeps both its references. -/
theorem undone_of_refused {table : List PciDeviceId} {closed : Driver → Prop} {driver : Driver}
    (refused : ∃ pair ∈ host.bus.found table, Open krefs [pair.2, pair.2] driver)
    (harm : ¬ host.Spares) (here : closed driver) : Undone host krefs closed driver := by
  rcases refused with ⟨pair, listed, opened⟩
  refine ⟨[pair.2, pair.2], ?_, ?_, opened, here⟩
  · intro pdev there
    have same : pdev = pair.2 := by simpa using there
    rw [same]
    exact (mem_found.mp listed).2.1
  · exact iff_of_false (List.cons_ne_nil _ _) harm

theorem meets_uncorePciInit_account :
    Call.Meets (Unused krefs) (uncorePciInit host)
      (fun driver => (host.Begins ∧ host.Grants 0 host.pciObjects) ∧
        Going host krefs [] host.pciObjects driver ∧ PciFrame driver)
      (Undone host krefs fun driver => ImcClosed driver ∧ MsrClosed driver) := by
  apply Call.Meets.andThen _ meets_mapping
  apply Call.Meets.given
  intro begins
  apply Call.Meets.andThen fun driver => Going host krefs [] 0 driver ∧ PciFrame driver
  · exact .act fun driver here => going_uncorePciTypesInit here.1 here.2
  · apply Call.Meets.onError (fun driver =>
      (∃ pair ∈ host.bus.found (untilZeroIds hswepUncorePciIds),
        Accounted krefs [pair.2, pair.2] driver) ∧ PciFrame driver ∧
          ¬ host.Grants 0 host.pciObjects)
    · apply meets_pciRounds.imp (fun _ start => start) _ fun _ left => left
      intro driver done
      rw [Nat.zero_add] at done
      refine ⟨⟨begins, ?_⟩, done⟩
      intro n bound
      rw [Nat.zero_add]
      exact done.1.memory n bound
    · rintro driver ⟨⟨pair, listed, accounted⟩, frame, refusal⟩
      have opened : Open krefs [pair.2, pair.2] driver :=
        ⟨accounted, Or.inl frame.1, Or.inr frame.2.2.1⟩
      have closed := open_uncorePciExit opened frame.2.1 frame.2.2.1
      exact undone_of_refused ⟨pair, listed, closed.1⟩
        (fun spares => refusal (spares begins).1) ⟨closed.2.1, closed.2.2.1⟩

/-! ## The MSR boxes -/

/-- What the loops over the MSR types leave alone. -/
def MsrFrame (host : Host) (driver : Driver) : Prop :=
  driver.uncorePciType = pciTypes ∧ driver.uncoreMsrType = msrTypes ∧ ImcClosed driver ∧
    ∀ type, (driver.msrBoxes type).numBoxes = host.msrBoxCount type

theorem MsrFrame.setMsrBoxList {driver : Driver} (frame : MsrFrame host driver)
    (type : MsrBoxType) (boxList : List (Slab UncoreBox)) :
    MsrFrame host (driver.setMsrBoxList type boxList) := by
  refine ⟨frame.1, frame.2.1, frame.2.2.1, ?_⟩
  intro other
  rw [Driver.setMsrBoxList, Driver.setMsrBoxes]
  dsimp only
  by_cases same : other = type
  · subst same
    rw [Function.update_self]
    exact frame.2.2.2 other
  · rw [Function.update_of_ne same]
    exact frame.2.2.2 other

theorem going_setMsrNumBoxes {n : Nat} {driver : Driver} (going : Going host krefs [] n driver)
    (type : MsrBoxType) (numBoxes : Nat) :
    Going host krefs [] n (driver.setMsrNumBoxes type numBoxes) where
  krefs := going.krefs
  objects address := by
    have before := going.objects address
    have change := count_live_msrBoxes driver type ⟨numBoxes, (driver.msrBoxes type).boxList⟩
      address
    have freed : (driver.setMsrNumBoxes type numBoxes).freed = driver.freed := rfl
    have allocated : (driver.setMsrNumBoxes type numBoxes).allocated = driver.allocated := rfl
    rw [freed, allocated, Driver.setMsrNumBoxes]
    dsimp only at change
    omega
  nodup := going.nodup
  fresh := going.fresh
  calls := going.calls
  memory := going.memory

/-- `hswep_cpu_init` leaves no more C-boxes than cores. -/
theorem numBoxes_hswepCpuInit (host : Host) {driver : Driver}
    (numBoxes : ∀ type, (driver.msrBoxes type).numBoxes = type.boxType.numBoxes)
    (type : MsrBoxType) :
    ((hswepCpuInit host driver).msrBoxes type).numBoxes = host.msrBoxCount type := by
  rw [hswepCpuInit, Host.msrBoxCount]
  by_cases cbox : type = .cbox
  · subst cbox
    rw [if_pos rfl]
    have all := numBoxes .cbox
    split
    · next more =>
        simp only [Driver.setMsrNumBoxes, Driver.setMsrBoxes, Function.update_self]
        omega
    · next fewer =>
        rw [all]
        omega
  · rw [if_neg cbox]
    split
    · simp only [Driver.setMsrNumBoxes, Driver.setMsrBoxes, Function.update_of_ne cbox]
      exact numBoxes type
    · exact numBoxes type

theorem boxList_hswepCpuInit (host : Host) {driver : Driver} (msr : MsrClosed driver) :
    MsrClosed (hswepCpuInit host driver) := by
  intro type
  rw [hswepCpuInit]
  split
  · simp only [Driver.setMsrNumBoxes, Driver.setMsrBoxes]
    by_cases cbox : type = .cbox
    · rw [cbox, Function.update_self]
      exact msr .cbox
    · rw [Function.update_of_ne cbox]
      exact msr type
  · exact msr type

/-- Empty lists stay as they are. -/
theorem uncoreMsrTypesInit_of_closed {driver : Driver} (msr : MsrClosed driver) :
    uncoreMsrTypesInit driver = driver := by
  rw [uncoreMsrTypesInit]
  have unchanged : ∀ type, driver.setMsrBoxList type [] = driver := by
    intro type
    rw [Driver.setMsrBoxList, ← msr type, Driver.setMsrBoxes, Function.update_eq_self]
  induction driver.uncoreMsrType with
  | nil => rfl
  | cons type rest ih => rw [List.foldl_cons, unchanged, ih]

theorem going_hswepCpuInit {n : Nat} {driver : Driver} (going : Going host krefs [] n driver)
    (frame : PciFrame driver) :
    Going host krefs [] n (hswepCpuInit host driver) ∧ MsrFrame host (hswepCpuInit host driver) ∧
      MsrClosed (hswepCpuInit host driver) := by
  have numBoxes := numBoxes_hswepCpuInit host frame.2.2.2
  have closed := boxList_hswepCpuInit host frame.2.2.1
  have kept : Going host krefs [] n (hswepCpuInit host driver) ∧
      (hswepCpuInit host driver).uncorePciType = pciTypes ∧
      ImcClosed (hswepCpuInit host driver) := by
    rw [hswepCpuInit]
    split
    · have fewer := going_setMsrNumBoxes going .cbox host.x86MaxCores
      exact ⟨⟨⟨fewer.krefs, fewer.objects, fewer.nodup, fewer.fresh⟩, fewer.calls, fewer.memory⟩,
        frame.1, frame.2.1⟩
    · exact ⟨⟨⟨going.krefs, going.objects, going.nodup, going.fresh⟩, going.calls, going.memory⟩,
        frame.1, frame.2.1⟩
  exact ⟨kept.1, ⟨kept.2.1, rfl, kept.2.2, numBoxes⟩, closed⟩

theorem meets_uncoreMsrNewBox (n : Nat) (type : MsrBoxType) (idx : Nat) :
    Call.Meets (fun driver => Going host krefs [] n driver ∧ MsrFrame host driver)
      (uncoreMsrNewBox host type idx)
      (fun driver => Going host krefs [] (n + 1) driver ∧ MsrFrame host driver)
      (fun driver => Accounted krefs [] driver ∧ MsrFrame host driver ∧
        host.kzalloc n = false) := by
  apply meets_newObject
  · intro driver here memory
    have frame : MsrFrame host driver.granted := here.2
    exact ⟨here.1.succ (here.1.toAccounted.addMsrBox type idx) rfl memory,
      frame.setMsrBoxList type _⟩
  · intro driver here memory
    rw [here.1.calls] at memory
    exact ⟨here.1.toAccounted.refused, here.2, memory⟩

/-- The boxes of one type, from `n` objects on. -/
theorem meets_uncoreMsrNewBoxes_account (n : Nat) (type : MsrBoxType) :
    Call.Meets (fun driver => Going host krefs [] n driver ∧ MsrFrame host driver)
      (uncoreMsrNewBoxes host type)
      (fun driver => Going host krefs [] (n + host.msrBoxCount type) driver ∧
        MsrFrame host driver)
      (fun driver => Accounted krefs [] driver ∧ MsrFrame host driver ∧
        ¬ host.Grants n (host.msrBoxCount type)) := by
  have counted : ∀ driver, Going host krefs [] n driver ∧ MsrFrame host driver →
      uncoreMsrNewBoxes host type driver =
        Call.each (uncoreMsrNewBox host type) (List.range (host.msrBoxCount type)) driver := by
    intro driver here
    rw [uncoreMsrNewBoxes, here.2.2.2.2 type]
  apply Call.Meets.congr _ counted
  have loop : Call.Meets (fun driver => Going host krefs [] n driver ∧ MsrFrame host driver)
      (Call.each (uncoreMsrNewBox host type) (List.range (host.msrBoxCount type)))
      (fun driver => Going host krefs [] (n + (List.range (host.msrBoxCount type)).length) driver ∧
        MsrFrame host driver)
      (fun driver => Accounted krefs [] driver ∧ MsrFrame host driver ∧
        ¬ host.Grants n (host.msrBoxCount type)) := by
    apply Call.Meets.each fun earlier driver =>
      Going host krefs [] (n + earlier.length) driver ∧ MsrFrame host driver
    intro earlier idx later split
    apply (meets_uncoreMsrNewBox (n + earlier.length) type idx).imp (fun _ start => start)
    · intro driver done
      rw [List.length_append]
      exact done
    · intro driver left
      refine ⟨left.1, left.2.1, ?_⟩
      intro grants
      have total := congrArg List.length split
      rw [List.length_range, List.length_append, List.length_cons] at total
      have granted := grants earlier.length (by omega)
      rw [left.2.2] at granted
      exact absurd granted (by decide)
  rw [List.length_range] at loop
  exact loop

/-- Memory for a run of calls is memory for each part of it. -/
theorem Host.Grants.part {first count start length : Nat} (grants : host.Grants first count)
    (inside : start + length ≤ count) : host.Grants (first + start) length := by
  intro n bound
  rw [Nat.add_assoc]
  exact grants (start + n) (by omega)

theorem meets_msrRounds (n : Nat) :
    Call.Meets (fun driver => Going host krefs [] n driver ∧ MsrFrame host driver)
      (Call.each (uncoreMsrNewBoxes host) msrTypes)
      (fun driver => Going host krefs [] (n + host.msrObjects) driver ∧ MsrFrame host driver)
      (fun driver => Accounted krefs [] driver ∧ MsrFrame host driver ∧
        ¬ host.Grants n host.msrObjects) := by
  apply Call.Meets.each fun earlier driver =>
    Going host krefs [] (n + (earlier.map host.msrBoxCount).sum) driver ∧ MsrFrame host driver
  intro earlier type later split
  apply (meets_uncoreMsrNewBoxes_account (n + (earlier.map host.msrBoxCount).sum) type).imp
    (fun _ start => start)
  · intro driver done
    rw [List.map_append, List.sum_append]
    rw [Nat.add_assoc] at done
    exact done
  · intro driver left
    refine ⟨left.1, left.2.1, ?_⟩
    intro grants
    have total : host.msrObjects = (earlier.map host.msrBoxCount).sum +
        (host.msrBoxCount type + (later.map host.msrBoxCount).sum) := by
      rw [Host.msrObjects, split, List.map_append, List.sum_append, List.map_cons, List.sum_cons]
    exact left.2.2 (grants.part (by omega))

theorem meets_uncoreCpuInit_account :
    Call.Meets (fun driver => (host.Begins ∧ host.Grants 0 host.pciObjects) ∧
        Going host krefs [] host.pciObjects driver ∧ PciFrame driver)
      (uncoreCpuInit host)
      (fun driver => (host.Begins ∧ host.Grants 0 host.pciObjects ∧
          host.Grants host.pciObjects host.msrObjects) ∧
        Going host krefs [] (host.pciObjects + host.msrObjects) driver ∧ MsrFrame host driver)
      (Undone host krefs ImcClosed) := by
  apply Call.Meets.given
  intro early
  rw [uncoreCpuInit, if_pos early.1.1]
  apply Call.Meets.andThen fun driver =>
    (Going host krefs [] host.pciObjects driver ∧ MsrFrame host driver) ∧ MsrClosed driver
  · apply Call.Meets.act
    intro driver here
    have ready := going_hswepCpuInit here.1 here.2
    exact ⟨⟨ready.1, ready.2.1⟩, ready.2.2⟩
  · apply Call.Meets.andThen fun driver =>
      Going host krefs [] host.pciObjects driver ∧ MsrFrame host driver
    · apply Call.Meets.act
      intro driver here
      rw [uncoreMsrTypesInit_of_closed here.2]
      exact here.1
    · apply Call.Meets.onError fun driver => Accounted krefs [] driver ∧ MsrFrame host driver ∧
        ¬ host.Grants host.pciObjects host.msrObjects
      · have types : ∀ driver, Going host krefs [] host.pciObjects driver ∧ MsrFrame host driver →
            Call.each (uncoreMsrNewBoxes host) driver.uncoreMsrType driver =
              Call.each (uncoreMsrNewBoxes host) msrTypes driver := by
          intro driver here
          rw [here.2.2.1]
        apply Call.Meets.congr _ types
        apply (meets_msrRounds host.pciObjects).imp (fun _ start => start) _ fun _ left => left
        intro driver done
        refine ⟨⟨early.1, early.2, ?_⟩, done⟩
        intro n bound
        exact done.1.memory _ (by omega)
      · rintro driver ⟨accounted, frame, refusal⟩
        have opened : Open krefs [] driver := ⟨accounted, Or.inl frame.1, Or.inl frame.2.1⟩
        have closed := open_uncoreCpuExit opened frame.2.2.1
        refine ⟨[], fun _ here => absurd here List.not_mem_nil, ?_, closed.1, closed.2.1⟩
        exact iff_of_true rfl fun _ => ⟨early.2, fun grants => absurd grants refusal⟩

/-! ## The memory channels -/

/-- What the loop over the IMC table leaves alone. -/
def ImcFrame (driver : Driver) : Prop :=
  driver.uncorePciType = pciTypes ∧ driver.uncoreMsrType = msrTypes

theorem meets_imcRounds (n : Nat) :
    Call.Meets (fun driver => Going host krefs [] n driver ∧ ImcFrame driver)
      (Call.each (uncoreImcVisitAll host) (untilZeroVendor hswepE5Imc))
      (fun driver => Going host krefs [] (n + host.imcObjects) driver ∧ ImcFrame driver)
      (fun driver => (∃ pair ∈ host.bus.found (untilZeroVendor hswepE5Imc),
        Accounted krefs [pair.2, pair.2] driver) ∧ ImcFrame driver ∧
          ¬ host.Grants n host.imcObjects) := by
  rw [each_uncoreImcVisitAll]
  apply meets_rounds fun _ => uncoreImcVisit host
  rintro ⟨ids, pdev⟩ here n
  apply meets_round
  · exact fun driver _ => rfl
  · exact fun driver accounted => accounted.addImcDevice
  · exact fun _ _ => rfl
  · exact fun _ frame => frame
  · exact fun _ frame => frame
  · exact fun _ _ frame => frame
  · exact fun _ frame => frame

theorem meets_uncoreImcInit_account :
    Call.Meets (fun driver => (host.Begins ∧ host.Grants 0 host.pciObjects ∧
          host.Grants host.pciObjects host.msrObjects) ∧
        Going host krefs [] (host.pciObjects + host.msrObjects) driver ∧ MsrFrame host driver)
      (uncoreImcInit host)
      (fun driver => host.Spares ∧ Accounted krefs [] driver ∧ ImcFrame driver)
      (Undone host krefs fun _ => True) := by
  apply Call.Meets.given
  intro early
  rw [uncoreImcInit, if_pos early.1.1]
  apply Call.Meets.andThen fun driver =>
    Going host krefs [] (host.pciObjects + host.msrObjects) driver ∧ MsrFrame host driver
  · exact .ret
  · apply Call.Meets.onError fun driver =>
      (∃ pair ∈ host.bus.found (untilZeroVendor hswepE5Imc),
        Accounted krefs [pair.2, pair.2] driver) ∧ ImcFrame driver ∧
          ¬ host.Grants (host.pciObjects + host.msrObjects) host.imcObjects
    · apply (meets_imcRounds (host.pciObjects + host.msrObjects)).imp
      · exact fun driver start => ⟨start.1, start.2.1, start.2.2.1⟩
      · intro driver done
        refine ⟨fun _ => ⟨early.2.1, fun _ => ?_⟩, done.1.toAccounted, done.2⟩
        intro n bound
        exact done.1.memory _ (by omega)
      · exact fun driver left => left
    · rintro driver ⟨⟨pair, listed, accounted⟩, frame, refusal⟩
      have opened : Open krefs [pair.2, pair.2] driver :=
        ⟨accounted, Or.inl frame.1, Or.inl frame.2⟩
      exact undone_of_refused ⟨pair, listed, (open_uncoreImcExit opened).1⟩
        (fun spares => refusal ((spares early.1).2 early.2.2)) trivial

theorem meets_uncoreProcCreate :
    Call.Meets (fun driver => host.Spares ∧ Accounted krefs [] driver ∧ ImcFrame driver)
      (uncoreProcCreate host)
      (fun driver => host.Spares ∧ Accounted krefs [] driver ∧ ImcFrame driver)
      (Undone host krefs fun _ => True) := by
  rw [uncoreProcCreate]
  split
  · exact .ret
  · apply Call.Meets.fail (by decide)
    rintro driver ⟨spares, accounted, frame⟩
    exact ⟨[], fun _ here => absurd here List.not_mem_nil, iff_of_true rfl spares,
      ⟨accounted, Or.inl frame.1, Or.inl frame.2⟩, trivial⟩

/-! ## The whole module -/

/-- Nothing is listed. -/
def AllClosed (driver : Driver) : Prop :=
  ImcClosed driver ∧ MsrClosed driver ∧ PciClosed driver

/-- The account of `uncore_init`. -/
theorem meets_uncoreInit :
    Call.Meets (Unused krefs) (uncoreInit host)
      (fun driver => host.Spares ∧ Accounted krefs [] driver ∧ ImcFrame driver)
      (Undone host krefs AllClosed) := by
  apply Call.Meets.onError (Undone host krefs fun driver => ImcClosed driver ∧ MsrClosed driver)
  · apply Call.Meets.andThen _ meets_uncorePciInit_account
    apply Call.Meets.onError (Undone host krefs ImcClosed)
    · apply Call.Meets.andThen _ meets_uncoreCpuInit_account
      apply Call.Meets.onError (Undone host krefs fun _ => True)
      · exact meets_uncoreImcInit_account.andThen _ meets_uncoreProcCreate
      · rintro driver ⟨loose, known, harm, opened, _⟩
        have closed := open_uncoreImcExit opened
        exact ⟨loose, known, harm, closed.1, closed.2⟩
    · rintro driver ⟨loose, known, harm, opened, imc⟩
      have closed := open_uncoreCpuExit opened imc
      exact ⟨loose, known, harm, closed.1, closed.2⟩
  · rintro driver ⟨loose, known, harm, opened, imc, msr⟩
    have closed := open_uncorePciExit opened imc msr
    exact ⟨loose, known, harm, closed.1, closed.2⟩

end Stages

/-- One loading of the module: `uncore_init`, and `uncore_exit` if it succeeded. -/
def loadAndUnload (host : Host) (driver : Driver) : Driver :=
  let result := uncoreInit host driver
  if result.1 = 0 then uncoreExit result.2 else result.2

theorem undone_loadAndUnload (host : Host) (krefs : PciDev → Int) :
    Undone host krefs AllClosed (loadAndUnload host (Driver.loaded krefs)) := by
  rw [loadAndUnload]
  split
  next success =>
    rcases meets_uncoreInit.done (unused_loaded krefs) success with ⟨spares, accounted, frame⟩
    have imc := open_uncoreImcExit ⟨accounted, Or.inl frame.1, Or.inl frame.2⟩
    have msr := open_uncoreCpuExit imc.1 imc.2
    have pci := open_uncorePciExit msr.1 msr.2.1 msr.2.2
    exact ⟨[], fun _ here => absurd here List.not_mem_nil, iff_of_true rfl spares, pci.1, pci.2⟩
  next failure =>
    exact meets_uncoreInit.failed (unused_loaded krefs) failure

/-- Wherever `uncore_init` fails, and if it does not, the loading leaves every object freed
once and every reference count as it was if and only if no allocation of a PCI box or of a
memory channel is refused. -/
theorem loadAndUnload_balanced_iff (host : Host) (krefs : PciDev → Int) :
    Balanced host krefs (loadAndUnload host (Driver.loaded krefs)) ↔ host.Spares := by
  rcases undone_loadAndUnload host krefs with ⟨loose, known, harm, opened, imc, msr, pci⟩
  rw [← harm]
  exact opened.toAccounted.balanced_iff imc msr pci known

/-- The first `kzalloc` is for the box of the home agent. Refused, it leaves the home agent
with two references more than it had. -/
theorem not_balanced_socket :
    ¬ Balanced (socketHost 0x2FB4 fun n => n != 0) (fun _ => 1)
      (loadAndUnload (socketHost 0x2FB4 fun n => n != 0) (Driver.loaded fun _ => 1)) := by
  intro balanced
  have agent : (⟨pciVendorIdIntel, 0x2F30, 0xFF, 0x90⟩ : PciDev) ∈
      (socketHost 0x2FB4 fun n => n != 0).bus.devices := by decide
  have leaked : (loadAndUnload (socketHost 0x2FB4 fun n => n != 0)
      (Driver.loaded fun _ => 1)).krefs ⟨pciVendorIdIntel, 0x2F30, 0xFF, 0x90⟩ = 3 := by
    decide +kernel
  rw [balanced.krefs _ agent] at leaked
  exact absurd leaked (by decide)

end NvmEmulator.Discovery
