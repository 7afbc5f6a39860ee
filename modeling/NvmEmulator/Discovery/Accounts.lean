/-
# References and objects in account

What the driver owes the kernel: an object that it allocated stays on one of its lists
until it is freed, and a list entry with a PCI device owns a reference on the device.
`Accounted` adds the references that nothing on a list owns. Making an object and
releasing one keep the account.
-/

import NvmEmulator.Discovery.NodeMapping

namespace NvmEmulator.Discovery

open NvmEmulator.Kernel NvmEmulator.Semantics NvmEmulator.Uncore

/-! ## Many lists, one of which changes -/

section Count

variable {ι : Type} {α : Type} {β : Type} [DecidableEq ι] [DecidableEq β]
  {types : List ι} {type : ι}

/-- Changing one of several lists changes their joint count by that list's change. -/
theorem count_flatMap_update (entries : α → List β) (lists : ι → α) (nodup : types.Nodup)
    (listed : type ∈ types) (value : α) (entry : β) :
    (types.flatMap fun other => entries (Function.update lists type value other)).count entry +
        (entries (lists type)).count entry =
      (types.flatMap fun other => entries (lists other)).count entry +
        (entries value).count entry := by
  induction types with
  | nil => exact absurd listed List.not_mem_nil
  | cons head rest ih =>
      rw [List.flatMap_cons, List.flatMap_cons, List.count_append, List.count_append]
      rcases List.nodup_cons.mp nodup with ⟨apart, nodup⟩
      by_cases here : head = type
      · subst here
        have same : (rest.flatMap fun other => entries (Function.update lists head value other)) =
            rest.flatMap fun other => entries (lists other) := by
          apply List.flatMap_congr
          intro other there
          rw [Function.update_of_ne (ne_of_mem_of_not_mem there apart)]
        rw [same, Function.update_self]
        omega
      · have later := ih nodup ((List.mem_cons.mp listed).resolve_left (Ne.symm here))
        rw [Function.update_of_ne here]
        omega

end Count

/-! ## What the driver holds -/

theorem nodup_pciTypes : pciTypes.Nodup := by decide

theorem mem_pciTypes (type : PciBoxType) : type ∈ pciTypes := by cases type <;> decide

theorem nodup_msrTypes : msrTypes.Nodup := by decide

theorem mem_msrTypes (type : MsrBoxType) : type ∈ msrTypes := by cases type <;> decide

/-- The objects on a list. -/
def addresses {α : Type} (slabs : List (Slab α)) : List Nat := slabs.map Slab.address

/-- The devices that the boxes on a list own a reference on. -/
def boxDevices (slabs : List (Slab UncoreBox)) : List PciDev :=
  slabs.flatMap fun slab => slab.object.pdev.toList

namespace Driver

/-- The objects on the driver's lists. -/
def live (driver : Driver) : List Nat :=
  (pciTypes.flatMap fun type => addresses (driver.pciBoxes type).boxList) ++
    (msrTypes.flatMap fun type => addresses (driver.msrBoxes type).boxList) ++
      addresses driver.uncoreImcDevices

/-- The devices that the driver's lists own a reference on. -/
def held (driver : Driver) : List PciDev :=
  (pciTypes.flatMap fun type => boxDevices (driver.pciBoxes type).boxList) ++
    driver.uncoreImcDevices.map fun slab => slab.object.pdev

end Driver

/-- Every object that was allocated is on a list or was freed, and a device has the
references it started with, those of the lists, and those on `loose`. -/
structure Accounted (krefs : PciDev → Int) (loose : List PciDev) (driver : Driver) : Prop where
  krefs : ∀ pdev, driver.krefs pdev = krefs pdev + driver.held.count pdev + loose.count pdev
  objects : ∀ address, driver.freed.count address + driver.live.count address =
    driver.allocated.count address
  nodup : driver.allocated.Nodup
  fresh : ∀ address ∈ driver.allocated, address < driver.kzallocCalls

/-! ## Changes of a list -/

section Lists

variable (driver : Driver)

theorem count_live_pciBoxes (type : PciBoxType) (list : BoxList) (address : Nat) :
    (driver.setPciBoxes type list).live.count address +
        (addresses (driver.pciBoxes type).boxList).count address =
      driver.live.count address + (addresses list.boxList).count address := by
  have change := count_flatMap_update (fun list : BoxList => addresses list.boxList)
    driver.pciBoxes nodup_pciTypes (mem_pciTypes type) list address
  simp only [Driver.live, Driver.setPciBoxes, List.count_append] at change ⊢
  omega

theorem count_held_pciBoxes (type : PciBoxType) (list : BoxList) (pdev : PciDev) :
    (driver.setPciBoxes type list).held.count pdev +
        (boxDevices (driver.pciBoxes type).boxList).count pdev =
      driver.held.count pdev + (boxDevices list.boxList).count pdev := by
  have change := count_flatMap_update (fun list : BoxList => boxDevices list.boxList)
    driver.pciBoxes nodup_pciTypes (mem_pciTypes type) list pdev
  simp only [Driver.held, Driver.setPciBoxes, List.count_append] at change ⊢
  omega

theorem count_live_msrBoxes (type : MsrBoxType) (list : BoxList) (address : Nat) :
    (driver.setMsrBoxes type list).live.count address +
        (addresses (driver.msrBoxes type).boxList).count address =
      driver.live.count address + (addresses list.boxList).count address := by
  have change := count_flatMap_update (fun list : BoxList => addresses list.boxList)
    driver.msrBoxes nodup_msrTypes (mem_msrTypes type) list address
  simp only [Driver.live, Driver.setMsrBoxes, List.count_append] at change ⊢
  omega

theorem count_live_imcDevices (devices : List (Slab UncoreImc)) (address : Nat) :
    (driver.setImcDevices devices).live.count address +
        (addresses driver.uncoreImcDevices).count address =
      driver.live.count address + (addresses devices).count address := by
  simp only [Driver.live, Driver.setImcDevices, List.count_append]
  omega

theorem count_held_imcDevices (devices : List (Slab UncoreImc)) (pdev : PciDev) :
    (driver.setImcDevices devices).held.count pdev +
        (driver.uncoreImcDevices.map fun slab => slab.object.pdev).count pdev =
      driver.held.count pdev + (devices.map fun slab => slab.object.pdev).count pdev := by
  simp only [Driver.held, Driver.setImcDevices, List.count_append]
  omega

end Lists

/-- A new PCI box goes to the end of its list. -/
theorem addPciBox_eq (driver : Driver) (type : PciBoxType) (pdev : PciDev) (address : Nat) :
    ∃ numBoxes slab, slab.address = address ∧ slab.object.pdev = some pdev ∧
      driver.addPciBox type pdev address =
        driver.setPciBoxes type ⟨numBoxes, (driver.pciBoxes type).boxList ++ [slab]⟩ :=
  ⟨_, _, rfl, rfl, rfl⟩

/-- A new MSR box goes to the end of its list. -/
theorem addMsrBox_eq (driver : Driver) (type : MsrBoxType) (idx address : Nat) :
    ∃ numBoxes slab, slab.address = address ∧ driver.addMsrBox type idx address =
      driver.setMsrBoxes type ⟨numBoxes, (driver.msrBoxes type).boxList ++ [slab]⟩ :=
  ⟨_, _, rfl, rfl⟩

theorem count_cons_eq (pdev other : PciDev) (loose : List PciDev) :
    (pdev :: loose).count other = [pdev].count other + loose.count other := by
  rw [← List.singleton_append, List.count_append]

/-! ## What keeps the account -/

namespace Accounted

variable {krefs : PciDev → Int} {loose : List PciDev} {driver : Driver}

theorem getDevice (accounted : Accounted krefs loose driver) (pdev : PciDev) :
    Accounted krefs (pdev :: loose) (driver.getDevice pdev) where
  krefs other := by
    have before := accounted.krefs other
    by_cases same : other = pdev
    · subst same
      simp only [Driver.getDevice, Function.update_self, List.count_cons_self, before]
      push_cast
      exact add_assoc _ _ _
    · simp only [Driver.getDevice, Function.update_of_ne same,
        List.count_cons_of_ne (Ne.symm same), before]
      rfl
  objects := accounted.objects
  nodup := accounted.nodup
  fresh := accounted.fresh

theorem pciDevPut {pdev : PciDev} (accounted : Accounted krefs (pdev :: loose) driver) :
    Accounted krefs loose (driver.pciDevPut (some pdev)) where
  krefs other := by
    have before := accounted.krefs other
    by_cases same : other = pdev
    · subst same
      rw [List.count_cons_self] at before
      simp only [Driver.pciDevPut, Function.update_self, before]
      push_cast
      rw [← add_assoc, add_sub_cancel_right]
      rfl
    · rw [List.count_cons_of_ne (Ne.symm same)] at before
      simp only [Driver.pciDevPut, Function.update_of_ne same, before]
      rfl
  objects := accounted.objects
  nodup := accounted.nodup
  fresh := accounted.fresh

theorem refused (accounted : Accounted krefs loose driver) :
    Accounted krefs loose driver.refused where
  krefs := accounted.krefs
  objects := accounted.objects
  nodup := accounted.nodup
  fresh address here := Nat.lt_succ_of_lt (accounted.fresh address here)

/-- A new object goes on a list, which takes over some of the loose references. -/
theorem granted {loose' : List PciDev} (accounted : Accounted krefs loose driver)
    (added : Driver) (refs : added.krefs = driver.krefs)
    (calls : added.kzallocCalls = driver.kzallocCalls + 1)
    (allocated : added.allocated = driver.allocated ++ [driver.kzallocCalls])
    (freed : added.freed = driver.freed)
    (live : ∀ address, added.live.count address =
      driver.live.count address + [driver.kzallocCalls].count address)
    (held : ∀ pdev, added.held.count pdev + loose'.count pdev =
      driver.held.count pdev + loose.count pdev) : Accounted krefs loose' added where
  krefs pdev := by
    have before := accounted.krefs pdev
    have moved := held pdev
    rw [refs]
    omega
  objects address := by
    have before := accounted.objects address
    rw [freed, live, allocated, List.count_append]
    omega
  nodup := by
    rw [allocated, ← List.concat_eq_append, List.nodup_concat]
    exact ⟨fun twice => absurd (accounted.fresh _ twice) (Nat.lt_irrefl _), accounted.nodup⟩
  fresh address here := by
    rw [allocated] at here
    rw [calls]
    rcases List.mem_append.mp here with earlier | last
    · exact Nat.lt_succ_of_lt (accounted.fresh address earlier)
    · rw [List.mem_singleton.mp last]
      exact Nat.lt_succ_self _

theorem addPciBox {pdev : PciDev} (accounted : Accounted krefs (pdev :: loose) driver)
    (type : PciBoxType) :
    Accounted krefs loose (driver.granted.addPciBox type pdev driver.kzallocCalls) := by
  rcases addPciBox_eq driver.granted type pdev driver.kzallocCalls with
    ⟨numBoxes, slab, address, device, added⟩
  rw [added]
  apply accounted.granted (driver.granted.setPciBoxes type
    ⟨numBoxes, (driver.granted.pciBoxes type).boxList ++ [slab]⟩) rfl rfl rfl rfl
  · intro other
    have change := count_live_pciBoxes driver.granted type
      ⟨numBoxes, (driver.granted.pciBoxes type).boxList ++ [slab]⟩ other
    simp only [addresses, List.map_append, List.map_singleton, List.count_append, address] at change
    have same : driver.granted.live = driver.live := rfl
    rw [same] at change
    omega
  · intro other
    have change := count_held_pciBoxes driver.granted type
      ⟨numBoxes, (driver.granted.pciBoxes type).boxList ++ [slab]⟩ other
    simp only [boxDevices, List.flatMap_append, List.flatMap_singleton, List.count_append, device,
      Option.toList_some] at change
    have same : driver.granted.held = driver.held := rfl
    rw [same] at change
    rw [count_cons_eq]
    omega

theorem addMsrBox (accounted : Accounted krefs loose driver) (type : MsrBoxType) (idx : Nat) :
    Accounted krefs loose (driver.granted.addMsrBox type idx driver.kzallocCalls) := by
  rcases addMsrBox_eq driver.granted type idx driver.kzallocCalls with
    ⟨numBoxes, slab, address, added⟩
  rw [added]
  apply accounted.granted (driver.granted.setMsrBoxes type
    ⟨numBoxes, (driver.granted.msrBoxes type).boxList ++ [slab]⟩) rfl rfl rfl rfl
  · intro other
    have change := count_live_msrBoxes driver.granted type
      ⟨numBoxes, (driver.granted.msrBoxes type).boxList ++ [slab]⟩ other
    simp only [addresses, List.map_append, List.map_singleton, List.count_append, address] at change
    have same : driver.granted.live = driver.live := rfl
    rw [same] at change
    omega
  · intro other
    rfl

theorem addImcDevice {pdev : PciDev} (accounted : Accounted krefs (pdev :: loose) driver) :
    Accounted krefs loose (driver.granted.addImcDevice pdev driver.kzallocCalls) := by
  apply accounted.granted (driver.granted.addImcDevice pdev driver.kzallocCalls) rfl rfl rfl rfl
  · intro address
    have change := count_live_imcDevices driver.granted
      (driver.granted.uncoreImcDevices ++
        [⟨driver.kzallocCalls, ⟨driver.granted.uncorePcibusToNodeid pdev.bus, pdev⟩⟩]) address
    simp only [addresses, List.map_append, List.map_singleton, List.count_append] at change
    have same : driver.granted.live = driver.live := rfl
    rw [same] at change
    rw [Driver.addImcDevice]
    omega
  · intro other
    have change := count_held_imcDevices driver.granted
      (driver.granted.uncoreImcDevices ++
        [⟨driver.kzallocCalls, ⟨driver.granted.uncorePcibusToNodeid pdev.bus, pdev⟩⟩]) other
    simp only [List.map_append, List.map_singleton, List.count_append] at change
    have same : driver.granted.held = driver.held := rfl
    rw [same] at change
    rw [count_cons_eq, Driver.addImcDevice]
    omega

/-- An object leaves its list and is freed; the references it owned become loose. -/
theorem unlink {loose' : List PciDev} {address : Nat}
    (accounted : Accounted krefs loose driver) (unlinked : Driver)
    (refs : unlinked.krefs = driver.krefs)
    (calls : unlinked.kzallocCalls = driver.kzallocCalls)
    (allocated : unlinked.allocated = driver.allocated) (freed : unlinked.freed = driver.freed)
    (live : ∀ other, unlinked.live.count other + [address].count other = driver.live.count other)
    (held : ∀ pdev, unlinked.held.count pdev + loose'.count pdev =
      driver.held.count pdev + loose.count pdev) :
    Accounted krefs loose' (unlinked.kfree address) where
  krefs pdev := by
    have before := accounted.krefs pdev
    have moved := held pdev
    have same : (unlinked.kfree address).krefs = unlinked.krefs := rfl
    have kept : (unlinked.kfree address).held = unlinked.held := rfl
    rw [same, kept, refs]
    omega
  objects other := by
    have before := accounted.objects other
    have moved := live other
    have log : (unlinked.kfree address).freed = unlinked.freed ++ [address] := rfl
    have kept : (unlinked.kfree address).live = unlinked.live := rfl
    have same : (unlinked.kfree address).allocated = unlinked.allocated := rfl
    rw [log, kept, same, freed, allocated, List.count_append]
    omega
  nodup := by
    have same : (unlinked.kfree address).allocated = unlinked.allocated := rfl
    rw [same, allocated]
    exact accounted.nodup
  fresh other here := by
    have same : (unlinked.kfree address).allocated = unlinked.allocated := rfl
    have count : (unlinked.kfree address).kzallocCalls = unlinked.kzallocCalls := rfl
    rw [same, allocated] at here
    rw [count, calls]
    exact accounted.fresh other here

/-- The three rounds of the cleanup loops: unlink the first object of a list, drop its
reference, free it. -/
theorem freePciBox (accounted : Accounted krefs loose driver) {type : PciBoxType}
    {slab : Slab UncoreBox} {rest : List (Slab UncoreBox)}
    (list : (driver.pciBoxes type).boxList = slab :: rest) :
    Accounted krefs loose
      (((driver.setPciBoxList type rest).pciDevPut slab.object.pdev).kfree slab.address) := by
  have live : ∀ other, (driver.setPciBoxList type rest).live.count other +
      [slab.address].count other = driver.live.count other := by
    intro other
    have change := count_live_pciBoxes driver type
      ⟨(driver.pciBoxes type).numBoxes, rest⟩ other
    rw [list, addresses, addresses, List.map_cons, ← List.singleton_append, List.count_append]
      at change
    dsimp only at change
    rw [Driver.setPciBoxList]
    omega
  have held : ∀ other, (driver.setPciBoxList type rest).held.count other +
      slab.object.pdev.toList.count other = driver.held.count other := by
    intro other
    have change := count_held_pciBoxes driver type
      ⟨(driver.pciBoxes type).numBoxes, rest⟩ other
    rw [list, boxDevices, boxDevices, List.flatMap_cons, List.count_append] at change
    dsimp only at change
    rw [Driver.setPciBoxList]
    omega
  cases device : slab.object.pdev with
  | none =>
      apply accounted.unlink (driver.setPciBoxList type rest) rfl rfl rfl rfl live
      intro other
      have moved := held other
      rw [device] at moved
      exact congrArg (· + loose.count other) moved
  | some pdev =>
      have unlinked : Accounted krefs (pdev :: loose)
          ((driver.setPciBoxList type rest).kfree slab.address) := by
        apply accounted.unlink (driver.setPciBoxList type rest) rfl rfl rfl rfl live
        intro other
        have moved := held other
        rw [device, Option.toList_some] at moved
        rw [count_cons_eq]
        omega
      exact unlinked.pciDevPut

theorem freeMsrBox (accounted : Accounted krefs loose driver) {type : MsrBoxType}
    {slab : Slab UncoreBox} {rest : List (Slab UncoreBox)}
    (list : (driver.msrBoxes type).boxList = slab :: rest) :
    Accounted krefs loose ((driver.setMsrBoxList type rest).kfree slab.address) := by
  apply accounted.unlink (driver.setMsrBoxList type rest) rfl rfl rfl rfl
  · intro other
    have change := count_live_msrBoxes driver type
      ⟨(driver.msrBoxes type).numBoxes, rest⟩ other
    rw [list, addresses, addresses, List.map_cons, ← List.singleton_append, List.count_append]
      at change
    dsimp only at change
    rw [Driver.setMsrBoxList]
    omega
  · intro other
    rfl

theorem freeImcDevice (accounted : Accounted krefs loose driver) {slab : Slab UncoreImc}
    {rest : List (Slab UncoreImc)} (list : driver.uncoreImcDevices = slab :: rest) :
    Accounted krefs loose
      (((driver.setImcDevices rest).pciDevPut (some slab.object.pdev)).kfree slab.address) := by
  have unlinked : Accounted krefs (slab.object.pdev :: loose)
      ((driver.setImcDevices rest).kfree slab.address) := by
    apply accounted.unlink (driver.setImcDevices rest) rfl rfl rfl rfl
    · intro other
      have change := count_live_imcDevices driver rest other
      rw [list, addresses, addresses, List.map_cons, ← List.singleton_append, List.count_append]
        at change
      omega
    · intro other
      have change := count_held_imcDevices driver rest other
      rw [list, List.map_cons, count_cons_eq] at change
      rw [count_cons_eq]
      omega
  exact unlinked.pciDevPut

end Accounted

end NvmEmulator.Discovery
