/-
# The box lists

After `uncore_pci_init` the box list of a type enumerates the devices of the type: the
box at position `n` has index `n`, and belongs to the `n`-th device that the loops over
the table and the bus find. Every round of the loops extends the enumeration by one
device, and the guarantees of the lookup functions are read off it.
-/

import NvmEmulator.Discovery.NodeMapping
import NvmEmulator.Emulate.Nvm

namespace NvmEmulator.Discovery

open NvmEmulator.Kernel NvmEmulator.Semantics NvmEmulator.Uncore
open NvmEmulator.Emulate (uncoreGetFirstBox)

/-! ## Enumerations -/

/-- The devices of a type, in the order found. -/
def devicesOfType (type : PciBoxType) (pairs : List (PciDeviceId × PciDev)) : List PciDev :=
  (pairs.filter fun pair => pair.1.type? = some type).map Prod.snd

/-- The box of the device at a position. -/
def boxAt (type : PciBoxType) (nodes : BitVec 8 → Nat) (idx : Nat) (pdev : PciDev) :
    UncoreBox where
  idx := idx
  nodeid := nodes pdev.bus
  boxType := type.boxType
  pdev := some pdev

/-- One box for each device, numbered from 0. -/
def enumerate (type : PciBoxType) (nodes : BitVec 8 → Nat) (devices : List PciDev) :
    List UncoreBox :=
  devices.mapIdx (boxAt type nodes)

section Enumerate

variable {type : PciBoxType} {nodes : BitVec 8 → Nat} {devices : List PciDev}

theorem enumerate_concat (pdev : PciDev) :
    enumerate type nodes (devices ++ [pdev]) =
      enumerate type nodes devices ++ [boxAt type nodes devices.length pdev] :=
  List.mapIdx_concat

theorem length_enumerate : (enumerate type nodes devices).length = devices.length :=
  List.length_mapIdx

theorem mem_enumerate {box : UncoreBox} :
    box ∈ enumerate type nodes devices ↔
      ∃ idx, ∃ inside : idx < devices.length, boxAt type nodes idx devices[idx] = box :=
  List.mem_mapIdx

/-- Boxes of one list differ in their indices. -/
theorem eq_of_idx_eq {first second : UncoreBox} (here : first ∈ enumerate type nodes devices)
    (there : second ∈ enumerate type nodes devices) (same : first.idx = second.idx) :
    first = second := by
  rcases mem_enumerate.mp here with ⟨idx, inside, rfl⟩
  rcases mem_enumerate.mp there with ⟨idx', inside', rfl⟩
  have position : idx = idx' := same
  subst position
  rfl

theorem map_idx_enumerate :
    (enumerate type nodes devices).map UncoreBox.idx = List.range devices.length := by
  induction devices using List.reverseRecOn with
  | nil => rfl
  | append_singleton devices pdev ih =>
      rw [enumerate_concat, List.map_append, ih, List.length_append, List.length_singleton,
        List.range_succ]
      rfl

theorem map_pdev_enumerate :
    (enumerate type nodes devices).map UncoreBox.pdev = devices.map some := by
  induction devices using List.reverseRecOn with
  | nil => rfl
  | append_singleton devices pdev ih =>
      rw [enumerate_concat, List.map_append, ih, List.map_append]
      rfl

theorem nodup_enumerate : (enumerate type nodes devices).Nodup :=
  .of_map UncoreBox.idx (map_idx_enumerate ▸ List.nodup_range)

end Enumerate

/-- A search for a key that one entry has finds that entry. -/
theorem find?_eq_some_of_unique {α : Type} {holds : α → Bool} {items : List α} {item : α}
    (listed : item ∈ items) (here : holds item)
    (unique : ∀ other ∈ items, holds other → other = item) : items.find? holds = some item := by
  cases found : items.find? holds with
  | none => exact absurd here (List.find?_eq_none.mp found item listed)
  | some other =>
      rw [unique other (List.mem_of_find?_eq_some found) (List.find?_some found)]

/-! ## The invariant of the loops -/

/-- The box lists enumerate the devices found so far; later boxes have later addresses. -/
structure Listed (pairs : List (PciDeviceId × PciDev)) (driver : Driver) : Prop where
  types : driver.uncorePciType = pciTypes
  nodes : IsNodeTable driver.uncorePcibusToNodeid
  boxes : ∀ type, (driver.pciBoxes type).boxes =
    enumerate type driver.uncorePcibusToNodeid (devicesOfType type pairs)
  numBoxes : ∀ type, devicesOfType type pairs ≠ [] →
    (driver.pciBoxes type).numBoxes = (devicesOfType type pairs).length
  ordered : ∀ type,
    (driver.pciBoxes type).boxList.Pairwise fun first second => first.address < second.address
  fresh : ∀ type, ∀ slab ∈ (driver.pciBoxes type).boxList, slab.address < driver.kzallocCalls
  channels : driver.uncoreImcDevices = []

theorem devicesOfType_concat_self {type : PciBoxType} {pairs : List (PciDeviceId × PciDev)}
    {ids : PciDeviceId} {pdev : PciDev} (named : ids.type? = some type) :
    devicesOfType type (pairs ++ [(ids, pdev)]) = devicesOfType type pairs ++ [pdev] := by
  simp [devicesOfType, named]

theorem devicesOfType_concat_of_ne {type : PciBoxType}
    {pairs : List (PciDeviceId × PciDev)} {ids : PciDeviceId} {pdev : PciDev}
    (other : ids.type? ≠ some type) :
    devicesOfType type (pairs ++ [(ids, pdev)]) = devicesOfType type pairs := by
  simp [devicesOfType, other]

theorem length_devicesOfType_le (type : PciBoxType) (pairs : List (PciDeviceId × PciDev)) :
    (devicesOfType type pairs).length ≤ pairs.length := by
  rw [devicesOfType, List.length_map]
  exact List.length_filter_le _ _

section AddPciBox

variable (driver : Driver) {type : PciBoxType} (pdev : PciDev) (address : Nat)

/-- The new box continues the enumeration. -/
theorem addPciBox_self {devices : List PciDev}
    (boxes : (driver.pciBoxes type).boxes =
      enumerate type driver.uncorePcibusToNodeid devices)
    (numBoxes : devices ≠ [] → (driver.pciBoxes type).numBoxes = devices.length)
    (bound : devices.length + 1 < 2 ^ 32) :
    (driver.addPciBox type pdev address).pciBoxes type =
      ⟨devices.length + 1, (driver.pciBoxes type).boxList ++
        [⟨address, boxAt type driver.uncorePcibusToNodeid devices.length pdev⟩]⟩ := by
  rw [Driver.addPciBox, Driver.setPciBoxes]
  simp only [Function.update_self]
  rcases List.eq_nil_or_concat' devices with nothing | ⟨earlier, last, split⟩
  · subst nothing
    have empty : (driver.pciBoxes type).boxList = [] := List.map_eq_nil_iff.mp boxes
    rw [empty]
    rfl
  · have some : devices ≠ [] := by simp [split]
    rw [split, enumerate_concat] at boxes
    rcases List.map_eq_append_iff.mp boxes with ⟨front, back, list, _, single⟩
    rcases List.map_eq_singleton_iff.mp single with ⟨slab, rfl, object⟩
    have length : devices.length = earlier.length + 1 := by rw [split, List.length_append]; rfl
    have idx : slab.object.idx + 1 = devices.length := by rw [object, length]; rfl
    rw [list, List.getLast?_concat, numBoxes some]
    simp only [idx]
    rw [Nat.mod_eq_of_lt bound, Nat.mod_eq_of_lt (Nat.lt_of_succ_lt bound)]
    rfl

theorem addPciBox_of_ne {other : PciBoxType} (apart : other ≠ type) :
    (driver.addPciBox type pdev address).pciBoxes other = driver.pciBoxes other :=
  Function.update_of_ne apart _ _

end AddPciBox

namespace Listed

variable {pairs : List (PciDeviceId × PciDev)} {driver : Driver}

theorem getDevice (listed : Listed pairs driver) (pdev : PciDev) :
    Listed pairs (driver.getDevice pdev) :=
  ⟨listed.types, listed.nodes, listed.boxes, listed.numBoxes, listed.ordered, listed.fresh,
    listed.channels⟩

theorem pciDevPut (listed : Listed pairs driver) (pdev : PciDev) :
    Listed pairs (driver.pciDevPut (some pdev)) :=
  ⟨listed.types, listed.nodes, listed.boxes, listed.numBoxes, listed.ordered, listed.fresh,
    listed.channels⟩

/-- A new box for a device of the table. -/
theorem addPciBox (listed : Listed pairs driver) {ids : PciDeviceId} {type : PciBoxType}
    (named : ids.type? = some type) (bound : pairs.length + 1 < 2 ^ 32) (pdev : PciDev) :
    Listed (pairs ++ [(ids, pdev)])
      (driver.granted.addPciBox type pdev driver.kzallocCalls) := by
  have short : (devicesOfType type pairs).length + 1 < 2 ^ 32 := by
    have part := length_devicesOfType_le type pairs
    omega
  have self := addPciBox_self driver.granted pdev driver.kzallocCalls (listed.boxes type)
    (listed.numBoxes type) short
  refine ⟨listed.types, listed.nodes, ?_, ?_, ?_, ?_, listed.channels⟩ <;> intro other
  · by_cases same : other = type
    · subst same
      rw [self, devicesOfType_concat_self named, enumerate_concat, BoxList.boxes, List.map_append]
      exact congrArg (· ++ _) (listed.boxes other)
    · rw [addPciBox_of_ne _ _ _ same,
        devicesOfType_concat_of_ne fun names => same (Option.some.inj (names.symm.trans named))]
      exact listed.boxes other
  · by_cases same : other = type
    · subst same
      intro _
      rw [self, devicesOfType_concat_self named, List.length_append]
      rfl
    · rw [addPciBox_of_ne _ _ _ same,
        devicesOfType_concat_of_ne fun names => same (Option.some.inj (names.symm.trans named))]
      exact listed.numBoxes other
  · by_cases same : other = type
    · subst same
      rw [self]
      apply List.pairwise_append.mpr
      refine ⟨listed.ordered other, List.pairwise_singleton _ _, ?_⟩
      intro slab earlier last here
      rw [List.mem_singleton.mp here]
      exact listed.fresh other slab earlier
    · rw [addPciBox_of_ne _ _ _ same]
      exact listed.ordered other
  · by_cases same : other = type
    · subst same
      rw [self]
      intro slab here
      rcases List.mem_append.mp here with earlier | last
      · exact Nat.lt_succ_of_lt (listed.fresh other slab earlier)
      · rw [List.mem_singleton.mp last]
        exact Nat.lt_succ_self _
    · rw [addPciBox_of_ne _ _ _ same]
      intro slab here
      exact Nat.lt_succ_of_lt (listed.fresh other slab here)

end Listed

/-! ## The loops -/

theorem nodup_ids : ((untilZeroIds hswepUncorePciIds).map PciDeviceId.ids).Nodup := by decide

section Host

variable {host : Host}

/-- One round adds one box. -/
theorem meets_uncorePciVisit {pairs : List (PciDeviceId × PciDev)} {ids : PciDeviceId}
    {type : PciBoxType} (named : ids.type? = some type) (bound : pairs.length + 1 < 2 ^ 32)
    (pdev : PciDev) :
    Call.Meets (Listed pairs) (visit (uncorePciVisit host ids) pdev)
      (Listed (pairs ++ [(ids, pdev)])) fun _ => True := by
  apply Call.Meets.andThen (Listed pairs)
  · exact .act fun driver listed => listed.getDevice pdev
  · apply Call.Meets.andThen (Listed (pairs ++ [(ids, pdev)]))
    · apply Call.Meets.congr _ fun driver listed => uncorePciVisit_eq pdev listed.types named
      apply Call.Meets.andThen (Listed pairs)
      · exact .act fun driver listed => listed.getDevice pdev
      · exact meets_newObject (fun driver listed _ => listed.addPciBox named bound pdev)
          fun _ _ _ => trivial
    · exact .act fun driver listed => listed.pciDevPut pdev

/-- The loops of `uncore_pci_init` list every device found. -/
theorem meets_uncorePciVisitAll :
    Call.Meets (Listed [])
      (Call.each (uncorePciVisitAll host) (untilZeroIds hswepUncorePciIds))
      (Listed (host.bus.found (untilZeroIds hswepUncorePciIds))) fun _ => True := by
  rw [each_uncorePciVisitAll]
  apply Call.Meets.each Listed
  rintro earlier ⟨ids, pdev⟩ later split
  have here : (ids, pdev) ∈ host.bus.found (untilZeroIds hswepUncorePciIds) := by simp [split]
  rcases Option.isSome_iff_exists.mp (isSome_type? ids (mem_found.mp here).1) with ⟨type, named⟩
  apply meets_uncorePciVisit named
  have all := length_found_le host.bus (untilZeroIds hswepUncorePciIds)
  have entries : (untilZeroIds hswepUncorePciIds).length = 18 := rfl
  rw [split, List.length_append, List.length_cons, entries] at all
  omega

/-- The driver before its loops: it has a node table, and lists no memory channel. -/
structure Ready (driver : Driver) : Prop where
  nodes : IsNodeTable driver.uncorePcibusToNodeid
  channels : driver.uncoreImcDevices = []

theorem ready_loaded (krefs : PciDev → Int) : Ready (Driver.loaded krefs) :=
  ⟨fun _ => Or.inr rfl, rfl⟩

/-- The bus mapping leaves a node table, and then the types are in use. -/
theorem meets_hswepPciInit :
    Call.Meets Ready (hswepPciInit host)
      (fun driver => driver.uncorePciType = pciTypes ∧ Ready driver) fun _ => True := by
  apply Call.Meets.andThen Ready
  · constructor
    · intro driver ready _
      rcases hswepPcibusToNodeid_spec host driver with ⟨table, valid, left, _⟩
      rw [left]
      exact ⟨valid ready.nodes, ready.channels⟩
    · intro _ _ _
      trivial
  · exact .act fun driver ready => ⟨rfl, ready.nodes, ready.channels⟩

theorem listed_uncorePciTypesInit {driver : Driver} (types : driver.uncorePciType = pciTypes)
    (ready : Ready driver) : Listed [] (uncorePciTypesInit driver) := by
  rw [uncorePciTypesInit_eq types]
  exact ⟨types, ready.nodes, fun _ => rfl, fun _ some => absurd rfl some,
    fun _ => List.Pairwise.nil, fun _ _ here => absurd here List.not_mem_nil, ready.channels⟩

theorem meets_uncorePciInit (host : Host) :
    Call.Meets Ready (uncorePciInit host)
      (Listed (host.bus.found (untilZeroIds hswepUncorePciIds))) fun _ => True := by
  apply Call.Meets.andThen fun driver =>
    driver.uncorePciType = pciTypes ∧ Ready driver
  · split
    · exact meets_hswepPciInit
    · exact .fail (by decide) fun _ _ => trivial
  · apply Call.Meets.andThen (Listed [])
    · exact .act fun driver ready => listed_uncorePciTypesInit ready.1 ready.2
    · exact meets_uncorePciVisitAll.onError _ fun _ _ => trivial

end Host

/-! ## What the lists guarantee -/

/-- The box lists of the PCI types hold one box for each device of the table. -/
structure OneBoxEach (bus : PciBus) (driver : Driver) : Prop where
  /-- A device has a box, in the list of its type and with the node of its bus, and it has
  no other box. -/
  one : ∀ ids ∈ untilZeroIds hswepUncorePciIds, ∀ pdev ∈ bus.devices, ids.describes pdev →
    ∃ type, ids.type? = some type ∧ ∃ box ∈ (driver.pciBoxes type).boxes,
      box.pdev = some pdev ∧ box.nodeid = driver.uncorePcibusToNodeid pdev.bus ∧
      ∀ type', ∀ box' ∈ (driver.pciBoxes type').boxes, box'.pdev = some pdev →
        type' = type ∧ box' = box
  once : ∀ type, (driver.pciBoxes type).boxes.Nodup
  /-- There are no other boxes. -/
  only : ∀ type, ∀ box ∈ (driver.pciBoxes type).boxes,
    ∃ ids ∈ untilZeroIds hswepUncorePciIds, ∃ pdev ∈ bus.devices, ids.describes pdev ∧
      ids.type? = some type ∧ box.pdev = some pdev

/-- The numbers of the boxes, and the count of each type. -/
structure Numbered (driver : Driver) : Prop where
  apart : ∀ type, ((driver.pciBoxes type).boxes.map fun box => (box.idx, box.nodeid)).Nodup
  count : ∀ type, (driver.pciBoxes type).boxes ≠ [] →
    (driver.pciBoxes type).numBoxes = (driver.pciBoxes type).boxes.length

/-- What the two lookup functions return. -/
structure LooksUp (bus : PciBus) (driver : Driver) : Prop where
  box : ∀ type, ∀ box ∈ (driver.pciBoxes type).boxes, box.nodeid ≠ unmapped →
    uncoreGetBox (driver.pciBoxes type).boxes box.idx box.nodeid = some box
  /-- No box is found just when no device of the type is on the node. -/
  none : ∀ type, ∀ node < 8,
    uncoreGetFirstBox (driver.pciBoxes type).boxes node = none ↔
      ∀ ids ∈ untilZeroIds hswepUncorePciIds, ids.type? = some type →
        ∀ pdev ∈ bus.devices, ids.describes pdev →
          driver.uncorePcibusToNodeid pdev.bus ≠ node
  /-- The box found is the earliest created of its node. -/
  first : ∀ type, ∀ node < 8, ∀ box,
    uncoreGetFirstBox (driver.pciBoxes type).boxes node = some box →
      box.nodeid = node ∧ ∃ slab ∈ (driver.pciBoxes type).boxList, slab.object = box ∧
        ∀ other ∈ (driver.pciBoxes type).boxList, other.object.nodeid = node →
          slab.address ≤ other.address

theorem uncoreGetFirstBox_eq {node : Nat} (boxes : List UncoreBox) (bound : node < 8) :
    uncoreGetFirstBox boxes node = boxes.find? (·.nodeid = node) := by
  apply if_neg
  rw [uncoreMaxSocket]
  omega

namespace Listed

variable {bus : PciBus} {driver : Driver}

/-- The devices of a type are those that an entry of the type describes. -/
theorem mem_devicesOfType {table : List PciDeviceId} {type : PciBoxType} {pdev : PciDev} :
    pdev ∈ devicesOfType type (bus.found table) ↔
      ∃ ids ∈ table, ids.type? = some type ∧ pdev ∈ bus.devices ∧ ids.describes pdev := by
  simp only [devicesOfType, List.mem_map, List.mem_filter, Prod.exists, exists_eq_right,
    mem_found, decide_eq_true_eq]
  constructor
  · rintro ⟨ids, ⟨entry, there, described⟩, named⟩
    exact ⟨ids, entry, named, there, described⟩
  · rintro ⟨ids, entry, named, there, described⟩
    exact ⟨ids, ⟨entry, there, described⟩, named⟩

/-- A device is found once, so it has one type. -/
theorem type_unique {ids ids' : PciDeviceId} {pdev : PciDev}
    (entry : ids ∈ untilZeroIds hswepUncorePciIds)
    (entry' : ids' ∈ untilZeroIds hswepUncorePciIds) (described : ids.describes pdev)
    (described' : ids'.describes pdev) : ids = ids' :=
  List.inj_on_of_nodup_map nodup_ids entry entry'
    ((describes_iff.mp described).symm.trans (describes_iff.mp described'))

theorem nodup_devicesOfType (bus : PciBus) (type : PciBoxType) :
    (devicesOfType type (bus.found (untilZeroIds hswepUncorePciIds))).Nodup :=
  (nodup_found nodup_ids).sublist (List.filter_sublist.map Prod.snd)

variable (listed : Listed (bus.found (untilZeroIds hswepUncorePciIds)) driver)
include listed

theorem mem_boxes {type : PciBoxType} {box : UncoreBox}
    (here : box ∈ (driver.pciBoxes type).boxes) :
    ∃ pdev ∈ devicesOfType type (bus.found (untilZeroIds hswepUncorePciIds)),
      box.pdev = some pdev ∧ box.nodeid = driver.uncorePcibusToNodeid pdev.bus := by
  rw [listed.boxes type] at here
  rcases mem_enumerate.mp here with ⟨idx, inside, rfl⟩
  exact ⟨_, List.getElem_mem inside, rfl, rfl⟩

theorem exists_box {type : PciBoxType} {pdev : PciDev}
    (here : pdev ∈ devicesOfType type (bus.found (untilZeroIds hswepUncorePciIds))) :
    ∃ box ∈ (driver.pciBoxes type).boxes,
      box.pdev = some pdev ∧ box.nodeid = driver.uncorePcibusToNodeid pdev.bus := by
  rcases List.getElem_of_mem here with ⟨idx, inside, rfl⟩
  rw [listed.boxes type]
  exact ⟨_, mem_enumerate.mpr ⟨idx, inside, rfl⟩, rfl, rfl⟩

theorem oneBoxEach : OneBoxEach bus driver where
  one ids entry pdev there described := by
    rcases Option.isSome_iff_exists.mp (isSome_type? ids entry) with ⟨type, named⟩
    rcases listed.exists_box (mem_devicesOfType.mpr ⟨ids, entry, named, there, described⟩) with
      ⟨box, here, device, node⟩
    refine ⟨type, named, box, here, device, node, ?_⟩
    intro type' box' here' device'
    have same : type' = type := by
      rcases listed.mem_boxes here' with ⟨pdev', of, device'', _⟩
      cases device'.symm.trans device''
      rcases mem_devicesOfType.mp of with ⟨ids', entry', named', _, described'⟩
      rw [type_unique entry' entry described' described] at named'
      exact Option.some.inj (named'.symm.trans named)
    subst same
    have apart : ((driver.pciBoxes type').boxes.map UncoreBox.pdev).Nodup := by
      rw [listed.boxes, map_pdev_enumerate]
      exact (nodup_devicesOfType bus type').map (Option.some_injective _)
    exact ⟨rfl, List.inj_on_of_nodup_map apart here' here (device'.trans device.symm)⟩
  once type := by
    rw [listed.boxes]
    exact nodup_enumerate
  only type box here := by
    rcases listed.mem_boxes here with ⟨pdev, of, device, _⟩
    rcases mem_devicesOfType.mp of with ⟨ids, entry, named, there, described⟩
    exact ⟨ids, entry, pdev, there, described, named, device⟩

theorem numbered : Numbered driver where
  apart type := by
    rw [listed.boxes]
    apply nodup_enumerate.map_on
    intro first here second there same
    exact eq_of_idx_eq here there (Prod.mk.inj same).1
  count type some := by
    rw [listed.boxes, length_enumerate]
    apply listed.numBoxes
    intro nothing
    rw [listed.boxes, nothing] at some
    exact some rfl

/-- The earliest entry that satisfies a test is the first on the list. -/
theorem address_le_of_find {type : PciBoxType} {holds : Slab UncoreBox → Bool}
    {slab : Slab UncoreBox} (found : (driver.pciBoxes type).boxList.find? holds = some slab) :
    ∀ other ∈ (driver.pciBoxes type).boxList, holds other → slab.address ≤ other.address := by
  rcases List.find?_eq_some_iff_append.mp found with ⟨_, earlier, later, split, none⟩
  intro other here satisfied
  have ordered := listed.ordered type
  rw [split] at here ordered
  rcases List.mem_append.mp here with before | after
  · have fails := none other before
    rw [satisfied] at fails
    exact absurd fails (by decide)
  · rcases List.mem_cons.mp after with same | behind
    · exact le_of_eq (congrArg Slab.address same.symm)
    · exact le_of_lt ((List.pairwise_cons.mp (List.pairwise_append.mp ordered).2.1).1 other behind)

theorem looksUp : LooksUp bus driver where
  box type box here mapped := by
    have node : ¬ box.nodeid > uncoreMaxSocket := by
      rcases listed.mem_boxes here with ⟨pdev, _, _, same⟩
      rw [same] at mapped ⊢
      have range := (listed.nodes pdev.bus).resolve_right mapped
      rw [uncoreMaxSocket]
      omega
    rw [uncoreGetBox, if_neg node]
    apply find?_eq_some_of_unique here
    · simp
    · intro other there same
      rw [listed.boxes] at here there
      exact eq_of_idx_eq there here (of_decide_eq_true same).1
  none type node bound := by
    rw [uncoreGetFirstBox_eq _ bound, List.find?_eq_none]
    constructor
    · intro nothing ids entry named pdev there described same
      rcases listed.exists_box (mem_devicesOfType.mpr ⟨ids, entry, named, there, described⟩) with
        ⟨box, here, _, node⟩
      exact nothing box here (decide_eq_true (node.trans same))
    · intro nowhere box here same
      rcases listed.mem_boxes here with ⟨pdev, of, _, node⟩
      rcases mem_devicesOfType.mp of with ⟨ids, entry, named, there, described⟩
      exact nowhere ids entry named pdev there described
        (node.symm.trans (of_decide_eq_true same))
  first type node bound box found := by
    rw [uncoreGetFirstBox_eq _ bound, BoxList.boxes, List.find?_map] at found
    rcases Option.map_eq_some_iff.mp found with ⟨slab, first, rfl⟩
    refine ⟨by simpa using List.find?_some first, slab, List.mem_of_find?_eq_some first, rfl, ?_⟩
    intro other there same
    exact listed.address_le_of_find first other there (by simpa using same)

end Listed

/-- After `uncore_pci_init` succeeds, whatever the machine: the node table holds nodes 0
to 7 or no node, each device of the table has its one box, the boxes of a type have
different numbers and are counted, and the lookups find what they should. -/
theorem uncorePciInit_boxes (host : Host) (krefs : PciDev → Int)
    (success : (uncorePciInit host (Driver.loaded krefs)).1 = 0) :
    IsNodeTable (uncorePciInit host (Driver.loaded krefs)).2.uncorePcibusToNodeid ∧
    OneBoxEach host.bus (uncorePciInit host (Driver.loaded krefs)).2 ∧
    Numbered (uncorePciInit host (Driver.loaded krefs)).2 ∧
    LooksUp host.bus (uncorePciInit host (Driver.loaded krefs)).2 := by
  have listed := (meets_uncorePciInit host).done (ready_loaded krefs) success
  exact ⟨listed.nodes, listed.oneBoxEach, listed.numbered, listed.looksUp⟩

theorem uncorePciInit_boxes_socket :
    IsNodeTable (uncorePciInit (socketHost 0x2FB4 fun _ => true)
      (Driver.loaded fun _ => 1)).2.uncorePcibusToNodeid ∧
    OneBoxEach (socketHost 0x2FB4 fun _ => true).bus
      (uncorePciInit (socketHost 0x2FB4 fun _ => true) (Driver.loaded fun _ => 1)).2 ∧
    Numbered (uncorePciInit (socketHost 0x2FB4 fun _ => true) (Driver.loaded fun _ => 1)).2 ∧
    LooksUp (socketHost 0x2FB4 fun _ => true).bus
      (uncorePciInit (socketHost 0x2FB4 fun _ => true) (Driver.loaded fun _ => 1)).2 :=
  uncorePciInit_boxes (socketHost 0x2FB4 fun _ => true) (fun _ => 1) (by decide +kernel)

end NvmEmulator.Discovery
