/-
# The node of a bus

`hswep_pcibus_to_nodeid` reads two registers of every UBOX: the node id of the socket, and
eight 3-bit groups of which the one that holds the id gives the node of the UBOX's bus. It
compares the whole of the first register with each group, and without a UBOX its result is
whatever `err` held. It changes the node table alone.
-/

import NvmEmulator.Discovery.Rounds
import Mathlib.Data.List.TakeWhile

namespace NvmEmulator.Discovery

open NvmEmulator.Kernel NvmEmulator.Semantics NvmEmulator.Uncore

section Host

variable (host : Host)

/-- The register with the node id. -/
def Host.nodeIdRegister (ubox : PciDev) : BitVec 32 := (host.configDword ubox 0x40).2

/-- A 3-bit group of the mapping register. -/
def Host.nodeGroup (ubox : PciDev) (i : Nat) : BitVec 32 :=
  (host.configDword ubox 0x54).2 >>> (i * 3) &&& 0x7

/-- The least group that holds a value. -/
def Host.groupWith (ubox : PciDev) (value : BitVec 32) : Option Nat :=
  (List.range 8).find? fun i => value = host.nodeGroup ubox i

/-- The codes of the reads on a list of UBOX devices, in order. -/
def Host.readCodes (uboxes : List PciDev) : List Int :=
  uboxes.flatMap fun ubox => [(host.configDword ubox 0x40).1, (host.configDword ubox 0x54).1]

/-- The code of the first read that fails. -/
def Host.firstError (uboxes : List PciDev) : Option Int :=
  (host.readCodes uboxes).find? (· ≠ 0)

/-- The node table after a round that could read. -/
def mapUbox (table : BitVec 8 → Nat) (ubox : PciDev) : BitVec 8 → Nat :=
  match host.groupWith ubox (host.nodeIdRegister ubox) with
  | none => table
  | some i => Function.update table ubox.bus i

/-! ## The walk -/

theorem readCodes_cons (ubox : PciDev) (rest : List PciDev) :
    host.readCodes (ubox :: rest) =
      (host.configDword ubox 0x40).1 :: (host.configDword ubox 0x54).1 ::
        host.readCodes rest := rfl

theorem firstError_cons_of_readable {ubox : PciDev} (readable : host.Readable ubox)
    (rest : List PciDev) : host.firstError (ubox :: rest) = host.firstError rest := by
  rw [Host.firstError, readCodes_cons, readable.1, readable.2]
  rfl

theorem firstError_eq_none {uboxes : List PciDev} :
    host.firstError uboxes = none ↔ ∀ ubox ∈ uboxes, host.Readable ubox := by
  simp [Host.firstError, Host.readCodes, Host.Readable, or_imp, forall_and]

theorem firstError_ne_zero {uboxes : List PciDev} {code : Int}
    (failed : host.firstError uboxes = some code) : code ≠ 0 := by
  simpa using List.find?_some failed

theorem readNodeMapping_readable {ubox : PciDev} (readable : host.Readable ubox)
    (driver : Driver) :
    readNodeMapping host ubox driver =
      (0, driver.withNodes (mapUbox host driver.uncorePcibusToNodeid ubox)) := by
  have search : ((List.range 8).find? fun i => (host.configDword ubox 0x40).2 =
      (host.configDword ubox 0x54).2 >>> (i * 3) &&& 0x7) =
      host.groupWith ubox (host.nodeIdRegister ubox) := rfl
  simp only [readNodeMapping, readable.1, readable.2, ne_eq, not_true, if_false, search, mapUbox]
  cases host.groupWith ubox (host.nodeIdRegister ubox) with
  | none => rfl
  | some i => rfl

theorem readNodeMapping_unreadable {ubox : PciDev} (unreadable : ¬ host.Readable ubox)
    (rest : List PciDev) (driver : Driver) :
    ∃ code, host.firstError (ubox :: rest) = some code ∧
      readNodeMapping host ubox driver = (code, driver) := by
  by_cases nodeid : (host.configDword ubox 0x40).1 = 0
  · have mapping : (host.configDword ubox 0x54).1 ≠ 0 := fun zero => unreadable ⟨nodeid, zero⟩
    refine ⟨(host.configDword ubox 0x54).1, ?_, ?_⟩
    · rw [Host.firstError, readCodes_cons, List.find?_cons_of_neg (by rw [nodeid]; decide),
        List.find?_cons_of_pos (by simpa using mapping)]
    · simp only [readNodeMapping, nodeid, ne_eq, not_true, if_false, mapping, not_false_eq_true,
        if_true]
  · refine ⟨(host.configDword ubox 0x40).1, ?_, ?_⟩
    · rw [Host.firstError, readCodes_cons, List.find?_cons_of_pos (by simpa using nodeid)]
    · simp only [readNodeMapping, ne_eq, nodeid, not_false_eq_true, if_true]

instance (ubox : PciDev) : Decidable (host.Readable ubox) :=
  inferInstanceAs (Decidable (_ ∧ _))

/-- The node table after the UBOX devices that come before a read that fails. -/
def mapUboxes (uboxes : List PciDev) (table : BitVec 8 → Nat) : BitVec 8 → Nat :=
  (uboxes.takeWhile fun ubox => decide (host.Readable ubox)).foldl (mapUbox host) table

/-- The walk maps one UBOX after the other and stops at the first read that fails. It
returns every reference it takes, once the one it leaves with is dropped too. -/
theorem walkDevices_mapping (uboxes : List PciDev) (err : Int) (driver : Driver) :
    (walkDevices (readNodeMapping host) uboxes err driver).1 =
        (host.firstError uboxes).getD (if uboxes = [] then err else 0) ∧
      (walkDevices (readNodeMapping host) uboxes err driver).2.2.pciDevPut
          (walkDevices (readNodeMapping host) uboxes err driver).2.1 =
        driver.withNodes (mapUboxes host uboxes driver.uncorePcibusToNodeid) := by
  induction uboxes generalizing err driver with
  | nil => exact ⟨rfl, rfl⟩
  | cons ubox rest ih =>
      by_cases readable : host.Readable ubox
      · have round := readNodeMapping_readable host readable (driver.getDevice ubox)
        have put : ((driver.getDevice ubox).withNodes
            (mapUbox host driver.uncorePcibusToNodeid ubox)).pciDevPut (some ubox) =
            driver.withNodes (mapUbox host driver.uncorePcibusToNodeid ubox) :=
          congrArg (Driver.withNodes · _) (pciDevPut_getDevice ubox driver)
        have walk : walkDevices (readNodeMapping host) (ubox :: rest) err driver =
            walkDevices (readNodeMapping host) rest 0
              (driver.withNodes (mapUbox host driver.uncorePcibusToNodeid ubox)) := by
          rw [walkDevices, round, if_pos rfl]
          exact congrArg _ put
        have tables : mapUboxes host (ubox :: rest) driver.uncorePcibusToNodeid =
            mapUboxes host rest (mapUbox host driver.uncorePcibusToNodeid ubox) := by
          have first : decide (host.Readable ubox) = true := decide_eq_true readable
          simp only [mapUboxes, List.takeWhile_cons, first, if_true, List.foldl_cons]
        rcases ih 0 (driver.withNodes (mapUbox host driver.uncorePcibusToNodeid ubox)) with
          ⟨code, table⟩
        rw [walk, firstError_cons_of_readable host readable, tables]
        refine ⟨?_, table⟩
        rw [code, if_neg (List.cons_ne_nil ubox rest), ite_self]
      · rcases readNodeMapping_unreadable host readable rest (driver.getDevice ubox) with
          ⟨code, failed, round⟩
        have nonzero := firstError_ne_zero host failed
        have tables : mapUboxes host (ubox :: rest) driver.uncorePcibusToNodeid =
            driver.uncorePcibusToNodeid := by
          have first : decide (host.Readable ubox) = false := decide_eq_false readable
          simp only [mapUboxes, List.takeWhile_cons, first, Bool.false_eq_true, if_false,
            List.foldl_nil]
        rw [walkDevices, round, failed, tables]
        simp only [if_neg nonzero, pciDevPut_getDevice, Option.getD_some, true_and]
        rfl

/-! ## The table -/

theorem mapUbox_self (table : BitVec 8 → Nat) (ubox : PciDev) :
    mapUbox host table ubox ubox.bus =
      (host.groupWith ubox (host.nodeIdRegister ubox)).getD (table ubox.bus) := by
  rw [mapUbox]
  cases host.groupWith ubox (host.nodeIdRegister ubox) with
  | none => rfl
  | some i => exact Function.update_self _ _ _

theorem mapUbox_of_ne {ubox : PciDev} {bus : BitVec 8} (other : ubox.bus ≠ bus)
    (table : BitVec 8 → Nat) : mapUbox host table ubox bus = table bus := by
  rw [mapUbox]
  cases host.groupWith ubox (host.nodeIdRegister ubox) with
  | none => rfl
  | some i => exact Function.update_of_ne other.symm _ _

/-- A bus without a UBOX keeps its entry. -/
theorem foldl_mapUbox_other {uboxes : List PciDev} {bus : BitVec 8}
    (other : ∀ ubox ∈ uboxes, ubox.bus ≠ bus) (table : BitVec 8 → Nat) :
    uboxes.foldl (mapUbox host) table bus = table bus := by
  induction uboxes generalizing table with
  | nil => rfl
  | cons ubox rest ih =>
      rw [List.foldl_cons, ih fun later mem => other later (List.mem_cons_of_mem _ mem)]
      exact mapUbox_of_ne host (other ubox List.mem_cons_self) table

/-- The bus of a UBOX gets the group that holds its register. -/
theorem foldl_mapUbox_own {uboxes : List PciDev} (distinct : (uboxes.map PciDev.bus).Nodup)
    {ubox : PciDev} (mem : ubox ∈ uboxes) (table : BitVec 8 → Nat) :
    uboxes.foldl (mapUbox host) table ubox.bus =
      (host.groupWith ubox (host.nodeIdRegister ubox)).getD (table ubox.bus) := by
  induction uboxes generalizing table with
  | nil => exact absurd mem List.not_mem_nil
  | cons first rest ih =>
      rcases List.nodup_cons.mp distinct with ⟨apart, restDistinct⟩
      rw [List.foldl_cons]
      rcases List.mem_cons.mp mem with rfl | later
      · have other : ∀ later ∈ rest, later.bus ≠ ubox.bus :=
          fun later listed same => apart (same ▸ List.mem_map_of_mem listed)
        rw [foldl_mapUbox_other host other, mapUbox_self]
      · have differs : first.bus ≠ ubox.bus :=
          fun same => apart (same ▸ List.mem_map_of_mem later)
        rw [ih restDistinct later, mapUbox_of_ne host differs]

/-- A register with other bits than the node id equals no group. -/
theorem groupWith_wide {ubox : PciDev} {value : BitVec 32} (wide : value &&& 0x7 ≠ value) :
    host.groupWith ubox value = none := by
  rw [Host.groupWith, List.find?_eq_none]
  intro i _ same
  have group : value = host.nodeGroup ubox i := by simpa using same
  apply wide
  rw [group, Host.nodeGroup, BitVec.and_assoc, BitVec.and_self]

theorem groupWith_eq_none {ubox : PciDev} {value : BitVec 32} :
    host.groupWith ubox value = none ↔ ∀ i < 8, value ≠ host.nodeGroup ubox i := by
  simp [Host.groupWith, List.find?_eq_none]

theorem groupWith_lt {ubox : PciDev} {value : BitVec 32} {i : Nat}
    (found : host.groupWith ubox value = some i) : i < 8 :=
  List.mem_range.mp (List.mem_of_find?_eq_some found)

/-! ## The function -/

/-- The UBOX devices that `hswep_pcibus_to_nodeid(0x2F1E)` visits. -/
def Host.uboxes : List PciDev := host.bus.matching uboxIds

/-- The code that the walk leaves in `err`. -/
def Host.walkCode : Int :=
  (host.firstError host.uboxes).getD (if host.uboxes = [] then host.uninitialised else 0)

/-- The function turns the code of the walk into an errno, and changes the node table
alone. -/
theorem hswepPcibusToNodeid_eq (driver : Driver) :
    hswepPcibusToNodeid host 0x2F1E driver =
      (if host.walkCode ≠ 0 then pcibiosErrToErrno host.walkCode else 0,
        driver.withNodes (mapUboxes host host.uboxes driver.uncorePcibusToNodeid)) := by
  have walk : whilePciDevice host.bus ⟨pciVendorIdIntel, 0x2F1E, 0⟩ (readNodeMapping host) none
      host.uninitialised driver =
      walkDevices (readNodeMapping host) host.uboxes host.uninitialised driver :=
    whilePciDevice_eq _ _ _ _ _ _
  rcases walkDevices_mapping host host.uboxes host.uninitialised driver with ⟨code, table⟩
  rw [hswepPcibusToNodeid, walk, code, table]
  rfl

theorem hswepPcibusToNodeid_readable (driver : Driver)
    (readable : ∀ ubox ∈ host.uboxes, host.Readable ubox) :
    hswepPcibusToNodeid host 0x2F1E driver =
      (if host.uboxes = [] then
          (if host.uninitialised ≠ 0 then pcibiosErrToErrno host.uninitialised else 0)
        else 0,
        driver.withNodes (host.uboxes.foldl (mapUbox host) driver.uncorePcibusToNodeid)) := by
  have whole : (host.uboxes.takeWhile fun ubox => decide (host.Readable ubox)) = host.uboxes :=
    List.takeWhile_eq_self_iff.mpr fun ubox mem => decide_eq_true (readable ubox mem)
  rw [hswepPcibusToNodeid_eq, mapUboxes, whole, Host.walkCode,
    (firstError_eq_none host).mpr readable, Option.getD_none]
  by_cases none : host.uboxes = []
  · simp only [if_pos none]
  · simp only [if_neg none, ne_eq, not_true, if_false]

theorem hswepPcibusToNodeid_failed (driver : Driver) {code : Int}
    (failed : host.firstError host.uboxes = some code) :
    (hswepPcibusToNodeid host 0x2F1E driver).1 = pcibiosErrToErrno code := by
  rw [hswepPcibusToNodeid_eq, Host.walkCode, failed, Option.getD_some]
  exact if_pos (firstError_ne_zero host failed)

theorem pcibiosErrToErrno_neg {err : Int} (nonzero : err ≠ 0) : pcibiosErrToErrno err < 0 := by
  unfold pcibiosErrToErrno
  split
  · omega
  · simp only [enoent, efault]
    split_ifs <;> decide

theorem walkCode_eq_zero_iff : host.walkCode = 0 ↔ host.Mapped := by
  have mapped : host.Mapped ↔ (∀ ubox ∈ host.uboxes, host.Readable ubox) ∧
      (host.uboxes = [] → host.uninitialised = 0) := Iff.rfl
  rw [mapped, ← firstError_eq_none, Host.walkCode]
  cases failed : host.firstError host.uboxes with
  | none => simp
  | some code => simp [firstError_ne_zero host failed]

theorem isNodeTable_mapUbox {table : BitVec 8 → Nat} (valid : IsNodeTable table)
    (ubox : PciDev) : IsNodeTable (mapUbox host table ubox) := by
  intro bus
  by_cases same : ubox.bus = bus
  · subst same
    rw [mapUbox_self]
    cases found : host.groupWith ubox (host.nodeIdRegister ubox) with
    | none => exact valid ubox.bus
    | some i => exact Or.inl (groupWith_lt host found)
  · rw [mapUbox_of_ne host same]
    exact valid bus

theorem isNodeTable_foldl (uboxes : List PciDev) :
    ∀ table, IsNodeTable table → IsNodeTable (uboxes.foldl (mapUbox host) table) := by
  induction uboxes with
  | nil => exact fun _ valid => valid
  | cons ubox rest ih => exact fun table valid => ih _ (isNodeTable_mapUbox host valid ubox)

/-- What the later parts of the discovery use of the mapping. -/
theorem hswepPcibusToNodeid_spec (driver : Driver) :
    ∃ table, (IsNodeTable driver.uncorePcibusToNodeid → IsNodeTable table) ∧
      (hswepPcibusToNodeid host 0x2F1E driver).2 = driver.withNodes table ∧
      ((hswepPcibusToNodeid host 0x2F1E driver).1 = 0 ↔ host.Mapped) := by
  rw [hswepPcibusToNodeid_eq, ← walkCode_eq_zero_iff]
  refine ⟨_, isNodeTable_foldl host _ driver.uncorePcibusToNodeid, rfl, ?_⟩
  by_cases zero : host.walkCode = 0
  · simp [zero]
  · simp [zero, (pcibiosErrToErrno_neg zero).ne]

/-- The function returns 0 if all its reads succeed and the errno of the first that fails
otherwise. When it returns 0, the bus of each UBOX has the least group that holds the
3-bit node id of the UBOX, and no other bus has a node. -/
structure NodesMapped (driver : Driver) : Prop where
  success : (∀ ubox ∈ host.uboxes, host.Readable ubox) →
    (hswepPcibusToNodeid host 0x2F1E driver).1 = 0
  failure : ∀ code, host.firstError host.uboxes = some code →
    (hswepPcibusToNodeid host 0x2F1E driver).1 = pcibiosErrToErrno code ∧
      (hswepPcibusToNodeid host 0x2F1E driver).1 < 0
  own : (hswepPcibusToNodeid host 0x2F1E driver).1 = 0 → ∀ ubox ∈ host.uboxes,
    (hswepPcibusToNodeid host 0x2F1E driver).2.uncorePcibusToNodeid ubox.bus =
      (host.groupWith ubox (host.nodeIdRegister ubox &&& 0x7)).getD unmapped
  others : (hswepPcibusToNodeid host 0x2F1E driver).1 = 0 →
    ∀ bus, (∀ ubox ∈ host.uboxes, ubox.bus ≠ bus) →
      (hswepPcibusToNodeid host 0x2F1E driver).2.uncorePcibusToNodeid bus = unmapped

/-- On the UBOX's bus the whole register and its 3-bit node id find the same. -/
def SameGroup (ubox : PciDev) : Prop :=
  host.nodeIdRegister ubox &&& 0x7 = host.nodeIdRegister ubox ∨
    ∀ i < 8, host.nodeIdRegister ubox &&& 0x7 ≠ host.nodeGroup ubox i

theorem sameGroup_iff (ubox : PciDev) :
    SameGroup host ubox ↔
      (host.groupWith ubox (host.nodeIdRegister ubox)).getD unmapped =
        (host.groupWith ubox (host.nodeIdRegister ubox &&& 0x7)).getD unmapped := by
  by_cases narrow : host.nodeIdRegister ubox &&& 0x7 = host.nodeIdRegister ubox
  · rw [narrow]
    exact iff_of_true (Or.inl narrow) rfl
  · rw [groupWith_wide host narrow, Option.getD_none, SameGroup, or_iff_right narrow,
      ← groupWith_eq_none]
    cases found : host.groupWith ubox (host.nodeIdRegister ubox &&& 0x7) with
    | none => simp
    | some i =>
        have below := groupWith_lt host found
        have apart : unmapped ≠ i := by
          rw [unmapped]
          omega
        simpa using apart

/-- On distinct buses, from a table without nodes, the function does what it should exactly
when it does not return an `err` it never assigned, and, if it can read all registers, no
bits above the node id hide a group that holds it. -/
theorem nodesMapped_iff (distinct : (host.uboxes.map PciDev.bus).Nodup) {driver : Driver}
    (fresh : driver.uncorePcibusToNodeid = fun _ => unmapped) :
    NodesMapped host driver ↔
      (host.uboxes = [] → host.uninitialised = 0) ∧
      ((∀ ubox ∈ host.uboxes, host.Readable ubox) →
        ∀ ubox ∈ host.uboxes, SameGroup host ubox) := by
  constructor
  · intro mapped
    refine ⟨fun none => ?_, fun readable ubox mem => ?_⟩
    · have readable : ∀ ubox ∈ host.uboxes, host.Readable ubox := by simp [none]
      have zero := mapped.success readable
      rw [hswepPcibusToNodeid_readable host driver readable] at zero
      simp only [if_pos none] at zero
      by_contra nonzero
      rw [if_pos nonzero] at zero
      exact absurd zero (pcibiosErrToErrno_neg nonzero).ne
    · have own := mapped.own (mapped.success readable) ubox mem
      rw [hswepPcibusToNodeid_readable host driver readable] at own
      rw [sameGroup_iff, ← own, fresh]
      exact (foldl_mapUbox_own host distinct mem fun _ => unmapped).symm
  · rintro ⟨assigned, same⟩
    by_cases readable : ∀ ubox ∈ host.uboxes, host.Readable ubox
    · have run := hswepPcibusToNodeid_readable host driver readable
      rw [fresh] at run
      have zero : (hswepPcibusToNodeid host 0x2F1E driver).1 = 0 := by
        rw [run]
        by_cases none : host.uboxes = []
        · simp only [if_pos none, assigned none, ne_eq, not_true, if_false]
        · simp only [if_neg none]
      refine ⟨fun _ => zero, fun code failed => ?_, fun _ ubox mem => ?_, fun _ bus other => ?_⟩
      · rw [(firstError_eq_none host).mpr readable] at failed
        cases failed
      · rw [run, ← (sameGroup_iff host ubox).mp (same readable ubox mem)]
        exact foldl_mapUbox_own host distinct mem _
      · rw [run]
        exact foldl_mapUbox_other host other _
    · have failed : ∃ code, host.firstError host.uboxes = some code := by
        rw [← Option.isSome_iff_exists, Option.isSome_iff_ne_none]
        exact fun none => readable ((firstError_eq_none host).mp none)
      rcases failed with ⟨code, failed⟩
      have result := hswepPcibusToNodeid_failed host driver failed
      have negative := pcibiosErrToErrno_neg (firstError_ne_zero host failed)
      rw [← result] at negative
      refine ⟨fun all => absurd all readable, fun other same => ?_,
        fun zero => absurd zero negative.ne, fun zero => absurd zero negative.ne⟩
      cases failed.symm.trans same
      exact ⟨result, negative⟩

end Host

/-- A socket whose UBOX holds the given values. -/
def uboxHost (register mapping : BitVec 32) : Host where
  bus := { devices := [⟨pciVendorIdIntel, 0x2F1E, 0xFF, 0x80⟩], nodup := by simp }
  x86Model := 63
  x86MaxCores := 2
  configDword := fun _ offset => (0, if offset = 0x40 then register else mapping)
  kzalloc := fun _ => true
  procCreate := true
  uninitialised := 1

/-- Node id 1, which the second group holds. -/
theorem nodesMapped_ubox : NodesMapped (uboxHost 0x1 0x8) (Driver.loaded fun _ => 1) :=
  (nodesMapped_iff (uboxHost 0x1 0x8) (by decide) rfl).mpr
    ⟨fun none => absurd none (by decide), fun _ _ _ =>
      Or.inl (show 0x1#32 &&& 0x7 = 0x1 by decide)⟩

/-- The same node id with another bit of its register set: the bus gets no node. -/
theorem not_nodesMapped_ubox :
    ¬ ∀ (host : Host) (driver : Driver), (host.uboxes.map PciDev.bus).Nodup →
      (driver.uncorePcibusToNodeid = fun _ => unmapped) → NodesMapped host driver := by
  intro claim
  have mapped := claim (uboxHost 0x401 0x8) (Driver.loaded fun _ => 1) (by decide) rfl
  have readable : ∀ ubox ∈ (uboxHost 0x401 0x8).uboxes, (uboxHost 0x401 0x8).Readable ubox :=
    fun _ _ => ⟨rfl, rfl⟩
  have own := mapped.own (mapped.success readable)
    ⟨pciVendorIdIntel, 0x2F1E, 0xFF, 0x80⟩ (by decide)
  rw [hswepPcibusToNodeid_readable (uboxHost 0x401 0x8) (Driver.loaded fun _ => 1) readable]
    at own
  revert own
  decide

end NvmEmulator.Discovery
