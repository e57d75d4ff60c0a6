import Mathlib.Data.List.Nodup
import PurleyFirmware.PchSmi.Hardware

/-!
# The callback database

Every registration with the PCH SMI dispatcher is a **record** in one linked list, and the handle a
caller gets back is the address of the record's link. This module models the list, the insertion of
a record for the PCH specific SMI types, and the removal of a record together with the enable bits
nobody else uses.

## Addresses

Records are allocated from a pool. The model hands out addresses in increasing order and never
twice, so a handle identifies a record for the whole run, and a stale handle cannot be mistaken for
a newer record. Both facts are fields of `PchSmiDispatcher`: a database with a repeated or a future
address cannot be built, and no later proof has to exclude one.

The source recognises a freed record by the pattern the pool writes over freed memory. In the model
that is a handle that is not in the list.
-/

namespace PurleyFirmware.PchSmi

open PchSmmBitDesc

/-! ### Records -/

/-- The protocols through which a child can register. -/
inductive PchSmmProtocolType
  | usbType
  | sxType
  | swType
  | gpiType
  | powerButtonType
  | periodicTimerType
  | pchSmiDispatchType
  deriving DecidableEq, Repr

/-- The PCH specific kinds of SMI. -/
inductive PchSmiTypes
  | pchTcoSmiMchType
  | pchTcoSmiTcoTimeoutType
  | pchTcoSmiOsTcoType
  | pchTcoSmiNmiType
  | pchTcoSmiIntruderDetectType
  | pchTcoSmiSpiBiosWpType
  | pchTcoSmiLpcBiosWpType
  | pchTcoSmiNewCenturyType
  | pchPcieSmiRpHotplugType
  | pchPcieSmiRpLinkActiveType
  | pchPcieSmiRpLinkEqType
  | pchAcpiSmiPmeType
  | pchAcpiSmiPmeB0Type
  | pchAcpiSmiRtcAlarmType
  | pchAcpiSmiTmrOverflowType
  | pchGpioUnlockSmiType
  | pchEspiSmiEspiSlaveType
  | pchSmiSerialIrqType
  | pchSmiMcSmiType
  | pchSmiSmBusType
  | pchSmiSpiAsyncType
  | pchIoTrapSmiType
  deriving DecidableEq, Repr

/-- The functions a record can name to clear its source. A record that names none is cleared by the
default function. -/
inductive PchSmmClearSource
  | pchTcoSmiClearSource
  | pchTcoSmiClearSourceAndBlock
  | pchTcoSpiWpClearSource
  | pchTcoClearNewCenturySts
  | pchSmiSpiAsyncClearSource
  | pchSmmPeriodicTimerClearSource
  deriving DecidableEq, Repr

/-- The context a child of one of the standard protocols registers with. -/
inductive PchSmmContext
  | none
  | sx (type phase : Nat)
  | periodicTimer (period smiTickInterval : Nat)
  | sw (swSmiInputValue : Nat)
  | powerButton (phase : Nat)
  | usb (type : Nat)
  | gpi (gpiNum : Nat)
  deriving DecidableEq, Repr

/-- Which of the context functions of a record's protocol are present. -/
structure ContextFunctions where
  /-- The hook that reads the calling context from the hardware. -/
  getContext : Bool
  /-- The hook that compares two contexts. -/
  cmpContext : Bool
  /-- The hook that gathers the communication buffer. -/
  getCommBuffer : Bool
  deriving DecidableEq, Repr

/-- A record of the callback database. Function pointers are named by a number, with `none` for the
null pointer. -/
structure DatabaseRecord where
  /-- The address of the record's link, which is the handle of the registration. -/
  link : Nat
  /-- Status and enable bit description. -/
  srcDesc : PchSmmSourceDesc
  /-- The callback of a child of one of the standard protocols. -/
  callback : Option Nat
  /-- The context the child registered with. -/
  childContext : PchSmmContext
  /-- Special handling hook that clears the source. -/
  clearSource : Option PchSmmClearSource
  /-- The functions that make the callback code general. -/
  contextFunctions : ContextFunctions
  /-- The protocol that this record dispatches. -/
  protocolType : PchSmmProtocolType
  /-- The callback of a child of one of the PCH specific protocols. -/
  pchSmiCallback : Option Nat
  /-- The PCH specific kind of SMI. -/
  pchSmiType : PchSmiTypes
  deriving DecidableEq, Repr

/-! ### The dispatcher's state -/

/-- The state of the dispatcher: the callback database, the pool its records come from, the
hardware, and the two globals that the registrations read or patch. -/
structure PchSmiDispatcher (H : Type) where
  /-- The callback database, in list order. -/
  callbackDataBase : List DatabaseRecord
  /-- The next address the pool hands out. -/
  nextLink : Nat
  /-- The registers. -/
  hw : H
  /-- Whether the ready-to-lock event has been signalled. -/
  readyToLock : Bool
  /-- The source descriptor of BIOS write protection on LPC or eSPI, patched at registration. -/
  srcDescLpcBiosWp : PchSmmSourceDesc
  /-- No two records share an address. -/
  nodup_link : (callbackDataBase.map DatabaseRecord.link).Nodup
  /-- Records have addresses that were handed out. -/
  link_lt : ∀ r ∈ callbackDataBase, r.link < nextLink

namespace PchSmiDispatcher

variable {H : Type} (d : PchSmiDispatcher H)

/-- A handle is valid while its record is in the database. -/
def IsLinked (link : Nat) : Prop := ∃ r ∈ d.callbackDataBase, r.link = link

instance (link : Nat) : Decidable (d.IsLinked link) :=
  inferInstanceAs (Decidable (∃ r ∈ d.callbackDataBase, r.link = link))

/-- **A handle names one record.** -/
theorem eq_of_link_eq {r r' : DatabaseRecord} (hr : r ∈ d.callbackDataBase)
    (hr' : r' ∈ d.callbackDataBase) (h : r.link = r'.link) : r = r' :=
  List.inj_on_of_nodup_map d.nodup_link hr hr' h

/-- The address the pool hands out next is not in the database. -/
theorem not_isLinked_nextLink : ¬ d.IsLinked d.nextLink := by
  rintro ⟨r, hr, hlink⟩
  exact absurd (d.link_lt r hr) (by omega)

/-- The dispatcher after appending a record at the tail of the list. The record is built from the
address the pool hands out. -/
def insertTailList (record : Nat → DatabaseRecord) (hlink : ∀ link, (record link).link = link) :
    PchSmiDispatcher H :=
  { d with
    callbackDataBase := d.callbackDataBase ++ [record d.nextLink]
    nextLink := d.nextLink + 1
    nodup_link := by
      rw [List.map_append, List.nodup_append]
      refine ⟨d.nodup_link, by simp, ?_⟩
      intro l hl l' hl' heq
      obtain ⟨r, hr, rfl⟩ := List.mem_map.1 hl
      simp only [List.map_cons, List.map_nil, List.mem_singleton, hlink] at hl'
      exact absurd (d.link_lt r hr) (by omega)
    link_lt := by
      intro r hr
      rcases List.mem_append.1 hr with h | h
      · exact Nat.lt_succ_of_lt (d.link_lt r h)
      · rw [List.mem_singleton.1 h, hlink]
        exact Nat.lt_succ_self _ }

/-- The dispatcher after taking the record with a given address out of the list. -/
def removeEntryList (link : Nat) : PchSmiDispatcher H :=
  { d with
    callbackDataBase := d.callbackDataBase.filter fun r ↦ r.link != link
    nodup_link := d.nodup_link.sublist (List.filter_sublist.map _)
    link_lt := fun r hr ↦ d.link_lt r (List.mem_filter.1 hr).1 }

/-- The dispatcher after setting the clear-source hook of the record with a given address. -/
def setClearSource (link : Nat) (clearSource : PchSmmClearSource) : PchSmiDispatcher H :=
  { d with
    callbackDataBase := d.callbackDataBase.map fun r ↦
      if r.link = link then { r with clearSource := some clearSource } else r
    nodup_link := by
      have hmap : (DatabaseRecord.link ∘ fun r ↦
          if r.link = link then { r with clearSource := some clearSource } else r) =
          DatabaseRecord.link := by
        funext r
        simp only [Function.comp_apply]
        split <;> rfl
      rw [List.map_map, hmap]
      exact d.nodup_link
    link_lt := by
      intro r hr
      obtain ⟨r₀, hr₀, rfl⟩ := List.mem_map.1 hr
      have hlt := d.link_lt r₀ hr₀
      split <;> exact hlt }

/-- The dispatcher with other register contents. -/
def setHw (hw : H) : PchSmiDispatcher H := { d with hw := hw }

/-- The dispatcher after the pool has handed out an address for something that is not one of its
records. -/
def allocatePool : PchSmiDispatcher H :=
  { d with
    nextLink := d.nextLink + 1
    link_lt := fun r hr ↦ Nat.lt_succ_of_lt (d.link_lt r hr) }

@[simp] theorem setHw_callbackDataBase (hw : H) :
    (d.setHw hw).callbackDataBase = d.callbackDataBase := rfl

@[simp] theorem removeEntryList_callbackDataBase (link : Nat) :
    (d.removeEntryList link).callbackDataBase =
      d.callbackDataBase.filter fun r ↦ r.link != link := rfl

@[simp] theorem mem_removeEntryList {link : Nat} {r : DatabaseRecord} :
    r ∈ (d.removeEntryList link).callbackDataBase ↔ r ∈ d.callbackDataBase ∧ r.link ≠ link := by
  simp

@[simp] theorem isLinked_setHw (hw : H) (link : Nat) : (d.setHw hw).IsLinked link ↔ d.IsLinked link :=
  Iff.rfl

@[simp] theorem isLinked_allocatePool (link : Nat) : d.allocatePool.IsLinked link ↔ d.IsLinked link :=
  Iff.rfl

@[simp] theorem isLinked_insertTailList {record : Nat → DatabaseRecord}
    (hlink : ∀ link, (record link).link = link) (link : Nat) :
    (d.insertTailList record hlink).IsLinked link ↔ d.IsLinked link ∨ link = d.nextLink := by
  simp [IsLinked, insertTailList, or_and_right, exists_or, hlink, eq_comm]

@[simp] theorem isLinked_setClearSource (link' link : Nat) (clearSource : PchSmmClearSource) :
    (d.setClearSource link' clearSource).IsLinked link ↔ d.IsLinked link := by
  have hlink : ∀ r : DatabaseRecord,
      (if r.link = link' then { r with clearSource := some clearSource } else r).link = r.link := by
    intro r
    split <;> rfl
  simp [IsLinked, setClearSource, hlink]

@[simp] theorem isLinked_removeEntryList (link' link : Nat) :
    (d.removeEntryList link').IsLinked link ↔ d.IsLinked link ∧ link ≠ link' := by
  constructor
  · rintro ⟨r, hr, rfl⟩
    obtain ⟨hmem, hne⟩ := d.mem_removeEntryList.1 hr
    exact ⟨⟨r, hmem, rfl⟩, hne⟩
  · rintro ⟨⟨r, hr, rfl⟩, hne⟩
    exact ⟨r, d.mem_removeEntryList.2 ⟨hr, hne⟩, rfl⟩

/-- Setting the clear hook of the record just inserted leaves the older records as they were. -/
theorem mem_insertTailList_setClearSource {record : Nat → DatabaseRecord}
    (hlink : ∀ link, (record link).link = link) (clearSource : PchSmmClearSource)
    {r : DatabaseRecord}
    (hr : r ∈ ((d.insertTailList record hlink).setClearSource d.nextLink
      clearSource).callbackDataBase) :
    r ∈ d.callbackDataBase ∨ r = { record d.nextLink with clearSource := some clearSource } := by
  obtain ⟨r₀, hr₀, rfl⟩ := List.mem_map.1 hr
  rcases List.mem_append.1 hr₀ with hold | hnew
  · have hne : r₀.link ≠ d.nextLink := by
      have := d.link_lt r₀ hold
      omega
    rw [if_neg hne]
    exact Or.inl hold
  · rw [List.mem_singleton.1 hnew, if_pos (hlink _)]
    exact Or.inr rfl

theorem not_isLinked_removeEntryList (link : Nat) : ¬ (d.removeEntryList link).IsLinked link := by
  simp

end PchSmiDispatcher

/-! ### Insertion and removal -/

variable {H : Type} (P : PchHardware H)

/-- The record that the insertion of a PCH specific SMI builds. -/
def pchSmiRecord (srcDesc : PchSmmSourceDesc) (dispatchFunction : Option Nat)
    (pchSmiType : PchSmiTypes) (link : Nat) : DatabaseRecord where
  link := link
  srcDesc := srcDesc
  callback := none
  childContext := .none
  clearSource := none
  contextFunctions := ⟨false, false, false⟩
  protocolType := .pchSmiDispatchType
  pchSmiCallback := dispatchFunction
  pchSmiType := pchSmiType

/-- Create a record for a PCH specific SMI and append it to the database. `alloc` is the outcome of
the pool allocation. The last component is the handle written back, if one is written. -/
def pchSmiRecordInsert (d : PchSmiDispatcher H) (alloc : Bool) (srcDesc : PchSmmSourceDesc)
    (dispatchFunction : Option Nat) (pchSmiType : PchSmiTypes) :
    EfiStatus × PchSmiDispatcher H × Option Nat :=
  if compareSources srcDesc nullSourceDesc then (.invalidParameter, d, none)
  else if !alloc then (.outOfResources, d, none)
  else
    (.success, d.insertTailList (pchSmiRecord srcDesc dispatchFunction pchSmiType) fun _ ↦ rfl,
      some d.nextLink)

/-- Clear the enable bits of a removed record that no remaining record uses. -/
def clearUnsharedEnables (d : PchSmiDispatcher H) (recordToDelete : DatabaseRecord) : H :=
  recordToDelete.srcDesc.en.toList.foldl (fun hw bitDesc ↦
    if bitDesc.isBitDescNull then hw
    else if d.callbackDataBase.any fun r ↦ isBitEqualToAnySourceEn bitDesc r.srcDesc then hw
    else writeBitDesc P hw bitDesc false false) d.hw

/-- Take a record out of the database, clear the enables nobody else uses and free it. -/
def pchSmmCoreUnRegister (d : PchSmiDispatcher H) (dispatchHandle : Option Nat) :
    EfiStatus × PchSmiDispatcher H :=
  match dispatchHandle with
  | none => (.invalidParameter, d)
  | some link =>
    match d.callbackDataBase.find? fun r ↦ r.link == link with
    | none => (.invalidParameter, d)
    | some recordToDelete =>
      let d' := d.removeEntryList link
      (.success, d'.setHw (clearUnsharedEnables P d' recordToDelete))

/-! ### What insertion and removal do to the database -/

/-- **Insertion, by cases.** It fails and changes nothing, or it appends one fresh record. -/
theorem pchSmiRecordInsert_cases (d : PchSmiDispatcher H) (alloc : Bool)
    (srcDesc : PchSmmSourceDesc) (dispatchFunction : Option Nat) (pchSmiType : PchSmiTypes) :
    (∃ status, status.isError = true ∧
      pchSmiRecordInsert d alloc srcDesc dispatchFunction pchSmiType = (status, d, none)) ∨
    pchSmiRecordInsert d alloc srcDesc dispatchFunction pchSmiType =
      (.success, d.insertTailList (pchSmiRecord srcDesc dispatchFunction pchSmiType) fun _ ↦ rfl,
        some d.nextLink) := by
  unfold pchSmiRecordInsert
  split
  · exact Or.inl ⟨_, rfl, rfl⟩
  · split
    · exact Or.inl ⟨_, rfl, rfl⟩
    · exact Or.inr rfl

/-- A linked handle is found, as the one record it names. -/
theorem find?_eq_some_of_mem (d : PchSmiDispatcher H) {r : DatabaseRecord}
    (hr : r ∈ d.callbackDataBase) :
    (d.callbackDataBase.find? fun r' ↦ r'.link == r.link) = some r := by
  rcases hfind : d.callbackDataBase.find? fun r' ↦ r'.link == r.link with - | r'
  · exact absurd (List.find?_eq_none.1 hfind r hr) (by simp)
  · have hlink : r'.link = r.link := by simpa using List.find?_some hfind
    rw [hfind, d.eq_of_link_eq (List.mem_of_find?_eq_some hfind) hr hlink]

/-- **Removing a linked record succeeds**, and takes exactly that record out. -/
theorem pchSmmCoreUnRegister_of_mem (d : PchSmiDispatcher H) {r : DatabaseRecord}
    (hr : r ∈ d.callbackDataBase) :
    pchSmmCoreUnRegister P d (some r.link) =
      (.success, (d.removeEntryList r.link).setHw
        (clearUnsharedEnables P (d.removeEntryList r.link) r)) := by
  simp [pchSmmCoreUnRegister, find?_eq_some_of_mem d hr]

/-- A handle that is not linked is refused, and nothing changes. -/
theorem pchSmmCoreUnRegister_of_not_isLinked (d : PchSmiDispatcher H) {link : Nat}
    (h : ¬ d.IsLinked link) : pchSmmCoreUnRegister P d (some link) = (.invalidParameter, d) := by
  have hfind : (d.callbackDataBase.find? fun r ↦ r.link == link) = none := by
    rw [List.find?_eq_none]
    intro r hr hlink
    exact h ⟨r, hr, by simpa using hlink⟩
  simp [pchSmmCoreUnRegister, hfind]

/-- **Removal only removes**: the records afterwards are those before whose handle is another. -/
theorem callbackDataBase_pchSmmCoreUnRegister (d : PchSmiDispatcher H) (link : Nat) :
    (pchSmmCoreUnRegister P d (some link)).2.callbackDataBase =
      d.callbackDataBase.filter fun r ↦ r.link != link := by
  by_cases h : d.IsLinked link
  · obtain ⟨r, hr, rfl⟩ := h
    simp [pchSmmCoreUnRegister_of_mem P d hr]
  · rw [pchSmmCoreUnRegister_of_not_isLinked P d h]
    refine (List.filter_eq_self.2 fun r hr ↦ ?_).symm
    simpa using fun hlink ↦ h ⟨r, hr, hlink⟩

/-- Removal unlinks the handle it is given and no other. -/
@[simp] theorem isLinked_pchSmmCoreUnRegister (d : PchSmiDispatcher H) (link' link : Nat) :
    (pchSmmCoreUnRegister P d (some link')).2.IsLinked link ↔ d.IsLinked link ∧ link ≠ link' := by
  rw [← d.isLinked_removeEntryList link' link]
  unfold PchSmiDispatcher.IsLinked
  rw [callbackDataBase_pchSmmCoreUnRegister, PchSmiDispatcher.removeEntryList_callbackDataBase]

@[simp] theorem nextLink_pchSmmCoreUnRegister (d : PchSmiDispatcher H)
    (dispatchHandle : Option Nat) :
    (pchSmmCoreUnRegister P d dispatchHandle).2.nextLink = d.nextLink := by
  unfold pchSmmCoreUnRegister
  split
  · rfl
  · split <;> rfl

@[simp] theorem readyToLock_pchSmmCoreUnRegister (d : PchSmiDispatcher H)
    (dispatchHandle : Option Nat) :
    (pchSmmCoreUnRegister P d dispatchHandle).2.readyToLock = d.readyToLock := by
  unfold pchSmmCoreUnRegister
  split
  · rfl
  · split <;> rfl

end PurleyFirmware.PchSmi
