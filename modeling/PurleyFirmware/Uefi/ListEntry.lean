import PurleyFirmware.Foundation.CircularList
import Mathlib.Logic.Function.Basic

/-!
# `LIST_ENTRY`

The list functions of `BaseLib` that the drivers use, write by write. `ForwardLink` and `BackLink`
of the entries in memory are `next` and `prev`.

A list is known by its head, and `SwapListEntries` says of its two entries only that they are in one
list. Of its cases the drivers meet one: the second entry directly follows the first
(`IsRing.swapListEntries`).
-/

namespace PurleyFirmware.Uefi

universe u

variable {α : Type u} [DecidableEq α]

/-- `Entry->ForwardLink = Link`. -/
def setForwardLink (m : RingLinks α) (entry link : α) : RingLinks α :=
  { m with next := Function.update m.next entry link }

/-- `Entry->BackLink = Link`. -/
def setBackLink (m : RingLinks α) (entry link : α) : RingLinks α :=
  { m with prev := Function.update m.prev entry link }

/-- `InitializeListHead`. -/
def initializeListHead (m : RingLinks α) (listHead : α) : RingLinks α :=
  setBackLink (setForwardLink m listHead listHead) listHead listHead

/-- `IsListEmpty`. -/
def isListEmpty (m : RingLinks α) (listHead : α) : Bool := m.next listHead = listHead

/-- `InsertHeadList`. -/
def insertHeadList (m : RingLinks α) (listHead entry : α) : RingLinks α :=
  let m := setForwardLink m entry (m.next listHead)
  let m := setBackLink m entry listHead
  let m := setBackLink m (m.next entry) entry
  setForwardLink m listHead entry

/-- `InsertTailList`. -/
def insertTailList (m : RingLinks α) (listHead entry : α) : RingLinks α :=
  let m := setForwardLink m entry listHead
  let m := setBackLink m entry (m.prev listHead)
  let m := setForwardLink m (m.prev entry) entry
  setBackLink m listHead entry

/-- `RemoveEntryList`. It returns `ForwardLink` of the entry. -/
def removeEntryList (m : RingLinks α) (entry : α) : RingLinks α :=
  let m := setBackLink m (m.next entry) (m.prev entry)
  setForwardLink m (m.prev entry) (m.next entry)

/-- `SwapListEntries`. -/
def swapListEntries (m : RingLinks α) (firstEntry secondEntry : α) : RingLinks α :=
  if firstEntry = secondEntry then m
  else
    let m := removeEntryList m firstEntry
    let ptr := m.next firstEntry
    if m.prev ptr = secondEntry then insertTailList m secondEntry firstEntry
    else
      -- `InsertHeadList` returns the head it was given
      let m := insertHeadList m secondEntry firstEntry
      if ptr = secondEntry then m
      else insertTailList (removeEntryList m secondEntry) ptr secondEntry

variable {m : RingLinks α} {listHead entry : α} {l l' : List α}

/-! ### The edits -/

theorem initializeListHead_isRing :
    IsRing (initializeListHead m listHead) ([listHead] : List α) := by
  refine isRing_singleton.2 ⟨?_, ?_⟩
  · exact Function.update_self ..
  · exact Function.update_self ..

theorem insertHeadList_insertedAfter (hentry : entry ≠ listHead)
    (hfirst : entry ≠ m.next listHead) :
    InsertedAfter m (insertHeadList m listHead entry) listHead entry := by
  have hnext : (insertHeadList m listHead entry).next =
      Function.update (Function.update m.next entry (m.next listHead)) listHead entry := rfl
  have hprev : (insertHeadList m listHead entry).prev =
      Function.update (Function.update m.prev entry listHead) (m.next listHead) entry := by
    simp [insertHeadList, setForwardLink, setBackLink]
  constructor
  · rw [hnext, Function.update_self]
  · rw [hnext, Function.update_of_ne hentry, Function.update_self]
  · rw [hprev, Function.update_of_ne hfirst, Function.update_self]
  · rw [hprev, Function.update_self]
  · intro x hhead hnew
    rw [hnext, Function.update_of_ne hhead, Function.update_of_ne hnew]
  · intro x hafter hnew
    rw [hprev, Function.update_of_ne hafter, Function.update_of_ne hnew]

theorem removeEntryList_next : (removeEntryList m entry).next =
    Function.update m.next (m.prev entry) (m.next entry) := by
  have hprev : Function.update m.prev (m.next entry) (m.prev entry) entry = m.prev entry := by
    by_cases hself : entry = m.next entry
    · rw [← hself, Function.update_self]
    · rw [Function.update_of_ne hself]
  simp only [removeEntryList, setForwardLink, setBackLink, hprev]

theorem removeEntryList_prev : (removeEntryList m entry).prev =
    Function.update m.prev (m.next entry) (m.prev entry) := rfl

theorem removeEntryList_takenOut : TakenOut m (removeEntryList m entry) entry := by
  constructor
  · rw [removeEntryList_next, Function.update_self]
  · rw [removeEntryList_prev, Function.update_self]
  · intro x hx
    rw [removeEntryList_next, Function.update_of_ne hx]
  · intro x hx
    rw [removeEntryList_prev, Function.update_of_ne hx]

/-- The entry keeps its own link forward, which is what `RemoveEntryList` returns. -/
theorem removeEntryList_next_self : (removeEntryList m entry).next entry = m.next entry := by
  rw [removeEntryList_next]
  by_cases hself : entry = m.prev entry
  · rw [← hself, Function.update_self]
  · rw [Function.update_of_ne hself]

end PurleyFirmware.Uefi

namespace PurleyFirmware

open Uefi

universe u

variable {α : Type u} [DecidableEq α] {m : RingLinks α} {h e c : α} {l l' : List α}

/-! ### Lists -/

/-- `InsertHeadList` puts a new entry behind any entry of a list. -/
theorem IsRing.insertedAfter {c : Cycle α} {a : α} (hring : IsRing m c) (ha : a ∈ c)
    (he : e ∉ c) : InsertedAfter m (insertHeadList m a e) a e := by
  refine insertHeadList_insertedAfter ?_ ?_
  · rintro rfl
    exact he ha
  · rintro rfl
    exact he (hring.next_mem ha)

/-- `InsertHeadList` of an entry that is not in the list. -/
theorem IsRing.insertHeadList (hring : IsRing m (h :: l : List α)) (he : e ∉ h :: l) :
    IsRing (insertHeadList m h e) (h :: e :: l : List α) :=
  hring.insert he (hring.insertedAfter (by simp) he)

/-- `RemoveEntryList` of an entry of the list. -/
theorem IsRing.removeEntryList (hring : IsRing m (h :: (l ++ e :: l') : List α)) :
    IsRing (removeEntryList m e) (h :: (l ++ l') : List α) :=
  hring.takeOut_middle removeEntryList_takenOut

/-- What `SwapListEntries` does to two neighbours: the first is taken out and put behind the
second. -/
theorem swapListEntries_of_linked (hne : e ≠ c) (hlink : m.Linked e c) (hprev : m.prev e ≠ c) :
    swapListEntries m e c = Uefi.insertHeadList (Uefi.removeEntryList m e) c e := by
  have hptr : (Uefi.removeEntryList m e).next e = c := removeEntryList_next_self.trans hlink.1
  have hback : (Uefi.removeEntryList m e).prev c = m.prev e := by
    rw [removeEntryList_prev, hlink.1, Function.update_self]
  rw [swapListEntries, if_neg hne]
  simp only [hptr, hback, if_neg hprev, if_true]

/-- **`SwapListEntries` of neighbours.** They change places, and nothing else is different. -/
theorem IsRing.swapListEntries (hring : IsRing m (h :: (l ++ e :: c :: l') : List α)) :
    IsRing (swapListEntries m e c) (h :: (l ++ c :: e :: l') : List α) ∧
      KeepsOutside m (swapListEntries m e c) (h :: (l ++ e :: c :: l') : List α) := by
  have hturned : IsRing m (e :: c :: (l' ++ h :: l) : List α) := by
    rw [← List.cons_append, isRing_append_comm] at hring
    exact hring
  have hrest : e ∉ c :: (l' ++ h :: l) := (List.nodup_cons.1 (isRing_cons_iff.1 hturned).1).1
  have hne : e ≠ c := by
    rintro rfl
    exact hrest List.mem_cons_self
  have hprev : m.prev e ≠ c := by
    rintro rfl
    have hnodup := (isRing_cons_iff.1 hring).1
    rw [← List.cons_append] at hnodup
    exact List.disjoint_of_nodup_append hnodup hring.prev_mem (by simp)
  rw [swapListEntries_of_linked hne hturned.linked hprev]
  -- without `e` the ring has `c` where `e` was
  have hout : IsRing (Uefi.removeEntryList m e) (h :: (l ++ c :: l') : List α) :=
    hring.removeEntryList
  have he : e ∉ h :: (l ++ c :: l') := by
    simp only [List.mem_cons, List.mem_append] at hrest ⊢
    grind
  have hins : InsertedAfter (Uefi.removeEntryList m e)
      (Uefi.insertHeadList (Uefi.removeEntryList m e) c e) c e :=
    hout.insertedAfter (by simp) he
  refine ⟨hout.insert_middle he hins, ?_⟩
  refine (removeEntryList_takenOut.keepsOutside hring).trans
    (hins.keepsOutside hout (by simp) (fun x hx ↦ ?_) (by simp))
  simp only [Cycle.mem_coe_iff, List.mem_cons, List.mem_append] at hx ⊢
  grind

end PurleyFirmware
