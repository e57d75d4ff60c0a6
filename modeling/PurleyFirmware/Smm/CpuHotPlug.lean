import PurleyFirmware.Foundation.Runs
import PurleyFirmware.Foundation.Tally
import PurleyFirmware.Uefi.Status

/-!
# Processors that come and go

`PiSmmCpuDxeSmm/CpuService.c` keeps the list of processors. SMI handlers add and remove processors
and ask for a new BSP; what they ask for is noted in `Operation[]`, one slot a processor, and carried
out by `SmmCpuUpdate` when the handlers are done. Between the calls the RAS handler writes the APIC
IDs of `mCpuHotPlugData` as it likes.

The slots are where this goes wrong. A removed processor's slot can be given to a new processor in
the same SMI, and then the removal that waits in it is forgotten: `mNumberOfCpus` goes up for the new
processor and does not go down for the old one. `along_bookkeepingOk_iff` says that nothing else goes
wrong: in a run of SMIs the list and the counter agree after each of them exactly if no processor is
added to a slot in which a removal waits.

Left out are the locations and the status flags of the processors, which nothing here reads, and the
BSP that is chosen in the end.
-/

namespace PurleyFirmware.HotPlug

/-! ### The processors -/

/-- `INVALID_APIC_ID`. -/
def invalidApicId : BitVec 64 := 0xFFFFFFFFFFFFFFFF

/-- The platform, and what the MP services answer when the list is set up. -/
structure CpuPlatform where
  /-- `PcdCpuHotPlugSupport`. -/
  pcdCpuHotPlugSupport : Bool
  /-- `PcdCpuMaxLogicalProcessorNumber`. -/
  pcdCpuMaxLogicalProcessorNumber : BitVec 32
  /-- `GetNumberOfProcessors`. -/
  numberOfProcessors : ℕ
  /-- The source asserts this. -/
  numberOfProcessors_le : numberOfProcessors ≤ pcdCpuMaxLogicalProcessorNumber.toNat
  /-- The APIC ID that `GetProcessorInfo` returns. -/
  processorId : ℕ → BitVec 64
  /-- It is one. -/
  processorId_ne : ∀ i < numberOfProcessors, processorId i ≠ invalidApicId
  /-- Each processor has its own. -/
  processorId_inj : ∀ i < numberOfProcessors, ∀ j < numberOfProcessors,
    processorId i = processorId j → i = j

/-- `mMaxNumberOfCpus`. -/
def CpuPlatform.mMaxNumberOfCpus (C : CpuPlatform) : ℕ :=
  if C.pcdCpuHotPlugSupport then C.pcdCpuMaxLogicalProcessorNumber.toNat else C.numberOfProcessors

/-- `SMM_CPU_OPERATION`. -/
inductive SmmCpuOperation
  | smmCpuNone
  | smmCpuAdd
  | smmCpuRemove
  | smmCpuSwitchBsp
  deriving DecidableEq

/-- What the arrays hold for one processor number. -/
structure CpuSlot where
  /-- `ProcessorInfo[].ProcessorId`. -/
  processorId : BitVec 64
  /-- `Operation[]`. -/
  operation : SmmCpuOperation
  /-- `mCpuHotPlugData.ApicId[]`. -/
  apicId : BitVec 64
  deriving DecidableEq

/-- The slot has a processor. -/
def CpuSlot.Valid (c : CpuSlot) : Prop := c.processorId ≠ invalidApicId

instance {c : CpuSlot} : Decidable c.Valid := inferInstanceAs (Decidable (_ ≠ _))

/-- The lists, and what `SmmCpuUpdate` writes. -/
structure CpuLists where
  /-- The arrays. -/
  cpu : ℕ → CpuSlot
  /-- `mNumberOfCpus`. -/
  mNumberOfCpus : BitVec 64
  /-- `mSmmMpSyncData->SwitchBsp`. -/
  switchBsp : Bool
  /-- `mSmmMpSyncData->CandidateBsp[]`. -/
  candidateBsp : ℕ → Bool

/-- The entries of `PiCpuSmmEntry` for a slot. -/
def bootSlot (C : CpuPlatform) (i : ℕ) : CpuSlot :=
  if i < C.numberOfProcessors then ⟨C.processorId i, .smmCpuNone, C.processorId i⟩
  else ⟨invalidApicId, .smmCpuNone, invalidApicId⟩

/-- The lists as `PiCpuSmmEntry` sets them up. -/
def CpuLists.boot (C : CpuPlatform) : CpuLists where
  cpu := bootSlot C
  mNumberOfCpus := BitVec.ofNat 64 C.numberOfProcessors
  switchBsp := false
  candidateBsp _ := false

/-- A slot is written. -/
def CpuLists.write (s : CpuLists) (i : ℕ) (c : CpuSlot) : CpuLists :=
  { s with cpu := Function.update s.cpu i c }

@[simp] theorem CpuLists.write_cpu (s : CpuLists) (i : ℕ) (c : CpuSlot) :
    (s.write i c).cpu = Function.update s.cpu i c := rfl

@[simp] theorem CpuLists.write_mNumberOfCpus (s : CpuLists) (i : ℕ) (c : CpuSlot) :
    (s.write i c).mNumberOfCpus = s.mNumberOfCpus := rfl

/-! ### The services -/

/-- The slot that `SmmAddProcessor` takes: the first that is free and has the new APIC ID. -/
def freeSlot (C : CpuPlatform) (processorId : BitVec 64) (s : CpuLists) : Option ℕ :=
  (List.range C.mMaxNumberOfCpus).find? fun i ↦
    decide ((s.cpu i).apicId = processorId ∧ (s.cpu i).processorId = invalidApicId)

/-- `SmmAddProcessor`. The number of the new processor is returned through a pointer, which may be
`NULL`. -/
def smmAddProcessor (C : CpuPlatform) (processorId : BitVec 64) (processorNumber : Bool)
    (s : CpuLists) : EfiStatus × Option ℕ × CpuLists :=
  if !C.pcdCpuHotPlugSupport then (.unsupported, none, s)
  else if processorNumber = false ∨ processorId = invalidApicId then (.invalidParameter, none, s)
  else if ∃ i < C.mMaxNumberOfCpus, (s.cpu i).processorId = processorId then
    (.alreadyStarted, none, s)
  else
    match freeSlot C processorId s with
    | some i =>
      (.success, some i, s.write i
        { s.cpu i with processorId := processorId, operation := .smmCpuAdd })
    | none => (.invalidParameter, none, s)

/-- `SmmRemoveProcessor`, with the processor that executes the SMI handlers. -/
def smmRemoveProcessor (C : CpuPlatform) (currentlyExecutingCpu processorNumber : ℕ)
    (s : CpuLists) : EfiStatus × CpuLists :=
  if !C.pcdCpuHotPlugSupport then (.unsupported, s)
  else if C.mMaxNumberOfCpus ≤ processorNumber ∨
      (s.cpu processorNumber).processorId = invalidApicId then (.invalidParameter, s)
  else if processorNumber = currentlyExecutingCpu then (.unsupported, s)
  else if (s.cpu processorNumber).operation ≠ .smmCpuNone then (.unsupported, s)
  else (.success, s.write processorNumber ⟨invalidApicId, .smmCpuRemove, invalidApicId⟩)

/-- `SmmSwitchBsp`, with the processor that executes the SMI handlers. -/
def smmSwitchBsp (C : CpuPlatform) (currentlyExecutingCpu processorNumber : ℕ) (s : CpuLists) :
    EfiStatus × CpuLists :=
  if C.mMaxNumberOfCpus ≤ processorNumber then (.invalidParameter, s)
  else if (s.cpu processorNumber).processorId = invalidApicId then (.notFound, s)
  else if (s.cpu processorNumber).operation ≠ .smmCpuNone ∨
      currentlyExecutingCpu = processorNumber then (.unsupported, s)
  else (.success, s.write processorNumber
    { s.cpu processorNumber with operation := .smmCpuSwitchBsp })

/-! ### SmmCpuUpdate -/

/-- One of the three loops of `SmmCpuUpdate`: each slot in which the operation waits is cleared, and
the operation takes effect. -/
def handlePending (operation : SmmCpuOperation) (effect : ℕ → CpuLists → CpuLists) (n : ℕ)
    (s : CpuLists) : CpuLists :=
  (List.range n).foldl (fun s i ↦
    if (s.cpu i).operation = operation then
      effect i (s.write i { s.cpu i with operation := .smmCpuNone })
    else s) s

/-- A pending BSP switch. -/
def switchBspEffect (i : ℕ) (s : CpuLists) : CpuLists :=
  { s with switchBsp := true, candidateBsp := Function.update s.candidateBsp i true }

/-- A pending hot-add. -/
def addEffect (_ : ℕ) (s : CpuLists) : CpuLists := { s with mNumberOfCpus := s.mNumberOfCpus + 1 }

/-- A pending hot-remove. -/
def removeEffect (_ : ℕ) (s : CpuLists) : CpuLists :=
  { s with mNumberOfCpus := s.mNumberOfCpus - 1 }

/-- `SmmCpuUpdate`. -/
def smmCpuUpdate (C : CpuPlatform) (s : CpuLists) : CpuLists :=
  handlePending .smmCpuRemove removeEffect C.mMaxNumberOfCpus
    (handlePending .smmCpuAdd addEffect C.mMaxNumberOfCpus
      (handlePending .smmCpuSwitchBsp switchBspEffect C.mMaxNumberOfCpus s))

/-! ### SMIs -/

/-- What happens between two SMI handlers' returns. -/
inductive HotPlugCall
  /-- A call of `SmmAddProcessor`. -/
  | smmAddProcessor (processorId : BitVec 64) (processorNumber : Bool)
  /-- A call of `SmmRemoveProcessor`. -/
  | smmRemoveProcessor (processorNumber : ℕ)
  /-- A call of `SmmSwitchBsp`. -/
  | smmSwitchBsp (processorNumber : ℕ)
  /-- The RAS handler writes `mCpuHotPlugData.ApicId[]`. -/
  | writeApicId (i : ℕ) (apicId : BitVec 64)

/-- An SMI. -/
structure HotPlugSmi where
  /-- `SmmCoreEntryContext.CurrentlyExecutingCpu`. -/
  currentlyExecutingCpu : ℕ
  /-- `gSmst->CurrentlyExecutingCpu`. -/
  gSmstCurrentlyExecutingCpu : ℕ
  /-- The calls, in order. -/
  calls : List HotPlugCall

/-- The lists in the middle of an SMI, with the numbers of the processors removed so far. -/
structure SmiState where
  lists : CpuLists
  removed : List ℕ

/-- One call. -/
def callStep (C : CpuPlatform) (smi : HotPlugSmi) (t : SmiState) : HotPlugCall → SmiState
  | .smmAddProcessor processorId processorNumber =>
    { t with lists := (smmAddProcessor C processorId processorNumber t.lists).2.2 }
  | .smmRemoveProcessor processorNumber =>
    let r := smmRemoveProcessor C smi.currentlyExecutingCpu processorNumber t.lists
    ⟨r.2, if r.1 = .success then processorNumber :: t.removed else t.removed⟩
  | .smmSwitchBsp processorNumber =>
    { t with lists := (smmSwitchBsp C smi.gSmstCurrentlyExecutingCpu processorNumber t.lists).2 }
  | .writeApicId i apicId =>
    { t with lists := t.lists.write i { t.lists.cpu i with apicId := apicId } }

/-- The lists after the SMI handlers. -/
def smiCalls (C : CpuPlatform) (smi : HotPlugSmi) (s : CpuLists) : SmiState :=
  smi.calls.foldl (callStep C smi) ⟨s, []⟩

/-- The lists after an SMI. -/
def afterSmi (C : CpuPlatform) (s : CpuLists) (smi : HotPlugSmi) : CpuLists :=
  smmCpuUpdate C (smiCalls C smi s).lists

/-! ### What is expected -/

variable {C : CpuPlatform} {smi : HotPlugSmi} {s : CpuLists} {t : SmiState}

/-- One for a slot with a processor. -/
def validWeight (c : CpuSlot) : ℕ := if c.Valid then 1 else 0

/-- One for a slot in which the operation waits. -/
def pendingWeight (operation : SmmCpuOperation) (c : CpuSlot) : ℕ :=
  if c.operation = operation then 1 else 0

/-- No two slots have the same processor. -/
def Distinct (C : CpuPlatform) (cpu : ℕ → CpuSlot) : Prop :=
  ∀ i < C.mMaxNumberOfCpus, ∀ j < C.mMaxNumberOfCpus, (cpu i).Valid →
    (cpu i).processorId = (cpu j).processorId → i = j

/-- The lists between two SMIs, as they should be. -/
structure Settled (C : CpuPlatform) (s : CpuLists) : Prop where
  /-- No operation waits. -/
  operation : ∀ i < C.mMaxNumberOfCpus, (s.cpu i).operation = .smmCpuNone
  /-- The counter counts the processors. -/
  mNumberOfCpus : s.mNumberOfCpus.toNat = tally C.mMaxNumberOfCpus validWeight s.cpu
  /-- Each processor has one slot. -/
  distinct : Distinct C s.cpu

/-- What is expected of an SMI. -/
structure BookkeepingOk (C : CpuPlatform) (s : CpuLists) (smi : HotPlugSmi) : Prop where
  /-- The lists agree after it. -/
  settled : Settled C (afterSmi C s smi)
  /-- What was removed is gone. -/
  removed : ∀ i ∈ (smiCalls C smi s).removed, ¬ ((afterSmi C s smi).cpu i).Valid

/-- The call adds a processor to a slot in which a removal waits. -/
def AddsOverRemoval (C : CpuPlatform) (s : CpuLists) : HotPlugCall → Prop
  | .smmAddProcessor processorId processorNumber =>
    C.pcdCpuHotPlugSupport = true ∧ ¬ (processorNumber = false ∨ processorId = invalidApicId) ∧
      ¬ (∃ i < C.mMaxNumberOfCpus, (s.cpu i).processorId = processorId) ∧
      ∃ i, freeSlot C processorId s = some i ∧ (s.cpu i).operation = .smmCpuRemove
  | _ => False

/-- No call of the SMI does. -/
def KeepsRemovals (C : CpuPlatform) (s : CpuLists) (smi : HotPlugSmi) : Prop :=
  Along (callStep C smi) (fun t call ↦ ¬ AddsOverRemoval C t.lists call) ⟨s, []⟩ smi.calls

/-! ### One call -/

/-- What a call can do. -/
inductive CallEffect (C : CpuPlatform) (t : SmiState) : HotPlugCall → SmiState → Prop
  /-- It is refused. -/
  | refused (call : HotPlugCall) (h : ¬ AddsOverRemoval C t.lists call) : CallEffect C t call t
  /-- A processor is added to a free slot. -/
  | added (i : ℕ) (processorId : BitVec 64) (processorNumber : Bool)
      (hi : i < C.mMaxNumberOfCpus) (hfree : ¬ (t.lists.cpu i).Valid)
      (hvalid : processorId ≠ invalidApicId)
      (hnew : ∀ j < C.mMaxNumberOfCpus, (t.lists.cpu j).processorId ≠ processorId)
      (hover : AddsOverRemoval C t.lists (.smmAddProcessor processorId processorNumber) ↔
        (t.lists.cpu i).operation = .smmCpuRemove) :
      CallEffect C t (.smmAddProcessor processorId processorNumber) { t with
        lists := t.lists.write i
          { t.lists.cpu i with processorId := processorId, operation := .smmCpuAdd } }
  /-- A processor without a pending operation is removed. -/
  | removed (i : ℕ) (hi : i < C.mMaxNumberOfCpus) (hvalid : (t.lists.cpu i).Valid)
      (hnone : (t.lists.cpu i).operation = .smmCpuNone) :
      CallEffect C t (.smmRemoveProcessor i)
        ⟨t.lists.write i ⟨invalidApicId, .smmCpuRemove, invalidApicId⟩, i :: t.removed⟩
  /-- A processor without a pending operation is to be the BSP. -/
  | switched (i : ℕ) (hi : i < C.mMaxNumberOfCpus) (hvalid : (t.lists.cpu i).Valid)
      (hnone : (t.lists.cpu i).operation = .smmCpuNone) :
      CallEffect C t (.smmSwitchBsp i) { t with
        lists := t.lists.write i { t.lists.cpu i with operation := .smmCpuSwitchBsp } }
  /-- An APIC ID is written. -/
  | written (i : ℕ) (apicId : BitVec 64) :
      CallEffect C t (.writeApicId i apicId) { t with
        lists := t.lists.write i { t.lists.cpu i with apicId := apicId } }

/-- The free slot is one, and has no processor. -/
theorem freeSlot_spec {processorId : BitVec 64} {i : ℕ} (h : freeSlot C processorId s = some i) :
    i < C.mMaxNumberOfCpus ∧ ¬ (s.cpu i).Valid := by
  have hi := List.mem_range.1 (List.mem_of_find?_eq_some h)
  have hslot := List.find?_some h
  rw [decide_eq_true_iff] at hslot
  exact ⟨hi, not_not.2 hslot.2⟩

theorem smmAddProcessor_effect (processorId : BitVec 64) (processorNumber : Bool) :
    CallEffect C t (.smmAddProcessor processorId processorNumber) { t with
      lists := (smmAddProcessor C processorId processorNumber t.lists).2.2 } := by
  unfold smmAddProcessor
  split
  · rename_i hsupport
    refine .refused _ fun h ↦ ?_
    rw [h.1] at hsupport
    cases hsupport
  · rename_i hsupport
    split
    · rename_i hargs
      exact .refused _ fun h ↦ h.2.1 hargs
    · rename_i hargs
      split
      · rename_i hexists
        exact .refused _ fun h ↦ h.2.2.1 hexists
      · rename_i hexists
        cases hslot : freeSlot C processorId t.lists with
        | none =>
          refine .refused _ fun h ↦ ?_
          obtain ⟨i, hi, -⟩ := h.2.2.2
          rw [hslot] at hi
          cases hi
        | some i =>
          obtain ⟨hi, hfree⟩ := freeSlot_spec hslot
          refine .added i processorId processorNumber hi hfree (fun h ↦ hargs (.inr h))
            (fun j hj h ↦ hexists ⟨j, hj, h⟩) ⟨fun h ↦ ?_, fun h ↦ ?_⟩
          · obtain ⟨k, hk, hremove⟩ := h.2.2.2
            obtain rfl := Option.some.inj (hslot.symm.trans hk)
            exact hremove
          · exact ⟨by simpa using hsupport, hargs, hexists, i, hslot, h⟩

theorem smmRemoveProcessor_effect (processorNumber : ℕ) :
    CallEffect C t (.smmRemoveProcessor processorNumber)
      (callStep C smi t (.smmRemoveProcessor processorNumber)) := by
  unfold callStep smmRemoveProcessor
  dsimp only
  split
  · exact .refused _ nofun
  · split
    · exact .refused _ nofun
    · rename_i hargs
      obtain ⟨hi, hvalid⟩ := not_or.1 hargs
      split
      · exact .refused _ nofun
      · split
        · exact .refused _ nofun
        · rename_i hnone
          exact .removed processorNumber (not_le.1 hi) hvalid (not_not.1 hnone)

theorem smmSwitchBsp_effect (processorNumber : ℕ) :
    CallEffect C t (.smmSwitchBsp processorNumber)
      (callStep C smi t (.smmSwitchBsp processorNumber)) := by
  unfold callStep smmSwitchBsp
  dsimp only
  split
  · exact .refused _ nofun
  · rename_i hi
    split
    · exact .refused _ nofun
    · rename_i hvalid
      split
      · exact .refused _ nofun
      · rename_i hnone
        exact .switched processorNumber (not_le.1 hi) hvalid (not_not.1 (not_or.1 hnone).1)

/-- **Every call does one of these.** -/
theorem callStep_effect (C : CpuPlatform) (smi : HotPlugSmi) (t : SmiState) (call : HotPlugCall) :
    CallEffect C t call (callStep C smi t call) := by
  cases call with
  | smmAddProcessor processorId processorNumber =>
    exact smmAddProcessor_effect processorId processorNumber
  | smmRemoveProcessor processorNumber => exact smmRemoveProcessor_effect processorNumber
  | smmSwitchBsp processorNumber => exact smmSwitchBsp_effect processorNumber
  | writeApicId i apicId => exact .written i apicId

/-! ### The calls of an SMI -/

/-- A slot says what waits in it: a processor that was added, or the removal of one. -/
def SlotOk (removed : List ℕ) (i : ℕ) (c : CpuSlot) : Prop :=
  (c.operation = .smmCpuAdd → c.Valid) ∧ (c.operation = .smmCpuRemove → i ∈ removed)

/-- **In the middle of an SMI.** -/
structure SmiInv (C : CpuPlatform) (mNumberOfCpus : BitVec 64) (t : SmiState) : Prop where
  count : t.lists.mNumberOfCpus = mNumberOfCpus
  distinct : Distinct C t.lists.cpu
  slots : ∀ i < C.mMaxNumberOfCpus, SlotOk t.removed i (t.lists.cpu i)
  lt_of_removed : ∀ i ∈ t.removed, i < C.mMaxNumberOfCpus

/-- **No removal is forgotten so far**, and the counter is right once the operations are carried
out. -/
structure Balanced (C : CpuPlatform) (t : SmiState) : Prop where
  removed : ∀ i ∈ t.removed,
    (t.lists.cpu i).operation = .smmCpuRemove ∧ ¬ (t.lists.cpu i).Valid
  count : t.lists.mNumberOfCpus.toNat +
      tally C.mMaxNumberOfCpus (pendingWeight .smmCpuAdd) t.lists.cpu =
    tally C.mMaxNumberOfCpus validWeight t.lists.cpu +
      tally C.mMaxNumberOfCpus (pendingWeight .smmCpuRemove) t.lists.cpu

/-- A removed processor's slot has got a new one. -/
def Forgotten (C : CpuPlatform) (t : SmiState) : Prop :=
  ∃ i ∈ t.removed, i < C.mMaxNumberOfCpus ∧ (t.lists.cpu i).operation = .smmCpuAdd

theorem Distinct.update_of_not_valid {cpu : ℕ → CpuSlot} (h : Distinct C cpu) {k : ℕ} {c : CpuSlot}
    (hc : ¬ c.Valid) : Distinct C (Function.update cpu k c) := by
  intro i hi j hj hvalid heq
  obtain rfl | hik := eq_or_ne i k
  · rw [Function.update_self] at hvalid
    exact absurd hvalid hc
  · rw [Function.update_of_ne hik] at hvalid heq
    obtain rfl | hjk := eq_or_ne j k
    · rw [Function.update_self] at heq
      exact absurd (fun hinv ↦ hvalid (heq.trans hinv)) hc
    · rw [Function.update_of_ne hjk] at heq
      exact h i hi j hj hvalid heq

theorem Distinct.update_of_new {cpu : ℕ → CpuSlot} (h : Distinct C cpu) {k : ℕ} {c : CpuSlot}
    (hnew : ∀ j < C.mMaxNumberOfCpus, (cpu j).processorId ≠ c.processorId) :
    Distinct C (Function.update cpu k c) := by
  intro i hi j hj hvalid heq
  obtain rfl | hik := eq_or_ne i k
  · obtain rfl | hji := eq_or_ne j i
    · rfl
    · rw [Function.update_self, Function.update_of_ne hji] at heq
      exact absurd heq.symm (hnew j hj)
  · rw [Function.update_of_ne hik] at hvalid heq
    obtain rfl | hjk := eq_or_ne j k
    · rw [Function.update_self] at heq
      exact absurd heq (hnew i hi)
    · rw [Function.update_of_ne hjk] at heq
      exact h i hi j hj hvalid heq

/-- A slot that keeps its processor. -/
theorem Distinct.update_of_same {cpu : ℕ → CpuSlot} (h : Distinct C cpu) {k : ℕ} {c : CpuSlot}
    (hsame : c.processorId = (cpu k).processorId) : Distinct C (Function.update cpu k c) := by
  have hid : ∀ i, (Function.update cpu k c i).processorId = (cpu i).processorId := by
    intro i
    obtain rfl | hik := eq_or_ne i k
    · rw [Function.update_self, hsame]
    · rw [Function.update_of_ne hik]
  intro i hi j hj hvalid heq
  rw [CpuSlot.Valid, hid] at hvalid
  rw [hid, hid] at heq
  exact h i hi j hj hvalid heq

/-- What holds of all slots holds after one of them is written with something of which it holds. -/
theorem forall_update {p : ℕ → CpuSlot → Prop} {cpu : ℕ → CpuSlot} {n k : ℕ} {c : CpuSlot}
    (h : ∀ i < n, p i (cpu i)) (hc : k < n → p k c) : ∀ i < n, p i (Function.update cpu k c i) := by
  intro i hi
  obtain rfl | hik := eq_or_ne i k
  · rw [Function.update_self]
    exact hc hi
  · rw [Function.update_of_ne hik]
    exact h i hi

/-- **Every call keeps the slots in order.** -/
theorem SmiInv.callStep {n : BitVec 64} (h : SmiInv C n t) (smi : HotPlugSmi)
    (call : HotPlugCall) : SmiInv C n (callStep C smi t call) := by
  have heffect := callStep_effect C smi t call
  generalize HotPlug.callStep C smi t call = t' at heffect ⊢
  cases heffect with
  | refused => exact h
  | added i processorId _ hi hfree hvalid hnew =>
    exact ⟨h.count, h.distinct.update_of_new hnew,
      forall_update h.slots fun _ ↦ ⟨fun _ ↦ hvalid, nofun⟩, h.lt_of_removed⟩
  | removed i hi hvalid hnone =>
    have hslots : ∀ j < C.mMaxNumberOfCpus, SlotOk (i :: t.removed) j (t.lists.cpu j) :=
      fun j hj ↦ ⟨(h.slots j hj).1, fun hop ↦ List.mem_cons_of_mem _ ((h.slots j hj).2 hop)⟩
    exact ⟨h.count, h.distinct.update_of_not_valid (not_not.2 rfl),
      forall_update hslots fun _ ↦ ⟨nofun, fun _ ↦ List.mem_cons_self⟩,
      List.forall_mem_cons.2 ⟨hi, h.lt_of_removed⟩⟩
  | switched i hi hvalid hnone =>
    exact ⟨h.count, h.distinct.update_of_same rfl,
      forall_update h.slots fun _ ↦ ⟨nofun, nofun⟩, h.lt_of_removed⟩
  | written i apicId =>
    exact ⟨h.count, h.distinct.update_of_same rfl, forall_update h.slots fun hi ↦ h.slots i hi,
      h.lt_of_removed⟩

/-- A slot is written with something that weighs the same on balance. -/
theorem balance_update {n k count : ℕ} {cpu : ℕ → CpuSlot} {c : CpuSlot}
    (h : count + tally n (pendingWeight .smmCpuAdd) cpu =
      tally n validWeight cpu + tally n (pendingWeight .smmCpuRemove) cpu)
    (hc : k < n → pendingWeight .smmCpuAdd c + validWeight (cpu k) +
        pendingWeight .smmCpuRemove (cpu k) =
      pendingWeight .smmCpuAdd (cpu k) + validWeight c + pendingWeight .smmCpuRemove c) :
    count + tally n (pendingWeight .smmCpuAdd) (Function.update cpu k c) =
      tally n validWeight (Function.update cpu k c) +
        tally n (pendingWeight .smmCpuRemove) (Function.update cpu k c) := by
  by_cases hk : k < n
  · have hadd := tally_update hk (pendingWeight .smmCpuAdd) cpu c
    have hvalid := tally_update hk validWeight cpu c
    have hremove := tally_update hk (pendingWeight .smmCpuRemove) cpu c
    have hbalance := hc hk
    omega
  · have hsame : ∀ w : CpuSlot → ℕ, tally n w (Function.update cpu k c) = tally n w cpu :=
      fun w ↦ tally_congr fun i hi ↦ by
        rw [Function.update_of_ne (by omega)]
    rw [hsame, hsame, hsame]
    exact h

/-- **A call that does not add over a removal** keeps the balance. -/
theorem Balanced.callStep {n : BitVec 64} (h : Balanced C t) (hinv : SmiInv C n t)
    (smi : HotPlugSmi) {call : HotPlugCall} (hover : ¬ AddsOverRemoval C t.lists call) :
    Balanced C (callStep C smi t call) := by
  have heffect := callStep_effect C smi t call
  generalize HotPlug.callStep C smi t call = t' at heffect ⊢
  -- A removed processor's slot is written only if that does not change what waits in it.
  have hkept : ∀ i c, (i ∈ t.removed → c.operation = .smmCpuRemove ∧ ¬ c.Valid) →
      ∀ j ∈ t.removed, (Function.update t.lists.cpu i c j).operation = .smmCpuRemove ∧
        ¬ (Function.update t.lists.cpu i c j).Valid := by
    intro i c hc j hj
    obtain rfl | hji := eq_or_ne j i
    · rw [Function.update_self]
      exact hc hj
    · rw [Function.update_of_ne hji]
      exact h.removed j hj
  cases heffect with
  | refused => exact h
  | added i processorId _ hi hfree hvalid hnew hremove =>
    have hop : (t.lists.cpu i).operation ≠ .smmCpuRemove := fun h ↦ hover (hremove.2 h)
    have hadd : (t.lists.cpu i).operation ≠ .smmCpuAdd := fun h ↦ hfree ((hinv.slots i hi).1 h)
    refine ⟨hkept i _ fun hmem ↦ absurd (h.removed i hmem).1 hop,
      balance_update h.count fun _ ↦ ?_⟩
    have hnow : CpuSlot.Valid { t.lists.cpu i with
      processorId := processorId, operation := .smmCpuAdd } := hvalid
    simp [pendingWeight, validWeight, hop, hadd, hfree, hnow]
  | removed i hi hvalid hnone =>
    have hmem : i ∉ t.removed := fun hmem ↦ (h.removed i hmem).2 hvalid
    refine ⟨List.forall_mem_cons.2 ⟨?_, hkept i _ fun h ↦ absurd h hmem⟩,
      balance_update h.count fun _ ↦ ?_⟩
    · rw [CpuLists.write_cpu, Function.update_self]
      exact ⟨rfl, not_not.2 rfl⟩
    · have hgone : ¬ CpuSlot.Valid ⟨invalidApicId, .smmCpuRemove, invalidApicId⟩ := not_not.2 rfl
      simp [pendingWeight, validWeight, hnone, hvalid, hgone]
  | switched i hi hvalid hnone =>
    have hmem : i ∉ t.removed := fun hmem ↦ (h.removed i hmem).2 hvalid
    refine ⟨hkept i _ fun h ↦ absurd h hmem, balance_update h.count fun _ ↦ ?_⟩
    have hsame : validWeight { t.lists.cpu i with operation := .smmCpuSwitchBsp } =
        validWeight (t.lists.cpu i) := rfl
    simp [pendingWeight, hnone, hsame]
  | written i apicId =>
    exact ⟨hkept i _ fun hmem ↦ h.removed i hmem, balance_update h.count fun _ ↦ rfl⟩

/-- **A call that adds over a removal** forgets it. -/
theorem forgotten_of_addsOverRemoval {n : BitVec 64} (hinv : SmiInv C n t) (smi : HotPlugSmi)
    {call : HotPlugCall} (hover : AddsOverRemoval C t.lists call) :
    Forgotten C (callStep C smi t call) := by
  have heffect := callStep_effect C smi t call
  generalize HotPlug.callStep C smi t call = t' at heffect ⊢
  cases heffect with
  | refused _ h => exact absurd hover h
  | added i processorId _ hi hfree hvalid hnew hremove =>
    refine ⟨i, (hinv.slots i hi).2 (hremove.1 hover), hi, ?_⟩
    rw [CpuLists.write_cpu, Function.update_self]
  | removed => exact absurd hover id
  | switched => exact absurd hover id
  | written => exact absurd hover id

/-- **And forgotten it stays**: until the SMI is over nothing else can be done to a slot in which an
addition waits. -/
theorem Forgotten.callStep (h : Forgotten C t) (smi : HotPlugSmi) (call : HotPlugCall) :
    Forgotten C (callStep C smi t call) := by
  have heffect := callStep_effect C smi t call
  generalize HotPlug.callStep C smi t call = t' at heffect ⊢
  obtain ⟨k, hk, hlt, hadd⟩ := h
  have hkept : ∀ i c, (k = i → c.operation = .smmCpuAdd) →
      (Function.update t.lists.cpu i c k).operation = .smmCpuAdd := by
    intro i c hc
    obtain rfl | hne := eq_or_ne k i
    · rw [Function.update_self]
      exact hc rfl
    · rw [Function.update_of_ne hne]
      exact hadd
  cases heffect with
  | refused => exact ⟨k, hk, hlt, hadd⟩
  | added i => exact ⟨k, hk, hlt, hkept _ _ fun _ ↦ rfl⟩
  | removed i hi hvalid hnone =>
    refine ⟨k, List.mem_cons_of_mem _ hk, hlt, hkept _ _ fun heq ↦ ?_⟩
    rw [heq, hnone] at hadd
    cases hadd
  | switched i hi hvalid hnone =>
    refine ⟨k, hk, hlt, hkept _ _ fun heq ↦ ?_⟩
    rw [heq, hnone] at hadd
    cases hadd
  | written i => exact ⟨k, hk, hlt, hkept _ _ fun heq ↦ heq ▸ hadd⟩

/-! ### SmmCpuUpdate, loop by loop -/

section Update

variable {operation : SmmCpuOperation} {effect : ℕ → CpuLists → CpuLists} {d : BitVec 64} {n : ℕ}

/-- The effect leaves the slots alone and adds to the counter. -/
structure CountsBy (d : BitVec 64) (effect : ℕ → CpuLists → CpuLists) : Prop where
  cpu : ∀ i s, (effect i s).cpu = s.cpu
  mNumberOfCpus : ∀ i s, (effect i s).mNumberOfCpus = s.mNumberOfCpus + d

theorem switchBspEffect_countsBy : CountsBy 0#64 switchBspEffect :=
  ⟨fun _ _ ↦ rfl, fun _ _ ↦ (BitVec.add_zero _).symm⟩

theorem addEffect_countsBy : CountsBy 1#64 addEffect := ⟨fun _ _ ↦ rfl, fun _ _ ↦ rfl⟩

theorem removeEffect_countsBy : CountsBy (-1#64) removeEffect :=
  ⟨fun _ _ ↦ rfl, fun _ _ ↦ BitVec.sub_eq_add_neg _ _⟩

theorem handlePending_succ :
    handlePending operation effect (n + 1) s =
      if ((handlePending operation effect n s).cpu n).operation = operation then
        effect n ((handlePending operation effect n s).write n
          { (handlePending operation effect n s).cpu n with operation := .smmCpuNone })
      else handlePending operation effect n s := by
  simp only [handlePending, List.range_succ, List.foldl_append, List.foldl_cons, List.foldl_nil]

/-- A slot from which the operation is gone. -/
def CpuSlot.clear (operation : SmmCpuOperation) (c : CpuSlot) : CpuSlot :=
  if c.operation = operation then { c with operation := .smmCpuNone } else c

/-- **The slots after a loop.** -/
theorem handlePending_cpu (h : CountsBy d effect) (i : ℕ) :
    (handlePending operation effect n s).cpu i =
      if i < n then (s.cpu i).clear operation else s.cpu i := by
  induction n generalizing i with
  | zero => rfl
  | succ n ih =>
    have hn : (handlePending operation effect n s).cpu n = s.cpu n :=
      (ih n).trans (if_neg (lt_irrefl n))
    rw [handlePending_succ, hn]
    obtain rfl | hin := eq_or_ne i n
    · rw [if_pos (Nat.lt_succ_self i), CpuSlot.clear]
      split
      · rw [h.cpu, CpuLists.write_cpu, Function.update_self]
      · exact hn
    · have hlt : i < n + 1 ↔ i < n := by omega
      simp only [hlt, ← ih i]
      split
      · rw [h.cpu, CpuLists.write_cpu, Function.update_of_ne hin]
      · rfl

/-- **The counter after a loop.** -/
theorem handlePending_mNumberOfCpus (h : CountsBy d effect) :
    (handlePending operation effect n s).mNumberOfCpus =
      s.mNumberOfCpus + d * BitVec.ofNat 64 (tally n (pendingWeight operation) s.cpu) := by
  induction n with
  | zero => simp [handlePending, tally]
  | succ n ih =>
    have hn : (handlePending operation effect n s).cpu n = s.cpu n :=
      (handlePending_cpu h n).trans (if_neg (lt_irrefl n))
    rw [handlePending_succ, hn, tally_succ, BitVec.ofNat_add]
    by_cases hop : (s.cpu n).operation = operation
    · have hone : pendingWeight operation (s.cpu n) = 1 := if_pos hop
      rw [if_pos hop, h.mNumberOfCpus, CpuLists.write_mNumberOfCpus, ih, hone, BitVec.mul_add,
        BitVec.mul_one, BitVec.add_assoc]
    · have hzero : pendingWeight operation (s.cpu n) = 0 := if_neg hop
      rw [if_neg hop, ih, hzero, BitVec.add_zero]

/-- The loop does not see the other operations. -/
theorem handlePending_tally (h : CountsBy d effect) {other : SmmCpuOperation}
    (hother : other ≠ operation) (hnone : other ≠ .smmCpuNone) :
    tally n (pendingWeight other) (handlePending operation effect n s).cpu =
      tally n (pendingWeight other) s.cpu := by
  refine tally_congr fun i hi ↦ ?_
  rw [handlePending_cpu h, if_pos hi, CpuSlot.clear]
  split
  · rename_i hop
    have hne : (s.cpu i).operation ≠ other := hop ▸ hother.symm
    rw [pendingWeight, pendingWeight, if_neg hnone.symm, if_neg hne]
  · rfl

end Update

/-- **SmmCpuUpdate clears every slot** and leaves its processor alone. -/
theorem smmCpuUpdate_cpu {i : ℕ} (hi : i < C.mMaxNumberOfCpus) :
    (smmCpuUpdate C s).cpu i = { s.cpu i with operation := .smmCpuNone } := by
  unfold smmCpuUpdate
  rw [handlePending_cpu removeEffect_countsBy, if_pos hi, handlePending_cpu addEffect_countsBy,
    if_pos hi, handlePending_cpu switchBspEffect_countsBy, if_pos hi]
  obtain ⟨processorId, operation, apicId⟩ := s.cpu i
  cases operation <;> rfl

/-- **And it counts the additions and the removals.** -/
theorem smmCpuUpdate_mNumberOfCpus :
    (smmCpuUpdate C s).mNumberOfCpus =
      s.mNumberOfCpus + BitVec.ofNat 64 (tally C.mMaxNumberOfCpus (pendingWeight .smmCpuAdd) s.cpu) -
        BitVec.ofNat 64 (tally C.mMaxNumberOfCpus (pendingWeight .smmCpuRemove) s.cpu) := by
  unfold smmCpuUpdate
  rw [handlePending_mNumberOfCpus removeEffect_countsBy,
    handlePending_mNumberOfCpus addEffect_countsBy,
    handlePending_mNumberOfCpus switchBspEffect_countsBy,
    handlePending_tally addEffect_countsBy (by decide) (by decide),
    handlePending_tally switchBspEffect_countsBy (by decide) (by decide),
    handlePending_tally switchBspEffect_countsBy (by decide) (by decide),
    BitVec.zero_mul, BitVec.add_zero, BitVec.one_mul, BitVec.neg_mul, BitVec.one_mul,
    ← BitVec.sub_eq_add_neg]

/-! ### A whole SMI -/

theorem CpuPlatform.mMaxNumberOfCpus_lt (C : CpuPlatform) : C.mMaxNumberOfCpus < 2 ^ 32 := by
  have hmax := C.pcdCpuMaxLogicalProcessorNumber.isLt
  have hle := C.numberOfProcessors_le
  unfold CpuPlatform.mMaxNumberOfCpus
  split <;> omega

theorem validWeight_congr {c c' : CpuSlot} (h : c.processorId = c'.processorId) :
    validWeight c = validWeight c' := by
  obtain ⟨processorId, operation, apicId⟩ := c
  obtain ⟨processorId', operation', apicId'⟩ := c'
  subst h
  rfl

theorem validWeight_le (c : CpuSlot) : validWeight c ≤ 1 := by
  unfold validWeight
  split <;> omega

/-- The counter may wrap on the way. -/
theorem toNat_of_balance {count : BitVec 64} {added valid removed : ℕ}
    (h : count.toNat + added = valid + removed) (hvalid : valid < 2 ^ 64) :
    (count + BitVec.ofNat 64 added - BitVec.ofNat 64 removed).toNat = valid := by
  have hsum : count + BitVec.ofNat 64 added = BitVec.ofNat 64 valid + BitVec.ofNat 64 removed :=
    calc count + BitVec.ofNat 64 added
        = BitVec.ofNat 64 (count.toNat + added) := by
          rw [BitVec.ofNat_add, BitVec.ofNat_toNat, BitVec.setWidth_eq]
      _ = BitVec.ofNat 64 (valid + removed) := by rw [h]
      _ = BitVec.ofNat 64 valid + BitVec.ofNat 64 removed := BitVec.ofNat_add _ _
  rw [hsum, BitVec.add_sub_cancel, BitVec.toNat_ofNat, Nat.mod_eq_of_lt hvalid]

/-- The handlers start with settled lists. -/
theorem Settled.smiInv (h : Settled C s) : SmiInv C s.mNumberOfCpus ⟨s, []⟩ where
  count := rfl
  distinct := h.distinct
  slots i hi := by
    rw [SlotOk, h.operation i hi]
    exact ⟨nofun, nofun⟩
  lt_of_removed := nofun

theorem Settled.balanced (h : Settled C s) : Balanced C ⟨s, []⟩ where
  removed := nofun
  count := by
    have hzero : ∀ operation, operation ≠ SmmCpuOperation.smmCpuNone →
        tally C.mMaxNumberOfCpus (pendingWeight operation) s.cpu = 0 := by
      intro operation hop
      refine tally_eq_zero_iff.2 fun i hi ↦ if_neg ?_
      rw [h.operation i hi]
      exact hop.symm
    have hadd := hzero .smmCpuAdd (by decide)
    have hremove := hzero .smmCpuRemove (by decide)
    dsimp only
    rw [hadd, hremove, h.mNumberOfCpus]

/-- **The calls of an SMI**: the balance is kept if no call adds over a removal, and if one does the
removal is forgotten. -/
theorem foldl_callStep {n : BitVec 64} (smi : HotPlugSmi) (calls : List HotPlugCall)
    (hinv : SmiInv C n t) :
    SmiInv C n (calls.foldl (callStep C smi) t) ∧
      (Forgotten C t → Forgotten C (calls.foldl (callStep C smi) t)) ∧
      (Balanced C t →
        Along (callStep C smi) (fun t call ↦ ¬ AddsOverRemoval C t.lists call) t calls →
        Balanced C (calls.foldl (callStep C smi) t)) ∧
      (¬ Along (callStep C smi) (fun t call ↦ ¬ AddsOverRemoval C t.lists call) t calls →
        Forgotten C (calls.foldl (callStep C smi) t)) := by
  induction calls generalizing t with
  | nil => exact ⟨hinv, id, fun h _ ↦ h, fun h ↦ absurd trivial h⟩
  | cons call calls ih =>
    obtain ⟨hlast, hforgotten, hbalanced, hover⟩ := ih (hinv.callStep smi call)
    rw [List.foldl_cons]
    refine ⟨hlast, fun h ↦ hforgotten (h.callStep smi call), fun h halong ↦ ?_, fun h ↦ ?_⟩
    · exact hbalanced (h.callStep hinv smi halong.1) halong.2
    · by_cases hcall : AddsOverRemoval C t.lists call
      · exact hforgotten (forgotten_of_addsOverRemoval hinv smi hcall)
      · exact hover fun hrest ↦ h ⟨hcall, hrest⟩

theorem Distinct.congr {cpu cpu' : ℕ → CpuSlot} (h : Distinct C cpu)
    (hid : ∀ i < C.mMaxNumberOfCpus, (cpu' i).processorId = (cpu i).processorId) :
    Distinct C cpu' := by
  intro i hi j hj hvalid heq
  rw [CpuSlot.Valid, hid i hi] at hvalid
  rw [hid i hi, hid j hj] at heq
  exact h i hi j hj hvalid heq

/-- **One SMI.** -/
theorem bookkeepingOk_iff (hs : Settled C s) :
    BookkeepingOk C s smi ↔ KeepsRemovals C s smi := by
  obtain ⟨hinv, -, hbalanced, hover⟩ := foldl_callStep smi smi.calls hs.smiInv
  have hid : ∀ i < C.mMaxNumberOfCpus, ((afterSmi C s smi).cpu i).processorId =
      ((smiCalls C smi s).lists.cpu i).processorId := by
    intro i hi
    rw [afterSmi, smmCpuUpdate_cpu hi]
  constructor
  · intro hok
    by_contra hnot
    obtain ⟨i, hmem, hi, hadd⟩ := hover hnot
    have hvalid := (hinv.slots i hi).1 hadd
    refine hok.removed i hmem ?_
    rw [CpuSlot.Valid, hid i hi]
    exact hvalid
  · intro hkeeps
    obtain ⟨hremoved, hcount⟩ := hbalanced hs.balanced hkeeps
    refine ⟨⟨fun i hi ↦ ?_, ?_, hinv.distinct.congr hid⟩, fun i hmem ↦ ?_⟩
    · rw [afterSmi, smmCpuUpdate_cpu hi]
    · have hvalid : tally C.mMaxNumberOfCpus validWeight (afterSmi C s smi).cpu =
          tally C.mMaxNumberOfCpus validWeight (smiCalls C smi s).lists.cpu :=
        tally_congr fun i hi ↦ validWeight_congr (hid i hi)
      have hle : tally C.mMaxNumberOfCpus validWeight (smiCalls C smi s).lists.cpu ≤ _ :=
        tally_le validWeight_le
      have hmax := C.mMaxNumberOfCpus_lt
      rw [hvalid, afterSmi, smmCpuUpdate_mNumberOfCpus]
      exact toNat_of_balance hcount (by omega)
    · rw [CpuSlot.Valid, hid i (hinv.lt_of_removed i hmem)]
      exact (hremoved i hmem).2

/-! ### Every run of SMIs -/

theorem bootSlot_valid_iff {i : ℕ} : (bootSlot C i).Valid ↔ i < C.numberOfProcessors := by
  unfold bootSlot
  split
  · rename_i hi
    exact iff_of_true (C.processorId_ne i hi) hi
  · rename_i hi
    exact iff_of_false (not_not.2 rfl) hi

theorem tally_bootSlot (n : ℕ) :
    tally n validWeight (bootSlot C) = min n C.numberOfProcessors := by
  induction n with
  | zero => simp [tally]
  | succ n ih =>
    rw [tally_succ, ih]
    by_cases hn : n < C.numberOfProcessors
    · have hone : validWeight (bootSlot C n) = 1 := if_pos (bootSlot_valid_iff.2 hn)
      omega
    · have hzero : validWeight (bootSlot C n) = 0 := if_neg fun h ↦ hn (bootSlot_valid_iff.1 h)
      omega

theorem settled_boot (C : CpuPlatform) : Settled C (.boot C) where
  operation i _ := by
    change (bootSlot C i).operation = _
    unfold bootSlot
    split <;> rfl
  mNumberOfCpus := by
    have hle := C.numberOfProcessors_le
    have hpcd := C.pcdCpuMaxLogicalProcessorNumber.isLt
    have hmax : C.numberOfProcessors ≤ C.mMaxNumberOfCpus := by
      unfold CpuPlatform.mMaxNumberOfCpus
      split <;> omega
    change (BitVec.ofNat 64 C.numberOfProcessors).toNat = tally _ _ (bootSlot C)
    rw [tally_bootSlot, BitVec.toNat_ofNat, Nat.mod_eq_of_lt (by omega), min_eq_right hmax]
  distinct i _ j _ hvalid heq := by
    change (bootSlot C i).processorId = (bootSlot C j).processorId at heq
    have hi := bootSlot_valid_iff.1 hvalid
    have hj : (bootSlot C j).Valid := fun h ↦ hvalid (heq.trans h)
    have hj := bootSlot_valid_iff.1 hj
    rw [bootSlot, bootSlot, if_pos hi, if_pos hj] at heq
    exact C.processorId_inj i hi j hj heq

/-- **The bookkeeping is right exactly if no removal is forgotten.** In a run of SMIs from boot,
after each of them no operation waits, the counter counts the processors, each of them has one slot,
and what was removed is gone, if and only if no call adds a processor to a slot in which a removal
waits. -/
theorem along_bookkeepingOk_iff (C : CpuPlatform) (smis : List HotPlugSmi) :
    Along (afterSmi C) (BookkeepingOk C) (.boot C) smis ↔
      Along (afterSmi C) (KeepsRemovals C) (.boot C) smis := by
  have hpres : ∀ s smi, Settled C s → True → BookkeepingOk C s smi → Settled C (afterSmi C s smi) :=
    fun _ _ _ _ h ↦ h.settled
  have hiff : ∀ s smi, Settled C s → True → (BookkeepingOk C s smi ↔ KeepsRemovals C s smi) :=
    fun _ _ hs _ ↦ bookkeepingOk_iff hs
  exact along_iff_of_invariant hpres hiff (settled_boot C) (along_of_forall (fun _ _ ↦ trivial) _ _)

/-- A platform with two processors and room for four. -/
def twoProcessors : CpuPlatform where
  pcdCpuHotPlugSupport := true
  pcdCpuMaxLogicalProcessorNumber := 4
  numberOfProcessors := 2
  numberOfProcessors_le := by decide
  processorId i := BitVec.ofNat 64 i
  processorId_ne := by decide
  processorId_inj := by decide

/-- An SMI in which the second processor is exchanged: it is removed, the RAS handler gives its slot
to the new one, and that is added. -/
def exchangeSmi : HotPlugSmi where
  currentlyExecutingCpu := 0
  gSmstCurrentlyExecutingCpu := 0
  calls := [.smmRemoveProcessor 1, .writeApicId 1 7, .smmAddProcessor 7 true]

/-- **A processor is counted that is not there**: after the exchange there are two processors, and
the counter says three. -/
theorem not_bookkeepingOk_exchange :
    ¬ ∀ (C : CpuPlatform) (smis : List HotPlugSmi),
      Along (afterSmi C) (BookkeepingOk C) (.boot C) smis := by
  intro h
  have hok := (h twoProcessors [exchangeSmi]).1
  have hcount : (afterSmi twoProcessors (.boot twoProcessors) exchangeSmi).mNumberOfCpus = 3 := by
    decide
  have hvalid : tally 4 validWeight
      (afterSmi twoProcessors (.boot twoProcessors) exchangeSmi).cpu = 2 := by
    decide
  have hagree := hok.settled.mNumberOfCpus
  rw [hcount] at hagree
  exact absurd (hagree.trans hvalid) (by decide)

end PurleyFirmware.HotPlug
