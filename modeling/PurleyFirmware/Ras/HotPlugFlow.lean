import PurleyFirmware.Foundation.Runs
import Mathlib.Logic.Function.Basic

/-!
# The hot-plug flow

`RasInit.c` takes a hot-plug request in `HpGPIHandler` and then calls the entries of
`RasDispatchTable` one after the other, each until it is no longer in progress. There are two ways to
do so. On hardware every SMI source but the periodic timer is switched off, and each timer SMI makes
one call (`RasPeriodicTimerSmiHandler`). For simulation `RasSmiHandler` makes all of them in a loop.
Both end with the same code, which writes `PmRegSmiEnSave` back to `SMI_EN`.

Only the first way saves `SMI_EN` before. So a flow that the loop runs leaves whatever the last flow
of the other kind saved, or zero, and `along_flowOk_iff` has that as its first condition. The second
is about the status for the OS, which starts as `IN_PROGRESS`: the test that should catch this at the
end compares a 32-bit number with the whole code.

`EFI_STATUS` is a 64-bit number. Left out are the word at `mStatusAddress`, the shared memory of RASF
and the GPIO registers other than the input inversion of the hot-plug pad, none of which is read
again. The other codes are those of headers that are not there.
-/

namespace PurleyFirmware.RasInit

/-! ### Codes, variables and inputs -/

/-- The codes that the flow compares with or stores. -/
structure RasCodes where
  /-- `IN_PROGRESS`. -/
  inProgress : BitVec 64
  /-- `NO_REQUEST`. -/
  noRequest : BitVec 64
  /-- `ERROR_EXIT`. -/
  errorExit : BitVec 64
  /-- `SMI_CPU_ONLINE_OFFLINE`. -/
  smiCpuOnlineOffline : BitVec 32

/-- `(UINT32)Status`. -/
def word (status : BitVec 64) : BitVec 32 := status.setWidth 32

/-- What one call of an entry of the dispatch table does. -/
structure HandlerAnswer where
  /-- The status it returns. -/
  status : BitVec 64
  /-- It sets `mExitImmediately`. -/
  exits : Bool
  /-- `mHpRequest` after it. -/
  mHpRequest : ℕ → BitVec 8

/-- What a call of `HpGPIHandler` reads, and what the code it calls does. -/
structure HpGpiInput where
  /-- `GpioGetInputInversion`. -/
  inputInversion : BitVec 32
  /-- `CheckOnlineOfflineRequest`. -/
  checkOnlineOfflineRequest : Bool
  /-- The periodic timer is registered. -/
  registered : Bool
  /-- What its registration makes of `SMI_EN`. -/
  registerSmiEn : BitVec 32 → BitVec 32
  /-- The calls of the entries, if they are made in the loop. -/
  answers : List HandlerAnswer

/-- The variables of the flow, and `SMI_EN`. -/
structure FlowVars where
  /-- The register `SMI_EN`. -/
  smiEn : BitVec 32
  /-- `PmRegSmiEnSave`. -/
  pmRegSmiEnSave : BitVec 32
  /-- `mPeriodicTimerHandle` is not `NULL`. -/
  mPeriodicTimerHandle : Bool
  /-- `mSwSmiHandlerEnabled`. -/
  mSwSmiHandlerEnabled : Bool
  /-- `mIsSoftSmiRequest`. -/
  mIsSoftSmiRequest : Bool
  /-- `mFirstTimerEntry`. -/
  mFirstTimerEntry : Bool
  /-- `mExitImmediately`. -/
  mExitImmediately : Bool
  /-- `mRasTableIndex`. -/
  mRasTableIndex : ℕ
  /-- The entry of the dispatch table that `mNSE.NextEntryPointer` is. -/
  nextEntryPointer : ℕ
  /-- `mSmiParam`. -/
  mSmiParam : ℕ → BitVec 32
  /-- `mAcpiParameter->SmiRequestParam`. -/
  smiRequestParam : ℕ → BitVec 32
  /-- `mHpRequest`. -/
  mHpRequest : ℕ → BitVec 8
  /-- Not in the code: `SMI_EN` when the last request was accepted. -/
  acceptedSmiEn : BitVec 32
  /-- Not in the code: the calls of the entries since then. -/
  answers : List HandlerAnswer
  /-- Not in the code: how many flows have completed. -/
  completions : ℕ

/-- The variables as they are loaded. -/
def FlowVars.boot (smiEn : BitVec 32) : FlowVars where
  smiEn := smiEn
  pmRegSmiEnSave := 0
  mPeriodicTimerHandle := false
  mSwSmiHandlerEnabled := false
  mIsSoftSmiRequest := false
  mFirstTimerEntry := false
  mExitImmediately := false
  mRasTableIndex := 0
  nextEntryPointer := 0
  mSmiParam _ := 0
  smiRequestParam _ := 0
  mHpRequest _ := 0
  acceptedSmiEn := 0
  answers := []
  completions := 0

/-! ### The dispatch table -/

/-- The entries of `RasDispatchTable`, or its end. -/
inductive RasEntry
  | getSourceOfGpi
  | cpuRasHandler
  | last
  deriving DecidableEq

/-- `RasDispatchTable`. -/
def rasDispatchTable : List RasEntry := [.getSourceOfGpi, .cpuRasHandler, .last]

/-- The flow starts with the first entry. -/
def firstEntry (s : FlowVars) : FlowVars :=
  { s with mRasTableIndex := 0, mExitImmediately := false, nextEntryPointer := 0 }

/-- The entry is called, and left if it is not in progress. -/
def dispatchEntry (codes : RasCodes) (a : HandlerAnswer) (s : FlowVars) : FlowVars :=
  let s := { s with
    mExitImmediately := s.mExitImmediately || a.exits
    mHpRequest := a.mHpRequest
    answers := s.answers ++ [a] }
  if a.status ≠ codes.inProgress then
    { s with
      mSmiParam := if a.status ≠ codes.noRequest then Function.update s.mSmiParam 3 (word a.status)
        else s.mSmiParam
      mRasTableIndex := s.mRasTableIndex + 1
      nextEntryPointer := s.mRasTableIndex + 1 }
  else s

/-- The test for the end of the flow. -/
def unRegister (s : FlowVars) : Bool :=
  rasDispatchTable[s.mRasTableIndex]? == some .last || s.mExitImmediately

/-- The status for the OS at the end of the flow. The comparison is one of 64-bit numbers. -/
def finalStatus (codes : RasCodes) (status : BitVec 32) : BitVec 32 :=
  if status.setWidth 64 = codes.inProgress then word codes.errorExit else status

/-- The end of the flow. -/
def completeFlow (codes : RasCodes) (s : FlowVars) : FlowVars :=
  let status := finalStatus codes (s.mSmiParam 3)
  { s with
    smiEn := s.pmRegSmiEnSave
    mSmiParam := fun i ↦ if i < 3 then 0 else if i = 3 then status else s.mSmiParam i
    smiRequestParam := fun i ↦ if i < 3 then 0 else if i = 3 then status else s.smiRequestParam i
    mHpRequest := fun i ↦ if i < 6 then 0 else s.mHpRequest i
    mExitImmediately := false
    completions := s.completions + 1 }

/-! ### The two drivers -/

/-- `B_SWSMI_TMR_EN`. -/
def swsmiTmrEn : BitVec 32 := 1#32 <<< 6

/-- `RasPeriodicTimerSmiHandler`. What the removal of the timer does to `SMI_EN` is overwritten. -/
def rasPeriodicTimerSmiHandler (codes : RasCodes) (a : HandlerAnswer) (s : FlowVars) : FlowVars :=
  let s := if s.mFirstTimerEntry then { firstEntry s with mFirstTimerEntry := false } else s
  let s := dispatchEntry codes a s
  if s.mPeriodicTimerHandle then
    if unRegister s then completeFlow codes { s with mPeriodicTimerHandle := false }
    else { s with smiEn := s.smiEn &&& ~~~swsmiTmrEn ||| swsmiTmrEn }
  else s

/-- The loop of `RasSmiHandler`, over the calls it makes; `none` says that there are more. -/
def rasSmiLoop (codes : RasCodes) : List HandlerAnswer → FlowVars → Option FlowVars
  | [], _ => none
  | a :: as, s =>
    if unRegister (dispatchEntry codes a s) then some (completeFlow codes (dispatchEntry codes a s))
    else rasSmiLoop codes as (dispatchEntry codes a s)

/-- `RasSmiHandler`. -/
def rasSmiHandler (codes : RasCodes) (answers : List HandlerAnswer) (s : FlowVars) :
    Option FlowVars :=
  rasSmiLoop codes answers (firstEntry s)

/-! ### HpGPIHandler -/

/-- `RegisterPeriodicTimer`. -/
def registerPeriodicTimer (g : HpGpiInput) (s : FlowVars) : FlowVars :=
  { s with
    mFirstTimerEntry := true
    mPeriodicTimerHandle := g.registered
    smiEn := g.registerSmiEn s.smiEn }

/-- The first part of `HpGPIHandler`: whether this is a soft request. A rogue one is erased. -/
def requestKind (g : HpGpiInput) (s : FlowVars) : FlowVars :=
  let data32 := if s.mSwSmiHandlerEnabled then 0 else g.inputInversion
  if data32 = 0 then
    if s.smiRequestParam 0 ≠ 0 then { s with mIsSoftSmiRequest := true }
    else { s with
      smiRequestParam := fun i ↦ if i < 4 then 0 else s.smiRequestParam i
      mIsSoftSmiRequest := false }
  else { s with mIsSoftSmiRequest := false }

/-- The second part: the parameters, and `OnlineOfflineRequestFlag`. -/
def requestParams (codes : RasCodes) (g : HpGpiInput) (s : FlowVars) : Bool × FlowVars :=
  let r := if s.mIsSoftSmiRequest then
      (s.smiRequestParam 0 != 0,
        { s with mSmiParam := fun i ↦ if i < 4 then s.smiRequestParam i else s.mSmiParam i })
    else
      (g.checkOnlineOfflineRequest,
        { s with smiRequestParam := Function.update s.smiRequestParam 0 (BitVec.allOnes 32) })
  (r.1, { r.2 with
    mSmiParam := Function.update r.2.mSmiParam 3 (word codes.inProgress)
    smiRequestParam := Function.update r.2.smiRequestParam 3 (word codes.inProgress) })

/-- The last part, for a request that is accepted. -/
def startFlow (codes : RasCodes) (g : HpGpiInput) (s : FlowVars) : Option FlowVars :=
  let s := { s with acceptedSmiEn := s.smiEn, answers := [] }
  if s.mSwSmiHandlerEnabled then rasSmiHandler codes g.answers s
  else
    -- `SMI_EN` is written twice, without the periodic timer and with it.
    let data32 := s.smiEn &&& 0xC0000003
    some (registerPeriodicTimer g
      { s with pmRegSmiEnSave := s.smiEn, smiEn := data32 ||| 1#32 <<< 14 })

/-- `HpGPIHandler`; `none` says that it does not return. -/
def hpGPIHandler (codes : RasCodes) (g : HpGpiInput) (s : FlowVars) : Option FlowVars :=
  if s.mPeriodicTimerHandle then some s
  else
    let r := requestParams codes g (requestKind g s)
    if r.1 then startFlow codes g r.2 else some r.2

/-! ### Events -/

/-- What can happen. -/
inductive RasEvent
  /-- `RasInitGpiChildCallback`, with the status bit of the hot-plug pad. -/
  | gpi (status : Bool) (g : HpGpiInput)
  /-- `RasInitSwSmiChildCallback`, with the value of the port `APM_STS`. -/
  | swSmi (apmSts : BitVec 8) (g : HpGpiInput)
  /-- An SMI of the periodic timer, and the call of an entry that it makes. -/
  | periodicTimer (a : HandlerAnswer)
  /-- The OS writes the parameters of a request. -/
  | osRequest (smiRequestParam : ℕ → BitVec 32)
  /-- Somebody else writes `SMI_EN`. -/
  | writeSmiEn (smiEn : BitVec 32)

/-- `RasInitSwSmiChildCallback`. The word it puts into the fourth parameter is never written. -/
def rasInitSwSmiChildCallback (codes : RasCodes) (apmSts : BitVec 8) (g : HpGpiInput)
    (s : FlowVars) : Option FlowVars :=
  if apmSts = 0xFF then
    hpGPIHandler codes g { s with
      smiRequestParam := fun i ↦ if i = 0 then codes.smiCpuOnlineOffline
        else if i = 2 then 1 else if i < 4 then 0 else s.smiRequestParam i
      mFirstTimerEntry := true
      mHpRequest := Function.update s.mHpRequest 1 3
      mSwSmiHandlerEnabled := true }
  else some s

/-- One event. The timer's child is called only while it is registered. -/
def rasEvent (codes : RasCodes) (s : FlowVars) : RasEvent → Option FlowVars
  | .gpi status g => if status then hpGPIHandler codes g s else some s
  | .swSmi apmSts g => rasInitSwSmiChildCallback codes apmSts g s
  | .periodicTimer a =>
    if s.mPeriodicTimerHandle then some (rasPeriodicTimerSmiHandler codes a s) else some s
  | .osRequest smiRequestParam => some { s with smiRequestParam := smiRequestParam }
  | .writeSmiEn smiEn => some { s with smiEn := smiEn }

/-- The variables after an event. A call that does not return is passed over. -/
def afterEvent (codes : RasCodes) (s : FlowVars) (e : RasEvent) : FlowVars :=
  (rasEvent codes s e).getD s

/-! ### What is expected -/

variable {codes : RasCodes} {a : HandlerAnswer} {as : List HandlerAnswer} {s s' : FlowVars}

/-- The last status of a flow that is one: the others say that the entry is in progress, or that it
has nothing to do. -/
def lastStatus (codes : RasCodes) (answers : List HandlerAnswer) : Option (BitVec 64) :=
  answers.foldl (fun last a ↦
    if a.status ≠ codes.inProgress ∧ a.status ≠ codes.noRequest then some a.status else last) none

/-- The status that a flow has stored by then. -/
def storedStatus (codes : RasCodes) (answers : List HandlerAnswer) : BitVec 32 :=
  ((lastStatus codes answers).map word).getD (word codes.inProgress)

/-- The parameters of the request are erased. -/
structure RequestCleared (s : FlowVars) : Prop where
  smiRequestParam : ∀ i < 3, s.smiRequestParam i = 0
  mSmiParam : ∀ i < 3, s.mSmiParam i = 0
  mHpRequest : ∀ i < 6, s.mHpRequest i = 0

/-- A flow completes in this event. -/
def Completes (codes : RasCodes) (s : FlowVars) (e : RasEvent) : Prop :=
  (afterEvent codes s e).completions ≠ s.completions

/-- What is expected of an event. -/
structure FlowOk (codes : RasCodes) (s : FlowVars) (e : RasEvent) : Prop where
  /-- The index does not pass the last entry. -/
  index : (afterEvent codes s e).mRasTableIndex < rasDispatchTable.length
  /-- If a flow completes, `SMI_EN` is what it was when the flow was accepted, ... -/
  smiEn : Completes codes s e →
    (afterEvent codes s e).smiEn = (afterEvent codes s e).acceptedSmiEn
  /-- ... the request is erased, ... -/
  cleared : Completes codes s e → RequestCleared (afterEvent codes s e)
  /-- ... and the status for the OS is not `IN_PROGRESS`. -/
  status : Completes codes s e →
    (afterEvent codes s e).smiRequestParam 3 ≠ word codes.inProgress

/-- The answers of a flow make a status that the OS does not take for `IN_PROGRESS`: there is one
among them, or the test at the end of the flow works. -/
def GivesStatus (codes : RasCodes) (answers : List HandlerAnswer) : Prop :=
  (∃ status, lastStatus codes answers = some status ∧ word status ≠ word codes.inProgress) ∨
    ((word codes.inProgress).setWidth 64 = codes.inProgress ∧
      word codes.errorExit ≠ word codes.inProgress)

/-- When an event is as expected: a flow that completes in it was driven by the timer, or `SMI_EN` is
what was last saved; and its calls make a status. -/
structure FlowOkWhen (codes : RasCodes) (s : FlowVars) (e : RasEvent) : Prop where
  saved : Completes codes s e → s.mPeriodicTimerHandle = true ∨ s.pmRegSmiEnSave = s.smiEn
  status : Completes codes s e → GivesStatus codes (afterEvent codes s e).answers

/-! ### The status -/

theorem lastStatus_concat :
    lastStatus codes (as ++ [a]) =
      if a.status ≠ codes.inProgress ∧ a.status ≠ codes.noRequest then some a.status
      else lastStatus codes as := by
  rw [lastStatus, List.foldl_append]
  rfl

theorem word_setWidth (w : BitVec 32) : word (w.setWidth 64) = w := by
  unfold word
  rw [BitVec.setWidth_setWidth_of_le _ (by decide), BitVec.setWidth_eq]

/-- **The status for the OS** is `IN_PROGRESS` unless the answers make another one. -/
theorem finalStatus_ne_iff (answers : List HandlerAnswer) :
    finalStatus codes (storedStatus codes answers) ≠ word codes.inProgress ↔
      GivesStatus codes answers := by
  have hstored : (∃ status, lastStatus codes answers = some status ∧
      word status ≠ word codes.inProgress) ↔
        storedStatus codes answers ≠ word codes.inProgress := by
    unfold storedStatus
    cases lastStatus codes answers with
    | none => simp
    | some status => simp
  unfold finalStatus GivesStatus
  rw [hstored]
  by_cases hsame : (storedStatus codes answers).setWidth 64 = codes.inProgress
  · have hword : storedStatus codes answers = word codes.inProgress := by
      rw [← hsame, word_setWidth]
    have hfits : (word codes.inProgress).setWidth 64 = codes.inProgress := hword ▸ hsame
    rw [if_pos hsame]
    simp only [hword, hfits, ne_eq, not_true_eq_false, false_or, true_and]
  · rw [if_neg hsame]
    refine ⟨.inl, fun h ↦ h.elim id fun hfits hword ↦ hsame ?_⟩
    rw [hword]
    exact hfits.1

/-! ### One call of an entry -/

/-- The flow is at an entry, and its status is stored. -/
structure AtEntry (codes : RasCodes) (s : FlowVars) : Prop where
  index : s.mRasTableIndex < 2
  nextEntryPointer : s.nextEntryPointer = s.mRasTableIndex
  mExitImmediately : s.mExitImmediately = false
  status : s.mSmiParam 3 = storedStatus codes s.answers

/-- What a call of an entry leaves alone. -/
structure SameFlow (s s' : FlowVars) : Prop where
  smiEn : s'.smiEn = s.smiEn
  pmRegSmiEnSave : s'.pmRegSmiEnSave = s.pmRegSmiEnSave
  mPeriodicTimerHandle : s'.mPeriodicTimerHandle = s.mPeriodicTimerHandle
  mFirstTimerEntry : s'.mFirstTimerEntry = s.mFirstTimerEntry
  acceptedSmiEn : s'.acceptedSmiEn = s.acceptedSmiEn
  completions : s'.completions = s.completions

theorem sameFlow_dispatchEntry (codes : RasCodes) (a : HandlerAnswer) (s : FlowVars) :
    SameFlow s (dispatchEntry codes a s) := by
  unfold dispatchEntry
  dsimp only
  split <;> exact ⟨rfl, rfl, rfl, rfl, rfl, rfl⟩

/-- **One call** leads to the same entry or to the next one, and its status is stored. -/
theorem dispatchEntry_spec (h : AtEntry codes s) (a : HandlerAnswer) :
    (dispatchEntry codes a s).mRasTableIndex ≤ 2 ∧
      (dispatchEntry codes a s).nextEntryPointer = (dispatchEntry codes a s).mRasTableIndex ∧
      (dispatchEntry codes a s).mSmiParam 3 =
        storedStatus codes (dispatchEntry codes a s).answers := by
  have hindex := h.index
  unfold dispatchEntry
  dsimp only
  by_cases hprog : a.status ≠ codes.inProgress
  · rw [if_pos hprog]
    refine ⟨hindex, rfl, ?_⟩
    dsimp only
    rw [storedStatus, lastStatus_concat]
    by_cases hno : a.status ≠ codes.noRequest
    · rw [if_pos hno, if_pos ⟨hprog, hno⟩, Function.update_self]
      rfl
    · rw [if_neg hno, if_neg fun h ↦ hno h.2]
      exact h.status
  · rw [if_neg hprog]
    refine ⟨Nat.le_of_lt hindex, h.nextEntryPointer, ?_⟩
    dsimp only
    rw [storedStatus, lastStatus_concat, if_neg fun h ↦ hprog h.1]
    exact h.status

/-- If the flow is not over then it is at an entry. -/
theorem atEntry_of_not_unRegister (h : AtEntry codes s)
    (hend : unRegister (dispatchEntry codes a s) = false) :
    AtEntry codes (dispatchEntry codes a s) := by
  obtain ⟨hindex, hnext, hstatus⟩ := dispatchEntry_spec h a
  obtain ⟨htable, hexit⟩ := Bool.or_eq_false_iff.1 hend
  refine ⟨Nat.lt_of_le_of_ne hindex fun htwo ↦ ?_, hnext, hexit, hstatus⟩
  rw [htwo] at htable
  cases htable

/-- What the end of a flow does. -/
structure FlowEnds (codes : RasCodes) (s s' : FlowVars) : Prop where
  smiEn : s'.smiEn = s.pmRegSmiEnSave
  pmRegSmiEnSave : s'.pmRegSmiEnSave = s.pmRegSmiEnSave
  mPeriodicTimerHandle : s'.mPeriodicTimerHandle = s.mPeriodicTimerHandle
  acceptedSmiEn : s'.acceptedSmiEn = s.acceptedSmiEn
  completions : s'.completions = s.completions + 1
  index : s'.mRasTableIndex ≤ 2
  cleared : RequestCleared s'
  status : s'.smiRequestParam 3 = finalStatus codes (storedStatus codes s'.answers)

theorem flowEnds_completeFlow (hindex : s.mRasTableIndex ≤ 2)
    (hstatus : s.mSmiParam 3 = storedStatus codes s.answers) :
    FlowEnds codes s (completeFlow codes s) where
  smiEn := rfl
  pmRegSmiEnSave := rfl
  mPeriodicTimerHandle := rfl
  acceptedSmiEn := rfl
  completions := rfl
  index := hindex
  cleared := ⟨fun _ hi ↦ if_pos hi, fun _ hi ↦ if_pos hi, fun _ hi ↦ if_pos hi⟩
  status := congrArg (finalStatus codes) hstatus

/-- **The loop.** Whenever it ends, it has made the end of the flow. The induction is on the calls it
makes. -/
theorem flowEnds_rasSmiLoop (h : AtEntry codes s) (hloop : rasSmiLoop codes as s = some s') :
    FlowEnds codes s s' := by
  induction as generalizing s with
  | nil => cases hloop
  | cons a as ih =>
    have hsame := sameFlow_dispatchEntry codes a s
    have hnext : FlowEnds codes (dispatchEntry codes a s) s' := by
      rw [rasSmiLoop] at hloop
      split at hloop
      · obtain ⟨hindex, -, hstatus⟩ := dispatchEntry_spec h a
        obtain rfl := Option.some.inj hloop
        exact flowEnds_completeFlow hindex hstatus
      · rename_i hend
        exact ih (atEntry_of_not_unRegister h (Bool.eq_false_iff.2 hend)) hloop
    exact
      { smiEn := hnext.smiEn.trans hsame.pmRegSmiEnSave
        pmRegSmiEnSave := hnext.pmRegSmiEnSave.trans hsame.pmRegSmiEnSave
        mPeriodicTimerHandle := hnext.mPeriodicTimerHandle.trans hsame.mPeriodicTimerHandle
        acceptedSmiEn := hnext.acceptedSmiEn.trans hsame.acceptedSmiEn
        completions := hnext.completions.trans (congrArg (· + 1) hsame.completions)
        index := hnext.index
        cleared := hnext.cleared
        status := hnext.status }

/-! ### One event -/

/-- **Between two events.** While a flow is under way, the saved `SMI_EN` is the one at its
acceptance, and its status is stored. -/
structure FlowInv (codes : RasCodes) (s : FlowVars) : Prop where
  index : s.mRasTableIndex ≤ 2
  saved : s.mPeriodicTimerHandle = true → s.pmRegSmiEnSave = s.acceptedSmiEn
  status : s.mPeriodicTimerHandle = true → s.mSmiParam 3 = storedStatus codes s.answers
  atEntry : s.mPeriodicTimerHandle = true → s.mFirstTimerEntry = true ∨ AtEntry codes s

/-- **What an event does.** No flow completes, or the last step of the event is the end of a flow:
of the one that was under way, or of one that is accepted in this event. -/
def EventDoes (codes : RasCodes) (s s' : FlowVars) : Prop :=
  (s'.completions = s.completions ∧ FlowInv codes s') ∨
    ∃ t, FlowEnds codes t s' ∧ t.completions = s.completions ∧ t.mPeriodicTimerHandle = false ∧
      t.pmRegSmiEnSave = s.pmRegSmiEnSave ∧
      t.acceptedSmiEn = if s.mPeriodicTimerHandle then s.pmRegSmiEnSave else s.smiEn

/-- The variables that a request which is not accepted leaves alone. -/
structure SameDriver (s s' : FlowVars) : Prop where
  smiEn : s'.smiEn = s.smiEn
  pmRegSmiEnSave : s'.pmRegSmiEnSave = s.pmRegSmiEnSave
  mPeriodicTimerHandle : s'.mPeriodicTimerHandle = s.mPeriodicTimerHandle
  mRasTableIndex : s'.mRasTableIndex = s.mRasTableIndex
  completions : s'.completions = s.completions

theorem sameDriver_requestKind (g : HpGpiInput) (s : FlowVars) :
    SameDriver s (requestKind g s) := by
  unfold requestKind
  dsimp only
  split_ifs <;> exact ⟨rfl, rfl, rfl, rfl, rfl⟩

theorem sameDriver_requestParams (codes : RasCodes) (g : HpGpiInput) (s : FlowVars) :
    SameDriver s (requestParams codes g s).2 := by
  unfold requestParams
  dsimp only
  split <;> exact ⟨rfl, rfl, rfl, rfl, rfl⟩

/-- The status starts as `IN_PROGRESS`. -/
theorem requestParams_status (codes : RasCodes) (g : HpGpiInput) (s : FlowVars) :
    (requestParams codes g s).2.mSmiParam 3 = word codes.inProgress := by
  unfold requestParams
  dsimp only
  exact Function.update_self _ _ _

/-- **A request that is accepted** starts a flow of the timer, or is served in the loop. -/
theorem startFlow_does {g : HpGpiInput} (hindex : s.mRasTableIndex ≤ 2)
    (hhandle : s.mPeriodicTimerHandle = false) (hstatus : s.mSmiParam 3 = word codes.inProgress)
    (h : startFlow codes g s = some s') : EventDoes codes s s' := by
  unfold startFlow at h
  dsimp only at h
  split at h
  · have hentry : AtEntry codes (firstEntry { s with acceptedSmiEn := s.smiEn, answers := [] }) :=
      ⟨Nat.zero_lt_two, rfl, rfl, hstatus⟩
    refine .inr ⟨_, flowEnds_rasSmiLoop hentry h, rfl, hhandle, rfl, ?_⟩
    rw [hhandle]
    rfl
  · obtain rfl := Option.some.inj h
    exact .inl ⟨rfl, hindex, fun _ ↦ rfl, fun _ ↦ hstatus, fun _ ↦ .inl rfl⟩

/-- **HpGPIHandler** ignores a request while a flow is under way. -/
theorem hpGPIHandler_does {g : HpGpiInput} (hinv : FlowInv codes s)
    (h : hpGPIHandler codes g s = some s') : EventDoes codes s s' := by
  unfold hpGPIHandler at h
  split at h
  · obtain rfl := Option.some.inj h
    exact .inl ⟨rfl, hinv⟩
  · rename_i hhandle
    rw [Bool.not_eq_true] at hhandle
    have hkind := sameDriver_requestKind g s
    have hparams := sameDriver_requestParams codes g (requestKind g s)
    have hstatus := requestParams_status codes g (requestKind g s)
    dsimp only at h
    generalize requestParams codes g (requestKind g s) = r at h hparams hstatus
    have hfree : r.2.mPeriodicTimerHandle = false :=
      (hparams.mPeriodicTimerHandle.trans hkind.mPeriodicTimerHandle).trans hhandle
    have hindex : r.2.mRasTableIndex ≤ 2 := by
      rw [hparams.mRasTableIndex, hkind.mRasTableIndex]
      exact hinv.index
    have hcompletions := hparams.completions.trans hkind.completions
    split at h
    · obtain ⟨hsame, hnext⟩ | ⟨t, hends, ht, hthandle, htsave, htaccepted⟩ :=
        startFlow_does hindex hfree hstatus h
      · exact .inl ⟨hsame.trans hcompletions, hnext⟩
      · refine .inr ⟨t, hends, ht.trans hcompletions, hthandle,
          htsave.trans (hparams.pmRegSmiEnSave.trans hkind.pmRegSmiEnSave), ?_⟩
        rw [htaccepted, hfree, hhandle, hparams.smiEn, hkind.smiEn]
        rfl
    · obtain rfl := Option.some.inj h
      refine .inl ⟨hcompletions, hindex, ?_, ?_, ?_⟩ <;>
      · rw [hfree]
        nofun

/-- The invariant does not look at `SMI_EN`, nor at the request of the OS. -/
theorem FlowInv.congr (h : FlowInv codes s) (hindex : s'.mRasTableIndex = s.mRasTableIndex)
    (hhandle : s'.mPeriodicTimerHandle = s.mPeriodicTimerHandle)
    (hsave : s'.pmRegSmiEnSave = s.pmRegSmiEnSave)
    (haccepted : s'.acceptedSmiEn = s.acceptedSmiEn)
    (hstatus : s'.mSmiParam = s.mSmiParam) (hanswers : s'.answers = s.answers)
    (hentry : s.mFirstTimerEntry = true ∨ AtEntry codes s →
      s'.mFirstTimerEntry = true ∨ AtEntry codes s') : FlowInv codes s' where
  index := hindex ▸ h.index
  saved hs' := by
    rw [hsave, haccepted]
    exact h.saved (hhandle ▸ hs')
  status hs' := by
    rw [hstatus, hanswers]
    exact h.status (hhandle ▸ hs')
  atEntry hs' := hentry (h.atEntry (hhandle ▸ hs'))

/-- **A timer SMI** makes one call of an entry, after which the flow goes on or ends. -/
theorem rasPeriodicTimerSmiHandler_does (hinv : FlowInv codes s)
    (hhandle : s.mPeriodicTimerHandle = true) (a : HandlerAnswer) :
    EventDoes codes s (rasPeriodicTimerSmiHandler codes a s) := by
  -- The call is made at an entry, the first one if the flow has just been accepted.
  obtain ⟨t, ht, hentry, hsmiEn, hsave, hthandle, haccepted, hcompletions⟩ : ∃ t,
      (if s.mFirstTimerEntry then { firstEntry s with mFirstTimerEntry := false } else s) = t ∧
        AtEntry codes t ∧ t.smiEn = s.smiEn ∧ t.pmRegSmiEnSave = s.pmRegSmiEnSave ∧
        t.mPeriodicTimerHandle = true ∧ t.acceptedSmiEn = s.acceptedSmiEn ∧
        t.completions = s.completions := by
    split
    · exact ⟨_, rfl, ⟨Nat.zero_lt_two, rfl, rfl, hinv.status hhandle⟩, rfl, rfl, hhandle, rfl, rfl⟩
    · rename_i hfirst
      exact ⟨s, rfl, (hinv.atEntry hhandle).resolve_left hfirst, rfl, rfl, hhandle, rfl, rfl⟩
  unfold rasPeriodicTimerSmiHandler
  rw [ht]
  obtain ⟨hindex, hnext, hstatus⟩ := dispatchEntry_spec hentry a
  have hsame := sameFlow_dispatchEntry codes a t
  have hsaved : (dispatchEntry codes a t).pmRegSmiEnSave =
      (dispatchEntry codes a t).acceptedSmiEn := by
    rw [hsame.pmRegSmiEnSave, hsame.acceptedSmiEn, hsave, haccepted]
    exact hinv.saved hhandle
  dsimp only
  rw [if_pos (hsame.mPeriodicTimerHandle.trans hthandle)]
  split
  · refine .inr ⟨{ dispatchEntry codes a t with mPeriodicTimerHandle := false },
      flowEnds_completeFlow hindex hstatus, hsame.completions.trans hcompletions, rfl,
      hsame.pmRegSmiEnSave.trans hsave, ?_⟩
    rw [if_pos hhandle, ← hsave, ← hsame.pmRegSmiEnSave]
    exact hsaved.symm
  · rename_i hend
    have hagain := atEntry_of_not_unRegister hentry (Bool.eq_false_iff.2 hend)
    exact .inl ⟨hsame.completions.trans hcompletions, hindex, fun _ ↦ hsaved, fun _ ↦ hstatus,
      fun _ ↦ .inr ⟨hagain.index, hagain.nextEntryPointer, hagain.mExitImmediately, hstatus⟩⟩

/-- **Every event.** -/
theorem afterEvent_does (hinv : FlowInv codes s) (e : RasEvent) :
    EventDoes codes s (afterEvent codes s e) := by
  have hstay : EventDoes codes s s := .inl ⟨rfl, hinv⟩
  have hcall : ∀ {t : FlowVars} {g : HpGpiInput}, FlowInv codes t →
      (∀ s', EventDoes codes t s' → EventDoes codes s s') →
      EventDoes codes s ((hpGPIHandler codes g t).getD s) := by
    intro t g ht hlift
    cases hreturns : hpGPIHandler codes g t with
    | none => exact hstay
    | some s' => exact hlift s' (hpGPIHandler_does ht hreturns)
  unfold afterEvent rasEvent
  cases e with
  | gpi status g =>
    dsimp only
    split
    · exact hcall hinv fun _ h ↦ h
    · exact hstay
  | swSmi apmSts g =>
    dsimp only
    unfold rasInitSwSmiChildCallback
    split
    · exact hcall (hinv.congr rfl rfl rfl rfl rfl rfl fun _ ↦ .inl rfl) fun _ h ↦ h
    · exact hstay
  | periodicTimer a =>
    dsimp only
    split
    · rename_i hhandle
      exact rasPeriodicTimerSmiHandler_does hinv hhandle a
    · exact hstay
  | osRequest smiRequestParam =>
    exact .inl ⟨rfl, hinv.congr rfl rfl rfl rfl rfl rfl fun h ↦ h.imp_right fun h ↦
      ⟨h.index, h.nextEntryPointer, h.mExitImmediately, h.status⟩⟩
  | writeSmiEn smiEn =>
    exact .inl ⟨rfl, hinv.congr rfl rfl rfl rfl rfl rfl fun h ↦ h.imp_right fun h ↦
      ⟨h.index, h.nextEntryPointer, h.mExitImmediately, h.status⟩⟩

/-! ### Every run of events -/

theorem flowInv_boot (codes : RasCodes) (smiEn : BitVec 32) : FlowInv codes (.boot smiEn) :=
  ⟨Nat.zero_le _, nofun, nofun, nofun⟩

/-- The end of a flow leaves nothing under way. -/
theorem EventDoes.flowInv (h : EventDoes codes s s') : FlowInv codes s' := by
  obtain ⟨-, hinv⟩ | ⟨t, hends, -, hhandle, -⟩ := h
  · exact hinv
  · have hfree : s'.mPeriodicTimerHandle = false := hends.mPeriodicTimerHandle.trans hhandle
    refine ⟨hends.index, ?_, ?_, ?_⟩ <;>
    · rw [hfree]
      nofun

/-- **One event.** -/
theorem flowOk_iff (hinv : FlowInv codes s) (e : RasEvent) :
    FlowOk codes s e ↔ FlowOkWhen codes s e := by
  have hdoes := afterEvent_does hinv e
  have hindex : (afterEvent codes s e).mRasTableIndex < rasDispatchTable.length :=
    Nat.lt_succ_of_le hdoes.flowInv.index
  obtain ⟨hsame, -⟩ | ⟨t, hends, ht, hhandle, hsave, haccepted⟩ := hdoes
  · have hnot : ¬ Completes codes s e := not_not.2 hsame
    exact iff_of_true ⟨hindex, fun h ↦ absurd h hnot, fun h ↦ absurd h hnot, fun h ↦ absurd h hnot⟩
      ⟨fun h ↦ absurd h hnot, fun h ↦ absurd h hnot⟩
  · have hcompletes : Completes codes s e := by
      have hmore := hends.completions
      unfold Completes
      omega
    have hsmiEn : (afterEvent codes s e).smiEn = (afterEvent codes s e).acceptedSmiEn ↔
        s.mPeriodicTimerHandle = true ∨ s.pmRegSmiEnSave = s.smiEn := by
      rw [hends.smiEn, hends.acceptedSmiEn, hsave, haccepted]
      split
      · rename_i hset
        exact iff_of_true rfl (.inl hset)
      · rename_i hset
        exact ⟨.inr, fun h ↦ h.resolve_left hset⟩
    have hstatus : (afterEvent codes s e).smiRequestParam 3 ≠ word codes.inProgress ↔
        GivesStatus codes (afterEvent codes s e).answers := by
      rw [hends.status]
      exact finalStatus_ne_iff _
    constructor
    · intro h
      exact ⟨fun hc ↦ hsmiEn.1 (h.smiEn hc), fun hc ↦ hstatus.1 (h.status hc)⟩
    · intro h
      exact ⟨hindex, fun hc ↦ hsmiEn.2 (h.saved hc), fun _ ↦ hends.cleared,
        fun hc ↦ hstatus.2 (h.status hc)⟩

/-- **The flow restores `SMI_EN` exactly if it is what was last saved.** In a run of events from
boot, each flow that completes leaves `SMI_EN` as it was at its acceptance, the request erased and a
status that is not `IN_PROGRESS`, and the index stays within the dispatch table, if and only if each
flow that completes is driven by the timer or finds in `SMI_EN` what was last saved, and its calls
make a status. -/
theorem along_flowOk_iff (codes : RasCodes) (smiEn : BitVec 32) (es : List RasEvent) :
    Along (afterEvent codes) (FlowOk codes) (.boot smiEn) es ↔
      Along (afterEvent codes) (FlowOkWhen codes) (.boot smiEn) es := by
  have hpres : ∀ s e, FlowInv codes s → True → FlowOk codes s e →
      FlowInv codes (afterEvent codes s e) :=
    fun _ e hs _ _ ↦ (afterEvent_does hs e).flowInv
  have hiff : ∀ s e, FlowInv codes s → True → (FlowOk codes s e ↔ FlowOkWhen codes s e) :=
    fun _ e hs _ ↦ flowOk_iff hs e
  exact along_iff_of_invariant hpres hiff (flowInv_boot codes smiEn)
    (along_of_forall (fun _ _ ↦ trivial) _ _)

/-- The codes of a 64-bit build, with some value for each that a missing header defines. -/
def x64Codes : RasCodes where
  inProgress := 0x8000000000000014
  noRequest := 0x800000000000001F
  errorExit := 0x8000000000000015
  smiCpuOnlineOffline := 1

/-- A request by software SMI, with both entries done at once. -/
def simulatedRequest : RasEvent :=
  .swSmi 0xFF
    { inputInversion := 0, checkOnlineOfflineRequest := false, registered := true
      registerSmiEn := id
      answers := [⟨0, false, fun _ ↦ 0⟩, ⟨0, false, fun _ ↦ 0⟩] }

/-- **A flow that the loop runs switches all SMIs off**: nothing was saved, so zero is written. -/
theorem not_flowOk_simulated :
    ¬ ∀ (codes : RasCodes) (smiEn : BitVec 32) (es : List RasEvent),
      Along (afterEvent codes) (FlowOk codes) (.boot smiEn) es := by
  intro h
  have hok := (h x64Codes 0x23 [simulatedRequest]).1
  have hcompletes : Completes x64Codes (.boot 0x23) simulatedRequest := by
    unfold Completes
    decide
  have hagree := hok.smiEn hcompletes
  have hdiffer : (afterEvent x64Codes (.boot 0x23) simulatedRequest).smiEn ≠
      (afterEvent x64Codes (.boot 0x23) simulatedRequest).acceptedSmiEn := by decide
  exact hdiffer hagree

end PurleyFirmware.RasInit
