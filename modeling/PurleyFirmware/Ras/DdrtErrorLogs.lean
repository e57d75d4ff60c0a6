import Mathlib.Data.List.ProdSigma
import Mathlib.Data.List.Nodup
import Mathlib.Data.Fintype.Order
import PurleyFirmware.Foundation.StickyFlags
import PurleyFirmware.Uefi.Status

/-!
# The error logs of the NVDIMMs of a socket

`GetErrorLogFromSocket` goes through the priorities, channels and DIMMs of a socket. For an NVDIMM
that has an alert it decides, by the alert word and the version of the firmware interface, whether
to fetch the state of the long operation and whether to read the media log and the thermal log, and
it marks in `DimmErrorLogData` what is to be processed.

What it does for an alert should be decided by this alert alone: the same should be done when no
other DIMM and no other priority has one. But the three variables that hold the decision are set
before the loops begin, and no turn resets them. `keepsApart_iff` says when this makes no
difference: if each alert asks for every log that an alert before it has asked for. It also says
when the state of a long operation is fetched only where `ProcessLongOp` is set: if no alert of low
priority has an overflow.
-/

namespace PurleyFirmware.Ras

/-! ### The code outside -/

/-- What the headers fix. -/
structure DdrtConstants where
  /-- `FNVERR_MASK`. -/
  fnverrMask : BitVec 32
  /-- `FNVERR_OVERFLOW`. -/
  fnverrOverflow : BitVec 32
  /-- `FNVERR_LONGOP_COMPLETE`. -/
  fnverrLongopComplete : BitVec 32
  /-- `FNVERR_MEDIA_ERROR_LOG`. -/
  fnverrMediaErrorLog : BitVec 32
  /-- `FNVERR_THERMAL_ERROR_LOG`. -/
  fnverrThermalErrorLog : BitVec 32
  /-- `FNVERR_NGNVM_ERROR_LOG`. -/
  fnverrNgnvmErrorLog : BitVec 32
  /-- `FNVERR_FW_HANG`. -/
  fnverrFwHang : BitVec 32
  /-- `FNVERR_FATAL`. -/
  fnverrFatal : BitVec 32
  /-- `FIS_1_13`. -/
  fis113 : ℕ
  /-- `LOW_LEVEL_LOG`. -/
  lowLevelLog : ℕ
  /-- `HIGH_LEVEL_LOG`. -/
  highLevelLog : ℕ
  /-- `MAX_CH`. -/
  maxCh : ℕ
  /-- `MAX_DIMM`. -/
  maxDimm : ℕ
  /-- `MAX_MEDIA_PAYLOADS`. -/
  maxMediaPayloads : ℕ
  /-- `MAX_THERMAL_PAYLOADS`. -/
  maxThermalPayloads : ℕ
  /-- The length of `MediaLogs`. -/
  maxMediaLogs : ℕ
  /-- The length of `ThermalLogs`. -/
  maxThermalLogs : ℕ

/-- An entry of `DimmErrorLogData[Socket]`. -/
structure LogEntry where
  priority : ℕ
  ch : ℕ
  dimm : ℕ
  deriving DecidableEq

/-- The type of a log. -/
inductive LogRequest
  | mediaLogReq
  | thermalLogReq
  deriving DecidableEq

/-- An answer of `NvmCtlrGetErrorLog`. -/
structure LogAnswer where
  status : EfiStatus
  returnCount : ℕ
  newSeqNumber : BitVec 16
  deriving DecidableEq

/-- What `mCrystalRidge` answers for a socket. -/
structure NvdimmAnswers where
  /-- `IsNvmDimm`. -/
  isNvmDimm : ℕ → ℕ → Bool
  /-- `NvmCtlrErrorLogDetectError`: the status and the alert word. -/
  detectError : LogEntry → EfiStatus × BitVec 32
  /-- `NvmCtlrGetDimmInfo`: the status and `FisVersion`. -/
  getDimmInfo : LogEntry → EfiStatus × ℕ
  /-- `NvmCtlrLongOpCompleteGet`. -/
  longOpCompleteGet : LogEntry → EfiStatus
  /-- `NvmCtlrGetErrorLog`, when it is called for the given time and with the given sequence
  number. -/
  getErrorLog : LogEntry → LogRequest → ℕ → BitVec 16 → LogAnswer

/-- The calls by which a log is read. -/
inductive NvmCall
  | nvmCtlrLongOpCompleteGet
  | nvmCtlrGetErrorLog (request : LogRequest) (sequenceNumber : BitVec 16)
  deriving DecidableEq

/-! ### The decision -/

/-- The three variables that hold the decision. -/
inductive LogFlag
  | checkLongOpState
  | readMediaLog
  | readThermalLog
  deriving DecidableEq

/-- Their values. -/
abbrev LogFlags := LogFlag → Bool

/-- One of them is set. -/
def LogFlags.set (flags : LogFlags) (flag : LogFlag) : LogFlags := fun f ↦ flags f || f == flag

/-- `Overflow`. -/
def DdrtConstants.overflow (C : DdrtConstants) (data : BitVec 32) : Bool :=
  data &&& C.fnverrOverflow != 0

/-- A bit of `ErrorMap` is set. -/
def DdrtConstants.errorBit (C : DdrtConstants) (data bit : BitVec 32) : Bool :=
  data &&& C.fnverrMask &&& bit != 0

/-- The decision of one turn, on top of what was decided before. -/
def decideLogs (C : DdrtConstants) (priority fisVersion : ℕ) (data : BitVec 32)
    (flags : LogFlags) : LogFlags :=
  if priority = C.lowLevelLog then
    if !C.overflow data then
      let flags := if C.errorBit data C.fnverrLongopComplete then flags.set .checkLongOpState
        else flags
      if fisVersion ≥ C.fis113 then
        let flags := if C.errorBit data C.fnverrMediaErrorLog then flags.set .readMediaLog
          else flags
        if C.errorBit data C.fnverrThermalErrorLog then flags.set .readThermalLog else flags
      else if C.errorBit data C.fnverrNgnvmErrorLog then
        (flags.set .readMediaLog).set .readThermalLog
      else flags
    else ((flags.set .checkLongOpState).set .readMediaLog).set .readThermalLog
  else if !C.overflow data then
    if fisVersion ≥ C.fis113 then
      let flags := if C.errorBit data C.fnverrMediaErrorLog then flags.set .readMediaLog else flags
      if C.errorBit data C.fnverrThermalErrorLog then flags.set .readThermalLog else flags
    else if C.errorBit data C.fnverrNgnvmErrorLog then flags.set .readMediaLog
    else flags
  else (flags.set .readMediaLog).set .readThermalLog

/-! ### What is stored for an entry -/

/-- `DIMM_ERROR_LOG_DATA`. A status that was not stored is `none`. -/
structure DimmErrorLogData where
  detectErrorStatus : Option EfiStatus := none
  detectErrorData : BitVec 32 := 0
  processLongOp : Bool := false
  longOpStatus : Option EfiStatus := none
  processFwHang : Bool := false
  processFwFatalErr : Bool := false
  processMediaErrLogData : Bool := false
  mediaErrSeqFirst : BitVec 16 := 0
  mediaErrLogDataRsp : List LogAnswer := []
  processThermalErrLogData : Bool := false
  thermalErrSeqFirst : BitVec 16 := 0
  thermalErrLogDataRsp : List LogAnswer := []

/-- What belongs to an entry: its data, its two fields of `FnvErrorHandlerLastSeqNum`, and the calls
by which its logs were read. -/
structure EntryLog where
  data : DimmErrorLogData
  lastSeqNum : LogRequest → BitVec 16
  calls : List NvmCall

/-- The conditions under which a loop of reads goes on. -/
def LogAnswer.goesOn (a : LogAnswer) (arraySize : ℕ) : Bool :=
  !(a.status == .notFound || a.returnCount == 0) && !a.status.isError && a.returnCount == arraySize

/-- A loop of reads, with at most `n` turns left: the sequence numbers it passes, with the
answers. -/
def readPayloads (answer : ℕ → BitVec 16 → LogAnswer) (arraySize : ℕ) :
    ℕ → ℕ → BitVec 16 → List (BitVec 16 × LogAnswer)
  | 0, _, _ => []
  | n + 1, index, sequenceNumber =>
    let a := answer index sequenceNumber
    (sequenceNumber, a) ::
      if a.goesOn arraySize then readPayloads answer arraySize n (index + 1) a.newSeqNumber else []

/-- The sequence number and the calls after the payloads were read. -/
def EntryLog.recordReads (log : EntryLog) (request : LogRequest)
    (reads : List (BitVec 16 × LogAnswer)) : EntryLog :=
  { log with
    lastSeqNum := Function.update log.lastSeqNum request
      ((reads.getLast?.map fun r ↦ r.2.newSeqNumber).getD (log.lastSeqNum request))
    calls := log.calls ++ reads.map fun r ↦ .nvmCtlrGetErrorLog request r.1 }

section Entry

variable (C : DdrtConstants) (A : NvdimmAnswers) (e : LogEntry)

/-- The flags that are set along with the decision. -/
def EntryLog.setProcess (data : BitVec 32) (log : EntryLog) : EntryLog :=
  { log with data :=
      if e.priority = C.lowLevelLog then
        if !C.overflow data && C.errorBit data C.fnverrLongopComplete then
          { log.data with processLongOp := true }
        else log.data
      else
        { log.data with
          processFwHang := log.data.processFwHang || C.errorBit data C.fnverrFwHang
          processFwFatalErr := log.data.processFwFatalErr || C.errorBit data C.fnverrFatal } }

/-- `if (CheckLongOpState)`. -/
def EntryLog.getLongOp (flags : LogFlags) (log : EntryLog) : EntryLog :=
  if flags .checkLongOpState then
    { log with
      data := { log.data with longOpStatus := some (A.longOpCompleteGet e) }
      calls := log.calls ++ [.nvmCtlrLongOpCompleteGet] }
  else log

/-- `if (ReadMediaLog)`. -/
def EntryLog.getMediaLog (flags : LogFlags) (log : EntryLog) : EntryLog :=
  if flags .readMediaLog then
    let reads := readPayloads (A.getErrorLog e .mediaLogReq) C.maxMediaLogs C.maxMediaPayloads 0
      (log.lastSeqNum .mediaLogReq)
    { log with
      data := { log.data with
        processMediaErrLogData := true
        mediaErrSeqFirst := log.lastSeqNum .mediaLogReq
        mediaErrLogDataRsp := reads.map Prod.snd } }.recordReads .mediaLogReq reads
  else log

/-- `if (ReadThermalLog)`. -/
def EntryLog.getThermalLog (flags : LogFlags) (log : EntryLog) : EntryLog :=
  if flags .readThermalLog then
    let reads := readPayloads (A.getErrorLog e .thermalLogReq) C.maxThermalLogs
      C.maxThermalPayloads 0 (log.lastSeqNum .thermalLogReq)
    { log with
      data := { log.data with
        processThermalErrLogData := true
        thermalErrSeqFirst := log.lastSeqNum .thermalLogReq
        thermalErrLogDataRsp := reads.map Prod.snd } }.recordReads .thermalLogReq reads
  else log

/-- What follows the decision. -/
def EntryLog.process (flags : LogFlags) (log : EntryLog) : EntryLog :=
  (((log.setProcess C e (A.detectError e).2).getLongOp A e flags).getMediaLog C A e
    flags).getThermalLog C A e flags

/-- The result of the detection is stored. -/
def EntryLog.detect (log : EntryLog) : EntryLog :=
  { log with data := { log.data with
      detectErrorStatus := some (A.detectError e).1
      detectErrorData := (A.detectError e).2 } }

/-- One turn of the loops. -/
def visitEntry (flags : LogFlags) (log : EntryLog) : LogFlags × EntryLog :=
  if A.isNvmDimm e.ch e.dimm then
    let log := log.detect A e
    if (A.detectError e).1.isError then (flags, log)
    else if (A.detectError e).2 &&& C.fnverrMask = 0 then (flags, log)
    else if (A.getDimmInfo e).1.isError then (flags, log)
    else
      let flags := decideLogs C e.priority (A.getDimmInfo e).2 (A.detectError e).2 flags
      (flags, log.process C A e flags)
  else (flags, log)

end Entry

/-! ### The loops -/

/-- The variables of `GetErrorLogFromSocket`. -/
structure SocketLogs where
  flags : LogFlags
  entry : LogEntry → EntryLog
  mClearSmiSrc : Bool

section Loops

variable (C : DdrtConstants) (A : NvdimmAnswers)

/-- The entries in the order of the three loops. -/
def logEntries : List LogEntry :=
  (List.range (C.highLevelLog + 1) ×ˢ List.range C.maxCh ×ˢ List.range C.maxDimm).map fun p ↦
    ⟨p.1, p.2.1, p.2.2⟩

/-- One turn, with the variables it changes. -/
def visitStep (s : SocketLogs) (e : LogEntry) : SocketLogs where
  flags := (visitEntry C A e s.flags (s.entry e)).1
  entry := Function.update s.entry e (visitEntry C A e s.flags (s.entry e)).2
  mClearSmiSrc := s.mClearSmiSrc || (A.isNvmDimm e.ch e.dimm && !(A.detectError e).1.isError)

/-- `GetErrorLogFromSocket`, from sequence numbers that are left from before and from entries that
are clear. -/
def getErrorLogFromSocket (lastSeqNum : LogEntry → LogRequest → BitVec 16) : SocketLogs :=
  (logEntries C).foldl (visitStep C A) ⟨fun _ ↦ false, fun e ↦ ⟨{}, lastSeqNum e, []⟩, false⟩

end Loops

/-! ### What should hold -/

/-- What is done for an entry: the reads and the `Process` flags. -/
structure EntryOutcome where
  calls : List NvmCall
  processLongOp : Bool
  processFwHang : Bool
  processFwFatalErr : Bool
  processMediaErrLogData : Bool
  processThermalErrLogData : Bool
  deriving DecidableEq

/-- The outcome of an entry. -/
def EntryLog.outcome (log : EntryLog) : EntryOutcome where
  calls := log.calls
  processLongOp := log.data.processLongOp
  processFwHang := log.data.processFwHang
  processFwFatalErr := log.data.processFwFatalErr
  processMediaErrLogData := log.data.processMediaErrLogData
  processThermalErrLogData := log.data.processThermalErrLogData

/-- The same answers, but that no other DIMM and no other priority has an alert. -/
def NvdimmAnswers.only (A : NvdimmAnswers) (e : LogEntry) : NvdimmAnswers :=
  { A with detectError := fun e' ↦ if e' = e then A.detectError e' else (.notFound, 0) }

/-- What should hold of an entry. -/
def EntryApart (C : DdrtConstants) (A : NvdimmAnswers)
    (lastSeqNum : LogEntry → LogRequest → BitVec 16) (e : LogEntry) : Prop :=
  let outcome := ((getErrorLogFromSocket C A lastSeqNum).entry e).outcome
  outcome = ((getErrorLogFromSocket C (A.only e) lastSeqNum).entry e).outcome ∧
    (.nvmCtlrLongOpCompleteGet ∈ outcome.calls → outcome.processLongOp = true)

/-- What should hold of a socket. -/
def KeepsApart (C : DdrtConstants) (A : NvdimmAnswers)
    (lastSeqNum : LogEntry → LogRequest → BitVec 16) : Prop :=
  ∀ e ∈ logEntries C, EntryApart C A lastSeqNum e

/-! ### One turn -/

/-- What was decided before stays decided. -/
theorem decideLogs_eq_sup (C : DdrtConstants) (priority fisVersion : ℕ) (data : BitVec 32)
    (flags : LogFlags) :
    decideLogs C priority fisVersion data flags =
      flags ⊔ decideLogs C priority fisVersion data ⊥ := by
  funext f
  simp only [decideLogs, Pi.sup_apply]
  split_ifs <;> simp [Bool.or_assoc, LogFlags.set]

/-- When an alert itself asks for the state of the long operation. -/
theorem decideLogs_checkLongOpState (C : DdrtConstants) (priority fisVersion : ℕ)
    (data : BitVec 32) :
    decideLogs C priority fisVersion data ⊥ .checkLongOpState =
      (decide (priority = C.lowLevelLog) &&
        (C.overflow data || C.errorBit data C.fnverrLongopComplete)) := by
  unfold decideLogs
  cases C.overflow data <;> cases C.errorBit data C.fnverrLongopComplete <;>
    split_ifs <;> simp_all [LogFlags.set]

section Turn

variable (C : DdrtConstants) (A : NvdimmAnswers) (e : LogEntry)

/-- The turn comes to the decision: there is an NVDIMM with an alert whose error bitmap is not zero,
and its version can be read. -/
def Acts : Prop :=
  A.isNvmDimm e.ch e.dimm = true ∧ (A.detectError e).1.isError = false ∧
    (A.detectError e).2 &&& C.fnverrMask ≠ 0 ∧ (A.getDimmInfo e).1.isError = false

instance : Decidable (Acts C A e) := inferInstanceAs (Decidable (_ ∧ _ ∧ _ ∧ _))

/-- What the alert of an entry itself asks for. -/
def asks : LogFlags :=
  if Acts C A e then decideLogs C e.priority (A.getDimmInfo e).2 (A.detectError e).2 ⊥ else ⊥

/-- What is done for an entry when the flags are known. -/
def handleEntry (flags : LogFlags) (log : EntryLog) : EntryLog :=
  if Acts C A e then (log.detect A e).process C A e flags else (visitEntry C A e ⊥ log).2

variable {C A e} {flags : LogFlags} {log : EntryLog}

theorem handleEntry_of_acts (h : Acts C A e) :
    handleEntry C A e flags log = (log.detect A e).process C A e flags := if_pos h

theorem handleEntry_of_not_acts (h : ¬ Acts C A e) :
    handleEntry C A e flags log = (visitEntry C A e ⊥ log).2 := if_neg h

theorem asks_of_acts (h : Acts C A e) :
    asks C A e = decideLogs C e.priority (A.getDimmInfo e).2 (A.detectError e).2 ⊥ := if_pos h

theorem asks_of_not_acts (h : ¬ Acts C A e) : asks C A e = ⊥ := if_neg h

/-- A turn that does not come to the decision stores the result of the detection at
most. -/
theorem visitEntry_of_not_acts (h : ¬ Acts C A e) (log : EntryLog) :
    ∃ log', log'.outcome = log.outcome ∧ ∀ flags, visitEntry C A e flags log = (flags, log') := by
  unfold visitEntry
  dsimp only
  split_ifs with hnvm hdetect hmap hinfo
  · exact ⟨log.detect A e, rfl, fun _ ↦ rfl⟩
  · exact ⟨log.detect A e, rfl, fun _ ↦ rfl⟩
  · exact ⟨log.detect A e, rfl, fun _ ↦ rfl⟩
  · exact absurd ⟨hnvm, by simpa using hdetect, hmap, by simpa using hinfo⟩ h
  · exact ⟨log, rfl, fun _ ↦ rfl⟩

/-- **One turn** sets what the alert asks for, and handles the entry by all that is set. -/
theorem visitEntry_eq :
    visitEntry C A e flags log =
      (flags ⊔ asks C A e, handleEntry C A e (flags ⊔ asks C A e) log) := by
  by_cases h : Acts C A e
  · obtain ⟨hnvm, hdetect, hmap, hinfo⟩ := h
    rw [handleEntry_of_acts ⟨hnvm, hdetect, hmap, hinfo⟩,
      asks_of_acts ⟨hnvm, hdetect, hmap, hinfo⟩, ← decideLogs_eq_sup, visitEntry, if_pos hnvm,
      hdetect, if_neg Bool.false_ne_true, if_neg hmap, hinfo, if_neg Bool.false_ne_true]
  · obtain ⟨log', -, heq⟩ := visitEntry_of_not_acts h log
    rw [handleEntry_of_not_acts h, asks_of_not_acts h, sup_bot_eq, heq, heq]

/-! #### Outcomes -/

/-- A log that is clear, but for the sequence numbers. -/
def clearLog (lastSeqNum : LogRequest → BitVec 16) : EntryLog := ⟨{}, lastSeqNum, []⟩

theorem getLongOp_calls :
    (log.getLongOp A e flags).calls =
      log.calls ++ if flags .checkLongOpState then [.nvmCtlrLongOpCompleteGet] else [] := by
  rw [EntryLog.getLongOp]
  split <;> simp

theorem longOpCompleteGet_mem_getMediaLog :
    .nvmCtlrLongOpCompleteGet ∈ (log.getMediaLog C A e flags).calls ↔
      .nvmCtlrLongOpCompleteGet ∈ log.calls := by
  rw [EntryLog.getMediaLog]
  split <;> simp [EntryLog.recordReads]

theorem longOpCompleteGet_mem_getThermalLog :
    .nvmCtlrLongOpCompleteGet ∈ (log.getThermalLog C A e flags).calls ↔
      .nvmCtlrLongOpCompleteGet ∈ log.calls := by
  rw [EntryLog.getThermalLog]
  split <;> simp [EntryLog.recordReads]

variable {lastSeqNum : LogRequest → BitVec 16}

/-- The state of the long operation is fetched if the flag says so. -/
theorem longOpCompleteGet_mem_process :
    .nvmCtlrLongOpCompleteGet ∈
        (((clearLog lastSeqNum).detect A e).process C A e flags).outcome.calls ↔
      flags .checkLongOpState = true := by
  rw [EntryLog.outcome, EntryLog.process, longOpCompleteGet_mem_getThermalLog,
    longOpCompleteGet_mem_getMediaLog, getLongOp_calls]
  cases flags .checkLongOpState <;> simp [clearLog, EntryLog.detect, EntryLog.setProcess]

/-- The media log is marked if the flag says so. -/
theorem processMediaErrLogData_process :
    (((clearLog lastSeqNum).detect A e).process C A e flags).outcome.processMediaErrLogData =
      flags .readMediaLog := by
  simp only [EntryLog.outcome, EntryLog.process, EntryLog.getThermalLog, EntryLog.getMediaLog,
    EntryLog.getLongOp, EntryLog.recordReads, EntryLog.setProcess, clearLog, EntryLog.detect]
  split_ifs <;> simp_all

/-- The thermal log is marked if the flag says so. -/
theorem processThermalErrLogData_process :
    (((clearLog lastSeqNum).detect A e).process C A e flags).outcome.processThermalErrLogData =
      flags .readThermalLog := by
  simp only [EntryLog.outcome, EntryLog.process, EntryLog.getThermalLog, EntryLog.getMediaLog,
    EntryLog.getLongOp, EntryLog.recordReads, EntryLog.setProcess, clearLog, EntryLog.detect]
  split_ifs <;> simp_all

/-- `ProcessLongOp` does not depend on the flags. -/
theorem processLongOp_process :
    (((clearLog lastSeqNum).detect A e).process C A e flags).outcome.processLongOp =
      (decide (e.priority = C.lowLevelLog) && (!C.overflow (A.detectError e).2 &&
        C.errorBit (A.detectError e).2 C.fnverrLongopComplete)) := by
  simp only [EntryLog.outcome, EntryLog.process, EntryLog.getThermalLog, EntryLog.getMediaLog,
    EntryLog.getLongOp, EntryLog.recordReads, EntryLog.setProcess, clearLog, EntryLog.detect]
  split_ifs <;> simp_all

end Turn

/-! ### All turns -/

section Run

variable {C : DdrtConstants} {A : NvdimmAnswers} {lastSeqNum : LogEntry → LogRequest → BitVec 16}

theorem logEntries_nodup (C : DdrtConstants) : (logEntries C).Nodup := by
  refine (List.nodup_range.product (List.nodup_range.product List.nodup_range)).map ?_
  rintro ⟨p, ch, dimm⟩ ⟨p', ch', dimm'⟩ h
  obtain ⟨rfl, rfl, rfl⟩ := LogEntry.mk.inj h
  rfl

/-- The loops are a loop with flags that are never cleared. -/
theorem foldl_visitStep (l : List LogEntry) (s : SocketLogs) :
    (l.foldl (visitStep C A) s).entry =
      (l.foldl (stickyStep (asks C A) (handleEntry C A)) (s.flags, s.entry)).2 := by
  induction l generalizing s with
  | nil => rfl
  | cons e l ih =>
    rw [List.foldl_cons, List.foldl_cons, ih, visitStep, visitEntry_eq, stickyStep]

theorem getErrorLogFromSocket_entry :
    (getErrorLogFromSocket C A lastSeqNum).entry =
      ((logEntries C).foldl (stickyStep (asks C A) (handleEntry C A))
        (⊥, fun e ↦ clearLog (lastSeqNum e))).2 :=
  foldl_visitStep _ _

/-- What is done for an entry whose alert is the only one: what it asks for. -/
theorem entry_only {e : LogEntry} (he : e ∈ logEntries C) :
    (getErrorLogFromSocket C (A.only e) lastSeqNum).entry e =
      handleEntry C A e (asks C A e) (clearLog (lastSeqNum e)) := by
  have hsame : (A.only e).detectError e = A.detectError e := if_pos rfl
  have hacts : Acts C (A.only e) e ↔ Acts C A e := by
    rw [Acts, Acts, hsame]
    rfl
  have hasks : asks C (A.only e) e = asks C A e := by
    simp only [asks, hacts, hsame]
    rfl
  have hhandle : handleEntry C (A.only e) e = handleEntry C A e := by
    funext flags log
    simp only [handleEntry, hacts, EntryLog.process, EntryLog.detect, visitEntry, hsame]
    rfl
  obtain ⟨pre, post, hl⟩ := List.append_of_mem he
  have hnodup := logEntries_nodup C
  have hpre : asked (asks C (A.only e)) pre = ⊥ := by
    refine asked_eq_bot fun e' he' ↦ asks_of_not_acts ?_
    have hne : e' ≠ e := by
      rintro rfl
      rw [hl] at hnodup
      exact (List.disjoint_of_nodup_append hnodup) he' List.mem_cons_self
    have hnone : (A.only e).detectError e' = (.notFound, 0) := if_neg hne
    rintro ⟨-, hdetect, -⟩
    rw [hnone] at hdetect
    cases hdetect
  rw [hl] at hnodup
  rw [getErrorLogFromSocket_entry, hl, sticky_apply hnodup, hpre, bot_sup_eq, bot_sup_eq, hasks,
    hhandle]

/-- The outcome of an alert shows the flags by which it is handled. -/
theorem outcome_eq_iff {e : LogEntry} (flags : LogFlags) (h : Acts C A e) :
    (handleEntry C A e (flags ⊔ asks C A e) (clearLog (lastSeqNum e))).outcome =
        (handleEntry C A e (asks C A e) (clearLog (lastSeqNum e))).outcome ↔
      flags ≤ asks C A e := by
  rw [handleEntry_of_acts h, handleEntry_of_acts h]
  constructor
  · intro heq
    refine sup_eq_right.mp (funext fun f ↦ ?_)
    cases f with
    | checkLongOpState =>
      rw [Bool.eq_iff_iff, ← longOpCompleteGet_mem_process, heq, longOpCompleteGet_mem_process]
    | readMediaLog =>
      have hmedia := congrArg EntryOutcome.processMediaErrLogData heq
      rwa [processMediaErrLogData_process, processMediaErrLogData_process] at hmedia
    | readThermalLog =>
      have hthermal := congrArg EntryOutcome.processThermalErrLogData heq
      rwa [processThermalErrLogData_process, processThermalErrLogData_process] at hthermal
  · intro hle
    rw [sup_eq_right.mpr hle]

/-- When the entries are kept apart: each alert asks for every log that an alert before it asks for,
and no alert of low priority has an overflow. -/
def AlertsAlike (C : DdrtConstants) (A : NvdimmAnswers) : Prop :=
  ((logEntries C).Pairwise fun e e' ↦ Acts C A e' → asks C A e ≤ asks C A e') ∧
    ∀ e ∈ logEntries C, Acts C A e → e.priority = C.lowLevelLog →
      C.overflow (A.detectError e).2 = false

/-- The state of a long operation that an alert asks for is marked, unless there is an overflow. -/
theorem longOp_marked_iff {e : LogEntry} (lastSeqNum : LogRequest → BitVec 16) :
    (.nvmCtlrLongOpCompleteGet ∈
        (handleEntry C A e (asks C A e) (clearLog lastSeqNum)).outcome.calls →
      (handleEntry C A e (asks C A e) (clearLog lastSeqNum)).outcome.processLongOp = true) ↔
      (Acts C A e → e.priority = C.lowLevelLog → C.overflow (A.detectError e).2 = false) := by
  by_cases h : Acts C A e
  · rw [handleEntry_of_acts h, longOpCompleteGet_mem_process, processLongOp_process,
      asks_of_acts h, decideLogs_checkLongOpState]
    cases C.overflow (A.detectError e).2 <;> simp [h]
  · obtain ⟨log', hclear, heq⟩ := visitEntry_of_not_acts h (clearLog lastSeqNum)
    have hcalls : log'.outcome.calls = [] := congrArg EntryOutcome.calls hclear
    rw [handleEntry_of_not_acts h, heq, hcalls]
    simp [h]

end Run

/-- **The entries of a socket** are kept apart, and each state that is fetched is marked, if and
only if each alert asks for every log that an alert before it asks for, and no alert of low priority
has an overflow. -/
theorem keepsApart_iff (C : DdrtConstants) (A : NvdimmAnswers)
    (lastSeqNum : LogEntry → LogRequest → BitVec 16) :
    KeepsApart C A lastSeqNum ↔ AlertsAlike C A := by
  have happart : (∀ e ∈ logEntries C,
      ((getErrorLogFromSocket C A lastSeqNum).entry e).outcome =
        (handleEntry C A e (asks C A e) (clearLog (lastSeqNum e))).outcome) ↔
      (logEntries C).Pairwise fun e e' ↦ Acts C A e' → asks C A e ≤ asks C A e' := by
    rw [getErrorLogFromSocket_entry]
    refine sticky_eq_iff (logEntries_nodup C) (fun e flags h ↦ ?_) fun e flags h ↦
      outcome_eq_iff flags h
    rw [handleEntry_of_not_acts h, handleEntry_of_not_acts h]
  rw [AlertsAlike, ← happart]
  constructor
  · intro h
    have heq : ∀ e ∈ logEntries C, ((getErrorLogFromSocket C A lastSeqNum).entry e).outcome =
        (handleEntry C A e (asks C A e) (clearLog (lastSeqNum e))).outcome := by
      intro e he
      rw [(h e he).1, entry_only he]
    refine ⟨heq, fun e he ↦ (longOp_marked_iff (lastSeqNum e)).mp ?_⟩
    have hmarked := (h e he).2
    rwa [heq e he] at hmarked
  · rintro ⟨heq, hmarked⟩ e he
    refine ⟨by rw [heq e he, entry_only he], ?_⟩
    rw [heq e he]
    exact (longOp_marked_iff (lastSeqNum e)).mpr (hmarked e he)

/-- Two channels with one DIMM each. -/
def twoChannels : DdrtConstants where
  fnverrMask := 0xFFFF
  fnverrOverflow := 0x10000
  fnverrLongopComplete := 0x1
  fnverrMediaErrorLog := 0x2
  fnverrThermalErrorLog := 0x4
  fnverrNgnvmErrorLog := 0x8
  fnverrFwHang := 0x10
  fnverrFatal := 0x20
  fis113 := 13
  lowLevelLog := 0
  highLevelLog := 1
  maxCh := 2
  maxDimm := 1
  maxMediaPayloads := 4
  maxThermalPayloads := 4
  maxMediaLogs := 3
  maxThermalLogs := 5

/-- The first NVDIMM has an entry in its media log, the second one in its thermal log. -/
def mediaThenThermal : NvdimmAnswers where
  isNvmDimm _ _ := true
  detectError e :=
    if e.priority = 0 then (.success, if e.ch = 0 then 0x2 else 0x4) else (.notFound, 0)
  getDimmInfo _ := (.success, 13)
  longOpCompleteGet _ := .success
  getErrorLog _ _ _ sequenceNumber := ⟨.success, 1, sequenceNumber + 1⟩

/-- The media log of the second NVDIMM is read, since the first one had an entry. -/
theorem not_keepsApart_mediaThenThermal :
    ¬ KeepsApart twoChannels mediaThenThermal fun _ _ ↦ 0 := by
  intro h
  have heq := (h ⟨0, 1, 0⟩ (by decide)).1
  revert heq
  decide

end PurleyFirmware.Ras
