import Mathlib.Data.List.Induction
import PurleyFirmware.Foundation.WordMemory
import PurleyFirmware.Ras.GenericError
import PurleyFirmware.Uefi.Status

/-!
# Records of the enhanced machine-check log

Every bank of every processor has an entry in the error log, found through the first-level
directory. `LogEmcaRecord` puts a status block with its data and the bank's signature into the entry,
and the operating system consumes it by clearing the block status.

An entry that is still occupied follows the overwrite rule: a corrected error makes way for
anything, a recoverable one for a fatal one, and otherwise the record stays and only its signature is
refreshed, if that of the new error has the overflow bit. Everything the entry holds is written piece
by piece, at offsets that depend on the length of the record. So the invariant `Holds` names the
record *and* the signature, and each of the three cases either replaces both or only the second.

A record is handed over complete: its block status is not zero, or the entry would not be claimed,
and the length of the block fits its 32 bits. Both are fields of `ElogRecord`, and
`LogErrorToElog`, the only caller, builds such records.
-/

namespace PurleyFirmware.Ras

/-! ### The log in memory -/

/-- `GENERIC_ERROR_STATUS`. -/
structure GenericErrorStatus where
  /-- Zero where the entry is free. -/
  blockStatus : BlockStatus
  /-- Where the signature is, from the start of the entry. -/
  rawDataOffset : ℕ
  /-- Its bytes. -/
  rawDataSize : ℕ
  /-- Bytes of data behind the header. -/
  errDataSize : ℕ
  /-- How severe the error is. -/
  severity : Severity

/-- An entry of the log: its header, and the bytes behind it by their offsets in the entry. -/
structure ElogEntry where
  /-- The header. -/
  header : GenericErrorStatus
  /-- The bytes behind it. -/
  bytes : ℕ → UInt8

/-- The record that `LogEmcaRecord` is handed. -/
structure ElogRecord (L : ErrorLayout) where
  /-- Its block status. -/
  blockStatus : BlockStatus
  /-- Its severity. -/
  severity : Severity
  /-- The data behind its header. -/
  data : List UInt8
  /-- The status claims the entry. -/
  claims : blockStatus ≠ .zero
  /-- The length of header and data has 32 bits. -/
  fits : L.statusSize + data.length < 2 ^ 32

/-- The log: entries by their addresses. -/
abbrev ElogMemory : Type := BitVec 64 → ElogEntry

/-- The first-level directory. -/
structure EmcaL1Directory where
  /-- Banks of a logical processor. -/
  numL1EntryLp : BitVec 32
  /-- The pointers, by processor and bank: bit 63 says that one is valid. -/
  elogEntry : BitVec 32 → BitVec 32 → BitVec 64

/-- The entry that a directory pointer leads to. -/
def elogAddress (ptr : BitVec 64) : Option (BitVec 64) :=
  if ptr.getLsbD 63 then some (ptr &&& 0x000FFFFFFFFFFFFF#64) else none

variable {L : ErrorLayout}

/-! ### `LogEmcaRecord` -/

/-- The record, copied into the entry with the signature behind it. -/
def writeRecord (e : ElogEntry) (log : ElogRecord L) (mcSig : McSignatureRecord) : ElogEntry :=
  let blkLen := L.statusSize + log.data.length
  { header :=
      { blockStatus := log.blockStatus
        rawDataOffset := blkLen
        rawDataSize := L.signatureSize
        errDataSize := log.data.length
        severity := log.severity }
    bytes := copyWords (copyWords e.bytes L.statusSize log.data) blkLen (L.signatureBytes mcSig) }

/-- The signature, copied over the one in the entry. -/
def refreshSignature (L : ErrorLayout) (e : ElogEntry) (mcSig : McSignatureRecord) : ElogEntry :=
  { e with
    bytes := copyWords e.bytes e.header.rawDataOffset
      ((L.signatureBytes mcSig).take e.header.rawDataSize) }

/-- What happens to the entry. The exchange of a zero block status for that of the record is followed
by the copy of the whole header. -/
def logToEntry (e : ElogEntry) (mcSig : McSignatureRecord) (log : ElogRecord L) : ElogEntry :=
  if e.header.blockStatus = .zero then
    writeRecord e log mcSig
  else if e.header.severity = .corrected ∨
      e.header.severity = .correctable ∧ log.severity = .fatal then
    writeRecord e log mcSig
  else if mcSig.signature.mcSts.overflow then
    refreshSignature L e mcSig
  else
    e

/-- The entry of a call, if it gets that far. -/
def entryOf (l1Hdr : Option EmcaL1Directory) (mcBankNum : BitVec 32) (mcSig : McSignatureRecord) :
    Except EfiStatus (BitVec 64) :=
  match l1Hdr with
  | none => .error .invalidParameter
  | some dir =>
    if dir.numL1EntryLp ≤ mcBankNum then .error .invalidParameter
    else
      match elogAddress (dir.elogEntry mcSig.apicId mcBankNum) with
      | none => .error .outOfResources
      | some a => .ok a

/-- `LogEmcaRecord`. -/
def logEmcaRecord (l1Hdr : Option EmcaL1Directory) (s : ElogMemory) (mcBankNum : BitVec 32)
    (mcSig : Option McSignatureRecord) (log : Option (ElogRecord L)) : EfiStatus × ElogMemory :=
  match mcSig, log with
  | some mcSig, some log =>
    match entryOf l1Hdr mcBankNum mcSig with
    | .error status => (status, s)
    | .ok a => (.success, Function.update s a (logToEntry (s a) mcSig log))
  | _, _ => (.invalidParameter, s)

/-- What happens to the log: a call, or the operating system consumes an entry. -/
inductive ElogEvent (L : ErrorLayout)
  /-- A call of `LogEmcaRecord`. -/
  | log (mcBankNum : BitVec 32) (mcSig : Option McSignatureRecord) (log : Option (ElogRecord L))
  /-- The block status of an entry is cleared. -/
  | consume (a : BitVec 64)

/-- The entry with its block status cleared. -/
def ElogEntry.consume (e : ElogEntry) : ElogEntry :=
  { e with header := { e.header with blockStatus := .zero } }

/-- One event. -/
def elogStep (l1Hdr : Option EmcaL1Directory) (s : ElogMemory) : ElogEvent L → ElogMemory
  | .log mcBankNum mcSig log => (logEmcaRecord l1Hdr s mcBankNum mcSig log).2
  | .consume a => Function.update s a (s a).consume

/-- A sequence of events. -/
def elogRun (l1Hdr : Option EmcaL1Directory) (s : ElogMemory) (events : List (ElogEvent L)) :
    ElogMemory :=
  events.foldl (elogStep l1Hdr) s

/-! ### Who calls it -/

/-- The switches that `LogErrorToElog` reads. -/
structure ElogSetup where
  /-- The operating system has opted in, or the setup ignores that it has not. -/
  enabled : Bool
  /-- `ElogCorrErrEn`. -/
  corrErrEn : Bool
  /-- `EmcaMemLogCap` and `ElogMemErrEn`. -/
  memErrEn : Bool
  /-- `EmcaProcLogCap` and `ElogProcErrEn`. -/
  procErrEn : Bool

/-- The status that `LogErrorToElog` gives a record. -/
def elogBlockStatus (severity : Severity) : BlockStatus :=
  if severity = .fatal ∨ severity = .correctable then
    { BlockStatus.zero with ueValid := true, numErrorDataEntry := 1 }
  else
    { BlockStatus.zero with ceValid := true, numErrorDataEntry := 1 }

theorem elogBlockStatus_ne_zero (severity : Severity) : elogBlockStatus severity ≠ .zero := by
  cases severity <;> decide

/-- The record of an error, as `LogErrorToElog` lays it out. -/
def elogRecord (L : ErrorLayout) (record : ErrorRecord) : ElogRecord L where
  blockStatus := elogBlockStatus record.severity
  severity := record.severity
  data :=
    L.dataEntryBytes (record.dataEntry record.severity (L.sectionSize record.sectionType)) ++
      record.sectionBytes (L.sectionSize record.sectionType)
  claims := elogBlockStatus_ne_zero record.severity
  fits := by
    have hsize := L.size_le record.sectionType
    rw [List.length_append, L.length_dataEntryBytes, ErrorRecord.length_sectionBytes]
    omega

/-- `LogErrorToElog`: the call of `LogEmcaRecord` that a record leads to, if any. -/
def logErrorToElog (L : ErrorLayout) (setup : ElogSetup) (record : ErrorRecord) :
    Option (ElogEvent L) :=
  let bank := record.mcaBankInfo
  let validEntry :=
    match record.sectionType with
    | .platformMemory => setup.memErrEn && bank.valid
    | .processorGeneric => setup.procErrEn && bank.valid
    | _ => false
  if !setup.enabled || record.severity == .corrected && !setup.corrErrEn then none
  else if validEntry then some (.log bank.bankNum (some bank.signature) (some (elogRecord L record)))
  else none

/-! ### What an entry holds -/

/-- The entry holds a record with a signature behind it. -/
structure ElogEntry.Holds (e : ElogEntry) (log : ElogRecord L) (mcSig : McSignatureRecord) :
    Prop where
  /-- The header is that of the record; the signature starts where the data ends. -/
  header : e.header = ⟨log.blockStatus, L.statusSize + log.data.length, L.signatureSize,
    log.data.length, log.severity⟩
  /-- The data is complete. -/
  data : HoldsWords e.bytes L.statusSize log.data
  /-- So is the signature. -/
  rawData : HoldsWords e.bytes (L.statusSize + log.data.length) (L.signatureBytes mcSig)

/-- The entry holds the record of one of the calls, with the signature of that call or with one of a
later call that has the overflow bit. -/
def ElogEntry.Complete (e : ElogEntry) (calls : List (McSignatureRecord × ElogRecord L)) : Prop :=
  ∃ earlier mcSig log later, calls = earlier ++ (mcSig, log) :: later ∧
    ∃ kept, e.Holds log kept ∧
      (kept = mcSig ∨ kept.signature.mcSts.overflow = true ∧ ∃ c ∈ later, kept = c.1)

/-- The order of the overwrite rule. -/
def Severity.LessSevere : Severity → Severity → Prop
  | .corrected, .correctable | .corrected, .fatal | .correctable, .fatal => True
  | _, _ => False

/-- The call that an event makes on one entry. -/
def ElogEvent.callAt (l1Hdr : Option EmcaL1Directory) (a : BitVec 64) :
    ElogEvent L → Option (McSignatureRecord × ElogRecord L)
  | .log mcBankNum (some mcSig) (some record) =>
    if (entryOf l1Hdr mcBankNum mcSig).toOption = some a then some (mcSig, record) else none
  | _ => none

/-- The calls that a sequence of events makes on one entry. -/
def callsAt (l1Hdr : Option EmcaL1Directory) (a : BitVec 64) (events : List (ElogEvent L)) :
    List (McSignatureRecord × ElogRecord L) :=
  events.filterMap (ElogEvent.callAt l1Hdr a)

section Entry

variable {e : ElogEntry} {log : ElogRecord L} {mcSig : McSignatureRecord}
  {calls : List (McSignatureRecord × ElogRecord L)}

theorem holds_writeRecord (e : ElogEntry) (log : ElogRecord L) (mcSig : McSignatureRecord) :
    (writeRecord e log mcSig).Holds log mcSig where
  header := rfl
  data := (holdsWords_copyWords _ _ _).copyWords (Or.inl le_rfl)
  rawData := holdsWords_copyWords _ _ _

/-- A refreshed signature is behind the data of the record that stays. -/
theorem ElogEntry.Holds.refreshSignature {kept : McSignatureRecord} (h : e.Holds log kept)
    (mcSig : McSignatureRecord) : (refreshSignature L e mcSig).Holds log mcSig := by
  have htake : (L.signatureBytes mcSig).take e.header.rawDataSize = L.signatureBytes mcSig := by
    rw [h.header, List.take_of_length_le (L.length_signatureBytes mcSig).le]
  have hoffset : e.header.rawDataOffset = L.statusSize + log.data.length := by rw [h.header]
  refine ⟨h.header, ?_, ?_⟩
  · rw [Ras.refreshSignature, htake, hoffset]
    exact h.data.copyWords (Or.inl le_rfl)
  · rw [Ras.refreshSignature, htake, hoffset]
    exact holdsWords_copyWords _ _ _

theorem complete_writeRecord (e : ElogEntry) (log : ElogRecord L) (mcSig : McSignatureRecord) :
    (writeRecord e log mcSig).Complete (calls ++ [(mcSig, log)]) :=
  ⟨calls, mcSig, log, [], rfl, mcSig, holds_writeRecord e log mcSig, Or.inl rfl⟩

/-- Another call behind, that does not touch the entry. -/
theorem ElogEntry.Complete.concat (h : e.Complete calls)
    (c : McSignatureRecord × ElogRecord L) : e.Complete (calls ++ [c]) := by
  obtain ⟨earlier, sig, r, later, rfl, kept, hholds, hkept⟩ := h
  refine ⟨earlier, sig, r, later ++ [c], by simp, kept, hholds, ?_⟩
  exact hkept.imp id fun ⟨hover, x, hx, heq⟩ ↦ ⟨hover, x, List.mem_append_left _ hx, heq⟩

/-- **One call.** Whether it replaces the record, its signature or nothing, the entry is complete, if
it was free or complete before. -/
theorem complete_logToEntry (h : e.header.blockStatus = .zero ∨ e.Complete calls)
    (mcSig : McSignatureRecord) (log : ElogRecord L) :
    (logToEntry e mcSig log).Complete (calls ++ [(mcSig, log)]) := by
  rw [logToEntry]
  by_cases hfree : e.header.blockStatus = .zero
  · rw [if_pos hfree]
    exact complete_writeRecord e log mcSig
  · have hcomplete := h.resolve_left hfree
    rw [if_neg hfree]
    by_cases hover : e.header.severity = .corrected ∨
        e.header.severity = .correctable ∧ log.severity = .fatal
    · rw [if_pos hover]
      exact complete_writeRecord e log mcSig
    · rw [if_neg hover]
      by_cases hbit : mcSig.signature.mcSts.overflow = true
      · rw [if_pos hbit]
        obtain ⟨earlier, sig, r, later, rfl, kept, hholds, -⟩ := hcomplete
        exact ⟨earlier, sig, r, later ++ [(mcSig, log)], by simp, mcSig,
          hholds.refreshSignature mcSig, Or.inr ⟨hbit, (mcSig, log), by simp, rfl⟩⟩
      · rw [if_neg hbit]
        exact hcomplete.concat _

/-- The overwrite rule does not lose severity. -/
theorem not_lessSevere_logToEntry (h : e.header.blockStatus ≠ .zero) (mcSig : McSignatureRecord)
    (log : ElogRecord L) :
    ¬ (logToEntry e mcSig log).header.severity.LessSevere e.header.severity := by
  have hself : ∀ x : Severity, ¬ x.LessSevere x := by
    intro x
    cases x <;> exact id
  rw [logToEntry, if_neg h]
  by_cases hover : e.header.severity = .corrected ∨
      e.header.severity = .correctable ∧ log.severity = .fatal
  · rw [if_pos hover]
    change ¬ log.severity.LessSevere e.header.severity
    rcases hover with hover | ⟨hover, hlog⟩
    · rw [hover]
      cases log.severity <;> exact id
    · rw [hover, hlog]
      exact id
  · rw [if_neg hover]
    by_cases hbit : mcSig.signature.mcSts.overflow = true
    · rw [if_pos hbit]
      exact hself _
    · rw [if_neg hbit]
      exact hself _

end Entry

/-! ### Runs -/

section Runs

variable {l1Hdr : Option EmcaL1Directory} {s : ElogMemory} {a : BitVec 64} {e : ElogEvent L}

/-- An event that calls for the entry logs to it. -/
theorem elogStep_of_callAt {c : McSignatureRecord × ElogRecord L}
    (h : e.callAt l1Hdr a = some c) : elogStep l1Hdr s e a = logToEntry (s a) c.1 c.2 := by
  rcases e with ⟨mcBankNum, mcSig, log⟩ | b
  · cases mcSig with
    | none => cases h
    | some mcSig =>
      cases log with
      | none => cases h
      | some log =>
        rw [ElogEvent.callAt] at h
        split at h
        · rename_i hentry
          cases h
          simp only [elogStep, logEmcaRecord]
          cases hof : entryOf l1Hdr mcBankNum mcSig with
          | error status => rw [hof] at hentry; cases hentry
          | ok b =>
            rw [hof] at hentry
            cases hentry
            exact Function.update_self _ _ _
        · cases h
  · cases h

/-- Any other event leaves it, or consumes it. -/
theorem elogStep_of_not_callAt (h : e.callAt l1Hdr a = none) :
    elogStep l1Hdr s e a = s a ∨ elogStep l1Hdr s e a = (s a).consume := by
  rcases e with ⟨mcBankNum, mcSig, log⟩ | b
  · left
    cases mcSig with
    | none => rfl
    | some mcSig =>
      cases log with
      | none => rfl
      | some log =>
        rw [ElogEvent.callAt] at h
        split at h
        · cases h
        · rename_i hentry
          simp only [elogStep, logEmcaRecord]
          cases hof : entryOf l1Hdr mcBankNum mcSig with
          | error status => rfl
          | ok b =>
            refine Function.update_of_ne (fun hab ↦ hentry ?_) _ _
            rw [hof, hab]
            rfl
  · by_cases hab : a = b
    · right
      rw [elogStep, hab]
      exact Function.update_self _ _ _
    · left
      exact Function.update_of_ne hab _ _

@[simp] theorem elogRun_concat (events : List (ElogEvent L)) :
    elogRun l1Hdr s (events ++ [e]) = elogStep l1Hdr (elogRun l1Hdr s events) e := by
  rw [elogRun, List.foldl_append]
  rfl

theorem callsAt_concat (events : List (ElogEvent L)) :
    callsAt l1Hdr a (events ++ [e]) = callsAt l1Hdr a events ++ (e.callAt l1Hdr a).toList := by
  rw [callsAt, List.filterMap_append, callsAt]
  cases h : e.callAt l1Hdr a with
  | none => rw [List.filterMap_cons_none h]; rfl
  | some c => rw [List.filterMap_cons_some h]; rfl

/-- After any events the entry is free or complete. -/
theorem free_or_complete (h : (s a).header.blockStatus = .zero) (events : List (ElogEvent L)) :
    (elogRun l1Hdr s events a).header.blockStatus = .zero ∨
      (elogRun l1Hdr s events a).Complete (callsAt l1Hdr a events) := by
  induction events using List.reverseRecOn with
  | nil => exact Or.inl h
  | append_singleton events e ih =>
    rw [elogRun_concat, callsAt_concat]
    cases hcall : e.callAt l1Hdr a with
    | none =>
      rw [Option.toList_none, List.append_nil]
      rcases elogStep_of_not_callAt (s := elogRun l1Hdr s events) hcall with hstep | hstep
      · rw [hstep]
        exact ih
      · rw [hstep]
        exact Or.inl rfl
    | some c =>
      rw [elogStep_of_callAt hcall]
      exact Or.inr (complete_logToEntry ih c.1 c.2)

/-- **Overwrite rule.** After each call the entry holds one complete record of the calls so far, and
no event replaces the record of an occupied entry by a less severe one. -/
theorem elog_overwriteRule (l1Hdr : Option EmcaL1Directory) (s : ElogMemory) (a : BitVec 64)
    (hfree : (s a).header.blockStatus = .zero) :
    (∀ (events : List (ElogEvent L)) (e : ElogEvent L), (e.callAt l1Hdr a).isSome →
      (elogRun l1Hdr s (events ++ [e]) a).Complete (callsAt l1Hdr a (events ++ [e]))) ∧
    ∀ (events : List (ElogEvent L)) (e : ElogEvent L),
      (elogRun l1Hdr s events a).header.blockStatus ≠ .zero →
        ¬ (elogRun l1Hdr s (events ++ [e]) a).header.severity.LessSevere
          (elogRun l1Hdr s events a).header.severity := by
  constructor
  · intro events e he
    obtain ⟨c, hcall⟩ := Option.isSome_iff_exists.mp he
    rw [elogRun_concat, callsAt_concat, hcall, elogStep_of_callAt hcall]
    exact complete_logToEntry (free_or_complete hfree events) c.1 c.2
  · intro events e hoccupied
    rw [elogRun_concat]
    have hself : ∀ x : Severity, ¬ x.LessSevere x := by
      intro x
      cases x <;> exact id
    cases hcall : e.callAt l1Hdr a with
    | none =>
      rcases elogStep_of_not_callAt (s := elogRun l1Hdr s events) hcall with hstep | hstep
      · rw [hstep]
        exact hself _
      · rw [hstep]
        exact hself _
    | some c =>
      rw [elogStep_of_callAt hcall]
      exact not_lessSevere_logToEntry hoccupied c.1 c.2

/-- A fatal record in the one entry of a log stays when a corrected error comes, whose overflow bit
brings a new signature. -/
theorem elog_overwriteRule_overflow :
    let L : ErrorLayout := ⟨20, 72, by decide, fun _ ↦ 80, 28, fun _ ↦ List.replicate 72 0,
      fun _ ↦ List.replicate 28 0, fun _ ↦ List.length_replicate, fun _ ↦ List.length_replicate,
      fun _ ↦ by decide⟩
    let dir : Option EmcaL1Directory := some ⟨1, fun _ _ ↦ 0x8000000000001000⟩
    let s : ElogMemory := fun _ ↦ ⟨⟨.zero, 0, 0, 0, .none⟩, fun _ ↦ 0⟩
    let sig : McSignatureRecord :=
      { McSignatureRecord.zero with
        signature := ⟨{ MciStatus.zero with overflow := true }, 0, 0⟩ }
    let fatal : ElogEvent L := .log 0 (some sig)
      (some ⟨elogBlockStatus .fatal, .fatal, [1, 2], by decide, by decide⟩)
    let corrected : ElogEvent L := .log 0 (some sig)
      (some ⟨elogBlockStatus .corrected, .corrected, [3], by decide, by decide⟩)
    (elogRun dir s ([fatal] ++ [corrected]) 0x1000).Complete
        (callsAt dir 0x1000 ([fatal] ++ [corrected])) ∧
      ¬ (elogRun dir s ([fatal] ++ [corrected]) 0x1000).header.severity.LessSevere
        (elogRun dir s [fatal] 0x1000).header.severity := by
  intro L dir s sig fatal corrected
  have hrule := elog_overwriteRule (L := L) dir s 0x1000 rfl
  exact ⟨hrule.1 [fatal] corrected (by decide), hrule.2 [fatal] corrected (by decide)⟩

end Runs

end PurleyFirmware.Ras
