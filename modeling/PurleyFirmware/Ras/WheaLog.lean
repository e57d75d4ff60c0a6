import Mathlib.Logic.Function.Basic
import PurleyFirmware.Foundation.Runs
import PurleyFirmware.Foundation.WordMemory
import PurleyFirmware.Ras.GenericError

/-!
# The WHEA log

Errors are logged to one of two status blocks, a fatal one to the block of uncorrectable errors and
any other to that of the corrected ones. A block is a header and its data entries, one behind the
other, and both blocks are zeroed by the first error after the operating system was notified.

Number, size, place and section of the entries and the four validity flags come out right whatever is
logged. The severities do not.

* An entry gets the severity of its record only on the branches that say so. A fatal error gets it
  unless an uncorrectable one was logged before in the same window, and otherwise keeps the 0 of the
  zeroed memory, which means correctable. Anything else is written down as corrected, but for a
  correctable PCIe error.
* The severity of the block of corrected errors is that of its last entry, so a corrected error hides
  a correctable one.

`whea_consistent_iff` says that nothing else goes wrong: a run is consistent throughout exactly when
each record that it accepts is of a kind that comes out right, in the window it falls into.
-/

namespace PurleyFirmware.Ras

/-! ### Blocks -/

/-- The two generic error sources. -/
inductive WheaSource
  /-- `PlatformCeSrc`. -/
  | platformCeSrc
  /-- `PlatformUeSrc`. -/
  | platformUeSrc
  deriving DecidableEq, Repr

/-- A status block: its header, and by their offsets the data entries and the bytes of the sections. -/
structure WheaBlock where
  /-- `BlockStatus`. -/
  blockStatus : BlockStatus
  /-- `ErrDataSize`. -/
  errDataSize : ℕ
  /-- `Severity`. -/
  severity : Severity
  /-- The data entry at an offset. -/
  dataEntry : ℕ → GenericErrorDataEntry
  /-- The byte at an offset. -/
  bytes : ℕ → UInt8

/-- A block of zeros. -/
def WheaBlock.zero : WheaBlock := ⟨.zero, 0, .correctable, fun _ ↦ .zero, fun _ ↦ 0⟩

/-- What the logger knows of the platform and the setup. -/
structure WheaSetup where
  /-- The layout of the records. -/
  layout : ErrorLayout
  /-- `MAX_WHEA_ERR_REC_COUNT`. -/
  maxRecCount : ℕ
  /-- It has the 10 bits of `NumErrorDataEntry`. -/
  maxRecCount_lt : maxRecCount < 1024
  /-- Capability and setup allow a section type to be logged. -/
  logEn : SectionType → Bool

/-- The module's variables and the two blocks. -/
structure Whea where
  /-- The operating system has enabled WHEA. -/
  isWheaEnabled : Bool
  /-- A corrected error was logged. -/
  isCeLogged : Bool
  /-- An uncorrectable error was logged. -/
  isUeFatalLogged : Bool
  /-- The blocks were zeroed since the last notification. -/
  isErrorSourceClear : Bool
  /-- The blocks. -/
  block : WheaSource → WheaBlock

variable (W : WheaSetup)

/-! ### `LogErrorToWhea` and `WheaNotifyOs` -/

/-- `RestartAllWheaElog`, with WHEA enabled. -/
def Whea.restartAllWheaElog (s : Whea) : Whea :=
  if s.isErrorSourceClear then s
  else { s with isErrorSourceClear := true, block := fun _ ↦ .zero }

/-- The source that `FindSysGenErrorSource` finds for a severity. -/
def wheaSource (severity : Severity) : WheaSource :=
  if severity = .fatal then .platformUeSrc else .platformCeSrc

/-- The section types that `LogErrorToWhea` uses. -/
def WheaSetup.validEntry (sectionType : SectionType) : Bool :=
  match sectionType with
  | .processorGeneric | .platformMemory | .pcie => W.logEn sectionType
  | .processorSpecific | .vtd => false

/-- The severities that the block and the new entry end up with, where the entry's memory says
`old`. -/
def Whea.severities (s : Whea) (b : WheaBlock) (old : Severity) (record : ErrorRecord) :
    Severity × Severity :=
  if record.severity = .fatal then
    if !s.isUeFatalLogged &&
        (!s.isCeLogged || record.severity == .fatal || b.severity == .corrected) then
      (record.severity, record.severity)
    else
      (b.severity, old)
  else if record.sectionType = .pcie ∧ record.severity = .correctable then
    (.correctable, .correctable)
  else
    -- written over whatever the first branch wrote
    (.corrected, .corrected)

/-- The validity flags with one more error. -/
def BlockStatus.mark (status : BlockStatus) (severity : Severity) : BlockStatus :=
  if severity = .fatal then
    if status.ueValid then { status with multipleUeValid := true }
    else { status with ueValid := true }
  else if status.ceValid then { status with multipleCeValid := true }
  else { status with ceValid := true }

/-- The block with the record behind its entries. -/
def WheaBlock.append (L : ErrorLayout) (b : WheaBlock) (record : ErrorRecord)
    (severities : Severity × Severity) : WheaBlock :=
  let genErrData := L.statusSize + b.errDataSize
  let sectionSize := L.sectionSize record.sectionType
  let old := b.dataEntry genErrData
  let status := b.blockStatus.mark record.severity
  { blockStatus := { status with numErrorDataEntry := status.numErrorDataEntry + 1 }
    errDataSize := b.errDataSize + (L.dataEntrySize + sectionSize)
    severity := severities.1
    dataEntry := Function.update b.dataEntry genErrData
      { sectionType := some record.sectionType
        severity := severities.2
        revision := record.revision
        primary := true
        fruId := if record.validBits.getLsbD 0 then some record.fruId else old.fruId
        fruText := if record.validBits.getLsbD 1 then some record.fruText else old.fruText
        dataSize := sectionSize }
    bytes := copyWords b.bytes (genErrData + L.dataEntrySize) (record.sectionBytes sectionSize) }

/-- The record gets an entry in its block. -/
def Whea.accepts (s : Whea) (record : ErrorRecord) : Bool :=
  decide ((s.block (wheaSource record.severity)).blockStatus.numErrorDataEntry.toNat <
    W.maxRecCount) && W.validEntry record.sectionType

/-- The entry of an accepted record, and the latches. -/
def Whea.logEntry (s : Whea) (record : ErrorRecord) : Whea :=
  let src := wheaSource record.severity
  let b := s.block src
  let old := (b.dataEntry (W.layout.statusSize + b.errDataSize)).severity
  let pcieCorrectable := record.sectionType == .pcie && record.severity == .correctable
  { s with
    isCeLogged :=
      if record.severity = .fatal then s.isCeLogged else !pcieCorrectable
    isUeFatalLogged := s.isUeFatalLogged || record.severity == .fatal || pcieCorrectable
    block := Function.update s.block src
      (b.append W.layout record (s.severities b old record)) }

/-- `LogErrorToWhea`. -/
def Whea.logErrorToWhea (s : Whea) (record : Option ErrorRecord) : Whea :=
  match record with
  | none => s
  | some record =>
    if !s.isWheaEnabled then s
    else
      let s := s.restartAllWheaElog
      if s.accepts W record then s.logEntry W record else s

/-- `WheaNotifyOs`. -/
def Whea.wheaNotifyOs (s : Whea) : Whea :=
  if !s.isWheaEnabled then s
  else { s with isCeLogged := false, isUeFatalLogged := false, isErrorSourceClear := false }

/-- A call of either. -/
inductive WheaCall
  /-- `LogErrorToWhea`. -/
  | log (record : Option ErrorRecord)
  /-- `WheaNotifyOs`. -/
  | notifyOs

/-- One call. -/
def Whea.step (s : Whea) : WheaCall → Whea
  | .log record => s.logErrorToWhea W record
  | .notifyOs => s.wheaNotifyOs

/-! ### Consistent blocks -/

section Blocks

variable (L : ErrorLayout)

/-- Bytes of the entry of a record. -/
def entrySize (record : ErrorRecord) : ℕ := L.dataEntrySize + L.sectionSize record.sectionType

/-- Bytes of all entries. -/
def dataSize (accepted : List ErrorRecord) : ℕ := (accepted.map (entrySize L)).sum

/-- At an offset of the block there is the entry of a record with its severity, and the section. -/
def EntryAt (b : WheaBlock) (offset : ℕ) (record : ErrorRecord) : Prop :=
  b.dataEntry offset =
      record.dataEntry record.severity (L.sectionSize record.sectionType) ∧
    HoldsWords b.bytes (offset + L.dataEntrySize)
      (record.sectionBytes (L.sectionSize record.sectionType))

/-- From an offset on, the entries of the records are there one behind the other. -/
def EntriesAt (b : WheaBlock) : ℕ → List ErrorRecord → Prop
  | _, [] => True
  | offset, record :: rest =>
    EntryAt L b offset record ∧ EntriesAt b (offset + entrySize L record) rest

/-- Two flags say whether there is one of a kind and whether there are several. -/
def CountFlags (valid multiple : Bool) (n : ℕ) : Prop :=
  (valid = true ↔ 1 ≤ n) ∧ (multiple = true ↔ 2 ≤ n)

/-- The fatal ones among the records. -/
def fatalCount (accepted : List ErrorRecord) : ℕ := accepted.countP (·.severity = .fatal)

/-- The others. -/
def otherCount (accepted : List ErrorRecord) : ℕ := accepted.countP (·.severity ≠ .fatal)

/-- The validity flags say how many fatal and how many other errors there are. -/
def FlagsHold (status : BlockStatus) (accepted : List ErrorRecord) : Prop :=
  CountFlags status.ueValid status.multipleUeValid (fatalCount accepted) ∧
    CountFlags status.ceValid status.multipleCeValid (otherCount accepted)

/-- The severity is the greatest of the records'. -/
def GreatestSeverity (severity : Severity) (accepted : List ErrorRecord) : Prop :=
  severity ∈ accepted.map (·.severity) ∧ ∀ r ∈ accepted, r.severity ≤ severity

/-- The block is what the accepted records make it. -/
structure WheaBlock.Holds (maxRecCount : ℕ) (b : WheaBlock) (accepted : List ErrorRecord) :
    Prop where
  /-- Number of entries. -/
  count : b.blockStatus.numErrorDataEntry.toNat = accepted.length
  /-- There are not too many. -/
  count_le : accepted.length ≤ maxRecCount
  /-- Their size. -/
  size : b.errDataSize = dataSize L accepted
  /-- The entries. -/
  entries : EntriesAt L b L.statusSize accepted
  /-- The severity of the block, if it has an entry. -/
  severity : accepted ≠ [] → GreatestSeverity b.severity accepted
  /-- The flags. -/
  flags : FlagsHold b.blockStatus accepted

/-- Behind its entries the block is zero. -/
def WheaBlock.Fresh (b : WheaBlock) : Prop :=
  ∀ offset, L.statusSize + b.errDataSize ≤ offset → b.dataEntry offset = .zero

variable {L} {b : WheaBlock} {record : ErrorRecord} {accepted : List ErrorRecord} {offset : ℕ}

@[simp] theorem dataSize_concat :
    dataSize L (accepted ++ [record]) = dataSize L accepted + entrySize L record := by
  rw [dataSize, List.map_append, List.sum_append, dataSize]
  simp

theorem entriesAt_concat :
    EntriesAt L b offset (accepted ++ [record]) ↔
      EntriesAt L b offset accepted ∧ EntryAt L b (offset + dataSize L accepted) record := by
  induction accepted generalizing offset with
  | nil => simp [EntriesAt, dataSize]
  | cons r accepted ih =>
    have hsize : offset + dataSize L (r :: accepted) =
        offset + entrySize L r + dataSize L accepted := by
      rw [dataSize, List.map_cons, List.sum_cons, dataSize]
      omega
    rw [List.cons_append, EntriesAt, ih, EntriesAt, hsize, and_assoc]

/-- Entries stay where they are if everything before an offset does. -/
theorem EntriesAt.congr {b' : WheaBlock} (h : EntriesAt L b offset accepted)
    (hentry : ∀ o < offset + dataSize L accepted, b'.dataEntry o = b.dataEntry o)
    (hbytes : ∀ o < offset + dataSize L accepted, b'.bytes o = b.bytes o) :
    EntriesAt L b' offset accepted := by
  induction accepted generalizing offset with
  | nil => trivial
  | cons r accepted ih =>
    have hsize : offset + dataSize L (r :: accepted) =
        offset + (entrySize L r + dataSize L accepted) := by
      rw [dataSize, List.map_cons, List.sum_cons, dataSize]
    rw [hsize] at hentry hbytes
    have hpos := L.dataEntrySize_pos
    have hr : entrySize L r = L.dataEntrySize + L.sectionSize r.sectionType := rfl
    refine ⟨⟨?_, ?_⟩, ih h.2 (fun o ho ↦ hentry o (by omega)) fun o ho ↦ hbytes o (by omega)⟩
    · rw [hentry offset (by omega)]
      exact h.1.1
    · intro i hi
      rw [hbytes _ (by rw [ErrorRecord.length_sectionBytes] at hi; omega)]
      exact h.1.2 i hi

theorem countFlags_zero : CountFlags false false 0 := ⟨by decide, by decide⟩

theorem CountFlags.first {valid multiple : Bool} {n : ℕ} (h : CountFlags valid multiple n)
    (hvalid : valid = false) : CountFlags true multiple (n + 1) := by
  have hn : ¬ 1 ≤ n := fun hn ↦ by simp [h.1.mpr hn] at hvalid
  exact ⟨iff_of_true rfl (by omega), h.2.trans (by omega)⟩

theorem CountFlags.more {valid multiple : Bool} {n : ℕ} (h : CountFlags valid multiple n)
    (hvalid : valid = true) : CountFlags true true (n + 1) := by
  have hn : 1 ≤ n := h.1.mp hvalid
  exact ⟨iff_of_true rfl (by omega), iff_of_true rfl (by omega)⟩

/-- One more error, of either kind. -/
theorem FlagsHold.mark {status : BlockStatus} (h : FlagsHold status accepted) :
    FlagsHold (status.mark record.severity) (accepted ++ [record]) := by
  rw [FlagsHold, fatalCount, otherCount, List.countP_append, List.countP_append, ← fatalCount,
    ← otherCount]
  by_cases hfatal : record.severity = .fatal
  · have hf : [record].countP (·.severity = .fatal) = 1 := by simp [hfatal]
    have hn : [record].countP (·.severity ≠ .fatal) = 0 := by simp [hfatal]
    rw [hf, hn, BlockStatus.mark, if_pos hfatal]
    cases hv : status.ueValid
    · rw [if_neg Bool.false_ne_true]
      exact ⟨h.1.first hv, h.2⟩
    · rw [if_pos rfl]
      exact ⟨h.1.more hv, h.2⟩
  · have hf : [record].countP (·.severity = .fatal) = 0 := by simp [hfatal]
    have hn : [record].countP (·.severity ≠ .fatal) = 1 := by simp [hfatal]
    rw [hf, hn, BlockStatus.mark, if_neg hfatal]
    cases hv : status.ceValid
    · rw [if_neg Bool.false_ne_true]
      exact ⟨h.1, h.2.first hv⟩
    · rw [if_pos rfl]
      exact ⟨h.1, h.2.more hv⟩

theorem holds_zero (maxRecCount : ℕ) : WheaBlock.zero.Holds L maxRecCount [] where
  count := rfl
  count_le := Nat.zero_le maxRecCount
  size := rfl
  entries := trivial
  severity := fun h ↦ absurd rfl h
  flags := ⟨countFlags_zero, countFlags_zero⟩

theorem fresh_zero : WheaBlock.zero.Fresh L := fun _ _ ↦ rfl

theorem fresh_append (h : b.Fresh L) (severities : Severity × Severity) :
    (b.append L record severities).Fresh L := by
  intro offset hoffset
  have hpos := L.dataEntrySize_pos
  simp only [WheaBlock.append] at hoffset ⊢
  rw [Function.update_of_ne (by omega)]
  exact h offset (by omega)

/-- **One more entry.** A block stays what its records make it exactly when the severities that are
written are that of the record and the greatest one. -/
theorem holds_append_iff {maxRecCount : ℕ} (hmax : maxRecCount < 1024)
    (h : b.Holds L maxRecCount accepted) (hfresh : b.Fresh L)
    (hlt : accepted.length < maxRecCount) (record : ErrorRecord)
    (severities : Severity × Severity) :
    (b.append L record severities).Holds L maxRecCount (accepted ++ [record]) ↔
      severities.2 = record.severity ∧
        GreatestSeverity severities.1 (accepted ++ [record]) := by
  have hzero : b.dataEntry (L.statusSize + b.errDataSize) = .zero := hfresh _ le_rfl
  have hbefore : EntriesAt L (b.append L record severities) L.statusSize accepted := by
    refine h.entries.congr (fun o ho ↦ ?_) fun o ho ↦ ?_
    · rw [← h.size] at ho
      exact Function.update_of_ne (by omega) _ _
    · rw [← h.size] at ho
      exact copyWords_of_not _ (Or.inl (by omega))
  have hentry : EntryAt L (b.append L record severities) (L.statusSize + dataSize L accepted) record ↔
      severities.2 = record.severity := by
    rw [← h.size, EntryAt]
    simp only [WheaBlock.append, Function.update_self, hzero]
    constructor
    · rintro ⟨hdata, -⟩
      exact congrArg GenericErrorDataEntry.severity hdata
    · intro hsev
      refine ⟨?_, holdsWords_copyWords _ _ _⟩
      rw [hsev]
      rfl
  constructor
  · intro h'
    have hentries := h'.entries
    rw [entriesAt_concat, hentry] at hentries
    exact ⟨hentries.2, h'.severity (by simp)⟩
  · rintro ⟨hsev, hgreatest⟩
    refine ⟨?_, ?_, ?_, ?_, fun _ ↦ hgreatest, ?_⟩
    · have hstatus : ∀ severity, (b.blockStatus.mark severity).numErrorDataEntry =
          b.blockStatus.numErrorDataEntry := by
        intro severity
        rw [BlockStatus.mark]
        split <;> split <;> rfl
      simp only [WheaBlock.append, hstatus]
      rw [BitVec.toNat_add, h.count, List.length_append, List.length_singleton]
      exact Nat.mod_eq_of_lt (by
        change _ + 1 < 2 ^ 10
        omega)
    · rw [List.length_append, List.length_singleton]
      omega
    · rw [dataSize_concat, ← h.size]
      rfl
    · rw [entriesAt_concat, hentry]
      exact ⟨hbefore, hsev⟩
    · exact h.flags.mark

end Blocks

/-! ### Runs -/

/-- A run with what it has accepted since the blocks were last zeroed, by source. -/
structure WheaTrace where
  /-- The log. -/
  state : Whea
  /-- The records accepted. -/
  accepted : WheaSource → List ErrorRecord

namespace WheaTrace

/-- The start: WHEA enabled, the blocks zeroed. -/
def start : WheaTrace := ⟨⟨true, false, false, false, fun _ ↦ .zero⟩, fun _ ↦ []⟩

/-- The trace when an error comes: the blocks are zeroed if they have to be. -/
def restart (t : WheaTrace) : WheaTrace :=
  ⟨t.state.restartAllWheaElog, if t.state.isErrorSourceClear then t.accepted else fun _ ↦ []⟩

/-- The records accepted, when a record comes that may be one of them. -/
def accept (t : WheaTrace) (record : ErrorRecord) : WheaSource → List ErrorRecord :=
  if t.state.accepts W record then
    Function.update t.accepted (wheaSource record.severity)
      (t.accepted (wheaSource record.severity) ++ [record])
  else t.accepted

/-- One call. -/
def next (t : WheaTrace) (c : WheaCall) : WheaTrace :=
  ⟨t.state.step W c,
    match c with
    | .log (some record) => t.restart.accept W record
    | .log none | .notifyOs => t.accepted⟩

/-- Every block is what the records accepted for it make it. -/
def Consistent (t : WheaTrace) : Prop :=
  ∀ src, (t.state.block src).Holds W.layout W.maxRecCount (t.accepted src)

/-- No correctable error is among the accepted. -/
def NoCorrectable (t : WheaTrace) : Prop :=
  ∀ r ∈ t.accepted .platformCeSrc, r.severity ≠ .correctable

/-- The severity of the record comes out right: it is the first uncorrectable error of its window; or
it is a corrected one, before every correctable one; or a correctable PCIe error. -/
def KeepsSeverity (t : WheaTrace) (record : ErrorRecord) : Prop :=
  match record.severity with
  | .fatal => t.accepted .platformUeSrc = [] ∧ t.NoCorrectable
  | .corrected => t.NoCorrectable
  | .correctable => record.sectionType = .pcie
  | .none => False

/-- The call accepts no record, or one whose severity comes out right. -/
def Clean (t : WheaTrace) (c : WheaCall) : Prop :=
  match c with
  | .log (some record) =>
    t.restart.state.accepts W record = true → t.restart.KeepsSeverity record
  | .log none | .notifyOs => True

/-- What a consistent trace satisfies besides. -/
structure Inv (t : WheaTrace) : Prop where
  /-- The blocks are right. -/
  consistent : t.Consistent W
  /-- WHEA stays enabled. -/
  enabled : t.state.isWheaEnabled = true
  /-- The blocks are zero behind their entries. -/
  fresh : ∀ src, (t.state.block src).Fresh W.layout
  /-- The records are in their blocks. -/
  sorted : ∀ src, ∀ r ∈ t.accepted src, wheaSource r.severity = src
  /-- The latch tells of fatal and correctable errors. -/
  latch : t.state.isErrorSourceClear = true →
    (t.state.isUeFatalLogged = false ↔ t.accepted .platformUeSrc = [] ∧ t.NoCorrectable)
  /-- The latch is open after a notification. -/
  unlatched : t.state.isErrorSourceClear = false → t.state.isUeFatalLogged = false

variable {W} {t : WheaTrace} {record : ErrorRecord}

theorem inv_start : start.Inv W where
  consistent := fun _ ↦ holds_zero W.maxRecCount
  enabled := rfl
  fresh := fun _ ↦ fresh_zero
  sorted := fun _ _ h ↦ absurd h List.not_mem_nil
  latch := fun h ↦ absurd h Bool.false_ne_true
  unlatched := fun _ ↦ rfl

/-- Zeroing the blocks. -/
theorem Inv.restart (h : t.Inv W) :
    t.restart.Inv W ∧ t.restart.state.isErrorSourceClear = true := by
  cases hclear : t.state.isErrorSourceClear with
  | true =>
    have hself : t.restart = t := by
      rw [WheaTrace.restart, Whea.restartAllWheaElog, if_pos hclear, if_pos hclear]
    rw [hself]
    exact ⟨h, hclear⟩
  | false =>
    have hself : t.restart =
        ⟨{ t.state with isErrorSourceClear := true, block := fun _ ↦ .zero }, fun _ ↦ []⟩ := by
      rw [WheaTrace.restart, Whea.restartAllWheaElog, if_neg (by simp [hclear]),
        if_neg (by simp [hclear])]
    rw [hself]
    refine ⟨⟨fun _ ↦ holds_zero W.maxRecCount, h.enabled, fun _ ↦ fresh_zero,
      fun _ _ hr ↦ absurd hr List.not_mem_nil, fun _ ↦ ?_, fun hc ↦ absurd hc (by simp)⟩, rfl⟩
    exact iff_of_true (h.unlatched hclear) ⟨rfl, fun _ hr ↦ absurd hr List.not_mem_nil⟩

/-- After a notification the latch is open; the blocks stay. -/
theorem Inv.notifyOs (h : t.Inv W) : (t.next W .notifyOs).Inv W := by
  have hself : t.next W .notifyOs =
      ⟨{ t.state with isCeLogged := false, isUeFatalLogged := false, isErrorSourceClear := false },
        t.accepted⟩ := by
    simp only [next, Whea.step, Whea.wheaNotifyOs, h.enabled]
    rfl
  rw [hself]
  exact ⟨h.consistent, h.enabled, h.fresh, h.sorted, fun hc ↦ absurd hc (by simp), fun _ ↦ rfl⟩

/-- A call with a record is a step of the trace with the blocks zeroed if they had to be. -/
theorem Inv.next_log (h : t.Inv W) (record : ErrorRecord) :
    t.next W (.log (some record)) =
      if t.restart.state.accepts W record then
        ⟨t.restart.state.logEntry W record, t.restart.accept W record⟩
      else t.restart := by
  have hstate : t.state.restartAllWheaElog = t.restart.state := rfl
  simp only [next, Whea.step, Whea.logErrorToWhea, h.enabled, hstate, Bool.not_true,
    Bool.false_eq_true, if_false]
  split
  · rfl
  · rename_i haccepts
    rw [accept, if_neg haccepts]

/-- Every accepted fatal error is in the block of uncorrectable errors, and no other. -/
theorem Inv.not_fatal (h : t.Inv W) :
    ∀ r ∈ t.accepted .platformCeSrc, r.severity ≠ .fatal := by
  intro r hr hfatal
  have hsrc := h.sorted _ r hr
  rw [hfatal] at hsrc
  cases hsrc

theorem Inv.fatal (h : t.Inv W) : ∀ r ∈ t.accepted .platformUeSrc, r.severity = .fatal := by
  intro r hr
  have hsrc := h.sorted _ r hr
  rw [wheaSource] at hsrc
  split at hsrc
  · assumption
  · cases hsrc

/-- A severity is the greatest of a list that it ends. -/
theorem greatestSeverity_concat {accepted : List ErrorRecord} (record : ErrorRecord) :
    GreatestSeverity record.severity (accepted ++ [record]) ↔
      ∀ r ∈ accepted, r.severity ≤ record.severity := by
  constructor
  · intro h r hr
    exact h.2 r (List.mem_append_left _ hr)
  · intro h
    refine ⟨by simp, fun r hr ↦ ?_⟩
    rcases List.mem_append.mp hr with hr | hr
    · exact h r hr
    · rw [List.mem_singleton.mp hr]

/-- The new entry and the block get right severities exactly if the record is of a kind that comes
out right. -/
theorem Inv.severities_iff (h : t.Inv W) (hclear : t.state.isErrorSourceClear = true)
    (b : WheaBlock) :
    ((t.state.severities b .correctable record).2 = record.severity ∧
        GreatestSeverity (t.state.severities b .correctable record).1
          (t.accepted (wheaSource record.severity) ++ [record])) ↔
      t.KeepsSeverity record := by
  have hlatch := h.latch hclear
  cases hsev : record.severity with
  | fatal =>
    simp only [KeepsSeverity, hsev]
    have hfirst : (!t.state.isUeFatalLogged && (!t.state.isCeLogged ||
        record.severity == .fatal || b.severity == .corrected)) = !t.state.isUeFatalLogged := by
      simp [hsev]
    rw [← hlatch, Whea.severities, if_pos hsev, hfirst]
    cases t.state.isUeFatalLogged with
    | false =>
      refine iff_of_true ⟨hsev, ?_⟩ rfl
      refine (greatestSeverity_concat record).mpr fun r _ ↦ ?_
      rw [hsev]
      cases r.severity <;> decide
    | true =>
      refine iff_of_false (fun hbad ↦ ?_) (by decide)
      have hentry : Severity.correctable = .fatal := hbad.1
      cases hentry
  | corrected =>
    simp only [KeepsSeverity, hsev]
    rw [Whea.severities, if_neg (by simp [hsev]), if_neg (by simp [hsev]), ← hsev,
      greatestSeverity_concat, hsev]
    refine (and_iff_right rfl).trans (forall₂_congr fun r hr ↦ ?_)
    have hfatal := h.not_fatal r hr
    cases hr' : r.severity <;> simp_all <;> decide
  | correctable =>
    simp only [KeepsSeverity, hsev]
    rw [Whea.severities, if_neg (by simp [hsev])]
    by_cases hpcie : record.sectionType = .pcie
    · rw [if_pos ⟨hpcie, hsev⟩]
      refine iff_of_true ⟨rfl, ?_⟩ hpcie
      rw [← hsev]
      refine (greatestSeverity_concat record).mpr fun r hr ↦ ?_
      rw [hsev] at hr ⊢
      have hfatal := h.not_fatal r hr
      cases hr' : r.severity with
      | fatal => exact absurd hr' hfatal
      | correctable | corrected | none => decide
    · rw [if_neg fun hbad ↦ hpcie hbad.1]
      exact iff_of_false (fun hbad ↦ absurd hbad.1 (by decide)) hpcie
  | none =>
    simp only [KeepsSeverity, hsev]
    rw [Whea.severities, if_neg (by simp [hsev]), if_neg (by simp [hsev])]
    exact iff_of_false (fun hbad ↦ absurd hbad.1 (by decide)) id

/-- The trace with an accepted record. -/
def logged (W : WheaSetup) (t : WheaTrace) (record : ErrorRecord) : WheaTrace :=
  ⟨t.state.logEntry W record, t.accept W record⟩

@[simp] theorem accepted_logged (haccepts : t.state.accepts W record = true) :
    (t.logged W record).accepted = Function.update t.accepted (wheaSource record.severity)
      (t.accepted (wheaSource record.severity) ++ [record]) :=
  if_pos haccepts

/-- An accepted record leaves the blocks right if and only if its severity comes out right. -/
theorem Inv.logged_consistent_iff (h : t.Inv W) (hclear : t.state.isErrorSourceClear = true)
    (haccepts : t.state.accepts W record = true) :
    (t.logged W record).Consistent W ↔ t.KeepsSeverity record := by
  set src := wheaSource record.severity with hsrc
  set b := t.state.block src with hb
  have hlt : (t.accepted src).length < W.maxRecCount := by
    rw [Whea.accepts, Bool.and_eq_true, decide_eq_true_eq, ← hsrc, ← hb,
      (h.consistent src).count] at haccepts
    exact haccepts.1
  have hold : b.dataEntry (W.layout.statusSize + b.errDataSize) = .zero := h.fresh src _ le_rfl
  have hblock : (t.logged W record).state.block = Function.update t.state.block src
      (b.append W.layout record (t.state.severities b .correctable record)) := by
    simp only [logged, Whea.logEntry, ← hsrc, ← hb, hold]
    rfl
  have happend := holds_append_iff W.maxRecCount_lt (h.consistent src) (h.fresh src) hlt record
    (t.state.severities b .correctable record)
  rw [← hb, h.severities_iff hclear] at happend
  rw [← happend, Consistent, hblock, accepted_logged haccepts]
  constructor
  · intro hall
    have hthis := hall src
    rwa [Function.update_self, ← hsrc, Function.update_self] at hthis
  · intro hthis src'
    by_cases heq : src' = src
    · rw [heq, Function.update_self, ← hsrc, Function.update_self]
      exact hthis
    · rw [Function.update_of_ne heq, Function.update_of_ne heq]
      exact h.consistent src'

/-- The latch after an accepted record. -/
theorem Inv.logged_latch (h : t.Inv W) (hclear : t.state.isErrorSourceClear = true)
    (haccepts : t.state.accepts W record = true) (hkeeps : t.KeepsSeverity record) :
    (t.logged W record).state.isUeFatalLogged = false ↔
      (t.logged W record).accepted .platformUeSrc = [] ∧ (t.logged W record).NoCorrectable := by
  rw [NoCorrectable, accepted_logged haccepts]
  simp only [logged, Whea.logEntry]
  cases hsev : record.severity with
  | fatal =>
    refine iff_of_false (by simp) fun hbad ↦ ?_
    have hue : wheaSource .fatal = .platformUeSrc := rfl
    rw [hue, Function.update_self] at hbad
    exact absurd hbad.1 (by simp)
  | corrected =>
    have hce : wheaSource .corrected = .platformCeSrc := rfl
    have hne : WheaSource.platformUeSrc ≠ .platformCeSrc := by decide
    rw [hce, Function.update_self, Function.update_of_ne hne, List.forall_mem_append]
    have hlast : ∀ r ∈ [record], r.severity ≠ .correctable := by simp [hsev]
    rw [and_iff_left hlast, ← NoCorrectable, ← h.latch hclear]
    have hkind : ∀ x : Bool, (x || Severity.corrected == .fatal ||
        record.sectionType == .pcie && Severity.corrected == .correctable) = x := by
      intro x
      cases x <;> simp
    rw [hkind]
  | correctable =>
    simp only [KeepsSeverity, hsev] at hkeeps
    have hce : wheaSource .correctable = .platformCeSrc := rfl
    refine iff_of_false (by simp [hkeeps]) fun hbad ↦ ?_
    rw [hce, Function.update_self] at hbad
    exact hbad.2 record (by simp) hsev
  | none =>
    simp only [KeepsSeverity, hsev] at hkeeps

/-- An accepted record whose severity comes out right keeps the invariant. -/
theorem Inv.logged (h : t.Inv W) (hclear : t.state.isErrorSourceClear = true)
    (haccepts : t.state.accepts W record = true) (hkeeps : t.KeepsSeverity record) :
    (t.logged W record).Inv W where
  consistent := (h.logged_consistent_iff hclear haccepts).mpr hkeeps
  enabled := h.enabled
  fresh := by
    intro src
    simp only [WheaTrace.logged, Whea.logEntry]
    by_cases heq : src = wheaSource record.severity
    · rw [heq, Function.update_self]
      exact fresh_append (h.fresh _) _
    · rw [Function.update_of_ne heq]
      exact h.fresh src
  sorted := by
    intro src r hr
    rw [accepted_logged haccepts] at hr
    by_cases heq : src = wheaSource record.severity
    · rw [heq, Function.update_self, List.mem_append, List.mem_singleton] at hr
      rcases hr with hr | rfl
      · rw [heq]
        exact h.sorted _ r hr
      · exact heq.symm
    · rw [Function.update_of_ne heq] at hr
      exact h.sorted src r hr
  latch := fun _ ↦ h.logged_latch hclear haccepts hkeeps
  unlatched := fun hc ↦ absurd (hclear.symm.trans hc) (by decide)

/-- **One call.** From a consistent state, the state after a call is consistent if and only if the
call is clean. -/
theorem Inv.next_consistent_iff (h : t.Inv W) (c : WheaCall) :
    (t.next W c).Consistent W ↔ t.Clean W c := by
  obtain ⟨hrestart, hclear⟩ := h.restart
  rcases c with ⟨- | record⟩ | -
  · exact iff_of_true h.consistent trivial
  · rw [h.next_log, Clean]
    by_cases haccepts : t.restart.state.accepts W record = true
    · rw [if_pos haccepts]
      exact (hrestart.logged_consistent_iff hclear haccepts).trans
        ⟨fun hkeeps _ ↦ hkeeps, fun hclean ↦ hclean haccepts⟩
    · rw [if_neg haccepts]
      exact iff_of_true hrestart.consistent fun hbad ↦ absurd hbad haccepts
  · exact iff_of_true h.notifyOs.consistent trivial

/-- A call that leaves the state consistent keeps the invariant. -/
theorem Inv.next (h : t.Inv W) (c : WheaCall) (hconsistent : (t.next W c).Consistent W) :
    (t.next W c).Inv W := by
  obtain ⟨hrestart, hclear⟩ := h.restart
  have hclean := (h.next_consistent_iff c).mp hconsistent
  rcases c with ⟨- | record⟩ | -
  · exact h
  · rw [h.next_log]
    by_cases haccepts : t.restart.state.accepts W record = true
    · rw [if_pos haccepts]
      exact hrestart.logged hclear haccepts (hclean haccepts)
    · rw [if_neg haccepts]
      exact hrestart
  · exact h.notifyOs

end WheaTrace

/-- **What comes out right.** From the start, the blocks are what the accepted records make them after
every call of a run, if and only if every call is clean in the state in which it is made. -/
theorem whea_consistent_iff (W : WheaSetup) (calls : List WheaCall) :
    Along (WheaTrace.next W) (fun t c ↦ (t.next W c).Consistent W) .start calls ↔
      Along (WheaTrace.next W) (fun t c ↦ t.Clean W c) .start calls := by
  refine along_iff_of_invariant (r := fun _ _ ↦ True) (fun t c h _ hc ↦ h.next c hc)
    (fun t c h _ ↦ h.next_consistent_iff c) WheaTrace.inv_start ?_
  exact along_of_forall (fun _ _ ↦ trivial) _ _

/-- A platform with 20-byte headers, 72-byte entries and sections of 80 bytes, that logs everything. -/
def wheaExample : WheaSetup where
  layout := ⟨20, 72, by decide, fun _ ↦ 80, 28, fun _ ↦ List.replicate 72 0,
    fun _ ↦ List.replicate 28 0, fun _ ↦ List.length_replicate, fun _ ↦ List.length_replicate,
    fun _ ↦ by decide⟩
  maxRecCount := 10
  maxRecCount_lt := by decide
  logEn := fun _ ↦ true

/-- A processor error of a severity. -/
def processorError (severity : Severity) : ErrorRecord :=
  ⟨severity, .processorGeneric, 0, 0, 0, 0, fun _ ↦ 0, ⟨true, 0, .zero⟩⟩

/-- The second of two fatal errors is in the log as a correctable one. -/
theorem not_consistent_twoFatal :
    ¬ Along (WheaTrace.next wheaExample) (fun t c ↦ (t.next wheaExample c).Consistent wheaExample)
      .start [.log (some (processorError .fatal)), .log (some (processorError .fatal))] := by
  rintro ⟨-, h, -⟩
  obtain ⟨-, ⟨hentry, -⟩, -⟩ := (h .platformUeSrc).entries
  have hseverity : Severity.correctable = .fatal := congrArg GenericErrorDataEntry.severity hentry
  cases hseverity

end PurleyFirmware.Ras
