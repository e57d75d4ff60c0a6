import PurleyFirmware.Ras.McBank

/-!
# Generic error status blocks

What the two error loggers, the enhanced machine-check log and WHEA, have in common: the error record
they are handed, and the status block that they fill in, a header followed by data entries, each with
its section.

The layout of these records is in headers outside this code. Fields are kept by name; the sizes of
the records, which decide where things lie in a block, are the parameter `ErrorLayout`.
-/

namespace PurleyFirmware.Ras

/-- The section types that the loggers tell apart. -/
inductive SectionType
  | processorGeneric
  | processorSpecific
  | platformMemory
  | vtd
  | pcie
  deriving DecidableEq, Repr

/-- `MCA_BANK_INFO`, the tail of a processor or memory section. -/
structure McaBankInfo where
  /-- The error is from a machine-check bank. -/
  valid : Bool
  /-- Its number. -/
  bankNum : BitVec 32
  /-- What it held. -/
  signature : McSignatureRecord

/-- An error record: the section descriptor and the section. -/
structure ErrorRecord where
  /-- How severe the error is. -/
  severity : Severity
  /-- What the section is about. -/
  sectionType : SectionType
  /-- Revision of the section. -/
  revision : BitVec 16
  /-- Bit 0: `fruId` is valid; bit 1: `fruText` is. -/
  validBits : BitVec 8
  /-- The replaceable unit. -/
  fruId : BitVec 128
  /-- Its name. -/
  fruText : BitVec 160
  /-- The bytes of the section. -/
  sectionData : ℕ → UInt8
  /-- The bank of a processor or memory section. -/
  mcaBankInfo : McaBankInfo

/-- `GENERIC_ERROR_DATA_ENTRY`. -/
structure GenericErrorDataEntry where
  /-- What the section is about, `none` for the zero GUID. -/
  sectionType : Option SectionType
  /-- How severe the error is. -/
  severity : Severity
  /-- Revision of the section. -/
  revision : BitVec 16
  /-- `SectionFlags.Primary`. -/
  primary : Bool
  /-- The replaceable unit, if valid. -/
  fruId : Option (BitVec 128)
  /-- Its name, if valid. -/
  fruText : Option (BitVec 160)
  /-- Bytes of the section. -/
  dataSize : ℕ

/-- A data entry of zeros. Severity 0 is `CORRECTABLE`. -/
def GenericErrorDataEntry.zero : GenericErrorDataEntry := ⟨none, .correctable, 0, false, none, none, 0⟩

/-- `BlockStatus`. Its reserved bits are never set. -/
structure BlockStatus where
  /-- There is an uncorrectable error. -/
  ueValid : Bool
  /-- There is a correctable error. -/
  ceValid : Bool
  /-- There are several uncorrectable errors. -/
  multipleUeValid : Bool
  /-- There are several correctable errors. -/
  multipleCeValid : Bool
  /-- Number of data entries. -/
  numErrorDataEntry : BitVec 10
  deriving DecidableEq

/-- The status word 0. -/
def BlockStatus.zero : BlockStatus := ⟨false, false, false, false, 0⟩

/-- Sizes and contents of the records in memory. -/
structure ErrorLayout where
  /-- `sizeof (GENERIC_ERROR_STATUS)`. -/
  statusSize : ℕ
  /-- `sizeof (GENERIC_ERROR_DATA_ENTRY)`. -/
  dataEntrySize : ℕ
  /-- A data entry has a size. -/
  dataEntrySize_pos : 0 < dataEntrySize
  /-- Bytes of a section without its `MCA_BANK_INFO`. -/
  sectionSize : SectionType → ℕ
  /-- `sizeof (EMCA_MC_SIGNATURE_ERR_RECORD)`. -/
  signatureSize : ℕ
  /-- A data entry in memory. -/
  dataEntryBytes : GenericErrorDataEntry → List UInt8
  /-- A signature in memory. -/
  signatureBytes : McSignatureRecord → List UInt8
  /-- A data entry has its size. -/
  length_dataEntryBytes : ∀ e, (dataEntryBytes e).length = dataEntrySize
  /-- A signature has its size. -/
  length_signatureBytes : ∀ s, (signatureBytes s).length = signatureSize
  /-- A block with any one section fits a 4 KB buffer. -/
  size_le : ∀ t, statusSize + dataEntrySize + sectionSize t + signatureSize ≤ 4096

/-- The data entry that a record is turned into. -/
def ErrorRecord.dataEntry (record : ErrorRecord) (severity : Severity) (dataSize : ℕ) :
    GenericErrorDataEntry where
  sectionType := some record.sectionType
  severity := severity
  revision := record.revision
  primary := true
  fruId := if record.validBits.getLsbD 0 then some record.fruId else none
  fruText := if record.validBits.getLsbD 1 then some record.fruText else none
  dataSize := dataSize

/-- The first bytes of a record's section. -/
def ErrorRecord.sectionBytes (record : ErrorRecord) (size : ℕ) : List UInt8 :=
  (List.range size).map record.sectionData

@[simp] theorem ErrorRecord.length_sectionBytes (record : ErrorRecord) (size : ℕ) :
    (record.sectionBytes size).length = size := by
  rw [ErrorRecord.sectionBytes, List.length_map, List.length_range]

end PurleyFirmware.Ras
