import PurleyFirmware.Foundation.Loops
import PurleyFirmware.Foundation.PointerChase
import PurleyFirmware.Foundation.Traced

/-!
# The scan for a microcode patch

The loop of `MicrocodeDetect` (`Microcode.c`, `FirstLoad` set) over the microcode region, with the
addresses it reads recorded. All that it reads are doublewords.

Where a patch lies is told by the patches before it and by nothing else: `nextPatch` needs the
version, `DataSize` and `TotalSize` of a header, not what the scan has found so far. So the patches
that a scan visits are the chain of `nextPatch`, and `RegionFits` says of each what the scan takes for
granted: that the header lies in the region, that it does not lead back to itself, and, of a patch
that is newer than those before it, that the checksum and the extended signature table do. None of
this is tested before it is used.

Addresses are natural numbers. An address of the region has at most 52 bits and what is added to it at
most 37, so that no pointer wraps around.
-/

namespace PurleyFirmware.CpuMp

/-! ### Memory -/

/-- The doubleword at an address. -/
def dword (mem : ℕ → BitVec 8) (address : ℕ) : BitVec 32 :=
  mem (address + 3) ++ mem (address + 2) ++ mem (address + 1) ++ mem address

/-- A read of a doubleword. -/
def readDword (mem : ℕ → BitVec 8) (address : ℕ) : Traced ℕ (BitVec 32) :=
  .log address (dword mem address)

/-- The microcode region: `mMicrocodePatchAddress` and `PcdCpuMicrocodePatchRegionSize`. -/
structure MicrocodeRegion where
  mMicrocodePatchAddress : ℕ
  regionSize : ℕ

/-- `MicrocodeEnd`. -/
def MicrocodeRegion.microcodeEnd (region : MicrocodeRegion) : ℕ :=
  region.mMicrocodePatchAddress + region.regionSize

/-- The doubleword at the address lies inside the region. -/
def MicrocodeRegion.Contains (region : MicrocodeRegion) (address : ℕ) : Prop :=
  region.mMicrocodePatchAddress ≤ address ∧ address + 4 ≤ region.microcodeEnd

/-- The processor: `CPUID(1).EAX` and bits 50 to 52 of `IA32_PLATFORM_ID`. -/
structure ProcessorIdentity where
  regEax : BitVec 32
  platformId : BitVec 3

/-! ### The header

`EFI_CPU_MICROCODE_HEADER` has 48 bytes: version, revision, date, processor, checksum, loader,
flags, data size, total size and three reserved doublewords. -/

section

variable (mem : ℕ → BitVec 8)

def headerVersion (patch : ℕ) : BitVec 32 := dword mem patch
def updateRevision (patch : ℕ) : BitVec 32 := dword mem (patch + 4)
def processorId (patch : ℕ) : BitVec 32 := dword mem (patch + 12)
def processorFlags (patch : ℕ) : BitVec 32 := dword mem (patch + 24)
def dataSize (patch : ℕ) : BitVec 32 := dword mem (patch + 28)
def totalSize (patch : ℕ) : BitVec 32 := dword mem (patch + 32)

/-! ### The scan -/

/-- The loop of `Checksum32Verify`. -/
def checksumLoop (address : ℕ) : ℕ → ℕ → BitVec 32 → Traced ℕ (BitVec 32)
  | 0, _, checksum => pure checksum
  | count + 1, index, checksum => do
    let value ← readDword mem (address + 4 * index)
    checksumLoop address count (index + 1) (checksum + value)

/-- `Checksum32Verify`. -/
def checksum32Verify (address checksumLen : ℕ) : Traced ℕ Bool := do
  let checksum ← checksumLoop mem address checksumLen 0 0
  return checksum == 0

variable (cpu : ProcessorIdentity)

/-- The test of an entry of an extended signature table. -/
def checkEntry (entry : ℕ) : Traced ℕ Bool := do
  let valid ← checksum32Verify mem entry 3
  if valid then do
    let signature ← readDword mem entry
    if signature = cpu.regEax then do
      let flag ← readDword mem (entry + 4)
      pure (flag.getLsbD cpu.platformId.toNat)
    else pure false
  else pure false

/-- The loop over the entries of an extended signature table, twelve bytes each. -/
def extendedTableLoop : ℕ → ℕ → Traced ℕ Bool
  | 0, _ => pure false
  | count + 1, entry => do
    let found ← checkEntry mem cpu entry
    if found then pure true else extendedTableLoop count (entry + 12)

/-- The checksum of a patch for this processor. -/
def checkPatch (patch : ℕ) : Traced ℕ Bool := do
  let size ← readDword mem (patch + 28)
  if size = 0 then checksum32Verify mem patch (2048 / 4)
  else do
    let size ← readDword mem (patch + 28)
    checksum32Verify mem patch ((size.toNat + 48) / 4)

/-- The search of an extended signature table of so many bytes. -/
def checkTable (header : ℕ) (extendedTableLength : BitVec 32) : Traced ℕ Bool :=
  if extendedTableLength ≠ 0 then
    if extendedTableLength.toNat % 4 = 0 then do
      let valid ← checksum32Verify mem header (extendedTableLength.toNat / 4)
      if valid then do
        let extendedSignatureCount ← readDword mem header
        extendedTableLoop mem cpu extendedSignatureCount.toNat (header + 20)
      else pure false
    else pure false
  else pure false

/-- The search of a patch's extended signature table. -/
def checkExtendedTable (patch : ℕ) : Traced ℕ Bool := do
  let total ← readDword mem (patch + 32)
  let size ← readDword mem (patch + 28)
  checkTable mem cpu (patch + size.toNat + 48) (total - (size + 48))

/-- The test of a patch's header, given the revision found so far. -/
def checkHeader (patch : ℕ) (latestRevision : BitVec 32) : Traced ℕ Bool := do
  let processor ← readDword mem (patch + 12)
  if processor = cpu.regEax then do
    let revision ← readDword mem (patch + 4)
    if latestRevision < revision then do
      let flags ← readDword mem (patch + 24)
      pure (flags.getLsbD cpu.platformId.toNat)
    else pure false
  else pure false

/-- `CorrectMicrocode` for a patch, given the revision found so far. -/
def correctMicrocode (patch : ℕ) (latestRevision : BitVec 32) : Traced ℕ Bool := do
  let matched ← checkHeader mem cpu patch latestRevision
  if matched then checkPatch mem patch
  else do
    let size ← readDword mem (patch + 28)
    if size ≠ 0 then do
      let revision ← readDword mem (patch + 4)
      if latestRevision < revision then checkExtendedTable mem cpu patch else pure false
    else pure false

/-- `MICROCODE_INFO`. -/
structure MicrocodeInfo where
  microcodeData : ℕ
  microcodeSize : ℕ
  processorId : BitVec 32

/-- The variables of the loop. -/
structure ScanState where
  microcodeEntryPoint : ℕ
  latestRevision : BitVec 32
  microcodeInfo : Option MicrocodeInfo

/-- `TotalSize`, as it is read to get the next patch. -/
def readTotalSize (patch : ℕ) : Traced ℕ ℕ := do
  let size ← readDword mem (patch + 28)
  if size = 0 then pure 2048
  else do
    let total ← readDword mem (patch + 32)
    pure total.toNat

/-- The body of the loop. -/
def scanBody (s : ScanState) : Traced ℕ ScanState := do
  let version ← readDword mem s.microcodeEntryPoint
  if version = 1 then do
    let correct ← correctMicrocode mem cpu s.microcodeEntryPoint s.latestRevision
    let total ← readTotalSize mem s.microcodeEntryPoint
    if correct then do
      let revision ← readDword mem (s.microcodeEntryPoint + 4)
      pure ⟨s.microcodeEntryPoint + total, revision,
        some ⟨s.microcodeEntryPoint + 48, total, cpu.regEax⟩⟩
    else pure { s with microcodeEntryPoint := s.microcodeEntryPoint + total }
  else pure { s with microcodeEntryPoint := s.microcodeEntryPoint + 1024 }

variable (region : MicrocodeRegion)

/-- A round of the loop, with what has been read so far. -/
def scanRound (s : ScanState × List ℕ) : Option (ScanState × List ℕ) :=
  some ((scanBody mem cpu s.1).val, s.2 ++ (scanBody mem cpu s.1).trace)

/-- The condition of the loop. -/
def scanAgain (s : ScanState × List ℕ) : Bool := s.1.microcodeEntryPoint < region.microcodeEnd

/-- The state before the loop. -/
def scanStart : ScanState × List ℕ := (⟨region.mMicrocodePatchAddress, 0, none⟩, [])

/-- The scan of `MicrocodeDetect`, with a bound on its rounds. -/
def microcodeScan (fuel : ℕ) : Option (ScanState × List ℕ) :=
  doWhile (scanRound mem cpu) (scanAgain region) fuel (scanStart region)

/-! ### What a patch says of itself -/

/-- The checksum of `checksumLen` doublewords is zero. -/
def ChecksumOk (address checksumLen : ℕ) : Prop :=
  (checksum32Verify mem address checksumLen).val = true

/-- The header names the processor. -/
def Supports (patch : ℕ) : Prop :=
  processorId mem patch = cpu.regEax ∧
    (processorFlags mem patch).getLsbD cpu.platformId.toNat = true

/-- The doublewords that the checksum of a patch covers. -/
def checkedLength (patch : ℕ) : ℕ :=
  if dataSize mem patch = 0 then 2048 / 4 else ((dataSize mem patch).toNat + 48) / 4

/-- `ExtendedTableLength`. -/
def extendedTableLength (patch : ℕ) : BitVec 32 := totalSize mem patch - (dataSize mem patch + 48)

/-- The address of the extended signature table. -/
def extendedTableHeader (patch : ℕ) : ℕ := patch + (dataSize mem patch).toNat + 48

/-- A valid entry of an extended signature table that names the processor. -/
def EntrySupports (entry : ℕ) : Prop :=
  ChecksumOk mem entry 3 ∧ dword mem entry = cpu.regEax ∧
    (dword mem (entry + 4)).getLsbD cpu.platformId.toNat = true

/-- A table of so many bytes is there, is valid, and names the processor. -/
def TableSupports (header : ℕ) (length : BitVec 32) : Prop :=
  length ≠ 0 ∧ length.toNat % 4 = 0 ∧ ChecksumOk mem header (length.toNat / 4) ∧
    ∃ i < (dword mem header).toNat, EntrySupports mem cpu (header + 20 + 12 * i)

/-- The patch is one for the processor. -/
def Applicable (patch : ℕ) : Prop :=
  headerVersion mem patch = 1 ∧
    (Supports mem cpu patch ∧ ChecksumOk mem patch (checkedLength mem patch) ∨
      ¬ Supports mem cpu patch ∧ dataSize mem patch ≠ 0 ∧
        TableSupports mem cpu (extendedTableHeader mem patch) (extendedTableLength mem patch))

/-- The bytes from a patch, or from padding, to what the scan looks at next. -/
def patchSize (patch : ℕ) : ℕ :=
  if headerVersion mem patch = 1 then
    if dataSize mem patch = 0 then 2048 else (totalSize mem patch).toNat
  else 1024

/-- What the scan looks at after a patch, if that is in the region. -/
def nextPatch (patch : ℕ) : Option ℕ :=
  if patch + patchSize mem patch < region.microcodeEnd then some (patch + patchSize mem patch)
  else none

/-! ### What the scan takes for granted -/

/-- As much of the header as the scan needs lies before the end of the region. -/
def HeaderFits (patch : ℕ) : Prop :=
  patch + (if headerVersion mem patch = 1 then if dataSize mem patch = 0 then 32 else 36 else 4)
    ≤ region.microcodeEnd

/-- An extended signature table of so many bytes lies before the end of the region, and if it is
valid, so do its entries up to the first that names the processor. -/
def TableFits (header : ℕ) (length : BitVec 32) : Prop :=
  length ≠ 0 → length.toNat % 4 = 0 →
    header + length.toNat ≤ region.microcodeEnd ∧
      (ChecksumOk mem header (length.toNat / 4) →
        ∀ i < (dword mem header).toNat,
          (∀ j < i, ¬ EntrySupports mem cpu (header + 20 + 12 * j)) →
            header + 20 + 12 * (i + 1) ≤ region.microcodeEnd)

/-- What is read of a patch that is newer than those before it lies before the end of the
region. -/
def BodyFits (patch : ℕ) : Prop :=
  (Supports mem cpu patch → patch + 4 * checkedLength mem patch ≤ region.microcodeEnd) ∧
    (¬ Supports mem cpu patch → dataSize mem patch ≠ 0 →
      TableFits mem cpu region (extendedTableHeader mem patch) (extendedTableLength mem patch))

/-- Every patch from `entry` on has a header that fits and does not lead back to itself, and if it
is newer than `latestRevision` and than the patches for the processor before it, a body that fits. -/
def FitsFrom (latestRevision : BitVec 32) (entry : ℕ) : Prop :=
  ∀ n patch, hop (nextPatch mem region) (some entry) n = some patch →
    HeaderFits mem region patch ∧ patchSize mem patch ≠ 0 ∧
      (headerVersion mem patch = 1 → latestRevision < updateRevision mem patch →
        (∀ m < n, ∀ earlier, hop (nextPatch mem region) (some entry) m = some earlier →
          Applicable mem cpu earlier → updateRevision mem earlier < updateRevision mem patch) →
        BodyFits mem cpu region patch)

/-- Every patch of the region fits. -/
def RegionFits : Prop := FitsFrom mem cpu region 0 region.mMicrocodePatchAddress

end

end PurleyFirmware.CpuMp
