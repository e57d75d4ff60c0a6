import PurleyFirmware.CpuMp.Microcode

/-!
# Bounds of the microcode scan

The scan ends and stays inside the region exactly if the region fits (`scan_robust_iff`). One lemma
for each function of the scan says what its reads amount to; `allTrace_scanBody` puts them together
for a round, and `fitsFrom_iff` says of `FitsFrom` what a round says of the scan. The rest is one
induction in each direction, on the rounds left and on the bytes left.

That a patch is newer than the patches *for the processor* before it is what the scan knows as
`LatestRevision`: a patch that it did not look into, because its revision was no newer, cannot change
the maximum.
-/

namespace PurleyFirmware.CpuMp

open Traced

variable {mem : ℕ → BitVec 8} {cpu : ProcessorIdentity} {region : MicrocodeRegion}

/-! ### The functions of the scan -/

section

variable {p : ℕ → Prop}

@[simp] theorem allTrace_readDword {address : ℕ} :
    (readDword mem address).AllTrace p ↔ p address := allTrace_log _ _

@[simp] theorem val_readDword (address : ℕ) : (readDword mem address).val = dword mem address := rfl

theorem allTrace_checksumLoop {address count index : ℕ} {checksum : BitVec 32} :
    (checksumLoop mem address count index checksum).AllTrace p ↔
      ∀ k < count, p (address + 4 * (index + k)) := by
  induction count generalizing index checksum with
  | zero => simp [checksumLoop]
  | succ count ih =>
    have hshift : ∀ k, index + 1 + k = index + (k + 1) := fun k ↦ by omega
    rw [checksumLoop, allTrace_bind, allTrace_readDword, ih, Nat.forall_lt_succ_left]
    simp only [hshift, Nat.add_zero]

/-- A checksum reads what it covers. -/
theorem allTrace_checksum32Verify {address checksumLen : ℕ} :
    (checksum32Verify mem address checksumLen).AllTrace p ↔
      ∀ k < checksumLen, p (address + 4 * k) := by
  rw [checksum32Verify, allTrace_bind, allTrace_checksumLoop, allTrace_pure, and_true]
  simp only [Nat.zero_add]

end

/-- A checksum stays inside the region exactly if what it covers ends there. -/
theorem checksum_contains_iff {address checksumLen : ℕ}
    (hbase : region.mMicrocodePatchAddress ≤ address) (hpos : 0 < checksumLen) :
    (checksum32Verify mem address checksumLen).AllTrace region.Contains ↔
      address + 4 * checksumLen ≤ region.microcodeEnd := by
  rw [allTrace_checksum32Verify]
  constructor
  · intro h
    have hlast := (h (checksumLen - 1) (by omega)).2
    omega
  · intro h k hk
    exact ⟨by omega, by omega⟩

/-- The test of an entry. -/
theorem val_checkEntry {entry : ℕ} :
    (checkEntry mem cpu entry).val = true ↔ EntrySupports mem cpu entry := by
  rw [checkEntry, EntrySupports, ChecksumOk, val_bind, val_ite]
  by_cases hvalid : (checksum32Verify mem entry 3).val = true
  · rw [if_pos hvalid, val_bind, val_readDword, val_ite, and_iff_right hvalid]
    by_cases hid : dword mem entry = cpu.regEax
    · rw [if_pos hid, and_iff_right hid]
      rfl
    · rw [if_neg hid, val_pure]
      simp [hid]
  · rw [if_neg hvalid, val_pure]
    simp [hvalid]

/-- The checksum of an entry reads all of it. -/
theorem checkEntry_contains_iff {entry : ℕ} (hbase : region.mMicrocodePatchAddress ≤ entry) :
    (checkEntry mem cpu entry).AllTrace region.Contains ↔ entry + 12 ≤ region.microcodeEnd := by
  rw [checkEntry, allTrace_bind, checksum_contains_iff hbase (by omega)]
  constructor
  · exact And.left
  · intro h
    have hfirst : region.Contains entry := ⟨hbase, by omega⟩
    have hsecond : region.Contains (entry + 4) := ⟨by omega, by omega⟩
    simp only [allTrace_ite, allTrace_bind, allTrace_readDword, allTrace_pure]
    exact ⟨h, fun _ ↦ ⟨hfirst, fun _ ↦ ⟨hsecond, trivial⟩, fun _ ↦ trivial⟩, fun _ ↦ trivial⟩

/-- An extended signature table is searched up to the first entry that names the processor. -/
theorem val_extendedTableLoop {count entry : ℕ} :
    (extendedTableLoop mem cpu count entry).val = true ↔
      ∃ i < count, EntrySupports mem cpu (entry + 12 * i) := by
  induction count generalizing entry with
  | zero => simp [extendedTableLoop]
  | succ count ih =>
    have hshift : ∀ i, entry + 12 + 12 * i = entry + 12 * (i + 1) := fun i ↦ by omega
    rw [Nat.exists_lt_succ_left, extendedTableLoop, val_bind, val_ite]
    by_cases hfound : (checkEntry mem cpu entry).val = true
    · simp [hfound, val_checkEntry.1 hfound]
    · have hmiss : ¬ EntrySupports mem cpu (entry + 12 * 0) := fun h ↦ hfound (val_checkEntry.2 h)
      rw [if_neg hfound, ih, or_iff_right hmiss]
      simp only [hshift]

/-- The search reads the entries up to the first that names the processor. -/
theorem extendedTableLoop_contains_iff {count entry : ℕ}
    (hbase : region.mMicrocodePatchAddress ≤ entry) :
    (extendedTableLoop mem cpu count entry).AllTrace region.Contains ↔
      ∀ i < count, (∀ j < i, ¬ EntrySupports mem cpu (entry + 12 * j)) →
        entry + 12 * (i + 1) ≤ region.microcodeEnd := by
  induction count generalizing entry with
  | zero => simp [extendedTableLoop]
  | succ count ih =>
    have hshift : ∀ i, entry + 12 + 12 * i = entry + 12 * (i + 1) := fun i ↦ by omega
    rw [Nat.forall_lt_succ_left, extendedTableLoop, allTrace_bind,
      checkEntry_contains_iff hbase, allTrace_ite, val_checkEntry]
    simp only [allTrace_pure, implies_true, true_and, Nat.forall_lt_succ_left, Nat.mul_zero,
      Nat.add_zero, Nat.not_lt_zero, false_implies, true_implies, Nat.zero_add, Nat.mul_one]
    constructor
    · rintro ⟨hfirst, hrest⟩
      refine ⟨hfirst, fun i hi hboth ↦ ?_⟩
      obtain ⟨hmiss, hmisses⟩ := hboth
      have hbound := (ih (by omega)).1 (hrest hmiss) i hi fun j hj ↦ by
        rw [hshift]; exact hmisses j hj
      omega
    · rintro ⟨hfirst, hrest⟩
      refine ⟨hfirst, fun hmiss ↦ (ih (by omega)).2 fun i hi hmisses ↦ ?_⟩
      have hbound := hrest i hi ⟨hmiss, fun j hj ↦ by rw [← hshift]; exact hmisses j hj⟩
      omega

/-! ### Patches -/

section

variable {patch : ℕ} {latestRevision : BitVec 32}

theorem val_checkPatch :
    (checkPatch mem patch).val = true ↔ ChecksumOk mem patch (checkedLength mem patch) := by
  rw [checkPatch, val_bind, val_ite, ChecksumOk, checkedLength, dataSize, val_readDword]
  by_cases hsize : dword mem (patch + 28) = 0
  · rw [if_pos hsize, if_pos hsize]
  · rw [if_neg hsize, if_neg hsize, val_bind, val_readDword]

/-- Checking a patch for the processor. -/
theorem checkPatch_contains_iff (hbase : region.mMicrocodePatchAddress ≤ patch)
    (hheader : patch + 32 ≤ region.microcodeEnd) :
    (checkPatch mem patch).AllTrace region.Contains ↔
      patch + 4 * checkedLength mem patch ≤ region.microcodeEnd := by
  have hread : region.Contains (patch + 28) := ⟨by omega, by omega⟩
  rw [checkPatch, allTrace_bind, allTrace_readDword, and_iff_right hread, val_readDword,
    checkedLength, dataSize]
  by_cases hsize : dword mem (patch + 28) = 0
  · rw [if_pos hsize, if_pos hsize, checksum_contains_iff hbase (by omega)]
  · rw [if_neg hsize, if_neg hsize, allTrace_bind, allTrace_readDword, and_iff_right hread,
      val_readDword, checksum_contains_iff hbase (by omega)]

theorem val_checkTable {header : ℕ} {length : BitVec 32} :
    (checkTable mem cpu header length).val = true ↔ TableSupports mem cpu header length := by
  rw [checkTable, TableSupports, val_ite]
  by_cases hlength : length = 0
  · simp [hlength]
  · rw [if_pos hlength, and_iff_right hlength, val_ite]
    by_cases hfour : length.toNat % 4 = 0
    · rw [if_pos hfour, and_iff_right hfour, val_bind, val_ite]
      rw [ChecksumOk]
      by_cases hvalid : (checksum32Verify mem header (length.toNat / 4)).val = true
      · rw [if_pos hvalid, and_iff_right hvalid]
        exact val_extendedTableLoop
      · rw [if_neg hvalid]
        simp [hvalid]
    · simp [hfour]

/-- The search of a table. An empty table, or one that is not made of doublewords, is not read at
all. -/
theorem checkTable_contains_iff {header : ℕ} {length : BitVec 32}
    (hbase : region.mMicrocodePatchAddress ≤ header) :
    (checkTable mem cpu header length).AllTrace region.Contains ↔
      TableFits mem cpu region header length := by
  rw [checkTable, TableFits, allTrace_ite, allTrace_pure, implies_true, and_true]
  refine imp_congr_right fun hlength ↦ ?_
  rw [allTrace_ite, allTrace_pure, implies_true, and_true]
  refine imp_congr_right fun hfour ↦ ?_
  have hpos : 0 < length.toNat := by
    rw [Nat.pos_iff_ne_zero]
    exact fun h ↦ hlength (BitVec.eq_of_toNat_eq h)
  have hsum : (checksum32Verify mem header (length.toNat / 4)).AllTrace region.Contains ↔
      header + length.toNat ≤ region.microcodeEnd := by
    rw [checksum_contains_iff hbase (by omega)]
    constructor <;> intro h <;> omega
  rw [allTrace_bind, hsum, allTrace_ite, allTrace_pure, implies_true, and_true]
  refine and_congr_right fun hend ↦ imp_congr_right fun hvalid ↦ ?_
  have hcount : region.Contains header := ⟨hbase, by omega⟩
  rw [allTrace_bind, allTrace_readDword, and_iff_right hcount, val_readDword,
    extendedTableLoop_contains_iff (by omega)]

/-- The test of a header. -/
theorem val_checkHeader :
    (checkHeader mem cpu patch latestRevision).val = true ↔
      Supports mem cpu patch ∧ latestRevision < updateRevision mem patch := by
  rw [checkHeader, val_bind, val_readDword, val_ite, Supports, processorId, updateRevision]
  by_cases hid : dword mem (patch + 12) = cpu.regEax
  · rw [if_pos hid, and_iff_right hid, val_bind, val_readDword, val_ite]
    by_cases hnewer : latestRevision < dword mem (patch + 4)
    · rw [if_pos hnewer, and_iff_left hnewer]
      rfl
    · rw [if_neg hnewer]
      simp [hnewer]
  · rw [if_neg hid]
    simp [hid]

theorem checkHeader_contains (hbase : region.mMicrocodePatchAddress ≤ patch)
    (hheader : patch + 32 ≤ region.microcodeEnd) :
    (checkHeader mem cpu patch latestRevision).AllTrace region.Contains := by
  have hread : ∀ k ≤ 28, region.Contains (patch + k) := fun k hk ↦ ⟨by omega, by omega⟩
  rw [checkHeader]
  simp only [allTrace_bind, allTrace_readDword, allTrace_ite, allTrace_pure, implies_true, and_true]
  exact ⟨hread 12 (by omega), fun _ ↦ ⟨hread 4 (by omega), fun _ ↦ hread 24 (by omega)⟩⟩

/-- A patch is taken if it is newer than the latest and one for the processor. -/
theorem val_correctMicrocode (hversion : headerVersion mem patch = 1) :
    (correctMicrocode mem cpu patch latestRevision).val = true ↔
      latestRevision < updateRevision mem patch ∧ Applicable mem cpu patch := by
  rw [correctMicrocode, val_bind, val_ite, Applicable, and_iff_right hversion]
  by_cases hmatched : (checkHeader mem cpu patch latestRevision).val = true
  · obtain ⟨hsupports, hnewer⟩ := val_checkHeader.1 hmatched
    rw [if_pos hmatched, val_checkPatch, and_iff_right hnewer]
    simp [hsupports]
  · rw [if_neg hmatched, val_bind, val_readDword, val_ite]
    have hnot := fun h ↦ hmatched (val_checkHeader.2 h)
    by_cases hnewer : latestRevision < updateRevision mem patch
    · have hsupports : ¬ Supports mem cpu patch := fun h ↦ hnot ⟨h, hnewer⟩
      have hfold : dword mem (patch + 28) = dataSize mem patch := rfl
      simp only [hsupports, hnewer, false_and, false_or, not_false_eq_true, true_and, hfold]
      by_cases hsize : dataSize mem patch = 0
      · rw [if_neg (not_not.2 hsize)]
        simp [hsize]
      · have hsecond : latestRevision < dword mem (patch + 4) := hnewer
        rw [if_pos hsize, and_iff_right hsize, val_bind, val_readDword, if_pos hsecond,
          ← val_checkTable]
        rfl
    · have hsecond : ¬ latestRevision < dword mem (patch + 4) := hnewer
      simp [hnewer, hsecond]

/-- What is read to tell whether a patch is taken: nothing but the header of a patch that is no
newer. -/
theorem correctMicrocode_contains_iff (hbase : region.mMicrocodePatchAddress ≤ patch)
    (hheader : patch + 32 ≤ region.microcodeEnd)
    (htotal : dataSize mem patch ≠ 0 → patch + 36 ≤ region.microcodeEnd) :
    (correctMicrocode mem cpu patch latestRevision).AllTrace region.Contains ↔
      (latestRevision < updateRevision mem patch → BodyFits mem cpu region patch) := by
  have hread : ∀ k ≤ 28, region.Contains (patch + k) := fun k hk ↦ ⟨by omega, by omega⟩
  have htable : dataSize mem patch ≠ 0 →
      ((checkExtendedTable mem cpu patch).AllTrace region.Contains ↔
        TableFits mem cpu region (extendedTableHeader mem patch)
          (extendedTableLength mem patch)) := by
    intro hsize
    have hend := htotal hsize
    have hlast : region.Contains (patch + 32) := ⟨by omega, by omega⟩
    rw [checkExtendedTable, allTrace_bind, allTrace_readDword, and_iff_right hlast, allTrace_bind,
      allTrace_readDword, and_iff_right (hread 28 (by omega))]
    exact checkTable_contains_iff (hbase.trans (by omega))
  have hnewerRead : latestRevision < dword mem (patch + 4) ↔
      latestRevision < updateRevision mem patch := Iff.rfl
  have hsizeRead : dword mem (patch + 28) ≠ 0 ↔ dataSize mem patch ≠ 0 := Iff.rfl
  rw [correctMicrocode, allTrace_bind, and_iff_right (checkHeader_contains hbase hheader),
    allTrace_ite, val_checkHeader, checkPatch_contains_iff hbase hheader, allTrace_bind,
    allTrace_readDword, and_iff_right (hread 28 (by omega)), val_readDword, allTrace_ite,
    allTrace_bind, allTrace_readDword, and_iff_right (hread 4 (by omega)), val_readDword,
    allTrace_ite, allTrace_pure, implies_true, and_true, implies_true, and_true, hnewerRead,
    hsizeRead, BodyFits]
  by_cases hnewer : latestRevision < updateRevision mem patch
  · simp only [hnewer, and_true, true_implies]
    refine and_congr_right fun _ ↦ imp_congr_right fun _ ↦ ?_
    exact imp_congr_right htable
  · simp only [hnewer, and_false, false_implies, true_and, implies_true]

/-! ### A round -/

theorem val_readTotalSize (hversion : headerVersion mem patch = 1) :
    (readTotalSize mem patch).val = patchSize mem patch := by
  rw [readTotalSize, patchSize, if_pos hversion, val_bind, val_readDword, val_ite, dataSize]
  by_cases hsize : dword mem (patch + 28) = 0
  · rw [if_pos hsize, if_pos hsize, val_pure]
  · rw [if_neg hsize, if_neg hsize]
    rfl

theorem readTotalSize_contains_iff (hbase : region.mMicrocodePatchAddress ≤ patch) :
    (readTotalSize mem patch).AllTrace region.Contains ↔
      patch + (if dataSize mem patch = 0 then 32 else 36) ≤ region.microcodeEnd := by
  have hcontains : ∀ k, region.Contains (patch + k) ↔ patch + k + 4 ≤ region.microcodeEnd :=
    fun k ↦ ⟨And.right, fun h ↦ ⟨by omega, h⟩⟩
  rw [readTotalSize, allTrace_bind, allTrace_readDword, val_readDword, allTrace_ite, allTrace_bind,
    allTrace_readDword, hcontains, hcontains, dataSize]
  simp only [allTrace_pure, implies_true, and_true, true_and]
  by_cases hsize : dword mem (patch + 28) = 0
  · rw [if_pos hsize]
    simp only [hsize, not_true, false_implies, and_true]
  · rw [if_neg hsize]
    simp only [hsize, not_false_eq_true, true_implies]
    constructor
    · exact And.right
    · exact fun h ↦ ⟨by omega, h⟩

end

section

variable {s : ScanState}

/-- Where a round leads. -/
theorem entryPoint_scanBody :
    (scanBody mem cpu s).val.microcodeEntryPoint
      = s.microcodeEntryPoint + patchSize mem s.microcodeEntryPoint := by
  rw [scanBody, val_bind, val_readDword, val_ite]
  by_cases hversion : dword mem s.microcodeEntryPoint = 1
  · rw [if_pos hversion, val_bind, val_bind, val_ite, val_readTotalSize hversion]
    by_cases hcorrect : (correctMicrocode mem cpu s.microcodeEntryPoint s.latestRevision).val = true
    · rw [if_pos hcorrect]
      rfl
    · rw [if_neg hcorrect, val_pure]
  · rw [if_neg hversion, patchSize, headerVersion, if_neg hversion, val_pure]

/-- The latest revision after a patch that is newer and for the processor. -/
theorem latestRevision_scanBody
    (hnewer : s.latestRevision < updateRevision mem s.microcodeEntryPoint)
    (happlicable : Applicable mem cpu s.microcodeEntryPoint) :
    (scanBody mem cpu s).val.latestRevision = updateRevision mem s.microcodeEntryPoint := by
  have hversion : dword mem s.microcodeEntryPoint = 1 := happlicable.1
  have hcorrect := (val_correctMicrocode hversion).2 ⟨hnewer, happlicable⟩
  rw [scanBody, val_bind, val_readDword, val_ite, if_pos hversion, val_bind, val_bind, val_ite,
    if_pos hcorrect]
  rfl

/-- Any other patch leaves it alone. -/
theorem latestRevision_scanBody_of_not
    (h : ¬ (s.latestRevision < updateRevision mem s.microcodeEntryPoint ∧
      Applicable mem cpu s.microcodeEntryPoint)) :
    (scanBody mem cpu s).val.latestRevision = s.latestRevision := by
  rw [scanBody, val_bind, val_readDword, val_ite]
  by_cases hversion : dword mem s.microcodeEntryPoint = 1
  · have hcorrect := fun hc ↦ h ((val_correctMicrocode hversion).1 hc)
    rw [if_pos hversion, val_bind, val_bind, val_ite, if_neg hcorrect, val_pure]
  · rw [if_neg hversion, val_pure]

/-- **The reads of a round.** -/
theorem allTrace_scanBody (hbase : region.mMicrocodePatchAddress ≤ s.microcodeEntryPoint) :
    (scanBody mem cpu s).AllTrace region.Contains ↔
      HeaderFits mem region s.microcodeEntryPoint ∧
        (headerVersion mem s.microcodeEntryPoint = 1 →
          s.latestRevision < updateRevision mem s.microcodeEntryPoint →
            BodyFits mem cpu region s.microcodeEntryPoint) := by
  have hcontains : ∀ k, region.Contains (s.microcodeEntryPoint + k) ↔
      s.microcodeEntryPoint + k + 4 ≤ region.microcodeEnd :=
    fun k ↦ ⟨And.right, fun h ↦ ⟨by omega, h⟩⟩
  have hfirst : region.Contains s.microcodeEntryPoint ↔
      s.microcodeEntryPoint + 0 + 4 ≤ region.microcodeEnd := hcontains 0
  rw [scanBody, allTrace_bind, allTrace_readDword, val_readDword, HeaderFits, headerVersion, hfirst]
  by_cases hversion : dword mem s.microcodeEntryPoint = 1
  · rw [if_pos hversion, if_pos hversion, allTrace_bind, allTrace_bind,
      readTotalSize_contains_iff hbase, allTrace_ite, allTrace_bind, allTrace_readDword, hcontains]
    simp only [allTrace_pure, and_true, implies_true, hversion, true_implies]
    -- the bound on the header that the step to the next patch needs is the largest
    have hcorrect : s.microcodeEntryPoint
          + (if dataSize mem s.microcodeEntryPoint = 0 then 32 else 36) ≤ region.microcodeEnd →
        ((correctMicrocode mem cpu s.microcodeEntryPoint s.latestRevision).AllTrace
            region.Contains ↔ (s.latestRevision < updateRevision mem s.microcodeEntryPoint →
          BodyFits mem cpu region s.microcodeEntryPoint)) := by
      intro hheader
      by_cases hsize : dataSize mem s.microcodeEntryPoint = 0
      · rw [if_pos hsize] at hheader
        exact correctMicrocode_contains_iff hbase hheader fun h ↦ absurd hsize h
      · rw [if_neg hsize] at hheader
        exact correctMicrocode_contains_iff hbase (by omega) fun _ ↦ hheader
    have hlower : s.microcodeEntryPoint + 32 ≤ s.microcodeEntryPoint
        + if dataSize mem s.microcodeEntryPoint = 0 then 32 else 36 := by
      split <;> omega
    constructor
    · rintro ⟨-, hbody, hheader, -⟩
      exact ⟨hheader, (hcorrect hheader).1 hbody⟩
    · rintro ⟨hheader, hbody⟩
      exact ⟨by omega, (hcorrect hheader).2 hbody, hheader, fun _ ↦ by omega⟩
  · rw [if_neg hversion, if_neg hversion, allTrace_pure, and_true]
    simp only [hversion, false_implies, and_true, Nat.add_zero]

/-- What fits from an entry on, told as a round of the scan is. -/
theorem fitsFrom_iff :
    FitsFrom mem cpu region s.latestRevision s.microcodeEntryPoint ↔
      (HeaderFits mem region s.microcodeEntryPoint ∧
        (headerVersion mem s.microcodeEntryPoint = 1 →
          s.latestRevision < updateRevision mem s.microcodeEntryPoint →
            BodyFits mem cpu region s.microcodeEntryPoint)) ∧
      patchSize mem s.microcodeEntryPoint ≠ 0 ∧
      ((scanBody mem cpu s).val.microcodeEntryPoint < region.microcodeEnd →
        FitsFrom mem cpu region (scanBody mem cpu s).val.latestRevision
          (scanBody mem cpu s).val.microcodeEntryPoint) := by
  have hnext : (scanBody mem cpu s).val.microcodeEntryPoint < region.microcodeEnd →
      nextPatch mem region s.microcodeEntryPoint
        = some (scanBody mem cpu s).val.microcodeEntryPoint := by
    intro h
    rw [entryPoint_scanBody] at h ⊢
    rw [nextPatch, if_pos h]
  constructor
  · intro h
    obtain ⟨hheader, hsize, hbody⟩ := h 0 s.microcodeEntryPoint rfl
    refine ⟨⟨hheader, fun hversion hnewer ↦ hbody hversion hnewer fun m hm ↦ absurd hm m.not_lt_zero⟩,
      hsize, fun hlt n patch hn ↦ ?_⟩
    have hhop : ∀ m, hop (nextPatch mem region) (some s.microcodeEntryPoint) (m + 1)
        = hop (nextPatch mem region) (some (scanBody mem cpu s).val.microcodeEntryPoint) m := by
      intro m
      rw [hop_succ, Option.bind_some, hnext hlt]
    obtain ⟨hheader', hsize', hbody'⟩ := h (n + 1) patch ((hhop n).trans hn)
    refine ⟨hheader', hsize', fun hversion hnewer hearlier ↦ ?_⟩
    -- what is newer than the new maximum is newer than the old one and than this patch
    have hboth : s.latestRevision < updateRevision mem patch ∧
        (Applicable mem cpu s.microcodeEntryPoint →
          updateRevision mem s.microcodeEntryPoint < updateRevision mem patch) := by
      by_cases htaken : s.latestRevision < updateRevision mem s.microcodeEntryPoint ∧
          Applicable mem cpu s.microcodeEntryPoint
      · rw [latestRevision_scanBody htaken.1 htaken.2] at hnewer
        exact ⟨BitVec.lt_trans htaken.1 hnewer, fun _ ↦ hnewer⟩
      · rw [latestRevision_scanBody_of_not htaken] at hnewer
        refine ⟨hnewer, fun happlicable ↦ ?_⟩
        have hle := BitVec.not_lt.1 fun hlt ↦ htaken ⟨hlt, happlicable⟩
        exact Nat.lt_of_le_of_lt hle hnewer
    refine hbody' hversion hboth.1 fun m hm earlier hearlierHop happlicable ↦ ?_
    cases m with
    | zero =>
      obtain rfl : s.microcodeEntryPoint = earlier := Option.some.inj hearlierHop
      exact hboth.2 happlicable
    | succ m =>
      exact hearlier m (by omega) earlier ((hhop m).symm.trans hearlierHop) happlicable
  · rintro ⟨⟨hheader, hbody⟩, hsize, hrest⟩ n patch hn
    cases n with
    | zero =>
      obtain rfl : s.microcodeEntryPoint = patch := Option.some.inj hn
      exact ⟨hheader, hsize, fun hversion hnewer _ ↦ hbody hversion hnewer⟩
    | succ n =>
      have hlt : (scanBody mem cpu s).val.microcodeEntryPoint < region.microcodeEnd := by
        by_contra hge
        rw [entryPoint_scanBody] at hge
        rw [hop_succ, Option.bind_some, nextPatch, if_neg hge, hop_none] at hn
        cases hn
      have hhop : ∀ m, hop (nextPatch mem region) (some s.microcodeEntryPoint) (m + 1)
          = hop (nextPatch mem region) (some (scanBody mem cpu s).val.microcodeEntryPoint) m := by
        intro m
        rw [hop_succ, Option.bind_some, hnext hlt]
      obtain ⟨hheader', hsize', hbody'⟩ := hrest hlt n patch ((hhop n).symm.trans hn)
      refine ⟨hheader', hsize', fun hversion hnewer hearlier ↦ hbody' hversion ?_ ?_⟩
      · by_cases htaken : s.latestRevision < updateRevision mem s.microcodeEntryPoint ∧
            Applicable mem cpu s.microcodeEntryPoint
        · rw [latestRevision_scanBody htaken.1 htaken.2]
          exact hearlier 0 (by omega) _ rfl htaken.2
        · rwa [latestRevision_scanBody_of_not htaken]
      · intro m hm earlier hearlierHop happlicable
        exact hearlier (m + 1) (by omega) earlier ((hhop m).trans hearlierHop) happlicable

end

/-! ### The scan -/

/-- The scan ends, and has read nothing outside the region. -/
def ScanRobust (mem : ℕ → BitVec 8) (cpu : ProcessorIdentity) (region : MicrocodeRegion)
    (s : ScanState × List ℕ) : Prop :=
  ∃ fuel s', doWhile (scanRound mem cpu) (scanAgain region) fuel s = some s' ∧
    ∀ address ∈ s'.2, region.Contains address

/-- A scan that ends inside the region has met nothing but patches that fit. -/
theorem fitsFrom_of_scan {fuel : ℕ} {s s' : ScanState × List ℕ}
    (hbase : region.mMicrocodePatchAddress ≤ s.1.microcodeEntryPoint)
    (h : doWhile (scanRound mem cpu) (scanAgain region) fuel s = some s')
    (hreads : ∀ address ∈ s'.2, region.Contains address) :
    (∀ address ∈ s.2, region.Contains address) ∧
      FitsFrom mem cpu region s.1.latestRevision s.1.microcodeEntryPoint := by
  induction fuel generalizing s with
  | zero => cases h
  | succ fuel ih =>
    have hentry : (scanBody mem cpu s.1).val.microcodeEntryPoint
        = s.1.microcodeEntryPoint + patchSize mem s.1.microcodeEntryPoint := entryPoint_scanBody
    have htest : scanAgain region ((scanBody mem cpu s.1).val, s.2 ++ (scanBody mem cpu s.1).trace)
        = decide ((scanBody mem cpu s.1).val.microcodeEntryPoint < region.microcodeEnd) := rfl
    rw [doWhile, scanRound, Option.bind_some, htest] at h
    by_cases hagain : (scanBody mem cpu s.1).val.microcodeEntryPoint < region.microcodeEnd
    · rw [if_pos (decide_eq_true hagain)] at h
      obtain ⟨hall, hfits⟩ := ih (hbase.trans (by rw [hentry]; omega)) h
      obtain ⟨hold, hround⟩ := List.forall_mem_append.1 hall
      have hround' := (allTrace_scanBody hbase).1 hround
      refine ⟨hold, fitsFrom_iff.2 ⟨hround', fun hzero ↦ ?_, fun _ ↦ hfits⟩⟩
      -- a patch of no size would be met again, and what fits from there on says that it has one
      have hsame : (scanBody mem cpu s.1).val.microcodeEntryPoint = s.1.microcodeEntryPoint := by
        rw [hentry, hzero, Nat.add_zero]
      rw [hsame] at hfits
      exact (hfits 0 s.1.microcodeEntryPoint rfl).2.1 hzero
    · rw [if_neg (fun ht ↦ hagain (of_decide_eq_true ht))] at h
      obtain rfl := Option.some.inj h
      obtain ⟨hold, hround⟩ := List.forall_mem_append.1 hreads
      have hround' := (allTrace_scanBody hbase).1 hround
      refine ⟨hold, fitsFrom_iff.2 ⟨hround', fun hzero ↦ ?_, fun hlt ↦ absurd hlt hagain⟩⟩
      rw [hentry, hzero, Nat.add_zero] at hagain
      have hheader := hround'.1
      rw [HeaderFits] at hheader
      have hpos : 0 < if headerVersion mem s.1.microcodeEntryPoint = 1 then
          if dataSize mem s.1.microcodeEntryPoint = 0 then 32 else 36 else 4 := by
        split
        · split <;> omega
        · omega
      omega

/-- Where every patch fits, the scan ends inside the region. -/
theorem scanRobust_of_fitsFrom {s : ScanState × List ℕ}
    (hbase : region.mMicrocodePatchAddress ≤ s.1.microcodeEntryPoint)
    (hold : ∀ address ∈ s.2, region.Contains address)
    (h : FitsFrom mem cpu region s.1.latestRevision s.1.microcodeEntryPoint) :
    ScanRobust mem cpu region s := by
  -- the induction is on the bytes that are left of the region
  induction hleft : region.microcodeEnd - s.1.microcodeEntryPoint using Nat.strongRecOn
    generalizing s with
  | ind left ih =>
    obtain ⟨hround, hsize, hrest⟩ := fitsFrom_iff.1 h
    have hentry : (scanBody mem cpu s.1).val.microcodeEntryPoint
        = s.1.microcodeEntryPoint + patchSize mem s.1.microcodeEntryPoint := entryPoint_scanBody
    have hreads : ∀ address ∈ s.2 ++ (scanBody mem cpu s.1).trace, region.Contains address :=
      List.forall_mem_append.2 ⟨hold, (allTrace_scanBody hbase).2 hround⟩
    have hbody : scanRound mem cpu s
        = some ((scanBody mem cpu s.1).val, s.2 ++ (scanBody mem cpu s.1).trace) := rfl
    by_cases hagain : (scanBody mem cpu s.1).val.microcodeEntryPoint < region.microcodeEnd
    · have htest : scanAgain region
          ((scanBody mem cpu s.1).val, s.2 ++ (scanBody mem cpu s.1).trace) = true :=
        decide_eq_true hagain
      have hless : region.microcodeEnd - (scanBody mem cpu s.1).val.microcodeEntryPoint < left := by
        omega
      have hnext := ih _ hless
        (s := ((scanBody mem cpu s.1).val, s.2 ++ (scanBody mem cpu s.1).trace))
      obtain ⟨fuel, s', hs', hall⟩ := hnext (hbase.trans (by rw [hentry]; omega)) hreads
        (hrest hagain) rfl
      exact ⟨fuel + 1, s', (doWhile_of_again hbody htest).trans hs', hall⟩
    · have htest : scanAgain region
          ((scanBody mem cpu s.1).val, s.2 ++ (scanBody mem cpu s.1).trace) = false :=
        decide_eq_false hagain
      exact ⟨1, _, doWhile_of_last hbody htest, hreads⟩

/-- **The scan for a microcode patch.** It ends and stays inside the region exactly if the region
fits. -/
theorem scanRobust_iff :
    ScanRobust mem cpu region (scanStart region) ↔ RegionFits mem cpu region := by
  constructor
  · rintro ⟨fuel, s', hs', hreads⟩
    exact (fitsFrom_of_scan (Nat.le_refl _) hs' hreads).2
  · exact fun h ↦ scanRobust_of_fitsFrom (Nat.le_refl _) (fun _ ha ↦ by cases ha) h

/-! ### A patch without a size -/

/-- A region that begins with version 1, `DataSize` 1, and zeros otherwise. -/
def sizelessPatch (address : ℕ) : BitVec 8 :=
  if address = 0xFF8C0000 ∨ address = 0xFF8C001C then 1 else 0

/-- The scan of such a region never leaves its first patch. -/
theorem not_scanRobust_sizelessPatch :
    ¬ ScanRobust sizelessPatch ⟨0x50654, 0⟩ ⟨0xFF8C0000, 0x400⟩ (scanStart ⟨0xFF8C0000, 0x400⟩) := by
  rintro ⟨fuel, s', hs', hreads⟩
  have hfits := (fitsFrom_of_scan (Nat.le_refl _) hs' hreads).2
  exact (hfits 0 0xFF8C0000 rfl).2.1 (by decide)

end PurleyFirmware.CpuMp
