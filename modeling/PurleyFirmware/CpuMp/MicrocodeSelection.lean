import PurleyFirmware.CpuMp.MicrocodeBounds

/-!
# The patch that `MicrocodeDetect` records

The scan keeps the latest revision so far and compares strictly, so that of the patches for the
processor the first of the greatest revision stays (`NewestBefore`, round by round). A revision of 0
is never newer.

Which patches are for the processor is `Applicable`: the header names it and the checksum is right, or
the header does *not* name it and the extended signature table does. A patch whose header names the
processor and whose checksum is wrong is passed over, whatever its table says.
-/

namespace PurleyFirmware.CpuMp

open Traced

/-! ### The function -/

/-- What `MicrocodeDetect` does for a processor at the first load. -/
structure DetectResult where
  /-- The data of the capability `Microcode`, `mMicrocodeInfo[ProcessorNumber]`. -/
  capability : Option MicrocodeInfo
  /-- `mMicrocodeInfo[ProcessorNumber].Load`. -/
  load : Bool
  /-- What is written to `EFI_MSR_IA32_BIOS_UPDT_TRIG`. -/
  updateTrigger : Option ℕ

/-- The end of `MicrocodeDetect`, behind the loop. -/
def recordMicrocode (currentSignature : BitVec 32) (s : ScanState) : DetectResult :=
  if 0 < s.latestRevision then
    if currentSignature = 0 then
      ⟨s.microcodeInfo, true, s.microcodeInfo.map MicrocodeInfo.microcodeData⟩
    else ⟨s.microcodeInfo, false, none⟩
  else ⟨none, false, none⟩

/-- `MicrocodeDetect` at the first load, with a bound on the rounds of its loop. -/
def microcodeDetect (mem : ℕ → BitVec 8) (cpu : ProcessorIdentity) (region : MicrocodeRegion)
    (currentSignature : BitVec 32) (fuel : ℕ) : Option DetectResult :=
  (microcodeScan mem cpu region fuel).map fun s ↦ recordMicrocode currentSignature s.1

/-! ### What it is to record -/

section

variable (mem : ℕ → BitVec 8) (cpu : ProcessorIdentity) (region : MicrocodeRegion)

/-- The first patch, or padding, of a region. -/
def firstPatch : Option ℕ :=
  if region.mMicrocodePatchAddress < region.microcodeEnd then some region.mMicrocodePatchAddress
  else none

/-- The patches of the region, and its padding, in order. -/
def patchAt (n : ℕ) : Option ℕ := hop (nextPatch mem region) (firstPatch region) n

/-- A patch's `TotalSize` is a multiple of 1 KB that has room for its data, inside the region. -/
structure WellFormedPatch (patch : ℕ) : Prop where
  ne_zero : patchSize mem patch ≠ 0
  dvd : 1024 ∣ patchSize mem patch
  data : dataSize mem patch ≠ 0 → (dataSize mem patch).toNat + 48 ≤ (totalSize mem patch).toNat
  inside : patch + patchSize mem patch ≤ region.microcodeEnd

/-- The region is made up of such patches and of padding. -/
def WellFormedRegion : Prop :=
  ∀ n patch, patchAt mem region n = some patch → headerVersion mem patch = 1 →
    WellFormedPatch mem region patch

/-- By its header or by its extended signature table, the patch is one for the processor. -/
def ApplicableByEither (patch : ℕ) : Prop :=
  headerVersion mem patch = 1 ∧
    (Supports mem cpu patch ∧ ChecksumOk mem patch (checkedLength mem patch) ∨
      dataSize mem patch ≠ 0 ∧
        TableSupports mem cpu (extendedTableHeader mem patch) (extendedTableLength mem patch))

/-- The first patch of the greatest revision, not 0, among those with the property. -/
structure IsNewest (applicable : ℕ → Prop) (n patch : ℕ) : Prop where
  visited : patchAt mem region n = some patch
  holds : applicable patch
  ne_zero : updateRevision mem patch ≠ 0
  le : ∀ m other, patchAt mem region m = some other → applicable other →
    updateRevision mem other ≤ updateRevision mem patch
  lt : ∀ m < n, ∀ other, patchAt mem region m = some other → applicable other →
    updateRevision mem other < updateRevision mem patch

/-- The record of a patch. -/
def infoOf (patch : ℕ) : MicrocodeInfo := ⟨patch + 48, patchSize mem patch, cpu.regEax⟩

/-- The newest patch is recorded, and nothing if there is none. -/
def RecordsNewest (applicable : ℕ → Prop) (result : DetectResult) : Prop :=
  ∀ info, result.capability = some info ↔
    ∃ n patch, IsNewest mem region applicable n patch ∧ info = infoOf mem cpu patch

/-- The loop ends, and the newest patch is recorded. -/
def SelectsNewest (currentSignature : BitVec 32) (applicable : ℕ → Prop) : Prop :=
  ∃ rounds, ∀ fuel ≥ rounds, ∃ result,
    microcodeDetect mem cpu region currentSignature fuel = some result ∧
      RecordsNewest mem cpu region applicable result

end

variable {mem : ℕ → BitVec 8} {cpu : ProcessorIdentity} {region : MicrocodeRegion} {s : ScanState}

/-! ### A round -/

/-- What a patch that is taken leaves in `mMicrocodeInfo`. -/
theorem microcodeInfo_scanBody
    (hnewer : s.latestRevision < updateRevision mem s.microcodeEntryPoint)
    (happlicable : Applicable mem cpu s.microcodeEntryPoint) :
    (scanBody mem cpu s).val.microcodeInfo = some (infoOf mem cpu s.microcodeEntryPoint) := by
  have hversion : dword mem s.microcodeEntryPoint = 1 := happlicable.1
  have hcorrect := (val_correctMicrocode hversion).2 ⟨hnewer, happlicable⟩
  rw [scanBody, val_bind, val_readDword, val_ite, if_pos hversion, val_bind, val_bind, val_ite,
    if_pos hcorrect, val_readTotalSize hversion]
  rfl

theorem microcodeInfo_scanBody_of_not
    (h : ¬ (s.latestRevision < updateRevision mem s.microcodeEntryPoint ∧
      Applicable mem cpu s.microcodeEntryPoint)) :
    (scanBody mem cpu s).val.microcodeInfo = s.microcodeInfo := by
  rw [scanBody, val_bind, val_readDword, val_ite]
  by_cases hversion : dword mem s.microcodeEntryPoint = 1
  · have hcorrect := fun hc ↦ h ((val_correctMicrocode hversion).1 hc)
    rw [if_pos hversion, val_bind, val_bind, val_ite, if_neg hcorrect, val_pure]
  · rw [if_neg hversion, val_pure]

/-- **After `k` patches** the scan has the first of the greatest revision among them. -/
structure NewestBefore (mem : ℕ → BitVec 8) (cpu : ProcessorIdentity) (region : MicrocodeRegion)
    (k : ℕ) (s : ScanState) : Prop where
  le : ∀ m < k, ∀ patch, patchAt mem region m = some patch → Applicable mem cpu patch →
    updateRevision mem patch ≤ s.latestRevision
  newest : s.latestRevision ≠ 0 → ∃ n < k, ∃ patch, patchAt mem region n = some patch ∧
    Applicable mem cpu patch ∧ updateRevision mem patch = s.latestRevision ∧
    s.microcodeInfo = some (infoOf mem cpu patch) ∧
    ∀ m < n, ∀ other, patchAt mem region m = some other → Applicable mem cpu other →
      updateRevision mem other < updateRevision mem patch

theorem newestBefore_scanBody {k : ℕ} (hat : patchAt mem region k = some s.microcodeEntryPoint)
    (h : NewestBefore mem cpu region k s) :
    NewestBefore mem cpu region (k + 1) (scanBody mem cpu s).val := by
  by_cases htaken : s.latestRevision < updateRevision mem s.microcodeEntryPoint ∧
      Applicable mem cpu s.microcodeEntryPoint
  · obtain ⟨hnewer, happlicable⟩ := htaken
    have hlatest := latestRevision_scanBody hnewer happlicable
    have hbefore : ∀ m < k, ∀ patch, patchAt mem region m = some patch →
        Applicable mem cpu patch →
          updateRevision mem patch < updateRevision mem s.microcodeEntryPoint :=
      fun m hm patch hpatch hfor ↦ Nat.lt_of_le_of_lt (h.le m hm patch hpatch hfor) hnewer
    refine ⟨fun m hm patch hpatch hfor ↦ ?_, fun _ ↦ ⟨k, Nat.lt_succ_self k, _, hat, happlicable,
      hlatest.symm, microcodeInfo_scanBody hnewer happlicable, hbefore⟩⟩
    rw [hlatest]
    rcases Nat.lt_succ_iff_lt_or_eq.1 hm with hlt | rfl
    · exact BitVec.le_of_lt (hbefore m hlt patch hpatch hfor)
    · rw [Option.some.inj (hpatch.symm.trans hat)]
      exact BitVec.le_refl _
  · have hlatest := latestRevision_scanBody_of_not htaken
    refine ⟨fun m hm patch hpatch hfor ↦ ?_, fun hne ↦ ?_⟩
    · rw [hlatest]
      rcases Nat.lt_succ_iff_lt_or_eq.1 hm with hlt | rfl
      · exact h.le m hlt patch hpatch hfor
      · rw [Option.some.inj (hpatch.symm.trans hat)] at hfor ⊢
        exact BitVec.not_lt.1 fun hnewer ↦ htaken ⟨hnewer, hfor⟩
    · rw [hlatest] at hne ⊢
      obtain ⟨n, hn, patch, hpatch, hfor, hrevision, hinfo, hfirst⟩ := h.newest hne
      exact ⟨n, Nat.lt_succ_of_lt hn, patch, hpatch, hfor, hrevision,
        (microcodeInfo_scanBody_of_not htaken).trans hinfo, hfirst⟩

/-! ### The scan -/

/-- **The scan of a region whose patches have a size** ends, and has looked at all of them. -/
theorem newestBefore_scan
    (hsizes : ∀ n patch, patchAt mem region n = some patch → patchSize mem patch ≠ 0)
    {k : ℕ} {s : ScanState × List ℕ}
    (hat : patchAt mem region k = some s.1.microcodeEntryPoint)
    (h : NewestBefore mem cpu region k s.1) :
    ∃ fuel s' k', doWhile (scanRound mem cpu) (scanAgain region) fuel s = some s' ∧
      patchAt mem region k' = none ∧ NewestBefore mem cpu region k' s'.1 := by
  -- the induction is on the bytes that are left of the region
  induction hleft : region.microcodeEnd - s.1.microcodeEntryPoint using Nat.strongRecOn
    generalizing s k with
  | ind left ih =>
    have hsize := hsizes k _ hat
    have hentry : (scanBody mem cpu s.1).val.microcodeEntryPoint =
        s.1.microcodeEntryPoint + patchSize mem s.1.microcodeEntryPoint := entryPoint_scanBody
    have hbody : scanRound mem cpu s =
        some ((scanBody mem cpu s.1).val, s.2 ++ (scanBody mem cpu s.1).trace) := rfl
    have hround := newestBefore_scanBody hat h
    have hnext : patchAt mem region (k + 1) = nextPatch mem region s.1.microcodeEntryPoint := by
      rw [patchAt, hop, ← patchAt, hat, Option.bind_some]
    rw [nextPatch, ← hentry] at hnext
    by_cases hagain : (scanBody mem cpu s.1).val.microcodeEntryPoint < region.microcodeEnd
    · have htest : scanAgain region
          ((scanBody mem cpu s.1).val, s.2 ++ (scanBody mem cpu s.1).trace) = true :=
        decide_eq_true hagain
      rw [if_pos hagain] at hnext
      obtain ⟨fuel, s', k', hs', hend, hnewest⟩ := ih
        (region.microcodeEnd - (scanBody mem cpu s.1).val.microcodeEntryPoint) (by omega)
        (s := ((scanBody mem cpu s.1).val, s.2 ++ (scanBody mem cpu s.1).trace)) hnext hround rfl
      exact ⟨fuel + 1, s', k', (doWhile_of_again hbody htest).trans hs', hend, hnewest⟩
    · have htest : scanAgain region
          ((scanBody mem cpu s.1).val, s.2 ++ (scanBody mem cpu s.1).trace) = false :=
        decide_eq_false hagain
      rw [if_neg hagain] at hnext
      exact ⟨1, _, k + 1, doWhile_of_last hbody htest, hnext, hround⟩

/-- Of two newest patches neither is later. -/
theorem IsNewest.unique {applicable : ℕ → Prop} {n n' patch patch' : ℕ}
    (h : IsNewest mem region applicable n patch) (h' : IsNewest mem region applicable n' patch') :
    patch = patch' := by
  have hnot : ∀ {n n' patch patch'}, IsNewest mem region applicable n patch →
      IsNewest mem region applicable n' patch' → ¬ n < n' := by
    intro n n' patch patch' h h' hlt
    exact Nat.not_le.2 (h'.lt n hlt patch h.visited h.holds) (h.le n' patch' h'.visited h'.holds)
  have hn : n = n' := Nat.le_antisymm (Nat.le_of_not_lt (hnot h' h)) (Nat.le_of_not_lt (hnot h h'))
  subst hn
  exact Option.some.inj (h.visited.symm.trans h'.visited)

/-- What the scan has when there are no more patches is what is to be recorded. -/
theorem recordsNewest_of_newestBefore {k : ℕ} (hend : patchAt mem region k = none)
    (h : NewestBefore mem cpu region k s) (currentSignature : BitVec 32) :
    RecordsNewest mem cpu region (Applicable mem cpu) (recordMicrocode currentSignature s) := by
  have hall : ∀ m patch, patchAt mem region m = some patch → m < k := by
    intro m patch hpatch
    by_contra hge
    have hnone := hop_eq_none_of_le (Nat.le_of_not_lt hge) hend
    rw [← patchAt, hpatch] at hnone
    cases hnone
  intro info
  by_cases hzero : s.latestRevision = 0
  · have hrecord : (recordMicrocode currentSignature s).capability = none := by
      rw [recordMicrocode, hzero, if_neg (by decide)]
    rw [hrecord]
    refine iff_of_false (fun hnone ↦ by cases hnone) ?_
    rintro ⟨n, patch, hnewest, -⟩
    have hle := h.le n (hall n patch hnewest.visited) patch hnewest.visited hnewest.holds
    rw [hzero] at hle
    exact hnewest.ne_zero (BitVec.le_zero_iff.1 hle)
  · obtain ⟨n, -, patch, hpatch, hfor, hrevision, hinfo, hfirst⟩ := h.newest hzero
    have hpos : 0 < s.latestRevision := by
      rw [BitVec.lt_def]
      exact Nat.pos_of_ne_zero fun hnat ↦ hzero (BitVec.eq_of_toNat_eq hnat)
    have hrecord : (recordMicrocode currentSignature s).capability =
        some (infoOf mem cpu patch) := by
      rw [recordMicrocode, if_pos hpos]
      split <;> exact hinfo
    have hnewest : IsNewest mem region (Applicable mem cpu) n patch :=
      ⟨hpatch, hfor, hrevision ▸ hzero, fun m other hother happlicable ↦
        hrevision ▸ h.le m (hall m other hother) other hother happlicable, hfirst⟩
    rw [hrecord]
    constructor
    · intro hsome
      exact ⟨n, patch, hnewest, (Option.some.inj hsome).symm⟩
    · rintro ⟨n', patch', hnewest', rfl⟩
      rw [hnewest.unique hnewest']

/-- **The patch that `MicrocodeDetect` records.** -/
theorem selectsNewest (hregion : 0 < region.regionSize) (hwf : WellFormedRegion mem region)
    (currentSignature : BitVec 32) :
    SelectsNewest mem cpu region currentSignature (Applicable mem cpu) := by
  have hsizes : ∀ n patch, patchAt mem region n = some patch → patchSize mem patch ≠ 0 := by
    intro n patch hpatch
    by_cases hversion : headerVersion mem patch = 1
    · exact (hwf n patch hpatch hversion).ne_zero
    · rw [patchSize, if_neg hversion]
      decide
  have hfirst : patchAt mem region 0 = some region.mMicrocodePatchAddress :=
    if_pos (Nat.lt_add_of_pos_right hregion)
  obtain ⟨rounds, s', k, hscan, hend, hnewest⟩ := newestBefore_scan (s := scanStart region) hsizes
    hfirst ⟨fun m hm ↦ absurd hm (Nat.not_lt_zero m), fun hne ↦ absurd rfl hne⟩
  refine ⟨rounds, fun fuel hfuel ↦ ⟨recordMicrocode currentSignature s'.1, ?_,
    recordsNewest_of_newestBefore hend hnewest currentSignature⟩⟩
  rw [microcodeDetect, microcodeScan, doWhile_mono hfuel hscan, Option.map_some]

/-! ### One patch of 1 KB -/

/-- The doublewords of a patch of revision 1 for a processor with the signature 0x50654, with that
checksum and with an extended signature table whose only entry names the same processor. -/
def patchDword (checksum : BitVec 32) (i : ℕ) : BitVec 32 :=
  if i = 0 ∨ i = 1 ∨ i = 6 ∨ i = 248 ∨ i = 254 then 1
  else if i = 3 ∨ i = 253 then 0x50654
  else if i = 4 then checksum
  else if i = 7 then 0x3B0
  else if i = 8 then 0x400
  else if i = 249 then 0xFFFFFFFF
  else if i = 255 then 0xFFFAF9AB
  else 0

/-- The memory with the patch. -/
def patchMemory (checksum : BitVec 32) (address : ℕ) : BitVec 8 :=
  (patchDword checksum ((address - 0xFF8C0000) / 4)).extractLsb' (8 * (address % 4)) 8

/-- The region that the patch takes up, or that is empty. -/
def patchRegion (regionSize : ℕ) : MicrocodeRegion := ⟨0xFF8C0000, regionSize⟩

/-- The processor. -/
def skylake : ProcessorIdentity := ⟨0x50654, 0⟩

theorem dword_patchMemory (checksum : BitVec 32) :
    headerVersion (patchMemory checksum) 0xFF8C0000 = 1 ∧
      dataSize (patchMemory checksum) 0xFF8C0000 = 0x3B0 ∧
      totalSize (patchMemory checksum) 0xFF8C0000 = 0x400 := by
  refine ⟨?_, ?_, ?_⟩ <;> simp [headerVersion, dataSize, totalSize, dword, patchMemory, patchDword]

theorem patchSize_patchMemory (checksum : BitVec 32) :
    patchSize (patchMemory checksum) 0xFF8C0000 = 0x400 := by
  obtain ⟨hversion, hdata, htotal⟩ := dword_patchMemory checksum
  rw [patchSize, if_pos hversion, hdata, if_neg (by decide), htotal]
  rfl

/-- There is one patch in the region. -/
theorem patchAt_patchRegion {checksum : BitVec 32} {n patch : ℕ}
    (h : patchAt (patchMemory checksum) (patchRegion 0x400) n = some patch) :
    patch = 0xFF8C0000 := by
  have hnext : nextPatch (patchMemory checksum) (patchRegion 0x400) 0xFF8C0000 = none := by
    rw [nextPatch, patchSize_patchMemory]
    exact if_neg (by decide)
  have hsecond : patchAt (patchMemory checksum) (patchRegion 0x400) 1 = none := hnext
  cases n with
  | zero => exact (Option.some.inj h).symm
  | succ n =>
    have hnone := hop_eq_none_of_le (Nat.succ_le_succ (Nat.zero_le n)) hsecond
    rw [← patchAt, h] at hnone
    cases hnone

theorem wellFormedRegion_patchRegion (checksum : BitVec 32) :
    WellFormedRegion (patchMemory checksum) (patchRegion 0x400) := by
  intro n patch hpatch _
  obtain ⟨-, hdata, htotal⟩ := dword_patchMemory checksum
  rw [patchAt_patchRegion hpatch]
  refine ⟨?_, ?_, fun _ ↦ ?_, ?_⟩
  · rw [patchSize_patchMemory]
    decide
  · rw [patchSize_patchMemory]
  · rw [hdata, htotal]
    decide
  · rw [patchSize_patchMemory]
    decide

/-- The patch with the right checksum is recorded. -/
theorem selectsNewest_patchRegion :
    SelectsNewest (patchMemory 0xFFFAF1F9) skylake (patchRegion 0x400) 0
      (Applicable (patchMemory 0xFFFAF1F9) skylake) :=
  selectsNewest (by decide) (wellFormedRegion_patchRegion _) 0

theorem microcodeDetect_mono {fuel fuel' : ℕ} (hle : fuel ≤ fuel') {currentSignature : BitVec 32}
    {result : DetectResult}
    (h : microcodeDetect mem cpu region currentSignature fuel = some result) :
    microcodeDetect mem cpu region currentSignature fuel' = some result := by
  obtain ⟨s', hs', hresult⟩ := Option.map_eq_some_iff.1 h
  rw [microcodeDetect, microcodeScan, doWhile_mono hle hs', Option.map_some, hresult]

/-- Whether something is recorded, from a single run. -/
theorem isSome_of_selectsNewest {applicable : ℕ → Prop} {currentSignature : BitVec 32} {fuel : ℕ}
    {recorded : Bool} (h : SelectsNewest mem cpu region currentSignature applicable)
    (hrun : (microcodeDetect mem cpu region currentSignature fuel).map
      (fun result ↦ result.capability.isSome) = some recorded) :
    recorded = true ↔ ∃ n patch, IsNewest mem region applicable n patch := by
  obtain ⟨rounds, hrounds⟩ := h
  obtain ⟨result, hresult, hrecords⟩ := hrounds (max rounds fuel) (Nat.le_max_left _ _)
  obtain ⟨result', hresult', rfl⟩ := Option.map_eq_some_iff.1 hrun
  have hmono := microcodeDetect_mono (Nat.le_max_right rounds fuel) hresult'
  rw [hresult] at hmono
  cases hmono
  rw [Option.isSome_iff_exists]
  constructor
  · rintro ⟨info, hinfo⟩
    obtain ⟨n, patch, hnewest, -⟩ := (hrecords info).1 hinfo
    exact ⟨n, patch, hnewest⟩
  · rintro ⟨n, patch, hnewest⟩
    exact ⟨_, (hrecords _).2 ⟨n, patch, hnewest, rfl⟩⟩

/-- The extended signature table names the processor. -/
theorem applicableByEither_patchMemory :
    ApplicableByEither (patchMemory 0) skylake 0xFF8C0000 := by
  obtain ⟨hversion, hdata, htotal⟩ := dword_patchMemory 0
  have hheader : extendedTableHeader (patchMemory 0) 0xFF8C0000 = 0xFF8C03E0 := by
    rw [extendedTableHeader, hdata]
    rfl
  have hlength : extendedTableLength (patchMemory 0) 0xFF8C0000 = 0x20 := by
    rw [extendedTableLength, hdata, htotal]
    rfl
  refine ⟨hversion, .inr ⟨by rw [hdata]; decide, ?_⟩⟩
  rw [hheader, hlength]
  have htable : (checksum32Verify (patchMemory 0) 0xFF8C03E0 8).val = true := by decide +kernel
  have hentry : (checksum32Verify (patchMemory 0) 0xFF8C03F4 3).val = true := by decide +kernel
  exact ⟨by decide, by decide, htable, 0, by decide +kernel, hentry, by decide +kernel,
    by decide +kernel⟩

/-- The patch with a wrong checksum is not, although its extended signature table names the processor;
and when the region is empty, the right one is, although it is not in the region. -/
theorem not_selectsNewest_patchRegion :
    (¬ ∀ (mem : ℕ → BitVec 8) (cpu : ProcessorIdentity) (region : MicrocodeRegion)
        (currentSignature : BitVec 32), 0 < region.regionSize → WellFormedRegion mem region →
          SelectsNewest mem cpu region currentSignature (ApplicableByEither mem cpu)) ∧
      ¬ ∀ (mem : ℕ → BitVec 8) (cpu : ProcessorIdentity) (region : MicrocodeRegion)
        (currentSignature : BitVec 32), WellFormedRegion mem region →
          SelectsNewest mem cpu region currentSignature (Applicable mem cpu) := by
  refine ⟨fun hall ↦ ?_, fun hall ↦ ?_⟩
  · have hrun : (microcodeDetect (patchMemory 0) skylake (patchRegion 0x400) 0 1).map
        (fun result ↦ result.capability.isSome) = some false := by decide +kernel
    have hnone := isSome_of_selectsNewest
      (hall (patchMemory 0) skylake (patchRegion 0x400) 0 (by decide)
        (wellFormedRegion_patchRegion 0)) hrun
    refine Bool.false_ne_true (hnone.2 ⟨0, 0xFF8C0000, rfl, applicableByEither_patchMemory, ?_,
      fun m other hother _ ↦ ?_, fun m hm ↦ absurd hm (Nat.not_lt_zero m)⟩)
    · decide +kernel
    · rw [patchAt_patchRegion hother]
      exact BitVec.le_refl _
  · have hempty : ∀ n, patchAt (patchMemory 0xFFFAF1F9) (patchRegion 0) n = none :=
      fun n ↦ hop_none n
    have hrun : (microcodeDetect (patchMemory 0xFFFAF1F9) skylake (patchRegion 0) 0 1).map
        (fun result ↦ result.capability.isSome) = some true := by decide +kernel
    have hwf : WellFormedRegion (patchMemory 0xFFFAF1F9) (patchRegion 0) := by
      intro n patch hpatch
      rw [hempty] at hpatch
      cases hpatch
    obtain ⟨n, patch, hnewest⟩ := (isSome_of_selectsNewest (hall _ skylake _ 0 hwf) hrun).1 rfl
    have hvisited := hnewest.visited
    rw [hempty] at hvisited
    cases hvisited

end PurleyFirmware.CpuMp
