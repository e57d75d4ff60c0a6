import PurleyFirmware.CpuMp.ApicId
import Mathlib.Data.Nat.Find

/-!
# Processor numbering

What `SortApicId` and `AssignPackageBsp` do to the records. The sort is right on all inputs
(`numbered_records`): one permutation for all arrays, ascending effective APIC IDs, and the BSP under
its number. The marks of `AssignPackageBsp` are put where the package changes from one number to the
next, so they are right exactly if the numbers of a package follow one another (`numbering_iff`).

The order is that of the *effective* APIC IDs and the packages are those of the *hardware's*. Without
a reassignment of socket IDs an APIC ID has its package in the top bits, and a package is an interval.
A reassignment may give two packages one new socket ID, as long as no two new APIC IDs are equal, and
then their processors may alternate.
-/

namespace PurleyFirmware.CpuMp

variable {P : ApicPlatform} {R : ProcessorRecords}

/-! ### What the new APIC IDs come to -/

/-- Whether the reassignment is in force in the end. -/
def reassigns (P : ApicPlatform) (R : ProcessorRecords) : Bool :=
  P.socketIdReassignmentSupported && P.socketIdReassignmentConfigured &&
    (decide (P.socketIdInfo.length ≠ 0) && (decide (R.apCount ≠ 0) &&
      (List.range (R.apCount + 1)).all fun i ↦ (List.range i).all fun j ↦
        newApicIdOf P (R.apicId i) != newApicIdOf P (R.apicId j)))

/-- The APIC ID that a processor is known by in the end. -/
def effectiveIdOf (P : ApicPlatform) (R : ProcessorRecords) (apicId : BitVec 32) : BitVec 32 :=
  if reassigns P R then newApicIdOf P apicId else apicId

/-- The state in which the sort begins. -/
def ProcessorRecords.constructed (P : ApicPlatform) (R : ProcessorRecords) : ApicState :=
  constructNewApicId P
    { R.initialState with numberOfProcessors := R.initialState.numberOfProcessors + R.apCount }

theorem reassigns_iff :
    reassigns P R = true ↔
      P.socketIdReassignmentSupported = true ∧ P.socketIdReassignmentConfigured = true ∧
        P.socketIdInfo.length ≠ 0 ∧ R.apCount ≠ 0 ∧
          ∀ i ≤ R.apCount, ∀ j < i, newApicIdOf P (R.apicId i) ≠ newApicIdOf P (R.apicId j) := by
  simp only [reassigns, Bool.and_eq_true, decide_eq_true_eq, List.all_eq_true, List.mem_range,
    bne_iff_ne, Nat.lt_succ_iff, and_assoc]

/-- The test for duplicates finds none: the index it compares is always the larger one. -/
theorem duplicateSocketId_eq_false : duplicateSocketId P = false := by
  rw [duplicateSocketId, List.any_eq_false]
  intro index1 _ h
  have hlt := of_decide_eq_true h
  exact absurd hlt (Nat.not_lt.2 (Nat.le_of_succ_le le_scanFrom))

/-- What the loop over the processors leaves, and when the flag is still set. -/
structure Constructed (P : ApicPlatform) (s t : ApicState) (k : ℕ) : Prop where
  apicId : t.apicId = s.apicId
  bist : t.bist = s.bist
  numberOfProcessors : t.numberOfProcessors = s.numberOfProcessors
  bspNumber : t.bspNumber = s.bspNumber
  enableX2Apic : t.enableX2Apic = s.enableX2Apic
  enable_iff : t.enableSocketIdReassignment = true ↔ s.enableSocketIdReassignment = true ∧
    ∀ i < k, ∀ j < i, newApicIdOf P (s.apicId i) ≠ newApicIdOf P (s.apicId j)
  newApicId : t.enableSocketIdReassignment = true →
    ∀ i < k, t.newApicId i = newApicIdOf P (s.apicId i)

theorem constructed_foldl (s : ApicState) (k : ℕ) :
    Constructed P s ((List.range k).foldl
      (fun s index1 ↦ if s.enableSocketIdReassignment then assignNewApicId P s index1 else s) s)
      k := by
  induction k with
  | zero =>
    exact ⟨rfl, rfl, rfl, rfl, rfl, ⟨fun h ↦ ⟨h, fun i hi ↦ absurd hi i.not_lt_zero⟩, And.left⟩,
      fun _ i hi ↦ absurd hi i.not_lt_zero⟩
  | succ k ih =>
    rw [List.range_succ, List.foldl_append, List.foldl_cons, List.foldl_nil]
    generalize (List.range k).foldl _ s = t at ih ⊢
    by_cases henable : t.enableSocketIdReassignment = true
    · rw [if_pos henable]
      obtain ⟨hs, hdistinct⟩ := ih.enable_iff.1 henable
      have hold := ih.newApicId henable
      -- the new ID of this processor, and those of the earlier ones, which it is compared with
      have hnew : ∀ i < k + 1, (assignNewApicId P t k).newApicId i = newApicIdOf P (s.apicId i) := by
        intro i hi
        rw [assignNewApicId]
        dsimp only
        rcases Nat.lt_or_eq_of_le (Nat.le_of_lt_succ hi) with hlt | rfl
        · rw [Function.update_of_ne (by omega), hold i hlt]
        · rw [Function.update_self, ih.apicId]
      have hflag : (assignNewApicId P t k).enableSocketIdReassignment = true ↔
          ∀ j < k, newApicIdOf P (s.apicId k) ≠ newApicIdOf P (s.apicId j) := by
        have hval : (assignNewApicId P t k).enableSocketIdReassignment
            = (t.enableSocketIdReassignment && !(List.range k).any fun index2 ↦
              (assignNewApicId P t k).newApicId k == (assignNewApicId P t k).newApicId index2) := rfl
        rw [hval, henable, Bool.true_and, Bool.not_eq_true', List.any_eq_false]
        simp only [List.mem_range, beq_iff_eq]
        refine forall₂_congr fun j hj ↦ not_congr ?_
        rw [hnew k (by omega), hnew j (by omega)]
      refine ⟨ih.apicId, ih.bist, ih.numberOfProcessors, ih.bspNumber, ih.enableX2Apic, ?_,
        fun _ ↦ hnew⟩
      rw [hflag]
      constructor
      · intro hk
        refine ⟨hs, fun i hi ↦ ?_⟩
        rcases Nat.lt_or_eq_of_le (Nat.le_of_lt_succ hi) with hlt | rfl
        · exact hdistinct i hlt
        · exact hk
      · exact fun h ↦ h.2 k (by omega)
    · rw [if_neg henable]
      refine ⟨ih.apicId, ih.bist, ih.numberOfProcessors, ih.bspNumber, ih.enableX2Apic,
        ⟨fun h ↦ absurd h henable, fun h ↦ absurd (ih.enable_iff.2 ⟨h.1, fun i hi ↦ ?_⟩) henable⟩,
        fun h ↦ absurd h henable⟩
      exact h.2 i (by omega)

/-- **The new APIC IDs.** -/
theorem constructed_spec (hap : R.apCount ≠ 0) :
    (R.constructed P).apicId = R.apicId ∧ (R.constructed P).bist = R.bist ∧
      (R.constructed P).numberOfProcessors = R.apCount + 1 ∧
      (R.constructed P).enableX2Apic = false ∧
      (R.constructed P).enableSocketIdReassignment = reassigns P R ∧
      (reassigns P R = true →
        ∀ i ≤ R.apCount, (R.constructed P).newApicId i = newApicIdOf P (R.apicId i)) := by
  rw [ProcessorRecords.constructed, constructNewApicId]
  by_cases hconfigured :
      (P.socketIdReassignmentSupported && P.socketIdReassignmentConfigured) = true
  · rw [if_pos hconfigured]
    rw [Bool.and_eq_true] at hconfigured
    dsimp only
    have hc := constructed_foldl (P := P)
      { R.initialState with
        numberOfProcessors := R.initialState.numberOfProcessors + R.apCount
        enableSocketIdReassignment := if P.socketIdInfo.length = 0 then
          R.initialState.enableSocketIdReassignment else !duplicateSocketId P }
      (R.initialState.numberOfProcessors + R.apCount)
    generalize (List.range (R.initialState.numberOfProcessors + R.apCount)).foldl _ _ = t at hc ⊢
    have hnumber : R.initialState.numberOfProcessors + R.apCount = R.apCount + 1 :=
      Nat.add_comm 1 R.apCount
    have hflag : t.enableSocketIdReassignment = true ↔ reassigns P R = true := by
      rw [hc.enable_iff, reassigns_iff, hnumber, duplicateSocketId_eq_false]
      simp only [hconfigured, hap, Nat.lt_succ_iff, ne_eq, not_false_eq_true, true_and,
        ProcessorRecords.initialState]
      refine and_congr_left fun _ ↦ ?_
      by_cases hlength : P.socketIdInfo.length = 0 <;> simp [hlength]
    refine ⟨hc.apicId, hc.bist, hc.numberOfProcessors.trans hnumber, hc.enableX2Apic,
      Bool.eq_iff_iff.2 hflag, fun hre i hi ↦ ?_⟩
    exact hc.newApicId (hflag.2 hre) i (by omega)
  · rw [if_neg hconfigured]
    have hre : reassigns P R = false := by
      rw [reassigns, Bool.eq_false_iff.2 hconfigured, Bool.false_and]
    refine ⟨rfl, rfl, Nat.add_comm 1 R.apCount, rfl, hre.symm, fun h ↦ ?_⟩
    rw [hre] at h
    cases h

/-! ### The sort -/

namespace ApicState

variable {s : ApicState}

/-- The records under other numbers: in all arrays, those of the reassignment where there are any. -/
def permute (s : ApicState) (π : Equiv.Perm ℕ) : ApicState :=
  { s with
    apicId := s.apicId ∘ π
    bist := s.bist ∘ π
    newApicId := if s.enableSocketIdReassignment then s.newApicId ∘ π else s.newApicId
    newSocketId := if s.enableSocketIdReassignment then s.newSocketId ∘ π else s.newSocketId
    socketIdAssigned :=
      if s.enableSocketIdReassignment then s.socketIdAssigned ∘ π else s.socketIdAssigned }

@[simp] theorem permute_refl : s.permute (Equiv.refl ℕ) = s := by
  simp [permute]

theorem permute_permute (π ρ : Equiv.Perm ℕ) :
    (s.permute π).permute ρ = s.permute (ρ.trans π) := by
  by_cases h : s.enableSocketIdReassignment = true
  · simp [permute, h, Function.comp_def]
  · simp [permute, h, Function.comp_def]

theorem effectiveApicId_permute (π : Equiv.Perm ℕ) :
    (s.permute π).effectiveApicId = s.effectiveApicId ∘ π := by
  by_cases h : s.enableSocketIdReassignment = true
  · simp [effectiveApicId, permute, h]
  · simp [effectiveApicId, permute, h]

/-- Two writes that exchange two elements of an array. -/
theorem update_update_eq_comp_swap {α : Type} (f : ℕ → α) (i j : ℕ) :
    Function.update (Function.update f j (f i)) i (f j) = f ∘ Equiv.swap i j := by
  funext k
  rcases eq_or_ne k i with rfl | hki
  · rw [Function.update_self, Function.comp_apply, Equiv.swap_apply_left]
  · rw [Function.update_of_ne hki]
    rcases eq_or_ne k j with rfl | hkj
    · rw [Function.update_self, Function.comp_apply, Equiv.swap_apply_right]
    · rw [Function.update_of_ne hkj, Function.comp_apply, Equiv.swap_apply_of_ne_of_ne hki hkj]

/-- The writes of a pass are one exchange in all arrays. -/
theorem exchange_eq (index1 index3 : ℕ) :
    s.exchange index1 index3 (s.effectiveApicId index3) = s.permute (Equiv.swap index1 index3) := by
  by_cases h : s.enableSocketIdReassignment = true
  · simp only [exchange, permute, effectiveApicId, h, if_true, update_update_eq_comp_swap]
  · simp only [exchange, permute, effectiveApicId, h, if_false, update_update_eq_comp_swap,
      Bool.false_eq_true]

/-- **A pass of the sort.** -/
theorem sortStep_eq (apCount index1 : ℕ) :
    sortStep apCount s index1
      = s.permute (Equiv.swap index1 (minIndex BitVec.toNat s.effectiveApicId index1 apCount)) := by
  have hfound : (scanMin BitVec.toNat s.effectiveApicId
      (List.range' (index1 + 1) (apCount - index1)) (index1, s.effectiveApicId index1)).2
        = s.effectiveApicId (scanMin BitVec.toNat s.effectiveApicId
          (List.range' (index1 + 1) (apCount - index1)) (index1, s.effectiveApicId index1)).1 :=
    (scanMin_mem s.effectiveApicId _ _ rfl).2
  rw [sortStep, hfound, exchange_eq]
  change (if minIndex BitVec.toNat s.effectiveApicId index1 apCount ≠ index1 then _ else s) = _
  by_cases hsame : minIndex BitVec.toNat s.effectiveApicId index1 apCount = index1
  · rw [if_neg (not_not.2 hsame), hsame, Equiv.swap_self, permute_refl]
  · rw [if_pos hsame]
    rfl

/-- **The sort.** -/
theorem foldl_sortStep (apCount k : ℕ) :
    (List.range k).foldl (sortStep apCount) s
      = s.permute (selectionPerm BitVec.toNat s.effectiveApicId apCount k) := by
  induction k with
  | zero => exact permute_refl.symm
  | succ k ih =>
    rw [List.range_succ, List.foldl_append, ih, List.foldl_cons, List.foldl_nil, sortStep_eq,
      permute_permute, effectiveApicId_permute, selectionPerm]

end ApicState

/-! ### The records after the sort -/

/-- The records, sorted: one permutation of the numbers for all arrays, in ascending order of the
effective APIC IDs. -/
structure RecordsSorted (P : ApicPlatform) (R : ProcessorRecords) (s : ApicState) : Prop where
  /-- One permutation for all. -/
  permuted : ∃ π : Equiv.Perm ℕ, (∀ i, π i ≤ R.apCount ↔ i ≤ R.apCount) ∧
    s.apicId = R.apicId ∘ π ∧ s.bist = R.bist ∘ π ∧
      (s.enableSocketIdReassignment = true →
        s.newApicId = (R.constructed P).newApicId ∘ π ∧
          s.newSocketId = (R.constructed P).newSocketId ∘ π ∧
            s.socketIdAssigned = (R.constructed P).socketIdAssigned ∘ π)
  /-- The order. -/
  ascending : ∀ i j, i ≤ j → j ≤ R.apCount →
    (s.effectiveApicId i).toNat ≤ (s.effectiveApicId j).toNat

/-- The rest of the state after the sort, and what the effective APIC IDs are. -/
structure RecordsState (P : ApicPlatform) (R : ProcessorRecords) (s : ApicState) : Prop where
  numberOfProcessors : s.numberOfProcessors = R.apCount + 1
  enableX2Apic : s.enableX2Apic = false
  enable : s.enableSocketIdReassignment = reassigns P R
  effective : ∀ i ≤ R.apCount, s.effectiveApicId i = effectiveIdOf P R (s.apicId i)

/-- The BSP's record is found wherever it is. -/
theorem findBsp_spec {s : ApicState} {initialApicId : BitVec 32} {n : ℕ}
    (hn : n < s.numberOfProcessors) (hid : s.apicId n = initialApicId) :
    (s.findBsp initialApicId).bspNumber < s.numberOfProcessors ∧
      s.apicId (s.findBsp initialApicId).bspNumber = initialApicId := by
  rw [ApicState.findBsp]
  dsimp only
  cases hfind : (List.range s.numberOfProcessors).find? fun index ↦
      s.apicId index == initialApicId with
  | none =>
    have hnone := List.find?_eq_none.1 hfind n (List.mem_range.2 hn)
    exact absurd (beq_iff_eq.2 hid) hnone
  | some index =>
    have hmem := List.mem_range.1 (List.mem_of_find?_eq_some hfind)
    have htest := List.find?_some hfind
    exact ⟨hmem, beq_iff_eq.1 htest⟩

/-- **The sort is right.** -/
theorem numbered_records (P : ApicPlatform) (R : ProcessorRecords) :
    RecordsSorted P R (sortApicId P R) ∧ RecordsState P R (sortApicId P R) ∧
      (sortApicId P R).bspNumber ≤ R.apCount ∧
        (sortApicId P R).apicId (sortApicId P R).bspNumber = R.apicId 0 := by
  by_cases hap : R.apCount = 0
  · have hre : reassigns P R = false := by
      rw [Bool.eq_false_iff]
      exact fun h ↦ (reassigns_iff.1 h).2.2.2.1 hap
    rw [sortApicId]
    dsimp only
    rw [if_neg (not_not.2 hap)]
    refine ⟨⟨⟨Equiv.refl ℕ, fun i ↦ Iff.rfl, rfl, rfl, fun h ↦ by cases h⟩, fun i j hij hj ↦ ?_⟩,
      ⟨by rw [hap]; rfl, rfl, hre.symm, fun i _ ↦ ?_⟩, Nat.zero_le _, rfl⟩
    · obtain rfl : i = j := by omega
      exact Nat.le_refl _
    · rw [effectiveIdOf, hre]
      rfl
  · obtain ⟨hapic, hbist, hnumber, hx2, henable, hnew⟩ := constructed_spec (P := P) hap
    have hsort : sortApicId P R = ((R.constructed P).permute (selectionPerm BitVec.toNat
        (R.constructed P).effectiveApicId R.apCount R.apCount)).findBsp (R.apicId 0) := by
      rw [sortApicId]
      dsimp only
      rw [if_pos hap]
      exact congrArg (ApicState.findBsp · (R.apicId 0)) (ApicState.foldl_sortStep _ _)
    rw [hsort]
    -- the permutation, and the effective APIC IDs that it sorts
    have hle : ∀ i, selectionPerm BitVec.toNat (R.constructed P).effectiveApicId
        R.apCount R.apCount i ≤ R.apCount ↔ i ≤ R.apCount :=
      fun i ↦ selectionPerm_le_iff (Nat.le_refl _)
    have hasc : ∀ i j, i ≤ j → j ≤ R.apCount →
        ((R.constructed P).effectiveApicId (selectionPerm BitVec.toNat
          (R.constructed P).effectiveApicId R.apCount R.apCount i)).toNat ≤
        ((R.constructed P).effectiveApicId (selectionPerm BitVec.toNat
          (R.constructed P).effectiveApicId R.apCount R.apCount j)).toNat :=
      fun i j hij hj ↦ selectionPerm_monotone hij hj
    generalize selectionPerm BitVec.toNat (R.constructed P).effectiveApicId R.apCount R.apCount = π
      at hle hasc ⊢
    have hapicπ : ((R.constructed P).permute π).apicId = R.apicId ∘ π := by
      rw [← hapic]
      rfl
    have hbistπ : ((R.constructed P).permute π).bist = R.bist ∘ π := by
      rw [← hbist]
      rfl
    obtain ⟨n, hn⟩ := π.surjective 0
    have hnle : n ≤ R.apCount := (hle n).1 (by rw [hn]; exact Nat.zero_le _)
    have hnlt : n < ((R.constructed P).permute π).numberOfProcessors :=
      lt_of_lt_of_eq (Nat.lt_succ_of_le hnle) hnumber.symm
    obtain ⟨hbsp, hbspId⟩ := findBsp_spec hnlt
      (show ((R.constructed P).permute π).apicId n = R.apicId 0 by
        rw [hapicπ, Function.comp_apply, hn])
    refine ⟨⟨⟨π, hle, hapicπ, hbistπ, fun h ↦ ?_⟩, fun i j hij hj ↦ ?_⟩,
      ⟨hnumber, hx2, henable, fun i hi ↦ ?_⟩, ?_, hbspId⟩
    · have hset : (R.constructed P).enableSocketIdReassignment = true := h
      refine ⟨if_pos hset, if_pos hset, if_pos hset⟩
    · change (((R.constructed P).permute π).effectiveApicId i).toNat ≤
        (((R.constructed P).permute π).effectiveApicId j).toNat
      rw [ApicState.effectiveApicId_permute]
      exact hasc i j hij hj
    · change ((R.constructed P).permute π).effectiveApicId i
        = effectiveIdOf P R (((R.constructed P).permute π).apicId i)
      rw [ApicState.effectiveApicId_permute, hapicπ, Function.comp_apply, Function.comp_apply,
        ApicState.effectiveApicId, effectiveIdOf, henable, hapic]
      by_cases hre : reassigns P R = true
      · rw [if_pos hre, if_pos hre, hnew hre _ ((hle i).2 hi)]
      · rw [if_neg hre, if_neg hre]
    · have hlt : _ < R.apCount + 1 := lt_of_lt_of_eq hbsp hnumber
      omega

/-! ### The marks -/

/-- The first processor is marked, and any other whose package is not that of the one before. -/
theorem assignPackageBsp_iff {s : ApicState} {i : ℕ} (hi : i < s.numberOfProcessors) :
    assignPackageBsp P s i = true ↔ i = 0 ∨ packageOf P s (i - 1) ≠ packageOf P s i := by
  -- after `k` rounds `PackageId` is the package of processor `k`
  have hrounds : ∀ k,
      ((List.range' 1 k).foldl (packageStep P s)
        (packageOf P s 0, Function.update (fun _ ↦ false) 0 true)).1 = packageOf P s k ∧
      ∀ i, ((List.range' 1 k).foldl (packageStep P s)
        (packageOf P s 0, Function.update (fun _ ↦ false) 0 true)).2 i = true ↔
          i = 0 ∨ i ≤ k ∧ packageOf P s (i - 1) ≠ packageOf P s i := by
    intro k
    induction k with
    | zero =>
      refine ⟨rfl, fun i ↦ ?_⟩
      change Function.update (fun _ ↦ false) 0 true i = true ↔ _
      rcases Nat.eq_zero_or_pos i with hzero | hpos
      · rw [hzero, Function.update_self]
        exact ⟨fun _ ↦ .inl rfl, fun _ ↦ rfl⟩
      · rw [Function.update_of_ne (by omega)]
        constructor
        · intro h
          exact absurd h Bool.false_ne_true
        · rintro (h | h)
          · omega
          · omega
    | succ k ih =>
      rw [List.range'_1_concat, List.foldl_append, List.foldl_cons, List.foldl_nil]
      generalize (List.range' 1 k).foldl _ _ = t at ih ⊢
      obtain ⟨hpackage, hmarks⟩ := ih
      rw [packageStep, Nat.add_comm 1 k, hpackage]
      by_cases hchange : packageOf P s k = packageOf P s (k + 1)
      · rw [if_neg (not_not.2 hchange)]
        refine ⟨hpackage.trans hchange, fun i ↦ (hmarks i).trans (or_congr_right ?_)⟩
        constructor
        · exact fun h ↦ ⟨by omega, h.2⟩
        · rintro ⟨hle, hne⟩
          refine ⟨?_, hne⟩
          rcases Nat.lt_or_eq_of_le hle with hlt | rfl
          · omega
          · exact absurd hchange hne
      · rw [if_pos hchange]
        refine ⟨rfl, fun i ↦ ?_⟩
        dsimp only
        rcases eq_or_ne i (k + 1) with rfl | hne
        · rw [Function.update_self]
          exact ⟨fun _ ↦ .inr ⟨Nat.le_refl _, hchange⟩, fun _ ↦ rfl⟩
        · rw [Function.update_of_ne hne, hmarks]
          exact or_congr_right ⟨fun h ↦ ⟨by omega, h.2⟩, fun h ↦ ⟨by omega, h.2⟩⟩
  rw [assignPackageBsp, (hrounds _).2]
  exact or_congr_right ⟨And.right, fun h ↦ ⟨by omega, h⟩⟩

/-- Processors with hardware APIC IDs of their own. -/
structure DistinctRecords extends ProcessorRecords where
  distinct : ∀ i ≤ apCount, ∀ j ≤ apCount, apicId i = apicId j → i = j

/-- The effective APIC IDs are then distinct: a reassignment that made two equal is not in force. -/
theorem effectiveIdOf_distinct (R : DistinctRecords) {i j : ℕ} (hi : i ≤ R.apCount)
    (hj : j ≤ R.apCount)
    (h : effectiveIdOf P R.toProcessorRecords (R.apicId i)
      = effectiveIdOf P R.toProcessorRecords (R.apicId j)) : i = j := by
  rw [effectiveIdOf, effectiveIdOf] at h
  by_cases hre : reassigns P R.toProcessorRecords = true
  · rw [if_pos hre, if_pos hre] at h
    have hnew := (reassigns_iff.1 hre).2.2.2.2
    rcases lt_trichotomy i j with hlt | heq | hlt
    · exact absurd h.symm (hnew j hj i hlt)
    · exact heq
    · exact absurd h (hnew i hi j hlt)
  · rw [if_neg hre, if_neg hre] at h
    exact R.distinct i hi j hj h

/-- Exactly one processor of each package is marked, the one with the least effective APIC ID. -/
structure LeadersMarked (P : ApicPlatform) (R : ProcessorRecords) (s : ApicState) : Prop where
  least : ∀ i ≤ R.apCount, assignPackageBsp P s i = true ↔
    ∀ j ≤ R.apCount, packageOf P s j = packageOf P s i →
      (s.effectiveApicId i).toNat ≤ (s.effectiveApicId j).toNat
  one : ∀ i ≤ R.apCount, ∃ j ≤ R.apCount, packageOf P s j = packageOf P s i ∧
    assignPackageBsp P s j = true ∧
      ∀ k ≤ R.apCount, packageOf P s k = packageOf P s i → assignPackageBsp P s k = true → k = j

/-- No processor has its effective APIC ID between those of two processors of another package. -/
def PackagesContiguous (P : ApicPlatform) (R : ProcessorRecords) : Prop :=
  ∀ a ≤ R.apCount, ∀ b ≤ R.apCount, ∀ c ≤ R.apCount,
    effectiveIdOf P R (R.apicId a) < effectiveIdOf P R (R.apicId b) →
    effectiveIdOf P R (R.apicId b) < effectiveIdOf P R (R.apicId c) →
    locationPackage P (R.apicId a) = locationPackage P (R.apicId c) →
      locationPackage P (R.apicId b) = locationPackage P (R.apicId a)

/-- After the sort, the effective APIC IDs go up from number to number. -/
theorem effectiveApicId_lt_iff (R : DistinctRecords) {i j : ℕ} (hi : i ≤ R.apCount)
    (hj : j ≤ R.apCount) :
    ((sortApicId P R.toProcessorRecords).effectiveApicId i).toNat
      < ((sortApicId P R.toProcessorRecords).effectiveApicId j).toNat ↔ i < j := by
  obtain ⟨hsorted, hstate, -⟩ := numbered_records P R.toProcessorRecords
  constructor
  · intro h
    by_contra hge
    exact absurd (hsorted.ascending j i (by omega) hi) (by omega)
  · intro h
    refine Nat.lt_of_le_of_ne (hsorted.ascending i j (by omega) hj) fun heq ↦ ?_
    obtain ⟨π, hπ, hapic, -⟩ := hsorted.permuted
    have hid := BitVec.eq_of_toNat_eq heq
    rw [hstate.effective i hi, hstate.effective j hj, hapic, Function.comp_apply,
      Function.comp_apply] at hid
    have := π.injective (effectiveIdOf_distinct R ((hπ i).2 hi) ((hπ j).2 hj) hid)
    omega

/-- The same of the sorted records. -/
theorem packagesContiguous_iff (R : DistinctRecords) :
    PackagesContiguous P R.toProcessorRecords ↔
      ∀ i j k, i < j → j < k → k ≤ R.apCount →
        packageOf P (sortApicId P R.toProcessorRecords) i
          = packageOf P (sortApicId P R.toProcessorRecords) k →
        packageOf P (sortApicId P R.toProcessorRecords) j
          = packageOf P (sortApicId P R.toProcessorRecords) i := by
  obtain ⟨hsorted, hstate, -⟩ := numbered_records P R.toProcessorRecords
  obtain ⟨π, hπ, hapic, -⟩ := hsorted.permuted
  have hpackage : ∀ i, packageOf P (sortApicId P R.toProcessorRecords) i
      = locationPackage P (R.apicId (π i)) := by
    intro i
    rw [packageOf, hapic, Function.comp_apply]
  have heffective : ∀ i ≤ R.apCount,
      (sortApicId P R.toProcessorRecords).effectiveApicId i
        = effectiveIdOf P R.toProcessorRecords (R.apicId (π i)) := by
    intro i hi
    rw [hstate.effective i hi, hapic, Function.comp_apply]
  simp only [hpackage]
  constructor
  · intro h i j k hij hjk hk heq
    have hi : i ≤ R.apCount := by omega
    have hj : j ≤ R.apCount := by omega
    refine h _ ((hπ i).2 hi) _ ((hπ j).2 hj) _ ((hπ k).2 hk) ?_ ?_ heq
    · rw [← heffective i hi, ← heffective j hj]
      exact (effectiveApicId_lt_iff R hi hj).2 hij
    · rw [← heffective j hj, ← heffective k hk]
      exact (effectiveApicId_lt_iff R hj hk).2 hjk
  · intro h a ha b hb c hc hab hbc heq
    obtain ⟨i, rfl⟩ := π.surjective a
    obtain ⟨j, rfl⟩ := π.surjective b
    obtain ⟨k, rfl⟩ := π.surjective c
    rw [hπ] at ha hb hc
    rw [← heffective i ha, ← heffective j hb] at hab
    rw [← heffective j hb, ← heffective k hc] at hbc
    exact h i j k ((effectiveApicId_lt_iff R ha hb).1 hab) ((effectiveApicId_lt_iff R hb hc).1 hbc)
      hc heq

/-- The marks are right exactly if the numbers of a package follow one another. -/
theorem leadersMarked_iff (R : DistinctRecords) :
    LeadersMarked P R.toProcessorRecords (sortApicId P R.toProcessorRecords) ↔
      PackagesContiguous P R.toProcessorRecords := by
  have hnumber := (numbered_records P R.toProcessorRecords).2.1.numberOfProcessors
  have hlt := fun {i j} ↦ effectiveApicId_lt_iff (P := P) R (i := i) (j := j)
  rw [packagesContiguous_iff]
  generalize sortApicId P R.toProcessorRecords = s at hnumber hlt ⊢
  have hmark : ∀ i ≤ R.apCount, assignPackageBsp P s i = true ↔
      i = 0 ∨ packageOf P s (i - 1) ≠ packageOf P s i :=
    fun i hi ↦ assignPackageBsp_iff (by omega)
  -- the least effective APIC ID of a package is that of its first number
  have hleast : ∀ i ≤ R.apCount, (∀ j ≤ R.apCount, packageOf P s j = packageOf P s i →
      (s.effectiveApicId i).toNat ≤ (s.effectiveApicId j).toNat) ↔
        ∀ j < i, packageOf P s j ≠ packageOf P s i := by
    intro i hi
    constructor
    · intro h j hj heq
      have hle := h j (by omega) heq
      have hless := (hlt (show j ≤ R.apCount by omega) hi).2 hj
      omega
    · intro h j hj heq
      by_contra hgt
      exact h j ((hlt hj hi).1 (by omega)) heq
  constructor
  · intro h i j k hij hjk hk heq
    by_contra hne
    -- the first number behind `j` at which the package of `i` comes again
    have hex : ∃ m, j < m ∧ packageOf P s m = packageOf P s i := ⟨k, hjk, heq.symm⟩
    classical
    obtain ⟨hjm, hm⟩ := Nat.find_spec hex
    have hmk : Nat.find hex ≤ k := Nat.find_min' hex ⟨hjk, heq.symm⟩
    have hprevious : packageOf P s (Nat.find hex - 1) ≠ packageOf P s (Nat.find hex) := by
      rw [hm]
      rcases Nat.eq_or_lt_of_le (Nat.le_sub_one_of_lt hjm) with hj | hj
      · rwa [← hj]
      · exact fun h ↦ Nat.find_min hex (by omega) ⟨hj, h⟩
    have hmarked := (hmark _ (by omega)).2 (.inr hprevious)
    have hfirst := (hleast _ (by omega)).1 ((h.least _ (by omega)).1 hmarked)
    exact hfirst i (by omega) hm.symm
  · intro h
    have hmarkFirst : ∀ i ≤ R.apCount, assignPackageBsp P s i = true ↔
        ∀ j < i, packageOf P s j ≠ packageOf P s i := by
      intro i hi
      rw [hmark i hi]
      constructor
      · rintro (rfl | hprevious) j hj heq
        · exact absurd hj j.not_lt_zero
        · rcases Nat.eq_or_lt_of_le (Nat.le_sub_one_of_lt hj) with rfl | hj'
          · exact hprevious heq
          · exact hprevious ((h j (i - 1) i hj' (by omega) hi heq).trans heq)
      · intro hfirst
        rcases Nat.eq_zero_or_pos i with rfl | hpos
        · exact .inl rfl
        · exact .inr (hfirst (i - 1) (by omega))
    refine ⟨fun i hi ↦ (hmarkFirst i hi).trans (hleast i hi).symm, fun i hi ↦ ?_⟩
    have hex : ∃ m, packageOf P s m = packageOf P s i := ⟨i, rfl⟩
    classical
    have hfind := Nat.find_spec hex
    have hle : Nat.find hex ≤ i := Nat.find_min' hex rfl
    refine ⟨Nat.find hex, by omega, hfind, (hmarkFirst _ (by omega)).2 fun j hj heq ↦ ?_,
      fun k hk hpackage hmarked ↦ ?_⟩
    · exact Nat.find_min hex hj (heq.trans hfind)
    · have hfirst := (hmarkFirst k hk).1 hmarked
      have hmin : Nat.find hex ≤ k := Nat.find_min' hex hpackage
      by_contra hne
      exact hfirst (Nat.find hex) (by omega) (hfind.trans hpackage.symm)

/-- Without a reassignment the packages are intervals. -/
theorem packagesContiguous_of_not_reassigns (h : reassigns P R = false) :
    PackagesContiguous P R := by
  have hid : ∀ id, effectiveIdOf P R id = id := fun id ↦ by
    rw [effectiveIdOf, h]
    rfl
  intro a _ b _ c _ hab hbc heq
  rw [hid, hid] at hab hbc
  rw [locationPackage, locationPackage] at heq ⊢
  by_cases hmulti : P.multiThread = true
  · rw [if_pos hmulti] at heq ⊢
    rw [if_pos hmulti] at heq ⊢
    have hval := congrArg BitVec.toNat heq
    rw [BitVec.toNat_ushiftRight, BitVec.toNat_ushiftRight, Nat.shiftRight_eq_div_pow,
      Nat.shiftRight_eq_div_pow] at hval
    refine BitVec.eq_of_toNat_eq ?_
    rw [BitVec.toNat_ushiftRight, BitVec.toNat_ushiftRight, Nat.shiftRight_eq_div_pow,
      Nat.shiftRight_eq_div_pow]
    have hlow := Nat.div_le_div_right (c := 2 ^ (P.threadBits + P.coreBits)) (Nat.le_of_lt hab)
    have hhigh := Nat.div_le_div_right (c := 2 ^ (P.threadBits + P.coreBits)) (Nat.le_of_lt hbc)
    omega
  · rw [if_neg hmulti, if_neg hmulti]

/-- **Processor numbering.** All but the marks is right on all inputs, and the marks are where no
processor has its effective APIC ID between those of two processors of another package. -/
theorem numbering_iff (P : ApicPlatform) (R : DistinctRecords) :
    (RecordsSorted P R.toProcessorRecords (sortApicId P R.toProcessorRecords) ∧
      ((sortApicId P R.toProcessorRecords).bspNumber ≤ R.apCount ∧
        (sortApicId P R.toProcessorRecords).apicId
          (sortApicId P R.toProcessorRecords).bspNumber = R.apicId 0) ∧
      LeadersMarked P R.toProcessorRecords (sortApicId P R.toProcessorRecords)) ↔
        PackagesContiguous P R.toProcessorRecords := by
  obtain ⟨hsorted, -, hbsp⟩ := numbered_records P R.toProcessorRecords
  rw [← leadersMarked_iff]
  exact ⟨fun h ↦ h.2.2, fun h ↦ ⟨hsorted, hbsp, h⟩⟩

/-! ### Packages that alternate -/

/-- Four bits of thread and core; socket 0 is to be socket 1, which is there already. -/
def sharedSocket : ApicPlatform where
  socketIdReassignmentSupported := true
  socketIdReassignmentConfigured := true
  socketIdInfo := [⟨0, 1⟩]
  multiThread := true
  threadBits := 1
  coreBits := 3
  x2ApicCapable := true
  x2ApicConfigured := false

/-- Two processors of each package, on other cores in the one than in the other. -/
def alternatingRecords : DistinctRecords where
  apCount := 3
  apicId := fun i ↦ if i = 0 then 0x00 else if i = 1 then 0x02 else if i = 2 then 0x11 else 0x13
  bist := fun _ ↦ 0
  newApicIdPool := fun _ ↦ 0
  newSocketIdPool := fun _ ↦ 0
  socketIdAssignedPool := fun _ ↦ false
  distinct := by decide

/-- Two processors of each package are then marked. -/
theorem not_numbered_alternatingRecords :
    ¬ (RecordsSorted sharedSocket alternatingRecords.toProcessorRecords
        (sortApicId sharedSocket alternatingRecords.toProcessorRecords) ∧
      ((sortApicId sharedSocket alternatingRecords.toProcessorRecords).bspNumber ≤ 3 ∧
        (sortApicId sharedSocket alternatingRecords.toProcessorRecords).apicId
          (sortApicId sharedSocket alternatingRecords.toProcessorRecords).bspNumber = 0) ∧
      LeadersMarked sharedSocket alternatingRecords.toProcessorRecords
        (sortApicId sharedSocket alternatingRecords.toProcessorRecords)) := by
  rintro ⟨-, -, h⟩
  have hcontiguous := (leadersMarked_iff alternatingRecords).1 h
  -- `0x11` lies between the new IDs `0x10` and `0x12` of `0x00` and `0x02`
  have hbetween := hcontiguous 0 (by decide) 2 (by decide) 1 (by decide) (by decide) (by decide)
    (by decide)
  exact absurd hbetween (by decide)

end PurleyFirmware.CpuMp
