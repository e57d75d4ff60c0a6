import PurleyFirmware.CpuMp.ApicNumbering

/-!
# The APIC mode

Whether the APIC IDs in use fit the mode that `CheckApicId` chooses. In xAPIC mode an APIC ID is a
byte other than 255, so `CheckApicId` looks for IDs from 255 on and for two that agree in their low
bytes. The second search is over the IDs in use and the first over the *hardware's*, so new APIC IDs
from 255 on are missed. `ConstructNewApicId` looks for duplicates in the table of socket IDs and never
finds any (`duplicateSocketId_eq_false`); that the new APIC IDs are distinct is tested apart.
-/

namespace PurleyFirmware.CpuMp

variable {P : ApicPlatform} {R : ProcessorRecords}

/-! ### Values that are pairwise distinct -/

/-- The values under the numbers up to `n` are distinct. -/
def DistinctUpTo {β : Type} (n : ℕ) (f : ℕ → β) : Prop := ∀ i ≤ n, ∀ j ≤ n, f i = f j → i = j

section

variable {β : Type} {n : ℕ} {f : ℕ → β}

theorem distinctUpTo_iff_lt : DistinctUpTo n f ↔ ∀ i j, i < j → j ≤ n → f i ≠ f j := by
  constructor
  · intro h i j hij hj heq
    have := h i (by omega) j hj heq
    omega
  · intro h i hi j hj heq
    rcases lt_trichotomy i j with hlt | rfl | hlt
    · exact absurd heq (h i j hlt hj)
    · rfl
    · exact absurd heq.symm (h j i hlt hi)

theorem DistinctUpTo.congr {g : ℕ → β} (hfg : ∀ i ≤ n, f i = g i) :
    DistinctUpTo n f ↔ DistinctUpTo n g := by
  refine forall₂_congr fun i hi ↦ forall₂_congr fun j hj ↦ ?_
  rw [hfg i hi, hfg j hj]

/-- Numbering the values otherwise makes no difference. -/
theorem DistinctUpTo.comp_perm {π : Equiv.Perm ℕ} (hπ : ∀ i, π i ≤ n ↔ i ≤ n) :
    DistinctUpTo n (f ∘ π) ↔ DistinctUpTo n f := by
  constructor
  · intro h i hi j hj heq
    obtain ⟨a, rfl⟩ := π.surjective i
    obtain ⟨b, rfl⟩ := π.surjective j
    rw [h a ((hπ a).1 hi) b ((hπ b).1 hj) heq]
  · intro h i hi j hj heq
    exact π.injective (h _ ((hπ i).2 hi) _ ((hπ j).2 hj) heq)

theorem forall_comp_perm {π : Equiv.Perm ℕ} (hπ : ∀ i, π i ≤ n ↔ i ≤ n) (p : β → Prop) :
    (∀ i ≤ n, p (f (π i))) ↔ ∀ i ≤ n, p (f i) := by
  constructor
  · intro h i hi
    obtain ⟨a, rfl⟩ := π.surjective i
    exact h a ((hπ a).1 hi)
  · exact fun h i hi ↦ h _ ((hπ i).2 hi)

end

/-! ### What CheckApicId finds -/

/-- The byte of an APIC ID that the local APIC has in xAPIC mode. -/
def legacyId (apicId : BitVec 32) : BitVec 8 := apicId.setWidth 8

/-- No pair is met exactly if the values are distinct. -/
theorem anyPair_eq_false_iff {β : Type} [BEq β] [LawfulBEq β] {f : ℕ → β} {n : ℕ} :
    anyPair (fun i j ↦ f i == f j) (n + 1) = false ↔ DistinctUpTo n f := by
  rw [distinctUpTo_iff_lt, ← Bool.not_eq_true, anyPair_iff]
  constructor
  · intro h i j hij hj heq
    exact h ⟨i, j, hij, Nat.lt_succ_of_le hj, beq_iff_eq.2 heq⟩
  · rintro h ⟨i, j, hij, hj, hsame⟩
    exact h i j hij (Nat.le_of_lt_succ hj) (beq_iff_eq.1 hsame)

/-- **xAPIC mode without an error.** -/
theorem checkApicId_eq_xApic_iff {s : ApicState} {n : ℕ} (hnumber : s.numberOfProcessors = n + 1)
    (hx2 : s.enableX2Apic = false) :
    (checkApicId P s).1 = .success ∧ (checkApicId P s).2 = false ↔
      ¬ (P.x2ApicCapable = true ∧ P.x2ApicConfigured = true) ∧
        (∀ i ≤ n, (s.apicId i).toNat < 255) ∧
          DistinctUpTo n fun i ↦ legacyId (s.effectiveApicId i) := by
  have hfound : ((List.range (n + 1)).any fun index1 ↦
      decide (255 ≤ (s.apicId index1).toNat)) = false ↔ ∀ i ≤ n, (s.apicId i).toNat < 255 := by
    rw [List.any_eq_false]
    simp only [List.mem_range, decide_eq_true_eq, Nat.not_le, Nat.lt_succ_iff]
  -- the search for equal low bytes is over the IDs in use, in both branches
  have hpair : (if s.enableSocketIdReassignment then
        anyPair (fun i j ↦ (s.newApicId i).setWidth 8 == (s.newApicId j).setWidth 8) (n + 1)
      else
        anyPair (fun i j ↦ (s.apicId i).setWidth 8 == (s.apicId j).setWidth 8) (n + 1)) = false ↔
      DistinctUpTo n fun i ↦ legacyId (s.effectiveApicId i) := by
    rw [ApicState.effectiveApicId]
    by_cases henable : s.enableSocketIdReassignment = true
    · rw [if_pos henable, if_pos henable]
      exact anyPair_eq_false_iff (f := fun i ↦ (s.newApicId i).setWidth 8)
    · rw [if_neg henable, if_neg henable]
      exact anyPair_eq_false_iff (f := fun i ↦ (s.apicId i).setWidth 8)
  rw [← hfound, ← hpair, checkApicId, hx2, hnumber, Bool.false_or]
  dsimp only
  by_cases hconfigured : (P.x2ApicCapable && P.x2ApicConfigured) = true
  · rw [if_pos hconfigured]
    rw [Bool.and_eq_true] at hconfigured
    exact ⟨fun h ↦ absurd h.2 Bool.noConfusion, fun h ↦ absurd hconfigured h.1⟩
  · rw [if_neg hconfigured]
    rw [Bool.and_eq_true] at hconfigured
    cases (List.range (n + 1)).any fun index1 ↦ decide (255 ≤ (s.apicId index1).toNat) with
    | true =>
      rw [if_pos rfl, if_pos rfl]
      refine ⟨fun h ↦ ?_, fun h ↦ absurd h.2.1 Bool.noConfusion⟩
      cases hcapable : P.x2ApicCapable <;> simp [hcapable] at h
    | false =>
      rw [if_neg Bool.false_ne_true]
      generalize (if s.enableSocketIdReassignment = true then _ else _) = conflict
      cases conflict with
      | true =>
        rw [if_pos rfl]
        refine ⟨fun h ↦ ?_, fun h ↦ absurd h.2.2 Bool.noConfusion⟩
        cases hcapable : P.x2ApicCapable <;> simp [hcapable] at h
      | false =>
        rw [if_neg Bool.false_ne_true]
        exact ⟨fun _ ↦ ⟨hconfigured, rfl, rfl⟩, fun _ ↦ ⟨rfl, rfl⟩⟩

/-! ### The mode is safe -/

/-- The table gives no socket two new IDs, and no two sockets one. -/
structure TableDistinct (P : ApicPlatform) : Prop where
  defaultSocketId : (P.socketIdInfo.map CpuSocketIdInfo.defaultSocketId).Nodup
  newSocketId : (P.socketIdInfo.map CpuSocketIdInfo.newSocketId).Nodup

/-- The APIC IDs in use fit the mode, and a reassignment is in force only if it is sound. -/
structure ApicModeSafe (P : ApicPlatform) (R : ProcessorRecords) (s : ApicState)
    (result : EfiStatus × Bool) : Prop where
  mode : result.1 = .success ∧ result.2 = false →
    (∀ i ≤ R.apCount, (s.effectiveApicId i).toNat < 255) ∧
      DistinctUpTo R.apCount fun i ↦ legacyId (s.effectiveApicId i)
  reassignment : s.enableSocketIdReassignment = true →
    TableDistinct P ∧ DistinctUpTo R.apCount s.effectiveApicId

/-- `CheckApicId` has no reason for x2APIC mode: it is not asked for, the hardware's APIC IDs are
below 255, and the new ones have distinct low bytes. -/
def XApicChosen (P : ApicPlatform) (R : ProcessorRecords) : Prop :=
  ¬ (P.x2ApicCapable = true ∧ P.x2ApicConfigured = true) ∧
    (∀ i ≤ R.apCount, (R.apicId i).toNat < 255) ∧
      DistinctUpTo R.apCount fun i ↦ legacyId (effectiveIdOf P R (R.apicId i))

/-- After the sort. -/
theorem xApicMode_iff :
    (checkApicId P (sortApicId P R)).1 = .success ∧ (checkApicId P (sortApicId P R)).2 = false ↔
      XApicChosen P R := by
  obtain ⟨hsorted, hstate, -⟩ := numbered_records P R
  obtain ⟨π, hπ, hapic, -⟩ := hsorted.permuted
  rw [checkApicId_eq_xApic_iff hstate.numberOfProcessors hstate.enableX2Apic, XApicChosen, hapic,
    ← DistinctUpTo.comp_perm hπ (f := fun i ↦ legacyId (effectiveIdOf P R (R.apicId i))),
    ← forall_comp_perm hπ (f := R.apicId) fun id ↦ id.toNat < 255]
  refine and_congr_right fun _ ↦ and_congr_right fun _ ↦ DistinctUpTo.congr fun i hi ↦ ?_
  rw [hstate.effective i hi, hapic]
  rfl

/-- The IDs in use, whatever their order. -/
theorem forall_effectiveApicId (p : BitVec 32 → Prop) :
    (∀ i ≤ R.apCount, p ((sortApicId P R).effectiveApicId i)) ↔
      ∀ i ≤ R.apCount, p (effectiveIdOf P R (R.apicId i)) := by
  obtain ⟨hsorted, hstate, -⟩ := numbered_records P R
  obtain ⟨π, hπ, hapic, -⟩ := hsorted.permuted
  rw [← forall_comp_perm hπ (f := fun i ↦ effectiveIdOf P R (R.apicId i)) p]
  refine forall₂_congr fun i hi ↦ ?_
  rw [hstate.effective i hi, hapic, Function.comp_apply]

/-- A reassignment that is in force makes no two APIC IDs equal. -/
theorem distinct_of_reassigns (h : reassigns P R = true) :
    DistinctUpTo R.apCount (sortApicId P R).effectiveApicId := by
  obtain ⟨hsorted, hstate, -⟩ := numbered_records P R
  obtain ⟨π, hπ, hapic, -⟩ := hsorted.permuted
  have hnew : DistinctUpTo R.apCount fun i ↦ effectiveIdOf P R (R.apicId i) := by
    rw [distinctUpTo_iff_lt]
    intro i j hij hj heq
    rw [effectiveIdOf, effectiveIdOf, if_pos h, if_pos h] at heq
    exact (reassigns_iff.1 h).2.2.2.2 j hj i hij heq.symm
  refine (DistinctUpTo.congr fun i hi ↦ ?_).1 ((DistinctUpTo.comp_perm hπ).2 hnew)
  rw [hstate.effective i hi, hapic]
  rfl

/-- What the mode needs of a reassignment. -/
def ReassignmentSound (P : ApicPlatform) (R : ProcessorRecords) : Prop :=
  reassigns P R = true → TableDistinct P ∧
    (XApicChosen P R → ∀ i ≤ R.apCount, (newApicIdOf P (R.apicId i)).toNat < 255)

theorem apicModeSafe_sortApicId_iff :
    ApicModeSafe P R (sortApicId P R) (checkApicId P (sortApicId P R)) ↔
      ReassignmentSound P R := by
  have hflag := (numbered_records P R).2.1.enable
  have hlegacy : XApicChosen P R →
      DistinctUpTo R.apCount fun i ↦ legacyId ((sortApicId P R).effectiveApicId i) := by
    intro hx
    have hstate := (numbered_records P R).2.1
    exact ((checkApicId_eq_xApic_iff hstate.numberOfProcessors hstate.enableX2Apic).1
      (xApicMode_iff.2 hx)).2.2
  constructor
  · intro h hre
    refine ⟨(h.reassignment (hflag.trans hre)).1, fun hx ↦ ?_⟩
    have hbelow := (forall_effectiveApicId fun id ↦ id.toNat < 255).1 (h.mode (xApicMode_iff.2 hx)).1
    intro i hi
    have := hbelow i hi
    rwa [effectiveIdOf, if_pos hre] at this
  · intro h
    refine ⟨fun hmode ↦ ?_, fun henable ↦ ?_⟩
    · have hx := xApicMode_iff.1 hmode
      refine ⟨(forall_effectiveApicId fun id ↦ id.toNat < 255).2 fun i hi ↦ ?_, hlegacy hx⟩
      rw [effectiveIdOf]
      by_cases hre : reassigns P R = true
      · rw [if_pos hre]
        exact (h hre).2 hx i hi
      · rw [if_neg hre]
        exact hx.2.1 i hi
    · have hre := hflag.symm.trans henable
      exact ⟨(h hre).1, distinct_of_reassigns hre⟩

/-- **The APIC mode.** It fits the APIC IDs in use exactly if a reassignment in force has a table
without duplicates, and no new APIC ID from 255 on where xAPIC mode is chosen. -/
theorem apicModeSafe_iff (P : ApicPlatform) (R : ProcessorRecords) :
    ApicModeSafe P R (sortApicId P R) (checkApicId P (sortApicId P R)) ↔
      (reassigns P R = true → TableDistinct P ∧
        (XApicChosen P R → ∀ i ≤ R.apCount, (newApicIdOf P (R.apicId i)).toNat < 255)) :=
  apicModeSafe_sortApicId_iff

/-! ### A new socket ID that is too large -/

/-- Five bits of thread and core, and socket 0 is to be socket `0x3F8`. -/
def largeSocketId : ApicPlatform where
  socketIdReassignmentSupported := true
  socketIdReassignmentConfigured := true
  socketIdInfo := [⟨0, 0x3F8⟩]
  multiThread := true
  threadBits := 1
  coreBits := 4
  x2ApicCapable := true
  x2ApicConfigured := false

/-- The two threads of a core. -/
def twoThreads : ProcessorRecords where
  apCount := 1
  apicId := fun i ↦ if i = 0 then 0 else 1
  bist := fun _ ↦ 0
  newApicIdPool := fun _ ↦ 0
  newSocketIdPool := fun _ ↦ 0
  socketIdAssignedPool := fun _ ↦ false

/-- They are `0x7F00` and `0x7F01` in xAPIC mode. -/
theorem not_apicModeSafe_largeSocketId :
    ¬ ApicModeSafe largeSocketId twoThreads (sortApicId largeSocketId twoThreads)
      (checkApicId largeSocketId (sortApicId largeSocketId twoThreads)) := by
  rw [apicModeSafe_sortApicId_iff]
  intro h
  have hchosen : XApicChosen largeSocketId twoThreads :=
    ⟨by decide, by decide, by unfold DistinctUpTo; decide⟩
  exact absurd ((h (by decide)).2 hchosen 0 (by decide)) (by decide)

end PurleyFirmware.CpuMp
