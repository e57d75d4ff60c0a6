import PurleyFirmware.Mtrr.SetAttribute
import Mathlib.Algebra.Order.Ring.Nat
import Mathlib.Data.Nat.Log

/-!
# What an error leaves behind

`MtrrSetMemoryAttributeInMtrrSettings` with a request that ends in an error. The variable registers
are programmed only when nothing can go wrong any more, so they are as they were. The fixed ones are
programmed piece by piece, and a later piece, or the rest of the request, may be refused: then the
earlier pieces stay. `mtrrSetMemoryAttribute_error` says that this is all that an error leaves behind.

The pieces are followed through two loops. `BytesSet` is the invariant of the one in
`ProgramFixedMtrr`, over the bytes of a register, and `PiecesSet` that of the other, over the
registers.
-/

namespace PurleyFirmware.Mtrr

variable {P : MtrrPlatform} {s s' : MtrrSettings} {base length : BitVec 64}

/-! ### Bytes of a fixed register -/

/-- A byte of a fixed register. -/
def fixedByte (register : BitVec 64) (k : ℕ) : BitVec 8 := register.extractLsb' (8 * k) 8

/-- The first address that a byte is for. -/
def byteAddress (i k : ℕ) : ℕ :=
  (mMtrrLibFixedMtrrTable i).baseAddress.toNat + k * (mMtrrLibFixedMtrrTable i).length.toNat

/-- All addresses that a byte is for lie in the range. -/
def ByteInRange (base length : BitVec 64) (i k : ℕ) : Prop :=
  base.toNat ≤ byteAddress i k ∧ byteAddress i (k + 1) ≤ base.toNat + length.toNat

/-- **What an error may leave behind.** -/
structure KeptOnError (s s' : MtrrSettings) (base length : BitVec 64)
    (attributes : MtrrMemoryCacheType) : Prop where
  /-- The variable registers are as they were. -/
  variableMtrr : s'.variableMtrr = s.variableMtrr
  /-- So is everything, unless the request starts below 1 MB with a piece that can be set. -/
  unchanged : (base1Mb ≤ base ∨
    ∃ status, programFixedMtrr attributes.value base length = .error status) → s' = s
  /-- Otherwise the fixed registers may have been enabled, ... -/
  mtrrDefType : s'.mtrrDefType = s.mtrrDefType ∨
    s'.mtrrDefType = s.mtrrDefType ||| mtrrLibCacheFixedMtrrEnabled
  /-- ... and bytes for addresses in the range may have the new type. -/
  fixed : ∀ i, ∀ k < 8, fixedByte (s'.fixed i) k = fixedByte (s.fixed i) k ∨
    (ByteInRange base length i k ∧ fixedByte (s'.fixed i) k = attributes.value.setWidth 8)

/-! ### The bytes that one call of ProgramFixedMtrr sets -/

theorem value_getLsbD (attributes : MtrrMemoryCacheType) {j : ℕ} (hj : 8 ≤ j) :
    attributes.value.getLsbD j = false := by
  have hbyte : attributes.value = (attributes.value.setWidth 8).setWidth 64 := by
    cases attributes <;> rfl
  rw [hbyte, BitVec.getLsbD_setWidth, BitVec.getLsbD_of_ge _ _ hj, Bool.and_false]

/-- A bit of a value in the byte `b`. -/
theorem getLsbD_shiftByte {value : BitVec 64} (hvalue : ∀ j, 8 ≤ j → value.getLsbD j = false)
    {b j : ℕ} (hj : j < 64) :
    (value <<< (8 * b)).getLsbD j = (decide (j / 8 = b) && value.getLsbD (j % 8)) := by
  rw [BitVec.getLsbD_shiftLeft, decide_eq_true hj, Bool.true_and]
  by_cases hb : j / 8 = b
  · have hlow : ¬ j < 8 * b := by omega
    have hsub : j - 8 * b = j % 8 := by omega
    rw [decide_eq_true hb, decide_eq_false hlow, hsub]
    rfl
  · rw [decide_eq_false hb, Bool.false_and]
    by_cases hlow : j < 8 * b
    · rw [decide_eq_true hlow]
      rfl
    · rw [hvalue _ (by omega), Bool.and_false]

/-- **In the loop of ProgramFixedMtrr**, which has set the bytes from `first` on: the masks, and the
range that is left. -/
structure BytesSet (value : BitVec 64) (i first : ℕ) (base length : BitVec 64) (b : FixedBytes) :
    Prop where
  first_le : first ≤ b.byteShift
  le : b.byteShift ≤ 8
  clearMask : ∀ j < 64, b.clearMask.getLsbD j = decide (first ≤ j / 8 ∧ j / 8 < b.byteShift)
  orMask : ∀ j < 64, b.orMask.getLsbD j =
    (decide (first ≤ j / 8 ∧ j / 8 < b.byteShift) && value.getLsbD (j % 8))
  base_eq : b.base.toNat = byteAddress i b.byteShift
  length_eq : b.base.toNat + b.length.toNat = base.toNat + length.toNat

/-- The bytes set are joined by the next one. -/
theorem decide_or_decide {first n k : ℕ} (h : first ≤ n) :
    (decide (first ≤ k ∧ k < n) || decide (k = n)) = decide (first ≤ k ∧ k < n + 1) := by
  rw [← Bool.decide_or]
  exact decide_eq_decide.2 (by omega)

theorem byteAddress_succ (i k : ℕ) :
    byteAddress i (k + 1) = byteAddress i k + (mMtrrLibFixedMtrrTable i).length.toNat := by
  rw [byteAddress, byteAddress, Nat.succ_mul]
  omega

/-- The registers of the table follow each other, up to 1 MB. -/
theorem fixedMtrrTable_spec : ∀ i < mtrrNumberOfFixedMtrr,
    byteAddress i 8 ≤ 0x100000 ∧ 0 < (mMtrrLibFixedMtrrTable i).length.toNat ∧
      (i + 1 < mtrrNumberOfFixedMtrr → byteAddress i 8 = byteAddress (i + 1) 0) ∧
      (i + 1 = mtrrNumberOfFixedMtrr → byteAddress i 8 = 0x100000) := by
  decide

theorem byteAddress_le {i k : ℕ} (hi : i < mtrrNumberOfFixedMtrr) (hk : k ≤ 8) :
    byteAddress i k ≤ 0x100000 := by
  have hlast := (fixedMtrrTable_spec i hi).1
  have hmul := Nat.mul_le_mul_right (mMtrrLibFixedMtrrTable i).length.toNat hk
  unfold byteAddress at hlast ⊢
  omega

/-- No address of the table wraps around. -/
theorem toNat_byteAddress : ∀ i < mtrrNumberOfFixedMtrr, ∀ k < 9,
    ((mMtrrLibFixedMtrrTable i).baseAddress +
      BitVec.ofNat 64 k * (mMtrrLibFixedMtrrTable i).length).toNat = byteAddress i k := by
  decide

theorem bytesSet_programBytes {value : BitVec 64}
    (hvalue : ∀ j, 8 ≤ j → value.getLsbD j = false) {i first n : ℕ}
    (hi : i < mtrrNumberOfFixedMtrr) {b : FixedBytes}
    (h : BytesSet value i first base length b) (hn : b.byteShift + n = 8) :
    BytesSet value i first base length
      (programBytes value (mMtrrLibFixedMtrrTable i).length n b) := by
  induction n generalizing b with
  | zero => exact h
  | succ n ih =>
    rw [programBytes]
    split
    · rename_i hsize
      have hsize : (mMtrrLibFixedMtrrTable i).length.toNat ≤ b.length.toNat := hsize
      have hnext := byteAddress_succ i b.byteShift
      have hmega := byteAddress_le hi (k := b.byteShift + 1) (by omega)
      have hsum := h.length_eq
      have hbase := h.base_eq
      have hbase' : (b.base + (mMtrrLibFixedMtrrTable i).length).toNat =
          byteAddress i (b.byteShift + 1) := by
        rw [BitVec.toNat_add, Nat.mod_eq_of_lt (by omega)]
        omega
      refine ih ⟨Nat.le_succ_of_le h.first_le, by dsimp only; omega, fun j hj ↦ ?_, fun j hj ↦ ?_,
        hbase', ?_⟩ (by dsimp only; omega)
      · have hones : ∀ j, 8 ≤ j → (0xFF#64).getLsbD j = false := by
          intro j hj
          have hbyte : 0xFF#64 = (BitVec.allOnes 8).setWidth 64 := rfl
          rw [hbyte, BitVec.getLsbD_setWidth, BitVec.getLsbD_of_ge _ _ hj, Bool.and_false]
        have hone : (0xFF#64).getLsbD (j % 8) = true := by
          have hlt : j % 8 < 8 := Nat.mod_lt _ (by decide)
          generalize j % 8 = k at hlt
          revert k
          decide
        rw [BitVec.getLsbD_or, h.clearMask j hj, getLsbD_shiftByte hones hj, hone, Bool.and_true,
          decide_or_decide h.first_le]
      · rw [BitVec.getLsbD_or, h.orMask j hj, getLsbD_shiftByte hvalue hj,
          ← Bool.and_or_distrib_right, decide_or_decide h.first_le]
      · dsimp only
        rw [hbase', BitVec.toNat_sub_of_le hsize]
        omega
    · exact h

/-- The register of an address. -/
theorem fixedMtrrOf_spec {i : ℕ} (h : fixedMtrrOf base = some i) :
    i < mtrrNumberOfFixedMtrr ∧ InFixedMtrr base i := by
  have hin := List.find?_some h
  exact ⟨List.mem_range.1 (List.mem_of_find?_eq_some h), of_decide_eq_true hin⟩

/-- The only error of `ProgramFixedMtrr`. -/
theorem programFixedMtrr_error {memoryCacheType : BitVec 64} {status : EfiStatus}
    (h : programFixedMtrr memoryCacheType base length = .error status) : status = .unsupported := by
  unfold programFixedMtrr at h
  split at h
  · cases h
    rfl
  · dsimp only at h
    split at h
    · cases h
      rfl
    · split at h
      · cases h
        rfl
      · cases h

/-- **A piece.** What a call of `ProgramFixedMtrr` that succeeds returns: some bytes of the register
of the first address are set, up to its last one unless the range ends before. -/
theorem programFixedMtrr_spec {attributes : MtrrMemoryCacheType} {i : ℕ} {b : FixedBytes}
    (h : programFixedMtrr attributes.value base length = .ok (i, b)) :
    fixedMtrrOf base = some i ∧ i < mtrrNumberOfFixedMtrr ∧
      ∃ first, byteAddress i first = base.toNat ∧
        BytesSet attributes.value i first base length b ∧ (b.byteShift < 8 → b.length = 0) := by
  unfold programFixedMtrr at h
  cases hregister : fixedMtrrOf base with
  | none =>
    rw [hregister] at h
    cases h
  | some msrNum =>
    rw [hregister] at h
    dsimp only at h
    have hi := (fixedMtrrOf_spec hregister).1
    generalize hfind : (List.range 8).find? (fun byteShift ↦
      base = (mMtrrLibFixedMtrrTable msrNum).baseAddress +
        BitVec.ofNat 64 byteShift * (mMtrrLibFixedMtrrTable msrNum).length) = found at h
    cases found with
    | none => cases h
    | some first =>
      dsimp only at h
      split at h
      · cases h
      · rename_i hend
        cases h
        have hfirst : first < 8 := List.mem_range.1 (List.mem_of_find?_eq_some hfind)
        have hbase := List.find?_some hfind
        rw [decide_eq_true_iff] at hbase
        have haddress : byteAddress i first = base.toNat := by
          rw [hbase, toNat_byteAddress i hi first (Nat.lt_succ_of_lt hfirst)]
        have hnone : ∀ j : ℕ, ¬ (first ≤ j ∧ j < first) := fun j hj ↦
          Nat.not_lt.2 hj.1 hj.2
        refine ⟨rfl, hi, first, haddress, ?_, fun hlt ↦ ?_⟩
        · refine bytesSet_programBytes (fun _ ↦ value_getLsbD attributes) hi
            ⟨Nat.le_refl _, Nat.le_of_lt hfirst, fun j _ ↦ ?_, fun j _ ↦ ?_, haddress.symm, rfl⟩
            (by dsimp only; omega)
          · rw [decide_eq_false (hnone _)]
            exact BitVec.getLsbD_zero
          · rw [decide_eq_false (hnone _), Bool.false_and]
            exact BitVec.getLsbD_zero
        · by_contra hne
          exact hend ⟨hlt, hne⟩

/-- What a piece makes of a byte of its register. -/
theorem fixedByte_write {value : BitVec 64} {i first k : ℕ} {b : FixedBytes}
    (h : BytesSet value i first base length b) (hk : k < 8) (register : BitVec 64) :
    fixedByte (register &&& ~~~b.clearMask ||| b.orMask) k =
      if first ≤ k ∧ k < b.byteShift then value.setWidth 8 else fixedByte register k := by
  apply BitVec.eq_of_getLsbD_eq
  intro j hj
  have hlt : 8 * k + j < 64 := by omega
  have hdiv : (8 * k + j) / 8 = k := by omega
  have hmod : (8 * k + j) % 8 = j := by omega
  rw [fixedByte, BitVec.getLsbD_extractLsb', BitVec.getLsbD_or, BitVec.getLsbD_and,
    BitVec.getLsbD_not, h.clearMask _ hlt, h.orMask _ hlt, hdiv, hmod]
  by_cases hset : first ≤ k ∧ k < b.byteShift
  · rw [if_pos hset, decide_eq_true hset, BitVec.getLsbD_setWidth]
    simp [hj]
  · rw [if_neg hset, decide_eq_false hset, fixedByte, BitVec.getLsbD_extractLsb']
    simp [hj, hlt]

/-! ### The pieces -/

/-- **In the loop over the fixed registers**: what is left of the request, and what was written. -/
structure PiecesSet (s : MtrrSettings) (base length : BitVec 64) (attributes : MtrrMemoryCacheType)
    (p : SetProgress) : Prop where
  base_le : base.toNat ≤ p.base.toNat
  length_eq : p.base.toNat + p.length.toNat = base.toNat + length.toNat
  variableMtrr : p.settings.variableMtrr = s.variableMtrr
  mtrrDefType : p.settings.mtrrDefType = s.mtrrDefType ∨
    p.settings.mtrrDefType = s.mtrrDefType ||| mtrrLibCacheFixedMtrrEnabled
  fixed : ∀ i, ∀ k < 8, fixedByte (p.settings.fixed i) k = fixedByte (s.fixed i) k ∨
    (ByteInRange base length i k ∧
      fixedByte (p.settings.fixed i) k = attributes.value.setWidth 8)

theorem piecesSet_start (s : MtrrSettings) (base length : BitVec 64)
    (attributes : MtrrMemoryCacheType) : PiecesSet s base length attributes ⟨base, length, s⟩ :=
  ⟨Nat.le_refl _, rfl, rfl, .inl rfl, fun _ _ _ ↦ .inl rfl⟩

theorem byteAddress_mono {i k l : ℕ} (h : k ≤ l) : byteAddress i k ≤ byteAddress i l :=
  Nat.add_le_add_left (Nat.mul_le_mul_right _ h) _

/-- A piece keeps the invariant. -/
theorem PiecesSet.writeFixed {attributes : MtrrMemoryCacheType} {p : SetProgress}
    (h : PiecesSet s base length attributes p) {i : ℕ} {b : FixedBytes}
    (hb : programFixedMtrr attributes.value p.base p.length = .ok (i, b)) :
    PiecesSet s base length attributes ⟨b.base, b.length, p.settings.writeFixed i b⟩ := by
  obtain ⟨-, -, first, hfirst, hset, -⟩ := programFixedMtrr_spec hb
  have hbase := h.base_le
  have hsum := h.length_eq
  have hsum' := hset.length_eq
  have hmono := byteAddress_mono (i := i) hset.first_le
  have hbase' := hset.base_eq
  refine ⟨by dsimp only; omega, by dsimp only; omega, h.variableMtrr, .inr ?_, fun j k hk ↦ ?_⟩
  · rcases h.mtrrDefType with hold | hold
    · rw [MtrrSettings.writeFixed, hold]
    · rw [MtrrSettings.writeFixed, hold, BitVec.or_assoc, BitVec.or_self]
  · by_cases hj : j = i
    · subst hj
      dsimp only [MtrrSettings.writeFixed]
      rw [Function.update_self, fixedByte_write hset hk]
      by_cases hin : first ≤ k ∧ k < b.byteShift
      · rw [if_pos hin]
        have hlow := byteAddress_mono (i := j) hin.1
        have hhigh := byteAddress_mono (i := j) (k := k + 1) hin.2
        exact .inr ⟨⟨by omega, by omega⟩, rfl⟩
      · rw [if_neg hin]
        exact h.fixed j k hk
    · dsimp only [MtrrSettings.writeFixed]
      rw [Function.update_of_ne hj]
      exact h.fixed j k hk

/-- **The loop keeps it.** -/
theorem PiecesSet.programFixed {attributes : MtrrMemoryCacheType} {n : ℕ} {p : SetProgress}
    (h : PiecesSet s base length attributes p) :
    PiecesSet s base length attributes (programFixed attributes.value n p).2 := by
  induction n generalizing p with
  | zero => exact h
  | succ n ih =>
    rw [Mtrr.programFixed]
    split
    · cases hb : programFixedMtrr attributes.value p.base p.length with
      | error status => exact h
      | ok piece => exact ih (h.writeFixed hb)
    · exact h

theorem inFixedMtrr_iff {i : ℕ} (hi : i < mtrrNumberOfFixedMtrr) :
    InFixedMtrr base i ↔ byteAddress i 0 ≤ base.toNat ∧ base.toNat < byteAddress i 8 := by
  have hlast := toNat_byteAddress i hi 8 (by decide)
  rw [← hlast, byteAddress, Nat.zero_mul]
  rfl

/-- Every address of the first megabyte has a register. -/
theorem exists_fixedMtrrOf (h : base < base1Mb) : ∃ i, fixedMtrrOf base = some i := by
  have hlt : base.toNat < 0x100000 := h
  rw [← Option.isSome_iff_exists, Option.isSome_iff_ne_none]
  intro hnone
  have hnot : ∀ i < mtrrNumberOfFixedMtrr, ¬ InFixedMtrr base i := by
    intro i hi
    have := List.find?_eq_none.1 hnone i (List.mem_range.2 hi)
    rwa [decide_eq_true_iff] at this
  -- then the address is above one register after the other
  have habove : ∀ i < mtrrNumberOfFixedMtrr, byteAddress i 8 ≤ base.toNat := by
    intro i hi
    induction i with
    | zero =>
      have := hnot 0 hi
      rw [inFixedMtrr_iff hi] at this
      exact Nat.not_lt.1 fun hbelow ↦ this ⟨Nat.zero_le _, hbelow⟩
    | succ i ih =>
      have hprevious := ih (Nat.lt_of_succ_lt hi)
      rw [(fixedMtrrTable_spec i (Nat.lt_of_succ_lt hi)).2.2.1 hi] at hprevious
      have := hnot (i + 1) hi
      rw [inFixedMtrr_iff hi] at this
      exact Nat.not_lt.1 fun hbelow ↦ this ⟨hprevious, hbelow⟩
  have hend := (fixedMtrrTable_spec 10 (by decide)).2.2.2 rfl
  have := habove 10 (by decide)
  omega

/-- The registers are in the order of their addresses. -/
theorem byteAddress_le_of_le : ∀ i < mtrrNumberOfFixedMtrr, ∀ j < i + 1,
    byteAddress j 8 ≤ byteAddress i 8 := by
  decide

/-- The loop is over above 1 MB, and when nothing is left. -/
theorem programFixed_of_stop {memoryCacheType : BitVec 64} {p : SetProgress}
    (h : ¬ (p.base < base1Mb ∧ p.length ≠ 0)) (n : ℕ) :
    programFixed memoryCacheType n p = (.success, p) := by
  cases n with
  | zero => rfl
  | succ n => rw [programFixed, if_neg h]

/-- **Eleven rounds are enough**: the loop ends with an error, above 1 MB or with nothing left. -/
theorem programFixed_ends {attributes : MtrrMemoryCacheType} {n : ℕ} {p : SetProgress}
    (hrounds : ∀ i, fixedMtrrOf p.base = some i → mtrrNumberOfFixedMtrr ≤ n + i)
    (hsuccess : (programFixed attributes.value n p).1 = .success) :
    base1Mb ≤ (programFixed attributes.value n p).2.base ∨
      (programFixed attributes.value n p).2.length = 0 := by
  induction n generalizing p with
  | zero =>
    rw [programFixed]
    by_cases hlow : p.base < base1Mb
    · obtain ⟨i, hi⟩ := exists_fixedMtrrOf hlow
      exact absurd (fixedMtrrOf_spec hi).1 (Nat.not_lt.2 (by have := hrounds i hi; omega))
    · exact .inl (BitVec.not_lt.1 hlow)
  | succ n ih =>
    rw [programFixed] at hsuccess ⊢
    split
    · rename_i hgo
      rw [if_pos hgo] at hsuccess
      cases hb : programFixedMtrr attributes.value p.base p.length with
      | error status =>
        rw [hb] at hsuccess
        have herror : status = .unsupported := programFixedMtrr_error hb
        rw [herror] at hsuccess
        exact absurd hsuccess (by simp)
      | ok piece =>
        rw [hb] at hsuccess
        obtain ⟨hregister, hi, first, hfirst, hset, hrest⟩ := programFixedMtrr_spec hb
        have hleft := hrounds _ hregister
        by_cases hlast : piece.2.byteShift = 8
        · -- the register is full, and the next one begins where it ends
          refine ih (fun j hj ↦ ?_) hsuccess
          have hend := hset.base_eq
          rw [hlast] at hend
          obtain ⟨hjlt, hjin⟩ := fixedMtrrOf_spec hj
          rw [inFixedMtrr_iff hjlt] at hjin
          dsimp only at hjin
          have hnext : piece.1 < j := by
            by_contra hle
            have := byteAddress_le_of_le _ hi j (by omega)
            omega
          omega
        · -- the range ends within the register
          have hzero := hrest (Nat.lt_of_le_of_ne hset.le hlast)
          dsimp only
          rw [programFixed_of_stop fun hmore ↦ hmore.2 hzero]
          exact .inr hzero
    · rename_i hstop
      rw [not_and_or, Decidable.not_not] at hstop
      exact hstop.imp_left BitVec.not_lt.1

theorem programFixed_start_ends {attributes : MtrrMemoryCacheType}
    (hsuccess : (programFixed attributes.value mtrrNumberOfFixedMtrr ⟨base, length, s⟩).1 =
      .success) :
    base1Mb ≤ (programFixed attributes.value mtrrNumberOfFixedMtrr ⟨base, length, s⟩).2.base ∨
      (programFixed attributes.value mtrrNumberOfFixedMtrr ⟨base, length, s⟩).2.length = 0 :=
  programFixed_ends (fun _ _ ↦ Nat.le_add_right _ _) hsuccess

/-! ### The whole function -/

/-- The variable registers are checked before they are programmed. -/
theorem setVariables_error {rounds : ℕ} {attributes : MtrrMemoryCacheType} {p : SetProgress}
    {status : EfiStatus} (h : setVariables P rounds attributes p = some (status, s'))
    (herror : status.isError = true) : s' = p.settings := by
  unfold setVariables at h
  dsimp only at h
  obtain ⟨mapped, -, h⟩ := Option.bind_eq_some_iff.1 h
  split at h
  · cases h
    cases herror
  split at h
  · -- the request conflicts with the registers it overlaps
    cases h
    rfl
  split at h
  · cases h
    cases herror
  split at h
  · cases h
    cases herror
  obtain ⟨⟨mtrrNumber, positive⟩, -, h⟩ := Option.bind_eq_some_iff.1 h
  dsimp only at h
  split at h
  · -- there are not enough free registers
    cases h
    rfl
  obtain ⟨variableMtrr, -, h⟩ := Option.bind_eq_some_iff.1 h
  cases h
  cases herror

theorem KeptOnError.refl (s : MtrrSettings) (base length : BitVec 64)
    (attributes : MtrrMemoryCacheType) : KeptOnError s s base length attributes :=
  ⟨rfl, fun _ ↦ rfl, .inl rfl, fun _ _ _ ↦ .inl rfl⟩

/-- What was set before an error. -/
theorem keptOnError_programFixed (s : MtrrSettings) (base length : BitVec 64)
    (attributes : MtrrMemoryCacheType) :
    KeptOnError s (programFixed attributes.value mtrrNumberOfFixedMtrr ⟨base, length, s⟩).2.settings
      base length attributes := by
  have h := (piecesSet_start s base length attributes).programFixed (n := mtrrNumberOfFixedMtrr)
  refine ⟨h.variableMtrr, fun hrefused ↦ ?_, h.mtrrDefType, h.fixed⟩
  rcases hrefused with hhigh | ⟨status, hfirst⟩
  · rw [programFixed_of_stop fun hgo ↦ absurd hgo.1 (BitVec.not_lt.2 hhigh)]
  · rw [show mtrrNumberOfFixedMtrr = 10 + 1 from rfl, programFixed, hfirst]
    split <;> rfl

/-- The registers are not enabled after an error. -/
theorem setDone_error {status status' : EfiStatus} (h : setDone status' s = (status, s'))
    (herror : status.isError = true) : status' = status ∧ s' = s := by
  obtain ⟨rfl, rfl⟩ := Prod.mk.inj h
  exact ⟨rfl, if_pos herror⟩

/-- **An error** leaves the variable registers alone, and everything if the request starts above
1 MB or its first piece is refused. Otherwise it may leave the pieces that were set. -/
theorem mtrrSetMemoryAttribute_error {rounds : ℕ} {s s' : MtrrSettings} {base length : BitVec 64}
    {attributes : MtrrMemoryCacheType} {status : EfiStatus}
    (h : mtrrSetMemoryAttributeInMtrrSettings P rounds s base length attributes =
      some (status, s'))
    (herror : status.isError = true) : KeptOnError s s' base length attributes := by
  have hpieces := keptOnError_programFixed s base length attributes
  unfold mtrrSetMemoryAttributeInMtrrSettings mtrrSetMemoryAttributeWorker at h
  have hrejected : ∀ status', some (setDone status' s) = some (status, s') →
      KeptOnError s s' base length attributes := by
    intro status' hdone
    obtain ⟨-, rfl⟩ := setDone_error (Option.some.inj hdone) herror
    exact KeptOnError.refl _ _ _ _
  split at h
  · exact hrejected _ h
  split at h
  · exact hrejected _ h
  split at h
  · exact hrejected _ h
  dsimp only at h
  split at h
  · obtain ⟨-, rfl⟩ := setDone_error (Option.some.inj h) herror
    exact hpieces
  split at h
  · obtain ⟨-, rfl⟩ := setDone_error (Option.some.inj h) herror
    exact hpieces
  obtain ⟨⟨status', t⟩, hset, hdone⟩ := Option.map_eq_some_iff.1 h
  obtain ⟨rfl, rfl⟩ := setDone_error hdone herror
  rw [setVariables_error hset herror]
  exact hpieces

/-! ### A piece that stays -/

/-- A processor with ten variable registers and 46 address bits. -/
def tenRegisters : MtrrPlatform where
  mtrrSupported := true
  mtrrCap := 0x50A
  pcdCpuNumberOfReservedVariableMtrrs := 2
  maxExtendedFunction := 0x80000008
  physicalAddressBits := 46
  physicalAddressBits_le := by decide

/-- Everything is uncacheable. -/
def uncacheable : MtrrSettings := ⟨fun _ ↦ 0, fun _ ↦ ⟨0, 0⟩, 0xC00⟩

/-- 516 KB are asked for. The last 4 KB are no multiple of the 16 KB of the second register. -/
theorem mtrrSetMemoryAttribute_516Kb :
    (mtrrSetMemoryAttributeInMtrrSettings tenRegisters 1 uncacheable 0 0x81000
      .cacheWriteBack).map (fun r ↦ (r.1, r.2.fixed 0)) =
        some (.unsupported, 0x0606060606060606) := by
  decide +kernel

/-- The request for 516 KB is refused, and the first 512 KB are write-back. -/
theorem mtrrSetMemoryAttribute_error_changes :
    ¬ ∀ (P : MtrrPlatform) (rounds : ℕ) (s s' : MtrrSettings) (base length : BitVec 64)
      (attributes : MtrrMemoryCacheType) (status : EfiStatus),
      mtrrSetMemoryAttributeInMtrrSettings P rounds s base length attributes = some (status, s') →
        status.isError = true → s' = s := by
  intro hatomic
  obtain ⟨⟨status, s'⟩, hrun, hresult⟩ := Option.map_eq_some_iff.1 mtrrSetMemoryAttribute_516Kb
  obtain ⟨rfl, hfixed⟩ := Prod.mk.inj hresult
  have hsame := hatomic _ _ _ _ _ _ _ _ hrun rfl
  dsimp only at hfixed
  rw [hsame] at hfixed
  revert hfixed
  decide

/-- What stays of it lies in the range. -/
theorem mtrrSetMemoryAttribute_error_516Kb :
    ∃ s', mtrrSetMemoryAttributeInMtrrSettings tenRegisters 1 uncacheable 0 0x81000
        .cacheWriteBack = some (.unsupported, s') ∧
      KeptOnError uncacheable s' 0 0x81000 .cacheWriteBack := by
  obtain ⟨⟨status, s'⟩, hrun, hresult⟩ := Option.map_eq_some_iff.1 mtrrSetMemoryAttribute_516Kb
  obtain ⟨rfl, -⟩ := Prod.mk.inj hresult
  exact ⟨s', hrun, mtrrSetMemoryAttribute_error hrun rfl⟩

end PurleyFirmware.Mtrr
