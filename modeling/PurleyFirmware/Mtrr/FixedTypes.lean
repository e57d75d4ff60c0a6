import PurleyFirmware.Mtrr.ErrorReturns
import PurleyFirmware.Mtrr.Precedence

/-!
# The first megabyte after a request

`ProgramFixedMtrr` is called for one fixed register after another, until the request is done or 1 MB
is reached. When no call has failed, the bytes for all addresses of the request that have been
passed hold its type (`PiecesWritten`), and the fixed registers are enabled. The other bytes are as
they were (`PiecesSet`).
-/

namespace PurleyFirmware.Mtrr

variable {P : MtrrPlatform} {s : MtrrSettings} {base length : BitVec 64}
  {attributes : MtrrMemoryCacheType}

/-! ### The byte of an address -/

/-- The addresses of a byte come before all bytes that start behind its first one. -/
theorem byteAddress_succ_le {i j k l : ℕ} (hi : i < mtrrNumberOfFixedMtrr)
    (hj : j < mtrrNumberOfFixedMtrr) (hk : k < 8) (hl : l ≤ 8)
    (h : byteAddress i k < byteAddress j l) : byteAddress i (k + 1) ≤ byteAddress j l := by
  rcases Nat.lt_trichotomy i j with hlt | rfl | hgt
  · have hprevious := fixedMtrrTable_spec i hi
    have horder := byteAddress_le_of_le (j - 1) (by omega) i (by omega)
    have hnext := (fixedMtrrTable_spec (j - 1) (by omega)).2.2.1 (by omega)
    rw [Nat.sub_add_cancel (by omega)] at hnext
    have hfirst := byteAddress_mono (i := i) (show k + 1 ≤ 8 from hk)
    have hlast := byteAddress_mono (i := j) (Nat.zero_le l)
    omega
  · refine byteAddress_mono (Nat.succ_le_of_lt (Nat.lt_of_not_le fun hle ↦ ?_))
    have hmono := byteAddress_mono (i := i) hle
    omega
  · have horder := byteAddress_le_of_le (i - 1) (by omega) j (by omega)
    have hnext := (fixedMtrrTable_spec (i - 1) (by omega)).2.2.1 (by omega)
    rw [Nat.sub_add_cancel (by omega)] at hnext
    have hfirst := byteAddress_mono (i := i) (Nat.zero_le k)
    have hlast := byteAddress_mono (i := j) hl
    omega

/-- Every address of the first megabyte has a byte, which holds its type while the fixed registers
are enabled. -/
theorem exists_fixedByte {a : BitVec 64} (ha : a < base1Mb) :
    ∃ i < mtrrNumberOfFixedMtrr, ∃ k < 8, byteAddress i k ≤ a.toNat ∧
      a.toNat < byteAddress i (k + 1) ∧ ∀ s : MtrrSettings,
        s.mtrrDefType &&& mtrrLibCacheMtrrEnabled ≠ 0 →
        s.mtrrDefType &&& mtrrLibCacheFixedMtrrEnabled ≠ 0 →
        mtrrGetMemoryAttributeByAddressWorker P s a =
          getMemoryCacheTypeFromMtrrType s ((fixedByte (s.fixed i) k).setWidth 64) := by
  obtain ⟨i, hregister⟩ := exists_fixedMtrrOf ha
  obtain ⟨hi, hin⟩ := fixedMtrrOf_spec hregister
  rw [inFixedMtrr_iff hi, byteAddress, byteAddress, Nat.zero_mul] at hin
  obtain ⟨hlow, hhigh⟩ := hin
  have hpos := (fixedMtrrTable_spec i hi).2.1
  have hindex : ((a - (mMtrrLibFixedMtrrTable i).baseAddress) /
      (mMtrrLibFixedMtrrTable i).length).toNat
        = (a.toNat - (mMtrrLibFixedMtrrTable i).baseAddress.toNat) /
          (mMtrrLibFixedMtrrTable i).length.toNat := by
    rw [BitVec.toNat_udiv, BitVec.toNat_sub_of_le (BitVec.le_def.2 hlow)]
  have hmul := Nat.div_mul_le_self (a.toNat - (mMtrrLibFixedMtrrTable i).baseAddress.toNat)
    (mMtrrLibFixedMtrrTable i).length.toNat
  have hnext := Nat.lt_div_mul_add hpos
    (a := a.toNat - (mMtrrLibFixedMtrrTable i).baseAddress.toNat)
  refine ⟨i, hi, (a.toNat - (mMtrrLibFixedMtrrTable i).baseAddress.toNat) /
    (mMtrrLibFixedMtrrTable i).length.toNat, Nat.div_lt_of_lt_mul (by omega), ?_, ?_, ?_⟩
  · rw [byteAddress]
    omega
  · rw [byteAddress, Nat.succ_mul]
    omega
  · intro s henabled hfixed
    have hbyte (register : BitVec 64) (k : ℕ) :
        register >>> (8 * k) &&& 0xFF = (fixedByte register k).setWidth 64 := by
      refine BitVec.eq_of_getLsbD_eq fun j hj ↦ ?_
      have hmask : ∀ j < 64, (0xFF : BitVec 64).getLsbD j = decide (j < 8) := by decide
      rw [BitVec.getLsbD_and, hmask j hj, BitVec.getLsbD_ushiftRight, BitVec.getLsbD_setWidth,
        fixedByte, BitVec.getLsbD_extractLsb', decide_eq_true hj, Bool.true_and, Bool.and_comm]
    rw [mtrrGetMemoryAttributeByAddressWorker, if_neg henabled, if_pos ⟨ha, hfixed⟩, hregister]
    simp only [hindex, hbyte]

/-! ### The pieces of a request -/

/-- **What has been written** when at least one piece has been. -/
structure PiecesWritten (base : BitVec 64) (attributes : MtrrMemoryCacheType) (p : SetProgress) :
    Prop where
  base_le : base.toNat ≤ p.base.toNat
  first : ∃ i < mtrrNumberOfFixedMtrr, ∃ k ≤ 8, base.toNat = byteAddress i k
  last : ∃ i < mtrrNumberOfFixedMtrr, ∃ k ≤ 8, p.base.toNat = byteAddress i k
  enabled : p.settings.mtrrDefType &&& mtrrLibCacheFixedMtrrEnabled ≠ 0
  written : ∀ i < mtrrNumberOfFixedMtrr, ∀ k < 8, base.toNat ≤ byteAddress i k →
    byteAddress i (k + 1) ≤ p.base.toNat →
      fixedByte (p.settings.fixed i) k = attributes.value.setWidth 8

theorem or_and_ne_zero (x : BitVec 64) {bit : BitVec 64} (hbit : bit ≠ 0) :
    (x ||| bit) &&& bit ≠ 0 := by
  have habsorb : (x ||| bit) &&& bit = bit := by
    refine BitVec.eq_of_getLsbD_eq fun i _ ↦ ?_
    rw [BitVec.getLsbD_and, BitVec.getLsbD_or]
    cases x.getLsbD i <;> cases bit.getLsbD i <;> rfl
  rwa [habsorb]

/-- **A piece** that is written behind those that have been. -/
theorem piecesWritten_writeFixed {p : SetProgress} {i : ℕ} {b : FixedBytes}
    (hb : programFixedMtrr attributes.value p.base p.length = .ok (i, b))
    (hle : base.toNat ≤ p.base.toNat)
    (hfirst : ∃ i < mtrrNumberOfFixedMtrr, ∃ k ≤ 8, base.toNat = byteAddress i k)
    (hwritten : ∀ i < mtrrNumberOfFixedMtrr, ∀ k < 8, base.toNat ≤ byteAddress i k →
      byteAddress i (k + 1) ≤ p.base.toNat →
        fixedByte (p.settings.fixed i) k = attributes.value.setWidth 8) :
    PiecesWritten base attributes ⟨b.base, b.length, p.settings.writeFixed i b⟩ := by
  obtain ⟨-, hi, first, hstart, hset, -⟩ := programFixedMtrr_spec hb
  have hgrows := byteAddress_mono (i := i) hset.first_le
  have hend := hset.base_eq
  refine ⟨by dsimp only; omega, hfirst, ⟨i, hi, b.byteShift, hset.le, hset.base_eq⟩,
    or_and_ne_zero _ (by decide), fun j hj k hk hlow hhigh ↦ ?_⟩
  dsimp only at hhigh
  by_cases hji : j = i
  · subst hji
    dsimp only [MtrrSettings.writeFixed]
    rw [Function.update_self, fixedByte_write hset hk]
    split
    · rfl
    next hnot =>
      -- the byte was passed before this piece
      refine hwritten j hj k hk hlow ?_
      have hpos := (fixedMtrrTable_spec j hj).2.1
      have hsucc := byteAddress_succ j k
      have hbefore : k < first := by
        by_contra hge
        have hmono := byteAddress_mono (i := j) (show b.byteShift ≤ k by omega)
        omega
      have hmono := byteAddress_mono (i := j) (show k + 1 ≤ first from hbefore)
      omega
  · dsimp only [MtrrSettings.writeFixed]
    rw [Function.update_of_ne hji]
    refine hwritten j hj k hk hlow ?_
    by_contra hbehind
    have hpos := (fixedMtrrTable_spec j hj).2.1
    have hsucc := byteAddress_succ j k
    rcases Nat.lt_or_gt_of_ne hji with hlt | hgt
    · have hmono := byteAddress_mono (i := j) (show k + 1 ≤ 8 from hk)
      have horder := byteAddress_le_of_le (i - 1) (by omega) j (by omega)
      have hnext := (fixedMtrrTable_spec (i - 1) (by omega)).2.2.1 (by omega)
      rw [Nat.sub_add_cancel (by omega)] at hnext
      have hmono' := byteAddress_mono (i := i) (Nat.zero_le first)
      omega
    · have hmono := byteAddress_mono (i := i) hset.le
      have horder := byteAddress_le_of_le (j - 1) (by omega) i (by omega)
      have hnext := (fixedMtrrTable_spec (j - 1) (by omega)).2.2.1 (by omega)
      rw [Nat.sub_add_cancel (by omega)] at hnext
      have hmono' := byteAddress_mono (i := j) (Nat.zero_le k)
      omega

/-- **The loop** goes on writing. -/
theorem PiecesWritten.programFixed {n : ℕ} {p : SetProgress} (h : PiecesWritten base attributes p) :
    PiecesWritten base attributes (programFixed attributes.value n p).2 := by
  induction n generalizing p with
  | zero => exact h
  | succ n ih =>
    rw [Mtrr.programFixed]
    split
    · cases hb : programFixedMtrr attributes.value p.base p.length with
      | error status => exact h
      | ok piece => exact ih (piecesWritten_writeFixed hb h.base_le h.first h.written)
    · exact h

/-- **A request that starts below 1 MB**, when no piece of it has been refused. -/
theorem piecesWritten_programFixed (hbase : base < base1Mb) (hlength : length ≠ 0)
    (hsuccess : (programFixed attributes.value mtrrNumberOfFixedMtrr ⟨base, length, s⟩).1.isError =
      false) :
    PiecesWritten base attributes
      (programFixed attributes.value mtrrNumberOfFixedMtrr ⟨base, length, s⟩).2 := by
  have hrounds : mtrrNumberOfFixedMtrr = 10 + 1 := rfl
  rw [hrounds, programFixed, if_pos ⟨hbase, hlength⟩] at hsuccess ⊢
  cases hb : programFixedMtrr attributes.value base length with
  | error status =>
    rw [hb, programFixedMtrr_error hb] at hsuccess
    cases hsuccess
  | ok piece =>
    obtain ⟨-, hi, first, hstart, hset, -⟩ := programFixedMtrr_spec hb
    have hfirst : first ≤ 8 := hset.first_le.trans hset.le
    -- nothing lies between the start of the request and itself
    have hnothing : ∀ j < mtrrNumberOfFixedMtrr, ∀ k < 8, base.toNat ≤ byteAddress j k →
        byteAddress j (k + 1) ≤ base.toNat →
          fixedByte (s.fixed j) k = attributes.value.setWidth 8 := by
      intro j hj k _ hlow hhigh
      have hpos := (fixedMtrrTable_spec j hj).2.1
      have hsucc := byteAddress_succ j k
      omega
    have hpiece : PiecesWritten base attributes
        ⟨piece.2.base, piece.2.length, s.writeFixed piece.1 piece.2⟩ :=
      piecesWritten_writeFixed (p := ⟨base, length, s⟩) hb (Nat.le_refl _)
        ⟨piece.1, hi, first, hfirst, hstart.symm⟩ hnothing
    exact hpiece.programFixed

/-- Its addresses have the type. -/
theorem PiecesWritten.lookup {p : SetProgress} (h : PiecesWritten base attributes p)
    {s' : MtrrSettings} (hfixed : s'.fixed = p.settings.fixed)
    (henabled : s'.mtrrDefType &&& mtrrLibCacheMtrrEnabled ≠ 0)
    (hfixedEnabled : s'.mtrrDefType &&& mtrrLibCacheFixedMtrrEnabled ≠ 0)
    (hattributes : attributes ≠ .cacheInvalid) {a : BitVec 64} (ha : a < base1Mb)
    (hlow : base ≤ a) (hhigh : a.toNat < p.base.toNat) :
    mtrrGetMemoryAttributeByAddressWorker P s' a = attributes.value := by
  obtain ⟨i, hi, k, hk, hstart, hstop, hlookup⟩ := exists_fixedByte (P := P) ha
  obtain ⟨j, hj, l, hl, hfirst⟩ := h.first
  obtain ⟨j', hj', l', hl', hlast⟩ := h.last
  rw [BitVec.le_def] at hlow
  have hbase : base.toNat ≤ byteAddress i k := by
    by_contra hbelow
    have hboundary := byteAddress_succ_le hi hj hk hl (by omega)
    omega
  have hend : byteAddress i (k + 1) ≤ p.base.toNat := by
    have hboundary := byteAddress_succ_le hi hj' hk hl' (by omega)
    omega
  rw [hlookup s' henabled hfixedEnabled, hfixed, h.written i hi k hk hbase hend]
  cases attributes with
  | cacheInvalid => exact absurd rfl hattributes
  | _ => rfl

/-- The addresses outside the request have the bytes they had. -/
theorem PiecesSet.lookup {p : SetProgress} (h : PiecesSet s base length attributes p)
    {s' : MtrrSettings} (hfixed : s'.fixed = p.settings.fixed)
    (hdefault : mtrrGetDefaultMemoryTypeWorker s' = mtrrGetDefaultMemoryTypeWorker s)
    (henabled : s.mtrrDefType &&& mtrrLibCacheMtrrEnabled ≠ 0)
    (hfixedEnabled : s.mtrrDefType &&& mtrrLibCacheFixedMtrrEnabled ≠ 0)
    (henabled' : s'.mtrrDefType &&& mtrrLibCacheMtrrEnabled ≠ 0)
    (hfixedEnabled' : s'.mtrrDefType &&& mtrrLibCacheFixedMtrrEnabled ≠ 0) {a : BitVec 64}
    (ha : a < base1Mb) (hout : a < base ∨ base.toNat + length.toNat ≤ a.toNat) :
    mtrrGetMemoryAttributeByAddressWorker P s' a = mtrrGetMemoryAttributeByAddressWorker P s a := by
  obtain ⟨i, hi, k, hk, hstart, hstop, hlookup⟩ := exists_fixedByte (P := P) ha
  rw [hlookup s' henabled' hfixedEnabled', hlookup s henabled hfixedEnabled, hfixed]
  have hsame : fixedByte (p.settings.fixed i) k = fixedByte (s.fixed i) k := by
    refine (h.fixed i k hk).resolve_right fun hin ↦ ?_
    obtain ⟨hlow, hhigh⟩ := hin.1
    rw [BitVec.lt_def] at hout
    omega
  rw [hsame, getMemoryCacheTypeFromMtrrType, getMemoryCacheTypeFromMtrrType, hdefault]

end PurleyFirmware.Mtrr
