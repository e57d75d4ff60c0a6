import PurleyFirmware.Foundation.AlignedBlocks
import PurleyFirmware.Mtrr.SetAttribute

/-!
# The ranges that a request is split into

`MtrrSetMemoryAttributeWorker` splits a range twice: `GetMtrrNumberAndDirection` counts the registers
that it takes, and the code that programs them goes through the same loops again. Here are the ranges
that the second pass comes to. They are as many as the first one counts (`length_rangesOf`), all are
blocks, and together, less those that the subtractive form takes out again at the end, they make up
the range (`rangesOf_spec`).
-/

namespace PurleyFirmware.Mtrr

/-! ### Powers of two -/

theorem toNat_getPowerOfTwo32 {x : BitVec 32} (h : x ≠ 0) :
    (getPowerOfTwo32 x).toNat = 2 ^ x.toNat.log2 := by
  have hne : x.toNat ≠ 0 := fun hzero ↦ h (BitVec.eq_of_toNat_eq hzero)
  have hlt : x.toNat.log2 < 32 := log2_lt_of_lt hne x.isLt
  rw [getPowerOfTwo32, if_neg h, BitVec.toNat_shiftLeft, Nat.shiftLeft_eq]
  change 1 * 2 ^ x.toNat.log2 % 2 ^ 32 = _
  rw [Nat.one_mul, Nat.mod_eq_of_lt (Nat.pow_lt_pow_right (by decide) hlt)]

/-- `Power2MaxMemory`. -/
theorem toNat_power2MaxMemory {length : BitVec 64} (h : length ≠ 0) :
    (power2MaxMemory length).toNat = 2 ^ length.toNat.log2 := by
  have hne : length.toNat ≠ 0 := fun hzero ↦ h (BitVec.eq_of_toNat_eq hzero)
  have hlt : length.toNat < 2 ^ 64 := length.isLt
  have hshift : (length >>> 32).toNat = length.toNat / 2 ^ 32 := by
    rw [BitVec.toNat_ushiftRight, Nat.shiftRight_eq_div_pow]
  rw [power2MaxMemory]
  by_cases hhigh : length >>> 32 ≠ 0
  · have hword : ((length >>> 32).setWidth 32).toNat = length.toNat / 2 ^ 32 := by
      rw [BitVec.toNat_setWidth, hshift, Nat.mod_eq_of_lt (by omega)]
    have hwordNe : (length >>> 32).setWidth 32 ≠ 0 := by
      intro hzero
      refine hhigh (BitVec.eq_of_toNat_eq ?_)
      rw [hshift, ← hword, hzero]
      rfl
    have hquotient : length.toNat / 2 ^ 32 ≠ 0 := by
      rw [← hword]
      exact fun hzero ↦ hwordNe (BitVec.eq_of_toNat_eq hzero)
    have hlog : length.toNat.log2 = (length.toNat / 2 ^ 32).log2 + 32 := by
      refine (Nat.log2_eq_iff hne).2 ⟨?_, ?_⟩
      · rw [Nat.pow_add]
        have hlow := Nat.log2_self_le hquotient
        omega
      · have hup : length.toNat / 2 ^ 32 < 2 ^ ((length.toNat / 2 ^ 32).log2 + 1) := Nat.lt_log2_self
        rw [Nat.add_right_comm, Nat.pow_add]
        omega
    have hsmall : (length.toNat / 2 ^ 32).log2 < 32 := log2_lt_of_lt hquotient (by omega)
    have hpow : 2 ^ (length.toNat / 2 ^ 32).log2 < 2 ^ 32 := Nat.pow_lt_pow_right (by decide) hsmall
    rw [if_pos hhigh, BitVec.toNat_shiftLeft, BitVec.toNat_setWidth, toNat_getPowerOfTwo32 hwordNe,
      hword, Nat.shiftLeft_eq, hlog, Nat.pow_add]
    omega
  · have hzero : length.toNat / 2 ^ 32 = 0 := by
      rw [← hshift, not_not.1 hhigh]
      rfl
    have hword : (length.setWidth 32).toNat = length.toNat := by
      rw [BitVec.toNat_setWidth, Nat.mod_eq_of_lt (by omega)]
    have hwordNe : length.setWidth 32 ≠ 0 := by
      intro hword0
      refine hne ?_
      rw [← hword, hword0]
      rfl
    have hpow : 2 ^ length.toNat.log2 ≤ length.toNat := Nat.log2_self_le hne
    rw [if_neg hhigh, BitVec.toNat_setWidth, toNat_getPowerOfTwo32 hwordNe, hword,
      Nat.mod_eq_of_lt (by omega)]

/-- `LowBitSet64`, of a number that is not 0: the lowest bit. -/
theorem lowBitSet64_spec {x : BitVec 64} (h : x ≠ 0) :
    lowBitSet64 x < 64 ∧ x.getLsbD (lowBitSet64 x) = true ∧
      ∀ j < lowBitSet64 x, x.getLsbD j = false := by
  rw [lowBitSet64]
  cases hfind : (List.range 64).find? fun i ↦ x.getLsbD i with
  | none =>
    refine absurd (BitVec.eq_of_getLsbD_eq fun i hi ↦ ?_) h
    rw [List.find?_eq_none] at hfind
    have hbit := hfind i (List.mem_range.2 hi)
    rw [Bool.not_eq_true] at hbit
    rw [hbit]
    exact BitVec.getLsbD_zero.symm
  | some i =>
    obtain ⟨hbit, hmem, hbefore⟩ := List.find?_range_eq_some.1 hfind
    refine ⟨List.mem_range.1 hmem, hbit, fun j hj ↦ ?_⟩
    have hfalse := hbefore j hj
    rwa [Bool.not_eq_true'] at hfalse

/-- The alignment is the largest power of two that divides the base. -/
theorem toNat_alignment {base : BitVec 64} (h : base ≠ 0) :
    (alignment base).toNat = 2 ^ lowBitSet64 base := by
  have hlt := (lowBitSet64_spec h).1
  rw [alignment, BitVec.toNat_shiftLeft, Nat.shiftLeft_eq]
  change 1 * 2 ^ lowBitSet64 base % 2 ^ 64 = _
  rw [Nat.one_mul, Nat.mod_eq_of_lt (Nat.pow_lt_pow_right (by decide) hlt)]

theorem lowBitSet64_dvd {base : BitVec 64} (h : base ≠ 0) : 2 ^ lowBitSet64 base ∣ base.toNat :=
  two_pow_dvd_iff_testBit.2 (lowBitSet64_spec h).2.2

theorem le_lowBitSet64 {base : BitVec 64} {k : ℕ} (h : base ≠ 0) (hdvd : 2 ^ k ∣ base.toNat) :
    k ≤ lowBitSet64 base := by
  by_contra hlt
  have hbit : base.toNat.testBit (lowBitSet64 base) = false :=
    two_pow_dvd_iff_testBit.1 hdvd _ (Nat.lt_of_not_le hlt)
  have hset : base.toNat.testBit (lowBitSet64 base) = true := (lowBitSet64_spec h).2.1
  rw [hbit] at hset
  cases hset

/-! ### The ranges -/

/-- A range of addresses. -/
structure MtrrRange where
  base : BitVec 64
  length : BitVec 64
  deriving DecidableEq, Repr

/-- The address is in the range. -/
def MtrrRange.Contains (r : MtrrRange) (a : ℕ) : Prop :=
  r.base.toNat ≤ a ∧ a < r.base.toNat + r.length.toNat

/-- The aligned ranges at the base, and the range that is left. -/
def alignedRanges : ℕ → BitVec 64 → BitVec 64 → Option (List MtrrRange × MtrrRange)
  | 0, _, _ => none
  | rounds + 1, base, length =>
    if length < alignment base then some ([], ⟨base, length⟩)
    else (alignedRanges rounds (base + alignment base) (length - alignment base)).map fun r ↦
      (⟨base, alignment base⟩ :: r.1, r.2)

/-- The ranges whose lengths are the powers of two that make up the length, upwards from the base or
downwards. -/
def powerRanges (positive : Bool) : ℕ → BitVec 64 → BitVec 64 → Option (List MtrrRange)
  | 0, _, _ => none
  | rounds + 1, base, length =>
    let taken := power2MaxMemory length
    let first := if positive then base else base - taken
    if length - taken = 0 then some [⟨first, taken⟩]
    else (powerRanges positive rounds (if positive then first + taken else first)
      (length - taken)).map fun ranges ↦ ⟨first, taken⟩ :: ranges

/-- The aligned ranges at the base, if it is not 0, and the range that is left. -/
def alignedStart (rounds : ℕ) (base length : BitVec 64) : Option (List MtrrRange × MtrrRange) :=
  if base ≠ 0 then alignedRanges rounds base length else some ([], ⟨base, length⟩)

/-- The ranges that are programmed with the type of the request, and those that the subtractive form
takes out again. -/
def rangesOf (rounds : ℕ) (positive : Bool) (base length : BitVec 64) :
    Option (List MtrrRange × List MtrrRange) :=
  (alignedStart rounds base length).bind fun r ↦
    if base ≠ 0 ∧ r.2.length = 0 then some (r.1, [])
    else if positive = true then
      (powerRanges true rounds r.2.base r.2.length).map fun ranges ↦ (r.1 ++ ranges, [])
    else
      let whole := power2MaxMemory (r.2.length <<< 1)
      (powerRanges false rounds (r.2.base + whole) (whole - r.2.length)).map fun holes ↦
        (r.1 ++ [⟨r.2.base, whole⟩], holes)

/-! ### As many as are counted -/

theorem countAligned_eq (rounds : ℕ) (base length : BitVec 64) :
    countAligned rounds base length =
      (alignedRanges rounds base length).map fun r ↦ (r.1.length, r.2.length) := by
  induction rounds generalizing base length with
  | zero => rfl
  | succ rounds ih =>
    rw [countAligned, alignedRanges]
    split
    · rfl
    · rw [ih, Option.map_map, Option.map_map]
      rfl

theorem countPowers_eq (positive : Bool) (rounds : ℕ) (base length : BitVec 64) :
    countPowers rounds length = (powerRanges positive rounds base length).map List.length := by
  induction rounds generalizing base length with
  | zero => rfl
  | succ rounds ih =>
    simp only [countPowers, powerRanges]
    split
    · rfl
    · rw [ih (if positive then (if positive then base else base - power2MaxMemory length) +
        power2MaxMemory length else if positive then base else base - power2MaxMemory length),
        Option.map_map, Option.map_map]
      rfl

theorem getMtrrNumberAndDirection_eq (rounds : ℕ) (base length : BitVec 64) :
    getMtrrNumberAndDirection rounds base length =
      (alignedStart rounds base length).bind fun r ↦
        if base ≠ 0 ∧ r.2.length = 0 then some (r.1.length, true)
        else
          (countPowers rounds r.2.length).bind fun positive ↦
            (countPowers rounds (power2MaxMemory (r.2.length <<< 1) - r.2.length)).bind fun holes ↦
              if positive ≤ holes + 1 then some (r.1.length + positive, true)
              else some (r.1.length + (holes + 1), false) := by
  rw [getMtrrNumberAndDirection, alignedStart]
  by_cases hbase : base ≠ 0
  · rw [if_pos hbase, if_pos hbase, countAligned_eq, Option.bind_eq_bind, Option.bind_map]
    rfl
  · rw [if_neg hbase, if_neg hbase]
    rfl

/-- **The two passes agree**: when the number of registers has been found, so are the ranges, and they
are as many. -/
theorem length_rangesOf {rounds mtrrNumber : ℕ} {positive : Bool} {base length : BitVec 64}
    (h : getMtrrNumberAndDirection rounds base length = some (mtrrNumber, positive)) :
    ∃ r, rangesOf rounds positive base length = some r ∧
      r.1.length + r.2.length = mtrrNumber := by
  rw [getMtrrNumberAndDirection_eq] at h
  obtain ⟨r, hr, h⟩ := Option.bind_eq_some_iff.1 h
  rw [rangesOf, hr, Option.bind_some]
  by_cases hdone : base ≠ 0 ∧ r.2.length = 0
  · rw [if_pos hdone] at h ⊢
    cases h
    exact ⟨_, rfl, rfl⟩
  · rw [if_neg hdone] at h ⊢
    obtain ⟨powers, hpowers, h⟩ := Option.bind_eq_some_iff.1 h
    obtain ⟨holes, hholes, h⟩ := Option.bind_eq_some_iff.1 h
    split at h
    · cases h
      rw [countPowers_eq true rounds r.2.base] at hpowers
      obtain ⟨ranges, hranges, rfl⟩ := Option.map_eq_some_iff.1 hpowers
      rw [if_pos rfl, hranges]
      refine ⟨_, rfl, ?_⟩
      rw [List.length_append, List.length_nil, Nat.add_zero]
    · cases h
      rw [countPowers_eq false rounds (r.2.base + power2MaxMemory (r.2.length <<< 1))] at hholes
      obtain ⟨ranges, hranges, rfl⟩ := Option.map_eq_some_iff.1 hholes
      rw [if_neg Bool.false_ne_true]
      simp only [hranges]
      refine ⟨_, rfl, ?_⟩
      simp only [List.length_append, List.length_singleton]
      omega

/-! ### The rounds -/

/-- The next base is aligned to a larger power of two. -/
theorem lowBitSet64_lt {base : BitVec 64} (h : base ≠ 0)
    (hnext : (base + alignment base).toNat = base.toNat + (alignment base).toNat)
    (hne : base + alignment base ≠ 0) : lowBitSet64 base < lowBitSet64 (base + alignment base) := by
  refine le_lowBitSet64 hne ?_
  obtain ⟨q, hq⟩ := lowBitSet64_dvd h
  have hbit : base.toNat.testBit (lowBitSet64 base) = true := (lowBitSet64_spec h).2.1
  rw [Nat.testBit_eq_decide_div_mod_eq, decide_eq_true_eq, hq,
    Nat.mul_div_cancel_left _ (Nat.two_pow_pos _)] at hbit
  refine ⟨(q + 1) / 2, ?_⟩
  have hhalf : 2 * ((q + 1) / 2) = q + 1 := by omega
  rw [hnext, toNat_alignment h, Nat.pow_succ, Nat.mul_assoc, hhalf, Nat.mul_add, Nat.mul_one, ← hq]

theorem alignedRanges_ne_none {rounds : ℕ} {base length : BitVec 64} (hbase : base ≠ 0)
    (hends : base.toNat + length.toNat < 2 ^ 64) (hrounds : 64 < rounds + lowBitSet64 base) :
    alignedRanges rounds base length ≠ none := by
  induction rounds generalizing base length with
  | zero =>
    have hlt := (lowBitSet64_spec hbase).1
    omega
  | succ rounds ih =>
    rw [alignedRanges]
    split
    · exact Option.some_ne_none _
    · rename_i hle
      rw [BitVec.not_lt, BitVec.le_def] at hle
      have hnext : (base + alignment base).toNat = base.toNat + (alignment base).toNat := by
        rw [BitVec.toNat_add]
        omega
      have hrest : (length - alignment base).toNat = length.toNat - (alignment base).toNat := by
        rw [BitVec.toNat_sub]
        omega
      have hpos : 0 < (alignment base).toNat := by
        rw [toNat_alignment hbase]
        exact Nat.two_pow_pos _
      have hne : base + alignment base ≠ 0 := by
        intro hzero
        rw [hzero] at hnext
        change 0 = _ at hnext
        omega
      have hlow := lowBitSet64_lt hbase hnext hne
      rw [ne_eq, Option.map_eq_none_iff]
      exact ih hne (by omega) (by omega)

theorem countPowers_ne_none {rounds : ℕ} {length : BitVec 64} (hrounds : length.toNat.log2 < rounds) :
    countPowers rounds length ≠ none := by
  induction rounds generalizing length with
  | zero => exact absurd hrounds (Nat.not_lt_zero _)
  | succ rounds ih =>
    simp only [countPowers]
    split
    · exact Option.some_ne_none _
    · rename_i hmore
      have hne : length ≠ 0 := by
        rintro rfl
        exact hmore rfl
      have hneNat : length.toNat ≠ 0 := fun hzero ↦ hne (BitVec.eq_of_toNat_eq hzero)
      have htaken := toNat_power2MaxMemory hne
      have hle : 2 ^ length.toNat.log2 ≤ length.toNat := log2_le hneNat
      have hrest : (length - power2MaxMemory length).toNat =
          length.toNat - 2 ^ length.toNat.log2 := by
        rw [BitVec.toNat_sub, htaken]
        omega
      have hrestNe : (length - power2MaxMemory length).toNat ≠ 0 :=
        fun hzero ↦ hmore (BitVec.eq_of_toNat_eq hzero)
      have hlog : (length - power2MaxMemory length).toNat.log2 < length.toNat.log2 :=
        log2_lt_of_lt hrestNe (by rw [hrest]; exact sub_log2_lt)
      rw [ne_eq, Option.map_eq_none_iff]
      exact ih (by omega)

/-- The loops of the first pass end within 65 rounds. -/
theorem getMtrrNumberAndDirection_ne_none {rounds : ℕ} {base length : BitVec 64}
    (hends : base.toNat + length.toNat < 2 ^ 64) (hrounds : 64 < rounds) :
    getMtrrNumberAndDirection rounds base length ≠ none := by
  have hlog : ∀ x : BitVec 64, x.toNat.log2 < rounds := by
    intro x
    by_cases hx : x.toNat = 0
    · rw [hx]
      exact Nat.lt_trans (by decide) hrounds
    · exact Nat.lt_trans (log2_lt_of_lt hx x.isLt) hrounds
  have hstart : alignedStart rounds base length ≠ none := by
    rw [alignedStart]
    split
    · exact alignedRanges_ne_none ‹_› hends (by omega)
    · exact Option.some_ne_none _
  obtain ⟨r, hr⟩ := Option.ne_none_iff_exists'.1 hstart
  obtain ⟨powers, hpowers⟩ := Option.ne_none_iff_exists'.1 (countPowers_ne_none (hlog r.2.length))
  obtain ⟨holes, hholes⟩ := Option.ne_none_iff_exists'.1
    (countPowers_ne_none (hlog (power2MaxMemory (r.2.length <<< 1) - r.2.length)))
  rw [getMtrrNumberAndDirection_eq, hr, Option.bind_some, hpowers, Option.bind_some, hholes,
    Option.bind_some]
  split
  · exact Option.some_ne_none _
  · split <;> exact Option.some_ne_none _

/-! ### What they make up -/

/-- The address is in one of the ranges. -/
def Covered (ranges : List MtrrRange) (a : ℕ) : Prop := ∃ r ∈ ranges, r.Contains a

theorem covered_nil {a : ℕ} : ¬ Covered [] a := by
  rintro ⟨r, hr, -⟩
  cases hr

theorem covered_cons {r : MtrrRange} {ranges : List MtrrRange} {a : ℕ} :
    Covered (r :: ranges) a ↔ r.Contains a ∨ Covered ranges a := by
  simp only [Covered, List.mem_cons, exists_eq_or_imp]

theorem covered_append {ranges ranges' : List MtrrRange} {a : ℕ} :
    Covered (ranges ++ ranges') a ↔ Covered ranges a ∨ Covered ranges' a := by
  simp only [Covered, List.mem_append, or_and_right, exists_or]

/-- All ranges are blocks of pages. -/
def AllBlocks (ranges : List MtrrRange) : Prop :=
  ∀ r ∈ ranges, IsBlock 12 r.base.toNat r.length.toNat

/-- The ranges go from `base` to `last`, and are blocks. -/
structure Tiles (ranges : List MtrrRange) (base last : ℕ) : Prop where
  block : AllBlocks ranges
  covered : ∀ a, Covered ranges a ↔ base ≤ a ∧ a < last

theorem tiles_nil (base : ℕ) : Tiles [] base base := by
  refine ⟨fun r hr ↦ absurd hr List.not_mem_nil, fun a ↦ iff_of_false covered_nil ?_⟩
  omega

theorem Tiles.append {ranges ranges' : List MtrrRange} {base mid last : ℕ}
    (h : Tiles ranges base mid) (h' : Tiles ranges' mid last) (hle : base ≤ mid)
    (hle' : mid ≤ last) : Tiles (ranges ++ ranges') base last := by
  refine ⟨fun r hr ↦ (List.mem_append.1 hr).elim (h.block r) (h'.block r), fun a ↦ ?_⟩
  rw [covered_append, h.covered, h'.covered]
  omega

/-- One block. -/
theorem tiles_singleton {r : MtrrRange} (h : IsBlock 12 r.base.toNat r.length.toNat) :
    Tiles [r] r.base.toNat (r.base.toNat + r.length.toNat) := by
  refine ⟨fun r' hr' ↦ ?_, fun a ↦ ?_⟩
  · rw [List.mem_singleton.1 hr']
    exact h
  · rw [covered_cons]
    exact or_iff_left covered_nil

/-- The blocks downwards: the one at hand comes last. -/
theorem Tiles.cons_above {ranges : List MtrrRange} {r : MtrrRange} {base : ℕ}
    (h : Tiles ranges base r.base.toNat) (hblock : IsBlock 12 r.base.toNat r.length.toNat)
    (hle : base ≤ r.base.toNat) :
    Tiles (r :: ranges) base (r.base.toNat + r.length.toNat) := by
  refine ⟨List.forall_mem_cons.2 ⟨hblock, h.block⟩, fun a ↦ ?_⟩
  rw [covered_cons, h.covered, MtrrRange.Contains]
  omega

/-- The blocks upwards: the one at hand comes first. -/
theorem Tiles.cons_below {ranges : List MtrrRange} {r : MtrrRange} {last : ℕ}
    (h : Tiles ranges (r.base.toNat + r.length.toNat) last)
    (hblock : IsBlock 12 r.base.toNat r.length.toNat)
    (hle : r.base.toNat + r.length.toNat ≤ last) : Tiles (r :: ranges) r.base.toNat last :=
  (tiles_singleton hblock).append h (Nat.le_add_right _ _) hle

/-- What the aligned ranges leave: a range below a power of two that divides its base. -/
structure Leaves (base length : ℕ) (ranges : List MtrrRange) (rest : MtrrRange) : Prop where
  tiles : Tiles ranges base rest.base.toNat
  le : base ≤ rest.base.toNat
  ends : rest.base.toNat + rest.length.toNat = base + length
  dvd : 2 ^ 12 ∣ rest.length.toNat
  aligned : ∃ k, rest.length.toNat < 2 ^ k ∧ 2 ^ k ∣ rest.base.toNat

theorem leaves_alignedRanges {rounds : ℕ} {base length : BitVec 64} {r : List MtrrRange × MtrrRange}
    (hbase : base ≠ 0) (hpages : 2 ^ 12 ∣ base.toNat) (hlength : 2 ^ 12 ∣ length.toNat)
    (hends : base.toNat + length.toNat < 2 ^ 64) (h : alignedRanges rounds base length = some r) :
    Leaves base.toNat length.toNat r.1 r.2 := by
  induction rounds generalizing base length r with
  | zero => cases h
  | succ rounds ih =>
    rw [alignedRanges] at h
    have halignment := toNat_alignment hbase
    have hdvd := lowBitSet64_dvd hbase
    have hlow := le_lowBitSet64 hbase hpages
    split at h
    · rename_i hlt
      cases h
      rw [BitVec.lt_def, halignment] at hlt
      exact ⟨tiles_nil _, Nat.le_refl _, rfl, hlength, _, hlt, hdvd⟩
    · rename_i hle
      rw [BitVec.not_lt, BitVec.le_def] at hle
      obtain ⟨r, hr, rfl⟩ := Option.map_eq_some_iff.1 h
      have hpos : 0 < (alignment base).toNat := by
        rw [halignment]
        exact Nat.two_pow_pos _
      have hnext : (base + alignment base).toNat = base.toNat + (alignment base).toNat := by
        rw [BitVec.toNat_add]
        omega
      have hrest : (length - alignment base).toNat = length.toNat - (alignment base).toNat := by
        rw [BitVec.toNat_sub]
        omega
      have hpage : 2 ^ 12 ∣ (alignment base).toNat := by
        rw [halignment]
        exact Nat.pow_dvd_pow 2 hlow
      have hne : base + alignment base ≠ 0 := by
        intro hzero
        rw [hzero] at hnext
        change 0 = _ at hnext
        omega
      have hleaves : Leaves (base + alignment base).toNat (length - alignment base).toNat r.1 r.2 :=
        ih hne (by rw [hnext]; exact Nat.dvd_add hpages hpage)
          (by rw [hrest]; exact Nat.dvd_sub hlength hpage) (by omega) hr
      have hle' := hleaves.le
      have hends' := hleaves.ends
      have htiles := hleaves.tiles
      rw [hnext] at htiles hle' hends'
      refine ⟨htiles.cons_below (r := ⟨base, alignment base⟩) ⟨_, hlow, halignment, hdvd⟩ hle',
        Nat.le_trans (Nat.le_add_right _ _) hle', hends'.trans (by omega), hleaves.dvd,
        hleaves.aligned⟩

theorem leaves_alignedStart {rounds : ℕ} {base length : BitVec 64} {r : List MtrrRange × MtrrRange}
    (hpages : 2 ^ 12 ∣ base.toNat) (hlength : 2 ^ 12 ∣ length.toNat)
    (hends : base.toNat + length.toNat < 2 ^ 64) (h : alignedStart rounds base length = some r) :
    Leaves base.toNat length.toNat r.1 r.2 := by
  rw [alignedStart] at h
  split at h
  · exact leaves_alignedRanges ‹_› hpages hlength hends h
  · rename_i hbase
    cases h
    refine ⟨tiles_nil _, Nat.le_refl _, rfl, hlength, 64, length.isLt, ?_⟩
    rw [not_not.1 hbase]
    exact Nat.dvd_zero _

/-- The powers of two upwards. -/
theorem tiles_powerRanges_true {rounds k : ℕ} {base length : BitVec 64} {ranges : List MtrrRange}
    (hne : length ≠ 0) (hlength : 2 ^ 12 ∣ length.toNat) (hk : length.toNat < 2 ^ k)
    (hbase : 2 ^ k ∣ base.toNat) (hends : base.toNat + length.toNat < 2 ^ 64)
    (h : powerRanges true rounds base length = some ranges) :
    Tiles ranges base.toNat (base.toNat + length.toNat) := by
  induction rounds generalizing base length k ranges with
  | zero => cases h
  | succ rounds ih =>
    have hneNat : length.toNat ≠ 0 := fun hzero ↦ hne (BitVec.eq_of_toNat_eq hzero)
    have htaken := toNat_power2MaxMemory hne
    have hle : 2 ^ length.toNat.log2 ≤ length.toNat := log2_le hneNat
    have hblock := isBlock_up hneNat hlength hk hbase
    have hrest : (length - power2MaxMemory length).toNat =
        length.toNat - 2 ^ length.toNat.log2 := by
      rw [BitVec.toNat_sub, htaken]
      omega
    have hnext : (base + power2MaxMemory length).toNat = base.toNat + 2 ^ length.toNat.log2 := by
      rw [BitVec.toNat_add, htaken]
      omega
    simp only [powerRanges, if_true] at h
    rw [← htaken] at hblock
    split at h
    · rename_i hdone
      rw [hdone] at hrest
      change 0 = _ at hrest
      cases h
      have htiles := tiles_singleton (r := ⟨base, power2MaxMemory length⟩) hblock
      simp only [htaken] at htiles
      rwa [show base.toNat + 2 ^ length.toNat.log2 = base.toNat + length.toNat by omega] at htiles
    · rename_i hmore
      obtain ⟨ranges, hranges, rfl⟩ := Option.map_eq_some_iff.1 h
      have htiles := ih hmore (by rw [hrest]; exact dvd_sub_log2 hneNat hlength)
        (by rw [hrest]; exact sub_log2_lt) (by rw [hnext]; exact log2_dvd_up hneNat hk hbase)
        (by omega) hranges
      rw [hnext, hrest, show base.toNat + 2 ^ length.toNat.log2 +
        (length.toNat - 2 ^ length.toNat.log2) = base.toNat + length.toNat by omega] at htiles
      exact Tiles.cons_below (r := ⟨base, power2MaxMemory length⟩) (by simpa only [htaken] using htiles)
        hblock (by simp only [htaken]; omega)

/-- The powers of two downwards. -/
theorem tiles_powerRanges_false {rounds k : ℕ} {base length : BitVec 64} {ranges : List MtrrRange}
    (hne : length ≠ 0) (hlength : 2 ^ 12 ∣ length.toNat) (hk : length.toNat < 2 ^ k)
    (hbase : 2 ^ k ∣ base.toNat) (hle : length.toNat ≤ base.toNat)
    (h : powerRanges false rounds base length = some ranges) :
    Tiles ranges (base.toNat - length.toNat) base.toNat := by
  induction rounds generalizing base length k ranges with
  | zero => cases h
  | succ rounds ih =>
    have hneNat : length.toNat ≠ 0 := fun hzero ↦ hne (BitVec.eq_of_toNat_eq hzero)
    have htaken := toNat_power2MaxMemory hne
    have htakenLe : 2 ^ length.toNat.log2 ≤ length.toNat := log2_le hneNat
    have hrest : (length - power2MaxMemory length).toNat =
        length.toNat - 2 ^ length.toNat.log2 := by
      rw [BitVec.toNat_sub, htaken]
      omega
    have hfirst : (base - power2MaxMemory length).toNat = base.toNat - 2 ^ length.toNat.log2 := by
      rw [BitVec.toNat_sub, htaken]
      omega
    have hblock : IsBlock 12 (base - power2MaxMemory length).toNat
        (power2MaxMemory length).toNat := by
      rw [hfirst, htaken]
      exact isBlock_down hneNat hlength hk hbase
    have habove : base.toNat - 2 ^ length.toNat.log2 + 2 ^ length.toNat.log2 = base.toNat := by
      omega
    simp only [powerRanges, Bool.false_eq_true, if_false] at h
    split at h
    · rename_i hdone
      rw [hdone] at hrest
      change 0 = _ at hrest
      cases h
      have htiles := tiles_singleton (r := ⟨base - power2MaxMemory length, power2MaxMemory length⟩)
        hblock
      simp only [htaken, hfirst, habove] at htiles
      rwa [show base.toNat - length.toNat = base.toNat - 2 ^ length.toNat.log2 by omega]
    · rename_i hmore
      obtain ⟨ranges, hranges, rfl⟩ := Option.map_eq_some_iff.1 h
      have htiles := ih hmore (by rw [hrest]; exact dvd_sub_log2 hneNat hlength)
        (by rw [hrest]; exact sub_log2_lt) (by rw [hfirst]; exact log2_dvd_down hneNat hk hbase)
        (by omega) hranges
      have hbelow : (base - power2MaxMemory length).toNat - (length - power2MaxMemory length).toNat =
          base.toNat - length.toNat := by omega
      rw [hbelow] at htiles
      have hall := Tiles.cons_above
        (r := ⟨base - power2MaxMemory length, power2MaxMemory length⟩) htiles hblock
        (by simp only [hfirst]; omega)
      simpa only [htaken, hfirst, habove] using hall

/-- What the ranges of a request have to be: blocks below `limit`, which make up the range when the
holes are taken out. -/
structure Splits (base length limit : ℕ) (ranges holes : List MtrrRange) : Prop where
  block : AllBlocks (ranges ++ holes)
  below : ∀ r ∈ ranges ++ holes, r.base.toNat + r.length.toNat ≤ limit
  covered : ∀ a, (Covered ranges a ∧ ¬ Covered holes a) ↔ base ≤ a ∧ a < base + length

theorem Tiles.le_last {ranges : List MtrrRange} {base last : ℕ} (h : Tiles ranges base last)
    {r : MtrrRange} (hr : r ∈ ranges) : r.base.toNat + r.length.toNat ≤ last := by
  obtain ⟨k, -, hlength, -⟩ := h.block r hr
  have hpos : 0 < 2 ^ k := Nat.two_pow_pos k
  have hlast := (h.covered (r.base.toNat + r.length.toNat - 1)).1
    ⟨r, hr, by omega, by omega⟩
  omega

/-- Upwards there are no holes. -/
theorem Tiles.splits {ranges : List MtrrRange} {base length limit : ℕ}
    (h : Tiles ranges base (base + length)) (hends : base + length ≤ limit) :
    Splits base length limit ranges [] := by
  refine ⟨?_, ?_, fun a ↦ ?_⟩
  · rw [List.append_nil]
    exact h.block
  · rw [List.append_nil]
    exact fun r hr ↦ Nat.le_trans (h.le_last hr) hends
  · rw [and_iff_left covered_nil, h.covered]

/-- The subtractive form is not chosen for a power of two. -/
theorem countPowers_two_pow {rounds m n : ℕ} {length : BitVec 64} (h : length.toNat = 2 ^ m)
    (hcount : countPowers rounds length = some n) : n = 1 := by
  cases rounds with
  | zero => cases hcount
  | succ rounds =>
    have hne : length ≠ 0 := by
      intro hzero
      have hpos : 0 < 2 ^ m := Nat.two_pow_pos m
      rw [hzero] at h
      change 0 = _ at h
      omega
    have hrest : length - power2MaxMemory length = 0 := by
      refine BitVec.eq_of_toNat_eq ?_
      have hlt := length.isLt
      rw [BitVec.toNat_sub, toNat_power2MaxMemory hne, h, Nat.log2_two_pow]
      change _ = 0
      omega
    simp only [countPowers, hrest, if_true] at hcount
    cases hcount
    rfl

/-- The subtractive form: the next power of two, less what is too much. -/
theorem splits_whole {rounds base length m : ℕ} {aligned holes : List MtrrRange} {rest : MtrrRange}
    (hleaves : Leaves base length aligned rest) (hne : rest.length ≠ 0) (hm : m ≤ 52)
    (hends : base + length ≤ 2 ^ m) (hpower : rest.length.toNat ≠ 2 ^ m)
    (h : powerRanges false rounds (rest.base + power2MaxMemory (rest.length <<< 1))
      (power2MaxMemory (rest.length <<< 1) - rest.length) = some holes) :
    Splits base length (2 ^ m)
      (aligned ++ [⟨rest.base, power2MaxMemory (rest.length <<< 1)⟩]) holes := by
  have hneNat : rest.length.toNat ≠ 0 := fun hzero ↦ hne (BitVec.eq_of_toNat_eq hzero)
  obtain ⟨k, hk, hbase⟩ := hleaves.aligned
  have hrestEnds := hleaves.ends
  have hle := hleaves.le
  have hlimit : 2 ^ m ≤ 2 ^ 52 := Nat.pow_le_pow_right (by decide) hm
  have hdouble : (rest.length <<< 1).toNat = 2 * rest.length.toNat := by
    rw [BitVec.toNat_shiftLeft, Nat.shiftLeft_eq]
    omega
  have hdoubleNe : rest.length <<< 1 ≠ 0 := by
    intro hzero
    rw [hzero] at hdouble
    change 0 = _ at hdouble
    omega
  have hwhole : (power2MaxMemory (rest.length <<< 1)).toNat = 2 ^ (rest.length.toNat.log2 + 1) := by
    rw [toNat_power2MaxMemory hdoubleNe, hdouble, log2_double hneNat]
  have hlt : rest.length.toNat < 2 ^ (rest.length.toNat.log2 + 1) := Nat.lt_log2_self
  have hlow : 12 ≤ rest.length.toNat.log2 := le_log2_of_dvd hneNat hleaves.dvd
  have hdvd : 2 ^ (rest.length.toNat.log2 + 1) ∣ rest.base.toNat :=
    (Nat.pow_dvd_pow 2 (log2_lt_of_lt hneNat hk)).trans hbase
  -- The next power of two is below the limit, too.
  have hbelow : rest.base.toNat + 2 ^ (rest.length.toNat.log2 + 1) ≤ 2 ^ m := by
    have hrestLt : rest.length.toNat < 2 ^ m := by omega
    have hpow : 2 ^ (rest.length.toNat.log2 + 1) ∣ 2 ^ m :=
      Nat.pow_dvd_pow 2 (log2_lt_of_lt hneNat hrestLt)
    have hgap := Nat.le_of_dvd (by omega : 0 < 2 ^ m - rest.base.toNat) (Nat.dvd_sub hpow hdvd)
    omega
  have htop : (rest.base + power2MaxMemory (rest.length <<< 1)).toNat =
      rest.base.toNat + 2 ^ (rest.length.toNat.log2 + 1) := by
    rw [BitVec.toNat_add, hwhole]
    omega
  have hholes : (power2MaxMemory (rest.length <<< 1) - rest.length).toNat =
      2 ^ (rest.length.toNat.log2 + 1) - rest.length.toNat := by
    rw [BitVec.toNat_sub, hwhole]
    omega
  have hholesNe : power2MaxMemory (rest.length <<< 1) - rest.length ≠ 0 := by
    intro hzero
    rw [hzero] at hholes
    change 0 = _ at hholes
    omega
  have hranges : Tiles (aligned ++ [⟨rest.base, power2MaxMemory (rest.length <<< 1)⟩]) base
      (rest.base.toNat + 2 ^ (rest.length.toNat.log2 + 1)) := by
    have hone := tiles_singleton (r := ⟨rest.base, power2MaxMemory (rest.length <<< 1)⟩)
      ⟨_, Nat.le_succ_of_le hlow, hwhole, hdvd⟩
    simp only [hwhole] at hone
    exact hleaves.tiles.append hone hle (Nat.le_add_right _ _)
  have htiles := tiles_powerRanges_false hholesNe
    (by rw [hholes]; exact Nat.dvd_sub (Nat.pow_dvd_pow 2 (Nat.le_succ_of_le hlow)) hleaves.dvd)
    (by rw [hholes]; omega : _ < 2 ^ (rest.length.toNat.log2 + 1))
    (by rw [htop]; exact Nat.dvd_add hdvd (Nat.dvd_refl _)) (by omega) h
  rw [htop, hholes, show rest.base.toNat + 2 ^ (rest.length.toNat.log2 + 1) -
    (2 ^ (rest.length.toNat.log2 + 1) - rest.length.toNat) = base + length by omega] at htiles
  refine ⟨fun r hr ↦ (List.mem_append.1 hr).elim (hranges.block r) (htiles.block r),
    fun r hr ↦ ?_, fun a ↦ ?_⟩
  · rcases List.mem_append.1 hr with hr | hr
    · exact Nat.le_trans (hranges.le_last hr) hbelow
    · exact Nat.le_trans (htiles.le_last hr) hbelow
  · rw [hranges.covered, htiles.covered]
    omega

/-- **The ranges make up the request**, and stay below a power of two that it stays below. -/
theorem splits_rangesOf {rounds mtrrNumber m : ℕ} {positive : Bool} {base length : BitVec 64}
    {r : List MtrrRange × List MtrrRange} (hm : m ≤ 52) (hpages : 2 ^ 12 ∣ base.toNat)
    (hlength : 2 ^ 12 ∣ length.toNat) (hne : length ≠ 0)
    (hends : base.toNat + length.toNat ≤ 2 ^ m)
    (hnumber : getMtrrNumberAndDirection rounds base length = some (mtrrNumber, positive))
    (h : rangesOf rounds positive base length = some r) :
    Splits base.toNat length.toNat (2 ^ m) r.1 r.2 := by
  have hlimit : 2 ^ m ≤ 2 ^ 52 := Nat.pow_le_pow_right (by decide) hm
  rw [getMtrrNumberAndDirection_eq] at hnumber
  rw [rangesOf] at h
  obtain ⟨⟨aligned, rest⟩, hstart, h⟩ := Option.bind_eq_some_iff.1 h
  rw [hstart, Option.bind_some] at hnumber
  have hleaves : Leaves base.toNat length.toNat aligned rest :=
    leaves_alignedStart hpages hlength (by omega) hstart
  have hle := hleaves.le
  have hrestEnds := hleaves.ends
  by_cases hdone : base ≠ 0 ∧ rest.length = 0
  · rw [if_pos hdone] at h
    cases h
    have htiles := hleaves.tiles
    rw [hdone.2] at hrestEnds
    rw [show rest.base.toNat = base.toNat + length.toNat from hrestEnds] at htiles
    exact htiles.splits hends
  · have hrestNe : rest.length ≠ 0 := by
      intro hzero
      by_cases hbase : base ≠ 0
      · exact hdone ⟨hbase, hzero⟩
      · rw [alignedStart, if_neg hbase] at hstart
        cases hstart
        exact hne hzero
    rw [if_neg hdone] at h hnumber
    obtain ⟨powers, hpowers, hnumber⟩ := Option.bind_eq_some_iff.1 hnumber
    obtain ⟨holes, hholes, hnumber⟩ := Option.bind_eq_some_iff.1 hnumber
    split at hnumber
    · cases hnumber
      rw [if_pos rfl] at h
      obtain ⟨ranges, hranges, rfl⟩ := Option.map_eq_some_iff.1 h
      obtain ⟨k, hk, hbase⟩ := hleaves.aligned
      have htiles := tiles_powerRanges_true hrestNe hleaves.dvd hk hbase (by omega) hranges
      have hall := hleaves.tiles.append htiles hle (by omega)
      rw [hrestEnds] at hall
      exact hall.splits hends
    · rename_i hfew
      cases hnumber
      rw [if_neg Bool.false_ne_true] at h
      obtain ⟨ranges, hranges, rfl⟩ := Option.map_eq_some_iff.1 h
      refine splits_whole hleaves hrestNe hm hends (fun hpower ↦ ?_) hranges
      have hone := countPowers_two_pow hpower hpowers
      omega

end PurleyFirmware.Mtrr
