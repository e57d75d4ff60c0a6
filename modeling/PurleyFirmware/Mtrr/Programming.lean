import PurleyFirmware.Mtrr.AttributeMapped
import PurleyFirmware.Mtrr.ErrorReturns
import PurleyFirmware.Mtrr.SplitRange
import Mathlib.Data.Finset.Card

/-!
# Programming the ranges

The second pass of `MtrrSetMemoryAttributeWorker` calls `ProgramVariableMtrr` for one range after
another, each time with the first register that is not enabled. `callsOf` lists these calls;
`programVariables_eq` says that they are what the loops do.

There are two things to say of them. As long as there are free registers, each call takes one, and
all others stay as they are (`programmed_run`). And what a register then holds is the range of the call
(`entry_eq`), provided that it ends within the addresses that the processor has.
-/

namespace PurleyFirmware.Mtrr

variable {P : MtrrPlatform}

/-! ### What a register holds -/

/-- The number of address bits that the masks go by. -/
def addressBits (P : MtrrPlatform) : ℕ :=
  if 0x80000008 ≤ P.maxExtendedFunction then P.physicalAddressBits.toNat else 36

theorem addressBits_le : addressBits P ≤ 52 := by
  rw [addressBits]
  split
  · exact P.physicalAddressBits_le
  · decide

/-- The `n` low bits. -/
theorem getLsbD_shiftLeft_one_sub_one {n : ℕ} (hn : n < 64) (i : ℕ) :
    (1#64 <<< n - 1).getLsbD i = decide (i < n) := by
  have hpos : 0 < 2 ^ n := Nat.two_pow_pos n
  have hlt : 2 ^ n < 2 ^ 64 := Nat.pow_lt_pow_right (by decide) hn
  have hshift : (1#64 <<< n).toNat = 2 ^ n := by
    rw [BitVec.toNat_shiftLeft, Nat.shiftLeft_eq]
    change 1 * 2 ^ n % 2 ^ 64 = _
    omega
  have htoNat : (1#64 <<< n - 1).toNat = 2 ^ n - 1 := by
    rw [BitVec.toNat_sub_of_le, hshift]
    · rfl
    · rw [BitVec.le_def, hshift]
      exact hpos
  rw [← BitVec.testBit_toNat, htoNat, Nat.testBit_two_pow_sub_one]

theorem getLsbD_mtrrValidBitsMask (i : ℕ) :
    (mtrrValidBitsMask P).getLsbD i = decide (i < addressBits P) := by
  have hbits := addressBits_le (P := P)
  have hpow : mtrrValidBitsMask P = 1#64 <<< addressBits P - 1 := by
    rw [mtrrValidBitsMask, addressBits]
    split
    · rfl
    · decide
  rw [hpow, getLsbD_shiftLeft_one_sub_one (by omega)]

/-- Of the addresses, the low twelve bits are no part of a register. -/
theorem getLsbD_mtrrValidAddressMask (i : ℕ) :
    (mtrrValidAddressMask P).getLsbD i = decide (12 ≤ i ∧ i < addressBits P) := by
  have hbits := addressBits_le (P := P)
  have hand : mtrrValidAddressMask P = mtrrValidBitsMask P &&& (BitVec.allOnes 64 <<< 12) := by
    rw [mtrrValidAddressMask, mtrrValidBitsMask]
    split
    · rfl
    · decide
  rw [hand, BitVec.getLsbD_and, getLsbD_mtrrValidBitsMask, BitVec.getLsbD_shiftLeft,
    BitVec.getLsbD_allOnes, Bool.eq_iff_iff]
  simp only [Bool.and_eq_true, Bool.not_eq_true', decide_eq_true_eq, decide_eq_false_iff_not]
  omega

/-- What `ProgramVariableMtrr` writes. -/
def programmedSetting (P : MtrrPlatform) (base length memoryCacheType : BitVec 64) :
    MtrrVariableSetting :=
  { base := base &&& mtrrValidAddressMask P ||| memoryCacheType
    mask := ~~~(length - 1) &&& mtrrValidAddressMask P ||| mtrrLibCacheMtrrEnabled }

variable {base length memoryCacheType : BitVec 64}

theorem programVariableMtrr_eq (variableMtrr : ℕ → MtrrVariableSetting) (msrNum : ℕ) :
    programVariableMtrr P variableMtrr msrNum base length memoryCacheType =
      Function.update variableMtrr msrNum (programmedSetting P base length memoryCacheType) := rfl

theorem getLsbD_mtrrLibCacheMtrrEnabled (i : ℕ) :
    mtrrLibCacheMtrrEnabled.getLsbD i = decide (i = 11) := by
  have htwoPow : mtrrLibCacheMtrrEnabled = BitVec.twoPow 64 11 := by decide
  rw [htwoPow, BitVec.getLsbD_twoPow, Bool.eq_iff_iff]
  simp only [Bool.and_eq_true, decide_eq_true_eq]
  omega

theorem enabled_programmedSetting : (programmedSetting P base length memoryCacheType).Enabled := by
  intro hzero
  have hbit := congrArg (BitVec.getLsbD · 11) hzero
  simp only [programmedSetting, BitVec.getLsbD_and, BitVec.getLsbD_or,
    getLsbD_mtrrLibCacheMtrrEnabled, decide_true, Bool.or_true, Bool.and_true] at hbit
  cases hbit

/-- A block that ends within the addresses is what the register holds. -/
theorem shadowMtrr_programmedSetting (hblock : IsBlock 12 base.toNat length.toNat)
    (hends : base.toNat + length.toNat ≤ 2 ^ addressBits P)
    (htype : ∀ j, 8 ≤ j → memoryCacheType.getLsbD j = false) :
    shadowMtrr P (programmedSetting P base length memoryCacheType) =
      ⟨base, length, memoryCacheType, true, true⟩ := by
  obtain ⟨k, hk, hlength, hdvd⟩ := hblock
  have hpos : 0 < 2 ^ k := Nat.two_pow_pos k
  have hkBits : k ≤ addressBits P := by
    refine (Nat.pow_le_pow_iff_right (by decide : 1 < 2)).1 ?_
    omega
  have hbits := addressBits_le (P := P)
  have hlow : ∀ j < 12, base.getLsbD j = false := fun j hj ↦
    two_pow_dvd_iff_testBit.1 hdvd j (by omega)
  have hhigh : ∀ j, addressBits P ≤ j → base.getLsbD j = false := fun j hj ↦ by
    refine Nat.testBit_lt_two_pow (Nat.lt_of_lt_of_le ?_ (Nat.pow_le_pow_right (by decide) hj))
    omega
  have hlengthEq : length = 1#64 <<< k := by
    refine BitVec.eq_of_toNat_eq ?_
    have hlt := length.isLt
    rw [hlength, BitVec.toNat_shiftLeft, Nat.shiftLeft_eq]
    change _ = 1 * 2 ^ k % 2 ^ 64
    omega
  have hsubOne : ∀ j, (length - 1).getLsbD j = decide (j < k) := fun j ↦ by
    rw [hlengthEq, getLsbD_shiftLeft_one_sub_one (by omega)]
  rw [shadowMtrr, if_pos enabled_programmedSetting, programmedSetting]
  dsimp only
  congr 1
  · refine BitVec.eq_of_getLsbD_eq fun j hj ↦ ?_
    rw [BitVec.getLsbD_and, BitVec.getLsbD_or, BitVec.getLsbD_and, getLsbD_mtrrValidAddressMask]
    by_cases hj12 : j < 12
    · rw [decide_eq_false (by omega), Bool.and_false, hlow j hj12]
    · rw [htype j (by omega), Bool.or_false, Bool.and_assoc, Bool.and_self]
      by_cases hjBits : j < addressBits P
      · rw [decide_eq_true (by omega), Bool.and_true]
      · rw [decide_eq_false (by omega), Bool.and_false, hhigh j (by omega)]
  · rw [← BitVec.sub_add_cancel length 1]
    congr 1
    refine BitVec.eq_of_getLsbD_eq fun j hj ↦ ?_
    rw [BitVec.getLsbD_and, BitVec.getLsbD_not, BitVec.getLsbD_and, BitVec.getLsbD_or,
      BitVec.getLsbD_and, BitVec.getLsbD_not, BitVec.sub_add_cancel, hsubOne,
      getLsbD_mtrrValidAddressMask, getLsbD_mtrrValidBitsMask, getLsbD_mtrrLibCacheMtrrEnabled,
      decide_eq_true hj, Bool.eq_iff_iff]
    simp only [Bool.and_eq_true, Bool.not_eq_true', decide_eq_true_eq, Bool.and_eq_false_iff,
      Bool.or_eq_false_iff, Bool.not_eq_false', decide_eq_false_iff_not, Bool.true_eq_false,
      false_or, true_and]
    omega
  · refine BitVec.eq_of_getLsbD_eq fun j hj ↦ ?_
    rw [BitVec.getLsbD_and, BitVec.getLsbD_or, BitVec.getLsbD_and, getLsbD_mtrrValidAddressMask]
    have hbyte : (0xFF : BitVec 64).getLsbD j = decide (j < 8) :=
      getLsbD_shiftLeft_one_sub_one (n := 8) (by decide) j
    rw [hbyte]
    by_cases hj8 : j < 8
    · rw [decide_eq_false (by omega : ¬ (12 ≤ j ∧ j < addressBits P)), Bool.and_false,
        Bool.false_or, decide_eq_true hj8, Bool.and_true]
    · rw [decide_eq_false hj8, Bool.and_false, htype j (by omega)]

/-! ### The calls -/

/-- The arguments of a call of `ProgramVariableMtrr`. -/
structure ProgramCall where
  msrNum : ℕ
  base : BitVec 64
  length : BitVec 64
  memoryCacheType : BitVec 64
  deriving DecidableEq, Repr

/-- What the call writes. -/
def ProgramCall.setting (P : MtrrPlatform) (call : ProgramCall) : MtrrVariableSetting :=
  programmedSetting P call.base call.length call.memoryCacheType

/-- The range that the register of the call holds afterwards. -/
def ProgramCall.entry (P : MtrrPlatform) (call : ProgramCall) : VariableMtrr :=
  shadowMtrr P (call.setting P)

/-- The ranges are programmed one after another. -/
def programRanges (P : MtrrPlatform) (memoryCacheType : BitVec 64) (p : ProgramVars)
    (ranges : List MtrrRange) : ProgramVars :=
  ranges.foldl (fun p r ↦ p.program P r.base r.length memoryCacheType) p

/-- The calls that this makes. -/
def callsOf (P : MtrrPlatform) (memoryCacheType : BitVec 64) :
    ProgramVars → List MtrrRange → List ProgramCall
  | _, [] => []
  | p, r :: ranges =>
    ⟨findUnused (getVariableMtrrCountWorker P) p.variableMtrr p.msrNum, r.base, r.length,
      memoryCacheType⟩ ::
        callsOf P memoryCacheType (p.program P r.base r.length memoryCacheType) ranges

theorem length_callsOf (p : ProgramVars) (ranges : List MtrrRange) :
    (callsOf P memoryCacheType p ranges).length = ranges.length := by
  induction ranges generalizing p with
  | nil => rfl
  | cons r ranges ih => rw [callsOf, List.length_cons, List.length_cons, ih]

theorem exists_range_of_mem_callsOf {p : ProgramVars} {ranges : List MtrrRange} {call : ProgramCall}
    (h : call ∈ callsOf P memoryCacheType p ranges) :
    (⟨call.base, call.length⟩ : MtrrRange) ∈ ranges ∧ call.memoryCacheType = memoryCacheType := by
  induction ranges generalizing p with
  | nil => cases h
  | cons r ranges ih =>
    rw [callsOf] at h
    rcases List.mem_cons.1 h with rfl | h
    · exact ⟨List.mem_cons_self, rfl⟩
    · exact ⟨List.mem_cons_of_mem _ (ih h).1, (ih h).2⟩

theorem exists_call_of_mem {p : ProgramVars} {ranges : List MtrrRange} {r : MtrrRange}
    (h : r ∈ ranges) :
    ∃ call ∈ callsOf P memoryCacheType p ranges, call.base = r.base ∧ call.length = r.length := by
  induction ranges generalizing p with
  | nil => cases h
  | cons r' ranges ih =>
    rw [callsOf]
    rcases List.mem_cons.1 h with rfl | h
    · exact ⟨_, List.mem_cons_self, rfl, rfl⟩
    · obtain ⟨call, hcall, hbase, hlength⟩ := ih h
      exact ⟨call, List.mem_cons_of_mem _ hcall, hbase, hlength⟩

/-! ### The loops make these calls -/

/-- The range that is left plays no part in programming one. -/
theorem programRanges_withRange (p : ProgramVars) (base length : BitVec 64)
    (ranges : List MtrrRange) :
    programRanges P memoryCacheType { p with base := base, length := length } ranges =
      { programRanges P memoryCacheType p ranges with base := base, length := length } := by
  induction ranges generalizing p with
  | nil => rfl
  | cons r ranges ih => exact ih (p.program P r.base r.length memoryCacheType)

theorem programRanges_congr {p q : ProgramVars} (hregs : p.variableMtrr = q.variableMtrr)
    (hnum : p.msrNum = q.msrNum) (ranges : List MtrrRange) :
    (programRanges P memoryCacheType p ranges).variableMtrr =
      (programRanges P memoryCacheType q ranges).variableMtrr := by
  have hq : { p with base := q.base, length := q.length } = q := by
    rw [hregs, hnum]
  have hrun : programRanges P memoryCacheType q ranges = _ :=
    hq ▸ programRanges_withRange p q.base q.length ranges
  rw [hrun]

theorem programAligned_eq (rounds : ℕ) (p : ProgramVars) :
    programAligned P memoryCacheType rounds p =
      (alignedRanges rounds p.base p.length).map fun r ↦
        { programRanges P memoryCacheType p r.1 with base := r.2.base, length := r.2.length } := by
  induction rounds generalizing p with
  | zero => rfl
  | succ rounds ih =>
    rw [programAligned, alignedRanges]
    split
    · rfl
    · rw [ih, Option.map_map]
      refine congrArg (Option.map · _) (funext fun r ↦ ?_)
      rw [programRanges_withRange]
      rfl

theorem programPowers_eq (positive : Bool) (rounds : ℕ) (p : ProgramVars) :
    (programPowers P memoryCacheType positive rounds p).map (·.variableMtrr) =
      (powerRanges positive rounds p.base p.length).map fun ranges ↦
        (programRanges P memoryCacheType p ranges).variableMtrr := by
  induction rounds generalizing p with
  | zero => rfl
  | succ rounds ih =>
    rw [programPowers, powerRanges]
    by_cases hdone : p.length - power2MaxMemory p.length = 0
    · have hpower : (p.power P memoryCacheType positive).length = 0 := hdone
      rw [if_pos hpower]
      simp only [if_pos hdone]
      rfl
    · have hpower : (p.power P memoryCacheType positive).length ≠ 0 := hdone
      rw [if_neg hpower, ih]
      simp only [if_neg hdone]
      rw [Option.map_map]
      refine congrArg (Option.map · _) (funext fun ranges ↦ ?_)
      change _ = (programRanges P memoryCacheType (p.program P _ _ memoryCacheType)
        ranges).variableMtrr
      refine programRanges_congr ?_ ?_ ranges <;> rfl

/-- The registers after the calls. -/
def programCalls (P : MtrrPlatform) (variableMtrr : ℕ → MtrrVariableSetting)
    (calls : List ProgramCall) : ℕ → MtrrVariableSetting :=
  calls.foldl (fun regs call ↦
    programVariableMtrr P regs call.msrNum call.base call.length call.memoryCacheType) variableMtrr

theorem programRanges_eq (p : ProgramVars) (ranges : List MtrrRange) :
    (programRanges P memoryCacheType p ranges).variableMtrr =
      programCalls P p.variableMtrr (callsOf P memoryCacheType p ranges) := by
  induction ranges generalizing p with
  | nil => rfl
  | cons r ranges ih => exact ih (p.program P r.base r.length memoryCacheType)

theorem programRanges_append (p : ProgramVars) (ranges ranges' : List MtrrRange) :
    programRanges P memoryCacheType p (ranges ++ ranges') =
      programRanges P memoryCacheType (programRanges P memoryCacheType p ranges) ranges' :=
  List.foldl_append

/-- The calls with the type of the request, and those of the subtractive form, `UC`. -/
def attributeCalls (P : MtrrPlatform) (memoryCacheType : BitVec 64) (p : ProgramVars)
    (r : List MtrrRange × List MtrrRange) : List ProgramCall :=
  callsOf P memoryCacheType p r.1

/-- The calls of the subtractive form, with the type `UC`. -/
def uncacheableCalls (P : MtrrPlatform) (memoryCacheType : BitVec 64) (p : ProgramVars)
    (r : List MtrrRange × List MtrrRange) : List ProgramCall :=
  callsOf P MtrrMemoryCacheType.cacheUncacheable.value (programRanges P memoryCacheType p r.1) r.2

theorem programStart_eq (rounds : ℕ) (p : ProgramVars) :
    (if p.base ≠ 0 then programAligned P memoryCacheType rounds p else some p) =
      (alignedStart rounds p.base p.length).map fun r ↦
        { programRanges P memoryCacheType p r.1 with base := r.2.base, length := r.2.length } := by
  rw [alignedStart]
  by_cases hbase : p.base ≠ 0
  · rw [if_pos hbase, if_pos hbase, programAligned_eq]
  · rw [if_neg hbase, if_neg hbase]
    rfl

/-- The second pass without its do-notation. -/
theorem programVariables_bind (rounds : ℕ) (positive : Bool) (p : ProgramVars) :
    programVariables P rounds memoryCacheType positive p =
      (if p.base ≠ 0 then programAligned P memoryCacheType rounds p else some p).bind fun q ↦
        if p.base ≠ 0 ∧ q.length = 0 then some q.variableMtrr
        else if positive = true then
          (programPowers P memoryCacheType true rounds q).map (·.variableMtrr)
        else
          (programPowers P MtrrMemoryCacheType.cacheUncacheable.value false rounds
            { q.program P q.base (power2MaxMemory (q.length <<< 1)) memoryCacheType with
              base := q.base + power2MaxMemory (q.length <<< 1)
              length := power2MaxMemory (q.length <<< 1) - q.length }).map (·.variableMtrr) := by
  rw [programVariables]
  by_cases hbase : p.base ≠ 0
  · rw [if_pos hbase, if_pos hbase]
    rfl
  · rw [if_neg hbase, if_neg hbase]
    rfl

/-- **The second pass**, call by call. -/
theorem programVariables_eq (rounds : ℕ) (positive : Bool) (p : ProgramVars) :
    programVariables P rounds memoryCacheType positive p =
      (rangesOf rounds positive p.base p.length).map fun r ↦
        programCalls P p.variableMtrr
          (attributeCalls P memoryCacheType p r ++ uncacheableCalls P memoryCacheType p r) := by
  have hcalls : ∀ r : List MtrrRange × List MtrrRange, programCalls P p.variableMtrr
      (attributeCalls P memoryCacheType p r ++ uncacheableCalls P memoryCacheType p r) =
        (programRanges P MtrrMemoryCacheType.cacheUncacheable.value
          (programRanges P memoryCacheType p r.1) r.2).variableMtrr := by
    intro r
    rw [programRanges_eq, programRanges_eq]
    exact List.foldl_append
  simp only [hcalls]
  rw [programVariables_bind, programStart_eq, rangesOf, Option.map_bind, Option.bind_map]
  refine congrArg (Option.bind _) (funext fun r ↦ ?_)
  simp only [Function.comp_apply]
  by_cases hdone : p.base ≠ 0 ∧ r.2.length = 0
  · rw [if_pos hdone, if_pos hdone]
    rfl
  · rw [if_neg hdone, if_neg hdone]
    cases positive with
    | true =>
      rw [if_pos rfl, if_pos rfl, programPowers_eq, Option.map_map]
      refine congrArg (Option.map · _) (funext fun ranges ↦ ?_)
      rw [programRanges_withRange]
      simp only [Function.comp_apply, programRanges_append]
      rfl
    | false =>
      rw [if_neg Bool.false_ne_true, if_neg Bool.false_ne_true, programPowers_eq]
      simp only [Option.map_map]
      refine congrArg (Option.map · _) (funext fun ranges ↦ ?_)
      rw [programRanges_withRange]
      simp only [Function.comp_apply, programRanges_append]
      refine programRanges_congr ?_ ?_ ranges <;> rfl

/-! ### Free registers -/

/-- The registers below `n` that are not enabled. -/
def freeRegisters (n : ℕ) (variableMtrr : ℕ → MtrrVariableSetting) : Finset ℕ :=
  (Finset.range n).filter fun i ↦ ¬ (variableMtrr i).Enabled

theorem mem_freeRegisters {n i : ℕ} {variableMtrr : ℕ → MtrrVariableSetting} :
    i ∈ freeRegisters n variableMtrr ↔ i < n ∧ ¬ (variableMtrr i).Enabled := by
  rw [freeRegisters, Finset.mem_filter, Finset.mem_range]

/-- All registers before the one at hand are enabled. -/
def LowEnabled (p : ProgramVars) : Prop := ∀ i < p.msrNum, (p.variableMtrr i).Enabled

variable {n : ℕ} {variableMtrr : ℕ → MtrrVariableSetting}

theorem enabled_of_lt_findUnused {msrNum i : ℕ} (hle : msrNum ≤ i)
    (hi : i < findUnused n variableMtrr msrNum) : (variableMtrr i).Enabled := by
  rw [findUnused] at hi
  by_contra hfree
  cases hfind : (List.range n).find? fun i ↦
      decide (msrNum ≤ i ∧ ¬ (variableMtrr i).Enabled) with
  | none =>
    rw [hfind, Option.getD_none] at hi
    have hno := List.find?_eq_none.1 hfind i (List.mem_range.2 hi)
    exact hno (decide_eq_true ⟨hle, hfree⟩)
  | some j =>
    rw [hfind, Option.getD_some] at hi
    have hno := (List.find?_range_eq_some.1 hfind).2.2 i hi
    rw [Bool.not_eq_true', decide_eq_false_iff_not] at hno
    exact hno ⟨hle, hfree⟩

/-- The first free register is found. -/
theorem findUnused_mem {F msrNum : ℕ} (hF : F ≤ n) (hlow : ∀ i < msrNum, (variableMtrr i).Enabled)
    (hfree : (freeRegisters F variableMtrr).Nonempty) :
    findUnused n variableMtrr msrNum ∈ freeRegisters F variableMtrr := by
  obtain ⟨i, hi⟩ := hfree
  obtain ⟨hiF, hiFree⟩ := mem_freeRegisters.1 hi
  have hle : msrNum ≤ i := Nat.le_of_not_lt fun hlt ↦ hiFree (hlow i hlt)
  have hfound : findUnused n variableMtrr msrNum ≤ i :=
    Nat.le_of_not_lt fun hlt ↦ hiFree (enabled_of_lt_findUnused hle hlt)
  refine mem_freeRegisters.2 ⟨by omega, ?_⟩
  rw [findUnused] at hfound ⊢
  cases hfind : (List.range n).find? fun i ↦
      decide (msrNum ≤ i ∧ ¬ (variableMtrr i).Enabled) with
  | none =>
    rw [hfind, Option.getD_none] at hfound
    omega
  | some j =>
    have hj := (List.find?_range_eq_some.1 hfind).1
    exact (of_decide_eq_true hj).2

/-- **What the calls do**: each has a free register of its own, which then holds what it writes, and
nothing else changes. -/
structure Programmed (P : MtrrPlatform) (F : ℕ) (before after : ℕ → MtrrVariableSetting)
    (calls : List ProgramCall) : Prop where
  free : ∀ call ∈ calls, call.msrNum ∈ freeRegisters F before
  distinct : (calls.map ProgramCall.msrNum).Nodup
  written : ∀ call ∈ calls, after call.msrNum = call.setting P
  frame : ∀ i, i ∉ calls.map ProgramCall.msrNum → after i = before i

theorem Programmed.nil (F : ℕ) (before : ℕ → MtrrVariableSetting) :
    Programmed P F before before [] :=
  ⟨List.forall_mem_nil _, List.nodup_nil, List.forall_mem_nil _, fun _ _ ↦ rfl⟩

/-- One call. -/
theorem Programmed.singleton {F : ℕ} {before : ℕ → MtrrVariableSetting} (call : ProgramCall)
    (hfree : call.msrNum ∈ freeRegisters F before) :
    Programmed P F before (Function.update before call.msrNum (call.setting P)) [call] := by
  refine ⟨List.forall_mem_singleton.2 hfree, List.nodup_singleton _,
    List.forall_mem_singleton.2 (Function.update_self _ _ _), fun i hi ↦ ?_⟩
  rw [List.map_singleton, List.mem_singleton] at hi
  exact Function.update_of_ne hi _ _

/-- Calls after calls: a register that has been written is not free any more. -/
theorem Programmed.append {F : ℕ} {before mid after : ℕ → MtrrVariableSetting}
    {calls calls' : List ProgramCall} (h : Programmed P F before mid calls)
    (h' : Programmed P F mid after calls') : Programmed P F before after (calls ++ calls') := by
  have hdisjoint : ∀ call' ∈ calls', call'.msrNum ∉ calls.map ProgramCall.msrNum := by
    intro call' hcall' hmem
    obtain ⟨call, hcall, heq⟩ := List.mem_map.1 hmem
    have hfree := (mem_freeRegisters.1 (h'.free call' hcall')).2
    rw [← heq, h.written call hcall] at hfree
    exact hfree enabled_programmedSetting
  have hdisjoint' : ∀ call ∈ calls, call.msrNum ∉ calls'.map ProgramCall.msrNum := by
    intro call hcall hmem
    obtain ⟨call', hcall', heq⟩ := List.mem_map.1 hmem
    exact hdisjoint call' hcall' (heq ▸ List.mem_map_of_mem hcall)
  refine ⟨fun call hcall ↦ ?_, ?_, fun call hcall ↦ ?_, fun i hi ↦ ?_⟩
  · rcases List.mem_append.1 hcall with hcall | hcall
    · exact h.free call hcall
    · have hfree := mem_freeRegisters.1 (h'.free call hcall)
      rw [h.frame _ (hdisjoint call hcall)] at hfree
      exact mem_freeRegisters.2 hfree
  · rw [List.map_append]
    refine List.Nodup.append h.distinct h'.distinct fun i hi hi' ↦ ?_
    obtain ⟨call', hcall', rfl⟩ := List.mem_map.1 hi'
    exact hdisjoint call' hcall' hi
  · rcases List.mem_append.1 hcall with hcall | hcall
    · rw [h'.frame _ (hdisjoint' call hcall), h.written call hcall]
    · exact h'.written call hcall
  · rw [List.map_append, List.mem_append, not_or] at hi
    rw [h'.frame i hi.2, h.frame i hi.1]

/-- One register less is free. -/
theorem freeRegisters_update {F i : ℕ} {v : MtrrVariableSetting} (hv : v.Enabled) :
    freeRegisters F (Function.update variableMtrr i v) = (freeRegisters F variableMtrr).erase i := by
  ext j
  rw [Finset.mem_erase, mem_freeRegisters, mem_freeRegisters]
  by_cases hj : j = i
  · rw [hj, Function.update_self]
    exact iff_of_false (fun h ↦ h.2 hv) fun h ↦ h.1 rfl
  · rw [Function.update_of_ne hj, and_iff_right hj]

theorem LowEnabled.program {p : ProgramVars} (h : LowEnabled p) (base length : BitVec 64) :
    LowEnabled (p.program P base length memoryCacheType) := by
  intro i hi
  have hi' : i < findUnused (getVariableMtrrCountWorker P) p.variableMtrr p.msrNum := hi
  have henabled : (p.variableMtrr i).Enabled := by
    rcases Nat.lt_or_ge i p.msrNum with hlt | hle
    · exact h i hlt
    · exact enabled_of_lt_findUnused hle hi'
  have hsame : (p.program P base length memoryCacheType).variableMtrr i = p.variableMtrr i :=
    Function.update_of_ne (Nat.ne_of_lt hi') _ _
  rwa [hsame]

/-- **Ranges for which there are registers** are programmed into free ones. -/
theorem programmed_programRanges (memoryCacheType : BitVec 64) {F : ℕ} (hF : F ≤ getVariableMtrrCountWorker P) {p : ProgramVars}
    {ranges : List MtrrRange} (hlow : LowEnabled p)
    (hfree : ranges.length ≤ (freeRegisters F p.variableMtrr).card) :
    Programmed P F p.variableMtrr (programRanges P memoryCacheType p ranges).variableMtrr
        (callsOf P memoryCacheType p ranges) ∧
      LowEnabled (programRanges P memoryCacheType p ranges) ∧
      (freeRegisters F (programRanges P memoryCacheType p ranges).variableMtrr).card + ranges.length =
        (freeRegisters F p.variableMtrr).card := by
  induction ranges generalizing p with
  | nil => exact ⟨Programmed.nil F _, hlow, rfl⟩
  | cons r ranges ih =>
    rw [List.length_cons] at hfree
    have hmem := findUnused_mem hF hlow (Finset.card_pos.1 (by omega))
    have hregs : freeRegisters F (p.program P r.base r.length memoryCacheType).variableMtrr =
        (freeRegisters F p.variableMtrr).erase _ := freeRegisters_update enabled_programmedSetting
    have hcard := Finset.card_erase_add_one hmem
    rw [← hregs] at hcard
    have hnext : LowEnabled (p.program P r.base r.length memoryCacheType) :=
      hlow.program r.base r.length
    obtain ⟨hrest, hlow', hcount⟩ := ih hnext (by omega)
    have hone : Programmed P F p.variableMtrr
        (p.program P r.base r.length memoryCacheType).variableMtrr
        [⟨findUnused (getVariableMtrrCountWorker P) p.variableMtrr p.msrNum, r.base, r.length,
          memoryCacheType⟩] := Programmed.singleton ⟨_, _, _, _⟩ hmem
    refine ⟨hone.append hrest, hlow', ?_⟩
    change (freeRegisters F (programRanges P memoryCacheType
      (p.program P r.base r.length memoryCacheType) ranges).variableMtrr).card + (ranges.length + 1) = _
    omega

end PurleyFirmware.Mtrr
