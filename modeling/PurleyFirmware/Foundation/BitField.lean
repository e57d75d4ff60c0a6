import Mathlib.Data.Nat.Notation

/-!
# Bit fields

`BitFieldWrite32` and `BitFieldWrite64` of `BitField.c`, which differ in the width only: the bits
from the first to the last are cleared and the value, shifted to them, is put in their place. The
mask `~((UINTN) -2 << EndBit)` has the bits up to the last.
-/

namespace PurleyFirmware

variable {w : ℕ}

/-- `~((UINTN) -2 << EndBit)`. -/
def lowMask (w endBit : ℕ) : BitVec w := ~~~((-2 : BitVec w) <<< endBit)

/-- `BitFieldAnd` with the data 0, then `BitFieldOr`. -/
def bitFieldWrite (operand : BitVec w) (startBit endBit : ℕ) (value : BitVec w) : BitVec w :=
  (operand &&& ~~~((~~~(0 : BitVec w) <<< startBit) &&& lowMask w endBit)) |||
    ((value <<< startBit) &&& lowMask w endBit)

theorem getLsbD_lowMask {endBit i : ℕ} (hi : i < w) :
    (lowMask w endBit).getLsbD i = decide (i ≤ endBit) := by
  rw [lowMask, BitVec.getLsbD_not, BitVec.getLsbD_shiftLeft]
  have htwo : ∀ j < w, (-2 : BitVec w).getLsbD j = decide (0 < j) := by
    intro j hj
    have hval : (-2 : BitVec w) = ~~~(1#w) := by
      rw [BitVec.not_eq_neg_add, ← BitVec.ofNat_eq_ofNat]
      grind
    rw [hval, BitVec.getLsbD_not, BitVec.getLsbD_one]
    rcases Nat.eq_zero_or_pos j with rfl | hpos
    · simp [hj]
    · simp [hj, hpos, Nat.ne_of_gt hpos]
  by_cases hle : i < endBit
  · simp [hi, hle, Nat.le_of_lt hle]
  · rw [htwo _ (Nat.lt_of_le_of_lt (Nat.sub_le i endBit) hi)]
    by_cases heq : i = endBit
    · subst heq
      simp [hi]
    · simp [hi, hle, show ¬ i ≤ endBit by omega, show 0 < i - endBit by omega]

/-- **The bits of the result**: those of the value in the field, those of the operand elsewhere. -/
theorem getLsbD_bitFieldWrite (operand value : BitVec w) {startBit endBit i : ℕ} (hi : i < w) :
    (bitFieldWrite operand startBit endBit value).getLsbD i
      = if startBit ≤ i ∧ i ≤ endBit then value.getLsbD (i - startBit) else operand.getLsbD i := by
  rw [bitFieldWrite, BitVec.getLsbD_or, BitVec.getLsbD_and, BitVec.getLsbD_and, BitVec.getLsbD_not,
    BitVec.getLsbD_and, getLsbD_lowMask hi, BitVec.getLsbD_shiftLeft, BitVec.getLsbD_shiftLeft]
  by_cases hstart : startBit ≤ i
  · have hones : (~~~(0 : BitVec w)).getLsbD (i - startBit) = true := by
      rw [BitVec.getLsbD_not]
      simp [Nat.lt_of_le_of_lt (Nat.sub_le i startBit) hi]
    rw [hones]
    by_cases hend : i ≤ endBit <;> simp [hi, hstart, hend, Nat.not_lt.2 hstart]
  · simp [hi, hstart, Nat.lt_of_not_le hstart]

/-- A write through a wider word comes to the same with the value cut to the width. -/
theorem setWidth_bitFieldWrite_setWidth {v : ℕ} (hv : v ≤ w) (operand value : BitVec w)
    (startBit endBit : ℕ) :
    (bitFieldWrite operand startBit endBit ((value.setWidth v).setWidth w)).setWidth v
      = (bitFieldWrite operand startBit endBit value).setWidth v := by
  refine BitVec.eq_of_getLsbD_eq fun i hi ↦ ?_
  have hiw := Nat.lt_of_lt_of_le hi hv
  rw [BitVec.getLsbD_setWidth, BitVec.getLsbD_setWidth, getLsbD_bitFieldWrite _ _ hiw,
    getLsbD_bitFieldWrite _ _ hiw, BitVec.getLsbD_setWidth, BitVec.getLsbD_setWidth]
  have hlt := Nat.lt_of_le_of_lt (Nat.sub_le i startBit) hi
  simp [hlt, Nat.lt_of_lt_of_le hlt hv]

end PurleyFirmware
