import Mathlib.Algebra.Ring.Nat
import Mathlib.Data.BitVec
import Mathlib.Data.Nat.Bitwise

/-!
# Address decoding by base and mask

A decoder with a base and a mask claims the addresses that agree with the base outside the mask,
where a few low bits are never compared. The mask of a **block**, `2 ^ k - 2 ^ low`, leaves the bits
from `k` on to be compared, so the addresses claimed are those of one aligned block of `2 ^ k`. For
a base that is itself aligned this is an interval, `maskMatch_block_iff`; for any other base it is
not the interval that starts there.

Registers hold the base of a port range in bits 2 to 15, next to other fields. A dword-aligned
address reads back from there unchanged, `and_portMask_eq`.
-/

namespace PurleyFirmware

/-- `p` agrees with the base on every bit from `low` on that is not in the mask. -/
def MaskMatch (low mask base p : ℕ) : Prop :=
  ∀ i, low ≤ i → mask.testBit i = false → p.testBit i = base.testBit i

variable {low k base p : ℕ}

/-- The bits of a block mask. -/
theorem testBit_blockMask (hlow : low ≤ k) (i : ℕ) :
    (2 ^ k - 2 ^ low).testBit i = (decide (i < k) && decide (low ≤ i)) := by
  have hpos : 0 < 2 ^ low := Nat.two_pow_pos low
  have hle : 2 ^ low ≤ 2 ^ k := Nat.pow_le_pow_right (by omega) hlow
  have hsucc : 2 ^ k - 2 ^ low = 2 ^ k - ((2 ^ low - 1) + 1) := by omega
  rw [hsucc, Nat.testBit_two_pow_sub_succ (by omega), Nat.testBit_two_pow_sub_one]
  congr 1
  rw [← decide_not]
  exact decide_eq_decide.2 not_lt

/-- **A block mask compares block numbers.** -/
theorem maskMatch_blockMask_iff (hlow : low ≤ k) :
    MaskMatch low (2 ^ k - 2 ^ low) base p ↔ p / 2 ^ k = base / 2 ^ k := by
  constructor
  · intro h
    refine Nat.eq_of_testBit_eq fun i ↦ ?_
    rw [Nat.testBit_div_two_pow, Nat.testBit_div_two_pow]
    refine h (i + k) (by omega) ?_
    rw [testBit_blockMask hlow, decide_eq_false (by omega), Bool.false_and]
  · intro h i hi hmask
    have hk : k ≤ i := by
      by_contra hlt
      rw [testBit_blockMask hlow, decide_eq_true (by omega), decide_eq_true hi] at hmask
      cases hmask
    obtain ⟨j, rfl⟩ : ∃ j, i = j + k := ⟨i - k, by omega⟩
    rw [← Nat.testBit_div_two_pow, ← Nat.testBit_div_two_pow, h]

/-- **From an aligned base, a block is an interval.** -/
theorem maskMatch_block_iff (hlow : low ≤ k) (halign : 2 ^ k ∣ base) :
    MaskMatch low (2 ^ k - 2 ^ low) base p ↔ base ≤ p ∧ p < base + 2 ^ k := by
  rw [maskMatch_blockMask_iff hlow]
  obtain ⟨q, rfl⟩ := halign
  have hpos : 0 < 2 ^ k := Nat.two_pow_pos k
  rw [Nat.mul_div_cancel_left q hpos, Nat.div_eq_iff hpos]
  have hcomm : 2 ^ k * q = q * 2 ^ k := Nat.mul_comm _ _
  constructor
  · rintro ⟨hle, hlt⟩
    exact ⟨by omega, by omega⟩
  · rintro ⟨hle, hlt⟩
    exact ⟨by omega, by omega⟩

/-! ### The address field of a register -/

theorem getLsbD_portMask :
    ∀ i < 32, (0xFFFC : BitVec 32).getLsbD i = (decide (2 ≤ i) && decide (i < 16)) := by
  decide

/-- An address is a multiple of four when its two low bits are zero. -/
theorem getLsbD_of_and_three {address : BitVec 16} (h : address &&& 3 = 0) {i : ℕ} (hi : i < 2) :
    address.getLsbD i = false := by
  have hmask : ∀ i < 2, (3 : BitVec 16).getLsbD i = true := by decide
  have hbit := congrArg (fun b : BitVec 16 ↦ b.getLsbD i) h
  simp only [BitVec.getLsbD_and, hmask i hi, Bool.and_true] at hbit
  simpa using hbit

/-- **The address reads back**, whatever the other fields of the register hold. -/
theorem and_portMask_eq {address : BitVec 16} (h : address &&& 3 = 0) {value : BitVec 32}
    (hvalue : ∀ i, 2 ≤ i → i < 16 → value.getLsbD i = address.getLsbD i) :
    value &&& 0xFFFC = address.setWidth 32 := by
  refine BitVec.eq_of_getLsbD_eq fun i hi ↦ ?_
  rw [BitVec.getLsbD_and, getLsbD_portMask i hi, BitVec.getLsbD_setWidth, decide_eq_true hi,
    Bool.true_and]
  rcases lt_or_ge i 2 with hlow | hlow
  · rw [getLsbD_of_and_three h hlow, decide_eq_false (by omega), Bool.false_and, Bool.and_false]
  · rcases lt_or_ge i 16 with hmid | hhigh
    · rw [hvalue i hlow hmid, decide_eq_true hlow, decide_eq_true hmid, Bool.and_true,
        Bool.and_true]
    · rw [decide_eq_false (by omega : ¬ i < 16), Bool.and_false, Bool.and_false,
        BitVec.getLsbD_of_ge address i hhigh]

end PurleyFirmware
