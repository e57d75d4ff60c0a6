import Mathlib.Algebra.Order.Ring.Nat
import Mathlib.Data.Nat.Log

/-!
# Splitting a range into aligned blocks

A block is a range whose length is a power of two that divides its start. A range that starts, or
ends, at a multiple of a power of two above its length is split into blocks by taking the largest
power of two that fits, again and again: what is taken is a block (`isBlock_up`, `isBlock_down`), and
what is left is smaller than it (`sub_log2_lt`), so that the next one is a block too.
-/

namespace PurleyFirmware

/-- A range whose length is a power of two, at least `2 ^ low`, and which starts at a multiple of
it. -/
def IsBlock (low base length : ℕ) : Prop := ∃ k, low ≤ k ∧ length = 2 ^ k ∧ 2 ^ k ∣ base

variable {low k base length : ℕ}

/-- The multiples of `2 ^ k` are the numbers without a bit below `k`. -/
theorem two_pow_dvd_iff_testBit {n : ℕ} : 2 ^ k ∣ n ↔ ∀ j < k, n.testBit j = false := by
  rw [Nat.dvd_iff_mod_eq_zero]
  constructor
  · intro hmod j hj
    have hbit := Nat.testBit_mod_two_pow n k j
    rw [hmod, Nat.zero_testBit, decide_eq_true hj, Bool.true_and] at hbit
    exact hbit.symm
  · intro hbits
    refine Nat.eq_of_testBit_eq fun j ↦ ?_
    rw [Nat.testBit_mod_two_pow, Nat.zero_testBit]
    by_cases hj : j < k
    · rw [hbits j hj, Bool.and_false]
    · rw [decide_eq_false hj, Bool.false_and]

/-- The largest power of two that fits. -/
theorem log2_le (h : length ≠ 0) : 2 ^ length.log2 ≤ length := Nat.log2_self_le h

/-- What is left is smaller than what has been taken. -/
theorem sub_log2_lt : length - 2 ^ length.log2 < 2 ^ length.log2 := by
  have hlt : length < 2 ^ (length.log2 + 1) := Nat.lt_log2_self
  have hpos : 0 < 2 ^ length.log2 := Nat.two_pow_pos _
  rw [Nat.pow_succ] at hlt
  omega

theorem log2_lt_of_lt (h : length ≠ 0) (hk : length < 2 ^ k) : length.log2 < k :=
  (Nat.log2_lt h).2 hk

theorem le_log2_of_dvd (h : length ≠ 0) (hlow : 2 ^ low ∣ length) : low ≤ length.log2 :=
  (Nat.le_log2 h).2 (Nat.le_of_dvd (Nat.pos_of_ne_zero h) hlow)

/-- A multiple of `2 ^ k` is one of the largest power of two below. -/
theorem log2_dvd (h : length ≠ 0) (hk : length < 2 ^ k) (hbase : 2 ^ k ∣ base) :
    2 ^ length.log2 ∣ base :=
  (Nat.pow_dvd_pow 2 (Nat.le_of_lt (log2_lt_of_lt h hk))).trans hbase

/-- The block at the start of the range. -/
theorem isBlock_up (h : length ≠ 0) (hlow : 2 ^ low ∣ length) (hk : length < 2 ^ k)
    (hbase : 2 ^ k ∣ base) : IsBlock low base (2 ^ length.log2) :=
  ⟨length.log2, le_log2_of_dvd h hlow, rfl, log2_dvd h hk hbase⟩

/-- Behind it there is a multiple of its length again. -/
theorem log2_dvd_up (h : length ≠ 0) (hk : length < 2 ^ k) (hbase : 2 ^ k ∣ base) :
    2 ^ length.log2 ∣ base + 2 ^ length.log2 :=
  Nat.dvd_add (log2_dvd h hk hbase) (Nat.dvd_refl _)

/-- Before the block at the end of the range there is one, too. -/
theorem log2_dvd_down (h : length ≠ 0) (hk : length < 2 ^ k) (hbase : 2 ^ k ∣ base) :
    2 ^ length.log2 ∣ base - 2 ^ length.log2 :=
  Nat.dvd_sub (log2_dvd h hk hbase) (Nat.dvd_refl _)

/-- The block at the end of the range. -/
theorem isBlock_down (h : length ≠ 0) (hlow : 2 ^ low ∣ length) (hk : length < 2 ^ k)
    (hbase : 2 ^ k ∣ base) : IsBlock low (base - 2 ^ length.log2) (2 ^ length.log2) :=
  ⟨length.log2, le_log2_of_dvd h hlow, rfl, log2_dvd_down h hk hbase⟩

theorem dvd_sub_log2 (h : length ≠ 0) (hlow : 2 ^ low ∣ length) :
    2 ^ low ∣ length - 2 ^ length.log2 :=
  Nat.dvd_sub hlow (Nat.pow_dvd_pow 2 (le_log2_of_dvd h hlow))

/-- The smallest power of two above the length. -/
theorem log2_double (h : length ≠ 0) : (2 * length).log2 = length.log2 + 1 := Nat.log2_two_mul h

end PurleyFirmware
