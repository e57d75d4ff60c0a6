import Mathlib.Algebra.Ring.Nat

/-!
# Unsigned integers of a given width

Counters and indices of the firmware are natural numbers in this development, and an operation that
can wrap around is written as such. The lemmas say when it does not.
-/

namespace PurleyFirmware

/-- `a - b` on unsigned integers of `w` bits. -/
def wrapSub (w a b : ℕ) : ℕ := (a + (2 ^ w - b)) % 2 ^ w

/-- No wrap below the minuend. -/
theorem wrapSub_of_le {w a b : ℕ} (hb : b ≤ a) (ha : a < 2 ^ w) : wrapSub w a b = a - b := by
  have hsum : a + (2 ^ w - b) = (a - b) + 2 ^ w := by omega
  rw [wrapSub, hsum, Nat.add_mod_right, Nat.mod_eq_of_lt (by omega)]

end PurleyFirmware
