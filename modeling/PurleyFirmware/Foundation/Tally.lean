import Mathlib.Algebra.BigOperators.Group.Finset.Basic
import Mathlib.Algebra.Order.BigOperators.Group.Finset
import Mathlib.Data.Finset.Range
import Mathlib.Logic.Function.Basic

/-!
# Counting parties by their local state

A protocol with any number of parties keeps a local state for each of them, `f : ℕ → α`, and its
counting invariants compare a shared counter with the number of parties whose local state satisfies
some predicate. `tally n w f` is that number for the parties below `n`, with a weight `w` in place
of a predicate so that sums of tallies are tallies.

A step of the protocol changes one party. `tally_frame` says what that does to a tally, in an
additive form that linear arithmetic can use without knowing the order of the two sides.
-/

namespace PurleyFirmware

open Finset

universe u v

variable {α : Type u} {β : Type v} {n : ℕ} {w : α → ℕ} {w' : β → ℕ} {f : ℕ → α} {g : ℕ → β}

/-- The total weight of the local states of the parties below `n`. -/
def tally (n : ℕ) (w : α → ℕ) (f : ℕ → α) : ℕ := ∑ i ∈ range n, w (f i)

theorem tally_succ : tally (n + 1) w f = tally n w f + w (f n) := sum_range_succ _ _

/-- **One party differs.** Two tallies that agree on all parties but one differ by what they say of
that party. -/
theorem tally_frame {i : ℕ} (hi : i < n) (h : ∀ j, j ≠ i → w (f j) = w' (g j)) :
    tally n w f + w' (g i) = tally n w' g + w (f i) := by
  have hmem : i ∈ range n := mem_range.2 hi
  have hrest : ∑ j ∈ (range n).erase i, w (f j) = ∑ j ∈ (range n).erase i, w' (g j) :=
    sum_congr rfl fun j hj ↦ h j (ne_of_mem_erase hj)
  unfold tally
  rw [← add_sum_erase (range n) (fun j ↦ w (f j)) hmem,
    ← add_sum_erase (range n) (fun j ↦ w' (g j)) hmem, hrest]
  omega

/-- **One party moves.** -/
theorem tally_update {i : ℕ} (hi : i < n) (w : α → ℕ) (f : ℕ → α) (a : α) :
    tally n w (Function.update f i a) + w (f i) = tally n w f + w a := by
  have hoff : ∀ j, j ≠ i → w (Function.update f i a j) = w (f j) := by
    intro j hj
    rw [Function.update_of_ne hj]
  have hframe := tally_frame hi hoff
  rwa [Function.update_self] at hframe

theorem tally_eq_zero_iff : tally n w f = 0 ↔ ∀ i, i < n → w (f i) = 0 := by
  simp [tally, sum_eq_zero_iff]

theorem tally_congr (h : ∀ i, i < n → w (f i) = w' (g i)) : tally n w f = tally n w' g :=
  sum_congr rfl fun i hi ↦ h i (mem_range.1 hi)

theorem tally_mono (h : ∀ i, i < n → w (f i) ≤ w' (g i)) : tally n w f ≤ tally n w' g :=
  sum_le_sum fun i hi ↦ h i (mem_range.1 hi)

/-- If one party weighs less and none weighs more, the tally is less. -/
theorem tally_lt_tally (h : ∀ i, i < n → w (f i) ≤ w' (g i)) {i : ℕ} (hi : i < n)
    (hlt : w (f i) < w' (g i)) : tally n w f < tally n w' g :=
  sum_lt_sum (fun j hj ↦ h j (mem_range.1 hj)) ⟨i, mem_range.2 hi, hlt⟩

/-- Weights of at most one count parties, so there are at most `n` of them. -/
theorem tally_le (h : ∀ a, w a ≤ 1) : tally n w f ≤ n := by
  have hsum := sum_le_card_nsmul (range n) (fun i ↦ w (f i)) 1 fun i _ ↦ h (f i)
  simpa [tally] using hsum

end PurleyFirmware
