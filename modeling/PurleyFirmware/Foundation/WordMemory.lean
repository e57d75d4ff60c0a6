import Mathlib.Logic.Function.Basic
import PurleyFirmware.Foundation.Loops

/-!
# Memory as numbered words

A memory of words, named by their numbers. An array is a first word and a length, and a loop that
assigns its elements in turn changes them and nothing else (`fillWords_apply`). A copy of a list into
memory is the same with the elements of the list (`copyWords`); `HoldsWords` says that a list is at a
place.
-/

namespace PurleyFirmware

variable {α : Type*}

/-- `for (Index = 0; Index < n; Index++) Base[Index] = f (Index)`. -/
def fillWords (m : ℕ → α) (base n : ℕ) (f : ℕ → α) : ℕ → α :=
  (List.range n).foldl (fun m index ↦ Function.update m (base + index) (f index)) m

theorem fillWords_apply (m : ℕ → α) (base n : ℕ) (f : ℕ → α) (w : ℕ) :
    fillWords m base n f w = if base ≤ w ∧ w < base + n then f (w - base) else m w := by
  refine foldl_range_invariant (P := fun k (m' : ℕ → α) ↦
    m' w = if base ≤ w ∧ w < base + k then f (w - base) else m w) ?_ fun k _ m' hm' ↦ ?_
  · rw [if_neg (by omega)]
  · by_cases hw : w = base + k
    · subst hw
      rw [Function.update_self, if_pos (by omega), Nat.add_sub_cancel_left]
    · rw [Function.update_of_ne hw, hm']
      by_cases hin : base ≤ w ∧ w < base + k
      · rw [if_pos hin, if_pos (by omega)]
      · rw [if_neg hin, if_neg (by omega)]

theorem fillWords_add (m : ℕ → α) (base : ℕ) {n i : ℕ} (f : ℕ → α) (hi : i < n) :
    fillWords m base n f (base + i) = f i := by
  rw [fillWords_apply, if_pos (by omega), Nat.add_sub_cancel_left]

theorem fillWords_of_not (m : ℕ → α) {base n w : ℕ} (f : ℕ → α)
    (hw : w < base ∨ base + n ≤ w) : fillWords m base n f w = m w := by
  rw [fillWords_apply, if_neg (by omega)]

/-! ### Copies -/

/-- The memory with a list copied to `base`. -/
def copyWords (m : ℕ → α) (base : ℕ) (l : List α) (w : ℕ) : α :=
  if base ≤ w then l[w - base]?.getD (m w) else m w

/-- The list is in memory at `base`. -/
def HoldsWords (m : ℕ → α) (base : ℕ) (l : List α) : Prop :=
  ∀ i (h : i < l.length), m (base + i) = l[i]

theorem copyWords_of_not (m : ℕ → α) {base w : ℕ} {l : List α}
    (hw : w < base ∨ base + l.length ≤ w) : copyWords m base l w = m w := by
  rw [copyWords]
  split
  · rw [List.getElem?_eq_none (by omega), Option.getD_none]
  · rfl

theorem holdsWords_copyWords (m : ℕ → α) (base : ℕ) (l : List α) :
    HoldsWords (copyWords m base l) base l := by
  intro i hi
  rw [copyWords, if_pos (Nat.le_add_right base i), Nat.add_sub_cancel_left,
    List.getElem?_eq_getElem hi, Option.getD_some]

/-- A copy beside a list leaves it where it is. -/
theorem HoldsWords.copyWords {m : ℕ → α} {base base' : ℕ} {l l' : List α}
    (h : HoldsWords m base l)
    (hdisjoint : base + l.length ≤ base' ∨ base' + l'.length ≤ base) :
    HoldsWords (PurleyFirmware.copyWords m base' l') base l := by
  intro i hi
  rw [copyWords_of_not m (by omega)]
  exact h i hi

end PurleyFirmware
