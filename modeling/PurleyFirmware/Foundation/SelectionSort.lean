import Mathlib

/-!
# Selection sort by swaps

Selection sort on an array that is a function of its index, for the case that several arrays are
permuted along with the one that has the keys: what the passes do is kept as a permutation of the
indices, `selectionPerm`, and the sorted array is the old one after it. Keys are compared by a rank
in a linear order.

A pass looks for the first least key at or behind its position (`scanMin`) and exchanges the two. Up
to the position of a pass the array is then in order, and nothing behind it is smaller
(`selectionPerm_le`); the permutation stays within the part that is sorted
(`selectionPerm_le_iff`).
-/

namespace PurleyFirmware

universe u v

variable {β : Type u} {γ : Type v} [LinearOrder γ] (rank : β → γ)

/-- The search for the least key, from the index and the key that are the best so far. -/
def scanMin (key : ℕ → β) : List ℕ → ℕ × β → ℕ × β
  | [], best => best
  | j :: js, best => scanMin key js (if rank (key j) < rank best.2 then (j, key j) else best)

/-- The index that a pass exchanges with its own. -/
def minIndex (key : ℕ → β) (i n : ℕ) : ℕ :=
  (scanMin rank key (List.range' (i + 1) (n - i)) (i, key i)).1

/-- What the first passes of a sort of the indices up to `n` have done. -/
def selectionPerm (key : ℕ → β) (n : ℕ) : ℕ → Equiv.Perm ℕ
  | 0 => Equiv.refl ℕ
  | i + 1 => (Equiv.swap i (minIndex rank (key ∘ selectionPerm key n i) i n)).trans
      (selectionPerm key n i)

variable {rank}

/-- The search gives an index, with its key, that it looked at. -/
theorem scanMin_mem (key : ℕ → β) (js : List ℕ) (best : ℕ × β) (hbest : best.2 = key best.1) :
    (scanMin rank key js best).1 ∈ best.1 :: js ∧
      (scanMin rank key js best).2 = key (scanMin rank key js best).1 := by
  induction js generalizing best with
  | nil => exact ⟨List.mem_cons_self, hbest⟩
  | cons j js ih =>
    rw [scanMin]
    split
    · obtain ⟨hmem, hkey⟩ := ih (j, key j) rfl
      exact ⟨List.mem_cons_of_mem _ hmem, hkey⟩
    · obtain ⟨hmem, hkey⟩ := ih best hbest
      refine ⟨?_, hkey⟩
      rcases List.mem_cons.1 hmem with h | h
      · rw [h]
        exact List.mem_cons_self
      · exact List.mem_cons_of_mem _ (List.mem_cons_of_mem _ h)

/-- No key that the search looked at is smaller. -/
theorem scanMin_le (key : ℕ → β) (js : List ℕ) (best : ℕ × β) :
    rank (scanMin rank key js best).2 ≤ rank best.2 ∧
      ∀ j ∈ js, rank (scanMin rank key js best).2 ≤ rank (key j) := by
  induction js generalizing best with
  | nil => exact ⟨le_rfl, fun j hj ↦ by cases hj⟩
  | cons j js ih =>
    rw [scanMin]
    split
    · obtain ⟨hbest, hjs⟩ := ih (j, key j)
      refine ⟨hbest.trans (le_of_lt ‹_›), fun k hk ↦ ?_⟩
      rcases List.mem_cons.1 hk with rfl | hk
      · exact hbest
      · exact hjs k hk
    · obtain ⟨hbest, hjs⟩ := ih best
      refine ⟨hbest, fun k hk ↦ ?_⟩
      rcases List.mem_cons.1 hk with rfl | hk
      · exact hbest.trans (le_of_not_gt ‹_›)
      · exact hjs k hk

/-- A pass finds an index at or behind its own. -/
theorem minIndex_mem (key : ℕ → β) {i n : ℕ} (hi : i ≤ n) :
    i ≤ minIndex rank key i n ∧ minIndex rank key i n ≤ n := by
  have hmem : minIndex rank key i n ∈ i :: List.range' (i + 1) (n - i) :=
    (scanMin_mem key _ (i, key i) rfl).1
  rcases List.mem_cons.1 hmem with h | h
  · rw [h]
    exact ⟨le_rfl, hi⟩
  · rw [List.mem_range'_1] at h
    omega

/-- No key at or behind a pass is smaller than the one it finds. -/
theorem minIndex_le (key : ℕ → β) {i n j : ℕ} (hij : i ≤ j) (hj : j ≤ n) :
    rank (key (minIndex rank key i n)) ≤ rank (key j) := by
  have hkey : (scanMin rank key (List.range' (i + 1) (n - i)) (i, key i)).2
      = key (minIndex rank key i n) := (scanMin_mem key _ (i, key i) rfl).2
  obtain ⟨hbest, hjs⟩ : rank (scanMin rank key (List.range' (i + 1) (n - i)) (i, key i)).2 ≤ _ ∧ _ :=
    scanMin_le key _ (i, key i)
  rw [← hkey]
  rcases Nat.eq_or_lt_of_le hij with rfl | hlt
  · exact hbest
  · exact hjs j (List.mem_range'_1.2 (by omega))

/-- An exchange at or behind a position leads from there to there. -/
theorem swap_bounds {i m n b : ℕ} (hm : i ≤ m ∧ m ≤ n) (hb : b ≤ n) :
    Equiv.swap i m b ≤ n ∧ (i ≤ b → i ≤ Equiv.swap i m b) := by
  rcases eq_or_ne b i with rfl | hbi
  · rw [Equiv.swap_apply_left]
    exact ⟨hm.2, fun _ ↦ hm.1⟩
  · rcases eq_or_ne b m with rfl | hbm
    · rw [Equiv.swap_apply_right]
      exact ⟨hm.1.trans hm.2, fun _ ↦ le_rfl⟩
    · rw [Equiv.swap_apply_of_ne_of_ne hbi hbm]
      exact ⟨hb, id⟩

/-- The passes stay within the part that is sorted. -/
theorem selectionPerm_le_iff {key : ℕ → β} {n i : ℕ} (hi : i ≤ n) {a : ℕ} :
    selectionPerm rank key n i a ≤ n ↔ a ≤ n := by
  induction i generalizing a with
  | zero => exact Iff.rfl
  | succ i ih =>
    have hmin : i ≤ minIndex rank (key ∘ selectionPerm rank key n i) i n ∧ _ :=
      minIndex_mem _ (show i ≤ n by omega)
    rw [selectionPerm, Equiv.trans_apply, ih (by omega)]
    constructor
    · intro h
      by_contra ha
      rw [Equiv.swap_apply_of_ne_of_ne (by omega) (by omega)] at h
      exact ha h
    · exact fun ha ↦ (swap_bounds hmin ha).1

/-- What is behind that part stays where it is. -/
theorem selectionPerm_apply_of_lt {key : ℕ → β} {n i a : ℕ} (hi : i ≤ n) (ha : n < a) :
    selectionPerm rank key n i a = a := by
  induction i with
  | zero => rfl
  | succ i ih =>
    have hmin : i ≤ minIndex rank (key ∘ selectionPerm rank key n i) i n ∧ _ :=
      minIndex_mem _ (show i ≤ n by omega)
    rw [selectionPerm, Equiv.trans_apply, Equiv.swap_apply_of_ne_of_ne (by omega) (by omega),
      ih (by omega)]

/-- **Selection sort.** Before the position of a pass the array is in order, and nothing behind is
smaller. -/
theorem selectionPerm_le {key : ℕ → β} {n i : ℕ} (hi : i ≤ n) {a b : ℕ} (ha : a < i) (hab : a ≤ b)
    (hb : b ≤ n) :
    rank (key (selectionPerm rank key n i a)) ≤ rank (key (selectionPerm rank key n i b)) := by
  induction i generalizing a b with
  | zero => exact absurd ha a.not_lt_zero
  | succ i ih =>
    have hmin : i ≤ minIndex rank (key ∘ selectionPerm rank key n i) i n ∧ _ :=
      minIndex_mem _ (show i ≤ n by omega)
    obtain ⟨hbn, hib⟩ := swap_bounds hmin hb
    simp only [selectionPerm, Equiv.trans_apply]
    rcases Nat.lt_or_eq_of_le (Nat.le_of_lt_succ ha) with hlt | rfl
    · -- the pass leaves what is before its position where it is
      rw [Equiv.swap_apply_of_ne_of_ne (by omega) (by omega)]
      refine ih (by omega) hlt ?_ hbn
      rcases Nat.lt_or_ge b i with hbi | hbi
      · rwa [Equiv.swap_apply_of_ne_of_ne (by omega) (by omega)]
      · exact hlt.le.trans (hib hbi)
    · rw [Equiv.swap_apply_left]
      exact minIndex_le (key ∘ selectionPerm rank key n a) (hib hab) hbn

/-- The whole sort: all passes but that at the last position, where there is nothing to do. -/
theorem selectionPerm_monotone {key : ℕ → β} {n a b : ℕ} (hab : a ≤ b) (hb : b ≤ n) :
    rank (key (selectionPerm rank key n n a)) ≤ rank (key (selectionPerm rank key n n b)) := by
  rcases Nat.lt_or_ge a n with ha | ha
  · exact selectionPerm_le le_rfl ha hab hb
  · obtain rfl : a = b := by omega
    exact le_rfl

end PurleyFirmware
