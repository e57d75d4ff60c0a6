import Mathlib.Data.BitVec
import Mathlib.Data.Bool.Basic

/-!
# Searches with a machine counter

`for (i = first; i <= last; i++) { if (body (i)) return TRUE; } return FALSE;` with a counter of `w`
bits. If `last` is the greatest value of the counter, the condition is always true: the loop goes on
from zero, and it ends with a hit or not at all.

The body may itself be such a search, so it may have no value yet with the bound given. Results that
were reached are sound whatever the bound (`exists_of_searchUpTo_true`,
`forall_of_searchUpTo_false`); that one is reached is a matter of the bound (`isSome_searchUpTo`).
-/

namespace PurleyFirmware

variable {w : ℕ}

/-- The rest of the loop from a value of the counter, with a bound on its rounds. -/
def searchUpTo (last : BitVec w) (body : BitVec w → Option Bool) : ℕ → BitVec w → Option Bool
  | 0, _ => none
  | fuel + 1, i =>
    if i ≤ last then
      (body i).bind fun found ↦ if found then some true else searchUpTo last body fuel (i + 1)
    else some false

variable {last i j : BitVec w} {body : BitVec w → Option Bool} {fuel : ℕ}

/-- The round at a value of the counter in range. -/
theorem searchUpTo_of_le (hi : i ≤ last) :
    searchUpTo last body (fuel + 1) i =
      (body i).bind fun found ↦ if found then some true else searchUpTo last body fuel (i + 1) := by
  rw [searchUpTo, if_pos hi]

/-! ### Counters -/

theorem counter_le_allOnes (i : BitVec w) : i ≤ BitVec.allOnes w := by
  have hi := i.isLt
  rw [BitVec.le_def, BitVec.toNat_allOnes]
  omega

theorem toNat_add_one_lt_of_ne_allOnes (h : last ≠ BitVec.allOnes w) : last.toNat + 1 < 2 ^ w := by
  have hlast := last.isLt
  by_contra hmax
  refine h (BitVec.eq_of_toNat_eq ?_)
  rw [BitVec.toNat_allOnes]
  omega

/-- Below another value the counter does not wrap around. -/
theorem toNat_add_one_of_lt (h : i.toNat + 1 < 2 ^ w) : (i + 1).toNat = i.toNat + 1 := by
  have hw : 1 < 2 ^ w := by omega
  have hone : (1 : BitVec w).toNat = 1 := Nat.mod_eq_of_lt hw
  rw [BitVec.toNat_add, hone, Nat.mod_eq_of_lt h]

theorem counter_eq_or_lt (h : i ≤ j) : i = j ∨ i.toNat < j.toNat := by
  rcases Nat.eq_or_lt_of_le (BitVec.le_def.1 h) with heq | hlt
  · exact .inl (BitVec.eq_of_toNat_eq heq)
  · exact .inr hlt

/-! ### Results -/

/-- A search that found nothing has looked at all of its range. -/
theorem forall_of_searchUpTo_false (h : searchUpTo last body fuel i = some false) :
    ∀ j, i ≤ j → j ≤ last → body j = some false := by
  induction fuel generalizing i with
  | zero => cases h
  | succ fuel ih =>
    intro j hij hj
    rw [searchUpTo_of_le (BitVec.le_trans hij hj), Option.bind_eq_some_iff] at h
    obtain ⟨found, hbody, hrest⟩ := h
    cases found with
    | true => cases hrest
    | false =>
      rcases counter_eq_or_lt hij with rfl | hlt
      · exact hbody
      · have hj' := j.isLt
        refine ih hrest j ?_ hj
        rw [BitVec.le_def, toNat_add_one_of_lt (by omega)]
        exact hlt

/-- A search that finds something finds it at a value of the counter. -/
theorem exists_hit_of_searchUpTo (h : searchUpTo last body fuel i = some true) :
    ∃ j, body j = some true := by
  induction fuel generalizing i with
  | zero => cases h
  | succ fuel ih =>
    by_cases hi : i ≤ last
    · rw [searchUpTo_of_le hi, Option.bind_eq_some_iff] at h
      obtain ⟨found, hbody, hrest⟩ := h
      cases found with
      | true => exact ⟨i, hbody⟩
      | false => exact ih hrest
    · rw [searchUpTo, if_neg hi] at h
      cases h

/-- Unless the counter wraps around, it finds it in its range. -/
theorem exists_of_searchUpTo_true (hlast : last ≠ BitVec.allOnes w)
    (h : searchUpTo last body fuel i = some true) :
    ∃ j, i ≤ j ∧ j ≤ last ∧ body j = some true := by
  induction fuel generalizing i with
  | zero => cases h
  | succ fuel ih =>
    by_cases hi : i ≤ last
    · rw [searchUpTo_of_le hi, Option.bind_eq_some_iff] at h
      obtain ⟨found, hbody, hrest⟩ := h
      cases found with
      | true => exact ⟨i, BitVec.le_refl i, hi, hbody⟩
      | false =>
        obtain ⟨j, hij, hj, hfound⟩ := ih hrest
        have hmax := toNat_add_one_lt_of_ne_allOnes hlast
        refine ⟨j, ?_, hj, hfound⟩
        rw [BitVec.le_def] at hi hij ⊢
        rw [toNat_add_one_of_lt (by omega)] at hij
        omega
    · rw [searchUpTo, if_neg hi] at h
      cases h

/-- A search up to the greatest value of the counter does not end without a hit. -/
theorem searchUpTo_allOnes_ne_false : searchUpTo (BitVec.allOnes w) body fuel i ≠ some false := by
  induction fuel generalizing i with
  | zero => exact nofun
  | succ fuel ih =>
    intro h
    rw [searchUpTo_of_le (counter_le_allOnes i), Option.bind_eq_some_iff] at h
    obtain ⟨found, -, hrest⟩ := h
    cases found with
    | true => cases hrest
    | false => exact ih hrest

/-! ### Enough rounds -/

/-- A search ends, if its bodies do and it has a hit in front of it or a bound it can pass. -/
theorem isSome_searchUpTo (hbody : ∀ i, (body i).isSome = true)
    (hends : last ≠ BitVec.allOnes w ∨ ∃ j, i ≤ j ∧ j ≤ last ∧ body j = some true)
    (hfuel : 2 ^ w < fuel + i.toNat) : (searchUpTo last body fuel i).isSome = true := by
  induction fuel generalizing i with
  | zero =>
    have hi := i.isLt
    omega
  | succ fuel ih =>
    by_cases hi : i ≤ last
    · obtain ⟨found, hfound⟩ := Option.isSome_iff_exists.1 (hbody i)
      rw [searchUpTo_of_le hi, hfound, Option.bind_some]
      cases found with
      | true => rfl
      | false =>
        -- a hit is further on, so in either case the counter does not wrap around here
        have hahead : ∀ j, i ≤ j → body j = some true → i.toNat < j.toNat := by
          intro j hij hj
          rcases counter_eq_or_lt hij with rfl | hlt
          · rw [hfound] at hj
            cases hj
          · exact hlt
        have hmax : i.toNat + 1 < 2 ^ w := by
          rcases hends with hlast | ⟨j, hij, -, hj⟩
          · have hbound := toNat_add_one_lt_of_ne_allOnes hlast
            rw [BitVec.le_def] at hi
            omega
          · have hlt := hahead j hij hj
            have hj' := j.isLt
            omega
        have hnext := toNat_add_one_of_lt hmax
        refine ih ?_ (by omega)
        refine hends.imp id fun ⟨j, hij, hj, hhit⟩ ↦ ⟨j, ?_, hj, hhit⟩
        rw [BitVec.le_def, hnext]
        exact hahead j hij hhit
    · rw [searchUpTo, if_neg hi]
      rfl

end PurleyFirmware
