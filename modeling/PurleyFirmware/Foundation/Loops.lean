import Mathlib.Data.List.FinRange
import Mathlib.Data.Nat.Notation

/-!
# Loops

Loop shapes that recur in the modelled code.

* `do { body } while (again)` over an arbitrary state, with a bound on the number of rounds: the
  value is `none` exactly when the bound was too small or a round failed. A result reached with some
  bound is the result with every larger one (`doWhile_mono`), so a model may fix a bound and prove
  that it suffices.
* A loop over a range (`foldl_range_invariant`), also one that may fail, but does not
  (`foldlM_range_invariant`).
* The search of a fixed array for its first element with a property, `List.find?` on the array's
  indices.
-/

namespace PurleyFirmware

universe u

variable {σ : Type u} {body : σ → Option σ} {again : σ → Bool}

/-- At most `fuel` rounds of a post-tested loop. A round that fails ends the loop without a
result. -/
def doWhile (body : σ → Option σ) (again : σ → Bool) : ℕ → σ → Option σ
  | 0, _ => none
  | fuel + 1, s => (body s).bind fun s' ↦
    if again s' then doWhile body again fuel s' else some s'

/-- The last round: the test fails after it. -/
theorem doWhile_of_last {fuel : ℕ} {s s' : σ} (hbody : body s = some s')
    (hlast : again s' = false) : doWhile body again (fuel + 1) s = some s' := by
  simp [doWhile, hbody, hlast]

/-- Any other round is followed by the rest of the loop. -/
theorem doWhile_of_again {fuel : ℕ} {s s' : σ} (hbody : body s = some s')
    (hagain : again s' = true) :
    doWhile body again (fuel + 1) s = doWhile body again fuel s' := by
  simp [doWhile, hbody, hagain]

/-- The test fails in the state a loop ends in. -/
theorem again_of_doWhile {fuel : ℕ} {s s' : σ} (h : doWhile body again fuel s = some s') :
    again s' = false := by
  induction fuel generalizing s with
  | zero => simp [doWhile] at h
  | succ fuel ih =>
    rw [doWhile, Option.bind_eq_some_iff] at h
    obtain ⟨t, -, hrest⟩ := h
    split at hrest
    · exact ih hrest
    · obtain rfl := Option.some.inj hrest
      simpa using ‹¬ again t = true›

/-- A larger bound changes nothing about a loop that has ended. -/
theorem doWhile_mono {fuel fuel' : ℕ} (hle : fuel ≤ fuel') {s s' : σ}
    (h : doWhile body again fuel s = some s') : doWhile body again fuel' s = some s' := by
  induction fuel generalizing fuel' s with
  | zero => simp [doWhile] at h
  | succ fuel ih =>
    obtain ⟨fuel', rfl⟩ : ∃ n, fuel' = n + 1 := ⟨fuel' - 1, by omega⟩
    rw [doWhile, Option.bind_eq_some_iff] at h ⊢
    obtain ⟨t, ht, hrest⟩ := h
    refine ⟨t, ht, ?_⟩
    split at hrest
    · rw [if_pos ‹_›]
      exact ih (by omega) hrest
    · rw [if_neg ‹_›]
      exact hrest

/-! ### Loops over a range -/

/-- A loop over a range, with an invariant that counts its rounds. -/
theorem foldl_range_invariant {f : σ → ℕ → σ} {P : ℕ → σ → Prop} {n : ℕ} {s : σ}
    (hstart : P 0 s) (hround : ∀ k < n, ∀ s, P k s → P (k + 1) (f s k)) :
    P n ((List.range n).foldl f s) := by
  induction n with
  | zero => exact hstart
  | succ n ih =>
    rw [List.range_succ, List.foldl_append]
    exact hround n (Nat.lt_succ_self n) _ (ih fun k hk ↦ hround k (Nat.lt_succ_of_lt hk))

/-- **A loop over a range** whose rounds do not fail, with an invariant that counts them. -/
theorem foldlM_range_invariant {f : σ → ℕ → Option σ} {Inv : ℕ → σ → Prop} {n : ℕ} {s : σ}
    (hstart : Inv 0 s)
    (hround : ∀ k < n, ∀ s, Inv k s → ∃ s', f s k = some s' ∧ Inv (k + 1) s') :
    ∃ s', (List.range n).foldlM f s = some s' ∧ Inv n s' := by
  induction n with
  | zero => exact ⟨s, rfl, hstart⟩
  | succ n ih =>
    obtain ⟨t, ht, hinv⟩ := ih fun k hk ↦ hround k (Nat.lt_succ_of_lt hk)
    obtain ⟨s', hs', hinv'⟩ := hround n (Nat.lt_succ_self n) t hinv
    refine ⟨s', ?_, hinv'⟩
    rw [List.range_succ, List.foldlM_append, ht]
    change ([n].foldlM f t : Option σ) = some s'
    rw [List.foldlM_cons, hs']
    rfl

/-- A search through an array of `n` elements stops at the first match. -/
theorem find?_finRange_eq_some_iff {n : ℕ} {p : Fin n → Bool} {i : Fin n} :
    (List.finRange n).find? p = some i ↔ p i = true ∧ ∀ j < i, p j = false := by
  rw [List.find?_eq_some_iff_getElem]
  constructor
  · rintro ⟨hp, k, hk, hget, hbefore⟩
    refine ⟨hp, fun j hj ↦ ?_⟩
    have hki : i.val = k := by
      rw [← hget]
      simp
    have hnot := hbefore j.val (by omega)
    simpa using hnot
  · rintro ⟨hp, hbefore⟩
    refine ⟨hp, i.val, by simp, by simp, fun j hj ↦ ?_⟩
    have hnot := hbefore ⟨j, hj.trans i.isLt⟩ hj
    simpa using hnot

end PurleyFirmware
