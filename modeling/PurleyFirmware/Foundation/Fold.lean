import Mathlib.Data.Nat.Notation

/-!
# Code that may fail

A function of the firmware that returns with an error is a computation in `Except`: what it did when
it succeeded is read off one step at a time with `bind_eq_ok`. A loop that leaves with an error is
`List.foldlM`; its rule for loop invariants is the one of `List.foldl`, for the runs that succeed.
-/

namespace PurleyFirmware

universe u v w

variable {ε : Type w} {α : Type u} {β : Type v}

theorem bind_eq_ok {γ : Type v} {x : Except ε γ} {f : γ → Except ε β} {b : β} :
    (x >>= f) = .ok b ↔ ∃ a, x = .ok a ∧ f a = .ok b := by
  cases x with
  | error e =>
    refine ⟨fun h ↦ ?_, fun ⟨a, h, _⟩ ↦ ?_⟩
    · cases h
    · cases h
  | ok a =>
    refine ⟨fun h ↦ ⟨a, rfl, h⟩, fun ⟨a', h, hf⟩ ↦ ?_⟩
    cases h
    exact hf

/-- **The loop rule.** What holds before the loop and is kept by every turn that succeeds holds
after a loop that succeeds. -/
theorem foldlM_invariant {P : β → Prop} {f : β → α → Except ε β} {l : List α}
    (hstep : ∀ b a b', a ∈ l → P b → f b a = .ok b' → P b') {b b' : β} (hb : P b)
    (h : l.foldlM f b = .ok b') : P b' := by
  induction l generalizing b with
  | nil =>
    cases h
    exact hb
  | cons a l ih =>
    rw [List.foldlM_cons, bind_eq_ok] at h
    obtain ⟨c, hf, hrest⟩ := h
    exact ih (fun b a b' ha ↦ hstep b a b' (List.mem_cons_of_mem _ ha))
      (hstep b a c List.mem_cons_self hb hf) hrest

/-- The error of a loop is that of a turn. -/
theorem foldlM_error {Q : ε → Prop} {f : β → α → Except ε β} {l : List α}
    (hturn : ∀ b a e, f b a = .error e → Q e) {b : β} {e : ε} (h : l.foldlM f b = .error e) :
    Q e := by
  induction l generalizing b with
  | nil => exact nomatch h
  | cons a l ih =>
    rw [List.foldlM_cons] at h
    cases hf : f b a with
    | error e' =>
      rw [hf] at h
      cases h
      exact hturn b a _ hf
    | ok c =>
      rw [hf] at h
      exact ih h

/-- **The rule for a loop over a range**, with an invariant that counts the turns. -/
theorem foldlM_range_ok {Inv : ℕ → β → Prop} {f : β → ℕ → Except ε β} {n : ℕ} {b b' : β}
    (hstart : Inv 0 b) (hround : ∀ k < n, ∀ b b', Inv k b → f b k = .ok b' → Inv (k + 1) b')
    (h : (List.range n).foldlM f b = .ok b') : Inv n b' := by
  induction n generalizing b' with
  | zero =>
    cases h
    exact hstart
  | succ n ih =>
    rw [List.range_succ, List.foldlM_append, bind_eq_ok] at h
    obtain ⟨c, hc, hlast⟩ := h
    rw [List.foldlM_cons, bind_eq_ok] at hlast
    obtain ⟨d, hd, hend⟩ := hlast
    cases hend
    have hinv := ih (fun k hk ↦ hround k (Nat.lt_succ_of_lt hk)) hc
    exact hround n (Nat.lt_succ_self n) c b' hinv hd

end PurleyFirmware
