import Mathlib.Algebra.BigOperators.Group.Finset.Basic
import Mathlib.Algebra.BigOperators.Group.Finset.Sigma
import Mathlib.Data.Fintype.Basic
import Mathlib.Logic.Function.Basic

/-!
# Amounts that are moved

Things are kept in classes, and `c` says how much is in each. When every class `a` is moved to a
class `f a`, there is `fiberSum f c b` in `b` afterwards. Moving twice is moving along the
composition, so a sequence of merges is one map from the classes before to the classes after.
-/

namespace PurleyFirmware

open Finset

universe u v w

/-! ### One class into another -/

section Redirect

variable {α : Type u} [DecidableEq α] {dst src a b : α}

/-- One class is merged into another. -/
def redirect (dst src : α) : α → α := fun a ↦ if a = src then dst else a

theorem redirect_eq_iff :
    redirect dst src a = b ↔ a = src ∧ dst = b ∨ a ≠ src ∧ a = b := by
  unfold redirect
  split
  · simp [*]
  · simp [*]

theorem redirect_comp_self : redirect dst src ∘ redirect dst src = redirect dst src := by
  funext a
  rw [Function.comp_apply]
  unfold redirect
  split
  · exact ite_self dst
  · rfl

/-- Two chances to merge are one. -/
theorem redirect_comp_redirect {p q : Prop} [Decidable p] [Decidable q] :
    (if p then id else redirect dst src) ∘ (if q then redirect dst src else id) =
      if p ∧ ¬ q then id else redirect dst src := by
  by_cases hp : p
  · by_cases hq : q
    · rw [if_pos hp, if_pos hq, if_neg fun h ↦ h.2 hq, Function.id_comp]
    · rw [if_pos hp, if_neg hq, if_pos ⟨hp, hq⟩, Function.id_comp]
  · rw [if_neg hp, if_neg (fun h ↦ hp h.1 : ¬ (p ∧ ¬ q))]
    split
    · exact redirect_comp_self
    · rfl

end Redirect

/-! ### Along any map -/

variable {α : Type u} {β : Type v} {γ : Type w} [Fintype α] [DecidableEq β]

/-- How much is in the class `b` when each class is moved along `f`. -/
def fiberSum (f : α → β) (c : α → ℕ) (b : β) : ℕ := ∑ a with f a = b, c a

/-- **Moving twice** is moving along the composition. -/
theorem fiberSum_fiberSum [Fintype β] [DecidableEq γ] (g : β → γ) (f : α → β) (c : α → ℕ) :
    fiberSum g (fiberSum f c) = fiberSum (g ∘ f) c := by
  funext t
  have hmaps : ∀ a ∈ univ.filter fun a ↦ (g ∘ f) a = t, f a ∈ univ.filter fun b ↦ g b = t := by
    intro a ha
    rw [mem_filter] at ha ⊢
    exact ⟨mem_univ _, ha.2⟩
  unfold fiberSum
  rw [← sum_fiberwise_of_maps_to hmaps]
  refine sum_congr rfl fun b hb ↦ sum_congr ?_ fun _ _ ↦ rfl
  ext a
  rw [mem_filter] at hb
  simp only [mem_filter, mem_univ, true_and, Function.comp_apply]
  exact ⟨fun h ↦ ⟨h ▸ hb.2, h⟩, fun h ↦ h.2⟩

variable [DecidableEq α] {c : α → ℕ}

theorem fiberSum_id : fiberSum id c = c := by
  funext b
  rw [fiberSum, filter_congr (fun a _ ↦ show id a = b ↔ a = b from Iff.rfl), filter_eq',
    if_pos (mem_univ _), sum_singleton]

/-- A merge empties one class into the other. -/
theorem fiberSum_redirect {dst src : α} (h : dst ≠ src) :
    fiberSum (redirect dst src) c =
      Function.update (Function.update c dst (c dst + c src)) src 0 := by
  funext b
  by_cases hsrc : b = src
  · -- nothing stays
    subst hsrc
    rw [Function.update_self]
    refine sum_eq_zero fun a ha ↦ ?_
    rcases redirect_eq_iff.1 (mem_filter.1 ha).2 with ⟨-, hab⟩ | ⟨hne, hab⟩
    · exact absurd hab h
    · exact absurd hab hne
  rw [Function.update_of_ne hsrc]
  by_cases hdst : b = dst
  · subst hdst
    rw [Function.update_self]
    have hclasses : (univ.filter fun a ↦ redirect b src a = b) = {b, src} := by
      ext a
      rw [mem_filter, redirect_eq_iff, mem_insert, mem_singleton]
      exact ⟨fun ha ↦ ha.2.elim (fun hm ↦ .inr hm.1) fun hk ↦ .inl hk.2, fun ha ↦ ⟨mem_univ _,
        ha.elim (fun hb ↦ .inr ⟨hb ▸ hsrc, hb⟩) fun hs ↦ .inl ⟨hs, rfl⟩⟩⟩
    rw [fiberSum, hclasses, sum_pair h]
  · rw [Function.update_of_ne hdst]
    have hclasses : (univ.filter fun a ↦ redirect dst src a = b) = {b} := by
      ext a
      rw [mem_filter, redirect_eq_iff, mem_singleton]
      exact ⟨fun ha ↦ ha.2.elim (fun hm ↦ absurd hm.2.symm hdst) fun hk ↦ hk.2,
        fun ha ↦ ⟨mem_univ _, .inr ⟨ha ▸ hsrc, ha⟩⟩⟩
    rw [fiberSum, hclasses, sum_singleton]

end PurleyFirmware
