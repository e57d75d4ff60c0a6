import Mathlib.Logic.Function.Iterate
import Mathlib.Data.Nat.Find
import Mathlib.Data.Bool.Basic

/-!
# Bounded walks along a list of pointers

A walk follows the pointers of a list until one is met whose node is hit, or one that is not valid,
where the walk takes the value `stop` instead; and it gives up after a number of pointers. What it
returns is the pointer it is at, so a walk that gave up returns one that was never looked at.

The results tell the three ends apart (`run_of_firstHit`, `run_of_overruns`, `run_of_noHit`), and
say exactly when what is returned means what a caller takes it to mean, `sound_iff`. The test of a
node need not be the property looked for: `Safe` has a clause for each way this can matter.
-/

namespace PurleyFirmware

universe u

/-- What a result of a lookup means: a node with the property, and `stop` exactly if there is
none. -/
structure LookupSound {α : Type u} (result stop : α) (carries : α → Prop) (occurs : Prop) :
    Prop where
  genuine : result ≠ stop → carries result
  stop_iff : result = stop ↔ ¬ occurs

/-- A list of pointers, and what is looked for in it. -/
structure PointerWalk (α : Type u) where
  /-- The pointer is one that is followed. -/
  valid : α → Bool
  /-- The walk ends at the node. -/
  hit : α → Bool
  /-- The pointer in the node. -/
  next : α → α
  /-- What stands for no node. -/
  stop : α

namespace PointerWalk

variable {α : Type u} (W : PointerWalk α)

/-- The walk from a pointer, over no more than so many nodes. -/
def run : ℕ → α → α
  | 0, p => p
  | n + 1, p => if W.valid p then if W.hit p then p else run n (W.next p) else W.stop

/-- The pointers of the list that starts with `p`, valid or not. -/
def link (p : α) (k : ℕ) : α := W.next^[k] p

/-- The pointer is one of the first `n`, and up to it all are valid. -/
def Among (n : ℕ) (p : α) (k : ℕ) : Prop := k < n ∧ ∀ j ≤ k, W.valid (W.link p j) = true

/-- A node among the first `n` has the property. -/
def Occurs (n : ℕ) (p : α) (carries : α → Prop) : Prop :=
  ∃ k, W.Among n p k ∧ carries (W.link p k)

/-- The first node that is hit is among the first `n`. -/
def FirstHit (n : ℕ) (p : α) (k : ℕ) : Prop :=
  W.Among n p k ∧ W.hit (W.link p k) = true ∧ ∀ j < k, W.hit (W.link p j) = false

/-- The first `n` pointers are valid, none of their nodes is hit, and the list has one more. -/
def Overruns (n : ℕ) (p : α) : Prop :=
  (∀ k < n, W.valid (W.link p k) = true ∧ W.hit (W.link p k) = false) ∧ W.link p n ≠ W.stop

variable {W} {n k : ℕ} {p : α} {carries : α → Prop}

/-! ### Links -/

@[simp] theorem link_zero : W.link p 0 = p := rfl

theorem link_succ (k : ℕ) : W.link p (k + 1) = W.link (W.next p) k :=
  Function.iterate_succ_apply ..

theorem among_zero (hvalid : W.valid p = true) : W.Among (n + 1) p 0 := by
  refine ⟨Nat.succ_pos n, fun j hj ↦ ?_⟩
  obtain rfl : j = 0 := by omega
  exact hvalid

theorem among_succ (hvalid : W.valid p = true) (h : W.Among n (W.next p) k) :
    W.Among (n + 1) p (k + 1) := by
  refine ⟨Nat.succ_lt_succ h.1, fun j hj ↦ ?_⟩
  cases j with
  | zero => exact hvalid
  | succ j =>
    rw [link_succ]
    exact h.2 j (by omega)

theorem Among.mono {j : ℕ} (h : W.Among n p k) (hj : j ≤ k) : W.Among n p j :=
  ⟨by have := h.1; omega, fun i hi ↦ h.2 i (by omega)⟩

theorem Among.tail (h : W.Among (n + 1) p (k + 1)) : W.Among n (W.next p) k := by
  refine ⟨by have := h.1; omega, fun j hj ↦ ?_⟩
  rw [← link_succ]
  exact h.2 (j + 1) (by omega)

/-- A hit among the first nodes means a first one. -/
theorem exists_firstHit_of_hit (h : W.Among n p k) (hhit : W.hit (W.link p k) = true) :
    ∃ k, W.FirstHit n p k := by
  classical
  have hex : ∃ k, W.Among n p k ∧ W.hit (W.link p k) = true := ⟨k, h, hhit⟩
  obtain ⟨hamong, hfound⟩ := Nat.find_spec hex
  refine ⟨Nat.find hex, hamong, hfound, fun j hj ↦ ?_⟩
  by_contra hne
  exact Nat.find_min hex hj ⟨hamong.mono (by omega), Bool.eq_true_of_not_eq_false hne⟩

/-! ### The ends of a walk -/

/-- The walk returns the first node that is hit. -/
theorem run_of_firstHit (h : W.FirstHit n p k) : W.run n p = W.link p k := by
  induction n generalizing p k with
  | zero => exact absurd h.1.1 k.not_lt_zero
  | succ n ih =>
    obtain ⟨hamong, hhit, hfirst⟩ := h
    have hvalid : W.valid p = true := hamong.2 0 k.zero_le
    rw [run, if_pos hvalid]
    cases k with
    | zero => exact if_pos hhit
    | succ k =>
      have hmiss : W.hit p = false := hfirst 0 k.succ_pos
      have hrest : W.FirstHit n (W.next p) k := by
        refine ⟨hamong.tail, link_succ k ▸ hhit, fun j hj ↦ ?_⟩
        rw [← link_succ]
        exact hfirst (j + 1) (by omega)
      rw [hmiss, if_neg Bool.false_ne_true, ih hrest, link_succ]

/-- A walk that gives up returns the pointer behind the nodes it has seen. -/
theorem run_of_overruns (h : W.Overruns n p) : W.run n p = W.link p n := by
  induction n generalizing p with
  | zero => rfl
  | succ n ih =>
    obtain ⟨hseen, hmore⟩ := h
    obtain ⟨hvalid, hmiss⟩ := hseen 0 n.succ_pos
    rw [link_zero] at hvalid hmiss
    rw [run, if_pos hvalid, hmiss, if_neg Bool.false_ne_true, link_succ]
    refine ih ⟨fun k hk ↦ ?_, ?_⟩
    · rw [← link_succ]
      exact hseen (k + 1) (by omega)
    · rwa [← link_succ]

/-- Any other walk ends where the list does. -/
theorem run_of_noHit (hmiss : ∀ k, ¬ W.FirstHit n p k) (hends : ¬ W.Overruns n p) :
    W.run n p = W.stop := by
  induction n generalizing p with
  | zero =>
    by_contra hne
    exact hends ⟨fun k hk ↦ absurd hk k.not_lt_zero, hne⟩
  | succ n ih =>
    rw [run]
    by_cases hvalid : W.valid p = true
    · have hp : W.hit p = false := by
        by_contra hhit
        exact hmiss 0 ⟨among_zero hvalid, Bool.eq_true_of_not_eq_false hhit,
          fun j hj ↦ absurd hj j.not_lt_zero⟩
      rw [if_pos hvalid, hp, if_neg Bool.false_ne_true]
      refine ih (fun k hk ↦ hmiss (k + 1) ?_) fun hover ↦ hends ?_
      · refine ⟨among_succ hvalid hk.1, (link_succ k).symm ▸ hk.2.1, fun j hj ↦ ?_⟩
        cases j with
        | zero => exact hp
        | succ j =>
          rw [link_succ]
          exact hk.2.2 j (by omega)
      · refine ⟨fun k hk ↦ ?_, (link_succ n).symm ▸ hover.2⟩
        cases k with
        | zero => exact ⟨hvalid, hp⟩
        | succ k =>
          rw [link_succ]
          exact hover.1 k (by omega)
    · rw [if_neg hvalid]

/-! ### What the result means -/

/-- When a walk can be trusted: the first hit has the property; if there is none, the property does
not occur; and a walk that gives up happens to be at a node with the property, and saw one. -/
structure Safe (W : PointerWalk α) (n : ℕ) (p : α) (carries : α → Prop) : Prop where
  genuine : ∀ k, W.FirstHit n p k → carries (W.link p k)
  missed : (∀ k, ¬ W.FirstHit n p k) → ¬ W.Overruns n p → ¬ W.Occurs n p carries
  overrun : W.Overruns n p → carries (W.link p n) ∧ W.Occurs n p carries

/-- A walk with a hit does not give up. -/
theorem FirstHit.not_overruns (h : W.FirstHit n p k) : ¬ W.Overruns n p := fun hover ↦ by
  have hmiss := (hover.1 k h.1.1).2
  rw [h.2.1] at hmiss
  cases hmiss

theorem FirstHit.run_ne_stop (hstop : W.valid W.stop = false) (h : W.FirstHit n p k) :
    W.run n p ≠ W.stop := fun heq ↦ by
  have hvalid := h.1.2 k le_rfl
  rw [← run_of_firstHit h, heq, hstop] at hvalid
  cases hvalid

/-- **What a walk returns.** -/
theorem run_eq_stop_iff (hstop : W.valid W.stop = false) :
    W.run n p = W.stop ↔ (∀ k, ¬ W.FirstHit n p k) ∧ ¬ W.Overruns n p := by
  constructor
  · intro heq
    refine ⟨fun k hk ↦ hk.run_ne_stop hstop heq, fun hover ↦ ?_⟩
    exact hover.2 (run_of_overruns hover ▸ heq)
  · rintro ⟨hmiss, hends⟩
    exact run_of_noHit hmiss hends

/-- **When a walk can be trusted**, exactly. -/
theorem sound_iff (hstop : W.valid W.stop = false) :
    LookupSound (W.run n p) W.stop carries (W.Occurs n p carries) ↔ W.Safe n p carries := by
  constructor
  · rintro ⟨hgenuine, hstopIff⟩
    refine ⟨fun k hk ↦ ?_, fun hmiss hends ↦ ?_, fun hover ↦ ?_⟩
    · rw [← run_of_firstHit hk]
      exact hgenuine (hk.run_ne_stop hstop)
    · exact hstopIff.1 (run_of_noHit hmiss hends)
    · have hrun := run_of_overruns hover
      have hne : W.run n p ≠ W.stop := hrun ▸ hover.2
      exact ⟨hrun ▸ hgenuine hne, not_not.1 fun hno ↦ hne (hstopIff.2 hno)⟩
  · rintro ⟨hgenuine, hmissed, hoverrun⟩
    by_cases hover : W.Overruns n p
    · have hrun := run_of_overruns hover
      obtain ⟨hlast, hoccurs⟩ := hoverrun hover
      refine ⟨fun _ ↦ hrun ▸ hlast, iff_of_false (hrun ▸ hover.2) (not_not.2 hoccurs)⟩
    · by_cases hhit : ∃ k, W.FirstHit n p k
      · obtain ⟨k, hk⟩ := hhit
        have hrun := run_of_firstHit hk
        refine ⟨fun _ ↦ hrun ▸ hgenuine k hk, iff_of_false (hk.run_ne_stop hstop) (not_not.2 ?_)⟩
        exact ⟨k, hk.1, hgenuine k hk⟩
      · have hmiss := not_exists.1 hhit
        have hrun := run_of_noHit hmiss hover
        exact ⟨fun hne ↦ absurd hrun hne, iff_of_true hrun (hmissed hmiss hover)⟩

/-- If the test is the property, a walk can be trusted unless it gives up. -/
theorem safe_iff_not_overruns (htest : ∀ a, carries a ↔ W.hit a = true) :
    W.Safe n p carries ↔ ¬ W.Overruns n p := by
  constructor
  · intro hsafe hover
    obtain ⟨-, k, hamong, hcarries⟩ := hsafe.overrun hover
    have hmiss := (hover.1 k hamong.1).2
    rw [(htest _).1 hcarries] at hmiss
    cases hmiss
  · intro hends
    refine ⟨fun k hk ↦ (htest _).2 hk.2.1, fun hmiss _ ↦ ?_, fun hover ↦ absurd hover hends⟩
    rintro ⟨k, hamong, hcarries⟩
    obtain ⟨i, hi⟩ := exists_firstHit_of_hit hamong ((htest _).1 hcarries)
    exact hmiss i hi

end PointerWalk

end PurleyFirmware
