import PurleyFirmware.Foundation.RoseTree
import Mathlib.Algebra.Order.Ring.Nat

/-!
# Ranges inside ranges

A tree of ranges, each with an offset from the start of the range it is in. A tree is laid out
(`LaidOut`) if in every range the ranges below are aligned, one behind the other, and inside; that
does not depend on where the tree is. Put at an aligned address (`Placed`), every range is at an
aligned address, inside the one it is in, and apart from the others there.

Values that do not count have no range, and are in the tree for other reasons.
-/

namespace PurleyFirmware

universe u

/-- What a value says of its range. -/
structure Extents (α : Type u) where
  offset : α → ℕ
  length : α → ℕ
  alignment : α → ℕ
  counts : α → Bool

namespace Extents

variable {α : Type u} (E : Extents α)

/-- The first range ends where the second begins, or before. -/
def Before (a b : RoseTree α) : Prop :=
  E.counts a.value = true → E.counts b.value = true →
    E.offset a.value + E.length a.value ≤ E.offset b.value

/-- **Laid out**, in every range of the tree. -/
inductive LaidOut : RoseTree α → Prop
  | node {r : α} {children : List (RoseTree α)}
    (aligned : ∀ c ∈ children, E.counts c.value = true → E.alignment c.value ∣ E.offset c.value)
    (divides : ∀ c ∈ children, E.counts c.value = true → E.alignment c.value ∣ E.alignment r)
    (inside : ∀ c ∈ children, E.counts c.value = true →
      E.offset c.value + E.length c.value ≤ E.length r)
    (apart : children.Pairwise E.Before)
    (below : ∀ c ∈ children, LaidOut c) : LaidOut (.node r children)

/-- **Placed** at an address, in every range of the tree. -/
inductive Placed : ℕ → RoseTree α → Prop
  | node {base : ℕ} {r : α} {children : List (RoseTree α)}
    (aligned : ∀ c ∈ children, E.counts c.value = true →
      E.alignment c.value ∣ base + E.offset c.value)
    (inside : ∀ c ∈ children, E.counts c.value = true →
      base + E.offset c.value + E.length c.value ≤ base + E.length r)
    (apart : children.Pairwise fun a b ↦ E.counts a.value = true → E.counts b.value = true →
      base + E.offset a.value + E.length a.value ≤ base + E.offset b.value)
    (below : ∀ c ∈ children, E.counts c.value = true → Placed (base + E.offset c.value) c) :
    Placed base (.node r children)

variable {E}

/-- A leaf. -/
theorem LaidOut.leaf (r : α) : E.LaidOut (.node r []) :=
  .node (fun _ h ↦ absurd h List.not_mem_nil) (fun _ h ↦ absurd h List.not_mem_nil)
    (fun _ h ↦ absurd h List.not_mem_nil) List.Pairwise.nil fun _ h ↦ absurd h List.not_mem_nil

/-- What the range itself is called does not matter. -/
theorem LaidOut.of_children {n m : RoseTree α} (h : E.LaidOut n)
    (hchildren : m.children = n.children) (hlength : E.length m.value = E.length n.value)
    (halignment : E.alignment m.value = E.alignment n.value) : E.LaidOut m := by
  cases h with
  | node aligned divides inside apart below =>
    cases m with
    | node r children =>
      obtain rfl := hchildren
      refine .node aligned (fun c hc hcounts ↦ ?_) (fun c hc hcounts ↦ ?_) apart below
      · exact (divides c hc hcounts).trans (dvd_of_eq halignment.symm)
      · exact (inside c hc hcounts).trans (Nat.le_of_eq hlength.symm)

/-- **What is laid out can be placed at any aligned address.** -/
theorem LaidOut.placed {n : RoseTree α} (h : E.LaidOut n) {base : ℕ}
    (hbase : E.alignment n.value ∣ base) : E.Placed base n := by
  induction h generalizing base with
  | @node r children aligned divides inside apart below ih =>
    have hat : ∀ c ∈ children, E.counts c.value = true →
        E.alignment c.value ∣ base + E.offset c.value := fun c hc hcounts ↦
      Nat.dvd_add ((divides c hc hcounts).trans hbase) (aligned c hc hcounts)
    refine .node hat (fun c hc hcounts ↦ ?_) (apart.imp fun {a b} hab ha hb ↦ ?_) fun c hc hcounts ↦
      ih c hc (hat c hc hcounts)
    · have hinside := inside c hc hcounts
      omega
    · have hbefore := hab ha hb
      omega

end Extents

end PurleyFirmware
