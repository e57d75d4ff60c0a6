import Mathlib.Data.List.Nodup

/-!
# Loops that work on one slot at a time

A loop over a list, each turn of which reads and writes the slot of its own element and may add to
the output. If no two elements share a slot, the turns do not see each other: what a slot holds after
the loop, and what is put out for it, depends only on what it held before.
-/

namespace PurleyFirmware

universe u v w x

variable {α : Type u} {β : Type v} {κ : Type w} {γ : Type x} [DecidableEq κ]

/-- One turn: the element's slot gets the first result, the output the second. -/
def slotStep (key : α → κ) (f : α → β → β × List γ) (acc : (κ → β) × List γ) (a : α) :
    (κ → β) × List γ :=
  (Function.update acc.1 (key a) (f a (acc.1 (key a))).1, acc.2 ++ (f a (acc.1 (key a))).2)

variable {key : α → κ} {f : α → β → β × List γ}

/-- Slots of no element are left alone. -/
theorem foldl_slotStep_of_notMem {l : List α} {k : κ} (hk : k ∉ l.map key)
    (slots : κ → β) (out : List γ) : (l.foldl (slotStep key f) (slots, out)).1 k = slots k := by
  induction l generalizing slots out with
  | nil => rfl
  | cons a l ih =>
    rw [List.map_cons, List.mem_cons, not_or] at hk
    rw [List.foldl_cons, slotStep, ih hk.2]
    exact Function.update_of_ne hk.1 _ _

/-- **The slot of an element** holds what its own turn made of it. -/
theorem foldl_slotStep_of_mem {l : List α} (hnodup : (l.map key).Nodup) {a : α} (ha : a ∈ l)
    (slots : κ → β) (out : List γ) :
    (l.foldl (slotStep key f) (slots, out)).1 (key a) = (f a (slots (key a))).1 := by
  induction l generalizing slots out with
  | nil => cases ha
  | cons b l ih =>
    rw [List.map_cons, List.nodup_cons] at hnodup
    rw [List.foldl_cons, slotStep]
    obtain rfl | ha := List.mem_cons.1 ha
    · rw [foldl_slotStep_of_notMem hnodup.1]
      exact Function.update_self _ _ _
    · have hne : key a ≠ key b := fun h ↦ hnodup.1 (h ▸ List.mem_map_of_mem ha)
      rw [ih hnodup.2 ha]
      dsimp only
      rw [Function.update_of_ne hne]

/-- **The output** is that of the turns, in order, each on the slot as it was before the loop. -/
theorem foldl_slotStep_output {l : List α} (hnodup : (l.map key).Nodup) (slots : κ → β)
    (out : List γ) : (l.foldl (slotStep key f) (slots, out)).2 =
      out ++ l.flatMap fun a ↦ (f a (slots (key a))).2 := by
  induction l generalizing slots out with
  | nil => exact (List.append_nil out).symm
  | cons b l ih =>
    rw [List.map_cons, List.nodup_cons] at hnodup
    have hrest : (l.flatMap fun a ↦
        (f a (Function.update slots (key b) (f b (slots (key b))).1 (key a))).2) =
        l.flatMap fun a ↦ (f a (slots (key a))).2 := by
      refine List.flatMap_congr fun a ha ↦ ?_
      have hne : key a ≠ key b := fun h ↦ hnodup.1 (h ▸ List.mem_map_of_mem ha)
      rw [Function.update_of_ne hne]
    rw [List.foldl_cons, slotStep, ih hnodup.2]
    dsimp only
    rw [hrest, List.flatMap_cons, List.append_assoc]

end PurleyFirmware
