import Mathlib.Data.List.Basic
import Mathlib.Data.Nat.Notation

/-!
# Traced computations

A computation that leaves a record of what it did on the way: a value together with a list of
entries, in order. Bounds on what a function reads are bounds on the entries of its trace, and
`AllTrace p`, that every entry satisfies `p`, is compositional: of a sequence of two computations it
holds exactly if it holds of the first, and of the second on the value that the first gives.
-/

namespace PurleyFirmware

/-- A value, and the entries recorded while it was computed. -/
structure Traced (ι α : Type) where
  val : α
  trace : List ι

namespace Traced

variable {ι α β : Type} {p : ι → Prop}

instance : Monad (Traced ι) where
  pure a := ⟨a, []⟩
  bind x f := ⟨(f x.val).val, x.trace ++ (f x.val).trace⟩

/-- Records one entry. -/
def log (i : ι) (a : α) : Traced ι α := ⟨a, [i]⟩

/-- Every entry satisfies `p`. -/
def AllTrace (p : ι → Prop) (x : Traced ι α) : Prop := ∀ i ∈ x.trace, p i

@[simp] theorem val_pure (a : α) : (pure a : Traced ι α).val = a := rfl

@[simp] theorem val_bind (x : Traced ι α) (f : α → Traced ι β) :
    (x >>= f).val = (f x.val).val := rfl

@[simp] theorem val_log (i : ι) (a : α) : (log i a).val = a := rfl

@[simp] theorem allTrace_pure (a : α) : (pure a : Traced ι α).AllTrace p ↔ True :=
  ⟨fun _ ↦ trivial, fun _ i hi ↦ by cases hi⟩

@[simp] theorem allTrace_bind (x : Traced ι α) (f : α → Traced ι β) :
    (x >>= f).AllTrace p ↔ x.AllTrace p ∧ (f x.val).AllTrace p :=
  List.forall_mem_append

@[simp] theorem allTrace_log (i : ι) (a : α) : (log i a).AllTrace p ↔ p i :=
  List.forall_mem_singleton

/-- A conditional computation records what its branch does. -/
theorem allTrace_ite {c : Prop} [Decidable c] {x y : Traced ι α} :
    (if c then x else y).AllTrace p ↔ (c → x.AllTrace p) ∧ (¬ c → y.AllTrace p) := by
  by_cases hc : c <;> simp [hc]

theorem val_ite {c : Prop} [Decidable c] {x y : Traced ι α} :
    (if c then x else y).val = if c then x.val else y.val :=
  apply_ite val c x y

end Traced
end PurleyFirmware
