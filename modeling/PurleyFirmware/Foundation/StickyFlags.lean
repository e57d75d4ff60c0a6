import Mathlib.Data.List.Basic
import Mathlib.Logic.Function.Basic
import Mathlib.Order.Lattice
import Mathlib.Order.BoundedOrder.Lattice

/-!
# Flags that a loop never clears

A loop visits the items of a list. Each item asks for something, and is handled according to what
the flags say, which are set by every item and cleared by none. So an item is handled according to
what it and all items before it have asked for.

The flags are elements of a join semilattice. `sticky_apply` says what a visit finds, and
`sticky_eq_iff` when every item is handled as it asked: if and only if each item that is handled at
all asks for at least as much as every item before it.
-/

namespace PurleyFirmware

universe u v w x

variable {α : Type u} {β : Type v} {γ : Type w} {S : Type x} [SemilatticeSup S]

/-! ### One turn -/

section Turn

variable [DecidableEq α] (asks : α → S) (act : α → S → β → β)

/-- One turn: the flags of the item are set, and it is handled according to the flags. -/
def stickyStep (s : S × (α → β)) (a : α) : S × (α → β) :=
  (s.1 ⊔ asks a, Function.update s.2 a (act a (s.1 ⊔ asks a) (s.2 a)))

variable {asks act}

@[simp] theorem stickyStep_fst (s : S × (α → β)) (a : α) :
    (stickyStep asks act s a).1 = s.1 ⊔ asks a := rfl

@[simp] theorem stickyStep_self (s : S × (α → β)) (a : α) :
    (stickyStep asks act s a).2 a = act a (s.1 ⊔ asks a) (s.2 a) := Function.update_self ..

theorem stickyStep_of_ne (s : S × (α → β)) {a b : α} (h : b ≠ a) :
    (stickyStep asks act s a).2 b = s.2 b := Function.update_of_ne h ..

/-- An item that is not visited is left alone. -/
theorem sticky_of_notMem {l : List α} {a : α} (ha : a ∉ l) (s : S × (α → β)) :
    (l.foldl (stickyStep asks act) s).2 a = s.2 a := by
  induction l generalizing s with
  | nil => rfl
  | cons b l ih =>
    rw [List.mem_cons, not_or] at ha
    rw [List.foldl_cons, ih ha.2, stickyStep_of_ne s ha.1]

end Turn

/-! ### What is asked for -/

variable [OrderBot S]

/-- What the items of a list ask for. -/
def asked (asks : α → S) (l : List α) : S := l.foldr (fun a s ↦ asks a ⊔ s) ⊥

variable {asks : α → S}

@[simp] theorem asked_nil : asked asks [] = ⊥ := rfl

@[simp] theorem asked_cons {a : α} {l : List α} : asked asks (a :: l) = asks a ⊔ asked asks l := rfl

theorem asked_le_iff {l : List α} {s : S} : asked asks l ≤ s ↔ ∀ a ∈ l, asks a ≤ s := by
  induction l with
  | nil => simp
  | cons a l ih => simp [ih]

/-- If nothing is asked for, the flags stay clear. -/
theorem asked_eq_bot {l : List α} (h : ∀ a ∈ l, asks a = ⊥) : asked asks l = ⊥ :=
  le_bot_iff.mp (asked_le_iff.mpr fun a ha ↦ (h a ha).le)

/-- Each item with the items before it. -/
theorem forall_asked_le_iff {acts : α → Prop} {l : List α} :
    (∀ pre a post, l = pre ++ a :: post → acts a → asked asks pre ≤ asks a) ↔
      l.Pairwise fun a b ↦ acts b → asks a ≤ asks b := by
  induction l with
  | nil => simp
  | cons a l ih =>
    rw [List.pairwise_cons, ← ih]
    constructor
    · intro h
      constructor
      · intro b hb hacts
        obtain ⟨pre, post, rfl⟩ := List.append_of_mem hb
        exact (le_sup_left).trans (h (a :: pre) b post rfl hacts)
      · intro pre b post hl hacts
        exact (le_sup_right).trans (h (a :: pre) b post (by rw [hl, List.cons_append]) hacts)
    · rintro ⟨hfirst, hrest⟩ pre b post hl hacts
      cases pre with
      | nil => exact bot_le
      | cons c pre =>
        obtain ⟨rfl, hl'⟩ := List.cons.inj hl
        rw [asked_cons]
        refine sup_le (hfirst b ?_ hacts) (hrest pre b post hl' hacts)
        rw [hl']
        exact List.mem_append_right _ List.mem_cons_self

/-! ### The loop -/

section Loop

variable [DecidableEq α] {act : α → S → β → β}

/-- An item is handled according to what it and the items before it ask for. -/
theorem sticky_apply {pre post : List α} {a : α} (hnodup : (pre ++ a :: post).Nodup)
    (s : S × (α → β)) :
    ((pre ++ a :: post).foldl (stickyStep asks act) s).2 a =
      act a (s.1 ⊔ asked asks pre ⊔ asks a) (s.2 a) := by
  induction pre generalizing s with
  | nil =>
    rw [List.nil_append, List.nodup_cons] at hnodup
    rw [List.nil_append, List.foldl_cons, sticky_of_notMem hnodup.1, stickyStep_self, asked_nil,
      sup_bot_eq]
  | cons b pre ih =>
    rw [List.cons_append, List.nodup_cons] at hnodup
    have hne : a ≠ b := by
      rintro rfl
      exact hnodup.1 (List.mem_append_right _ List.mem_cons_self)
    rw [List.cons_append, List.foldl_cons, ih hnodup.2, stickyStep_fst, stickyStep_of_ne s hne,
      asked_cons, sup_assoc s.1]

/-- **When each item is handled as it asked.** What is observed of an item is what it asks for, if
and only if the items that are handled ask for at least as much as those before them. -/
theorem sticky_eq_iff {acts : α → Prop} {obs : β → γ} {l : List α} (hnodup : l.Nodup)
    {out : α → β}
    (hidle : ∀ a s, ¬ acts a → obs (act a s (out a)) = obs (act a (asks a) (out a)))
    (hacts : ∀ a s, acts a →
      (obs (act a (s ⊔ asks a) (out a)) = obs (act a (asks a) (out a)) ↔ s ≤ asks a)) :
    (∀ a ∈ l, obs ((l.foldl (stickyStep asks act) (⊥, out)).2 a) =
        obs (act a (asks a) (out a))) ↔
      l.Pairwise fun a b ↦ acts b → asks a ≤ asks b := by
  rw [← forall_asked_le_iff]
  constructor
  · rintro h pre a post rfl ha
    have hobs := h a (List.mem_append_right _ List.mem_cons_self)
    rw [sticky_apply hnodup, bot_sup_eq] at hobs
    exact (hacts a _ ha).mp hobs
  · intro h a ha
    obtain ⟨pre, post, rfl⟩ := List.append_of_mem ha
    rw [sticky_apply hnodup, bot_sup_eq]
    by_cases hact : acts a
    · exact (hacts a _ hact).mpr (h pre a post rfl hact)
    · exact hidle a _ hact

end Loop

end PurleyFirmware
