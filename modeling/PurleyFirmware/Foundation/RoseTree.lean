import Mathlib.Data.List.Flatten
import Mathlib.Data.Nat.Notation
import Mathlib.Tactic.TypeStar

/-!
# Trees with lists of children

A tree of values in which a node has any number of children, in order. Functions on such trees are
folds, computed by structural recursion over the tree and its list of children at once, and
`RoseTree.ind` is the induction that follows them: what holds of a node whenever it holds of its
children holds of every tree.
-/

namespace PurleyFirmware

universe u v

/-- A value, and the trees below it. -/
inductive RoseTree (α : Type u)
  | node (value : α) (children : List (RoseTree α))

namespace RoseTree

variable {α : Type u} {β : Type v}

/-- The value at the root. -/
def value : RoseTree α → α
  | node a _ => a

/-- The trees below the root. -/
def children : RoseTree α → List (RoseTree α)
  | node _ ts => ts

@[simp] theorem value_node (a : α) (ts : List (RoseTree α)) : (node a ts).value = a := rfl

@[simp] theorem children_node (a : α) (ts : List (RoseTree α)) : (node a ts).children = ts := rfl

/-- **Induction on trees.** -/
theorem ind {p : RoseTree α → Prop} (hnode : ∀ a ts, (∀ t ∈ ts, p t) → p (node a ts)) :
    ∀ t, p t := fun t ↦
  RoseTree.rec (motive_1 := p) (motive_2 := fun ts ↦ ∀ t ∈ ts, p t) hnode (by simp)
    (fun t ts ht hts s hs ↦ (List.mem_cons.1 hs).elim (fun h ↦ h ▸ ht) (hts s)) t

mutual

/-- Computes a tree's result from the value at the root and the results of the trees below. -/
def fold (f : α → List β → β) : RoseTree α → β
  | node a ts => f a (foldList f ts)

/-- The results of the trees of a list. -/
def foldList (f : α → List β → β) : List (RoseTree α) → List β
  | [] => []
  | t :: ts => fold f t :: foldList f ts

end

theorem foldList_eq_map (f : α → List β → β) (ts : List (RoseTree α)) :
    foldList f ts = ts.map (fold f) := by
  induction ts with
  | nil => rfl
  | cons t ts ih => rw [foldList, ih, List.map_cons]

theorem fold_node (f : α → List β → β) (a : α) (ts : List (RoseTree α)) :
    fold f (node a ts) = f a (ts.map (fold f)) := by
  rw [fold, foldList_eq_map]

/-! ### The values of a tree -/

/-- The values of a tree, a node before what is below it. -/
def values : RoseTree α → List α := fold fun a ls ↦ a :: ls.flatten

/-- The values below the root. -/
def descendants (t : RoseTree α) : List α := t.children.flatMap values

theorem values_eq (t : RoseTree α) : t.values = t.value :: t.descendants := by
  cases t with
  | node a ts => rw [values, fold_node, descendants, List.flatMap_def]; rfl

theorem value_mem_values (t : RoseTree α) : t.value ∈ t.values := by
  rw [values_eq]
  exact List.mem_cons_self

theorem descendants_sublist_values (t : RoseTree α) : t.descendants.Sublist t.values := by
  rw [values_eq]
  exact List.sublist_cons_self _ _

/-! ### Changing the values -/

/-- Applies a function to every value. -/
def mapValues (f : α → α) : RoseTree α → RoseTree α := fold fun a ts ↦ node (f a) ts

theorem mapValues_node (f : α → α) (a : α) (ts : List (RoseTree α)) :
    (node a ts).mapValues f = node (f a) (ts.map (mapValues f)) := fold_node _ _ _

theorem values_mapValues (f : α → α) (t : RoseTree α) :
    (t.mapValues f).values = t.values.map f := by
  induction t using ind with
  | hnode a ts ih =>
    rw [mapValues_node, values_eq, values_eq, List.map_cons]
    congr 1
    rw [descendants, descendants, children_node, children_node, List.flatMap_map,
      List.map_flatMap, List.flatMap_def, List.flatMap_def]
    exact congrArg List.flatten (List.map_congr_left ih)

theorem descendants_mapValues (f : α → α) (t : RoseTree α) :
    (t.mapValues f).descendants = t.descendants.map f := by
  have h := values_mapValues f t
  rw [values_eq, values_eq, List.map_cons] at h
  exact (List.cons.inj h).2

/-! ### Taking parts away -/

/-- Takes away the trees below the root whose root satisfies `p`. -/
def prune (p : α → Bool) : RoseTree α → RoseTree α :=
  fold fun a ts ↦ node a (ts.filter fun t ↦ !p t.value)

/-- Takes away what is below the nodes that satisfy `p`. -/
def cutBelow (p : α → Bool) : RoseTree α → RoseTree α :=
  fold fun a ts ↦ node a (if p a then [] else ts)

variable {p : α → Bool}

theorem prune_node (a : α) (ts : List (RoseTree α)) :
    (node a ts).prune p = node a ((ts.map (prune p)).filter fun t ↦ !p t.value) := fold_node _ _ _

theorem cutBelow_node (a : α) (ts : List (RoseTree α)) :
    (node a ts).cutBelow p = node a (if p a then [] else ts.map (cutBelow p)) := fold_node _ _ _

theorem value_prune (t : RoseTree α) : (t.prune p).value = t.value := by
  cases t with
  | node a ts => rw [prune_node]; rfl

theorem value_cutBelow (t : RoseTree α) : (t.cutBelow p).value = t.value := by
  cases t with
  | node a ts => rw [cutBelow_node]; rfl

/-- What is left below the root is below it already. -/
theorem descendants_sublist_of_children {f : RoseTree α → RoseTree α} {a : α}
    {ts us : List (RoseTree α)} (hus : us.Sublist (ts.map f))
    (hvalues : ∀ t ∈ ts, (f t).values.Sublist t.values) :
    (node a us).descendants.Sublist (node a ts).descendants := by
  have hmap : ((ts.map f).flatMap values).Sublist (ts.flatMap values) := by
    rw [List.flatMap_map]
    exact List.Sublist.flatMap_right ts hvalues
  exact (hus.flatMap values).trans hmap

theorem values_prune_sublist (t : RoseTree α) : (t.prune p).values.Sublist t.values := by
  induction t using ind with
  | hnode a ts ih =>
    rw [prune_node, values_eq, values_eq]
    exact (descendants_sublist_of_children List.filter_sublist ih).cons_cons a

theorem descendants_prune_sublist (t : RoseTree α) :
    (t.prune p).descendants.Sublist t.descendants := by
  cases t with
  | node a ts =>
    rw [prune_node]
    exact descendants_sublist_of_children List.filter_sublist fun t _ ↦ values_prune_sublist t

theorem values_cutBelow_sublist (t : RoseTree α) : (t.cutBelow p).values.Sublist t.values := by
  induction t using ind with
  | hnode a ts ih =>
    rw [cutBelow_node, values_eq, values_eq]
    refine List.Sublist.cons_cons a ?_
    split
    · exact List.nil_sublist _
    · exact descendants_sublist_of_children (List.Sublist.refl _) ih

theorem descendants_cutBelow_sublist (t : RoseTree α) :
    (t.cutBelow p).descendants.Sublist t.descendants := by
  cases t with
  | node a ts =>
    rw [cutBelow_node]
    split
    · exact List.nil_sublist _
    · exact descendants_sublist_of_children (List.Sublist.refl _) fun t _ ↦
        values_cutBelow_sublist t

/-- Nothing that satisfies `p` is left below the root. -/
theorem not_of_mem_descendants_prune {t : RoseTree α} {a : α}
    (h : a ∈ (t.prune p).descendants) : p a = false := by
  induction t using ind with
  | hnode b ts ih =>
    rw [prune_node, descendants, children_node, List.mem_flatMap] at h
    obtain ⟨u, hu, ha⟩ := h
    rw [List.mem_filter, Bool.not_eq_true'] at hu
    obtain ⟨t, ht, rfl⟩ := List.mem_map.1 hu.1
    rw [values_eq, List.mem_cons] at ha
    rcases ha with rfl | ha
    · exact hu.2
    · exact ih t ht ha

end RoseTree

end PurleyFirmware
