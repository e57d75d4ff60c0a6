import Mathlib.Data.List.Induction
import Mathlib.Data.Set.Basic
import Mathlib.Tactic.TypeStar

/-!
# Trees of linked nodes and the nodes to spare

A structure in memory is a set of nodes, each with slots that may link to a further node. Seen from
a root it is a tree when no node is at the end of two paths. An allocator that takes the nodes of
such a tree from a list of spare nodes, and puts them back there, must lose none and hand out none
twice: `Conserved` says so, for trees of bounded depth.

## The two edits

* `Conserved.link`: the first spare node, with all its slots empty, goes into an empty slot of a
  node of the tree.
* `Conserved.unlink`: a node of the tree without children leaves its slot and becomes the last spare
  one.

Both rest on what the edit does to the paths, `follow_link` and `follow_unlink`. Nothing else about
the memory matters: two memories with the same links have the same paths.
-/

namespace PurleyFirmware

universe u v w

variable {Node : Type u} {Idx : Type v} {α : Type w}

/-! ### Slots -/

section Slots

variable [DecidableEq Node] [DecidableEq Idx]

/-- The memory `f` with one slot of one node replaced. -/
def setSlot (f : Node → Idx → α) (p : Node) (i : Idx) (a : α) : Node → Idx → α :=
  fun t k ↦ if t = p ∧ k = i then a else f t k

variable {f : Node → Idx → α} {p t : Node} {i k : Idx} {a : α}

@[simp] theorem setSlot_self : setSlot f p i a p i = a := by simp [setSlot]

theorem setSlot_of_ne (h : ¬ (t = p ∧ k = i)) : setSlot f p i a t k = f t k := if_neg h

theorem setSlot_eq_self : setSlot f p i (f p i) = f := by
  funext t k
  by_cases h : t = p ∧ k = i
  · rw [h.1, h.2, setSlot_self]
  · rw [setSlot_of_ne h]

theorem setSlot_comm {q : Node} {j : Idx} {b : α} (h : ¬ (p = q ∧ i = j)) :
    setSlot (setSlot f p i a) q j b = setSlot (setSlot f q j b) p i a := by
  funext t k
  by_cases hq : t = q ∧ k = j
  · have hp : ¬ (t = p ∧ k = i) := fun hp ↦ h ⟨hp.1.symm.trans hq.1, hp.2.symm.trans hq.2⟩
    rw [setSlot_of_ne hp, hq.1, hq.2, setSlot_self, setSlot_self]
  · rw [setSlot_of_ne hq]
    by_cases hp : t = p ∧ k = i
    · rw [hp.1, hp.2, setSlot_self, setSlot_self]
    · rw [setSlot_of_ne hp, setSlot_of_ne hp, setSlot_of_ne hq]

/-- What is read off every slot is read off the replaced one. -/
theorem map_setSlot {β : Type*} (g : α → β) (f : Node → Idx → α) (p : Node) (i : Idx) (a : α) :
    (fun t k ↦ g (setSlot f p i a t k)) = setSlot (fun t k ↦ g (f t k)) p i (g a) := by
  funext t k
  simp only [setSlot, apply_ite g]

end Slots

/-! ### Paths -/

/-- The node at the end of a path of slots, at most `d` links below `p`. -/
def follow (child : Node → Idx → Option Node) : ℕ → Node → List Idx → Option Node
  | _, p, [] => some p
  | 0, _, _ :: _ => none
  | d + 1, p, i :: π => (child p i).bind fun q ↦ follow child d q π

section Follow

variable {child : Node → Idx → Option Node} {d : ℕ} {root p q n : Node} {i k : Idx}
  {π π' π₀ : List Idx}

@[simp] theorem follow_nil : follow child d p [] = some p := by
  cases d <;> rfl

/-- A path ends with its last link. -/
theorem follow_concat :
    follow child d p (π ++ [k]) = some q ↔
      π.length < d ∧ ∃ t, follow child d p π = some t ∧ child t k = some q := by
  induction π generalizing d p with
  | nil =>
    cases d with
    | zero => simp [follow]
    | succ d => simp [follow]
  | cons i π ih =>
    cases d with
    | zero => simp [follow]
    | succ d =>
      simp only [List.cons_append, follow, Option.bind_eq_some_iff, List.length_cons,
        Nat.add_lt_add_iff_right]
      constructor
      · rintro ⟨c, hc, hrest⟩
        obtain ⟨hlt, t, ht, hk⟩ := ih.1 hrest
        exact ⟨hlt, t, ⟨c, hc, ht⟩, hk⟩
      · rintro ⟨hlt, t, ⟨c, hc, ht⟩, hk⟩
        exact ⟨c, hc, ih.2 ⟨hlt, t, ht, hk⟩⟩

/-- What is at the end of a path is below what is at the end of its beginning. -/
theorem exists_follow_of_append (h : follow child d p (π ++ π') = some q) :
    ∃ t, follow child d p π = some t := by
  induction π' using List.reverseRecOn generalizing q with
  | nil => exact ⟨q, by simpa using h⟩
  | append_singleton π' k ih =>
    rw [← List.append_assoc] at h
    obtain ⟨-, t, ht, -⟩ := follow_concat.1 h
    exact ih ht

/-- **Frame rule.** Only the slots of the nodes that are reached matter, the bottom ones excepted. -/
theorem follow_congr {child' : Node → Idx → Option Node}
    (h : ∀ π p, follow child d root π = some p → π.length < d → ∀ k, child' p k = child p k) :
    follow child' d root π = some q ↔ follow child d root π = some q := by
  induction π using List.reverseRecOn generalizing q with
  | nil => simp
  | append_singleton π k ih =>
    rw [follow_concat, follow_concat]
    constructor
    · rintro ⟨hlen, t, ht, hk⟩
      have ht' := ih.1 ht
      exact ⟨hlen, t, ht', by rw [← h π t ht' hlen k, hk]⟩
    · rintro ⟨hlen, t, ht, hk⟩
      exact ⟨hlen, t, ih.2 ht, by rw [h π t ht hlen k, hk]⟩

/-- Fewer links, fewer paths. -/
theorem follow_mono {child' : Node → Idx → Option Node}
    (h : ∀ p k q, child' p k = some q → child p k = some q)
    (hπ : follow child' d root π = some q) : follow child d root π = some q := by
  induction π using List.reverseRecOn generalizing q with
  | nil => simpa using hπ
  | append_singleton π k ih =>
    obtain ⟨hlen, t, ht, hk⟩ := follow_concat.1 hπ
    exact follow_concat.2 ⟨hlen, t, ih ht, h t k q hk⟩

variable [DecidableEq Node] [DecidableEq Idx]

/-- **Linking a fresh node.** The paths after it are the paths before it and those to the slot
continued by one link. -/
theorem follow_link (hempty : child p i = none) (hnew : ∀ k, child n k = none) (hnp : n ≠ p) :
    follow (setSlot child p i (some n)) d root π = some q ↔
      follow child d root π = some q ∨
        ∃ π₀, π = π₀ ++ [i] ∧ π₀.length < d ∧ follow child d root π₀ = some p ∧ q = n := by
  induction π using List.reverseRecOn generalizing q with
  | nil => simp
  | append_singleton π k ih =>
    rw [follow_concat, follow_concat]
    constructor
    · rintro ⟨hlen, t, ht, hk⟩
      rcases ih.1 ht with hold | ⟨π₀, rfl, -, -, rfl⟩
      · by_cases hslot : t = p ∧ k = i
        · obtain ⟨rfl, rfl⟩ := hslot
          rw [setSlot_self] at hk
          exact Or.inr ⟨π, rfl, hlen, hold, (Option.some.inj hk).symm⟩
        · rw [setSlot_of_ne hslot] at hk
          exact Or.inl ⟨hlen, t, hold, hk⟩
      · rw [setSlot_of_ne fun h ↦ hnp h.1, hnew k] at hk
        exact absurd hk (by simp)
    · rintro (⟨hlen, t, ht, hk⟩ | ⟨π₀, hπ, hlt, hp, rfl⟩)
      · refine ⟨hlen, t, ih.2 (Or.inl ht), ?_⟩
        rw [setSlot_of_ne]
        · exact hk
        · rintro ⟨rfl, rfl⟩
          rw [hempty] at hk
          exact absurd hk (by simp)
      · obtain ⟨rfl, hki⟩ := List.append_inj' hπ rfl
        obtain rfl : k = i := by simpa using hki
        exact ⟨hlt, p, ih.2 (Or.inl hp), setSlot_self⟩

/-- **Unlinking a node without children.** The paths after it are the paths before it that do not
end at the node. -/
theorem follow_unlink
    (hunique : ∀ π, follow child d root π = some n → π = π₀ ++ [i])
    (hp : follow child d root π₀ = some p) (hn : child p i = some n) (hlt : π₀.length < d)
    (hleaf : π₀.length + 1 < d → ∀ k, child n k = none) :
    follow (setSlot child p i none) d root π = some q ↔
      follow child d root π = some q ∧ q ≠ n := by
  induction π using List.reverseRecOn generalizing q with
  | nil =>
    simp only [follow_nil, Option.some.injEq]
    refine ⟨fun h ↦ ⟨h, ?_⟩, fun h ↦ h.1⟩
    rintro rfl
    have := hunique [] (by simp [h])
    simp at this
  | append_singleton π k ih =>
    rw [follow_concat, follow_concat]
    constructor
    · rintro ⟨hlen, t, ht, hk⟩
      have ht' := ih.1 ht
      have hslot : ¬ (t = p ∧ k = i) := by
        rintro ⟨rfl, rfl⟩
        rw [setSlot_self] at hk
        exact absurd hk (by simp)
      rw [setSlot_of_ne hslot] at hk
      refine ⟨⟨hlen, t, ht'.1, hk⟩, ?_⟩
      rintro rfl
      obtain ⟨rfl, hki⟩ := List.append_inj' (hunique _ (follow_concat.2 ⟨hlen, t, ht'.1, hk⟩)) rfl
      exact hslot ⟨Option.some.inj (ht'.1.symm.trans hp), by simpa using hki⟩
    · rintro ⟨⟨hlen, t, ht, hk⟩, hq⟩
      have htn : t ≠ n := by
        rintro rfl
        have hπ := hunique π ht
        have hlen' : π₀.length + 1 < d := by simpa [hπ] using hlen
        rw [hleaf hlen' k] at hk
        exact absurd hk (by simp)
      refine ⟨hlen, t, ih.2 ⟨ht, htn⟩, ?_⟩
      rw [setSlot_of_ne]
      · exact hk
      · rintro ⟨rfl, rfl⟩
        exact hq (Option.some.inj (hk.symm.trans hn))

end Follow

/-! ### Conservation -/

/-- The spare nodes and the nodes of the tree below `root`, at most `d` links deep, are the nodes of
`all`, each of them once. -/
structure Conserved (child : Node → Idx → Option Node) (d : ℕ) (root : Node) (spare : List Node)
    (all : Set Node) : Prop where
  /-- No node is at the end of two paths. -/
  unique : ∀ {π π' : List Idx} {q : Node},
    follow child d root π = some q → follow child d root π' = some q → π = π'
  /-- No node is spare twice. -/
  nodup : spare.Nodup
  /-- No node of the tree is spare. -/
  notMem : ∀ {π : List Idx} {q : Node}, follow child d root π = some q → q ∉ spare
  /-- Nothing is lost and nothing is added. -/
  mem_iff : ∀ q, q ∈ all ↔ q ∈ spare ∨ ∃ π, follow child d root π = some q

namespace Conserved

variable {child : Node → Idx → Option Node} {d : ℕ} {root p n : Node} {i : Idx} {π₀ : List Idx}
  {spare : List Node} {all : Set Node}

/-- Conservation is about the paths only. -/
theorem of_follow_iff {child' : Node → Idx → Option Node} (h : Conserved child d root spare all)
    (hiff : ∀ π q, follow child' d root π = some q ↔ follow child d root π = some q) :
    Conserved child' d root spare all where
  unique hπ hπ' := h.unique ((hiff _ _).1 hπ) ((hiff _ _).1 hπ')
  nodup := h.nodup
  notMem hπ := h.notMem ((hiff _ _).1 hπ)
  mem_iff q := by
    rw [h.mem_iff]
    exact or_congr Iff.rfl (exists_congr fun π ↦ (hiff π q).symm)

variable [DecidableEq Node] [DecidableEq Idx]

theorem follow_link_iff (h : Conserved child d root (n :: spare) all)
    (hp : follow child d root π₀ = some p) (hlt : π₀.length < d) (hempty : child p i = none)
    (hnew : ∀ k, child n k = none) {π : List Idx} {q : Node} :
    follow (setSlot child p i (some n)) d root π = some q ↔
      follow child d root π = some q ∨ (π = π₀ ++ [i] ∧ q = n) := by
  have hnp : n ≠ p := fun hnp ↦ h.notMem hp (hnp ▸ List.mem_cons_self)
  rw [follow_link hempty hnew hnp]
  refine or_congr Iff.rfl ⟨?_, ?_⟩
  · rintro ⟨π₁, rfl, -, hπ₁, rfl⟩
    exact ⟨by rw [h.unique hπ₁ hp], rfl⟩
  · rintro ⟨rfl, rfl⟩
    exact ⟨π₀, rfl, hlt, hp, rfl⟩

theorem follow_unlink_iff (h : Conserved child d root spare all)
    (hp : follow child d root π₀ = some p) (hn : child p i = some n) (hlt : π₀.length < d)
    (hleaf : π₀.length + 1 < d → ∀ k, child n k = none) {π : List Idx} {q : Node} :
    follow (setSlot child p i none) d root π = some q ↔
      follow child d root π = some q ∧ q ≠ n :=
  follow_unlink (fun _ hπ ↦ h.unique hπ (follow_concat.2 ⟨hlt, p, hp, hn⟩)) hp hn hlt hleaf

/-- **Allocation.** The first spare node is linked into an empty slot. -/
theorem link (h : Conserved child d root (n :: spare) all)
    (hp : follow child d root π₀ = some p) (hlt : π₀.length < d) (hempty : child p i = none)
    (hnew : ∀ k, child n k = none) : Conserved (setSlot child p i (some n)) d root spare all := by
  have hiff : ∀ {π : List Idx} {q : Node}, follow (setSlot child p i (some n)) d root π = some q ↔
      follow child d root π = some q ∨ (π = π₀ ++ [i] ∧ q = n) :=
    h.follow_link_iff hp hlt hempty hnew
  have hfresh : ∀ {π : List Idx}, follow child d root π ≠ some n :=
    fun hπ ↦ h.notMem hπ List.mem_cons_self
  refine ⟨fun {π π' q} hπ hπ' ↦ ?_, (List.nodup_cons.1 h.nodup).2, fun {π q} hπ hmem ↦ ?_,
    fun q ↦ ?_⟩
  · rcases hiff.1 hπ with hold | ⟨rfl, rfl⟩
    · rcases hiff.1 hπ' with hold' | ⟨rfl, rfl⟩
      · exact h.unique hold hold'
      · exact absurd hold hfresh
    · rcases hiff.1 hπ' with hold | ⟨rfl, -⟩
      · exact absurd hold hfresh
      · rfl
  · rcases hiff.1 hπ with hπ | ⟨-, rfl⟩
    · exact h.notMem hπ (List.mem_cons_of_mem _ hmem)
    · exact (List.nodup_cons.1 h.nodup).1 hmem
  · rw [h.mem_iff]
    constructor
    · rintro (hq | ⟨π, hπ⟩)
      · rcases List.mem_cons.1 hq with rfl | hq
        · exact Or.inr ⟨π₀ ++ [i], hiff.2 (Or.inr ⟨rfl, rfl⟩)⟩
        · exact Or.inl hq
      · exact Or.inr ⟨π, hiff.2 (Or.inl hπ)⟩
    · rintro (hq | ⟨π, hπ⟩)
      · exact Or.inl (List.mem_cons_of_mem _ hq)
      · rcases hiff.1 hπ with hπ | ⟨-, rfl⟩
        · exact Or.inr ⟨π, hπ⟩
        · exact Or.inl List.mem_cons_self

/-- **Release.** A node without children leaves its slot and becomes the last spare one. -/
theorem unlink (h : Conserved child d root spare all)
    (hp : follow child d root π₀ = some p) (hn : child p i = some n) (hlt : π₀.length < d)
    (hleaf : π₀.length + 1 < d → ∀ k, child n k = none) :
    Conserved (setSlot child p i none) d root (spare ++ [n]) all := by
  have hiff : ∀ {π : List Idx} {q : Node}, follow (setSlot child p i none) d root π = some q ↔
      follow child d root π = some q ∧ q ≠ n :=
    h.follow_unlink_iff hp hn hlt hleaf
  have hmem := follow_concat.2 ⟨hlt, p, hp, hn⟩
  refine ⟨fun hπ hπ' ↦ h.unique (hiff.1 hπ).1 (hiff.1 hπ').1, ?_, fun hπ hq ↦ ?_, fun q ↦ ?_⟩
  · rw [List.nodup_append]
    refine ⟨h.nodup, by simp, fun a ha b hb hab ↦ ?_⟩
    obtain rfl : b = n := by simpa using hb
    exact h.notMem hmem (hab ▸ ha)
  · obtain ⟨hπ, hne⟩ := hiff.1 hπ
    rcases List.mem_append.1 hq with hq | hq
    · exact h.notMem hπ hq
    · exact hne (by simpa using hq)
  · rw [h.mem_iff, List.mem_append, List.mem_singleton]
    constructor
    · rintro (hq | ⟨π, hπ⟩)
      · exact Or.inl (Or.inl hq)
      · by_cases hqn : q = n
        · exact Or.inl (Or.inr hqn)
        · exact Or.inr ⟨π, hiff.2 ⟨hπ, hqn⟩⟩
    · rintro ((hq | rfl) | ⟨π, hπ⟩)
      · exact Or.inl hq
      · exact Or.inr ⟨_, hmem⟩
      · exact Or.inr ⟨π, (hiff.1 hπ).1⟩

end Conserved

end PurleyFirmware
