import Mathlib.Data.List.Induction
import Mathlib.Data.List.Sort

/-!
# Linked lists and insertion by rank

A singly linked list is a function `next` from a node to the node after it, `none` at the end.
`Segment` says which nodes a walk passes from one link to another; a list is a segment that ends at
`none`. The results are the ones an insertion needs: segments compose, a segment does not see a link
outside of it, and a node can be put between two of its nodes.

The second half is about the order of the nodes only. A node goes before the first one of strictly
greater rank, which is `List.orderedInsert` for the strict order of ranks; a list built this way is
sorted by rank and, rank by rank, in the order of the insertions (`filter_insertAll`).
-/

namespace PurleyFirmware

universe u v

variable {α : Type u} {β : Type v}

/-! ### Segments -/

/-- From the link `p` a walk passes the nodes of the list and then meets the link `q`. -/
def Segment (next : α → Option α) : Option α → List α → Option α → Prop
  | p, [], q => p = q
  | p, a :: l, q => p = some a ∧ Segment next (next a) l q

variable {next : α → Option α} {p q : Option α} {l : List α}

@[simp] theorem segment_nil : Segment next p [] q ↔ p = q := Iff.rfl

@[simp] theorem segment_cons {a : α} :
    Segment next p (a :: l) q ↔ p = some a ∧ Segment next (next a) l q := Iff.rfl

/-- Two segments that meet make one. -/
theorem segment_append {l' : List α} :
    Segment next p (l ++ l') q ↔ ∃ m, Segment next p l m ∧ Segment next m l' q := by
  induction l generalizing p with
  | nil => simp
  | cons a l ih =>
    rw [List.cons_append, segment_cons, ih]
    simp only [segment_cons, and_assoc, exists_and_left]

/-- A segment with one more node at its end. -/
theorem segment_concat {a : α} :
    Segment next p (l ++ [a]) q ↔ Segment next p l (some a) ∧ next a = q := by
  rw [segment_append]
  constructor
  · rintro ⟨m, hl, rfl, hq⟩
    exact ⟨hl, hq⟩
  · rintro ⟨hl, hq⟩
    exact ⟨some a, hl, rfl, hq⟩

/-- A segment is the same under links that agree on its nodes. -/
theorem Segment.congr {next' : α → Option α} (h : Segment next p l q)
    (hagree : ∀ a ∈ l, next' a = next a) : Segment next' p l q := by
  induction l generalizing p with
  | nil => exact h
  | cons a l ih =>
    refine ⟨h.1, ?_⟩
    rw [hagree a List.mem_cons_self]
    exact ih h.2 fun b hb ↦ hagree b (List.mem_cons_of_mem a hb)

/-- A node put behind the last one of a segment, in front of what follows. -/
theorem Segment.insert {next' : α → Option α} {m : Option α} {b n : α} {l' : List α}
    (hl : Segment next p (l ++ [b]) m) (hl' : Segment next m l' q) (hb : next' b = some n)
    (hn : next' n = m) (hagree : ∀ a ∈ l ++ l', next' a = next a) :
    Segment next' p (l ++ b :: n :: l') q := by
  have hfirst : Segment next' p l (some b) :=
    (segment_concat.mp hl).1.congr fun a ha ↦ hagree a (List.mem_append_left l' ha)
  have hrest : Segment next' m l' q :=
    hl'.congr fun a ha ↦ hagree a (List.mem_append_right l ha)
  rw [segment_append]
  refine ⟨some b, hfirst, rfl, ?_⟩
  rw [hb]
  refine ⟨rfl, ?_⟩
  rwa [hn]

/-! ### Insertion by rank -/

section Rank

variable (rank : β → ℕ)

/-- The list with an entry put before the first one of strictly greater rank. -/
def insertByRank (l : List β) (a : β) : List β :=
  l.orderedInsert (fun x y ↦ rank x < rank y) a

/-- The list that insertions one after the other leave. -/
def insertAll (as : List β) : List β := as.foldl (insertByRank rank) []

variable {rank} {a : β} {l : List β}

@[simp] theorem insertByRank_nil : insertByRank rank [] a = [a] := rfl

theorem insertByRank_cons_of_lt {b : β} (h : rank a < rank b) :
    insertByRank rank (b :: l) a = a :: b :: l := by
  rw [insertByRank, List.orderedInsert_cons, if_pos h]

theorem insertByRank_cons_of_le {b : β} (h : rank b ≤ rank a) :
    insertByRank rank (b :: l) a = b :: insertByRank rank l a := by
  rw [insertByRank, List.orderedInsert_cons, if_neg (Nat.not_lt.mpr h), insertByRank]

/-- Entries of no greater rank stay where they are. -/
theorem insertByRank_append {l' : List β} (h : ∀ b ∈ l, rank b ≤ rank a) :
    insertByRank rank (l ++ l') a = l ++ insertByRank rank l' a := by
  induction l with
  | nil => rfl
  | cons b l ih =>
    rw [List.cons_append, insertByRank_cons_of_le (h b List.mem_cons_self),
      ih fun c hc ↦ h c (List.mem_cons_of_mem b hc), List.cons_append]

theorem insertByRank_perm : (insertByRank rank l a).Perm (a :: l) :=
  List.perm_orderedInsert _ a l

theorem mem_insertByRank {b : β} : b ∈ insertByRank rank l a ↔ b = a ∨ b ∈ l := by
  rw [insertByRank_perm.mem_iff, List.mem_cons]

/-- Insertion keeps a list sorted. -/
theorem insertByRank_sorted (h : l.Pairwise (rank · ≤ rank ·)) :
    (insertByRank rank l a).Pairwise (rank · ≤ rank ·) := by
  induction l with
  | nil => exact List.pairwise_singleton _ a
  | cons b l ih =>
    obtain ⟨hb, hl⟩ := List.pairwise_cons.mp h
    by_cases hlt : rank a < rank b
    · rw [insertByRank_cons_of_lt hlt]
      refine List.pairwise_cons.mpr ⟨?_, h⟩
      intro c hc
      rcases List.mem_cons.mp hc with rfl | hc
      · exact hlt.le
      · exact hlt.le.trans (hb c hc)
    · have hle : rank b ≤ rank a := Nat.not_lt.mp hlt
      rw [insertByRank_cons_of_le hle]
      refine List.pairwise_cons.mpr ⟨?_, ih hl⟩
      intro c hc
      rcases mem_insertByRank.mp hc with rfl | hc
      · exact hle
      · exact hb c hc

/-- Among the entries of its rank the new one is the last; the others do not move. -/
theorem filter_insertByRank (h : l.Pairwise (rank · ≤ rank ·)) (r : ℕ) :
    (insertByRank rank l a).filter (rank · = r) =
      l.filter (rank · = r) ++ [a].filter (rank · = r) := by
  induction l with
  | nil => rfl
  | cons b l ih =>
    obtain ⟨hb, hl⟩ := List.pairwise_cons.mp h
    by_cases hlt : rank a < rank b
    · rw [insertByRank_cons_of_lt hlt]
      by_cases har : rank a = r
      · -- everything from here on has a greater rank
        have hnone : (b :: l).filter (rank · = r) = [] := by
          refine List.filter_eq_nil_iff.mpr fun c hc ↦ ?_
          have hbc : rank b ≤ rank c := by
            rcases List.mem_cons.mp hc with rfl | hc
            · exact le_rfl
            · exact hb c hc
          simp only [decide_eq_true_eq]
          omega
        rw [List.filter_cons_of_pos (by simpa using har), hnone, List.nil_append,
          List.filter_cons_of_pos (by simpa using har), List.filter_nil]
      · rw [List.filter_cons_of_neg (by simpa using har), List.filter_cons_of_neg (a := a)
          (by simpa using har), List.filter_nil, List.append_nil]
    · have ih' := ih hl
      rw [insertByRank_cons_of_le (Nat.not_lt.mp hlt)]
      by_cases hbr : rank b = r
      · rw [List.filter_cons_of_pos (by simpa using hbr), ih',
          List.filter_cons_of_pos (a := b) (by simpa using hbr), List.cons_append]
      · rw [List.filter_cons_of_neg (by simpa using hbr), ih',
          List.filter_cons_of_neg (a := b) (by simpa using hbr)]

theorem insertAll_concat (as : List β) :
    insertAll rank (as ++ [a]) = insertByRank rank (insertAll rank as) a := by
  rw [insertAll, List.foldl_append, insertAll]
  rfl

theorem insertAll_perm (as : List β) : (insertAll rank as).Perm as := by
  induction as using List.reverseRecOn with
  | nil => exact List.Perm.refl _
  | append_singleton as a ih =>
    rw [insertAll_concat]
    exact insertByRank_perm.trans ((ih.cons a).trans (List.perm_append_singleton a as).symm)

theorem insertAll_sorted (as : List β) : (insertAll rank as).Pairwise (rank · ≤ rank ·) := by
  induction as using List.reverseRecOn with
  | nil => exact List.Pairwise.nil
  | append_singleton as a ih =>
    rw [insertAll_concat]
    exact insertByRank_sorted ih

/-- Entries of one rank are in the order of their insertions. -/
theorem filter_insertAll (as : List β) (r : ℕ) :
    (insertAll rank as).filter (rank · = r) = as.filter (rank · = r) := by
  induction as using List.reverseRecOn with
  | nil => rfl
  | append_singleton as a ih =>
    rw [insertAll_concat, filter_insertByRank (insertAll_sorted as), ih, List.filter_append]

end Rank

end PurleyFirmware
