import Mathlib.Data.List.Cycle

/-!
# Circular doubly linked lists

A memory of links gives every entry the one after it and the one before it. A **ring** is a cycle of
distinct entries, each linked both ways to the one after it. A list with a head is the ring that
starts at the head, so an entry of the list may be taken for the head of the same ring: `Cycle` does
the turning, and every rule is stated for an entry at the front (`isRing_append_comm`).

The two edits are described by what the memory after them has, not by the order of the writes:
`InsertedAfter` and `TakenOut`. The rules `IsRing.insert` and `IsRing.takeOut` say what they do to a
ring they are made in, and `IsRing.congr` that a ring whose links are kept stays one.
-/

namespace PurleyFirmware

universe u

/-- Entry by entry, the entry after it and the entry before it. -/
structure RingLinks (α : Type u) where
  next : α → α
  prev : α → α

variable {α : Type u} {m m' : RingLinks α} {a b e h : α} {l l' : List α}

/-- Two entries are neighbours, by both their links. -/
def RingLinks.Linked (m : RingLinks α) (a b : α) : Prop := m.next a = b ∧ m.prev b = a

/-- The entries of the cycle, all different, are linked in its order. -/
structure IsRing (m : RingLinks α) (c : Cycle α) : Prop where
  nodup : c.Nodup
  chain : c.Chain m.Linked

/-! ### Chains of links -/

/-- A chain is kept by a memory that keeps the links in it. -/
theorem isChain_linked_congr (hchain : l.IsChain m.Linked)
    (hnext : ∀ x ∈ l.dropLast, m'.next x = m.next x) (hprev : ∀ y ∈ l.tail, m'.prev y = m.prev y) :
    l.IsChain m'.Linked := by
  induction l with
  | nil => exact List.isChain_nil
  | cons x l ih => cases l with
    | nil => exact List.isChain_singleton x
    | cons y l =>
      obtain ⟨hxy, hrest⟩ := List.isChain_cons_cons.1 hchain
      have hx : m'.next x = m.next x := hnext x List.mem_cons_self
      have hy : m'.prev y = m.prev y := hprev y List.mem_cons_self
      have hfirst : m'.Linked x y := ⟨hx.trans hxy.1, hy.trans hxy.2⟩
      refine List.isChain_cons_cons.2 ⟨hfirst, ih hrest (fun z hz ↦ ?_) fun z hz ↦ ?_⟩
      · exact hnext z (List.mem_cons_of_mem x hz)
      · exact hprev z (List.mem_cons_of_mem y hz)

/-! ### Rings -/

theorem isRing_cons_iff :
    IsRing m (a :: l : List α) ↔ (a :: l).Nodup ∧ (a :: (l ++ [a])).IsChain m.Linked :=
  ⟨fun hring ↦ ⟨hring.1, hring.2⟩, fun hring ↦ ⟨hring.1, hring.2⟩⟩

/-- A ring has no first entry. -/
theorem isRing_append_comm :
    IsRing m (l ++ l' : List α) ↔ IsRing m (l' ++ l : List α) := by
  have hturn : ((l ++ l' : List α) : Cycle α) = (l' ++ l : List α) :=
    Cycle.coe_eq_coe.2 List.isRotated_append
  rw [hturn]

/-- The links at the front of a ring. -/
theorem IsRing.linked (hring : IsRing m (a :: b :: l : List α)) : m.Linked a b :=
  (List.isChain_cons_cons.1 (isRing_cons_iff.1 hring).2).1

/-- A ring of one entry. -/
theorem isRing_singleton : IsRing m ([a] : List α) ↔ m.Linked a a := by
  rw [isRing_cons_iff]
  simp

/-- A ring is kept by a memory that keeps the links of its entries. -/
theorem IsRing.congr (hring : IsRing m (a :: l : List α))
    (hnext : ∀ x ∈ a :: l, m'.next x = m.next x) (hprev : ∀ x ∈ a :: l, m'.prev x = m.prev x) :
    IsRing m' (a :: l : List α) := by
  obtain ⟨hnodup, hchain⟩ := isRing_cons_iff.1 hring
  have hmem : ∀ x ∈ l ++ [a], x ∈ a :: l := by simp [or_comm]
  refine isRing_cons_iff.2
    ⟨hnodup, isChain_linked_congr hchain (fun x hx ↦ hnext x ?_) fun x hx ↦ ?_⟩
  · rwa [← List.cons_append, List.dropLast_concat] at hx
  · exact hprev x (hmem x hx)

/-- The head of a list is its own neighbour exactly if the list is empty. -/
theorem IsRing.next_eq_self_iff (hring : IsRing m (a :: l : List α)) : m.next a = a ↔ l = [] := by
  cases l with
  | nil => exact iff_of_true (isRing_singleton.1 hring).1 rfl
  | cons b l =>
    refine iff_of_false (fun hself ↦ ?_) (List.cons_ne_nil b l)
    have hab : a ∉ b :: l := (List.nodup_cons.1 (isRing_cons_iff.1 hring).1).1
    exact hab (hring.linked.1.symm.trans hself ▸ List.mem_cons_self)

/-- What is behind an entry of a ring is in the ring. -/
theorem IsRing.next_mem {c : Cycle α} (hring : IsRing m c) (ha : a ∈ c) : m.next a ∈ c := by
  obtain ⟨l, rfl⟩ := Quotient.exists_rep c
  obtain ⟨front, back, rfl⟩ := List.append_of_mem (Cycle.mem_coe_iff.1 ha)
  have hturned : IsRing m (a :: (back ++ front) : List α) := isRing_append_comm.1 hring
  have hnext : m.next a ∈ a :: (back ++ front) := by
    rcases hrest : back ++ front with - | ⟨b, rest⟩
    · rw [hrest] at hturned
      exact List.mem_singleton.2 (isRing_singleton.1 hturned).1
    · rw [hrest] at hturned
      rw [hturned.linked.1]
      exact List.mem_cons_of_mem a List.mem_cons_self
  refine Cycle.mem_coe_iff.2 ?_
  simp only [List.mem_cons, List.mem_append] at hnext ⊢
  grind

/-- What is behind an entry of a list: the next one, or at the end the head. -/
theorem IsRing.next_eq_headD (hring : IsRing m (h :: (l ++ e :: l') : List α)) :
    m.next e = l'.headD h := by
  rw [← List.cons_append, isRing_append_comm] at hring
  cases l' with
  | nil => exact hring.linked.1
  | cons b l' => exact hring.linked.1

/-- What is in front of an entry of a list is in front of it in the ring. -/
theorem IsRing.prev_mem (hring : IsRing m (h :: (l ++ e :: l') : List α)) : m.prev e ∈ h :: l := by
  have hchain := (isRing_cons_iff.1 hring).2
  rw [List.append_assoc, ← List.cons_append, List.cons_append] at hchain
  have hlink := (List.isChain_append.1 hchain).2.2
    _ (List.getLast?_eq_some_getLast (List.cons_ne_nil h l)) e rfl
  rw [hlink.2]
  exact List.getLast_mem _

/-! ### Putting an entry in -/

/-- The memory `m'` is `m` with the entry `e` put behind `a`. -/
structure InsertedAfter (m m' : RingLinks α) (a e : α) : Prop where
  next_at : m'.next a = e
  next_new : m'.next e = m.next a
  prev_new : m'.prev e = a
  prev_after : m'.prev (m.next a) = e
  next_of_ne : ∀ x, x ≠ a → x ≠ e → m'.next x = m.next x
  prev_of_ne : ∀ x, x ≠ m.next a → x ≠ e → m'.prev x = m.prev x

/-- **A new entry behind the front of a ring.** -/
theorem IsRing.insert (hring : IsRing m (a :: l : List α)) (he : e ∉ a :: l)
    (hins : InsertedAfter m m' a e) : IsRing m' (a :: e :: l : List α) := by
  obtain ⟨hnodup, hchain⟩ := isRing_cons_iff.1 hring
  obtain ⟨hea, hel⟩ : e ≠ a ∧ e ∉ l := by simpa using he
  obtain ⟨hal, hl⟩ := List.nodup_cons.1 hnodup
  have hnodup' : (a :: e :: l).Nodup :=
    List.nodup_cons.2 ⟨by simp [Ne.symm hea, hal], List.nodup_cons.2 ⟨hel, hl⟩⟩
  have hnew : m'.Linked a e := ⟨hins.next_at, hins.prev_new⟩
  refine isRing_cons_iff.2 ⟨hnodup', List.isChain_cons_cons.2 ⟨hnew, ?_⟩⟩
  -- the rest of the ring, from the entry that was behind the front
  have hrest : (l ++ [a]).IsChain m.Linked := (List.isChain_cons.1 hchain).2
  have hkept : (l ++ [a]).IsChain m'.Linked := by
    refine isChain_linked_congr hrest (fun x hx ↦ ?_) fun y hy ↦ ?_
    · rw [List.dropLast_concat] at hx
      exact hins.next_of_ne x (fun hxa ↦ hal (hxa ▸ hx)) fun hxe ↦ hel (hxe ▸ hx)
    · cases l with
      | nil => exact absurd hy List.not_mem_nil
      | cons b l =>
        have hb : m.next a = b := hring.linked.1
        have hya : y ∈ l ∨ y = a := by simpa using hy
        have hyb : y ≠ b := by
          rintro rfl
          rcases hya with hyl | rfl
          · exact (List.nodup_cons.1 hl).1 hyl
          · exact hal List.mem_cons_self
        have hye : y ≠ e := by
          rintro rfl
          rcases hya with hyl | rfl
          · exact hel (List.mem_cons_of_mem b hyl)
          · exact hea rfl
        exact hins.prev_of_ne y (hb ▸ hyb) hye
  refine List.isChain_cons.2 ⟨fun b hb ↦ ?_, hkept⟩
  have hab : m.next a = b := ((List.isChain_cons.1 hchain).1 b hb).1
  exact ⟨hins.next_new.trans hab, hab ▸ hins.prev_after⟩

/-! ### Taking an entry out -/

/-- The memory `m'` is `m` with the entry `e` taken out: its neighbours are linked to each other. -/
structure TakenOut (m m' : RingLinks α) (e : α) : Prop where
  next_before : m'.next (m.prev e) = m.next e
  prev_after : m'.prev (m.next e) = m.prev e
  next_of_ne : ∀ x, x ≠ m.prev e → m'.next x = m.next x
  prev_of_ne : ∀ x, x ≠ m.next e → m'.prev x = m.prev x

/-- **The front of a ring is taken out.** -/
theorem IsRing.takeOut (hring : IsRing m (e :: a :: l : List α)) (hout : TakenOut m m' e) :
    IsRing m' (a :: l : List α) := by
  obtain ⟨hnodup, hchain⟩ := isRing_cons_iff.1 hring
  obtain ⟨hal, hl⟩ := List.nodup_cons.1 (List.nodup_cons.1 hnodup).2
  have ha : m.next e = a := hring.linked.1
  have hrest : (a :: l ++ [e]).IsChain m.Linked := (List.isChain_cons_cons.1 hchain).2
  obtain ⟨hbody, -, hlast⟩ := List.isChain_append.1 hrest
  -- the last entry of what is left is the one before `e`
  have hprev : m.prev e = (a :: l).getLast (List.cons_ne_nil a l) :=
    (hlast _ (List.getLast?_eq_some_getLast _) e (by simp)).2
  have hmem : ∀ x ∈ (a :: l).dropLast, x ≠ m.prev e := by
    rintro x hx rfl
    rw [hprev] at hx
    have hsplit := List.dropLast_append_getLast (List.cons_ne_nil a l)
    have hdisjoint := List.nodup_cons.2 ⟨hal, hl⟩
    rw [← hsplit] at hdisjoint
    exact List.disjoint_of_nodup_append hdisjoint hx (List.mem_singleton.2 rfl)
  have hkept : (a :: l).IsChain m'.Linked :=
    isChain_linked_congr hbody (fun x hx ↦ hout.next_of_ne x (hmem x hx))
      fun y hy ↦ hout.prev_of_ne y fun hya ↦ hal (ha ▸ hya ▸ hy)
  have hclose : ∀ x ∈ (a :: l).getLast?, ∀ y ∈ [a].head?, m'.Linked x y := by
    intro x hx y hy
    obtain rfl : a = y := by simpa using hy
    have hxe : x = m.prev e := by
      rw [List.getLast?_eq_some_getLast (List.cons_ne_nil a l), Option.mem_some_iff] at hx
      exact hx.symm.trans hprev.symm
    rw [hxe]
    exact ⟨hout.next_before.trans ha, ha ▸ hout.prev_after⟩
  rw [isRing_cons_iff, ← List.cons_append, List.isChain_append]
  exact ⟨List.nodup_cons.2 ⟨hal, hl⟩, hkept, List.isChain_singleton a, hclose⟩

/-! ### What an edit leaves alone -/

/-- Only links of entries of the cycle are different. -/
def KeepsOutside (m m' : RingLinks α) (c : Cycle α) : Prop :=
  ∀ x, x ∉ c → m'.next x = m.next x ∧ m'.prev x = m.prev x

variable {m'' : RingLinks α} {c c' : Cycle α}

theorem KeepsOutside.trans (h : KeepsOutside m m' c) (h' : KeepsOutside m' m'' c) :
    KeepsOutside m m'' c := fun x hx ↦
  ⟨(h' x hx).1.trans (h x hx).1, (h' x hx).2.trans (h x hx).2⟩

theorem KeepsOutside.mono (h : KeepsOutside m m' c) (hsub : ∀ x ∈ c, x ∈ c') :
    KeepsOutside m m' c' := fun x hx ↦ h x fun hmem ↦ hx (hsub x hmem)

/-- A ring is kept by what is done outside of it. -/
theorem KeepsOutside.isRing (h : KeepsOutside m m' c) (hring : IsRing m (a :: l : List α))
    (hdisjoint : ∀ x ∈ a :: l, x ∉ c) : IsRing m' (a :: l : List α) :=
  hring.congr (fun x hx ↦ (h x (hdisjoint x hx)).1) fun x hx ↦ (h x (hdisjoint x hx)).2

theorem InsertedAfter.keepsOutside (hins : InsertedAfter m m' a e) (hring : IsRing m c)
    (ha : a ∈ c) (hsub : ∀ x ∈ c, x ∈ c') (he : e ∈ c') : KeepsOutside m m' c' := by
  intro x hx
  have hxe : x ≠ e := by rintro rfl; exact hx he
  have hxa : x ≠ a := by rintro rfl; exact hx (hsub x ha)
  have hafter : x ≠ m.next a := by rintro rfl; exact hx (hsub _ (hring.next_mem ha))
  exact ⟨hins.next_of_ne x hxa hxe, hins.prev_of_ne x hafter hxe⟩

theorem TakenOut.keepsOutside (hout : TakenOut m m' e)
    (hring : IsRing m (h :: (l ++ e :: l') : List α)) :
    KeepsOutside m m' (h :: (l ++ e :: l') : List α) := by
  intro x hx
  have hmem : e ∈ ((h :: (l ++ e :: l') : List α) : Cycle α) := Cycle.mem_coe_iff.2 (by simp)
  have hafter : x ≠ m.next e := by rintro rfl; exact hx (hring.next_mem hmem)
  have hbefore : x ≠ m.prev e := by
    rintro rfl
    refine hx (Cycle.mem_coe_iff.2 ?_)
    rw [← List.cons_append]
    exact List.mem_append_left _ hring.prev_mem
  exact ⟨hout.next_of_ne x hbefore, hout.prev_of_ne x hafter⟩

/-! ### Edits in the middle of a list -/

/-- An entry put behind another one of a list. -/
theorem IsRing.insert_middle {c : α} (hring : IsRing m (h :: (l ++ c :: l') : List α))
    (he : e ∉ h :: (l ++ c :: l')) (hins : InsertedAfter m m' c e) :
    IsRing m' (h :: (l ++ c :: e :: l') : List α) := by
  rw [← List.cons_append, isRing_append_comm] at hring ⊢
  have hfront : IsRing m (c :: (l' ++ h :: l) : List α) := hring
  refine hfront.insert (fun hmem ↦ he ?_) hins
  simp only [List.mem_cons, List.mem_append] at hmem ⊢
  grind

/-- An entry taken out of a list. -/
theorem IsRing.takeOut_middle (hring : IsRing m (h :: (l ++ e :: l') : List α))
    (hout : TakenOut m m' e) : IsRing m' (h :: (l ++ l') : List α) := by
  rw [← List.cons_append, isRing_append_comm] at hring ⊢
  obtain ⟨a, rest, hfront⟩ : ∃ a rest, l' ++ h :: l = a :: rest :=
    List.exists_cons_of_ne_nil (by simp)
  rw [List.cons_append, hfront] at hring
  rw [hfront]
  exact hring.takeOut hout

end PurleyFirmware
