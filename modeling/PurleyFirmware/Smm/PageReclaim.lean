import Mathlib.Data.List.MinMax
import Mathlib.Data.List.Nodup
import PurleyFirmware.Smm.PagePool

/-!
# What ReclaimPages frees

`ReclaimPages` searches three nested loops for the entry with the smallest access record, and lowers
the records as it goes. `leafEntries` lists the entries that the loops compare, in their order, as a
function of the links alone, and `leastAccessed` is the first minimum of that list. `scanPml4_spec`
is the only fact about the loops that is used later: they find that entry, and they change no link.

The access record of an entry is lowered when it is compared. That the records which later turns
compare are still those of the memory before the search rests on `nodup_slots`: no entry is on the
list twice, because no table is at the end of two paths.
-/

namespace PurleyFirmware.PageTable

/-! ### The leaf entries, in the order of the search -/

/-- The entries of a table that lead to a lower table and are not masked. -/
def openEntries (L : Links) (p : ℕ) : List (Fin 512) :=
  (List.finRange 512).filter fun k ↦ (L p k).isOpen

/-- `PML4EIgnore` and `PDPTEIgnore`: the table has a masked entry or a lower table. -/
def ignored (L : Links) (p : ℕ) : Bool :=
  (List.finRange 512).any fun k ↦ (L p k).pmnt || (L p k).isOpen

/-- An entry is a candidate unless it leads to the reserved page. -/
def unreserved (L : Links) (reserved : ℕ) (l : LeafEntry) : List LeafEntry :=
  if reserved ≠ (L l.page l.index).frame then [l] else []

def pdtLeaves (L : Links) (reserved : ℕ) (i j : Fin 512) (pdt : ℕ) : List LeafEntry :=
  (openEntries L pdt).flatMap fun k ↦ unreserved L reserved ⟨i, some j, some k, pdt, k⟩

/-- The leaf entries of the table that an entry leads to, and the entry itself when that table has
neither lower tables nor masked entries. -/
def leavesAt (L : Links) (reserved : ℕ) (below : ℕ → List LeafEntry) (l : LeafEntry) :
    List LeafEntry :=
  below (L l.page l.index).frame ++
    if !ignored L (L l.page l.index).frame then unreserved L reserved l else []

def pdptLeaves (L : Links) (reserved : ℕ) (i : Fin 512) (pdpt : ℕ) : List LeafEntry :=
  (openEntries L pdpt).flatMap fun j ↦
    leavesAt L reserved (pdtLeaves L reserved i j) ⟨i, some j, none, pdpt, j⟩

/-- The leaf entries below the PML4 table. -/
def leafEntries (L : Links) (reserved pml4 : ℕ) : List LeafEntry :=
  (openEntries L pml4).flatMap fun i ↦
    leavesAt L reserved (pdptLeaves L reserved i) ⟨i, none, none, pml4, i⟩

/-- The access record that the search compares. -/
def accNum (m : Memory) (l : LeafEntry) : ℕ := (getAndUpdateAccNum (m l.page l.index)).1

/-- **The least accessed leaf entry**: the first one with the smallest access record. -/
def leastAccessed (m : Memory) (reserved pml4 : ℕ) : Option LeafEntry :=
  (leafEntries (links m) reserved pml4).argmin (accNum m)

/-! ### The search -/

theorem toLink_getAndUpdateAccNum (e : Entry) : (getAndUpdateAccNum e).2.toLink = e.toLink := by
  unfold getAndUpdateAccNum
  split_ifs <;> rfl

/-- `compareAcc` for an entry that does not lead to the reserved page. -/
def record (s : Search) (l : LeafEntry) : Search where
  mem := setSlot s.mem l.page l.index (getAndUpdateAccNum (s.mem l.page l.index)).2
  min :=
    match s.min with
    | some (minAcc, l') => if accNum s.mem l < minAcc then some (accNum s.mem l, l) else some (minAcc, l')
    | none => some (accNum s.mem l, l)

variable {L : Links} {reserved page pml4 : ℕ} {i j k : Fin 512} {s : Search} {m : Memory}
  {l l' : LeafEntry} {ls : List LeafEntry}

@[simp] theorem links_record (s : Search) (l : LeafEntry) : links (record s l).mem = links s.mem :=
  links_setSlot_of_eq (toLink_getAndUpdateAccNum _)

@[simp] theorem links_foldl_record (s : Search) (ls : List LeafEntry) :
    links (ls.foldl record s).mem = links s.mem := by
  induction ls generalizing s with
  | nil => rfl
  | cons l ls ih => rw [List.foldl_cons, ih, links_record]

theorem compareAcc_eq (hs : links s.mem = L) :
    compareAcc reserved l s = (unreserved L reserved l).foldl record s := by
  subst hs
  by_cases h : reserved ≠ (s.mem l.page l.index).frame
  · have h' : reserved ≠ (links s.mem l.page l.index).frame := h
    rw [compareAcc, if_pos h, unreserved, if_pos h']
    rfl
  · have h' : ¬ reserved ≠ (links s.mem l.page l.index).frame := h
    rw [compareAcc, if_neg h, unreserved, if_neg h']
    rfl

/-- **One table.** When visiting an entry records the leaf entries `V k`, scanning the table records
those of all its open entries. -/
theorem scanTable_eq {visit : Fin 512 → Search → Search} {V : Fin 512 → List LeafEntry}
    (hvisit : ∀ k s, links s.mem = L → (L page k).isOpen → visit k s = (V k).foldl record s)
    (hs : links s.mem = L) :
    scanTable visit page s =
      (((openEntries L page).flatMap V).foldl record s, ignored L page) := by
  have hgen : ∀ (ks : List (Fin 512)) (s : Search) (b : Bool), links s.mem = L →
      ks.foldl (scanEntry visit page) (s, b) =
        (((ks.filter fun k ↦ (L page k).isOpen).flatMap V).foldl record s,
          b || ks.any fun k ↦ (L page k).pmnt || (L page k).isOpen) := by
    intro ks
    induction ks with
    | nil =>
      intro s b _
      simp
    | cons k ks ih =>
      intro s b hs
      have hlink : (s.mem page k).toLink = L page k := by rw [← hs, links_apply]
      rw [List.foldl_cons]
      by_cases hopen : (L page k).isOpen
      · have hstep : scanEntry visit page (s, b) k = ((V k).foldl record s, true) := by
          have hfields := hopen
          simp only [← hlink, Link.isOpen, Link.isTable, Bool.and_eq_true, Bool.not_eq_true'] at hfields
          simp [scanEntry, hfields, hvisit k s hs hopen]
        rw [hstep, ih _ _ (by rw [links_foldl_record, hs])]
        simp [hopen, List.foldl_append]
      · have hstep : scanEntry visit page (s, b) k = (s, b || (L page k).pmnt) := by
          have hfields := hopen
          simp only [← hlink, Link.isOpen, Link.isTable] at hfields ⊢
          cases hp : (s.mem page k).present <;> cases hps : (s.mem page k).pageSize <;>
            cases hm : (s.mem page k).pmnt <;> simp_all [scanEntry]
        rw [hstep, ih _ _ hs]
        simp [hopen, Bool.or_assoc]
  rw [scanTable, hgen _ s false hs, openEntries, ignored, Bool.false_or]

theorem scanPdt_eq (hs : links s.mem = L) :
    scanPdt reserved i j page s =
      ((pdtLeaves L reserved i j page).foldl record s, ignored L page) :=
  scanTable_eq (fun _ _ hs _ ↦ compareAcc_eq hs) hs

/-- An entry is compared after the search below it, unless the search has found something there. -/
theorem visit_eq {below : ℕ → List LeafEntry} {r : Search × Bool} (hs : links s.mem = L)
    (hr : r = ((below (L l.page l.index).frame).foldl record s,
      ignored L (L l.page l.index).frame)) :
    (if !r.2 then compareAcc reserved l r.1 else r.1) =
      (leavesAt L reserved below l).foldl record s := by
  subst hr
  unfold leavesAt
  cases ignored L (L l.page l.index).frame with
  | false =>
    simp only [Bool.not_false, if_true, List.foldl_append]
    exact compareAcc_eq (by rw [links_foldl_record, hs])
  | true => simp

theorem scanPdpt_eq (hs : links s.mem = L) :
    scanPdpt reserved i page s =
      ((pdptLeaves L reserved i page).foldl record s, ignored L page) := by
  refine scanTable_eq (fun k s hs _ ↦ visit_eq hs ?_) hs
  have hframe : (s.mem page k).frame = (L page k).frame := by rw [← hs, links_apply]
  rw [hframe, scanPdt_eq hs]

/-- **The whole search** records the leaf entries in order. -/
theorem scanPml4_eq (hroot : ∀ k, (L pml4 k).present → (L pml4 k).isOpen) (hm : links m = L) :
    scanPml4 reserved pml4 m = (leafEntries L reserved pml4).foldl record ⟨m, none⟩ := by
  have hturn : ∀ s i, links s.mem = L → scanPml4Entry reserved pml4 s i =
      if (L pml4 i).isOpen then
        (leavesAt L reserved (pdptLeaves L reserved i) ⟨i, none, none, pml4, i⟩).foldl record s
      else s := by
    intro s i hs
    have hlink : (s.mem pml4 i).toLink = L pml4 i := by rw [← hs, links_apply]
    by_cases hopen : (L pml4 i).isOpen
    · have hfields := hopen
      simp only [← hlink, Link.isOpen, Link.isTable, Bool.and_eq_true, Bool.not_eq_true'] at hfields
      have hframe : (s.mem pml4 i).frame = (L pml4 i).frame := by rw [hlink]
      rw [if_pos hopen, scanPml4Entry, if_neg (by simp [hfields])]
      exact visit_eq hs (by rw [hframe, scanPdpt_eq hs])
    · have hpresent : (s.mem pml4 i).present = false := by
        by_contra hp
        exact hopen (hroot i (by rw [← hlink]; simpa using hp))
      rw [if_neg hopen, scanPml4Entry, if_pos (by simp [hpresent])]
  have hgen : ∀ (ks : List (Fin 512)) (s : Search), links s.mem = L →
      ks.foldl (scanPml4Entry reserved pml4) s =
        ((ks.filter fun k ↦ (L pml4 k).isOpen).flatMap fun i ↦
          leavesAt L reserved (pdptLeaves L reserved i) ⟨i, none, none, pml4, i⟩).foldl record s := by
    intro ks
    induction ks with
    | nil =>
      intro s _
      rfl
    | cons i ks ih =>
      intro s hs
      rw [List.foldl_cons, hturn s i hs]
      by_cases hopen : (L pml4 i).isOpen
      · rw [if_pos hopen, ih _ (by rw [links_foldl_record, hs])]
        simp [hopen, List.foldl_append]
      · rw [if_neg hopen, ih _ hs]
        simp [hopen]
  exact hgen _ _ hm

/-! ### The minimum -/

/-- The address of a leaf entry. -/
def LeafEntry.slot (l : LeafEntry) : ℕ × Fin 512 := (l.page, l.index)

/-- **Recording entries at different addresses** finds the first one whose access record, before the
search, is smallest. -/
theorem min_foldl_record (hnodup : (ls.map LeafEntry.slot).Nodup) :
    (ls.foldl record ⟨m, none⟩).min = (ls.argmin (accNum m)).map (fun l ↦ (accNum m l, l)) ∧
      ∀ t k, (t, k) ∉ ls.map LeafEntry.slot → (ls.foldl record ⟨m, none⟩).mem t k = m t k := by
  induction ls using List.reverseRecOn with
  | nil => exact ⟨rfl, fun _ _ _ ↦ rfl⟩
  | append_singleton ls l ih =>
    rw [List.map_append, List.nodup_append] at hnodup
    obtain ⟨hmin, hmem⟩ := ih hnodup.1
    have hfresh : l.slot ∉ ls.map LeafEntry.slot := fun h ↦
      hnodup.2.2 l.slot h l.slot (by simp) rfl
    have hacc : accNum (ls.foldl record ⟨m, none⟩).mem l = accNum m l := by
      rw [accNum, hmem l.page l.index hfresh, accNum]
    rw [List.foldl_append, List.foldl_cons, List.foldl_nil]
    refine ⟨?_, fun t k hk ↦ ?_⟩
    · rw [record, List.argmin_concat]
      simp only [hmin, hacc]
      cases ls.argmin (accNum m) with
      | none => rfl
      | some l' =>
        simp only [Option.map_some]
        split <;> rfl
    · rw [List.map_append, List.mem_append, not_or] at hk
      have hne : ¬ (t = l.page ∧ k = l.index) := by
        rintro ⟨rfl, rfl⟩
        exact hk.2 (by simp [LeafEntry.slot])
      exact (setSlot_of_ne hne).trans (hmem t k hk.1)

/-! ### The leaf entries lie on different paths -/

theorem mem_openEntries : k ∈ openEntries L page ↔ (L page k).isOpen := by
  simp [openEntries]

theorem isTable_of_not_ignored (h : ignored L page = false) (k : Fin 512) :
    (L page k).isTable = false := by
  by_contra hk
  simp only [ignored, List.any_eq_false, List.mem_finRange, true_imp_iff, Bool.or_eq_true,
    not_or] at h
  rcases Link.isOpen_or_isMasked (by simpa using hk : (L page k).isTable) with ho | hm
  · exact (h k).2 ho
  · rw [Link.isMasked, Bool.and_eq_true] at hm
    exact (h k).1 hm.2

theorem mem_unreserved : l' ∈ unreserved L reserved l ↔ reserved ≠ (L l.page l.index).frame ∧ l' = l := by
  unfold unreserved
  split_ifs with h
  · simp [h]
  · simp [h]

theorem mem_leavesAt {below : ℕ → List LeafEntry} :
    l' ∈ leavesAt L reserved below l ↔ l' ∈ below (L l.page l.index).frame ∨
      ignored L (L l.page l.index).frame = false ∧ reserved ≠ (L l.page l.index).frame ∧ l' = l := by
  rw [leavesAt, List.mem_append]
  refine or_congr Iff.rfl ?_
  cases ignored L (L l.page l.index).frame with
  | false => simp [mem_unreserved]
  | true => simp

/-- Where a leaf entry is. -/
inductive LeafEntry.At (L : Links) (pml4 : ℕ) : LeafEntry → Prop
  | pml4 {i : Fin 512} (hi : (L pml4 i).isOpen) (hleaf : ignored L (L pml4 i).frame = false) :
      At L pml4 ⟨i, none, none, pml4, i⟩
  | pdpt {i j : Fin 512} (hi : (L pml4 i).isOpen) (hj : (L (L pml4 i).frame j).isOpen)
      (hleaf : ignored L (L (L pml4 i).frame j).frame = false) :
      At L pml4 ⟨i, some j, none, (L pml4 i).frame, j⟩
  | pdt {i j k : Fin 512} (hi : (L pml4 i).isOpen) (hj : (L (L pml4 i).frame j).isOpen)
      (hk : (L (L (L pml4 i).frame j).frame k).isOpen) :
      At L pml4 ⟨i, some j, some k, (L (L pml4 i).frame j).frame, k⟩

theorem LeafEntry.At.of_mem (h : l ∈ leafEntries L reserved pml4) : l.At L pml4 := by
  obtain ⟨i, hi, h⟩ := List.mem_flatMap.1 h
  rw [mem_openEntries] at hi
  rcases mem_leavesAt.1 h with h | ⟨hleaf, -, rfl⟩
  · obtain ⟨j, hj, h⟩ := List.mem_flatMap.1 h
    rw [mem_openEntries] at hj
    rcases mem_leavesAt.1 h with h | ⟨hleaf, -, rfl⟩
    · obtain ⟨k, hk, h⟩ := List.mem_flatMap.1 h
      rw [mem_openEntries] at hk
      obtain ⟨-, rfl⟩ := mem_unreserved.1 h
      exact .pdt hi hj hk
    · exact .pdpt hi hj hleaf
  · exact .pml4 hi hleaf

/-- The reserved page is not a candidate. -/
theorem LeafEntry.ne_reserved_of_mem (h : l ∈ leafEntries L reserved pml4) :
    reserved ≠ (L l.page l.index).frame := by
  obtain ⟨i, -, h⟩ := List.mem_flatMap.1 h
  rcases mem_leavesAt.1 h with h | ⟨-, hne, rfl⟩
  · obtain ⟨j, -, h⟩ := List.mem_flatMap.1 h
    rcases mem_leavesAt.1 h with h | ⟨-, hne, rfl⟩
    · obtain ⟨k, -, h⟩ := List.mem_flatMap.1 h
      obtain ⟨hne, rfl⟩ := mem_unreserved.1 h
      exact hne
    · exact hne
  · exact hne

theorem nodup_openEntries : (openEntries L page).Nodup := (List.nodup_finRange 512).filter _

/-- Lists that tell by `f` which element they belong to do not meet. -/
theorem nodup_flatMap_of_tag {α β : Type*} {ks : List α} {g : α → List β} (f : β → Option α)
    (hks : ks.Nodup) (hg : ∀ k, (g k).Nodup) (htag : ∀ k b, b ∈ g k → f b = some k) :
    (ks.flatMap g).Nodup := by
  refine List.nodup_flatMap.2 ⟨fun k _ ↦ hg k, hks.imp fun {k k'} hne b hb hb' ↦ ?_⟩
  exact hne (Option.some.inj ((htag k b hb).symm.trans (htag k' b hb')))

theorem nodup_leavesAt {below : ℕ → List LeafEntry} (hbelow : (below (L l.page l.index).frame).Nodup)
    (hl : l ∉ below (L l.page l.index).frame) : (leavesAt L reserved below l).Nodup := by
  rw [leavesAt, List.nodup_append]
  refine ⟨hbelow, ?_, fun a ha b hb hab ↦ ?_⟩
  · unfold unreserved
    split_ifs <;> simp
  · have hb' : b = l := by
      cases hign : ignored L (L l.page l.index).frame with
      | false => exact (mem_unreserved.1 (by simpa [hign] using hb)).2
      | true => simp [hign] at hb
    rw [hab, hb'] at ha
    exact hl ha

theorem mem_pdtLeaves (h : l ∈ pdtLeaves L reserved i j page) :
    l.pml4Index = i ∧ l.pdptIndex = some j ∧ ∃ k, l = ⟨i, some j, some k, page, k⟩ := by
  obtain ⟨k, -, h⟩ := List.mem_flatMap.1 h
  obtain ⟨-, rfl⟩ := mem_unreserved.1 h
  exact ⟨rfl, rfl, k, rfl⟩

theorem mem_pdptLeaves (h : l ∈ pdptLeaves L reserved i page) :
    l.pml4Index = i ∧ l.pdptIndex.isSome := by
  obtain ⟨j, -, h⟩ := List.mem_flatMap.1 h
  rcases mem_leavesAt.1 h with h | ⟨-, -, rfl⟩
  · obtain ⟨hi, hj, -⟩ := mem_pdtLeaves h
    exact ⟨hi, by simp [hj]⟩
  · exact ⟨rfl, rfl⟩

theorem nodup_pdtLeaves : (pdtLeaves L reserved i j page).Nodup := by
  refine nodup_flatMap_of_tag LeafEntry.pdtIndex nodup_openEntries (fun k ↦ ?_) fun k l hl ↦ ?_
  · unfold unreserved
    split_ifs <;> simp
  · obtain ⟨-, rfl⟩ := mem_unreserved.1 hl
    rfl

theorem nodup_pdptLeaves : (pdptLeaves L reserved i page).Nodup := by
  refine nodup_flatMap_of_tag LeafEntry.pdptIndex nodup_openEntries (fun j ↦ ?_) fun j l hl ↦ ?_
  · refine nodup_leavesAt nodup_pdtLeaves fun h ↦ ?_
    obtain ⟨-, -, k, hk⟩ := mem_pdtLeaves h
    exact absurd (congrArg LeafEntry.pdtIndex hk) (by simp)
  · rcases mem_leavesAt.1 hl with h | ⟨-, -, rfl⟩
    · exact (mem_pdtLeaves h).2.1
    · rfl

theorem nodup_leafEntries : (leafEntries L reserved pml4).Nodup := by
  refine nodup_flatMap_of_tag (fun l ↦ some l.pml4Index) nodup_openEntries (fun i ↦ ?_)
    fun i l hl ↦ ?_
  · exact nodup_leavesAt nodup_pdptLeaves fun h ↦ absurd (mem_pdptLeaves h).2 (by simp)
  · rcases mem_leavesAt.1 hl with h | ⟨-, -, rfl⟩
    · exact congrArg some (mem_pdptLeaves h).1
    · rfl

/-! ### What the search finds -/

variable {all : Set ℕ} {spare : List ℕ}

/-- The path to a leaf entry, and what is known at its end. -/
theorem LeafEntry.At.exists_path (h : l.At L pml4) : ∃ π, π.length < 3 ∧
    follow (openChild L) 3 pml4 π = some l.page ∧ (L l.page l.index).isOpen ∧
      π ++ [l.index] = l.pml4Index :: (l.pdptIndex.toList ++ l.pdtIndex.toList) ∧
        (π.length + 1 < 3 → ∀ k, (L (L l.page l.index).frame k).isTable = false) := by
  have hdown : ∀ {π p k}, π.length < 3 → follow (openChild L) 3 pml4 π = some p →
      (L p k).isOpen → follow (openChild L) 3 pml4 (π ++ [k]) = some (L p k).frame :=
    fun hlt hπ hk ↦ follow_concat.2 ⟨hlt, _, hπ, openChild_eq_some.2 ⟨hk, rfl⟩⟩
  cases h with
  | pml4 hi hleaf =>
    exact ⟨[], by simp, follow_nil, hi, rfl, fun _ ↦ isTable_of_not_ignored hleaf⟩
  | @pdpt i j hi hj hleaf =>
    exact ⟨[i], by simp, hdown (by simp) follow_nil hi, hj, rfl,
      fun _ ↦ isTable_of_not_ignored hleaf⟩
  | @pdt i j k hi hj hk =>
    exact ⟨[i, j], by simp, hdown (by simp) (hdown (by simp) follow_nil hi) hj, hk, rfl,
      fun h ↦ absurd h (by simp)⟩

theorem LeafEntry.At.pdtIndex_eq_none (h : l.At L pml4) (hpdpt : l.pdptIndex = none) :
    l.pdtIndex = none := by
  cases h with
  | pml4 => rfl
  | pdpt => exact absurd hpdpt (by simp)
  | pdt => exact absurd hpdpt (by simp)

/-- A leaf entry is determined by its indices and its address. -/
theorem LeafEntry.eq_of_indices (hl : l.pdptIndex = none → l.pdtIndex = none)
    (hl' : l'.pdptIndex = none → l'.pdtIndex = none)
    (hpath : l.pml4Index :: (l.pdptIndex.toList ++ l.pdtIndex.toList) =
      l'.pml4Index :: (l'.pdptIndex.toList ++ l'.pdtIndex.toList))
    (hslot : l.slot = l'.slot) : l = l' := by
  obtain ⟨i, a, b, page, k⟩ := l
  obtain ⟨i', a', b', page', k'⟩ := l'
  obtain ⟨rfl, rfl⟩ : page = page' ∧ k = k' := Prod.mk.inj hslot
  obtain ⟨rfl, htail⟩ : i = i' ∧ a.toList ++ b.toList = a'.toList ++ b'.toList :=
    List.cons.inj hpath
  cases a <;> cases a' <;> cases b <;> cases b' <;> simp_all

theorem nodup_slots (h : Conserved (child L) 3 pml4 spare all) :
    ((leafEntries L reserved pml4).map LeafEntry.slot).Nodup := by
  refine nodup_leafEntries.map_on fun l hl l' hl' hslot ↦ ?_
  have hat := LeafEntry.At.of_mem hl
  have hat' := LeafEntry.At.of_mem hl'
  obtain ⟨π, -, hπ, -, hpath, -⟩ := hat.exists_path
  obtain ⟨π', -, hπ', -, hpath', -⟩ := hat'.exists_path
  obtain ⟨hpage, hindex⟩ : l.page = l'.page ∧ l.index = l'.index := Prod.mk.inj hslot
  have hsame : π = π' :=
    h.unique (Pooled.follow_of_open hπ) (hpage ▸ Pooled.follow_of_open hπ')
  rw [hsame, hindex, hpath'] at hpath
  exact LeafEntry.eq_of_indices hat.pdtIndex_eq_none hat'.pdtIndex_eq_none hpath.symm hslot

/-- **The search finds the least accessed leaf entry**, and changes no link. -/
theorem scanPml4_spec (reserved : ℕ) (hcons : Conserved (child (links m)) 3 pml4 spare all)
    (hroot : ∀ k, (links m pml4 k).present → (links m pml4 k).isOpen) :
    (scanPml4 reserved pml4 m).min =
        (leastAccessed m reserved pml4).map (fun l ↦ (accNum m l, l)) ∧
      links (scanPml4 reserved pml4 m).mem = links m := by
  rw [scanPml4_eq hroot rfl]
  exact ⟨(min_foldl_record (nodup_slots hcons)).1, links_foldl_record _ _⟩

end PurleyFirmware.PageTable
