import PurleyFirmware.Smm.PageFaults

/-!
# The SMM page tables when every page is a 2 MB page

A page fault that adds 2 MB pages builds page-directory-pointer tables and page directories, never a
page table of 4 KB pages, and it masks nothing. So what `SmmInitPageTable` has masked stays the only
masked part (`Shaped`), and every other table holds either page directories or 2 MB pages.

## Why `ReclaimPages` always finds a table

When the pool is empty its eight pages are tables below the PML4 table, and none of them is reached
through a masked entry. At most one is the reserved one, so take another: it is a page directory, or
it leads to one, or it is empty (`Shaped.exists_leafEntry`). A page directory, unlike a reserved
page, is always a candidate, because `ReservedPage` is a table of the level above.

## Why the counts do not run out

The entry of a table counts at least its lower tables and one more for the masked ones
(`Pooled.counted`). Releasing a page directory therefore finds a count that is not 0, and the entry
of the first 512 GB, whose table has masked entries, never comes down to 0 at all.
-/

namespace PurleyFirmware.PageTable

/-! ### Entries without their records -/

/-- An entry without what records its use: the sub-entries number, the accessed flag and the access
record. -/
def Entry.core (e : Entry) : Entry :=
  { e with subEntries := 0#9, accessed := false, acc := 0#3 }

@[simp] theorem core_setSubEntriesNum (e : Entry) (n : ℕ) : (setSubEntriesNum e n).core = e.core := rfl

@[simp] theorem core_setAccNum (e : Entry) (n : ℕ) : (setAccNum e n).core = e.core := rfl

@[simp] theorem core_accessed (e : Entry) (b : Bool) : { e with accessed := b }.core = e.core := rfl

@[simp] theorem core_getAndUpdateAccNum (e : Entry) : (getAndUpdateAccNum e).2.core = e.core := by
  unfold getAndUpdateAccNum
  split_ifs <;> rfl

/-- What does not read the records is the same for both entries. -/
theorem Entry.eq_of_core {α : Type*} {e e' : Entry} (h : e'.core = e.core) (g : Entry → α)
    (hg : ∀ e, g e.core = g e) : g e' = g e := by
  rw [← hg e', h, hg]

variable {P : Platform} {m m' m₀ : Memory} {p q n reserved : ℕ} {i j k : Fin 512} {e : Entry}
  {π : List (Fin 512)} {spare : List ℕ} {all : Set ℕ} {t t' : Tables} {l : LeafEntry}

theorem child_of_core (h : (m' q k).core = (m q k).core) :
    child (links m') q k = child (links m) q k :=
  Entry.eq_of_core h (fun e ↦ if e.toLink.isTable then some e.frame else none) fun _ ↦ rfl

/-- Memories whose entries differ in their records only. -/
def SameCore (m m' : Memory) : Prop := ∀ q k, (m' q k).core = (m q k).core

theorem SameCore.trans (h : SameCore m₀ m) (h' : SameCore m m') : SameCore m₀ m' :=
  fun q k ↦ (h' q k).trans (h q k)

theorem sameCore_setSlot (he : e.core = (m q k).core) : SameCore m (setSlot m q k e) := by
  intro q' k'
  by_cases hslot : q' = q ∧ k' = k
  · rw [hslot.1, hslot.2, setSlot_self, he]
  · rw [setSlot_of_ne hslot]

theorem SameCore.child (h : SameCore m m') : PageTable.child (links m') = PageTable.child (links m) := by
  funext q k
  exact child_of_core (h q k)

theorem sameCore_countSubEntry (m : Memory) (upper : Option (ℕ × Fin 512)) :
    SameCore m (countSubEntry m upper) := by
  cases upper with
  | none => exact fun _ _ ↦ rfl
  | some a => exact sameCore_setSlot rfl

theorem sameCore_foldl_record (s : Search) (ls : List LeafEntry) :
    SameCore s.mem (ls.foldl record s).mem := by
  induction ls generalizing s with
  | nil => exact fun _ _ ↦ rfl
  | cons l ls ih =>
    rw [List.foldl_cons]
    exact SameCore.trans (sameCore_setSlot (core_getAndUpdateAccNum _)) (ih (record s l))

/-! ### The shape -/

/-- An entry that a page fault of 2 MB pages may leave in the table at the end of `π`: it is not
masked, and it leads to a page directory, or to no table when it is in one itself. -/
structure Entry.Plain (π : List (Fin 512)) (e : Entry) : Prop where
  pmnt : e.pmnt = false
  pdpt : π.length = 1 → e.present → e.pageSize = false
  pdt : π.length = 2 → e.toLink.isTable = false

/-- The page tables as page faults of 2 MB pages leave them. -/
structure Shaped (P : Platform) (m : Memory) : Prop where
  /-- The table of the first 4 GB is where it was. -/
  first : child (links m) P.pml4 0 = some P.pdpt
  /-- The four masked entries lead to their page directories. -/
  masked : ∀ k : Fin 512, k.val < 4 →
    (links m P.pdpt k).isMasked ∧ (m P.pdpt k).frame = P.pdpt + (k.val + 1)
  /-- The other entries at their level are not masked, and map no 1 GB pages. -/
  pdpt : ∀ {i : Fin 512} {p : ℕ} {k : Fin 512}, follow (child (links m)) 3 P.pml4 [i] = some p →
    ¬ (p = P.pdpt ∧ k.val < 4) → (m p k).pmnt = false ∧ ((m p k).present → (m p k).pageSize = false)
  /-- The entries of a page directory are not masked, and lead to no page of the pool. -/
  pdt : ∀ {i j : Fin 512} {p : ℕ} {k : Fin 512},
    follow (child (links m)) 3 P.pml4 [i, j] = some p →
      (m p k).pmnt = false ∧ ((links m p k).isTable → (m p k).frame ∉ P.poolPages)

theorem mem_poolPages : q ∈ P.poolPages ↔ P.pml4 + 1 ≤ q ∧ q < P.pml4 + 9 := by
  rw [Platform.poolPages, List.mem_toFinset, List.mem_range'_1]

theorem pdpt_notMem_poolPages (d : ℕ) : P.pdpt + d ∉ P.poolPages := by
  rw [mem_poolPages, Platform.pdpt]
  omega

theorem Shaped.follow_first (h : Shaped P m) :
    follow (child (links m)) 3 P.pml4 [0] = some P.pdpt := by
  rw [follow, h.first, Option.bind_some, follow_nil]

/-- **What keeps the shape.** The masked entries stay, and every entry that is not an old one in an
old place is plain. -/
theorem Shaped.step (h : Shaped P m) (hfirst : child (links m') P.pml4 0 = some P.pdpt)
    (hmasked : ∀ k : Fin 512, k.val < 4 → (m' P.pdpt k).core = (m P.pdpt k).core)
    (hnew : ∀ π p, follow (child (links m')) 3 P.pml4 π = some p → π ≠ [] → ∀ k,
      (follow (child (links m)) 3 P.pml4 π = some p ∧ (m' p k).core = (m p k).core) ∨
        (m' p k).Plain π) : Shaped P m' where
  first := hfirst
  masked k hk := by
    have hcore := hmasked k hk
    refine ⟨?_, ?_⟩
    · exact (Entry.eq_of_core hcore (fun e ↦ e.toLink.isMasked) fun _ ↦ rfl).trans (h.masked k hk).1
    · exact (Entry.eq_of_core hcore (fun e ↦ e.frame) fun _ ↦ rfl).trans (h.masked k hk).2
  pdpt {i p k} hp hk := by
    rcases hnew [i] p hp (by simp) k with ⟨hold, hcore⟩ | hplain
    · rw [Entry.eq_of_core hcore (fun e ↦ e.pmnt) fun _ ↦ rfl,
        Entry.eq_of_core hcore (fun e ↦ e.present) fun _ ↦ rfl,
        Entry.eq_of_core hcore (fun e ↦ e.pageSize) fun _ ↦ rfl]
      exact h.pdpt hold hk
    · exact ⟨hplain.pmnt, hplain.pdpt rfl⟩
  pdt {i j p k} hp := by
    rcases hnew [i, j] p hp (by simp) k with ⟨hold, hcore⟩ | hplain
    · have htable : (links m' p k).isTable = (links m p k).isTable :=
        Entry.eq_of_core hcore (fun e ↦ e.toLink.isTable) fun _ ↦ rfl
      rw [htable, Entry.eq_of_core hcore (fun e ↦ e.pmnt) fun _ ↦ rfl,
        Entry.eq_of_core hcore (fun e ↦ e.frame) fun _ ↦ rfl]
      exact h.pdt hold
    · exact ⟨hplain.pmnt, fun htable ↦ absurd htable (by rw [links_apply, hplain.pdt rfl]; simp)⟩

/-- The records do not matter. -/
theorem Shaped.of_sameCore (h : Shaped P m) (hcore : SameCore m m') : Shaped P m' := by
  refine h.step (by rw [hcore.child, h.first]) (fun k _ ↦ hcore _ k) fun π p hp _ k ↦ ?_
  rw [hcore.child] at hp
  exact Or.inl ⟨hp, hcore p k⟩

/-- **The shape at the start.** -/
theorem shaped_start (P : Platform) (m : Memory) : Shaped P (smmInitPageTable P m).mem where
  first := by
    have hchild := child_start_pml4 P m 0
    rwa [if_pos rfl] at hchild
  masked k hk := by
    have hlink : links (smmInitPageTable P m).mem P.pdpt k = _ := startLinks_pdpt P m k
    rw [if_pos hk] at hlink
    refine ⟨by rw [hlink]; rfl, ?_⟩
    exact congrArg Link.frame hlink
  pdpt {i p k} hp hk := by
    have hpath := (follow_start_iff P m).1 hp
    cases hpath with
    | pdpt =>
      have hlink : links (smmInitPageTable P m).mem P.pdpt k = _ := startLinks_pdpt P m k
      rw [if_neg fun hk4 ↦ hk ⟨rfl, hk4⟩] at hlink
      refine ⟨congrArg Link.pmnt hlink, fun _ ↦ congrArg Link.pageSize hlink⟩
  pdt {i j p k} hp := by
    have hpath := (follow_start_iff P m).1 hp
    cases hpath with
    | pdt hj =>
      have hlink : links (smmInitPageTable P m).mem (P.pdpt + (j.val + 1)) k = _ :=
        startLinks_pdt P m hj k
      have hframe : ∀ d, (links (smmInitPageTable P m).mem (P.pdpt + (j.val + 1)) k).frame =
          P.pdpt + d → ((smmInitPageTable P m).mem (P.pdpt + (j.val + 1)) k).frame ∉ P.poolPages :=
        fun d hd ↦ by
          rw [links_apply] at hd
          rw [hd]
          exact pdpt_notMem_poolPages d
      split_ifs at hlink with hguard
      · refine ⟨congrArg Link.pmnt hlink, fun _ ↦
          hframe (5 + (512 * j.val + k.val - P.low2MBoundary)) ?_⟩
        rw [hlink]
        exact Nat.add_assoc _ _ _
      · refine ⟨congrArg Link.pmnt hlink, fun htable ↦ ?_⟩
        rw [hlink] at htable
        exact absurd htable (by simp [Link.isTable])

/-! ### What ReclaimPages clears -/

/-- `m` is `m₀` but for records, and for entries that led to a table that is not masked and are
cleared. -/
def Released (m₀ m : Memory) : Prop :=
  ∀ q k, (m q k).core = (m₀ q k).core ∨ (m q k).core = .zero ∧ (links m₀ q k).isOpen

theorem SameCore.released (h : SameCore m₀ m) : Released m₀ m := fun q k ↦ Or.inl (h q k)

theorem Released.count (h : Released m₀ m) (hcore : SameCore m m') : Released m₀ m' := by
  intro q k
  rw [hcore q k]
  exact h q k

theorem Released.clear (h : Released m₀ m) (hopen : (links m₀ q k).isOpen) :
    Released m₀ (setSlot m q k .zero) := by
  intro q' k'
  by_cases hslot : q' = q ∧ k' = k
  · rw [hslot.1, hslot.2, setSlot_self]
    exact Or.inr ⟨rfl, hopen⟩
  · rw [setSlot_of_ne hslot]
    exact h q' k'

section Pooled

variable (h : Shaped P m) (hp : Pooled P.pml4 P.poolPages all (links m) spare)
include h hp

/-- A page directory that may be freed leads to no table. -/
theorem Shaped.isTable_pdt (hpath : follow (openChild (links m)) 3 P.pml4 [i, j] = some p) :
    (links m p k).pmnt = false ∧ (links m p k).isTable = false := by
  have hpdt := h.pdt (k := k) (Pooled.follow_of_open hpath)
  refine ⟨hpdt.1, ?_⟩
  by_contra htable
  have htable' : (links m p k).isTable := by simpa using htable
  have hopen : (links m p k).isOpen := by
    rcases Link.isOpen_or_isMasked htable' with ho | hm
    · exact ho
    · rw [Link.isMasked, Bool.and_eq_true] at hm
      exact absurd (hpdt.1.symm.trans hm.2) (by simp)
  rcases hp.origin hpath (by simp) hopen with hF | ⟨hnil, -⟩
  · exact hpdt.2 htable' hF
  · exact absurd hnil (by simp)

theorem Shaped.ignored_pdt (hpath : follow (openChild (links m)) 3 P.pml4 [i, j] = some p) :
    ignored (links m) p = false := by
  rw [ignored, List.any_eq_false]
  intro k _
  obtain ⟨hpmnt, htable⟩ := h.isTable_pdt hp hpath (k := k)
  rw [Link.isOpen, hpmnt, htable]
  simp

/-- What `ReclaimPages` compares are entries of the upper two levels. -/
theorem Shaped.pdtIndex_eq_none (hat : l.At (links m) P.pml4) : l.pdtIndex = none := by
  cases hat with
  | pml4 => rfl
  | pdpt => rfl
  | @pdt i j k hi hj hk =>
    have hpath : follow (openChild (links m)) 3 P.pml4 [i, j] =
        some (links m (links m P.pml4 i).frame j).frame := by
      rw [follow, openChild_eq_some.2 ⟨hi, rfl⟩, Option.bind_some, follow,
        openChild_eq_some.2 ⟨hj, rfl⟩, Option.bind_some, follow_nil]
    have htable := Link.isTable_of_isOpen hk
    rw [(h.isTable_pdt hp hpath).2] at htable
    exact absurd htable (by simp)

end Pooled

/-! ### A victim always exists -/

theorem mem_leafEntries_pml4 {L : Links} {pml4 : ℕ} (hi : openChild L pml4 i = some p)
    (hleaf : ignored L p = false) (hne : reserved ≠ p) :
    (⟨i, none, none, pml4, i⟩ : LeafEntry) ∈ leafEntries L reserved pml4 := by
  obtain ⟨hopen, rfl⟩ := openChild_eq_some.1 hi
  exact List.mem_flatMap.2 ⟨i, mem_openEntries.2 hopen, mem_leavesAt.2 (Or.inr ⟨hleaf, hne, rfl⟩)⟩

theorem mem_leafEntries_pdpt {L : Links} {pml4 : ℕ} (hi : openChild L pml4 i = some p)
    (hj : openChild L p j = some q) (hleaf : ignored L q = false) (hne : reserved ≠ q) :
    (⟨i, some j, none, p, j⟩ : LeafEntry) ∈ leafEntries L reserved pml4 := by
  obtain ⟨hopen, rfl⟩ := openChild_eq_some.1 hi
  obtain ⟨hopen', rfl⟩ := openChild_eq_some.1 hj
  refine List.mem_flatMap.2 ⟨i, mem_openEntries.2 hopen, mem_leavesAt.2 (Or.inl ?_)⟩
  exact List.mem_flatMap.2 ⟨j, mem_openEntries.2 hopen', mem_leavesAt.2 (Or.inr ⟨hleaf, hne, rfl⟩)⟩

/-- `ReservedPage` is a table that the PML4 table leads to, or it is not set. -/
def ReservedUpper (P : Platform) (m : Memory) (reserved : ℕ) : Prop :=
  reserved = 0 ∨ ∃ i, child (links m) P.pml4 i = some reserved

theorem follow_singleton {c : ℕ → Fin 512 → Option ℕ} {d root : ℕ} :
    follow c (d + 1) root [i] = c root i := by
  rw [follow]
  cases c root i with
  | none => rfl
  | some q => exact follow_nil

theorem follow_pair {c : ℕ → Fin 512 → Option ℕ} {d root : ℕ} (hi : c root i = some p) :
    follow c (d + 2) root [i, j] = c p j := by
  rw [follow, hi, Option.bind_some, follow_singleton]

/-- **Where the pages of the pool are.** They are not reached through a masked entry. -/
theorem Shaped.path_of_pool (h : Shaped P m)
    (hp : Pooled P.pml4 P.poolPages all (links m) spare) (hF : q ∈ P.poolPages)
    (hπ : follow (child (links m)) 3 P.pml4 π = some q) :
    (∃ i, openChild (links m) P.pml4 i = some q) ∨
      ∃ i j p, openChild (links m) P.pml4 i = some p ∧ openChild (links m) p j = some q := by
  have hroot : ∀ {i p}, child (links m) P.pml4 i = some p → openChild (links m) P.pml4 i = some p := by
    intro i p hi
    obtain ⟨htable, hframe⟩ := child_eq_some.1 hi
    rw [Link.isTable, Bool.and_eq_true] at htable
    exact openChild_eq_some.2 ⟨hp.root_open i htable.1, hframe⟩
  cases π with
  | nil =>
    obtain rfl := Option.some.inj (follow_nil.symm.trans hπ)
    rw [mem_poolPages] at hF
    omega
  | cons i π =>
    obtain ⟨p, hi, hπ₁⟩ := Option.bind_eq_some_iff.1 hπ
    cases π with
    | nil =>
      obtain rfl := Option.some.inj (follow_nil.symm.trans hπ₁)
      exact Or.inl ⟨i, hroot hi⟩
    | cons j π =>
      obtain ⟨r, hj, hπ₂⟩ := Option.bind_eq_some_iff.1 hπ₁
      cases π with
      | nil =>
        obtain rfl := Option.some.inj (follow_nil.symm.trans hπ₂)
        obtain ⟨htable, rfl⟩ := child_eq_some.1 hj
        refine Or.inr ⟨i, j, p, hroot hi, openChild_eq_some.2 ⟨?_, rfl⟩⟩
        rcases Link.isOpen_or_isMasked htable with ho | hm
        · exact ho
        · -- only the entries of the first 4 GB are masked, and their tables are not from the pool
          rw [Link.isMasked, Bool.and_eq_true] at hm
          by_cases hfirst : p = P.pdpt ∧ j.val < 4
          · rw [hfirst.1, links_apply, (h.masked j hfirst.2).2] at hF
            exact absurd hF (pdpt_notMem_poolPages _)
          · have hpmnt := (h.pdpt (follow_singleton.trans hi) hfirst).1
            exact absurd (hpmnt.symm.trans hm.2) (by simp)
      | cons k π =>
        obtain ⟨s, hk, hπ₃⟩ := Option.bind_eq_some_iff.1 hπ₂
        cases π with
        | nil =>
          obtain rfl := Option.some.inj (follow_nil.symm.trans hπ₃)
          obtain ⟨htable, rfl⟩ := child_eq_some.1 hk
          exact absurd hF ((h.pdt ((follow_pair hi).trans hj)).2 htable)
        | cons l π => exact absurd hπ₃ (by simp [follow])

/-- The pages in use, tables and spare ones: those of the pool are among them, and page 0 is not. -/
structure InUse (P : Platform) (all : Set ℕ) : Prop where
  pool : ∀ q ∈ P.poolPages, q ∈ all
  zero : 0 ∉ all

theorem inUse_pages (P : Platform) : InUse P P.pages where
  pool q hq := by
    rw [mem_poolPages] at hq
    rw [mem_pages]
    omega
  zero h := by
    rw [mem_pages] at h
    exact absurd (Nat.le_zero.1 h.1) P.pml4_ne_zero

/-- **There is a table to free** when the pool is empty. -/
theorem Shaped.exists_leafEntry (h : Shaped P m)
    (hp : Pooled P.pml4 P.poolPages all (links m) []) (hall : InUse P all)
    (hres : ReservedUpper P m reserved) :
    ∃ l, l ∈ leafEntries (links m) reserved P.pml4 := by
  -- a page directory is never the reserved page
  have hpdt : ∀ {i j p r}, openChild (links m) P.pml4 i = some p → openChild (links m) p j = some r →
      ∃ l, l ∈ leafEntries (links m) reserved P.pml4 := by
    intro i j p r hi hj
    have hpath : follow (openChild (links m)) 3 P.pml4 [i, j] = some r := (follow_pair hi).trans hj
    refine ⟨_, mem_leafEntries_pdpt hi hj (h.ignored_pdt hp hpath) ?_⟩
    rintro rfl
    rcases hres with h0 | ⟨i', hi'⟩
    · obtain ⟨hopen, hframe⟩ := openChild_eq_some.1 hj
      rcases hp.origin (follow_singleton.trans hi) (by simp) hopen with hF | ⟨hnil, -⟩
      · rw [hframe, h0, mem_poolPages] at hF
        omega
      · exact absurd hnil (by simp)
    · have hpaths := hp.conserved.unique (Pooled.follow_of_open hpath) (follow_singleton.trans hi')
      exact absurd hpaths (by simp)
  obtain ⟨q, hF, hne⟩ : ∃ q ∈ P.poolPages, reserved ≠ q := by
    by_cases hfirst : reserved = P.pml4 + 1
    · exact ⟨P.pml4 + 2, mem_poolPages.2 (by omega), by omega⟩
    · exact ⟨P.pml4 + 1, mem_poolPages.2 (by omega), hfirst⟩
  obtain ⟨π, hπ⟩ := ((hp.conserved.mem_iff q).1 (hall.pool q hF)).resolve_left (by simp)
  rcases h.path_of_pool hp hF hπ with ⟨i, hi⟩ | ⟨i, j, p, hi, hj⟩
  · by_cases hlower : ∃ j, (links m q j).isOpen
    · obtain ⟨j, hj⟩ := hlower
      exact hpdt hi (openChild_eq_some.2 ⟨hj, rfl⟩)
    · refine ⟨_, mem_leafEntries_pml4 hi ?_ hne⟩
      rw [ignored, List.any_eq_false]
      intro k _
      have hpmnt := (h.pdpt (k := k) (follow_singleton.trans (child_of_openChild hi)) ?_).1
      · have hopen : (links m q k).isOpen = false := by simpa using fun ho ↦ hlower ⟨k, ho⟩
        rw [hopen, links_apply, hpmnt]
        simp
      · rintro ⟨rfl, -⟩
        exact pdpt_notMem_poolPages 0 hF
  · exact hpdt hi hj

theorem exists_leastAccessed {pml4 : ℕ}
    (hl : ∃ l, l ∈ leafEntries (links m) reserved pml4) :
    ∃ l, leastAccessed m reserved pml4 = some l := by
  obtain ⟨l, hl⟩ := hl
  rw [← Option.isSome_iff_exists, leastAccessed, Option.isSome_iff_ne_none, Ne, List.argmin_eq_none]
  exact List.ne_nil_of_mem hl

/-! ### What AllocPage leaves -/

/-- `AllocPage` has returned page `n`: besides records, it has only cleared this page and entries that
led to tables that are not masked. -/
def Cleared (n : ℕ) (m m' : Memory) : Prop :=
  ∀ q k, (m' q k).core = (m q k).core ∨ (m' q k).core = .zero ∧ (q = n ∨ (links m q k).isOpen)

theorem checkUpperEntries_of_none {pml4 : ℕ} (hl : l.pdtIndex = none) :
    checkUpperEntries pml4 l t =
      if l.pdptIndex.isSome then checkPml4Entry pml4 l.pml4Index t else t := by
  rw [checkUpperEntries, hl]
  cases l.pdptIndex with
  | none => rfl
  | some j => rfl

theorem Shaped.released_reclaimPages (h : Shaped P t.mem)
    (hp : Pooled P.pml4 P.poolPages all (links t.mem) spare)
    (ht : reclaimPages P.pml4 t = some t') : Released t.mem t'.mem := by
  obtain ⟨hmin, -⟩ := scanPml4_spec t.reservedPage hp.conserved hp.root_open
  have hcore : SameCore t.mem (scanPml4 t.reservedPage P.pml4 t.mem).mem := by
    rw [scanPml4_eq hp.root_open rfl]
    exact sameCore_foldl_record _ _
  rw [reclaimPages, hmin] at ht
  cases hl : leastAccessed t.mem t.reservedPage P.pml4 with
  | none =>
    rw [hl] at ht
    exact absurd ht (by simp)
  | some l =>
    rw [hl, Option.map_some, Option.map_some, Option.some.injEq] at ht
    have hat : l.At (links t.mem) P.pml4 := .of_mem (List.argmin_mem hl)
    obtain ⟨-, -, -, hopen, -, -⟩ := hat.exists_path
    have hupper : (links t.mem P.pml4 l.pml4Index).isOpen := by
      cases hat with
      | pml4 hi => exact hi
      | pdpt hi => exact hi
      | pdt hi => exact hi
    have hcheck : ∀ t₁ : Tables, Released t.mem t₁.mem →
        Released t.mem (checkPml4Entry P.pml4 l.pml4Index t₁).mem := by
      intro t₁ h₁
      unfold checkPml4Entry
      dsimp only
      split_ifs
      · change Released t.mem (setSlot t₁.mem P.pml4 l.pml4Index .zero)
        exact h₁.clear hupper
      · change Released t.mem (setSlot t₁.mem P.pml4 l.pml4Index (setSubEntriesNum _ _))
        exact h₁.count (sameCore_setSlot (core_setSubEntriesNum _ _))
    obtain ⟨m, hm⟩ : ∃ m, (scanPml4 t.reservedPage P.pml4 t.mem).mem = m := ⟨_, rfl⟩
    rw [hm] at hcore ht
    have hleaf : Released t.mem (releasePage l { t with mem := m }).mem :=
      hcore.released.clear hopen
    rw [checkUpperEntries_of_none (h.pdtIndex_eq_none hp hat)] at ht
    subst ht
    split_ifs
    · exact hcheck _ hleaf
    · exact hleaf

theorem Shaped.cleared_allocPage (h : Shaped P t.mem)
    (hp : Pooled P.pml4 P.poolPages all (links t.mem) spare)
    (ht : allocPage P.pml4 t = some (n, t')) : Cleared n t.mem t'.mem := by
  obtain ⟨t₁, ht₁, ht⟩ := Option.bind_eq_some_iff.1 ht
  have hrel : Released t.mem t₁.mem := by
    by_cases hempty : t.pagePool = []
    · rw [if_pos hempty] at ht₁
      exact h.released_reclaimPages hp ht₁
    · rw [if_neg hempty] at ht₁
      obtain rfl := Option.some.inj ht₁
      exact fun _ _ ↦ Or.inl rfl
  cases hpool : t₁.pagePool with
  | nil =>
    rw [hpool] at ht
    exact absurd ht (by simp)
  | cons n₁ pool =>
    rw [hpool] at ht
    obtain ⟨rfl, rfl⟩ : n₁ = n ∧ _ = t' := by simpa using ht
    intro q k
    by_cases hq : q = n₁
    · refine Or.inr ⟨?_, Or.inl hq⟩
      change (zeroMem t₁.mem n₁ q k).core = .zero
      rw [zeroMem, if_pos hq]
      rfl
    · have hsame : zeroMem t₁.mem n₁ q k = t₁.mem q k := if_neg hq
      change (zeroMem t₁.mem n₁ q k).core = (t.mem q k).core ∨
        (zeroMem t₁.mem n₁ q k).core = .zero ∧ _
      rw [hsame]
      exact (hrel q k).imp_right fun hk ↦ ⟨hk.1, Or.inr hk.2⟩

theorem Cleared.child (h : Cleared n m m') (hq : child (links m') p k = some q) :
    child (links m) p k = some q := by
  rcases h p k with hcore | ⟨hzero, -⟩
  · rwa [← child_of_core hcore]
  · have htable := (child_eq_some.1 hq).1
    rw [links_apply, Entry.eq_of_core (e := .zero) hzero (fun e ↦ e.toLink.isTable) fun _ ↦ rfl]
      at htable
    exact absurd htable (by decide)

/-- An entry that leads to no table, in a page other than `n`, is as it was. -/
theorem Cleared.core_eq (h : Cleared n m m') (hq : q ≠ n) (hk : (links m q k).isOpen = false) :
    (m' q k).core = (m q k).core := by
  rcases h q k with hcore | ⟨-, hn | hopen⟩
  · exact hcore
  · exact absurd hn hq
  · rw [hk] at hopen
    exact absurd hopen (by simp)

/-- **`AllocPage` keeps the shape**, if it does not free the table of the first 4 GB. -/
theorem Shaped.cleared (h : Shaped P m) (hclear : Cleared n m m') (hn : n ∈ P.poolPages)
    (hfirst : child (links m') P.pml4 0 = some P.pdpt) : Shaped P m' := by
  refine h.step hfirst (fun k hk ↦ hclear.core_eq ?_ ?_) fun π p hp _ k ↦ ?_
  · rintro rfl
    exact pdpt_notMem_poolPages 0 hn
  · have hmasked := (h.masked k hk).1
    rw [Link.isMasked, Bool.and_eq_true] at hmasked
    rw [Link.isOpen, hmasked.2]
    simp
  · rcases hclear p k with hcore | ⟨hzero, -⟩
    · exact Or.inl ⟨follow_mono (fun _ _ _ ↦ hclear.child) hp, hcore⟩
    · refine Or.inr ⟨?_, fun _ hpresent ↦ ?_, fun _ ↦ ?_⟩
      · exact Entry.eq_of_core (e := .zero) hzero (fun e ↦ e.pmnt) fun _ ↦ rfl
      · rw [Entry.eq_of_core (e := .zero) hzero (fun e ↦ e.present) fun _ ↦ rfl] at hpresent
        exact absurd hpresent (by decide)
      · exact Entry.eq_of_core (e := .zero) hzero (fun e ↦ e.toLink.isTable) fun _ ↦ rfl

/-! ### The table of the first 4 GB stays -/

/-- The table of the first 4 GB counts its masked entries, so its count is not down to 1 while it has
a page directory from the pool. -/
theorem Shaped.two_le_subEntries (h : Shaped P m)
    (hp : Pooled P.pml4 P.poolPages all (links m) spare) (hj : (links m P.pdpt j).isOpen) :
    2 ≤ (links m P.pml4 0).subEntries.toNat := by
  obtain ⟨htable, hframe⟩ := child_eq_some.1 h.first
  have hopen : (links m P.pml4 0).isOpen := by
    rw [Link.isTable, Bool.and_eq_true] at htable
    exact hp.root_open 0 htable.1
  have hcount := hp.counted follow_nil (by simp) hopen
  have hsome : ∃ k, (links m P.pdpt k).isMasked := ⟨0, (h.masked 0 (by decide)).1⟩
  have hpos : 0 < (Finset.univ.filter fun k ↦ (links m P.pdpt k).isOpen).card :=
    Finset.card_pos.2 ⟨j, Finset.mem_filter.2 ⟨Finset.mem_univ j, hj⟩⟩
  rw [hframe, load, if_pos hsome] at hcount
  omega

/-- **`ReclaimPages` spares the table of the first 4 GB.** -/
theorem Shaped.spares_first (h : Shaped P t.mem)
    (hp : Pooled P.pml4 P.poolPages all (links t.mem) spare)
    (hl : leastAccessed t.mem t.reservedPage P.pml4 = some l) :
    Spares P.pml4 t P.pdpt (some (P.pml4, 0)) := by
  have hat : l.At (links t.mem) P.pml4 := .of_mem (List.argmin_mem hl)
  obtain ⟨π, hlt, hπ, hopen, -, -⟩ := hat.exists_path
  have hpath : follow (child (links t.mem)) 3 P.pml4 (π ++ [l.index]) =
      some (links t.mem l.page l.index).frame :=
    follow_concat.2 ⟨hlt, _, Pooled.follow_of_open hπ,
      child_eq_some.2 ⟨Link.isTable_of_isOpen hopen, rfl⟩⟩
  refine ⟨l, hl, fun hframe ↦ ?_, fun hpage _ i hi ↦ ?_⟩
  · have hsame := hp.conserved.unique (hpath.trans (congrArg some hframe)) h.follow_first
    cases hat with
    | pml4 hi hleaf =>
      have hframe' : (links t.mem P.pml4 _).frame = P.pdpt := hframe
      have hmasked := (h.masked 0 (by decide)).1
      rw [hframe', ignored, List.any_eq_false] at hleaf
      rw [Link.isMasked, Bool.and_eq_true] at hmasked
      exact hleaf 0 (List.mem_finRange 0) (by rw [hmasked.2]; simp)
    | pdpt hi hj hleaf =>
      obtain ⟨rfl, -⟩ := List.append_inj' (hsame.trans (List.nil_append [0]).symm) rfl
      have hroot := Option.some.inj (follow_nil.symm.trans hπ)
      have hlower := (follow_singleton (d := 2)).trans
        (child_eq_some.2 ⟨Link.isTable_of_isOpen hi, rfl⟩)
      have hnil := hp.conserved.unique (follow_nil.trans (congrArg some hroot)) hlower
      exact absurd hnil (by simp)
    | pdt hi hj hk => exact absurd (h.pdtIndex_eq_none hp (.pdt hi hj hk)) (by simp)
  · obtain rfl : i = 0 := by simpa using hi.symm
    rw [hpage] at hopen
    have htwo := h.two_le_subEntries hp hopen
    intro hone
    rw [links_apply, hone] at htwo
    exact absurd htwo (by decide)

/-! ### The assertions of ReclaimPages -/

/-- `ASSERT (SubEntriesNum != 0)`, when the PML4 entry above is checked. -/
def checkPml4EntryAssert (pml4 : ℕ) (i : Fin 512) (t : Tables) : Prop :=
  getSubEntriesNum (t.mem pml4 i) ≠ 0

/-- A page table of 4 KB pages was released. The PML4 entry is checked when the page directory goes
with it. -/
def checkPdptEntryAssert (pml4 : ℕ) (i j : Fin 512) (t : Tables) : Prop :=
  getSubEntriesNum (t.mem (t.mem pml4 i).frame j) = 0 →
    checkPml4EntryAssert pml4 i { t with mem := setSlot t.mem (t.mem pml4 i).frame j .zero }

def checkUpperEntriesAssert (pml4 : ℕ) (l : LeafEntry) (t : Tables) : Prop :=
  match l.pdptIndex, l.pdtIndex with
  | some j, some _ => checkPdptEntryAssert pml4 l.pml4Index j t
  | some _, none => checkPml4EntryAssert pml4 l.pml4Index t
  | none, _ => True

/-- `ReclaimPages` passes `ASSERT (MinAcc != (UINT64)-1)`, and `ASSERT (SubEntriesNum != 0)` where it
comes to it. -/
def ReclaimAsserts (pml4 : ℕ) (t : Tables) : Prop :=
  ∃ r, (scanPml4 t.reservedPage pml4 t.mem).min = some r ∧
    checkUpperEntriesAssert pml4 r.2
      (releasePage r.2 { t with mem := (scanPml4 t.reservedPage pml4 t.mem).mem })

/-- **The assertions hold** when the pool is empty. -/
theorem Shaped.reclaimAsserts (h : Shaped P t.mem)
    (hp : Pooled P.pml4 P.poolPages all (links t.mem) []) (hall : InUse P all)
    (hres : ReservedUpper P t.mem t.reservedPage) : ReclaimAsserts P.pml4 t := by
  obtain ⟨l, hl⟩ := exists_leastAccessed (h.exists_leafEntry hp hall hres)
  have hat : l.At (links t.mem) P.pml4 := .of_mem (List.argmin_mem hl)
  obtain ⟨hmin, hlinks⟩ := scanPml4_spec t.reservedPage hp.conserved hp.root_open
  rw [hl, Option.map_some] at hmin
  obtain ⟨m, hm⟩ : ∃ m, (scanPml4 t.reservedPage P.pml4 t.mem).mem = m := ⟨_, rfl⟩
  refine ⟨_, hmin, ?_⟩
  rw [hm] at hlinks ⊢
  cases hat with
  | pml4 hi hleaf => exact trivial
  | pdt hi hj hk => exact absurd (h.pdtIndex_eq_none hp (.pdt hi hj hk)) (by simp)
  | @pdpt i j hi hj hleaf =>
    have hroot : P.pml4 ≠ (links t.mem P.pml4 i).frame := by
      intro hroot
      have hlower := (follow_singleton (d := 2)).trans
        (child_eq_some.2 ⟨Link.isTable_of_isOpen hi, hroot.symm⟩)
      exact absurd (hp.conserved.unique follow_nil hlower) (by simp)
    have hcount := hp.counted follow_nil (by simp) hi
    have hpos := load_pos hj
    have hsame : setSlot m (links t.mem P.pml4 i).frame j .zero P.pml4 i = m P.pml4 i :=
      setSlot_of_ne fun hslot ↦ hroot hslot.1
    have hentry : (m P.pml4 i).toLink = links t.mem P.pml4 i := by rw [← hlinks, links_apply]
    change (setSlot m (links t.mem P.pml4 i).frame j .zero P.pml4 i).subEntries.toNat ≠ 0
    rw [hsame, hentry]
    omega

/-! ### What the handler writes -/

/-- **Storing a table keeps the shape**: the new table is empty. -/
theorem Shaped.store {upper : Option (ℕ × Fin 512)} {walked : List ℕ} (h : Shaped P t.mem)
    (hready : Ready P.pml4 P.poolPages all π p upper walked k n t) (hlt : π.length < 2)
    (he : e.toLink = ⟨true, false, false, n, 0⟩) :
    Shaped P (countSubEntry (setSlot t.mem p k e) upper) := by
  refine Shaped.of_sameCore ?_ (sameCore_countSubEntry _ upper)
  have hcons := hready.pooled.conserved
  have hempty : child (links t.mem) p k = none :=
    child_eq_none.2 (by rw [links_apply, Link.isTable, hready.absent, Bool.false_and])
  have hzero : ∀ j, child (links t.mem) n j = none := fun j ↦
    child_eq_none.2 (by rw [links_apply, hready.zero j]; rfl)
  have hchild : child (links (setSlot t.mem p k e)) = setSlot (child (links t.mem)) p k (some n) := by
    rw [links_setSlot, child_setSlot, he]
    rfl
  refine h.step ?_ (fun j hj ↦ ?_) fun π' q hq _ j ↦ ?_
  · rw [hchild, setSlot_of_ne, h.first]
    rintro ⟨rfl, rfl⟩
    rw [h.first] at hempty
    exact absurd hempty (by simp)
  · rw [setSlot_of_ne]
    rintro ⟨rfl, rfl⟩
    have htable := Link.isTable_of_isMasked (h.masked j hj).1
    rw [child_eq_none] at hempty
    rw [hempty] at htable
    exact absurd htable (by simp)
  · rw [hchild, hcons.follow_link_iff hready.held.path (by omega) hempty hzero] at hq
    rcases hq with hold | ⟨rfl, rfl⟩
    · by_cases hslot : q = p ∧ j = k
      · have hsame := hcons.unique hold (hslot.1 ▸ hready.held.path)
        rw [hslot.1, hslot.2, setSlot_self]
        refine Or.inr ⟨congrArg Link.pmnt he, fun _ _ ↦ congrArg Link.pageSize he, fun hlen ↦ ?_⟩
        rw [hsame] at hlen
        omega
      · rw [setSlot_of_ne hslot]
        exact Or.inl ⟨hold, rfl⟩
    · have hqp : ¬ (q = p ∧ j = k) := fun hslot ↦
        hcons.notMem hready.held.path (hslot.1 ▸ List.mem_cons_self)
      rw [setSlot_of_ne hqp, hready.zero j]
      exact Or.inr ⟨rfl, fun _ hpresent ↦ absurd hpresent (by decide), fun _ ↦ rfl⟩

/-- **Filling an entry of a page directory keeps the shape.** -/
theorem Shaped.fill (h : Shaped P m) (hcons : Conserved (child (links m)) 3 P.pml4 spare all)
    (hpath : follow (child (links m)) 3 P.pml4 π = some p) (hlen : π.length = 2)
    (htable : e.toLink.isTable = false) (hpmnt : e.pmnt = false) : Shaped P (setSlot m p k e) := by
  have hchild : ∀ q j r, child (links (setSlot m p k e)) q j = some r →
      child (links m) q j = some r := by
    intro q j r hr
    rw [links_setSlot, child_setSlot, if_neg (by simp [htable])] at hr
    by_cases hslot : q = p ∧ j = k
    · rw [hslot.1, hslot.2, setSlot_self] at hr
      exact absurd hr (by simp)
    · rwa [setSlot_of_ne hslot] at hr
  refine h.step ?_ (fun j _ ↦ ?_) fun π' q hq _ j ↦ ?_
  · rw [links_setSlot, child_setSlot, setSlot_of_ne, h.first]
    rintro ⟨rfl, -⟩
    simp [hcons.unique hpath follow_nil] at hlen
  · rw [setSlot_of_ne]
    rintro ⟨rfl, -⟩
    simp [hcons.unique hpath h.follow_first] at hlen
  · have hold := follow_mono hchild hq
    by_cases hslot : q = p ∧ j = k
    · have hsame := hcons.unique hold (hslot.1 ▸ hpath)
      rw [hslot.1, hslot.2, setSlot_self, hsame]
      exact Or.inr ⟨hpmnt, fun hone ↦ absurd (hone.symm.trans hlen) (by simp), fun _ ↦ htable⟩
    · rw [setSlot_of_ne hslot]
      exact Or.inl ⟨hold, rfl⟩

/-- The paths to page directories are as they were. -/
theorem follow_pair_setSlot {c : ℕ → Fin 512 → Option ℕ} {x : Option ℕ} {root : ℕ}
    (hcons : Conserved c 3 root spare all) (hpath : follow c 3 root π = some p)
    (hlen : π.length = 2) (h : follow c 3 root [i, j] = some q) :
    follow (setSlot c p k x) 3 root [i, j] = some q := by
  obtain ⟨r, hr, hq⟩ := Option.bind_eq_some_iff.1 h
  rw [follow_singleton] at hq
  have hroot : root ≠ p := by
    rintro rfl
    simp [hcons.unique hpath follow_nil] at hlen
  have hrp : r ≠ p := by
    rintro rfl
    simp [hcons.unique hpath (follow_singleton.trans hr)] at hlen
  rw [follow_pair (p := r), setSlot_of_ne fun hs ↦ hrp hs.1, hq]
  rw [setSlot_of_ne fun hs ↦ hroot hs.1, hr]

/-- **After an entry of a page directory is filled** the tables are in order. A page table of 4 KB
pages that the entry led to is lost; it was none of the pool. -/
theorem Shaped.pooled_fill {upper : Option (ℕ × Fin 512)} (h : Shaped P m)
    (hp : Pooled P.pml4 P.poolPages all (links m) spare) (hall : InUse P all)
    (hpath : follow (child (links m)) 3 P.pml4 [i, j] = some p) (htable : e.toLink.isTable = false) :
    ∃ all' : Set ℕ, InUse P all' ∧
      Pooled P.pml4 P.poolPages all' (links (countSubEntry (setSlot m p k e) upper)) spare := by
  by_cases hold : (links m p k).isTable
  · have hmask : ∀ π, follow (openChild (links m)) 3 P.pml4 π ≠ some p := by
      intro π hπ
      have hsame := hp.conserved.unique (Pooled.follow_of_open hπ) hpath
      rw [hsame] at hπ
      rw [(h.isTable_pdt hp hπ).2] at hold
      exact absurd hold (by simp)
    refine ⟨all \ {(links m p k).frame}, ⟨fun q hq ↦ ⟨hall.pool q hq, ?_⟩,
      fun h0 ↦ hall.zero h0.1⟩, Pooled.countSubEntry ?_ upper⟩
    · rintro rfl
      exact (h.pdt hpath).2 hold hq
    · rw [links_setSlot]
      exact hp.orphan hpath rfl hmask hold htable
  · refine ⟨all, hall, Pooled.countSubEntry ?_ upper⟩
    rw [links_setSlot]
    refine hp.replace ?_ (by simpa using hold) htable
    rintro rfl
    exact absurd (hp.conserved.unique hpath follow_nil) (by simp)

end PurleyFirmware.PageTable
