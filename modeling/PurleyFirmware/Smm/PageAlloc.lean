import PurleyFirmware.Smm.PageReclaim

/-!
# What AllocPage does to the page tables

`Tidy` says that tables and pool are in order while the handler stands in a table. `Tidy.release`
follows `ReclaimPages` from the leaf entry it has found to the entries above, and `Tidy.allocated`
is what the handler relies on: a cleared page that is not in use, and its own tables untouched. It
needs `Spares`, since `ReclaimPages` may otherwise take the very table that the handler stands in;
`allocPage_of_leastAccessed` says that it then does.
-/

namespace PurleyFirmware.PageTable

variable {pml4 p : ℕ} {F : Finset ℕ} {all : Set ℕ} {π : List (Fin 512)}
  {upper : Option (ℕ × Fin 512)} {walked : List ℕ} {t t' t'' : Tables} {i j : Fin 512}

/-- The page tables and the pool are in order while the handler stands in table `p`. -/
structure Tidy (pml4 : ℕ) (F : Finset ℕ) (all : Set ℕ) (π : List (Fin 512)) (p : ℕ)
    (upper : Option (ℕ × Fin 512)) (walked : List ℕ) (t : Tables) : Prop where
  pooled : Pooled pml4 F all (links t.mem) t.pagePool
  held : Held pml4 (links t.mem) π p upper walked

/-- What releasing tables leaves as it was: no entry becomes present, and `ReservedPage` stays. -/
structure Shrinks (t t' : Tables) : Prop where
  present : ∀ q k, (t'.mem q k).present → (t.mem q k).present
  reserved : t'.reservedPage = t.reservedPage
  pool : t.pagePool <+: t'.pagePool

theorem Shrinks.trans (h : Shrinks t t') (h' : Shrinks t' t'') : Shrinks t t'' where
  present q k hk := h.present q k (h'.present q k hk)
  reserved := h'.reserved.trans h.reserved
  pool := h.pool.trans h'.pool

/-- A page of the tree goes into the pool. -/
def freeTable (t : Tables) (q : ℕ) (k : Fin 512) : Tables :=
  { t with
    pagePool := t.pagePool ++ [(t.mem q k).frame]
    mem := setSlot t.mem q k .zero }

/-- The sub-entries number of an entry is set. -/
def recountEntry (t : Tables) (q : ℕ) (k : Fin 512) (n : ℕ) : Tables :=
  { t with mem := setSlot t.mem q k (setSubEntriesNum (t.mem q k) n) }

theorem shrinks_freeTable {q : ℕ} {k : Fin 512} : Shrinks t (freeTable t q k) where
  present q' k' hk := by
    change (setSlot t.mem q k .zero q' k').present = true at hk
    by_cases hslot : q' = q ∧ k' = k
    · rw [hslot.1, hslot.2, setSlot_self] at hk
      exact absurd hk (by simp [Entry.zero])
    · rwa [setSlot_of_ne hslot] at hk
  reserved := rfl
  pool := List.prefix_append _ _

theorem shrinks_releasePage (t : Tables) (l : LeafEntry) : Shrinks t (releasePage l t) :=
  shrinks_freeTable

theorem shrinks_recountEntry {q : ℕ} {k : Fin 512} {n : ℕ} : Shrinks t (recountEntry t q k n) where
  present q' k' hk := by
    change (setSlot t.mem q k (setSubEntriesNum (t.mem q k) n) q' k').present = true at hk
    by_cases hslot : q' = q ∧ k' = k
    · rw [hslot.1, hslot.2, setSlot_self] at hk
      rw [hslot.1, hslot.2]
      exact hk
    · rwa [setSlot_of_ne hslot] at hk
  reserved := rfl
  pool := List.prefix_rfl

/-- **Freeing a table** that is not masked, has no lower tables and is not the one the handler stands
in. -/
theorem Tidy.freed (h : Tidy pml4 F all π p upper walked t) {π₀ : List (Fin 512)} {q : ℕ}
    {k : Fin 512} (hq : follow (openChild (links t.mem)) 3 pml4 π₀ = some q) (hlt : π₀.length < 3)
    (hk : (links t.mem q k).isOpen)
    (hleaf : π₀.length + 1 < 3 → ∀ j, (links t.mem (links t.mem q k).frame j).isTable = false)
    (hp : p ≠ (links t.mem q k).frame) :
    Tidy pml4 F all π p upper walked (freeTable t q k) where
  pooled := by
    rw [freeTable, links_setSlot]
    exact h.pooled.unlink hq hlt hk rfl hleaf rfl
  held := by
    rw [freeTable, links_setSlot]
    exact h.held.unlink h.pooled.conserved (Pooled.follow_of_open hq) hlt
      (child_eq_some.2 ⟨Link.isTable_of_isOpen hk, rfl⟩)
      (fun hlt' j ↦ child_eq_none.2 (hleaf hlt' j)) hp rfl

theorem links_setSubEntriesNum (m : Memory) (q : ℕ) (k : Fin 512) {n : ℕ} (hn : n < 512) :
    links (setSlot m q k (setSubEntriesNum (m q k) n)) =
      setSlot (links m) q k { links m q k with subEntries := BitVec.ofNat 9 n } := by
  rw [links_setSlot, setSubEntriesNum, if_neg (by omega)]
  rfl

/-- **Counting anew**, with a number that still counts the lower tables. -/
theorem Tidy.recount (h : Tidy pml4 F all π p upper walked t) {q : ℕ} {k : Fin 512} {n : ℕ}
    (hn : n < 512) (hload : load (links t.mem) (links t.mem q k).frame ≤ n) :
    Tidy pml4 F all π p upper walked (recountEntry t q k n) where
  pooled := by
    have hval : (BitVec.ofNat 9 n).toNat = n := Nat.mod_eq_of_lt hn
    rw [recountEntry, links_setSubEntriesNum _ _ _ hn]
    exact h.pooled.recount fun _ _ _ _ ↦ hload.trans hval.ge
  held := by
    rw [recountEntry, links_setSubEntriesNum _ _ _ hn]
    exact h.held.of_follow fun π₁ π₂ t _ ht ↦ by rwa [child_recount]

theorem wrapSub_one {c : ℕ} (h0 : c ≠ 0) (h : c < 512) : wrapSub 64 c 1 = c - 1 :=
  wrapSub_of_le (by omega) (by omega)

/-- **The PML4 entry above a released table.** -/
theorem Tidy.checkPml4Entry (h : Tidy pml4 F all π p upper walked t)
    (hi : (links t.mem pml4 i).isOpen)
    (hload : load (links t.mem) (links t.mem pml4 i).frame < (links t.mem pml4 i).subEntries.toNat)
    (hp : p = (links t.mem pml4 i).frame → t.reservedPage ≠ p →
      (links t.mem pml4 i).subEntries ≠ 1#9) :
    Tidy pml4 F all π p upper walked (checkPml4Entry pml4 i t) ∧
      Shrinks t (PageTable.checkPml4Entry pml4 i t) := by
  set c := getSubEntriesNum (t.mem pml4 i) with hc
  have hc0 : c ≠ 0 := by
    have hpos : 0 < c := lt_of_le_of_lt (Nat.zero_le _) hload
    omega
  have hsub : wrapSub 64 c 1 = c - 1 := wrapSub_one hc0 (t.mem pml4 i).subEntries.isLt
  unfold PageTable.checkPml4Entry
  simp only [← hc, hsub]
  by_cases hfree : t.reservedPage ≠ (t.mem pml4 i).frame ∧ c - 1 = 0
  · rw [if_pos hfree]
    have hempty : load (links t.mem) (links t.mem pml4 i).frame = 0 := by
      have hlt : load (links t.mem) (links t.mem pml4 i).frame < c := hload
      omega
    refine ⟨h.freed follow_nil (by simp) hi (fun _ ↦ load_eq_zero hempty) fun hpf ↦ ?_,
      shrinks_freeTable⟩
    refine hp hpf (hpf ▸ hfree.1) ?_
    apply BitVec.eq_of_toNat_eq
    have hone : c = 1 := by omega
    exact hone
  · rw [if_neg hfree]
    have hlt : load (links t.mem) (links t.mem pml4 i).frame ≤ c - 1 := Nat.le_sub_one_of_lt hload
    exact ⟨h.recount (lt_of_le_of_lt (Nat.sub_le _ _) (t.mem pml4 i).subEntries.isLt) hlt,
      shrinks_recountEntry⟩

/-- Only links matter. -/
theorem Tidy.of_links (h : Tidy pml4 F all π p upper walked t) {m : Memory}
    (hm : links m = links t.mem) : Tidy pml4 F all π p upper walked { t with mem := m } where
  pooled := by
    rw [hm]
    exact h.pooled
  held := by
    rw [hm]
    exact h.held

theorem load_pos {L : Links} {q : ℕ} {k : Fin 512} (hk : (L q k).isOpen) : 0 < load L q := by
  rcases Nat.eq_zero_or_pos (load L q) with h0 | hpos
  · exact absurd (Link.isTable_of_isOpen hk) (by simp [load_eq_zero h0 k])
  · exact hpos

/-- The links of a table other than the one in which an entry was freed. -/
theorem links_freeTable_of_ne {q r : ℕ} {k l : Fin 512} (h : r ≠ q) :
    links (freeTable t q k).mem r l = links t.mem r l := by
  rw [freeTable, links_setSlot, setSlot_of_ne fun h' ↦ h h'.1]

theorem load_freeTable {q : ℕ} {k : Fin 512} (hk : (links t.mem q k).isOpen) :
    load (links t.mem) q = load (links (freeTable t q k).mem) q + 1 := by
  refine load_of_opened (k := k) (fun j hj ↦ ?_) ?_ hk
  · rw [freeTable, links_setSlot, setSlot_of_ne fun h ↦ hj h.2]
  · rw [freeTable, links_setSlot, setSlot_self]
    rfl

/-- **The PDPT entry above a released page table.** It counts another sub-entry or more, so it
stays. -/
theorem Tidy.checkPdptEntry (h : Tidy pml4 F all π p upper walked t) {q : ℕ}
    (hq : (links t.mem pml4 i).frame = q)
    (hload : load (links t.mem) (links t.mem q j).frame < (links t.mem q j).subEntries.toNat) :
    Tidy pml4 F all π p upper walked (checkPdptEntry pml4 i j t) ∧
      Shrinks t (PageTable.checkPdptEntry pml4 i j t) := by
  set c := getSubEntriesNum (t.mem q j) with hc
  have hc0 : c ≠ 0 := by
    have hpos : 0 < c := lt_of_le_of_lt (Nat.zero_le _) hload
    omega
  have hq' : (t.mem pml4 i).frame = q := hq
  unfold PageTable.checkPdptEntry
  simp only [hq', ← hc]
  rw [if_neg hc0]
  exact ⟨h.recount (lt_of_le_of_lt (Nat.sub_le _ _) (t.mem q j).subEntries.isLt)
    (Nat.le_sub_one_of_lt hload), shrinks_recountEntry⟩

/-- **Releasing a leaf entry** other than the one the handler came through, and what is left empty
above it. -/
theorem Tidy.release (h : Tidy pml4 F all π p upper walked t) {l : LeafEntry}
    (hat : l.At (links t.mem) pml4) (hp : p ≠ (links t.mem l.page l.index).frame)
    (hup : l.page = p → t.reservedPage ≠ p → ∀ i, π = [i] → (links t.mem pml4 i).subEntries ≠ 1#9) :
    Tidy pml4 F all π p upper walked (checkUpperEntries pml4 l (releasePage l t)) ∧
      Shrinks (releasePage l t) (checkUpperEntries pml4 l (releasePage l t)) := by
  have hdown : ∀ {π p k}, π.length < 3 → follow (openChild (links t.mem)) 3 pml4 π = some p →
      (links t.mem p k).isOpen →
        follow (openChild (links t.mem)) 3 pml4 (π ++ [k]) = some (links t.mem p k).frame :=
    fun hlt hπ hk ↦ follow_concat.2 ⟨hlt, _, hπ, openChild_eq_some.2 ⟨hk, rfl⟩⟩
  have hne : ∀ {π π' a b}, follow (openChild (links t.mem)) 3 pml4 π = some a →
      follow (openChild (links t.mem)) 3 pml4 π' = some b → π ≠ π' → a ≠ b :=
    fun hπ hπ' hππ' hab ↦ hππ' (h.pooled.conserved.unique (Pooled.follow_of_open hπ)
      (hab ▸ Pooled.follow_of_open hπ'))
  cases hat with
  | @pml4 i hi hleaf =>
    exact ⟨h.freed follow_nil (by simp) hi (fun _ ↦ isTable_of_not_ignored hleaf) hp,
      ⟨fun _ _ hk ↦ hk, rfl, List.prefix_rfl⟩⟩
  | @pdpt i j hi hj hleaf =>
    have hq := hdown (by simp) follow_nil hi
    have hroot : pml4 ≠ (links t.mem pml4 i).frame := hne follow_nil hq (by simp)
    have hfree := h.freed hq (by simp) hj (fun _ ↦ isTable_of_not_ignored hleaf) hp
    have hsame : links (freeTable t (links t.mem pml4 i).frame j).mem pml4 i = links t.mem pml4 i :=
      links_freeTable_of_ne hroot
    have hcount := h.pooled.counted follow_nil (by simp) hi
    rw [load_freeTable hj] at hcount
    have hopen : (links (freeTable t (links t.mem pml4 i).frame j).mem pml4 i).isOpen :=
      (congrArg Link.isOpen hsame).trans hi
    refine hfree.checkPml4Entry hopen ?_ ?_
    · rw [hsame]
      exact hcount
    · rw [hsame]
      intro hpq hres
      refine hup hpq.symm hres i ?_
      exact h.pooled.conserved.unique h.held.path (hpq ▸ Pooled.follow_of_open hq)
  | @pdt i j k hi hj hk =>
    have hq := hdown (by simp) follow_nil hi
    have hd := hdown (by simp) hq hj
    have hroot : pml4 ≠ (links t.mem (links t.mem pml4 i).frame j).frame :=
      hne follow_nil hd (by simp)
    have hmid : (links t.mem pml4 i).frame ≠ (links t.mem (links t.mem pml4 i).frame j).frame :=
      hne hq hd (by simp)
    have hfree := h.freed hd (by simp) hk (fun h ↦ absurd h (by simp)) hp
    have hcount := h.pooled.counted hq (by simp) hj
    rw [load_freeTable hk] at hcount
    refine hfree.checkPdptEntry (by rw [links_freeTable_of_ne hroot]) ?_
    rw [links_freeTable_of_ne hmid]
    exact hcount

/-- **`ReclaimPages` frees tables in order**, when the least accessed leaf entry does not lead to the
table the handler stands in, and is not its last sub-entry either, unless that table is the reserved
one. -/
theorem Tidy.reclaimed (h : Tidy pml4 F all π p upper walked t) {l : LeafEntry}
    (hl : leastAccessed t.mem t.reservedPage pml4 = some l)
    (hp : p ≠ (links t.mem l.page l.index).frame)
    (hup : l.page = p → t.reservedPage ≠ p → ∀ i, π = [i] → (links t.mem pml4 i).subEntries ≠ 1#9) :
    ∃ t', reclaimPages pml4 t = some t' ∧ Tidy pml4 F all π p upper walked t' ∧ Shrinks t t' ∧
      t'.pagePool ≠ [] := by
  have hspec := scanPml4_spec t.reservedPage h.pooled.conserved h.pooled.root_open
  rw [hl, Option.map_some] at hspec
  obtain ⟨hmin, hlinks⟩ := hspec
  obtain ⟨m, hm⟩ : ∃ m, (scanPml4 t.reservedPage pml4 t.mem).mem = m := ⟨_, rfl⟩
  rw [hm] at hlinks
  have hat : l.At (links m) pml4 := by
    rw [hlinks]
    exact .of_mem (List.argmin_mem hl)
  obtain ⟨htidy, hshrinks⟩ := (h.of_links hlinks).release (l := l) hat (by rwa [hlinks])
    (by rwa [hlinks])
  have hall := (shrinks_releasePage { t with mem := m } l).trans hshrinks
  refine ⟨_, ?_, htidy, ⟨fun q k hk ↦ ?_, hall.reserved, hall.pool⟩, ?_⟩
  · rw [reclaimPages, hmin, hm]
    rfl
  · have hlink : links m q k = links t.mem q k := by rw [hlinks]
    exact (congrArg Link.present hlink).symm.trans (hall.present q k hk)
  · intro hnil
    have hprefix := hshrinks.pool
    rw [hnil, List.prefix_nil] at hprefix
    exact List.append_ne_nil_of_right_ne_nil _ (List.cons_ne_nil _ _) hprefix

/-! ### AllocPage -/

/-- A page that is about to be linked: it is the first spare page, all its entries are 0, and the
handler's entry for it is still free. -/
structure Ready (pml4 : ℕ) (F : Finset ℕ) (all : Set ℕ) (π : List (Fin 512)) (p : ℕ)
    (upper : Option (ℕ × Fin 512)) (walked : List ℕ) (k : Fin 512) (n : ℕ) (t : Tables) : Prop where
  pooled : Pooled pml4 F all (links t.mem) (n :: t.pagePool)
  held : Held pml4 (links t.mem) π p upper walked
  zero : ∀ j, t.mem n j = .zero
  absent : (t.mem p k).present = false

/-- When the pool is empty, `ReclaimPages` finds a table that the handler does not stand in, and the
table it stands in is not released with it. -/
def Spares (pml4 : ℕ) (t : Tables) (p : ℕ) (upper : Option (ℕ × Fin 512)) : Prop :=
  ∃ l, leastAccessed t.mem t.reservedPage pml4 = some l ∧ (t.mem l.page l.index).frame ≠ p ∧
    (l.page = p → t.reservedPage ≠ p → ∀ i, upper = some (pml4, i) →
      (t.mem pml4 i).subEntries ≠ 1#9)

theorem links_zeroMem_of_ne {m : Memory} {n q : ℕ} {k : Fin 512} (h : q ≠ n) :
    links (zeroMem m n) q k = links m q k := by
  rw [links_apply, zeroMem, if_neg h, links_apply]

/-- **After the pool has been filled up** there is a page in it, and the handler still stands where it
stood. -/
theorem Tidy.stocked (h : Tidy pml4 F all π p upper walked t)
    (hspares : t.pagePool = [] → Spares pml4 t p upper) : ∃ t₁,
    (if t.pagePool = [] then reclaimPages pml4 t else some t) = some t₁ ∧
      Tidy pml4 F all π p upper walked t₁ ∧ Shrinks t t₁ ∧ t₁.pagePool ≠ [] := by
  by_cases hempty : t.pagePool = []
  · rw [if_pos hempty]
    obtain ⟨l, hl, hp, hup⟩ := hspares hempty
    refine h.reclaimed hl hp.symm fun hpage hres i hπ ↦ hup hpage hres i ?_
    rcases h.held.upper_eq with ⟨hnil, -⟩ | ⟨π₁, q, j, hπ₁, hq, hupper⟩
    · rw [hnil] at hπ
      exact absurd hπ (by simp)
    · obtain ⟨rfl, hji⟩ := List.append_inj' (hπ₁.symm.trans (hπ.trans (List.nil_append _).symm)) rfl
      obtain rfl : pml4 = q := by simpa using hq
      rw [hupper, List.singleton_inj.1 hji]
  · rw [if_neg hempty]
    exact ⟨t, rfl, h, ⟨fun _ _ hk ↦ hk, rfl, List.prefix_rfl⟩, hempty⟩

/-- **The first page of the pool is cleared.** It is in no table, so the tables are as they were. -/
theorem Tidy.taken (h : Tidy pml4 F all π p upper walked t) {n : ℕ} {pool : List ℕ}
    (hcons : t.pagePool = n :: pool) : p ≠ n ∧
      Pooled pml4 F all (links (zeroMem t.mem n)) (n :: pool) ∧
        Held pml4 (links (zeroMem t.mem n)) π p upper walked := by
  have hpooled := h.pooled
  rw [hcons] at hpooled
  have hne : ∀ π q, follow (child (links t.mem)) 3 pml4 π = some q → q ≠ n :=
    fun π q hπ hqn ↦ hpooled.conserved.notMem hπ (hqn ▸ List.mem_cons_self)
  have hkeep : ∀ π q, follow (child (links t.mem)) 3 pml4 π = some q → π.length < 3 → ∀ k,
      links (zeroMem t.mem n) q k = links t.mem q k :=
    fun π q hπ _ k ↦ links_zeroMem_of_ne (hne π q hπ)
  refine ⟨hne π p h.held.path, hpooled.congr hkeep, h.held.of_follow fun π₁ π₂ q hπ hq ↦ ?_⟩
  refine (follow_congr fun π q hπ hlt k ↦ ?_).2 hq
  simp only [child, hkeep π q hπ hlt k]

theorem allocPage_eq {t₁ : Tables} {n : ℕ} {pool : List ℕ}
    (ht₁ : (if t.pagePool = [] then reclaimPages pml4 t else some t) = some t₁)
    (hcons : t₁.pagePool = n :: pool) :
    allocPage pml4 t = some (n, { t₁ with pagePool := pool, mem := zeroMem t₁.mem n }) := by
  rw [allocPage, ht₁, Option.bind_some, hcons]

/-- **`AllocPage` returns a page**, and the handler still stands where it stood. -/
theorem Tidy.allocated (h : Tidy pml4 F all π p upper walked t) {k : Fin 512}
    (habsent : (t.mem p k).present = false)
    (hspares : t.pagePool = [] → Spares pml4 t p upper) :
    ∃ n t', allocPage pml4 t = some (n, t') ∧ Ready pml4 F all π p upper walked k n t' ∧
      t'.reservedPage = t.reservedPage := by
  obtain ⟨t₁, ht₁, htidy, hshrinks, hpool⟩ := h.stocked hspares
  obtain ⟨n, pool, hcons⟩ := List.exists_cons_of_ne_nil hpool
  obtain ⟨hpn, hpooled, hheld⟩ := htidy.taken hcons
  refine ⟨n, _, allocPage_eq ht₁ hcons, ⟨hpooled, hheld, fun j ↦ if_pos rfl, ?_⟩,
    hshrinks.reserved⟩
  have hsame : zeroMem t₁.mem n p k = t₁.mem p k := if_neg hpn
  change (zeroMem t₁.mem n p k).present = false
  rw [hsame]
  by_contra hpresent
  have hback := hshrinks.present p k (by simpa using hpresent)
  rw [habsent] at hback
  exact absurd hback (by simp)

/-- Wherever else the handler may come back to, `AllocPage` leaves it a way there. -/
theorem Tidy.held_allocPage (h : Tidy pml4 F all π p upper walked t)
    (hspares : t.pagePool = [] → Spares pml4 t p upper) {n : ℕ}
    (hall : allocPage pml4 t = some (n, t')) : Held pml4 (links t'.mem) π p upper walked := by
  obtain ⟨t₁, ht₁, htidy, -, hpool⟩ := h.stocked hspares
  obtain ⟨n₁, pool, hcons⟩ := List.exists_cons_of_ne_nil hpool
  obtain ⟨rfl, rfl⟩ : n₁ = n ∧ _ = t' := by
    simpa using (allocPage_eq ht₁ hcons).symm.trans hall
  exact (htidy.taken hcons).2.2

theorem shrinks_checkPml4Entry (pml4 : ℕ) (i : Fin 512) (t : Tables) :
    Shrinks t (checkPml4Entry pml4 i t) := by
  unfold checkPml4Entry
  dsimp only
  split_ifs
  · exact shrinks_freeTable
  · exact shrinks_recountEntry

/-- The entries above a released one are cleared or counted anew. -/
theorem shrinks_checkUpperEntries (pml4 : ℕ) (l : LeafEntry) (t : Tables) :
    Shrinks t (checkUpperEntries pml4 l t) := by
  unfold checkUpperEntries
  split
  · unfold checkPdptEntry
    dsimp only
    split_ifs
    · exact shrinks_freeTable.trans (shrinks_checkPml4Entry _ _ _)
    · exact shrinks_recountEntry
  · exact shrinks_checkPml4Entry _ _ t
  · exact ⟨fun _ _ hk ↦ hk, rfl, List.prefix_rfl⟩

/-- **What an empty pool yields** is the page of the least accessed leaf entry, whether or not the
handler stands in it, and the entry is cleared. -/
theorem allocPage_of_leastAccessed {spare : List ℕ}
    (hcons : Conserved (child (links t.mem)) 3 pml4 spare all)
    (hroot : ∀ k, (links t.mem pml4 k).present → (links t.mem pml4 k).isOpen)
    (hpool : t.pagePool = []) {l : LeafEntry}
    (hl : leastAccessed t.mem t.reservedPage pml4 = some l) :
    ∃ t', allocPage pml4 t = some ((t.mem l.page l.index).frame, t') ∧
      (t'.mem l.page l.index).present = false := by
  have hspec := scanPml4_spec t.reservedPage hcons hroot
  rw [hl, Option.map_some] at hspec
  obtain ⟨hmin, hlinks⟩ := hspec
  obtain ⟨m, hm⟩ : ∃ m, (scanPml4 t.reservedPage pml4 t.mem).mem = m := ⟨_, rfl⟩
  rw [hm] at hlinks
  have hframe : (m l.page l.index).frame = (t.mem l.page l.index).frame := by
    have hlink : links m l.page l.index = links t.mem l.page l.index := by rw [hlinks]
    exact congrArg Link.frame hlink
  have hshrinks := shrinks_checkUpperEntries pml4 l (releasePage l { t with mem := m })
  obtain ⟨pool, hpool'⟩ := hshrinks.pool
  have hpool₁ : (checkUpperEntries pml4 l (releasePage l { t with mem := m })).pagePool =
      (t.mem l.page l.index).frame :: pool := by
    rw [← hpool', releasePage]
    dsimp only
    rw [hpool, hframe]
    rfl
  refine ⟨_, allocPage_eq ?_ hpool₁, ?_⟩
  · rw [if_pos hpool, reclaimPages, hmin, hm, Option.map_some]
  · have hcleared : ((checkUpperEntries pml4 l (releasePage l { t with mem := m })).mem
        l.page l.index).present = false := by
      by_contra hpresent
      have hbefore := hshrinks.present l.page l.index (by simpa using hpresent)
      change (setSlot m l.page l.index .zero l.page l.index).present = true at hbefore
      rw [setSlot_self] at hbefore
      exact absurd hbefore (by simp [Entry.zero])
    dsimp only
    unfold zeroMem
    split_ifs
    · rfl
    · exact hcleared

end PurleyFirmware.PageTable
