import Mathlib.Data.Finset.Card
import Mathlib.Data.Fintype.Card
import PurleyFirmware.Smm.PageTable

/-!
# The SMM page tables and their pool in order

The tables form a tree below the PML4 table. An entry is *open* when it leads to a lower table and is
not masked: these are the tables `ReclaimPages` may free. `Pooled` is the invariant of the page-table
code: the tables and the spare pages are conserved, every open table comes from the pool, and every
open entry counts at least its lower tables. The last part is what makes it safe to free a table
whose count has gone down to 0.

What the code writes into entries is one of six edits, each with its rule: `Pooled.congr` (writes
elsewhere), `Pooled.recount` (another count), `Pooled.replace` (a leaf for a leaf), `Pooled.link` and
`Pooled.unlink` (a table comes or goes), `Pooled.orphan` (a leaf for a table that is not from the
pool). `Held` says that the tables the handler has walked to are on one path, and `Held.unlink` that
freeing any other table leaves them there.
-/

namespace PurleyFirmware.PageTable

open Finset

/-! ### Links -/

/-- The links of every entry. -/
abbrev Links := ℕ → Fin 512 → Link

def links (m : Memory) : Links := fun p k ↦ (m p k).toLink

@[simp] theorem links_apply (m : Memory) (p : ℕ) (k : Fin 512) : links m p k = (m p k).toLink := rfl

theorem links_setSlot (m : Memory) (p : ℕ) (k : Fin 512) (e : Entry) :
    links (setSlot m p k e) = setSlot (links m) p k e.toLink :=
  map_setSlot Entry.toLink m p k e

theorem links_setSlot_of_eq {m : Memory} {p : ℕ} {k : Fin 512} {e : Entry}
    (h : e.toLink = (m p k).toLink) : links (setSlot m p k e) = links m := by
  rw [links_setSlot]
  funext t j
  by_cases hslot : t = p ∧ j = k
  · obtain ⟨rfl, rfl⟩ := hslot
    rw [setSlot_self, h, links_apply]
  · rw [setSlot_of_ne hslot]

/-- The entry leads to a lower table. -/
def Link.isTable (e : Link) : Bool := e.present && !e.pageSize

/-- The entry leads to a lower table that is not masked. -/
def Link.isOpen (e : Link) : Bool := e.isTable && !e.pmnt

/-- The entry leads to a lower table and is masked. -/
def Link.isMasked (e : Link) : Bool := e.isTable && e.pmnt

theorem Link.isTable_of_isOpen {e : Link} (h : e.isOpen) : e.isTable := by
  simp only [isOpen, Bool.and_eq_true] at h
  exact h.1

theorem Link.isTable_of_isMasked {e : Link} (h : e.isMasked) : e.isTable := by
  simp only [isMasked, Bool.and_eq_true] at h
  exact h.1

theorem Link.isOpen_or_isMasked {e : Link} (h : e.isTable) : e.isOpen ∨ e.isMasked := by
  cases hp : e.pmnt <;> simp [isOpen, isMasked, h, hp]

theorem Link.isMasked_of_isOpen {e : Link} (h : e.isOpen) : e.isMasked = false := by
  simp only [isOpen, Bool.and_eq_true, Bool.not_eq_true'] at h
  simp [isMasked, h.2]

/-- The lower tables. -/
def child (L : Links) : ℕ → Fin 512 → Option ℕ := fun p k ↦
  if (L p k).isTable then some (L p k).frame else none

/-- The lower tables that are not masked. -/
def openChild (L : Links) : ℕ → Fin 512 → Option ℕ := fun p k ↦
  if (L p k).isOpen then some (L p k).frame else none

variable {L L' : Links} {p q n i : ℕ} {k j : Fin 512} {e : Link}

theorem child_eq_some : child L p k = some q ↔ (L p k).isTable ∧ (L p k).frame = q := by
  simp [child]

theorem child_eq_none : child L p k = none ↔ (L p k).isTable = false := by
  simp [child]

theorem openChild_eq_some : openChild L p k = some q ↔ (L p k).isOpen ∧ (L p k).frame = q := by
  simp [openChild]

theorem child_of_openChild (h : openChild L p k = some q) : child L p k = some q := by
  rw [openChild_eq_some] at h
  exact child_eq_some.2 ⟨Link.isTable_of_isOpen h.1, h.2⟩

theorem child_setSlot (L : Links) (p : ℕ) (k : Fin 512) (e : Link) :
    child (setSlot L p k e) = setSlot (child L) p k (if e.isTable then some e.frame else none) :=
  map_setSlot (fun e : Link ↦ if e.isTable then some e.frame else none) L p k e

theorem openChild_setSlot (L : Links) (p : ℕ) (k : Fin 512) (e : Link) :
    openChild (setSlot L p k e) =
      setSlot (openChild L) p k (if e.isOpen then some e.frame else none) :=
  map_setSlot (fun e : Link ↦ if e.isOpen then some e.frame else none) L p k e

theorem child_recount (L : Links) (p : ℕ) (k : Fin 512) (c : BitVec 9) :
    child (setSlot L p k { L p k with subEntries := c }) = child L := by
  rw [child_setSlot]
  exact setSlot_eq_self

theorem openChild_recount (L : Links) (p : ℕ) (k : Fin 512) (c : BitVec 9) :
    openChild (setSlot L p k { L p k with subEntries := c }) = openChild L := by
  rw [openChild_setSlot]
  exact setSlot_eq_self

/-! ### Counting the lower tables of a table -/

/-- The lower tables of a table that are not masked, and one more when there is a masked one. -/
def load (L : Links) (p : ℕ) : ℕ :=
  #{k | (L p k).isOpen} + if ∃ k, (L p k).isMasked then 1 else 0

theorem load_congr (ho : ∀ k, (L' q k).isOpen = (L p k).isOpen)
    (hm : ∀ k, (L' q k).isMasked = (L p k).isMasked) : load L' q = load L p := by
  simp only [load, ho, hm]

theorem load_eq_zero (h : load L p = 0) (k : Fin 512) : (L p k).isTable = false := by
  have hopen : #{k | (L p k).isOpen} = 0 := by
    unfold load at h
    omega
  have hmasked : ¬ ∃ k, (L p k).isMasked := by
    intro hex
    rw [load, if_pos hex] at h
    omega
  by_contra hk
  rcases Link.isOpen_or_isMasked (by simpa using hk : (L p k).isTable) with ho | hm
  · rw [card_eq_zero, filter_eq_empty_iff] at hopen
    exact hopen (mem_univ k) ho
  · exact hmasked ⟨k, hm⟩

theorem load_of_not_isTable (h : ∀ k, (L p k).isTable = false) : load L p = 0 := by
  have ho : ∀ k, ¬ (L p k).isOpen := fun k hk ↦ by
    simpa [h k] using Link.isTable_of_isOpen hk
  have hm : ¬ ∃ k, (L p k).isMasked := fun ⟨k, hk⟩ ↦ by
    simpa [h k] using Link.isTable_of_isMasked hk
  rw [load, if_neg hm, filter_false_of_mem fun k _ ↦ ho k, card_empty]

/-- **One more lower table.** -/
theorem load_of_opened (hoff : ∀ j, j ≠ k → L' p j = L p j) (hold : (L p k).isTable = false)
    (hnew : (L' p k).isOpen) : load L' p = load L p + 1 := by
  have hopen : univ.filter (fun j ↦ (L' p j).isOpen) =
      insert k (univ.filter fun j ↦ (L p j).isOpen) := by
    ext j
    by_cases hj : j = k
    · simp [hj, hnew]
    · simp [hj, hoff j hj]
  have hnotMem : k ∉ univ.filter (fun j ↦ (L p j).isOpen) := by
    simp [Link.isOpen, hold]
  have hmasked : (∃ j, (L' p j).isMasked) ↔ ∃ j, (L p j).isMasked := by
    refine exists_congr fun j ↦ ?_
    by_cases hj : j = k
    · rw [hj, Link.isMasked_of_isOpen hnew]
      simp [Link.isMasked, hold]
    · rw [hoff j hj]
  simp only [load, hopen, card_insert_of_notMem hnotMem, hmasked]
  omega

theorem load_setSlot_of_ne (h : q ≠ p) : load (setSlot L p k e) q = load L q :=
  load_congr (fun _ ↦ by rw [setSlot_of_ne fun h' ↦ h h'.1])
    fun _ ↦ by rw [setSlot_of_ne fun h' ↦ h h'.1]

/-! ### What the page-table code keeps -/

/-- The page tables below `root` and the spare pages: every page is used once, a table that
`ReclaimPages` may free comes from the pool `F`, and its entry counts at least its lower tables.
Only the table of the first 4 GB is neither masked nor from the pool; it holds masked entries. -/
structure Pooled (root : ℕ) (F : Finset ℕ) (all : Set ℕ) (L : Links) (spare : List ℕ) : Prop where
  conserved : Conserved (child L) 3 root spare all
  spare_mem : ∀ p ∈ spare, p ∈ F
  root_open : ∀ k, (L root k).present → (L root k).isOpen
  origin : ∀ {π : List (Fin 512)} {p : ℕ} {k : Fin 512},
    follow (openChild L) 3 root π = some p → π.length < 3 → (L p k).isOpen →
      (L p k).frame ∈ F ∨ π = [] ∧ ∃ j, (L (L p k).frame j).isMasked
  counted : ∀ {π : List (Fin 512)} {p : ℕ} {k : Fin 512},
    follow (openChild L) 3 root π = some p → π.length < 2 → (L p k).isOpen →
      load L (L p k).frame ≤ (L p k).subEntries.toNat

namespace Pooled

variable {root : ℕ} {F : Finset ℕ} {all : Set ℕ} {spare : List ℕ} {π π₀ : List (Fin 512)}

theorem follow_of_open (h : follow (openChild L) 3 root π = some p) :
    follow (child L) 3 root π = some p :=
  follow_mono (fun _ _ _ ↦ child_of_openChild) h

/-- **A table below the PML4 table has few open entries**: their tables are different pages of the
pool. -/
theorem load_le (h : Pooled root F all L spare) (hπ : follow (openChild L) 3 root π = some p)
    (hne : π ≠ []) (hlt : π.length < 3) : load L p ≤ #F + 1 := by
  have hmaps : ∀ k ∈ univ.filter (fun k ↦ (L p k).isOpen), (L p k).frame ∈ F := by
    intro k hk
    rcases h.origin hπ hlt (by simpa using hk) with hF | ⟨hnil, -⟩
    · exact hF
    · exact absurd hnil hne
  have hinj : Set.InjOn (fun k ↦ (L p k).frame) (univ.filter fun k ↦ (L p k).isOpen) := by
    intro k hk j hj hkj
    have hpath : ∀ {k}, (L p k).isOpen →
        follow (child L) 3 root (π ++ [k]) = some (L p k).frame := fun hk ↦
      follow_concat.2 ⟨hlt, p, follow_of_open hπ, child_eq_some.2 ⟨Link.isTable_of_isOpen hk, rfl⟩⟩
    have hk' : (L p k).isOpen := by simpa using hk
    have hj' : (L p j).isOpen := by simpa using hj
    have hcat := h.conserved.unique (hpath hk') ((hpath hj').trans (congrArg some hkj.symm))
    simpa using hcat
  have hcard := card_le_card_of_injOn _ hmaps hinj
  unfold load
  split <;> omega

/-- **Frame rule.** Only the entries of the PML4 table, of the page-directory-pointer tables and of
the page directories matter. -/
theorem congr (h : Pooled root F all L spare)
    (hag : ∀ π p, follow (child L) 3 root π = some p → π.length < 3 → ∀ k, L' p k = L p k) :
    Pooled root F all L' spare := by
  have hfollow : ∀ π q, follow (child L') 3 root π = some q ↔ follow (child L) 3 root π = some q :=
    fun π q ↦ follow_congr fun π p hπ hlt k ↦ by simp only [child, hag π p hπ hlt k]
  have hopen : ∀ {π q},
      follow (openChild L') 3 root π = some q ↔ follow (openChild L) 3 root π = some q :=
    follow_congr fun π p hπ hlt k ↦ by
      simp only [openChild, hag π p (follow_of_open hπ) hlt k]
  have hbelow : ∀ {π p k}, follow (openChild L) 3 root π = some p → π.length < 2 →
      (L p k).isOpen → ∀ j, L' (L p k).frame j = L (L p k).frame j := fun {π p k} hπ hlt hk ↦
    hag (π ++ [k]) _ (follow_concat.2
      ⟨by omega, p, follow_of_open hπ, child_eq_some.2 ⟨Link.isTable_of_isOpen hk, rfl⟩⟩)
      (by simp; omega)
  refine ⟨h.conserved.of_follow_iff hfollow, h.spare_mem, fun k ↦ ?_, fun {π p k} hπ hlt ↦ ?_,
    fun {π p k} hπ hlt ↦ ?_⟩
  · rw [hag [] root follow_nil (by simp)]
    exact h.root_open k
  · have hπ' := hopen.1 hπ
    rw [hag π p (follow_of_open hπ') hlt]
    intro hk
    refine (h.origin hπ' hlt hk).imp_right ?_
    rintro ⟨rfl, j, hj⟩
    exact ⟨rfl, j, by rwa [hbelow hπ' (by simp) hk]⟩
  · have hπ' := hopen.1 hπ
    rw [hag π p (follow_of_open hπ') (by omega)]
    intro hk
    rw [load_congr (fun j ↦ by rw [hbelow hπ' hlt hk j]) fun j ↦ by rw [hbelow hπ' hlt hk j]]
    exact h.counted hπ' hlt hk

/-- A new sub-entries number that still counts the lower tables. -/
theorem recount (h : Pooled root F all L spare) {c : BitVec 9}
    (hc : ∀ π, follow (openChild L) 3 root π = some p → π.length < 2 → (L p k).isOpen →
      load L (L p k).frame ≤ c.toNat) :
    Pooled root F all (setSlot L p k { L p k with subEntries := c }) spare := by
  set L' := setSlot L p k { L p k with subEntries := c } with hL'
  have hsame : ∀ q j, (L' q j).isTable = (L q j).isTable ∧ (L' q j).pmnt = (L q j).pmnt ∧
      (L' q j).frame = (L q j).frame ∧ (L' q j).present = (L q j).present := by
    intro q j
    by_cases hslot : q = p ∧ j = k
    · obtain ⟨rfl, rfl⟩ := hslot
      rw [hL', setSlot_self]
      exact ⟨rfl, rfl, rfl, rfl⟩
    · rw [hL', setSlot_of_ne hslot]
      exact ⟨rfl, rfl, rfl, rfl⟩
  have hisOpen : ∀ q j, (L' q j).isOpen = (L q j).isOpen := fun q j ↦ by
    simp only [Link.isOpen, (hsame q j).1, (hsame q j).2.1]
  have hisMasked : ∀ q j, (L' q j).isMasked = (L q j).isMasked := fun q j ↦ by
    simp only [Link.isMasked, (hsame q j).1, (hsame q j).2.1]
  have hchild : child L' = child L := child_recount L p k c
  have hopen : openChild L' = openChild L := openChild_recount L p k c
  refine ⟨hchild ▸ h.conserved, h.spare_mem, fun j hj ↦ ?_, fun {π q j} hπ hlt hj ↦ ?_,
    fun {π q j} hπ hlt hj ↦ ?_⟩
  · rw [hisOpen]
    exact h.root_open j (by rwa [(hsame root j).2.2.2] at hj)
  · simp only [hopen, hisOpen, hisMasked, (hsame q j).2.2.1] at hπ hj ⊢
    exact h.origin hπ hlt hj
  · rw [hopen] at hπ
    rw [hisOpen] at hj
    rw [load_congr (hisOpen _) (hisMasked _), (hsame q j).2.2.1]
    by_cases hslot : q = p ∧ j = k
    · obtain ⟨rfl, rfl⟩ := hslot
      rw [hL', setSlot_self]
      exact hc π hπ hlt hj
    · rw [hL', setSlot_of_ne hslot]
      exact h.counted hπ hlt hj

/-- An entry that leads to no table is replaced by another one, below the PML4 table. -/
theorem replace (h : Pooled root F all L spare) (hp : p ≠ root) (hold : (L p k).isTable = false)
    (hnew : e.isTable = false) : Pooled root F all (setSlot L p k e) spare := by
  set L' := setSlot L p k e with hL'
  have hcase : ∀ q j, L' q j = L q j ∨ (L' q j).isTable = false ∧ (L q j).isTable = false := by
    intro q j
    by_cases hslot : q = p ∧ j = k
    · obtain ⟨rfl, rfl⟩ := hslot
      rw [hL', setSlot_self]
      exact Or.inr ⟨hnew, hold⟩
    · rw [hL', setSlot_of_ne hslot]
      exact Or.inl rfl
  have hisOpen : ∀ q j, (L' q j).isOpen = (L q j).isOpen := by
    intro q j
    rcases hcase q j with hj | ⟨hj, hj'⟩
    · rw [hj]
    · simp only [Link.isOpen, hj, hj', Bool.false_and]
  have hisMasked : ∀ q j, (L' q j).isMasked = (L q j).isMasked := by
    intro q j
    rcases hcase q j with hj | ⟨hj, hj'⟩
    · rw [hj]
    · simp only [Link.isMasked, hj, hj', Bool.false_and]
  have hopenEq : ∀ {q j}, (L' q j).isOpen → L' q j = L q j := by
    intro q j ho
    rcases hcase q j with hj | ⟨hj, -⟩
    · exact hj
    · exact absurd (Link.isTable_of_isOpen ho) (by simp [hj])
  have hchild : child L' = child L := by
    funext q j
    rcases hcase q j with hj | ⟨hj, hj'⟩
    · simp only [child, hj]
    · simp [child, hj, hj']
  have hopen : openChild L' = openChild L := by
    rw [hL', openChild_setSlot]
    funext q j
    by_cases hslot : q = p ∧ j = k
    · obtain ⟨rfl, rfl⟩ := hslot
      simp [openChild, Link.isOpen, hnew, hold]
    · rw [setSlot_of_ne hslot]
  refine ⟨hchild ▸ h.conserved, h.spare_mem, fun j hj ↦ ?_, fun {π q j} hπ hlt hj ↦ ?_,
    fun {π q j} hπ hlt hj ↦ ?_⟩
  · rw [hL', setSlot_of_ne fun hslot ↦ hp hslot.1.symm] at hj ⊢
    exact h.root_open j hj
  · rw [hopen] at hπ
    have heq := hopenEq hj
    rw [heq] at hj ⊢
    simpa only [hisMasked] using h.origin hπ hlt hj
  · rw [hopen] at hπ
    have heq := hopenEq hj
    rw [heq] at hj ⊢
    rw [load_congr (hisOpen _) (hisMasked _)]
    exact h.counted hπ hlt hj

/-- **Allocation.** A spare page with no lower tables becomes the lower table of an entry that is not
present, once the entries above count it. -/
theorem link (h : Pooled root F all L (n :: spare)) (hp : follow (child L) 3 root π₀ = some p)
    (hlt : π₀.length < 3) (hempty : (L p k).present = false) (hnew : ∀ j, (L n j).isTable = false)
    (he : e.isOpen) (hn : e.frame = n)
    (hup : ∀ π q j, follow (openChild L) 3 root π = some q → π.length < 2 → (L q j).isOpen →
      (L q j).frame = p → load L p + 1 ≤ (L q j).subEntries.toNat) :
    Pooled root F all (setSlot L p k e) spare := by
  set L' := setSlot L p k e with hL'
  have hold : (L p k).isTable = false := by simp [Link.isTable, hempty]
  have hnp : n ≠ p := fun hnp ↦ h.conserved.notMem hp (hnp ▸ List.mem_cons_self)
  have hself : L' p k = e := setSlot_self
  have hother : ∀ {q j}, ¬ (q = p ∧ j = k) → L' q j = L q j := setSlot_of_ne
  have hchild : child L' = setSlot (child L) p k (some n) := by
    rw [hL', child_setSlot, if_pos (Link.isTable_of_isOpen he), hn]
  have hopen : openChild L' = setSlot (openChild L) p k (some n) := by
    rw [hL', openChild_setSlot, if_pos he, hn]
  have hnewOpen : ∀ j, (L n j).isOpen = false := fun j ↦ by simp [Link.isOpen, hnew j]
  -- an open path leads where it led before, or to the new table
  have hpath : ∀ {π q}, follow (openChild L') 3 root π = some q →
      follow (openChild L) 3 root π = some q ∨ q = n := by
    intro π q hπ
    rw [hopen, follow_link (by simp [openChild, Link.isOpen, hold])
      (fun j ↦ by simp [openChild, hnewOpen j]) hnp] at hπ
    exact hπ.imp_right fun ⟨_, _, _, _, hq⟩ ↦ hq
  have hpath' : ∀ {π q j}, follow (openChild L') 3 root π = some q → (L' q j).isOpen →
      follow (openChild L) 3 root π = some q := by
    intro π q j hπ hj
    rcases hpath hπ with hπ | rfl
    · exact hπ
    · rw [hother fun hslot ↦ hnp hslot.1, hnewOpen j] at hj
      exact absurd hj (by simp)
  refine ⟨?_, fun q hq ↦ h.spare_mem q (List.mem_cons_of_mem _ hq), fun j hj ↦ ?_,
    fun {π q j} hπ hlt' hj ↦ ?_, fun {π q j} hπ hlt' hj ↦ ?_⟩
  · rw [hchild]
    exact h.conserved.link hp hlt (child_eq_none.2 hold) fun j ↦ child_eq_none.2 (hnew j)
  · by_cases hslot : root = p ∧ j = k
    · rw [hslot.1, hslot.2, hself]
      exact he
    · rw [hother hslot] at hj ⊢
      exact h.root_open j hj
  · by_cases hslot : q = p ∧ j = k
    · rw [hslot.1, hslot.2, hself, hn]
      exact Or.inl (h.spare_mem n List.mem_cons_self)
    · have hπ' := hpath' hπ hj
      rw [hother hslot] at hj ⊢
      refine (h.origin hπ' hlt' hj).imp_right ?_
      rintro ⟨hnil, i, hi⟩
      refine ⟨hnil, i, ?_⟩
      rw [hother]
      · exact hi
      · rintro ⟨hf, rfl⟩
        rw [hf] at hi
        exact absurd (Link.isTable_of_isMasked hi) (by simp [hold])
  · have hπ' := hpath' hπ hj
    by_cases hslot : q = p ∧ j = k
    · rw [hslot.1, hslot.2, hself, hn, hL', load_setSlot_of_ne hnp, load_of_not_isTable hnew]
      exact Nat.zero_le _
    · rw [hother hslot] at hj ⊢
      by_cases hf : (L q j).frame = p
      · rw [hf, load_of_opened (L := L) (k := k) (fun i hi ↦ hother fun h' ↦ hi h'.2) hold
          (by rw [hself]; exact he)]
        exact hup π q j hπ' hlt' hj hf
      · rw [hL', load_setSlot_of_ne hf]
        exact h.counted hπ' hlt' hj

/-- **Release.** A lower table that is not masked and leads to no table itself becomes the last
spare page. -/
theorem unlink (h : Pooled root F all L spare) (hp : follow (openChild L) 3 root π₀ = some p)
    (hlt : π₀.length < 3) (hk : (L p k).isOpen) (hn : (L p k).frame = n)
    (hleaf : π₀.length + 1 < 3 → ∀ j, (L n j).isTable = false) (he : e.present = false) :
    Pooled root F all (setSlot L p k e) (spare ++ [n]) := by
  set L' := setSlot L p k e with hL'
  have hnew : e.isTable = false := by simp [Link.isTable, he]
  have hnewOpen : e.isOpen = false := by simp [Link.isOpen, hnew]
  have hself : L' p k = e := setSlot_self
  have hother : ∀ {q j}, ¬ (q = p ∧ j = k) → L' q j = L q j := setSlot_of_ne
  have hchild : child L' = setSlot (child L) p k none := by
    rw [hL', child_setSlot, if_neg (by simp [hnew])]
  have hmono : ∀ {π q}, follow (openChild L') 3 root π = some q →
      follow (openChild L) 3 root π = some q := by
    intro π q hπ
    refine follow_mono (fun t j x hx ↦ ?_) hπ
    rw [hL', openChild_setSlot, if_neg (by simp [hnewOpen])] at hx
    by_cases hslot : t = p ∧ j = k
    · rw [hslot.1, hslot.2, setSlot_self] at hx
      exact absurd hx (by simp)
    · rwa [setSlot_of_ne hslot] at hx
  have hslotOpen : ∀ {q j}, (L' q j).isOpen → ¬ (q = p ∧ j = k) := by
    rintro q j hj ⟨rfl, rfl⟩
    rw [hself, hnewOpen] at hj
    exact absurd hj (by simp)
  have hloadLe : ∀ q, load L' q ≤ load L q := by
    intro q
    by_cases hq : q = p
    · have hone : load L p = load L' p + 1 :=
        load_of_opened (fun i hi ↦ (hother fun h' ↦ hi h'.2).symm) (by rw [hself]; exact hnew) hk
      rw [hq, hone]
      exact Nat.le_succ _
    · rw [hL', load_setSlot_of_ne hq]
  refine ⟨?_, fun q hq ↦ ?_, fun j hj ↦ ?_, fun {π q j} hπ hlt' hj ↦ ?_,
    fun {π q j} hπ hlt' hj ↦ ?_⟩
  · rw [hchild]
    exact h.conserved.unlink (follow_of_open hp)
      (child_eq_some.2 ⟨Link.isTable_of_isOpen hk, hn⟩) hlt fun hlt' j ↦ child_eq_none.2 (hleaf hlt' j)
  · rcases List.mem_append.1 hq with hq | hq
    · exact h.spare_mem q hq
    · obtain rfl : q = n := by simpa using hq
      rcases h.origin hp hlt hk with hF | ⟨rfl, j, hj⟩
      · rwa [hn] at hF
      · rw [hn] at hj
        exact absurd (Link.isTable_of_isMasked hj) (by simp [hleaf (by simp) j])
  · by_cases hslot : root = p ∧ j = k
    · rw [hslot.1, hslot.2, hself, he] at hj
      exact absurd hj (by simp)
    · rw [hother hslot] at hj ⊢
      exact h.root_open j hj
  · have hslot := hslotOpen hj
    rw [hother hslot] at hj ⊢
    refine (h.origin (hmono hπ) hlt' hj).imp_right ?_
    rintro ⟨hnil, i, hi⟩
    refine ⟨hnil, i, ?_⟩
    rw [hother]
    · exact hi
    · rintro ⟨hf, rfl⟩
      rw [hf, Link.isMasked_of_isOpen hk] at hi
      exact absurd hi (by simp)
  · have hslot := hslotOpen hj
    rw [hother hslot] at hj ⊢
    exact (hloadLe _).trans (h.counted (hmono hπ) hlt' hj)

/-- **Overwriting** a table at the bottom that is reached through masked entries only. It is lost. -/
theorem orphan (h : Pooled root F all L spare) (hp : follow (child L) 3 root π₀ = some p)
    (hlen : π₀.length = 2) (hmask : ∀ π, follow (openChild L) 3 root π ≠ some p)
    (hk : (L p k).isTable) (hnew : e.isTable = false) :
    Pooled root F (all \ {(L p k).frame}) (setSlot L p k e) spare := by
  set L' := setSlot L p k e with hL'
  set n := (L p k).frame with hn
  have hslot : child L p k = some n := child_eq_some.2 ⟨hk, rfl⟩
  have hpath : follow (child L) 3 root (π₀ ++ [k]) = some n :=
    follow_concat.2 ⟨by omega, p, hp, hslot⟩
  have hroot : root ≠ p := by
    rintro rfl
    have hnil := h.conserved.unique hp follow_nil
    simp [hnil] at hlen
  have hfollow : ∀ {π q}, follow (child L') 3 root π = some q ↔
      follow (child L) 3 root π = some q ∧ q ≠ n := by
    intro π q
    rw [hL', child_setSlot, if_neg (by simp [hnew])]
    exact h.conserved.follow_unlink_iff hp hslot (by omega) fun hlt ↦ absurd hlt (by omega)
  have hmono : ∀ {π q}, follow (openChild L') 3 root π = some q →
      follow (openChild L) 3 root π = some q := by
    intro π q hπ
    refine follow_mono (fun t j x hx ↦ ?_) hπ
    rw [hL', openChild_setSlot, if_neg (by simp [Link.isOpen, hnew])] at hx
    by_cases hs : t = p ∧ j = k
    · rw [hs.1, hs.2, setSlot_self] at hx
      exact absurd hx (by simp)
    · rwa [setSlot_of_ne hs] at hx
  -- the tables that may be freed are other ones
  have hsame : ∀ {π q}, follow (openChild L') 3 root π = some q → ∀ j, L' q j = L q j :=
    fun {π q} hπ j ↦ setSlot_of_ne fun hs ↦ hmask π (hs.1 ▸ hmono hπ)
  have hbelow : ∀ {π q j}, follow (openChild L') 3 root π = some q → π.length < 3 →
      (L q j).isOpen → ∀ i, L' (L q j).frame i = L (L q j).frame i := by
    intro π q j hπ hlt hj i
    refine setSlot_of_ne fun hs ↦ hmask (π ++ [j]) ?_
    exact follow_concat.2 ⟨hlt, q, hmono hπ, openChild_eq_some.2 ⟨hj, hs.1⟩⟩
  refine ⟨⟨fun hπ hπ' ↦ h.conserved.unique (hfollow.1 hπ).1 (hfollow.1 hπ').1, h.conserved.nodup,
    fun hπ ↦ h.conserved.notMem (hfollow.1 hπ).1, fun q ↦ ?_⟩, h.spare_mem, fun j hj ↦ ?_,
    fun {π q j} hπ hlt hj ↦ ?_, fun {π q j} hπ hlt hj ↦ ?_⟩
  · rw [Set.mem_sdiff, h.conserved.mem_iff, Set.mem_singleton_iff]
    simp only [hfollow]
    constructor
    · rintro ⟨hq | ⟨π, hπ⟩, hne⟩
      · exact Or.inl hq
      · exact Or.inr ⟨π, hπ, hne⟩
    · rintro (hq | ⟨π, hπ, hne⟩)
      · exact ⟨Or.inl hq, fun hqn ↦ h.conserved.notMem hpath (hqn ▸ hq)⟩
      · exact ⟨Or.inr ⟨π, hπ⟩, hne⟩
  · rw [hL', setSlot_of_ne fun hs ↦ hroot hs.1] at hj ⊢
    exact h.root_open j hj
  · rw [hsame hπ] at hj ⊢
    refine (h.origin (hmono hπ) hlt hj).imp_right ?_
    rintro ⟨hnil, i, hi⟩
    exact ⟨hnil, i, by rwa [hbelow hπ hlt hj]⟩
  · rw [hsame hπ] at hj ⊢
    have hlow := hbelow hπ (by omega) hj
    rw [load_congr (fun i ↦ by rw [hlow i]) fun i ↦ by rw [hlow i]]
    exact h.counted (hmono hπ) hlt hj

end Pooled

/-! ### The walk of the handler -/

/-- The handler stands in table `p` at the end of `π`, has come there through `upper`, and all the
tables it has walked to lie on the path. -/
structure Held (root : ℕ) (L : Links) (π : List (Fin 512)) (p : ℕ) (upper : Option (ℕ × Fin 512))
    (walked : List ℕ) : Prop where
  path : follow (child L) 3 root π = some p
  upper_eq : π = [] ∧ upper = none ∨ ∃ π₁ q j, π = π₁ ++ [j] ∧
    follow (child L) 3 root π₁ = some q ∧ upper = some (q, j)
  walked_on : ∀ t ∈ walked, ∃ π₁ π₂, π = π₁ ++ π₂ ∧ follow (child L) 3 root π₁ = some t

namespace Held

variable {root : ℕ} {F : Finset ℕ} {all : Set ℕ} {spare : List ℕ} {π π₀ : List (Fin 512)}
  {upper : Option (ℕ × Fin 512)} {walked : List ℕ}

/-- The walk is about the path only. -/
theorem of_follow (h : Held root L π p upper walked)
    (hkeep : ∀ π₁ π₂ t, π = π₁ ++ π₂ → follow (child L) 3 root π₁ = some t →
      follow (child L') 3 root π₁ = some t) : Held root L' π p upper walked := by
  refine ⟨hkeep π [] p (by simp) h.path, h.upper_eq.imp_right ?_, fun t ht ↦ ?_⟩
  · rintro ⟨π₁, q, j, rfl, hq, hupper⟩
    exact ⟨π₁, q, j, rfl, hkeep π₁ [j] q rfl hq, hupper⟩
  · obtain ⟨π₁, π₂, hπ, ht'⟩ := h.walked_on t ht
    exact ⟨π₁, π₂, hπ, hkeep π₁ π₂ t hπ ht'⟩

/-- **The walk survives the release of any other table.** The tables above the one the handler
stands in have a lower table, so they are not released. -/
theorem unlink (h : Held root L π p upper walked) (hcons : Conserved (child L) 3 root spare all)
    {r : ℕ} (hr : follow (child L) 3 root π₀ = some r) (hlt : π₀.length < 3)
    (hk : child L r k = some n) (hleaf : π₀.length + 1 < 3 → ∀ j, child L n j = none)
    (hpn : p ≠ n) (he : e.isTable = false) : Held root (setSlot L r k e) π p upper walked := by
  refine h.of_follow fun π₁ π₂ t hπ ht ↦ ?_
  rw [child_setSlot, if_neg (by simp [he]), hcons.follow_unlink_iff hr hk hlt hleaf]
  refine ⟨ht, ?_⟩
  rintro rfl
  have hπ₁ := hcons.unique ht (follow_concat.2 ⟨hlt, r, hr, hk⟩)
  cases π₂ with
  | nil =>
    rw [List.append_nil] at hπ
    subst hπ
    exact hpn (Option.some.inj (h.path.symm.trans ht))
  | cons j π₂ =>
    have hpath := h.path
    rw [hπ, show π₁ ++ j :: π₂ = π₁ ++ [j] ++ π₂ by simp] at hpath
    obtain ⟨x, hx⟩ := exists_follow_of_append hpath
    obtain ⟨hlen, t', ht', hj⟩ := follow_concat.1 hx
    rw [Option.some.inj (ht'.symm.trans ht), hleaf (by simpa [hπ₁] using hlen) j] at hj
    exact absurd hj (by simp)

end Held

end PurleyFirmware.PageTable
