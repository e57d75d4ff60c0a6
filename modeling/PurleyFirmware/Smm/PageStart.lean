import Mathlib.Data.Finset.Basic
import PurleyFirmware.Smm.PagePool

/-!
# The SMM page tables at the start

`SmmInitPageTable` maps the first 4 GB with large pages, except where the stack guard needs 4 KB
pages, and masks the four entries that lead there. The eight pages between the PML4 table and the
tables of the first 4 GB are the pool. `pooled_start` says that this is in order: `StartPath` lists
the tables with their paths, and no table but the PML4 table and the one below it is reached without
a masked entry.
-/

namespace PurleyFirmware.PageTable

/-- The pages that `SmmInitPageTable` puts into the pool. -/
def Platform.poolPages (P : Platform) : Finset ℕ := (List.range' (P.pml4 + 1) 8).toFinset

/-- The pages of the PML4 table, of the pool and of the tables of the first 4 GB. -/
def Platform.pages (P : Platform) : Set ℕ :=
  {q | P.pml4 ≤ q ∧ q < P.pml4 + 14 + P.pagesNeeded}

theorem card_poolPages (P : Platform) : P.poolPages.card ≤ 509 :=
  (List.toFinset_card_le _).trans (by simp)

section Start

variable (P : Platform) (m : Memory)

/-- The links that `SmmInitPageTable` leaves behind. -/
def startLinks : Links := links (smmInitPageTable P m).mem

theorem pdpt_ne_pml4 : P.pdpt ≠ P.pml4 := by
  unfold Platform.pdpt
  omega

theorem startLinks_pml4 (k : Fin 512) : startLinks P m P.pml4 k =
    if k.val = 0 then ⟨true, false, false, P.pdpt, 3⟩ else ⟨false, false, false, 0, 0⟩ := by
  have hne := (pdpt_ne_pml4 P).symm
  simp only [startLinks, links_apply, smmInitPageTable, hne, false_and, if_false, if_true]
  split_ifs <;> rfl

theorem startLinks_pdpt (k : Fin 512) : startLinks P m P.pdpt k =
    if k.val < 4 then ⟨true, false, true, P.pdpt + (k.val + 1), 0⟩
    else ⟨false, false, false, 0, 0⟩ := by
  have hne := pdpt_ne_pml4 P
  simp only [startLinks, links_apply, smmInitPageTable, gen4GPageTable, true_and, hne, if_false,
    if_true]
  split_ifs <;> rfl

/-- The page directories of the first 4 GB. -/
theorem startLinks_pdt {j : ℕ} (hj : j < 4) (k : Fin 512) :
    startLinks P m (P.pdpt + (j + 1)) k =
      if P.low2MBoundary ≤ 512 * j + k.val ∧ 512 * j + k.val < P.low2MBoundary + P.pagesNeeded then
        ⟨true, false, false, P.pdpt + 5 + (512 * j + k.val - P.low2MBoundary), 0⟩
      else ⟨true, true, false, 512 * (512 * j + k.val), 0⟩ := by
  have hpdpt : ¬ P.pdpt + (j + 1) = P.pdpt := by omega
  have hpml4 : ¬ P.pdpt + (j + 1) = P.pml4 := by
    unfold Platform.pdpt
    omega
  have hrange : P.pdpt < P.pdpt + (j + 1) ∧ P.pdpt + (j + 1) < P.pdpt + 5 := by omega
  have hregion : P.pdpt + (j + 1) - (P.pdpt + 1) = j := by omega
  simp only [startLinks, links_apply, smmInitPageTable, gen4GPageTable, hpdpt, hpml4, hrange,
    hregion, false_and, if_false, and_self, if_true]
  split_ifs <;> rfl

theorem child_start_pml4 (k : Fin 512) :
    child (startLinks P m) P.pml4 k = if k = 0 then some P.pdpt else none := by
  rw [child, startLinks_pml4]
  by_cases hk : k = 0
  · simp [hk, Link.isTable]
  · simp [hk, Link.isTable]

theorem child_start_pdpt (k : Fin 512) :
    child (startLinks P m) P.pdpt k = if k.val < 4 then some (P.pdpt + (k.val + 1)) else none := by
  rw [child, startLinks_pdpt]
  split_ifs <;> simp_all [Link.isTable]

theorem child_start_pdt {j : ℕ} (hj : j < 4) (k : Fin 512) :
    child (startLinks P m) (P.pdpt + (j + 1)) k =
      if P.low2MBoundary ≤ 512 * j + k.val ∧ 512 * j + k.val < P.low2MBoundary + P.pagesNeeded then
        some (P.pdpt + 5 + (512 * j + k.val - P.low2MBoundary))
      else none := by
  rw [child, startLinks_pdt P m hj]
  split_ifs <;> simp_all [Link.isTable]

/-- The tables at the start: the PML4 table, and the tables of the first 4 GB with the page tables of
the stack guard. -/
inductive StartPath : List (Fin 512) → ℕ → Prop
  | pml4 : StartPath [] P.pml4
  | pdpt : StartPath [0] P.pdpt
  | pdt {j : Fin 512} (hj : j.val < 4) : StartPath [0, j] (P.pdpt + (j.val + 1))
  | pt {j k : Fin 512} (hj : j.val < 4) (hlow : P.low2MBoundary ≤ 512 * j.val + k.val)
      (hhigh : 512 * j.val + k.val < P.low2MBoundary + P.pagesNeeded) :
      StartPath [0, j, k] (P.pdpt + 5 + (512 * j.val + k.val - P.low2MBoundary))

theorem follow_start_iff {π : List (Fin 512)} {q : ℕ} :
    follow (child (startLinks P m)) 3 P.pml4 π = some q ↔ StartPath P π q := by
  constructor
  · intro h
    cases π with
    | nil =>
      obtain rfl := Option.some.inj (follow_nil.symm.trans h)
      exact .pml4
    | cons i π =>
      rw [follow, child_start_pml4, Option.bind_eq_some_iff] at h
      obtain ⟨p, hp, h⟩ := h
      obtain ⟨rfl, rfl⟩ : i = 0 ∧ P.pdpt = p := by simpa using hp
      cases π with
      | nil =>
        obtain rfl := Option.some.inj (follow_nil.symm.trans h)
        exact .pdpt
      | cons j π =>
        rw [follow, child_start_pdpt, Option.bind_eq_some_iff] at h
        obtain ⟨p, hp, h⟩ := h
        obtain ⟨hj, rfl⟩ : j.val < 4 ∧ P.pdpt + (j.val + 1) = p := by simpa using hp
        cases π with
        | nil =>
          obtain rfl := Option.some.inj (follow_nil.symm.trans h)
          exact .pdt hj
        | cons k π =>
          rw [follow, child_start_pdt P m hj, Option.bind_eq_some_iff] at h
          obtain ⟨p, hp, h⟩ := h
          rw [Option.ite_none_right_eq_some, Option.some.injEq] at hp
          obtain ⟨⟨hlow, hhigh⟩, rfl⟩ := hp
          cases π with
          | nil =>
            obtain rfl := Option.some.inj (follow_nil.symm.trans h)
            exact .pt hj hlow hhigh
          | cons l π => exact absurd h (by simp [follow])
  · intro h
    cases h with
    | pml4 => exact follow_nil
    | pdpt => simp [follow, child_start_pml4]
    | pdt hj => simp [follow, child_start_pml4, child_start_pdpt, hj]
    | pt hj hlow hhigh =>
      simp [follow, child_start_pml4, child_start_pdpt, child_start_pdt P m hj, hj, hlow, hhigh]

/-- At the start only the PML4 table and the table of the first 4 GB are reached without a masked
entry. -/
theorem follow_open_start {π : List (Fin 512)} {q : ℕ}
    (h : follow (openChild (startLinks P m)) 3 P.pml4 π = some q) :
    π = [] ∧ q = P.pml4 ∨ π = [0] ∧ q = P.pdpt := by
  have hpath := (follow_start_iff P m).1 (Pooled.follow_of_open h)
  have hmasked : ∀ k, openChild (startLinks P m) P.pdpt k = none := fun k ↦ by
    rw [openChild, startLinks_pdpt]
    split_ifs <;> simp_all [Link.isOpen, Link.isTable]
  have hnone : ∀ j π, follow (openChild (startLinks P m)) 3 P.pml4 (0 :: j :: π) = none := by
    intro j π
    have hroot : openChild (startLinks P m) P.pml4 0 = some P.pdpt := by
      rw [openChild, startLinks_pml4]
      rfl
    rw [follow, hroot, Option.bind_some, follow, hmasked, Option.bind_none]
  cases hpath with
  | pml4 => exact Or.inl ⟨rfl, rfl⟩
  | pdpt => exact Or.inr ⟨rfl, rfl⟩
  | pdt hj => exact absurd h (by rw [hnone]; simp)
  | pt hj hlow hhigh => exact absurd h (by rw [hnone]; simp)

theorem mem_pagePool_start (q : ℕ) :
    q ∈ (smmInitPageTable P m).pagePool ↔ P.pml4 + 1 ≤ q ∧ q < P.pml4 + 9 := by
  simp only [smmInitPageTable, List.mem_range'_1]

variable {P}

/-- The pages of the tables, as distances from the PML4 table. -/
theorem StartPath.page_eq {π : List (Fin 512)} {q : ℕ} (h : StartPath P π q) :
    π = [] ∧ q = P.pml4 ∨ π = [0] ∧ q = P.pml4 + 9 ∨
      (∃ j : Fin 512, j.val < 4 ∧ π = [0, j] ∧ q = P.pml4 + 10 + j.val) ∨
      ∃ j k : Fin 512, j.val < 4 ∧ P.low2MBoundary ≤ 512 * j.val + k.val ∧
        512 * j.val + k.val < P.low2MBoundary + P.pagesNeeded ∧ π = [0, j, k] ∧
          q + P.low2MBoundary = P.pml4 + 14 + (512 * j.val + k.val) := by
  cases h with
  | pml4 => exact Or.inl ⟨rfl, rfl⟩
  | pdpt => exact Or.inr (Or.inl ⟨rfl, rfl⟩)
  | pdt hj => exact Or.inr (Or.inr (Or.inl ⟨_, hj, rfl, by unfold Platform.pdpt; omega⟩))
  | pt hj hlow hhigh =>
    exact Or.inr (Or.inr (Or.inr ⟨_, _, hj, hlow, hhigh, rfl, by unfold Platform.pdpt; omega⟩))

theorem StartPath.unique {π π' : List (Fin 512)} {q : ℕ} (h : StartPath P π q)
    (h' : StartPath P π' q) : π = π' := by
  rcases h.page_eq with ⟨rfl, hq⟩ | ⟨rfl, hq⟩ | ⟨j, hj, rfl, hq⟩ | ⟨j, k, hj, hlow, hhigh, rfl, hq⟩ <;>
    rcases h'.page_eq with ⟨rfl, hq'⟩ | ⟨rfl, hq'⟩ | ⟨j', hj', rfl, hq'⟩ |
      ⟨j', k', hj', hlow', hhigh', rfl, hq'⟩ <;>
    try omega
  · rfl
  · rfl
  · rw [show j = j' from Fin.ext (by omega)]
  · rw [show j = j' from Fin.ext (by omega), show k = k' from Fin.ext (by omega)]

variable (P)

theorem mem_pages (q : ℕ) :
    q ∈ P.pages ↔ P.pml4 ≤ q ∧ q < P.pml4 + 14 + P.pagesNeeded := Iff.rfl

/-- **The tables at the start are in order.** -/
theorem pooled_start : Pooled P.pml4 P.poolPages P.pages (startLinks P m)
    (smmInitPageTable P m).pagePool := by
  have hload : load (startLinks P m) P.pdpt = 1 := by
    have hnone : Finset.univ.filter (fun k ↦ (startLinks P m P.pdpt k).isOpen) = ∅ := by
      refine Finset.filter_false_of_mem fun k _ ↦ ?_
      rw [startLinks_pdpt]
      split_ifs <;> simp [Link.isOpen]
      simp [Link.isTable]
    have hsome : ∃ k, (startLinks P m P.pdpt k).isMasked := ⟨0, by rw [startLinks_pdpt]; rfl⟩
    rw [load, hnone, if_pos hsome, Finset.card_empty]
  have hroot : ∀ {k}, (startLinks P m P.pml4 k).present → k = 0 := by
    intro k hk
    rw [startLinks_pml4] at hk
    by_contra hne
    rw [if_neg (fun h0 : k.val = 0 ↦ hne (Fin.ext h0))] at hk
    exact absurd hk (by simp)
  have hopenRoot : startLinks P m P.pml4 0 = ⟨true, false, false, P.pdpt, 3⟩ := by
    rw [startLinks_pml4]
    rfl
  have hclosed : ∀ k, (startLinks P m P.pdpt k).isOpen = false := by
    intro k
    rw [startLinks_pdpt]
    split_ifs <;> simp [Link.isOpen, Link.isTable]
  refine ⟨⟨fun {π π' q} hπ hπ' ↦ ?_, List.nodup_range', fun {π q} hπ hq ↦ ?_, fun q ↦ ?_⟩,
    fun q hq ↦ ?_, fun k hk ↦ ?_, fun {π p k} hπ hlt hk ↦ ?_, fun {π p k} hπ hlt hk ↦ ?_⟩
  · exact ((follow_start_iff P m).1 hπ).unique ((follow_start_iff P m).1 hπ')
  · rw [mem_pagePool_start] at hq
    rcases ((follow_start_iff P m).1 hπ).page_eq with
      ⟨-, h⟩ | ⟨-, h⟩ | ⟨j, hj, -, h⟩ | ⟨j, k, hj, hlow, hhigh, -, h⟩ <;> omega
  · rw [mem_pagePool_start, mem_pages]
    have hfit := P.stacks_below_4G
    constructor
    · intro hq
      by_cases hpool : P.pml4 + 1 ≤ q ∧ q < P.pml4 + 9
      · exact Or.inl hpool
      · refine Or.inr ?_
        simp only [follow_start_iff]
        have hpdpt : P.pdpt = P.pml4 + 9 := rfl
        by_cases hpml4 : q = P.pml4
        · exact ⟨[], hpml4 ▸ .pml4⟩
        by_cases h4G : q = P.pdpt
        · exact ⟨[0], h4G ▸ .pdpt⟩
        by_cases hpdt : q < P.pml4 + 14
        · obtain ⟨j, rfl⟩ : ∃ j, q = P.pdpt + (j + 1) := ⟨q - P.pdpt - 1, by omega⟩
          have hj4 : j < 4 := by omega
          exact ⟨[0, ⟨j, by omega⟩], .pdt hj4⟩
        · -- the region of a page table of the stack guard, and its entry
          obtain ⟨r, rfl⟩ : ∃ r, q = P.pdpt + 5 + r := ⟨q - P.pdpt - 5, by omega⟩
          have hregion : 512 * ((P.low2MBoundary + r) / 512) + (P.low2MBoundary + r) % 512 =
              P.low2MBoundary + r := Nat.div_add_mod _ _
          have hj4 : (P.low2MBoundary + r) / 512 < 4 := by omega
          have hq' : P.pdpt + 5 + r = P.pdpt + 5 + (512 * ((P.low2MBoundary + r) / 512) +
              (P.low2MBoundary + r) % 512 - P.low2MBoundary) := by omega
          rw [hq']
          exact ⟨[0, ⟨(P.low2MBoundary + r) / 512, by omega⟩,
            ⟨(P.low2MBoundary + r) % 512, Nat.mod_lt _ (by omega)⟩],
            .pt hj4 (by dsimp only; omega) (by dsimp only; omega)⟩
    · rintro (hq | ⟨π, hπ⟩)
      · omega
      · rcases ((follow_start_iff P m).1 hπ).page_eq with
          ⟨-, h⟩ | ⟨-, h⟩ | ⟨j, hj, -, h⟩ | ⟨j, k, hj, hlow, hhigh, -, h⟩ <;> omega
  · exact List.mem_toFinset.2 hq
  · rw [hroot hk, hopenRoot]
    rfl
  · rcases follow_open_start P m hπ with ⟨rfl, rfl⟩ | ⟨rfl, rfl⟩
    · have hk0 : k = 0 := by
        refine hroot ?_
        have htable := Link.isTable_of_isOpen hk
        rw [Link.isTable, Bool.and_eq_true] at htable
        exact htable.1
      refine Or.inr ⟨rfl, 0, ?_⟩
      rw [hk0, hopenRoot, startLinks_pdpt]
      rfl
    · rw [hclosed] at hk
      exact absurd hk (by simp)
  · rcases follow_open_start P m hπ with ⟨rfl, rfl⟩ | ⟨rfl, rfl⟩
    · have hk0 : k = 0 := by
        refine hroot ?_
        have htable := Link.isTable_of_isOpen hk
        rw [Link.isTable, Bool.and_eq_true] at htable
        exact htable.1
      rw [hk0, hopenRoot]
      change load (startLinks P m) P.pdpt ≤ 3
      omega
    · rw [hclosed] at hk
      exact absurd hk (by simp)

end Start

end PurleyFirmware.PageTable
