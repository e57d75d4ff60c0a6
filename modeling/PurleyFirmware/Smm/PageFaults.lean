import PurleyFirmware.Smm.PageAlloc
import PurleyFirmware.Smm.PageStart

/-!
# Page faults conserve the page pool

Every step of the page-fault handler, and every use of the tables by another processor, keeps the
page tables in order (`Inv.next`), unless it breaks one of the rules of `Orderly`. Two of them say
that the sizes of pages do not clash; the handler itself only asserts this. The third one is about
`AllocPage`: `ReservedPage` protects the page-directory-pointer table of the first page of a fault,
and no other table that the handler has walked to. `not_poolConserved_exhaustRun` is a run in which
the page directory that the handler has just added is taken from under it.
-/

namespace PurleyFirmware.PageTable

/-! ### Writing entries -/

section Write

variable {pml4 p n : ℕ} {F : Finset ℕ} {all : Set ℕ} {π : List (Fin 512)}
  {upper : Option (ℕ × Fin 512)} {walked : List ℕ} {t : Tables} {L : Links} {spare : List ℕ}
  {q : ℕ} {j k : Fin 512}

/-- The next sub-entries number. -/
def bump (c : BitVec 9) : BitVec 9 := BitVec.ofNat 9 (if c.toNat + 1 > 511 then 511 else c.toNat + 1)

theorem toNat_bump (c : BitVec 9) : (bump c).toNat = min (c.toNat + 1) 511 := by
  unfold bump
  split_ifs with h
  · simp [min_eq_right (by omega : 511 ≤ c.toNat + 1)]
  · rw [BitVec.toNat_ofNat, Nat.mod_eq_of_lt (by omega), min_eq_left (by omega)]

theorem links_countSubEntry (m : Memory) (q : ℕ) (j : Fin 512) :
    links (countSubEntry m (some (q, j))) =
      setSlot (links m) q j { links m q j with subEntries := bump (links m q j).subEntries } :=
  links_setSlot m q j _

/-- Counting one more is always in order. -/
theorem Pooled.bump (h : Pooled pml4 F all L spare) :
    Pooled pml4 F all (setSlot L q j { L q j with subEntries := PageTable.bump (L q j).subEntries })
      spare := by
  refine h.recount fun π hπ hlt hj ↦ (h.counted hπ hlt hj).trans ?_
  rw [toNat_bump]
  have hlt := (L q j).subEntries.isLt
  omega

theorem Pooled.countSubEntry {m : Memory} (h : Pooled pml4 F all (links m) spare)
    (upper : Option (ℕ × Fin 512)) :
    Pooled pml4 F all (links (PageTable.countSubEntry m upper)) spare := by
  cases upper with
  | none => exact h
  | some a =>
    rw [links_countSubEntry]
    exact h.bump

theorem child_countSubEntry (m : Memory) (upper : Option (ℕ × Fin 512)) :
    child (links (countSubEntry m upper)) = child (links m) := by
  cases upper with
  | none => rfl
  | some a =>
    rw [links_countSubEntry]
    exact child_recount _ _ _ _

/-- **Storing a table**: the spare page is linked and the entry above counts it. -/
theorem Ready.pooled_store (h : Ready pml4 F all π p upper walked k n t) (hF : F.card ≤ 509)
    (hlt : π.length < 3) {e : Entry} (he : e.toLink = ⟨true, false, false, n, 0⟩) :
    Pooled pml4 F all (links (countSubEntry (setSlot t.mem p k e) upper)) t.pagePool := by
  have hopen : e.toLink.isOpen := by
    rw [he]
    rfl
  have hframe : e.toLink.frame = n := by rw [he]
  have hzero : ∀ i, (links t.mem n i).isTable = false := fun i ↦ by
    rw [links_apply, h.zero i]
    rfl
  have hnever : ∀ {π' : List (Fin 512)} {q' : ℕ} {j' : Fin 512},
      follow (openChild (links t.mem)) 3 pml4 π' = some q' → π'.length < 2 →
        (links t.mem q' j').isOpen → (links t.mem q' j').frame = p → π = π' ++ [j'] := by
    intro π' q' j' hπ' hlt' hj' hf
    refine h.pooled.conserved.unique h.held.path (follow_concat.2 ⟨by omega, q',
      Pooled.follow_of_open hπ', child_eq_some.2 ⟨Link.isTable_of_isOpen hj', hf⟩⟩)
  rcases h.held.upper_eq with ⟨rfl, rfl⟩ | ⟨π₁, q, j, rfl, hq, rfl⟩
  · rw [countSubEntry, links_setSlot]
    refine h.pooled.link h.held.path hlt h.absent hzero hopen hframe ?_
    intro π' q' j' hπ' hlt' hj' hf
    exact absurd (hnever hπ' hlt' hj' hf) (by simp)
  · have hqp : q ≠ p := fun hqp ↦ by
      have hcat := h.pooled.conserved.unique hq (hqp ▸ h.held.path)
      simp at hcat
    have hqn : n ≠ q := fun hnq ↦ h.pooled.conserved.notMem hq (hnq ▸ List.mem_cons_self)
    have hcomm : links (countSubEntry (setSlot t.mem p k e) (some (q, j))) =
        setSlot (setSlot (links t.mem) q j
          { links t.mem q j with subEntries := bump (links t.mem q j).subEntries }) p k e.toLink := by
      rw [links_countSubEntry, links_setSlot, setSlot_of_ne fun hslot ↦ hqp hslot.1,
        setSlot_comm fun hslot ↦ hqp hslot.1.symm]
    have hother : ∀ {r i}, r ≠ q → setSlot (links t.mem) q j
        { links t.mem q j with subEntries := bump (links t.mem q j).subEntries } r i =
          links t.mem r i := fun hr ↦ setSlot_of_ne fun hslot ↦ hr hslot.1
    have hbump : Pooled pml4 F all _ (n :: t.pagePool) := h.pooled.bump (q := q) (j := j)
    rw [hcomm]
    refine hbump.link (by rw [child_recount]; exact h.held.path) hlt ?_ (fun i ↦ ?_) hopen hframe ?_
    · rw [hother hqp.symm]
      exact h.absent
    · rw [hother hqn]
      exact hzero i
    · intro π' q' j' hπ' hlt' hj' hf
      rw [openChild_recount] at hπ'
      have hchild := openChild_recount (links t.mem) q j (bump (links t.mem q j).subEntries)
      have hopen' : openChild (links t.mem) q' j' = some p := by
        rw [← hchild]
        exact openChild_eq_some.2 ⟨hj', hf⟩
      obtain ⟨hj₀, hf₀⟩ := openChild_eq_some.1 hopen'
      -- the only entry that leads to `p` is the one the handler came through
      obtain ⟨rfl, hjj⟩ := List.append_inj' (hnever hπ' hlt' hj₀ hf₀) rfl
      obtain rfl : j = j' := by simpa using hjj
      obtain rfl : q' = q := Option.some.inj ((Pooled.follow_of_open hπ').symm.trans hq)
      have hcount := h.pooled.counted hπ' hlt' hj₀
      have hfew := h.pooled.load_le (follow_concat.2 ⟨by omega, q', hπ', hopen'⟩) (by simp) hlt
      rw [hf₀] at hcount
      rw [setSlot_self, load_setSlot_of_ne hqp.symm]
      change load (links t.mem) p + 1 ≤ (bump (links t.mem q' j).subEntries).toNat
      rw [toNat_bump]
      omega

/-- The walk goes down through an entry that leads to a table. -/
theorem Held.down (h : Held pml4 L π p upper walked) (hlt : π.length < 3)
    (hk : (L p k).isTable) :
    Held pml4 L (π ++ [k]) (L p k).frame (some (p, k)) ((L p k).frame :: walked) := by
  have hpath := follow_concat.2 ⟨hlt, p, h.path, child_eq_some.2 ⟨hk, rfl⟩⟩
  refine ⟨hpath, Or.inr ⟨π, p, k, rfl, h.path, rfl⟩, fun t ht ↦ ?_⟩
  rcases List.mem_cons.1 ht with rfl | ht
  · exact ⟨π ++ [k], [], by simp, hpath⟩
  · obtain ⟨π₁, π₂, hπ, ht'⟩ := h.walked_on t ht
    exact ⟨π₁, π₂ ++ [k], by rw [hπ, List.append_assoc], ht'⟩

/-- Only the links of the tables matter to the walk. -/
theorem Held.of_child (h : Held pml4 L π p upper walked) {L' : Links} (hL : child L' = child L) :
    Held pml4 L' π p upper walked :=
  h.of_follow fun _ _ _ _ hq ↦ by rwa [hL]

theorem child_store {e : Entry} {upper' : Option (ℕ × Fin 512)}
    (he : e.toLink = ⟨true, false, false, n, 0⟩) :
    child (links (countSubEntry (setSlot t.mem p k e) upper')) =
      setSlot (child (links t.mem)) p k (some n) := by
  rw [child_countSubEntry, links_setSlot, child_setSlot, he]
  rfl

/-- **After the store** the walk stands in the new table, below the one it stood in. -/
theorem Ready.store (h : Ready pml4 F all π p upper walked k n t) (hF : F.card ≤ 509)
    (hlt : π.length < 3) {e : Entry} (he : e.toLink = ⟨true, false, false, n, 0⟩) (r : ℕ) :
    Tidy pml4 F all π p upper walked
      { t with mem := countSubEntry (setSlot t.mem p k e) upper, reservedPage := r } where
  pooled := h.pooled_store hF hlt he
  held := h.held.of_follow fun π₁ π₂ q _ hq ↦ by
    have hempty : child (links t.mem) p k = none :=
      child_eq_none.2 (by rw [links_apply, Link.isTable, h.absent, Bool.false_and])
    have hnew : ∀ j, child (links t.mem) n j = none := fun j ↦
      child_eq_none.2 (by rw [links_apply, h.zero j]; rfl)
    rw [child_store he, h.pooled.conserved.follow_link_iff h.held.path hlt hempty hnew]
    exact Or.inl hq

/-- Marking an entry as accessed. -/
def markAccessed (m : Memory) (p : ℕ) (k : Fin 512) : Memory :=
  setSlot m p k (setAccNum { m p k with accessed := true } 7)

theorem links_markAccessed (m : Memory) (p : ℕ) (k : Fin 512) :
    links (markAccessed m p k) = links m := links_setSlot_of_eq rfl

/-- **Going down one level.** -/
theorem Tidy.down (h : Tidy pml4 F all π p upper walked t) (hlt : π.length < 3) {q : ℕ}
    (hk : child (links t.mem) p k = some q) :
    Tidy pml4 F all (π ++ [k]) q (some (p, k)) (q :: walked)
      { t with mem := markAccessed t.mem p k } := by
  obtain ⟨htable, rfl⟩ := child_eq_some.1 hk
  have hlinks := links_markAccessed t.mem p k
  refine ⟨?_, ?_⟩
  · rw [hlinks]
    exact h.pooled
  · rw [hlinks]
    exact h.held.down hlt htable

/-- **Filling the entry of a page**: a leaf replaces an entry that leads to no table, or it is an
entry of a page table of 4 KB pages. -/
theorem Tidy.pooled_fill (h : Tidy pml4 F all π p upper walked t) (hne : π ≠ []) {e : Entry}
    (hfill : π.length = 3 ∨ (links t.mem p k).isTable = false ∧ e.isTable = false) :
    Pooled pml4 F all (links (countSubEntry (setSlot t.mem p k e) upper)) t.pagePool := by
  refine Pooled.countSubEntry ?_ upper
  rw [links_setSlot]
  rcases hfill with hlen | ⟨hold, hnew⟩
  · refine h.pooled.congr fun π' q hπ' hlt j ↦ setSlot_of_ne fun hslot ↦ ?_
    have hsame := h.pooled.conserved.unique hπ' (hslot.1 ▸ h.held.path)
    rw [hsame] at hlt
    omega
  · refine h.pooled.replace (fun hp ↦ hne ?_) hold hnew
    exact h.pooled.conserved.unique h.held.path (hp ▸ follow_nil)

/-- A processor uses an entry that is present, so not one of the page in the handler's hand. -/
theorem Ready.access (h : Ready pml4 F all π p upper walked k n t) (hpresent : (t.mem q j).present) :
    Ready pml4 F all π p upper walked k n
      { t with mem := setSlot t.mem q j { t.mem q j with accessed := true } } := by
  have hlinks : links (setSlot t.mem q j { t.mem q j with accessed := true }) = links t.mem :=
    links_setSlot_of_eq rfl
  have hother : ∀ {q' j'}, (t.mem q' j').present = false →
      setSlot t.mem q j { t.mem q j with accessed := true } q' j' = t.mem q' j' := by
    refine fun hq ↦ setSlot_of_ne fun hslot ↦ ?_
    rw [hslot.1, hslot.2, hpresent] at hq
    exact absurd hq (by simp)
  have htidy := Tidy.of_links (t := { t with pagePool := n :: t.pagePool }) ⟨h.pooled, h.held⟩ hlinks
  refine ⟨htidy.pooled, htidy.held, fun i ↦ ?_, ?_⟩
  · exact (hother (by rw [h.zero i]; rfl)).trans (h.zero i)
  · exact (congrArg (fun e : Entry ↦ e.present) (hother h.absent)).trans h.absent

/-- The start of a walk. -/
theorem Held.start : Held pml4 L [] pml4 none [pml4] where
  path := follow_nil
  upper_eq := Or.inl ⟨rfl, rfl⟩
  walked_on t ht := ⟨[], [], rfl, by rw [List.mem_singleton.1 ht]; exact follow_nil⟩

end Write

/-! ### The claim -/

/-- The page that `AllocPage` has returned and that is not stored yet. -/
def Control.inHand : Control → List ℕ
  | .store _ _ page => [page]
  | _ => []

/-- The tables that the handler has walked to. -/
def Control.walked : Control → List ℕ
  | .idle => []
  | .walk _ c => c.walked
  | .store _ c _ => c.walked

/-- The pages linked in the pool and the page-table pages that the PML4 table leads to, with the page
in the handler's hand, are the pages there were at the start, each of them once. -/
def PoolConserved (P : Platform) (s : State) : Prop :=
  Conserved (child (links s.mem)) 3 P.pml4 (s.control.inHand ++ s.pagePool) P.pages

/-- No table that the handler has walked to was reclaimed: the PML4 table still leads to it. -/
def WalkHeld (P : Platform) (s : State) : Prop :=
  ∀ q ∈ s.control.walked, ∃ π, follow (child (links s.mem)) 3 P.pml4 π = some q

/-- The steps of the handler that keep the tables in order. Walking down, the entry is not itself a
large page; a new page does not replace a table; and a table for which the pool is empty is taken
from elsewhere. -/
def Orderly (P : Platform) (s : State) : Label → Prop
  | .run =>
    match s.control with
    | .walk f c =>
      if c.startBit > f.endBit then
        if !(s.mem c.pageTable (ptIndex c)).present then
          s.pagePool = [] → Spares P.pml4 s.toTables c.pageTable c.upperEntry
        else (s.mem c.pageTable (ptIndex c)).pageSize = false
      else f.endBit = 12 ∨ (s.mem c.pageTable (ptIndex c)).isTable = false
    | _ => True
  | _ => True

/-! ### The invariant -/

variable {P : Platform} {s s' : State}

/-- A fault of a 4 KB page, or one of a larger page whose entry is marked as such. -/
def Fault.Valid (f : Fault) : Prop :=
  f.endBit = 12 ∨ (f.endBit = 21 ∨ f.endBit = 30) ∧ f.pageAttribute.pageSize = true

theorem valid_faultOf (answer : Option PlatformAttribute) : (faultOf P answer).Valid := by
  unfold faultOf
  obtain ⟨size, numOfPages, e⟩ := answer.getD ⟨.size2M, 1, .zero⟩
  cases size with
  | size4K => exact Or.inl rfl
  | size2M => exact Or.inr ⟨Or.inl rfl, by dsimp only; split <;> rfl⟩
  | size1G => exact Or.inr ⟨Or.inr rfl, by dsimp only; split <;> rfl⟩
  | max => exact Or.inr ⟨Or.inl rfl, by dsimp only; split <;> rfl⟩

def Inv (P : Platform) (s : State) : Prop :=
  match s.control with
  | .idle => Pooled P.pml4 P.poolPages P.pages (links s.mem) s.pagePool
  | .walk f c => f.Valid ∧ ∃ π : List (Fin 512), c.startBit + 9 * π.length = 39 ∧
      f.endBit ≤ c.startBit ∧
        Tidy P.pml4 P.poolPages P.pages π c.pageTable c.upperEntry c.walked s.toTables
  | .store f c n => f.Valid ∧ ∃ π : List (Fin 512), c.startBit + 9 * π.length = 39 ∧
      f.endBit < c.startBit ∧
        Ready P.pml4 P.poolPages P.pages π c.pageTable c.upperEntry c.walked (ptIndex c) n s.toTables

theorem Inv.poolConserved (h : Inv P s) : PoolConserved P s := by
  unfold Inv at h
  unfold PoolConserved
  cases hc : s.control with
  | idle =>
    rw [hc] at h
    exact h.conserved
  | walk f c =>
    rw [hc] at h
    obtain ⟨-, π, -, -, htidy⟩ := h
    exact htidy.pooled.conserved
  | store f c n =>
    rw [hc] at h
    obtain ⟨-, π, -, -, hready⟩ := h
    exact hready.pooled.conserved

theorem Inv.walkHeld (h : Inv P s) : WalkHeld P s := by
  unfold Inv at h
  unfold WalkHeld
  have hon : ∀ {π p upper walked}, Held P.pml4 (links s.mem) π p upper walked →
      ∀ q ∈ walked, ∃ π, follow (child (links s.mem)) 3 P.pml4 π = some q := by
    intro π p upper walked hheld q hq
    obtain ⟨π₁, -, -, hπ₁⟩ := hheld.walked_on q hq
    exact ⟨π₁, hπ₁⟩
  cases hc : s.control with
  | idle => exact fun q hq ↦ absurd hq (by simp [Control.walked])
  | walk f c =>
    rw [hc] at h
    obtain ⟨-, π, -, -, htidy⟩ := h
    exact hon htidy.held
  | store f c n =>
    rw [hc] at h
    obtain ⟨-, π, -, -, hready⟩ := h
    exact hon hready.held

theorem Inv.nextPage (h : Pooled P.pml4 P.poolPages P.pages (links s.mem) s.pagePool) {f : Fault}
    {index : ℕ} {pfAddress : BitVec 64} (hf : f.Valid)
    (hs : s.control = nextPage P f index pfAddress) : Inv P s := by
  unfold Inv
  rw [hs, PageTable.nextPage]
  split_ifs
  · refine ⟨hf, [], rfl, ?_, h, Held.start⟩
    rcases hf with h12 | ⟨h21 | h30, -⟩
    · simp [startWalk, h12]
    · simp [startWalk, h21]
    · simp [startWalk, h30]
  · exact h

/-- **The end of a turn of the inner loop.** -/
theorem Inv.descend {f : Fault} {c : Cursor} {t : Tables} {π : List (Fin 512)} {q : ℕ}
    (h : Tidy P.pml4 P.poolPages P.pages π c.pageTable c.upperEntry c.walked t) (hf : f.Valid)
    (hlen : c.startBit + 9 * π.length = 39) (hlt : f.endBit < c.startBit)
    (hk : child (links t.mem) c.pageTable (ptIndex c) = some q) : Inv P (descend f c t) := by
  have hend : f.endBit = 12 ∨ f.endBit = 21 ∨ f.endBit = 30 := hf.imp_right And.left
  have hframe : (t.mem c.pageTable (ptIndex c)).frame = q := (child_eq_some.1 hk).2
  refine ⟨hf, π ++ [ptIndex c], ?_, ?_, ?_⟩
  · rw [List.length_append, List.length_singleton]
    change c.startBit - 9 + 9 * (π.length + 1) = 39
    omega
  · change f.endBit ≤ c.startBit - 9
    omega
  · have hdown := h.down (by omega) hk
    rw [← hframe] at hdown
    exact hdown

theorem Inv.run (h : Inv P s) (hok : Orderly P s .run) (hs : PageTable.run P s = some s') :
    Inv P s' := by
  unfold Inv at h
  unfold PageTable.run at hs
  unfold Orderly at hok
  cases hc : s.control with
  | idle =>
    rw [hc] at hs
    exact absurd hs (by simp)
  | walk f c =>
    rw [hc] at h hs hok
    obtain ⟨hf, π, hlen, hle, htidy⟩ := h
    dsimp only at hs hok
    by_cases hlt : c.startBit > f.endBit
    · rw [if_pos hlt] at hs hok
      by_cases habsent : (s.mem c.pageTable (ptIndex c)).present = false
      · rw [if_pos (by rw [habsent]; rfl)] at hs hok
        obtain ⟨n, t', hall, hready, -⟩ := htidy.allocated habsent hok
        rw [hall, Option.map_some, Option.some.injEq] at hs
        subst hs
        exact ⟨hf, π, hlen, hlt, hready⟩
      · have hpresent : (s.mem c.pageTable (ptIndex c)).present = true := by simpa using habsent
        rw [if_neg (by rw [hpresent]; simp)] at hs hok
        obtain rfl := Option.some.inj hs
        have hk : child (links s.mem) c.pageTable (ptIndex c) =
            some (s.mem c.pageTable (ptIndex c)).frame :=
          child_eq_some.2 ⟨by rw [links_apply, Link.isTable, hpresent, hok]; rfl, rfl⟩
        unfold walkDown
        split_ifs
        · exact Inv.descend ⟨htidy.pooled, htidy.held⟩ hf hlen hlt hk
        · exact Inv.descend htidy hf hlen hlt hk
    · rw [if_neg hlt] at hs hok
      obtain rfl := Option.some.inj hs
      have hend : f.endBit = 12 ∨ f.endBit = 21 ∨ f.endBit = 30 := hf.imp_right And.left
      have hne : π ≠ [] := by
        rintro rfl
        simp only [List.length_nil] at hlen
        omega
      refine Inv.nextPage (htidy.pooled_fill hne (e := leafEntry P f c.pfAddress) ?_) hf rfl
      rcases hf with h12 | ⟨hlarge, hps⟩
      · exact Or.inl (by omega)
      · refine Or.inr ⟨hok.resolve_left (by omega), ?_⟩
        simp [Link.isTable, leafEntry, Entry.or, hps]
  | store f c n =>
    rw [hc] at h hs
    obtain ⟨hf, π, hlen, hlt, hready⟩ := h
    obtain rfl := Option.some.inj hs
    have hend : f.endBit = 12 ∨ f.endBit = 21 ∨ f.endBit = 30 := hf.imp_right And.left
    refine Inv.descend (hready.store (card_poolPages P) (by omega) rfl _) hf hlen hlt (q := n) ?_
    rw [child_store rfl, setSlot_self]

/-- **Every step keeps the invariant.** -/
theorem Inv.next {a : Label} (h : Inv P s) (hok : Orderly P s a)
    (hs : PageTable.next P s a = some s') : Inv P s' := by
  cases a with
  | run => exact h.run hok hs
  | fault pfAddress answer =>
    unfold PageTable.next at hs
    unfold Inv at h
    cases hc : s.control with
    | idle =>
      rw [hc] at h hs
      obtain rfl := Option.some.inj hs
      exact Inv.nextPage h (valid_faultOf answer) rfl
    | walk f c =>
      rw [hc] at hs
      exact absurd hs (by simp)
    | store f c n =>
      rw [hc] at hs
      exact absurd hs (by simp)
  | access page k =>
    unfold PageTable.next at hs
    by_cases hpresent : (s.mem page k).present = true
    · simp only [hpresent, if_true] at hs
      obtain rfl := Option.some.inj hs
      have hlinks : links (setSlot s.mem page k { s.mem page k with accessed := true }) =
          links s.mem := links_setSlot_of_eq rfl
      unfold Inv at h ⊢
      cases hc : s.control with
      | idle =>
        rw [hc] at h
        dsimp only
        rwa [hlinks]
      | walk f c =>
        rw [hc] at h
        obtain ⟨hf, π, hlen, hle, htidy⟩ := h
        exact ⟨hf, π, hlen, hle, htidy.of_links hlinks⟩
      | store f c n =>
        rw [hc] at h
        obtain ⟨hf, π, hlen, hlt, hready⟩ := h
        exact ⟨hf, π, hlen, hlt, hready.access hpresent⟩
    · simp [hpresent] at hs

/-! ### Every run -/

/-- **The page pool is conserved.** In every run whose steps are orderly, the pages in the pool and
the page tables are the pages there were at the start, each of them once, and the handler stands only
in tables that are still in use. -/
theorem poolConserved_of_reachable {P : Platform} {s : State}
    (hs : (system P).ReachableUnder (Orderly P) s) : PoolConserved P s ∧ WalkHeld P s := by
  have hinv : Inv P s := by
    refine hs.invariant ?_ fun _ _ _ _ hinv hok hstep ↦ hinv.next hok hstep
    rintro s ⟨m, rfl⟩
    exact pooled_start P m
  exact ⟨hinv.poolConserved, hinv.walkHeld⟩

/-! ### A run in which the walked table is reclaimed -/

instance (pml4 : ℕ) (t : Tables) (p : ℕ) (upper : Option (ℕ × Fin 512)) :
    Decidable (Spares pml4 t p upper) :=
  match h : leastAccessed t.mem t.reservedPage pml4 with
  | some l =>
    decidable_of_iff ((t.mem l.page l.index).frame ≠ p ∧
      (l.page = p → t.reservedPage ≠ p → ∀ i, upper = some (pml4, i) →
        (t.mem pml4 i).subEntries ≠ 1#9)) (by simp [Spares, h])
  | none => isFalse (by simp [Spares, h])

instance (P : Platform) (s : State) : (a : Label) → Decidable (Orderly P s a)
  | .fault _ _ => isTrue trivial
  | .access _ _ => isTrue trivial
  | .run =>
    match h : s.control with
    | .idle => isTrue (by simp [Orderly, h])
    | .store _ _ _ => isTrue (by simp [Orderly, h])
    | .walk f c =>
      decidable_of_iff
        (if c.startBit > f.endBit then
          if !(s.mem c.pageTable (ptIndex c)).present then
            s.pagePool = [] → Spares P.pml4 s.toTables c.pageTable c.upperEntry
          else (s.mem c.pageTable (ptIndex c)).pageSize = false
        else f.endBit = 12 ∨ (s.mem c.pageTable (ptIndex c)).isTable = false)
        (by simp [Orderly, h])

/-- A platform without stack guard. -/
def smallPlatform : Platform where
  pml4 := 100
  pml4_ne_zero := by decide
  phyMask := 0xFFFFFFFFF000#64
  xdEnabled := false
  low2MBoundary := 0
  pagesNeeded := 0
  stacks_below_4G := by decide
  guardPage := fun _ ↦ false

/-- The state in which its first page fault finds it. -/
def smallStart : State := { smmInitPageTable smallPlatform fun _ _ ↦ .zero with control := .idle }

/-- One page at `a`, of the given size, as far as `n` steps of the handler. -/
def faultRun (a : BitVec 64) (size : SmmPageSize) (n : ℕ) : List Label :=
  .fault a (some ⟨size, 1, .zero⟩) :: List.replicate n .run

theorem poolConserved_faultRun : ∃ s,
    LabelledSystem.exec (next smallPlatform) (fun s a ↦ decide (Orderly smallPlatform s a))
      smallStart (faultRun (1#64 <<< 39) .size4K 7) = some s ∧
        PoolConserved smallPlatform s ∧ WalkHeld smallPlatform s := by
  have hsome : (LabelledSystem.exec (next smallPlatform)
      (fun s a ↦ decide (Orderly smallPlatform s a)) smallStart
      (faultRun (1#64 <<< 39) .size4K 7)).isSome = true := by decide +kernel
  obtain ⟨s, hs⟩ := Option.isSome_iff_exists.1 hsome
  have hreach : (system smallPlatform).ReachableUnder (Orderly smallPlatform) s :=
    .exec (fun _ _ ↦ of_decide_eq_true) (fun _ _ _ h ↦ h) (.init ⟨_, rfl⟩) hs
  exact ⟨s, hs, poolConserved_of_reachable hreach⟩

/-- Two page faults of 4 KB take six pages of the pool, one of 2 MB the seventh; the fourth fault
takes the last page for the page directory of its address, and has none left for the page table. -/
def exhaustRun : List Label :=
  faultRun (1#64 <<< 39) .size4K 7 ++ faultRun (2#64 <<< 39) .size4K 7 ++
    faultRun (5#64 <<< 30) .size2M 4 ++ faultRun (4#64 <<< 30) .size4K 3

/-- The pool is empty, the handler needs a table, and the least accessed leaf entry leads to the one
it stands in. -/
def picksWalked (P : Platform) (s : State) : Bool :=
  match s.control with
  | .walk f c =>
    decide (c.startBit > f.endBit) && !(s.mem c.pageTable (ptIndex c)).present &&
      decide (s.pagePool = []) && c.walked.contains c.pageTable &&
      (List.finRange 512).all (fun k ↦ !(links s.mem P.pml4 k).present || (links s.mem P.pml4 k).isOpen) &&
      match leastAccessed s.mem s.reservedPage P.pml4 with
      | some l => (s.mem l.page l.index).frame = c.pageTable
      | none => false
  | _ => false

theorem picksWalked_exhaustRun :
    (LabelledSystem.exec (next smallPlatform) (fun _ _ ↦ true) smallStart exhaustRun).any
      (picksWalked smallPlatform) = true := by decide +kernel

/-- **The walked table is reclaimed**: all leaf entries were accessed since the last search, and the
page directory that the handler has just added comes first. -/
theorem not_poolConserved_exhaustRun : ¬ ∀ (P : Platform) (s : State),
    (system P).Reachable s → PoolConserved P s ∧ WalkHeld P s := by
  intro hall
  obtain ⟨s, hs, hpicks⟩ := (Option.any_eq_true _ _).1 picksWalked_exhaustRun
  have hreach : (system smallPlatform).Reachable s :=
    .exec (fun _ _ _ ↦ trivial) (fun _ _ _ h ↦ h) (.init ⟨_, rfl⟩) hs
  unfold picksWalked at hpicks
  cases hc : s.control with
  | idle => simp [hc] at hpicks
  | store f c n => simp [hc] at hpicks
  | walk f c =>
    simp only [hc, Bool.and_eq_true, Bool.not_eq_true', decide_eq_true_eq, List.contains_iff_mem,
      List.all_eq_true, List.mem_finRange, true_imp_iff, Bool.or_eq_true] at hpicks
    obtain ⟨⟨⟨⟨⟨hbit, habsent⟩, hpool⟩, hwalked⟩, hroot⟩, hleast⟩ := hpicks
    cases hl : leastAccessed s.mem s.reservedPage smallPlatform.pml4 with
    | none => simp [hl] at hleast
    | some l =>
      have hframe : (s.mem l.page l.index).frame = c.pageTable := by simpa [hl] using hleast
      obtain ⟨t', ht', -⟩ := allocPage_of_leastAccessed (hall smallPlatform s hreach).1
        (fun k hk ↦ (hroot k).resolve_left (by rw [hk]; simp)) hpool hl
      have hstep : next smallPlatform s .run = some { t' with control := .store f c c.pageTable } := by
        simp only [next, run, hc, hbit, if_true, habsent, Bool.not_false]
        rw [ht', hframe]
        rfl
      -- the page in the handler's hand is one that it has walked to
      obtain ⟨hconserved, hheld⟩ := hall smallPlatform _ (hreach.step hstep)
      obtain ⟨π, hπ⟩ := hheld c.pageTable hwalked
      exact hconserved.notMem hπ List.mem_cons_self

end PurleyFirmware.PageTable
