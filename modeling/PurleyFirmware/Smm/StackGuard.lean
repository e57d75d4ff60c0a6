import PurleyFirmware.Smm.PaeTable

/-!
# Where the guard pages are

`GuardPage` runs through the guard pages in step with `PageAddress`: it is always the first one that
has not been passed, or 0 when all have (`NextGuard`). One entry keeps that (`NextGuard.next`), the
entries of a table keep it from one region to the next, and what the regions leave behind is a
closed form of the whole table (`Table`), from which the walk is read off.
-/

namespace PurleyFirmware.PaeTable

open SmmStacks

variable {s : SmmStacks} {m : Words} {p q r a g page region : ℕ}

/-! ### The stacks -/

theorem SmmStacks.mSmmStackSize_ge (s : SmmStacks) : 8192 ≤ s.mSmmStackSize := by
  unfold mSmmStackSize stackPages
  omega

theorem SmmStacks.Placed.size_le (hs : s.Placed) :
    s.mSmmStackSize ≤ s.numberOfCpus * s.mSmmStackSize := Nat.le_mul_of_pos_left _ hs.pos

/-- The guard pages are a stack area apart, in the order of the processors. -/
theorem SmmStacks.guardAddress_add_le (s : SmmStacks) {i j : ℕ} (hij : i < j) :
    s.guardAddress i + s.mSmmStackSize ≤ s.guardAddress j := by
  have hmul : (i + 1) * s.mSmmStackSize ≤ j * s.mSmmStackSize := Nat.mul_le_mul_right _ hij
  rw [Nat.succ_mul] at hmul
  unfold guardAddress
  omega

theorem SmmStacks.guardAddress_succ (s : SmmStacks) (i : ℕ) :
    s.guardAddress (i + 1) = s.guardAddress i + s.mSmmStackSize := by
  rw [guardAddress, guardAddress, Nat.succ_mul]
  omega

theorem SmmStacks.Placed.guardAddress_mod (hs : s.Placed) (i : ℕ) :
    s.guardAddress i % 4096 = 0 := by
  have hmul : i * s.mSmmStackSize = i * s.stackPages * 4096 := (Nat.mul_assoc _ _ _).symm
  have haligned := hs.aligned
  rw [guardAddress, hmul]
  omega

/-- A guard page lies within the stacks if and only if it belongs to a processor. -/
theorem SmmStacks.guardAddress_le_end_iff (s : SmmStacks) (i : ℕ) :
    s.guardAddress i ≤ s.mSmmStackArrayEnd ↔ i < s.numberOfCpus := by
  have hsize := s.mSmmStackSize_ge
  unfold guardAddress mSmmStackArrayEnd
  constructor
  · intro hle
    by_contra hge
    have hmul : s.numberOfCpus * s.mSmmStackSize ≤ i * s.mSmmStackSize :=
      Nat.mul_le_mul_right _ (Nat.not_lt.1 hge)
    omega
  · intro hlt
    have hmul : (i + 1) * s.mSmmStackSize ≤ s.numberOfCpus * s.mSmmStackSize :=
      Nat.mul_le_mul_right _ hlt
    rw [Nat.succ_mul] at hmul
    omega

/-! ### The running guard page -/

/-- `g` is the first guard page that is not below the address `a`, or 0 when there is none. -/
def NextGuard (s : SmmStacks) (a g : ℕ) : Prop :=
  ∃ i, (∀ j < i, s.guardAddress j < a) ∧
    (i < s.numberOfCpus ∧ a ≤ s.guardAddress i ∧ g = s.guardAddress i ∨
      i = s.numberOfCpus ∧ g = 0)

/-- The address is the guard page exactly when its page is one: a guard page of 0 is past the first
guard page, so that the address is not 0. -/
theorem NextGuard.eq_iff (hs : s.Placed) (h : NextGuard s (4096 * page) g) :
    4096 * page = g ↔ s.IsGuardPage page := by
  obtain ⟨i, hbelow, ⟨hi, hle, rfl⟩ | ⟨rfl, rfl⟩⟩ := h
  · refine ⟨fun heq ↦ ⟨i, hi, heq⟩, fun ⟨k, _, heq⟩ ↦ ?_⟩
    rcases Nat.lt_trichotomy k i with hk | rfl | hk
    · have hlt := hbelow k hk
      omega
    · exact heq
    · have hadd := s.guardAddress_add_le hk
      have hsize := s.mSmmStackSize_ge
      omega
  · refine ⟨fun heq ↦ ?_, fun ⟨k, hk, heq⟩ ↦ ?_⟩
    · have hlt := hbelow 0 hs.pos
      omega
    · have hlt := hbelow k hk
      omega

/-- **One entry.** -/
theorem NextGuard.next (hs : s.Placed) (h : NextGuard s (4096 * page) g) :
    NextGuard s (4096 * (page + 1))
      (if 4096 * page = g then
        if g + s.mSmmStackSize > s.mSmmStackArrayEnd then 0 else g + s.mSmmStackSize
      else g) := by
  have heq := h.eq_iff hs
  have hsize := s.mSmmStackSize_ge
  obtain ⟨i, hbelow, ⟨hi, hle, rfl⟩ | ⟨rfl, rfl⟩⟩ := h
  · by_cases hpage : 4096 * page = s.guardAddress i
    · rw [if_pos hpage, ← s.guardAddress_succ]
      refine ⟨i + 1, fun j hj ↦ ?_, ?_⟩
      · rcases Nat.lt_succ_iff_lt_or_eq.1 hj with hlt | rfl
        · have hj' := hbelow j hlt
          omega
        · omega
      · have hend := s.guardAddress_le_end_iff (i + 1)
        by_cases hlast : i + 1 < s.numberOfCpus
        · rw [if_neg (Nat.not_lt.2 (hend.2 hlast)), s.guardAddress_succ]
          exact Or.inl ⟨hlast, by omega, rfl⟩
        · rw [if_pos (Nat.not_le.1 fun hle ↦ hlast (hend.1 hle))]
          exact Or.inr ⟨by omega, rfl⟩
    · have hmod := hs.guardAddress_mod i
      rw [if_neg hpage]
      refine ⟨i, fun j hj ↦ ?_, Or.inl ⟨hi, by omega, rfl⟩⟩
      have hj' := hbelow j hj
      omega
  · have hpos := hbelow 0 hs.pos
    rw [if_neg (by omega)]
    refine ⟨_, fun j hj ↦ ?_, Or.inr ⟨rfl, rfl⟩⟩
    have hj' := hbelow j hj
    omega

theorem nextGuard_start (hs : s.Placed) (ha : a ≤ s.mSmmStackArrayBase + 4096) :
    NextGuard s a (s.mSmmStackArrayBase + 4096) := by
  have hzero : s.guardAddress 0 = s.mSmmStackArrayBase + 4096 := by
    rw [guardAddress, Nat.zero_mul, Nat.add_zero]
  exact ⟨0, fun j hj ↦ absurd hj (Nat.not_lt_zero j),
    Or.inl ⟨hs.pos, ha.trans_eq hzero.symm, hzero.symm⟩⟩

/-! ### One table -/

/-- The entry of a page in a table of 4 KB pages. -/
def pageEntry (s : SmmStacks) (page : ℕ) : BitVec 64 :=
  BitVec.ofNat 64 (4096 * page + if s.IsGuardPage page then 0 else pgRw + pgP)

theorem fillEntry_eq (hs : s.Placed) {t : Fill} (haddress : t.pageAddress = 4096 * page)
    (hguard : NextGuard s (4096 * page) t.guardPage) (pages index : ℕ) :
    (fillEntry s pages t index).mem =
        Function.update t.mem (pages / 8 + index) (pageEntry s page) ∧
      (fillEntry s pages t index).pageAddress = 4096 * (page + 1) ∧
      NextGuard s (4096 * (page + 1)) (fillEntry s pages t index).guardPage := by
  have hnext := hguard.next hs
  have heq := hguard.eq_iff hs
  unfold fillEntry pageEntry
  rw [haddress]
  by_cases hpage : 4096 * page = t.guardPage
  · rw [if_pos hpage] at hnext ⊢
    rw [if_pos (heq.1 hpage)]
    exact ⟨rfl, rfl, hnext⟩
  · rw [if_neg hpage] at hnext ⊢
    rw [if_neg fun h ↦ hpage (heq.2 h)]
    exact ⟨rfl, rfl, hnext⟩

/-- **The entries of one table.** -/
theorem fillTable_eq (hs : s.Placed) (m : Words) (hguard : NextGuard s (4096 * page) g) (q : ℕ) :
    ∃ t, (List.range 512).foldl (fillEntry s (4096 * q)) ⟨m, g, 4096 * page⟩ = t ∧
      t.mem = fillWords m (512 * q) 512 (fun index ↦ pageEntry s (page + index)) ∧
      NextGuard s (4096 * (page + 512)) t.guardPage := by
  have hall := foldl_range_invariant (f := fillEntry s (4096 * q)) (n := 512)
    (s := (⟨m, g, 4096 * page⟩ : Fill))
    (P := fun k (t : Fill) ↦
      t.mem = fillWords m (512 * q) k (fun index ↦ pageEntry s (page + index)) ∧
        t.pageAddress = 4096 * (page + k) ∧ NextGuard s (4096 * (page + k)) t.guardPage)
    ⟨rfl, rfl, hguard⟩ ?_
  · exact ⟨_, rfl, hall.1, hall.2.2⟩
  · rintro k - t ⟨hmem, haddress, hnext⟩
    obtain ⟨hmem', haddress', hnext'⟩ := fillEntry_eq hs haddress hnext (4096 * q) k
    refine ⟨?_, haddress', hnext'⟩
    rw [hmem', hmem, fillWords, fillWords, List.range_succ, List.foldl_append, List.foldl_cons,
      List.foldl_nil, show 4096 * q / 8 = 512 * q by omega]

/-! ### The whole table -/

/-- The numbers of the first and of the last region that hold a guard page. -/
def SmmStacks.lowRegion (s : SmmStacks) : ℕ := (s.mSmmStackArrayBase + 4096) / 2 ^ 21

@[inherit_doc SmmStacks.lowRegion]
def SmmStacks.highRegion (s : SmmStacks) : ℕ :=
  (s.mSmmStackArrayEnd - s.mSmmStackSize + 4096 * 2) / 2 ^ 21

theorem SmmStacks.Placed.lowRegion_le (hs : s.Placed) : s.lowRegion ≤ s.highRegion := by
  have hsize := hs.size_le
  have hge := s.mSmmStackSize_ge
  refine Nat.div_le_div_right ?_
  unfold mSmmStackArrayEnd
  omega

theorem SmmStacks.Placed.highRegion_lt (hs : s.Placed) : s.highRegion < 2048 := by
  have hsize := hs.size_le
  have hge := s.mSmmStackSize_ge
  have hbelow := hs.below4G
  unfold highRegion mSmmStackArrayEnd
  omega

theorem SmmStacks.Placed.pagesNeeded_eq (hs : s.Placed) :
    s.pagesNeeded = s.highRegion - s.lowRegion + 1 := by
  have hle := hs.lowRegion_le
  unfold pagesNeeded low2MBoundary high2MBoundary
  unfold lowRegion highRegion at hle ⊢
  omega

/-- The directory entry of a region that is mapped as a large page. -/
def largeEntry (region : ℕ) : BitVec 64 := BitVec.ofNat 64 (region * 2 ^ 21 + pgPs + pgRw + pgP)

/-- An entry that leads to the table in a page. -/
def linkEntry (q : ℕ) : BitVec 64 := BitVec.ofNat 64 (4096 * q + (pgRw + pgP))

/-- The page table in the pages from `p` on, with `r` regions split. -/
structure Table (s : SmmStacks) (p r : ℕ) (m : Words) : Prop where
  pointer : ∀ k < 4, m (512 * p + k) = BitVec.ofNat 64 (4096 * (p + k + 1) + pgP)
  directory : ∀ region < 2048, m (512 * (p + 1) + region) =
    if s.lowRegion ≤ region ∧ region < s.lowRegion + r then
      linkEntry (p + 5 + (region - s.lowRegion))
    else largeEntry region
  table : ∀ j < r, ∀ i < 512,
    m (512 * (p + 5 + j) + i) = pageEntry s (512 * (s.lowRegion + j) + i)

/-- A region more is split: its directory entry and the page of its table are written. -/
theorem Table.split (ht : Table s p r m) (hregion : region = s.lowRegion + r)
    (hlt : region < 2048) :
    Table s p (r + 1)
      (fillWords (Function.update m (512 * (p + 1) + region) (linkEntry (p + 5 + r)))
        (512 * (p + 5 + r)) 512 fun index ↦ pageEntry s (512 * region + index)) := by
  refine ⟨fun k hk ↦ ?_, fun region' hlt' ↦ ?_, fun j hj i hi ↦ ?_⟩
  · rw [fillWords_of_not _ _ (by omega), Function.update_of_ne (by omega)]
    exact ht.pointer k hk
  · rw [fillWords_of_not _ _ (by omega)]
    by_cases heq : region' = region
    · subst heq
      rw [Function.update_self, if_pos (by omega)]
      exact congrArg linkEntry (by omega)
    · rw [Function.update_of_ne (by omega), ht.directory region' hlt']
      by_cases hin : s.lowRegion ≤ region' ∧ region' < s.lowRegion + r
      · rw [if_pos hin, if_pos (by omega)]
      · rw [if_neg hin, if_neg (by omega)]
  · rcases Nat.lt_succ_iff_lt_or_eq.1 hj with hlt' | rfl
    · rw [fillWords_of_not _ _ (by omega), Function.update_of_ne (by omega)]
      exact ht.table j hlt' i hi
    · rw [fillWords_add _ _ _ hi, hregion]

/-- The walk of `Gen4GPageTable` to the directory entry of a region. -/
theorem Table.pointer_eq (ht : Table s p r m) (hp : p + 5 < 2 ^ 40) (hlt : region < 2048) :
    (m (4096 * p / 8 + bitFieldRead32 (4096 * (512 * region)) 30 31)).toNat / 4096 * 4096 / 8
      + bitFieldRead32 (4096 * (512 * region)) 21 29 = 512 * (p + 1) + region := by
  have hk : bitFieldRead32 (4096 * (512 * region)) 30 31 = region / 512 := by
    unfold bitFieldRead32
    omega
  have hd : bitFieldRead32 (4096 * (512 * region)) 21 29 = region % 512 := by
    unfold bitFieldRead32
    omega
  rw [hk, hd, show 4096 * p / 8 = 512 * p by omega, ht.pointer _ (by omega), BitVec.toNat_ofNat]
  unfold pgP
  omega

theorem splitRegion_eq {pageTable pageIndex : ℕ} {t : Split} {filled : Fill}
    (h : (List.range 512).foldl (fillEntry s t.pages)
      ⟨Function.update t.mem
        ((t.mem (pageTable / 8 + bitFieldRead32 pageIndex 30 31)).toNat / 4096 * 4096 / 8
          + bitFieldRead32 pageIndex 21 29) (BitVec.ofNat 64 (t.pages + pgRw + pgP)),
        t.guardPage, pageIndex⟩ = filled) :
    splitRegion s pageTable t pageIndex = ⟨filled.mem, filled.guardPage, t.pages + 4096⟩ := by
  subst h
  rfl

/-- **One region**, the next one. -/
theorem splitRegion_table (hs : s.Placed) (hp : p + 5 + r < 2 ^ 40)
    (hr : s.lowRegion + r ≤ s.highRegion) {t : Split} (hpages : t.pages = 4096 * (p + 5 + r))
    (hguard : NextGuard s (4096 * (512 * (s.lowRegion + r))) t.guardPage)
    (ht : Table s p r t.mem) :
    ∃ t', splitRegion s (4096 * p) t (s.low2MBoundary + r * 2 ^ 21) = t' ∧
      t'.pages = 4096 * (p + 5 + (r + 1)) ∧
      NextGuard s (4096 * (512 * (s.lowRegion + (r + 1)))) t'.guardPage ∧
      Table s p (r + 1) t'.mem := by
  obtain ⟨region, hregion⟩ : ∃ v, v = s.lowRegion + r := ⟨_, rfl⟩
  have hlt : region < 2048 := (hregion.trans_le hr).trans_lt hs.highRegion_lt
  have hindex : s.low2MBoundary + r * 2 ^ 21 = 4096 * (512 * region) := by
    rw [hregion]
    unfold low2MBoundary lowRegion
    omega
  have hlink : BitVec.ofNat 64 (t.pages + pgRw + pgP) = linkEntry (p + 5 + r) := by
    rw [hpages, linkEntry, Nat.add_assoc _ pgRw pgP]
  rw [← hregion] at hguard
  obtain ⟨filled, hfilled, hmem, hnext⟩ := fillTable_eq hs
    (Function.update t.mem (512 * (p + 1) + region) (linkEntry (p + 5 + r))) hguard (p + 5 + r)
  rw [← hpages, ← hlink, ← ht.pointer_eq (by omega) hlt] at hfilled
  refine ⟨_, (congrArg _ hindex).trans (splitRegion_eq hfilled), ?_, ?_, ?_⟩
  · dsimp only
    omega
  · have hpage : 512 * (s.lowRegion + (r + 1)) = 512 * region + 512 := by omega
    rw [hpage]
    exact hnext
  · dsimp only
    rw [hmem]
    exact ht.split hregion hlt

/-- The number of regions that are split. -/
def splitCount (stackGuard : Bool) (s : SmmStacks) : ℕ := if stackGuard then s.pagesNeeded else 0

theorem fillDirectories_table (s : SmmStacks) (p : ℕ) (m : Words) :
    Table s p 0 (fillDirectories (4096 * p) m) := by
  unfold fillDirectories
  rw [show 4096 * p / 8 = 512 * p by omega]
  refine ⟨fun k hk ↦ ?_, fun region hlt ↦ ?_, fun j hj ↦ absurd hj (Nat.not_lt_zero j)⟩
  · rw [fillWords_of_not _ _ (by omega), fillWords_add _ _ _ hk]
    exact congrArg (BitVec.ofNat 64) (by omega)
  · rw [if_neg (by omega), show 512 * (p + 1) + region = 512 * p + 512 + region by omega,
      fillWords_add _ _ _ hlt, largeEntry]

/-- **The table that is built.** -/
theorem gen4GPageTable_table {stackGuard : Bool} (hs : stackGuard = true → s.Placed)
    (hp : p + 5 + splitCount stackGuard s ≤ 2 ^ 20) (m : Words) :
    Table s p (splitCount stackGuard s) (gen4GPageTable stackGuard s (4096 * p) m) := by
  cases stackGuard with
  | false => exact fillDirectories_table s p m
  | true =>
    replace hs := hs rfl
    have hcount : splitCount true s = s.pagesNeeded := rfl
    have hneeded := hs.pagesNeeded_eq
    have hle := hs.lowRegion_le
    have hrounds : (s.high2MBoundary + 2 ^ 21 - s.low2MBoundary) / 2 ^ 21 = s.pagesNeeded := by
      unfold low2MBoundary high2MBoundary
      unfold lowRegion highRegion at hle hneeded
      omega
    rw [hcount] at hp ⊢
    have hbase := fillDirectories_table s p m
    unfold gen4GPageTable
    dsimp only
    rw [if_pos rfl, hrounds]
    generalize fillDirectories (4096 * p) m = directories at hbase ⊢
    have hpages : 4096 * p + 4096 * 5 = 4096 * (p + 5 + 0) := by omega
    have hstart : NextGuard s (4096 * (512 * (s.lowRegion + 0))) (s.mSmmStackArrayBase + 4096) :=
      nextGuard_start hs (by unfold lowRegion; omega)
    have hall := foldl_range_invariant (n := s.pagesNeeded)
      (f := fun t round ↦ splitRegion s (4096 * p) t (s.low2MBoundary + round * 2 ^ 21))
      (s := (⟨directories, s.mSmmStackArrayBase + 4096, 4096 * p + 4096 * 5⟩ : Split))
      (P := fun k (t : Split) ↦ t.pages = 4096 * (p + 5 + k) ∧
        NextGuard s (4096 * (512 * (s.lowRegion + k))) t.guardPage ∧ Table s p k t.mem)
      ⟨hpages, hstart, hbase⟩ ?_
    · exact hall.2.2
    · rintro k hk t ⟨hpages, hguard, htable⟩
      obtain ⟨t', heq, hnext⟩ := splitRegion_table hs (by omega) (by omega) hpages hguard htable
      rw [heq]
      exact hnext

/-! ### The walk through the table -/

theorem frameOf_ofNat {q f : ℕ} (hq : q < 2 ^ 40) (hf : f < 4096) :
    frameOf (BitVec.ofNat 64 (4096 * q + f)) = q := by
  rw [frameOf, BitVec.toNat_ofNat]
  omega

theorem getLsbD_ofNat {q f i : ℕ} (hf : f < 4096) (hi : i < 12) :
    (BitVec.ofNat 64 (4096 * q + f)).getLsbD i = f.testBit i := by
  rw [BitVec.getLsbD_ofNat, decide_eq_true (show i < 64 by omega), Bool.true_and]
  exact (Nat.testBit_two_pow_mul_add q (i := 12) hf i).trans (if_pos hi)

/-- What the walk finds in the tables: the directory pointers may have other bits set. -/
structure Mapped (s : SmmStacks) (p r : ℕ) (m : Words) : Prop where
  frame : ∀ k < 4, frameOf (m (512 * p + k)) = p + 1 + k
  present : ∀ k < 4, (m (512 * p + k)).getLsbD 0 = true
  directory : ∀ region < 2048, m (512 * (p + 1) + region) =
    if s.lowRegion ≤ region ∧ region < s.lowRegion + r then
      linkEntry (p + 5 + (region - s.lowRegion))
    else largeEntry region
  table : ∀ j < r, ∀ i < 512,
    m (512 * (p + 5 + j) + i) = pageEntry s (512 * (s.lowRegion + j) + i)

theorem Table.mapped (ht : Table s p r m) (hp : p + 5 ≤ 2 ^ 20) : Mapped s p r m := by
  refine ⟨fun k hk ↦ ?_, fun k hk ↦ ?_, ht.directory, ht.table⟩
  · rw [ht.pointer k hk, frameOf_ofNat (by omega) (by decide)]
    omega
  · rw [ht.pointer k hk, getLsbD_ofNat (by decide) (by decide)]
    decide

/-- The directory entry that the walk reads. -/
theorem Mapped.directory_index (ht : Mapped s p r m) (hpage : page < 2 ^ 20) :
    512 * frameOf (m (512 * p + page / 2 ^ 18)) + page / 512 % 512
      = 512 * (p + 1) + page / 512 := by
  rw [ht.frame _ (by omega)]
  omega

/-- What the walk finds for a page that is mapped to itself. -/
def mapped (guard : Bool) (page : ℕ) : Translation where
  present := !guard
  frame := page
  writable := !guard
  pat := false
  cd := false
  wt := false

/-- **A page of a region that is split.** -/
theorem Mapped.translate_of_split (ht : Mapped s p r m) (hp : p + 5 + r ≤ 2 ^ 20)
    (hpage : page < 2 ^ 20) (hlow : s.lowRegion ≤ page / 512)
    (hhigh : page / 512 < s.lowRegion + r) :
    translate m p page = mapped (s.IsGuardPage page) page := by
  have hpresent := ht.present (page / 2 ^ 18) (by omega)
  have hindex := ht.directory_index hpage
  have hpde : m (512 * (p + 1) + page / 512) = linkEntry (p + 5 + (page / 512 - s.lowRegion)) := by
    rw [ht.directory _ (by omega), if_pos ⟨hlow, hhigh⟩]
  have hpte : m (512 * (p + 5 + (page / 512 - s.lowRegion)) + page % 512) = pageEntry s page := by
    rw [ht.table _ (by omega) _ (Nat.mod_lt _ (by decide)), Nat.add_sub_cancel' hlow,
      Nat.div_add_mod]
  have hbit : ∀ i < 12, (linkEntry (p + 5 + (page / 512 - s.lowRegion))).getLsbD i
      = (pgRw + pgP).testBit i := fun i hi ↦ getLsbD_ofNat (by decide) hi
  have hframe : frameOf (linkEntry (p + 5 + (page / 512 - s.lowRegion)))
      = p + 5 + (page / 512 - s.lowRegion) := frameOf_ofNat (by omega) (by decide)
  have hsmall : (linkEntry (p + 5 + (page / 512 - s.lowRegion))).getLsbD 7 = false :=
    (hbit 7 (by decide)).trans (by decide)
  unfold translate
  dsimp only
  rw [hindex, hpde, hsmall, if_neg Bool.false_ne_true, hframe, hpte, translateSmall, hpresent,
    hbit 0 (by decide), hbit 1 (by decide)]
  have hflags : (if s.IsGuardPage page then 0 else pgRw + pgP) < 4096 := by
    split <;> decide
  rw [pageEntry, frameOf_ofNat (by omega) hflags, getLsbD_ofNat hflags (by decide),
    getLsbD_ofNat hflags (by decide), getLsbD_ofNat hflags (by decide),
    getLsbD_ofNat hflags (by decide), getLsbD_ofNat hflags (by decide)]
  by_cases hguard : s.IsGuardPage page
  · rw [if_pos hguard, decide_eq_true hguard]
    rfl
  · rw [if_neg hguard, decide_eq_false hguard]
    rfl

/-- **A page of a large page.** -/
theorem Mapped.translate_of_large (ht : Mapped s p r m) (hpage : page < 2 ^ 20)
    (hout : ¬ (s.lowRegion ≤ page / 512 ∧ page / 512 < s.lowRegion + r)) :
    translate m p page = mapped false page := by
  have hpresent := ht.present (page / 2 ^ 18) (by omega)
  have hindex := ht.directory_index hpage
  have hpde : m (512 * (p + 1) + page / 512)
      = BitVec.ofNat 64 (4096 * (512 * (page / 512)) + (pgPs + pgRw + pgP)) := by
    rw [ht.directory _ (by omega), if_neg hout, largeEntry]
    exact congrArg (BitVec.ofNat 64) (by omega)
  have hflags : pgPs + pgRw + pgP < 4096 := by decide
  have hpat : (BitVec.ofNat 64 (4096 * (512 * (page / 512)) + (pgPs + pgRw + pgP))).getLsbD 12
      = false := by
    rw [BitVec.getLsbD_ofNat, Nat.testBit_eq_decide_div_mod_eq]
    unfold pgPs pgRw pgP
    simp only [Nat.reduceLT, decide_true, Bool.true_and, decide_eq_false_iff_not]
    omega
  unfold translate
  dsimp only
  rw [hindex, hpde, getLsbD_ofNat hflags (by decide), if_pos (by decide), translateLarge, hpresent,
    hpat, frameOf_ofNat (by omega) hflags, getLsbD_ofNat hflags (by decide),
    getLsbD_ofNat hflags (by decide), getLsbD_ofNat hflags (by decide),
    getLsbD_ofNat hflags (by decide)]
  have hframe : 512 * (page / 512) / 512 * 512 + page % 512 = page := by omega
  rw [hframe]
  rfl

/-- A guard page lies in a region that is split. -/
theorem SmmStacks.Placed.region_of_isGuardPage (hs : s.Placed) (h : s.IsGuardPage page) :
    s.lowRegion ≤ page / 512 ∧ page / 512 < s.lowRegion + s.pagesNeeded := by
  obtain ⟨i, hi, heq⟩ := h
  have hmul : (i + 1) * s.mSmmStackSize ≤ s.numberOfCpus * s.mSmmStackSize :=
    Nat.mul_le_mul_right _ hi
  rw [Nat.succ_mul] at hmul
  have hsize := s.mSmmStackSize_ge
  rw [hs.pagesNeeded_eq, ← Nat.add_assoc, Nat.add_sub_cancel' hs.lowRegion_le]
  unfold guardAddress at heq
  unfold lowRegion highRegion mSmmStackArrayEnd
  omega

/-- **Stack guard placement.** The first 4 GB are mapped to themselves; a page is present, and
then writable, unless it is the guard page of a processor. -/
theorem gen4GPageTable_stackGuard (s : SmmStacks) (hs : s.Placed) (p : ℕ)
    (hp : p + 5 + s.pagesNeeded ≤ 2 ^ 20) (m : Words) {page : ℕ} (hpage : page < 2 ^ 20) :
    (translate (gen4GPageTable true s (4096 * p) m) p page).frame = page ∧
      ((translate (gen4GPageTable true s (4096 * p) m) p page).present = true ↔
        ¬ s.IsGuardPage page) ∧
      ((translate (gen4GPageTable true s (4096 * p) m) p page).present = true →
        (translate (gen4GPageTable true s (4096 * p) m) p page).writable = true) := by
  have hplaced : true = true → s.Placed := fun _ ↦ hs
  have htable := (gen4GPageTable_table hplaced hp m).mapped (by omega)
  have heq : translate (gen4GPageTable true s (4096 * p) m) p page
      = mapped (s.IsGuardPage page) page := by
    by_cases hin : s.lowRegion ≤ page / 512 ∧ page / 512 < s.lowRegion + s.pagesNeeded
    · exact htable.translate_of_split hp hpage hin.1 hin.2
    · rw [htable.translate_of_large hpage hin,
        decide_eq_false fun h ↦ hin (hs.region_of_isGuardPage h)]
  rw [heq]
  refine ⟨rfl, ?_, id⟩
  simp only [mapped, Bool.not_eq_true', decide_eq_false_iff_not]

/-- Two processors with stacks of 64 KB, across a boundary of 2 MB. -/
def twoStacks : SmmStacks := ⟨0x7FEF000, 0x10000, 2⟩

theorem gen4GPageTable_stackGuard_twoStacks :
    (translate (gen4GPageTable true twoStacks 0x7000000 fun _ ↦ 0) 0x7000 0x8002).frame = 0x8002 ∧
      ((translate (gen4GPageTable true twoStacks 0x7000000 fun _ ↦ 0) 0x7000 0x8002).present = true
        ↔ ¬ twoStacks.IsGuardPage 0x8002) ∧
      ((translate (gen4GPageTable true twoStacks 0x7000000 fun _ ↦ 0) 0x7000 0x8002).present = true
        → (translate (gen4GPageTable true twoStacks 0x7000000 fun _ ↦ 0) 0x7000 0x8002).writable
          = true) :=
  gen4GPageTable_stackGuard twoStacks ⟨by decide, by decide, by decide⟩ 0x7000 (by decide) _
    (by decide)

example : twoStacks.IsGuardPage 0x7FF0 ∧ twoStacks.IsGuardPage 0x8002 := by decide

end PurleyFirmware.PaeTable
