import PurleyFirmware.Foundation.BitField
import PurleyFirmware.Smm.StackGuard

/-!
# Changing the cacheability of one page

`SetCacheability` of `MpService.c`, on the tables that `SmmInitPageTable` returns. An entry for 2 MB
is broken into a table of 4 KB pages first. The entries of that table are copies of it, with PAT
moved from bit 12 to bit 7, but bit 7 is also PS in a directory entry and is copied with the rest;
the new directory entry has the present bit only.

So a page of a region that was split before is the only one that changes, and a region that is
split here gets PAT set in all its other pages (`setCacheability_local_iff`).
-/

namespace PurleyFirmware.PaeTable

variable {s : SmmStacks} {m : Words} {p r root page n bits : ℕ} {e e' : BitVec 64}

/-! ### The tables that are passed -/

/-- `IA32_PG_PMNT`. -/
def pgPmnt : BitVec 64 := BitVec.ofNat 64 (2 ^ 62)

/-- `SmmInitPageTable` with `pages` the address that is returned. In the 64-bit build there is a
page-map level-4 table in front, with the page pool of `PAGE_TABLE_PAGES` pages between. -/
def smmInitPageTable (uintn64 stackGuard : Bool) (s : SmmStacks) (pages : ℕ) (m : Words) : Words :=
  if uintn64 then
    let pdpt := pages + 4096 * 9
    let table := gen4GPageTable stackGuard s pdpt m
    let masked := fillWords table (pdpt / 8) 4 fun index ↦ table (pdpt / 8 + index) ||| pgPmnt
    let cleared := fillWords masked (pages / 8) 512 fun _ ↦ 0#64
    Function.update cleared (pages / 8)
      (bitFieldWrite (BitVec.ofNat 64 (pdpt + pgP)) 52 60 (BitVec.ofNat 64 3))
  else gen4GPageTable stackGuard s pages m

/-- The page of the directory pointers, from the one that is returned. -/
def pdptPage (uintn64 : Bool) (root : ℕ) : ℕ := if uintn64 then root + 9 else root

/-- `gPhyMask` of a processor with addresses of so many bits. -/
def gPhyMask (physicalAddressBits : ℕ) : BitVec 64 :=
  BitVec.ofNat 64 (2 ^ physicalAddressBits - 1) &&& BitVec.ofNat 64 (2 ^ 48 - 4096)

/-! ### `SetCacheability` -/

/-- `IA32_PG_PAT_2M`. -/
def pgPat2M : BitVec 64 := 0x1000#64

/-- `IA32_PG_PAT_4K`. -/
def pgPat4K : BitVec 64 := 0x80#64

/-- `IA32_PG_PAT_4K | IA32_PG_CD | IA32_PG_WT`. -/
def pgMemoryType : BitVec 64 := 0x98#64

/-- `NewPageTable[Index]`, from the directory entry. -/
def splitEntry (entry : BitVec 64) (index : ℕ) : BitVec 64 :=
  (if entry &&& pgPat2M ≠ 0 then (entry &&& ~~~pgPat2M) ||| pgPat4K else entry) |||
    BitVec.ofNat 64 (index * 4096)

/-- The directory entry for 2 MB at the word `entry` is broken into pages. The new table is not a
page in use, so the entry is the same in every turn of the loop. -/
def splitLarge (mask : BitVec 64) (newPageTable entry : ℕ) (m : Words) : Words :=
  if m entry &&& BitVec.ofNat 64 pgPs ≠ 0 then
    Function.update (fillWords m (newPageTable / 8) 512 (splitEntry (m entry))) entry
      ((BitVec.ofNat 64 newPageTable &&& mask) ||| BitVec.ofNat 64 pgP)
  else m

/-- `SetCacheability`, with the page that `AllocatePages` returns at `newPageTable`. -/
def setCacheability (uintn64 : Bool) (mask : BitVec 64) (newPageTable pageTable address : ℕ)
    (cacheability : BitVec 8) (m : Words) : Words :=
  let pdpt :=
    if uintn64 then (m (pageTable / 8 + address / 2 ^ 39 % 512) &&& mask).toNat else pageTable
  let directory := (m (pdpt / 8 + address / 2 ^ 30 % 512) &&& mask).toNat
  let entry := directory / 8 + address / 2 ^ 21 % 512
  let m' := splitLarge mask newPageTable entry m
  let leaf := (m' entry &&& mask).toNat / 8 + address / 2 ^ 12 % 512
  Function.update m' leaf ((m' leaf &&& ~~~pgMemoryType) ||| cacheability.setWidth 64)

/-- The page has the cacheability, and the others are translated as before. -/
def SetsLocally (m m' : Words) (pdpt page : ℕ) (cacheability : BitVec 8) : Prop :=
  ((translate m' pdpt page).pat = cacheability.getLsbD 7 ∧
    (translate m' pdpt page).cd = cacheability.getLsbD 4 ∧
    (translate m' pdpt page).wt = cacheability.getLsbD 3) ∧
  ∀ other < 2 ^ 20, other ≠ page → translate m' pdpt other = translate m pdpt other

/-! ### Addresses in entries -/

theorem testBit_frameOf (e : BitVec 64) (j : ℕ) :
    (frameOf e).testBit j = (decide (j < 40) && e.getLsbD (j + 12)) := by
  rw [frameOf, Nat.testBit_mod_two_pow, show 4096 = 2 ^ 12 from rfl, Nat.testBit_div_two_pow]
  rfl

theorem frameOf_congr (h : ∀ i, 12 ≤ i → i < 52 → e.getLsbD i = e'.getLsbD i) :
    frameOf e = frameOf e' := by
  refine Nat.eq_of_testBit_eq fun j ↦ ?_
  rw [testBit_frameOf, testBit_frameOf]
  by_cases hj : j < 40
  · rw [h _ (by omega) (by omega)]
  · rw [decide_eq_false hj, Bool.false_and, Bool.false_and]

theorem getLsbD_gPhyMask (bits : ℕ) {i : ℕ} (hi : i < 64) :
    (gPhyMask bits).getLsbD i = decide (i < bits ∧ 12 ≤ i ∧ i < 48) := by
  have hmul : 2 ^ 48 - 4096 = 2 ^ 12 * (2 ^ 36 - 1) := by decide
  rw [gPhyMask, BitVec.getLsbD_and, BitVec.getLsbD_ofNat, BitVec.getLsbD_ofNat,
    Nat.testBit_two_pow_sub_one, hmul, Nat.testBit_two_pow_mul, Nat.testBit_two_pow_sub_one]
  grind

/-- What `Entry & gPhyMask` is for a page below 4 GB. -/
theorem toNat_and_gPhyMask (hbits : 32 ≤ bits) (hframe : frameOf e < 2 ^ 20) :
    (e &&& gPhyMask bits).toNat = 4096 * frameOf e := by
  refine Nat.eq_of_testBit_eq fun i ↦ ?_
  have hmul := Nat.testBit_two_pow_mul (a := frameOf e) (i := 12) (j := i)
  have hframe' : i - 12 ≥ 20 → (frameOf e).testBit (i - 12) = false := fun hge ↦
    Nat.testBit_lt_two_pow (hframe.trans_le (Nat.pow_le_pow_right (by decide) hge))
  rw [show 4096 = 2 ^ 12 from rfl, hmul, BitVec.testBit_toNat, BitVec.getLsbD_and]
  rw [testBit_frameOf] at hframe' ⊢
  by_cases hi : i < 64
  · rw [getLsbD_gPhyMask _ hi]
    by_cases hge : 12 ≤ i
    · rw [show i - 12 + 12 = i by omega] at hframe' ⊢
      grind
    · grind
  · rw [BitVec.getLsbD_of_ge e i (by omega), BitVec.getLsbD_of_ge e _ (by omega)]
    simp

/-! ### `SmmInitPageTable` -/

theorem frameOf_or_pgPmnt (e : BitVec 64) : frameOf (e ||| pgPmnt) = frameOf e := by
  refine frameOf_congr fun i _ hi ↦ ?_
  rw [BitVec.getLsbD_or, pgPmnt, BitVec.getLsbD_ofNat, Nat.testBit_two_pow]
  grind

theorem frameOf_subEntries (e value : BitVec 64) : frameOf (bitFieldWrite e 52 60 value) = frameOf e :=
  frameOf_congr fun i _ hi ↦ by
    rw [getLsbD_bitFieldWrite _ _ (by omega), if_neg (by omega)]

/-- The tables in memory, with the first entry of the level-4 table when there is one. -/
structure Rooted (uintn64 : Bool) (s : SmmStacks) (root r : ℕ) (m : Words) : Prop where
  mapped : Mapped s (pdptPage uintn64 root) r m
  root_eq : uintn64 = true → frameOf (m (512 * root)) = pdptPage uintn64 root

theorem smmInitPageTable_rooted {uintn64 stackGuard : Bool} (hs : stackGuard = true → s.Placed)
    (hp : pdptPage uintn64 root + 5 + splitCount stackGuard s ≤ 2 ^ 20) (m : Words) :
    Rooted uintn64 s root (splitCount stackGuard s)
      (smmInitPageTable uintn64 stackGuard s (4096 * root) m) := by
  cases uintn64 with
  | false => exact ⟨(gen4GPageTable_table hs hp m).mapped (Nat.le_of_add_right_le hp),
    fun h ↦ absurd h Bool.false_ne_true⟩
  | true =>
    have ht := (gen4GPageTable_table hs hp m).mapped (Nat.le_of_add_right_le hp)
    have hpdpt : pdptPage true root = root + 9 := rfl
    rw [hpdpt] at ht hp
    have haddress : 4096 * root + 4096 * 9 = 4096 * (root + 9) := by omega
    have hword : 4096 * root / 8 = 512 * root := by omega
    have hword' : 4096 * (root + 9) / 8 = 512 * (root + 9) := by omega
    unfold smmInitPageTable
    dsimp only
    rw [if_pos rfl, haddress, hword, hword']
    generalize gen4GPageTable stackGuard s (4096 * (root + 9)) m = table at ht ⊢
    have hpointer : ∀ k < 4, Function.update (fillWords (fillWords table (512 * (root + 9)) 4
        fun index ↦ table (512 * (root + 9) + index) ||| pgPmnt) (512 * root) 512 fun _ ↦ 0#64)
        (512 * root)
        (bitFieldWrite (BitVec.ofNat 64 (4096 * (root + 9) + pgP)) 52 60 (BitVec.ofNat 64 3))
        (512 * (root + 9) + k) = table (512 * (root + 9) + k) ||| pgPmnt := by
      intro k hk
      rw [Function.update_of_ne (by omega), fillWords_of_not _ _ (by omega), fillWords_add _ _ _ hk]
    refine ⟨⟨fun k hk ↦ ?_, fun k hk ↦ ?_, fun region hlt ↦ ?_, fun j hj i hi ↦ ?_⟩, fun _ ↦ ?_⟩
    · rw [hpdpt, hpointer k hk, frameOf_or_pgPmnt]
      exact ht.frame k hk
    · rw [hpdpt, hpointer k hk, BitVec.getLsbD_or, ht.present k hk, Bool.true_or]
    · rw [hpdpt, Function.update_of_ne (by omega), fillWords_of_not _ _ (by omega),
        fillWords_of_not _ _ (by omega)]
      exact ht.directory region hlt
    · rw [hpdpt, Function.update_of_ne (by omega), fillWords_of_not _ _ (by omega),
        fillWords_of_not _ _ (by omega)]
      exact ht.table j hj i hi
    · rw [Function.update_self, frameOf_subEntries, frameOf_ofNat (by omega) (by decide), hpdpt]

/-! ### The two cases of `SetCacheability` -/

theorem and_pgPs_ne_zero_iff (e : BitVec 64) :
    e &&& BitVec.ofNat 64 pgPs ≠ 0 ↔ e.getLsbD 7 = true := by
  have htwo : BitVec.ofNat 64 pgPs = BitVec.twoPow 64 7 := by decide
  rw [htwo, BitVec.and_twoPow]
  cases e.getLsbD 7 <;> decide

/-- The walk to the entry that is changed, once the directory entry leads to the table `q`. -/
theorem setCacheability_eq {uintn64 : Bool} (hr : Rooted uintn64 s root r m) (hbits : 32 ≤ bits)
    (hp : pdptPage uintn64 root + 5 ≤ 2 ^ 20) (hpage : page < 2 ^ 20) {m' : Words} {q : ℕ}
    (hsplit : splitLarge (gPhyMask bits) (4096 * n)
      (512 * (pdptPage uintn64 root + 1) + page / 512) m = m')
    (hframe : frameOf (m' (512 * (pdptPage uintn64 root + 1) + page / 512)) = q) (hq : q < 2 ^ 20)
    (c : BitVec 8) :
    setCacheability uintn64 (gPhyMask bits) (4096 * n) (4096 * root) (4096 * page) c m =
      Function.update m' (512 * q + page % 512)
        ((m' (512 * q + page % 512) &&& ~~~pgMemoryType) ||| c.setWidth 64) := by
  have hpdpt : (if uintn64 then (m (4096 * root / 8 + 4096 * page / 2 ^ 39 % 512)
      &&& gPhyMask bits).toNat else 4096 * root) = 4096 * pdptPage uintn64 root := by
    cases uintn64 with
    | false => rfl
    | true =>
      have hroot := hr.root_eq rfl
      rw [if_pos rfl, show 4096 * root / 8 + 4096 * page / 2 ^ 39 % 512 = 512 * root by omega,
        toNat_and_gPhyMask hbits (by omega), hroot]
  have hdirectory : (m (4096 * pdptPage uintn64 root / 8 + 4096 * page / 2 ^ 30 % 512)
      &&& gPhyMask bits).toNat / 8 + 4096 * page / 2 ^ 21 % 512
        = 512 * (pdptPage uintn64 root + 1) + page / 512 := by
    have hk := hr.mapped.frame (page / 2 ^ 18) (by omega)
    rw [show 4096 * pdptPage uintn64 root / 8 + 4096 * page / 2 ^ 30 % 512
      = 512 * pdptPage uintn64 root + page / 2 ^ 18 by omega, toNat_and_gPhyMask hbits (by omega), hk]
    omega
  have hleaf : (m' (512 * (pdptPage uintn64 root + 1) + page / 512) &&& gPhyMask bits).toNat / 8
      + 4096 * page / 2 ^ 12 % 512 = 512 * q + page % 512 := by
    rw [toNat_and_gPhyMask hbits (by omega), hframe]
    omega
  unfold setCacheability
  dsimp only
  rw [hpdpt, hdirectory, hsplit, hleaf]

/-- **A region that is split already.** The entry of the page is the only word that changes. -/
theorem setsLocally_of_split {uintn64 : Bool} (hr : Rooted uintn64 s root r m)
    (hbits : 32 ≤ bits) (hp : pdptPage uintn64 root + 5 + r ≤ 2 ^ 20) (hpage : page < 2 ^ 20)
    (hlow : s.lowRegion ≤ page / 512) (hhigh : page / 512 < s.lowRegion + r) (n : ℕ)
    (c : BitVec 8) :
    SetsLocally m (setCacheability uintn64 (gPhyMask bits) (4096 * n) (4096 * root) (4096 * page) c m)
      (pdptPage uintn64 root) page c := by
  obtain ⟨q, hq⟩ : ∃ q, q = pdptPage uintn64 root + 5 + (page / 512 - s.lowRegion) := ⟨_, rfl⟩
  have hm := hr.mapped
  have hpde : ∀ other, other / 512 = page / 512 →
      m (512 * (pdptPage uintn64 root + 1) + other / 512) = linkEntry q := by
    intro other hsame
    rw [hsame, hm.directory _ (by omega), if_pos ⟨hlow, hhigh⟩, hq]
  have hbit : (linkEntry q).getLsbD 7 = false := getLsbD_ofNat (by decide) (by decide)
  have hframe : frameOf (linkEntry q) = q := frameOf_ofNat (by omega) (by decide)
  have hsplit : splitLarge (gPhyMask bits) (4096 * n)
      (512 * (pdptPage uintn64 root + 1) + page / 512) m = m := by
    rw [splitLarge, hpde page rfl, if_neg fun h ↦ ?_]
    exact absurd ((and_pgPs_ne_zero_iff _).1 h) (hbit ▸ Bool.false_ne_true)
  rw [setCacheability_eq hr hbits (by omega) hpage hsplit (q := q) (by rw [hpde page rfl, hframe])
    (by omega)]
  generalize hleaf : (m (512 * q + page % 512) &&& ~~~pgMemoryType) ||| c.setWidth 64 = leaf
  have hupper : ∀ other < 2 ^ 20,
      Function.update m (512 * q + page % 512) leaf (512 * pdptPage uintn64 root + other / 2 ^ 18)
        = m (512 * pdptPage uintn64 root + other / 2 ^ 18) ∧
      Function.update m (512 * q + page % 512) leaf
        (512 * (pdptPage uintn64 root + 1) + other / 512)
        = m (512 * (pdptPage uintn64 root + 1) + other / 512) := fun other hother ↦
    ⟨Function.update_of_ne (by omega) _ _, Function.update_of_ne (by omega) _ _⟩
  refine ⟨?_, fun other hother hne ↦ ?_⟩
  · have hwalk : translate (Function.update m (512 * q + page % 512) leaf) (pdptPage uintn64 root)
        page = translateSmall (m (512 * pdptPage uintn64 root + page / 2 ^ 18)) (linkEntry q) leaf := by
      unfold translate
      dsimp only
      rw [(hupper page hpage).1, hm.directory_index hpage, (hupper page hpage).2, hpde page rfl,
        hbit, if_neg Bool.false_ne_true, hframe, Function.update_self]
    rw [hwalk, ← hleaf]
    simp only [translateSmall, BitVec.getLsbD_or, BitVec.getLsbD_and, BitVec.getLsbD_not,
      BitVec.getLsbD_setWidth, pgMemoryType]
    simp
  · unfold translate
    dsimp only
    rw [(hupper other hother).1, hm.directory_index hother, (hupper other hother).2]
    split
    · rfl
    · by_cases hsame : other / 512 = page / 512
      · rw [hpde other hsame, hframe, Function.update_of_ne (by omega)]
      · rw [hm.directory _ (by omega)]
        split
        · rw [linkEntry, frameOf_ofNat (by omega) (by decide), Function.update_of_ne (by omega)]
        · rename_i hsmall hout
          refine absurd ?_ hsmall
          rw [hm.directory _ (by omega), if_neg hout, largeEntry]
          have hadd : other / 512 * 2 ^ 21 + pgPs + pgRw + pgP
              = 4096 * (512 * (other / 512)) + (pgPs + pgRw + pgP) := by omega
          rw [hadd, getLsbD_ofNat (by decide) (by decide)]
          decide

/-- The entries of the new table have PS of the directory entry in the place of PAT. -/
theorem getLsbD_splitEntry_largeEntry (region i : ℕ) :
    (splitEntry (largeEntry region) i).getLsbD 7 = true := by
  have hadd : region * 2 ^ 21 + pgPs + pgRw + pgP
      = 4096 * (512 * region) + (pgPs + pgRw + pgP) := by omega
  have hps : (largeEntry region).getLsbD 7 = true := by
    rw [largeEntry, hadd, getLsbD_ofNat (by decide) (by decide)]
    decide
  unfold splitEntry
  split
  · rw [BitVec.getLsbD_or, BitVec.getLsbD_or, show pgPat4K.getLsbD 7 = true by decide, Bool.or_true,
      Bool.true_or]
  · rw [BitVec.getLsbD_or, hps, Bool.true_or]

/-- **A region of one large page.** Another page of it gets PAT. -/
theorem not_setsLocally_of_large {uintn64 : Bool} (hr : Rooted uintn64 s root r m)
    (hbits : 32 ≤ bits) (hp : pdptPage uintn64 root + 5 + r ≤ 2 ^ 20) (hpage : page < 2 ^ 20)
    (hout : ¬ (s.lowRegion ≤ page / 512 ∧ page / 512 < s.lowRegion + r)) (hn : n < 2 ^ 20)
    (hfresh : n < root ∨ pdptPage uintn64 root + 5 + r ≤ n) (c : BitVec 8) :
    ¬ SetsLocally m
      (setCacheability uintn64 (gPhyMask bits) (4096 * n) (4096 * root) (4096 * page) c m)
      (pdptPage uintn64 root) page c := by
  have hm := hr.mapped
  have hroot : root ≤ pdptPage uintn64 root := by
    unfold pdptPage
    split <;> omega
  -- another page of the region
  obtain ⟨other, hne, hsame⟩ : ∃ other, other ≠ page ∧ other / 512 = page / 512 :=
    ⟨page / 512 * 512 + (page % 512 + 1) % 512, by omega, by omega⟩
  have hother : other < 2 ^ 20 := by omega
  obtain ⟨entry, hentry⟩ : ∃ e, e = 512 * (pdptPage uintn64 root + 1) + page / 512 := ⟨_, rfl⟩
  obtain ⟨link, hlink⟩ : ∃ l, l = (BitVec.ofNat 64 (4096 * n) &&& gPhyMask bits)
      ||| BitVec.ofNat 64 pgP := ⟨_, rfl⟩
  have hlarge : m entry = largeEntry (page / 512) := by
    rw [hentry, hm.directory _ (by omega), if_neg hout]
  have hps : m entry &&& BitVec.ofNat 64 pgPs ≠ 0 := by
    have hadd : page / 512 * 2 ^ 21 + pgPs + pgRw + pgP
        = 4096 * (512 * (page / 512)) + (pgPs + pgRw + pgP) := by omega
    rw [and_pgPs_ne_zero_iff, hlarge, largeEntry, hadd, getLsbD_ofNat (by decide) (by decide)]
    decide
  have hsplit : splitLarge (gPhyMask bits) (4096 * n) entry m
      = Function.update (fillWords m (512 * n) 512 (splitEntry (largeEntry (page / 512)))) entry
          link := by
    rw [splitLarge, if_pos hps, hlarge, hlink, show 4096 * n / 8 = 512 * n by omega]
  have hmasked : (BitVec.ofNat 64 (4096 * n) &&& gPhyMask bits).toNat = 4096 * n := by
    have hframe : frameOf (BitVec.ofNat 64 (4096 * n)) = n :=
      frameOf_ofNat (f := 0) (by omega) (by decide)
    exact (toNat_and_gPhyMask hbits (hframe.trans_lt hn)).trans (congrArg _ hframe)
  have hnat : BitVec.ofNat 64 (4096 * n) &&& gPhyMask bits = BitVec.ofNat 64 (4096 * n) := by
    refine BitVec.eq_of_toNat_eq (hmasked.trans ?_)
    rw [BitVec.toNat_ofNat]
    omega
  have hlinkFrame : frameOf link = n := by
    rw [hlink, hnat]
    refine Eq.trans (b := frameOf (BitVec.ofNat 64 (4096 * n))) (frameOf_congr fun i hge hlt ↦ ?_)
      (frameOf_ofNat (f := 0) (by omega) (by decide))
    have hbit : (BitVec.ofNat 64 pgP).getLsbD i = false := by
      rw [show BitVec.ofNat 64 pgP = BitVec.twoPow 64 0 by decide, BitVec.getLsbD_twoPow,
        decide_eq_false (show ¬ 0 = i by omega), Bool.and_false]
    rw [BitVec.getLsbD_or, hbit, Bool.or_false]
  have hlinkPs : link.getLsbD 7 = false := by
    have hbit : (BitVec.ofNat 64 (4096 * n)).getLsbD 7 = (0 : ℕ).testBit 7 :=
      getLsbD_ofNat (q := n) (f := 0) (by decide) (by decide)
    rw [hlink, hnat, BitVec.getLsbD_or, hbit]
    decide
  rw [setCacheability_eq hr hbits (by omega) hpage (hentry ▸ hsplit) (q := n)
    (by rw [← hentry, Function.update_self, hlinkFrame]) hn]
  generalize hafter : Function.update _ (512 * n + page % 512) _ = after
  have hpointer : after (512 * pdptPage uintn64 root + other / 2 ^ 18)
      = m (512 * pdptPage uintn64 root + other / 2 ^ 18) := by
    rw [← hafter, Function.update_of_ne (by omega), Function.update_of_ne (by omega),
      fillWords_of_not _ _ (by omega)]
  have hpde : after entry = link := by
    rw [← hafter, ← hentry, Function.update_of_ne (by omega), Function.update_self]
  have hpte : after (512 * n + other % 512)
      = splitEntry (largeEntry (page / 512)) (other % 512) := by
    rw [← hafter, Function.update_of_ne (by omega), Function.update_of_ne (by omega),
      fillWords_add _ _ _ (Nat.mod_lt _ (by decide))]
  have hindex := hm.directory_index hother
  rw [hsame, ← hentry] at hindex
  rintro ⟨-, hlocal⟩
  have heq := congrArg Translation.pat (hlocal other hother hne)
  rw [hm.translate_of_large hother (hsame ▸ hout)] at heq
  unfold translate at heq
  dsimp only at heq
  rw [hpointer, hsame, hindex, hpde, hlinkPs, if_neg Bool.false_ne_true, hlinkFrame, hpte,
    translateSmall, getLsbD_splitEntry_largeEntry] at heq
  exact Bool.false_ne_true heq.symm

/-- **`SetCacheability` is local exactly on the regions that the stack guard has split.** -/
theorem setCacheability_local_iff (uintn64 stackGuard : Bool) (s : SmmStacks)
    (hs : stackGuard = true → s.Placed) (bits : ℕ) (hbits : 32 ≤ bits) (root : ℕ)
    (hp : pdptPage uintn64 root + 5 + splitCount stackGuard s ≤ 2 ^ 20) (n : ℕ) (hn : n < 2 ^ 20)
    (hfresh : n < root ∨ pdptPage uintn64 root + 5 + splitCount stackGuard s ≤ n) (m : Words)
    {page : ℕ} (hpage : page < 2 ^ 20) (c : BitVec 8) :
    SetsLocally (smmInitPageTable uintn64 stackGuard s (4096 * root) m)
        (setCacheability uintn64 (gPhyMask bits) (4096 * n) (4096 * root) (4096 * page) c
          (smmInitPageTable uintn64 stackGuard s (4096 * root) m))
        (pdptPage uintn64 root) page c ↔
      stackGuard = true ∧ s.lowRegion ≤ page / 512 ∧ page / 512 ≤ s.highRegion := by
  have hr := smmInitPageTable_rooted hs hp m
  have hcond : (stackGuard = true ∧ s.lowRegion ≤ page / 512 ∧ page / 512 ≤ s.highRegion) ↔
      s.lowRegion ≤ page / 512 ∧ page / 512 < s.lowRegion + splitCount stackGuard s := by
    cases stackGuard with
    | false =>
      have hzero : splitCount false s = 0 := rfl
      exact ⟨fun h ↦ absurd h.1 Bool.false_ne_true, fun h ↦ by omega⟩
    | true =>
      have hcount : splitCount true s = s.highRegion - s.lowRegion + 1 := (hs rfl).pagesNeeded_eq
      have hle := (hs rfl).lowRegion_le
      exact ⟨fun h ↦ ⟨h.2.1, by omega⟩, fun h ↦ ⟨rfl, h.1, by omega⟩⟩
  rw [hcond]
  constructor
  · intro h
    by_contra hout
    exact not_setsLocally_of_large hr hbits hp hpage hout hn hfresh c h
  · rintro ⟨hlow, hhigh⟩
    exact setsLocally_of_split hr hbits hp hpage hlow hhigh n c

/-- The processor data at 0x7E00000 is made uncached, without the stack guard. -/
theorem setCacheability_local_syncData :
    SetsLocally (smmInitPageTable true false ⟨0, 0, 0⟩ (4096 * 0x7000) fun _ ↦ 0)
        (setCacheability true (gPhyMask 46) (4096 * 0x7F00) (4096 * 0x7000) (4096 * 0x7E00) 0x10
          (smmInitPageTable true false ⟨0, 0, 0⟩ (4096 * 0x7000) fun _ ↦ 0))
        (pdptPage true 0x7000) 0x7E00 0x10 ↔
      false = true ∧ SmmStacks.lowRegion ⟨0, 0, 0⟩ ≤ 0x7E00 / 512 ∧
        0x7E00 / 512 ≤ SmmStacks.highRegion ⟨0, 0, 0⟩ :=
  setCacheability_local_iff true false ⟨0, 0, 0⟩ (fun h ↦ absurd h Bool.false_ne_true) 46
    (by decide) 0x7000 (by decide) 0x7F00 (by decide) (Or.inr (by decide)) _ (by decide) 0x10

theorem not_setsLocally_syncData :
    ¬ ∀ (uintn64 stackGuard : Bool) (s : SmmStacks), (stackGuard = true → s.Placed) →
      ∀ bits, 32 ≤ bits → ∀ root,
        pdptPage uintn64 root + 5 + splitCount stackGuard s ≤ 2 ^ 20 → ∀ n < 2 ^ 20,
        (n < root ∨ pdptPage uintn64 root + 5 + splitCount stackGuard s ≤ n) →
        ∀ (m : Words) (page : ℕ), page < 2 ^ 20 → ∀ c : BitVec 8,
          SetsLocally (smmInitPageTable uintn64 stackGuard s (4096 * root) m)
            (setCacheability uintn64 (gPhyMask bits) (4096 * n) (4096 * root) (4096 * page) c
              (smmInitPageTable uintn64 stackGuard s (4096 * root) m))
            (pdptPage uintn64 root) page c := by
  intro hall
  have hnone : false = true → SmmStacks.Placed ⟨0, 0, 0⟩ := fun h ↦ absurd h Bool.false_ne_true
  have hr : Rooted true ⟨0, 0, 0⟩ 0x7000 (splitCount false ⟨0, 0, 0⟩)
      (smmInitPageTable true false ⟨0, 0, 0⟩ (4096 * 0x7000) fun _ ↦ 0#64) :=
    smmInitPageTable_rooted hnone (by decide) _
  have hbits : 32 ≤ 46 := by decide
  have hpage : 0x7E00 < 2 ^ 20 := by decide
  have hn : 0x7F00 < 2 ^ 20 := by decide
  refine not_setsLocally_of_large hr hbits (by decide) hpage (by decide) hn (Or.inr (by decide))
    0x10 ?_
  exact hall true false ⟨0, 0, 0⟩ hnone 46 (by decide) 0x7000 (by decide) 0x7F00 (by decide)
    (Or.inr (by decide)) (fun _ ↦ 0#64) 0x7E00 (by decide) 0x10

end PurleyFirmware.PaeTable
