import Mathlib.Tactic.SplitIfs
import PurleyFirmware.Smm.AccessPolicy

/-!
# Setting up the page tables for the access policy

`InitPaging` of `SmmProfile.c` goes through the page tables twice: large pages in which something is
to be split are broken into pages of 4 KB, and then every entry for a page is restricted as
`IsAddressValid` says. The address that it asks for is made of the indices in the page-directory
pointer table and in the page directory. The index in the page-map level-4 table is missing, so from
512 GB on, where the tables have entries only if SMM has been there, a page is treated as the one
512 GB, or a multiple of that, below it.

The tables are a tree here. An entry that is not present, or has a null pointer, leads to nothing.
-/

namespace PurleyFirmware.SmmProfile

open PageTable

/-! ### The tables -/

/-- An entry of a page directory. -/
inductive DirectoryEntry
  /-- The entry does not exist, or it has a null pointer. -/
  | absent
  /-- The entry maps 2 MB. It is not present after `InitPaging` if it may not be used. -/
  | large (e : Entry)
  /-- The entry points to a table of 4 KB pages. -/
  | table (pt : Fin 512 → Entry)

abbrev PageDirectory := Fin 512 → DirectoryEntry

abbrev PageDirectoryPointers := Fin 512 → Option PageDirectory

/-- The tables at `gSmiCr3`. In the 32-bit build CR3 is in the place of the only entry. -/
abbrev PageMap := Fin 512 → Option PageDirectoryPointers

/-- The directory entry with these indices. -/
def PageMap.entry (t : PageMap) (i j k : Fin 512) : DirectoryEntry :=
  match (t i).bind fun pdpt ↦ pdpt j with
  | some pd => pd k
  | none => .absent

/-- What `InitPaging` reads besides the tables. -/
structure PagingPlatform where
  policy : AccessPolicy
  mXdSupported : Bool
  /-- `sizeof (UINTN) == sizeof (UINT64)`. -/
  uintn64 : Bool
  /-- `HighBitSet64 (gPhyMask) + 1`. -/
  sizeOfMemorySpace : ℕ
  size_ge : 32 ≤ sizeOfMemorySpace
  size_le : sizeOfMemorySpace ≤ 48

namespace PagingPlatform

variable (P : PagingPlatform)

def numberOfPml4Entries : ℕ :=
  if P.uintn64 then if P.sizeOfMemorySpace ≤ 39 then 1 else 2 ^ (P.sizeOfMemorySpace - 39) else 1

def numberOfPdpEntries : ℕ :=
  if P.uintn64 then if P.sizeOfMemorySpace ≤ 39 then 2 ^ (P.sizeOfMemorySpace - 30) else 512 else 4

/-- The loops come to the entries with these indices. -/
def Visits (i j : Fin 512) : Prop := i.val < P.numberOfPml4Entries ∧ j.val < P.numberOfPdpEntries

instance (i j : Fin 512) : Decidable (P.Visits i j) := inferInstanceAs (Decidable (_ ∧ _))

end PagingPlatform

/-! ### `InitPaging` -/

/-- `((Level2 << 9) + Level3) << 21`. -/
def levelAddress (j k : Fin 512) : ℕ := (j.val * 2 ^ 9 + k.val) * 2 ^ 21

/-- `Address + ((Level4 << 12) | IA32_PG_RW | IA32_PG_P)`. -/
def splitEntry (address : ℕ) (l : Fin 512) : Entry :=
  { Entry.zero with frame := address / 4096 + l.val, readWrite := true, present := true }

/-- A large page is broken into small ones. -/
def splitDirectory (P : PagingPlatform) (j k : Fin 512) : DirectoryEntry → DirectoryEntry
  | .large e =>
    if e.present && P.policy.isAddressSplit (levelAddress j k) then
      .table (splitEntry (levelAddress j k))
    else .large e
  | d => d

/-- The entries for pages are restricted. -/
def patchDirectory (P : PagingPlatform) (j k : Fin 512) : DirectoryEntry → DirectoryEntry
  | .absent => .absent
  | .large e =>
    if e.present then
      .large (restrict P.mXdSupported (P.policy.isAddressValid (levelAddress j k)) e)
    else .large e
  | .table pt => .table fun l ↦
    restrict P.mXdSupported (P.policy.isAddressValid (levelAddress j k + 4096 * l.val)) (pt l)

/-- The loops over the tables, with what they do to a directory entry. -/
def forEachEntry (P : PagingPlatform) (f : Fin 512 → Fin 512 → DirectoryEntry → DirectoryEntry)
    (t : PageMap) : PageMap := fun i ↦
  (t i).map fun pdpt j ↦ (pdpt j).map fun pd k ↦ if P.Visits i j then f j k (pd k) else pd k

def initPaging (P : PagingPlatform) (t : PageMap) : PageMap :=
  forEachEntry P (patchDirectory P) (forEachEntry P (splitDirectory P) t)

/-! ### What is asked of the tables -/

/-- The virtual address of the 2 MB under a directory entry. The bits above 47 are those of
bit 47. -/
def virtualAddress (i j k : Fin 512) : ℕ :=
  i.val * 2 ^ 39 + levelAddress j k + if i.val < 256 then 0 else 2 ^ 64 - 2 ^ 48

/-- The entry for the page at an address is restricted as the policy says of the address. -/
def Follows (P : PagingPlatform) (a : ℕ) (e e' : Entry) : Prop :=
  e'.present = (e.present && (P.policy.isAddressValid a).present) ∧
    e'.noExecute = (e.noExecute || ((P.policy.isAddressValid a).nx && P.mXdSupported))

/-- The pages under a directory entry follow the policy, and it maps 2 MB only if they need not be
split. -/
def SetByPolicy (P : PagingPlatform) (a : ℕ) : DirectoryEntry → DirectoryEntry → Prop
  | .absent, .absent => True
  | .large e, .large e' => e.present → P.policy.isAddressSplit a = false ∧ Follows P a e e'
  | .large _, .table pt => ∀ l, Follows P (a + 4096 * l.val) (splitEntry a l) (pt l)
  | .table pt, .table pt' => ∀ l, Follows P (a + 4096 * l.val) (pt l) (pt' l)
  | _, _ => False

/-- What is done to a page at an offset under a directory entry: what is said of an address, or
nothing where the loops do not come. -/
def appliedAccess (P : PagingPlatform) (i j k : Fin 512) (offset : ℕ) : Access :=
  if P.Visits i j then P.policy.isAddressValid (levelAddress j k + offset) else ⟨true, false⟩

/-- Whether a large page is broken into small ones. -/
def appliedSplit (P : PagingPlatform) (i j k : Fin 512) : Bool :=
  decide (P.Visits i j) && P.policy.isAddressSplit (levelAddress j k)

/-- Two answers of `IsAddressValid` do the same to an entry. -/
def SameFor (P : PagingPlatform) (e : Entry) (x y : Access) : Prop :=
  (e.present → x.present = y.present) ∧ (e.noExecute = false → P.mXdSupported → x.nx = y.nx)

/-- For the pages under a directory entry the policy says the same of the address without its
level-4 index as of the page's own. -/
def PolicyAgrees (P : PagingPlatform) (i j k : Fin 512) : DirectoryEntry → Prop
  | .absent => True
  | .large e => e.present →
    (P.policy.isAddressSplit (virtualAddress i j k) → appliedSplit P i j k) ∧
      if appliedSplit P i j k then
        ∀ l : Fin 512, SameFor P (splitEntry 0 l) (appliedAccess P i j k (4096 * l.val))
          (P.policy.isAddressValid (virtualAddress i j k + 4096 * l.val))
      else SameFor P e (appliedAccess P i j k 0) (P.policy.isAddressValid (virtualAddress i j k))
  | .table pt => ∀ l : Fin 512, SameFor P (pt l) (appliedAccess P i j k (4096 * l.val))
      (P.policy.isAddressValid (virtualAddress i j k + 4096 * l.val))

/-! ### One entry -/

variable {P : PagingPlatform} {i j k : Fin 512} {e : Entry} {x : Access} {a : ℕ}

/-- A restricted entry follows the policy if what it was restricted by is what the policy says, as
far as that matters. -/
theorem follows_restrict_iff : Follows P a e (restrict P.mXdSupported x e) ↔
    SameFor P e x (P.policy.isAddressValid a) := by
  rw [Follows, SameFor, restrict_present, restrict_noExecute]
  cases e.present <;> cases e.noExecute <;> cases P.mXdSupported <;> simp

/-- The tables after `InitPaging`, entry by entry. -/
theorem initPaging_entry {t : PageMap} : (initPaging P t).entry i j k =
    if P.Visits i j then patchDirectory P j k (splitDirectory P j k (t.entry i j k))
    else t.entry i j k := by
  simp only [initPaging, forEachEntry, PageMap.entry]
  cases t i with
  | none => simp [splitDirectory, patchDirectory]
  | some pdpt =>
    simp only [Option.map_some, Option.bind_some, Option.map_map]
    cases pdpt j with
    | none => simp [splitDirectory, patchDirectory]
    | some pd =>
      simp only [Option.map_some, Function.comp_apply]
      split_ifs <;> rfl

/-- A page that nothing is done to follows the policy if this takes nothing from it. -/
theorem follows_self_iff :
    Follows P a e e ↔ SameFor P e ⟨true, false⟩ (P.policy.isAddressValid a) :=
  follows_restrict_iff (x := ⟨true, false⟩)

/-- The present bit of an entry for a page, and its execute-disable bit, are all that matters. -/
theorem sameFor_splitEntry {y : Access} {b : ℕ} {l : Fin 512} :
    SameFor P (splitEntry b l) x y ↔ SameFor P (splitEntry 0 l) x y := Iff.rfl

theorem follows_splitEntry {b c : ℕ} {l : Fin 512} {e' : Entry} :
    Follows P a (splitEntry b l) e' ↔ Follows P a (splitEntry c l) e' := Iff.rfl

/-! ### All entries -/

/-- For one directory entry: `InitPaging` sets it by the policy, exactly if the policy agrees. -/
theorem setByPolicy_iff {d d' : DirectoryEntry}
    (hd : d' = if P.Visits i j then patchDirectory P j k (splitDirectory P j k d) else d) :
    SetByPolicy P (virtualAddress i j k) d d' ↔ PolicyAgrees P i j k d := by
  subst hd
  by_cases hvisits : P.Visits i j
  · have haccess (offset : ℕ) : appliedAccess P i j k offset =
        P.policy.isAddressValid (levelAddress j k + offset) := if_pos hvisits
    have hsplit : appliedSplit P i j k = P.policy.isAddressSplit (levelAddress j k) := by
      rw [appliedSplit, decide_eq_true hvisits, Bool.true_and]
    rw [if_pos hvisits]
    cases d with
    | absent => exact Iff.rfl
    | table pt =>
      refine forall_congr' fun l ↦ ?_
      rw [haccess]
      exact follows_restrict_iff
    | large e =>
      cases hpresent : e.present with
      | false => simp [splitDirectory, patchDirectory, SetByPolicy, PolicyAgrees, hpresent]
      | true =>
        simp only [PolicyAgrees, hpresent, true_implies, hsplit, haccess]
        cases hcode : P.policy.isAddressSplit (levelAddress j k) with
        | true =>
          simp only [splitDirectory, hpresent, hcode, Bool.and_self, if_true, patchDirectory,
            SetByPolicy, implies_true, true_and]
          exact forall_congr' fun l ↦ (follows_splitEntry (c := levelAddress j k)).trans
            (follows_restrict_iff.trans sameFor_splitEntry)
        | false =>
          simp only [splitDirectory, patchDirectory, hpresent, hcode, Bool.and_false, SetByPolicy,
            Bool.false_eq_true, if_false, if_true, true_implies, imp_false, Bool.not_eq_true,
            Nat.add_zero]
          exact and_congr_right' follows_restrict_iff
  · have haccess (offset : ℕ) : appliedAccess P i j k offset = ⟨true, false⟩ := if_neg hvisits
    have hsplit : appliedSplit P i j k = false := by
      rw [appliedSplit, decide_eq_false hvisits, Bool.false_and]
    rw [if_neg hvisits]
    cases d with
    | absent => exact Iff.rfl
    | table pt =>
      refine forall_congr' fun l ↦ ?_
      rw [haccess]
      exact follows_self_iff
    | large e =>
      simp only [SetByPolicy, PolicyAgrees, hsplit, haccess, Bool.false_eq_true, if_false,
        imp_false, Bool.not_eq_true]
      exact forall_congr' fun _ ↦ and_congr_right' follows_self_iff

/-- After `InitPaging` every page is set by what the policy says of its own address, and no large
page is left that should be split, exactly if for every page the policy says the same of the address
without the level-4 index, as far as that matters to the page. -/
theorem initPaging_setByPolicy_iff (P : PagingPlatform) (t : PageMap) :
    (∀ i j k, SetByPolicy P (virtualAddress i j k) (t.entry i j k) ((initPaging P t).entry i j k)) ↔
      ∀ i j k, PolicyAgrees P i j k (t.entry i j k) :=
  forall_congr' fun _ ↦ forall_congr' fun _ ↦ forall_congr' fun _ ↦ setByPolicy_iff initPaging_entry

/-- Under the first entry of the level-4 table nothing is missing. -/
theorem policyAgrees_first (hvisits : P.Visits 0 j) (d : DirectoryEntry) :
    PolicyAgrees P 0 j k d := by
  have haddress : virtualAddress 0 j k = levelAddress j k := by simp [virtualAddress]
  have haccess (offset : ℕ) : appliedAccess P 0 j k offset =
      P.policy.isAddressValid (levelAddress j k + offset) := if_pos hvisits
  have hsplit : appliedSplit P 0 j k = P.policy.isAddressSplit (levelAddress j k) := by
    rw [appliedSplit, decide_eq_true hvisits, Bool.true_and]
  have hsame (e : Entry) (x : Access) : SameFor P e x x := ⟨fun _ ↦ rfl, fun _ _ ↦ rfl⟩
  cases d with
  | absent => trivial
  | table pt => exact fun l ↦ by rw [haccess, haddress]; exact hsame _ _
  | large e =>
    intro _
    rw [hsplit, haddress]
    refine ⟨id, ?_⟩
    split
    · exact fun l ↦ by rw [haccess]; exact hsame _ _
    · rw [haccess, Nat.add_zero]
      exact hsame _ _

/-! ### A page above 512 GB -/

/-- SMRAM is the only protected range, and physical addresses have 40 bits. -/
def smramOnly : PagingPlatform where
  policy := ⟨true, [⟨⟨0x7F000000, 0x7F800000⟩, true, false⟩], [], 0x7F000000#32, 0x800000#32⟩
  mXdSupported := true
  uintn64 := true
  sizeOfMemorySpace := 40
  size_ge := by decide
  size_le := by decide

/-- The 2 MB page at 512 GB + 0x7F000000, as `SmiDefaultPFHandler` makes it. -/
def aliasedPage : Entry :=
  { Entry.zero with
    pageSize := true, frame := 0x807F000, accessed := true, readWrite := true, present := true }

/-- The tables have this page only. -/
def aliasedMap : PageMap := fun i ↦
  if i.val = 1 then
    some fun j ↦ if j.val = 1 then
      some fun k ↦ if k.val = 504 then .large aliasedPage else .absent
    else none
  else none

/-- The page is left present and executable, as SMRAM is, although its address is not in a protected
range. -/
theorem not_setByPolicy_aliasedPage :
    smramOnly.policy.isAddressValid (virtualAddress 1 1 504) = ⟨false, true⟩ ∧
      (initPaging smramOnly aliasedMap).entry 1 1 504 = .large aliasedPage ∧
      ¬ ∀ i j k, SetByPolicy smramOnly (virtualAddress i j k) (aliasedMap.entry i j k)
        ((initPaging smramOnly aliasedMap).entry i j k) := by
  have hpage : (initPaging smramOnly aliasedMap).entry 1 1 504 = .large aliasedPage := by
    rw [initPaging_entry]
    rfl
  refine ⟨by decide, hpage, fun h ↦ ?_⟩
  have hset := h 1 1 504
  rw [hpage] at hset
  exact absurd (hset rfl).2.1 (by decide)

end PurleyFirmware.SmmProfile
