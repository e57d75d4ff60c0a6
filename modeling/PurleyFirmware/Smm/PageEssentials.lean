import PurleyFirmware.Smm.PageShape

/-!
# Demand paging keeps the essentials mapped

When the platform always answers with 2 MB pages, a page fault should leave the faulting address
mapped, the masked entries of the first 4 GB should stay, and the assertions of `ReclaimPages` should
hold. `KeepsEssentials` states the three of them, for the page-fault handler with the last faulting
address remembered (`tracked`).

`keepsEssentials_of_reachable` proves them for every run that breaks none of two rules. The platform
asks for at least one page, at an address that a page table can hold, and its attribute has neither an
address nor `IA32_PG_PMNT` in it (`PlainFault`); and `ReclaimPages`, when the handler calls it for a
*later* page of a fault, frees neither a table the handler stands in nor the page directory of the
faulting address (`SparesFault`).

## Why only later pages

For the first page the handler needs at most two tables. While it looks for the upper one it stands
in the PML4 table; while it looks for the lower one it stands in the table that `ReservedPage`
protects. So nothing it needs can be freed. `ReservedPage` is not moved on afterwards, and the page
directory that the first page lies in is a candidate like any other.
`not_keepsEssentials_crossRun` is a fault of two pages across a 1 GB boundary that loses the first.
-/

namespace PurleyFirmware.PageTable

/-! ### The faulting address -/

/-- The indices of an address in the tables above the one that its bits from `startBit` on index. -/
def tablePath (a : BitVec 64) (startBit : ℕ) : List (Fin 512) :=
  if startBit = 39 then []
  else if startBit = 30 then [addressIndex a 39]
  else [addressIndex a 39, addressIndex a 30]

/-- An address without its offset in a 2 MB page. -/
def page2M (a : BitVec 64) : BitVec 64 := a &&& ~~~((1#64 <<< 21) - 1)

/-- The page walk for an address ends at a large-page entry that is present and writable and holds the
address itself. The SMI entry code clears `CR0.WP`, so the entries above do not restrict writing. -/
def IdentityMapped (m : Memory) (pml4 : ℕ) (a : BitVec 64) : Prop :=
  ∃ pdt, follow (child (links m)) 3 pml4 (tablePath a 21) = some pdt ∧
    (m pdt (addressIndex a 21)).present ∧ (m pdt (addressIndex a 21)).pageSize ∧
      (m pdt (addressIndex a 21)).readWrite ∧
        (m pdt (addressIndex a 21)).frame = (page2M a >>> 12).toNat

/-- The page tables and the handler, with the last faulting address. -/
structure Tracked extends State where
  lastFault : Option (BitVec 64)

def Label.lastFault (last : Option (BitVec 64)) : Label → Option (BitVec 64)
  | .fault pfAddress _ => some pfAddress
  | _ => last

def Tracked.next (P : Platform) (s : Tracked) (a : Label) : Option Tracked :=
  (PageTable.next P s.toState a).map fun s' ↦ ⟨s', a.lastFault s.lastFault⟩

def tracked (P : Platform) : LabelledSystem Tracked Label where
  init s := (system P).init s.toState ∧ s.lastFault = none
  step s a s' := s.next P a = some s'

/-! ### The claim -/

/-- The handler's next step calls `ReclaimPages`. -/
def CallsReclaim (s : State) : Prop :=
  s.pagePool = [] ∧ ∃ f c, s.control = .walk f c ∧ c.startBit > f.endBit ∧
    (s.mem c.pageTable (ptIndex c)).present = false

/-- The essentials are mapped. -/
structure KeepsEssentials (P : Platform) (s : Tracked) : Prop where
  /-- After a fault, the faulting address is mapped. -/
  mapped : s.control = .idle → ∀ a, s.lastFault = some a → IdentityMapped s.mem P.pml4 a
  /-- The PML4 table leads to the table of the first 4 GB. -/
  first : child (links s.mem) P.pml4 0 = some P.pdpt
  /-- Its masked entries are present. -/
  masked : ∀ k : Fin 512, k.val < 4 → (s.mem P.pdpt k).present ∧ (s.mem P.pdpt k).pmnt
  asserts : CallsReclaim s.toState → ReclaimAsserts P.pml4 s.toTables

/-- The platform answers with 2 MB pages. -/
def Answers2M (P : Platform) : Label → Prop
  | .fault _ answer => (faultOf P answer).endBit = 21
  | _ => True

/-- A fault for at least one page, whose attribute and address leave the entry an identity mapping
that is not masked. -/
def PlainFault (P : Platform) : Label → Prop
  | .fault pfAddress answer =>
    0 < (faultOf P answer).numOfPages ∧ (faultOf P answer).pageAttribute.frame = 0 ∧
      (faultOf P answer).pageAttribute.pmnt = false ∧
        page2M (pfAddress &&& P.phyMask) = page2M pfAddress
  | _ => True

/-- What `ReclaimPages` frees is neither the table the handler stands in, nor its last sub-entry unless
that table is the reserved one, nor the page directory of the address `a`. -/
def PicksElsewhere (pml4 : ℕ) (t : Tables) (c : Cursor) (a : BitVec 64) : Prop :=
  ∀ l, leastAccessed t.mem t.reservedPage pml4 = some l →
    (t.mem l.page l.index).frame ≠ c.pageTable ∧
      (l.page = c.pageTable → t.reservedPage ≠ c.pageTable → ∀ i, c.upperEntry = some (pml4, i) →
        (t.mem pml4 i).subEntries ≠ 1#9) ∧
      follow (child (links t.mem)) 3 pml4 (tablePath a 21) ≠ some (t.mem l.page l.index).frame

/-- The steps of the handler that undo nothing the fault has mapped: a table for a later page is taken
from elsewhere. -/
def SparesFault (P : Platform) (s : Tracked) : Label → Prop
  | .run => ∀ f c a, s.control = .walk f c → s.lastFault = some a → c.index ≠ 0 →
      CallsReclaim s.toState → PicksElsewhere P.pml4 s.toTables c a
  | _ => True

/-! ### Memories that map the same -/

variable {P : Platform} {m m' : Memory} {a : BitVec 64} {f : Fault} {c : Cursor} {t t' : Tables}
  {n q : ℕ} {k : Fin 512}

@[simp] theorem tablePath_39 : tablePath a 39 = [] := rfl

@[simp] theorem tablePath_30 : tablePath a 30 = [addressIndex a 39] := rfl

@[simp] theorem tablePath_21 : tablePath a 21 = [addressIndex a 39, addressIndex a 30] := rfl

/-- The mapping of an address is its path and its entry. -/
theorem IdentityMapped.of_path (h : IdentityMapped m P.pml4 a)
    (hkeep : ∀ pdt, follow (child (links m)) 3 P.pml4 (tablePath a 21) = some pdt →
      (m pdt (addressIndex a 21)).present → (m pdt (addressIndex a 21)).pageSize →
        follow (child (links m')) 3 P.pml4 (tablePath a 21) = some pdt ∧
          (m' pdt (addressIndex a 21)).core = (m pdt (addressIndex a 21)).core) :
    IdentityMapped m' P.pml4 a := by
  obtain ⟨pdt, hpath, hpresent, hsize, hwrite, hframe⟩ := h
  obtain ⟨hpath', hcore⟩ := hkeep pdt hpath hpresent hsize
  refine ⟨pdt, hpath', ?_, ?_, ?_, ?_⟩
  · rwa [Entry.eq_of_core hcore (fun e ↦ e.present) fun _ ↦ rfl]
  · rwa [Entry.eq_of_core hcore (fun e ↦ e.pageSize) fun _ ↦ rfl]
  · rwa [Entry.eq_of_core hcore (fun e ↦ e.readWrite) fun _ ↦ rfl]
  · rwa [Entry.eq_of_core hcore (fun e ↦ e.frame) fun _ ↦ rfl]

theorem IdentityMapped.of_sameCore (h : IdentityMapped m P.pml4 a) (hcore : SameCore m m') :
    IdentityMapped m' P.pml4 a :=
  h.of_path fun pdt hpath _ _ ↦ ⟨by rwa [hcore.child], hcore pdt _⟩

/-! ### The invariant -/

/-- A fault of 2 MB pages, with an attribute that leaves the mapping to the address. -/
structure Fault.Large (f : Fault) : Prop where
  endBit : f.endBit = 21
  numOfPages : f.numOfPages ≤ 512
  frame : f.pageAttribute.frame = 0
  pmnt : f.pageAttribute.pmnt = false
  pageSize : f.pageAttribute.pageSize = true

theorem large_faultOf {answer : Option PlatformAttribute} (hbit : (faultOf P answer).endBit = 21)
    (hframe : (faultOf P answer).pageAttribute.frame = 0)
    (hpmnt : (faultOf P answer).pageAttribute.pmnt = false) : (faultOf P answer).Large := by
  have hrest : (faultOf P answer).numOfPages ≤ 512 ∧
      (faultOf P answer).pageAttribute.pageSize = true := by
    unfold faultOf at hbit ⊢
    generalize answer.getD ⟨.size2M, 1, .zero⟩ = b at hbit ⊢
    obtain ⟨size, numOfPages, e⟩ := b
    have hmin : (if numOfPages > 512 then 512 else numOfPages) ≤ 512 := by
      split_ifs <;> omega
    cases size with
    | size4K =>
      dsimp only at hbit
      omega
    | size2M => exact ⟨hmin, by dsimp only; split <;> rfl⟩
    | size1G =>
      dsimp only at hbit
      omega
    | max => exact ⟨hmin, by dsimp only; split <;> rfl⟩
  exact ⟨hbit, hrest.1, hframe, hpmnt, hrest.2⟩

/-- What holds while the handler is at page `c.index` of the fault at `a`. -/
structure OnFault (P : Platform) (a : BitVec 64) (f : Fault) (c : Cursor) (t : Tables) : Prop where
  large : f.Large
  index_lt : c.index < f.numOfPages
  address : c.pfAddress = a + BitVec.ofNat 64 (c.index * 0x200000)
  phyMask : page2M (a &&& P.phyMask) = page2M a
  shaped : Shaped P t.mem
  /-- From the first table on, `ReservedPage` is the upper table of the faulting address. -/
  reserved : (t.reservedPage = 0 ∧ c.startBit = 39 ∧ c.index = 0) ∨
    child (links t.mem) P.pml4 (addressIndex a 39) = some t.reservedPage
  mapped : c.index ≠ 0 → IdentityMapped t.mem P.pml4 a

/-- The invariant of the handler. The set `all` of the pages in use is not fixed: a page table of 4 KB
pages may be overwritten. -/
def Kept (P : Platform) (s : State) (last : Option (BitVec 64)) : Prop :=
  ∃ all : Set ℕ, InUse P all ∧
    match s.control with
    | .idle => Pooled P.pml4 P.poolPages all (links s.mem) s.pagePool ∧ Shaped P s.mem ∧
        ∀ a, last = some a → IdentityMapped s.mem P.pml4 a
    | .walk f c => ∃ a, last = some a ∧ OnFault P a f c s.toTables ∧
        (c.startBit = 39 ∨ c.startBit = 30 ∨ c.startBit = 21) ∧
          Tidy P.pml4 P.poolPages all (tablePath c.pfAddress c.startBit) c.pageTable c.upperEntry
            c.walked s.toTables
    | .store f c n => ∃ a, last = some a ∧ OnFault P a f c s.toTables ∧
        (c.startBit = 39 ∨ c.startBit = 30) ∧
          Ready P.pml4 P.poolPages all (tablePath c.pfAddress c.startBit) c.pageTable c.upperEntry
            c.walked (ptIndex c) n s.toTables

variable {s s' : State} {last : Option (BitVec 64)} {all : Set ℕ}
  {spare : List ℕ}

theorem OnFault.reservedUpper (h : OnFault P a f c t) : ReservedUpper P t.mem t.reservedPage :=
  h.reserved.imp And.left fun hchild ↦ ⟨_, hchild⟩

theorem OnFault.address_zero (h : OnFault P a f c t) (hzero : c.index = 0) : c.pfAddress = a := by
  have haddress := h.address
  rwa [hzero, Nat.zero_mul, BitVec.add_zero] at haddress

/-- Records do not matter, nor where the handler stands once `ReservedPage` is set. -/
theorem OnFault.of_sameCore (h : OnFault P a f c t) (hcore : SameCore t.mem m) {c' : Cursor}
    (hindex : c'.index = c.index) (haddress : c'.pfAddress = c.pfAddress)
    (hbit : c'.startBit = c.startBit ∨
      child (links t.mem) P.pml4 (addressIndex a 39) = some t.reservedPage) :
    OnFault P a f c' { t with mem := m } where
  large := h.large
  index_lt := hindex ▸ h.index_lt
  address := by rw [hindex, haddress, h.address]
  phyMask := h.phyMask
  shaped := h.shaped.of_sameCore hcore
  reserved := by
    rw [hcore.child, hindex]
    rcases hbit with hbit | hset
    · rw [hbit]
      exact h.reserved
    · exact Or.inr hset
  mapped hne := (h.mapped (hindex ▸ hne)).of_sameCore hcore

theorem tablePath_down (a : BitVec 64) {b : ℕ} (hb : b = 39 ∨ b = 30) :
    tablePath a (b - 9) = tablePath a b ++ [addressIndex a b] := by
  rcases hb with rfl | rfl <;> rfl

/-- **The end of a turn of the inner loop.** -/
theorem Kept.descend (hall : InUse P all) (hon : OnFault P a f c t)
    (hbit : c.startBit = 39 ∨ c.startBit = 30)
    (htidy : Tidy P.pml4 P.poolPages all (tablePath c.pfAddress c.startBit) c.pageTable c.upperEntry
      c.walked t)
    (hset : child (links t.mem) P.pml4 (addressIndex a 39) = some t.reservedPage)
    (hk : child (links t.mem) c.pageTable (ptIndex c) = some q) :
    Kept P (descend f c t) (some a) := by
  have hframe : (t.mem c.pageTable (ptIndex c)).frame = q := (child_eq_some.1 hk).2
  have hlt : (tablePath c.pfAddress c.startBit).length < 3 := by
    rcases hbit with hb | hb <;> simp [hb]
  have hdown := htidy.down hlt hk
  rw [← hframe, ptIndex, ← addressIndex, ← tablePath_down _ hbit] at hdown
  have hcore : SameCore t.mem (markAccessed t.mem c.pageTable (ptIndex c)) := sameCore_setSlot rfl
  refine ⟨all, hall, a, rfl, hon.of_sameCore hcore rfl rfl (Or.inr hset), ?_, hdown⟩
  change c.startBit - 9 = 39 ∨ c.startBit - 9 = 30 ∨ c.startBit - 9 = 21
  omega

/-! ### The steps of the handler -/

/-- The paths of the walk and of the faulting address are the same on the first page. -/
theorem OnFault.first_reserved (h : OnFault P a f c t) (hzero : c.index = 0) (hbit : c.startBit = 30)
    (hpath : follow (child (links t.mem)) 3 P.pml4 (tablePath c.pfAddress c.startBit) =
      some c.pageTable) : t.reservedPage = c.pageTable := by
  rw [hbit, h.address_zero hzero, tablePath_30, follow_singleton] at hpath
  rcases h.reserved with ⟨-, h39, -⟩ | hset
  · omega
  · exact Option.some.inj (hset.symm.trans hpath)

/-- **`AllocPage` leaves the handler its tables.** On the first page because of where `ReservedPage`
is, on later ones because it frees a table elsewhere. -/
theorem OnFault.spares (h : OnFault P a f c t) (hall : InUse P all)
    (hbit : c.startBit = 39 ∨ c.startBit = 30)
    (htidy : Tidy P.pml4 P.poolPages all (tablePath c.pfAddress c.startBit) c.pageTable c.upperEntry
      c.walked t) (hpool : t.pagePool = [])
    (hok : c.index ≠ 0 → PicksElsewhere P.pml4 t c a) :
    Spares P.pml4 t c.pageTable c.upperEntry := by
  have hpooled := htidy.pooled
  rw [hpool] at hpooled
  obtain ⟨l, hl⟩ := exists_leastAccessed (h.shaped.exists_leafEntry hpooled hall h.reservedUpper)
  have hmem := List.argmin_mem hl
  by_cases hzero : c.index = 0
  · rcases hbit with h39 | h30
    · -- it stands in the PML4 table, which no entry leads to
      have hheld := htidy.held
      rw [h39, tablePath_39] at hheld
      obtain ⟨π, hlt, hπ, hopen, -, -⟩ := (LeafEntry.At.of_mem hmem).exists_path
      refine ⟨l, hl, fun hframe ↦ ?_, fun _ _ i hi ↦ ?_⟩
      · have hpath := follow_concat.2 ⟨hlt, _, Pooled.follow_of_open hπ,
          child_eq_some.2 ⟨Link.isTable_of_isOpen hopen, hframe⟩⟩
        exact absurd (hpooled.conserved.unique hpath hheld.path) (by simp)
      · rcases hheld.upper_eq with ⟨-, hnone⟩ | ⟨π₁, q, j, hcat, -⟩
        · rw [hnone] at hi
          exact absurd hi (by simp)
        · exact absurd hcat (by simp)
    · -- it stands in the reserved table
      have hres := h.first_reserved hzero h30 htidy.held.path
      refine ⟨l, hl, fun hframe ↦ ?_, fun _ hne ↦ absurd hres hne⟩
      exact LeafEntry.ne_reserved_of_mem hmem (hres.trans hframe.symm)
  · obtain ⟨hframe, hlast, -⟩ := hok hzero l hl
    exact ⟨l, hl, hframe, hlast⟩

/-- The walk to the page directory of the faulting address, seen as one of the handler. -/
theorem held_pdt {r pdt : ℕ} (hr : child (links m) P.pml4 (addressIndex a 39) = some r)
    (hpath : follow (child (links m)) 3 P.pml4 (tablePath a 21) = some pdt) :
    Held P.pml4 (links m) (tablePath a 21) pdt (some (r, addressIndex a 30)) [] where
  path := hpath
  upper_eq := Or.inr ⟨[addressIndex a 39], r, addressIndex a 30, rfl, follow_singleton.trans hr, rfl⟩
  walked_on t ht := absurd ht (by simp)

/-- **`AllocPage` leaves the faulting address mapped**, and `ReservedPage` where it is. -/
theorem OnFault.mapped_allocPage (h : OnFault P a f c t) (hne : c.index ≠ 0)
    (hp : Pooled P.pml4 P.poolPages all (links t.mem) t.pagePool)
    (hok : t.pagePool = [] → PicksElsewhere P.pml4 t c a)
    (hl : t.pagePool = [] → ∃ l, leastAccessed t.mem t.reservedPage P.pml4 = some l)
    (ht : allocPage P.pml4 t = some (n, t'))
    (hnot : ∀ π q, follow (child (links t'.mem)) 3 P.pml4 π = some q → q ≠ n) :
    IdentityMapped t'.mem P.pml4 a ∧
      child (links t'.mem) P.pml4 (addressIndex a 39) = some t.reservedPage := by
  have hset : child (links t.mem) P.pml4 (addressIndex a 39) = some t.reservedPage :=
    h.reserved.resolve_left fun hfirst ↦ hne hfirst.2.2
  have hclear := h.shaped.cleared_allocPage hp ht
  have hheld : ∀ {pdt}, follow (child (links t.mem)) 3 P.pml4 (tablePath a 21) = some pdt →
      Held P.pml4 (links t'.mem) (tablePath a 21) pdt (some (t.reservedPage, addressIndex a 30)) [] := by
    intro pdt hpath
    refine Tidy.held_allocPage ⟨hp, held_pdt hset hpath⟩ (fun hpool ↦ ?_) ht
    obtain ⟨l, hl⟩ := hl hpool
    refine ⟨l, hl, fun hframe ↦ (hok hpool l hl).2.2 (hpath.trans (congrArg some hframe.symm)),
      fun _ _ i hi ↦ ?_⟩
    -- the entry above the page directory is not one of the PML4 table
    obtain ⟨hroot, -⟩ : t.reservedPage = P.pml4 ∧ addressIndex a 30 = i := by simpa using hi
    have hnil := hp.conserved.unique (follow_nil.trans (congrArg some hroot.symm))
      (follow_singleton.trans hset)
    exact absurd hnil (by simp)
  have hmapped := h.mapped hne
  refine ⟨hmapped.of_path fun pdt hpath hpresent hsize ↦ ⟨(hheld hpath).path, ?_⟩, ?_⟩
  · refine hclear.core_eq (hnot _ _ (hheld hpath).path) ?_
    rw [Link.isOpen, Link.isTable, links_apply, hsize]
    simp
  · obtain ⟨pdt, hpath, -⟩ := hmapped
    rcases (hheld hpath).upper_eq with ⟨hnil, -⟩ | ⟨π₁, q, j, hcat, hq, hupper⟩
    · exact absurd hnil (by simp)
    · obtain ⟨rfl, -⟩ : t.reservedPage = q ∧ addressIndex a 30 = j := by simpa using hupper
      obtain ⟨rfl, -⟩ := List.append_inj' (show [addressIndex a 39] ++ [_] = _ from hcat) rfl
      rwa [follow_singleton] at hq

/-- **The handler needs a table**: `AllocPage` returns a page. -/
theorem Kept.alloc (hall : InUse P all) (hon : OnFault P a f c t)
    (hbit : c.startBit = 39 ∨ c.startBit = 30)
    (htidy : Tidy P.pml4 P.poolPages all (tablePath c.pfAddress c.startBit) c.pageTable c.upperEntry
      c.walked t) (habsent : (t.mem c.pageTable (ptIndex c)).present = false)
    (hok : c.index ≠ 0 → t.pagePool = [] → PicksElsewhere P.pml4 t c a) :
    ∃ n t', allocPage P.pml4 t = some (n, t') ∧
      Kept P { t' with control := .store f c n } (some a) := by
  have hspares := fun hpool ↦ hon.spares hall hbit htidy hpool fun hne ↦ hok hne hpool
  have hl : t.pagePool = [] → ∃ l, leastAccessed t.mem t.reservedPage P.pml4 = some l :=
    fun hpool ↦ (hspares hpool).imp fun _ h ↦ h.1
  obtain ⟨n, t', ht, hready, hres⟩ := htidy.allocated habsent hspares
  have hn : n ∈ P.poolPages := hready.pooled.spare_mem n List.mem_cons_self
  have hclear := hon.shaped.cleared_allocPage htidy.pooled ht
  have hnot : ∀ π q, follow (child (links t'.mem)) 3 P.pml4 π = some q → q ≠ n :=
    fun π q hq hqn ↦ hready.pooled.conserved.notMem hq (hqn ▸ List.mem_cons_self)
  have hfirst : Held P.pml4 (links t.mem) [0] P.pdpt (some (P.pml4, 0)) [] :=
    ⟨hon.shaped.follow_first, Or.inr ⟨[], P.pml4, 0, rfl, follow_nil, rfl⟩,
      fun q hq ↦ absurd hq (by simp)⟩
  have hfirst' : child (links t'.mem) P.pml4 0 = some P.pdpt := by
    have hheld := Tidy.held_allocPage ⟨htidy.pooled, hfirst⟩ (fun hpool ↦ by
      obtain ⟨l, hl⟩ := hl hpool
      exact hon.shaped.spares_first htidy.pooled hl) ht
    exact follow_singleton.symm.trans hheld.path
  refine ⟨n, t', ht, all, hall, a, rfl, ⟨hon.large, hon.index_lt, hon.address, hon.phyMask,
    hon.shaped.cleared hclear hn hfirst', ?_, fun hne ↦ ?_⟩, hbit, hready⟩
  · rw [hres]
    by_cases hzero : c.index = 0
    · rcases hbit with h39 | h30
      · refine Or.inl ⟨?_, h39, hzero⟩
        rcases hon.reserved with hunset | hset
        · exact hunset.1
        · -- the entry of the faulting address is not present yet
          have hroot := htidy.held.path
          rw [h39, tablePath_39, follow_nil, Option.some.injEq] at hroot
          rw [ptIndex, h39, hon.address_zero hzero, ← hroot] at habsent
          have htable := (child_eq_some.1 hset).1
          rw [links_apply, Link.isTable, addressIndex, habsent] at htable
          exact absurd htable (by simp)
      · have hpath := hready.held.path
        rw [h30, hon.address_zero hzero, tablePath_30, follow_singleton] at hpath
        rw [hon.first_reserved hzero h30 htidy.held.path]
        exact Or.inr hpath
    · exact Or.inr (hon.mapped_allocPage hzero htidy.pooled (hok hzero) hl ht hnot).2
  · exact (hon.mapped_allocPage hne htidy.pooled (hok hne) hl ht hnot).1

/-- A table is stored in an entry that was not present: no mapping changes. -/
theorem IdentityMapped.store {p : ℕ} {e : Entry} {upper : Option (ℕ × Fin 512)}
    (h : IdentityMapped t.mem P.pml4 a) (habsent : (t.mem p k).present = false)
    (he : e.toLink = ⟨true, false, false, n, 0⟩) :
    IdentityMapped (countSubEntry (setSlot t.mem p k e) upper) P.pml4 a := by
  have hempty : child (links t.mem) p k = none :=
    child_eq_none.2 (by rw [links_apply, Link.isTable, habsent, Bool.false_and])
  refine h.of_path fun pdt hpath hpresent _ ↦ ⟨follow_mono (fun q j x hx ↦ ?_) hpath, ?_⟩
  · rw [child_store he, setSlot_of_ne]
    · exact hx
    · rintro ⟨rfl, rfl⟩
      rw [hempty] at hx
      exact absurd hx (by simp)
  · rw [sameCore_countSubEntry _ upper, setSlot_of_ne]
    rintro ⟨rfl, hk⟩
    rw [hk, habsent] at hpresent
    exact absurd hpresent (by simp)

/-- Page 0 is no table, so a table of the faulting address is not mistaken for none. -/
theorem reservedPage_ne_zero {r : ℕ} {i : Fin 512} (hall : InUse P all)
    (hp : Pooled P.pml4 P.poolPages all (links m) spare)
    (hset : child (links m) P.pml4 i = some r) : r ≠ 0 := by
  rintro rfl
  exact hall.zero ((hp.conserved.mem_iff 0).2 (Or.inr ⟨[i], follow_singleton.trans hset⟩))

/-- **The new table is stored.** -/
theorem Kept.store (hall : InUse P all) (hon : OnFault P a f c t)
    (hbit : c.startBit = 39 ∨ c.startBit = 30)
    (hready : Ready P.pml4 P.poolPages all (tablePath c.pfAddress c.startBit) c.pageTable c.upperEntry
      c.walked (ptIndex c) n t) : Kept P (storeTable f c n t) (some a) := by
  have hlen : (tablePath c.pfAddress c.startBit).length < 2 := by
    rcases hbit with hb | hb <;> simp [hb]
  have hempty : child (links t.mem) c.pageTable (ptIndex c) = none :=
    child_eq_none.2 (by rw [links_apply, Link.isTable, hready.absent, Bool.false_and])
  have hchild : child (links (countSubEntry (setSlot t.mem c.pageTable (ptIndex c)
      { Entry.zero with present := true, readWrite := true, frame := n }) c.upperEntry)) =
        setSlot (child (links t.mem)) c.pageTable (ptIndex c) (some n) := child_store rfl
  have hset : child (links (countSubEntry (setSlot t.mem c.pageTable (ptIndex c)
      { Entry.zero with present := true, readWrite := true, frame := n }) c.upperEntry))
        P.pml4 (addressIndex a 39) =
          some (if t.reservedPage = 0 then n else t.reservedPage) := by
    rw [hchild]
    rcases hon.reserved with ⟨hunset, h39, hzero⟩ | hset
    · have hroot := hready.held.path
      rw [h39, tablePath_39, follow_nil, Option.some.injEq] at hroot
      rw [if_pos hunset, ptIndex, h39, hon.address_zero hzero, ← hroot]
      exact setSlot_self
    · rw [if_neg (reservedPage_ne_zero hall hready.pooled hset), setSlot_of_ne]
      · exact hset
      · rintro ⟨hroot, hk⟩
        rw [← hroot, ← hk, hset] at hempty
        exact absurd hempty (by simp)
  refine Kept.descend hall ⟨hon.large, hon.index_lt, hon.address, hon.phyMask,
    hon.shaped.store hready hlen rfl, Or.inr hset, fun hne ↦ ?_⟩ hbit
    (hready.store (card_poolPages P) (by omega) rfl _) hset (q := n) ?_
  · exact (hon.mapped hne).store hready.absent rfl
  · rw [hchild]
    exact setSlot_self

/-- Above the page directories an entry that is present leads to a table. -/
theorem Shaped.isTable_of_present {p : ℕ} {b : ℕ} (h : Shaped P m)
    (hp : Pooled P.pml4 P.poolPages all (links m) spare) (hb : b = 39 ∨ b = 30)
    (hpath : follow (child (links m)) 3 P.pml4 (tablePath a b) = some p)
    (hpresent : (m p k).present) : (links m p k).isTable := by
  rcases hb with rfl | rfl
  · obtain rfl := Option.some.inj (follow_nil.symm.trans hpath)
    exact Link.isTable_of_isOpen (hp.root_open k hpresent)
  · by_cases hfirst : p = P.pdpt ∧ k.val < 4
    · rw [hfirst.1]
      exact Link.isTable_of_isMasked (h.masked k hfirst.2).1
    · rw [links_apply, Link.isTable, hpresent, (h.pdpt hpath hfirst).2 hpresent]
      rfl

/-- **The entry is present**: the walk goes down. -/
theorem Kept.walkDown (hall : InUse P all) (hon : OnFault P a f c t)
    (hbit : c.startBit = 39 ∨ c.startBit = 30)
    (htidy : Tidy P.pml4 P.poolPages all (tablePath c.pfAddress c.startBit) c.pageTable c.upperEntry
      c.walked t) (hpresent : (t.mem c.pageTable (ptIndex c)).present) :
    Kept P (walkDown f c t) (some a) := by
  have hk : child (links t.mem) c.pageTable (ptIndex c) =
      some (t.mem c.pageTable (ptIndex c)).frame :=
    child_eq_some.2
      ⟨hon.shaped.isTable_of_present htidy.pooled hbit htidy.held.path hpresent, rfl⟩
  unfold PageTable.walkDown
  split_ifs with hunset
  · rcases hon.reserved with ⟨-, h39, hzero⟩ | hset
    · have hroot := htidy.held.path
      rw [h39, tablePath_39, follow_nil, Option.some.injEq] at hroot
      have hset : child (links t.mem) P.pml4 (addressIndex a 39) =
          some (t.mem c.pageTable (ptIndex c)).frame := by
        rw [← hk, ptIndex, h39, hon.address_zero hzero, ← hroot]
        rfl
      exact Kept.descend hall ⟨hon.large, hon.index_lt, hon.address, hon.phyMask, hon.shaped,
        Or.inr hset, hon.mapped⟩ hbit ⟨htidy.pooled, htidy.held⟩ hset hk
    · exact absurd hunset.1 (reservedPage_ne_zero hall htidy.pooled hset)
  · have hset := hon.reserved.resolve_left fun hfirst ↦ hunset ⟨hfirst.1, hfirst.2.1⟩
    exact Kept.descend hall hon hbit htidy hset hk

/-! ### The end of a page -/

theorem addressIndex_21 (a : BitVec 64) : (addressIndex a 21).val = a.toNat / 2097152 % 512 := by
  rw [addressIndex, Fin.val_ofNat, BitVec.toNat_ushiftRight, Nat.shiftRight_eq_div_pow]

/-- The 512 pages of a fault lie in different entries. -/
theorem addressIndex_21_ne {i : ℕ} (h0 : i ≠ 0) (hlt : i < 512) :
    addressIndex (a + BitVec.ofNat 64 (i * 0x200000)) 21 ≠ addressIndex a 21 := by
  intro heq
  have hval := congrArg Fin.val heq
  rw [addressIndex_21, addressIndex_21, BitVec.toNat_add, BitVec.toNat_ofNat] at hval
  have ha := a.isLt
  omega

theorem core_leafEntry {upper : Option (ℕ × Fin 512)} {p : ℕ} {e : Entry} :
    (countSubEntry (setSlot m p k e) upper p k).core = e.core := by
  rw [sameCore_countSubEntry _ upper, setSlot_self]

/-- **Filling the entry of the first page maps the faulting address.** -/
theorem OnFault.mapped_first {p : ℕ} (h : OnFault P a f c t)
    (hpath : follow (child (links m)) 3 P.pml4 (tablePath a 21) = some p)
    (hleaf : (m p (addressIndex a 21)).core = (leafEntry P f a).core) :
    IdentityMapped m P.pml4 a := by
  have hlarge := h.large
  refine ⟨p, hpath, ?_, ?_, ?_, ?_⟩
  · rw [Entry.eq_of_core hleaf (fun e ↦ e.present) fun _ ↦ rfl]
    simp [leafEntry, Entry.or]
  · rw [Entry.eq_of_core hleaf (fun e ↦ e.pageSize) fun _ ↦ rfl]
    simp [leafEntry, Entry.or, hlarge.pageSize]
  · rw [Entry.eq_of_core hleaf (fun e ↦ e.readWrite) fun _ ↦ rfl]
    simp [leafEntry, Entry.or]
  · rw [Entry.eq_of_core hleaf (fun e ↦ e.frame) fun _ ↦ rfl, ← h.phyMask]
    simp [leafEntry, Entry.or, hlarge.frame, hlarge.endBit, page2M]

/-- **The entry of a page is filled**, and the handler goes on to the next page or ends. -/
theorem Kept.fill (hall : InUse P all) (hon : OnFault P a f c t) (hbit : c.startBit = 21)
    (htidy : Tidy P.pml4 P.poolPages all (tablePath c.pfAddress c.startBit) c.pageTable c.upperEntry
      c.walked t) : Kept P (fillEntry P f c t) (some a) := by
  have hlarge := hon.large
  have hpath := htidy.held.path
  rw [hbit, tablePath_21] at hpath
  have htable : (leafEntry P f c.pfAddress).toLink.isTable = false := by
    simp [leafEntry, Entry.or, Link.isTable, hlarge.pageSize]
  have hpmnt : (leafEntry P f c.pfAddress).pmnt = false := by
    simp [leafEntry, Entry.or, hlarge.pmnt, Entry.zero]
  have hcons := htidy.pooled.conserved
  have hchild : child (links (countSubEntry
      (setSlot t.mem c.pageTable (ptIndex c) (leafEntry P f c.pfAddress)) c.upperEntry)) =
        setSlot (child (links t.mem)) c.pageTable (ptIndex c) none := by
    rw [child_countSubEntry, links_setSlot, child_setSlot, if_neg (by simp [htable])]
  obtain ⟨all', hall', hpooled⟩ : ∃ all' : Set ℕ, InUse P all' ∧
      Pooled P.pml4 P.poolPages all' (links (countSubEntry
        (setSlot t.mem c.pageTable (ptIndex c) (leafEntry P f c.pfAddress)) c.upperEntry))
          t.pagePool :=
    hon.shaped.pooled_fill htidy.pooled hall hpath htable
  have hshaped := (hon.shaped.fill (k := ptIndex c) hcons hpath rfl htable hpmnt).of_sameCore
    (sameCore_countSubEntry _ c.upperEntry)
  have hmapped : IdentityMapped (countSubEntry
      (setSlot t.mem c.pageTable (ptIndex c) (leafEntry P f c.pfAddress)) c.upperEntry) P.pml4 a := by
    by_cases hzero : c.index = 0
    · have haddress := hon.address_zero hzero
      rw [ptIndex, hbit, ← addressIndex, haddress] at hchild ⊢
      rw [haddress] at hpath
      refine hon.mapped_first ?_ core_leafEntry
      rw [hchild]
      exact follow_pair_setSlot hcons hpath rfl hpath
    · refine (hon.mapped hzero).of_path fun pdt hpdt _ _ ↦ ⟨?_, ?_⟩
      · rw [hchild]
        exact follow_pair_setSlot hcons hpath rfl hpdt
      · rw [sameCore_countSubEntry _ c.upperEntry, setSlot_of_ne]
        rintro ⟨-, hk⟩
        have hlt := hon.index_lt
        have hmax := hlarge.numOfPages
        refine addressIndex_21_ne (a := a) hzero (by omega) ?_
        rw [hk, ptIndex, hbit, hon.address, ← addressIndex]
  have hset : child (links (countSubEntry
      (setSlot t.mem c.pageTable (ptIndex c) (leafEntry P f c.pfAddress)) c.upperEntry))
        P.pml4 (addressIndex a 39) = some t.reservedPage := by
    rw [hchild, setSlot_of_ne]
    · exact hon.reserved.resolve_left fun hfirst ↦ by omega
    · rintro ⟨hroot, -⟩
      exact absurd (hcons.unique (follow_nil.trans (congrArg some hroot)) hpath) (by simp)
  have hnext : (fillEntry P f c t).control =
      nextPage P f (c.index + 1) (c.pfAddress + 1#64 <<< f.endBit) := rfl
  refine ⟨all', hall', ?_⟩
  rw [hnext, nextPage]
  split_ifs with hmore
  · refine ⟨a, rfl, ⟨hlarge, hmore, ?_, hon.phyMask, hshaped, Or.inr hset, fun _ ↦ hmapped⟩,
      Or.inl rfl, hpooled, Held.start⟩
    rw [startWalk, hlarge.endBit, hon.address, Nat.succ_mul, BitVec.ofNat_add, BitVec.add_assoc]
    rfl
  · refine ⟨hpooled, hshaped, fun a' ha' ↦ ?_⟩
    obtain rfl := Option.some.inj ha'
    exact hmapped

/-- **Every step of the handler keeps the invariant.** -/
theorem Kept.run (h : Kept P s last)
    (hok : ∀ f c a, s.control = .walk f c → last = some a → c.index ≠ 0 → CallsReclaim s →
      PicksElsewhere P.pml4 s.toTables c a) (hs : PageTable.run P s = some s') : Kept P s' last := by
  obtain ⟨all, hall, h⟩ := h
  unfold PageTable.run at hs
  cases hc : s.control with
  | idle =>
    rw [hc] at hs
    exact absurd hs (by simp)
  | walk f c =>
    rw [hc] at h hs
    obtain ⟨a, rfl, hon, hbit, htidy⟩ := h
    dsimp only at hs
    rw [hon.large.endBit] at hs
    by_cases h21 : c.startBit = 21
    · rw [if_neg (by omega)] at hs
      obtain rfl := Option.some.inj hs
      exact Kept.fill hall hon h21 htidy
    · have hupper : c.startBit = 39 ∨ c.startBit = 30 := by omega
      rw [if_pos (by omega)] at hs
      by_cases hpresent : (s.mem c.pageTable (ptIndex c)).present = true
      · rw [if_neg (by simp [hpresent])] at hs
        obtain rfl := Option.some.inj hs
        exact Kept.walkDown hall hon hupper htidy hpresent
      · have habsent : (s.mem c.pageTable (ptIndex c)).present = false := by simpa using hpresent
        rw [if_pos (by simp [habsent])] at hs
        obtain ⟨n, t', ht, hkept⟩ := Kept.alloc hall hon hupper htidy habsent fun hne hpool ↦
          hok f c a hc rfl hne ⟨hpool, f, c, hc, by rw [hon.large.endBit]; omega, habsent⟩
        rw [ht, Option.map_some, Option.some.injEq] at hs
        rwa [← hs]
  | store f c n =>
    rw [hc] at h hs
    obtain ⟨a, rfl, hon, hbit, hready⟩ := h
    obtain rfl := Option.some.inj hs
    exact Kept.store hall hon hbit hready

/-- **A page fault comes in.** -/
theorem Kept.fault (h : Kept P s last) (hidle : s.control = .idle) {answer : Option PlatformAttribute}
    (hbit : Answers2M P (.fault a answer)) (hplain : PlainFault P (.fault a answer)) :
    Kept P (startFault P a answer s.toTables) (some a) := by
  obtain ⟨all, hall, h⟩ := h
  rw [hidle] at h
  obtain ⟨hpooled, hshaped, -⟩ := h
  obtain ⟨hpages, hframe, hpmnt, hphy⟩ := hplain
  have hnext : (startFault P a answer s.toTables).control = nextPage P (faultOf P answer) 0 a := rfl
  refine ⟨all, hall, ?_⟩
  rw [hnext, nextPage, if_pos hpages]
  refine ⟨a, rfl, ⟨large_faultOf hbit hframe hpmnt, hpages, ?_, hphy, hshaped,
    Or.inl ⟨rfl, rfl, rfl⟩, fun hne ↦ absurd rfl hne⟩, Or.inl rfl, hpooled, Held.start⟩
  rw [startWalk, Nat.zero_mul, BitVec.add_zero]

/-- **A processor uses an entry.** -/
theorem Kept.access (h : Kept P s last) {p : ℕ} (hpresent : (s.mem p k).present) :
    Kept P { s with mem := setSlot s.mem p k { s.mem p k with accessed := true } } last := by
  obtain ⟨all, hall, h⟩ := h
  have hcore : SameCore s.mem (setSlot s.mem p k { s.mem p k with accessed := true }) :=
    sameCore_setSlot rfl
  have hlinks : links (setSlot s.mem p k { s.mem p k with accessed := true }) = links s.mem :=
    links_setSlot_of_eq rfl
  refine ⟨all, hall, ?_⟩
  dsimp only
  cases hc : s.control with
  | idle =>
    rw [hc] at h
    obtain ⟨hpooled, hshaped, hmapped⟩ := h
    refine ⟨?_, hshaped.of_sameCore hcore, fun a ha ↦ (hmapped a ha).of_sameCore hcore⟩
    rwa [hlinks]
  | walk f c =>
    rw [hc] at h
    obtain ⟨a, ha, hon, hbit, htidy⟩ := h
    exact ⟨a, ha, hon.of_sameCore hcore rfl rfl (Or.inl rfl), hbit, htidy.of_links hlinks⟩
  | store f c n =>
    rw [hc] at h
    obtain ⟨a, ha, hon, hbit, hready⟩ := h
    exact ⟨a, ha, hon.of_sameCore hcore rfl rfl (Or.inl rfl), hbit, hready.access hpresent⟩

/-- **Every step keeps the invariant.** -/
theorem Kept.next {s s' : Tracked} {b : Label} (h : Kept P s.toState s.lastFault)
    (hbit : Answers2M P b) (hplain : PlainFault P b) (hspares : SparesFault P s b)
    (hs : s.next P b = some s') : Kept P s'.toState s'.lastFault := by
  obtain ⟨s₁, hs₁, rfl⟩ := Option.map_eq_some_iff.1 hs
  cases b with
  | run => exact h.run hspares hs₁
  | fault pfAddress answer =>
    unfold PageTable.next at hs₁
    cases hc : s.control with
    | idle =>
      rw [hc] at hs₁
      obtain rfl := Option.some.inj hs₁
      exact h.fault hc hbit hplain
    | walk f c =>
      rw [hc] at hs₁
      exact absurd hs₁ (by simp)
    | store f c n =>
      rw [hc] at hs₁
      exact absurd hs₁ (by simp)
  | access page k =>
    unfold PageTable.next at hs₁
    by_cases hpresent : (s.mem page k).present = true
    · simp only [hpresent, if_true] at hs₁
      obtain rfl := Option.some.inj hs₁
      exact h.access hpresent
    · simp [hpresent] at hs₁

theorem Kept.shaped (h : Kept P s last) : Shaped P s.mem := by
  obtain ⟨all, -, h⟩ := h
  cases hc : s.control with
  | idle =>
    rw [hc] at h
    exact h.2.1
  | walk f c =>
    rw [hc] at h
    obtain ⟨a, -, hon, -⟩ := h
    exact hon.shaped
  | store f c n =>
    rw [hc] at h
    obtain ⟨a, -, hon, -⟩ := h
    exact hon.shaped

theorem Kept.keepsEssentials {s : Tracked} (h : Kept P s.toState s.lastFault) :
    KeepsEssentials P s where
  mapped hidle a ha := by
    obtain ⟨all, -, h⟩ := h
    rw [hidle] at h
    exact h.2.2 a ha
  first := h.shaped.first
  masked k hk := by
    have hmasked := (h.shaped.masked k hk).1
    rw [Link.isMasked, Link.isTable, links_apply, Bool.and_eq_true, Bool.and_eq_true] at hmasked
    exact ⟨hmasked.1.1, hmasked.2⟩
  asserts hcall := by
    obtain ⟨all, hall, h⟩ := h
    obtain ⟨hpool, f, c, hc, -, -⟩ := hcall
    rw [hc] at h
    obtain ⟨a, -, hon, -, htidy⟩ := h
    have hpooled := htidy.pooled
    rw [hpool] at hpooled
    exact hon.shaped.reclaimAsserts hpooled hall hon.reservedUpper

/-! ### Every run -/

/-- The handler's rules: the answers are 2 MB pages and plain, and `ReclaimPages` spares the fault. -/
def Undisturbed (P : Platform) (s : Tracked) (b : Label) : Prop :=
  Answers2M P b ∧ PlainFault P b ∧ SparesFault P s b

theorem kept_of_reachable {s : Tracked} (hs : (tracked P).ReachableUnder (Undisturbed P) s) :
    Kept P s.toState s.lastFault := by
  have hinit : ∀ s : Tracked, (tracked P).init s → Kept P s.toState s.lastFault := by
    rintro ⟨s, last⟩ ⟨⟨m, rfl⟩, rfl⟩
    exact ⟨P.pages, inUse_pages P, pooled_start P m, shaped_start P m,
      fun a ha ↦ absurd ha (by simp)⟩
  exact hs.invariant hinit fun _ _ _ _ hkept hok hstep ↦ hkept.next hok.1 hok.2.1 hok.2.2 hstep

/-- **Demand paging keeps the essentials mapped.** In every run in which the platform answers with
2 MB pages, plainly, and `ReclaimPages` spares the fault it is called for, the last faulting address is
mapped when the handler has ended, the masked entries of the first 4 GB are present, and the
assertions of `ReclaimPages` hold. -/
theorem keepsEssentials_of_reachable {P : Platform} {s : Tracked}
    (hs : (tracked P).ReachableUnder (Undisturbed P) s) : KeepsEssentials P s :=
  (kept_of_reachable hs).keepsEssentials

/-! ### Concrete runs -/

instance (P : Platform) : (b : Label) → Decidable (Answers2M P b)
  | .fault _ answer => inferInstanceAs (Decidable ((faultOf P answer).endBit = 21))
  | .run => isTrue trivial
  | .access _ _ => isTrue trivial

instance (P : Platform) : (b : Label) → Decidable (PlainFault P b)
  | .fault pfAddress answer =>
    inferInstanceAs (Decidable (0 < (faultOf P answer).numOfPages ∧
      (faultOf P answer).pageAttribute.frame = 0 ∧ (faultOf P answer).pageAttribute.pmnt = false ∧
        page2M (pfAddress &&& P.phyMask) = page2M pfAddress))
  | .run => isTrue trivial
  | .access _ _ => isTrue trivial

/-- The handler is at the first page, or needs no table. -/
def sparesCheck (s : Tracked) : Bool :=
  match s.control with
  | .walk _ c => decide (c.index = 0) || (s.mem c.pageTable (ptIndex c)).present
  | _ => true

theorem undisturbed_of_check {s : Tracked} {b : Label}
    (h : (decide (Answers2M P b) && decide (PlainFault P b) && sparesCheck s) = true) :
    Undisturbed P s b := by
  rw [Bool.and_eq_true, Bool.and_eq_true, decide_eq_true_iff, decide_eq_true_iff] at h
  obtain ⟨⟨hbit, hplain⟩, hcheck⟩ := h
  refine ⟨hbit, hplain, ?_⟩
  cases b with
  | fault pfAddress answer => exact trivial
  | access page k => exact trivial
  | run =>
    rintro f c a hc - hne ⟨-, f', c', hc', -, habsent⟩
    obtain ⟨rfl, rfl⟩ := Control.walk.inj (hc.symm.trans hc')
    rw [sparesCheck, hc] at hcheck
    simp [hne, habsent] at hcheck

/-- The state in which the first page fault finds the handler. -/
def trackedStart : Tracked := ⟨smallStart, none⟩

/-- A run of steps that `sparesCheck` lets through. -/
def checkedRun (bs : List Label) : Option Tracked :=
  LabelledSystem.exec (Tracked.next smallPlatform)
    (fun s b ↦ decide (Answers2M smallPlatform b) && decide (PlainFault smallPlatform b) &&
      sparesCheck s) trackedStart bs

theorem reachable_checkedRun {bs : List Label} {s : Tracked} (hs : checkedRun bs = some s) :
    (tracked smallPlatform).ReachableUnder (Undisturbed smallPlatform) s :=
  .exec (fun _ _ ↦ undisturbed_of_check) (fun _ _ _ h ↦ h) (.init ⟨⟨_, rfl⟩, rfl⟩) hs

theorem keepsEssentials_faultRun : ∃ s,
    checkedRun (faultRun (5#64 <<< 30) .size2M 4) = some s ∧ KeepsEssentials smallPlatform s := by
  have hsome : (checkedRun (faultRun (5#64 <<< 30) .size2M 4)).isSome = true := by decide +kernel
  obtain ⟨s, hs⟩ := Option.isSome_iff_exists.1 hsome
  exact ⟨s, hs, keepsEssentials_of_reachable (reachable_checkedRun hs)⟩

/-! ### A run that loses the faulting address -/

/-- The last 2 MB below 5 GB. -/
def crossAddress : BitVec 64 := 5#64 <<< 30 - 1#64 <<< 21

/-- Five page faults take the pages of the pool: one for a page directory at 4 GB, six for two tables
each from 512 GB on, and the last for a page directory at 6 GB. The sixth fault is for two pages, one on
each side of 5 GB: the first goes into the page directory at 4 GB, and the second needs a page
directory. -/
def crossRun : List Label :=
  faultRun (4#64 <<< 30) .size2M 4 ++ faultRun (1#64 <<< 39) .size2M 5 ++
    faultRun (2#64 <<< 39) .size2M 5 ++ faultRun (3#64 <<< 39) .size2M 5 ++
      faultRun (6#64 <<< 30) .size2M 4 ++
        .fault crossAddress (some ⟨.size2M, 2, .zero⟩) :: List.replicate 4 .run

/-- The handler needs a page directory in entry `k` for the second page, the pool is empty, and the least
accessed leaf entry is entry `j`, which leads to the page directory of the first page. -/
def losesFirst (i j k : Fin 512) (s : Tracked) : Bool :=
  match s.control with
  | .walk f c =>
    decide (f.endBit = 21 ∧ f.numOfPages = 2 ∧ c.index = 1 ∧ c.startBit = 30 ∧ c.pageTable = 109 ∧
      ptIndex c = k ∧ (s.mem 109 k).present = false ∧ s.pagePool = [] ∧
        s.lastFault = some crossAddress ∧ (s.mem 109 j).frame ≠ 109 ∧
          leastAccessed s.mem s.reservedPage 100 = some ⟨i, some j, none, 109, j⟩)
  | _ => false

theorem losesFirst_crossRun : (checkedRun crossRun).any (losesFirst 0 4 5) = true := by decide +kernel

theorem core_storeTable {p : ℕ} (hk : ¬ (p = c.pageTable ∧ k = ptIndex c)) :
    ((storeTable f c n t).mem p k).core = (t.mem p k).core := by
  change (markAccessed (countSubEntry (setSlot t.mem c.pageTable (ptIndex c)
    { Entry.zero with present := true, readWrite := true, frame := n }) c.upperEntry)
      c.pageTable (ptIndex c) p k).core = _
  rw [markAccessed, setSlot_of_ne hk, sameCore_countSubEntry _ c.upperEntry, setSlot_of_ne hk]

theorem core_fillEntry {p : ℕ} (hk : p ≠ c.pageTable) :
    ((fillEntry P f c t).mem p k).core = (t.mem p k).core := by
  change (countSubEntry (setSlot t.mem c.pageTable (ptIndex c) (leafEntry P f c.pfAddress))
    c.upperEntry p k).core = _
  rw [sameCore_countSubEntry _ c.upperEntry, setSlot_of_ne fun hslot ↦ hk hslot.1]

/-- The entry that the table is stored in leads to it. -/
theorem frame_storeTable :
    (countSubEntry (setSlot t.mem c.pageTable (ptIndex c)
      { Entry.zero with present := true, readWrite := true, frame := n }) c.upperEntry
        c.pageTable (ptIndex c)).frame = n := by
  have hcore := sameCore_countSubEntry (setSlot t.mem c.pageTable (ptIndex c)
    { Entry.zero with present := true, readWrite := true, frame := n }) c.upperEntry c.pageTable
      (ptIndex c)
  rw [Entry.eq_of_core hcore (fun e ↦ e.frame) fun _ ↦ rfl, setSlot_self]

/-- **The faulting address is lost**: all leaf entries were accessed since the last search, and the
page directory of the first page comes first. -/
theorem not_keepsEssentials_crossRun : ¬ ∀ (P : Platform) (s : Tracked),
    (tracked P).ReachableUnder (fun _ b ↦ Answers2M P b ∧ PlainFault P b) s →
      KeepsEssentials P s := by
  intro hall
  obtain ⟨s, hs, hloses⟩ := (Option.any_eq_true _ _).1 losesFirst_crossRun
  have hreach := reachable_checkedRun hs
  unfold losesFirst at hloses
  cases hc : s.control with
  | idle => simp [hc] at hloses
  | store f c n => simp [hc] at hloses
  | walk f c =>
    simp only [hc, decide_eq_true_eq] at hloses
    obtain ⟨hbit, hpages, hindex, hstart, htable, hk, habsent, hpool, hlast, hframe, hl⟩ := hloses
    obtain ⟨all, -, hkept⟩ := kept_of_reachable hreach
    rw [hc] at hkept
    obtain ⟨-, -, -, -, htidy⟩ := hkept
    obtain ⟨t', ht', hcleared⟩ :=
      allocPage_of_leastAccessed htidy.pooled.conserved htidy.pooled.root_open hpool hl
    -- the page directory that was freed is stored for the second page
    have halloc : s.next smallPlatform .run =
        some ⟨{ t' with control := .store f c (s.mem 109 4).frame }, some crossAddress⟩ := by
      have hrun : PageTable.run smallPlatform s.toState =
          some { t' with control := .store f c (s.mem 109 4).frame } := by
        unfold PageTable.run
        rw [hc]
        simp only [hstart, hbit, htable, hk, habsent]
        rw [ht']
        rfl
      change (PageTable.run smallPlatform s.toState).map _ = _
      rw [hrun, hlast]
      rfl
    have hstore : Tracked.next smallPlatform
        ⟨{ t' with control := .store f c (s.mem 109 4).frame }, some crossAddress⟩ .run =
          some ⟨storeTable f c (s.mem 109 4).frame t', some crossAddress⟩ := rfl
    obtain ⟨c₂, hc₂, hc₂bit, hc₂index, hc₂table⟩ : ∃ c₂,
        (storeTable f c (s.mem 109 4).frame t').control = .walk f c₂ ∧ c₂.startBit = 21 ∧
          c₂.index = 1 ∧ c₂.pageTable = (s.mem 109 4).frame :=
      ⟨_, rfl, by simp [hstart], hindex, frame_storeTable⟩
    have hfill : Tracked.next smallPlatform
        ⟨storeTable f c (s.mem 109 4).frame t', some crossAddress⟩ .run =
          some ⟨fillEntry smallPlatform f c₂ (storeTable f c (s.mem 109 4).frame t').toTables,
            some crossAddress⟩ := by
      have hrun : PageTable.run smallPlatform (storeTable f c (s.mem 109 4).frame t') =
          some (fillEntry smallPlatform f c₂ (storeTable f c (s.mem 109 4).frame t').toTables) := by
        unfold PageTable.run
        rw [hc₂]
        simp only [hbit, hc₂bit]
        rfl
      change (PageTable.run smallPlatform (storeTable f c (s.mem 109 4).frame t')).map _ = _
      rw [hrun]
      rfl
    have hrun : ∀ {s s' : Tracked}, (tracked smallPlatform).ReachableUnder
        (fun _ b ↦ Answers2M smallPlatform b ∧ PlainFault smallPlatform b) s →
          s.next smallPlatform .run = some s' → (tracked smallPlatform).ReachableUnder
            (fun _ b ↦ Answers2M smallPlatform b ∧ PlainFault smallPlatform b) s' :=
      fun hs hnext ↦ .step (a := .run) hs ⟨trivial, trivial⟩ hnext
    have hreach₃ := hrun (hrun (hrun (hreach.mono fun _ _ h ↦ ⟨h.1, h.2.1⟩) halloc) hstore) hfill
    have hidle : (fillEntry smallPlatform f c₂
        (storeTable f c (s.mem 109 4).frame t').toTables).control = .idle := by
      change nextPage smallPlatform f (c₂.index + 1) _ = .idle
      rw [nextPage, if_neg (by omega)]
    have hkeeps := hall smallPlatform _ hreach₃
    obtain ⟨pdt, hpath, -⟩ := hkeeps.mapped hidle crossAddress rfl
    have hlower := (follow_pair hkeeps.first).symm.trans hpath
    -- the entry at 4 GB is no longer present
    have hcore : ((fillEntry smallPlatform f c₂
        (storeTable f c (s.mem 109 4).frame t').toTables).mem 109 4).core = (t'.mem 109 4).core := by
      rw [core_fillEntry (by rw [hc₂table]; exact hframe.symm), core_storeTable]
      rw [hk]
      exact fun hslot ↦ absurd hslot.2 (by decide)
    have htable₃ := (child_eq_some.1 hlower).1
    rw [links_apply, Link.isTable, Bool.and_eq_true] at htable₃
    have hpresent := (Entry.eq_of_core hcore (fun e ↦ e.present) fun _ ↦ rfl).symm.trans htable₃.1
    exact absurd (hcleared.symm.trans hpresent) (by simp)

end PurleyFirmware.PageTable
