import Mathlib.Logic.Relation
import Mathlib.Tactic.SplitIfs
import PurleyFirmware.Foundation.UndoLog
import PurleyFirmware.Smm.AccessPolicy

/-!
# Mapping a page for one instruction

With the SMM profile a page fault opens the entry of the page, sets the trap flag and lets the
instruction run again. Before an entry is opened, its address and its value are put into a log, and
the debug exception after the instruction writes the values back. `RestorePageTableBelow4G` and
`RestorePageTableAbove4G` do the first, `DebugExceptionHandler` the second.

Above 4 GB there may be no entry for the page yet. Then `SmiDefaultPFHandler` makes one, which is
restricted as the page demands, or broken into a table of 4 KB pages that are, and what goes into
the log is the restricted entry.

The log is replayed in the order in which it was written. An instruction that reads from a page
above 4 GB and is then fetched from it opens the entry twice, and the second record has the value
that the first fault gave it: the page stays mapped. `debugExceptionHandler_restores_iff` says when
the entries are as before.
-/

namespace PurleyFirmware.SmmProfile

open PageTable UndoLog

/-! ### The state -/

/-- The address of an entry, as the page of its table and the index there. -/
abbrev EntryPointer := ℕ × Fin 512

/-- `MAX_PF_PAGE_COUNT`. -/
def maxPfPageCount : ℕ := 2

/-- `MAX_PF_ENTRY_COUNT`. -/
def maxPfEntryCount : ℕ := 10

/-- What the platform fixes. -/
structure ProfilePlatform where
  /-- The tables of `SmiDefaultPFHandler`. Its `pml4` is the page in CR3. -/
  tables : PageTable.Platform
  /-- `GetPlatformPageTableAttribute`. -/
  pageTableAttribute : BitVec 64 → Option PlatformAttribute
  /-- `sizeof (UINT64) == sizeof (UINTN)`. -/
  uintn64 : Bool
  policy : AccessPolicy
  mXdSupported : Bool
  /-- `mPFPageBuffer`, as a page. -/
  mPFPageBuffer : ℕ

/-- The page tables, and what the profile keeps for one processor. -/
structure ProfileState extends Tables where
  mPFPageIndex : ℕ
  mPFPageUplink : ℕ → Option EntryPointer
  /-- The first `mPFEntryCount` of `mLastPFEntryPointer` and `mLastPFEntryValue`. -/
  log : UndoLog EntryPointer Entry

/-- A page fault: CR2 and the error code. A `UINTN` has 32 bits in the 32-bit build. -/
structure PageFault (P : ProfilePlatform) where
  pfAddress : BitVec 64
  errorCode : BitVec 64
  inUintn : P.uintn64 = false → pfAddress ≤ 0xFFFFFFFF#64

/-- `(ErrorCode & IA32_PF_EC_ID) != 0`: the fault is an instruction fetch. -/
def PageFault.isFetch {P : ProfilePlatform} (f : PageFault P) : Bool := f.errorCode.getLsbD 4

/-- The entry at an address. -/
def entryAt (m : Memory) (p : EntryPointer) : Entry := m p.1 p.2

/-- `*Pointer = Entry`. -/
def storeEntry (p : EntryPointer) (e : Entry) (s : ProfileState) : ProfileState :=
  { s with mem := setSlot s.mem p.1 p.2 e }

/-- The old entry is recorded. -/
def recordEntry (p : EntryPointer) (s : ProfileState) : ProfileState :=
  if s.log.length < maxPfEntryCount then { s with log := s.log ++ [(p, entryAt s.mem p)] } else s

/-! ### Below 4 GB -/

/-- The entry of the page directory for an address, from the page in CR3. -/
def directoryEntry (P : ProfilePlatform) (m : Memory) (a : BitVec 64) : EntryPointer :=
  let pdpt := if P.uintn64 then (m P.tables.pml4 (addressIndex a 39)).frame else P.tables.pml4
  ((m pdpt (addressIndex a 30)).frame, addressIndex a 21)

/-- The entry for an address below 4 GB. -/
def entryBelow4G (P : ProfilePlatform) (m : Memory) (a : BitVec 64) : EntryPointer :=
  let pde := directoryEntry P m a
  if (entryAt m pde).pageSize then pde else ((entryAt m pde).frame, addressIndex a 12)

/-- The entry that is set for the page, of 2 MB or of 4 KB. -/
def openBelow4G {P : ProfilePlatform} (f : PageFault P) (large : Bool) : Entry :=
  { Entry.zero with
    frame := if large then f.pfAddress.toNat / 2 ^ 21 * 512 else f.pfAddress.toNat / 2 ^ 12
    pageSize := large
    readWrite := true
    present := true }

def restorePageTableBelow4G {P : ProfilePlatform} (f : PageFault P) (s : ProfileState) :
    ProfileState :=
  let large := (entryAt s.mem (directoryEntry P s.mem f.pfAddress)).pageSize
  let entry := entryBelow4G P s.mem f.pfAddress
  storeEntry entry (openBelow4G f large) (recordEntry entry s)

/-! ### Above 4 GB -/

/-- The entry that exists for an address. A large page and a small one have to be the right one. -/
def existingEntry (P : ProfilePlatform) (m : Memory) (a : BitVec 64) : Option EntryPointer :=
  let pml4e := m P.tables.pml4 (addressIndex a 39)
  if pml4e.present then
    let pdpte := m pml4e.frame (addressIndex a 30)
    if pdpte.present then
      let pde : EntryPointer := (pdpte.frame, addressIndex a 21)
      if (entryAt m pde).pageSize then
        if (entryAt m pde).frame / 512 = a.toNat / 2 ^ 21 % 2 ^ 31 then some pde else none
      else if (entryAt m pde).frame ≠ 0 then
        let pte : EntryPointer := ((entryAt m pde).frame, addressIndex a 12)
        if (entryAt m pte).frame = a.toNat / 2 ^ 12 % 2 ^ 40 then some pte else none
      else none
    else none
  else none

/-- `SmiDefaultPFHandler` from one stop to the next, no more than so many times. -/
def runHandler (P : PageTable.Platform) : ℕ → PageTable.State → Option Tables
  | 0, _ => none
  | n + 1, s =>
    match s.control with
    | .idle => some s.toTables
    | _ => (PageTable.run P s).bind (runHandler P n)

/-- The stops for one page: three tables at most, each found or made, and the entry. -/
def handlerStops : ℕ := 80

/-- `SmiDefaultPFHandler`. `none` when it does not return. -/
def smiDefaultPFHandler (P : ProfilePlatform) (a : BitVec 64) (t : Tables) : Option Tables :=
  runHandler P.tables (512 * handlerStops + 1) (startFault P.tables a (P.pageTableAttribute a) t)

/-! ### `SmiDefaultPFHandler` returns -/

/-- Where the loops of `SmiDefaultPFHandler` can be. -/
def InLoops : Control → Prop
  | .idle => True
  | .walk f c => f.numOfPages ≤ 512 ∧ c.index < f.numOfPages ∧ c.startBit ≤ 39
  | .store f c _ =>
    f.numOfPages ≤ 512 ∧ c.index < f.numOfPages ∧ c.startBit ≤ 39 ∧ f.endBit < c.startBit

/-- A bound on the stops before the handler returns. -/
def stopsLeft : Control → ℕ
  | .idle => 0
  | .walk f c => (f.numOfPages - 1 - c.index) * handlerStops + 2 * (c.startBit - f.endBit) + 1
  | .store f c _ => (f.numOfPages - 1 - c.index) * handlerStops + 2 * (c.startBit - f.endBit)

theorem stopsLeft_nextPage {P : PageTable.Platform} {f : Fault} {index : ℕ} {a : BitVec 64}
    (hpages : f.numOfPages ≤ 512) :
    InLoops (PageTable.nextPage P f index a) ∧
      stopsLeft (PageTable.nextPage P f index a) ≤ (f.numOfPages - index) * handlerStops := by
  rw [PageTable.nextPage]
  split_ifs with hindex
  · refine ⟨⟨hpages, hindex, le_refl _⟩, ?_⟩
    simp only [stopsLeft, startWalk, handlerStops]
    omega
  · exact ⟨trivial, Nat.zero_le _⟩

theorem stopsLeft_run {P : PageTable.Platform} {s s' : PageTable.State} (h : InLoops s.control)
    (hrun : PageTable.run P s = some s') :
    InLoops s'.control ∧ stopsLeft s'.control < stopsLeft s.control := by
  rw [PageTable.run] at hrun
  cases hcontrol : s.control with
  | idle => rw [hcontrol] at hrun; exact absurd hrun (Option.some_ne_none s').symm
  | walk f c =>
    rw [hcontrol] at h hrun
    obtain ⟨hpages, hindex, hbit⟩ := h
    simp only at hrun
    split_ifs at hrun with hdown hpresent
    · obtain ⟨r, -, rfl⟩ := Option.map_eq_some_iff.1 hrun
      exact ⟨⟨hpages, hindex, hbit, hdown⟩, Nat.lt_succ_self _⟩
    · obtain rfl := Option.some.inj hrun
      refine ⟨⟨hpages, hindex, by simp only; omega⟩, ?_⟩
      simp only [walkDown, descend, stopsLeft]
      omega
    · obtain rfl := Option.some.inj hrun
      refine ⟨(stopsLeft_nextPage hpages).1, lt_of_le_of_lt (stopsLeft_nextPage hpages).2 ?_⟩
      simp only [stopsLeft]
      rw [Nat.sub_sub, Nat.add_comm 1]
      omega
  | store f c page =>
    rw [hcontrol] at h hrun
    obtain ⟨hpages, hindex, hbit, hdown⟩ := h
    obtain rfl := Option.some.inj hrun
    refine ⟨⟨hpages, hindex, by simp only; omega⟩, ?_⟩
    simp only [storeTable, descend, stopsLeft]
    omega

/-- The stops are enough: the handler returns, or it comes to an `AllocPage` that finds no page. -/
theorem runHandler_eq_none {P : PageTable.Platform} {n : ℕ} {s : PageTable.State}
    (h : InLoops s.control) (hstops : stopsLeft s.control < n) (hnone : runHandler P n s = none) :
    ∃ s', Relation.ReflTransGen (fun s s' ↦ PageTable.run P s = some s') s s' ∧
      s'.control ≠ .idle ∧ PageTable.run P s' = none := by
  induction n generalizing s with
  | zero => exact absurd hstops (Nat.not_lt_zero _)
  | succ n ih =>
    rw [runHandler] at hnone
    split at hnone
    · exact absurd hnone (Option.some_ne_none _)
    · rename_i hbusy
      cases hrun : PageTable.run P s with
      | none => exact ⟨s, .refl, hbusy, hrun⟩
      | some s₁ =>
        rw [hrun] at hnone
        have hnext := stopsLeft_run h hrun
        obtain ⟨s', hreach, hend⟩ := ih hnext.1 (by omega) hnone
        exact ⟨s', .head hrun hreach, hend⟩

theorem numOfPages_faultOf (P : PageTable.Platform) (answer : Option PlatformAttribute) :
    (faultOf P answer).numOfPages ≤ 512 := by
  rw [faultOf]
  obtain ⟨size, numOfPages, e⟩ := answer.getD ⟨.size2M, 1, .zero⟩
  cases size <;> dsimp only <;> split_ifs <;> omega

theorem smiDefaultPFHandler_eq_none {P : ProfilePlatform} {a : BitVec 64} {t : Tables}
    (h : smiDefaultPFHandler P a t = none) :
    ∃ s, Relation.ReflTransGen (fun s s' ↦ PageTable.run P.tables s = some s')
      (startFault P.tables a (P.pageTableAttribute a) t) s ∧
        s.control ≠ .idle ∧ PageTable.run P.tables s = none := by
  have hpages := numOfPages_faultOf P.tables (P.pageTableAttribute a)
  refine runHandler_eq_none (stopsLeft_nextPage hpages).1
    (lt_of_le_of_lt (stopsLeft_nextPage hpages).2 ?_) h
  simp only [handlerStops]
  omega

/-! ### Entries that are made above 4 GB -/

/-- `AcquirePage`. -/
def acquirePage (P : ProfilePlatform) (uplink : EntryPointer) (s : ProfileState) : ProfileState :=
  let address := P.mPFPageBuffer + s.mPFPageIndex
  let zeroed := { s with mem := zeroMem s.mem address }
  let cut :=
    match s.mPFPageUplink s.mPFPageIndex with
    | some old =>
      if (entryAt zeroed.mem old).frame = address then storeEntry old .zero zeroed else zeroed
    | none => zeroed
  let linked := storeEntry uplink
    { Entry.zero with frame := address, present := true, readWrite := true } cut
  { linked with
    mPFPageUplink := Function.update s.mPFPageUplink s.mPFPageIndex (some uplink)
    mPFPageIndex := (s.mPFPageIndex + 1) % maxPfPageCount }

/-- The entry of a new table for a page of 4 KB. -/
def smallEntry (P : ProfilePlatform) (page : ℕ) : Entry :=
  restrict P.mXdSupported (P.policy.isAddressValid (4096 * page))
    { Entry.zero with frame := page, readWrite := true, present := true }

/-- The new directory entry is made to point to a table of 4 KB pages. -/
def splitCreated (P : ProfilePlatform) (a : BitVec 64) (pde : EntryPointer) (s : ProfileState) :
    EntryPointer × ProfileState :=
  let page := (entryAt s.mem pde).frame
  let s := acquirePage P pde s
  let table := (entryAt s.mem pde).frame
  -- `PTIndex` stays that of the directory if the page is not in the table
  let wanted := (List.finRange 512).find? fun index ↦ page + index.val = a.toNat / 2 ^ 12 % 2 ^ 40
  ((table, wanted.getD pde.2),
    { s with mem := fun p k ↦ if p = table then smallEntry P (page + k.val) else s.mem p k })

/-- The entry that `SmiDefaultPFHandler` has made is split or restricted. -/
def restrictCreated (P : ProfilePlatform) (a : BitVec 64) (s : ProfileState) :
    EntryPointer × ProfileState :=
  let pde := directoryEntry P s.mem a
  let address := 4096 * (entryAt s.mem pde).frame
  if P.policy.isAddressSplit address then splitCreated P a pde s
  else
    (pde, storeEntry pde
      (restrict P.mXdSupported (P.policy.isAddressValid address) (entryAt s.mem pde)) s)

/-- An entry is made for a page that has none. -/
def createEntry {P : ProfilePlatform} (f : PageFault P) (s : ProfileState) :
    Option (EntryPointer × ProfileState) :=
  (smiDefaultPFHandler P f.pfAddress s.toTables).map fun t ↦
    restrictCreated P f.pfAddress { s with toTables := t }

/-- The entry for the page, made if there is none. -/
def findOrCreate {P : ProfilePlatform} (f : PageFault P) (s : ProfileState) :
    Option (EntryPointer × ProfileState) :=
  match existingEntry P s.mem f.pfAddress with
  | some entry => some (entry, s)
  | none => createEntry f s

/-- The entry lets the instruction through. -/
def openAbove4G {P : ProfilePlatform} (f : PageFault P) (e : Entry) : Entry :=
  let e := { e with readWrite := true, present := true }
  if f.isFetch then { e with noExecute := false } else e

def restorePageTableAbove4G {P : ProfilePlatform} (f : PageFault P) (s : ProfileState) :
    Option ProfileState :=
  (findOrCreate f s).map fun r ↦
    storeEntry r.1 (openAbove4G f (entryAt r.2.mem r.1)) (recordEntry r.1 r.2)

/-! ### The two handlers -/

/-- `SmmProfilePFHandler`, once the profile has started. -/
def smmProfilePFHandler {P : ProfilePlatform} (f : PageFault P) (s : ProfileState) :
    Option ProfileState :=
  if f.pfAddress ≤ 0xFFFFFFFF#64 then some (restorePageTableBelow4G f s)
  else restorePageTableAbove4G f s

variable {P : ProfilePlatform} {f : PageFault P} {fs : List (PageFault P)}
  {s s' t : ProfileState} {p : EntryPointer} {e : Entry} {a : BitVec 64}

/-- The entry that a fault opens, and the state in which it does. -/
def entryToOpen (f : PageFault P) (s : ProfileState) : Option (EntryPointer × ProfileState) :=
  if f.pfAddress ≤ 0xFFFFFFFF#64 then some (entryBelow4G P s.mem f.pfAddress, s)
  else findOrCreate f s

/-- The entries that the faults open, each with the value it has before it is opened. An entry that
the fault had to make has the value with which it was made. -/
def opened : List (PageFault P) → ProfileState → UndoLog EntryPointer Entry
  | [], _ => []
  | f :: fs, s =>
    match entryToOpen f s, smmProfilePFHandler f s with
    | some (p, t), some s' => (p, entryAt t.mem p) :: opened fs s'
    | _, _ => []

end PurleyFirmware.SmmProfile
