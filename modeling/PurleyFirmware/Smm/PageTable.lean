import Mathlib.Data.List.FinRange
import PurleyFirmware.Foundation.LinkedTree
import PurleyFirmware.Foundation.Runs
import PurleyFirmware.Foundation.Unsigned

/-!
# The SMM page tables and their page pool

Page tables for addresses above 4 GB are built on demand, by the page-fault handler, from a pool of
eight pages (`X64/PageTbl.c`). When the pool is empty `ReclaimPages` frees a lower table: of the
tables without sub-tables it picks one whose entry has the smallest access record. This module is
the code: entries, `ReclaimPages`, `AllocPage`, the handler `SmiDefaultPFHandler`, and the tables
that `SmmInitPageTable` leaves behind.

## Memory

A page is named by its number, and an entry is its bit fields (`Entry`). `ReclaimPages` and the
handler read the fields of `Link` to find their way; the others only record what was accessed and
how the page may be used. A page in the pool holds the links of the list; no code reads anything
else in it before `ZeroMem` has cleared it, so the pool is a list of page numbers.

## The handler in small steps

The handler holds pointers into the tables while `AllocPage` may rewrite them, and the other
processors set accessed flags at any time. It is therefore a machine that stops after each
`AllocPage`: `walk` is the head of the inner loop, `store` the assignment to `PageTable[PTIndex]`
that follows. `ASSERT` is taken as in a release build, where it does nothing.
-/

namespace PurleyFirmware.PageTable

/-! ### Entries -/

/-- The fields of an entry that say where it leads. -/
structure Link where
  /-- `IA32_PG_P`. -/
  present : Bool
  /-- `IA32_PG_PS`: the entry maps a large page. -/
  pageSize : Bool
  /-- `IA32_PG_PMNT`: the entry is masked and never reclaimed. -/
  pmnt : Bool
  /-- The page that the entry points to, `Entry & gPhyMask`. -/
  frame : ℕ
  /-- The sub-entries number, in bits 52 to 60. -/
  subEntries : BitVec 9
  deriving DecidableEq, Repr

/-- An entry of a page table. -/
structure Entry extends Link where
  /-- `IA32_PG_RW`. -/
  readWrite : Bool
  /-- `IA32_PG_NX`. -/
  noExecute : Bool
  /-- `IA32_PG_A`. -/
  accessed : Bool
  /-- The access record, in bits 9 to 11. -/
  acc : BitVec 3
  deriving DecidableEq, Repr

/-- The entry `0`. -/
def Entry.zero : Entry where
  present := false
  pageSize := false
  pmnt := false
  frame := 0
  subEntries := 0#9
  readWrite := false
  noExecute := false
  accessed := false
  acc := 0#3

/-- `e | f`. -/
def Entry.or (e f : Entry) : Entry where
  present := e.present || f.present
  pageSize := e.pageSize || f.pageSize
  pmnt := e.pmnt || f.pmnt
  frame := e.frame ||| f.frame
  subEntries := e.subEntries ||| f.subEntries
  readWrite := e.readWrite || f.readWrite
  noExecute := e.noExecute || f.noExecute
  accessed := e.accessed || f.accessed
  acc := e.acc ||| f.acc

def setSubEntriesNum (e : Entry) (subEntryNum : ℕ) : Entry :=
  { e with subEntries := BitVec.ofNat 9 (if subEntryNum > 511 then 511 else subEntryNum) }

def getSubEntriesNum (e : Entry) : ℕ := e.subEntries.toNat

def setAccNum (e : Entry) (acc : ℕ) : Entry := { e with acc := BitVec.ofNat 3 acc }

def getAccNum (e : Entry) : ℕ := e.acc.toNat

/-- `GetAndUpdateAccNum`: the access record, and the entry with the record one lower, or with the
accessed flag cleared. -/
def getAndUpdateAccNum (e : Entry) : ℕ × Entry :=
  if e.accessed then (7 + 8, setAccNum { e with accessed := false } 7)
  else if getAccNum e ≠ 0 then (getAccNum e, setAccNum e (getAccNum e - 1))
  else (getAccNum e, e)

/-- The 512 entries of each page. -/
abbrev Memory := ℕ → Fin 512 → Entry

/-- `ZeroMem` of a page. -/
def zeroMem (m : Memory) (page : ℕ) : Memory := fun t k ↦ if t = page then .zero else m t k

/-- What the page-table code keeps between two page faults. -/
structure Tables where
  mem : Memory
  /-- `mPagePool`, the next free page first. -/
  pagePool : List ℕ
  /-- `ReservedPage`, 0 when no page is reserved. -/
  reservedPage : ℕ

/-! ### Finding the leaf entry with the smallest access record -/

/-- A leaf entry: the indices `Pml4Index`, `PdptIndex`, `PdtIndex`, of which the last ones are
missing when the leaf is further up, and the address of the entry. -/
structure LeafEntry where
  pml4Index : Fin 512
  pdptIndex : Option (Fin 512)
  pdtIndex : Option (Fin 512)
  page : ℕ
  index : Fin 512
  deriving DecidableEq, Repr

/-- The memory during the search, and `MinAcc` with the entry it was found in; `none` is
`MinAcc = (UINT64)-1`. -/
structure Search where
  mem : Memory
  min : Option (ℕ × LeafEntry)

/-- The access record of a leaf entry is compared with `MinAcc`, unless its page is the reserved
one. -/
def compareAcc (reserved : ℕ) (l : LeafEntry) (s : Search) : Search :=
  if reserved ≠ (s.mem l.page l.index).frame then
    let r := getAndUpdateAccNum (s.mem l.page l.index)
    { mem := setSlot s.mem l.page l.index r.2
      min :=
        match s.min with
        | some (minAcc, l') => if r.1 < minAcc then some (r.1, l) else some (minAcc, l')
        | none => some (r.1, l) }
  else s

/-- One turn of the loop over the entries of a table below the PML4 table. The flag is
`PML4EIgnore` or `PDPTEIgnore`; `visit` is what is done for an entry that leads to a lower table. -/
def scanEntry (visit : Fin 512 → Search → Search) (page : ℕ) (st : Search × Bool) (k : Fin 512) :
    Search × Bool :=
  let e := st.1.mem page k
  if !e.present || e.pmnt then (st.1, st.2 || e.pmnt)
  else if !e.pageSize then (visit k st.1, true)
  else st

def scanTable (visit : Fin 512 → Search → Search) (page : ℕ) (s : Search) : Search × Bool :=
  (List.finRange 512).foldl (scanEntry visit page) (s, false)

/-- The loop over `PdtIndex`. -/
def scanPdt (reserved : ℕ) (i j : Fin 512) (pdt : ℕ) : Search → Search × Bool :=
  scanTable (fun k ↦ compareAcc reserved ⟨i, some j, some k, pdt, k⟩) pdt

/-- The loop over `PdptIndex`. -/
def scanPdpt (reserved : ℕ) (i : Fin 512) (pdpt : ℕ) : Search → Search × Bool :=
  scanTable (fun j s ↦
    let r := scanPdt reserved i j (s.mem pdpt j).frame s
    if !r.2 then compareAcc reserved ⟨i, some j, none, pdpt, j⟩ r.1 else r.1) pdpt

/-- One turn of the loop over `Pml4Index`. -/
def scanPml4Entry (reserved pml4 : ℕ) (s : Search) (i : Fin 512) : Search :=
  let e := s.mem pml4 i
  if !e.present || e.pmnt then s
  else
    let r := scanPdpt reserved i e.frame s
    if !r.2 then compareAcc reserved ⟨i, none, none, pml4, i⟩ r.1 else r.1

def scanPml4 (reserved pml4 : ℕ) (m : Memory) : Search :=
  (List.finRange 512).foldl (scanPml4Entry reserved pml4) ⟨m, none⟩

/-! ### Releasing it -/

/-- A page directory or a 2 MB page table was released: the PML4 entry above it. -/
def checkPml4Entry (pml4 : ℕ) (i : Fin 512) (t : Tables) : Tables :=
  let e := t.mem pml4 i
  let subEntriesNum := wrapSub 64 (getSubEntriesNum e) 1
  if t.reservedPage ≠ e.frame ∧ subEntriesNum = 0 then
    { t with pagePool := t.pagePool ++ [e.frame], mem := setSlot t.mem pml4 i .zero }
  else { t with mem := setSlot t.mem pml4 i (setSubEntriesNum e subEntriesNum) }

/-- A 4 KB page table was released: the PDPT entry above it. -/
def checkPdptEntry (pml4 : ℕ) (i j : Fin 512) (t : Tables) : Tables :=
  let pdpt := (t.mem pml4 i).frame
  let e := t.mem pdpt j
  if getSubEntriesNum e = 0 then
    checkPml4Entry pml4 i
      { t with pagePool := t.pagePool ++ [e.frame], mem := setSlot t.mem pdpt j .zero }
  else { t with mem := setSlot t.mem pdpt j (setSubEntriesNum e (getSubEntriesNum e - 1)) }

/-- The entry is cleared and its page inserted into the pool. -/
def releasePage (l : LeafEntry) (t : Tables) : Tables :=
  { t with
    pagePool := t.pagePool ++ [(t.mem l.page l.index).frame]
    mem := setSlot t.mem l.page l.index .zero }

/-- The upper entries of a released leaf entry. -/
def checkUpperEntries (pml4 : ℕ) (l : LeafEntry) (t : Tables) : Tables :=
  match l.pdptIndex, l.pdtIndex with
  | some j, some _ => checkPdptEntry pml4 l.pml4Index j t
  | some _, none => checkPml4Entry pml4 l.pml4Index t
  | none, _ => t

/-- `ReclaimPages`; `none` when it finds no entry and goes through a null pointer. -/
def reclaimPages (pml4 : ℕ) (t : Tables) : Option Tables :=
  let s := scanPml4 t.reservedPage pml4 t.mem
  s.min.map fun r ↦ checkUpperEntries pml4 r.2 (releasePage r.2 { t with mem := s.mem })

/-- `AllocPage`. -/
def allocPage (pml4 : ℕ) (t : Tables) : Option (ℕ × Tables) :=
  (if t.pagePool = [] then reclaimPages pml4 t else some t).bind fun t ↦
    match t.pagePool with
    | [] => none
    | page :: pool => some (page, { t with pagePool := pool, mem := zeroMem t.mem page })

/-! ### The page-fault handler -/

/-- `SMM_PAGE_SIZE_TYPE`. -/
inductive SmmPageSize
  | size4K
  | size2M
  | size1G
  /-- `MaxSmmPageSizeType` and above. -/
  | max
  deriving DecidableEq, Repr

/-- What `GetPlatformPageTableAttribute` answers when it succeeds. -/
structure PlatformAttribute where
  pageSize : SmmPageSize
  numOfPages : ℕ
  pageAttribute : Entry

/-- What the handler has worked out before its loops. -/
structure Fault where
  endBit : ℕ
  numOfPages : ℕ
  pageAttribute : Entry
  deriving DecidableEq, Repr

/-- The handler's place in its loops. -/
structure Cursor where
  index : ℕ
  pfAddress : BitVec 64
  startBit : ℕ
  pageTable : ℕ
  /-- The address in `UpperEntry`, `none` for `NULL`. -/
  upperEntry : Option (ℕ × Fin 512)
  /-- The tables walked to on the way to `pageTable`, that one included. A history variable: the
  code does not keep it. -/
  walked : List ℕ
  deriving DecidableEq, Repr

/-- Where the handler is. -/
inductive Control
  /-- No page fault is handled. -/
  | idle
  /-- At the head of the inner loop. -/
  | walk (f : Fault) (c : Cursor)
  /-- `AllocPage` has returned `page` and the entry is about to be written. -/
  | store (f : Fault) (c : Cursor) (page : ℕ)

/-- What the platform fixes. -/
structure Platform where
  /-- The page of the PML4 table. -/
  pml4 : ℕ
  pml4_ne_zero : pml4 ≠ 0
  /-- `gPhyMask`. -/
  phyMask : BitVec 64
  /-- `mXdEnabled`. -/
  xdEnabled : Bool
  /-- `Low2MBoundary` and `PagesNeeded` of the stack guard, in units of 2 MB. -/
  low2MBoundary : ℕ
  pagesNeeded : ℕ
  stacks_below_4G : low2MBoundary + pagesNeeded ≤ 2048
  /-- The guard pages of the stacks. -/
  guardPage : ℕ → Bool

/-- The page tables and the handler. -/
structure State extends Tables where
  control : Control

/-- `BitFieldRead64 (PFAddress, StartBit, StartBit + 8)`. -/
def ptIndex (c : Cursor) : Fin 512 := Fin.ofNat 512 (c.pfAddress >>> c.startBit).toNat

/-- `BitFieldRead64 (a, b, b + 8)`, of any address. -/
def addressIndex (a : BitVec 64) (b : ℕ) : Fin 512 := Fin.ofNat 512 (a >>> b).toNat

/-- The head of the inner loop for the page at `pfAddress`. -/
def startWalk (P : Platform) (index : ℕ) (pfAddress : BitVec 64) : Cursor where
  index := index
  pfAddress := pfAddress
  startBit := 39
  pageTable := P.pml4
  upperEntry := none
  walked := [P.pml4]

/-- The outer loop: the next page, or the end of the handler. -/
def nextPage (P : Platform) (f : Fault) (index : ℕ) (pfAddress : BitVec 64) : Control :=
  if index < f.numOfPages then .walk f (startWalk P index pfAddress) else .idle

/-- The part of `SmiDefaultPFHandler` before the loops. -/
def faultOf (P : Platform) (answer : Option PlatformAttribute) : Fault :=
  let a := answer.getD ⟨.size2M, 1, .zero⟩
  let nx := fun e : Entry ↦ if P.xdEnabled then { e with noExecute := true } else e
  let large := { a.pageAttribute with pageSize := true }
  let numOfPages := if a.numOfPages > 512 then 512 else a.numOfPages
  match a.pageSize with
  | .size4K => ⟨12, numOfPages, nx a.pageAttribute⟩
  | .size2M => ⟨21, numOfPages, nx large⟩
  | .size1G => ⟨30, numOfPages, nx large⟩
  | .max => ⟨21, numOfPages, nx large⟩

def startFault (P : Platform) (pfAddress : BitVec 64) (answer : Option PlatformAttribute)
    (t : Tables) : State where
  mem := t.mem
  pagePool := t.pagePool
  reservedPage := 0
  control := nextPage P (faultOf P answer) 0 pfAddress

/-- The sub-entries number of `UpperEntry` goes up by one. -/
def countSubEntry (m : Memory) : Option (ℕ × Fin 512) → Memory
  | none => m
  | some (page, k) => setSlot m page k (setSubEntriesNum (m page k) (getSubEntriesNum (m page k) + 1))

/-- The end of the inner loop: the entry is marked as accessed, and the walk goes down to the table
it points to. -/
def descend (f : Fault) (c : Cursor) (t : Tables) : State :=
  let e := t.mem c.pageTable (ptIndex c)
  { t with
    mem := setSlot t.mem c.pageTable (ptIndex c) (setAccNum { e with accessed := true } 7)
    control := .walk f { c with
      startBit := c.startBit - 9
      pageTable := e.frame
      upperEntry := some (c.pageTable, ptIndex c)
      walked := e.frame :: c.walked } }

/-- The entry is present: the walk goes down. -/
def walkDown (f : Fault) (c : Cursor) (t : Tables) : State :=
  descend f c
    (if t.reservedPage = 0 ∧ c.startBit = 39 then
      { t with reservedPage := (t.mem c.pageTable (ptIndex c)).frame }
    else t)

/-- `PageTable[PTIndex] = AllocPage () | IA32_PG_RW | IA32_PG_P`, and what follows. -/
def storeTable (f : Fault) (c : Cursor) (page : ℕ) (t : Tables) : State :=
  descend f c
    { t with
      mem := countSubEntry
        (setSlot t.mem c.pageTable (ptIndex c)
          { Entry.zero with present := true, readWrite := true, frame := page }) c.upperEntry
      reservedPage := if t.reservedPage = 0 then page else t.reservedPage }

/-- The entry for the page itself. -/
def leafEntry (P : Platform) (f : Fault) (pfAddress : BitVec 64) : Entry :=
  f.pageAttribute.or
    { Entry.zero with
      frame := ((pfAddress &&& P.phyMask &&& ~~~((1#64 <<< f.endBit) - 1)) >>> 12).toNat
      accessed := true
      readWrite := true
      present := true }

/-- Filling the new entry, after the inner loop. -/
def fillEntry (P : Platform) (f : Fault) (c : Cursor) (t : Tables) : State where
  mem := countSubEntry
    (setSlot t.mem c.pageTable (ptIndex c) (leafEntry P f c.pfAddress)) c.upperEntry
  pagePool := t.pagePool
  reservedPage := t.reservedPage
  control := nextPage P f (c.index + 1) (c.pfAddress + 1#64 <<< f.endBit)

/-- The handler runs to its next stop. -/
def run (P : Platform) (s : State) : Option State :=
  match s.control with
  | .idle => none
  | .walk f c =>
    if c.startBit > f.endBit then
      if !(s.mem c.pageTable (ptIndex c)).present then
        (allocPage P.pml4 s.toTables).map fun r ↦ { r.2 with control := .store f c r.1 }
      else some (walkDown f c s.toTables)
    else some (fillEntry P f c s.toTables)
  | .store f c page => some (storeTable f c page s.toTables)

/-! ### Runs -/

/-- Who moves. -/
inductive Label
  /-- A page fault at an address, with the platform's answer. -/
  | fault (pfAddress : BitVec 64) (answer : Option PlatformAttribute)
  /-- The handler goes on. -/
  | run
  /-- A processor uses a present entry and sets its accessed flag. -/
  | access (page : ℕ) (k : Fin 512)

/-- One step; `none` when it is not possible. Page faults are handled one at a time, under
`mPFLock`. -/
def next (P : Platform) (s : State) : Label → Option State
  | .fault pfAddress answer =>
    match s.control with
    | .idle => some (startFault P pfAddress answer s.toTables)
    | _ => none
  | .run => run P s
  | .access page k =>
    if (s.mem page k).present then
      some { s with mem := setSlot s.mem page k { s.mem page k with accessed := true } }
    else none

/-- The page of the page-directory-pointer table of the first 4 GB. -/
def Platform.pdpt (P : Platform) : ℕ := P.pml4 + 9

/-- `Gen4GPageTable` on memory that holds `m`. -/
def gen4GPageTable (P : Platform) (m : Memory) : Memory := fun t k ↦
  if t = P.pdpt then
    if k.val < 4 then { Entry.zero with present := true, frame := P.pdpt + (k.val + 1) } else .zero
  else if P.pdpt < t ∧ t < P.pdpt + 5 then
    let region := 512 * (t - (P.pdpt + 1)) + k.val
    if P.low2MBoundary ≤ region ∧ region < P.low2MBoundary + P.pagesNeeded then
      { Entry.zero with
        present := true
        readWrite := true
        frame := P.pdpt + 5 + (region - P.low2MBoundary) }
    else
      { Entry.zero with present := true, readWrite := true, pageSize := true, frame := 512 * region }
  else if P.pdpt + 5 ≤ t ∧ t < P.pdpt + 5 + P.pagesNeeded then
    let page := 512 * (P.low2MBoundary + (t - (P.pdpt + 5))) + k.val
    if P.guardPage page then { Entry.zero with frame := page }
    else { Entry.zero with present := true, readWrite := true, frame := page }
  else m t k

/-- `SmmInitPageTable`: the entries of the first 4 GB are masked, and the pages between the PML4
table and their table are the pool. -/
def smmInitPageTable (P : Platform) (m : Memory) : Tables where
  mem := fun t k ↦
    let e := gen4GPageTable P m t k
    if t = P.pdpt ∧ k.val < 4 then { e with pmnt := true }
    else if t = P.pml4 then
      if k.val = 0 then setSubEntriesNum { Entry.zero with present := true, frame := P.pdpt } 3
      else .zero
    else e
  pagePool := List.range' (P.pml4 + 1) 8
  reservedPage := 0

/-- The page-fault handler and the processors that use its page tables. -/
def system (P : Platform) : LabelledSystem State Label where
  init s := ∃ m, s = { smmInitPageTable P m with control := .idle }
  step s a s' := next P s a = some s'

end PurleyFirmware.PageTable
