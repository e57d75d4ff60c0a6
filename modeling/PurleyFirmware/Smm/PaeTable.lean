import Mathlib.Algebra.Order.Ring.Nat
import PurleyFirmware.Foundation.WordMemory

/-!
# The page table for the first 4 GB

`Gen4GPageTable` of `MpService.c`: a page of four directory pointers, four directories with 2048
entries of 2 MB each, and, with the stack guard, a table of 4 KB pages for every 2 MB region that
holds a guard page. Each processor's stack area begins with a known good stack, and the guard page
is the page after it.

Memory is words of 8 bytes, by their address over 8, so `Pte[Index]` is the word at `Pte / 8 +
Index`. `UINTN` has 64 bits and all addresses are below 4 GB, hence sums are those of `ℕ`.

The walk of the processor (`translate`) reads the directory pointer, the directory entry and, when
that one is not a large page, the table entry. A directory pointer has no R/W bit; the bits above
51 of an entry are not part of an address.
-/

namespace PurleyFirmware.PaeTable

/-- The words of memory. -/
abbrev Words := ℕ → BitVec 64

/-- `IA32_PG_P`. -/
def pgP : ℕ := 1

/-- `IA32_PG_RW`. -/
def pgRw : ℕ := 2

/-- `IA32_PG_PS`. -/
def pgPs : ℕ := 0x80

/-! ### The stacks -/

/-- The stacks of the processors, `NumberOfCpus` areas from `mSmmStackArrayBase` on. -/
structure SmmStacks where
  mSmmStackArrayBase : ℕ
  pcdCpuSmmStackSize : ℕ
  numberOfCpus : ℕ

namespace SmmStacks

variable (s : SmmStacks)

/-- `EFI_SIZE_TO_PAGES (PcdGet32 (PcdCpuSmmStackSize)) + 2`: one page is the known good stack, one
the guard page. -/
def stackPages : ℕ :=
  s.pcdCpuSmmStackSize / 4096 + (if s.pcdCpuSmmStackSize % 4096 = 0 then 0 else 1) + 2

def mSmmStackSize : ℕ := s.stackPages * 4096

def mSmmStackArrayEnd : ℕ := s.mSmmStackArrayBase + s.numberOfCpus * s.mSmmStackSize - 1

/-- `Low2MBoundary`. -/
def low2MBoundary : ℕ := (s.mSmmStackArrayBase + 4096) / 2 ^ 21 * 2 ^ 21

/-- `High2MBoundary`. -/
def high2MBoundary : ℕ :=
  (s.mSmmStackArrayEnd - s.mSmmStackSize + 4096 * 2) / 2 ^ 21 * 2 ^ 21

def pagesNeeded : ℕ := (s.high2MBoundary - s.low2MBoundary) / 2 ^ 21 + 1

/-- What `AllocatePages` promises of the stacks: whole pages below 4 GB, for one processor at
least. -/
structure Placed : Prop where
  aligned : s.mSmmStackArrayBase % 4096 = 0
  pos : 0 < s.numberOfCpus
  below4G : s.mSmmStackArrayBase + s.numberOfCpus * s.mSmmStackSize ≤ 2 ^ 32

/-- The address of the guard page of a processor. -/
def guardAddress (i : ℕ) : ℕ := s.mSmmStackArrayBase + 4096 + i * s.mSmmStackSize

/-- The page with this number is the guard page of a processor. -/
def IsGuardPage (page : ℕ) : Prop := ∃ i < s.numberOfCpus, 4096 * page = s.guardAddress i

instance (page : ℕ) : Decidable (s.IsGuardPage page) :=
  inferInstanceAs (Decidable (∃ i < _, _))

end SmmStacks

/-! ### `Gen4GPageTable` -/

/-- `BitFieldRead32`. -/
def bitFieldRead32 (operand startBit endBit : ℕ) : ℕ :=
  operand / 2 ^ startBit % 2 ^ (endBit - startBit + 1)

/-- While the entries of one table are filled in. -/
structure Fill where
  mem : Words
  guardPage : ℕ
  pageAddress : ℕ

/-- One entry of the table at `pages`. -/
def fillEntry (s : SmmStacks) (pages : ℕ) (t : Fill) (index : ℕ) : Fill :=
  if t.pageAddress = t.guardPage then
    { mem := Function.update t.mem (pages / 8 + index) (BitVec.ofNat 64 t.pageAddress)
      guardPage :=
        if t.guardPage + s.mSmmStackSize > s.mSmmStackArrayEnd then 0
        else t.guardPage + s.mSmmStackSize
      pageAddress := t.pageAddress + 4096 }
  else
    { mem := Function.update t.mem (pages / 8 + index)
        (BitVec.ofNat 64 (t.pageAddress + pgRw + pgP))
      guardPage := t.guardPage
      pageAddress := t.pageAddress + 4096 }

/-- While the regions are split. -/
structure Split where
  mem : Words
  guardPage : ℕ
  pages : ℕ

/-- The directory entry of the region at `pageIndex` is linked to a table, which is filled in. -/
def splitRegion (s : SmmStacks) (pageTable : ℕ) (t : Split) (pageIndex : ℕ) : Split :=
  let pte := (t.mem (pageTable / 8 + bitFieldRead32 pageIndex 30 31)).toNat / 4096 * 4096
  let mem := Function.update t.mem (pte / 8 + bitFieldRead32 pageIndex 21 29)
    (BitVec.ofNat 64 (t.pages + pgRw + pgP))
  let filled := (List.range 512).foldl (fillEntry s t.pages) ⟨mem, t.guardPage, pageIndex⟩
  ⟨filled.mem, filled.guardPage, t.pages + 4096⟩

/-- The directory pointers, and the directories of large pages. -/
def fillDirectories (pageTable : ℕ) (m : Words) : Words :=
  let zeroed := fillWords m (pageTable / 8) 512 fun _ ↦ 0#64
  let pointers := fillWords zeroed (pageTable / 8) 4 fun index ↦
    BitVec.ofNat 64 (pageTable + 4096 * (index + 1) + pgP)
  fillWords pointers (pageTable / 8 + 512) 2048 fun index ↦
    BitVec.ofNat 64 (index * 2 ^ 21 + pgPs + pgRw + pgP)

/-- `Gen4GPageTable`, with the table that is returned at `pageTable`: the memory after it. -/
def gen4GPageTable (stackGuard : Bool) (s : SmmStacks) (pageTable : ℕ) (m : Words) : Words :=
  let directories := fillDirectories pageTable m
  if stackGuard then
    -- the rounds of `PageIndex <= High2MBoundary; PageIndex += SIZE_2MB`
    let rounds := (s.high2MBoundary + 2 ^ 21 - s.low2MBoundary) / 2 ^ 21
    ((List.range rounds).foldl
      (fun t round ↦ splitRegion s pageTable t (s.low2MBoundary + round * 2 ^ 21))
      ⟨directories, s.mSmmStackArrayBase + 4096, pageTable + 4096 * 5⟩).mem
  else directories

/-! ### The walk -/

/-- What the walk finds for a page of 4 KB. -/
structure Translation where
  present : Bool
  /-- The number of the physical page. -/
  frame : ℕ
  writable : Bool
  pat : Bool
  cd : Bool
  wt : Bool
  deriving DecidableEq, Repr

/-- Bits 12 to 51 of an entry. -/
def frameOf (e : BitVec 64) : ℕ := e.toNat / 4096 % 2 ^ 40

/-- The translation by a directory entry for 2 MB: bit 12 selects PAT, and the address begins at
bit 21. -/
def translateLarge (pdpte pde : BitVec 64) (page : ℕ) : Translation where
  present := pdpte.getLsbD 0 && pde.getLsbD 0
  frame := frameOf pde / 512 * 512 + page % 512
  writable := pde.getLsbD 1
  pat := pde.getLsbD 12
  cd := pde.getLsbD 4
  wt := pde.getLsbD 3

/-- The translation by a table entry: bit 7 selects PAT. -/
def translateSmall (pdpte pde pte : BitVec 64) : Translation where
  present := pdpte.getLsbD 0 && pde.getLsbD 0 && pte.getLsbD 0
  frame := frameOf pte
  writable := pde.getLsbD 1 && pte.getLsbD 1
  pat := pte.getLsbD 7
  cd := pte.getLsbD 4
  wt := pte.getLsbD 3

/-- The walk for the page, from the directory pointers in the page `pdpt`. -/
def translate (m : Words) (pdpt page : ℕ) : Translation :=
  let pdpte := m (512 * pdpt + page / 2 ^ 18)
  let pde := m (512 * frameOf pdpte + page / 512 % 512)
  if pde.getLsbD 7 then translateLarge pdpte pde page
  else translateSmall pdpte pde (m (512 * frameOf pde + page % 512))

end PurleyFirmware.PaeTable
