import PurleyFirmware.Foundation.BitField
import PurleyFirmware.Foundation.SelectionSort
import PurleyFirmware.Uefi.Status
import Mathlib.Logic.Function.Basic

/-!
# APIC IDs and processor numbers

The functions of `X2Apic.c` that number the processors and choose the APIC mode:
`ConstructNewApicId`, `SortApicId`, `CheckApicId` and `AssignPackageBsp`. The arrays of the source,
the exchange buffer with what the APs reported and the three buffers of the socket ID reassignment,
are functions of the processor number here; how many of their elements mean something is
`numberOfProcessors`.

`sortStep_eq` has the one idea of the sort: what a pass writes, array by array, with a temporary that
holds the new APIC ID first and the hardware's then, is an exchange of two indices in all arrays at
once.
-/

namespace PurleyFirmware.CpuMp

/-! ### Inputs -/

/-- `CPU_SOCKET_ID_INFO`. -/
structure CpuSocketIdInfo where
  defaultSocketId : BitVec 32
  newSocketId : BitVec 32

/-- What the functions read of the platform and of the BSP. -/
structure ApicPlatform where
  /-- `PcdCpuSocketIdReassignmentFlag`, and a processor that supports it. -/
  socketIdReassignmentSupported : Bool
  /-- The bit of the user configuration for it. -/
  socketIdReassignmentConfigured : Bool
  /-- `PcdCpuSocketId`. -/
  socketIdInfo : List CpuSocketIdInfo
  /-- `CPUID(1).EDX[28]`. -/
  multiThread : Bool
  /-- The width of the thread part of an APIC ID, from `CPUID`. -/
  threadBits : ℕ
  /-- The width of its core part. -/
  coreBits : ℕ
  /-- `PcdCpuX2ApicFlag`, and a processor that supports it. -/
  x2ApicCapable : Bool
  /-- The bit of the user configuration for it. -/
  x2ApicConfigured : Bool

/-- What the processors reported, the BSP under index 0 (`WakeupAPAndCollectBist` puts its initial
APIC ID there), and what the allocated buffers held before. -/
structure ProcessorRecords where
  /-- `mExchangeInfo->ApCount`. -/
  apCount : ℕ
  apicId : ℕ → BitVec 32
  bist : ℕ → BitVec 32
  newApicIdPool : ℕ → BitVec 32
  newSocketIdPool : ℕ → BitVec 32
  socketIdAssignedPool : ℕ → Bool

/-- The variables of the module. -/
structure ApicState where
  numberOfProcessors : ℕ
  bspNumber : ℕ
  /-- `BistBuffer[].ApicId`. -/
  apicId : ℕ → BitVec 32
  /-- `BistBuffer[].Bist`. -/
  bist : ℕ → BitVec 32
  newApicId : ℕ → BitVec 32
  newSocketId : ℕ → BitVec 32
  socketIdAssigned : ℕ → Bool
  enableSocketIdReassignment : Bool
  enableX2Apic : Bool

/-- The state after `WakeupAPAndCollectBist`. -/
def ProcessorRecords.initialState (R : ProcessorRecords) : ApicState where
  numberOfProcessors := 1
  bspNumber := 0
  apicId := R.apicId
  bist := R.bist
  newApicId := R.newApicIdPool
  newSocketId := R.newSocketIdPool
  socketIdAssigned := R.socketIdAssignedPool
  enableSocketIdReassignment := false
  enableX2Apic := false

/-! ### Searches -/

/-- `for (Index2 = i; Index2 < ...; Index2++) if (...) break;` with so many indices left: `Index2`
after it. -/
def scanFrom (p : ℕ → Bool) : ℕ → ℕ → ℕ
  | 0, i => i
  | left + 1, i => if p i then i else scanFrom p left (i + 1)

theorem le_scanFrom {p : ℕ → Bool} {left i : ℕ} : i ≤ scanFrom p left i := by
  induction left generalizing i with
  | zero => exact Nat.le_refl i
  | succ left ih =>
    rw [scanFrom]
    split
    · exact Nat.le_refl i
    · exact Nat.le_of_succ_le ih

/-- The search breaks off exactly if there is something to find. -/
theorem scanFrom_lt_iff {p : ℕ → Bool} {left i : ℕ} :
    scanFrom p left i < i + left ↔ ∃ j, i ≤ j ∧ j < i + left ∧ p j = true := by
  induction left generalizing i with
  | zero =>
    rw [scanFrom]
    exact ⟨fun h ↦ absurd h (Nat.lt_irrefl i), fun ⟨j, hij, hj, _⟩ ↦ by omega⟩
  | succ left ih =>
    rw [scanFrom]
    by_cases hp : p i = true
    · rw [if_pos hp]
      exact ⟨fun h ↦ ⟨i, Nat.le_refl i, h, hp⟩, fun _ ↦ by omega⟩
    · rw [if_neg hp, show i + (left + 1) = i + 1 + left by omega, ih]
      constructor
      · rintro ⟨j, hij, hj, hpj⟩
        exact ⟨j, by omega, hj, hpj⟩
      · rintro ⟨j, hij, hj, hpj⟩
        refine ⟨j, ?_, hj, hpj⟩
        rcases Nat.eq_or_lt_of_le hij with rfl | hlt
        · exact absurd hpj hp
        · exact hlt

/-- The double loop over the pairs of the first `n` indices, with its test after the inner loop: the
loop breaks off at a pair that `same` holds of. -/
def anyPair (same : ℕ → ℕ → Bool) (n : ℕ) : Bool :=
  (List.range n).any fun i ↦ decide (scanFrom (same i) (n - (i + 1)) (i + 1) < n)

theorem anyPair_iff {same : ℕ → ℕ → Bool} {n : ℕ} :
    anyPair same n = true ↔ ∃ i j, i < j ∧ j < n ∧ same i j = true := by
  simp only [anyPair, List.any_eq_true, List.mem_range, decide_eq_true_eq]
  constructor
  · rintro ⟨i, hi, hlt⟩
    have hend : i + 1 + (n - (i + 1)) = n := by omega
    obtain ⟨j, hij, hj, hsame⟩ := scanFrom_lt_iff.1 (lt_of_lt_of_eq hlt hend.symm)
    exact ⟨i, j, hij, by omega, hsame⟩
  · rintro ⟨i, j, hij, hj, hsame⟩
    have hend : i + 1 + (n - (i + 1)) = n := by omega
    exact ⟨i, by omega, lt_of_lt_of_eq
      (scanFrom_lt_iff.2 ⟨j, hij, by omega, hsame⟩) hend⟩

/-! ### ConstructNewApicId -/

section

variable (P : ApicPlatform)

/-- `PackageIdBitOffset`, as `ExtractProcessorLocation` gives the two widths. -/
def packageIdBitOffset : ℕ := if P.multiThread then P.threadBits + P.coreBits else 0

/-- `Location.Package`, as `ExtractProcessorLocation` sets it. -/
def locationPackage (apicId : BitVec 32) : BitVec 32 :=
  if P.multiThread then apicId >>> (P.threadBits + P.coreBits) else 0

/-- The test for duplicates in the table of socket IDs. After the inner loop `Index2` is compared
with `Index1`. -/
def duplicateSocketId : Bool :=
  (List.range P.socketIdInfo.length).any fun index1 ↦
    decide (scanFrom (fun index2 ↦
      (P.socketIdInfo[index1]?.map CpuSocketIdInfo.defaultSocketId
          == P.socketIdInfo[index2]?.map CpuSocketIdInfo.defaultSocketId) ||
        (P.socketIdInfo[index1]?.map CpuSocketIdInfo.newSocketId
          == P.socketIdInfo[index2]?.map CpuSocketIdInfo.newSocketId))
      (P.socketIdInfo.length - (index1 + 1)) (index1 + 1) < index1)

/-- The entry of the table for a processor that is to have another socket ID. -/
def reassignment (apicId : BitVec 32) : Option CpuSocketIdInfo :=
  (P.socketIdInfo.find? fun info ↦ locationPackage P apicId == info.defaultSocketId).filter
    fun info ↦ info.defaultSocketId != info.newSocketId

/-- The new APIC ID of a processor. -/
def newApicIdOf (apicId : BitVec 32) : BitVec 32 :=
  match reassignment P apicId with
  | some info => bitFieldWrite apicId (packageIdBitOffset P) 31 info.newSocketId
  | none => apicId

/-- A round of the loop over the processors: the new IDs of one, and the test that its new APIC ID is
unique so far. -/
def assignNewApicId (s : ApicState) (index1 : ℕ) : ApicState :=
  let newApicId := Function.update s.newApicId index1 (newApicIdOf P (s.apicId index1))
  { s with
    newApicId
    newSocketId := match reassignment P (s.apicId index1) with
      | some info => Function.update s.newSocketId index1 info.newSocketId
      | none => s.newSocketId
    socketIdAssigned :=
      Function.update s.socketIdAssigned index1 (reassignment P (s.apicId index1)).isSome
    enableSocketIdReassignment := s.enableSocketIdReassignment &&
      !(List.range index1).any fun index2 ↦ newApicId index1 == newApicId index2 }

/-- `ConstructNewApicId`. The loop over the processors ends once the flag is clear. -/
def constructNewApicId (s : ApicState) : ApicState :=
  if P.socketIdReassignmentSupported && P.socketIdReassignmentConfigured then
    let enable := if P.socketIdInfo.length = 0 then s.enableSocketIdReassignment
      else !duplicateSocketId P
    (List.range s.numberOfProcessors).foldl
      (fun s index1 ↦ if s.enableSocketIdReassignment then assignNewApicId P s index1 else s)
      { s with enableSocketIdReassignment := enable }
  else s

end

/-! ### SortApicId -/

namespace ApicState

/-- The APIC ID a processor is known by. -/
def effectiveApicId (s : ApicState) : ℕ → BitVec 32 :=
  if s.enableSocketIdReassignment then s.newApicId else s.apicId

/-- The writes of a pass that has found the least key, `apicId`, at `index3`. -/
def exchange (s : ApicState) (index1 index3 : ℕ) (apicId : BitVec 32) : ApicState :=
  let bist := Function.update (Function.update s.bist index3 (s.bist index1)) index1 (s.bist index3)
  if s.enableSocketIdReassignment then
    { s with
      newApicId := Function.update (Function.update s.newApicId index3 (s.newApicId index1)) index1
        apicId
      socketIdAssigned := Function.update
        (Function.update s.socketIdAssigned index3 (s.socketIdAssigned index1)) index1
        (s.socketIdAssigned index3)
      newSocketId := Function.update (Function.update s.newSocketId index3 (s.newSocketId index1))
        index1 (s.newSocketId index3)
      -- the temporary now holds the APIC ID of the hardware
      apicId := Function.update (Function.update s.apicId index3 (s.apicId index1)) index1
        (s.apicId index3)
      bist }
  else
    { s with
      apicId := Function.update (Function.update s.apicId index3 (s.apicId index1)) index1 apicId
      bist }

/-- A pass of the sort. -/
def sortStep (apCount : ℕ) (s : ApicState) (index1 : ℕ) : ApicState :=
  let found := scanMin BitVec.toNat s.effectiveApicId
    (List.range' (index1 + 1) (apCount - index1)) (index1, s.effectiveApicId index1)
  if found.1 ≠ index1 then s.exchange index1 found.1 found.2 else s

/-- The search for the processor number of the BSP. -/
def findBsp (s : ApicState) (initialApicId : BitVec 32) : ApicState :=
  { s with
    bspNumber := match (List.range s.numberOfProcessors).find? fun index ↦
        s.apicId index == initialApicId with
      | some index => index
      | none => s.bspNumber }

end ApicState

/-- `SortApicId`. -/
def sortApicId (P : ApicPlatform) (R : ProcessorRecords) : ApicState :=
  let s := R.initialState
  if R.apCount ≠ 0 then
    let s := { s with numberOfProcessors := s.numberOfProcessors + R.apCount }
    let s := constructNewApicId P s
    let s := (List.range R.apCount).foldl (ApicState.sortStep R.apCount) s
    s.findBsp (R.apicId 0)
  else s

/-! ### CheckApicId and AssignPackageBsp -/

/-- `CheckApicId`: the status, and `mEnableX2Apic` after it. -/
def checkApicId (P : ApicPlatform) (s : ApicState) : EfiStatus × Bool :=
  let enableX2Apic := s.enableX2Apic || (P.x2ApicCapable && P.x2ApicConfigured)
  if enableX2Apic then (.success, true)
  else
    let x2ApicIdFound := (List.range s.numberOfProcessors).any fun index1 ↦
      decide (255 ≤ (s.apicId index1).toNat)
    let conflict :=
      if x2ApicIdFound then true
      else if s.enableSocketIdReassignment then
        anyPair (fun i j ↦ (s.newApicId i).setWidth 8 == (s.newApicId j).setWidth 8)
          s.numberOfProcessors
      else
        anyPair (fun i j ↦ (s.apicId i).setWidth 8 == (s.apicId j).setWidth 8)
          s.numberOfProcessors
    if conflict then if P.x2ApicCapable then (.success, true) else (.unsupported, false)
    else (.success, false)

/-- The package of a processor, as `CollectProcessorLocation` has it from the hardware's APIC ID. -/
def packageOf (P : ApicPlatform) (s : ApicState) (index : ℕ) : BitVec 32 :=
  locationPackage P (s.apicId index)

/-- A round of the loop of `AssignPackageBsp`. -/
def packageStep (P : ApicPlatform) (s : ApicState) (t : BitVec 32 × (ℕ → Bool)) (index : ℕ) :
    BitVec 32 × (ℕ → Bool) :=
  if t.1 ≠ packageOf P s index then (packageOf P s index, Function.update t.2 index true) else t

/-- `AssignPackageBsp`: `PackageBsp` of the processors, in a buffer that was zero. -/
def assignPackageBsp (P : ApicPlatform) (s : ApicState) : ℕ → Bool :=
  ((List.range' 1 (s.numberOfProcessors - 1)).foldl (packageStep P s)
    (packageOf P s 0, Function.update (fun _ ↦ false) 0 true)).2

end PurleyFirmware.CpuMp
