import Mathlib.Tactic.SplitIfs
import PurleyFirmware.Smm.PageTable
import PurleyFirmware.Smm.ProtectedRange

/-!
# What SMM may access

`IsAddressValid` and `IsAddressSplit` of `SmmProfile.c`, which say of an address whether its page is
present or execute-disable, and whether it is mapped by 4 KB pages. With the SMM profile they look
the address up in the protected ranges and the split ranges; without it there is SMRAM only, which
`SmrrBase` and `SmrrSize` describe. These have 32 bits, and so have their sums.

`restrict` is what is done to an entry then, in `InitPaging` and in the page-fault handler.
-/

namespace PurleyFirmware.SmmProfile

open PageTable

/-- What the two functions read. -/
structure AccessPolicy where
  /-- `FeaturePcdGet (PcdCpuSmmProfileEnable)`. -/
  smmProfileEnable : Bool
  /-- `mProtectionMemRange`, `mProtectionMemRangeCount` of them. -/
  mProtectionMemRange : List MemoryProtectionRange
  /-- `mSplitMemRange`, `mSplitMemRangeCount` of them. -/
  mSplitMemRange : List MemoryRange
  /-- `mCpuHotPlugData.SmrrBase`. -/
  smrrBase : BitVec 32
  /-- `mCpuHotPlugData.SmrrSize`. -/
  smrrSize : BitVec 32

/-- `(Address >= Base) && (Address < Top)`. -/
def MemoryRange.has (r : MemoryRange) (address : ℕ) : Bool := r.base ≤ address && address < r.top

/-- What `IsAddressValid` returns, and `Nx`. -/
structure Access where
  present : Bool
  nx : Bool
  deriving DecidableEq, Repr

namespace AccessPolicy

variable (P : AccessPolicy)

def isAddressValid (address : ℕ) : Access :=
  if P.smmProfileEnable then
    match P.mProtectionMemRange.find? fun r ↦ r.range.has address with
    | some r => ⟨r.present, r.nx⟩
    | none => ⟨false, true⟩
  else ⟨true, address < P.smrrBase.toNat || (P.smrrBase + P.smrrSize).toNat ≤ address⟩

/-- `mCpuHotPlugData.SmrrBase + mCpuHotPlugData.SmrrSize - BASE_2MB`. -/
def last2MB : ℕ := (P.smrrBase + P.smrrSize - 0x200000#32).toNat

def isAddressSplit (address : ℕ) : Bool :=
  if P.smmProfileEnable then P.mSplitMemRange.any fun r ↦ r.has address
  else if address < P.smrrBase.toNat then P.smrrBase.toNat - address < 2 ^ 21
  else if P.last2MB < address then address - P.last2MB < 2 ^ 21
  else false

end AccessPolicy

/-- The entry for a page is made absent where `IsAddressValid` is `FALSE`, and execute-disable where
`Nx` is set and the processor supports it. -/
def restrict (mXdSupported : Bool) (access : Access) (e : Entry) : Entry :=
  let e := if access.present then e else { e with readWrite := false, present := false }
  if access.nx && mXdSupported then { e with noExecute := true } else e

variable {mXdSupported : Bool} {access : Access} {e : Entry}

@[simp] theorem restrict_present :
    (restrict mXdSupported access e).present = (e.present && access.present) := by
  simp only [restrict]
  split_ifs <;> simp_all

@[simp] theorem restrict_noExecute :
    (restrict mXdSupported access e).noExecute = (e.noExecute || (access.nx && mXdSupported)) := by
  simp only [restrict]
  split_ifs <;> simp_all

end PurleyFirmware.SmmProfile
