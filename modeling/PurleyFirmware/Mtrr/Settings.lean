import PurleyFirmware.Uefi.Status
import Mathlib.Data.Nat.Notation

/-!
# MTRR settings

The memory type range registers of a processor, as `MtrrLib.c` keeps them in a buffer: eleven fixed
ones, eight bytes each, for the first megabyte, and pairs of a base and a mask for the rest. This
module has the data, the tables, the shadow of the variable registers that the library works on, and
the lookup of an address.

What the processor answers (`CPUID`, the capability register) is a parameter. Arrays are functions on
the natural numbers; how many of their elements mean something is told by the counts.
-/

namespace PurleyFirmware.Mtrr

/-! ### The processor -/

/-- What the library asks of the processor and of the platform. -/
structure MtrrPlatform where
  /-- `CPUID(1).EDX[12]`. -/
  mtrrSupported : Bool
  /-- The register `MTRR_LIB_IA32_MTRR_CAP`. -/
  mtrrCap : BitVec 64
  /-- `PcdCpuNumberOfReservedVariableMtrrs`. -/
  pcdCpuNumberOfReservedVariableMtrrs : BitVec 32
  /-- `CPUID(0x80000000).EAX`. -/
  maxExtendedFunction : BitVec 32
  /-- `CPUID(0x80000008).EAX[0..7]`. -/
  physicalAddressBits : BitVec 8
  /-- No processor has more. -/
  physicalAddressBits_le : physicalAddressBits.toNat ≤ 52

variable (P : MtrrPlatform)

/-- `IsMtrrSupported`. -/
def isMtrrSupported : Bool :=
  P.mtrrSupported && P.mtrrCap &&& 0xFF != 0 && P.mtrrCap.getLsbD 8

/-- `GetVariableMtrrCountWorker`. -/
def getVariableMtrrCountWorker : ℕ := (P.mtrrCap &&& 0xFF).toNat

/-- `GetFirmwareVariableMtrrCountWorker`. -/
def getFirmwareVariableMtrrCountWorker : ℕ :=
  getVariableMtrrCountWorker P - P.pcdCpuNumberOfReservedVariableMtrrs.toNat

/-- `MtrrValidBitsMask`, as `MtrrLibInitializeMtrrMask` sets it. -/
def mtrrValidBitsMask : BitVec 64 :=
  if 0x80000008 ≤ P.maxExtendedFunction then 1#64 <<< P.physicalAddressBits.toNat - 1
  else 0xFFFFFFFFF

/-- `MtrrValidAddressMask`, as `MtrrLibInitializeMtrrMask` sets it. -/
def mtrrValidAddressMask : BitVec 64 :=
  if 0x80000008 ≤ P.maxExtendedFunction then mtrrValidBitsMask P &&& 0xFFFFFFFFFFFFF000
  else 0xFFFFFF000

/-! ### The settings -/

/-- `MTRR_MEMORY_CACHE_TYPE`, for a request. -/
inductive MtrrMemoryCacheType
  | cacheUncacheable
  | cacheWriteCombining
  | cacheWriteThrough
  | cacheWriteProtected
  | cacheWriteBack
  | cacheInvalid
  deriving DecidableEq

/-- The number of a cache type in the registers. -/
def MtrrMemoryCacheType.value : MtrrMemoryCacheType → BitVec 64
  | cacheUncacheable => 0
  | cacheWriteCombining => 1
  | cacheWriteThrough => 4
  | cacheWriteProtected => 5
  | cacheWriteBack => 6
  | cacheInvalid => 7

/-- `MTRR_VARIABLE_SETTING`. -/
structure MtrrVariableSetting where
  base : BitVec 64
  mask : BitVec 64
  deriving DecidableEq

/-- `MTRR_SETTINGS`. -/
structure MtrrSettings where
  /-- `Fixed.Mtrr`. -/
  fixed : ℕ → BitVec 64
  /-- `Variables.Mtrr`. -/
  variableMtrr : ℕ → MtrrVariableSetting
  /-- `MtrrDefType`. -/
  mtrrDefType : BitVec 64

/-- `MTRR_LIB_CACHE_MTRR_ENABLED`. -/
def mtrrLibCacheMtrrEnabled : BitVec 64 := 0x800

/-- `MTRR_LIB_CACHE_FIXED_MTRR_ENABLED`. -/
def mtrrLibCacheFixedMtrrEnabled : BitVec 64 := 0x400

/-- A variable register is enabled. -/
def MtrrVariableSetting.Enabled (v : MtrrVariableSetting) : Prop :=
  v.mask &&& mtrrLibCacheMtrrEnabled ≠ 0

instance {v : MtrrVariableSetting} : Decidable v.Enabled := inferInstanceAs (Decidable (_ ≠ _))

/-! ### The fixed registers -/

/-- `FIXED_MTRR`: the first address, and the length for each of its eight bytes. -/
structure FixedMtrr where
  baseAddress : BitVec 64
  length : BitVec 64

/-- `mMtrrLibFixedMtrrTable`. -/
def mMtrrLibFixedMtrrTable (i : ℕ) : FixedMtrr :=
  if i = 0 then ⟨0, 0x10000⟩
  else if i < 3 then ⟨0x80000 + 0x20000 * BitVec.ofNat 64 (i - 1), 0x4000⟩
  else ⟨0xC0000 + 0x8000 * BitVec.ofNat 64 (i - 3), 0x1000⟩

/-- `MTRR_NUMBER_OF_FIXED_MTRR`. -/
def mtrrNumberOfFixedMtrr : ℕ := 11

/-- The address is one of the fixed register. -/
def InFixedMtrr (base : BitVec 64) (i : ℕ) : Prop :=
  (mMtrrLibFixedMtrrTable i).baseAddress ≤ base ∧
    base < (mMtrrLibFixedMtrrTable i).baseAddress + 8 * (mMtrrLibFixedMtrrTable i).length

instance {base : BitVec 64} {i : ℕ} : Decidable (InFixedMtrr base i) :=
  inferInstanceAs (Decidable (_ ∧ _))

/-- The fixed register of an address. -/
def fixedMtrrOf (base : BitVec 64) : Option ℕ :=
  (List.range mtrrNumberOfFixedMtrr).find? fun i ↦ InFixedMtrr base i

/-- The first megabyte's end. -/
def base1Mb : BitVec 64 := 0x100000

/-! ### The shadow of the variable registers -/

/-- `VARIABLE_MTRR`. The number of its register is its index. -/
structure VariableMtrr where
  baseAddress : BitVec 64
  length : BitVec 64
  type : BitVec 64
  valid : Bool
  used : Bool
  deriving DecidableEq

/-- The last address of a shadow entry. -/
def VariableMtrr.last (v : VariableMtrr) : BitVec 64 := v.baseAddress + v.length - 1

/-- `MtrrGetMemoryAttributeInVariableMtrrWorker`, for one register. -/
def shadowMtrr (v : MtrrVariableSetting) : VariableMtrr :=
  if v.Enabled then
    { baseAddress := v.base &&& mtrrValidAddressMask P
      length := (~~~(v.mask &&& mtrrValidAddressMask P) &&& mtrrValidBitsMask P) + 1
      type := v.base &&& 0xFF
      valid := true
      used := true }
  else ⟨0, 0, 0, false, false⟩

/-- `MtrrGetMemoryAttributeInVariableMtrrWorker`: the shadow, and how many registers are used. -/
def mtrrGetMemoryAttributeInVariableMtrrWorker (variableMtrr : ℕ → MtrrVariableSetting) (n : ℕ) :
    (ℕ → VariableMtrr) × ℕ :=
  (fun i ↦ if i < n then shadowMtrr P (variableMtrr i) else ⟨0, 0, 0, false, false⟩,
    (List.range n).countP fun i ↦ (variableMtrr i).Enabled)

/-! ### The lookup -/

/-- `MTRR_CACHE_INVALID_TYPE`. -/
def mtrrCacheInvalidType : BitVec 64 := 7

/-- `MtrrPrecedence`. -/
def mtrrPrecedence (type₁ type₂ : BitVec 64) : BitVec 64 :=
  let type :=
    if type₁ = 0 then 0
    else if type₁ = 1 then if type₂ = 1 ∨ type₂ = 0 then type₂ else mtrrCacheInvalidType
    else if type₁ = 4 then
      if type₂ = 4 ∨ type₂ = 6 then 4 else if type₂ = 0 then 0 else mtrrCacheInvalidType
    else if type₁ = 5 then if type₂ = 5 ∨ type₂ = 0 then type₂ else mtrrCacheInvalidType
    else if type₁ = 6 then
      if type₂ = 0 ∨ type₂ = 4 ∨ type₂ = 6 then type₂ else mtrrCacheInvalidType
    else if type₁ = mtrrCacheInvalidType then type₂
    else mtrrCacheInvalidType
  if type₂ = mtrrCacheInvalidType then type₁ else type

/-- `MtrrGetDefaultMemoryTypeWorker`. -/
def mtrrGetDefaultMemoryTypeWorker (s : MtrrSettings) : BitVec 64 := s.mtrrDefType &&& 7

/-- `GetMemoryCacheTypeFromMtrrType`. -/
def getMemoryCacheTypeFromMtrrType (s : MtrrSettings) (type : BitVec 64) : BitVec 64 :=
  if type = 0 ∨ type = 1 ∨ type = 4 ∨ type = 5 ∨ type = 6 then type
  else mtrrGetDefaultMemoryTypeWorker s

/-- The type that the variable registers give an address, `MTRR_CACHE_INVALID_TYPE` without one. -/
def variableType (s : MtrrSettings) (address : BitVec 64) : BitVec 64 :=
  let shadow := (mtrrGetMemoryAttributeInVariableMtrrWorker P s.variableMtrr
    (getFirmwareVariableMtrrCountWorker P)).1
  (List.range (getVariableMtrrCountWorker P)).foldl
    (fun type i ↦
      if (shadow i).valid = true ∧ (shadow i).baseAddress ≤ address ∧
          address < (shadow i).baseAddress + (shadow i).length then
        mtrrPrecedence type (shadow i).type
      else type)
    mtrrCacheInvalidType

/-- `MtrrGetMemoryAttributeByAddressWorker`. -/
def mtrrGetMemoryAttributeByAddressWorker (s : MtrrSettings) (address : BitVec 64) : BitVec 64 :=
  if s.mtrrDefType &&& mtrrLibCacheMtrrEnabled = 0 then 0
  else
    match if address < base1Mb ∧ s.mtrrDefType &&& mtrrLibCacheFixedMtrrEnabled ≠ 0 then
        fixedMtrrOf address else none with
    | some i =>
      let table := mMtrrLibFixedMtrrTable i
      let subIndex := (address - table.baseAddress) / table.length
      getMemoryCacheTypeFromMtrrType s (s.fixed i >>> (8 * subIndex.toNat) &&& 0xFF)
    | none => getMemoryCacheTypeFromMtrrType s (variableType P s address)

end PurleyFirmware.Mtrr
