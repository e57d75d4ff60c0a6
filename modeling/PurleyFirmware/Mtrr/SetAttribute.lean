import PurleyFirmware.Mtrr.Settings
import PurleyFirmware.Foundation.Fold
import Mathlib.Logic.Function.Basic

/-!
# Setting the memory type of a range

`MtrrSetMemoryAttributeWorker` with a settings buffer. What lies below 1 MB goes into the fixed
registers, piece by piece. The rest goes into the variable ones: the request is combined with the
registers that it overlaps, it is split into aligned ranges in one of two ways, and these are
programmed into registers that are free.

The loops whose end depends on the addresses, and the recursion of `CheckMemoryAttributeMapped`, are
bounded by a number of rounds; `none` says that the bound was too small.
-/

namespace PurleyFirmware.Mtrr

variable (P : MtrrPlatform)

/-! ### The fixed registers -/

/-- The variables of the last loop of `ProgramFixedMtrr`. -/
structure FixedBytes where
  base : BitVec 64
  length : BitVec 64
  byteShift : ℕ
  clearMask : BitVec 64
  orMask : BitVec 64

/-- The last loop of `ProgramFixedMtrr`, for the bytes that are left. -/
def programBytes (memoryCacheType size : BitVec 64) : ℕ → FixedBytes → FixedBytes
  | 0, b => b
  | n + 1, b =>
    if size ≤ b.length then
      programBytes memoryCacheType size n
        { base := b.base + size
          length := b.length - size
          byteShift := b.byteShift + 1
          clearMask := b.clearMask ||| 0xFF#64 <<< (8 * b.byteShift)
          orMask := b.orMask ||| memoryCacheType <<< (8 * b.byteShift) }
    else b

/-- `ProgramFixedMtrr`: the index of the register, and the masks with the range that is left. -/
def programFixedMtrr (memoryCacheType base length : BitVec 64) :
    Except EfiStatus (ℕ × FixedBytes) :=
  match fixedMtrrOf base with
  | none => .error .unsupported
  | some msrNum =>
    let table := mMtrrLibFixedMtrrTable msrNum
    match (List.range 8).find? fun byteShift ↦
        base = table.baseAddress + BitVec.ofNat 64 byteShift * table.length with
    | none => .error .unsupported
    | some byteShift =>
      let b := programBytes memoryCacheType table.length (8 - byteShift)
        ⟨base, length, byteShift, 0, 0⟩
      if b.byteShift < 8 ∧ b.length ≠ 0 then .error .unsupported else .ok (msrNum, b)

/-- A fixed register is programmed, and the fixed registers are enabled. -/
def MtrrSettings.writeFixed (s : MtrrSettings) (msrNum : ℕ) (b : FixedBytes) : MtrrSettings :=
  { s with
    fixed := Function.update s.fixed msrNum (s.fixed msrNum &&& ~~~b.clearMask ||| b.orMask)
    mtrrDefType := s.mtrrDefType ||| mtrrLibCacheFixedMtrrEnabled }

/-- The range that is left, and the settings. -/
structure SetProgress where
  base : BitVec 64
  length : BitVec 64
  settings : MtrrSettings

/-- The loop over the fixed registers: the status, and how far it got. There are eleven of them, so
it makes at most eleven rounds. -/
def programFixed (memoryCacheType : BitVec 64) : ℕ → SetProgress → EfiStatus × SetProgress
  | 0, p => (.success, p)
  | n + 1, p =>
    if p.base < base1Mb ∧ p.length ≠ 0 then
      match programFixedMtrr memoryCacheType p.base p.length with
      | .error status => (status, p)
      | .ok (msrNum, b) =>
        programFixed memoryCacheType n ⟨b.base, b.length, p.settings.writeFixed msrNum b⟩
    else (.success, p)

/-! ### The checks of the variable registers -/

/-- The range and a shadow entry have an address in common. -/
def Overlaps (first last : BitVec 64) (v : VariableMtrr) : Prop :=
  v.valid = true ∧ ¬ (v.last < first ∨ last < v.baseAddress)

instance {first last : BitVec 64} {v : VariableMtrr} : Decidable (Overlaps first last v) :=
  inferInstanceAs (Decidable (_ ∧ _))

/-- `CheckMemoryAttributeMapped`. The loop's variables are the range that is left, and whether a
conflict was found, which ends it. -/
def checkMemoryAttributeMapped (s : MtrrSettings) (attributes : BitVec 64)
    (shadow : ℕ → VariableMtrr) (n : ℕ) : ℕ → BitVec 64 → BitVec 64 → Option Bool
  | 0, _, _ => none
  | rounds + 1, first, last => do
    let first := if first < base1Mb then base1Mb else first
    let (first, _, conflict) ← (List.range n).foldlM
      (fun (first, last, conflict) i ↦ do
        if conflict = false ∧ Overlaps first last (shadow i) then
          let below ←
            if first < (shadow i).baseAddress then
              checkMemoryAttributeMapped s attributes shadow n rounds first
                ((shadow i).baseAddress - 1)
            else some true
          if below = false then some (first, last, true)
          else
            let first := if first < (shadow i).baseAddress then (shadow i).baseAddress else first
            let above ←
              if (shadow i).last < last then
                checkMemoryAttributeMapped s attributes shadow n rounds
                  ((shadow i).baseAddress + (shadow i).length) last
              else some true
            if above = false then some (first, last, true)
            else some (first, if (shadow i).last < last then (shadow i).last else last, false)
        else some (first, last, conflict))
      (first, last, false)
    some (!conflict && attributes == mtrrGetMemoryAttributeByAddressWorker P s first)

/-- `CheckMemoryAttributeOverlap`. -/
def checkMemoryAttributeOverlap (n : ℕ) (first last : BitVec 64) (shadow : ℕ → VariableMtrr) :
    Bool :=
  (List.range n).any fun i ↦ Overlaps first last (shadow i)

/-! ### Combining -/

/-- The variables of `CombineMemoryAttribute`. -/
structure CombineVars where
  base : BitVec 64
  length : BitVec 64
  endAddress : BitVec 64
  shadow : ℕ → VariableMtrr
  usedMtrr : ℕ
  overwriteExistingMtrr : Bool
  coveredByExistingMtrr : Bool

/-- `InvalidateShadowMtrr`. -/
def CombineVars.invalidateShadowMtrr (c : CombineVars) (i : ℕ) : CombineVars :=
  { c with
    shadow := Function.update c.shadow i { c.shadow i with valid := false }
    usedMtrr := c.usedMtrr - 1 }

/-- The types of which one may be laid over the other. -/
def MayOverlap (attributes type : BitVec 64) : Prop :=
  (attributes = 4 ∧ type = 6) ∨ (attributes = 6 ∧ type = 4) ∨ attributes = 0 ∨ type = 0

instance {attributes type : BitVec 64} : Decidable (MayOverlap attributes type) :=
  inferInstanceAs (Decidable (_ ∨ _ ∨ _ ∨ _))

/-- One turn of the loop of `CombineMemoryAttribute`. -/
def combineStep (attributes : BitVec 64) (c : CombineVars) (i : ℕ) : Except EfiStatus CombineVars :=
  let v := c.shadow i
  if v.valid = false ∨ v.last < c.base ∨ c.endAddress < v.baseAddress then .ok c
  else if attributes = v.type then
    if v.baseAddress ≤ c.base ∧ c.endAddress ≤ v.last then
      .ok { c with coveredByExistingMtrr := true }
    else
      let combineStart := if c.base < v.baseAddress then c.base else v.baseAddress
      let combineEnd := if v.last < c.endAddress then c.endAddress else v.last
      .ok { c.invalidateShadowMtrr i with
        base := combineStart
        length := combineEnd - combineStart + 1
        endAddress := combineEnd
        overwriteExistingMtrr := true }
  else if v.baseAddress = c.base ∧ v.last = c.endAddress then .ok (c.invalidateShadowMtrr i)
  else if MayOverlap attributes v.type then .ok { c with overwriteExistingMtrr := true }
  else .error .accessDenied

/-- `CombineMemoryAttribute`. -/
def combineMemoryAttribute (n : ℕ) (attributes base length : BitVec 64)
    (shadow : ℕ → VariableMtrr) (usedMtrr : ℕ) : Except EfiStatus CombineVars := do
  let c ← (List.range n).foldlM (combineStep attributes)
    ⟨base, length, base + length - 1, shadow, usedMtrr, false, false⟩
  .ok (if c.coveredByExistingMtrr then { c with length := 0 } else c)

/-! ### Splitting -/

/-- `LowBitSet64`. -/
def lowBitSet64 (x : BitVec 64) : ℕ :=
  ((List.range 64).find? fun i ↦ x.getLsbD i).getD 64

/-- The alignment of a base address. -/
def alignment (base : BitVec 64) : BitVec 64 := 1#64 <<< lowBitSet64 base

/-- `GetPowerOfTwo32`. -/
def getPowerOfTwo32 (x : BitVec 32) : BitVec 32 := if x = 0 then 0 else 1#32 <<< x.toNat.log2

/-- `Power2MaxMemory`. -/
def power2MaxMemory (length : BitVec 64) : BitVec 64 :=
  if length >>> 32 ≠ 0 then (getPowerOfTwo32 ((length >>> 32).setWidth 32)).setWidth 64 <<< 32
  else (getPowerOfTwo32 (length.setWidth 32)).setWidth 64

/-- The first loop of `GetMtrrNumberAndDirection`: the aligned ranges at the base, and what is left
of the length. -/
def countAligned : ℕ → BitVec 64 → BitVec 64 → Option (ℕ × BitVec 64)
  | 0, _, _ => none
  | rounds + 1, base, length =>
    if length < alignment base then some (0, length)
    else (countAligned rounds (base + alignment base) (length - alignment base)).map fun r ↦
      (r.1 + 1, r.2)

/-- The other loops: the powers of two that make up the length. -/
def countPowers : ℕ → BitVec 64 → Option ℕ
  | 0, _ => none
  | rounds + 1, length =>
    let rest := length - power2MaxMemory length
    if rest = 0 then some 1 else (countPowers rounds rest).map (· + 1)

/-- `GetMtrrNumberAndDirection`: the number of registers, and whether the direction is positive. -/
def getMtrrNumberAndDirection (rounds : ℕ) (base length : BitVec 64) : Option (ℕ × Bool) := do
  let (aligned, rest) ← if base ≠ 0 then countAligned rounds base length else some (0, length)
  if base ≠ 0 ∧ rest = 0 then some (aligned, true)
  else
    let positive ← countPowers rounds rest
    let holes ← countPowers rounds (power2MaxMemory (rest <<< 1) - rest)
    if positive ≤ holes + 1 then some (aligned + positive, true)
    else some (aligned + (holes + 1), false)

/-! ### Programming -/

/-- `InvalidateMtrr`. -/
def invalidateMtrr (n : ℕ) (shadow : ℕ → VariableMtrr) (variableMtrr : ℕ → MtrrVariableSetting) :
    ℕ → MtrrVariableSetting :=
  fun i ↦
    if i < n ∧ (shadow i).valid = false ∧ (shadow i).used = true then ⟨0, 0⟩ else variableMtrr i

/-- The first register that is not enabled, from a given one on. -/
def findUnused (n : ℕ) (variableMtrr : ℕ → MtrrVariableSetting) (msrNum : ℕ) : ℕ :=
  ((List.range n).find? fun i ↦ decide (msrNum ≤ i ∧ ¬ (variableMtrr i).Enabled)).getD n

/-- `ProgramVariableMtrr`. -/
def programVariableMtrr (variableMtrr : ℕ → MtrrVariableSetting) (msrNum : ℕ)
    (base length memoryCacheType : BitVec 64) : ℕ → MtrrVariableSetting :=
  Function.update variableMtrr msrNum
    { base := base &&& mtrrValidAddressMask P ||| memoryCacheType
      mask := ~~~(length - 1) &&& mtrrValidAddressMask P ||| mtrrLibCacheMtrrEnabled }

/-- The registers while they are programmed, the first that may be free, and the range left. -/
structure ProgramVars where
  variableMtrr : ℕ → MtrrVariableSetting
  msrNum : ℕ
  base : BitVec 64
  length : BitVec 64

/-- A range is programmed into the first register that is free. -/
def ProgramVars.program (p : ProgramVars) (base length memoryCacheType : BitVec 64) :
    ProgramVars :=
  let msrNum := findUnused (getVariableMtrrCountWorker P) p.variableMtrr p.msrNum
  { p with
    variableMtrr := programVariableMtrr P p.variableMtrr msrNum base length memoryCacheType
    msrNum := msrNum }

/-- The loop over the aligned ranges at the base. -/
def programAligned (memoryCacheType : BitVec 64) : ℕ → ProgramVars → Option ProgramVars
  | 0, _ => none
  | rounds + 1, p =>
    if p.length < alignment p.base then some p
    else programAligned memoryCacheType rounds
      { p.program P p.base (alignment p.base) memoryCacheType with
        base := p.base + alignment p.base
        length := p.length - alignment p.base }

/-- One turn of the last loop, upwards from the base or downwards. -/
def ProgramVars.power (memoryCacheType : BitVec 64) (positive : Bool) (p : ProgramVars) :
    ProgramVars :=
  let length := power2MaxMemory p.length
  let base := if positive then p.base else p.base - length
  { p.program P base length memoryCacheType with
    base := if positive then base + length else base
    length := p.length - length }

/-- The last loop, over the powers of two. -/
def programPowers (memoryCacheType : BitVec 64) (positive : Bool) :
    ℕ → ProgramVars → Option ProgramVars
  | 0, _ => none
  | rounds + 1, p =>
    if (p.power P memoryCacheType positive).length = 0 then
      some (p.power P memoryCacheType positive)
    else programPowers memoryCacheType positive rounds (p.power P memoryCacheType positive)

/-- The programming of the variable registers. -/
def programVariables (rounds : ℕ) (memoryCacheType : BitVec 64) (positive : Bool)
    (p : ProgramVars) : Option (ℕ → MtrrVariableSetting) := do
  let q ← if p.base ≠ 0 then programAligned P memoryCacheType rounds p else some p
  if p.base ≠ 0 ∧ q.length = 0 then some q.variableMtrr
  else if positive then
    (programPowers P memoryCacheType true rounds q).map (·.variableMtrr)
  else
    let length := power2MaxMemory (q.length <<< 1)
    (programPowers P MtrrMemoryCacheType.cacheUncacheable.value false rounds
      { q.program P q.base length memoryCacheType with
        base := q.base + length
        length := length - q.length }).map (·.variableMtrr)

/-! ### The worker -/

/-- The part of the worker that deals with the variable registers. -/
def setVariables (rounds : ℕ) (attributes : MtrrMemoryCacheType) (p : SetProgress) :
    Option (EfiStatus × MtrrSettings) := do
  let s := p.settings
  let base := if p.base = base1Mb then 0 else p.base
  let length := if p.base = base1Mb then p.length + base1Mb else p.length
  let count := getVariableMtrrCountWorker P
  let firmwareCount := getFirmwareVariableMtrrCountWorker P
  let (shadow, usedMtrr) :=
    mtrrGetMemoryAttributeInVariableMtrrWorker P s.variableMtrr firmwareCount
  let mapped ← checkMemoryAttributeMapped P s attributes.value shadow firmwareCount rounds base
    (base + length - 1)
  if mapped then some (.success, s)
  else
    let combined := if checkMemoryAttributeOverlap firmwareCount base (base + length - 1) shadow
      then combineMemoryAttribute firmwareCount attributes.value base length shadow usedMtrr
      else .ok ⟨base, length, base + length - 1, shadow, usedMtrr, false, false⟩
    match combined with
    | .error status => some (status, s)
    | .ok c =>
      let unused := { s with variableMtrr := invalidateMtrr count c.shadow s.variableMtrr }
      if c.length = 0 then some (.success, unused)
      else if c.overwriteExistingMtrr = false ∧
          attributes.value = mtrrGetDefaultMemoryTypeWorker s then some (.success, unused)
      else
        let (mtrrNumber, positive) ← getMtrrNumberAndDirection rounds c.base c.length
        if firmwareCount < c.usedMtrr + mtrrNumber then some (.outOfResources, s)
        else
          let variableMtrr ← programVariables P rounds attributes.value positive
            ⟨unused.variableMtrr, findUnused count unused.variableMtrr 0, c.base, c.length⟩
          some (.success, { s with variableMtrr := variableMtrr })

/-- The end of the worker: the registers are enabled unless there was an error. -/
def setDone (status : EfiStatus) (s : MtrrSettings) : EfiStatus × MtrrSettings :=
  (status, if status.isError then s
    else { s with mtrrDefType := s.mtrrDefType ||| mtrrLibCacheMtrrEnabled })

/-- `MtrrSetMemoryAttributeWorker`. -/
def mtrrSetMemoryAttributeWorker (rounds : ℕ) (s : MtrrSettings) (base length : BitVec 64)
    (attributes : MtrrMemoryCacheType) : Option (EfiStatus × MtrrSettings) :=
  if isMtrrSupported P = false then some (setDone .unsupported s)
  else if length = 0 then some (setDone .invalidParameter s)
  else if base &&& ~~~mtrrValidAddressMask P ≠ 0 ∨ length &&& ~~~mtrrValidAddressMask P ≠ 0 then
    some (setDone .unsupported s)
  else
    let (status, p) := programFixed attributes.value mtrrNumberOfFixedMtrr ⟨base, length, s⟩
    if status.isError then some (setDone status p.settings)
    else if base < base1Mb ∧ p.length = 0 then some (setDone status p.settings)
    else (setVariables P rounds attributes p).map fun r ↦ setDone r.1 r.2

/-- `MtrrSetMemoryAttributeInMtrrSettings`. -/
def mtrrSetMemoryAttributeInMtrrSettings (rounds : ℕ) (s : MtrrSettings) (base length : BitVec 64)
    (attributes : MtrrMemoryCacheType) : Option (EfiStatus × MtrrSettings) :=
  mtrrSetMemoryAttributeWorker P rounds s base length attributes

end PurleyFirmware.Mtrr
