import PurleyFirmware.Mtrr.AttributeMapped
import PurleyFirmware.Mtrr.ErrorReturns
import PurleyFirmware.Mtrr.GcdSpaces
import PurleyFirmware.Mtrr.Programming

/-!
# The GCD memory spaces after a refresh

`RefreshGcdMemoryAttributes` makes the attributes of the GCD memory spaces follow the MTRRs. It does
not look up the type of an address. It sets all spaces to the default type first, then goes through
the variable registers with WB, through those with neither WB nor UC, through those with UC, and
last through the fixed ones, where neighbours with one type are put together. What is set later
wins, and that this gives the type which the lookup of `MtrrLib.c` finds is `paint_refreshCalls`.

The types are painted on the attributes that a descriptor had. `EFI_MEMORY_CACHETYPE_MASK` takes its
old cache type out of them, but has no `EFI_MEMORY_WP`: this bit stays. So the refresh mirrors the
MTRRs exactly if the descriptors that have the bit are WP throughout
(`mirrorsMtrrs_iff`).
-/

namespace PurleyFirmware.Mtrr

/-! ### The code -/

/-- `GetMemorySpaceAttributeFromMtrrType`. -/
def getMemorySpaceAttributeFromMtrrType (mtrrAttributes : BitVec 8) : BitVec 64 :=
  if mtrrAttributes = 0 then efiMemoryUc
  else if mtrrAttributes = 1 then efiMemoryWc
  else if mtrrAttributes = 4 then efiMemoryWt
  else if mtrrAttributes = 5 then efiMemoryWp
  else if mtrrAttributes = 6 then efiMemoryWb
  else 0

/-- `GetFirmwareVariableMtrrCount`. -/
def getFirmwareVariableMtrrCount (P : MtrrPlatform) : ℕ :=
  if isMtrrSupported P then getFirmwareVariableMtrrCountWorker P else 0

/-- `MtrrGetDefaultMemoryType`. -/
def mtrrGetDefaultMemoryType (P : MtrrPlatform) (s : MtrrSettings) : BitVec 64 :=
  if isMtrrSupported P then mtrrGetDefaultMemoryTypeWorker s else 0

/-- `MtrrGetFixedMtrr`, into a buffer on the stack. -/
def mtrrGetFixedMtrr (P : MtrrPlatform) (s : MtrrSettings) (stack : ℕ → BitVec 64) :
    ℕ → BitVec 64 :=
  if isMtrrSupported P then s.fixed else stack

/-- What `MtrrGetMemoryAttributeInVariableMtrr` puts into `VariableMtrr`, as far as it is read. -/
def firmwareVariableMtrrs (P : MtrrPlatform) (s : MtrrSettings) : List VariableMtrr :=
  (List.range (getFirmwareVariableMtrrCount P)).map
    (mtrrGetMemoryAttributeInVariableMtrrWorker P s.variableMtrr
      (getFirmwareVariableMtrrCountWorker P)).1

/-- The sections of the fixed registers, with their attributes. `mFixedMtrrTable` is the same as
`mMtrrLibFixedMtrrTable`. -/
def fixedSections (fixed : ℕ → BitVec 64) : List (Stroke (BitVec 64)) :=
  (List.range mtrrNumberOfFixedMtrr).flatMap fun index ↦ (List.range 8).map fun subIndex ↦
    ⟨byteAddress index subIndex, byteAddress index (subIndex + 1),
      getMemorySpaceAttributeFromMtrrType ((fixed index >>> (subIndex * 8)).setWidth 8)⟩

/-- One loop over the variable registers: the calls of `SetGcdMemorySpaceAttributes` for those whose
type is of a kind. -/
def variablePass (P : MtrrPlatform) (s : MtrrSettings) (kind : BitVec 64 → Prop)
    [DecidablePred kind] (attributes : BitVec 64 → BitVec 64) : List (Stroke (BitVec 64)) :=
  ((firmwareVariableMtrrs P s).filter fun v ↦ v.valid = true ∧ kind v.type).map fun v ↦
    ⟨v.baseAddress.toNat, v.baseAddress.toNat + v.length.toNat, attributes v.type⟩

/-- The loops for WB, for neither WB nor UC, and for UC. -/
def variableCalls (P : MtrrPlatform) (s : MtrrSettings) : List (Stroke (BitVec 64)) :=
  variablePass P s (fun type ↦ type = 6) (fun _ ↦ efiMemoryWb) ++
    variablePass P s (fun type ↦ type ≠ 6 ∧ type ≠ 0)
      (fun type ↦ getMemorySpaceAttributeFromMtrrType (type.setWidth 8)) ++
    variablePass P s (fun type ↦ type = 0) fun _ ↦ efiMemoryUc

/-- All calls of `SetGcdMemorySpaceAttributes` in `RefreshGcdMemoryAttributes`, in order. -/
def refreshCalls (P : MtrrPlatform) (s : MtrrSettings) (stack : ℕ → BitVec 64) :
    List (Stroke (BitVec 64)) :=
  variableCalls P s ++ Run.mergeRuns 0 (fixedSections (mtrrGetFixedMtrr P s stack))

/-- The first loop of `RefreshGcdMemoryAttributes`: the default type for all spaces that exist. -/
def defaultRequests (map : List GcdMemorySpaceDescriptor) (attributes : BitVec 64) :
    List SetRequest :=
  (map.filter fun d ↦ d.gcdMemoryType ≠ .nonExistent).map fun d ↦
    ⟨d.baseAddress, d.length, d.withCacheType attributes⟩

/-- All calls of the service in `RefreshGcdMemoryAttributes`, in order. -/
def refreshRequests (P : MtrrPlatform) (s : MtrrSettings) (stack : ℕ → BitVec 64)
    (map : List GcdMemorySpaceDescriptor) : List SetRequest :=
  defaultRequests map
      (getMemorySpaceAttributeFromMtrrType ((mtrrGetDefaultMemoryType P s).setWidth 8)) ++
    (refreshCalls P s stack).flatMap fun c ↦
      setGcdMemorySpaceAttributes map c.start (c.stop - c.start) c.value

/-- `RefreshGcdMemoryAttributes`. -/
def refreshGcdMemoryAttributes (G : GcdServices) (P : MtrrPlatform) (s : MtrrSettings)
    (stack : ℕ → BitVec 64) (σ : G.State) : G.State :=
  (refreshRequests P s stack (G.getMemorySpaceMap σ)).foldl
    (fun σ r ↦ G.setMemorySpaceAttributes r σ) σ

/-! ### What it is for -/

/-- The attribute bit of a memory type. -/
def typeAttribute (type : BitVec 64) : BitVec 64 :=
  getMemorySpaceAttributeFromMtrrType (type.setWidth 8)

/-- All attribute bits that stand for a cache type. -/
def efiMemoryCacheTypes : BitVec 64 := efiMemoryCachetypeMask ||| efiMemoryWp

/-- **An address follows the MTRRs.** Before the refresh, `d` was its descriptor. -/
structure MirrorsMtrr (P : MtrrPlatform) (s : MtrrSettings) (d : GcdMemorySpaceDescriptor) (a : ℕ)
    (m : GcdMemorySpace) : Prop where
  /-- It has the bit of its type, if it is capable of it, and no other. -/
  cacheType : m.attributes &&& efiMemoryCacheTypes
    = typeAttribute (mtrrGetMemoryAttributeByAddressWorker P s (BitVec.ofNat 64 a)) &&&
      d.capabilities
  /-- The other bits are as before. -/
  others : m.attributes &&& ~~~efiMemoryCacheTypes = d.attributes &&& ~~~efiMemoryCacheTypes

/-- **After the refresh**, all addresses that exist follow the MTRRs. -/
def MirrorsMtrrs (G : GcdServices) (P : MtrrPlatform) (s : MtrrSettings) (stack : ℕ → BitVec 64)
    (σ : G.State) : Prop :=
  ∀ d ∈ G.getMemorySpaceMap σ, d.gcdMemoryType ≠ .nonExistent → ∀ a, d.Covers a →
    ∃ m, spaceAt (G.getMemorySpaceMap (refreshGcdMemoryAttributes G P s stack σ)) a = some m ∧
      MirrorsMtrr P s d a m

/-- Types that two registers for one address may have. -/
def CompatibleTypes (type₁ type₂ : BitVec 64) : Prop :=
  type₁ = 0 ∨ type₂ = 0 ∨ type₁ = type₂ ∨ (type₁ = 4 ∧ type₂ = 6) ∨ (type₁ = 6 ∧ type₂ = 4)

/-- MTRRs as they may be set. The processor refuses numbers that are no memory types. -/
structure ProperMtrrs (P : MtrrPlatform) (s : MtrrSettings) : Prop where
  supported : isMtrrSupported P = true
  enabled : s.mtrrDefType &&& mtrrLibCacheMtrrEnabled ≠ 0
  fixedEnabled : s.mtrrDefType &&& mtrrLibCacheFixedMtrrEnabled ≠ 0
  defaultType : IsMemoryType (mtrrGetDefaultMemoryTypeWorker s)
  fixed : ∀ i < mtrrNumberOfFixedMtrr, ∀ k < 8, IsMemoryType (s.fixed i >>> (8 * k) &&& 0xFF)
  variableMtrr : ∀ v ∈ firmwareVariableMtrrs P s, v.valid = true → IsMemoryType v.type
  inside : ∀ v ∈ firmwareVariableMtrrs P s, v.valid = true →
    v.baseAddress.toNat + v.length.toNat ≤ 2 ^ addressBits P
  overlap : ∀ v ∈ firmwareVariableMtrrs P s, ∀ v' ∈ firmwareVariableMtrrs P s, ∀ address,
    v.Covers address → v'.Covers address → CompatibleTypes v.type v'.type
  /-- The physical address space has the first megabyte. -/
  firstMegabyte : 0x100000 ≤ 2 ^ addressBits P

/-! ### The types that are painted -/

section

variable {P : MtrrPlatform} {s : MtrrSettings} {stack : ℕ → BitVec 64} {a : ℕ}

/-- The fixed sections follow each other, up to 1 MB. -/
theorem contiguous_fixedSections (fixed : ℕ → BitVec 64) :
    Contiguous 0 (fixedSections fixed) 0x100000 := by
  have hsection : ∀ i < mtrrNumberOfFixedMtrr, Contiguous (byteAddress i 0)
      ((List.range 8).map fun k ↦ ⟨byteAddress i k, byteAddress i (k + 1),
        getMemorySpaceAttributeFromMtrrType ((fixed i >>> (k * 8)).setWidth 8)⟩)
      (byteAddress (i + 1) 0) := by
    intro i hi
    have hnext : ∀ i < mtrrNumberOfFixedMtrr, byteAddress i 8 = byteAddress (i + 1) 0 := by decide
    rw [← hnext i hi]
    refine Contiguous.map_range (fun k ↦ ?_) _ 8
    rw [byteAddress_succ]
    exact Nat.lt_add_of_pos_right (fixedMtrrTable_spec i hi).2.1
  have hfirst : byteAddress 0 0 = 0 := by decide
  have hlast : byteAddress mtrrNumberOfFixedMtrr 0 = 0x100000 := by decide
  rw [← hfirst, ← hlast]
  exact Contiguous.flatMap_range hsection

/-- The byte of its register that an address has, and its section. -/
theorem lookup_of_lt (h : ProperMtrrs P s) (ha : a < 0x100000) :
    ∃ i < mtrrNumberOfFixedMtrr, ∃ k < 8, byteAddress i k ≤ a ∧ a < byteAddress i (k + 1) ∧
      mtrrGetMemoryAttributeByAddressWorker P s (BitVec.ofNat 64 a)
        = s.fixed i >>> (8 * k) &&& 0xFF := by
  have htoNat : (BitVec.ofNat 64 a).toNat = a := by
    rw [BitVec.toNat_ofNat, Nat.mod_eq_of_lt (by omega)]
  have hlow : BitVec.ofNat 64 a < base1Mb := by
    rw [BitVec.lt_def, htoNat]
    exact ha
  obtain ⟨i, hi⟩ := exists_fixedMtrrOf hlow
  obtain ⟨hlt, hin⟩ := fixedMtrrOf_spec hi
  rw [inFixedMtrr_iff hlt, htoNat] at hin
  have hpos := (fixedMtrrTable_spec i hlt).2.1
  have hbase : (mMtrrLibFixedMtrrTable i).baseAddress.toNat ≤ a := by
    have := hin.1
    rwa [byteAddress, Nat.zero_mul] at this
  have hindex : ((BitVec.ofNat 64 a - (mMtrrLibFixedMtrrTable i).baseAddress) /
      (mMtrrLibFixedMtrrTable i).length).toNat
        = (a - (mMtrrLibFixedMtrrTable i).baseAddress.toNat) /
          (mMtrrLibFixedMtrrTable i).length.toNat := by
    rw [BitVec.toNat_udiv, BitVec.toNat_sub_of_le (by rwa [BitVec.le_def, htoNat]), htoNat]
  have hmul := Nat.div_mul_le_self (a - (mMtrrLibFixedMtrrTable i).baseAddress.toNat)
    (mMtrrLibFixedMtrrTable i).length.toNat
  have hnext := Nat.lt_div_mul_add hpos (a := a - (mMtrrLibFixedMtrrTable i).baseAddress.toNat)
  have hk : (a - (mMtrrLibFixedMtrrTable i).baseAddress.toNat) /
      (mMtrrLibFixedMtrrTable i).length.toNat < 8 := by
    refine Nat.div_lt_of_lt_mul ?_
    have := hin.2
    rw [byteAddress] at this
    omega
  refine ⟨i, hlt, _, hk, ?_, ?_, ?_⟩
  · rw [byteAddress]
    omega
  · rw [byteAddress, Nat.succ_mul]
    omega
  · rw [mtrrGetMemoryAttributeByAddressWorker, if_neg h.enabled, if_pos ⟨hlow, h.fixedEnabled⟩, hi]
    simp only [hindex]
    exact getMemoryCacheTypeFromMtrrType_of_isMemoryType (h.fixed i hlt _ hk)

/-- In the first megabyte, the fixed registers decide. -/
theorem paint_fixedSections (h : ProperMtrrs P s) (ha : a < 0x100000) (x : ℕ → BitVec 64) :
    paint (fixedSections s.fixed) x a
      = typeAttribute (mtrrGetMemoryAttributeByAddressWorker P s (BitVec.ofNat 64 a)) := by
  obtain ⟨i, hi, k, hk, hstart, hstop, hlookup⟩ := lookup_of_lt h ha
  have hmem : (⟨byteAddress i k, byteAddress i (k + 1),
      getMemorySpaceAttributeFromMtrrType ((s.fixed i >>> (k * 8)).setWidth 8)⟩ :
        Stroke (BitVec 64)) ∈ fixedSections s.fixed :=
    List.mem_flatMap.2 ⟨i, List.mem_range.2 hi, List.mem_map.2 ⟨k, List.mem_range.2 hk, rfl⟩⟩
  have hbyte (register : BitVec 64) : (register &&& 0xFF).setWidth 8 = register.setWidth 8 := by
    refine BitVec.eq_of_getLsbD_eq fun j hj ↦ ?_
    have hmask : ∀ j < 8, (0xFF : BitVec 64).getLsbD j = true := by decide
    rw [BitVec.getLsbD_setWidth, BitVec.getLsbD_setWidth, BitVec.getLsbD_and, hmask j hj,
      Bool.and_true]
  rw [(contiguous_fixedSections s.fixed).paint_eq hmem ⟨hstart, hstop⟩, hlookup, typeAttribute,
    hbyte, Nat.mul_comm]

/-- What the shadow has, with all that is read of it. -/
theorem firmwareVariableMtrrs_eq (h : isMtrrSupported P = true) :
    firmwareVariableMtrrs P s = ((List.range (getFirmwareVariableMtrrCountWorker P)).map
      s.variableMtrr).map (shadowMtrr P) := by
  rw [firmwareVariableMtrrs, getFirmwareVariableMtrrCount, if_pos h, List.map_map]
  exact List.map_congr_left fun i hi ↦ if_pos (List.mem_range.1 hi)

theorem mem_coveringTypes (h : isMtrrSupported P = true) {type address : BitVec 64} :
    type ∈ coveringTypes P (getFirmwareVariableMtrrCountWorker P) s address ↔
      ∃ v ∈ firmwareVariableMtrrs P s, v.Covers address ∧ v.type = type := by
  rw [coveringTypes, ← firmwareVariableMtrrs_eq h, List.mem_map]
  simp only [List.mem_filter, decide_eq_true_eq, and_assoc]

theorem sane_of_mem (h : isMtrrSupported P = true) {v : VariableMtrr}
    (hv : v ∈ firmwareVariableMtrrs P s) (hvalid : v.valid = true) : v.Sane := by
  rw [firmwareVariableMtrrs_eq h] at hv
  obtain ⟨setting, -, rfl⟩ := List.mem_map.1 hv
  exact sane_shadowMtrr hvalid

section

variable {kind : BitVec 64 → Prop} [DecidablePred kind] {attributes : BitVec 64 → BitVec 64}

/-- The registers that a pass has a call for at an address are those of its kind that cover it. -/
theorem covers_variablePass (h : isMtrrSupported P = true) (ha : a < 2 ^ 64)
    (value : BitVec 64) : (∃ c ∈ variablePass P s kind attributes, c.Covers a ∧ c.value = value) ↔
      ∃ v ∈ firmwareVariableMtrrs P s, v.Covers (BitVec.ofNat 64 a) ∧ kind v.type ∧
        attributes v.type = value := by
  have hcovers {v : VariableMtrr} (hv : v ∈ firmwareVariableMtrrs P s) (hvalid : v.valid = true) :
      (v.baseAddress.toNat ≤ a ∧ a < v.baseAddress.toNat + v.length.toNat) ↔
        v.Covers (BitVec.ofNat 64 a) := by
    rw [VariableMtrr.Covers, and_iff_right hvalid, BitVec.le_def, BitVec.lt_def,
      (sane_of_mem h hv hvalid).toNat_end, BitVec.toNat_ofNat, Nat.mod_eq_of_lt ha]
  constructor
  · rintro ⟨c, hc, hca, rfl⟩
    obtain ⟨v, hv, rfl⟩ := List.mem_map.1 hc
    obtain ⟨hv, hkind⟩ := List.mem_filter.1 hv
    obtain ⟨hvalid, hkind⟩ := of_decide_eq_true hkind
    exact ⟨v, hv, (hcovers hv hvalid).1 hca, hkind, rfl⟩
  · rintro ⟨v, hv, hva, hkind, rfl⟩
    exact ⟨_, List.mem_map_of_mem (List.mem_filter.2 ⟨hv, decide_eq_true ⟨hva.1, hkind⟩⟩),
      (hcovers hv hva.1).2 hva, rfl⟩

/-- A pass where no register of its kind covers the address. -/
theorem paint_variablePass_of_forall (h : isMtrrSupported P = true) (ha : a < 2 ^ 64)
    (hnone : ∀ v ∈ firmwareVariableMtrrs P s, v.Covers (BitVec.ofNat 64 a) → ¬ kind v.type)
    (x : ℕ → BitVec 64) : paint (variablePass P s kind attributes) x a = x a := by
  refine paint_of_forall_not fun c hc hca ↦ ?_
  obtain ⟨v, hv, hva, hkind, -⟩ := (covers_variablePass h ha c.value).1 ⟨c, hc, hca, rfl⟩
  exact hnone v hv hva hkind

/-- A pass where the registers of its kind that cover the address agree. -/
theorem paint_variablePass_of_mem {v : VariableMtrr} (h : isMtrrSupported P = true)
    (ha : a < 2 ^ 64) (hv : v ∈ firmwareVariableMtrrs P s) (hva : v.Covers (BitVec.ofNat 64 a))
    (hkind : kind v.type) (hall : ∀ v' ∈ firmwareVariableMtrrs P s,
      v'.Covers (BitVec.ofNat 64 a) → kind v'.type → attributes v'.type = attributes v.type)
    (x : ℕ → BitVec 64) :
    paint (variablePass P s kind attributes) x a = attributes v.type := by
  obtain ⟨c, hc, hca, hvalue⟩ := (covers_variablePass h ha _).2 ⟨v, hv, hva, hkind, rfl⟩
  refine paint_eq_of_forall hc hca fun c' hc' hca' ↦ ?_
  obtain ⟨v', hv', hva', hkind', hvalue'⟩ :=
    (covers_variablePass h ha c'.value).1 ⟨c', hc', hca', rfl⟩
  rw [← hvalue']
  exact hall v' hv' hva' hkind'

end

/-- What compatible types are combined to: UC if it is among them; if not, the one that is not WB;
if there is none, WB. -/
theorem combinedType_of_compatible {types : List (BitVec 64)}
    (htypes : ∀ type ∈ types, IsMemoryType type)
    (hcompatible : ∀ type ∈ types, ∀ type' ∈ types, CompatibleTypes type type') :
    (0 ∈ types ∧ combinedType s types = 0) ∨
    (0 ∉ types ∧ ∃ type ∈ types, type ≠ 6 ∧ (∀ type' ∈ types, type' ≠ 6 → type' = type) ∧
      combinedType s types = type) ∨
    (∀ type ∈ types, type = 6) := by
  by_cases h0 : (0 : BitVec 64) ∈ types
  · exact .inl ⟨h0, combinedType_of_mem htypes h0⟩
  by_cases hne : ∃ type ∈ types, type ≠ 6
  · obtain ⟨type, htype, h6⟩ := hne
    have hcases {type' : BitVec 64} (htype' : type' ∈ types) :
        type' = type ∨ (type' = 4 ∧ type = 6) ∨ (type' = 6 ∧ type = 4) := by
      rcases hcompatible type' htype' type htype with h | h | h
      · exact absurd (h ▸ htype') h0
      · exact absurd (h ▸ htype) h0
      · exact h
    have hsame : ∀ type' ∈ types, type' ≠ 6 → type' = type := by
      intro type' htype' h6'
      rcases hcases htype' with h | ⟨-, h⟩ | ⟨h, -⟩
      · exact h
      · exact absurd h h6
      · exact absurd h h6'
    refine .inr (.inl ⟨h0, type, htype, h6, hsame, ?_⟩)
    by_cases hwb : (6 : BitVec 64) ∈ types
    · -- what is compatible with WB is WT
      obtain rfl : type = 4 := by
        rcases hcases hwb with h | ⟨-, h⟩ | ⟨-, h⟩
        · exact absurd h.symm h6
        · exact absurd h h6
        · exact h
      refine combinedType_writeThrough (fun type' htype' ↦ ?_) htype
      by_cases h6' : type' = 6
      · exact .inr h6'
      · exact .inl (hsame type' htype' h6')
    · exact combinedType_of_forall_eq htypes (List.ne_nil_of_mem htype) fun type' htype' ↦
        hsame type' htype' fun h ↦ hwb (h ▸ htype')
  · exact .inr (.inr fun type htype ↦ not_not.1 fun h6 ↦ hne ⟨type, htype, h6⟩)

/-- **Above the first megabyte**, the passes over the variable registers paint the type that the
lookup finds. -/
theorem paint_variableCalls (h : ProperMtrrs P s) (ha : 0x100000 ≤ a) (ha' : a < 2 ^ 64) :
    paint (variableCalls P s) (fun _ ↦ typeAttribute (mtrrGetDefaultMemoryTypeWorker s)) a
      = typeAttribute (mtrrGetMemoryAttributeByAddressWorker P s (BitVec.ofNat 64 a)) := by
  have haddress : base1Mb ≤ BitVec.ofNat 64 a := by
    rw [BitVec.le_def, BitVec.toNat_ofNat, Nat.mod_eq_of_lt ha']
    exact ha
  let types := coveringTypes P (getFirmwareVariableMtrrCountWorker P) s (BitVec.ofNat 64 a)
  have hlookup : mtrrGetMemoryAttributeByAddressWorker P s (BitVec.ofNat 64 a)
      = combinedType s types := by
    rw [mtrrGetMemoryAttributeByAddressWorker_eq h.enabled haddress, variableType_eq]
    rfl
  have hmem (type : BitVec 64) : type ∈ types ↔
      ∃ v ∈ firmwareVariableMtrrs P s, v.Covers (BitVec.ofNat 64 a) ∧ v.type = type :=
    mem_coveringTypes h.supported
  have hin {v : VariableMtrr} (hv : v ∈ firmwareVariableMtrrs P s)
      (hcovers : v.Covers (BitVec.ofNat 64 a)) : v.type ∈ types := (hmem _).2 ⟨v, hv, hcovers, rfl⟩
  have htypes : ∀ type ∈ types, IsMemoryType type := by
    intro type htype
    obtain ⟨v, hv, hcovers, rfl⟩ := (hmem type).1 htype
    exact h.variableMtrr v hv hcovers.1
  have hcompatible : ∀ type ∈ types, ∀ type' ∈ types, CompatibleTypes type type' := by
    intro type htype type' htype'
    obtain ⟨v, hv, hcovers, rfl⟩ := (hmem type).1 htype
    obtain ⟨v', hv', hcovers', rfl⟩ := (hmem type').1 htype'
    exact h.overlap v hv v' hv' _ hcovers hcovers'
  rw [hlookup, variableCalls, paint_append, paint_append]
  rcases combinedType_of_compatible htypes hcompatible with
    ⟨h0, hcombined⟩ | ⟨h0, type, htype, h6, hsame, hcombined⟩ | hall
  · -- UC is painted last
    obtain ⟨v, hv, hcovers, hv0⟩ := (hmem 0).1 h0
    rw [hcombined, paint_variablePass_of_mem h.supported ha' hv hcovers hv0 fun _ _ _ _ ↦ rfl]
    rfl
  · have hzero : ∀ v ∈ firmwareVariableMtrrs P s, v.Covers (BitVec.ofNat 64 a) → ¬ v.type = 0 :=
      fun v hv hcovers h ↦ h0 (h ▸ hin hv hcovers)
    obtain ⟨v, hv, hcovers, rfl⟩ := (hmem type).1 htype
    rw [hcombined, paint_variablePass_of_forall h.supported ha' hzero,
      paint_variablePass_of_mem h.supported ha' hv hcovers ⟨h6, hzero v hv hcovers⟩
        fun v' hv' hcovers' hkind ↦ by rw [hsame v'.type (hin hv' hcovers') hkind.1]]
    rfl
  · have hnotUc : ∀ v ∈ firmwareVariableMtrrs P s, v.Covers (BitVec.ofNat 64 a) → ¬ v.type = 0 :=
      fun v hv hcovers h ↦ absurd (h.symm.trans (hall _ (hin hv hcovers))) (by decide)
    have hnotOther : ∀ v ∈ firmwareVariableMtrrs P s, v.Covers (BitVec.ofNat 64 a) →
        ¬ (v.type ≠ 6 ∧ v.type ≠ 0) := fun v hv hcovers h ↦ h.1 (hall _ (hin hv hcovers))
    rw [paint_variablePass_of_forall h.supported ha' hnotUc,
      paint_variablePass_of_forall h.supported ha' hnotOther]
    by_cases hnil : types = []
    · have hnone : ∀ v ∈ firmwareVariableMtrrs P s, v.Covers (BitVec.ofNat 64 a) → ¬ v.type = 6 :=
        fun v hv hcovers ↦ absurd (hnil ▸ hin hv hcovers) List.not_mem_nil
      rw [hnil, combinedType_nil, paint_variablePass_of_forall h.supported ha' hnone]
    · obtain ⟨type, htype⟩ := List.exists_mem_of_ne_nil types hnil
      obtain ⟨v, hv, hcovers, rfl⟩ := (hmem type).1 htype
      rw [combinedType_of_forall_eq htypes hnil hall, paint_variablePass_of_mem h.supported ha' hv
        hcovers (hall _ htype) fun _ _ _ _ ↦ rfl]
      rfl

/-- The runs of the fixed sections. -/
theorem contiguous_fixedRuns (h : ProperMtrrs P s) (stack : ℕ → BitVec 64) :
    Contiguous 0 (Run.mergeRuns 0 (fixedSections (mtrrGetFixedMtrr P s stack))) 0x100000 := by
  rw [mtrrGetFixedMtrr, if_pos h.supported]
  exact (Run.mergeRuns_spec s.fixed (contiguous_fixedSections s.fixed) (by omega)).1

theorem paint_fixedRuns (h : ProperMtrrs P s) (stack x : ℕ → BitVec 64) :
    paint (Run.mergeRuns 0 (fixedSections (mtrrGetFixedMtrr P s stack))) x
      = paint (fixedSections s.fixed) x := by
  rw [mtrrGetFixedMtrr, if_pos h.supported]
  exact (Run.mergeRuns_spec x (contiguous_fixedSections s.fixed) (by omega)).2

/-- Every call is for addresses of the physical address space. -/
theorem refreshCalls_inside (h : ProperMtrrs P s) {c : Stroke (BitVec 64)}
    (hc : c ∈ refreshCalls P s stack) : c.start < c.stop ∧ c.stop ≤ 2 ^ addressBits P := by
  have hpass {kind : BitVec 64 → Prop} [DecidablePred kind] {attributes : BitVec 64 → BitVec 64}
      (hc : c ∈ variablePass P s kind attributes) :
      c.start < c.stop ∧ c.stop ≤ 2 ^ addressBits P := by
    obtain ⟨v, hv, rfl⟩ := List.mem_map.1 hc
    obtain ⟨hv, hkind⟩ := List.mem_filter.1 hv
    have hvalid := (of_decide_eq_true hkind).1
    exact ⟨Nat.lt_add_of_pos_right (sane_of_mem h.supported hv hvalid).pos, h.inside v hv hvalid⟩
  rw [refreshCalls, variableCalls, List.mem_append, List.mem_append, List.mem_append] at hc
  rcases hc with ((hc | hc) | hc) | hc
  · exact hpass hc
  · exact hpass hc
  · exact hpass hc
  · have hbounds := Contiguous.bounds (contiguous_fixedRuns h stack) hc
    exact ⟨hbounds.2.1, Nat.le_trans hbounds.2.2 h.firstMegabyte⟩

/-- **The calls paint the type that the lookup finds.** -/
theorem paint_refreshCalls (h : ProperMtrrs P s) (ha : a < 2 ^ addressBits P) :
    paint (refreshCalls P s stack) (fun _ ↦ typeAttribute (mtrrGetDefaultMemoryTypeWorker s)) a
      = typeAttribute (mtrrGetMemoryAttributeByAddressWorker P s (BitVec.ofNat 64 a)) := by
  have hlt : a < 2 ^ 64 := Nat.lt_trans ha
    (Nat.pow_lt_pow_right (by decide) (Nat.lt_of_le_of_lt addressBits_le (by decide)))
  rw [refreshCalls, paint_append, paint_fixedRuns h stack]
  by_cases hlow : a < 0x100000
  · rw [paint_fixedSections h hlow]
  · rw [paint_of_forall_not, paint_variableCalls h (Nat.not_lt.1 hlow) hlt]
    intro c hc hca
    exact hlow (Nat.lt_of_lt_of_le hca.2 ((contiguous_fixedSections s.fixed).bounds hc).2.2)

/-- The lookup finds a memory type. -/
theorem isMemoryType_lookup (h : ProperMtrrs P s) (address : BitVec 64) :
    IsMemoryType (mtrrGetMemoryAttributeByAddressWorker P s address) := by
  have hget (type : BitVec 64) : IsMemoryType (getMemoryCacheTypeFromMtrrType s type) := by
    by_cases htype : IsMemoryType type
    · rwa [getMemoryCacheTypeFromMtrrType_of_isMemoryType htype]
    · have hdefault : getMemoryCacheTypeFromMtrrType s type = mtrrGetDefaultMemoryTypeWorker s :=
        if_neg htype
      rw [hdefault]
      exact h.defaultType
  rw [mtrrGetMemoryAttributeByAddressWorker, if_neg h.enabled]
  split
  · exact hget _
  · exact hget _

/-! ### The requests to the service -/

variable {map : List GcdMemorySpaceDescriptor} {d : GcdMemorySpaceDescriptor}

theorem paint_defaultRequests {top : ℕ} {attributes : BitVec 64} (hmap : IsGcdMap map top)
    (hd : d ∈ map) (hexists : d.gcdMemoryType ≠ .nonExistent) (ha : d.Covers a)
    (x : ℕ → BitVec 64) :
    paint ((defaultRequests map attributes).map SetRequest.toStroke) x a
      = d.withCacheType attributes := by
  have hr : (⟨d.baseAddress, d.length, d.withCacheType attributes⟩ : SetRequest)
      ∈ defaultRequests map attributes :=
    List.mem_map.2 ⟨d, List.mem_filter.2 ⟨hd, decide_eq_true hexists⟩, rfl⟩
  refine paint_eq_of_forall (List.mem_map_of_mem hr) ha fun c hc hca ↦ ?_
  obtain ⟨r, hr, rfl⟩ := List.mem_map.1 hc
  obtain ⟨d', hd', rfl⟩ := List.mem_map.1 hr
  rw [hmap.eq_of_covers hd (List.mem_of_mem_filter hd') ha hca]
  rfl

/-- **The requests paint what the calls paint**, in the attributes of the descriptor. -/
theorem paint_refreshRequests (h : ProperMtrrs P s) (hmap : IsGcdMap map (2 ^ addressBits P))
    (hd : d ∈ map) (hexists : d.gcdMemoryType ≠ .nonExistent) (ha : d.Covers a)
    (x : ℕ → BitVec 64) :
    paint ((refreshRequests P s stack map).map SetRequest.toStroke) x a
      = d.withCacheType
          (typeAttribute (mtrrGetMemoryAttributeByAddressWorker P s (BitVec.ofNat 64 a))) := by
  have hlt : a < 2 ^ addressBits P := Nat.lt_of_lt_of_le ha.2 (hmap.bounds hd).2
  have hdefault : mtrrGetDefaultMemoryType P s = mtrrGetDefaultMemoryTypeWorker s :=
    if_pos h.supported
  rw [refreshRequests, List.map_append, paint_append, List.map_flatMap, hdefault,
    ← paint_refreshCalls h hlt]
  refine paint_flatMap (paint_defaultRequests hmap hd hexists ha x) fun c hc y ↦ ?_
  obtain ⟨hpos, hinside⟩ := refreshCalls_inside h hc
  have hstop : c.start + (c.stop - c.start) = c.stop := Nat.add_sub_cancel' (Nat.le_of_lt hpos)
  rw [paint_setGcdMemorySpaceAttributes hmap (Nat.sub_pos_of_lt hpos)
    (Nat.le_trans (Nat.le_of_eq hstop) hinside) hd hexists ha, hstop]
  rfl

/-- The service fulfils all of them. -/
theorem supported_refreshRequests (h : ProperMtrrs P s)
    (hmap : IsGcdMap map (2 ^ addressBits P)) {r : SetRequest}
    (hr : r ∈ refreshRequests P s stack map) : Supported map r := by
  rcases List.mem_append.1 hr with hr | hr
  · obtain ⟨d, hd, rfl⟩ := List.mem_map.1 hr
    obtain ⟨hd, hexists⟩ := List.mem_filter.1 hd
    refine ⟨(hmap.bounds hd).1, fun a ha ↦ ?_⟩
    exact ⟨_, hmap.spaceAt_eq hd ha, of_decide_eq_true hexists,
      d.withCacheType_and_capabilities (hmap.capable d hd) _⟩
  · obtain ⟨c, hc, hr⟩ := List.mem_flatMap.1 hr
    obtain ⟨hpos, hinside⟩ := refreshCalls_inside h hc
    refine supported_setGcdMemorySpaceAttributes hmap (Nat.sub_pos_of_lt hpos) ?_ hr
    rwa [Nat.add_sub_cancel' (Nat.le_of_lt hpos)]

/-- **What a refresh leaves** at an address that exists. -/
theorem spaceAt_refreshGcdMemoryAttributes {G : GcdServices} {σ : G.State} (hG : G.Sets)
    (h : ProperMtrrs P s) (stack : ℕ → BitVec 64)
    (hmap : IsGcdMap (G.getMemorySpaceMap σ) (2 ^ addressBits P))
    (hd : d ∈ G.getMemorySpaceMap σ) (hexists : d.gcdMemoryType ≠ .nonExistent) (ha : d.Covers a) :
    spaceAt (G.getMemorySpaceMap (refreshGcdMemoryAttributes G P s stack σ)) a
      = some { d.toGcdMemorySpace with
          attributes := d.withCacheType
            (typeAttribute (mtrrGetMemoryAttributeByAddressWorker P s (BitVec.ofNat 64 a))) } := by
  let before (a : ℕ) : BitVec 64 :=
    ((spaceAt (G.getMemorySpaceMap σ) a).map GcdMemorySpace.attributes).getD 0
  have hbefore (a : ℕ) : spaceAt (G.getMemorySpaceMap σ) a
      = (spaceAt (G.getMemorySpaceMap σ) a).map fun m ↦ { m with attributes := before a } := by
    dsimp only [before]
    cases spaceAt (G.getMemorySpaceMap σ) a <;> rfl
  rw [refreshGcdMemoryAttributes, hG.foldl (fun r ↦ supported_refreshRequests h hmap) hbefore,
    hmap.spaceAt_eq hd ha, Option.map_some, paint_refreshRequests h hmap hd hexists ha]

/-! ### When the MTRRs are mirrored -/

theorem typeAttribute_and_cacheTypes {type : BitVec 64} (htype : IsMemoryType type) :
    typeAttribute type &&& efiMemoryCacheTypes = typeAttribute type := by
  rcases htype with rfl | rfl | rfl | rfl | rfl <;> decide

/-- Of the memory types, only WP has its own bit outside `EFI_MEMORY_CACHETYPE_MASK`. -/
theorem typeAttribute_and_wp {type : BitVec 64} (htype : IsMemoryType type) :
    typeAttribute type &&& efiMemoryWp = if type = 5 then efiMemoryWp else 0 := by
  rcases htype with rfl | rfl | rfl | rfl | rfl <;> decide

theorem getLsbD_efiMemoryCacheTypes (i : ℕ) : efiMemoryCacheTypes.getLsbD i
    = (efiMemoryCachetypeMask.getLsbD i || efiMemoryWp.getLsbD i) := BitVec.getLsbD_or

/-- The bit of WP is not in the mask. -/
theorem getLsbD_efiMemoryWp {i : ℕ} (h : efiMemoryWp.getLsbD i = true) :
    efiMemoryCachetypeMask.getLsbD i = false := by
  have hand : efiMemoryCachetypeMask &&& efiMemoryWp = 0 := by decide
  have hbit := congrArg (BitVec.getLsbD · i) hand
  simp only [BitVec.getLsbD_and, h, Bool.and_true] at hbit
  rw [hbit]
  exact BitVec.getLsbD_zero

/-- The bits of other kinds are kept. -/
theorem withCacheType_and_not {type : BitVec 64} (htype : IsMemoryType type) :
    d.withCacheType (typeAttribute type) &&& ~~~efiMemoryCacheTypes
      = d.attributes &&& ~~~efiMemoryCacheTypes := by
  refine BitVec.eq_of_getLsbD_eq fun i hi ↦ ?_
  have hbit := congrArg (BitVec.getLsbD · i) (typeAttribute_and_cacheTypes htype)
  simp only [BitVec.getLsbD_and, getLsbD_efiMemoryCacheTypes] at hbit
  simp only [GcdMemorySpaceDescriptor.withCacheType, BitVec.getLsbD_and, BitVec.getLsbD_or,
    BitVec.getLsbD_not, getLsbD_efiMemoryCacheTypes, hi, decide_true, Bool.true_and]
  cases hmask : efiMemoryCachetypeMask.getLsbD i <;> cases hwp : efiMemoryWp.getLsbD i <;>
    simp_all

/-- The bit of WP stays with the new cache type. -/
theorem withCacheType_and_cacheTypes {type : BitVec 64} (htype : IsMemoryType type) :
    d.withCacheType (typeAttribute type) &&& efiMemoryCacheTypes
      = d.attributes &&& efiMemoryWp ||| typeAttribute type &&& d.capabilities := by
  refine BitVec.eq_of_getLsbD_eq fun i hi ↦ ?_
  have hbit := congrArg (BitVec.getLsbD · i) (typeAttribute_and_cacheTypes htype)
  have hmaskWp := @getLsbD_efiMemoryWp i
  simp only [BitVec.getLsbD_and, getLsbD_efiMemoryCacheTypes] at hbit
  simp only [GcdMemorySpaceDescriptor.withCacheType, BitVec.getLsbD_and, BitVec.getLsbD_or,
    BitVec.getLsbD_not, getLsbD_efiMemoryCacheTypes, hi, decide_true, Bool.true_and]
  cases hmask : efiMemoryCachetypeMask.getLsbD i <;> cases hwp : efiMemoryWp.getLsbD i <;>
    simp_all [Bool.and_comm]

/-- That makes no difference if the new type is WP, and only then. -/
theorem withCacheType_iff {type : BitVec 64} (htype : IsMemoryType type)
    (hcapable : d.attributes &&& d.capabilities = d.attributes) :
    d.withCacheType (typeAttribute type) &&& efiMemoryCacheTypes
        = typeAttribute type &&& d.capabilities ↔
      (d.attributes &&& efiMemoryWp ≠ 0 → type = 5) := by
  rw [withCacheType_and_cacheTypes htype]
  have hwp := typeAttribute_and_wp htype
  constructor
  · intro heq hbit
    by_contra hne
    rw [if_neg hne] at hwp
    refine hbit ?_
    have hnone : typeAttribute type &&& d.capabilities &&& efiMemoryWp = 0 := by
      rw [BitVec.and_assoc, BitVec.and_comm d.capabilities, ← BitVec.and_assoc, hwp]
      exact BitVec.zero_and
    have hand := congrArg (· &&& efiMemoryWp) heq
    rw [BitVec.and_or_distrib_right, hnone, BitVec.and_assoc, BitVec.and_self] at hand
    exact BitVec.or_zero.symm.trans hand
  · intro h
    by_cases hbit : d.attributes &&& efiMemoryWp = 0
    · rw [hbit]
      exact BitVec.zero_or
    · have htypeWp : typeAttribute type = efiMemoryWp := by
        rw [h hbit]
        rfl
      rw [htypeWp, ← hcapable, BitVec.and_assoc, BitVec.and_comm d.capabilities]
      refine BitVec.eq_of_getLsbD_eq fun i hi ↦ ?_
      simp only [BitVec.getLsbD_or, BitVec.getLsbD_and]
      cases d.attributes.getLsbD i <;> cases efiMemoryWp.getLsbD i <;>
        cases d.capabilities.getLsbD i <;> rfl

/-- **A refresh mirrors the MTRRs exactly if** every descriptor that had `EFI_MEMORY_WP` has only
addresses of that type. -/
theorem mirrorsMtrrs_iff {G : GcdServices} {σ : G.State} (hG : G.Sets) (h : ProperMtrrs P s)
    (hmap : IsGcdMap (G.getMemorySpaceMap σ) (2 ^ addressBits P)) :
    MirrorsMtrrs G P s stack σ ↔
      ∀ d ∈ G.getMemorySpaceMap σ, d.gcdMemoryType ≠ .nonExistent →
        d.attributes &&& efiMemoryWp ≠ 0 → ∀ a, d.Covers a →
          mtrrGetMemoryAttributeByAddressWorker P s (BitVec.ofNat 64 a) = 5 := by
  have hspace {d : GcdMemorySpaceDescriptor} {a : ℕ} (hd : d ∈ G.getMemorySpaceMap σ)
      (hexists : d.gcdMemoryType ≠ .nonExistent) (ha : d.Covers a) :=
    spaceAt_refreshGcdMemoryAttributes hG h stack hmap hd hexists ha
  have htype {d : GcdMemorySpaceDescriptor} {a : ℕ} (hd : d ∈ G.getMemorySpaceMap σ)
      (ha : d.Covers a) := isMemoryType_lookup h (BitVec.ofNat 64 a)
  constructor
  · intro hmirrors d hd hexists hwp a ha
    obtain ⟨m, hm, hmirrors⟩ := hmirrors d hd hexists a ha
    rw [hspace hd hexists ha] at hm
    obtain rfl := Option.some.inj hm
    exact (withCacheType_iff (htype hd ha) (hmap.capable d hd)).1 hmirrors.cacheType hwp
  · intro hwp d hd hexists a ha
    refine ⟨_, hspace hd hexists ha, ?_, withCacheType_and_not (htype hd ha)⟩
    exact (withCacheType_iff (htype hd ha) (hmap.capable d hd)).2 fun hbit ↦
      hwp d hd hexists hbit a ha

end

/-! ### A processor with WT and WB registers for the second megabyte -/

instance {type₁ type₂ : BitVec 64} : Decidable (CompatibleTypes type₁ type₂) :=
  inferInstanceAs (Decidable (_ ∨ _ ∨ _ ∨ _ ∨ _))

theorem properMtrrs_secondMegabyte :
    ProperMtrrs (twoRegisters 0) (secondMegabyte 0xC06 4 6) where
  supported := by decide
  enabled := by decide
  fixedEnabled := by decide
  defaultType := by decide
  fixed := by decide +kernel
  variableMtrr := by decide +kernel
  inside := by decide +kernel
  overlap := by
    have hcompatible : ∀ v ∈ firmwareVariableMtrrs (twoRegisters 0) (secondMegabyte 0xC06 4 6),
        ∀ v' ∈ firmwareVariableMtrrs (twoRegisters 0) (secondMegabyte 0xC06 4 6),
          CompatibleTypes v.type v'.type := by decide +kernel
    exact fun v hv v' hv' _ _ _ ↦ hcompatible v hv v' hv'
  firstMegabyte := by decide +kernel

/-- 1 GB of memory, with some attributes, and nothing above it. -/
def oneGb (attributes : BitVec 64) : List GcdMemorySpaceDescriptor :=
  [⟨⟨0xF01F, attributes, .systemMemory⟩, 0, 0x40000000⟩,
    ⟨⟨0, 0, .nonExistent⟩, 0x40000000, 0xFFC0000000⟩]

theorem isGcdMap_oneGb {attributes : BitVec 64} (h : attributes &&& 0xF01F = attributes) :
    IsGcdMap (oneGb attributes) (2 ^ addressBits (twoRegisters 0)) := by
  have htop : 2 ^ addressBits (twoRegisters 0) = 0x40000000 + 0xFFC0000000 := by decide +kernel
  rw [htop]
  have hlow : 0 < 0x40000000 := by decide
  have hhigh : 0x40000000 < 0x40000000 + 0xFFC0000000 := by decide
  refine ⟨@Contiguous.cons _ ⟨0, 0 + 0x40000000, _⟩ _ _ hlow (Contiguous.single hhigh), ?_⟩
  exact List.forall_mem_cons.2 ⟨h, List.forall_mem_cons.2 ⟨by decide, nofun⟩⟩

/-- Without `EFI_MEMORY_WP`. -/
theorem mirrorsMtrrs_writeBack : MirrorsMtrrs mapServices (twoRegisters 0)
    (secondMegabyte 0xC06 4 6) (fun _ ↦ 0) (oneGb efiMemoryWb) := by
  refine (mirrorsMtrrs_iff sets_mapServices properMtrrs_secondMegabyte
    (isGcdMap_oneGb (by decide))).2 fun d hd _ hwp ↦ absurd ?_ hwp
  have hnone : ∀ d ∈ oneGb efiMemoryWb, d.attributes &&& efiMemoryWp = 0 := by decide
  exact hnone d hd

/-- `EFI_MEMORY_WP` stays, next to WB. -/
theorem not_mirrorsMtrrs_writeProtected : ¬ MirrorsMtrrs mapServices (twoRegisters 0)
    (secondMegabyte 0xC06 4 6) (fun _ ↦ 0) (oneGb efiMemoryWp) := by
  intro h
  have hmem : (⟨⟨0xF01F, efiMemoryWp, .systemMemory⟩, 0, 0x40000000⟩ : GcdMemorySpaceDescriptor)
      ∈ oneGb efiMemoryWp := List.mem_cons_self
  have hlookup : mtrrGetMemoryAttributeByAddressWorker (twoRegisters 0) (secondMegabyte 0xC06 4 6)
      (BitVec.ofNat 64 0x200000) = 6 := by decide +kernel
  obtain ⟨m, hm, hmirrors⟩ := h _ hmem (by decide) 0x200000 (by decide)
  have hspace := hm.symm.trans (spaceAt_refreshGcdMemoryAttributes sets_mapServices
    properMtrrs_secondMegabyte (fun _ ↦ 0) (isGcdMap_oneGb (by decide)) hmem (by decide)
    (by decide))
  rw [hlookup] at hspace
  obtain rfl := Option.some.inj hspace
  have hcacheType := hmirrors.cacheType
  rw [hlookup] at hcacheType
  exact absurd hcacheType (by decide)

end PurleyFirmware.Mtrr
