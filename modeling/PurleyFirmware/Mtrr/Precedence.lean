import PurleyFirmware.Mtrr.Settings
import Mathlib.Data.List.Perm.Basic
import Mathlib.Data.List.Range

/-!
# The type of an address

`MtrrGetMemoryAttributeByAddressWorker` above the first megabyte, as a fold of `MtrrPrecedence` over
the registers that cover the address (`variableType_eq`). UC wins over everything, registers that
agree give what they agree on, and WT wins over WB. In these cases it does not matter in which order
the registers come.

Three things keep this from being so for all contents of the registers. While they are not enabled
as a whole, every address is UC. The shadow that is searched has the registers for the firmware only,
and a register for the operating system is passed over. And a register with a number that is no
memory type spoils the fold: the type is then forgotten, and with it a UC that comes right after.
-/

namespace PurleyFirmware.Mtrr

variable {P : MtrrPlatform} {s : MtrrSettings} {address : BitVec 64}

/-! ### Memory types -/

/-- A number that stands for a memory type in the registers. -/
def IsMemoryType (type : BitVec 64) : Prop := type = 0 ∨ type = 1 ∨ type = 4 ∨ type = 5 ∨ type = 6

instance {type : BitVec 64} : Decidable (IsMemoryType type) :=
  inferInstanceAs (Decidable (_ ∨ _ ∨ _ ∨ _ ∨ _))

theorem IsMemoryType.ne_invalid {type : BitVec 64} (h : IsMemoryType type) :
    type ≠ mtrrCacheInvalidType := by
  rcases h with rfl | rfl | rfl | rfl | rfl <;> decide

theorem getMemoryCacheTypeFromMtrrType_of_isMemoryType {type : BitVec 64} (h : IsMemoryType type) :
    getMemoryCacheTypeFromMtrrType s type = type := if_pos h

theorem getMemoryCacheTypeFromMtrrType_invalid :
    getMemoryCacheTypeFromMtrrType s mtrrCacheInvalidType = mtrrGetDefaultMemoryTypeWorker s :=
  if_neg (by decide)

/-! ### The precedence of two types -/

theorem mtrrPrecedence_zero_left (type : BitVec 64) : mtrrPrecedence 0 type = 0 := by
  rw [mtrrPrecedence, if_pos rfl]
  exact ite_self _

theorem mtrrPrecedence_invalid_left (type : BitVec 64) :
    mtrrPrecedence mtrrCacheInvalidType type = type := by
  by_cases h : type = mtrrCacheInvalidType
  · subst h
    rfl
  · rw [mtrrPrecedence, if_neg h]
    rfl

theorem mtrrPrecedence_self {type : BitVec 64} (h : IsMemoryType type) :
    mtrrPrecedence type type = type := by
  rcases h with rfl | rfl | rfl | rfl | rfl <;> rfl

/-- What the fold has, a memory type or nothing yet. -/
def IsFolded (type : BitVec 64) : Prop := IsMemoryType type ∨ type = mtrrCacheInvalidType

instance {type : BitVec 64} : Decidable (IsFolded type) := inferInstanceAs (Decidable (_ ∨ _))

theorem IsFolded.mtrrPrecedence {type₁ type₂ : BitVec 64} (h₁ : IsFolded type₁)
    (h₂ : IsMemoryType type₂) : IsFolded (mtrrPrecedence type₁ type₂) := by
  rcases h₁ with (rfl | rfl | rfl | rfl | rfl) | rfl <;>
    rcases h₂ with rfl | rfl | rfl | rfl | rfl <;> decide

theorem IsFolded.mtrrPrecedence_zero {type : BitVec 64} (h : IsFolded type) :
    Mtrr.mtrrPrecedence type 0 = 0 := by
  rcases h with (rfl | rfl | rfl | rfl | rfl) | rfl <;> rfl

/-! ### The precedence of several types -/

theorem foldl_mtrrPrecedence_zero (types : List (BitVec 64)) :
    types.foldl mtrrPrecedence 0 = 0 := by
  induction types with
  | nil => rfl
  | cons type types ih => rw [List.foldl_cons, mtrrPrecedence_zero_left, ih]

/-- UC wins, wherever it comes. -/
theorem foldl_mtrrPrecedence_of_mem {types : List (BitVec 64)} {folded : BitVec 64}
    (hfolded : IsFolded folded) (htypes : ∀ type ∈ types, IsMemoryType type) (h : 0 ∈ types) :
    types.foldl mtrrPrecedence folded = 0 := by
  induction types generalizing folded with
  | nil => cases h
  | cons type types ih =>
    rw [List.foldl_cons]
    rcases List.mem_cons.1 h with rfl | h
    · rw [hfolded.mtrrPrecedence_zero, foldl_mtrrPrecedence_zero]
    · have htype := htypes type List.mem_cons_self
      exact ih (hfolded.mtrrPrecedence htype)
        (fun type' h' ↦ htypes type' (List.mem_cons_of_mem _ h')) h

theorem foldl_mtrrPrecedence_const {types : List (BitVec 64)} {type : BitVec 64}
    (htype : IsMemoryType type) (h : ∀ type' ∈ types, type' = type) :
    types.foldl mtrrPrecedence type = type := by
  induction types with
  | nil => rfl
  | cons type' types ih =>
    rw [List.foldl_cons, h type' List.mem_cons_self, mtrrPrecedence_self htype]
    exact ih fun type' h' ↦ h type' (List.mem_cons_of_mem _ h')

/-- Types that agree. -/
theorem foldl_mtrrPrecedence_of_forall_eq {types : List (BitVec 64)} {type : BitVec 64}
    (htype : IsMemoryType type) (hne : types ≠ []) (h : ∀ type' ∈ types, type' = type) :
    types.foldl mtrrPrecedence mtrrCacheInvalidType = type := by
  cases types with
  | nil => exact absurd rfl hne
  | cons type' types =>
    rw [List.foldl_cons, mtrrPrecedence_invalid_left, h type' List.mem_cons_self]
    exact foldl_mtrrPrecedence_const htype fun type' h' ↦ h type' (List.mem_cons_of_mem _ h')

/-- WT wins over WB. -/
theorem foldl_mtrrPrecedence_writeThrough {types : List (BitVec 64)} {folded : BitVec 64}
    (hfolded : folded = 4 ∨ folded = 6 ∨ folded = mtrrCacheInvalidType)
    (htypes : ∀ type ∈ types, type = 4 ∨ type = 6) (h : folded = 4 ∨ 4 ∈ types) :
    types.foldl mtrrPrecedence folded = 4 := by
  induction types generalizing folded with
  | nil =>
    rcases h with h | h
    · exact h
    · cases h
  | cons type types ih =>
    rw [List.foldl_cons]
    refine ih ?_ (fun type' h' ↦ htypes type' (List.mem_cons_of_mem _ h')) ?_
    · rcases hfolded with rfl | rfl | rfl <;>
        rcases htypes type List.mem_cons_self with rfl | rfl <;> decide
    · rcases h with rfl | h
      · left
        rcases htypes type List.mem_cons_self with rfl | rfl <;> rfl
      · rcases List.mem_cons.1 h with rfl | h
        · left
          rcases hfolded with rfl | rfl | rfl <;> rfl
        · exact .inr h

/-! ### The registers that cover an address -/

/-- The shadow entry is valid, and the address is in its range. -/
def VariableMtrr.Covers (v : VariableMtrr) (address : BitVec 64) : Prop :=
  v.valid = true ∧ v.baseAddress ≤ address ∧ address < v.baseAddress + v.length

instance {v : VariableMtrr} {address : BitVec 64} : Decidable (v.Covers address) :=
  inferInstanceAs (Decidable (_ ∧ _ ∧ _))

/-- The types of the registers that are enabled and cover the address, among the first `n`. -/
def coveringTypes (P : MtrrPlatform) (n : ℕ) (s : MtrrSettings) (address : BitVec 64) :
    List (BitVec 64) :=
  ((((List.range n).map s.variableMtrr).map (shadowMtrr P)).filter fun v ↦ v.Covers address).map
    VariableMtrr.type

/-- What `coveringTypes` goes through. -/
theorem coveringTypes_eq (n : ℕ) : coveringTypes P n s address
    = ((List.range n).filter fun i ↦ (shadowMtrr P (s.variableMtrr i)).Covers address).map
        fun i ↦ (shadowMtrr P (s.variableMtrr i)).type := by
  rw [coveringTypes, List.map_map, List.filter_map, List.map_map]
  rfl

/-- **The lookup is a fold** over the registers of the firmware that cover the address. -/
theorem variableType_eq : variableType P s address
    = (coveringTypes P (getFirmwareVariableMtrrCountWorker P) s address).foldl mtrrPrecedence
        mtrrCacheInvalidType := by
  obtain ⟨reserved, hcount⟩ : ∃ reserved, getVariableMtrrCountWorker P
      = getFirmwareVariableMtrrCountWorker P + reserved :=
    ⟨_, (Nat.add_sub_cancel' (Nat.sub_le _ _)).symm⟩
  let shadow := (mtrrGetMemoryAttributeInVariableMtrrWorker P s.variableMtrr
    (getFirmwareVariableMtrrCountWorker P)).1
  have hfirmware : ∀ i < getFirmwareVariableMtrrCountWorker P,
      shadow i = shadowMtrr P (s.variableMtrr i) := fun i hi ↦ if_pos hi
  have hreserved : ∀ i, ¬ (shadow (getFirmwareVariableMtrrCountWorker P + i)).Covers address := by
    intro i hcovers
    have hnone : shadow (getFirmwareVariableMtrrCountWorker P + i) = ⟨0, 0, 0, false, false⟩ :=
      if_neg (Nat.not_lt.2 (Nat.le_add_right _ i))
    rw [hnone] at hcovers
    cases hcovers.1
  have hfilter : (List.range (getVariableMtrrCountWorker P)).filter
        (fun i ↦ (shadow i).Covers address)
      = (List.range (getFirmwareVariableMtrrCountWorker P)).filter
        fun i ↦ (shadowMtrr P (s.variableMtrr i)).Covers address := by
    rw [hcount, List.range_add, List.filter_append]
    have hrest : ((List.range reserved).map (getFirmwareVariableMtrrCountWorker P + ·)).filter
        (fun i ↦ decide ((shadow i).Covers address)) = [] := by
      rw [List.filter_eq_nil_iff]
      intro i hi
      obtain ⟨j, -, rfl⟩ := List.mem_map.1 hi
      exact fun h ↦ hreserved j (of_decide_eq_true h)
    rw [hrest, List.append_nil]
    refine List.filter_congr fun i hi ↦ ?_
    rw [hfirmware i (List.mem_range.1 hi)]
  have hfold : variableType P s address
      = ((List.range (getVariableMtrrCountWorker P)).filter
          fun i ↦ (shadow i).Covers address).foldl
          (fun type i ↦ mtrrPrecedence type (shadow i).type) mtrrCacheInvalidType := by
    rw [List.foldl_filter, variableType]
    refine List.foldl_ext _ _ _ fun type i _ ↦ ?_
    exact if_congr decide_eq_true_iff.symm rfl rfl
  rw [hfold, hfilter, coveringTypes_eq, List.foldl_map]
  refine List.foldl_ext _ _ _ fun type i hi ↦ ?_
  rw [hfirmware i (List.mem_range.1 (List.mem_of_mem_filter hi))]

/-! ### The type of an address -/

/-- **The type of an address** above the first megabyte, among `n` registers. -/
structure FollowsPrecedence (P : MtrrPlatform) (n : ℕ) (s : MtrrSettings) (address : BitVec 64) :
    Prop where
  /-- UC, if a register that covers the address has it. -/
  uncacheable : 0 ∈ coveringTypes P n s address → mtrrGetMemoryAttributeByAddressWorker P s address = 0
  /-- What the registers that cover it agree on. -/
  agree : ∀ type, coveringTypes P n s address ≠ [] →
    (∀ type' ∈ coveringTypes P n s address, type' = type) →
      mtrrGetMemoryAttributeByAddressWorker P s address = type
  /-- WT, if some of them have it and all others WB. -/
  writeThrough : 4 ∈ coveringTypes P n s address → 6 ∈ coveringTypes P n s address →
    (∀ type ∈ coveringTypes P n s address, type = 4 ∨ type = 6) →
      mtrrGetMemoryAttributeByAddressWorker P s address = 4
  /-- The default type, if none covers it. -/
  uncovered : coveringTypes P n s address = [] →
    mtrrGetMemoryAttributeByAddressWorker P s address = mtrrGetDefaultMemoryTypeWorker s
  /-- In all these cases, the same in another order of the registers. -/
  reordered : ∀ s' : MtrrSettings, s'.mtrrDefType = s.mtrrDefType →
    ((List.range n).map s'.variableMtrr).Perm ((List.range n).map s.variableMtrr) →
    (0 ∈ coveringTypes P n s address ∨
      (∃ type, ∀ type' ∈ coveringTypes P n s address, type' = type) ∨
      ∀ type ∈ coveringTypes P n s address, type = 4 ∨ type = 6) →
    mtrrGetMemoryAttributeByAddressWorker P s' address = mtrrGetMemoryAttributeByAddressWorker P s address

/-- Above the first megabyte, the registers decide. -/
theorem mtrrGetMemoryAttributeByAddressWorker_eq
    (henabled : s.mtrrDefType &&& mtrrLibCacheMtrrEnabled ≠ 0) (haddress : base1Mb ≤ address) :
    mtrrGetMemoryAttributeByAddressWorker P s address
      = getMemoryCacheTypeFromMtrrType s (variableType P s address) := by
  have hlow : ¬ (address < base1Mb ∧ s.mtrrDefType &&& mtrrLibCacheFixedMtrrEnabled ≠ 0) :=
    fun h ↦ BitVec.not_lt.2 haddress h.1
  rw [mtrrGetMemoryAttributeByAddressWorker, if_neg henabled, if_neg hlow]

section

variable {types : List (BitVec 64)}

/-- The type that is made of several types. -/
def combinedType (s : MtrrSettings) (types : List (BitVec 64)) : BitVec 64 :=
  getMemoryCacheTypeFromMtrrType s (types.foldl mtrrPrecedence mtrrCacheInvalidType)

theorem combinedType_of_mem (htypes : ∀ type ∈ types, IsMemoryType type) (h : 0 ∈ types) :
    combinedType s types = 0 := by
  rw [combinedType, foldl_mtrrPrecedence_of_mem (.inr rfl) htypes h]
  exact getMemoryCacheTypeFromMtrrType_of_isMemoryType (.inl rfl)

theorem combinedType_of_forall_eq {type : BitVec 64} (htypes : ∀ type ∈ types, IsMemoryType type)
    (hne : types ≠ []) (h : ∀ type' ∈ types, type' = type) : combinedType s types = type := by
  obtain ⟨type', htype'⟩ := List.exists_mem_of_ne_nil types hne
  have htype : IsMemoryType type := h type' htype' ▸ htypes type' htype'
  rw [combinedType, foldl_mtrrPrecedence_of_forall_eq htype hne h]
  exact getMemoryCacheTypeFromMtrrType_of_isMemoryType htype

theorem combinedType_writeThrough (htypes : ∀ type ∈ types, type = 4 ∨ type = 6) (h : 4 ∈ types) :
    combinedType s types = 4 := by
  rw [combinedType, foldl_mtrrPrecedence_writeThrough (.inr (.inr rfl)) htypes (.inr h)]
  exact getMemoryCacheTypeFromMtrrType_of_isMemoryType (.inr (.inr (.inl rfl)))

theorem combinedType_nil : combinedType s [] = mtrrGetDefaultMemoryTypeWorker s :=
  getMemoryCacheTypeFromMtrrType_invalid

theorem combinedType_of_perm_of_forall_eq {types' : List (BitVec 64)} {type : BitVec 64}
    (hperm : types'.Perm types) (htypes : ∀ type ∈ types, IsMemoryType type)
    (h : ∀ type' ∈ types, type' = type) : combinedType s types' = combinedType s types := by
  by_cases hne : types = []
  · subst hne
    rw [List.perm_nil.1 hperm]
  · have hne' : types' ≠ [] := fun hnil ↦ hne (List.nil_perm.1 (hnil ▸ hperm))
    have htypes' : ∀ type ∈ types', IsMemoryType type :=
      fun type h' ↦ htypes type (hperm.mem_iff.1 h')
    rw [combinedType_of_forall_eq htypes hne h,
      combinedType_of_forall_eq htypes' hne' fun type' h' ↦ h type' (hperm.mem_iff.1 h')]

/-- The order of the types does not matter. -/
theorem combinedType_of_perm {types' : List (BitVec 64)} (hperm : types'.Perm types)
    (htypes : ∀ type ∈ types, IsMemoryType type)
    (h : 0 ∈ types ∨ (∃ type, ∀ type' ∈ types, type' = type) ∨
      ∀ type ∈ types, type = 4 ∨ type = 6) :
    combinedType s types' = combinedType s types := by
  have htypes' : ∀ type ∈ types', IsMemoryType type := fun type h' ↦ htypes type (hperm.mem_iff.1 h')
  rcases h with h | ⟨type, h⟩ | h
  · rw [combinedType_of_mem htypes h, combinedType_of_mem htypes' (hperm.mem_iff.2 h)]
  · exact combinedType_of_perm_of_forall_eq hperm htypes h
  · have h' : ∀ type ∈ types', type = 4 ∨ type = 6 := fun type h' ↦ h type (hperm.mem_iff.1 h')
    by_cases h4 : (4 : BitVec 64) ∈ types
    · rw [combinedType_writeThrough h h4, combinedType_writeThrough h' (hperm.mem_iff.2 h4)]
    · -- only WB is left
      have h6 : ∀ type ∈ types, type = 6 := by
        intro type hmem
        rcases h type hmem with rfl | rfl
        · exact absurd hmem h4
        · rfl
      exact combinedType_of_perm_of_forall_eq hperm htypes h6

end

/-- **The type of an address.** -/
theorem followsPrecedence (henabled : s.mtrrDefType &&& mtrrLibCacheMtrrEnabled ≠ 0)
    (haddress : base1Mb ≤ address)
    (htypes : ∀ type ∈ coveringTypes P (getFirmwareVariableMtrrCountWorker P) s address,
      IsMemoryType type) :
    FollowsPrecedence P (getFirmwareVariableMtrrCountWorker P) s address := by
  have hlookup : ∀ s' : MtrrSettings, s'.mtrrDefType = s.mtrrDefType →
      mtrrGetMemoryAttributeByAddressWorker P s' address = combinedType s'
        (coveringTypes P (getFirmwareVariableMtrrCountWorker P) s' address) := by
    intro s' hdef
    rw [mtrrGetMemoryAttributeByAddressWorker_eq (hdef ▸ henabled) haddress, variableType_eq]
    rfl
  have hself := hlookup s rfl
  refine ⟨fun h ↦ ?_, fun type hne h ↦ ?_, fun h4 _ h ↦ ?_, fun h ↦ ?_, fun s' hdef hperm h ↦ ?_⟩
  · rw [hself, combinedType_of_mem htypes h]
  · rw [hself, combinedType_of_forall_eq htypes hne h]
  · rw [hself, combinedType_writeThrough h h4]
  · rw [hself, h, combinedType_nil]
  · have htypesPerm : (coveringTypes P (getFirmwareVariableMtrrCountWorker P) s' address).Perm
        (coveringTypes P (getFirmwareVariableMtrrCountWorker P) s address) :=
      ((hperm.map _).filter _).map _
    have hcombined : ∀ types, combinedType s' types = combinedType s types := by
      intro types
      rw [combinedType, combinedType, getMemoryCacheTypeFromMtrrType,
        getMemoryCacheTypeFromMtrrType, mtrrGetDefaultMemoryTypeWorker,
        mtrrGetDefaultMemoryTypeWorker, hdef]
    rw [hlookup s' hdef, hself, hcombined, combinedType_of_perm htypesPerm htypes h]

/-- A processor with two variable registers and 46 address bits, one of them or none reserved for the
operating system. -/
def twoRegisters (reserved : BitVec 32) : MtrrPlatform where
  mtrrSupported := true
  mtrrCap := 0x502
  pcdCpuNumberOfReservedVariableMtrrs := reserved
  maxExtendedFunction := 0x80000008
  physicalAddressBits := 40
  physicalAddressBits_le := by decide

/-- Both registers are enabled for the second megabyte, with the given types. -/
def secondMegabyte (mtrrDefType type₀ type₁ : BitVec 64) : MtrrSettings where
  fixed := fun _ ↦ 0
  variableMtrr := fun i ↦ ⟨0x100000 ||| if i = 0 then type₀ else type₁, 0x3FFFFFF00800⟩
  mtrrDefType := mtrrDefType

/-- WT and WB, with nothing reserved. -/
theorem followsPrecedence_writeThrough :
    FollowsPrecedence (twoRegisters 0) (getFirmwareVariableMtrrCountWorker (twoRegisters 0))
      (secondMegabyte 0xC00 4 6) 0x180000 := by
  have hcovering : coveringTypes (twoRegisters 0) (getFirmwareVariableMtrrCountWorker (twoRegisters 0))
      (secondMegabyte 0xC00 4 6) 0x180000 = [4, 6] := by decide +kernel
  refine followsPrecedence (by decide) (by decide) ?_
  rw [hcovering]
  exact List.forall_mem_cons.2 ⟨by decide, List.forall_mem_cons.2 ⟨by decide, nofun⟩⟩

/-- The registers are not enabled, or the one with UC is reserved, or follows one with the number 2,
which is no memory type. -/
theorem not_followsPrecedence_allContents :
    ¬ FollowsPrecedence (twoRegisters 0) 2 (secondMegabyte 0 6 6) 0x180000 ∧
    ¬ FollowsPrecedence (twoRegisters 1) 2 (secondMegabyte 0xC06 6 0) 0x180000 ∧
    ¬ FollowsPrecedence (twoRegisters 0) 2 (secondMegabyte 0xC06 2 0) 0x180000 := by
  refine ⟨fun h ↦ ?_, fun h ↦ ?_, fun h ↦ ?_⟩
  · have hcovering : coveringTypes (twoRegisters 0) 2 (secondMegabyte 0 6 6) 0x180000 = [6, 6] := by
      decide +kernel
    have hlookup : mtrrGetMemoryAttributeByAddressWorker (twoRegisters 0) (secondMegabyte 0 6 6)
        0x180000 = 0 := by decide +kernel
    have hagree := h.agree 6
    rw [hcovering, hlookup] at hagree
    have hsix : (0 : BitVec 64) = 6 := hagree (List.cons_ne_nil _ _)
      (List.forall_mem_cons.2 ⟨rfl, List.forall_mem_cons.2 ⟨rfl, nofun⟩⟩)
    exact absurd hsix (by decide)
  · have hcovering : coveringTypes (twoRegisters 1) 2 (secondMegabyte 0xC06 6 0) 0x180000
        = [6, 0] := by decide +kernel
    have hlookup : mtrrGetMemoryAttributeByAddressWorker (twoRegisters 1) (secondMegabyte 0xC06 6 0)
        0x180000 = 6 := by decide +kernel
    have huncacheable := h.uncacheable
    rw [hcovering, hlookup] at huncacheable
    exact absurd (huncacheable (by decide)) (by decide)
  · have hcovering : coveringTypes (twoRegisters 0) 2 (secondMegabyte 0xC06 2 0) 0x180000
        = [2, 0] := by decide +kernel
    have hlookup : mtrrGetMemoryAttributeByAddressWorker (twoRegisters 0) (secondMegabyte 0xC06 2 0)
        0x180000 = 6 := by decide +kernel
    have huncacheable := h.uncacheable
    rw [hcovering, hlookup] at huncacheable
    exact absurd (huncacheable (by decide)) (by decide)

end PurleyFirmware.Mtrr
