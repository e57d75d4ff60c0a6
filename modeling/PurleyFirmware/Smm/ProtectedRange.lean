import Mathlib.Logic.Function.Basic
import PurleyFirmware.Foundation.Unsigned

/-!
# The ranges that are split into 4 KB pages

`InitProtectedMemRange` of `SmmProfile.c`. The protected ranges are SMRAM, the profile data and the
MMIO ranges of the GCD map. Where a range does not begin or end at a 2 MB boundary, the 2 MB page
around that end is recorded in `mSplitMemRange`, or the whole range when no 2 MB page fits between
the ends.

A range contributes two records, one or none, and the table has one place for each range; without
an MMIO range there is no table at all. What is recorded is complete (`boundariesSplit_iff`) unless
an end lies in the last 2 MB of the 64-bit space, whose upper bound is not a `UINT64`.
-/

namespace PurleyFirmware.SmmProfile

/-! ### The data -/

/-- `MEMORY_RANGE`: the addresses from `base` on, below `top`. -/
structure MemoryRange where
  base : ℕ
  top : ℕ
  deriving DecidableEq, Repr

/-- The range is one, of addresses that `UINT64` has. -/
structure MemoryRange.Valid (r : MemoryRange) : Prop where
  base_le : r.base ≤ r.top
  top_lt : r.top < 2 ^ 64

/-- `MEMORY_PROTECTION_RANGE`. -/
structure MemoryProtectionRange where
  range : MemoryRange
  present : Bool
  nx : Bool
  deriving DecidableEq, Repr

/-- `EFI_GCD_MEMORY_TYPE`. -/
inductive GcdMemoryType
  | nonExistent
  | reserved
  | systemMemory
  | memoryMappedIo
  deriving DecidableEq, Repr

/-- `EFI_GCD_MEMORY_SPACE_DESCRIPTOR`, which does not reach beyond the space. -/
structure MemorySpaceDescriptor where
  baseAddress : ℕ
  length : ℕ
  gcdMemoryType : GcdMemoryType
  lt : baseAddress + length < 2 ^ 64

/-- `mProtectionMemRangeTemplate`, with the ranges of SMRAM and of the profile data filled in. -/
def protectionMemRangeTemplate (smram profile : MemoryRange) : List MemoryProtectionRange :=
  [⟨smram, true, false⟩, ⟨profile, true, true⟩]

/-! ### `InitProtectedMemRange` -/

/-- `a & ~(SIZE_2MB - 1)`. -/
def floor2MB (a : ℕ) : ℕ := a / 2 ^ 21 * 2 ^ 21

/-- `(a + SIZE_2MB - 1) & ~(SIZE_2MB - 1)`. -/
def ceil2MB (a : ℕ) : ℕ := floor2MB ((a + 2 ^ 21 - 1) % 2 ^ 64)

/-- `mSplitMemRange`, and whether every store so far was to a place that it has. -/
structure SplitTable where
  mSplitMemRange : ℕ → MemoryRange
  numberOfSpliteRange : ℕ
  inBounds : Bool

/-- A range is stored. -/
def SplitTable.store (capacity : ℕ) (t : SplitTable) (r : MemoryRange) : SplitTable where
  mSplitMemRange := Function.update t.mSplitMemRange t.numberOfSpliteRange r
  numberOfSpliteRange := t.numberOfSpliteRange + 1
  inBounds := t.inBounds && decide (t.numberOfSpliteRange < capacity)

/-- One turn of the loop over the protected ranges. -/
def addSplit (capacity : ℕ) (t : SplitTable) (protection : MemoryProtectionRange) : SplitTable :=
  let base := protection.range.base
  let top := protection.range.top
  if base % 2 ^ 21 ≠ 0 ∨ top % 2 ^ 21 ≠ 0 then
    if floor2MB top > ceil2MB base ∧ floor2MB top - ceil2MB base ≥ 2 ^ 21 then
      -- `High4KBPageSize`, then `Low4KBPageSize`
      let high :=
        if wrapSub 64 (ceil2MB top) (floor2MB top) ≠ 0 then
          t.store capacity ⟨floor2MB top, ceil2MB top⟩
        else t
      if wrapSub 64 (ceil2MB base) (floor2MB base) ≠ 0 then
        high.store capacity ⟨floor2MB base, ceil2MB base⟩
      else high
    else t.store capacity ⟨floor2MB base, ceil2MB top⟩
  else t

/-- The MMIO descriptors of the map. -/
def mmioDescriptors (map : List MemorySpaceDescriptor) : List MemorySpaceDescriptor :=
  map.filter fun d ↦ d.gcdMemoryType = .memoryMappedIo

/-- `mProtectionMemRange`. -/
def protectionMemRange (smram profile : MemoryRange) (map : List MemorySpaceDescriptor) :
    List MemoryProtectionRange :=
  protectionMemRangeTemplate smram profile ++ (mmioDescriptors map).map fun d ↦
    ⟨⟨d.baseAddress, d.baseAddress + d.length⟩, true, true⟩

/-- The number of places that are allocated for `mSplitMemRange`. -/
def splitCapacity (smram profile : MemoryRange) (map : List MemorySpaceDescriptor) : ℕ :=
  if (mmioDescriptors map).length ≠ 0 then (protectionMemRange smram profile map).length else 0

/-- `InitProtectedMemRange`: the split ranges. -/
def initProtectedMemRange (smram profile : MemoryRange) (map : List MemorySpaceDescriptor) :
    SplitTable :=
  (protectionMemRange smram profile map).foldl (addSplit (splitCapacity smram profile map))
    ⟨fun _ ↦ ⟨0, 0⟩, 0, true⟩

/-! ### What is asked of the table -/

/-- The address is strictly inside the 2 MB page. -/
def StrictlyInside (page a : ℕ) : Prop := page * 2 ^ 21 < a ∧ a < (page + 1) * 2 ^ 21

/-- The pages with an end of a protected range strictly inside are in ranges of the table. -/
def BoundariesSplit (ranges : List MemoryProtectionRange) (t : SplitTable) : Prop :=
  ∀ r ∈ ranges, ∀ page, StrictlyInside page r.range.base ∨ StrictlyInside page r.range.top →
    ∃ i < t.numberOfSpliteRange, (t.mSplitMemRange i).base ≤ page * 2 ^ 21 ∧
      (page + 1) * 2 ^ 21 ≤ (t.mSplitMemRange i).top

/-- Both ends are at 2 MB boundaries. -/
def Aligned (r : MemoryProtectionRange) : Prop :=
  r.range.base % 2 ^ 21 = 0 ∧ r.range.top % 2 ^ 21 = 0

instance (r : MemoryProtectionRange) : Decidable (Aligned r) := inferInstanceAs (Decidable (_ ∧ _))

/-- Neither end is at a 2 MB boundary, and there is a 2 MB page between. -/
def BothEndsSplit (r : MemoryProtectionRange) : Prop :=
  r.range.base % 2 ^ 21 ≠ 0 ∧ r.range.top % 2 ^ 21 ≠ 0 ∧
    r.range.base / 2 ^ 21 + 2 ≤ r.range.top / 2 ^ 21

instance (r : MemoryProtectionRange) : Decidable (BothEndsSplit r) :=
  inferInstanceAs (Decidable (_ ∧ _))

/-- No end is strictly inside the last 2 MB page of the address space. -/
def BelowLast (r : MemoryProtectionRange) : Prop :=
  r.range.base ≤ 2 ^ 64 - 2 ^ 21 ∧ r.range.top ≤ 2 ^ 64 - 2 ^ 21

/-- The ranges for which the table is right: with an MMIO range no more of them have two records
than none; without, all are aligned. -/
def Fits (smram profile : MemoryRange) (map : List MemorySpaceDescriptor) : Prop :=
  (if (mmioDescriptors map).length ≠ 0 then
    (protectionMemRange smram profile map).countP (BothEndsSplit ·) ≤
      (protectionMemRange smram profile map).countP (Aligned ·)
  else ∀ r ∈ protectionMemRange smram profile map, Aligned r) ∧
  ∀ r ∈ protectionMemRange smram profile map, BelowLast r

/-! ### What is recorded -/

variable {r : MemoryProtectionRange} {l : List MemoryProtectionRange} {t : SplitTable}
  {capacity : ℕ}

/-- The ranges that one protected range contributes. -/
def splitRangesOf (r : MemoryProtectionRange) : List MemoryRange :=
  if r.range.base % 2 ^ 21 ≠ 0 ∨ r.range.top % 2 ^ 21 ≠ 0 then
    if floor2MB r.range.top > ceil2MB r.range.base ∧
        floor2MB r.range.top - ceil2MB r.range.base ≥ 2 ^ 21 then
      (if wrapSub 64 (ceil2MB r.range.top) (floor2MB r.range.top) ≠ 0 then
        [⟨floor2MB r.range.top, ceil2MB r.range.top⟩] else []) ++
      (if wrapSub 64 (ceil2MB r.range.base) (floor2MB r.range.base) ≠ 0 then
        [⟨floor2MB r.range.base, ceil2MB r.range.base⟩] else [])
    else [⟨floor2MB r.range.base, ceil2MB r.range.top⟩]
  else []

theorem addSplit_eq (capacity : ℕ) (t : SplitTable) (r : MemoryProtectionRange) :
    addSplit capacity t r = (splitRangesOf r).foldl (SplitTable.store capacity) t := by
  unfold addSplit splitRangesOf
  dsimp only
  split
  · split
    · rw [List.foldl_append]
      split <;> split <;> simp only [List.foldl_cons, List.foldl_nil]
    · rw [List.foldl_cons, List.foldl_nil]
  · rw [List.foldl_nil]

/-- The table holds these ranges. -/
structure Records (capacity : ℕ) (t : SplitTable) (rs : List MemoryRange) : Prop where
  number : t.numberOfSpliteRange = rs.length
  range : ∀ i (h : i < rs.length), t.mSplitMemRange i = rs[i]
  inBounds : t.inBounds = decide (rs.length ≤ capacity)

theorem Records.store {rs : List MemoryRange} (h : Records capacity t rs) (r : MemoryRange) :
    Records capacity (t.store capacity r) (rs ++ [r]) := by
  have hlength : (rs ++ [r]).length = rs.length + 1 := List.length_append
  refine ⟨?_, fun i hi ↦ ?_, ?_⟩
  · rw [hlength, ← h.number]
    rfl
  · dsimp only [SplitTable.store]
    rw [h.number]
    rw [hlength, Nat.lt_succ_iff_lt_or_eq] at hi
    rcases hi with hlt | rfl
    · rw [Function.update_of_ne (Nat.ne_of_lt hlt), h.range i hlt, List.getElem_append_left hlt]
    · rw [Function.update_self, List.getElem_concat_length rfl]
  · rw [SplitTable.store, h.number, h.inBounds, hlength, ← Bool.decide_and]
    exact decide_eq_decide.2 ⟨fun h ↦ h.2, fun h ↦ ⟨by omega, h⟩⟩

theorem records_foldl (rs rs' : List MemoryRange) (h : Records capacity t rs) :
    Records capacity (rs'.foldl (SplitTable.store capacity) t) (rs ++ rs') := by
  induction rs' generalizing rs t with
  | nil =>
    rw [List.append_nil]
    exact h
  | cons r rs' ih =>
    rw [List.append_cons]
    exact ih (rs ++ [r]) (h.store r)

theorem records_empty (capacity : ℕ) : Records capacity ⟨fun _ ↦ ⟨0, 0⟩, 0, true⟩ [] := by
  refine ⟨rfl, fun i hi ↦ absurd hi (Nat.not_lt_zero i), ?_⟩
  rw [List.length_nil, decide_eq_true (Nat.zero_le capacity)]

theorem foldl_addSplit (capacity : ℕ) (l : List MemoryProtectionRange) (t : SplitTable) :
    l.foldl (addSplit capacity) t
      = (l.flatMap splitRangesOf).foldl (SplitTable.store capacity) t := by
  induction l generalizing t with
  | nil => rw [List.flatMap_nil, List.foldl_nil, List.foldl_nil]
  | cons r l ih => rw [List.foldl_cons, List.flatMap_cons, List.foldl_append, addSplit_eq, ih]

/-- **The loop.** -/
theorem initProtectedMemRange_records (smram profile : MemoryRange)
    (map : List MemorySpaceDescriptor) :
    Records (splitCapacity smram profile map) (initProtectedMemRange smram profile map)
      ((protectionMemRange smram profile map).flatMap splitRangesOf) := by
  rw [initProtectedMemRange, foldl_addSplit]
  generalize (protectionMemRange smram profile map).flatMap splitRangesOf = rs
  have hall := records_foldl [] rs (records_empty (splitCapacity smram profile map))
  rw [List.nil_append] at hall
  exact hall

/-! ### How many ranges are recorded -/

theorem ceil2MB_eq {a : ℕ} (ha : a ≤ 2 ^ 64 - 2 ^ 21) :
    ceil2MB a = floor2MB a + if a % 2 ^ 21 = 0 then 0 else 2 ^ 21 := by
  unfold ceil2MB floor2MB
  rw [Nat.mod_eq_of_lt (by omega)]
  split <;> omega

theorem ceil2MB_lt (a : ℕ) : ceil2MB a < 2 ^ 64 := by
  unfold ceil2MB floor2MB
  omega

/-- `High4KBPageSize` and `Low4KBPageSize` are not zero at an end that is no boundary. -/
theorem wrapSub_ceil2MB_ne_zero_iff {a : ℕ} (ha : a ≤ 2 ^ 64 - 2 ^ 21) :
    wrapSub 64 (ceil2MB a) (floor2MB a) ≠ 0 ↔ a % 2 ^ 21 ≠ 0 := by
  have hceil := ceil2MB_eq ha
  rw [wrapSub_of_le (by omega) (ceil2MB_lt a), hceil, Nat.add_sub_cancel_left]
  by_cases hmod : a % 2 ^ 21 = 0
  · rw [if_pos hmod]
    exact ⟨fun h ↦ absurd rfl h, fun h ↦ absurd hmod h⟩
  · rw [if_neg hmod]
    exact ⟨fun _ ↦ hmod, fun _ ↦ by decide⟩

/-- A 2 MB page fits between the ends, in the terms of the code. -/
theorem between_iff (hlast : BelowLast r) :
    (floor2MB r.range.top > ceil2MB r.range.base ∧
        floor2MB r.range.top - ceil2MB r.range.base ≥ 2 ^ 21) ↔
      r.range.base / 2 ^ 21 + (if r.range.base % 2 ^ 21 = 0 then 0 else 1) + 1
        ≤ r.range.top / 2 ^ 21 := by
  rw [ceil2MB_eq hlast.1]
  unfold floor2MB
  split <;> omega

/-- **Two records, one or none.** -/
theorem length_splitRangesOf (hlast : BelowLast r) :
    (splitRangesOf r).length + (if Aligned r then 1 else 0) =
      1 + if BothEndsSplit r then 1 else 0 := by
  have hbetween := between_iff hlast
  have htop := wrapSub_ceil2MB_ne_zero_iff hlast.2
  have hbase := wrapSub_ceil2MB_ne_zero_iff hlast.1
  by_cases hb : r.range.base % 2 ^ 21 = 0
  · rw [if_neg fun h : BothEndsSplit r ↦ h.1 hb]
    by_cases ht : r.range.top % 2 ^ 21 = 0
    · rw [if_pos (show Aligned r from ⟨hb, ht⟩), splitRangesOf,
        if_neg (not_or.2 ⟨not_not.2 hb, not_not.2 ht⟩), List.length_nil]
    · rw [if_neg fun h : Aligned r ↦ ht h.2, splitRangesOf, if_pos (Or.inr ht), if_pos (htop.2 ht),
        if_neg fun h ↦ hbase.1 h hb]
      split <;> rfl
  · rw [if_neg fun h : Aligned r ↦ hb h.1, splitRangesOf, if_pos (Or.inl hb), if_pos (hbase.2 hb)]
    rw [if_neg hb] at hbetween
    by_cases hfits : r.range.base / 2 ^ 21 + 1 + 1 ≤ r.range.top / 2 ^ 21
    · rw [if_pos (hbetween.2 hfits)]
      by_cases ht : r.range.top % 2 ^ 21 = 0
      · rw [if_neg fun h ↦ htop.1 h ht, if_neg fun h : BothEndsSplit r ↦ h.2.1 ht]
        rfl
      · rw [if_pos (htop.2 ht), if_pos (show BothEndsSplit r from ⟨hb, ht, hfits⟩)]
        rfl
    · rw [if_neg fun h ↦ hfits (hbetween.1 h), if_neg fun h : BothEndsSplit r ↦ hfits h.2.2]
      rfl

/-- **The records of all ranges.** -/
theorem length_flatMap_splitRangesOf (hlast : ∀ r ∈ l, BelowLast r) :
    (l.flatMap splitRangesOf).length + l.countP (Aligned ·) =
      l.length + l.countP (BothEndsSplit ·) := by
  induction l with
  | nil => rfl
  | cons r l ih =>
    have hr := length_splitRangesOf (hlast r List.mem_cons_self)
    have hl := ih fun r' hr' ↦ hlast r' (List.mem_cons_of_mem _ hr')
    rw [List.flatMap_cons, List.length_append, List.countP_cons, List.countP_cons, List.length_cons]
    simp only [decide_eq_true_eq]
    omega

/-- The table holds all records if and only if the numbers of ranges are as they are to be. -/
theorem length_le_splitCapacity_iff (smram profile : MemoryRange)
    (map : List MemorySpaceDescriptor)
    (hlast : ∀ r ∈ protectionMemRange smram profile map, BelowLast r) :
    ((protectionMemRange smram profile map).flatMap splitRangesOf).length
        ≤ splitCapacity smram profile map ↔
      if (mmioDescriptors map).length ≠ 0 then
        (protectionMemRange smram profile map).countP (BothEndsSplit ·) ≤
          (protectionMemRange smram profile map).countP (Aligned ·)
      else ∀ r ∈ protectionMemRange smram profile map, Aligned r := by
  have hlength := length_flatMap_splitRangesOf hlast
  unfold splitCapacity
  generalize protectionMemRange smram profile map = ranges at hlength ⊢
  by_cases hmmio : (mmioDescriptors map).length ≠ 0
  · rw [if_pos hmmio, if_pos hmmio]
    omega
  · rw [if_neg hmmio, if_neg hmmio]
    have hall : ranges.countP (Aligned ·) = ranges.length ↔ ∀ r ∈ ranges, Aligned r := by
      rw [List.countP_eq_length]
      simp only [decide_eq_true_eq]
    have hle := List.countP_le_length (p := fun r ↦ decide (Aligned r)) (l := ranges)
    rw [← hall]
    refine ⟨fun h ↦ by omega, fun h ↦ ?_⟩
    have hnone : ranges.countP (BothEndsSplit ·) = 0 :=
      List.countP_eq_zero.2 fun r hr ↦ by
        have haligned := hall.1 h r hr
        exact mt of_decide_eq_true fun hboth ↦ hboth.1 haligned.1
    omega

/-! ### What the records cover -/

theorem floor2MB_of_strictlyInside {page a : ℕ} (h : StrictlyInside page a) :
    floor2MB a = page * 2 ^ 21 ∧ a % 2 ^ 21 ≠ 0 := by
  unfold StrictlyInside at h
  unfold floor2MB
  omega

/-- The pages with an end strictly inside are in the records of the range. -/
theorem exists_mem_splitRangesOf (hvalid : r.range.base ≤ r.range.top) (hlast : BelowLast r)
    {page : ℕ} (h : StrictlyInside page r.range.base ∨ StrictlyInside page r.range.top) :
    ∃ r' ∈ splitRangesOf r, r'.base ≤ page * 2 ^ 21 ∧ (page + 1) * 2 ^ 21 ≤ r'.top := by
  have hbetween := between_iff hlast
  have htop := wrapSub_ceil2MB_ne_zero_iff hlast.2
  have hbase := wrapSub_ceil2MB_ne_zero_iff hlast.1
  have hceilTop := ceil2MB_eq hlast.2
  have hceilBase := ceil2MB_eq hlast.1
  unfold splitRangesOf
  by_cases hfits : floor2MB r.range.top > ceil2MB r.range.base ∧
      floor2MB r.range.top - ceil2MB r.range.base ≥ 2 ^ 21
  · rw [if_pos hfits]
    rcases h with h | h
    · obtain ⟨hfloor, hmod⟩ := floor2MB_of_strictlyInside h
      rw [if_neg hmod] at hceilBase
      rw [if_pos (Or.inl hmod), if_pos (hbase.2 hmod)]
      exact ⟨_, List.mem_append_right _ List.mem_cons_self, Nat.le_of_eq hfloor, by dsimp only; omega⟩
    · obtain ⟨hfloor, hmod⟩ := floor2MB_of_strictlyInside h
      rw [if_neg hmod] at hceilTop
      rw [if_pos (Or.inr hmod), if_pos (htop.2 hmod)]
      exact ⟨_, List.mem_append_left _ List.mem_cons_self, Nat.le_of_eq hfloor, by dsimp only; omega⟩
  · rw [if_neg hfits]
    have hsome : r.range.base % 2 ^ 21 ≠ 0 ∨ r.range.top % 2 ^ 21 ≠ 0 :=
      h.imp (fun h ↦ (floor2MB_of_strictlyInside h).2) fun h ↦ (floor2MB_of_strictlyInside h).2
    rw [if_pos hsome]
    refine ⟨_, List.mem_cons_self, ?_, ?_⟩
    · dsimp only
      unfold floor2MB
      rcases h with h | h <;> unfold StrictlyInside at h <;> omega
    · dsimp only
      unfold floor2MB at hceilTop
      rcases h with h | h <;> unfold StrictlyInside at h <;> split at hceilTop <;> omega

theorem exists_top_eq {r' : MemoryRange} (h : r' ∈ splitRangesOf r) :
    ∃ a, r'.top = ceil2MB a := by
  unfold splitRangesOf at h
  split at h
  · split at h
    · rcases List.mem_append.1 h with h | h
      · split at h
        · exact ⟨_, congrArg MemoryRange.top (List.mem_singleton.1 h)⟩
        · exact absurd h List.not_mem_nil
      · split at h
        · exact ⟨_, congrArg MemoryRange.top (List.mem_singleton.1 h)⟩
        · exact absurd h List.not_mem_nil
    · exact ⟨_, congrArg MemoryRange.top (List.mem_singleton.1 h)⟩
  · exact absurd h List.not_mem_nil

/-- **What is recorded is complete**, but for the last page. -/
theorem boundariesSplit_iff {ranges : List MemoryProtectionRange}
    (hvalid : ∀ r ∈ ranges, r.range.Valid) (ht : Records capacity t (ranges.flatMap splitRangesOf)) :
    BoundariesSplit ranges t ↔ ∀ r ∈ ranges, BelowLast r := by
  constructor
  · intro h r hr
    have hlt : ∀ i < t.numberOfSpliteRange, (t.mSplitMemRange i).top < 2 ^ 64 := by
      intro i hi
      rw [ht.number] at hi
      rw [ht.range i hi]
      obtain ⟨r', -, hmem⟩ := List.mem_flatMap.1 (List.getElem_mem hi)
      obtain ⟨a, ha⟩ := exists_top_eq hmem
      exact ha ▸ ceil2MB_lt a
    have hvalid' := hvalid r hr
    have hbase := hvalid'.base_le
    have htop := hvalid'.top_lt
    -- the last page
    have hno : ∀ a < 2 ^ 64, (a = r.range.base ∨ a = r.range.top) → a ≤ 2 ^ 64 - 2 ^ 21 := by
      intro a ha hend
      by_contra hgt
      have hinside : StrictlyInside (2 ^ 43 - 1) a := by
        unfold StrictlyInside
        omega
      obtain ⟨i, hi, -, hle⟩ := h r hr (2 ^ 43 - 1)
        (hend.imp (fun h ↦ h ▸ hinside) fun h ↦ h ▸ hinside)
      have hlt' := hlt i hi
      omega
    exact ⟨hno _ (by omega) (Or.inl rfl), hno _ htop (Or.inr rfl)⟩
  · intro hlast r hr page hinside
    obtain ⟨r', hmem, hle⟩ := exists_mem_splitRangesOf (hvalid r hr).base_le (hlast r hr) hinside
    obtain ⟨i, hi, heq⟩ := List.getElem_of_mem (List.mem_flatMap.2 ⟨r, hr, hmem⟩)
    refine ⟨i, ht.number ▸ hi, ?_⟩
    rw [ht.range i hi, heq]
    exact hle

theorem valid_of_mem_protectionMemRange {smram profile : MemoryRange}
    {map : List MemorySpaceDescriptor} (hsmram : smram.Valid) (hprofile : profile.Valid) :
    ∀ r ∈ protectionMemRange smram profile map, r.range.Valid := by
  intro r hr
  rcases List.mem_append.1 hr with htemplate | hmmio
  · rcases List.mem_cons.1 htemplate with rfl | hprofile'
    · exact hsmram
    · rw [List.mem_singleton.1 hprofile']
      exact hprofile
  · obtain ⟨d, -, rfl⟩ := List.mem_map.1 hmmio
    exact ⟨Nat.le_add_right _ _, d.lt⟩

/-- **`InitProtectedMemRange` is right exactly when the ranges fit.** -/
theorem initProtectedMemRange_iff (smram profile : MemoryRange) (hsmram : smram.Valid)
    (hprofile : profile.Valid) (map : List MemorySpaceDescriptor) :
    ((initProtectedMemRange smram profile map).inBounds = true ∧
        BoundariesSplit (protectionMemRange smram profile map)
          (initProtectedMemRange smram profile map)) ↔
      Fits smram profile map := by
  have hrecords := initProtectedMemRange_records smram profile map
  rw [boundariesSplit_iff (valid_of_mem_protectionMemRange hsmram hprofile) hrecords,
    hrecords.inBounds, decide_eq_true_iff, Fits]
  exact and_congr_left fun hlast ↦ length_le_splitCapacity_iff smram profile map hlast

/-- SMRAM of 8 MB, profile data of 1 MB, and two MMIO ranges of 6 MB with both ends at 4 KB. -/
def twoMmioRanges : List MemorySpaceDescriptor :=
  [⟨0x80001000, 0x600000, .memoryMappedIo, by decide⟩,
    ⟨0x90001000, 0x600000, .memoryMappedIo, by decide⟩]

theorem initProtectedMemRange_twoMmioRanges :
    ((initProtectedMemRange ⟨0x7F000000, 0x7F800000⟩ ⟨0x7E001000, 0x7E101000⟩
        twoMmioRanges).inBounds = true ∧
      BoundariesSplit (protectionMemRange ⟨0x7F000000, 0x7F800000⟩ ⟨0x7E001000, 0x7E101000⟩
        twoMmioRanges) (initProtectedMemRange ⟨0x7F000000, 0x7F800000⟩ ⟨0x7E001000, 0x7E101000⟩
        twoMmioRanges)) ↔
      Fits ⟨0x7F000000, 0x7F800000⟩ ⟨0x7E001000, 0x7E101000⟩ twoMmioRanges :=
  initProtectedMemRange_iff _ _ ⟨by decide, by decide⟩ ⟨by decide, by decide⟩ _

/-- Five records for four places. -/
theorem not_inBounds_twoMmioRanges :
    ¬ ∀ (smram profile : MemoryRange), smram.Valid → profile.Valid →
      ∀ map : List MemorySpaceDescriptor,
        (initProtectedMemRange smram profile map).inBounds = true ∧
          BoundariesSplit (protectionMemRange smram profile map)
            (initProtectedMemRange smram profile map) := by
  intro hall
  have hout : (initProtectedMemRange ⟨0x7F000000, 0x7F800000⟩ ⟨0x7E001000, 0x7E101000⟩
      twoMmioRanges).inBounds = false := by decide
  have hin := (hall ⟨0x7F000000, 0x7F800000⟩ ⟨0x7E001000, 0x7E101000⟩ ⟨by decide, by decide⟩
    ⟨by decide, by decide⟩ twoMmioRanges).1
  exact Bool.false_ne_true (hout.symm.trans hin)

end PurleyFirmware.SmmProfile
