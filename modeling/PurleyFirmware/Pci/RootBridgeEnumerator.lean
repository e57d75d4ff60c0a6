import Mathlib.Data.List.TakeWhile
import PurleyFirmware.Foundation.SelectionSort
import PurleyFirmware.Pci.BusReservation
import PurleyFirmware.Pci.ScanBus

/-!
# `PciRootBridgeEnumerator`

The enumerator of a root bridge sorts the bus ranges that the root bridge returned, scans the buses,
reserves what the hot-plug buses ask for in the root bridge, and then tells the root bridge which bus
numbers are in use. For that it cuts the list in place: the range with the last bus number is
shortened, and the descriptor behind it becomes the end of the list. Both are put back afterwards.

The list is in memory, so a descriptor behind the end tag is a descriptor, too: the one behind the
range that is cut may be the end tag itself.
-/

namespace PurleyFirmware.Pci

/-! ### Descriptors in memory -/

/-- `ACPI_END_TAG_DESCRIPTOR`. -/
def acpiEndTagDescriptor : BitVec 8 := 0x79

/-- An `EFI_ACPI_ADDRESS_SPACE_DESCRIPTOR`. -/
structure BusDescriptor where
  desc : BitVec 8
  range : BusRange

/-- What is in memory from `Configuration` on. -/
abbrev BusDescriptors : Type := ℕ → BusDescriptor

namespace BusDescriptors

variable (mem : BusDescriptors)

/-- The ranges of the first `length` descriptors, as far as there is no end tag. -/
def busNumberRanges (length : ℕ) : List BusRange :=
  ((List.range length).takeWhile fun i ↦ (mem i).desc ≠ acpiEndTagDescriptor).map
    fun i ↦ (mem i).range

/-- Exchange `AddrRangeMin` and `AddrLen` of two descriptors. -/
def exchange (configuration1 configuration2 : ℕ) : BusDescriptors :=
  Function.update
    (Function.update mem configuration1
      { mem configuration1 with range := (mem configuration2).range })
    configuration2 { mem configuration2 with range := (mem configuration1).range }

/-- A round of the sort. `minIndex` is the loop of `Configuration3`. -/
def sortStep (length : ℕ) (configuration1 : ℕ) : BusDescriptors :=
  let configuration2 :=
    minIndex BusRange.addrRangeMin (fun i ↦ (mem i).range) configuration1 (length - 1)
  if configuration2 ≠ configuration1 then mem.exchange configuration1 configuration2 else mem

/-- The sort. -/
def sort (length : ℕ) : BusDescriptors :=
  (List.range length).foldl (fun mem configuration1 ↦ mem.sortStep length configuration1) mem

end BusDescriptors

/-- The descriptors that `StartBusEnumeration` returns: `length` of them, and the end tag. -/
structure BusDescriptorList where
  mem : BusDescriptors
  length : ℕ
  end_tag : (mem length).desc = acpiEndTagDescriptor
  before : ∀ i < length, (mem i).desc ≠ acpiEndTagDescriptor

/-- The ranges of the list. -/
def BusDescriptorList.ranges (l : BusDescriptorList) : List BusRange :=
  l.mem.busNumberRanges l.length

/-! ### The enumerator -/

/-- What the enumerator comes to. -/
structure Enumeration where
  status : EfiStatus
  /-- The descriptors when `SetBusNumbers` is called, if it is. -/
  passed : Option BusDescriptors
  /-- The descriptors in the end. -/
  mem : BusDescriptors

/-- The range that contains the highest bus number. -/
def highestRange (ranges : List BusRange) (subBusNumber : ℕ) : ℕ :=
  ranges.findIdx fun r ↦ !decide (r.max < subBusNumber)

/-- The descriptors up to the highest bus number, with an end tag behind them. -/
def BusDescriptors.cut (mem : BusDescriptors) (configuration subBusNumber : ℕ) : BusDescriptors :=
  let r := (mem configuration).range
  let mem := Function.update mem configuration
    { mem configuration with
      range := { r with addrLen := wrapSub 64 (subBusNumber + 1) r.addrRangeMin } }
  Function.update mem (configuration + 1)
    { mem (configuration + 1) with desc := acpiEndTagDescriptor }

/-- The changed fields, restored. -/
def BusDescriptors.restore (mem : BusDescriptors) (configuration : ℕ) (desc : BitVec 8)
    (addrLen : ℕ) : BusDescriptors :=
  let mem := Function.update mem (configuration + 1) { mem (configuration + 1) with desc := desc }
  Function.update mem configuration
    { mem configuration with range := { (mem configuration).range with addrLen := addrLen } }

/-- `PciRootBridgeEnumerator`, from the sort on. -/
def enumerateBuses (cfg : ScanConfig) (bus : PciBus) (setBusNumbers : BusDescriptors → EfiStatus)
    (l : BusDescriptorList) : Enumeration :=
  let mem := l.mem.sort l.length
  let ranges := mem.busNumberRanges l.length
  let startBusNumber := (mem 0).range.addrRangeMin % 2 ^ 8
  match pciScanBus { cfg with busNumberRanges := ranges } bus startBusNumber startBusNumber 0 with
  | .error status => ⟨status, none, mem⟩
  | .ok st =>
    match pciAllocateBusNumber ranges st.subBusNumber st.paddedBusRange with
    | .error status => ⟨status, none, mem⟩
    | .ok subBusNumber =>
      let configuration := highestRange ranges subBusNumber
      let addrLen := (mem configuration).range.addrLen
      let desc := (mem (configuration + 1)).desc
      let passed := mem.cut configuration subBusNumber
      ⟨setBusNumbers passed, some passed, passed.restore configuration desc addrLen⟩

/-- `PciRootBridgeEnumerator`. -/
def pciRootBridgeEnumerator (cfg : ScanConfig) (bus : PciBus)
    (setBusNumbers : BusDescriptors → EfiStatus) :
    Except EfiStatus (Option BusDescriptorList) → EfiStatus × Option Enumeration
  | .error status => (status, none)
  | .ok none => (.invalidParameter, none)
  | .ok (some l) =>
    if (l.mem 0).desc = acpiEndTagDescriptor then (.invalidParameter, none)
    else
      let e := enumerateBuses cfg bus setBusNumbers l
      (e.status, some e)

/-! ### The sort -/

namespace BusDescriptors

variable {mem : BusDescriptors}

/-- The ranges under other numbers, the other fields where they are. -/
def permute (mem : BusDescriptors) (π : Equiv.Perm ℕ) : BusDescriptors :=
  fun i ↦ ⟨(mem i).desc, (mem (π i)).range⟩

theorem permute_refl : mem.permute (Equiv.refl ℕ) = mem := rfl

theorem permute_permute (π ρ : Equiv.Perm ℕ) :
    (mem.permute π).permute ρ = mem.permute (ρ.trans π) := rfl

theorem exchange_eq (i j : ℕ) : mem.exchange i j = mem.permute (Equiv.swap i j) := by
  funext k
  rw [exchange, permute]
  rcases eq_or_ne k j with rfl | hkj
  · rw [Function.update_self, Equiv.swap_apply_right]
  · rw [Function.update_of_ne hkj]
    rcases eq_or_ne k i with rfl | hki
    · rw [Function.update_self, Equiv.swap_apply_left]
    · rw [Function.update_of_ne hki, Equiv.swap_apply_of_ne_of_ne hki hkj]

theorem sortStep_eq (length i : ℕ) :
    mem.sortStep length i = mem.permute (Equiv.swap i
      (minIndex BusRange.addrRangeMin (fun i ↦ (mem i).range) i (length - 1))) := by
  rw [sortStep]
  split
  · exact exchange_eq _ _
  · rename_i hsame
    rw [not_ne_iff.1 hsame, Equiv.swap_self, permute_refl]

theorem foldl_sortStep (length k : ℕ) :
    (List.range k).foldl (fun mem i ↦ mem.sortStep length i) mem =
      mem.permute (selectionPerm BusRange.addrRangeMin (fun i ↦ (mem i).range) (length - 1) k) := by
  induction k with
  | zero => exact permute_refl.symm
  | succ k ih =>
    rw [List.range_succ, List.foldl_append, ih, List.foldl_cons, List.foldl_nil, sortStep_eq,
      permute_permute, selectionPerm]
    rfl

end BusDescriptors

/-- The list in ascending order: its ranges are exchanged among each other, and nothing else is
changed. -/
structure SortedPermutation (l : BusDescriptorList) (mem : BusDescriptors) : Prop where
  permutation : ∃ π : Equiv.Perm ℕ, mem = l.mem.permute π ∧ (∀ i, π i < l.length ↔ i < l.length) ∧
    ∀ i, l.length ≤ i → π i = i
  sorted : ∀ i j, i ≤ j → j < l.length →
    (mem i).range.addrRangeMin ≤ (mem j).range.addrRangeMin

/-- **The sort.** -/
theorem sortedPermutation_sort (l : BusDescriptorList) :
    SortedPermutation l (l.mem.sort l.length) := by
  cases hlength : l.length with
  | zero =>
    refine ⟨⟨Equiv.refl ℕ, rfl, fun _ ↦ Iff.rfl, fun _ _ ↦ rfl⟩, fun i j _ hj ↦ ?_⟩
    omega
  | succ n =>
    let key : ℕ → BusRange := fun i ↦ (l.mem i).range
    let π : ℕ → Equiv.Perm ℕ := selectionPerm BusRange.addrRangeMin key n
    have hle : ∀ i, π n i ≤ n ↔ i ≤ n := fun i ↦ selectionPerm_le_iff (Nat.le_refl n)
    have hfix : ∀ i, n < i → π n i = i := fun i ↦ selectionPerm_apply_of_lt (Nat.le_refl n)
    have hmono : ∀ i j, i ≤ j → j ≤ n → (key (π n i)).addrRangeMin ≤ (key (π n j)).addrRangeMin :=
      fun i j hij hj ↦ selectionPerm_monotone hij hj
    have hsort : l.mem.sort (n + 1) = l.mem.permute (π n) := by
      -- the last round has nothing to exchange
      have hmin : n ≤ minIndex BusRange.addrRangeMin (key ∘ π n) n n ∧ _ :=
        minIndex_mem (key ∘ π n) (Nat.le_refl n)
      have hlast : π (n + 1) = π n := by
        change (Equiv.swap n (minIndex BusRange.addrRangeMin (key ∘ π n) n n)).trans (π n) = π n
        rw [Nat.le_antisymm hmin.2 hmin.1, Equiv.swap_self, Equiv.refl_trans]
      rw [← hlast]
      exact BusDescriptors.foldl_sortStep (n + 1) (n + 1)
    rw [hsort]
    refine ⟨⟨π n, rfl, fun i ↦ ?_, fun i hi ↦ hfix i (by omega)⟩, fun i j hij hj ↦
      hmono i j hij (by omega)⟩
    rw [hlength, Nat.lt_succ_iff, Nat.lt_succ_iff]
    exact hle i

namespace BusDescriptors

variable {mem : BusDescriptors}

/-! ### The cut -/

theorem takeWhile_range {p : ℕ → Bool} {n m : ℕ} (hm : m ≤ n) (h : ∀ i < m, p i = true)
    (hend : m < n → p m = false) : (List.range n).takeWhile p = List.range m := by
  obtain ⟨d, rfl⟩ := Nat.exists_eq_add_of_le hm
  rw [List.range_add, List.takeWhile_append_of_pos fun i hi ↦ h i (List.mem_range.1 hi)]
  cases d with
  | zero => exact List.append_nil _
  | succ d =>
    rw [List.range_succ_eq_map, List.map_cons, Nat.add_zero,
      List.takeWhile_cons_of_neg (by rw [hend (by omega)]; decide), List.append_nil]

/-- Where no descriptor has the end tag, these are all ranges. -/
theorem busNumberRanges_eq {length : ℕ}
    (hbefore : ∀ i < length, (mem i).desc ≠ acpiEndTagDescriptor) :
    mem.busNumberRanges length = (List.range length).map fun i ↦ (mem i).range := by
  rw [busNumberRanges, takeWhile_range (Nat.le_refl length)
    (fun i hi ↦ decide_eq_true (hbefore i hi)) fun h ↦ absurd h (Nat.lt_irrefl _)]

/-- The range that is cut: up to the highest bus number. -/
def cutRange (r : BusRange) (subBusNumber : ℕ) : BusRange :=
  { r with addrLen := wrapSub 64 (subBusNumber + 1) r.addrRangeMin }

/-- The list that is passed ends with the range that is cut. -/
theorem busNumberRanges_cut {length k subBusNumber : ℕ} (hk : k < length)
    (hbefore : ∀ i < length, (mem i).desc ≠ acpiEndTagDescriptor) :
    (mem.cut k subBusNumber).busNumberRanges length =
      (List.range k).map (fun i ↦ (mem i).range) ++ [cutRange (mem k).range subBusNumber] := by
  have hother : ∀ i < k, mem.cut k subBusNumber i = mem i := by
    intro i hi
    rw [cut, Function.update_of_ne (by omega), Function.update_of_ne (by omega)]
  have hself : mem.cut k subBusNumber k =
      { mem k with range := cutRange (mem k).range subBusNumber } := by
    rw [cut, Function.update_of_ne (by omega), Function.update_self]
    rfl
  have hlist : (List.range length).takeWhile
      (fun i ↦ (mem.cut k subBusNumber i).desc ≠ acpiEndTagDescriptor) = List.range (k + 1) := by
    refine takeWhile_range hk (fun i hi ↦ decide_eq_true ?_) fun _ ↦ decide_eq_false ?_
    · rcases Nat.lt_or_eq_of_le (Nat.le_of_lt_succ hi) with hlt | rfl
      · rw [hother i hlt]
        exact hbefore i (by omega)
      · rw [hself]
        exact hbefore i hk
    · rw [cut, Function.update_self]
      exact not_not_intro rfl
  rw [busNumberRanges, hlist, List.range_succ, List.map_append, List.map_singleton, hself]
  congr 1
  exact List.map_congr_left fun i hi ↦ congrArg BusDescriptor.range (hother i (List.mem_range.1 hi))

/-- What the cut changes is restored. -/
theorem restore_cut (k subBusNumber : ℕ) :
    (mem.cut k subBusNumber).restore k (mem (k + 1)).desc (mem k).range.addrLen = mem := by
  funext i
  rw [restore, cut]
  rcases eq_or_ne i k with rfl | hik
  · simp
  · rcases eq_or_ne i (k + 1) with rfl | hik'
    · simp
    · simp [hik, hik']

end BusDescriptors

section Cut

variable {r : BusRange} {subBusNumber b : ℕ}

/-- What the shortened range contains. -/
theorem cutRange_contains (hmin : r.addrRangeMin < 2 ^ 8) (hsub : subBusNumber < 2 ^ 8) :
    (BusDescriptors.cutRange r subBusNumber).Contains b ↔
      r.addrRangeMin ≤ b ∧ b ≤ subBusNumber := by
  have hmax : (BusDescriptors.cutRange r subBusNumber).max = subBusNumber := by
    rw [BusRange.max, BusDescriptors.cutRange, wrapSub, wrapSub]
    dsimp only
    omega
  rw [BusRange.Contains, hmax]
  rfl

/-- **The cut.** In a sorted list with a range that reaches the highest bus number, the ranges up to
the first such range, which is cut, contain the bus numbers up to that number. -/
theorem inRanges_cut {mem : BusDescriptors} {length k : ℕ}
    (hmin : ∀ i < length, (mem i).range.addrRangeMin < 2 ^ 8) (hsub : subBusNumber < 2 ^ 8)
    (hsorted : ∀ i j, i ≤ j → j < length →
      (mem i).range.addrRangeMin ≤ (mem j).range.addrRangeMin)
    (hk : k < length) (hreach : subBusNumber ≤ (mem k).range.max)
    (hfirst : ∀ i < k, (mem i).range.max < subBusNumber) :
    InRanges ((List.range k).map (fun i ↦ (mem i).range) ++
        [BusDescriptors.cutRange (mem k).range subBusNumber]) b ↔
      InRanges ((List.range length).map fun i ↦ (mem i).range) b ∧ b ≤ subBusNumber := by
  constructor
  · rintro ⟨r, hr, hcontains⟩
    rcases List.mem_append.1 hr with hr | hr
    · obtain ⟨i, hi, rfl⟩ := List.mem_map.1 hr
      have hik := List.mem_range.1 hi
      have hlt := hfirst i hik
      exact ⟨⟨_, List.mem_map.2 ⟨i, List.mem_range.2 (by omega), rfl⟩, hcontains⟩,
        hcontains.2.trans hlt.le⟩
    · rw [List.mem_singleton.1 hr, cutRange_contains (hmin k hk) hsub] at hcontains
      exact ⟨⟨_, List.mem_map.2 ⟨k, List.mem_range.2 hk, rfl⟩,
        hcontains.1, hcontains.2.trans hreach⟩, hcontains.2⟩
  · rintro ⟨⟨r, hr, hcontains⟩, hb⟩
    obtain ⟨i, hi, rfl⟩ := List.mem_map.1 hr
    rcases Nat.lt_or_ge i k with hik | hik
    · exact ⟨_, List.mem_append_left _ (List.mem_map.2 ⟨i, List.mem_range.2 hik, rfl⟩), hcontains⟩
    · -- the ranges behind the cut start no earlier
      refine ⟨_, List.mem_append_right _ List.mem_cons_self, ?_⟩
      rw [cutRange_contains (hmin k hk) hsub]
      exact ⟨(hsorted k i hik (List.mem_range.1 hi)).trans hcontains.1, hb⟩

/-- A reservation ends at or below the end of some range. -/
theorem le_max_of_skipGaps {rest : List BusRange} {max next t : ℕ} (hnext : next < 2 ^ 8)
    (h : skipGaps max next rest = .ok t) : t < 2 ^ 8 ∧ (t ≤ max ∨ ∃ r ∈ rest, t ≤ r.max) := by
  induction rest generalizing max next with
  | nil =>
    rw [skipGaps] at h
    split at h
    · cases h
      exact ⟨hnext, Or.inl ‹_›⟩
    · cases h
  | cons r rest ih =>
    rw [skipGaps] at h
    split at h
    · cases h
      exact ⟨hnext, Or.inl ‹_›⟩
    · obtain ⟨hlt, hle | ⟨r', hr', hle⟩⟩ := ih (Nat.mod_lt _ (by decide)) h
      · exact ⟨hlt, Or.inr ⟨r, List.mem_cons_self, hle⟩⟩
      · exact ⟨hlt, Or.inr ⟨r', List.mem_cons_of_mem _ hr', hle⟩⟩

theorem le_max_of_pciAllocateBusNumber {ranges : List BusRange} {start count t : ℕ}
    (h : pciAllocateBusNumber ranges start count = .ok t) :
    t < 2 ^ 8 ∧ ∃ r ∈ ranges, t ≤ r.max := by
  rw [pciAllocateBusNumber] at h
  split at h
  · cases h
  · rename_i r rest hfrom
    have hmem : ∀ r' ∈ r :: rest, r' ∈ ranges := fun r' hr' ↦
      (List.dropWhile_sublist _).subset (hfrom ▸ hr')
    obtain ⟨hlt, hle | ⟨r', hr', hle⟩⟩ := le_max_of_skipGaps (Nat.mod_lt _ (by decide)) h
    · exact ⟨hlt, r, hmem r List.mem_cons_self, hle⟩
    · exact ⟨hlt, r', hmem r' (List.mem_cons_of_mem _ hr'), hle⟩

/-- Where nothing is reserved, the number stays. -/
theorem eq_of_pciAllocateBusNumber_zero {ranges : List BusRange} (hwf : ∀ r ∈ ranges, r.Wf)
    {start t : ℕ} (h : pciAllocateBusNumber ranges start 0 = .ok t) : t = start := by
  rw [pciAllocateBusNumber] at h
  split at h
  · cases h
  · rename_i r rest hfrom
    obtain ⟨⟨-, hle⟩, -⟩ := contains_of_rangesFrom hfrom
    have hr := hwf r ((List.dropWhile_sublist _).subset (hfrom ▸ List.mem_cons_self))
    have hmax := hr.max_eq
    have hlast := hr.le
    rw [Nat.add_zero, Nat.mod_eq_of_lt (by omega), skipGaps_of_le hle] at h
    exact (Except.ok.inj h).symm

/-- The loop that looks for the highest range ends at the first one that reaches the number. -/
theorem highestRange_spec {ranges : List BusRange} (h : ∃ r ∈ ranges, subBusNumber ≤ r.max) :
    ∃ hlt : highestRange ranges subBusNumber < ranges.length,
      subBusNumber ≤ (ranges.get ⟨highestRange ranges subBusNumber, hlt⟩).max ∧
        ∀ i (hi : i < highestRange ranges subBusNumber),
          (ranges.get ⟨i, hi.trans hlt⟩).max < subBusNumber := by
  have hlt : highestRange ranges subBusNumber < ranges.length := by
    obtain ⟨r, hr, hle⟩ := h
    refine List.findIdx_lt_length_of_exists ⟨r, hr, ?_⟩
    rw [decide_eq_false (not_lt.2 hle)]
    rfl
  refine ⟨hlt, ?_, fun i hi ↦ ?_⟩
  · have hfound := List.findIdx_getElem (w := hlt)
    rw [Bool.not_eq_true'] at hfound
    exact not_lt.1 (of_decide_eq_false hfound)
  · have hbefore := List.not_of_lt_findIdx hi
    simpa using hbefore

end Cut

/-! ### What is handed out -/

/-- What the enumerator owes the root bridge and the list. -/
structure HandsOutScanned (cfg : ScanConfig) (bus : PciBus) (l : BusDescriptorList)
    (e : Enumeration) : Prop where
  /-- In the end the list is sorted, and nothing else of it is changed. -/
  restored : SortedPermutation l e.mem
  /-- What is passed to `SetBusNumbers` are the bus numbers of the list up to the last one reserved:
  the `SubBusNumber` of the scan, or, with padding, the bus number that many above it. -/
  handsOut : ∀ passed ∈ e.passed, ∃ st last,
    pciScanBus { cfg with busNumberRanges := e.mem.busNumberRanges l.length } bus
      ((e.mem 0).range.addrRangeMin % 2 ^ 8) ((e.mem 0).range.addrRangeMin % 2 ^ 8) 0 = .ok st ∧
    pciAllocateBusNumber (e.mem.busNumberRanges l.length) st.subBusNumber st.paddedBusRange =
      .ok last ∧
    (st.paddedBusRange = 0 → last = st.subBusNumber) ∧
    (∀ b, InRanges (passed.busNumberRanges l.length) b ↔ InRanges l.ranges b ∧ b ≤ last) ∧
    (SortedRanges (e.mem.busNumberRanges l.length) →
      st.subBusNumber + st.paddedBusRange ≤ 0xFF →
      GapsFit (e.mem.busNumberRanges l.length) st.subBusNumber st.paddedBusRange →
      ∀ r ∈ passed.busNumberRanges l.length, r.Wf)

section HandsOut

variable {l : BusDescriptorList} {mem : BusDescriptors}

theorem SortedPermutation.desc (h : SortedPermutation l mem) (i : ℕ) :
    (mem i).desc = (l.mem i).desc := by
  obtain ⟨π, rfl, -⟩ := h.permutation
  rfl

theorem SortedPermutation.before (h : SortedPermutation l mem) :
    ∀ i < l.length, (mem i).desc ≠ acpiEndTagDescriptor := by
  intro i hi
  rw [h.desc]
  exact l.before i hi

/-- The sorted list has the ranges of the list. -/
theorem SortedPermutation.mem_busNumberRanges (h : SortedPermutation l mem) {r : BusRange} :
    r ∈ mem.busNumberRanges l.length ↔ r ∈ l.ranges := by
  rw [BusDescriptors.busNumberRanges_eq h.before, BusDescriptorList.ranges,
    BusDescriptors.busNumberRanges_eq l.before, List.mem_map, List.mem_map]
  obtain ⟨π, rfl, hlt, -⟩ := h.permutation
  constructor
  · rintro ⟨i, hi, rfl⟩
    exact ⟨π i, List.mem_range.2 ((hlt i).2 (List.mem_range.1 hi)), rfl⟩
  · rintro ⟨i, hi, rfl⟩
    refine ⟨π.symm i, List.mem_range.2 ((hlt _).1 ?_), ?_⟩
    · rw [Equiv.apply_symm_apply]
      exact List.mem_range.1 hi
    · rw [BusDescriptors.permute, Equiv.apply_symm_apply]

/-- The range that is cut, in memory. -/
theorem highestRange_mem (hbefore : ∀ i < l.length, (mem i).desc ≠ acpiEndTagDescriptor)
    {subBusNumber : ℕ} (h : ∃ r ∈ mem.busNumberRanges l.length, subBusNumber ≤ r.max) :
    ∃ k, highestRange (mem.busNumberRanges l.length) subBusNumber = k ∧ k < l.length ∧
      subBusNumber ≤ (mem k).range.max ∧ ∀ i < k, (mem i).range.max < subBusNumber := by
  obtain ⟨hlt, hreach, hfirst⟩ := highestRange_spec h
  have hlength : (mem.busNumberRanges l.length).length = l.length := by
    rw [BusDescriptors.busNumberRanges_eq hbefore, List.length_map, List.length_range]
  have hget : ∀ i (hi : i < (mem.busNumberRanges l.length).length),
      (mem.busNumberRanges l.length).get ⟨i, hi⟩ = (mem i).range := by
    intro i hi
    simp [BusDescriptors.busNumberRanges_eq hbefore]
  refine ⟨_, rfl, hlt.trans_eq hlength, ?_, fun i hi ↦ ?_⟩
  · rw [← hget _ hlt]
    exact hreach
  · rw [← hget i (hi.trans hlt)]
    exact hfirst i hi

/-- A highest bus number that lies in the ranges lies in the one that is cut. -/
theorem addrRangeMin_le_of_inRanges {k last : ℕ}
    (hsorted : ∀ i j, i ≤ j → j < l.length →
      (mem i).range.addrRangeMin ≤ (mem j).range.addrRangeMin)
    (hbefore : ∀ i < l.length, (mem i).desc ≠ acpiEndTagDescriptor)
    (hfirst : ∀ i < k, (mem i).range.max < last)
    (hin : InRanges (mem.busNumberRanges l.length) last) : (mem k).range.addrRangeMin ≤ last := by
  rw [BusDescriptors.busNumberRanges_eq hbefore] at hin
  obtain ⟨r, hr, hlow, hhigh⟩ := hin
  obtain ⟨i, hi, rfl⟩ := List.mem_map.1 hr
  have hki : k ≤ i := not_lt.1 fun hik ↦ absurd hhigh (not_le.2 (hfirst i hik))
  exact (hsorted k i hki (List.mem_range.1 hi)).trans hlow

/-- **`PciRootBridgeEnumerator` hands out what was scanned** and puts everything it changes back. -/
theorem pciRootBridgeEnumerator_spec (cfg : ScanConfig) (bus : PciBus)
    (setBusNumbers : BusDescriptors → EfiStatus) (hwf : ∀ r ∈ l.ranges, r.Wf) :
    ∀ e ∈ (pciRootBridgeEnumerator cfg bus setBusNumbers (.ok (some l))).2,
      HandsOutScanned cfg bus l e := by
  intro e he
  rw [pciRootBridgeEnumerator] at he
  split at he
  · cases he
  obtain rfl := Option.some.inj he
  have hsort := sortedPermutation_sort l
  have hranges : ∀ r ∈ (l.mem.sort l.length).busNumberRanges l.length, r.Wf := fun r hr ↦
    hwf r (hsort.mem_busNumberRanges.1 hr)
  unfold enumerateBuses
  generalize l.mem.sort l.length = mem at hsort hranges
  dsimp only
  split
  · exact ⟨hsort, fun passed hpassed ↦ nomatch hpassed⟩
  split
  · exact ⟨hsort, fun passed hpassed ↦ nomatch hpassed⟩
  rename_i _ st hscan _ last hlast
  obtain ⟨hbyte, hreach⟩ := le_max_of_pciAllocateBusNumber hlast
  obtain ⟨k, hk, hlt, hle, hfirst⟩ := highestRange_mem hsort.before hreach
  rw [hk, BusDescriptors.restore_cut]
  refine ⟨hsort, fun passed hpassed ↦ ?_⟩
  obtain rfl := Option.some.inj hpassed
  have hmin : ∀ i < l.length, (mem i).range.addrRangeMin < 2 ^ 8 := by
    intro i hi
    have hr := (hranges (mem i).range (by
      rw [BusDescriptors.busNumberRanges_eq hsort.before]
      exact List.mem_map.2 ⟨i, List.mem_range.2 hi, rfl⟩))
    have hpos := hr.pos
    have hend := hr.le
    omega
  refine ⟨st, last, hscan, hlast, fun hzero ↦ ?_, fun b ↦ ?_, fun hsorted hsum hfit r hr ↦ ?_⟩
  · rw [hzero] at hlast
    exact eq_of_pciAllocateBusNumber_zero hranges hlast
  · rw [BusDescriptors.busNumberRanges_cut hlt hsort.before,
      inRanges_cut hmin hbyte hsort.sorted hlt hle hfirst,
      ← BusDescriptors.busNumberRanges_eq hsort.before]
    exact and_congr_left fun _ ↦ ⟨fun ⟨r, hr, hb⟩ ↦ ⟨r, hsort.mem_busNumberRanges.1 hr, hb⟩,
      fun ⟨r, hr, hb⟩ ↦ ⟨r, hsort.mem_busNumberRanges.2 hr, hb⟩⟩
  · have hin := (busCount_of_pciAllocateBusNumber hsorted hsum hfit hlast).2
    have hlow := addrRangeMin_le_of_inRanges hsort.sorted hsort.before hfirst hin
    rw [BusDescriptors.busNumberRanges_cut hlt hsort.before] at hr
    rcases List.mem_append.1 hr with hr | hr
    · obtain ⟨i, hi, rfl⟩ := List.mem_map.1 hr
      refine hranges _ ?_
      rw [BusDescriptors.busNumberRanges_eq hsort.before]
      exact List.mem_map.2 ⟨i, List.mem_range.2 ((List.mem_range.1 hi).trans hlt), rfl⟩
    · rw [List.mem_singleton.1 hr, BusDescriptors.cutRange,
        wrapSub_of_le (hlow.trans (Nat.le_succ _)) (by omega)]
      exact ⟨Nat.sub_pos_of_lt (Nat.lt_succ_of_le hlow), by dsimp only; omega⟩

end HandsOut

/-- Two ranges, the second one first, behind them the end tag. -/
def swappedRanges : BusDescriptorList where
  mem i := if i = 0 then ⟨0x8A, ⟨0x40, 0x40⟩⟩ else if i = 1 then ⟨0x8A, ⟨0, 0x20⟩⟩ else ⟨0x79, ⟨0, 0⟩⟩
  length := 2
  end_tag := rfl
  before := by decide

/-- A bridge to a hot-plug bus, for which eight bus numbers are reserved in the root bridge. -/
def paddedBus : PciBus := fun device func ↦
  if device.val = 0 ∧ func.val = 0 then
    .pciBridge false (some (.ok ⟨8, true, true, true⟩)) fun _ _ ↦ .absent
  else .absent

/-- Hot plug is supported. -/
def hotPlugSupported : ScanConfig where
  busNumberRanges := []
  pcdPciBusHotplugDeviceSupport := true
  pcdSrIovSupport := false
  gPciHotPlugInit := true

theorem handsOutScanned_swappedRanges :
    HandsOutScanned hotPlugSupported paddedBus swappedRanges
      (enumerateBuses hotPlugSupported paddedBus (fun _ ↦ .success) swappedRanges) := by
  refine pciRootBridgeEnumerator_spec _ _ (fun _ ↦ .success) (by decide) _ ?_
  rw [pciRootBridgeEnumerator, if_neg (by decide)]
  rfl

/-- The scan ends at bus 1, and the bus numbers up to 9 are handed out. -/
theorem handsOut_padding :
    ¬ ∀ cfg bus setBusNumbers (l : BusDescriptorList), (∀ r ∈ l.ranges, r.Wf) →
      ∀ e ∈ (pciRootBridgeEnumerator cfg bus setBusNumbers (.ok (some l))).2, ∀ passed ∈ e.passed,
        ∀ st, pciScanBus { cfg with busNumberRanges := e.mem.busNumberRanges l.length } bus
            ((e.mem 0).range.addrRangeMin % 2 ^ 8) ((e.mem 0).range.addrRangeMin % 2 ^ 8) 0 = .ok st →
          ∀ b, InRanges (passed.busNumberRanges l.length) b ↔
            InRanges l.ranges b ∧ b ≤ st.subBusNumber := by
  intro hall
  have hranges : (swappedRanges.mem.sort 2).busNumberRanges 2 = [⟨0, 0x20⟩, ⟨0x40, 0x40⟩] := by
    decide
  have hstart : (swappedRanges.mem.sort 2 0).range.addrRangeMin % 2 ^ 8 = 0 := by decide
  have hscan : pciScanBus { hotPlugSupported with busNumberRanges := [⟨0, 0x20⟩, ⟨0x40, 0x40⟩] }
      paddedBus 0 0 0 = .ok
        { subBusNumber := 1
          paddedBusRange := 8
          bridges := .cons ⟨0, 1, 1⟩ .nil .nil
          reservations := [⟨0, 1⟩] } := by
    rfl
  have hreserve : pciAllocateBusNumber [⟨0, 0x20⟩, ⟨0x40, 0x40⟩] 1 8 = .ok 9 := by decide
  have hrun : enumerateBuses hotPlugSupported paddedBus (fun _ ↦ .success) swappedRanges =
      ⟨.success, some ((swappedRanges.mem.sort 2).cut 0 9), swappedRanges.mem.sort 2⟩ := by
    unfold enumerateBuses
    dsimp only
    rw [show swappedRanges.length = 2 from rfl, hranges, hstart, hscan]
    dsimp only
    rw [hreserve]
    dsimp only
    rw [show highestRange [⟨0, 0x20⟩, ⟨0x40, 0x40⟩] 9 = 0 by decide, BusDescriptors.restore_cut]
  have hiff := hall hotPlugSupported paddedBus (fun _ ↦ .success) swappedRanges (by decide) _
    (congrArg some hrun) _ rfl _ (by
      rw [show swappedRanges.length = 2 from rfl, hranges, hstart]
      exact hscan) 9
  exact absurd (hiff.1 (by decide)).2 (by decide)

end PurleyFirmware.Pci
