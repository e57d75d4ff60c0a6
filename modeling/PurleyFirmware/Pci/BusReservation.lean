import PurleyFirmware.Pci.BusNumberRanges
import Mathlib.Data.List.TakeWhile
import Mathlib.Order.Interval.Finset.Nat

/-!
# When `PciAllocateBusNumber` allocates

A reservation of `n` bus numbers is to succeed if the ranges have `n` of them above the start, and is
to lead to the `n`-th (`AllocatesNth`). The casts to `UINT8` are harmless as long as the bus numbers
that are missing, if any, fit between the last range and 0xFF; then the walk comes to the end of the
list (`busCount_lt_of_skipGaps_error`). Beyond that one of the sums wraps, to a number below the range
at hand, and the walk takes it for a bus number (`skipGaps_of_lt`).
-/

namespace PurleyFirmware.Pci

variable {ranges : List BusRange}

/-- The bus numbers of the ranges above `startBusNumber`, up to `last`. -/
def busNumbersAbove (ranges : List BusRange) (startBusNumber last : ℕ) : Finset ℕ :=
  (Finset.Ioc startBusNumber last).filter (InRanges ranges)

/-- The reservation succeeds if and only if there are as many bus numbers above the start, and it
leads to the one with as many at or below it. -/
structure AllocatesNth (ranges : List BusRange) (startBusNumber numberOfBuses : ℕ) : Prop where
  success : (∃ next, pciAllocateBusNumber ranges startBusNumber numberOfBuses = .ok next) ↔
    numberOfBuses ≤ (busNumbersAbove ranges startBusNumber 0xFF).card
  nth : ∀ next, pciAllocateBusNumber ranges startBusNumber numberOfBuses = .ok next →
    next ∈ busNumbersAbove ranges startBusNumber 0xFF ∧
      (busNumbersAbove ranges startBusNumber next).card = numberOfBuses

/-- The last bus number of a sorted list of ranges. -/
def lastBusNumber (ranges : List BusRange) : ℕ := (ranges.getLast?.map BusRange.max).getD 0

/-- `busCount` counts them. -/
theorem busCount_eq_add_card {a b : ℕ} (h : a ≤ b) :
    busCount ranges b = busCount ranges a + (busNumbersAbove ranges a b).card := by
  have hsplit : (Finset.range (b + 1)).filter (InRanges ranges) =
      (Finset.range (a + 1)).filter (InRanges ranges) ∪ busNumbersAbove ranges a b := by
    ext x
    simp only [busNumbersAbove, Finset.mem_union, Finset.mem_filter, Finset.mem_range,
      Finset.mem_Ioc]
    constructor
    · rintro ⟨hx, hin⟩
      rcases Nat.lt_or_ge a x with ha | ha
      · exact .inr ⟨⟨ha, by omega⟩, hin⟩
      · exact .inl ⟨by omega, hin⟩
    · rintro (⟨hx, hin⟩ | ⟨⟨-, hx⟩, hin⟩)
      · exact ⟨by omega, hin⟩
      · exact ⟨by omega, hin⟩
  have hdisjoint : Disjoint ((Finset.range (a + 1)).filter (InRanges ranges))
      (busNumbersAbove ranges a b) := by
    refine Finset.disjoint_left.2 fun x hx hx' ↦ ?_
    have hle := Finset.mem_range.1 (Finset.mem_filter.1 hx).1
    have hlt := (Finset.mem_Ioc.1 (Finset.mem_filter.1 hx').1).1
    omega
  rw [busCount, busCount, Nat.count_eq_card_filter_range, hsplit,
    Finset.card_union_of_disjoint hdisjoint, Nat.count_eq_card_filter_range]

theorem card_busNumbersAbove_le (a b : ℕ) : (busNumbersAbove ranges a b).card ≤ b - a := by
  refine (Finset.card_filter_le _ _).trans (Nat.le_of_eq ?_)
  rw [Nat.card_Ioc]

theorem InRanges.le {b : ℕ} (hin : InRanges ranges b) (h : SortedRanges ranges) : b ≤ 0xFF := by
  obtain ⟨r, hr, -, hmax⟩ := hin
  have hwf := h.wf r hr
  have hle := hwf.le
  have hpos := hwf.pos
  rw [hwf.max_eq] at hmax
  omega

/-! ### The last range -/

/-- The last of the ranges `rest`, or `max` when there are none. -/
theorem getD_lastMax_cons (r : BusRange) (rest : List BusRange) (max : ℕ) :
    ((r :: rest).getLast?.map BusRange.max).getD max =
      (rest.getLast?.map BusRange.max).getD r.max := by
  cases rest with
  | nil => rw [List.getLast?_singleton, List.getLast?_nil, Option.map_some, Option.map_none,
      Option.getD_some, Option.getD_none]
  | cons r' rest =>
    rw [List.getLast?_cons_cons, List.getLast?_eq_some_getLast (List.cons_ne_nil r' rest),
      Option.map_some, Option.getD_some, Option.getD_some]

theorem lastBusNumber_of_append {before rest : List BusRange} {r : BusRange}
    (h : ranges = before ++ r :: rest) :
    lastBusNumber ranges = (rest.getLast?.map BusRange.max).getD r.max := by
  rw [lastBusNumber, h, List.getLast?_append_of_ne_nil _ (List.cons_ne_nil r rest),
    getD_lastMax_cons]

/-- No bus number is above the last one. -/
theorem lastMax_lt (h : SortedRanges ranges) {max : ℕ} (hmax : max < 2 ^ 8) :
    (ranges.getLast?.map BusRange.max).getD max < 2 ^ 8 := by
  cases hlast : ranges.getLast? with
  | none => rwa [Option.map_none, Option.getD_none]
  | some r =>
    have hwf := h.wf r (List.mem_of_getLast? hlast)
    have hle := hwf.le
    have hpos := hwf.pos
    rw [Option.map_some, Option.getD_some, hwf.max_eq]
    omega

namespace Skipping

variable {wanted max next : ℕ} {rest : List BusRange}

/-- Behind the last range there are no bus numbers. -/
theorem busCount_of_nil (h : Skipping ranges wanted max next []) :
    busCount ranges 0xFF = busCount ranges max := by
  have hmax := h.max_lt
  refine busCount_of_not_inRanges (by omega) fun x hx _ hin ↦ ?_
  obtain ⟨r, hr, -⟩ := (h.above x hx).1 hin
  cases hr

/-- No sum wraps if and only if what is missing fits behind the last range. -/
theorem fits_iff (h : Skipping ranges wanted max next rest) :
    (next ≤ 0xFF ∧ gapsFit max next rest) ↔
      (rest.getLast?.map BusRange.max).getD max + wanted ≤ 0xFF + busCount ranges 0xFF := by
  induction rest generalizing max next with
  | nil =>
    have hbalance := h.balance
    rw [gapsFit, and_true, List.getLast?_nil, Option.map_none, Option.getD_none, h.busCount_of_nil]
    omega
  | cons r rest ih =>
    rw [gapsFit]
    rcases Nat.lt_or_ge max next with hlt | hle
    · rw [getD_lastMax_cons, ← ih (h.step hlt)]
      constructor
      · rintro ⟨-, hin | hsum⟩
        · omega
        · exact hsum
      · rintro ⟨hsum, hfit⟩
        exact ⟨by omega, .inr ⟨hsum, hfit⟩⟩
    · have hmax := h.max_lt
      have hcount := (h.busCount_eq hle).1
      have hall : busCount ranges next ≤ busCount ranges 0xFF := busCount_mono (by omega)
      have hlast := lastMax_lt h.sorted hmax
      exact iff_of_true ⟨by omega, .inl hle⟩ (by omega)

end Skipping

/-! ### The walk -/

/-- Without a wrapped sum, the walk fails only if there are not enough bus numbers. -/
theorem busCount_lt_of_skipGaps_error {wanted max next : ℕ} {rest : List BusRange}
    {status : EfiStatus} (h : Skipping ranges wanted max next rest) (hfit : gapsFit max next rest)
    (herror : skipGaps max next rest = .error status) : busCount ranges 0xFF < wanted := by
  induction rest generalizing max next with
  | nil =>
    have hbalance := h.balance
    rw [h.busCount_of_nil]
    rw [skipGaps] at herror
    split at herror
    · cases herror
    · omega
  | cons r rest ih =>
    rw [skipGaps] at herror
    split at herror
    · cases herror
    · rcases hfit with hle | ⟨hsum, hfit⟩
      · exact absurd hle ‹_›
      · rw [h.gap_eq, Nat.mod_eq_of_lt (by omega)] at herror
        exact ih (h.step (by omega)) hfit herror

theorem skipGaps_of_le {max next : ℕ} {rest : List BusRange} (h : next ≤ max) :
    skipGaps max next rest = .ok next := by
  cases rest with
  | nil => rw [skipGaps, if_pos h]
  | cons r rest => rw [skipGaps, if_pos h]

/-- With a wrapped sum, the walk comes to a number all the same. -/
theorem skipGaps_of_not_gapsFit {wanted max next : ℕ} {rest : List BusRange}
    (h : Skipping ranges wanted max next rest) (hnext : next ≤ 0xFF)
    (hfit : ¬ gapsFit max next rest) : ∃ t, skipGaps max next rest = .ok t := by
  induction rest generalizing max next with
  | nil => exact absurd trivial hfit
  | cons r rest ih =>
    rw [gapsFit, not_or, not_and_or] at hfit
    obtain ⟨hlt, hrest⟩ := hfit
    rw [skipGaps, if_neg hlt, h.gap_eq]
    rcases Nat.lt_or_ge 0xFF (next + (r.addrRangeMin - (max + 1))) with hover | hsum
    · -- The sum loses 0x100, and is below the gap.
      have hwf := h.sorted.wf r List.mem_cons_self
      have hle := hwf.le
      have hmax := hwf.max_eq
      have hpos := hwf.pos
      have hmin := h.lt_min r List.mem_cons_self
      exact ⟨_, skipGaps_of_le (by omega)⟩
    · rw [Nat.mod_eq_of_lt (by omega)]
      exact ih (h.step (by omega)) hsum (hrest.resolve_left (not_not_intro hsum))

/-- A bus number of the ranges has a range, at which the outer loop stops. -/
theorem exists_rangesFrom {start : ℕ} (hin : InRanges ranges start) :
    ∃ before r rest, ranges = before ++ r :: rest ∧ rangesFrom ranges start = r :: rest := by
  cases hfrom : rangesFrom ranges start with
  | nil =>
    obtain ⟨r, hr, hc⟩ := hin
    have hall := List.dropWhile_eq_nil_iff.1 hfrom r hr
    rw [decide_eq_true hc] at hall
    cases hall
  | cons r rest =>
    refine ⟨ranges.takeWhile fun r ↦ !decide (r.Contains start), r, rest, ?_, rfl⟩
    rw [← hfrom]
    exact List.takeWhile_append_dropWhile.symm

/-- **`PciAllocateBusNumber` allocates as documented if and only if** the bus numbers that are
missing, if any, fit between the last range and 0xFF. -/
theorem allocatesNth_iff (h : SortedRanges ranges) {startBusNumber numberOfBuses : ℕ}
    (hstart : InRanges ranges startBusNumber) (hpos : 1 ≤ numberOfBuses)
    (hbyte : numberOfBuses < 2 ^ 8) :
    AllocatesNth ranges startBusNumber numberOfBuses ↔
      lastBusNumber ranges + numberOfBuses ≤
        0xFF + (busNumbersAbove ranges startBusNumber 0xFF).card := by
  obtain ⟨before, r, rest, happend, hfrom⟩ := exists_rangesFrom hstart
  have hskip := skipping_of_rangesFrom h hfrom numberOfBuses
  have hstartLe : startBusNumber ≤ r.max := (contains_of_rangesFrom hfrom).1.2
  have hmax := hskip.max_lt
  have hcount : busCount ranges 0xFF = _ := busCount_eq_add_card (by omega : startBusNumber ≤ 0xFF)
  have hiff := hskip.fits_iff
  rw [← lastBusNumber_of_append happend] at hiff
  have hcondition : (lastBusNumber ranges + numberOfBuses ≤
      0xFF + (busNumbersAbove ranges startBusNumber 0xFF).card) ↔
      (startBusNumber + numberOfBuses ≤ 0xFF ∧
        gapsFit r.max (startBusNumber + numberOfBuses) rest) := by
    rw [hiff, hcount]
    omega
  rw [hcondition]
  have hrun : pciAllocateBusNumber ranges startBusNumber numberOfBuses =
      skipGaps r.max ((startBusNumber + numberOfBuses) % 2 ^ 8) rest := by
    rw [pciAllocateBusNumber, hfrom]
  constructor
  · intro hallocates
    by_contra hwrap
    -- A wrapped sum: too few bus numbers, and success.
    have hshort : ¬ numberOfBuses ≤ (busNumbersAbove ranges startBusNumber 0xFF).card := by
      rw [hiff] at hwrap
      have hlast := lastMax_lt hskip.sorted hmax
      rw [← lastBusNumber_of_append happend] at hlast
      omega
    refine hshort (hallocates.success.1 ?_)
    rw [hrun]
    rcases Nat.lt_or_ge 0xFF (startBusNumber + numberOfBuses) with hover | hsum
    · exact ⟨_, skipGaps_of_le (by omega)⟩
    · rw [Nat.mod_eq_of_lt (by omega)]
      exact skipGaps_of_not_gapsFit hskip hsum fun hfit ↦ hwrap ⟨hsum, hfit⟩
  · rintro ⟨hsum, hfit⟩
    rw [Nat.mod_eq_of_lt (by omega)] at hrun
    cases hresult : skipGaps r.max (startBusNumber + numberOfBuses) rest with
    | error status =>
      have hshort := busCount_lt_of_skipGaps_error hskip hfit hresult
      rw [hresult] at hrun
      refine ⟨iff_of_false ?_ (by omega), ?_⟩
      · rintro ⟨next, hnext⟩
        rw [hrun] at hnext
        cases hnext
      · intro next hnext
        rw [hrun] at hnext
        cases hnext
    | ok t =>
      rw [hresult] at hrun
      obtain ⟨hreserved, hin⟩ := busCount_of_skipGaps hskip hfit hresult
      have hlt : startBusNumber < t :=
        lt_of_busCount_lt (by omega : busCount ranges startBusNumber < busCount ranges t)
      have hle : t ≤ 0xFF := hin.le h
      have hcard : busCount ranges t = _ := busCount_eq_add_card (Nat.le_of_lt hlt)
      have hall : busCount ranges t ≤ busCount ranges 0xFF := busCount_mono hle
      refine ⟨iff_of_true ⟨t, hrun⟩ (by omega), ?_⟩
      intro next hnext
      rw [hrun] at hnext
      cases hnext
      exact ⟨Finset.mem_filter.2 ⟨Finset.mem_Ioc.2 ⟨hlt, hle⟩, hin⟩, by omega⟩

/-- All 256 bus numbers in one range. -/
def fullRange : List BusRange := [⟨0, 0x100⟩]

theorem sortedRanges_fullRange : SortedRanges fullRange :=
  ⟨List.forall_mem_singleton.2 ⟨by decide, by decide⟩, List.pairwise_singleton _ _⟩

theorem allocatesNth_iff_fullRange : AllocatesNth fullRange 0 1 ↔
    lastBusNumber fullRange + 1 ≤ 0xFF + (busNumbersAbove fullRange 0 0xFF).card :=
  allocatesNth_iff sortedRanges_fullRange (by decide) (by decide) (by decide)

/-- Two buses above 0xFE: 0x100, which is 0, and `EFI_SUCCESS`. -/
theorem not_allocatesNth_wrapped : ¬ ∀ ranges start count, SortedRanges ranges →
    InRanges ranges start → 1 ≤ count → count < 2 ^ 8 → AllocatesNth ranges start count := by
  intro hall
  have h := hall fullRange 0xFE 2 sortedRanges_fullRange (by decide) (by decide) (by decide)
  have hrun : pciAllocateBusNumber fullRange 0xFE 2 = .ok 0 := by decide
  have hcard : (busNumbersAbove fullRange 0xFE 0xFF).card ≤ 1 := card_busNumbersAbove_le _ _
  have hsuccess := h.success.1 ⟨0, hrun⟩
  omega

end PurleyFirmware.Pci
