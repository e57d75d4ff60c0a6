import PurleyFirmware.Foundation.Unsigned
import PurleyFirmware.Uefi.Status
import Mathlib.Order.Interval.Set.Nat
import Mathlib.Data.Nat.Count

/-!
# `PciAllocateBusNumber`

A root bridge decodes a sorted list of disjoint bus ranges. `PciAllocateBusNumber` reserves a number
of buses above a given one: it adds the number, and as long as the result is beyond the range at
hand it goes to the next range and adds the gap between the two. Both sums are cast to `UINT8`.

What the function is for is said with `busCount`: reserving `n` buses above `start` leads to the
bus number that has `n` more bus numbers of the ranges at or below it than `start` has
(`busCount_of_pciAllocateBusNumber`). That rests on no gap sum exceeding 0xFF (`GapsFit`). When one
does, there are fewer than `n` bus numbers above `start` in all the ranges together
(`busCount_lt_of_not_gapsFit`), and the wrapped sum is no reservation at all.
-/

namespace PurleyFirmware.Pci

/-! ### Ranges -/

/-- A descriptor of `BusNumberRanges`. -/
structure BusRange where
  /-- `AddrRangeMin`. -/
  addrRangeMin : ℕ
  /-- `AddrLen`. -/
  addrLen : ℕ
  deriving DecidableEq, Repr

/-- `AddrRangeMin + AddrLen - 1`, a `UINT64`. -/
def BusRange.max (r : BusRange) : ℕ := wrapSub 64 (r.addrRangeMin + r.addrLen) 1

/-- The bus number is in the range. -/
def BusRange.Contains (r : BusRange) (b : ℕ) : Prop := r.addrRangeMin ≤ b ∧ b ≤ r.max

instance (r : BusRange) (b : ℕ) : Decidable (r.Contains b) :=
  inferInstanceAs (Decidable (r.addrRangeMin ≤ b ∧ b ≤ r.max))

/-- A range of bus numbers: not empty, and not beyond 0xFF. -/
structure BusRange.Wf (r : BusRange) : Prop where
  pos : 0 < r.addrLen
  le : r.addrRangeMin + r.addrLen ≤ 2 ^ 8

instance (r : BusRange) : Decidable r.Wf :=
  decidable_of_iff (0 < r.addrLen ∧ r.addrRangeMin + r.addrLen ≤ 2 ^ 8)
    ⟨fun h ↦ ⟨h.1, h.2⟩, fun h ↦ ⟨h.pos, h.le⟩⟩

theorem BusRange.Wf.max_eq {r : BusRange} (h : r.Wf) :
    r.max = r.addrRangeMin + r.addrLen - 1 := by
  obtain ⟨hpos, hle⟩ := h
  exact wrapSub_of_le (by omega) (by omega)

/-- The list of ranges is sorted, and its ranges are disjoint. -/
structure SortedRanges (ranges : List BusRange) : Prop where
  wf : ∀ r ∈ ranges, r.Wf
  sorted : ranges.Pairwise fun r r' ↦ r.max < r'.addrRangeMin

/-- The bus number is in one of the ranges. -/
def InRanges (ranges : List BusRange) (b : ℕ) : Prop := ∃ r ∈ ranges, r.Contains b

instance (ranges : List BusRange) : DecidablePred (InRanges ranges) := fun b ↦
  inferInstanceAs (Decidable (∃ r ∈ ranges, r.Contains b))

/-- The number of bus numbers of the ranges at or below `b`. -/
def busCount (ranges : List BusRange) (b : ℕ) : ℕ := Nat.count (InRanges ranges) (b + 1)

/-! ### Counting bus numbers -/

variable {ranges : List BusRange}

theorem busCount_mono {a b : ℕ} (h : a ≤ b) : busCount ranges a ≤ busCount ranges b :=
  Nat.count_monotone _ (Nat.succ_le_succ h)

theorem lt_of_busCount_lt {a b : ℕ} (h : busCount ranges a < busCount ranges b) : a < b := by
  by_contra hle
  exact Nat.not_le.2 h (busCount_mono (Nat.le_of_not_lt hle))

theorem busCount_eq_add {a b : ℕ} (h : a ≤ b) :
    busCount ranges b =
      busCount ranges a + Nat.count (fun k ↦ InRanges ranges (a + 1 + k)) (b - a) := by
  have hsum : b + 1 = a + 1 + (b - a) := by omega
  rw [busCount, hsum, Nat.count_add]
  rfl

/-- Above `a`, all numbers up to `b` are bus numbers. -/
theorem busCount_of_inRanges {a b : ℕ} (h : a ≤ b) (hin : ∀ x, a < x → x ≤ b → InRanges ranges x) :
    busCount ranges b = busCount ranges a + (b - a) := by
  rw [busCount_eq_add h, Nat.count_of_forall fun k hk ↦ hin (a + 1 + k) (by omega) (by omega)]

/-- Above `a`, no number up to `b` is a bus number. -/
theorem busCount_of_not_inRanges {a b : ℕ} (h : a ≤ b)
    (hout : ∀ x, a < x → x ≤ b → ¬ InRanges ranges x) : busCount ranges b = busCount ranges a := by
  rw [busCount_eq_add h, Nat.count_of_forall_not fun k hk ↦ hout (a + 1 + k) (by omega) (by omega),
    Nat.add_zero]

theorem busCount_le_add {a b : ℕ} (h : a ≤ b) :
    busCount ranges b ≤ busCount ranges a + (b - a) := by
  rw [busCount_eq_add h]
  exact Nat.add_le_add_left (Nat.count_le _) _

/-- No bus number is beyond 0xFF. -/
theorem SortedRanges.busCount_le (h : SortedRanges ranges) (b : ℕ) :
    busCount ranges b ≤ busCount ranges 0xFF := by
  rcases Nat.le_total b 0xFF with hb | hb
  · exact busCount_mono hb
  · refine Nat.le_of_eq (busCount_of_not_inRanges hb fun x hx _ ⟨r, hr, hmin, hmax⟩ ↦ ?_)
    have hwf := h.wf r hr
    have hle := hwf.le
    rw [hwf.max_eq] at hmax
    omega

/-- A bus number of the ranges counts for itself. -/
theorem le_of_busCount_le {a b : ℕ} (hin : InRanges ranges a)
    (h : busCount ranges a ≤ busCount ranges b) : a ≤ b := by
  by_contra hlt
  have hbelow : busCount ranges b ≤ Nat.count (InRanges ranges) a :=
    Nat.count_monotone _ (Nat.lt_of_not_le hlt)
  rw [busCount, Nat.count_succ, if_pos hin] at h
  omega

theorem busCount_pos {b : ℕ} (h : InRanges ranges b) : 0 < busCount ranges b := by
  rw [busCount, Nat.count_succ, if_pos h]
  exact Nat.succ_pos _

/-! ### Reserving bus numbers -/

/-- The inner loop: a number beyond the range at hand moves on by the gap to the next range. -/
def skipGaps (maxNumberInRange nextNumber : ℕ) : List BusRange → Except EfiStatus ℕ
  | [] => if nextNumber ≤ maxNumberInRange then .ok nextNumber else .error .outOfResources
  | r :: ranges =>
    if nextNumber ≤ maxNumberInRange then .ok nextNumber
    else
      skipGaps r.max ((nextNumber + wrapSub 64 r.addrRangeMin (maxNumberInRange + 1)) % 2 ^ 8) ranges

/-- The ranges from the first one that contains the bus number on. -/
def rangesFrom (ranges : List BusRange) (startBusNumber : ℕ) : List BusRange :=
  ranges.dropWhile fun r ↦ !decide (r.Contains startBusNumber)

/-- `PciAllocateBusNumber`, on the ranges of the root bridge above the given bridge. -/
def pciAllocateBusNumber (ranges : List BusRange) (startBusNumber numberOfBuses : ℕ) :
    Except EfiStatus ℕ :=
  match rangesFrom ranges startBusNumber with
  | [] => .error .outOfResources
  | r :: rest => skipGaps r.max ((startBusNumber + numberOfBuses) % 2 ^ 8) rest

/-- In `skipGaps`, no sum of a number and a gap exceeds 0xFF. -/
def gapsFit (maxNumberInRange nextNumber : ℕ) : List BusRange → Prop
  | [] => True
  | r :: ranges =>
    nextNumber ≤ maxNumberInRange ∨
      (nextNumber + (r.addrRangeMin - (maxNumberInRange + 1)) ≤ 0xFF ∧
        gapsFit r.max (nextNumber + (r.addrRangeMin - (maxNumberInRange + 1))) ranges)

/-- In `pciAllocateBusNumber`, no sum of a number and a gap exceeds 0xFF. -/
def GapsFit (ranges : List BusRange) (startBusNumber numberOfBuses : ℕ) : Prop :=
  match rangesFrom ranges startBusNumber with
  | [] => True
  | r :: rest => gapsFit r.max (startBusNumber + numberOfBuses) rest

instance decidableGapsFitFrom : ∀ (max next : ℕ) (rest : List BusRange),
    Decidable (gapsFit max next rest)
  | _, _, [] => inferInstanceAs (Decidable True)
  | max, next, r :: rest =>
    have := decidableGapsFitFrom r.max (next + (r.addrRangeMin - (max + 1))) rest
    inferInstanceAs (Decidable (next ≤ max ∨ (next + (r.addrRangeMin - (max + 1)) ≤ 0xFF ∧
      gapsFit r.max (next + (r.addrRangeMin - (max + 1))) rest)))

instance (ranges : List BusRange) (start count : ℕ) : Decidable (GapsFit ranges start count) :=
  match h : rangesFrom ranges start with
  | [] => isTrue (by rw [GapsFit, h]; trivial)
  | r :: rest => decidable_of_iff (gapsFit r.max (start + count) rest) (by rw [GapsFit, h])

/-- What `skipGaps` keeps: `wanted` bus numbers are to lie at or below the result, `next` is as many
numbers beyond the range at hand as are still missing there, and what is left of the ranges is what
lies above. -/
structure Skipping (ranges : List BusRange) (wanted max next : ℕ) (rest : List BusRange) :
    Prop where
  sorted : SortedRanges rest
  above : ∀ b, max < b → (InRanges ranges b ↔ InRanges rest b)
  lt_min : ∀ r ∈ rest, max < r.addrRangeMin
  max_lt : max < 2 ^ 8
  balance : wanted + max = next + busCount ranges max
  full : ∀ x, next ≤ x → x ≤ max → InRanges ranges x

namespace Skipping

variable {wanted max next : ℕ} {r : BusRange} {rest : List BusRange}

/-- The number is in the range at hand. -/
theorem busCount_eq (h : Skipping ranges wanted max next rest) (hle : next ≤ max) :
    busCount ranges next = wanted ∧ InRanges ranges next := by
  have hfull := busCount_of_inRanges hle fun x hx ↦ h.full x (Nat.le_of_lt hx)
  have hbalance := h.balance
  exact ⟨by omega, h.full next (Nat.le_refl _) hle⟩

/-- Between the range at hand and the next one there is no bus number, and the next one is full. -/
theorem busCount_next (h : Skipping ranges wanted max next (r :: rest)) {b : ℕ}
    (hmin : r.addrRangeMin ≤ b + 1) (hb : b ≤ r.max) :
    busCount ranges b = busCount ranges max + (b + 1 - r.addrRangeMin) := by
  have hwf := h.sorted.wf r List.mem_cons_self
  have hlt := h.lt_min r List.mem_cons_self
  have hgap : busCount ranges (r.addrRangeMin - 1) = busCount ranges max := by
    refine busCount_of_not_inRanges (by omega) fun x hx hxle hin ↦ ?_
    obtain ⟨r', hr', hmin', -⟩ := (h.above x hx).1 hin
    rcases List.mem_cons.1 hr' with rfl | hr'
    · omega
    · have hnext := (List.pairwise_cons.1 h.sorted.sorted).1 r' hr'
      have hmax := hwf.max_eq
      have hpos := hwf.pos
      omega
  have hfull : busCount ranges b =
      busCount ranges (r.addrRangeMin - 1) + (b - (r.addrRangeMin - 1)) :=
    busCount_of_inRanges (by omega) fun x hx hxle ↦ (h.above x (by omega)).2
      ⟨r, List.mem_cons_self, by omega, by omega⟩
  omega

/-- One turn of the inner loop. -/
theorem step (h : Skipping ranges wanted max next (r :: rest)) (hlt : max < next) :
    Skipping ranges wanted r.max (next + (r.addrRangeMin - (max + 1))) rest := by
  have hwf := h.sorted.wf r List.mem_cons_self
  have hmin := h.lt_min r List.mem_cons_self
  have hmax := hwf.max_eq
  have hpos := hwf.pos
  have hle := hwf.le
  obtain ⟨hsorted, hpair⟩ := List.pairwise_cons.1 h.sorted.sorted
  refine ⟨⟨fun r' hr' ↦ h.sorted.wf r' (List.mem_cons_of_mem _ hr'), hpair⟩, fun b hb ↦ ?_, hsorted,
    by omega, ?_, fun x hx hxle ↦ ?_⟩
  · refine (h.above b (by omega)).trans ⟨fun ⟨r', hr', hc⟩ ↦ ?_, fun ⟨r', hr', hc⟩ ↦
      ⟨r', List.mem_cons_of_mem _ hr', hc⟩⟩
    rcases List.mem_cons.1 hr' with rfl | hr'
    · have hbmax := hc.2
      omega
    · exact ⟨r', hr', hc⟩
  · have hcount := h.busCount_next (b := r.max) (by omega) (Nat.le_refl _)
    have hbalance := h.balance
    omega
  · exact (h.above x (by omega)).2 ⟨r, List.mem_cons_self, by omega, hxle⟩

/-- A gap sum beyond 0xFF: the bus numbers do not suffice. -/
theorem busCount_lt (h : Skipping ranges wanted max next (r :: rest)) (hlt : max < next)
    (hover : 0xFF < next + (r.addrRangeMin - (max + 1))) : busCount ranges 0xFF < wanted := by
  have hwf := h.sorted.wf r List.mem_cons_self
  have hmin := h.lt_min r List.mem_cons_self
  have hmax := hwf.max_eq
  have hpos := hwf.pos
  have hle := hwf.le
  have hcount := h.busCount_next (b := r.max) (by omega) (Nat.le_refl _)
  have hrest : busCount ranges 0xFF ≤ busCount ranges r.max + (0xFF - r.max) :=
    busCount_le_add (by omega)
  have hbalance := h.balance
  omega

/-- The gap that the source computes. -/
theorem gap_eq (h : Skipping ranges wanted max next (r :: rest)) :
    wrapSub 64 r.addrRangeMin (max + 1) = r.addrRangeMin - (max + 1) := by
  have hmin := h.lt_min r List.mem_cons_self
  have hle := (h.sorted.wf r List.mem_cons_self).le
  exact wrapSub_of_le (by omega) (by omega)

end Skipping

/-- As long as the gap sums fit, `skipGaps` finds the bus number it is to find. -/
theorem busCount_of_skipGaps {wanted max next t : ℕ} {rest : List BusRange}
    (h : Skipping ranges wanted max next rest) (hfit : gapsFit max next rest)
    (hok : skipGaps max next rest = .ok t) : busCount ranges t = wanted ∧ InRanges ranges t := by
  induction rest generalizing max next with
  | nil =>
    rw [skipGaps] at hok
    split at hok
    · cases hok
      exact h.busCount_eq ‹_›
    · cases hok
  | cons r rest ih =>
    rw [skipGaps] at hok
    split at hok
    · cases hok
      exact h.busCount_eq ‹_›
    · rcases hfit with hle | ⟨hsum, hfit⟩
      · exact absurd hle ‹_›
      · rw [h.gap_eq, Nat.mod_eq_of_lt (by omega)] at hok
        exact ih (h.step (by omega)) hfit hok

/-- When a gap sum does not fit, there are not enough bus numbers. -/
theorem busCount_lt_of_not_skipGaps {wanted max next : ℕ} {rest : List BusRange}
    (h : Skipping ranges wanted max next rest) (hfit : ¬ gapsFit max next rest) :
    busCount ranges 0xFF < wanted := by
  induction rest generalizing max next with
  | nil => exact absurd trivial hfit
  | cons r rest ih =>
    rw [gapsFit, not_or, not_and_or] at hfit
    obtain ⟨hlt, hsum | hrest⟩ := hfit
    · exact h.busCount_lt (by omega) (by omega)
    · exact ih (h.step (by omega)) hrest

/-- The outer loop of `pciAllocateBusNumber` finds the range of the bus number. -/
theorem contains_of_rangesFrom {start : ℕ} {r : BusRange} {rest : List BusRange}
    (hfrom : rangesFrom ranges start = r :: rest) : r.Contains start ∧ InRanges ranges start := by
  have hdrop : ranges.dropWhile (fun r ↦ !decide (r.Contains start)) = r :: rest := hfrom
  have hne : ranges.dropWhile (fun r ↦ !decide (r.Contains start)) ≠ [] := by
    rw [hdrop]
    exact List.cons_ne_nil _ _
  have hhead := List.head_dropWhile_not (fun r : BusRange ↦ !decide (r.Contains start)) hne
  simp only [hdrop, List.head_cons, Bool.not_eq_false', decide_eq_true_eq] at hhead
  have hmem : r ∈ ranges := by
    refine (List.dropWhile_sublist fun r ↦ !decide (r.Contains start)).subset ?_
    rw [hdrop]
    exact List.mem_cons_self
  exact ⟨hhead, r, hmem, hhead⟩

/-- The outer loop of `pciAllocateBusNumber` leaves the inner one its invariant. -/
theorem skipping_of_rangesFrom (h : SortedRanges ranges) {start : ℕ} {r : BusRange}
    {rest : List BusRange} (hfrom : rangesFrom ranges start = r :: rest) (count : ℕ) :
    Skipping ranges (busCount ranges start + count) r.max (start + count) rest := by
  obtain ⟨⟨hmin, hmax⟩, -⟩ := contains_of_rangesFrom hfrom
  have happend : ranges = ranges.takeWhile (fun r ↦ !decide (r.Contains start)) ++ r :: rest := by
    rw [← hfrom]
    exact List.takeWhile_append_dropWhile.symm
  have hsorted := h.sorted
  rw [happend, List.pairwise_append, List.pairwise_cons] at hsorted
  obtain ⟨-, ⟨hlt, hpair⟩, hbefore⟩ := hsorted
  have hmem : ∀ r' ∈ r :: rest, r' ∈ ranges := fun r' hr' ↦ by
    rw [happend]
    exact List.mem_append_right _ hr'
  have hwf := h.wf r (hmem r List.mem_cons_self)
  have hle := hwf.le
  have heq := hwf.max_eq
  have hpos := hwf.pos
  refine ⟨⟨fun r' hr' ↦ h.wf r' (hmem r' (List.mem_cons_of_mem _ hr')), hpair⟩, fun b hb ↦
    ⟨fun ⟨r', hr', hc⟩ ↦ ?_, fun ⟨r', hr', hc⟩ ↦ ⟨r', hmem r' (List.mem_cons_of_mem _ hr'), hc⟩⟩,
    hlt, by omega, ?_, fun x hx hxle ↦ ⟨r, hmem r List.mem_cons_self, by omega, hxle⟩⟩
  · rw [happend, List.mem_append, List.mem_cons] at hr'
    have hbmax := hc.2
    rcases hr' with hr' | rfl | hr'
    · have hgap := hbefore r' hr' r List.mem_cons_self
      omega
    · omega
    · exact ⟨r', hr', hc⟩
  · have hfull : busCount ranges r.max = busCount ranges start + (r.max - start) :=
      busCount_of_inRanges hmax fun x hx hxle ↦ ⟨r, hmem r List.mem_cons_self, by omega, hxle⟩
    omega

/-- A reservation starts at a bus number of the ranges. -/
theorem inRanges_of_pciAllocateBusNumber {start count t : ℕ}
    (hok : pciAllocateBusNumber ranges start count = .ok t) : InRanges ranges start := by
  rw [pciAllocateBusNumber] at hok
  split at hok
  · cases hok
  · exact (contains_of_rangesFrom ‹_›).2

/-- **A reservation whose gap sums fit** leads to the bus number with as many bus numbers of the
ranges between as were to be reserved. -/
theorem busCount_of_pciAllocateBusNumber (h : SortedRanges ranges) {start count t : ℕ}
    (hsum : start + count ≤ 0xFF) (hfit : GapsFit ranges start count)
    (hok : pciAllocateBusNumber ranges start count = .ok t) :
    busCount ranges t = busCount ranges start + count ∧ InRanges ranges t := by
  rw [pciAllocateBusNumber, Nat.mod_eq_of_lt (by omega)] at hok
  rw [GapsFit] at hfit
  split at hok
  · cases hok
  · rename_i r rest hfrom
    rw [hfrom] at hfit
    exact busCount_of_skipGaps (skipping_of_rangesFrom h hfrom count) hfit hok

/-- A reservation with a gap sum that does not fit asks for more bus numbers than there are. -/
theorem busCount_lt_of_not_gapsFit (h : SortedRanges ranges) {start count : ℕ}
    (hfit : ¬ GapsFit ranges start count) :
    busCount ranges 0xFF < busCount ranges start + count := by
  rw [GapsFit] at hfit
  split at hfit
  · exact absurd trivial hfit
  · exact busCount_lt_of_not_skipGaps (skipping_of_rangesFrom h ‹_› count) hfit

end PurleyFirmware.Pci
