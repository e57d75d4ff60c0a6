import PurleyFirmware.Pci.ScanBus

/-!
# The bus numbers of a scan

After a scan the bridges are to be numbered like a tree: every bridge has a bus number of its own,
and the range from its secondary to its subordinate bus number holds the ranges of the bridges
behind it and none of the others on its bus. Every reservation, for virtual functions or as hot-plug
padding, is to lie at or below the last bus number (`BusNumbering`).

`Forest.Numbered` says the same along the order of the scan: a bridge starts above everything that
was numbered before it. Every reservation keeps it, as long as it has the bus numbers that it asks
for, and the scan is then a sequence of reservations (`scanFunction_scanned`). When no sum of a bus
number and a number of buses exceeds 0xFF, a scan numbers its bridges like this if and only if every
reservation `Fits`: the number of buses survives its cast to `UINT8`, and so does every number moved
on by the gap between two ranges (`busNumbering_iff_fits`). The source checks neither.
-/

namespace PurleyFirmware.Pci

namespace Forest

/-- The bridges of the bus. -/
def roots : Forest → List BridgeRegisters
  | nil => []
  | cons b _ earlier => b :: earlier.roots

/-- All bridges, each with the bridges behind it. -/
def all : Forest → List (BridgeRegisters × Forest)
  | nil => []
  | cons b behind earlier => (b, behind) :: (behind.all ++ earlier.all)

end Forest

/-- The two bridges have no bus number in common. -/
def BridgeRegisters.Disjoint (a b : BridgeRegisters) : Prop :=
  a.subordinate < b.secondary ∨ b.subordinate < a.secondary

instance (a b : BridgeRegisters) : Decidable (a.Disjoint b) :=
  inferInstanceAs (Decidable (_ ∨ _))

/-- The ranges have as many bus numbers above the start of the reservation, and not above `last`, as
are reserved. -/
def Reservation.Honoured (ranges : List BusRange) (r : Reservation) (last : ℕ) : Prop :=
  busCount ranges r.startBusNumber + r.requested ≤ busCount ranges last

instance (ranges : List BusRange) (r : Reservation) (last : ℕ) :
    Decidable (r.Honoured ranges last) :=
  inferInstanceAs (Decidable (_ ≤ _))

/-- The bus numbers after a scan of the bus `bus`. -/
structure BusNumbering (ranges : List BusRange) (bus : ℕ) (st : ScanState) : Prop where
  primary_roots : ∀ b ∈ st.bridges.roots, b.primary = bus
  primary_behind : ∀ p ∈ st.bridges.all, ∀ b ∈ p.2.roots, b.primary = p.1.secondary
  secondary_nodup : (st.bridges.all.map fun p ↦ p.1.secondary).Nodup
  secondary_inRanges : ∀ p ∈ st.bridges.all, InRanges ranges p.1.secondary
  secondary_le : ∀ p ∈ st.bridges.all, p.1.secondary ≤ p.1.subordinate
  nested : ∀ p ∈ st.bridges.all, ∀ b ∈ p.2.roots,
    p.1.secondary ≤ b.secondary ∧ b.subordinate ≤ p.1.subordinate
  disjoint_roots : st.bridges.roots.Pairwise BridgeRegisters.Disjoint
  disjoint_behind : ∀ p ∈ st.bridges.all, p.2.roots.Pairwise BridgeRegisters.Disjoint
  subordinate_le : ∀ p ∈ st.bridges.all, p.1.subordinate ≤ st.subBusNumber
  honoured : ∀ r ∈ st.reservations, r.Honoured ranges st.subBusNumber

/-! ### Numbering along the scan -/

/-- The bridges on the bus `bus` and all bridges behind them are numbered from `lo`, which is not
used, to `hi`. -/
def Forest.Numbered (ranges : List BusRange) : Forest → (bus lo hi : ℕ) → Prop
  | nil, _, lo, hi => lo ≤ hi
  | cons b behind earlier, bus, lo, hi =>
    ∃ last, earlier.Numbered ranges bus lo last ∧ b.primary = bus ∧ last < b.secondary ∧
      InRanges ranges b.secondary ∧
      behind.Numbered ranges b.secondary b.secondary b.subordinate ∧ b.subordinate ≤ hi

namespace Forest.Numbered

variable {ranges : List BusRange} {f : Forest} {bus lo hi : ℕ}

theorem le (h : f.Numbered ranges bus lo hi) : lo ≤ hi := by
  induction f generalizing bus lo hi with
  | nil => exact h
  | cons b behind earlier ihb ihe =>
    obtain ⟨last, hearlier, -, hlast, -, hbehind, hhi⟩ := h
    have hlo := ihe hearlier
    have hsub := ihb hbehind
    omega

theorem mono (h : f.Numbered ranges bus lo hi) {hi' : ℕ} (hle : hi ≤ hi') :
    f.Numbered ranges bus lo hi' := by
  cases f with
  | nil => exact Nat.le_trans h hle
  | cons b behind earlier =>
    obtain ⟨last, hearlier, hprimary, hlast, hin, hbehind, hhi⟩ := h
    exact ⟨last, hearlier, hprimary, hlast, hin, hbehind, Nat.le_trans hhi hle⟩

/-- Every bridge is numbered between `lo` and `hi`, with the bridges behind it. -/
theorem of_mem_all (h : f.Numbered ranges bus lo hi) {p : BridgeRegisters × Forest}
    (hp : p ∈ f.all) :
    lo < p.1.secondary ∧ InRanges ranges p.1.secondary ∧
      p.2.Numbered ranges p.1.secondary p.1.secondary p.1.subordinate ∧ p.1.subordinate ≤ hi := by
  induction f generalizing bus lo hi with
  | nil => cases hp
  | cons b behind earlier ihb ihe =>
    obtain ⟨last, hearlier, -, hlast, hin, hbehind, hhi⟩ := h
    have hlo : lo ≤ last := hearlier.le
    have hsub : b.secondary ≤ b.subordinate := hbehind.le
    rcases List.mem_cons.1 hp with rfl | hp
    · exact ⟨Nat.lt_of_le_of_lt hlo hlast, hin, hbehind, hhi⟩
    rcases List.mem_append.1 hp with hp | hp
    · obtain ⟨hlt, hin', hnum, hle⟩ := ihb hbehind hp
      exact ⟨by omega, hin', hnum, by omega⟩
    · obtain ⟨hlt, hin', hnum, hle⟩ := ihe hearlier hp
      exact ⟨hlt, hin', hnum, by omega⟩

theorem of_mem_roots (h : f.Numbered ranges bus lo hi) {b : BridgeRegisters} (hb : b ∈ f.roots) :
    b.primary = bus ∧ lo < b.secondary ∧ b.subordinate ≤ hi := by
  induction f generalizing lo hi with
  | nil => cases hb
  | cons c behind earlier _ ihe =>
    obtain ⟨last, hearlier, hprimary, hlast, -, hbehind, hhi⟩ := h
    have hlo := hearlier.le
    have hsub := hbehind.le
    rcases List.mem_cons.1 hb with rfl | hb
    · exact ⟨hprimary, by omega, hhi⟩
    · obtain ⟨hprimary', hlt, hle⟩ := ihe hearlier hb
      exact ⟨hprimary', hlt, by omega⟩

theorem pairwise_roots (h : f.Numbered ranges bus lo hi) :
    f.roots.Pairwise BridgeRegisters.Disjoint := by
  induction f generalizing lo hi with
  | nil => exact List.Pairwise.nil
  | cons c behind earlier _ ihe =>
    obtain ⟨last, hearlier, -, hlast, -⟩ := h
    refine List.pairwise_cons.2 ⟨fun b hb ↦ .inr ?_, ihe hearlier⟩
    have hle := (hearlier.of_mem_roots hb).2.2
    omega

theorem nodup_secondary (h : f.Numbered ranges bus lo hi) :
    (f.all.map fun p ↦ p.1.secondary).Nodup := by
  induction f generalizing bus lo hi with
  | nil => exact List.nodup_nil
  | cons b behind earlier ihb ihe =>
    obtain ⟨last, hearlier, -, hlast, -, hbehind, -⟩ := h
    -- the bridges behind `b` are above it, and the earlier ones below
    have habove : ∀ p ∈ behind.all, b.secondary < p.1.secondary := fun p hp ↦
      (hbehind.of_mem_all hp).1
    have hbelow : ∀ p ∈ earlier.all, p.1.secondary ≤ last := fun p hp ↦ by
      obtain ⟨-, -, hnum, hle⟩ := hearlier.of_mem_all hp
      exact Nat.le_trans hnum.le hle
    rw [all, List.map_cons, List.map_append, List.nodup_cons, List.nodup_append]
    refine ⟨fun hmem ↦ ?_, ihb hbehind, ihe hearlier, fun s hs s' hs' heq ↦ ?_⟩
    · rcases List.mem_append.1 hmem with hmem | hmem
      · obtain ⟨p, hp, (heq : p.1.secondary = b.secondary)⟩ := List.mem_map.1 hmem
        have hlt := habove p hp
        omega
      · obtain ⟨p, hp, (heq : p.1.secondary = b.secondary)⟩ := List.mem_map.1 hmem
        have hle := hbelow p hp
        omega
    · obtain ⟨p, hp, rfl⟩ := List.mem_map.1 hs
      obtain ⟨p', hp', rfl⟩ := List.mem_map.1 hs'
      have hlt := habove p hp
      have hle := hbelow p' hp'
      omega

end Forest.Numbered

/-! ### Reservations -/

/-- The call of `PciAllocateBusNumber` casts nothing away: not the number of buses, and no number
moved on by a gap between two ranges. -/
def Reservation.Fits (ranges : List BusRange) (r : Reservation) : Prop :=
  r.requested ≤ 0xFF ∧ GapsFit ranges r.startBusNumber r.numberOfBuses

instance (ranges : List BusRange) (r : Reservation) : Decidable (r.Fits ranges) :=
  inferInstanceAs (Decidable (_ ∧ _))

/-- The sum of the bus number and the number of buses is at most 0xFF. -/
def Reservation.SumFits (r : Reservation) : Prop := r.startBusNumber + r.numberOfBuses ≤ 0xFF

instance (r : Reservation) : Decidable r.SumFits := inferInstanceAs (Decidable (_ ≤ _))

variable {ranges : List BusRange}

theorem Reservation.Honoured.mono {r : Reservation} {last last' : ℕ}
    (h : r.Honoured ranges last) (hle : last ≤ last') : r.Honoured ranges last' :=
  Nat.le_trans h (busCount_mono hle)

/-- A reservation that fits leads to the bus number that it asks for. -/
theorem busCount_of_fits (hranges : SortedRanges ranges) {start requested t : ℕ}
    (hfits : Reservation.Fits ranges ⟨start, requested⟩)
    (hsum : Reservation.SumFits ⟨start, requested⟩)
    (h : pciAllocateBusNumber ranges start (requested % 2 ^ 8) = .ok t) :
    busCount ranges t = busCount ranges start + requested ∧ InRanges ranges t := by
  obtain ⟨hcount, hin⟩ := busCount_of_pciAllocateBusNumber hranges hsum hfits.2 h
  have hcast : Reservation.numberOfBuses ⟨start, requested⟩ = requested :=
    Nat.mod_eq_of_lt (Nat.lt_succ_of_le hfits.1)
  rw [hcast] at hcount
  exact ⟨hcount, hin⟩

/-- A reservation that does not fit asks for more bus numbers than there are. -/
theorem Reservation.not_honoured_of_not_fits (hranges : SortedRanges ranges) {r : Reservation}
    (hfits : ¬ r.Fits ranges) (hstart : InRanges ranges r.startBusNumber) (last : ℕ) :
    ¬ r.Honoured ranges last := by
  intro hhonoured
  have hlast := hranges.busCount_le last
  have hcast : r.numberOfBuses ≤ r.requested := Nat.mod_le _ _
  rw [Reservation.Honoured] at hhonoured
  rcases not_and_or.1 hfits with hbig | hgap
  · have hpos := busCount_pos hstart
    have hall : busCount ranges 0xFF ≤ 0xFF + 1 := Nat.count_le _
    omega
  · have hlt := busCount_lt_of_not_gapsFit hranges hgap
    omega

/-! ### The scan keeps the numbering -/

/-- Every reservation so far was in order. -/
def AllFit (ranges : List BusRange) (reservations : List Reservation) : Prop :=
  ∀ r ∈ reservations, r.SumFits ∧ r.Fits ranges

theorem AllFit.mono {l l' : List Reservation} (h : AllFit ranges l') (hsub : l ⊆ l') :
    AllFit ranges l := fun r hr ↦ h r (hsub hr)

/-- The invariant of the scan of a bus: what is numbered, and what is reserved, lies at or below
`SubBusNumber`. -/
structure Scanned (ranges : List BusRange) (bus lo : ℕ) (st : ScanState) : Prop where
  numbered : st.bridges.Numbered ranges bus lo st.subBusNumber
  honoured : ∀ r ∈ st.reservations, r.Honoured ranges st.subBusNumber

variable {cfg : ScanConfig} {bus lo : ℕ} {st st' : ScanState}

/-- A reservation that raises the last bus number. -/
theorem Scanned.reserve (h : Scanned ranges bus lo st) {r : Reservation} {last : ℕ}
    (hle : st.subBusNumber ≤ last) (hr : r.Honoured ranges last) :
    Scanned ranges bus lo
      { st with subBusNumber := last, reservations := r :: st.reservations } := by
  refine ⟨h.numbered.mono hle, fun r' hr' ↦ ?_⟩
  rcases List.mem_cons.1 hr' with rfl | hr'
  · exact hr
  · exact (h.honoured r' hr').mono hle

/-- The reservations of a scan come on top of those before. -/
theorem subset_of_scanFunction {f : PciFunction} {s s' : ScanState × ℕ}
    (h : scanFunction cfg f bus s = .ok s') : s.1.reservations ⊆ s'.1.reservations :=
  scanFunction_reservations (Q := fun l ↦ s.1.reservations ⊆ l)
    (fun _ _ hl _ ↦ List.subset_cons_of_subset _ hl) (List.Subset.refl _) h

/-- The loops keep the invariant when their body does. -/
theorem scanLoops_scanned {slots : PciBus}
    (hvisit : ∀ device func s s', scanFunction cfg (slots device func) bus s = .ok s' →
      AllFit ranges s'.1.reservations → Scanned ranges bus lo s.1 → Scanned ranges bus lo s'.1)
    (h : Scanned ranges bus lo st)
    (hscan : scanLoops slots (fun device func ↦ scanFunction cfg (slots device func) bus) st =
      .ok st') (hfit : AllFit ranges st'.reservations) : Scanned ranges bus lo st' :=
  scanLoops_invariant (P := fun st ↦ AllFit ranges st.reservations → Scanned ranges bus lo st)
    (fun device func s s' hok hs hfit ↦
      hvisit device func s s' hok hfit (hs (hfit.mono (subset_of_scanFunction hok))))
    (fun _ ↦ h) hscan hfit

/-- The invariant is the numbering. -/
theorem Scanned.busNumbering (h : Scanned ranges bus lo st) : BusNumbering ranges bus st := by
  have hall := fun p ↦ h.numbered.of_mem_all (p := p)
  refine ⟨fun b hb ↦ (h.numbered.of_mem_roots hb).1, fun p hp b hb ↦ ?_, h.numbered.nodup_secondary,
    fun p hp ↦ (hall p hp).2.1, fun p hp ↦ (hall p hp).2.2.1.le, fun p hp b hb ↦ ?_,
    h.numbered.pairwise_roots, fun p hp ↦ (hall p hp).2.2.1.pairwise_roots,
    fun p hp ↦ (hall p hp).2.2.2, h.honoured⟩
  · exact ((hall p hp).2.2.1.of_mem_roots hb).1
  · obtain ⟨-, hlt, hle⟩ := (hall p hp).2.2.1.of_mem_roots hb
    exact ⟨Nat.le_of_lt hlt, hle⟩

section Steps

variable (hranges : SortedRanges cfg.busNumberRanges)
include hranges

/-- Padding a bridge. -/
theorem Scanned.padBusRange (h : Scanned cfg.busNumberRanges bus lo st) {secondBus : ℕ}
    {padding : Option HotPlugPadding} (hpad : Pci.padBusRange cfg secondBus st padding = .ok st')
    (hfit : AllFit cfg.busNumberRanges st'.reservations) :
    Scanned cfg.busNumberRanges bus lo st' := by
  obtain ⟨n, rfl⟩ | ⟨t, requested, ht, rfl⟩ := padBusRange_cases hpad
  · exact ⟨h.numbered, h.honoured⟩
  · obtain ⟨hsum, hfits⟩ := hfit ⟨secondBus, requested⟩ List.mem_cons_self
    refine h.reserve (Nat.le_max_right _ _) ?_
    exact Reservation.Honoured.mono (Nat.le_of_eq (busCount_of_fits hranges hfits hsum ht).1.symm)
      (Nat.le_max_left _ _)

/-- The virtual functions of a device. -/
theorem Scanned.reserveSrIov (h : Scanned cfg.busNumberRanges bus lo st) {temp : ℕ}
    {reservedBusNum : Option ℕ} {s' : ScanState × ℕ}
    (hres : Pci.reserveSrIov cfg st temp reservedBusNum = .ok s')
    (hfit : AllFit cfg.busNumberRanges s'.1.reservations) :
    Scanned cfg.busNumberRanges bus lo s'.1 := by
  obtain hsame | ⟨t, requested, ht, hnext⟩ := reserveSrIov_cases hres
  · rw [hsame]
    exact h
  · rw [hnext] at hfit ⊢
    obtain ⟨hsum, hfits⟩ := hfit ⟨st.subBusNumber, requested⟩ List.mem_cons_self
    have hcount := (busCount_of_fits hranges hfits hsum ht).1
    refine h.reserve ?_ (Nat.le_of_eq hcount.symm)
    exact le_of_busCount_le (inRanges_of_pciAllocateBusNumber ht)
      (Nat.le_trans (Nat.le_add_right _ _) (Nat.le_of_eq hcount.symm))

/-- A bridge, when the scan of the bus behind it keeps the invariant of that bus. -/
theorem Scanned.scanBridge (h : Scanned cfg.busNumberRanges bus lo st)
    {hotPlugBus : Option (Except EfiStatus HotPlugPadding)}
    {scanBehind : ℕ → ScanState → Except EfiStatus ScanState}
    (hsub : ∀ secondBus st st', scanBehind secondBus st = .ok st' →
      st.reservations ⊆ st'.reservations)
    (hbehind : ∀ secondBus st st', scanBehind secondBus st = .ok st' →
      AllFit cfg.busNumberRanges st'.reservations →
      Scanned cfg.busNumberRanges secondBus secondBus st →
      Scanned cfg.busNumberRanges secondBus secondBus st')
    (hscan : Pci.scanBridge cfg hotPlugBus bus scanBehind st = .ok st')
    (hfit : AllFit cfg.busNumberRanges st'.reservations) :
    Scanned cfg.busNumberRanges bus lo st' := by
  obtain ⟨secondBus, scanned, padded, padding, hsecond, hscanned, hpadded, rfl⟩ :=
    scanBridge_cases hscan
  have hfitScanned : AllFit cfg.busNumberRanges scanned.reservations := by
    refine AllFit.mono hfit ?_
    obtain ⟨n, rfl⟩ | ⟨t, requested, -, rfl⟩ := padBusRange_cases hpadded
    · exact List.Subset.refl _
    · exact List.subset_cons_self _ _
  obtain ⟨hsum, hfits⟩ : Reservation.SumFits ⟨st.subBusNumber, 1⟩ ∧
      Reservation.Fits cfg.busNumberRanges ⟨st.subBusNumber, 1⟩ :=
    hfitScanned _ (hsub _ _ _ hscanned List.mem_cons_self)
  obtain ⟨hcount, hin⟩ := busCount_of_fits hranges hfits hsum hsecond
  have hlt : st.subBusNumber < secondBus :=
    lt_of_busCount_lt (Nat.lt_of_succ_le (Nat.le_of_eq hcount.symm))
  -- the bus behind the bridge starts with nothing numbered but the bus itself
  have hhonoured : Reservation.Honoured cfg.busNumberRanges ⟨st.subBusNumber, 1⟩ secondBus :=
    Nat.le_of_eq hcount.symm
  have hopened := h.reserve (Nat.le_of_lt hlt) hhonoured
  have hscannedOk := hbehind _ _ _ hscanned hfitScanned ⟨Nat.le_refl _, hopened.honoured⟩
  have hpaddedOk := hscannedOk.padBusRange hranges hpadded hfit
  have hbridges : padded.bridges = scanned.bridges := by
    obtain ⟨n, rfl⟩ | ⟨t, requested, -, rfl⟩ := padBusRange_cases hpadded
    · rfl
    · rfl
  have hnumbered := hpaddedOk.numbered
  rw [hbridges] at hnumbered
  exact ⟨⟨st.subBusNumber, h.numbered, rfl, hlt, hin, hnumbered, Nat.le_refl _⟩,
    hpaddedOk.honoured⟩

/-- **One function of a bus.** A visit keeps the invariant of its bus, whatever is behind it. -/
theorem scanFunction_scanned {f : PciFunction} {s s' : ScanState × ℕ}
    (h : Scanned cfg.busNumberRanges bus lo s.1) (hscan : scanFunction cfg f bus s = .ok s')
    (hfit : AllFit cfg.busNumberRanges s'.1.reservations) :
    Scanned cfg.busNumberRanges bus lo s'.1 := by
  induction f generalizing bus lo s s' with
  | absent =>
    cases hscan
    exact h
  | device _ reservedBusNum => exact h.reserveSrIov hranges hscan hfit
  | cardBusBridge _ hotPlugBus =>
    obtain ⟨st', hst', hpair⟩ := bind_eq_ok.1 hscan
    cases hpair
    refine h.scanBridge hranges (fun _ st st' hok ↦ ?_) (fun _ st st' hok _ hst ↦ ?_) hst' hfit
    · cases hok
      exact List.Subset.refl _
    · cases hok
      exact hst
  | pciBridge _ hotPlugBus secondary ih =>
    obtain ⟨st', hst', hpair⟩ := bind_eq_ok.1 hscan
    cases hpair
    refine h.scanBridge hranges (fun _ st st' hok ↦ ?_) (fun _ st st' hok hfit hst ↦ ?_) hst' hfit
    · exact scanLoops_invariant (P := fun st' ↦ st.reservations ⊆ st'.reservations)
        (fun _ _ _ _ hok hs ↦ List.Subset.trans hs (subset_of_scanFunction hok))
        (List.Subset.refl _) hok
    · exact scanLoops_scanned (fun device func s s' hok hfit hs ↦ ih device func hs hok hfit) hst
        hok hfit

end Steps

/-! ### The whole scan -/

/-- **The bus numbers of a scan.** When no sum of a bus number and a number of buses exceeds 0xFF,
a scan that succeeds numbers its bridges like a tree if and only if no reservation casts anything
away. -/
theorem busNumbering_iff_fits {slots : PciBus} {start padded : ℕ}
    (hranges : SortedRanges cfg.busNumberRanges)
    (hscan : pciScanBus cfg slots start start padded = .ok st)
    (hsum : ∀ r ∈ st.reservations, r.SumFits) :
    BusNumbering cfg.busNumberRanges start st ↔
      ∀ r ∈ st.reservations, r.Fits cfg.busNumberRanges := by
  constructor
  · intro h r hr
    by_contra hfits
    have hstart : ∀ r ∈ st.reservations, InRanges cfg.busNumberRanges r.startBusNumber := by
      refine scanLoops_invariant
        (P := fun st ↦ ∀ r ∈ st.reservations, InRanges cfg.busNumberRanges r.startBusNumber)
        (fun device func s s' hok hs ↦ ?_) (fun r hr ↦ by cases hr) hscan
      exact scanFunction_reservations
        (Q := fun l ↦ ∀ r ∈ l, InRanges cfg.busNumberRanges r.startBusNumber)
        (fun l r hl hr ↦ List.forall_mem_cons.2 ⟨hr, hl⟩) hs hok
    exact Reservation.not_honoured_of_not_fits hranges hfits (hstart r hr) _ (h.honoured r hr)
  · intro hfits
    have hinit : Scanned cfg.busNumberRanges start start ⟨start, padded, .nil, []⟩ :=
      ⟨Nat.le_refl _, fun r hr ↦ by cases hr⟩
    have h := scanLoops_scanned
      (fun device func s s' hok hfit hs ↦ scanFunction_scanned hranges hs hok hfit) hinit hscan
      fun r hr ↦ ⟨hsum r hr, hfits r hr⟩
    exact h.busNumbering

/-- The bus whose devices have the given functions 0, and no other functions. -/
def busOf (devices : List PciFunction) : PciBus := fun device func ↦
  if func.val = 0 then devices.getD device.val .absent else .absent

/-- Two bus ranges; hot plug and SR-IOV are supported. -/
def twoRanges : ScanConfig where
  busNumberRanges := [⟨0, 11⟩, ⟨250, 6⟩]
  pcdPciBusHotplugDeviceSupport := true
  pcdSrIovSupport := true
  gPciHotPlugInit := true

theorem sortedRanges_twoRanges : SortedRanges twoRanges.busNumberRanges :=
  ⟨by decide, by decide⟩

/-- A hot-plug bridge behind a bridge, and a device whose virtual functions go on in the second
range. -/
def nestedBridges : PciBus := busOf
  [.pciBridge false none (busOf [.pciBridge false (some (.ok ⟨5, false, true, true⟩)) (busOf [])]),
    .device false (some 5)]

theorem busNumbering_nestedBridges :
    BusNumbering twoRanges.busNumberRanges 0
      { subBusNumber := 251
        paddedBusRange := 0
        bridges := .cons ⟨0, 1, 7⟩ (.cons ⟨1, 2, 7⟩ .nil .nil) .nil
        reservations := [⟨7, 5⟩, ⟨2, 5⟩, ⟨1, 1⟩, ⟨0, 1⟩] } := by
  have hscan : pciScanBus twoRanges nestedBridges 0 0 0 = .ok
      { subBusNumber := 251
        paddedBusRange := 0
        bridges := .cons ⟨0, 1, 7⟩ (.cons ⟨1, 2, 7⟩ .nil .nil) .nil
        reservations := [⟨7, 5⟩, ⟨2, 5⟩, ⟨1, 1⟩, ⟨0, 1⟩] } := by
    rfl
  exact (busNumbering_iff_fits sortedRanges_twoRanges hscan (by decide)).2 (by decide)

/-- The nine virtual functions of the third device are to go on from 8 in the second range. The
number that is moved on by the gap is 256, the cast makes it 0, and the last bridge is given the bus
number of the first. -/
def wrappingBus : PciBus := busOf
  [.pciBridge false none (busOf []), .device false (some 7), .device false (some 9),
    .pciBridge false none (busOf [])]

theorem not_busNumbering_wrappingBus :
    ¬ ∀ (cfg : ScanConfig) (slots : PciBus) (start padded : ℕ) (st : ScanState),
      SortedRanges cfg.busNumberRanges → pciScanBus cfg slots start start padded = .ok st →
        (∀ r ∈ st.reservations, r.SumFits) → BusNumbering cfg.busNumberRanges start st := by
  intro hall
  have hscan : pciScanBus twoRanges wrappingBus 0 0 0 = .ok
      { subBusNumber := 1
        paddedBusRange := 0
        bridges := .cons ⟨0, 1, 1⟩ .nil (.cons ⟨0, 1, 1⟩ .nil .nil)
        reservations := [⟨0, 1⟩, ⟨8, 9⟩, ⟨1, 7⟩, ⟨0, 1⟩] } := by
    rfl
  have hnodup := (hall _ _ _ _ _ sortedRanges_twoRanges hscan (by decide)).secondary_nodup
  revert hnodup
  decide

end PurleyFirmware.Pci
