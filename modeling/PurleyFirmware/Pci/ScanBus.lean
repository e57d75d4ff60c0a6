import PurleyFirmware.Foundation.Fold
import PurleyFirmware.Pci.BusNumberRanges
import Mathlib.Data.List.FinRange

/-!
# `PciScanBus`

The scan visits the functions of a bus in the order of their device and function numbers. For each
bridge it reserves the bus number of the other side, writes it to the bridge with the number of the
bus it scans, scans the bus behind a PCI-to-PCI bridge at once, and then writes the subordinate bus
number: the last bus number reserved so far, or more when a hot-plug bridge asks for padding. One
`SubBusNumber` goes through the whole recursion.

A bus is the table of the functions found on it, and the functions behind a bridge are part of the
bridge, so every finite topology is a `PciFunction` tree. The bus numbers written are a `Forest`:
the bridges of one bus, each with the bridges behind it, the last one first. The subordinate bus
number of 0xFF that a bridge has while the bus behind it is scanned is overwritten at the end of the
scan and is not in the forest.

Every successful call of `PciAllocateBusNumber` is recorded in `reservations`, with the number of
buses that was asked for, before its cast to `UINT8`; nothing in the scan reads the record.
-/

namespace PurleyFirmware.Pci

/-! ### What is on the buses -/

/-- What `GetResourcePadding` and `PciGetBusRange` say about a hot-plug bus. -/
structure HotPlugPadding where
  /-- `BusRange`, a `UINT16`. -/
  busRange : ℕ
  /-- `Attributes` is `EfiPaddingPciRootBridge`. -/
  paddingPciRootBridge : Bool
  /-- `EFI_HPC_STATE_ENABLED`. -/
  enabled : Bool
  /-- `EFI_HPC_STATE_INITIALIZED`. -/
  initialized : Bool
  deriving DecidableEq, Repr

/-- A function that `PciDevicePresent` finds or does not find. For a bridge, `hotPlugBus` says
whether it is a root hot-plug bus, and whether its padding can be read. For a device,
`reservedBusNum` is there when the device has an SR-IOV capability. -/
inductive PciFunction
  | absent
  | device (multiFunc : Bool) (reservedBusNum : Option ℕ)
  | cardBusBridge (multiFunc : Bool) (hotPlugBus : Option (Except EfiStatus HotPlugPadding))
  | pciBridge (multiFunc : Bool) (hotPlugBus : Option (Except EfiStatus HotPlugPadding))
      (secondary : Fin 32 → Fin 8 → PciFunction)

/-- The functions on a bus, by device and function number. -/
abbrev PciBus := Fin 32 → Fin 8 → PciFunction

namespace PciFunction

/-- `PciDevicePresent` returns success. -/
def present : PciFunction → Bool
  | absent => false
  | _ => true

/-- `IS_PCI_MULTI_FUNC`. -/
def isMultiFunc : PciFunction → Bool
  | absent => false
  | device multiFunc _ => multiFunc
  | cardBusBridge multiFunc _ => multiFunc
  | pciBridge multiFunc _ _ => multiFunc

end PciFunction

/-- The settings that the scan reads, and the bus ranges of the root bridge. -/
structure ScanConfig where
  busNumberRanges : List BusRange
  pcdPciBusHotplugDeviceSupport : Bool
  pcdSrIovSupport : Bool
  /-- `gPciHotPlugInit` is not `NULL`. -/
  gPciHotPlugInit : Bool

/-! ### What the scan writes -/

/-- The bus number registers of a bridge. -/
structure BridgeRegisters where
  primary : ℕ
  secondary : ℕ
  subordinate : ℕ
  deriving DecidableEq, Repr

/-- The bridges of one bus: `cons b behind earlier` has the bridge `b`, the bridges on the bus behind
it, and the bridges scanned before it. -/
inductive Forest
  | nil
  | cons (b : BridgeRegisters) (behind earlier : Forest)
  deriving DecidableEq, Repr

/-- A call of `PciAllocateBusNumber`. -/
structure Reservation where
  startBusNumber : ℕ
  requested : ℕ
  deriving DecidableEq, Repr

/-- `NumberOfBuses`, a `UINT8`. -/
def Reservation.numberOfBuses (r : Reservation) : ℕ := r.requested % 2 ^ 8

/-- The state of the scan. -/
structure ScanState where
  subBusNumber : ℕ
  paddedBusRange : ℕ
  /-- The bridges of the bus that is scanned. -/
  bridges : Forest
  reservations : List Reservation
  deriving DecidableEq, Repr

/-! ### The scan -/

/-- A call of `PciAllocateBusNumber`, recorded. -/
def ScanState.allocate (st : ScanState) (cfg : ScanConfig) (startBusNumber requested : ℕ) :
    Except EfiStatus (ℕ × ScanState) := do
  let nextBusNumber ←
    pciAllocateBusNumber cfg.busNumberRanges startBusNumber (requested % 2 ^ 8)
  return (nextBusNumber,
    { st with reservations := ⟨startBusNumber, requested⟩ :: st.reservations })

/-- The padding of a hot-plug bus, read when hot plug is supported. -/
def resourcePadding (cfg : ScanConfig) :
    Option (Except EfiStatus HotPlugPadding) → Except EfiStatus (Option HotPlugPadding)
  | none => .ok none
  | some padding =>
    if cfg.pcdPciBusHotplugDeviceSupport && cfg.gPciHotPlugInit then padding.map some else .ok none

/-- Padding a hot-plug bus: in the root bridge, or below the bridge itself. -/
def padBusRange (cfg : ScanConfig) (secondBus : ℕ) (st : ScanState) :
    Option HotPlugPadding → Except EfiStatus ScanState
  | none => .ok st
  | some padding =>
    if padding.paddingPciRootBridge && padding.enabled && padding.initialized then
      .ok { st with
        paddedBusRange := (padding.busRange % 2 ^ 8 + st.paddedBusRange) % 2 ^ 8 }
    else do
      let (paddedSubBus, st) ← st.allocate cfg secondBus padding.busRange
      return { st with subBusNumber := max paddedSubBus st.subBusNumber }

/-- The buses of the virtual functions of a device: only what the functions of the device visited
before (`tempReservedBusNum`) have not reserved. -/
def reserveSrIov (cfg : ScanConfig) (st : ScanState) (tempReservedBusNum : ℕ) :
    Option ℕ → Except EfiStatus (ScanState × ℕ)
  | none => .ok (st, tempReservedBusNum)
  | some reservedBusNum =>
    if cfg.pcdSrIovSupport && decide (tempReservedBusNum < reservedBusNum) then do
      let (next, st) ← st.allocate cfg st.subBusNumber (reservedBusNum - tempReservedBusNum)
      return ({ st with subBusNumber := next }, reservedBusNum)
    else .ok (st, tempReservedBusNum)

/-- The functions of a device that the inner loop visits. -/
def functionsToVisit (device : Fin 8 → PciFunction) : List (Fin 8) :=
  if (device 0).present then
    if (device 0).isMultiFunc then List.finRange 8 else [0]
  else []

/-- The two loops of `PciScanBus` over the functions `bus`, with the body `visit`. -/
def scanLoops (bus : PciBus)
    (visit : Fin 32 → Fin 8 → ScanState × ℕ → Except EfiStatus (ScanState × ℕ))
    (st : ScanState) : Except EfiStatus ScanState :=
  (List.finRange 32).foldlM (fun st device ↦
    Prod.fst <$> (functionsToVisit (bus device)).foldlM (fun s func ↦ visit device func s) (st, 0))
    st

/-- What the body of the loops does with a bridge on the bus `startBusNumber`; `scanBehind` scans the
bus behind it. -/
def scanBridge (cfg : ScanConfig) (hotPlugBus : Option (Except EfiStatus HotPlugPadding))
    (startBusNumber : ℕ) (scanBehind : ℕ → ScanState → Except EfiStatus ScanState)
    (st : ScanState) : Except EfiStatus ScanState := do
  let padding ← resourcePadding cfg hotPlugBus
  let (secondBus, opened) ← st.allocate cfg st.subBusNumber 1
  let scanned ← scanBehind secondBus { opened with subBusNumber := secondBus, bridges := .nil }
  let padded ← padBusRange cfg secondBus scanned padding
  return { padded with
    bridges := .cons ⟨startBusNumber, secondBus, padded.subBusNumber⟩ scanned.bridges st.bridges }

/-- The body of the loops of `PciScanBus`, for a function on the bus `startBusNumber`. The second
component of the state is `TempReservedBusNum`. Nothing is scanned behind a CardBus bridge. -/
def scanFunction (cfg : ScanConfig) :
    PciFunction → ℕ → ScanState × ℕ → Except EfiStatus (ScanState × ℕ)
  | .absent, _, s => .ok s
  | .device _ reservedBusNum, _, s => reserveSrIov cfg s.1 s.2 reservedBusNum
  | .cardBusBridge _ hotPlugBus, startBusNumber, s =>
    (·, s.2) <$> scanBridge cfg hotPlugBus startBusNumber (fun _ st ↦ .ok st) s.1
  | .pciBridge _ hotPlugBus secondary, startBusNumber, s =>
    (·, s.2) <$> scanBridge cfg hotPlugBus startBusNumber
      (fun secondBus ↦ scanLoops secondary fun device func ↦
        scanFunction cfg (secondary device func) secondBus) s.1

/-- `PciScanBus`, on the bus below a root bridge. -/
def pciScanBus (cfg : ScanConfig) (bus : PciBus) (startBusNumber subBusNumber paddedBusRange : ℕ) :
    Except EfiStatus ScanState :=
  scanLoops bus (fun device func ↦ scanFunction cfg (bus device func) startBusNumber)
    ⟨subBusNumber, paddedBusRange, .nil, []⟩

/-! ### What a step of the scan does -/

section Steps

variable {cfg : ScanConfig} {st st' : ScanState}

theorem allocate_eq_ok {start requested t : ℕ} :
    st.allocate cfg start requested = .ok (t, st') ↔
      pciAllocateBusNumber cfg.busNumberRanges start (requested % 2 ^ 8) = .ok t ∧
        st' = { st with reservations := ⟨start, requested⟩ :: st.reservations } := by
  rw [ScanState.allocate, bind_eq_ok]
  constructor
  · rintro ⟨t', ht, h⟩
    cases h
    exact ⟨ht, rfl⟩
  · rintro ⟨ht, rfl⟩
    exact ⟨t, ht, rfl⟩

/-- Padding in the root bridge leaves the bus numbers alone. Padding below the bridge reserves from
its secondary bus number on, and the larger number counts. -/
theorem padBusRange_cases {secondBus : ℕ} {padding : Option HotPlugPadding}
    (h : padBusRange cfg secondBus st padding = .ok st') :
    (∃ n, st' = { st with paddedBusRange := n }) ∨
      ∃ t requested, pciAllocateBusNumber cfg.busNumberRanges secondBus (requested % 2 ^ 8) = .ok t ∧
        st' = { st with
          subBusNumber := max t st.subBusNumber
          reservations := ⟨secondBus, requested⟩ :: st.reservations } := by
  cases padding with
  | none =>
    cases h
    exact .inl ⟨_, rfl⟩
  | some padding =>
    rw [padBusRange] at h
    split at h
    · cases h
      exact .inl ⟨_, rfl⟩
    · obtain ⟨⟨t, st₁⟩, halloc, hst⟩ := bind_eq_ok.1 h
      obtain ⟨ht, rfl⟩ := allocate_eq_ok.1 halloc
      cases hst
      exact .inr ⟨t, _, ht, rfl⟩

/-- A device reserves nothing, or some buses from the last bus number on. -/
theorem reserveSrIov_cases {temp : ℕ} {reservedBusNum : Option ℕ} {s' : ScanState × ℕ}
    (h : reserveSrIov cfg st temp reservedBusNum = .ok s') :
    s'.1 = st ∨
      ∃ t requested,
        pciAllocateBusNumber cfg.busNumberRanges st.subBusNumber (requested % 2 ^ 8) = .ok t ∧
        s'.1 = { st with
          subBusNumber := t
          reservations := ⟨st.subBusNumber, requested⟩ :: st.reservations } := by
  cases reservedBusNum with
  | none =>
    cases h
    exact .inl rfl
  | some reservedBusNum =>
    rw [reserveSrIov] at h
    split at h
    · obtain ⟨⟨t, st₁⟩, halloc, hst⟩ := bind_eq_ok.1 h
      obtain ⟨ht, rfl⟩ := allocate_eq_ok.1 halloc
      cases hst
      exact .inr ⟨t, _, ht, rfl⟩
    · cases h
      exact .inl rfl

/-- A bridge reserves one bus, has the bus behind it scanned from there, and is padded. -/
theorem scanBridge_cases {hotPlugBus : Option (Except EfiStatus HotPlugPadding)} {bus : ℕ}
    {scanBehind : ℕ → ScanState → Except EfiStatus ScanState}
    (h : scanBridge cfg hotPlugBus bus scanBehind st = .ok st') :
    ∃ secondBus scanned padded padding,
      pciAllocateBusNumber cfg.busNumberRanges st.subBusNumber 1 = .ok secondBus ∧
      scanBehind secondBus
        { st with
          subBusNumber := secondBus
          bridges := .nil
          reservations := ⟨st.subBusNumber, 1⟩ :: st.reservations } = .ok scanned ∧
      padBusRange cfg secondBus scanned padding = .ok padded ∧
      st' = { padded with
        bridges := .cons ⟨bus, secondBus, padded.subBusNumber⟩ scanned.bridges st.bridges } := by
  obtain ⟨padding, -, h⟩ := bind_eq_ok.1 h
  obtain ⟨⟨secondBus, opened⟩, halloc, h⟩ := bind_eq_ok.1 h
  obtain ⟨hsecond, rfl⟩ := allocate_eq_ok.1 halloc
  obtain ⟨scanned, hscanned, h⟩ := bind_eq_ok.1 h
  obtain ⟨padded, hpadded, h⟩ := bind_eq_ok.1 h
  cases h
  exact ⟨secondBus, scanned, padded, padding, hsecond, hscanned, hpadded, rfl⟩

/-- The rule for the loops of the scan. -/
theorem scanLoops_invariant {P : ScanState → Prop} {bus : PciBus}
    {visit : Fin 32 → Fin 8 → ScanState × ℕ → Except EfiStatus (ScanState × ℕ)}
    (hvisit : ∀ device func s s', visit device func s = .ok s' → P s.1 → P s'.1)
    (hst : P st) (h : scanLoops bus visit st = .ok st') : P st' := by
  refine foldlM_invariant (fun st device st' _ hst h ↦ ?_) hst h
  obtain ⟨s', hs', hfst⟩ := bind_eq_ok.1 h
  cases hfst
  exact foldlM_invariant (P := fun s : ScanState × ℕ ↦ P s.1)
    (fun s func s' _ hs h ↦ hvisit device func s s' h hs) hst hs'

section Reservations

variable {Q : List Reservation → Prop}
  (hQ : ∀ l r, Q l → InRanges cfg.busNumberRanges r.startBusNumber → Q (r :: l))
include hQ

theorem scanBridge_reservations {hotPlugBus : Option (Except EfiStatus HotPlugPadding)} {bus : ℕ}
    {scanBehind : ℕ → ScanState → Except EfiStatus ScanState}
    (hbehind : ∀ secondBus st st', scanBehind secondBus st = .ok st' → Q st.reservations →
      Q st'.reservations)
    (hst : Q st.reservations) (h : scanBridge cfg hotPlugBus bus scanBehind st = .ok st') :
    Q st'.reservations := by
  obtain ⟨secondBus, scanned, padded, padding, hsecond, hscanned, hpadded, rfl⟩ :=
    scanBridge_cases h
  have hopen := hbehind _ _ _ hscanned (hQ _ _ hst (inRanges_of_pciAllocateBusNumber hsecond))
  obtain ⟨n, rfl⟩ | ⟨t, requested, ht, rfl⟩ := padBusRange_cases hpadded
  · exact hopen
  · exact hQ _ _ hopen (inRanges_of_pciAllocateBusNumber ht)

/-- The rule for what holds of the reservations. -/
theorem scanFunction_reservations {f : PciFunction} {bus : ℕ} {s s' : ScanState × ℕ}
    (hs : Q s.1.reservations) (h : scanFunction cfg f bus s = .ok s') : Q s'.1.reservations := by
  induction f generalizing bus s s' with
  | absent =>
    cases h
    exact hs
  | device _ reservedBusNum =>
    obtain hsame | ⟨t, requested, ht, hnext⟩ := reserveSrIov_cases h
    · rw [hsame]
      exact hs
    · rw [hnext]
      exact hQ _ _ hs (inRanges_of_pciAllocateBusNumber ht)
  | cardBusBridge _ hotPlugBus =>
    obtain ⟨st', hst', hpair⟩ := bind_eq_ok.1 h
    cases hpair
    refine scanBridge_reservations hQ (fun _ st st' h hst ↦ ?_) hs hst'
    cases h
    exact hst
  | pciBridge _ hotPlugBus secondary ih =>
    obtain ⟨st', hst', hpair⟩ := bind_eq_ok.1 h
    cases hpair
    refine scanBridge_reservations hQ (fun secondBus st st' h hst ↦ ?_) hs hst'
    exact scanLoops_invariant (P := fun st ↦ Q st.reservations)
      (fun device func s s' h hs ↦ ih device func hs h) hst h

end Reservations

end Steps

end PurleyFirmware.Pci
