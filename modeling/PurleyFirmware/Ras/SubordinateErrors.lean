import PurleyFirmware.Foundation.CountedSearch
import PurleyFirmware.Ras.PcieDeviceErrors

/-!
# Errors behind a bridge

`PciErrLibIsSubordinateDeviceError` asks every function on the buses from the secondary to the
subordinate bus of a bridge whether it reports an error. Its three loops count in bytes. Where the
subordinate bus is 0xFF the outer loop has no end: after bus 0xFF comes bus 0, which is not behind
the bridge, and if no function of the socket reports an error the handler does not return.

For a bridge behind which something reports an error this makes no difference, as a search ends at
its first hit (`searchesSubordinates_iff`).
-/

namespace PurleyFirmware.Ras

/-- `PCI_BRIDGE_SECONDARY_BUS_REGISTER_OFFSET`. -/
def pciBridgeSecondaryBusRegisterOffset : ℕ := 0x19

/-- `PCI_BRIDGE_SUBORDINATE_BUS_REGISTER_OFFSET`. -/
def pciBridgeSubordinateBusRegisterOffset : ℕ := 0x1A

/-- `PCI_MAX_DEVICE`. -/
def pciMaxDevice : BitVec 8 := 31

/-- `PCI_MAX_FUNC`. -/
def pciMaxFunc : BitVec 8 := 7

section Code

variable (K : PcieDefinitions) (mmio : ConfigReads) (pcieAerCorrErrBitMap : BitVec 32)

/-- The body of the loops of `PciErrLibIsSubordinateDeviceError`: the function is present and
reports an error. -/
def reportsError (f : PciLocation) : Bool :=
  if pciErrLibIsDevicePresent mmio f then
    if pciErrLibIsPcieDevice mmio f then
      pciErrLibIsFatalPcieDeviceError K mmio f || pciErrLibIsNonfatalPcieDeviceError K mmio f ||
        pciErrLibIsCorrectablePcieDeviceError K mmio f pcieAerCorrErrBitMap
    else pciErrLibIsPciDeviceError mmio f
  else false

/-- The loop over the functions of a device. -/
def searchFunctions (fuel : ℕ) (socket bus device : BitVec 8) : Option Bool :=
  searchUpTo pciMaxFunc
    (fun function ↦ some (reportsError K mmio pcieAerCorrErrBitMap ⟨socket, bus, device, function⟩))
    fuel 0

/-- The loop over the devices of a bus. -/
def searchDevices (fuel : ℕ) (socket bus : BitVec 8) : Option Bool :=
  searchUpTo pciMaxDevice (searchFunctions K mmio pcieAerCorrErrBitMap fuel socket bus) fuel 0

/-- `PciErrLibIsSubordinateDeviceError`, with a bound on the rounds of each of its loops. -/
def pciErrLibIsSubordinateDeviceError (fuel : ℕ) (f : PciLocation) : Option Bool :=
  if pciErrLibIsPciBridgeDevice mmio f then
    let secondaryBusNumber := mmio.read8 f pciBridgeSecondaryBusRegisterOffset
    let subordinateBusNumber := mmio.read8 f pciBridgeSubordinateBusRegisterOffset
    if secondaryBusNumber ≠ 0 ∧ subordinateBusNumber ≠ 0 then
      searchUpTo subordinateBusNumber (searchDevices K mmio pcieAerCorrErrBitMap fuel f.socket) fuel
        secondaryBusNumber
    else some false
  else some false

/-- A function of the socket on a bus between the secondary and the subordinate bus of the
bridge. -/
structure IsBehind (bridge f : PciLocation) : Prop where
  socket : f.socket = bridge.socket
  secondary : mmio.read8 bridge pciBridgeSecondaryBusRegisterOffset ≤ f.bus
  subordinate : f.bus ≤ mmio.read8 bridge pciBridgeSubordinateBusRegisterOffset
  device : f.device ≤ pciMaxDevice
  function : f.function ≤ pciMaxFunc

/-- **What the search owes**: it ends, and it says whether a function behind the bridge reports an
error. -/
structure SearchesSubordinates (bridge : PciLocation) : Prop where
  ends : ∃ fuel found, pciErrLibIsSubordinateDeviceError K mmio pcieAerCorrErrBitMap fuel bridge
    = some found
  found_iff : ∀ fuel found,
    pciErrLibIsSubordinateDeviceError K mmio pcieAerCorrErrBitMap fuel bridge = some found →
      (found = true ↔
        ∃ f, IsBehind mmio bridge f ∧ reportsError K mmio pcieAerCorrErrBitMap f = true)

end Code

variable {K : PcieDefinitions} {mmio : ConfigReads} {pcieAerCorrErrBitMap : BitVec 32} {fuel : ℕ}
  {socket bus device : BitVec 8}

/-! ### The loops over a bus -/

theorem isSome_searchFunctions (hfuel : 2 ^ 8 < fuel) (socket bus device : BitVec 8) :
    (searchFunctions K mmio pcieAerCorrErrBitMap fuel socket bus device).isSome = true :=
  isSome_searchUpTo (fun _ ↦ rfl) (.inl (by decide)) (by omega)

theorem isSome_searchDevices (hfuel : 2 ^ 8 < fuel) (socket bus : BitVec 8) :
    (searchDevices K mmio pcieAerCorrErrBitMap fuel socket bus).isSome = true :=
  isSome_searchUpTo (isSome_searchFunctions hfuel socket bus) (.inl (by decide)) (by omega)

/-- An error found on a bus is there. -/
theorem exists_of_searchDevices_true
    (h : searchDevices K mmio pcieAerCorrErrBitMap fuel socket bus = some true) :
    ∃ device function, device ≤ pciMaxDevice ∧ function ≤ pciMaxFunc ∧
      reportsError K mmio pcieAerCorrErrBitMap ⟨socket, bus, device, function⟩ = true := by
  obtain ⟨device, -, hdevice, hfound⟩ := exists_of_searchUpTo_true (by decide) h
  obtain ⟨function, -, hfunction, hreports⟩ := exists_of_searchUpTo_true (by decide) hfound
  exact ⟨device, function, hdevice, hfunction, Option.some.inj hreports⟩

/-- On a bus where none was found there is no error. -/
theorem not_reportsError_of_searchDevices_false
    (h : searchDevices K mmio pcieAerCorrErrBitMap fuel socket bus = some false)
    {f : PciLocation} (hsocket : f.socket = socket) (hbus : f.bus = bus)
    (hdevice : f.device ≤ pciMaxDevice) (hfunction : f.function ≤ pciMaxFunc) :
    reportsError K mmio pcieAerCorrErrBitMap f = false := by
  have hzero : ∀ i : BitVec 8, 0 ≤ i := fun i ↦ Nat.zero_le _
  have hfunctions := forall_of_searchUpTo_false h f.device (hzero _) hdevice
  have hreports := forall_of_searchUpTo_false hfunctions f.function (hzero _) hfunction
  subst hsocket hbus
  exact Option.some.inj hreports

/-! ### The search -/

/-- For a bridge with bus numbers the function is its loops. -/
theorem pciErrLibIsSubordinateDeviceError_eq {bridge : PciLocation}
    (hbridge : pciErrLibIsPciBridgeDevice mmio bridge = true)
    (hsecondary : mmio.read8 bridge pciBridgeSecondaryBusRegisterOffset ≠ 0)
    (hsubordinate : mmio.read8 bridge pciBridgeSubordinateBusRegisterOffset ≠ 0) :
    pciErrLibIsSubordinateDeviceError K mmio pcieAerCorrErrBitMap fuel bridge =
      searchUpTo (mmio.read8 bridge pciBridgeSubordinateBusRegisterOffset)
        (searchDevices K mmio pcieAerCorrErrBitMap fuel bridge.socket) fuel
        (mmio.read8 bridge pciBridgeSecondaryBusRegisterOffset) := by
  rw [pciErrLibIsSubordinateDeviceError, if_pos hbridge]
  exact if_pos ⟨hsecondary, hsubordinate⟩

/-- **The search behind a bridge** is right exactly if the subordinate bus is not 0xFF, or something
behind the bridge reports an error. -/
theorem searchesSubordinates_iff {bridge : PciLocation}
    (hbridge : pciErrLibIsPciBridgeDevice mmio bridge = true)
    (hsecondary : mmio.read8 bridge pciBridgeSecondaryBusRegisterOffset ≠ 0)
    (hsubordinate : mmio.read8 bridge pciBridgeSubordinateBusRegisterOffset ≠ 0) :
    SearchesSubordinates K mmio pcieAerCorrErrBitMap bridge ↔
      mmio.read8 bridge pciBridgeSubordinateBusRegisterOffset ≠ 0xFF ∨
        ∃ f, IsBehind mmio bridge f ∧ reportsError K mmio pcieAerCorrErrBitMap f = true := by
  have hcode : ∀ fuel, pciErrLibIsSubordinateDeviceError K mmio pcieAerCorrErrBitMap fuel bridge =
      searchUpTo (mmio.read8 bridge pciBridgeSubordinateBusRegisterOffset)
        (searchDevices K mmio pcieAerCorrErrBitMap fuel bridge.socket) fuel
        (mmio.read8 bridge pciBridgeSecondaryBusRegisterOffset) := fun _ ↦
    pciErrLibIsSubordinateDeviceError_eq hbridge hsecondary hsubordinate
  constructor
  · intro hsearch
    by_contra hnot
    obtain ⟨hmax, hnone⟩ := not_or.1 hnot
    obtain ⟨fuel, found, hrun⟩ := hsearch.ends
    have hfound := hsearch.found_iff fuel found hrun
    cases found with
    | true => exact hnone (hfound.1 rfl)
    | false =>
      rw [hcode, not_not.1 hmax] at hrun
      exact searchUpTo_allOnes_ne_false hrun
  · intro hends
    -- a function behind the bridge that reports an error is met by the loops over its bus
    have hmeets : ∀ fuel f, 2 ^ 8 < fuel → IsBehind mmio bridge f →
        reportsError K mmio pcieAerCorrErrBitMap f = true →
        searchDevices K mmio pcieAerCorrErrBitMap fuel bridge.socket f.bus = some true := by
      intro fuel f hfuel hbehind hreports
      have hsome : (searchDevices K mmio pcieAerCorrErrBitMap fuel bridge.socket f.bus).isSome :=
        isSome_searchDevices hfuel bridge.socket f.bus
      obtain ⟨found, hrun⟩ := Option.isSome_iff_exists.1 hsome
      cases found with
      | true => exact hrun
      | false =>
        have hno := not_reportsError_of_searchDevices_false hrun hbehind.socket rfl hbehind.device
          hbehind.function
        rw [hreports] at hno
        cases hno
    refine ⟨?_, fun fuel found hrun ↦ ?_⟩
    · have hsome : (searchUpTo (mmio.read8 bridge pciBridgeSubordinateBusRegisterOffset)
          (searchDevices K mmio pcieAerCorrErrBitMap 257 bridge.socket) 257
          (mmio.read8 bridge pciBridgeSecondaryBusRegisterOffset)).isSome = true := by
        refine isSome_searchUpTo (isSome_searchDevices (by omega) bridge.socket) ?_ (by omega)
        refine hends.imp id fun ⟨f, hbehind, hreports⟩ ↦ ?_
        exact ⟨f.bus, hbehind.secondary, hbehind.subordinate,
          hmeets 257 f (by omega) hbehind hreports⟩
      obtain ⟨found, hfound⟩ := Option.isSome_iff_exists.1 hsome
      exact ⟨257, found, (hcode 257).trans hfound⟩
    · rw [hcode] at hrun
      cases found with
      | true =>
        refine iff_of_true rfl ?_
        rcases hends with hmax | hexists
        · obtain ⟨bus, hfirst, hlast, hbus⟩ := exists_of_searchUpTo_true hmax hrun
          obtain ⟨device, function, hdevice, hfunction, hreports⟩ :=
            exists_of_searchDevices_true hbus
          exact ⟨⟨bridge.socket, bus, device, function⟩,
            ⟨rfl, hfirst, hlast, hdevice, hfunction⟩, hreports⟩
        · exact hexists
      | false =>
        refine iff_of_false Bool.false_ne_true ?_
        rintro ⟨f, hbehind, hreports⟩
        have hbus := forall_of_searchUpTo_false hrun f.bus hbehind.secondary hbehind.subordinate
        have hno := not_reportsError_of_searchDevices_false hbus hbehind.socket rfl hbehind.device
          hbehind.function
        rw [hreports] at hno
        cases hno

/-! ### A bridge to bus 0xFF -/

/-- Any numbers for the names of the chipset package. -/
def somePcieDefinitions : PcieDefinitions where
  dmiBusNum := 0
  dmiDevNum := 0
  dmiFuncNum := 0
  capabilityOffset := 0x02
  deviceControlOffset := 0x08
  deviceStatusOffset := 0x0A
  rootControlOffset := 0x1C
  controlCorErrEn := 0x01
  controlNfErrEn := 0x02
  controlFatErrEn := 0x04
  controlUnsupReqEn := 0x08
  statusNfErr := 0x02
  statusFatErr := 0x04
  statusUnsupReq := 0x08
  rootControlCorErrEn := 0x01
  dptRootPort := 0x40

/-- Every function of bus 0 is a bridge from bus 0x80 to a subordinate bus; there is nothing on the
other buses. -/
def bridgesTo (subordinate : BitVec 8) : ConfigReads := fun f register ↦
  if f.bus = 0 then
    if register = 0x0B then 0x06
    else if register = 0x0A then 0x04
    else if register = 0x19 then 0x80
    else if register = 0x1A then subordinate
    else 0
  else 0xFF

theorem not_reportsError_bridgesTo (subordinate : BitVec 8) (f : PciLocation) :
    reportsError somePcieDefinitions (bridgesTo subordinate) 0 f = false := by
  by_cases hbus : f.bus = 0
  · have hstatus : (bridgesTo subordinate).read16 f pciPrimaryStatusOffset = 0 := by
      simp [ConfigReads.read16, bridgesTo, hbus, pciPrimaryStatusOffset]
    have hcapabilities : pciErrLibGetCapabilitiesOffset (bridgesTo subordinate) f
        efiPciCapabilityIdPciexp = 0 := by
      rw [pciErrLibGetCapabilitiesOffset, hstatus]
      simp
    have hpcie : pciErrLibIsPcieDevice (bridgesTo subordinate) f = false := by
      simp [pciErrLibIsPcieDevice, hcapabilities]
    have hpci : pciErrLibIsPciDeviceError (bridgesTo subordinate) f = false := by
      simp [pciErrLibIsPciDeviceError, hstatus]
    simp [reportsError, hpcie, hpci]
  · have hvendor : (bridgesTo subordinate).read16 f pciVendorIdOffset = 0xFFFF := by
      rw [ConfigReads.read16, bridgesTo, bridgesTo, if_neg hbus, if_neg hbus]
      decide
    simp [reportsError, pciErrLibIsDevicePresent, hvendor]

theorem not_searchesSubordinates_bridgesTo :
    ¬ SearchesSubordinates somePcieDefinitions (bridgesTo 0xFF) 0 ⟨0, 0, 1, 0⟩ := by
  rintro ⟨⟨fuel, found, hrun⟩, -⟩
  rw [pciErrLibIsSubordinateDeviceError_eq (by decide) (by decide) (by decide)] at hrun
  cases found with
  | true =>
    obtain ⟨bus, hbus⟩ := exists_hit_of_searchUpTo hrun
    obtain ⟨device, function, -, -, hreports⟩ := exists_of_searchDevices_true hbus
    rw [not_reportsError_bridgesTo] at hreports
    cases hreports
  | false => exact searchUpTo_allOnes_ne_false hrun

theorem searchesSubordinates_iff_bridgesTo :
    SearchesSubordinates somePcieDefinitions (bridgesTo 0x90) 0 ⟨0, 0, 1, 0⟩ ↔
      (bridgesTo 0x90).read8 ⟨0, 0, 1, 0⟩ pciBridgeSubordinateBusRegisterOffset ≠ 0xFF ∨
        ∃ f, IsBehind (bridgesTo 0x90) ⟨0, 0, 1, 0⟩ f ∧
          reportsError somePcieDefinitions (bridgesTo 0x90) 0 f = true :=
  searchesSubordinates_iff (by decide) (by decide) (by decide)

end PurleyFirmware.Ras
