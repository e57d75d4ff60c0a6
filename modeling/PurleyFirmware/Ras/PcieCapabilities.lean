import PurleyFirmware.Foundation.BoundedWalk
import Mathlib.Data.BitVec

/-!
# Looking up capabilities in the PCIe error handler

`PciErrLibGetCapabilitiesOffset` and `PciErrLibGetExtendedCapabilitiesOffset` walk a list of
capabilities with a pointer that is also what they return. A pointer that is badly formed is made
zero, which stands for "not found"; but where the limit on the items is reached the pointer is left
as it is. So on a list that is longer than its register space, which a cyclic one is, the functions
return an offset that nothing was looked for at, and the callers read and write registers there.

The identifier of an extended capability has sixteen bits, and twelve of them are compared.

The two lookups are walks in the sense of `PointerWalk`, and `capabilityLookups_sound_iff` is its
`sound_iff` for both. A list of extended capabilities is there only for a PCI Express function, and
this is found out by a lookup of the first kind.
-/

namespace PurleyFirmware.Ras

/-! ### Configuration space -/

/-- The arguments of `MmPciAddress` but the register. -/
structure PciLocation where
  socket : BitVec 8
  bus : BitVec 8
  device : BitVec 8
  function : BitVec 8
  deriving DecidableEq

/-- What the configuration registers read as, byte by byte. Different functions and registers have
different addresses. -/
abbrev ConfigReads := PciLocation → ℕ → BitVec 8

namespace ConfigReads

variable (mmio : ConfigReads) (f : PciLocation) (register : ℕ)

/-- `MmioRead8 (MmPciAddress (..))`. -/
def read8 : BitVec 8 := mmio f register

/-- `MmioRead16 (MmPciAddress (..))`. -/
def read16 : BitVec 16 := mmio f (register + 1) ++ mmio f register

/-- `MmioRead32 (MmPciAddress (..))`. -/
def read32 : BitVec 32 := mmio.read16 f (register + 2) ++ mmio.read16 f register

end ConfigReads

/-- `PCI_PRIMARY_STATUS_OFFSET`. -/
def pciPrimaryStatusOffset : ℕ := 0x06

/-- `EFI_PCI_CAPABILITY_PTR`. -/
def efiPciCapabilityPtr : ℕ := 0x34

/-- `EFI_PCI_STATUS_CAPABILITY`. -/
def efiPciStatusCapability : BitVec 16 := 0x0010

/-- `EFI_PCI_CAPABILITY_ID_PCIEXP`. -/
def efiPciCapabilityIdPciexp : BitVec 8 := 0x10

/-- `MAX_CAPABILITIES`. -/
def maxCapabilities : ℕ := (0x100 - 0x40) / 4

/-- `MAX_EX_CAPABILITIES`. -/
def maxExCapabilities : ℕ := (0x1000 - 0x100) / 4

/-- `PCIE_ENHANCED_CAPABILITY_PTR`. -/
def pcieEnhancedCapabilityPtr : BitVec 16 := 0x0100

/-- `PCIE_EXT_CAP_HEADER_AERC`. -/
def pcieExtCapHeaderAerc : BitVec 16 := 0x0001

/-- `PCIE_EXT_CAP_HEADER_VSEC`. -/
def pcieExtCapHeaderVsec : BitVec 16 := 0x000B

/-- `PCIE_EXT_VENDOR_SPECIFIC_HEADER_OFFSET`. -/
def pcieExtVendorSpecificHeaderOffset : ℕ := 0x4

/-! ### The lookups -/

section Code

variable (mmio : ConfigReads) (f : PciLocation)

/-- The loop of `PciErrLibGetCapabilitiesOffset`: what it tests of `CapabilityOffset`, and the next
one. -/
def capabilityWalk (cap : BitVec 8) : PointerWalk (BitVec 8) where
  valid capabilityOffset := !(capabilityOffset &&& 3 != 0 || capabilityOffset < 0x40)
  hit capabilityOffset := (mmio.read16 f capabilityOffset.toNat &&& 0xFF).setWidth 8 == cap
  next capabilityOffset := (mmio.read16 f capabilityOffset.toNat >>> 8).setWidth 8
  stop := 0

/-- `PciErrLibGetCapabilitiesOffset`. -/
def pciErrLibGetCapabilitiesOffset (cap : BitVec 8) : BitVec 8 :=
  if mmio.read16 f pciPrimaryStatusOffset &&& efiPciStatusCapability ≠ 0 then
    (capabilityWalk mmio f cap).run maxCapabilities (mmio.read8 f efiPciCapabilityPtr)
  else 0

/-- The loop of `PciErrLibGetExtendedCapabilitiesOffset`. -/
def extendedWalk (extCapabilityId vendorSpecificId : BitVec 16) : PointerWalk (BitVec 16) where
  valid exCapOffset := !(exCapOffset &&& 3 != 0 || exCapOffset < 0x100)
  hit exCapOffset :=
    mmio.read32 f exCapOffset.toNat &&& 0xFFF == extCapabilityId.setWidth 32 &&
      (extCapabilityId != pcieExtCapHeaderVsec ||
        mmio.read16 f (exCapOffset.toNat + pcieExtVendorSpecificHeaderOffset) == vendorSpecificId)
  next exCapOffset := (mmio.read32 f exCapOffset.toNat >>> 20).setWidth 16
  stop := 0

/-- `PciErrLibGetExtendedCapabilitiesOffset`, for the numbers of the DMI device. -/
def pciErrLibGetExtendedCapabilitiesOffset (dmiBusNum dmiDevNum : BitVec 8)
    (extCapabilityId vendorSpecificId : BitVec 16) : BitVec 16 :=
  if f.bus = dmiBusNum ∧ f.device = dmiDevNum ∧ extCapabilityId = pcieExtCapHeaderAerc then 0x148
  else if pciErrLibGetCapabilitiesOffset mmio f efiPciCapabilityIdPciexp ≠ 0 then
    (extendedWalk mmio f extCapabilityId vendorSpecificId).run maxExCapabilities
      pcieEnhancedCapabilityPtr
  else 0

/-! ### What is looked for -/

/-- The header of a capability has the identifier. -/
def CarriesId (cap : BitVec 8) (offset : BitVec 8) : Prop := mmio f offset.toNat = cap

/-- The function has a capability list, and the capability is among its first well-formed links. -/
def HasCapability (cap : BitVec 8) : Prop :=
  mmio.read16 f pciPrimaryStatusOffset &&& efiPciStatusCapability ≠ 0 ∧
    (capabilityWalk mmio f cap).Occurs maxCapabilities (mmio.read8 f efiPciCapabilityPtr)
      (CarriesId mmio f cap)

/-- The header of an extended capability has the identifier, and the vendor's one if it is
vendor-specific. -/
def CarriesExtendedId (extCapabilityId vendorSpecificId offset : BitVec 16) : Prop :=
  mmio.read16 f offset.toNat = extCapabilityId ∧
    (extCapabilityId = pcieExtCapHeaderVsec →
      mmio.read16 f (offset.toNat + pcieExtVendorSpecificHeaderOffset) = vendorSpecificId)

/-- The function is a PCI Express one, and the extended capability is among the first well-formed
links of the list. -/
def HasExtendedCapability (extCapabilityId vendorSpecificId : BitVec 16) : Prop :=
  HasCapability mmio f efiPciCapabilityIdPciexp ∧
    (extendedWalk mmio f extCapabilityId vendorSpecificId).Occurs maxExCapabilities
      pcieEnhancedCapabilityPtr (CarriesExtendedId mmio f extCapabilityId vendorSpecificId)

/-- The capability list has no end among its first links, none of which is the capability. -/
def ListOverruns (cap : BitVec 8) : Prop :=
  mmio.read16 f pciPrimaryStatusOffset &&& efiPciStatusCapability ≠ 0 ∧
    (capabilityWalk mmio f cap).Overruns maxCapabilities (mmio.read8 f efiPciCapabilityPtr)

/-- When the extended lookup can be trusted: on the list of a PCI Express function its walk can, and
where only an overrun makes a function look like one, its walk meets no node that it takes for the
capability, and the end of the list. -/
structure ExtendedLookupSafe (extCapabilityId vendorSpecificId : BitVec 16) : Prop where
  pcie : HasCapability mmio f efiPciCapabilityIdPciexp →
    (extendedWalk mmio f extCapabilityId vendorSpecificId).Safe maxExCapabilities
      pcieEnhancedCapabilityPtr (CarriesExtendedId mmio f extCapabilityId vendorSpecificId)
  lookalike : ListOverruns mmio f efiPciCapabilityIdPciexp →
    (∀ k, ¬ (extendedWalk mmio f extCapabilityId vendorSpecificId).FirstHit maxExCapabilities
      pcieEnhancedCapabilityPtr k) ∧
    ¬ (extendedWalk mmio f extCapabilityId vendorSpecificId).Overruns maxExCapabilities
      pcieEnhancedCapabilityPtr

end Code

variable {mmio : ConfigReads} {f : PciLocation} {cap : BitVec 8}
  {extCapabilityId vendorSpecificId : BitVec 16}

/-! ### Capabilities -/

/-- The identifier is the low byte of the header. -/
theorem setWidth_read16_and (register : ℕ) :
    (mmio.read16 f register &&& 0xFF).setWidth 8 = mmio f register := by
  have hlow : (mmio.read16 f register).setWidth 8 = mmio f register := by
    rw [ConfigReads.read16, BitVec.setWidth_append, dif_pos le_rfl, BitVec.setWidth_eq]
  rw [BitVec.setWidth_and, hlow]
  exact BitVec.and_allOnes

/-- The code compares the identifier. -/
theorem carriesId_iff_hit (offset : BitVec 8) :
    CarriesId mmio f cap offset ↔ (capabilityWalk mmio f cap).hit offset = true := by
  rw [CarriesId, capabilityWalk, beq_iff_eq, setWidth_read16_and]

theorem capabilityWalk_valid_stop :
    (capabilityWalk mmio f cap).valid (capabilityWalk mmio f cap).stop = false := by
  simp [capabilityWalk]

/-- **The lookup of a capability** can be trusted exactly on the lists that it does not overrun. -/
theorem capabilityLookup_sound_iff :
    LookupSound (pciErrLibGetCapabilitiesOffset mmio f cap) 0 (CarriesId mmio f cap)
        (HasCapability mmio f cap) ↔ ¬ ListOverruns mmio f cap := by
  by_cases hlist : mmio.read16 f pciPrimaryStatusOffset &&& efiPciStatusCapability ≠ 0
  · rw [pciErrLibGetCapabilitiesOffset, if_pos hlist, HasCapability, ListOverruns,
      and_iff_right hlist, and_iff_right hlist]
    exact (PointerWalk.sound_iff capabilityWalk_valid_stop).trans
      (PointerWalk.safe_iff_not_overruns carriesId_iff_hit)
  · rw [pciErrLibGetCapabilitiesOffset, if_neg hlist]
    have hnone : ¬ HasCapability mmio f cap := fun h ↦ hlist h.1
    exact iff_of_true ⟨fun hne ↦ absurd rfl hne, iff_of_true rfl hnone⟩ fun h ↦ hlist h.1

/-- When the lookup returns an offset. -/
theorem pciErrLibGetCapabilitiesOffset_ne_zero_iff :
    pciErrLibGetCapabilitiesOffset mmio f cap ≠ 0 ↔
      HasCapability mmio f cap ∨ ListOverruns mmio f cap := by
  by_cases hover : ListOverruns mmio f cap
  · refine iff_of_true ?_ (.inr hover)
    rw [pciErrLibGetCapabilitiesOffset, if_pos hover.1, PointerWalk.run_of_overruns hover.2]
    exact hover.2.2
  · have hsound := capabilityLookup_sound_iff.2 hover
    rw [or_iff_left hover, Ne, hsound.stop_iff, not_not]

/-! ### Extended capabilities -/

theorem extendedWalk_valid_stop :
    (extendedWalk mmio f extCapabilityId vendorSpecificId).valid
      (extendedWalk mmio f extCapabilityId vendorSpecificId).stop = false := by
  simp [extendedWalk]

/-- **The lookup of an extended capability**, for any function but the DMI device. -/
theorem extendedLookup_sound_iff {dmiBusNum dmiDevNum : BitVec 8}
    (hdmi : ¬ (f.bus = dmiBusNum ∧ f.device = dmiDevNum)) :
    LookupSound
        (pciErrLibGetExtendedCapabilitiesOffset mmio f dmiBusNum dmiDevNum extCapabilityId
          vendorSpecificId) 0 (CarriesExtendedId mmio f extCapabilityId vendorSpecificId)
        (HasExtendedCapability mmio f extCapabilityId vendorSpecificId) ↔
      ExtendedLookupSafe mmio f extCapabilityId vendorSpecificId := by
  have hnotDmi : ¬ (f.bus = dmiBusNum ∧ f.device = dmiDevNum ∧
      extCapabilityId = pcieExtCapHeaderAerc) := fun h ↦ hdmi ⟨h.1, h.2.1⟩
  set W := extendedWalk mmio f extCapabilityId vendorSpecificId with hW
  have hstop : W.valid W.stop = false := extendedWalk_valid_stop
  rw [pciErrLibGetExtendedCapabilitiesOffset, if_neg hnotDmi]
  by_cases hpcie : HasCapability mmio f efiPciCapabilityIdPciexp
  · have hnotOver : ¬ ListOverruns mmio f efiPciCapabilityIdPciexp := by
      rintro ⟨-, hover⟩
      obtain ⟨k, hamong, hcarries⟩ := hpcie.2
      have hmiss := (hover.1 k hamong.1).2
      rw [(carriesId_iff_hit _).1 hcarries] at hmiss
      cases hmiss
    have hne := pciErrLibGetCapabilitiesOffset_ne_zero_iff.2 (.inl hpcie)
    rw [if_pos hne, HasExtendedCapability, and_iff_right hpcie]
    refine (PointerWalk.sound_iff hstop).trans ⟨fun hsafe ↦ ?_, fun hsafe ↦ hsafe.pcie hpcie⟩
    exact ⟨fun _ ↦ hsafe, fun hover ↦ absurd hover hnotOver⟩
  · have hnone : ¬ HasExtendedCapability mmio f extCapabilityId vendorSpecificId :=
      fun h ↦ hpcie h.1
    by_cases hover : ListOverruns mmio f efiPciCapabilityIdPciexp
    · have hne := pciErrLibGetCapabilitiesOffset_ne_zero_iff.2 (.inr hover)
      rw [if_pos hne]
      have hzero := PointerWalk.run_eq_stop_iff (n := maxExCapabilities)
        (p := pcieEnhancedCapabilityPtr) hstop
      constructor
      · intro hsound
        exact ⟨fun h ↦ absurd h hpcie, fun _ ↦ hzero.1 (hsound.stop_iff.2 hnone)⟩
      · intro hsafe
        have hrun := hzero.2 (hsafe.lookalike hover)
        exact ⟨fun hne ↦ absurd hrun hne, iff_of_true hrun hnone⟩
    · have heq : ¬ pciErrLibGetCapabilitiesOffset mmio f efiPciCapabilityIdPciexp ≠ 0 := fun hne ↦
        (pciErrLibGetCapabilitiesOffset_ne_zero_iff.1 hne).elim hpcie hover
      rw [if_neg heq]
      refine iff_of_true ⟨fun hne ↦ absurd rfl hne, iff_of_true rfl hnone⟩ ?_
      exact ⟨fun h ↦ absurd h hpcie, fun h ↦ absurd h hover⟩

/-! ### Both lookups -/

/-- **When the lookups can be trusted**, exactly. -/
theorem capabilityLookups_sound_iff {dmiBusNum dmiDevNum : BitVec 8}
    (hdmi : ¬ (f.bus = dmiBusNum ∧ f.device = dmiDevNum)) :
    (LookupSound (pciErrLibGetCapabilitiesOffset mmio f cap) 0 (CarriesId mmio f cap)
        (HasCapability mmio f cap) ↔ ¬ ListOverruns mmio f cap) ∧
      (LookupSound
        (pciErrLibGetExtendedCapabilitiesOffset mmio f dmiBusNum dmiDevNum extCapabilityId
          vendorSpecificId) 0 (CarriesExtendedId mmio f extCapabilityId vendorSpecificId)
        (HasExtendedCapability mmio f extCapabilityId vendorSpecificId) ↔
      ExtendedLookupSafe mmio f extCapabilityId vendorSpecificId) :=
  ⟨capabilityLookup_sound_iff, extendedLookup_sound_iff hdmi⟩

/-- A function whose only capability, with the identifier 5, points to itself. -/
def cyclicFunction : ConfigReads := fun _ register ↦
  if register = 0x06 then 0x10
  else if register = 0x34 ∨ register = 0x41 then 0x40
  else if register = 0x40 then 0x05
  else 0

theorem not_lookupSound_cyclicFunction :
    ¬ LookupSound (pciErrLibGetCapabilitiesOffset cyclicFunction ⟨0, 5, 0, 0⟩ 0x10) 0
        (CarriesId cyclicFunction ⟨0, 5, 0, 0⟩ 0x10)
        (HasCapability cyclicFunction ⟨0, 5, 0, 0⟩ 0x10) := fun hsound ↦ by
  have hresult : pciErrLibGetCapabilitiesOffset cyclicFunction ⟨0, 5, 0, 0⟩ 0x10 = 0x40 := by decide
  have hgenuine := hsound.genuine
  rw [hresult] at hgenuine
  exact absurd (hgenuine (by decide)) (by decide : ¬ (0x05 : BitVec 8) = 0x10)

theorem capabilityLookups_sound_iff_cyclicFunction :
    (LookupSound (pciErrLibGetCapabilitiesOffset cyclicFunction ⟨0, 5, 0, 0⟩ 0x05) 0
        (CarriesId cyclicFunction ⟨0, 5, 0, 0⟩ 0x05)
        (HasCapability cyclicFunction ⟨0, 5, 0, 0⟩ 0x05) ↔
          ¬ ListOverruns cyclicFunction ⟨0, 5, 0, 0⟩ 0x05) ∧
      (LookupSound
        (pciErrLibGetExtendedCapabilitiesOffset cyclicFunction ⟨0, 5, 0, 0⟩ 0 0 0x01 0xFF) 0
        (CarriesExtendedId cyclicFunction ⟨0, 5, 0, 0⟩ 0x01 0xFF)
        (HasExtendedCapability cyclicFunction ⟨0, 5, 0, 0⟩ 0x01 0xFF) ↔
      ExtendedLookupSafe cyclicFunction ⟨0, 5, 0, 0⟩ 0x01 0xFF) :=
  capabilityLookups_sound_iff (by decide)

end PurleyFirmware.Ras
