import PurleyFirmware.Ras.PcieCapabilities

/-!
# Errors of a PCI or PCIe function

The questions that the PCIe error handler asks of a function: whether it is there, whether it is a
bridge or a PCI Express function, and whether it reports an error of one of four kinds. They read
configuration registers and nothing else.

Where the registers of the PCI Express capability are, and what their bits are, is said in headers
of the chipset package; `PcieDefinitions` has these as fields.

Two of the questions, `pciErrLibIsFatalPcieDeviceError` and `pciErrLibIsCorrectablePcieDeviceError`,
look up the capability of the function with the same numbers on socket 0.
-/

namespace PurleyFirmware.Ras

/-- The names that the handler takes from the headers of the chipset package. -/
structure PcieDefinitions where
  /-- `DMI_BUS_NUM`. -/
  dmiBusNum : BitVec 8
  /-- `DMI_DEV_NUM`. -/
  dmiDevNum : BitVec 8
  /-- `DMI_FUNC_NUM`. -/
  dmiFuncNum : BitVec 8
  /-- `PCIE_CAPABILITY_OFFSET`. -/
  capabilityOffset : ℕ
  /-- `PCIE_DEVICE_CONTROL_OFFSET`. -/
  deviceControlOffset : ℕ
  /-- `PCIE_DEVICE_STATUS_OFFSET`. -/
  deviceStatusOffset : ℕ
  /-- `PCIE_ROOT_CONTROL_OFFSET`. -/
  rootControlOffset : ℕ
  /-- `B_PCIE_DEVICE_CONTROL_COR_ERR_EN`. -/
  controlCorErrEn : BitVec 16
  /-- `B_PCIE_DEVICE_CONTROL_NF_ERR_EN`. -/
  controlNfErrEn : BitVec 16
  /-- `B_PCIE_DEVICE_CONTROL_FAT_ERR_EN`. -/
  controlFatErrEn : BitVec 16
  /-- `B_PCIE_DEVICE_CONTROL_UNSUP_REQ_EN`. -/
  controlUnsupReqEn : BitVec 16
  /-- `B_PCIE_DEVICE_STATUS_NF_ERR`. -/
  statusNfErr : BitVec 16
  /-- `B_PCIE_DEVICE_STATUS_FAT_ERR`. -/
  statusFatErr : BitVec 16
  /-- `B_PCIE_DEVICE_STATUS_UNSUP_REQ`. -/
  statusUnsupReq : BitVec 16
  /-- `B_PCIE_ROOT_CONTROL_COR_ERR_EN`. -/
  rootControlCorErrEn : BitVec 16
  /-- `V_PCIE_CAPABILITY_DPT_ROOT_PORT`. -/
  dptRootPort : BitVec 16

/-! ### Registers -/

/-- `PCI_VENDOR_ID_OFFSET`. -/
def pciVendorIdOffset : ℕ := 0x00

/-- `PCI_COMMAND_OFFSET`. -/
def pciCommandOffset : ℕ := 0x04

/-- `PCI_REVISION_ID_OFFSET`. -/
def pciRevisionIdOffset : ℕ := 0x08

/-- `PCI_BRIDGE_STATUS_REGISTER_OFFSET`. -/
def pciBridgeStatusRegisterOffset : ℕ := 0x1E

/-- `EFI_PCI_COMMAND_SERR`. -/
def efiPciCommandSerr : BitVec 16 := 0x0100

/-- `EFI_PCI_STATUS_SIGNALED_SYSTEM_ERROR`. -/
def efiPciStatusSignaledSystemError : BitVec 16 := 0x4000

/-- `ErrorMap`: a parity error, a system error, a target abort, or a data parity error. -/
def errorMap : BitVec 16 := 0x8000 ||| efiPciStatusSignaledSystemError ||| 0x1000 ||| 0x0100

section Code

variable (K : PcieDefinitions) (mmio : ConfigReads) (f : PciLocation)

/-- The function is the DMI port of socket 0. -/
def PcieDefinitions.IsDmi : Prop :=
  f.socket = 0 ∧ f.bus = K.dmiBusNum ∧ f.device = K.dmiDevNum ∧ f.function = K.dmiFuncNum

instance : Decidable (K.IsDmi f) := inferInstanceAs (Decidable (_ ∧ _))

/-- `GET_DEVSTS_OFFSET`. -/
def getDevstsOffset : ℕ := if K.IsDmi f then 0x62 else K.deviceStatusOffset

/-- `GET_DEVCTL_OFFSET`. -/
def getDevctlOffset : ℕ := if K.IsDmi f then 0x60 else K.deviceControlOffset

/-! ### What the function is -/

/-- `PciErrLibIsDevicePresent`. -/
def pciErrLibIsDevicePresent : Bool := mmio.read16 f pciVendorIdOffset ≠ 0xFFFF

/-- `PciErrLibIsPciBridgeDevice`. -/
def pciErrLibIsPciBridgeDevice : Bool :=
  let data32 := mmio.read32 f pciRevisionIdOffset &&& 0xFFFFFF00
  data32 = 0x06040000 || data32 = 0x06040100

/-- `PciErrLibIsPcieDevice`. -/
def pciErrLibIsPcieDevice : Bool :=
  pciErrLibGetCapabilitiesOffset mmio f efiPciCapabilityIdPciexp ≠ 0

/-! ### Advanced error reporting -/

/-- `PCIE_ERROR_SECTION`, as far as `PcieGetAerErrors` always sets it. -/
structure AerErrors where
  uncerrsts : BitVec 32
  corerrsts : BitVec 32
  rperrsts : BitVec 32

/-- `PcieGetAerErrors`. -/
def pcieGetAerErrors : AerErrors :=
  let pciPrimaryStatus := mmio.read8 f pciPrimaryStatusOffset
  if pciPrimaryStatus.setWidth 16 &&& efiPciStatusCapability ≠ 0 then
    let offset := pciErrLibGetExtendedCapabilitiesOffset mmio f K.dmiBusNum K.dmiDevNum
      pcieExtCapHeaderAerc 0xFF
    if offset ≠ 0 then
      let capabilitiesOffset := pciErrLibGetCapabilitiesOffset mmio f efiPciCapabilityIdPciexp
      let pcieCapabilities := mmio.read16 f (capabilitiesOffset.toNat + K.capabilityOffset)
      { uncerrsts := mmio.read32 f (offset.toNat + 0x04)
        corerrsts := mmio.read32 f (offset.toNat + 0x10)
        rperrsts :=
          if pcieCapabilities &&& 0xF0 = K.dptRootPort then mmio.read32 f (offset.toNat + 0x30)
          else 0 }
    else ⟨0, 0, 0⟩
  else ⟨0, 0, 0⟩

/-! ### Errors -/

/-- `PciErrLibIsPciDeviceError`. -/
def pciErrLibIsPciDeviceError : Bool := mmio.read16 f pciPrimaryStatusOffset &&& errorMap ≠ 0

/-- `SERR` is enabled, and it was signalled. -/
def serrSignaled : Bool :=
  mmio.read16 f pciCommandOffset &&& efiPciCommandSerr ≠ 0 &&
    mmio.read16 f pciPrimaryStatusOffset &&& efiPciStatusSignaledSystemError ≠ 0

/-- `PciErrLibIsNonfatalPcieDeviceError`. -/
def pciErrLibIsNonfatalPcieDeviceError : Bool :=
  let capabilitiesOffset := pciErrLibGetCapabilitiesOffset mmio f efiPciCapabilityIdPciexp
  let deviceStatus := mmio.read16 f (capabilitiesOffset.toNat + getDevstsOffset K f)
  let deviceControl := mmio.read16 f (capabilitiesOffset.toNat + getDevctlOffset K f)
  if deviceStatus &&& K.statusNfErr ≠ 0 then
    serrSignaled mmio f ||
      (deviceStatus &&& K.statusUnsupReq = 0 && deviceControl &&& K.controlNfErrEn ≠ 0)
  else false

/-- `PciErrLibIsFatalPcieDeviceError`. -/
def pciErrLibIsFatalPcieDeviceError : Bool :=
  let capabilitiesOffset :=
    pciErrLibGetCapabilitiesOffset mmio { f with socket := 0 } efiPciCapabilityIdPciexp
  let deviceStatus := mmio.read16 f (capabilitiesOffset.toNat + getDevstsOffset K f)
  let deviceControl := mmio.read16 f (capabilitiesOffset.toNat + getDevctlOffset K f)
  if deviceStatus &&& K.statusFatErr ≠ 0 then
    if mmio.read16 f pciCommandOffset &&& efiPciCommandSerr ≠ 0 then
      mmio.read16 f pciPrimaryStatusOffset &&& efiPciStatusSignaledSystemError ≠ 0
    else deviceControl &&& K.controlFatErrEn ≠ 0
  else false

/-- `PciErrLibIsCorrectablePcieDeviceError`, for the `PcieAerCorrErrBitMap` of the setup. -/
def pciErrLibIsCorrectablePcieDeviceError (pcieAerCorrErrBitMap : BitVec 32) : Bool :=
  let capabilitiesOffset :=
    pciErrLibGetCapabilitiesOffset mmio { f with socket := 0 } efiPciCapabilityIdPciexp
  let deviceStatus := mmio.read16 f (capabilitiesOffset.toNat + getDevstsOffset K f)
  let deviceControl := mmio.read16 f (capabilitiesOffset.toNat + getDevctlOffset K f)
  if deviceStatus &&& deviceControl &&& K.controlCorErrEn ≠ 0 then
    deviceStatus &&& deviceControl &&& K.controlUnsupReqEn ≠ 0 ||
      (pcieGetAerErrors K mmio f).corerrsts &&& pcieAerCorrErrBitMap ≠ 0
  else false

end Code

end PurleyFirmware.Ras
