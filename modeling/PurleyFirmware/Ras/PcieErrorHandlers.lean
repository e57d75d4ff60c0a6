import PurleyFirmware.Foundation.Footprint
import PurleyFirmware.Ras.SubordinateErrors

/-!
# PCIe error handlers stay on the failing device

The handlers of the PCIe error handler are called with the four numbers of a function, and they pass
them on to each helper one by one. In three places the first of them is passed as 0: where
`PciErrLibPciDeviceErrorHandler` clears the status that made it report an error, and where
`PciErrLibIsCorrectablePcieDeviceError` and `PciErrLibHandleUncorrectablePcieDeviceError` look up
the PCI Express capability. On socket 0 this is right. On any other socket the status of another
function is written back and that of the failing one is left set, and another function's lookup says
where the registers of the failing one are (`handlersStayOnDevice_iff`).

The handlers are programs in the sense of `DeviceProgram`: how the registers of a function respond
to a write is a parameter, and reports and writes are recorded.
-/

namespace PurleyFirmware.Ras

open DeviceProgram

/-- What `PcieLogReportError` is told of an error. -/
inductive PcieErrorType
  | serror
  | perror
  | fatal
  | nonfatal
  | cor
  deriving DecidableEq

/-- What a handler does: it reports an error, or it writes a configuration register. -/
inductive PcieEffect
  | report (f : PciLocation) (errorType : PcieErrorType)
  | write16 (f : PciLocation) (register : ℕ) (value : BitVec 16)
  deriving DecidableEq

/-- The function that an effect is on. -/
def PcieEffect.location : PcieEffect → PciLocation
  | report f _ => f
  | write16 f _ _ => f

/-- A handler. -/
abbrev PcieProgram (α : Type) := DeviceProgram PciLocation (ℕ → BitVec 8) PcieEffect α

/-- How the registers of a function respond to a write. -/
abbrev RegisterResponse := PciLocation → ℕ → BitVec 16 → (ℕ → BitVec 8) → ℕ → BitVec 8

section Code

variable (K : PcieDefinitions) (respond : RegisterResponse) (f : PciLocation)

/-- `MmioRead16 (MmPciAddress (..))`. -/
def mmioRead16 (register : ℕ) : PcieProgram (BitVec 16) :=
  query fun mmio ↦ ConfigReads.read16 mmio f register

/-- `MmioWrite16 (MmPciAddress (..), ..)`. -/
def mmioWrite16 (register : ℕ) (value : BitVec 16) : PcieProgram Unit :=
  write f (respond f register value) (.write16 f register value)

/-- `PcieLogReportError`. -/
def pcieLogReportError (errorType : PcieErrorType) : PcieProgram Unit :=
  note (.report f errorType)

/-- The type of an error that a status register shows. -/
def errorTypeOf (status : BitVec 16) : PcieErrorType :=
  if status &&& efiPciStatusSignaledSystemError ≠ 0 then .serror else .perror

/-- `PciErrLibClearLegacyPciDeviceStatus`. -/
def pciErrLibClearLegacyPciDeviceStatus : PcieProgram Unit := do
  let statusReg16 ← mmioRead16 f pciPrimaryStatusOffset
  mmioWrite16 respond f pciPrimaryStatusOffset statusReg16
  let isBridge ← query fun mmio ↦ pciErrLibIsPciBridgeDevice mmio f
  if isBridge then do
    let statusReg16 ← mmioRead16 f pciBridgeStatusRegisterOffset
    mmioWrite16 respond f pciBridgeStatusRegisterOffset statusReg16
  else pure ()

/-- `PciErrLibPciDeviceErrorHandler`. -/
def pciErrLibPciDeviceErrorHandler : PcieProgram Bool := do
  let primaryStatus ← mmioRead16 f pciPrimaryStatusOffset
  if primaryStatus &&& errorMap ≠ 0 then do
    pcieLogReportError f (errorTypeOf primaryStatus)
    pciErrLibClearLegacyPciDeviceStatus respond { f with socket := 0 }
    pure true
  else pure false

/-- A bridge from PCIe to PCI-X reports an error on its secondary bus, and the error is cleared. -/
def handleSecondaryStatus (pcieCapabilities : BitVec 16) : PcieProgram Bool :=
  if (pcieCapabilities >>> 4).setWidth 8 &&& 0x0F = 0x07 then do
    let secondaryStatus ← mmioRead16 f pciBridgeStatusRegisterOffset
    if secondaryStatus &&& errorMap ≠ 0 then do
      pcieLogReportError f (errorTypeOf secondaryStatus)
      mmioWrite16 respond f pciBridgeStatusRegisterOffset errorMap
      pure true
    else pure false
  else pure false

/-- `PciErrLibHandleUncorrectablePcieDeviceError`. -/
def pciErrLibHandleUncorrectablePcieDeviceError (mPciXPUnsupportedRequest : BitVec 8) :
    PcieProgram Unit := do
  let capabilitiesOffset ← query fun mmio ↦
    pciErrLibGetCapabilitiesOffset mmio { f with socket := 0 } efiPciCapabilityIdPciexp
  let pcieCapabilities ← mmioRead16 f (capabilitiesOffset.toNat + K.capabilityOffset)
  let handled ← handleSecondaryStatus respond f pcieCapabilities
  if handled then pure ()
  else do
    let deviceStatus ← mmioRead16 f (capabilitiesOffset.toNat + getDevstsOffset K f)
    if mPciXPUnsupportedRequest ≠ 1 then
      pcieLogReportError f (if deviceStatus &&& K.statusFatErr ≠ 0 then .fatal else .nonfatal)
    else pure ()

/-- `PCI_ERROR_COUNT_MAX_THRESHOLD`. -/
def pciErrorCountMaxThreshold : BitVec 8 := 80

/-- A correctable error is reported as long as there were not too many of them. -/
def countCorrectable (mNumCorrectablePcieErrs : BitVec 8) : PcieProgram (BitVec 8) :=
  if mNumCorrectablePcieErrs < pciErrorCountMaxThreshold then do
    pcieLogReportError f .cor
    pure (mNumCorrectablePcieErrs + 1)
  else pure mNumCorrectablePcieErrs

/-- The Root Control register is updated if this is a root port. -/
def maskRootControl (capabilitiesOffset : BitVec 8) (pcieCapabilities : BitVec 16) :
    PcieProgram Unit :=
  if pcieCapabilities &&& 0xF0 = K.dptRootPort then do
    let rootControl ← mmioRead16 f (capabilitiesOffset.toNat + K.rootControlOffset)
    mmioWrite16 respond f (capabilitiesOffset.toNat + K.rootControlOffset)
      (rootControl &&& ~~~K.rootControlCorErrEn)
  else pure ()

/-- `PciErrLibHandleCorrectablePcieDeviceError`. It returns the new `mNumCorrectablePcieErrs`. -/
def pciErrLibHandleCorrectablePcieDeviceError (mNumCorrectablePcieErrs : BitVec 8) :
    PcieProgram (BitVec 8) := do
  let numErrs ← countCorrectable f mNumCorrectablePcieErrs
  if pciErrorCountMaxThreshold ≤ numErrs then do
    let capabilitiesOffset ← query fun mmio ↦
      pciErrLibGetCapabilitiesOffset mmio f efiPciCapabilityIdPciexp
    let deviceControl ← mmioRead16 f (capabilitiesOffset.toNat + getDevctlOffset K f)
    mmioWrite16 respond f (capabilitiesOffset.toNat + getDevctlOffset K f)
      (deviceControl &&& ~~~K.controlCorErrEn)
    let pcieCapabilities ← mmioRead16 f (capabilitiesOffset.toNat + K.capabilityOffset)
    maskRootControl K respond f capabilitiesOffset pcieCapabilities
    pure numErrs
  else pure numErrs

/-- The effect is on the function. -/
def IsOwn (e : PcieEffect) : Prop := e.location = f

/-- **What the handlers owe**, for the state of their variables and the policy: they stay on the
function they are called for, and an error that is reported is cleared there. -/
structure HandlersStayOnDevice (pcieAerCorrErrBitMap : BitVec 32)
    (mPciXPUnsupportedRequest mNumCorrectablePcieErrs : BitVec 8) : Prop where
  pciDevice : StaysOn f (IsOwn f) (pciErrLibPciDeviceErrorHandler respond f)
  isCorrectable : StaysOn f (IsOwn f) (query fun mmio ↦
    pciErrLibIsCorrectablePcieDeviceError K mmio f pcieAerCorrErrBitMap)
  uncorrectable : StaysOn f (IsOwn f)
    (pciErrLibHandleUncorrectablePcieDeviceError K respond f mPciXPUnsupportedRequest)
  correctable : StaysOn f (IsOwn f)
    (pciErrLibHandleCorrectablePcieDeviceError K respond f mNumCorrectablePcieErrs)
  cleared : ∀ mmio : ConfigReads,
    (pciErrLibPciDeviceErrorHandler respond f ⟨mmio, []⟩).1 = true →
      ∃ value, PcieEffect.write16 f pciPrimaryStatusOffset value ∈
          (pciErrLibPciDeviceErrorHandler respond f ⟨mmio, []⟩).2.record ∧
        mmio.read16 f pciPrimaryStatusOffset &&& errorMap &&& ~~~value = 0

end Code

variable {K : PcieDefinitions} {respond : RegisterResponse} {f : PciLocation}
  {mmio mmio' : ConfigReads}

/-! ### Reads of one function -/

theorem read16_congr (h : mmio f = mmio' f) (register : ℕ) :
    mmio.read16 f register = mmio'.read16 f register := by
  rw [ConfigReads.read16, ConfigReads.read16, h]

theorem read32_congr (h : mmio f = mmio' f) (register : ℕ) :
    mmio.read32 f register = mmio'.read32 f register := by
  rw [ConfigReads.read32, ConfigReads.read32, read16_congr h, read16_congr h]

theorem pciErrLibGetCapabilitiesOffset_congr (h : mmio f = mmio' f) (cap : BitVec 8) :
    pciErrLibGetCapabilitiesOffset mmio f cap = pciErrLibGetCapabilitiesOffset mmio' f cap := by
  simp only [pciErrLibGetCapabilitiesOffset, capabilityWalk, read16_congr h, ConfigReads.read8, h]

theorem pciErrLibGetExtendedCapabilitiesOffset_congr (h : mmio f = mmio' f)
    (dmiBusNum dmiDevNum : BitVec 8) (extCapabilityId vendorSpecificId : BitVec 16) :
    pciErrLibGetExtendedCapabilitiesOffset mmio f dmiBusNum dmiDevNum extCapabilityId
        vendorSpecificId =
      pciErrLibGetExtendedCapabilitiesOffset mmio' f dmiBusNum dmiDevNum extCapabilityId
        vendorSpecificId := by
  simp only [pciErrLibGetExtendedCapabilitiesOffset, extendedWalk, read16_congr h, read32_congr h,
    pciErrLibGetCapabilitiesOffset_congr h]

theorem pciErrLibIsPciBridgeDevice_congr (h : mmio f = mmio' f) :
    pciErrLibIsPciBridgeDevice mmio f = pciErrLibIsPciBridgeDevice mmio' f := by
  simp only [pciErrLibIsPciBridgeDevice, read32_congr h]

theorem pcieGetAerErrors_congr (h : mmio f = mmio' f) :
    pcieGetAerErrors K mmio f = pcieGetAerErrors K mmio' f := by
  simp only [pcieGetAerErrors, ConfigReads.read8, h, read16_congr h, read32_congr h,
    pciErrLibGetCapabilitiesOffset_congr h, pciErrLibGetExtendedCapabilitiesOffset_congr h]

/-- On socket 0 the function that is looked up is the one that is asked about. -/
theorem onSocketZero_eq (hsocket : f.socket = 0) : { f with socket := 0 } = f := by
  rw [← hsocket]

theorem pciErrLibIsCorrectablePcieDeviceError_congr (hsocket : f.socket = 0)
    (h : mmio f = mmio' f) (pcieAerCorrErrBitMap : BitVec 32) :
    pciErrLibIsCorrectablePcieDeviceError K mmio f pcieAerCorrErrBitMap =
      pciErrLibIsCorrectablePcieDeviceError K mmio' f pcieAerCorrErrBitMap := by
  simp only [pciErrLibIsCorrectablePcieDeviceError, onSocketZero_eq hsocket, read16_congr h,
    pciErrLibGetCapabilitiesOffset_congr h, pcieGetAerErrors_congr h]

/-! ### The steps of a handler -/

theorem staysOn_mmioRead16 (register : ℕ) : StaysOn f (IsOwn f) (mmioRead16 f register) :=
  StaysOn.query fun _ _ h ↦ read16_congr h register

theorem staysOn_mmioWrite16 (register : ℕ) (value : BitVec 16) :
    StaysOn f (IsOwn f) (mmioWrite16 respond f register value) :=
  StaysOn.write rfl

theorem staysOn_pcieLogReportError (errorType : PcieErrorType) :
    StaysOn f (IsOwn f) (pcieLogReportError f errorType) :=
  StaysOn.note rfl

theorem staysOn_getCapabilitiesOffset (cap : BitVec 8) :
    StaysOn f (IsOwn f) (query fun mmio ↦ pciErrLibGetCapabilitiesOffset mmio f cap) :=
  StaysOn.query fun _ _ h ↦ pciErrLibGetCapabilitiesOffset_congr h cap

/-- The second half of `PciErrLibClearLegacyPciDeviceStatus`. -/
theorem staysOn_clearSecondaryStatus :
    StaysOn f (IsOwn f) (query (fun mmio ↦ pciErrLibIsPciBridgeDevice mmio f) >>= fun isBridge ↦
      if isBridge then
        (mmioRead16 f pciBridgeStatusRegisterOffset >>= fun statusReg16 ↦
          mmioWrite16 respond f pciBridgeStatusRegisterOffset statusReg16)
      else pure () : PcieProgram Unit) := by
  refine (StaysOn.query fun _ _ h ↦ pciErrLibIsPciBridgeDevice_congr h).bind fun _ ↦ ?_
  refine StaysOn.ite ?_ (.pure ())
  exact (staysOn_mmioRead16 _).bind fun _ ↦ staysOn_mmioWrite16 ..

theorem staysOn_clearLegacyPciDeviceStatus :
    StaysOn f (IsOwn f) (pciErrLibClearLegacyPciDeviceStatus respond f) :=
  (staysOn_mmioRead16 _).bind fun _ ↦ (staysOn_mmioWrite16 ..).bind fun _ ↦
    staysOn_clearSecondaryStatus

/-- The status of the function is written back. -/
theorem mem_record_clearLegacyPciDeviceStatus
    (s : DeviceBank PciLocation (ℕ → BitVec 8) PcieEffect) :
    PcieEffect.write16 f pciPrimaryStatusOffset
        (ConfigReads.read16 s.devices f pciPrimaryStatusOffset) ∈
      (pciErrLibClearLegacyPciDeviceStatus respond f s).2.record := by
  refine staysOn_clearSecondaryStatus.mem_record (s := (mmioWrite16 respond f pciPrimaryStatusOffset
    (ConfigReads.read16 s.devices f pciPrimaryStatusOffset) s).2) ?_
  exact List.mem_append_right _ (List.mem_singleton.2 rfl)

/-! ### The handlers -/

theorem pciErrLibPciDeviceErrorHandler_of_error
    (herror : mmio.read16 f pciPrimaryStatusOffset &&& errorMap ≠ 0) :
    pciErrLibPciDeviceErrorHandler respond f ⟨mmio, []⟩ =
      (true, (pciErrLibClearLegacyPciDeviceStatus respond { f with socket := 0 }
        ⟨mmio, [.report f (errorTypeOf (mmio.read16 f pciPrimaryStatusOffset))]⟩).2) := by
  rw [pciErrLibPciDeviceErrorHandler, run_bind]
  change (if mmio.read16 f pciPrimaryStatusOffset &&& errorMap ≠ 0 then _ else _ :
    PcieProgram Bool) _ = _
  rw [if_pos herror]
  rfl

theorem pciErrLibPciDeviceErrorHandler_of_noError
    (herror : ¬ mmio.read16 f pciPrimaryStatusOffset &&& errorMap ≠ 0) :
    pciErrLibPciDeviceErrorHandler respond f ⟨mmio, []⟩ = (false, ⟨mmio, []⟩) := by
  rw [pciErrLibPciDeviceErrorHandler, run_bind]
  change (if mmio.read16 f pciPrimaryStatusOffset &&& errorMap ≠ 0 then _ else _ :
    PcieProgram Bool) _ = _
  rw [if_neg herror]
  rfl

/-- Off socket 0 the handler writes back the status of another function. -/
theorem not_staysOn_pciDeviceErrorHandler (hsocket : f.socket ≠ 0) :
    ¬ StaysOn f (IsOwn f) (pciErrLibPciDeviceErrorHandler respond f) := by
  intro hstays
  set allOnes : ConfigReads := fun _ _ ↦ 0xFF
  have hstatus : allOnes.read16 f pciPrimaryStatusOffset &&& errorMap ≠ 0 := by
    have hread : allOnes.read16 f pciPrimaryStatusOffset = 0xFF#8 ++ 0xFF#8 := rfl
    rw [hread]
    decide
  obtain ⟨new, hnew, hown⟩ := hstays.entries ⟨allOnes, []⟩
  rw [pciErrLibPciDeviceErrorHandler_of_error hstatus, List.nil_append] at hnew
  have hwrite : PcieEffect.write16 { f with socket := 0 } pciPrimaryStatusOffset
      (allOnes.read16 { f with socket := 0 } pciPrimaryStatusOffset) ∈ new := by
    rw [← hnew]
    exact mem_record_clearLegacyPciDeviceStatus _
  have hlocation : { f with socket := 0 } = f := hown _ hwrite
  exact hsocket (congrArg PciLocation.socket hlocation).symm

theorem staysOn_pciDeviceErrorHandler (hsocket : f.socket = 0) :
    StaysOn f (IsOwn f) (pciErrLibPciDeviceErrorHandler respond f) := by
  rw [pciErrLibPciDeviceErrorHandler, onSocketZero_eq hsocket]
  refine (staysOn_mmioRead16 _).bind fun _ ↦ StaysOn.ite ?_ (.pure false)
  exact (staysOn_pcieLogReportError _).bind fun _ ↦
    staysOn_clearLegacyPciDeviceStatus.bind fun _ ↦ .pure true

theorem staysOn_handleSecondaryStatus (pcieCapabilities : BitVec 16) :
    StaysOn f (IsOwn f) (handleSecondaryStatus respond f pcieCapabilities) := by
  refine StaysOn.ite ((staysOn_mmioRead16 _).bind fun _ ↦ ?_) (.pure false)
  refine StaysOn.ite ((staysOn_pcieLogReportError _).bind fun _ ↦ ?_) (.pure false)
  exact (staysOn_mmioWrite16 ..).bind fun _ ↦ .pure true

theorem staysOn_handleUncorrectable (hsocket : f.socket = 0)
    (mPciXPUnsupportedRequest : BitVec 8) :
    StaysOn f (IsOwn f)
      (pciErrLibHandleUncorrectablePcieDeviceError K respond f mPciXPUnsupportedRequest) := by
  rw [pciErrLibHandleUncorrectablePcieDeviceError, onSocketZero_eq hsocket]
  refine (staysOn_getCapabilitiesOffset _).bind fun _ ↦ (staysOn_mmioRead16 _).bind fun _ ↦ ?_
  refine (staysOn_handleSecondaryStatus _).bind fun _ ↦ ?_
  refine StaysOn.ite (.pure ()) ((staysOn_mmioRead16 _).bind fun _ ↦ ?_)
  exact StaysOn.ite (staysOn_pcieLogReportError _) (.pure ())

theorem staysOn_countCorrectable (mNumCorrectablePcieErrs : BitVec 8) :
    StaysOn f (IsOwn f) (countCorrectable f mNumCorrectablePcieErrs) :=
  StaysOn.ite ((staysOn_pcieLogReportError _).bind fun _ ↦ .pure _) (.pure _)

theorem staysOn_maskRootControl (capabilitiesOffset : BitVec 8) (pcieCapabilities : BitVec 16) :
    StaysOn f (IsOwn f) (maskRootControl K respond f capabilitiesOffset pcieCapabilities) :=
  StaysOn.ite ((staysOn_mmioRead16 _).bind fun _ ↦ staysOn_mmioWrite16 ..) (.pure ())

/-- The handler of correctable errors stays on its function on every socket. -/
theorem staysOn_handleCorrectable (mNumCorrectablePcieErrs : BitVec 8) :
    StaysOn f (IsOwn f)
      (pciErrLibHandleCorrectablePcieDeviceError K respond f mNumCorrectablePcieErrs) := by
  refine (staysOn_countCorrectable _).bind fun _ ↦ ?_
  refine StaysOn.ite ((staysOn_getCapabilitiesOffset _).bind fun _ ↦ ?_) (.pure _)
  refine (staysOn_mmioRead16 _).bind fun _ ↦ (staysOn_mmioWrite16 ..).bind fun _ ↦ ?_
  refine (staysOn_mmioRead16 _).bind fun _ ↦ (staysOn_maskRootControl ..).bind fun _ ↦ ?_
  exact .pure _

/-- **The handlers stay on the failing device** exactly on socket 0. -/
theorem handlersStayOnDevice_iff (pcieAerCorrErrBitMap : BitVec 32)
    (mPciXPUnsupportedRequest mNumCorrectablePcieErrs : BitVec 8) :
    HandlersStayOnDevice K respond f pcieAerCorrErrBitMap mPciXPUnsupportedRequest
      mNumCorrectablePcieErrs ↔ f.socket = 0 := by
  constructor
  · intro hstays
    by_contra hsocket
    exact not_staysOn_pciDeviceErrorHandler hsocket hstays.pciDevice
  · intro hsocket
    refine ⟨staysOn_pciDeviceErrorHandler hsocket, ?_, staysOn_handleUncorrectable hsocket _,
      staysOn_handleCorrectable _, fun mmio hfound ↦ ?_⟩
    · exact StaysOn.query fun _ _ h ↦ pciErrLibIsCorrectablePcieDeviceError_congr hsocket h _
    · by_cases herror : mmio.read16 f pciPrimaryStatusOffset &&& errorMap ≠ 0
      · refine ⟨mmio.read16 f pciPrimaryStatusOffset, ?_, ?_⟩
        · rw [pciErrLibPciDeviceErrorHandler_of_error herror, onSocketZero_eq hsocket]
          exact mem_record_clearLegacyPciDeviceStatus _
        · rw [BitVec.and_comm (mmio.read16 f pciPrimaryStatusOffset), BitVec.and_assoc]
          simp
      · rw [pciErrLibPciDeviceErrorHandler_of_noError herror] at hfound
        cases hfound

/-- On socket 1 they do not, whatever the numbers of the registers are. -/
theorem not_handlersStayOnDevice_socketOne :
    ¬ HandlersStayOnDevice somePcieDefinitions (fun _ _ _ registers ↦ registers) ⟨1, 5, 0, 0⟩ 0 0
      0 :=
  fun hstays ↦ not_staysOn_pciDeviceErrorHandler (by decide) hstays.pciDevice

end PurleyFirmware.Ras
