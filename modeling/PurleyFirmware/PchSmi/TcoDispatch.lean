import PurleyFirmware.Foundation.Runs
import PurleyFirmware.PchSmi.Database

/-!
# The TCO dispatch protocol

The eight TCO registrations and `pchTcoSmiUnRegister`. Two of the registrations set up BIOS write
protection, for the SPI flash and for the LPC or eSPI one, and the unregistration is meant to refuse
their records: a write-protect SMI must not be switched off once it is on.

The refusal recognises a protected record by the second enable bit of its descriptor: address type,
device, function, register and bit. The descriptor tables say `pcie` where the refusal asks for
`acpi`, so it recognises nothing. `TcoRecords` is the invariant that makes this a statement about
every run: each TCO record carries the enables of its table, and none of the tables has an ACPI
second enable.
-/

namespace PurleyFirmware.PchSmi

open PchSmmBitDesc

/-! ### Register descriptors -/

/-- A bit of the SMI enable register. -/
def smiEn (bit : Nat) : PchSmmBitDesc := ⟨⟨.acpi, 0x30⟩, 4, bit⟩

/-- A bit of the SMI status register. -/
def smiSts (bit : Nat) : PchSmmBitDesc := ⟨⟨.acpi, 0x34⟩, 4, bit⟩

/-- A bit of the first TCO status register. -/
def tco1Sts (bit : Nat) : PchSmmBitDesc := ⟨⟨.tco, 0x04⟩, 2, bit⟩

/-- A bit of the second TCO status register. -/
def tco2Sts (bit : Nat) : PchSmmBitDesc := ⟨⟨.tco, 0x06⟩, 2, bit⟩

/-- A bit of the first TCO control register. -/
def tco1Cnt (bit : Nat) : PchSmmBitDesc := ⟨⟨.tco, 0x08⟩, 2, bit⟩

/-- A bit of the second TCO control register. -/
def tco2Cnt (bit : Nat) : PchSmmBitDesc := ⟨⟨.tco, 0x0A⟩, 2, bit⟩

/-- The BIOS control register of the SPI controller: bus 0, device 31, function 5. -/
def spiBc : PchSmmAddress := .ofPcie 0 31 5 0xDC

/-- The BIOS control register of the LPC or eSPI bridge: bus 0, device 31, function 0. -/
def lpcBc : PchSmmAddress := .ofPcie 0 31 0 0xDC

/-- The TCO bit of the SMI enable register. -/
def smiEnTco : PchSmmBitDesc := smiEn 13

/-- The TCO bit of the SMI status register. -/
def smiStsTco : PchSmmBitDesc := smiSts 13

/-! ### The descriptor tables -/

/-- The status bit that every TCO source has to clear in addition to its own. -/
def mDescSrcTcoSts : PchSmmSourceDesc :=
  ⟨.noFlags, enBits nullBitDesc nullBitDesc, stsBits smiStsTco, nullBitDesc⟩

/-- MCH event: DMI SMI. -/
def mSrcDescMch : PchSmmSourceDesc :=
  ⟨.noFlags, enBits smiEnTco nullBitDesc, stsBits (tco1Sts 10), smiStsTco⟩

/-- TCO timer timeout. -/
def mSrcDescTcoTimeout : PchSmmSourceDesc :=
  ⟨.noFlags, enBits smiEnTco nullBitDesc, stsBits (tco1Sts 3), smiStsTco⟩

/-- Software TCO SMI. -/
def mSrcDescOsTco : PchSmmSourceDesc :=
  ⟨.noFlags, enBits smiEnTco nullBitDesc, stsBits (tco1Sts 1), smiStsTco⟩

/-- NMI turned into an SMI. It does not show in the top-level status. -/
def mSrcDescNmi : PchSmmSourceDesc :=
  ⟨.noFlags, enBits (tco1Cnt 9) nullBitDesc, stsBits (tco1Sts 0), nullBitDesc⟩

/-- Intruder detection. -/
def mSrcDescIntruderDet : PchSmmSourceDesc :=
  ⟨.noFlags, enBits smiEnTco (tco2Cnt 2), stsBits (tco2Sts 0), smiStsTco⟩

/-- SPI BIOS write protection: lock enable and synchronous SMI status of the SPI controller. -/
def mSrcDescSpiBiosWp : PchSmmSourceDesc :=
  ⟨.noFlags, enBits smiEnTco ⟨spiBc, 4, 1⟩, stsBits ⟨spiBc, 4, 8⟩, smiStsTco⟩

/-- LPC or eSPI BIOS write protection, as initialised: the status is patched at registration. -/
def mSrcDescLpcBiosWp : PchSmmSourceDesc :=
  ⟨.noFlags, enBits smiEnTco ⟨lpcBc, 1, 1⟩, stsBits nullBitDesc, smiStsTco⟩

/-- New century event. -/
def mSrcDescNewCentury : PchSmmSourceDesc :=
  ⟨.noFlags, enBits smiEnTco nullBitDesc, stsBits (tco1Sts 7), smiStsTco⟩

/-! ### Clearing and enabling TCO sources -/

section Hardware

variable {H : Type} (P : PchHardware H)

/-- Clear a TCO source and the TCO bit of the SMI status register. -/
def pchTcoSmiClearSource (hw : H) (srcDesc : PchSmmSourceDesc) : H :=
  pchSmmClearSource P (pchSmmClearSource P hw srcDesc) mDescSrcTcoSts

/-- Clear a TCO source, wait until it is clear, and clear the TCO bit of the SMI status register. -/
def pchTcoSmiClearSourceAndBlock (hw : H) (srcDesc : PchSmmSourceDesc) : H :=
  pchSmmClearSource P (pchSmmClearSourceAndBlock P hw srcDesc) mDescSrcTcoSts

/-- Clear the synchronous SMI status of the SPI controller, leaving the asynchronous one alone. -/
def pchTcoSpiWpClearSource (hw : H) : H :=
  pchSmmClearSource P
    (andThenOr P hw spiBc 4 (~~~(1#64 <<< 10) &&& 0xFFFFFFFF#64) (1#64 <<< 8)) mDescSrcTcoSts

/-- Set the lock enable of the SPI controller and the TCO SMI enable, then clear the source. -/
def pchTcoSpiWpEnableSource (hw : H) : H :=
  let hw := andThenOr P hw spiBc 4 (~~~(1#64 <<< 10 ||| 1#64 <<< 8) &&& 0xFFFFFFFF#64) (1#64 <<< 1)
  let hw := andThenOr P hw smiEnTco.reg 4 0xFFFFFFFF#64 (1#64 <<< 13)
  pchTcoSpiWpClearSource P hw

/-- Clear the new century status if it is set. -/
def pchTcoClearNewCenturySts (hw : H) : H :=
  if readBitDesc P hw (tco1Sts 7) then pchTcoSmiClearSourceAndBlock P hw mSrcDescNewCentury
  else hw

/-! ### Registrations -/

/-- The common course of a TCO registration: refuse it after ready-to-lock, insert a record for the
source, set its clear hook and bring the hardware into its initial state with `initHw`. -/
def pchTcoSmiRegister (d : PchSmiDispatcher H) (alloc : Bool) (srcDesc : PchSmmSourceDesc)
    (dispatchFunction : Option Nat) (pchSmiType : PchSmiTypes) (clearSource : PchSmmClearSource)
    (initHw : H → H) : EfiStatus × PchSmiDispatcher H × Option Nat :=
  if d.readyToLock then (.accessDenied, d, none)
  else
    match pchSmiRecordInsert d alloc srcDesc dispatchFunction pchSmiType with
    | (.success, d', some link) =>
      (.success, (d'.setClearSource link clearSource).setHw (initHw d'.hw), some link)
    | result => result

/-- Clear a source with the default function, then enable it. -/
def clearAndEnable (srcDesc : PchSmmSourceDesc) (hw : H) : H :=
  pchSmmEnableSource P (pchSmmClearSource P hw srcDesc) srcDesc

variable (d : PchSmiDispatcher H) (alloc : Bool) (dispatchFunction : Option Nat)

/-- Register a handler of MCH events. -/
def pchTcoSmiMchRegister : EfiStatus × PchSmiDispatcher H × Option Nat :=
  pchTcoSmiRegister d alloc mSrcDescMch dispatchFunction .pchTcoSmiMchType
    .pchTcoSmiClearSource (clearAndEnable P mSrcDescMch)

/-- Register a handler of the TCO timer timeout. -/
def pchTcoSmiTcoTimeoutRegister : EfiStatus × PchSmiDispatcher H × Option Nat :=
  pchTcoSmiRegister d alloc mSrcDescTcoTimeout dispatchFunction .pchTcoSmiTcoTimeoutType
    .pchTcoSmiClearSource (clearAndEnable P mSrcDescTcoTimeout)

/-- Register a handler of the software TCO SMI. -/
def pchTcoSmiOsTcoRegister : EfiStatus × PchSmiDispatcher H × Option Nat :=
  pchTcoSmiRegister d alloc mSrcDescOsTco dispatchFunction .pchTcoSmiOsTcoType
    .pchTcoSmiClearSource (clearAndEnable P mSrcDescOsTco)

/-- Register a handler of NMI events. -/
def pchTcoSmiNmiRegister : EfiStatus × PchSmiDispatcher H × Option Nat :=
  pchTcoSmiRegister d alloc mSrcDescNmi dispatchFunction .pchTcoSmiNmiType
    .pchTcoSmiClearSource (clearAndEnable P mSrcDescNmi)

/-- Register a handler of intruder detection. Its clear hook waits for the status. -/
def pchTcoSmiIntruderDetRegister : EfiStatus × PchSmiDispatcher H × Option Nat :=
  pchTcoSmiRegister d alloc mSrcDescIntruderDet dispatchFunction .pchTcoSmiIntruderDetectType
    .pchTcoSmiClearSourceAndBlock (clearAndEnable P mSrcDescIntruderDet)

/-- Register a handler of SPI BIOS write protection. -/
def pchTcoSmiSpiBiosWpRegister : EfiStatus × PchSmiDispatcher H × Option Nat :=
  pchTcoSmiRegister d alloc mSrcDescSpiBiosWp dispatchFunction .pchTcoSmiSpiBiosWpType
    .pchTcoSpiWpClearSource fun hw ↦ pchTcoSpiWpEnableSource P (pchTcoSpiWpClearSource P hw)

/-- Register a handler of LPC BIOS write protection. In eSPI mode the registration is refused. The
status is patched into the global descriptor before the record is made from it. -/
def pchTcoSmiLpcBiosWpRegister : EfiStatus × PchSmiDispatcher H × Option Nat :=
  if d.readyToLock then (.accessDenied, d, none)
  else if readBitDesc P d.hw ⟨lpcBc, 1, 2⟩ then (.unsupported, d, none)
  else
    let srcDesc := { d.srcDescLpcBiosWp with sts := stsBits (tco1Sts 8) }
    pchTcoSmiRegister { d with srcDescLpcBiosWp := srcDesc } alloc srcDesc dispatchFunction
      .pchTcoSmiLpcBiosWpType .pchTcoSmiClearSource (clearAndEnable P srcDesc)

/-- Register a handler of the new century event. -/
def pchTcoSmiNewCenturyRegister : EfiStatus × PchSmiDispatcher H × Option Nat :=
  pchTcoSmiRegister d alloc mSrcDescNewCentury dispatchFunction .pchTcoSmiNewCenturyType
    .pchTcoClearNewCenturySts fun hw ↦
      pchSmmEnableSource P (pchTcoClearNewCenturySts P hw) mSrcDescNewCentury

/-! ### Unregistration -/

/-- The test for SPI write protection, with the address type the source asks for. -/
def isSpiBiosWp (bitDesc : PchSmmBitDesc) : Bool :=
  bitDesc.reg.type == .acpi && bitDesc.reg.pcieDev == 31 && bitDesc.reg.pcieFnc == 5 &&
    bitDesc.reg.pcieReg == 0xDC && bitDesc.bit == 1

/-- The test for LPC or eSPI write protection, with the address type the source asks for. -/
def isLpcBiosWp (bitDesc : PchSmmBitDesc) : Bool :=
  bitDesc.reg.type == .acpi && bitDesc.reg.pcieDev == 31 && bitDesc.reg.pcieFnc == 0 &&
    bitDesc.reg.pcieReg == 0xDC && bitDesc.bit == 1

/-- Unregister a TCO handler. The source reads the record without checking the handle first, so
only a linked handle is meaningful; any other is passed on. -/
def pchTcoSmiUnRegister (dispatchHandle : Option Nat) : EfiStatus × PchSmiDispatcher H :=
  match d.callbackDataBase.find? fun r ↦ some r.link == dispatchHandle with
  | none => pchSmmCoreUnRegister P d dispatchHandle
  | some record =>
    if isSpiBiosWp record.srcDesc.en[1] then (.accessDenied, d)
    else if isLpcBiosWp record.srcDesc.en[1] then (.accessDenied, d)
    else pchSmmCoreUnRegister P d dispatchHandle

end Hardware

/-! ### Sequences of calls -/

/-- The dispatcher after its initialisation: nothing is registered yet. -/
def initialDispatcher {H : Type} (hw : H) : PchSmiDispatcher H where
  callbackDataBase := []
  nextLink := 0
  hw := hw
  readyToLock := false
  srcDescLpcBiosWp := mSrcDescLpcBiosWp
  nodup_link := List.nodup_nil
  link_lt := by simp

/-- The TCO registrations. -/
inductive TcoService
  | mch
  | tcoTimeout
  | osTco
  | nmi
  | intruderDet
  | spiBiosWp
  | lpcBiosWp
  | newCentury
  deriving DecidableEq, Repr

/-- One event of a TCO call sequence. A registration comes with the outcome of its allocation. -/
inductive TcoCall
  /-- A registration. -/
  | register (service : TcoService) (alloc : Bool) (dispatchFunction : Option Nat)
  /-- An unregistration. -/
  | unRegister (dispatchHandle : Option Nat)
  /-- The ready-to-lock event. -/
  | smmReadyToLock
  deriving DecidableEq, Repr

variable {H : Type} (P : PchHardware H)

/-- The registration behind each service. -/
def TcoService.register (d : PchSmiDispatcher H) (alloc : Bool) (dispatchFunction : Option Nat) :
    TcoService → EfiStatus × PchSmiDispatcher H × Option Nat
  | .mch => pchTcoSmiMchRegister P d alloc dispatchFunction
  | .tcoTimeout => pchTcoSmiTcoTimeoutRegister P d alloc dispatchFunction
  | .osTco => pchTcoSmiOsTcoRegister P d alloc dispatchFunction
  | .nmi => pchTcoSmiNmiRegister P d alloc dispatchFunction
  | .intruderDet => pchTcoSmiIntruderDetRegister P d alloc dispatchFunction
  | .spiBiosWp => pchTcoSmiSpiBiosWpRegister P d alloc dispatchFunction
  | .lpcBiosWp => pchTcoSmiLpcBiosWpRegister P d alloc dispatchFunction
  | .newCentury => pchTcoSmiNewCenturyRegister P d alloc dispatchFunction

/-- The dispatcher after one event. -/
def tcoNext (d : PchSmiDispatcher H) : TcoCall → PchSmiDispatcher H
  | .register service alloc dispatchFunction =>
    (service.register P d alloc dispatchFunction).2.1
  | .unRegister dispatchHandle => (pchTcoSmiUnRegister P d dispatchHandle).2
  | .smmReadyToLock => { d with readyToLock := true }

end PurleyFirmware.PchSmi
