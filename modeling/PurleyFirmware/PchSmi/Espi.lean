import PurleyFirmware.PchSmi.TcoDispatch

/-!
# The eSPI dispatch protocol

eSPI has nine child events behind two top-level SMI sources, and one slave event that has a source
of its own. The driver keeps three coupled structures:

* a list of child records and an event counter for **each kind of event**;
* for **each top-level source**, the handle of one record in the dispatcher's own database, present
  while some child of that source is registered;
* the slave SMI, which goes straight into the dispatcher's database and leaves no trace in the
  lists or the counters, only in the third top-level handle.

Child records and dispatcher records come from one pool, so the two kinds of handle cannot be
confused.
-/

namespace PurleyFirmware.PchSmi

open PchSmmBitDesc

/-! ### Events and top-level sources -/

/-- The top-level sources in the power management controller. -/
inductive EspiTopLevelType
  | espiBiosWrProtect
  | espiSerialIrq
  | espiPmc
  deriving DecidableEq, Repr

/-- The kinds of eSPI event. -/
inductive EspiSmiType
  | biosWrProtect
  | biosWrReport
  | pcNonFatalErr
  | pcFatalErr
  | vwNonFatalErr
  | vwFatalErr
  | flashNonFatalErr
  | flashFatalErr
  | lnkType1Err
  | espiSlaveSmi
  deriving DecidableEq, Repr

namespace EspiSmiType

/-- All kinds of event, in the order of the source's loops. -/
def all : List EspiSmiType :=
  [biosWrProtect, biosWrReport, pcNonFatalErr, pcFatalErr, vwNonFatalErr, vwFatalErr,
    flashNonFatalErr, flashFatalErr, lnkType1Err, espiSlaveSmi]

/-- The position of an event in the enumeration. -/
def index (espiSmiType : EspiSmiType) : Nat := all.idxOf espiSmiType

@[simp] theorem mem_all (espiSmiType : EspiSmiType) : espiSmiType ∈ all := by
  cases espiSmiType <;> decide

end EspiSmiType

namespace EspiTopLevelType

/-- All top-level sources, in the order of the source's loops. -/
def all : List EspiTopLevelType := [espiBiosWrProtect, espiSerialIrq, espiPmc]

@[simp] theorem mem_all (top : EspiTopLevelType) : top ∈ all := by
  cases top <;> decide

/-- The first and the last event of each top-level source. -/
def barrier : EspiTopLevelType → EspiSmiType × EspiSmiType
  | espiBiosWrProtect => (.biosWrProtect, .biosWrProtect)
  | espiSerialIrq => (.biosWrReport, .lnkType1Err)
  | espiPmc => (.espiSlaveSmi, .espiSlaveSmi)

/-- The events of a top-level source: those between its barriers. -/
def children (top : EspiTopLevelType) : List EspiSmiType :=
  EspiSmiType.all.filter fun t ↦
    decide (top.barrier.1.index ≤ t.index) && decide (t.index ≤ top.barrier.2.index)

end EspiTopLevelType

/-! ### The registers behind the events -/

/-- One read-modify-write of an eSPI register, on the first slave and, where there is one, on the
second slave of a PCH-H. -/
structure EspiAccess where
  /-- The register of the first slave. -/
  slv0 : PchSmmAddress
  /-- The register of the second slave. -/
  slv1 : Option PchSmmAddress
  /-- The bits that are kept. -/
  andMask : BitVec 32
  /-- The bits that are set. -/
  orMask : BitVec 32

/-- A register of the eSPI port behind the sideband. -/
def espiPcr (offset : BitVec 32) : PchSmmAddress := ⟨.pcr, 0xFD000000 ||| (0xEE <<< 16) ||| offset⟩

/-- How the source of an event is enabled. The slave SMI is not enabled here. -/
def espiEnableAccess : EspiSmiType → Option EspiAccess
  | .biosWrProtect => some ⟨lpcBc, none, ~~~0x500, 0x2⟩
  | .biosWrReport => some ⟨lpcBc, none, ~~~0x500, 0x800⟩
  | .pcNonFatalErr => some ⟨espiPcr 0x4020, some (espiPcr 0x4024), ~~~0x1001010, 0x6000⟩
  | .pcFatalErr => some ⟨espiPcr 0x4020, some (espiPcr 0x4024), ~~~0x1001010, 0x60⟩
  | .vwNonFatalErr => some ⟨espiPcr 0x4030, some (espiPcr 0x4034), ~~~0x1010, 0x6000⟩
  | .vwFatalErr => some ⟨espiPcr 0x4030, some (espiPcr 0x4034), ~~~0x1010, 0x60⟩
  | .flashNonFatalErr => some ⟨espiPcr 0x4040, none, ~~~0x1010, 0x6000⟩
  | .flashFatalErr => some ⟨espiPcr 0x4040, none, ~~~0x1010, 0x60⟩
  | .lnkType1Err => some ⟨espiPcr 0x4050, some (espiPcr 0x4054), ~~~0x80100000, 0x600000⟩
  | .espiSlaveSmi => none

/-- How the source of an event is disabled. The two BIOS write events are locked and stay enabled,
and the link error keeps its enable bits. -/
def espiDisableAccess : EspiSmiType → Option EspiAccess
  | .biosWrProtect => none
  | .biosWrReport => none
  | .pcNonFatalErr => some ⟨espiPcr 0x4020, some (espiPcr 0x4024), ~~~0x1007010, 0⟩
  | .pcFatalErr => some ⟨espiPcr 0x4020, some (espiPcr 0x4024), ~~~0x1001070, 0⟩
  | .vwNonFatalErr => some ⟨espiPcr 0x4030, some (espiPcr 0x4034), ~~~0x7010, 0⟩
  | .vwFatalErr => some ⟨espiPcr 0x4030, some (espiPcr 0x4034), ~~~0x1070, 0⟩
  | .flashNonFatalErr => some ⟨espiPcr 0x4040, none, ~~~0x7010, 0⟩
  | .flashFatalErr => some ⟨espiPcr 0x4040, none, ~~~0x1070, 0⟩
  | .lnkType1Err => some ⟨espiPcr 0x4050, some (espiPcr 0x4054), ~~~0x80100000, 0⟩
  | .espiSlaveSmi => none

/-- How the status of an event is cleared: the event descriptors of the source. -/
def espiClearAccess : EspiSmiType → Option EspiAccess
  | .biosWrProtect => some ⟨lpcBc, none, ~~~0x400, 0x100⟩
  | .biosWrReport => some ⟨lpcBc, none, ~~~0x100, 0x400⟩
  | .pcNonFatalErr => some ⟨espiPcr 0x4020, none, ~~~0x1000010, 0x1000⟩
  | .pcFatalErr => some ⟨espiPcr 0x4020, none, ~~~0x1001000, 0x10⟩
  | .vwNonFatalErr => some ⟨espiPcr 0x4030, none, ~~~0x10, 0x1000⟩
  | .vwFatalErr => some ⟨espiPcr 0x4030, none, ~~~0x1000, 0x10⟩
  | .flashNonFatalErr => some ⟨espiPcr 0x4040, none, ~~~0x10, 0x1000⟩
  | .flashFatalErr => some ⟨espiPcr 0x4040, none, ~~~0x1000, 0x10⟩
  | .lnkType1Err => some ⟨espiPcr 0x4050, none, ~~~0x80000000, 0x100000⟩
  | .espiSlaveSmi => none

/-- The source descriptor of the serial interrupt SMI. It has no enable bit. -/
def mSrcDescSerialIrq : PchSmmSourceDesc :=
  ⟨.noFlags, enBits nullBitDesc nullBitDesc, stsBits (smiSts 15), smiSts 15⟩

/-- The source descriptor of the eSPI slave SMI. -/
def mSrcDescEspiSlave : PchSmmSourceDesc :=
  ⟨.noFlags, enBits (smiEn 28) nullBitDesc, stsBits (smiSts 28), smiSts 28⟩

/-- The register that holds the lock of the eSPI SMI: bus 0, device 31, function 2. -/
def genPmconA : PchSmmAddress := .ofPcie 0 31 2 0xA0

/-! ### The state -/

/-- A child record: the address of its link and its callback. -/
structure EspiSmiRecord where
  /-- The address of the record's link, which is the handle of the registration. -/
  link : Nat
  /-- The callback, named by a number. -/
  callback : Option Nat
  deriving DecidableEq, Repr

/-- The eSPI instance together with the dispatcher it registers with. -/
structure EspiState (H : Type) where
  /-- The PCH SMI dispatcher. -/
  pch : PchSmiDispatcher H
  /-- For each top-level source the handle of its record, `none` for the null handle. -/
  pchSmiEspiHandle : EspiTopLevelType → Option Nat
  /-- For each kind of event the child records, in list order. -/
  callbackDataBase : EspiSmiType → List EspiSmiRecord
  /-- For each kind of event the number of registered children. -/
  espiSmiEventCounter : EspiSmiType → Nat

/-- The eSPI instance as it is initialised, over a given dispatcher. -/
def initialEspiState {H : Type} (pch : PchSmiDispatcher H) : EspiState H where
  pch := pch
  pchSmiEspiHandle _ := none
  callbackDataBase _ := []
  espiSmiEventCounter _ := 0

/-- Replace the value of a table at one position. -/
def setAt {ι α : Type} [DecidableEq ι] (f : ι → α) (i : ι) (a : α) : ι → α :=
  fun j ↦ if j = i then a else f j

@[simp] theorem setAt_self {ι α : Type} [DecidableEq ι] (f : ι → α) (i : ι) (a : α) :
    setAt f i a i = a := if_pos rfl

theorem setAt_of_ne {ι α : Type} [DecidableEq ι] (f : ι → α) {i j : ι} (a : α) (h : j ≠ i) :
    setAt f i a j = f j := if_neg h

/-! ### Registration -/

section Operations

variable {H : Type} (P : PchHardware H) (pchH : Bool)

/-- One eSPI register access. The second slave exists on a PCH-H only. -/
def espiAccess (hw : H) (access : Option EspiAccess) : H :=
  match access with
  | none => hw
  | some a =>
    let write := fun hw addr ↦ andThenOr P hw addr 4 (a.andMask.setWidth 64) (a.orMask.setWidth 64)
    let hw := write hw a.slv0
    match a.slv1 with
    | some slv1 => if pchH then write hw slv1 else hw
    | none => hw

/-- Enable the source of an event. -/
def espiSmiEnableSource (hw : H) (espiSmiType : EspiSmiType) : H :=
  espiAccess P pchH hw (espiEnableAccess espiSmiType)

/-- Disable the source of an event. -/
def espiSmiDisableSource (hw : H) (espiSmiType : EspiSmiType) : H :=
  espiAccess P pchH hw (espiDisableAccess espiSmiType)

/-- Clear the status of an event. -/
def espiSmiClearStatus (hw : H) (espiSmiType : EspiSmiType) : H :=
  espiAccess P pchH hw (espiClearAccess espiSmiType)

variable (s : EspiState H)

/-- Append a child record to the list of its event, clear and enable the source, and count it. -/
def insertEspiRecord (alloc : Bool) (dispatchFunction : Option Nat) (espiSmiType : EspiSmiType) :
    EfiStatus × EspiState H × Option Nat :=
  if !alloc then (.outOfResources, s, none)
  else
    let link := s.pch.nextLink
    let hw := espiSmiEnableSource P pchH (espiSmiClearStatus P pchH s.pch.hw espiSmiType)
      espiSmiType
    (.success,
      { s with
        pch := s.pch.allocatePool.setHw hw
        callbackDataBase := setAt s.callbackDataBase espiSmiType
          (s.callbackDataBase espiSmiType ++ [⟨link, dispatchFunction⟩])
        espiSmiEventCounter := setAt s.espiSmiEventCounter espiSmiType
          (s.espiSmiEventCounter espiSmiType + 1) },
      some link)

/-- The callback that every top-level record of the driver carries. -/
def espiSmiCallback : Option Nat := some 0

/-- Register the record of a top-level source if it has none yet. -/
def registerTopLevelIfNull (alloc : Bool) (top : EspiTopLevelType) (srcDesc : PchSmmSourceDesc)
    (pchSmiType : PchSmiTypes) (clearSource : Option PchSmmClearSource) :
    EfiStatus × EspiState H :=
  match s.pchSmiEspiHandle top with
  | some _ => (.success, s)
  | none =>
    match pchSmiRecordInsert s.pch alloc srcDesc espiSmiCallback pchSmiType with
    | (.success, pch, some link) =>
      let pch := match clearSource with
        | some f => pch.setClearSource link f
        | none => pch
      (.success, { s with pch, pchSmiEspiHandle := setAt s.pchSmiEspiHandle top (some link) })
    | (status, pch, _) => (status, { s with pch })

/-- Register the BIOS write protection source of the dispatcher if that has not been done. -/
def registerBiosWrProtectIfNull (alloc : Bool) : EfiStatus × EspiState H :=
  registerTopLevelIfNull s alloc .espiBiosWrProtect s.pch.srcDescLpcBiosWp
    .pchTcoSmiLpcBiosWpType (some .pchTcoSmiClearSource)

/-- Register the serial interrupt source of the dispatcher if that has not been done. -/
def registerSerialIrqIfNull (alloc : Bool) : EfiStatus × EspiState H :=
  registerTopLevelIfNull s alloc .espiSerialIrq mSrcDescSerialIrq .pchSmiSerialIrqType none

/-- The common course of a child registration: refuse it after ready-to-lock, make sure the
top-level source is registered, insert the child. -/
def espiChildRegister (registerIfNull : EfiStatus × EspiState H) (alloc : Bool)
    (dispatchFunction : Option Nat) (espiSmiType : EspiSmiType) :
    EfiStatus × EspiState H × Option Nat :=
  if s.pch.readyToLock then (.accessDenied, s, none)
  else
    match registerIfNull with
    | (.success, s') => insertEspiRecord P pchH s' alloc dispatchFunction espiSmiType
    | (status, s') => (status, s', none)

variable (allocTop alloc : Bool) (dispatchFunction : Option Nat)

/-- Register a BIOS write protect event. -/
def biosWrProtectRegister : EfiStatus × EspiState H × Option Nat :=
  espiChildRegister P pchH s (registerBiosWrProtectIfNull s allocTop) alloc dispatchFunction
    .biosWrProtect

/-- Register a BIOS write report event. -/
def biosWrReportRegister : EfiStatus × EspiState H × Option Nat :=
  espiChildRegister P pchH s (registerSerialIrqIfNull s allocTop) alloc dispatchFunction
    .biosWrReport

/-- Register a peripheral channel non-fatal error event. -/
def pcNonFatalErrRegister : EfiStatus × EspiState H × Option Nat :=
  espiChildRegister P pchH s (registerSerialIrqIfNull s allocTop) alloc dispatchFunction
    .pcNonFatalErr

/-- Register a peripheral channel fatal error event. -/
def pcFatalErrRegister : EfiStatus × EspiState H × Option Nat :=
  espiChildRegister P pchH s (registerSerialIrqIfNull s allocTop) alloc dispatchFunction
    .pcFatalErr

/-- Register a virtual wire non-fatal error event. -/
def vwNonFatalErrRegister : EfiStatus × EspiState H × Option Nat :=
  espiChildRegister P pchH s (registerSerialIrqIfNull s allocTop) alloc dispatchFunction
    .vwNonFatalErr

/-- Register a virtual wire fatal error event. -/
def vwFatalErrRegister : EfiStatus × EspiState H × Option Nat :=
  espiChildRegister P pchH s (registerSerialIrqIfNull s allocTop) alloc dispatchFunction
    .vwFatalErr

/-- Register a flash channel non-fatal error event. -/
def flashNonFatalErrRegister : EfiStatus × EspiState H × Option Nat :=
  espiChildRegister P pchH s (registerSerialIrqIfNull s allocTop) alloc dispatchFunction
    .flashNonFatalErr

/-- Register a flash channel fatal error event. -/
def flashFatalErrRegister : EfiStatus × EspiState H × Option Nat :=
  espiChildRegister P pchH s (registerSerialIrqIfNull s allocTop) alloc dispatchFunction
    .flashFatalErr

/-- Register a link error event. -/
def lnkType1ErrRegister : EfiStatus × EspiState H × Option Nat :=
  espiChildRegister P pchH s (registerSerialIrqIfNull s allocTop) alloc dispatchFunction
    .lnkType1Err

/-- Register the slave SMI. The lock of the eSPI SMI refuses a second registration. The source is
enabled and the lock is set whether or not the record could be inserted; the handle is stored if
one was written back. -/
def espiSlaveSmiRegister : EfiStatus × EspiState H × Option Nat :=
  if s.pch.readyToLock then (.accessDenied, s, none)
  else if P.read s.pch.hw genPmconA 4 &&& 0x8 != 0 then (.accessDenied, s, none)
  else
    let (status, pch, link) :=
      pchSmiRecordInsert s.pch alloc mSrcDescEspiSlave dispatchFunction .pchEspiSmiEspiSlaveType
    let hw := pchSmmEnableSource P (pchSmmClearSource P pch.hw mSrcDescEspiSlave) mSrcDescEspiSlave
    let hw := andThenOr P hw genPmconA 1 0xFF 0x8
    (status, { s with
      pch := pch.setHw hw, pchSmiEspiHandle := setAt s.pchSmiEspiHandle .espiPmc link }, link)

/-! ### Unregistration -/

/-- The first event whose list holds a record with the given handle. -/
def findEspiRecord (link : Nat) : Option EspiSmiType :=
  EspiSmiType.all.find? fun t ↦ (s.callbackDataBase t).any fun r ↦ r.link == link

/-- Take a child record out of the list of its event, count it down, and disable the source when
the count reaches zero. -/
def removeEspiRecord (link : Nat) (espiSmiType : EspiSmiType) : EspiState H :=
  let callbackDataBase := setAt s.callbackDataBase espiSmiType
    ((s.callbackDataBase espiSmiType).eraseP fun r ↦ r.link == link)
  let counter := s.espiSmiEventCounter espiSmiType
  if counter = 0 then { s with callbackDataBase }
  else
    let espiSmiEventCounter := setAt s.espiSmiEventCounter espiSmiType (counter - 1)
    if counter - 1 = 0 then
      { s with
        callbackDataBase, espiSmiEventCounter
        pch := s.pch.setHw (espiSmiDisableSource P pchH s.pch.hw espiSmiType) }
    else { s with callbackDataBase, espiSmiEventCounter }

/-- Whether every event of a top-level source has a zero counter. -/
def safeToDisable (top : EspiTopLevelType) : Bool :=
  top.children.all fun t ↦ s.espiSmiEventCounter t == 0

/-- Unregister the record of a top-level source if all its counters are zero. -/
def unregisterTopLevel (top : EspiTopLevelType) : EspiState H :=
  if safeToDisable s top then
    match s.pchSmiEspiHandle top with
    | some link =>
      { s with
        pch := (pchSmmCoreUnRegister P s.pch (some link)).2
        pchSmiEspiHandle := setAt s.pchSmiEspiHandle top none }
    | none => s
  else s

/-- Unregister a child. After the child is gone **every** top-level source is looked at, the one of
the slave SMI included. -/
def espiSmiUnRegister (dispatchHandle : Option Nat) : EfiStatus × EspiState H :=
  match dispatchHandle with
  | none => (.invalidParameter, s)
  | some link =>
    if s.pch.readyToLock then (.accessDenied, s)
    else if s.pchSmiEspiHandle .espiPmc = some link then (.accessDenied, s)
    else
      match findEspiRecord s link with
      | none => (.invalidParameter, s)
      | some espiSmiType =>
        (.success, EspiTopLevelType.all.foldl (unregisterTopLevel P)
          (removeEspiRecord P pchH s link espiSmiType))

end Operations

/-! ### Sequences of calls -/

/-- One call of an eSPI sequence. A registration comes with the outcomes of its allocations. -/
inductive EspiCall
  /-- The registration of a child event. -/
  | register (espiSmiType : EspiSmiType) (allocTop alloc : Bool) (dispatchFunction : Option Nat)
  /-- An unregistration. -/
  | unRegister (dispatchHandle : Option Nat)
  deriving DecidableEq, Repr

variable {H : Type} (P : PchHardware H) (pchH : Bool)

/-- The registration behind each kind of event. -/
def espiRegister (s : EspiState H) (allocTop alloc : Bool) (dispatchFunction : Option Nat) :
    EspiSmiType → EfiStatus × EspiState H × Option Nat
  | .biosWrProtect => biosWrProtectRegister P pchH s allocTop alloc dispatchFunction
  | .biosWrReport => biosWrReportRegister P pchH s allocTop alloc dispatchFunction
  | .pcNonFatalErr => pcNonFatalErrRegister P pchH s allocTop alloc dispatchFunction
  | .pcFatalErr => pcFatalErrRegister P pchH s allocTop alloc dispatchFunction
  | .vwNonFatalErr => vwNonFatalErrRegister P pchH s allocTop alloc dispatchFunction
  | .vwFatalErr => vwFatalErrRegister P pchH s allocTop alloc dispatchFunction
  | .flashNonFatalErr => flashNonFatalErrRegister P pchH s allocTop alloc dispatchFunction
  | .flashFatalErr => flashFatalErrRegister P pchH s allocTop alloc dispatchFunction
  | .lnkType1Err => lnkType1ErrRegister P pchH s allocTop alloc dispatchFunction
  | .espiSlaveSmi => espiSlaveSmiRegister P s alloc dispatchFunction

/-- The state after one call. -/
def espiNext (s : EspiState H) : EspiCall → EspiState H
  | .register espiSmiType allocTop alloc dispatchFunction =>
    (espiRegister P pchH s allocTop alloc dispatchFunction espiSmiType).2.1
  | .unRegister dispatchHandle => (espiSmiUnRegister P pchH s dispatchHandle).2

end PurleyFirmware.PchSmi
