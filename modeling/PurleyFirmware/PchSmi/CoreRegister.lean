import Mathlib.Logic.Function.Basic
import PurleyFirmware.PchSmi.TcoDispatch

/-!
# Registration through the standard protocols

`pchSmmCoreRegister` serves the USB, Sx, software, GPI, power button and periodic timer protocols.
It checks the context of the child, finds out which source the child is registering for, appends a
record, clears the source and enables it.

The two hardware timers are shared by all children of the periodic timer protocol.
`pchSmmPeriodicTimerProgramTimers` recomputes from the database what each timer has to be set to;
it runs once before the record of a new child is inserted and, as the clear hook of such records,
once after.

The context is a union in the source, and the protocol decides how it is read. Here the context says
which protocol it belongs to.
-/

namespace PurleyFirmware.PchSmi

open PchSmmBitDesc

/-! ### The descriptor tables -/

/-- A source with one bit in the SMI enable register, whose status is the bit of the same number in
the SMI status register. -/
def smiSourceDesc (bit : Nat) : PchSmmSourceDesc :=
  ⟨.noFlags, enBits (smiEn bit) nullBitDesc, stsBits (smiSts bit), smiSts bit⟩

/-- Legacy USB 1. -/
def mUsb1Legacy : PchSmmSourceDesc := smiSourceDesc 3

/-- Legacy USB 3. -/
def mUsb3Legacy : PchSmmSourceDesc := smiSourceDesc 31

/-- Sleep state transitions. -/
def sxSourceDesc : PchSmmSourceDesc := smiSourceDesc 4

/-- Software SMIs, through the APM control port. -/
def swSourceDesc : PchSmmSourceDesc := smiSourceDesc 5

/-- The power button bit of the first power management enable register. -/
def pm1EnPwrbtn : PchSmmBitDesc := ⟨⟨.acpi, 0x02⟩, 2, 8⟩

/-- The power button bit of the first power management status register. -/
def pm1StsPwrbtn : PchSmmBitDesc := ⟨⟨.acpi, 0x00⟩, 2, 8⟩

/-- The power button. -/
def powerButtonSourceDesc : PchSmmSourceDesc :=
  ⟨.sciEnDependent, enBits pm1EnPwrbtn nullBitDesc, stsBits pm1StsPwrbtn, smiSts 8⟩

/-- The bit descriptor of a record that was set to zero and not filled in. -/
def zeroBitDesc : PchSmmBitDesc := ⟨⟨.acpi, 0⟩, 0, 0⟩

/-- The source descriptor of a record that was set to zero and not filled in. It is not the unused
descriptor, because the address type zero is a type in use. -/
def zeroSourceDesc : PchSmmSourceDesc :=
  ⟨.noFlags, enBits zeroBitDesc zeroBitDesc, stsBits zeroBitDesc, zeroBitDesc⟩

/-- Which of the context functions the records of each protocol have. -/
def mContextFunctions : PchSmmProtocolType → ContextFunctions
  | .usbType => ⟨false, false, false⟩
  | .sxType => ⟨true, true, false⟩
  | .swType => ⟨true, true, true⟩
  | .gpiType => ⟨false, false, false⟩
  | .powerButtonType => ⟨true, true, false⟩
  | .periodicTimerType => ⟨true, true, true⟩
  | .pchSmiDispatchType => ⟨false, false, false⟩

/-! ### GPI SMIs -/

/-- What is needed of a group of GPIO pads. -/
structure GpioGroupInfo where
  /-- The port of the community the group is in. -/
  community : BitVec 8
  /-- The offset of the SMI enable register, if the group has one. -/
  smiEnOffset : Option (BitVec 16)
  /-- The number of pads. -/
  padPerGroup : Nat
  deriving DecidableEq, Repr

/-- The groups, from GPP_A to GPP_L, and GPD. -/
def mPchGpioGroupInfo : List GpioGroupInfo :=
  [⟨0xAF, none, 24⟩, ⟨0xAF, some 0x154, 24⟩, ⟨0xAE, some 0x150, 24⟩, ⟨0xAE, some 0x154, 24⟩,
    ⟨0xAE, some 0x158, 13⟩, ⟨0xAF, none, 24⟩, ⟨0x11, none, 24⟩, ⟨0x11, none, 24⟩,
    ⟨0xAC, some 0x150, 11⟩, ⟨0xAB, none, 24⟩, ⟨0xAB, none, 11⟩, ⟨0x11, none, 20⟩,
    ⟨0xAD, none, 12⟩]

/-- The address of a private configuration register. -/
def pchPcrAddress (pid : BitVec 8) (offset : BitVec 16) : BitVec 32 :=
  0xFD000000#32 ||| (pid.setWidth 32 <<< 16) ||| offset.setWidth 32

/-- Where the SMI of a pad is enabled and reported. -/
structure GpiSmiRegs where
  /-- The position of the pad's bit. -/
  gpiSmiBitOffset : Nat
  /-- The address of the enable register. -/
  gpiSmiEnRegAddress : BitVec 32
  /-- The address of the status register. -/
  gpiSmiStsRegAddress : BitVec 32
  deriving DecidableEq, Repr

/-- The registers of a pad of a group. The status register is as far before the enable register as
for the general purpose events of the first group. -/
def GpioGroupInfo.smiRegs (g : GpioGroupInfo) (pad : Nat) : Option GpiSmiRegs :=
  g.smiEnOffset.map fun smiEnOffset ↦
    ⟨pad, pchPcrAddress g.community smiEnOffset, pchPcrAddress g.community (smiEnOffset - 0x10)⟩

/-- Find the group and the pad of a GPI number, and the registers of the pad. A number beyond the
last pad is refused; the source reads one entry past its table to find that out. -/
def gpioGetPadAndSmiRegs : List GpioGroupInfo → Nat → Option GpiSmiRegs
  | [], _ => none
  | g :: gs, index =>
    if index < g.padPerGroup then g.smiRegs index
    else gpioGetPadAndSmiRegs gs (index - g.padPerGroup)

/-- The source of a GPI SMI: the template with the registers of the pad. -/
def gpiSourceDesc (regs : GpiSmiRegs) : PchSmmSourceDesc :=
  ⟨.noFlags, enBits ⟨⟨.gpio, regs.gpiSmiEnRegAddress⟩, 4, regs.gpiSmiBitOffset⟩ nullBitDesc,
    stsBits ⟨⟨.gpio, regs.gpiSmiStsRegAddress⟩, 4, regs.gpiSmiBitOffset⟩, smiSts 10⟩

/-! ### USB -/

/-- The USB controllers that can raise a legacy SMI. -/
inductive PchUsbControllerType
  | pchUsbControllerLpc0
  | pchUsbControllerXhci
  deriving DecidableEq, Repr

/-- The header of a device path node. -/
structure DevicePathHeader where
  /-- The type of the node. -/
  type : Nat
  /-- Its subtype. -/
  subType : Nat
  /-- Its length in bytes. -/
  length : Nat
  deriving DecidableEq, Repr

/-- The first two nodes of a device path, read as an ACPI node and a PCI node. -/
structure UsbDevicePath where
  /-- The header of the ACPI node. -/
  acpiHeader : DevicePathHeader
  /-- The hardware id of the ACPI node. -/
  hid : Nat
  /-- The unique id of the ACPI node. -/
  uid : Nat
  /-- The header of the PCI node. -/
  pciHeader : DevicePathHeader
  /-- The device number of the PCI node. -/
  device : Nat
  /-- The function number of the PCI node. -/
  function : Nat
  deriving DecidableEq, Repr

/-- The controller that a device path leads to, `none` if the path is not supported. -/
def devicePathToSupportedController (p : UsbDevicePath) : Option PchUsbControllerType :=
  if p.acpiHeader ≠ ⟨2, 1, 12⟩ ∨ p.hid ≠ 0x0A0341D0 ∨ p.uid ≠ 0 then none
  else if p.pciHeader ≠ ⟨1, 1, 6⟩ then none
  else if p.device = 31 ∧ p.function = 0 then some .pchUsbControllerLpc0
  else if p.device = 20 ∧ p.function = 0 then some .pchUsbControllerXhci
  else none

/-- The source of a USB context. A wake context, or a controller that is none of the two, leaves the
descriptor as it is, which is zero. -/
def mapUsbToSrcDesc (type : Nat) (controller : Option PchUsbControllerType) : PchSmmSourceDesc :=
  match type, controller with
  | 0, some .pchUsbControllerLpc0 => mUsb1Legacy
  | 0, some .pchUsbControllerXhci => mUsb3Legacy
  | _, _ => zeroSourceDesc

/-! ### Periodic timers -/

/-- The hardware timers. -/
inductive SupportedTimer
  | periodicTimer
  | swsmiTimer
  deriving DecidableEq, Repr

/-- An interval a timer can be set to, in units of 100 nanoseconds. -/
structure TimerInterval where
  /-- The interval. -/
  interval : Nat
  /-- The timer that offers it. -/
  associatedTimer : SupportedTimer
  deriving DecidableEq, Repr

/-- The intervals, from the longest to the shortest. -/
def mSmmPeriodicTimerIntervals : List TimerInterval :=
  [⟨640000000, .periodicTimer⟩, ⟨320000000, .periodicTimer⟩, ⟨160000000, .periodicTimer⟩,
    ⟨80000000, .periodicTimer⟩, ⟨640000, .swsmiTimer⟩, ⟨320000, .swsmiTimer⟩,
    ⟨160000, .swsmiTimer⟩, ⟨15000, .swsmiTimer⟩]

/-- What is known about a timer. -/
structure TimerInfo where
  /-- Number of children using this timer. -/
  numChildren : Nat
  /-- Minimum interval required by children. -/
  minReqInterval : Nat
  /-- Interval this timer is set at right now, as an index into the table. -/
  currentSetting : Nat
  deriving DecidableEq, Repr

/-- The sources of the timers. -/
def mTimerSourceDescs : SupportedTimer → PchSmmSourceDesc
  | .periodicTimer => smiSourceDesc 14
  | .swsmiTimer => smiSourceDesc 6

/-- The tick interval of a timer context. -/
def PchSmmContext.smiTickInterval : PchSmmContext → Nat
  | .periodicTimer _ smiTickInterval => smiTickInterval
  | _ => 0

/-- The table entry for a timer context: the one of the tick interval, or without a tick interval the
longest that is not above the period. -/
def contextToTimerInterval : PchSmmContext → Option TimerInterval
  | .periodicTimer period smiTickInterval =>
    mSmmPeriodicTimerIntervals.find? fun t ↦
      (smiTickInterval == 0 && decide (t.interval ≤ period)) || smiTickInterval == t.interval
  | _ => none

/-- What the dispatcher keeps for the standard protocols, besides its database. -/
structure CoreState (H : Type) where
  /-- The callback database and the registers. -/
  pch : PchSmiDispatcher H
  /-- What is known about the timers. -/
  mTimers : SupportedTimer → TimerInfo
  /-- The elapsed time of each record, by the address of its link. -/
  elapsedTime : Nat → BitVec 64

namespace CoreState

variable {H : Type} (s : CoreState H)

/-- The state with other register contents. -/
def setHw (hw : H) : CoreState H := { s with pch := s.pch.setHw hw }

/-- The state with a new record at the tail of the database, whose elapsed time is zero. -/
def insertTailList (record : Nat → DatabaseRecord) (hlink : ∀ link, (record link).link = link) :
    CoreState H :=
  { s with
    pch := s.pch.insertTailList record hlink
    elapsedTime := Function.update s.elapsedTime s.pch.nextLink 0 }

end CoreState

/-- Count one more child of a timer. -/
def addChild (timers : SupportedTimer → TimerInfo) (timer : SupportedTimer)
    (smiTickInterval : Nat) : SupportedTimer → TimerInfo :=
  Function.update timers timer
    { timers timer with
      numChildren := (timers timer).numChildren + 1
      minReqInterval := min (timers timer).minReqInterval smiTickInterval }

/-- Find the minimum required interval for each timer. The second component is false if the walk
stops at a child whose interval is not in the table. -/
def requiredTimers (timers : SupportedTimer → TimerInfo) :
    List DatabaseRecord → (SupportedTimer → TimerInfo) × Bool
  | [] => (timers, true)
  | r :: rs =>
    if r.protocolType = .periodicTimerType then
      match contextToTimerInterval r.childContext with
      | none => (timers, false)
      | some t => requiredTimers (addChild timers t.associatedTimer r.childContext.smiTickInterval) rs
    else requiredTimers timers rs

/-- The timers before their children are counted. -/
def resetTimers (timers : SupportedTimer → TimerInfo) (timer : SupportedTimer) : TimerInfo :=
  { timers timer with numChildren := 0, minReqInterval := 0xFFFFFFFFFFFFFFFF }

/-- A rate that a timer can be set to: the interval, its code in the configuration register, and its
index in the table of intervals. -/
structure TimerRate where
  /-- The interval. -/
  interval : Nat
  /-- The code. -/
  value : BitVec 64
  /-- The index. -/
  setting : Nat

section Program

variable {H : Type} (P : PchHardware H) (s : CoreState H)

/-- Write a rate to the configuration register of a timer: clear the bits of the mask, set those of
the rate. An interval with no rate leaves them clear. -/
def programRate (timer : SupportedTimer) (addr : PchSmmAddress) (mask : BitVec 64)
    (rates : List TimerRate) : CoreState H :=
  match rates.find? fun rate ↦ rate.interval == (s.mTimers timer).minReqInterval with
  | some rate =>
    { s.setHw (andThenOr P s.pch.hw addr 1 (~~~mask) rate.value) with
      mTimers :=
        Function.update s.mTimers timer { s.mTimers timer with currentSetting := rate.setting } }
  | none => s.setHw (andThenOr P s.pch.hw addr 1 (~~~mask) 0)

/-- Set the rate of the periodic timer, and clear its SMI to restart it. -/
def programPeriodicTimer : CoreState H :=
  let srcDesc := mTimerSourceDescs .periodicTimer
  if 0 < (s.mTimers .periodicTimer).numChildren then
    let s := programRate P s .periodicTimer (.ofPcie 0 31 2 0xA0) 0x3
      [⟨640000000, 0, 0⟩, ⟨320000000, 1, 1⟩, ⟨160000000, 2, 2⟩, ⟨80000000, 3, 3⟩]
    s.setHw (pchSmmClearSource P s.pch.hw srcDesc)
  else s.setHw (pchSmmDisableSource P s.pch.hw srcDesc)

/-- Set the rate of the software SMI timer, and disable, clear and enable it to restart it. The
power failure status is in the same register, and is cleared by a one: it is written as zero. -/
def programSwsmiTimer : CoreState H :=
  let srcDesc := mTimerSourceDescs .swsmiTimer
  if 0 < (s.mTimers .swsmiTimer).numChildren then
    let s := programRate P s .swsmiTimer (.ofPcie 0 31 2 0xA4) 0xC2
      [⟨640000, 0xC0, 4⟩, ⟨320000, 0x80, 5⟩, ⟨160000, 0x40, 6⟩, ⟨15000, 0x00, 7⟩]
    let hw := pchSmmDisableSource P s.pch.hw srcDesc
    s.setHw (pchSmmEnableSource P (pchSmmClearSource P hw srcDesc) srcDesc)
  else s.setHw (pchSmmDisableSource P s.pch.hw srcDesc)

/-- Program the timers to what their children need. -/
def pchSmmPeriodicTimerProgramTimers : CoreState H :=
  let required := requiredTimers (resetTimers s.mTimers) s.pch.callbackDataBase
  let s := { s with mTimers := required.1 }
  if required.2 then programSwsmiTimer P (programPeriodicTimer P s) else s

/-- The source of a timer context, once the timers are programmed. A tick interval that is not in
the table leaves the descriptor as it is, which is zero. -/
def mapPeriodicTimerToSrcDesc (context : PchSmmContext) : CoreState H × PchSmmSourceDesc :=
  match contextToTimerInterval context with
  | none => (s, zeroSourceDesc)
  | some t => (pchSmmPeriodicTimerProgramTimers P s, mTimerSourceDescs t.associatedTimer)

end Program

/-! ### Registration -/

/-- A registration: the callback, the context, and what decides the outcome besides. -/
structure CoreRequest where
  /-- The callback. -/
  dispatchFunction : Option Nat
  /-- The context. -/
  dispatchContext : PchSmmContext
  /-- The device path of a USB context. -/
  device : UsbDevicePath
  /-- What the local variable for the controller holds before it is set; `none` if it is no
  controller. An unsupported device path leaves it so. -/
  controller : Option PchUsbControllerType
  /-- The outcome of the pool allocation. -/
  alloc : Bool
  deriving DecidableEq, Repr

/-- The protocol that a context belongs to. -/
def PchSmmContext.protocolType : PchSmmContext → PchSmmProtocolType
  | .none => .pchSmiDispatchType
  | .sx _ _ => .sxType
  | .periodicTimer _ _ => .periodicTimerType
  | .sw _ => .swType
  | .powerButton _ => .powerButtonType
  | .usb _ => .usbType
  | .gpi _ => .gpiType

/-- No software SMI child has the value. -/
def smiInputValueDuplicateCheck (db : List DatabaseRecord) (swSmiInputValue : Nat) : Bool :=
  db.all fun r ↦ !(r.protocolType == .swType && r.childContext == .sw swSmiInputValue)

/-- The input value that a software SMI child gets, `none` if it gets none. A child that asks for
the highest number is given the first free one. -/
def swSmiInputValueFor (db : List DatabaseRecord) (swSmiInputValue : Nat) : Option Nat :=
  let value :=
    if swSmiInputValue = 0xFFFFFFFFFFFFFFFF then
      ((List.range' 1 254).find? fun i ↦ smiInputValueDuplicateCheck db i).getD swSmiInputValue
    else swSmiInputValue
  if 0xFF < value then none
  else if smiInputValueDuplicateCheck db value then some value
  else none

section Register

variable {H : Type} (P : PchHardware H) (s : CoreState H)

/-- Check the context and find the source: the context the record keeps, the source, the clear hook
and the state, `none` if the context is refused. -/
def mapToSrcDesc (q : CoreRequest) :
    Option (PchSmmContext × PchSmmSourceDesc × Option PchSmmClearSource × CoreState H) :=
  match q.dispatchContext with
  | .usb type =>
    if 1 < type then none
    else
      let controller := (devicePathToSupportedController q.device).or q.controller
      some (q.dispatchContext, mapUsbToSrcDesc type controller, none, s)
  | .sx type phase =>
    if 6 ≤ type ∨ 2 ≤ phase then none else some (q.dispatchContext, sxSourceDesc, none, s)
  | .sw swSmiInputValue =>
    (swSmiInputValueFor s.pch.callbackDataBase swSmiInputValue).map fun value ↦
      (.sw value, swSourceDesc, none, s)
  | .gpi gpiNum =>
    (gpioGetPadAndSmiRegs mPchGpioGroupInfo (gpiNum % 0x100000000)).map fun regs ↦
      (q.dispatchContext, gpiSourceDesc regs, none, s)
  | .powerButton phase =>
    if 1 < phase then none else some (q.dispatchContext, powerButtonSourceDesc, none, s)
  | .periodicTimer _ smiTickInterval =>
    if smiTickInterval = 0 then none
    else
      let r := mapPeriodicTimerToSrcDesc P s q.dispatchContext
      some (q.dispatchContext, r.2, some .pchSmmPeriodicTimerClearSource, r.1)
  | .none => none

/-- The record of a registration. -/
def coreRecord (q : CoreRequest) (childContext : PchSmmContext) (srcDesc : PchSmmSourceDesc)
    (clearSource : Option PchSmmClearSource) (link : Nat) : DatabaseRecord where
  link := link
  srcDesc := srcDesc
  callback := q.dispatchFunction
  childContext := childContext
  clearSource := clearSource
  contextFunctions := mContextFunctions q.dispatchContext.protocolType
  protocolType := q.dispatchContext.protocolType
  pchSmiCallback := none
  pchSmiType := .pchTcoSmiMchType

/-- Clear the source of a record: by the default function, or by programming the timers. -/
def clearNewSource (clearSource : Option PchSmmClearSource) (srcDesc : PchSmmSourceDesc) :
    CoreState H :=
  match clearSource with
  | none => s.setHw (pchSmmClearSource P s.pch.hw srcDesc)
  | some _ => pchSmmPeriodicTimerProgramTimers P s

/-- Register a child of one of the standard protocols. The last component is the handle and the
context written back. -/
def pchSmmCoreRegister (q : CoreRequest) :
    EfiStatus × CoreState H × Option (Nat × PchSmmContext) :=
  if !q.alloc then (.outOfResources, s, none)
  else
    match mapToSrcDesc P s q with
    | none => (.invalidParameter, s, none)
    | some (childContext, srcDesc, clearSource, s) =>
      if compareSources srcDesc nullSourceDesc then (.invalidParameter, s, none)
      else
        let link := s.pch.nextLink
        let s := s.insertTailList (coreRecord q childContext srcDesc clearSource) fun _ ↦ rfl
        let s := clearNewSource P s clearSource srcDesc
        (.success, s.setHw (pchSmmEnableSource P s.pch.hw srcDesc), some (link, childContext))

/-- One call of the core services. -/
inductive CoreCall
  /-- A registration. -/
  | register (q : CoreRequest)
  /-- An unregistration. -/
  | unRegister (dispatchHandle : Option Nat)
  deriving DecidableEq, Repr

/-- The state after one call. -/
def coreNext : CoreCall → CoreState H
  | .register q => (pchSmmCoreRegister P s q).2.1
  | .unRegister dispatchHandle => { s with pch := (pchSmmCoreUnRegister P s.pch dispatchHandle).2 }

end Register

/-- The state after the driver's initialisation: nothing is registered yet. -/
def initialCore {H : Type} (hw : H) : CoreState H where
  pch := initialDispatcher hw
  mTimers _ := ⟨0, 0, 0⟩
  elapsedTime _ := 0

end PurleyFirmware.PchSmi
