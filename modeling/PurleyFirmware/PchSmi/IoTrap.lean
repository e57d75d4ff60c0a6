import Mathlib.Logic.Function.Basic
import PurleyFirmware.Foundation.Unsigned
import PurleyFirmware.PchSmi.TcoDispatch

/-!
# I/O traps

The driver that shares the four I/O trap registers among any number of children. A child asks for an
address range and a direction; address zero asks for a range from a common pool, which is one trap
of 256 bytes shared by all children that fit.

## State

The trap registers live in two places, the trap unit itself and a copy in the DMI source decode, and
the SMI enable of a trap is bit 0 of its own register. Both are plain registers, so the hardware is
the register file. Each trap in use also has a record in the dispatcher's callback database; the
children have records of their own in a second list.

A trap register counts as **free** when its address field is zero. Which child uses which trap is
not recorded by the source. `IoTrapRecord.trap` keeps it for the statements; no function reads it.

## Merging

A registration with an explicit address sets `TempMergeDisable`, and with that flag every trap in
use is skipped. The branch of the source that extends a trap to an explicit address is behind that
test and is never reached, so it has no counterpart here.
-/

namespace PurleyFirmware.PchSmi

open PchSmmBitDesc

/-! ### Trap registers -/

/-- `IO_TRAP_HANDLER_NUM`. -/
abbrev ioTrapHandlerNum : ℕ := 4

/-- The registers behind the traps. -/
abbrev PchRegisters : Type := PchSmmAddress → BitVec 64

/-- A register of the trap unit. -/
def psthPcr (offset : BitVec 32) : PchSmmAddress := ⟨.pcr, 0xFD000000 ||| (0x89 <<< 16) ||| offset⟩

/-- A register of the DMI source decode. -/
def dmiPcr (offset : BitVec 32) : PchSmmAddress := ⟨.pcr, 0xFD000000 ||| (0xEF <<< 16) ||| offset⟩

/-- The low dword of a trap register. -/
def trpreg (n : Fin ioTrapHandlerNum) : PchSmmAddress := psthPcr (0x1E80 + BitVec.ofNat 32 (n.val * 8))

/-- The high dword of a trap register. -/
def trpregHigh (n : Fin ioTrapHandlerNum) : PchSmmAddress :=
  psthPcr (0x1E84 + BitVec.ofNat 32 (n.val * 8))

/-- The copy of the low dword in the DMI source decode. -/
def dmiIot (n : Fin ioTrapHandlerNum) : PchSmmAddress := dmiPcr (0x2750 + BitVec.ofNat 32 (n.val * 8))

/-- The copy of the high dword in the DMI source decode. -/
def dmiIotHigh (n : Fin ioTrapHandlerNum) : PchSmmAddress :=
  dmiPcr (0x2754 + BitVec.ofNat 32 (n.val * 8))

/-- Read a dword. -/
def pchPcrRead32 (hw : PchRegisters) (addr : PchSmmAddress) : BitVec 32 :=
  (PchHardware.registerFile.read hw addr 4).setWidth 32

/-- Write a dword. -/
def pchPcrWrite32 (hw : PchRegisters) (addr : PchSmmAddress) (value : BitVec 32) : PchRegisters :=
  PchHardware.registerFile.write hw addr 4 (value.setWidth 64)

/-- Write the low dword of a trap in both places. -/
def setIoTrapLowDword (hw : PchRegisters) (n : Fin ioTrapHandlerNum) (value : BitVec 32) :
    PchRegisters :=
  pchPcrWrite32 (pchPcrWrite32 hw (trpreg n) value) (dmiIot n) value

/-- Write the high dword of a trap in both places. -/
def setIoTrapHighDword (hw : PchRegisters) (n : Fin ioTrapHandlerNum) (value : BitVec 32) :
    PchRegisters :=
  pchPcrWrite32 (pchPcrWrite32 hw (trpregHigh n) value) (dmiIotHigh n) value

/-- The address field of a trap register. -/
def trpregAd (low : BitVec 32) : BitVec 32 := low &&& 0xFFFC

/-- The length a trap register stands for. -/
def trpregUsedLength (low : BitVec 32) : BitVec 32 := ((low >>> 16) &&& 0xFC) + 4

/-- A trap register that covers `usedLength` bytes from `baseAddress`, with the SMI enabled. -/
def trpregLowDword (usedLength : BitVec 32) (baseAddress : BitVec 16) : BitVec 32 :=
  (((usedLength - 1) &&& ~~~3) <<< 16) ||| baseAddress.setWidth 32 ||| 1

/-! ### Children -/

/-- The direction a child traps. The last value stands for every value that is not valid. -/
inductive IoTrapType
  | writeTrap
  | readTrap
  | readWriteTrap
  | ioTrapTypeMaximum
  deriving DecidableEq, Repr

/-- The direction as the register field takes it. -/
def IoTrapType.code : IoTrapType → BitVec 32
  | .writeTrap => 0
  | .readTrap => 1
  | .readWriteTrap => 2
  | .ioTrapTypeMaximum => 3

/-- What a child asks for. -/
structure IoTrapContext where
  /-- First port, zero for a range from the common pool. -/
  address : BitVec 16
  /-- Number of ports. -/
  length : BitVec 16
  /-- The direction. -/
  type : IoTrapType
  deriving DecidableEq, Repr

/-- A child's record. -/
structure IoTrapRecord where
  /-- The address of the record's link, which is the child's handle. -/
  link : ℕ
  /-- What the child asked for, with the address it got. -/
  context : IoTrapContext
  /-- The child's dispatch function. -/
  callback : ℕ
  /-- The trap whose register the registration programmed or shared. The source does not keep it. -/
  trap : Fin ioTrapHandlerNum
  deriving DecidableEq, Repr

/-- A range of 256 ports from the I/O space map, aligned as the allocation asks. -/
structure IoRange where
  /-- Its first port. -/
  base : BitVec 16
  /-- The alignment. -/
  aligned : base &&& 0xFF = 0

/-- How the allocations of one registration turn out. -/
structure IoTrapAllocation where
  /-- `AllocateIoSpace`, when it is called. -/
  ioSpace : Option IoRange
  /-- The allocation of the record in the dispatcher's database. -/
  smiRecord : Bool
  /-- The allocation of the child's record. -/
  record : Bool

/-- The driver's data. -/
structure IoTrapInstance where
  /-- The SMI dispatcher, which holds the registers and the ready-to-lock flag. -/
  smi : PchSmiDispatcher PchRegisters
  /-- The global the internal registration writes its handle to. -/
  mIoTrapHandle : Option ℕ
  /-- The handle of the dispatcher's record of each trap. -/
  ioTrapHandle : Fin ioTrapHandlerNum → Option ℕ
  /-- The children's records, in list order. -/
  callbackDataBase : List IoTrapRecord
  /-- How much of each pool is used. -/
  trapUsedLength : Fin ioTrapHandlerNum → ℕ
  /-- The trap has one child with an explicit address. -/
  mergeDisable : Fin ioTrapHandlerNum → Bool
  /-- The trap's range was allocated from the I/O space map. -/
  trackIoResource : Fin ioTrapHandlerNum → Bool
  /-- The range reported to ACPI. -/
  nvsIoTrapAddress : Fin ioTrapHandlerNum → BitVec 16
  /-- Whether a range is reported to ACPI. -/
  nvsIoTrapStatus : Fin ioTrapHandlerNum → Bool
  /-- The ranges of the I/O space map that this driver has allocated and not freed. -/
  ioSpace : List (BitVec 16)

namespace IoTrapInstance

variable (s : IoTrapInstance)

/-- The low dword of a trap. -/
def low (n : Fin ioTrapHandlerNum) : BitVec 32 := pchPcrRead32 s.smi.hw (trpreg n)

/-- The high dword of a trap. -/
def high (n : Fin ioTrapHandlerNum) : BitVec 32 := pchPcrRead32 s.smi.hw (trpregHigh n)

/-- The trap can be taken. -/
def IsFree (n : Fin ioTrapHandlerNum) : Prop := trpregAd (s.low n) = 0

instance (n : Fin ioTrapHandlerNum) : Decidable (s.IsFree n) := inferInstanceAs (Decidable (_ = _))

/-- The data with other register contents. -/
def setHw (hw : PchRegisters) : IoTrapInstance := { s with smi := s.smi.setHw hw }

/-- Report a range to ACPI, or take it back. -/
def updateIoTrapAcpiResources (n : Fin ioTrapHandlerNum) (baseAddress : BitVec 16) (track : Bool) :
    IoTrapInstance :=
  if track then
    { s with
      nvsIoTrapAddress := Function.update s.nvsIoTrapAddress n baseAddress
      nvsIoTrapStatus := Function.update s.nvsIoTrapStatus n true }
  else { s with nvsIoTrapStatus := Function.update s.nvsIoTrapStatus n false }

end IoTrapInstance

/-! ### The record of a trap in the dispatcher -/

/-- The source descriptor of a trap. -/
def mSrcDescIoTrap (n : Fin ioTrapHandlerNum) : PchSmmSourceDesc :=
  ⟨.noFlags, enBits ⟨trpreg n, 4, 0⟩ nullBitDesc, stsBits ⟨psthPcr 0x1E00, 1, n.val⟩,
    ⟨⟨.acpi, 0x34⟩, 4, 21⟩⟩

/-- The dispatch function of every trap's record. -/
def ioTrapCallbackName : ℕ := 0

/-- Insert the dispatcher's record of a trap and enable its SMI. The handle is written only when the
insertion succeeds. -/
def pchInternalIoTrapSmiRegister (s : IoTrapInstance) (alloc : Bool) (n : Fin ioTrapHandlerNum) :
    EfiStatus × IoTrapInstance :=
  let P := PchHardware.registerFile
  let (status, smi, handle) :=
    pchSmiRecordInsert s.smi alloc (mSrcDescIoTrap n) (some ioTrapCallbackName) .pchIoTrapSmiType
  let hw := pchSmmEnableSource P (pchSmmClearSource P smi.hw (mSrcDescIoTrap n)) (mSrcDescIoTrap n)
  (status, { s with smi := smi.setHw hw, mIoTrapHandle := handle.or s.mIoTrapHandle })

/-- Remove the dispatcher's record with a given handle. -/
def pchInternalIoTrapSmiUnRegister (s : IoTrapInstance) (handle : Option ℕ) :
    EfiStatus × IoTrapInstance :=
  let (status, smi) := pchSmmCoreUnRegister PchHardware.registerFile s.smi handle
  (status, { s with smi := smi })

/-! ### Registration -/

/-- The argument checks, in order. A length of three is the only one that is not a power of two, and
a range of less than four ports must not cross a dword. -/
def ioTrapCheck (context : IoTrapContext) : Bool :=
  let address := context.address.toNat
  let length := context.length.toNat
  context.type != .ioTrapTypeMaximum &&
    (decide (1 ≤ length) && decide (length ≤ 256)) &&
    (context.length &&& (context.length - 1) == 0 || length == 3) &&
    !((decide (4 ≤ length) && context.address &&& 3 != 0) ||
      (decide (length < 4) && decide (4 < address % 4 + length))) &&
    !(decide (4 ≤ length) && context.address &&& (context.length - 1) != 0)

/-- The high dword of a new trap: the byte enables of a range within a dword, and the direction. -/
def trpregHighDword (context : IoTrapContext) (usedLength : BitVec 32) : BitVec 32 :=
  (if usedLength < 4#32 then
    ((1#32 <<< usedLength.toNat) - 1) <<< (context.address.toNat % 4 + 4)
  else 0xF0) ||| (context.type.code <<< 16)

/-- What one trap means for a registration. -/
inductive TrapAnswer
  /-- Look at the next trap. -/
  | next
  /-- Return an error. -/
  | refuse (status : EfiStatus)
  /-- The trap is programmed, and the context holds the child's range. -/
  | take (s : IoTrapInstance) (context : IoTrapContext)

/-- Program a free trap for a range that starts at `baseAddress`. -/
def programTrap (s : IoTrapInstance) (alloc : IoTrapAllocation) (n : Fin ioTrapHandlerNum)
    (context : IoTrapContext) (baseAddress : BitVec 16) (usedLength : BitVec 32)
    (tempMergeDisable : Bool) : IoTrapInstance :=
  let s := (pchInternalIoTrapSmiRegister s alloc.smiRecord n).2
  let hw := setIoTrapLowDword s.smi.hw n (trpregLowDword usedLength baseAddress)
  let hw := setIoTrapHighDword hw n (trpregHighDword context usedLength)
  { s.setHw hw with
    ioTrapHandle := Function.update s.ioTrapHandle n s.mIoTrapHandle
    mergeDisable := Function.update s.mergeDisable n tempMergeDisable }

/-- A free trap: for an explicit address it takes the range, and for address zero it becomes a pool
in a range of the I/O space map. -/
def takeFreeTrap (s : IoTrapInstance) (alloc : IoTrapAllocation) (context : IoTrapContext)
    (n : Fin ioTrapHandlerNum) : TrapAnswer :=
  if context.address = 0 then
    match alloc.ioSpace with
    | none => .refuse .outOfResources
    | some range =>
      let context := { context with address := range.base }
      let s := { s with
        ioSpace := range.base :: s.ioSpace
        trapUsedLength := Function.update s.trapUsedLength n context.length.toNat
        trackIoResource := Function.update s.trackIoResource n true }
      let s := s.updateIoTrapAcpiResources n range.base true
      .take (programTrap s alloc n context range.base 256 false) context
  else
    .take (programTrap s alloc n context (context.address &&& 0xFFFC)
      (context.length.setWidth 32) true) context

/-- The direction of a shared trap: both directions are trapped as soon as the children differ. -/
def mergeDirection (high : BitVec 32) (type : IoTrapType) : BitVec 32 :=
  if high &&& (1#32 <<< 17) = 0 ∧ (high &&& (1#32 <<< 16)) >>> 16 ≠ type.code then
    (high ||| (1#32 <<< 17)) &&& ~~~(1#32 <<< 16)
  else high

/-- A trap in use: only a pool with room left, and only for address zero. -/
def shareUsedTrap (s : IoTrapInstance) (context : IoTrapContext) (n : Fin ioTrapHandlerNum) :
    TrapAnswer :=
  if context.address ≠ 0 ∨ s.mergeDisable n then .next
  else if 256 ≤ s.trapUsedLength n then .next
  else if trpregUsedLength (s.low n) < 256#32 then .next
  else if 256 - s.trapUsedLength n ≤ context.length.toNat then .next
  else
    let type := context.type
    let context := { context with
      address := (trpregAd (s.low n)).setWidth 16 + BitVec.ofNat 16 (s.trapUsedLength n) }
    let s' := { s with
      trapUsedLength := Function.update s.trapUsedLength n
        (s.trapUsedLength n + context.length.toNat) }
    let high := mergeDirection (s.high n) type
    .take (if high = s.high n then s' else s'.setHw (setIoTrapHighDword s.smi.hw n high)) context

/-- The loop over the traps: the first one that does not say `next` decides. The result is the
answer with the trap it comes from. -/
def searchTrap (s : IoTrapInstance) (alloc : IoTrapAllocation) (context : IoTrapContext) :
    List (Fin ioTrapHandlerNum) → TrapAnswer × Option (Fin ioTrapHandlerNum)
  | [] => (.refuse .outOfResources, none)
  | n :: ns =>
    match if s.IsFree n then takeFreeTrap s alloc context n else shareUsedTrap s context n with
    | .next => searchTrap s alloc context ns
    | answer => (answer, some n)

/-- Append a child's record at the tail of the list; its handle is the address of its link. -/
def insertIoTrapRecord (s : IoTrapInstance) (context : IoTrapContext) (callback : ℕ)
    (n : Fin ioTrapHandlerNum) : IoTrapInstance :=
  { s with
    smi := s.smi.allocatePool
    callbackDataBase := s.callbackDataBase ++ [⟨s.smi.nextLink, context, callback, n⟩] }

/-- Register a child. The result is the status, the new data, and the handle and context written
back on success. -/
def ioTrapRegister (s : IoTrapInstance) (alloc : IoTrapAllocation) (dispatchFunction : ℕ)
    (context : IoTrapContext) : EfiStatus × IoTrapInstance × Option (ℕ × IoTrapContext) :=
  if !ioTrapCheck context then (.invalidParameter, s, none)
  else if s.smi.readyToLock then (.accessDenied, s, none)
  else
    match searchTrap s alloc context (List.finRange ioTrapHandlerNum) with
    | (.take s' context', some n) =>
      if !alloc.record then (.outOfResources, s', none)
      else (.success, insertIoTrapRecord s' context' dispatchFunction n,
        some (s'.smi.nextLink, context'))
    | (.refuse status, _) => (status, s, none)
    | _ => (.outOfResources, s, none)

/-! ### Unregistration -/

/-- The lengths a trap can be cut down to. -/
def mLengthTable : List ℕ := [1, 2, 3, 4, 8, 16, 32, 64, 128, 256]

/-- The trap register ends where the record's range ends. -/
def EndsWith (low : BitVec 32) (context : IoTrapContext) : Prop :=
  (trpregAd low).toNat + (trpregUsedLength low).toNat =
    context.address.toNat + context.length.toNat

instance (low : BitVec 32) (context : IoTrapContext) : Decidable (EndsWith low context) :=
  inferInstanceAs (Decidable (_ = _))

/-- The trap that the unregistration works on: the first one in use that ends where the record
ends. -/
def ownerGuess (s : IoTrapInstance) (context : IoTrapContext) : Option (Fin ioTrapHandlerNum) :=
  (List.finRange ioTrapHandlerNum).find? fun n ↦ ¬ s.IsFree n ∧ EndsWith (s.low n) context

/-- Disable a trap. The flag is cleared before it is tested, so the range is never freed. -/
def disableTrap (s : IoTrapInstance) (n : Fin ioTrapHandlerNum) : IoTrapInstance :=
  let baseAddress := (trpregAd (s.low n)).setWidth 16
  let s := { s with mIoTrapHandle := s.ioTrapHandle n }
  let s := (pchInternalIoTrapSmiUnRegister s s.mIoTrapHandle).2
  let s := { s with trackIoResource := Function.update s.trackIoResource n false }
  let s := s.setHw (setIoTrapHighDword s.smi.hw n 0)
  let s := if s.trackIoResource n then
    { s with
      trackIoResource := Function.update s.trackIoResource n false
      ioSpace := s.ioSpace.erase baseAddress }.updateIoTrapAcpiResources n baseAddress false
    else s
  s.setHw (setIoTrapLowDword s.smi.hw n 0)

/-- Cut a trap down by the record at its end, if what remains has a length the register can
hold. -/
def cutTrap (s : IoTrapInstance) (n : Fin ioTrapHandlerNum) (context : IoTrapContext) :
    IoTrapInstance :=
  let usedLength := trpregUsedLength (s.low n) - context.length.setWidth 32
  if usedLength.toNat ∈ mLengthTable then
    s.setHw (setIoTrapLowDword s.smi.hw n
      (trpregLowDword usedLength ((trpregAd (s.low n)).setWidth 16)))
  else s

/-- What an unregistration does to the traps. -/
def releaseTrap (s : IoTrapInstance) (context : IoTrapContext) : IoTrapInstance :=
  match ownerGuess s context with
  | none => s
  | some n =>
    if trpregAd (s.low n) = context.address.setWidth 32 then disableTrap s n
    else cutTrap s n context

/-- Unregister a child. -/
def ioTrapUnRegister (s : IoTrapInstance) (dispatchHandle : Option ℕ) :
    EfiStatus × IoTrapInstance :=
  match dispatchHandle with
  | none => (.invalidParameter, s)
  | some link =>
    if s.smi.readyToLock then (.accessDenied, s)
    else
      match s.callbackDataBase.find? fun r ↦ r.link == link with
      | none => (.invalidParameter, s)
      | some record =>
        let s := releaseTrap s record.context
        (.success, { s with
          callbackDataBase := s.callbackDataBase.filter fun r ↦ r.link != link })

/-! ### Call sequences -/

/-- A call of the driver's protocol. -/
inductive IoTrapCall
  | register (alloc : IoTrapAllocation) (dispatchFunction : ℕ) (context : IoTrapContext)
  | unRegister (dispatchHandle : Option ℕ)

/-- The data after a call. -/
def ioTrapNext (s : IoTrapInstance) : IoTrapCall → IoTrapInstance
  | .register alloc dispatchFunction context =>
    (ioTrapRegister s alloc dispatchFunction context).2.1
  | .unRegister dispatchHandle => (ioTrapUnRegister s dispatchHandle).2

/-- The data before the first registration: no child, every register clear. -/
def IoTrapInstance.initial : IoTrapInstance where
  smi := initialDispatcher fun _ ↦ 0
  mIoTrapHandle := none
  ioTrapHandle _ := none
  callbackDataBase := []
  trapUsedLength _ := 0
  mergeDisable _ := false
  trackIoResource _ := false
  nvsIoTrapAddress _ := 0
  nvsIoTrapStatus _ := false
  ioSpace := []

end PurleyFirmware.PchSmi
