import PurleyFirmware.Foundation.BitField
import Mathlib.Logic.Function.Basic

/-!
# CPU register tables

The two interpreters of a CPU register table: `SetProcessorRegisterEx` of `Setting.c`, which the
setting phase runs at boot, before and behind the CPU-only reset, and `SetProcessorRegister` of
`CpuS3.c`, which runs on resume. Registers hold what was written to them, and the cache is on or off
as bits 29 and 30 of CR0 have it.
-/

namespace PurleyFirmware.CpuMp

/-! ### Tables -/

/-- The width of a `UINTN`. -/
inductive Uintn
  | ia32
  | x64

/-- The number of its bits. -/
def Uintn.bits : Uintn → ℕ
  | .ia32 => 32
  | .x64 => 64

theorem Uintn.bits_le (u : Uintn) : u.bits ≤ 64 := by
  cases u with
  | ia32 => decide
  | x64 => decide

/-- `REGISTER_TYPE`, with one constructor for the types that neither interpreter knows. -/
inductive RegisterType
  | msr
  | controlRegister
  | cacheControl
  | other
  deriving DecidableEq

/-- Whether an entry of such a type, index and length is written with `BitFieldWrite64`. -/
def writesBitField (registerType : RegisterType) (index : BitVec 32) (validBitLength : BitVec 8) :
    Bool :=
  match registerType with
  | .msr => decide (validBitLength.toNat < 64)
  | .controlRegister => index == 0 || index == 2 || index == 3 || index == 4
  | _ => false

/-- `CPU_REGISTER_TABLE_ENTRY`. -/
structure CpuRegisterTableEntry where
  registerType : RegisterType
  index : BitVec 32
  validBitStart : BitVec 8
  validBitLength : BitVec 8
  value : BitVec 64
  /-- What `BitFieldWrite64` asserts of the bits it is given. -/
  valid : writesBitField registerType index validBitLength = true →
    1 ≤ validBitLength.toNat ∧ validBitStart.toNat + validBitLength.toNat ≤ 64

/-- `EFI_MSR_IA32_BIOS_UPDT_TRIG`. -/
def biosUpdtTrig : BitVec 32 := 0x79

namespace CpuRegisterTableEntry

/-- The last bit of the field. -/
def validBitEnd (e : CpuRegisterTableEntry) : ℕ :=
  e.validBitStart.toNat + e.validBitLength.toNat - 1

/-- An entry for a microcode update. -/
def isMicrocode (e : CpuRegisterTableEntry) : Bool :=
  e.registerType == .msr && e.index == biosUpdtTrig

/-- An entry for a register of a machine check bank. -/
def isMachineCheck (e : CpuRegisterTableEntry) : Bool :=
  e.registerType == .msr && (decide (0x400 ≤ e.index) && decide (e.index ≤ 0x44C))

end CpuRegisterTableEntry

/-- Whether a table begins with an entry for a microcode update. -/
def leadingMicrocode (entries : List CpuRegisterTableEntry) : Bool :=
  match entries.head? with
  | some e => e.isMicrocode
  | none => false

/-- `CPU_REGISTER_TABLE`, with the entries that `RegisterTableEntry` points to. -/
structure CpuRegisterTable where
  entries : List CpuRegisterTableEntry
  numberBeforeReset : ℕ
  /-- `ProgramBeforeReset` counts the entries it adds behind a leading microcode entry. -/
  before_le :
    (if leadingMicrocode entries then 1 else 0) + numberBeforeReset ≤ entries.length

/-! ### Registers -/

/-- The registers of a processor. -/
structure Registers (u : Uintn) where
  msr : BitVec 32 → BitVec 64
  cr0 : BitVec u.bits
  cr2 : BitVec u.bits
  cr3 : BitVec u.bits
  cr4 : BitVec u.bits

section

variable {u : Uintn}

/-- `(UINTN) BitFieldWrite64 (Value, ...)` for a `UINTN` `Value`. -/
def fieldWrite (e : CpuRegisterTableEntry) (value : BitVec 64) (old : BitVec u.bits) :
    BitVec u.bits :=
  (bitFieldWrite (old.setWidth 64) e.validBitStart.toNat e.validBitEnd value).setWidth u.bits

namespace Registers

/-- The case `ControlRegister`, with the value as the interpreter passes it on. -/
def setControlRegister (s : Registers u) (e : CpuRegisterTableEntry) (value : BitVec 64) :
    Registers u :=
  if e.index = 0 then { s with cr0 := fieldWrite e value s.cr0 }
  else if e.index = 2 then { s with cr2 := fieldWrite e value s.cr2 }
  else if e.index = 3 then { s with cr3 := fieldWrite e value s.cr3 }
  else if e.index = 4 then { s with cr4 := fieldWrite e value s.cr4 }
  else s

/-- `AsmWriteMsr64` for 64 bits and more, else `AsmMsrBitFieldWrite64`. -/
def setMsr (s : Registers u) (e : CpuRegisterTableEntry) : Registers u :=
  { s with
    msr := Function.update s.msr e.index
      (if 64 ≤ e.validBitLength.toNat then e.value
      else bitFieldWrite (s.msr e.index) e.validBitStart.toNat e.validBitEnd e.value) }

/-- `AsmDisableCache` and `AsmEnableCache`. -/
def setCache (s : Registers u) (e : CpuRegisterTableEntry) : Registers u :=
  if e.value = 0 then { s with cr0 := (s.cr0 ||| 0x40000000) &&& ~~~0x20000000 }
  else { s with cr0 := s.cr0 &&& ~~~0x20000000 &&& ~~~0x40000000 }

end Registers

/-! ### At boot -/

/-- What `SetProcessorRegisterEx` reads beside the table. -/
structure BootSettings where
  /-- `PcdCpuMicrocodeUpdateFlag`. -/
  microcodeUpdateFlag : Bool
  /-- `MicrocodeRevision` of the processor. -/
  microcodeRevision : BitVec 32
  /-- `mPcdMachineCheckEnable`. -/
  machineCheckEnable : Bool

/-- The registers, and the entries that were executed. -/
structure Pass (u : Uintn) where
  registers : Registers u
  executed : List CpuRegisterTableEntry

variable (B : BootSettings)

/-- A round of the loop of `SetProcessorRegisterEx`. -/
def executeAtBoot (restoreSettingAfterInit : Bool) (p : Pass u) (e : CpuRegisterTableEntry) :
    Pass u :=
  match e.registerType with
  | .controlRegister => ⟨p.registers.setControlRegister e e.value, p.executed ++ [e]⟩
  | .msr =>
    -- the workaround: registers of machine check banks are passed over
    if !B.machineCheckEnable && (decide (0x400 ≤ e.index) && decide (e.index ≤ 0x44C)) then p
    else if restoreSettingAfterInit then p
    else ⟨p.registers.setMsr e, p.executed ++ [e]⟩
  | .cacheControl => ⟨p.registers.setCache e, p.executed ++ [e]⟩
  | .other => ⟨p.registers, p.executed ++ [e]⟩

/-- The first `StartIndex`. -/
def startIndex (t : CpuRegisterTable) : ℕ :=
  if B.microcodeUpdateFlag && B.microcodeRevision != 0 && leadingMicrocode t.entries then 1 else 0

/-- `SetProcessorRegisterEx`, for the table that `PreSmmInit` selects. -/
def setProcessorRegisterEx (restoreSettingAfterInit setBeforeCpuOnlyReset : Bool)
    (t : CpuRegisterTable) (p : Pass u) : Pass u :=
  let first := if setBeforeCpuOnlyReset then startIndex B t
    else startIndex B t + t.numberBeforeReset
  let last := if setBeforeCpuOnlyReset then startIndex B t + t.numberBeforeReset
    else t.entries.length
  ((t.entries.take last).drop first).foldl (executeAtBoot B restoreSettingAfterInit) p

/-- `SettingPhase` for a processor with table `t` among processors with tables `others`. The
registers keep their values across the CPU-only reset. -/
def settingPhase (t : CpuRegisterTable) (others : List CpuRegisterTable) (s : Registers u) :
    Pass u :=
  let needCpuOnlyReset := (t :: others).any fun table ↦ decide (0 < table.numberBeforeReset)
  let p := if needCpuOnlyReset then setProcessorRegisterEx B false true t ⟨s, []⟩ else ⟨s, []⟩
  setProcessorRegisterEx B false false t p

/-! ### On resume -/

/-- A round of the loop of the `SetProcessorRegister` of `CpuS3.c`. -/
def executeOnResume (s : Registers u) (e : CpuRegisterTableEntry) : Registers u :=
  match e.registerType with
  | .controlRegister => s.setControlRegister e ((e.value.setWidth u.bits).setWidth 64)
  | .msr => s.setMsr e
  | .cacheControl => s.setCache e
  | .other => s

/-- The `SetProcessorRegister` of `CpuS3.c`. -/
def setProcessorRegister (t : CpuRegisterTable) (s : Registers u) : Registers u :=
  t.entries.foldl executeOnResume s

end

end PurleyFirmware.CpuMp
