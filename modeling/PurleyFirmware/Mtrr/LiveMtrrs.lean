import PurleyFirmware.Foundation.WriteBack
import PurleyFirmware.Mtrr.SetAttribute

/-!
# Setting the registers of the processor

`MtrrSetMemoryAttribute` is `MtrrSetMemoryAttributeWorker` without a settings buffer. It works on
copies of the registers: a fixed one is read when the request comes to it, the variable ones are all
read at once. What has changed in the copies is written at the end. The first write is preceded by
`PreMtrrChange`, which turns off interrupts, the cache, global pages and the MTRRs, and the last one
is followed by `PostMtrrChange`.

While nothing has been written, the registers are as they were, so the checks of the variable ones are
those of `setVariables` with the registers for a buffer. With each write, the state in which it is made
is recorded.
-/

namespace PurleyFirmware.Mtrr

variable (P : MtrrPlatform)

/-! ### The processor -/

/-- What of a processor has to do with its MTRRs. -/
structure MtrrCpu where
  /-- The registers themselves. -/
  registers : MtrrSettings
  cr4 : BitVec 64
  /-- `CR0.CD` and `CR0.NW` are clear. -/
  cacheEnabled : Bool
  interruptState : Bool

/-- `MTRR_CONTEXT`. -/
structure MtrrContext where
  cr4 : BitVec 64
  interruptState : Bool

/-- `AsmMsrBitFieldWrite64` on `MTRR_LIB_IA32_MTRR_DEF_TYPE`, bits 10 and 11. -/
def MtrrCpu.writeEnableBits (c : MtrrCpu) (value : BitVec 64) : MtrrCpu :=
  { c with registers :=
      { c.registers with
        mtrrDefType := c.registers.mtrrDefType &&& ~~~(0xC00 : BitVec 64) ||| value <<< (10 : ℕ) } }

/-- `PreMtrrChange`. -/
def preMtrrChange (c : MtrrCpu) : MtrrContext × MtrrCpu :=
  (⟨c.cr4, c.interruptState⟩,
    { c with
      interruptState := false
      cacheEnabled := false
      cr4 := c.cr4 &&& ~~~(0x80 : BitVec 64) : MtrrCpu }.writeEnableBits 0)

/-- `PostMtrrChangeEnableCache`. -/
def postMtrrChangeEnableCache (context : MtrrContext) (c : MtrrCpu) : MtrrCpu :=
  { c with cacheEnabled := true, cr4 := context.cr4, interruptState := context.interruptState }

/-- `PostMtrrChange`. -/
def postMtrrChange (context : MtrrContext) (c : MtrrCpu) : MtrrCpu :=
  postMtrrChangeEnableCache context (c.writeEnableBits 3)

/-! ### The fixed registers -/

/-- `WorkingFixedSettings`, with `FixedSettingsValid` and `FixedSettingsModified`. -/
abbrev WorkingFixedSettings : Type := WriteBack ℕ (BitVec 64)

/-- The range that is left, and the copies. -/
structure LiveProgress where
  base : BitVec 64
  length : BitVec 64
  fixed : WorkingFixedSettings

/-- The loop over the fixed registers, on the copies. -/
def programFixedLive (registers : MtrrSettings) (memoryCacheType : BitVec 64) :
    ℕ → LiveProgress → EfiStatus × LiveProgress
  | 0, p => (.success, p)
  | n + 1, p =>
    if p.base < base1Mb ∧ p.length ≠ 0 then
      match programFixedMtrr memoryCacheType p.base p.length with
      | .error status => (status, p)
      | .ok (msrNum, b) =>
        programFixedLive registers memoryCacheType n
          ⟨b.base, b.length, p.fixed.modify registers.fixed msrNum fun register ↦
            register &&& ~~~b.clearMask ||| b.orMask⟩
    else (.success, p)

/-! ### Writing the registers -/

/-- The variables of the end of the worker: the processor, `MtrrContext` if it is valid, and the
states in which registers have been written. -/
structure LiveWrites where
  cpu : MtrrCpu
  context : Option MtrrContext
  writes : List MtrrCpu

/-- `PreMtrrChange`, unless it has been called. -/
def LiveWrites.prepare (w : LiveWrites) : LiveWrites :=
  match w.context with
  | some _ => w
  | none => { w with context := some (preMtrrChange w.cpu).1, cpu := (preMtrrChange w.cpu).2 }

/-- `AsmWriteMsr64` on a fixed register, or on the base or the mask of a variable one. -/
def LiveWrites.write (change : MtrrSettings → MtrrSettings) (w : LiveWrites) : LiveWrites :=
  { w with
    cpu := { w.cpu with registers := change w.cpu.registers }
    writes := w.writes ++ [w.cpu] }

/-- `PostMtrrChange`, if `PreMtrrChange` has been called. -/
def LiveWrites.finish (w : LiveWrites) : MtrrCpu :=
  match w.context with
  | some context => postMtrrChange context w.cpu
  | none => w.cpu

/-- What a call leaves: its status, the processor, and the states in which it was written to. -/
structure LiveResult where
  status : EfiStatus
  cpu : MtrrCpu
  writes : List MtrrCpu

end PurleyFirmware.Mtrr
