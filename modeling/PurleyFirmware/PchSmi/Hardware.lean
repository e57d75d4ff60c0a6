import PurleyFirmware.PchSmi.SourceDesc

/-!
# Reading and writing source bits

The register accesses behind the source descriptors. The registers themselves are not part of the
repository, so the hardware is a **parameter**: a type `H` of hardware states with a read and a
write for each address and width, and nothing is assumed about either. In particular a status
register need not keep what is written to it.

Every function here takes a hardware state and returns the one it leaves behind, in the order in
which the source makes its accesses. A failed assertion does not stop the model: the source's
release build goes on, and so do these definitions.
-/

namespace PurleyFirmware.PchSmi

open PchSmmBitDesc

/-- The registers of the platform, as the dispatcher sees them. -/
structure PchHardware (H : Type) where
  /-- The value read at an address, with the given width in bytes. -/
  read : H → PchSmmAddress → Nat → BitVec 64
  /-- The hardware after writing a value at an address, with the given width in bytes. -/
  write : H → PchSmmAddress → Nat → BitVec 64 → H
  /-- The hardware once a polled bit has read as zero. The source polls without a bound. -/
  waitClear : H → PchSmmBitDesc → H

/-- Registers that keep exactly what was last written to them. -/
def PchHardware.registerFile : PchHardware (PchSmmAddress → BitVec 64) where
  read hw addr _ := hw addr
  write hw addr _ value := fun addr' ↦ if addr' = addr then value else hw addr'
  waitClear hw _ := hw

variable {H : Type} (P : PchHardware H)

/-- Read a register, keep the bits of `andData`, set the bits of `orData` and write it back. -/
def andThenOr (hw : H) (addr : PchSmmAddress) (size : Nat) (andData orData : BitVec 64) : H :=
  P.write hw addr size ((P.read hw addr size &&& andData) ||| orData)

/-- The register four bytes further on. -/
def PchSmmAddress.next4 (addr : PchSmmAddress) : PchSmmAddress := { addr with raw := addr.raw + 4 }

/-- The width of a port access. Eight-byte registers are accessed four bytes at a time, and a width
that is not supported leaves the initial value, which selects a one-byte access. -/
def smmIoRegSize (sizeInBytes : Nat) : Nat :=
  if sizeInBytes = 2 then 2 else if sizeInBytes = 4 ∨ sizeInBytes = 8 then 4 else 1

/-- The port register and the bit position within it: the upper half of an eight-byte register is
four bytes further on. -/
def smmIoTarget (bitDesc : PchSmmBitDesc) : PchSmmAddress × Nat :=
  if bitDesc.sizeInBytes = 8 ∧ 32 ≤ bitDesc.bit then (bitDesc.reg.next4, bitDesc.bit - 32)
  else (bitDesc.reg, bitDesc.bit)

/-- Whether a bit of a register is set. -/
def readBitDesc (hw : H) (bitDesc : PchSmmBitDesc) : Bool :=
  let bitIsSet := fun (register : BitVec 64) (bit : Nat) ↦ register &&& (1#64 <<< bit) != 0
  let size := bitDesc.sizeInBytes
  match bitDesc.reg.type with
  | .acpi | .tco =>
    let (addr, bit) := smmIoTarget bitDesc
    bitIsSet (P.read hw addr (smmIoRegSize size)) bit
  | .gpio | .memoryMappedIo =>
    if size = 1 ∨ size = 2 ∨ size = 4 then bitIsSet (P.read hw bitDesc.reg size) bitDesc.bit
    else if size = 8 then
      bitIsSet (P.read hw bitDesc.reg 4 ||| (P.read hw bitDesc.reg.next4 4 <<< 32)) bitDesc.bit
    else false
  | .pcie | .pcr =>
    if size = 1 ∨ size = 2 ∨ size = 4 then bitIsSet (P.read hw bitDesc.reg size) bitDesc.bit
    else false
  | .null => false

/-- Write one bit of a register. With `writeClear` the other bits are written as zero, because
writing a one to them would clear them; without it they are written back as they were read. -/
def writeBitDesc (hw : H) (bitDesc : PchSmmBitDesc) (valueToWrite writeClear : Bool) : H :=
  let andVal := fun bit : Nat ↦ if writeClear then 1#64 <<< bit else ~~~(1#64 <<< bit)
  let orVal := fun bit : Nat ↦ if valueToWrite then 1#64 <<< bit else 0#64
  let size := bitDesc.sizeInBytes
  let bit := bitDesc.bit
  match bitDesc.reg.type with
  | .acpi | .tco =>
    let (addr, bit) := smmIoTarget bitDesc
    andThenOr P hw addr (smmIoRegSize size) (andVal bit) (orVal bit)
  | .gpio | .memoryMappedIo =>
    if size = 1 ∨ size = 2 ∨ size = 4 then
      andThenOr P hw bitDesc.reg size (andVal bit) (orVal bit)
    else if size = 8 then
      let register := P.read hw bitDesc.reg 4 ||| (P.read hw bitDesc.reg.next4 4 <<< 32)
      let register := (register &&& andVal bit) ||| orVal bit
      P.write (P.write hw bitDesc.reg 4 (register &&& 0xFFFFFFFF#64)) bitDesc.reg.next4 4
        (register >>> 32)
    else hw
  | .pcie | .pcr =>
    if size = 1 ∨ size = 2 ∨ size = 4 then
      andThenOr P hw bitDesc.reg size (andVal bit) (orVal bit)
    else hw
  | .null => hw

/-! ### Enabling, disabling and clearing a source -/

/-- Write the same value to every used bit of a list of descriptors, in order. -/
def writeBitDescs (hw : H) (bitDescs : List PchSmmBitDesc) (valueToWrite writeClear : Bool) : H :=
  bitDescs.foldl (fun hw bitDesc ↦
    if bitDesc.isBitDescNull then hw else writeBitDesc P hw bitDesc valueToWrite writeClear) hw

/-- Set every enable bit of a source, then clear its statuses by writing ones to them. -/
def pchSmmEnableSource (hw : H) (srcDesc : PchSmmSourceDesc) : H :=
  writeBitDescs P (writeBitDescs P hw srcDesc.en.toList true false) srcDesc.sts.toList true true

/-- Clear every enable bit of a source. -/
def pchSmmDisableSource (hw : H) (srcDesc : PchSmmSourceDesc) : H :=
  writeBitDescs P hw srcDesc.en.toList false false

/-- Clear the statuses of a source by writing ones to them. -/
def pchSmmClearSource (hw : H) (srcDesc : PchSmmSourceDesc) : H :=
  writeBitDescs P hw srcDesc.sts.toList true true

/-- Clear the statuses of a source and wait until each of them reads as zero. -/
def pchSmmClearSourceAndBlock (hw : H) (srcDesc : PchSmmSourceDesc) : H :=
  srcDesc.sts.toList.foldl (fun hw bitDesc ↦
    if bitDesc.isBitDescNull then hw
    else P.waitClear (writeBitDesc P hw bitDesc true true) bitDesc) hw

end PurleyFirmware.PchSmi
