import Mathlib.Data.BitVec
import Mathlib.Logic.Function.Basic
import PurleyFirmware.Foundation.Loops
import PurleyFirmware.Uefi.Status

/-!
# Cycle decoding

The setters that decide which I/O and memory cycles the PCH sends to LPC or eSPI. Each range has a
**source register** in the LPC or SPI device and a **copy** in the DMI unit, which decodes the cycle
first; every setter writes both. The two eSPI slaves have registers of their own, except that the
fixed I/O enables of both are in one copy.

The registers named here do not overlap and keep what is written to them. A failed assertion does
not stop the model: the source's release build goes on.
-/

namespace PurleyFirmware.Pch

/-! ### Registers -/

/-- `PCH_LPC_GEN_IO_RANGE_MAX`. -/
abbrev pchLpcGenIoRangeMax : ℕ := 4

/-- The decode registers, source by source and copy by copy. -/
structure DecodeRegisters where
  /-- DMI control; bit 31 locks the decode registers. -/
  dmic : BitVec 32
  /-- General control and status; bit 10 says where the BIOS is. -/
  gcs : BitVec 32
  /-- LPC generic I/O ranges of the first slave. -/
  genDec : Fin pchLpcGenIoRangeMax → BitVec 32
  /-- Their copies. -/
  lpclgir : Fin pchLpcGenIoRangeMax → BitVec 32
  /-- Generic I/O range of the second slave. -/
  pccs1gir1 : BitVec 32
  /-- Its copy. -/
  segir : BitVec 32
  /-- Generic memory range of the first slave. -/
  lgmr : BitVec 32
  /-- Its copy. -/
  lpcgmr : BitVec 32
  /-- Generic memory range of the second slave. -/
  pccs1gmr1 : BitVec 32
  /-- Its copy. -/
  segmr : BitVec 32
  /-- BIOS decode enables of the SPI device. -/
  spiBde : BitVec 16
  /-- BIOS decode enables of the LPC device. -/
  lpcBde : BitVec 16
  /-- The copy of whichever is in use. -/
  lpcbde : BitVec 16
  /-- I/O decode ranges. -/
  iod : BitVec 16
  /-- Their copy. -/
  lpciod : BitVec 16
  /-- Fixed I/O enables. -/
  ioe : BitVec 16
  /-- Fixed I/O enables of the second slave. -/
  pccs1iore : BitVec 16
  /-- The copy of the fixed I/O enables. -/
  lpcioe : BitVec 16

/-- The slave a setter is called for. -/
abbrev SlaveDevice : Type := BitVec 8

/-- `LPC_ESPI_FIRST_SLAVE`. -/
def lpcEspiFirstSlave : SlaveDevice := 0

/-- `ESPI_SECONDARY_SLAVE`. -/
def espiSecondarySlave : SlaveDevice := 1

namespace DecodeRegisters

variable (s : DecodeRegisters)

/-- `DMIC.SRL` is set. -/
def Locked : Prop := s.dmic.getLsbD 31 = true

/-- `GCS.BBS` is set: the BIOS is on LPC or eSPI. -/
def BiosOnLpc : Prop := s.gcs.getLsbD 10 = true

instance : Decidable s.Locked := inferInstanceAs (Decidable (_ = _))

instance : Decidable s.BiosOnLpc := inferInstanceAs (Decidable (_ = _))

end DecodeRegisters

/-! ### Generic I/O ranges -/

/-- A generic I/O range, as a register holds it. -/
structure GenIoRange where
  /-- The base address. -/
  baseAddr : ℕ
  /-- The length: the address mask, and the four ports of a dword. -/
  length : ℕ
  /-- The range is enabled. -/
  enable : Bool
  deriving DecidableEq, Repr

/-- Decode one register. -/
def genIoRange (data32 : BitVec 32) : GenIoRange where
  baseAddr := (data32 &&& 0xFFFC).toNat
  length := ((data32 &&& 0xFC0000) >>> 16).toNat + 4
  enable := data32.getLsbD 0

/-- The value of a register: mask, address and enable. -/
def genIoData (address : BitVec 16) (length : BitVec 64) : BitVec 32 :=
  ((((length - 1) <<< 16) &&& 0xFC0000).setWidth 32 ||| address.setWidth 32) ||| 1

/-- The ranges of a slave, by index. The second slave has one range only. -/
def pchLpcGenIoRangeGet (s : DecodeRegisters) (slaveDevice : SlaveDevice)
    (index : Fin pchLpcGenIoRangeMax) : GenIoRange :=
  if slaveDevice = lpcEspiFirstSlave then genIoRange (s.genDec index) else genIoRange s.pccs1gir1

/-- The ranges below port 0x100 that may be decoded, as start and length. -/
def exceptRanges : List (ℕ × ℕ) :=
  [(0x00, 0x20), (0x44, 0x08), (0x54, 0x0C), (0x68, 0x08), (0x80, 0x10), (0xC0, 0x40)]

/-- The argument checks. -/
def genIoCheck (address : BitVec 16) (length : BitVec 64) : Bool :=
  length &&& (length - 1) == 0 && address &&& 3 == 0 && decide (length.toNat ≤ 256) &&
    (decide (0x100 ≤ address.toNat) || exceptRanges.any fun r ↦
      decide (r.1 ≤ address.toNat) && decide (address.toNat + length.toNat ≤ r.1 + r.2))

/-- Two ranges overlap: the first or the last port of the request is in the range. -/
def overlaps (address : BitVec 16) (length : BitVec 64) (range : GenIoRange) : Bool :=
  let start := address.toNat
  let stop := address.toNat + length.toNat
  let rangeStop := range.baseAddr + range.length
  (decide (range.baseAddr ≤ start) && decide (start < rangeStop)) ||
    (decide (range.baseAddr < stop) && decide (stop ≤ rangeStop))

/-- The request is taken to be covered by the range. -/
def covered (address : BitVec 16) (length : BitVec 64) (range : GenIoRange) : Bool :=
  decide (range.baseAddr ≤ address.toNat) && decide (length.toNat ≤ range.length)

/-- The range that spans the request and an overlapping range. -/
def mergeRange (address : BitVec 16) (length : BitVec 64) (range : GenIoRange) :
    BitVec 16 × BitVec 64 :=
  let tempMaxAddr := max (address.toNat + length.toNat) (range.baseAddr + range.length)
  let address' := if range.baseAddr < address.toNat then BitVec.ofNat 16 range.baseAddr else address
  (address', BitVec.ofNat 64 (tempMaxAddr - address'.toNat))

/-- What the search for a register of the first slave comes to. -/
inductive GenIoChoice
  /-- Nothing is left to do. -/
  | done
  /-- No register is free. -/
  | full
  /-- Program a register. -/
  | program (index : Fin pchLpcGenIoRangeMax) (address : BitVec 16) (length : BitVec 64)

/-- The first register in use that overlaps the request, or else the first that is not in use. A
register is in use when its base address is not zero. -/
def chooseGenIo (s : DecodeRegisters) (address : BitVec 16) (length : BitVec 64) : GenIoChoice :=
  let range := pchLpcGenIoRangeGet s lpcEspiFirstSlave
  match (List.finRange pchLpcGenIoRangeMax).find? fun i ↦
      (range i).baseAddr ≠ 0 ∧ overlaps address length (range i) with
  | some i =>
    if covered address length (range i) then .done
    else .program i (mergeRange address length (range i)).1 (mergeRange address length (range i)).2
  | none =>
    match (List.finRange pchLpcGenIoRangeMax).find? fun i ↦ (range i).baseAddr = 0 with
    | some i => .program i address length
    | none => .full

/-- Set a generic I/O range. -/
def pchLpcGenIoRangeSet (s : DecodeRegisters) (address : BitVec 16) (length : BitVec 64)
    (slaveDevice : SlaveDevice) : EfiStatus × DecodeRegisters :=
  if !genIoCheck address length then (.invalidParameter, s)
  else if slaveDevice = lpcEspiFirstSlave then
    match chooseGenIo s address length with
    | .done => (.success, s)
    | .full => (.outOfResources, s)
    | .program i address length =>
      if s.Locked then (.unsupported, s)
      else (.success, { s with
        genDec := Function.update s.genDec i (genIoData address length)
        lpclgir := Function.update s.lpclgir i (genIoData address length) })
  else
    let range := pchLpcGenIoRangeGet s slaveDevice ⟨0, by decide⟩
    if range.baseAddr ≠ 0 ∧ overlaps address length range then
      (if covered address length range then .success else .outOfResources, s)
    else if s.Locked then (.unsupported, s)
    else (.success, { s with
      pccs1gir1 := genIoData address length
      segir := genIoData address length })

/-! ### The other setters -/

/-- Set a memory range. The source disables the range before it changes the address, which leaves
no trace in the end. -/
def pchLpcMemRangeSet (s : DecodeRegisters) (address : BitVec 32) (slaveDevice : SlaveDevice) :
    EfiStatus × DecodeRegisters :=
  if address &&& ~~~(0xFFFF0000#32) ≠ 0 then (.invalidParameter, s)
  else if s.Locked then (.unsupported, s)
  else if slaveDevice = espiSecondarySlave then
    (.success, { s with pccs1gmr1 := address ||| 1, segmr := address ||| 1 })
  else (.success, { s with lgmr := address ||| 1, lpcgmr := address ||| 1 })

/-- Set the BIOS decode enables of the device that holds the BIOS. -/
def pchBiosDecodeEnableSet (s : DecodeRegisters) (biosDecodeEnable : BitVec 16) :
    EfiStatus × DecodeRegisters :=
  if s.Locked then (.unsupported, s)
  else if s.BiosOnLpc then
    (.success, { s with lpcBde := biosDecodeEnable, lpcbde := biosDecodeEnable })
  else (.success, { s with spiBde := biosDecodeEnable, lpcbde := biosDecodeEnable })

/-- Set the I/O decode ranges. -/
def pchLpcIoDecodeRangesSet (s : DecodeRegisters) (lpcIoDecodeRanges : BitVec 16) :
    EfiStatus × DecodeRegisters :=
  if lpcIoDecodeRanges = s.iod then (.success, s)
  else if s.Locked then (.unsupported, s)
  else (.success, { s with iod := lpcIoDecodeRanges, lpciod := lpcIoDecodeRanges })

/-- Set the fixed I/O enables. For the second slave its own enables are added to the common ones,
but the copy gets the second slave's alone. -/
def pchLpcIoEnableDecodingSet (s : DecodeRegisters) (lpcIoEnableDecoding : BitVec 16)
    (slaveDevice : SlaveDevice) : EfiStatus × DecodeRegisters :=
  let current := if slaveDevice = lpcEspiFirstSlave then s.ioe else s.pccs1iore
  if lpcIoEnableDecoding = current then (.success, s)
  else if s.Locked then (.unsupported, s)
  else
    let s := if slaveDevice = lpcEspiFirstSlave then { s with ioe := lpcIoEnableDecoding }
      else { s with pccs1iore := lpcIoEnableDecoding }
    let s := if slaveDevice = espiSecondarySlave then { s with ioe := lpcIoEnableDecoding ||| s.ioe }
      else s
    (.success, { s with lpcioe := lpcIoEnableDecoding })

end PurleyFirmware.Pch
