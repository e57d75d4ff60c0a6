import PurleyFirmware.Uefi.Status

/-!
# SMI source descriptors

The vocabulary of the PCH SMI dispatcher: a register address, one bit of a register, and the
**source descriptor** that names the enable bits and status bits of one SMI source.

A register address keeps the raw 32-bit value of the source's union, because that is what the
comparisons look at; the PCI Express reading of the value (bus, device, function, register) is a
view of it. The enables and the statuses are vectors of the source's fixed lengths.

Two descriptors are compared on the address type, the raw address and the bit position only. The
register width, the flags and the top-level status take no part in any comparison.
-/

namespace PurleyFirmware.PchSmi

/-! ### Register addresses -/

/-- The kinds of register the dispatcher can address. `null` marks an unused descriptor. -/
inductive AddrType
  | acpi
  | tco
  | gpio
  | memoryMappedIo
  | pcie
  | pcr
  | null
  deriving DecidableEq, Repr

/-- A register address: its kind and the raw value of the address union. -/
structure PchSmmAddress where
  /-- Which register space the address belongs to. -/
  type : AddrType
  /-- The raw 32-bit value of the address. -/
  raw : BitVec 32
  deriving DecidableEq, Repr

namespace PchSmmAddress

variable (addr : PchSmmAddress)

/-- The PCI Express register offset, bits 0 to 15. -/
def pcieReg : BitVec 16 := addr.raw.extractLsb' 0 16

/-- The PCI Express function number, bits 16 to 18. -/
def pcieFnc : BitVec 3 := addr.raw.extractLsb' 16 3

/-- The PCI Express device number, bits 19 to 23. -/
def pcieDev : BitVec 5 := addr.raw.extractLsb' 19 5

/-- The PCI Express bus number, bits 24 to 31. -/
def pcieBus : BitVec 8 := addr.raw.extractLsb' 24 8

/-- The address of a PCI Express register, packed as the descriptor tables pack it. -/
def ofPcie (bus dev fnc reg : BitVec 32) : PchSmmAddress where
  type := .pcie
  raw := (bus <<< 24) ||| (dev <<< 19) ||| (fnc <<< 16) ||| reg

end PchSmmAddress

/-! ### Bit and source descriptors -/

/-- One bit of a register. -/
structure PchSmmBitDesc where
  /-- The register the bit is in. -/
  reg : PchSmmAddress
  /-- The width of the register. -/
  sizeInBytes : Nat
  /-- The position of the bit. -/
  bit : Nat
  deriving DecidableEq, Repr

namespace PchSmmBitDesc

/-- The unused bit descriptor. -/
def nullBitDesc : PchSmmBitDesc := ⟨⟨.null, 0⟩, 0, 0⟩

/-- An unused descriptor is recognised by its address type alone. -/
def isBitDescNull (bitDesc : PchSmmBitDesc) : Bool := bitDesc.reg.type == .null

/-- The three fields every comparison looks at: bit, address type and raw address. -/
def sameBit (bitDesc₁ bitDesc₂ : PchSmmBitDesc) : Bool :=
  bitDesc₁.bit == bitDesc₂.bit && bitDesc₁.reg.type == bitDesc₂.reg.type &&
    bitDesc₁.reg.raw == bitDesc₂.reg.raw

end PchSmmBitDesc

open PchSmmBitDesc

/-- Number of enable bits a source may have. -/
abbrev numEnBits : Nat := 2

/-- Number of status bits a source may have. -/
abbrev numStsBits : Nat := 1

/-- The enable bits of a source, as a table entry lists them. -/
def enBits (en₀ en₁ : PchSmmBitDesc) : Vector PchSmmBitDesc numEnBits := #v[en₀, en₁]

/-- The status bit of a source, as a table entry lists it. -/
def stsBits (sts₀ : PchSmmBitDesc) : Vector PchSmmBitDesc numStsBits := #v[sts₀]

/-- Whether a source is dependent on the ACPI mode of the machine. -/
inductive PchSmmSourceFlags
  | noFlags
  | sciEnDependent
  deriving DecidableEq, Repr

/-- The description of one SMI source: its enables, its status and its top-level status. -/
structure PchSmmSourceDesc where
  /-- Flags required to describe the event source. -/
  flags : PchSmmSourceFlags
  /-- The enable bits of the source. -/
  en : Vector PchSmmBitDesc numEnBits
  /-- The secondary status bits of the source. -/
  sts : Vector PchSmmBitDesc numStsBits
  /-- The top-level status bit in the power management controller. -/
  pmcSmiSts : PchSmmBitDesc
  deriving DecidableEq, Repr

/-- The source descriptor all of whose bits are unused. -/
def nullSourceDesc : PchSmmSourceDesc :=
  ⟨.noFlags, enBits nullBitDesc nullBitDesc, stsBits nullBitDesc, nullBitDesc⟩

/-- Whether the enable settings of two sources are identical, position by position. -/
def compareEnables (src₁ src₂ : PchSmmSourceDesc) : Bool :=
  (src₁.en.toList.zip src₂.en.toList).all fun p ↦ sameBit p.1 p.2

/-- Whether a bit is one of the enables of a source, unused positions included. -/
def isBitEqualToAnySourceEn (bitDesc : PchSmmBitDesc) (src : PchSmmSourceDesc) : Bool :=
  src.en.toList.any fun d ↦ sameBit bitDesc d

/-- Whether the status settings of two sources are identical, position by position. -/
def compareStatuses (src₁ src₂ : PchSmmSourceDesc) : Bool :=
  (src₁.sts.toList.zip src₂.sts.toList).all fun p ↦ sameBit p.1 p.2

/-- Whether two sources agree in their enables and their statuses. -/
def compareSources (src₁ src₂ : PchSmmSourceDesc) : Bool :=
  compareEnables src₁ src₂ && compareStatuses src₁ src₂

/-! ### Comparison is agreement on the compared fields -/

@[simp] theorem sameBit_self (bitDesc : PchSmmBitDesc) : sameBit bitDesc bitDesc = true := by
  simp [sameBit]

theorem sameBit_iff {d₁ d₂ : PchSmmBitDesc} :
    sameBit d₁ d₂ = true ↔ d₁.bit = d₂.bit ∧ d₁.reg = d₂.reg := by
  rcases d₁ with ⟨⟨t₁, r₁⟩, s₁, b₁⟩
  rcases d₂ with ⟨⟨t₂, r₂⟩, s₂, b₂⟩
  simp [sameBit, and_assoc]

/-- **A source compares equal to itself**, so the first active record is always one of the records
its own walk dispatches. -/
@[simp] theorem compareSources_self (src : PchSmmSourceDesc) : compareSources src src = true := by
  have hzip : ∀ l : List PchSmmBitDesc, (l.zip l).all (fun p ↦ sameBit p.1 p.2) = true := by
    intro l
    induction l with
    | nil => rfl
    | cons d l ih => simp [ih]
  simp [compareSources, compareEnables, compareStatuses, hzip]

end PurleyFirmware.PchSmi
