import Mathlib.Algebra.Order.Ring.Nat
import PurleyFirmware.Pci.ResourceNode

/-!
# Decoding a base address register

A BAR is sized by writing all ones and reading back: the bits that stay zero are those of an address
within the BAR. `PciParseBar` decodes what is read back for the BARs of a device, `PciIovParseVfBar`
for those of its virtual functions. They are copies of each other, but only the first one knows that
some devices give back a zero for the upper dword of a 64-bit BAR, and each has a lower bound of its
own for the alignment. `decodesAlike_iff` says when the two decode a 64-bit BAR alike.
-/

namespace PurleyFirmware.Pci

/-! ### The registers and the fields -/

/-- What `BarExisted` and `VfBarExisted` give back for a register; `EFI_NOT_FOUND` goes with a zero
value. -/
structure BarProbe where
  /-- What is read after writing all ones. -/
  value : BitVec 32
  originalValue : BitVec 32

/-- The fields of a `PCI_BAR` that are decoded. -/
structure ParsedBar where
  baseAddress : BitVec 64
  length : BitVec 64
  alignment : BitVec 64
  barType : PciBarType
  barTypeFixed : Bool
  offset : BitVec 16
  deriving DecidableEq

/-- The mask of the address bits of a memory BAR. -/
def barMask : BitVec 32 := 0xFFFFFFF0

/-- `HighBitSet32`, of a value that is not zero. -/
def highBitSet32 (value : BitVec 32) : ℕ := Nat.log2 value.toNat

/-- `Value |= ((UINT32) -1 << HighBitSet32 (Value))`. -/
def fixLength (value : BitVec 32) : BitVec 32 :=
  value ||| (BitVec.allOnes 32 <<< highBitSet32 value)

/-- `(~(Value & Mask)) + 1`, a `UINT32`. -/
def barLength32 (value mask : BitVec 32) : BitVec 64 := (~~~(value &&& mask) + 1).setWidth 64

/-- The length of a 64-bit BAR, of the two dwords. -/
def barLength64 (low high : BitVec 32) : BitVec 64 :=
  ~~~((low &&& barMask).setWidth 64 ||| high.setWidth 64 <<< 32) + 1

/-- The check of the length that both end with. -/
def ParsedBar.checkLength (bar : ParsedBar) : ParsedBar :=
  if bar.length = 0 then { bar with barType := .unknown, baseAddress := 0, alignment := 0 } else bar

/-! ### `PciParseBar` -/

/-- At least 4 KB, for Virtualization Technology for Directed I/O. -/
def alignment4KB (length : BitVec 64) : BitVec 64 :=
  if length < 0x1000 then 0x1000 - 1 else length - 1

/-- A BAR in I/O space; `isKt` is the device whose BAR is to be aligned to 16 bytes. -/
def parseIoBar (isKt : Bool) (value originalValue : BitVec 32) (bar : ParsedBar) : ParsedBar :=
  let mask : BitVec 32 := 0xFFFFFFFC
  let value := if isKt then value &&& ~~~0xC else value
  let bar : ParsedBar :=
    if value &&& 0xFFFF0000 ≠ 0 then
      let length := barLength32 value mask
      { bar with barType := .io32, length := length, alignment := length - 1 }
    else
      let length := 0xFFFF &&& barLength32 value mask
      { bar with barType := .io16, length := length, alignment := length - 1 }
  let bar := if bar.length = 0 then { bar with barType := .unknown } else bar
  { bar with baseAddress := (originalValue &&& mask).setWidth 64 }

/-- The type of a 64-bit memory BAR. -/
def mem64Type (low : BitVec 32) : PciBarType := if low &&& 8 ≠ 0 then .pmem64 else .mem64

/-- `case 0x04` of `PciParseBar`: the low dword says that the next register is the upper one. -/
def parseMem64Bar (low : BitVec 32) (high : BarProbe) (bar : ParsedBar) : ParsedBar :=
  let length := (low &&& barMask).setWidth 64
  let bar := { bar with barType := mem64Type low, length := length, alignment := length - 1 }
  if high.value = 0 ∧ length = 0 then { bar with barType := .unknown }
  else
    let value := if high.value = 0 then BitVec.allOnes 32 else fixLength high.value
    let length := barLength64 low value
    ParsedBar.checkLength
      { bar with
        baseAddress := bar.baseAddress ||| high.originalValue.setWidth 64 <<< 32
        length := length
        alignment := alignment4KB length }

/-- `PciParseBar`: the BAR, and the next offset. -/
def pciParseBar (isKt forceBarAssignment : Bool) (probe : ℕ → BarProbe) (offset : ℕ)
    (bar : ParsedBar) : ParsedBar × ℕ :=
  let value := (probe offset).value
  let originalValue := (probe offset).originalValue
  if !forceBarAssignment && value = 0 then
    ({ bar with
        baseAddress := 0
        length := 0
        alignment := 0
        offset := (BitVec.ofNat 8 offset).setWidth 16 }, offset + 4)
  else
    let value := if forceBarAssignment then value &&& 0xFFFFFFFE else value
    let bar := { bar with barTypeFixed := false, offset := (BitVec.ofNat 8 offset).setWidth 16 }
    if value &&& 1 ≠ 0 then
      ((parseIoBar isKt value originalValue bar).checkLength, offset + 4)
    else
      let bar := { bar with baseAddress := (originalValue &&& barMask).setWidth 64 }
      if value &&& 7 = 0 then
        let length := barLength32 value barMask
        let bar :=
          { bar with
            barType := if value &&& 8 ≠ 0 then .pmem32 else .mem32
            length := length
            alignment := alignment4KB length }
        (bar.checkLength, offset + 4)
      else if value &&& 7 = 4 then
        (parseMem64Bar value (probe (offset + 4)) bar, offset + 8)
      else
        let length := barLength32 value barMask
        let bar :=
          { bar with
            barType := .unknown
            length := length
            alignment := alignment4KB length }
        (bar.checkLength, offset + 4)

/-! ### `PciIovParseVfBar` -/

/-- At least `SystemPageSize`. -/
def alignmentSystemPage (systemPageSize : BitVec 32) (alignment : BitVec 64) : BitVec 64 :=
  if alignment < (systemPageSize - 1).setWidth 64 then (systemPageSize - 1).setWidth 64
  else alignment

/-- `case 0x04` of `PciIovParseVfBar`. -/
def parseVfMem64Bar (initialVFs : BitVec 16) (systemPageSize : BitVec 32) (low : BitVec 32)
    (high : BarProbe) (bar : ParsedBar) : ParsedBar :=
  let length := (low &&& barMask).setWidth 64
  let bar :=
    { bar with
      barType := mem64Type low
      length := length
      alignment := alignmentSystemPage systemPageSize (length - 1) }
  if high.value = 0 then bar
  else
    let length := barLength64 low (fixLength high.value)
    ParsedBar.checkLength
      { bar with
        baseAddress := bar.baseAddress ||| high.originalValue.setWidth 64 <<< 32
        length := length * initialVFs.setWidth 64
        alignment := alignmentSystemPage systemPageSize (length - 1) }

/-- `PciIovParseVfBar`, of a device with an SR-IOV capability: the BAR, and the next offset. -/
def pciIovParseVfBar (initialVFs : BitVec 16) (systemPageSize : BitVec 32) (probe : ℕ → BarProbe)
    (offset : ℕ) (bar : ParsedBar) : ParsedBar × ℕ :=
  let value := (probe offset).value
  let originalValue := (probe offset).originalValue
  if value = 0 then
    ({ bar with
        baseAddress := 0
        length := 0
        alignment := 0
        offset := BitVec.ofNat 16 offset }, offset + 4)
  else
    let bar := { bar with offset := BitVec.ofNat 16 offset }
    if value &&& 1 ≠ 0 then (bar, offset + 4)
    else
      let bar := { bar with baseAddress := (originalValue &&& barMask).setWidth 64 }
      if value &&& 7 = 0 then
        let length := barLength32 value barMask
        let bar :=
          { bar with
            barType := if value &&& 8 ≠ 0 then .pmem32 else .mem32
            length := length * initialVFs.setWidth 64
            alignment := alignmentSystemPage systemPageSize (length - 1) }
        (bar.checkLength, offset + 4)
      else if value &&& 7 = 4 then
        (parseVfMem64Bar initialVFs systemPageSize value (probe (offset + 4)) bar, offset + 8)
      else
        let length := barLength32 value barMask
        let bar :=
          { bar with
            barType := .unknown
            length := length
            alignment := alignmentSystemPage systemPageSize (length - 1) }
        (bar.checkLength, offset + 4)

/-! ### 64-bit memory BARs -/

section Mem64

variable {low high : BitVec 32}

/-- The low dword of a 64-bit memory BAR is not that of an I/O BAR. -/
theorem and_one_of_mem64 (h : low &&& 7 = 4) : low &&& 1 = 0 := by
  have hmask : (1 : BitVec 32) = 7 &&& 1 := by decide
  rw [hmask, ← BitVec.and_assoc, h]
  decide

theorem ne_zero_of_mem64 (h : low &&& 7 = 4) : low ≠ 0 := by
  rintro rfl
  exact absurd h (by decide)

/-- Forcing the assignment does not change the value of a memory BAR. -/
theorem and_not_one_of_mem64 (h : low &&& 7 = 4) : low &&& 0xFFFFFFFE = low := by
  have hsplit : low = low &&& 1 ||| low &&& 0xFFFFFFFE := by
    have hall : (1 : BitVec 32) ||| 0xFFFFFFFE = BitVec.allOnes 32 := by decide
    rw [← BitVec.and_or_distrib_left, hall, BitVec.and_allOnes]
  rw [and_one_of_mem64 h] at hsplit
  exact (hsplit.trans BitVec.zero_or).symm

theorem fixLength_ne_zero (h : high ≠ 0) : fixLength high ≠ 0 := fun hzero ↦
  h (BitVec.or_eq_zero_iff.1 hzero).1

/-- What is read back, as a 64-bit number, with all bits of the upper dword above its highest set
one. -/
def readBack (low high : BitVec 32) : ℕ := (low &&& barMask).toNat + (fixLength high).toNat * 2 ^ 32

theorem toNat_or_shiftLeft (x y : BitVec 32) :
    (x.setWidth 64 ||| y.setWidth 64 <<< 32).toNat = x.toNat + y.toNat * 2 ^ 32 := by
  have hx := x.isLt
  have hy := y.isLt
  have hor := Nat.two_pow_add_eq_or_of_lt hx y.toNat
  rw [BitVec.toNat_or, BitVec.toNat_shiftLeft, BitVec.toNat_setWidth, BitVec.toNat_setWidth,
    Nat.mod_eq_of_lt (by omega), Nat.mod_eq_of_lt (by omega : y.toNat < 2 ^ 64), Nat.shiftLeft_eq,
    Nat.mod_eq_of_lt (by omega), Nat.or_comm, Nat.mul_comm, ← hor, Nat.add_comm]

/-- The length is what is missing to 2^64. -/
theorem toNat_barLength64 (low : BitVec 32) {high : BitVec 32} (h : high ≠ 0) :
    (barLength64 low high).toNat = 2 ^ 64 - ((low &&& barMask).toNat + high.toNat * 2 ^ 32) := by
  have hlow := (low &&& barMask).isLt
  have hhigh := high.isLt
  have hpos : high.toNat ≠ 0 := fun hzero ↦ h (BitVec.eq_of_toNat_eq hzero)
  have hneg : ∀ x : BitVec 64, ~~~x + 1 = -x := fun x ↦ (BitVec.neg_eq_not_add x).symm
  rw [barLength64, hneg, BitVec.toNat_neg, toNat_or_shiftLeft]
  exact Nat.mod_eq_of_lt (by omega)

end Mem64

/-! ### The two decodings -/

/-- Both decode the same type, length and alignment. -/
structure DecodesAlike (bar vfBar : ParsedBar) : Prop where
  barType : vfBar.barType = bar.barType
  length : vfBar.length = bar.length
  alignment : vfBar.alignment = bar.alignment

instance (bar vfBar : ParsedBar) : Decidable (DecodesAlike bar vfBar) :=
  decidable_of_iff (vfBar.barType = bar.barType ∧ vfBar.length = bar.length ∧
    vfBar.alignment = bar.alignment) ⟨fun h ↦ ⟨h.1, h.2.1, h.2.2⟩, fun h ↦ ⟨h.1, h.2, h.3⟩⟩

section Decode

variable {probe : ℕ → BarProbe} {offset : ℕ} {bar vfBar : ParsedBar} {low : BitVec 32}
  {high : BarProbe} {systemPageSize : BitVec 32}

/-- `PciParseBar` comes to its `case 0x04`, whatever it was called with. -/
theorem pciParseBar_mem64 (hlow : (probe offset).value &&& 7 = 4) (isKt force : Bool)
    (bar : ParsedBar) :
    ∃ bar', (pciParseBar isKt force probe offset bar).1 =
      parseMem64Bar (probe offset).value (probe (offset + 4)) bar' := by
  have hvalue : (if force then (probe offset).value &&& 0xFFFFFFFE else (probe offset).value) =
      (probe offset).value := by
    rw [and_not_one_of_mem64 hlow, ite_self]
  have hne := ne_zero_of_mem64 hlow
  have hone := and_one_of_mem64 hlow
  have hseven : ¬ (4 : BitVec 32) = 0 := by decide
  simp only [pciParseBar, hvalue, hne, decide_false, Bool.and_false, Bool.false_eq_true, if_false,
    hone, ne_eq, not_true_eq_false, hlow, hseven, if_true]
  exact ⟨_, rfl⟩

/-- `PciIovParseVfBar` comes to its `case 0x04`. -/
theorem pciIovParseVfBar_mem64 (hlow : (probe offset).value &&& 7 = 4) (initialVFs : BitVec 16)
    (systemPageSize : BitVec 32) (bar : ParsedBar) :
    ∃ bar', (pciIovParseVfBar initialVFs systemPageSize probe offset bar).1 =
      parseVfMem64Bar initialVFs systemPageSize (probe offset).value (probe (offset + 4)) bar' := by
  have hne := ne_zero_of_mem64 hlow
  have hone := and_one_of_mem64 hlow
  have hseven : ¬ (4 : BitVec 32) = 0 := by decide
  simp only [pciIovParseVfBar, hne, if_false, hone, ne_eq, not_true_eq_false, hlow, hseven, if_true]
  exact ⟨_, rfl⟩

/-- The check of the length passes a BAR that has one. -/
theorem checkLength_eq (h : bar.length ≠ 0) : bar.checkLength = bar := if_neg h

theorem mem64Type_ne_unknown (low : BitVec 32) : mem64Type low ≠ .unknown := by
  rw [mem64Type]
  split <;> decide

theorem decodesAlike_iff_alignment (htype : vfBar.barType = bar.barType)
    (hlength : vfBar.length = bar.length) :
    DecodesAlike bar vfBar ↔ vfBar.alignment = bar.alignment :=
  ⟨fun h ↦ h.alignment, fun h ↦ ⟨htype, hlength, h⟩⟩

/-- The two lower bounds of the alignment come to the same. -/
theorem alignment_eq_iff {length : BitVec 64} (h : length ≠ 0) :
    alignmentSystemPage systemPageSize (length - 1) = alignment4KB length ↔
      (systemPageSize - 1).toNat = 0xFFF ∨
        (0x1000 ≤ length.toNat ∧ (systemPageSize - 1).toNat < length.toNat) := by
  have hpos : length.toNat ≠ 0 := fun hzero ↦ h (BitVec.eq_of_toNat_eq hzero)
  have hone : (length - 1).toNat = length.toNat - 1 :=
    BitVec.toNat_sub_of_le (BitVec.le_def.2 (Nat.one_le_iff_ne_zero.2 hpos))
  have hpage : ((systemPageSize - 1).setWidth 64).toNat = (systemPageSize - 1).toNat := by
    have hlt := (systemPageSize - 1).isLt
    rw [BitVec.toNat_setWidth]
    exact Nat.mod_eq_of_lt (by omega)
  have h4KB : (alignment4KB length).toNat =
      if length.toNat < 0x1000 then 0xFFF else length.toNat - 1 := by
    rw [alignment4KB]
    split
    · rename_i hlt
      have hlt' : length.toNat < 0x1000 := BitVec.lt_def.1 hlt
      rw [if_pos hlt']
      decide
    · rename_i hge
      have hge' : ¬ length.toNat < 0x1000 := fun hlt ↦ hge (BitVec.lt_def.2 hlt)
      rw [if_neg hge', hone]
  have hsystem : (alignmentSystemPage systemPageSize (length - 1)).toNat =
      if length.toNat - 1 < (systemPageSize - 1).toNat then (systemPageSize - 1).toNat
      else length.toNat - 1 := by
    rw [alignmentSystemPage, ← hone, ← hpage]
    split
    · rename_i hlt
      rw [if_pos (BitVec.lt_def.1 hlt)]
    · rename_i hge
      rw [if_neg fun hlt ↦ hge (BitVec.lt_def.2 hlt)]
  rw [← BitVec.toNat_inj, h4KB, hsystem]
  split_ifs <;> omega

theorem barLength64_fixLength_ne_zero (low : BitVec 32) {value : BitVec 32} (h : value ≠ 0) :
    barLength64 low (fixLength value) ≠ 0 := by
  intro hzero
  have hlength := toNat_barLength64 low (fixLength_ne_zero h)
  have hlow := (low &&& barMask).isLt
  have hupper := (fixLength value).isLt
  rw [hzero, show (0 : BitVec 64).toNat = 0 from rfl] at hlength
  omega

theorem parseMem64Bar_of_high_ne (hhigh : high.value ≠ 0) :
    parseMem64Bar low high bar =
      { bar with
        barType := mem64Type low
        length := barLength64 low (fixLength high.value)
        alignment := alignment4KB (barLength64 low (fixLength high.value))
        baseAddress := bar.baseAddress ||| high.originalValue.setWidth 64 <<< 32 } := by
  rw [parseMem64Bar, if_neg fun h ↦ hhigh h.1, if_neg hhigh]
  exact checkLength_eq (barLength64_fixLength_ne_zero low hhigh)

theorem parseVfMem64Bar_of_high_ne (hhigh : high.value ≠ 0) :
    parseVfMem64Bar 1 systemPageSize low high vfBar =
      { vfBar with
        barType := mem64Type low
        length := barLength64 low (fixLength high.value)
        alignment := alignmentSystemPage systemPageSize
          (barLength64 low (fixLength high.value) - 1)
        baseAddress := vfBar.baseAddress ||| high.originalValue.setWidth 64 <<< 32 } := by
  have hone : barLength64 low (fixLength high.value) * (1 : BitVec 16).setWidth 64 =
      barLength64 low (fixLength high.value) := BitVec.mul_one _
  rw [parseVfMem64Bar, if_neg hhigh]
  dsimp only
  rw [hone]
  exact checkLength_eq (barLength64_fixLength_ne_zero low hhigh)

/-- Where the upper dword reads back something, the two differ in the alignment at most. -/
theorem decodesAlike_of_high_ne (hhigh : high.value ≠ 0) :
    DecodesAlike (parseMem64Bar low high bar) (parseVfMem64Bar 1 systemPageSize low high vfBar) ↔
      (systemPageSize - 1).toNat = 0xFFF ∨ (readBack low high.value + 0x1000 ≤ 2 ^ 64 ∧
        readBack low high.value + (systemPageSize - 1).toNat < 2 ^ 64) := by
  rw [parseMem64Bar_of_high_ne hhigh, parseVfMem64Bar_of_high_ne hhigh]
  refine (decodesAlike_iff_alignment ?_ ?_).trans ?_
  · rfl
  · rfl
  dsimp only
  rw [alignment_eq_iff (barLength64_fixLength_ne_zero low hhigh),
    toNat_barLength64 low (fixLength_ne_zero hhigh), readBack]
  refine or_congr_right ?_
  omega

/-- Where the upper dword reads back zero, only the first one treats it as all ones: the length is
the complement of what it is for the other. -/
theorem decodesAlike_of_high_eq (hhigh : high.value = 0) :
    DecodesAlike (parseMem64Bar low high bar) (parseVfMem64Bar 1 systemPageSize low high vfBar) ↔
      low &&& barMask = 0x80000000 ∧ (systemPageSize - 1).toNat < 0x80000000 := by
  have hvf : parseVfMem64Bar 1 systemPageSize low high vfBar =
      { vfBar with
        barType := mem64Type low
        length := (low &&& barMask).setWidth 64
        alignment := alignmentSystemPage systemPageSize ((low &&& barMask).setWidth 64 - 1) } := by
    rw [parseVfMem64Bar, if_pos hhigh]
  have hwidth : ((low &&& barMask).setWidth 64).toNat = (low &&& barMask).toNat := by
    have hlt := (low &&& barMask).isLt
    rw [BitVec.toNat_setWidth]
    exact Nat.mod_eq_of_lt (by omega)
  have hhalf : low &&& barMask = 0x80000000 ↔ (low &&& barMask).toNat = 0x80000000 := by
    rw [← BitVec.toNat_inj]
    rfl
  by_cases hzero : (low &&& barMask).setWidth 64 = 0
  · have htype : (parseMem64Bar low high bar).barType = .unknown := by
      rw [parseMem64Bar, if_pos ⟨hhigh, hzero⟩]
    refine iff_of_false (fun h ↦ ?_) fun h ↦ ?_
    · have heq := h.barType
      rw [hvf, htype] at heq
      exact mem64Type_ne_unknown low heq
    · rw [hhalf.1 h.1, hzero] at hwidth
      exact absurd hwidth (by decide)
  · have hall : (BitVec.allOnes 32).toNat = 2 ^ 32 - 1 := by decide
    have hlength := toNat_barLength64 low (by decide : BitVec.allOnes 32 ≠ 0)
    have hlow := (low &&& barMask).isLt
    have hpos : (low &&& barMask).toNat ≠ 0 := fun h ↦
      hzero (BitVec.eq_of_toNat_eq (hwidth.trans h))
    rw [hall] at hlength
    have hne : barLength64 low (BitVec.allOnes 32) ≠ 0 := by
      intro h
      rw [h, show (0 : BitVec 64).toNat = 0 from rfl] at hlength
      omega
    have hpf : parseMem64Bar low high bar =
        { bar with
          barType := mem64Type low
          length := barLength64 low (BitVec.allOnes 32)
          alignment := alignment4KB (barLength64 low (BitVec.allOnes 32))
          baseAddress := bar.baseAddress ||| high.originalValue.setWidth 64 <<< 32 } := by
      rw [parseMem64Bar, if_neg fun h ↦ hzero h.2, if_pos hhigh]
      exact checkLength_eq hne
    have hsame : (low &&& barMask).setWidth 64 = barLength64 low (BitVec.allOnes 32) ↔
        (low &&& barMask).toNat = 0x80000000 := by
      rw [← BitVec.toNat_inj, hwidth, hlength]
      omega
    rw [hvf, hpf, hhalf]
    constructor
    · intro h
      have hlen := hsame.1 h.length
      have halign := h.alignment
      dsimp only at halign
      rw [hsame.2 hlen, alignment_eq_iff hne, hlength, hlen] at halign
      exact ⟨hlen, by omega⟩
    · rintro ⟨hlen, hpage⟩
      refine ⟨rfl, hsame.2 hlen, ?_⟩
      dsimp only
      rw [hsame.2 hlen, alignment_eq_iff hne, hlength, hlen]
      omega

/-- When both decode a 64-bit memory BAR alike, by what its dwords read back: the upper dword is not
zero, and each lower bound of the alignment holds anyway, unless they are the same; or it is zero,
and the low dword has exactly its top bit. -/
def AlikeWhen (systemPageSize low high : BitVec 32) : Prop :=
  (high ≠ 0 ∧ ((systemPageSize - 1).toNat = 0xFFF ∨
    (readBack low high + 0x1000 ≤ 2 ^ 64 ∧
      readBack low high + (systemPageSize - 1).toNat < 2 ^ 64))) ∨
  (high = 0 ∧ low &&& barMask = 0x80000000 ∧ (systemPageSize - 1).toNat < 0x80000000)

/-- A 64-bit BAR of size 2^k that decodes 32 + u address bits. -/
structure ReadsBackSize (k u : ℕ) (low high : BitVec 32) : Prop where
  low : low &&& barMask = BitVec.ofNat 32 (2 ^ 64 - 2 ^ k)
  high : high = BitVec.ofNat 32 ((2 ^ (32 + u) - 2 ^ k) / 2 ^ 32)

/-- The upper dword of such a BAR, with the bits above filled. -/
theorem fixLength_readsBackSize : ∀ k < 64, ∀ u < 33, 1 ≤ u → k < 32 + u →
    BitVec.ofNat 32 ((2 ^ (32 + u) - 2 ^ k) / 2 ^ 32) ≠ 0 ∧
      (fixLength (BitVec.ofNat 32 ((2 ^ (32 + u) - 2 ^ k) / 2 ^ 32))).toNat =
        (2 ^ 64 - 2 ^ k) / 2 ^ 32 := by
  decide +kernel

/-- It has its size as its length. -/
theorem ReadsBackSize.length {k u : ℕ} (hk : k < 64) (hu : 1 ≤ u) (hu' : u ≤ 32)
    (hku : k < 32 + u) (h : ReadsBackSize k u low high.value) :
    high.value ≠ 0 ∧ barLength64 low (fixLength high.value) = BitVec.ofNat 64 (2 ^ k) := by
  obtain ⟨hne, hfix⟩ := fixLength_readsBackSize k hk u (by omega) hu hku
  rw [← h.high] at hne hfix
  have hpow : 2 ^ k < 2 ^ 64 := Nat.pow_lt_pow_right (by decide) hk
  refine ⟨hne, BitVec.eq_of_toNat_eq ?_⟩
  rw [toNat_barLength64 low (fixLength_ne_zero hne), hfix, h.low, BitVec.toNat_ofNat,
    BitVec.toNat_ofNat, Nat.mod_add_div', Nat.mod_eq_of_lt hpow]
  omega

end Decode

/-- **The two decode a 64-bit memory BAR alike if and only if** the upper dword reads back something
and the lower bounds of the alignment do not matter; and both give a BAR of size 2^k that length. -/
theorem decodesAlike_iff (probe : ℕ → BarProbe) (offset : ℕ) (isKt forceBarAssignment : Bool)
    (systemPageSize : BitVec 32) (bar vfBar : ParsedBar)
    (hlow : (probe offset).value &&& 7 = 4) :
    (DecodesAlike (pciParseBar isKt forceBarAssignment probe offset bar).1
        (pciIovParseVfBar 1 systemPageSize probe offset vfBar).1 ↔
      AlikeWhen systemPageSize (probe offset).value (probe (offset + 4)).value) ∧
    ∀ k u, 4 ≤ k → k < 64 → 1 ≤ u → u ≤ 32 → k < 32 + u →
      ReadsBackSize k u (probe offset).value (probe (offset + 4)).value →
        (pciParseBar isKt forceBarAssignment probe offset bar).1.length = BitVec.ofNat 64 (2 ^ k) ∧
        (pciIovParseVfBar 1 systemPageSize probe offset vfBar).1.length =
          BitVec.ofNat 64 (2 ^ k) := by
  obtain ⟨bar₁, hpf⟩ := pciParseBar_mem64 hlow isKt forceBarAssignment bar
  obtain ⟨bar₂, hvf⟩ := pciIovParseVfBar_mem64 hlow 1 systemPageSize vfBar
  rw [hpf, hvf]
  refine ⟨?_, fun k u _ hk hu hu' hku hsize ↦ ?_⟩
  · rw [AlikeWhen]
    by_cases hhigh : (probe (offset + 4)).value = 0
    · rw [decodesAlike_of_high_eq hhigh]
      exact ⟨fun h ↦ Or.inr ⟨hhigh, h⟩, fun h ↦ (h.resolve_left fun h ↦ h.1 hhigh).2⟩
    · rw [decodesAlike_of_high_ne hhigh]
      exact ⟨fun h ↦ Or.inl ⟨hhigh, h⟩, fun h ↦ (h.resolve_right fun h ↦ hhigh h.1).2⟩
  · obtain ⟨hhigh, hlength⟩ := hsize.length hk hu hu' hku
    rw [parseMem64Bar_of_high_ne hhigh, parseVfMem64Bar_of_high_ne hhigh]
    exact ⟨hlength, hlength⟩

/-- A BAR before it is decoded. -/
def emptyBar : ParsedBar where
  baseAddress := 0
  length := 0
  alignment := 0
  barType := .unknown
  barTypeFixed := false
  offset := 0

/-- The two dwords of a BAR at 0x10, which hold the address 0. -/
def barPair (low high : BitVec 32) (offset : ℕ) : BarProbe :=
  ⟨if offset = 0x10 then low else high, 0⟩

/-- A BAR of 1 MB. -/
theorem decodesAlike_oneMegabyte :
    (DecodesAlike (pciParseBar false false (barPair 0xFFF00004 0xFFFFFFFF) 0x10 emptyBar).1
        (pciIovParseVfBar 1 0x1000 (barPair 0xFFF00004 0xFFFFFFFF) 0x10 emptyBar).1 ↔
      AlikeWhen 0x1000 0xFFF00004 0xFFFFFFFF) ∧
    ∀ k u, 4 ≤ k → k < 64 → 1 ≤ u → u ≤ 32 → k < 32 + u →
      ReadsBackSize k u 0xFFF00004 0xFFFFFFFF →
        (pciParseBar false false (barPair 0xFFF00004 0xFFFFFFFF) 0x10 emptyBar).1.length =
          BitVec.ofNat 64 (2 ^ k) ∧
        (pciIovParseVfBar 1 0x1000 (barPair 0xFFF00004 0xFFFFFFFF) 0x10 emptyBar).1.length =
          BitVec.ofNat 64 (2 ^ k) :=
  decodesAlike_iff (barPair 0xFFF00004 0xFFFFFFFF) 0x10 false false 0x1000 emptyBar emptyBar
    (by decide)

/-- The same BAR, of a device that gives back zero for the upper dword: 1 MB, and 4 GB less 1 MB. -/
theorem not_decodesAlike_upperZero :
    ¬ ∀ (probe : ℕ → BarProbe) (offset : ℕ) (bar vfBar : ParsedBar),
      (probe offset).value &&& 7 = 4 → DecodesAlike (pciParseBar false false probe offset bar).1
        (pciIovParseVfBar 1 0x1000 probe offset vfBar).1 := by
  intro hall
  have hlength := (hall (barPair 0xFFF00004 0) 0x10 emptyBar emptyBar (by decide)).length
  revert hlength
  decide +kernel

end PurleyFirmware.Pci
