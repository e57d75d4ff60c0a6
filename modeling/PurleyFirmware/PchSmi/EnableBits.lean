import PurleyFirmware.PchSmi.CoreRegister

/-!
# Enable bits

The enable bits that the sources of the standard protocols name, the registers they are in, and what
enabling, disabling and clearing a source does to each of them.

The registers are not part of the repository. `PlainEnables` says what is relied on: an enable bit
keeps what is written to its register, and is left alone by writes to registers apart from it. Status
registers may do what they like, apart from that.

A record that was set to zero and not filled in names bits too: bit 0 of the first status register,
accessed as one byte. No source names that bit as an enable, and it is apart from all that one does.
-/

namespace PurleyFirmware.PchSmi

open PchSmmBitDesc

/-! ### One bit of a register -/

theorem and_one_shiftLeft_ne_zero (register : BitVec 64) {bit : Nat} (hbit : bit < 64) :
    (register &&& (1#64 <<< bit) != 0) = register.getLsbD bit := by
  have hpow : BitVec.twoPow 64 bit ≠ 0 := by
    intro h
    have hzero : (BitVec.twoPow 64 bit).getLsbD bit = (0#64).getLsbD bit := by rw [h]; rfl
    rw [BitVec.getLsbD_twoPow, decide_eq_true hbit] at hzero
    simp at hzero
  rw [← BitVec.twoPow_eq, BitVec.and_twoPow]
  split
  · rename_i h
    rw [h, bne_iff_ne]
    exact hpow
  · rename_i h
    rw [Bool.not_eq_true] at h
    rw [h]
    rfl

/-- **One bit written back.** The bit has the new value, the others are as they were. -/
theorem getLsbD_setBit (register : BitVec 64) (value : Bool) {bit i : Nat} (hbit : bit < 64)
    (hi : i < 64) :
    ((register &&& ~~~(1#64 <<< bit)) ||| if value then 1#64 <<< bit else 0#64).getLsbD i =
      if i = bit then value else register.getLsbD i := by
  have hor : (if value then 1#64 <<< bit else 0#64).getLsbD i = (value && decide (bit = i)) := by
    rcases value with - | -
    · simp
    · rw [if_pos rfl, ← BitVec.twoPow_eq, BitVec.getLsbD_twoPow, decide_eq_true hbit]
  rw [BitVec.getLsbD_or, BitVec.getLsbD_and, BitVec.getLsbD_not, hor, ← BitVec.twoPow_eq,
    BitVec.getLsbD_twoPow, decide_eq_true hbit, decide_eq_true hi]
  by_cases h : i = bit
  · simp [h]
  · simp [h, Ne.symm h]

/-! ### The registers -/

/-- A register: its address and its width in bytes. -/
abbrev Register : Type := PchSmmAddress × Nat

/-- The address spaces that the standard protocols use: ports, pad registers and configuration
registers. No two of them overlap. -/
def AddrType.IsCoreSpace : AddrType → Bool
  | .acpi | .gpio | .pcie => true
  | _ => false

/-- Two registers have different addresses and no byte in common. -/
def Apart (a b : Register) : Prop :=
  a.1 ≠ b.1 ∧
    (a.1.type = b.1.type →
      a.1.raw.toNat + a.2 ≤ b.1.raw.toNat ∨ b.1.raw.toNat + b.2 ≤ a.1.raw.toNat) ∧
    (a.1.type ≠ b.1.type → a.1.type.IsCoreSpace = true ∧ b.1.type.IsCoreSpace = true)

instance (a b : Register) : Decidable (Apart a b) :=
  inferInstanceAs (Decidable (_ ∧ (_ → _) ∧ (_ → _)))

/-- The enable registers: SMI enables, power management enables, and those of the GPIO groups. -/
def enableRegisters : List Register :=
  (⟨.acpi, 0x30⟩, 4) :: (⟨.acpi, 0x02⟩, 2) :: mPchGpioGroupInfo.filterMap fun g ↦
    (g.smiRegs 0).map fun regs ↦ (⟨.gpio, regs.gpiSmiEnRegAddress⟩, 4)

/-- The status registers, likewise. -/
def statusRegisters : List Register :=
  (⟨.acpi, 0x34⟩, 4) :: (⟨.acpi, 0x00⟩, 2) :: mPchGpioGroupInfo.filterMap fun g ↦
    (g.smiRegs 0).map fun regs ↦ (⟨.gpio, regs.gpiSmiStsRegAddress⟩, 4)

/-- What a record set to zero names, and the configuration registers of the timers. -/
def otherRegisters : List Register :=
  [(⟨.acpi, 0x00⟩, 1), (.ofPcie 0 31 2 0xA0, 1), (.ofPcie 0 31 2 0xA4, 1)]

theorem enableRegisters_apart : ∀ a ∈ enableRegisters, ∀ b ∈ enableRegisters,
    a = b ∨ Apart a b := by decide

theorem statusRegisters_apart : ∀ a ∈ statusRegisters, ∀ b ∈ enableRegisters, Apart a b := by
  decide

theorem otherRegisters_apart : ∀ a ∈ otherRegisters, ∀ b ∈ enableRegisters, Apart a b := by
  decide

/-- Ports and pad registers of two or four bytes: one access reads or writes the whole register. -/
def Register.IsPlain (a : Register) : Prop :=
  (a.1.type = .acpi ∨ a.1.type = .gpio) ∧ (a.2 = 2 ∨ a.2 = 4)

instance (a : Register) : Decidable a.IsPlain := inferInstanceAs (Decidable (_ ∧ _))

theorem isPlain_of_mem : ∀ a ∈ enableRegisters ++ statusRegisters, Register.IsPlain a := by decide

/-- The register a bit is in. -/
def PchSmmBitDesc.register (d : PchSmmBitDesc) : Register := (d.reg, d.sizeInBytes)

section Access

variable {H : Type} (P : PchHardware H)

theorem readBitDesc_of_isPlain {d : PchSmmBitDesc} (h : d.register.IsPlain) (hbit : d.bit < 64)
    (hw : H) : readBitDesc P hw d = (P.read hw d.reg d.sizeInBytes).getLsbD d.bit := by
  rcases d with ⟨⟨type, raw⟩, size, bit⟩
  obtain ⟨htype, hsize⟩ := h
  change type = .acpi ∨ type = .gpio at htype
  change size = 2 ∨ size = 4 at hsize
  rw [← and_one_shiftLeft_ne_zero _ hbit]
  rcases htype with rfl | rfl <;> rcases hsize with rfl | rfl <;> rfl

theorem writeBitDesc_of_isPlain {d : PchSmmBitDesc} (h : d.register.IsPlain) (hw : H)
    (value : Bool) : writeBitDesc P hw d value false =
      P.write hw d.reg d.sizeInBytes ((P.read hw d.reg d.sizeInBytes &&& ~~~(1#64 <<< d.bit)) |||
        if value then 1#64 <<< d.bit else 0#64) := by
  rcases d with ⟨⟨type, raw⟩, size, bit⟩
  obtain ⟨htype, hsize⟩ := h
  change type = .acpi ∨ type = .gpio at htype
  change size = 2 ∨ size = 4 at hsize
  rcases htype with rfl | rfl <;> rcases hsize with rfl | rfl <;> rfl

theorem exists_writeBitDesc_of_isPlain {d : PchSmmBitDesc} (h : d.register.IsPlain) (hw : H)
    (value writeClear : Bool) :
    ∃ v, writeBitDesc P hw d value writeClear = P.write hw d.reg d.sizeInBytes v := by
  rcases d with ⟨⟨type, raw⟩, size, bit⟩
  obtain ⟨htype, hsize⟩ := h
  change type = .acpi ∨ type = .gpio at htype
  change size = 2 ∨ size = 4 at hsize
  rcases htype with rfl | rfl <;> rcases hsize with rfl | rfl <;> exact ⟨_, rfl⟩

end Access

/-! ### The sources -/

/-- The sources of the descriptor tables, with the template filled in for every pad. -/
inductive TableSource : PchSmmSourceDesc → Prop
  | usb1 : TableSource mUsb1Legacy
  | usb3 : TableSource mUsb3Legacy
  | sx : TableSource sxSourceDesc
  | sw : TableSource swSourceDesc
  | powerButton : TableSource powerButtonSourceDesc
  | timer (timer : SupportedTimer) : TableSource (mTimerSourceDescs timer)
  | gpi {index : Nat} {regs : GpiSmiRegs}
    (h : gpioGetPadAndSmiRegs mPchGpioGroupInfo index = some regs) :
    TableSource (gpiSourceDesc regs)

/-- An enable bit that some source names. -/
def SourceEnable (d : PchSmmBitDesc) : Prop :=
  ∃ src, TableSource src ∧ d ∈ src.en.toList ∧ d.isBitDescNull = false

/-- A bit of an enable register. -/
def EnableBit (d : PchSmmBitDesc) : Prop := d.register ∈ enableRegisters ∧ d.bit < 32

/-- A bit of a status register. -/
def StatusBit (d : PchSmmBitDesc) : Prop := d.register ∈ statusRegisters

instance (d : PchSmmBitDesc) : Decidable (EnableBit d) := inferInstanceAs (Decidable (_ ∧ _))

instance (d : PchSmmBitDesc) : Decidable (StatusBit d) := inferInstanceAs (Decidable (_ ∈ _))

theorem gpioGetPadAndSmiRegs_mem {regs : GpiSmiRegs} {gs : List GpioGroupInfo} {index : Nat}
    (h : gpioGetPadAndSmiRegs gs index = some regs) :
    ∃ g ∈ gs, ∃ pad < g.padPerGroup, g.smiRegs pad = some regs := by
  induction gs generalizing index with
  | nil => cases h
  | cons g gs ih =>
    rw [gpioGetPadAndSmiRegs] at h
    split at h
    · exact ⟨g, List.mem_cons_self, index, ‹_›, h⟩
    · obtain ⟨g', hg', hpad⟩ := ih h
      exact ⟨g', List.mem_cons_of_mem _ hg', hpad⟩

/-- The registers of a pad are those of its group. -/
theorem gpi_registers {regs : GpiSmiRegs} {index : Nat}
    (h : gpioGetPadAndSmiRegs mPchGpioGroupInfo index = some regs) :
    ((⟨.gpio, regs.gpiSmiEnRegAddress⟩, 4) : Register) ∈ enableRegisters ∧
      ((⟨.gpio, regs.gpiSmiStsRegAddress⟩, 4) : Register) ∈ statusRegisters ∧
      regs.gpiSmiBitOffset < 32 := by
  obtain ⟨g, hg, pad, hpad, hregs⟩ := gpioGetPadAndSmiRegs_mem h
  obtain ⟨offset, hoffset, rfl⟩ := Option.map_eq_some_iff.1 hregs
  have hzero : g.smiRegs 0 = some ⟨0, pchPcrAddress g.community offset,
      pchPcrAddress g.community (offset - 0x10)⟩ := by
    rw [GpioGroupInfo.smiRegs, hoffset]
    rfl
  have hle : ∀ g ∈ mPchGpioGroupInfo, g.padPerGroup ≤ 24 := by decide
  refine ⟨List.mem_cons_of_mem _ (List.mem_cons_of_mem _ (List.mem_filterMap.2 ⟨g, hg, ?_⟩)),
    List.mem_cons_of_mem _ (List.mem_cons_of_mem _ (List.mem_filterMap.2 ⟨g, hg, ?_⟩)),
    Nat.lt_of_lt_of_le hpad (Nat.le_trans (hle g hg) (by decide : 24 ≤ 32))⟩
  · rw [hzero]
    rfl
  · rw [hzero]
    rfl

theorem TableSource.en_sts {src : PchSmmSourceDesc} (h : TableSource src) :
    ∃ e d, src.en.toList = [e, nullBitDesc] ∧ src.sts.toList = [d] ∧ EnableBit e ∧ StatusBit d := by
  rcases h with - | - | - | - | - | timer | h
  · exact ⟨_, _, rfl, rfl, by decide, by decide⟩
  · exact ⟨_, _, rfl, rfl, by decide, by decide⟩
  · exact ⟨_, _, rfl, rfl, by decide, by decide⟩
  · exact ⟨_, _, rfl, rfl, by decide, by decide⟩
  · exact ⟨_, _, rfl, rfl, by decide, by decide⟩
  · rcases timer with - | -
    · exact ⟨_, _, rfl, rfl, by decide, by decide⟩
    · exact ⟨_, _, rfl, rfl, by decide, by decide⟩
  · obtain ⟨hen, hsts, hbit⟩ := gpi_registers h
    exact ⟨_, _, rfl, rfl, ⟨hen, hbit⟩, hsts⟩

theorem SourceEnable.enableBit {d : PchSmmBitDesc} (h : SourceEnable d) : EnableBit d := by
  obtain ⟨src, hsrc, hmem, hnull⟩ := h
  obtain ⟨e, -, hen, -, he, -⟩ := hsrc.en_sts
  rw [hen] at hmem
  obtain rfl | hmem := List.mem_cons.1 hmem
  · exact he
  · rw [List.mem_singleton.1 hmem] at hnull
    cases hnull

/-! ### What is relied on -/

/-- An enable bit is set. -/
def IsSet {H : Type} (P : PchHardware H) (hw : H) (d : PchSmmBitDesc) : Prop :=
  readBitDesc P hw d = true

/-- The enable bits are plain: they keep what is written to their register, and no write to a
register apart from it changes them. -/
structure PlainEnables {H : Type} (P : PchHardware H) : Prop where
  /-- A bit keeps what is written to its register. -/
  read_write_self : ∀ d, SourceEnable d → ∀ hw value,
    (P.read (P.write hw d.reg d.sizeInBytes value) d.reg d.sizeInBytes).getLsbD d.bit =
      value.getLsbD d.bit
  /-- Writes elsewhere leave it alone. -/
  read_write_apart : ∀ d, SourceEnable d → ∀ a : Register, Apart a d.register → ∀ hw value,
    (P.read (P.write hw a.1 a.2 value) d.reg d.sizeInBytes).getLsbD d.bit =
      (P.read hw d.reg d.sizeInBytes).getLsbD d.bit

section Effects

variable {H : Type} {P : PchHardware H} {d e : PchSmmBitDesc}

theorem isSet_iff (hd : SourceEnable d) (hw : H) :
    IsSet P hw d ↔ (P.read hw d.reg d.sizeInBytes).getLsbD d.bit = true := by
  obtain ⟨hmem, hbit⟩ := hd.enableBit
  rw [IsSet, readBitDesc_of_isPlain P (isPlain_of_mem _ (List.mem_append_left _ hmem)) (by omega)]

theorem isSet_write_apart (hP : PlainEnables P) (hd : SourceEnable d) {a : Register}
    (ha : Apart a d.register) (hw : H) (value : BitVec 64) :
    IsSet P (P.write hw a.1 a.2 value) d ↔ IsSet P hw d := by
  rw [isSet_iff hd, isSet_iff hd, hP.read_write_apart d hd a ha]

/-- **Writing an enable bit** sets or clears it, and leaves every other one as it is. -/
theorem isSet_writeBitDesc_enable (hP : PlainEnables P) (hd : SourceEnable d) (he : EnableBit e)
    (hw : H) (value : Bool) :
    IsSet P (writeBitDesc P hw e value false) d ↔
      if sameBit d e = true then value = true else IsSet P hw d := by
  obtain ⟨hmem, hbit⟩ := hd.enableBit
  obtain ⟨hmem', hbit'⟩ := he
  rw [writeBitDesc_of_isPlain P (isPlain_of_mem _ (List.mem_append_left _ hmem'))]
  obtain heq | hapart := enableRegisters_apart _ hmem' _ hmem
  · -- the same register: read, changed in one bit, and written back
    obtain ⟨hreg, hsize⟩ := Prod.mk.inj heq
    change e.reg = d.reg at hreg
    change e.sizeInBytes = d.sizeInBytes at hsize
    rw [isSet_iff hd, isSet_iff hd, hreg, hsize, hP.read_write_self d hd,
      getLsbD_setBit _ _ (by omega) (by omega)]
    by_cases hsame : d.bit = e.bit
    · rw [if_pos hsame, if_pos (sameBit_iff.2 ⟨hsame, hreg.symm⟩)]
    · rw [if_neg hsame, if_neg fun h ↦ hsame (sameBit_iff.1 h).1]
  · rw [if_neg fun h ↦ hapart.1 (sameBit_iff.1 h).2.symm]
    exact isSet_write_apart hP hd hapart hw _

theorem isSet_writeBitDesc_status (hP : PlainEnables P) (hd : SourceEnable d) (he : StatusBit e)
    (hw : H) (value writeClear : Bool) :
    IsSet P (writeBitDesc P hw e value writeClear) d ↔ IsSet P hw d := by
  obtain ⟨v, hwrite⟩ := exists_writeBitDesc_of_isPlain P
    (isPlain_of_mem _ (List.mem_append_right _ he)) hw value writeClear
  rw [hwrite]
  exact isSet_write_apart hP hd (statusRegisters_apart _ he _ hd.enableBit.1) hw v

theorem isSet_write_other (hP : PlainEnables P) (hd : SourceEnable d) {a : Register}
    (ha : a ∈ otherRegisters) (hw : H) (value : BitVec 64) :
    IsSet P (P.write hw a.1 a.2 value) d ↔ IsSet P hw d :=
  isSet_write_apart hP hd (otherRegisters_apart a ha _ hd.enableBit.1) hw value

end Effects

/-! ### Whole sources -/

/-- The bits that records name as enables: unused ones, the one of a record set to zero, and bits of
the enable registers. -/
def NamedEnable (e : PchSmmBitDesc) : Prop :=
  e = nullBitDesc ∨ e = zeroBitDesc ∨ EnableBit e

/-- The bits that records name as statuses. -/
def NamedStatus (e : PchSmmBitDesc) : Prop := e = zeroBitDesc ∨ StatusBit e

/-- The sources of records: those of the tables, and the one of a record set to zero. -/
def CoreSource (src : PchSmmSourceDesc) : Prop := src = zeroSourceDesc ∨ TableSource src

theorem CoreSource.en {src : PchSmmSourceDesc} (h : CoreSource src) :
    ∀ e ∈ src.en.toList, NamedEnable e := by
  intro e he
  obtain rfl | hsrc := h
  · obtain rfl : e = zeroBitDesc := by
      simpa [zeroSourceDesc, enBits] using he
    exact Or.inr (Or.inl rfl)
  · obtain ⟨e', -, hen, -, he', -⟩ := hsrc.en_sts
    rw [hen] at he
    obtain rfl | he := List.mem_cons.1 he
    · exact Or.inr (Or.inr he')
    · exact Or.inl (List.mem_singleton.1 he)

theorem CoreSource.sts {src : PchSmmSourceDesc} (h : CoreSource src) :
    ∀ e ∈ src.sts.toList, NamedStatus e := by
  intro e he
  obtain rfl | hsrc := h
  · obtain rfl : e = zeroBitDesc := by
      simpa [zeroSourceDesc, stsBits] using he
    exact Or.inl rfl
  · obtain ⟨-, d, -, hsts, -, hd⟩ := hsrc.en_sts
    rw [hsts] at he
    rw [List.mem_singleton.1 he]
    exact Or.inr hd

section Sources

variable {H : Type} {P : PchHardware H} {d e : PchSmmBitDesc} {src : PchSmmSourceDesc}

/-- An enable bit is none of the unused bits, nor the one of a record set to zero. -/
theorem SourceEnable.sameBit_eq_false (hd : SourceEnable d) :
    sameBit d nullBitDesc = false ∧ sameBit d zeroBitDesc = false := by
  have hregs : ∀ a ∈ enableRegisters, a.1 ≠ nullBitDesc.reg ∧ a.1 ≠ zeroBitDesc.reg := by decide
  obtain ⟨hnull, hzero⟩ := hregs _ hd.enableBit.1
  refine ⟨Bool.eq_false_iff.2 fun h ↦ hnull (sameBit_iff.1 h).2,
    Bool.eq_false_iff.2 fun h ↦ hzero (sameBit_iff.1 h).2⟩

/-- Writing a bit of a record, unless it is unused. -/
theorem isSet_writeNamed (hP : PlainEnables P) (hd : SourceEnable d) (he : NamedEnable e) (hw : H)
    (value : Bool) :
    IsSet P (if e.isBitDescNull then hw else writeBitDesc P hw e value false) d ↔
      if sameBit d e = true then value = true else IsSet P hw d := by
  obtain ⟨hnull, hzero⟩ := hd.sameBit_eq_false
  obtain rfl | rfl | he := he
  · rw [hnull]
    exact Iff.rfl
  · rw [hzero]
    exact isSet_write_other hP hd (a := (⟨.acpi, 0⟩, 1)) (by decide) hw _
  · have hplain := (isPlain_of_mem _ (List.mem_append_left _ he.1)).1
    have hnull : e.isBitDescNull = false := by
      refine Bool.eq_false_iff.2 fun h ↦ ?_
      have htype : e.reg.type = .null := of_decide_eq_true h
      change e.reg.type = .acpi ∨ e.reg.type = .gpio at hplain
      rw [htype] at hplain
      rcases hplain with h | h <;> cases h
    rw [hnull]
    exact isSet_writeBitDesc_enable hP hd he hw value

/-- **Writing the enables of a source**, by induction on the list. -/
theorem isSet_writeEnables (hP : PlainEnables P) (hd : SourceEnable d) (value : Bool)
    {es : List PchSmmBitDesc} (hes : ∀ e ∈ es, NamedEnable e) (hw : H) :
    IsSet P (writeBitDescs P hw es value false) d ↔
      if es.any (sameBit d) = true then value = true else IsSet P hw d := by
  induction es generalizing hw with
  | nil => exact Iff.rfl
  | cons e es ih =>
    rw [writeBitDescs, List.foldl_cons, ← writeBitDescs,
      ih (fun e he ↦ hes e (List.mem_cons_of_mem _ he)),
      isSet_writeNamed hP hd (hes e List.mem_cons_self), List.any_cons]
    by_cases hany : es.any (sameBit d) = true
    · simp [hany]
    · simp [hany]

theorem isSet_writeStatuses (hP : PlainEnables P) (hd : SourceEnable d) (value writeClear : Bool)
    {es : List PchSmmBitDesc} (hes : ∀ e ∈ es, NamedStatus e) (hw : H) :
    IsSet P (writeBitDescs P hw es value writeClear) d ↔ IsSet P hw d := by
  induction es generalizing hw with
  | nil => exact Iff.rfl
  | cons e es ih =>
    rw [writeBitDescs, List.foldl_cons, ← writeBitDescs,
      ih fun e he ↦ hes e (List.mem_cons_of_mem _ he)]
    split
    · exact Iff.rfl
    · obtain rfl | he := hes e List.mem_cons_self
      · exact isSet_write_other hP hd (a := (⟨.acpi, 0⟩, 1)) (by decide) hw _
      · exact isSet_writeBitDesc_status hP hd he hw value writeClear

theorem isSet_enableSource (hP : PlainEnables P) (hd : SourceEnable d) (hsrc : CoreSource src)
    (hw : H) : IsSet P (pchSmmEnableSource P hw src) d ↔
      isBitEqualToAnySourceEn d src = true ∨ IsSet P hw d := by
  rw [pchSmmEnableSource, isSet_writeStatuses hP hd _ _ hsrc.sts,
    isSet_writeEnables hP hd _ hsrc.en, isBitEqualToAnySourceEn]
  by_cases h : src.en.toList.any (sameBit d) = true
  · simp [h]
  · simp [h]

theorem isSet_disableSource (hP : PlainEnables P) (hd : SourceEnable d) (hsrc : CoreSource src)
    (hw : H) : IsSet P (pchSmmDisableSource P hw src) d ↔
      isBitEqualToAnySourceEn d src = false ∧ IsSet P hw d := by
  rw [pchSmmDisableSource, isSet_writeEnables hP hd _ hsrc.en, isBitEqualToAnySourceEn]
  by_cases h : src.en.toList.any (sameBit d) = true
  · simp [h]
  · simp [h]

theorem isSet_clearSource (hP : PlainEnables P) (hd : SourceEnable d) (hsrc : CoreSource src)
    (hw : H) : IsSet P (pchSmmClearSource P hw src) d ↔ IsSet P hw d :=
  isSet_writeStatuses hP hd _ _ hsrc.sts hw

end Sources

end PurleyFirmware.PchSmi
