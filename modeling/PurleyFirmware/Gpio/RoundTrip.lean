import PurleyFirmware.Gpio.PadConfig

/-!
# Reading and writing the configuration of a pad

The reader and the writer shift each field by different amounts, and the fields of a register share
one masked write. A field is characterised by where its bits are, `PadField.Holds`: what the writer
makes of a value that a register holds is that register, and what the reader gets after a write is
the value, or what was there before.
-/

namespace PurleyFirmware.Gpio

/-! ### One field -/

namespace PadField

variable {f g : PadField} {conf reg reg' v v' : BitVec 32} {i j : ℕ}

/-- A bit of the value, by its place in the configuration. -/
def bit (f : PadField) (reg : BitVec 32) (j : ℕ) : Bool :=
  decide (j = f.confPos) ||
    (decide (f.confPos < j ∧ j ≤ f.confPos + f.width) && reg.getLsbD (j - (f.confPos + 1) + f.regPos))

/-- The configuration value is valid, and the one that the register has. -/
def Holds (f : PadField) (reg v : BitVec 32) : Prop := ∀ j < 32, v.getLsbD j = f.bit reg j

theorem getLsbD_and_confMask (f : PadField) (conf : BitVec 32) (j : ℕ) :
    (conf &&& f.confMask).getLsbD j =
      (conf.getLsbD j && decide (f.confPos ≤ j ∧ j ≤ f.confPos + f.width)) := by
  rw [BitVec.getLsbD_and]
  by_cases hj : j < 32
  · rw [f.conf_bits j hj, Bool.decide_and]
  · rw [BitVec.getLsbD_of_ge conf j (Nat.not_lt.1 hj), Bool.false_and, Bool.false_and]

/-- The field is at its default when all its bits are zero. -/
theorem ushiftRight_eq_zero_iff (f : PadField) (conf : BitVec 32) :
    (conf &&& f.confMask) >>> f.confPos = 0 ↔ conf &&& f.confMask = 0 := by
  refine ⟨fun h ↦ BitVec.eq_of_getLsbD_eq fun j hj ↦ ?_, fun h ↦ by rw [h]; simp⟩
  rcases Nat.lt_or_ge j f.confPos with hlt | hge
  · rw [getLsbD_and_confMask, decide_eq_false (fun hle ↦ Nat.not_le.2 hlt hle.1), Bool.and_false]
    exact BitVec.getLsbD_zero.symm
  · have hbit := congrArg (fun b : BitVec 32 ↦ b.getLsbD (j - f.confPos)) h
    simp only [BitVec.getLsbD_ushiftRight, Nat.add_sub_cancel' hge] at hbit
    exact hbit.trans (BitVec.getLsbD_zero.trans BitVec.getLsbD_zero.symm)

/-- The bits that are written. -/
theorem getLsbD_write_value (f : PadField) (conf : BitVec 32) (hi : i < 32) :
    (f.write conf).value.getLsbD i =
      (decide (f.regPos ≤ i ∧ i < f.regPos + f.width) &&
        conf.getLsbD (i - f.regPos + (f.confPos + 1))) := by
  rw [write]
  dsimp only
  rw [BitVec.getLsbD_shiftLeft, BitVec.getLsbD_ushiftRight, getLsbD_and_confMask,
    decide_eq_true hi, Bool.true_and, Nat.add_comm (f.confPos + 1)]
  by_cases hle : f.regPos ≤ i
  · have hiff : (f.confPos ≤ i - f.regPos + (f.confPos + 1) ∧
        i - f.regPos + (f.confPos + 1) ≤ f.confPos + f.width) ↔
        f.regPos ≤ i ∧ i < f.regPos + f.width := by omega
    rw [decide_eq_false (Nat.not_lt.2 hle), Bool.not_false, Bool.true_and, decide_eq_decide.2 hiff,
      Bool.and_comm]
  · have hno : decide (f.regPos ≤ i ∧ i < f.regPos + f.width) = false :=
      decide_eq_false fun h ↦ hle h.1
    rw [decide_eq_true (Nat.lt_of_not_le hle), hno]
    simp

theorem getLsbD_write_mask (f : PadField) (conf : BitVec 32) (hi : i < 32) :
    (f.write conf).mask.getLsbD i =
      (decide (conf &&& f.confMask ≠ 0) && decide (f.regPos ≤ i ∧ i < f.regPos + f.width)) := by
  rw [write]
  dsimp only
  split
  · rename_i h
    rw [decide_eq_false (not_not_intro ((ushiftRight_eq_zero_iff f conf).1 h)), Bool.false_and]
    exact BitVec.getLsbD_zero
  · rename_i h
    have hne : decide (conf &&& f.confMask ≠ 0) = true :=
      decide_eq_true fun h' ↦ h ((ushiftRight_eq_zero_iff f conf).2 h')
    rw [hne, f.reg_bits i hi, Bool.decide_and, Bool.true_and]

/-- **A field stays inside its own bits**, also when it is at its default. -/
theorem write_inside (f : PadField) (conf : BitVec 32) : (f.write conf).Inside := by
  intro i hi hvalue
  rw [getLsbD_write_value f conf hi, Bool.and_eq_true] at hvalue
  rw [getLsbD_write_mask f conf hi, hvalue.1, Bool.and_true]
  refine decide_eq_true fun hzero ↦ ?_
  have hbit := getLsbD_and_confMask f conf (i - f.regPos + (f.confPos + 1))
  have hrange := of_decide_eq_true hvalue.1
  rw [hzero, hvalue.2, decide_eq_true ⟨by omega, by omega⟩] at hbit
  exact absurd (hbit.symm.trans BitVec.getLsbD_zero) (by decide)

/-! ### Reading -/

theorem getLsbD_and_regMask (f : PadField) (reg : BitVec 32) (i : ℕ) :
    (reg &&& f.regMask).getLsbD i =
      (reg.getLsbD i && decide (f.regPos ≤ i ∧ i < f.regPos + f.width)) := by
  rw [BitVec.getLsbD_and]
  by_cases hi : i < 32
  · rw [f.reg_bits i hi, Bool.decide_and]
  · rw [BitVec.getLsbD_of_ge reg i (Nat.not_lt.1 hi), Bool.false_and, Bool.false_and]

theorem getLsbD_validBit (f : PadField) (hj : j < 32) :
    (1#32 <<< f.confPos).getLsbD j = decide (j = f.confPos) := by
  rw [getLsbD_shifted_bit hj (by decide)]
  simp

/-- The reader that shifts to the right. -/
theorem holds_read (h : f.confPos < f.regPos) (reg : BitVec 32) : f.Holds reg (f.read reg) := by
  intro j hj
  rw [read, BitVec.getLsbD_or, f.getLsbD_validBit hj, BitVec.getLsbD_ushiftRight,
    getLsbD_and_regMask, bit, Bool.or_comm]
  congr 1
  by_cases hrange : f.confPos < j ∧ j ≤ f.confPos + f.width
  · have hplace : f.regPos - (f.confPos + 1) + j = j - (f.confPos + 1) + f.regPos := by omega
    rw [hplace, decide_eq_true hrange, decide_eq_true (by omega), Bool.and_true, Bool.true_and]
  · rw [decide_eq_false hrange, decide_eq_false (by omega), Bool.and_false, Bool.false_and]

/-- The reader that shifts to the left, for the field at the bottom. -/
theorem holds_readUp (h : f.regPos = 0) (hconf : f.confPos = 0) (reg : BitVec 32) :
    f.Holds reg (f.readUp reg) := by
  intro j hj
  rw [readUp, BitVec.getLsbD_or, f.getLsbD_validBit hj, BitVec.getLsbD_shiftLeft,
    getLsbD_and_regMask, bit, Bool.or_comm, h, hconf]
  congr 1
  by_cases hrange : 0 < j ∧ j ≤ 0 + f.width
  · rw [decide_eq_true hj, decide_eq_true hrange, decide_eq_false (by omega),
      decide_eq_true (by omega)]
    simp
  · rw [decide_eq_false hrange, Bool.false_and]
    rcases Nat.eq_zero_or_pos j with rfl | hpos
    · simp
    · rw [decide_eq_false (by omega : ¬ (0 ≤ j - (0 + (0 + 1)) ∧ j - (0 + (0 + 1)) < 0 + f.width))]
      simp

theorem bit_eq_false (hj : ¬ (f.confPos ≤ j ∧ j ≤ f.confPos + f.width)) :
    f.bit reg j = false := by
  have hvalid : ¬ j = f.confPos := by omega
  have hrange : ¬ (f.confPos < j ∧ j ≤ f.confPos + f.width) := by omega
  rw [bit, decide_eq_false hvalid, decide_eq_false hrange]
  rfl

/-- Only the bits of the field count. -/
theorem holds_and_confMask
    (h : ∀ j, f.confPos ≤ j ∧ j ≤ f.confPos + f.width → conf.getLsbD j = f.bit reg j) :
    f.Holds reg (conf &&& f.confMask) := by
  intro j hj
  rw [getLsbD_and_confMask]
  by_cases hrange : f.confPos ≤ j ∧ j ≤ f.confPos + f.width
  · rw [decide_eq_true hrange, Bool.and_true]
    exact h j hrange
  · rw [decide_eq_false hrange, Bool.and_false, bit_eq_false hrange]

/-- Two values that are kept in one part of the configuration. -/
theorem Holds.setWidth_or (hf : f.Holds reg v) (hg : g.Holds reg' v') {n : ℕ}
    (hn : f.confPos + f.width < n)
    (hdisjoint : f.confPos + f.width < g.confPos ∨ g.confPos + g.width < f.confPos) :
    f.Holds reg ((v.setWidth n ||| v'.setWidth n).setWidth 32 &&& f.confMask) := by
  refine holds_and_confMask fun j hj ↦ ?_
  have hlt := f.conf_lt
  have hj32 : j < 32 := by omega
  have hjn : j < n := by omega
  have hother : g.bit reg' j = false := bit_eq_false (by omega)
  rw [BitVec.getLsbD_setWidth, BitVec.getLsbD_or, BitVec.getLsbD_setWidth, BitVec.getLsbD_setWidth,
    hf j hj32, hg j hj32, hother]
  simp [hj32, hjn]

/-- The second of the two. -/
theorem Holds.or_setWidth (hg : g.Holds reg' v') (hf : f.Holds reg v) {n : ℕ}
    (hn : g.confPos + g.width < n)
    (hdisjoint : g.confPos + g.width < f.confPos ∨ f.confPos + f.width < g.confPos) :
    g.Holds reg' ((v.setWidth n ||| v'.setWidth n).setWidth 32 &&& g.confMask) := by
  rw [BitVec.or_comm]
  exact hg.setWidth_or hf hn hdisjoint

/-- A value that is kept in a part of the configuration, alone. -/
theorem Holds.setWidth (h : f.Holds reg v) {n : ℕ} (hn : f.confPos + f.width < n) :
    f.Holds reg ((v.setWidth n).setWidth 32 &&& f.confMask) := by
  refine holds_and_confMask fun j hj ↦ ?_
  have hlt := f.conf_lt
  have hj32 : j < 32 := by omega
  have hjn : j < n := by omega
  rw [BitVec.getLsbD_setWidth, BitVec.getLsbD_setWidth, h j hj32]
  simp [hj32, hjn]

/-! ### Writing what was read, and reading what was written -/

/-- **What is written is what was read.** -/
theorem Holds.write_eq (h : f.Holds reg (conf &&& f.confMask)) :
    f.write conf = ⟨f.regMask, reg &&& f.regMask⟩ := by
  have hne : conf &&& f.confMask ≠ 0 := by
    intro hzero
    have hvalid := h f.confPos (Nat.lt_of_le_of_lt (Nat.le_add_right _ _) f.conf_lt)
    rw [hzero, bit, decide_eq_true rfl, Bool.true_or] at hvalid
    exact absurd (hvalid.symm.trans BitVec.getLsbD_zero) (by decide)
  have hmask : (f.write conf).mask = f.regMask := by
    rw [write]
    exact if_neg fun hzero ↦ hne ((ushiftRight_eq_zero_iff f conf).1 hzero)
  have hvalue : (f.write conf).value = reg &&& f.regMask := by
    refine BitVec.eq_of_getLsbD_eq fun i hi ↦ ?_
    rw [getLsbD_write_value f conf hi, getLsbD_and_regMask, Bool.and_comm]
    by_cases hrange : f.regPos ≤ i ∧ i < f.regPos + f.width
    · have hlt := f.conf_lt
      have hplace : i - f.regPos + (f.confPos + 1) - (f.confPos + 1) + f.regPos = i := by omega
      have hbit := h (i - f.regPos + (f.confPos + 1)) (by omega)
      rw [getLsbD_and_confMask, decide_eq_true ⟨by omega, by omega⟩, Bool.and_true, bit,
        decide_eq_false (by omega : ¬ i - f.regPos + (f.confPos + 1) = f.confPos), Bool.false_or,
        decide_eq_true ⟨by omega, by omega⟩, Bool.true_and, hplace] at hbit
      rw [hbit]
    · rw [decide_eq_false hrange, Bool.and_false, Bool.and_false]
  calc f.write conf = ⟨(f.write conf).mask, (f.write conf).value⟩ := rfl
    _ = ⟨f.regMask, reg &&& f.regMask⟩ := by rw [hmask, hvalue]

/-- What the writer gives a bit of the field. -/
theorem given_write (f : PadField) (conf : BitVec 32)
    (hj : f.confPos < j ∧ j ≤ f.confPos + f.width) :
    (f.write conf).given (j - (f.confPos + 1) + f.regPos) =
      if conf &&& f.confMask = 0 then none else some (conf.getLsbD j) := by
  have hle := f.reg_le
  have hi : j - (f.confPos + 1) + f.regPos < 32 := by omega
  have hplace : j - (f.confPos + 1) + f.regPos - f.regPos + (f.confPos + 1) = j := by omega
  have hrange : f.regPos ≤ j - (f.confPos + 1) + f.regPos ∧
      j - (f.confPos + 1) + f.regPos < f.regPos + f.width := by omega
  rw [MaskedWrite.given, getLsbD_write_mask f conf hi, getLsbD_write_value f conf hi,
    decide_eq_true hrange, hplace]
  by_cases hzero : conf &&& f.confMask = 0 <;> simp [hzero]

/-- **What is read is what was written**, or what was there. -/
theorem Holds.eq_of_write (h : f.Holds reg v) (h' : f.Holds reg' v')
    (hreg : ∀ i < 32, f.regPos ≤ i ∧ i < f.regPos + f.width →
      reg'.getLsbD i = ((f.write conf).given i).getD (reg.getLsbD i))
    (hvalid : conf &&& f.confMask = 0 ∨ conf.getLsbD f.confPos = true) :
    v' = if conf &&& f.confMask = 0 then v else conf &&& f.confMask := by
  have hle := f.reg_le
  have hbit : ∀ j, f.confPos < j ∧ j ≤ f.confPos + f.width →
      reg'.getLsbD (j - (f.confPos + 1) + f.regPos) =
        if conf &&& f.confMask = 0 then reg.getLsbD (j - (f.confPos + 1) + f.regPos)
        else conf.getLsbD j := by
    intro j hj
    rw [hreg _ (by omega) (by omega), given_write f conf hj]
    split <;> rfl
  refine BitVec.eq_of_getLsbD_eq fun j hj32 ↦ ?_
  rw [h' j hj32]
  by_cases hrange : f.confPos < j ∧ j ≤ f.confPos + f.width
  · have hne : ¬ j = f.confPos := by omega
    have hin : f.confPos ≤ j ∧ j ≤ f.confPos + f.width := by omega
    rw [bit, hbit j hrange, decide_eq_true hrange, decide_eq_false hne]
    split
    · rw [h j hj32, bit, decide_eq_true hrange, decide_eq_false hne]
    · rw [getLsbD_and_confMask, decide_eq_true hin, Bool.false_or, Bool.true_and, Bool.and_true]
  · have hbits : ∀ reg, f.bit reg j = decide (j = f.confPos) := by
      intro reg
      rw [bit, decide_eq_false hrange, Bool.false_and, Bool.or_false]
    rw [hbits]
    split
    · rw [h j hj32, hbits]
    · rename_i hne
      rw [getLsbD_and_confMask]
      by_cases hpos : j = f.confPos
      · subst hpos
        rw [hvalid.resolve_left hne]
        simp
      · rw [decide_eq_false hpos, decide_eq_false (by omega), Bool.and_false]

end PadField

/-! ### The fields of a configuration -/

/-- The fields that are in the registers of the pad itself. -/
inductive PadCfgField
  | reset
  | intTrig
  | intRoute
  | dir
  | inv
  | output
  | rxRaw
  | padMode
  | term
  | padTol
  deriving DecidableEq

namespace PadCfgField

/-- Where the field is. -/
def field : PadCfgField → PadField
  | reset => rstConf
  | intTrig => rxLvlEdg
  | intRoute => rxRoute
  | dir => rxTxDis
  | inv => rxInv
  | output => txState
  | rxRaw => rxRaw1
  | padMode => pMode
  | term => Gpio.term
  | padTol => Gpio.padTol

/-- The part of the configuration that has the field. -/
def part (c : GpioConfig) : PadCfgField → BitVec 32
  | reset => c.powerConfig.setWidth 32
  | intTrig => c.interruptConfig.setWidth 32
  | intRoute => c.interruptConfig.setWidth 32
  | dir => c.direction.setWidth 32
  | inv => c.direction.setWidth 32
  | output => c.outputState.setWidth 32
  | rxRaw => c.otherSettings.setWidth 32
  | padMode => c.padMode.setWidth 32
  | term => c.electricalConfig.setWidth 32
  | padTol => c.electricalConfig.setWidth 32

/-- The fields of the first dword, in the order in which they are written. -/
def inDw0 : List PadCfgField := [reset, intTrig, intRoute, dir, inv, output, rxRaw, padMode]

/-- The fields of the second dword. -/
def inDw1 : List PadCfgField := [term, padTol]

/-- What the field has in a configuration. -/
def value (f : PadCfgField) (c : GpioConfig) : BitVec 32 := f.part c &&& f.field.confMask

/-- The write of the field. -/
def write (f : PadCfgField) (c : GpioConfig) : MaskedWrite 32 := f.field.write (f.part c)

/-- The register that has the field. -/
def reg (f : PadCfgField) (s : PadState) : BitVec 32 := if f ∈ inDw0 then s.dw0 else s.dw1

end PadCfgField

theorem dw0Write_eq (c : GpioConfig) :
    c.dw0Write = .merge (PadCfgField.inDw0.map fun f ↦ f.write c) := rfl

theorem dw1Write_eq (c : GpioConfig) :
    c.dw1Write = .merge (PadCfgField.inDw1.map fun f ↦ f.write c) := rfl

variable {c : GpioConfig} {s : PadState}

/-- **Every field is read from its register.** -/
theorem PadCfgField.holds_config (f : PadCfgField) (s : PadState) :
    f.field.Holds (f.reg s) (f.value s.config) := by
  cases f with
  | reset => exact (PadField.holds_read (by decide) s.dw0).setWidth (by decide)
  | intTrig =>
    exact (PadField.holds_read (by decide) s.dw0).setWidth_or
      (PadField.holds_read (by decide) s.dw0) (by decide) (.inr (by decide))
  | intRoute =>
    exact (PadField.holds_read (by decide) s.dw0).or_setWidth
      (PadField.holds_read (by decide) s.dw0) (by decide) (.inl (by decide))
  | dir =>
    exact (PadField.holds_read (by decide) s.dw0).setWidth_or
      (PadField.holds_read (by decide) s.dw0) (by decide) (.inl (by decide))
  | inv =>
    exact (PadField.holds_read (by decide) s.dw0).or_setWidth
      (PadField.holds_read (by decide) s.dw0) (by decide) (.inr (by decide))
  | output => exact (PadField.holds_readUp rfl rfl s.dw0).setWidth (by decide)
  | rxRaw => exact (PadField.holds_read (by decide) s.dw0).setWidth (by decide)
  | padMode => exact (PadField.holds_read (by decide) s.dw0).setWidth (by decide)
  | term =>
    exact (PadField.holds_read (by decide) s.dw1).setWidth_or
      (PadField.holds_read (by decide) s.dw1) (by decide) (.inl (by decide))
  | padTol =>
    exact (PadField.holds_read (by decide) s.dw1).or_setWidth
      (PadField.holds_read (by decide) s.dw1) (by decide) (.inr (by decide))

/-- The fields of a register do not overlap. -/
theorem PadCfgField.disjoint {l : List PadCfgField} (hl : l = inDw0 ∨ l = inDw1)
    {f g : PadCfgField} (hf : f ∈ l) (hg : g ∈ l) {i : ℕ}
    (hi : f.field.regPos ≤ i ∧ i < f.field.regPos + f.field.width)
    (hi' : g.field.regPos ≤ i ∧ i < g.field.regPos + g.field.width) : g = f := by
  have hall : ∀ l, l = inDw0 ∨ l = inDw1 → ∀ f ∈ l, ∀ g ∈ l, g ≠ f →
      f.field.regPos + f.field.width ≤ g.field.regPos ∨
        g.field.regPos + g.field.width ≤ f.field.regPos := by
    rintro l (rfl | rfl) <;> decide
  by_contra hne
  have h := hall l hl f hf g hg hne
  omega

/-- A field of a register after the fields of the register are written. -/
theorem PadCfgField.getLsbD_apply {l : List PadCfgField} (hl : l = inDw0 ∨ l = inDw1)
    {f : PadCfgField} (hf : f ∈ l) (c : GpioConfig) (reg : BitVec 32) {i : ℕ} (hi : i < 32)
    (hrange : f.field.regPos ≤ i ∧ i < f.field.regPos + f.field.width) :
    ((MaskedWrite.merge (l.map fun f ↦ f.write c)).apply reg).getLsbD i =
      ((f.write c).given i).getD (reg.getLsbD i) := by
  have hinside : ∀ m ∈ l.map fun f ↦ f.write c, m.Inside := by
    intro m hm
    obtain ⟨g, -, rfl⟩ := List.mem_map.1 hm
    exact g.field.write_inside _
  rw [MaskedWrite.getLsbD_apply (MaskedWrite.Inside.merge hinside) reg hi,
    MaskedWrite.given_merge_of_unique hinside (List.mem_map_of_mem hf) hi]
  intro m hm hmask
  obtain ⟨g, hg, rfl⟩ := List.mem_map.1 hm
  rw [write, PadField.getLsbD_write_mask _ _ hi, Bool.and_eq_true] at hmask
  rw [disjoint hl hf hg hrange (of_decide_eq_true hmask.2)]

/-- **A register is unchanged when what was read of it is written.** -/
theorem PadCfgField.apply_config {l : List PadCfgField} {reg : BitVec 32}
    (hl : ∀ f ∈ l, f.reg s = reg) :
    (MaskedWrite.merge (l.map fun f ↦ f.write s.config)).apply reg = reg := by
  refine MaskedWrite.apply_of_value_eq (MaskedWrite.value_merge_eq fun m hm ↦ ?_)
  obtain ⟨f, hf, rfl⟩ := List.mem_map.1 hm
  rw [write, (f.holds_config s).write_eq, hl f hf]

/-- The pad causes an SCI, `GPIRoutSCI`. -/
def PadState.sciRoute (s : PadState) : Bool := s.dw0.getLsbD 19

/-- The interrupt configuration is valid, and has the route to the SCI. -/
theorem interruptConfig_config (s : PadState) :
    s.config.interruptConfig.getLsbD 0 = true ∧
      s.config.interruptConfig.getLsbD 3 = s.sciRoute := by
  have hholds := PadCfgField.holds_config .intRoute s
  have hbit : ∀ j ≤ 4, (PadCfgField.intRoute.value s.config).getLsbD j =
      s.config.interruptConfig.getLsbD j := by
    intro j hj
    have hin : rxRoute.confPos ≤ j ∧ j ≤ rxRoute.confPos + rxRoute.width := ⟨Nat.zero_le j, hj⟩
    rw [PadCfgField.value, PadCfgField.field, PadField.getLsbD_and_confMask, decide_eq_true hin,
      Bool.and_true, PadCfgField.part, BitVec.getLsbD_setWidth, decide_eq_true (by omega),
      Bool.true_and]
  rw [← hbit 0 (by decide), ← hbit 3 (by decide), hholds 0 (by decide), hholds 3 (by decide)]
  constructor
  · rfl
  · rfl

/-- An unlocked pad is not locked by what is read of it. -/
theorem locks_config (h : s.lock = false) :
    s.config.locks = false ∧ s.config.locksTx = s.lockTx := by
  have hlocks : ∀ b : Bool, decide ((((if false then 3#3 else 1#3) ||| if b then 5#3 else 1#3) &&&
      GpioConfig.gpioPadConfigLock) = GpioConfig.gpioPadConfigLock) = false := by decide
  have hlocksTx : ∀ b : Bool, decide ((((if false then 3#3 else 1#3) ||| if b then 5#3 else 1#3) &&&
      GpioConfig.gpioOutputStateLock) = GpioConfig.gpioOutputStateLock) = b := by decide
  rw [GpioConfig.locks, GpioConfig.locksTx, PadState.config, h]
  exact ⟨hlocks s.lockTx, hlocksTx s.lockTx⟩

/-- **Writing what was read** enables the GPE as the route to the SCI is, and changes nothing else. -/
theorem PadState.configure_config (h : s.lock = false) :
    s.configure s.config = { s with gpeEn := s.sciRoute } := by
  have hdw0 : ∀ f ∈ PadCfgField.inDw0, f.reg s = s.dw0 := fun f hf ↦ if_pos hf
  have hdw1 : ∀ f ∈ PadCfgField.inDw1, f.reg s = s.dw1 := by
    intro f hf
    refine if_neg fun hf' ↦ ?_
    revert f
    decide
  have hown : ∀ b b' : Bool, ((b' && !(if b then 3#2 else 1#2).getLsbD 0) ||
      (if b then 3#2 else 1#2).getLsbD 1) = b := by decide
  obtain ⟨hvalid, hsci⟩ := interruptConfig_config s
  obtain ⟨hlocks, hlocksTx⟩ := locks_config h
  rw [configure, dw0Write_eq, dw1Write_eq, PadCfgField.apply_config hdw0,
    PadCfgField.apply_config hdw1, hvalid, hsci, hlocks, hlocksTx, Bool.or_false, Bool.or_self,
    Bool.not_true, Bool.and_false, Bool.false_or]
  congr 1
  exact hown s.hostOwn s.hostOwn

/-! ### Configurations of the enumerations -/

/-- Every field has one of the values that `GpioConfig.h` defines for it, or two of them ORed where
it has two parts. -/
structure GpioConfig.EnumValues (c : GpioConfig) : Prop where
  padMode : c.padMode ∈ [0x0#4, 0x1, 0x3, 0x5, 0x7, 0x9]
  hostSoftPadOwn : c.hostSoftPadOwn ∈ [0x0#2, 0x1, 0x3]
  direction : c.direction ∈ [0x0#5, 0x9, 0x19, 0xB, 0x1B, 0x5, 0x7]
  outputState : c.outputState ∈ [0x0#2, 0x1, 0x3]
  interruptConfig : ∃ route ∈ [0x00#8, 0x01, 0x03, 0x05, 0x09, 0x11],
    ∃ trigger ∈ [0x00#8, 0x20, 0x60, 0xA0, 0xE0], c.interruptConfig = route ||| trigger
  powerConfig : c.powerConfig ∈ [0x0#4, 0x1, 0x3, 0x5, 0x7]
  electricalConfig : ∃ term ∈ [0x00#7, 0x01, 0x05, 0x09, 0x13, 0x17, 0x15, 0x19, 0x1B, 0x1F],
    ∃ tolerance ∈ [0x00#7, 0x20, 0x60], c.electricalConfig = term ||| tolerance
  lockConfig : c.lockConfig ∈ [0x0#3, 0x3, 0x5, 0x7]
  otherSettings : c.otherSettings ∈ [0x0#2, 0x1, 0x3]

/-- A field that is not at its default is valid. -/
theorem GpioConfig.EnumValues.valid (h : c.EnumValues) (f : PadCfgField) :
    f.value c = 0 ∨ (f.part c).getLsbD f.field.confPos = true := by
  obtain ⟨route, hroute, trigger, htrigger, hint⟩ := h.interruptConfig
  obtain ⟨termination, htermination, tolerance, htolerance, helectrical⟩ := h.electricalConfig
  cases f with
  | reset =>
    have hall : ∀ x ∈ [0x0#4, 0x1, 0x3, 0x5, 0x7],
        x.setWidth 32 &&& 0x7 = 0 ∨ (x.setWidth 32).getLsbD 0 = true := by decide
    exact hall _ h.powerConfig
  | intTrig =>
    have hall : ∀ route ∈ [0x00#8, 0x01, 0x03, 0x05, 0x09, 0x11],
        ∀ trigger ∈ [0x00#8, 0x20, 0x60, 0xA0, 0xE0], (route ||| trigger).setWidth 32 &&& 0xE0 = 0 ∨
          ((route ||| trigger).setWidth 32).getLsbD 5 = true := by decide
    rw [PadCfgField.value, PadCfgField.part, hint]
    exact hall _ hroute _ htrigger
  | intRoute =>
    have hall : ∀ route ∈ [0x00#8, 0x01, 0x03, 0x05, 0x09, 0x11],
        ∀ trigger ∈ [0x00#8, 0x20, 0x60, 0xA0, 0xE0], (route ||| trigger).setWidth 32 &&& 0x1F = 0 ∨
          ((route ||| trigger).setWidth 32).getLsbD 0 = true := by decide
    rw [PadCfgField.value, PadCfgField.part, hint]
    exact hall _ hroute _ htrigger
  | dir =>
    have hall : ∀ x ∈ [0x0#5, 0x9, 0x19, 0xB, 0x1B, 0x5, 0x7],
        x.setWidth 32 &&& 0x7 = 0 ∨ (x.setWidth 32).getLsbD 0 = true := by decide
    exact hall _ h.direction
  | inv =>
    have hall : ∀ x ∈ [0x0#5, 0x9, 0x19, 0xB, 0x1B, 0x5, 0x7],
        x.setWidth 32 &&& 0x18 = 0 ∨ (x.setWidth 32).getLsbD 3 = true := by decide
    exact hall _ h.direction
  | output =>
    have hall : ∀ x ∈ [0x0#2, 0x1, 0x3],
        x.setWidth 32 &&& 0x3 = 0 ∨ (x.setWidth 32).getLsbD 0 = true := by decide
    exact hall _ h.outputState
  | rxRaw =>
    have hall : ∀ x ∈ [0x0#2, 0x1, 0x3],
        x.setWidth 32 &&& 0x3 = 0 ∨ (x.setWidth 32).getLsbD 0 = true := by decide
    exact hall _ h.otherSettings
  | padMode =>
    have hall : ∀ x ∈ [0x0#4, 0x1, 0x3, 0x5, 0x7, 0x9],
        x.setWidth 32 &&& 0xF = 0 ∨ (x.setWidth 32).getLsbD 0 = true := by decide
    exact hall _ h.padMode
  | term =>
    have hall : ∀ termination ∈ [0x00#7, 0x01, 0x05, 0x09, 0x13, 0x17, 0x15, 0x19, 0x1B, 0x1F],
        ∀ tolerance ∈ [0x00#7, 0x20, 0x60], (termination ||| tolerance).setWidth 32 &&& 0x1F = 0 ∨
          ((termination ||| tolerance).setWidth 32).getLsbD 0 = true := by decide
    rw [PadCfgField.value, PadCfgField.part, helectrical]
    exact hall _ htermination _ htolerance
  | padTol =>
    have hall : ∀ termination ∈ [0x00#7, 0x01, 0x05, 0x09, 0x13, 0x17, 0x15, 0x19, 0x1B, 0x1F],
        ∀ tolerance ∈ [0x00#7, 0x20, 0x60], (termination ||| tolerance).setWidth 32 &&& 0x60 = 0 ∨
          ((termination ||| tolerance).setWidth 32).getLsbD 5 = true := by decide
    rw [PadCfgField.value, PadCfgField.part, helectrical]
    exact hall _ htermination _ htolerance

/-- The fields of a configuration. -/
inductive ConfigField
  | padCfg (f : PadCfgField)
  | hostOwn
  | lock

/-- What the field has. -/
def ConfigField.value (c : GpioConfig) : ConfigField → BitVec 32
  | padCfg f => f.value c
  | hostOwn => c.hostSoftPadOwn.setWidth 32 &&& 0x3
  | lock => c.lockConfig.setWidth 32 &&& 0x7

/-- The register of a field after the pad is configured. -/
theorem PadCfgField.reg_configure (f : PadCfgField) (c : GpioConfig) (s : PadState) {i : ℕ}
    (hi : i < 32) (hrange : f.field.regPos ≤ i ∧ i < f.field.regPos + f.field.width) :
    (f.reg (s.configure c)).getLsbD i = ((f.write c).given i).getD ((f.reg s).getLsbD i) := by
  by_cases hf : f ∈ inDw0
  · rw [reg, if_pos hf, reg, if_pos hf, PadState.configure, dw0Write_eq]
    exact getLsbD_apply (.inl rfl) hf c s.dw0 hi hrange
  · have hf' : f ∈ inDw1 := by
      revert hf
      cases f <;> decide
    rw [reg, if_neg hf, reg, if_neg hf, PadState.configure, dw1Write_eq]
    exact getLsbD_apply (.inr rfl) hf' c s.dw1 hi hrange

/-- **Reading what was written** gives each field that was not at its default, and the others as they
were. -/
theorem ConfigField.value_configure (h : c.EnumValues) (hlock : c.lockConfig = 0) (s : PadState)
    (f : ConfigField) :
    f.value (s.configure c).config = if f.value c = 0 then f.value s.config else f.value c := by
  cases f with
  | padCfg f =>
    exact (f.holds_config s).eq_of_write (f.holds_config (s.configure c))
      (fun i hi hrange ↦ f.reg_configure c s hi hrange) (h.valid f)
  | hostOwn =>
    have hall : ∀ x ∈ [0x0#2, 0x1, 0x3], ∀ b : Bool,
        (if (b && !x.getLsbD 0) || x.getLsbD 1 then 3#2 else 1#2).setWidth 32 &&& 0x3 =
          if x.setWidth 32 &&& 0x3 = 0 then (if b then 3#2 else 1#2).setWidth 32 &&& 0x3
          else x.setWidth 32 &&& 0x3 := by decide
    exact hall _ h.hostSoftPadOwn s.hostOwn
  | lock =>
    have hlocks : c.locks = false ∧ c.locksTx = false := by
      rw [GpioConfig.locks, GpioConfig.locksTx, hlock]
      decide
    have hzero : ConfigField.lock.value c = 0 := by
      rw [ConfigField.value, hlock]
      decide
    rw [if_pos hzero, ConfigField.value, ConfigField.value, PadState.config, PadState.config,
      PadState.configure, hlocks.1, hlocks.2, Bool.or_false, Bool.or_false]

/-! ### Through the functions -/

variable {P : GpioPlatform} {p : GpioPad} {r : Registers}

/-- The pad may be configured: it is valid, of this chipset, unlocked and owned by the host. -/
structure Configurable (P : GpioPlatform) (r : Registers) (p : GpioPad) : Prop where
  valid : ValidPad p
  chipset : P.debugCode = true → gpioIsCorrectPadForThisChipset P p = true
  unlocked : (padState r p).lock = false
  hostOwned : (padState r p).owner = gpioPadOwnHost

theorem Configurable.checkPad_eq (h : Configurable P r p) : checkPad P p r = .success := by
  have hgroup : ¬ (p.group < gpioGetLowestGroup ∨ gpioGetHighestGroup < p.group) := fun hout ↦
    hout.elim (fun hlt ↦ BitVec.not_lt.2 h.valid.lowest hlt)
      fun hlt ↦ BitVec.not_lt.2 h.valid.highest hlt
  have hpad : ¬ p.info.padPerGroup ≤ p.padNumber := Nat.not_le.2 h.valid.padNumber
  have hread : ¬ (gpioGetNumberOfGroups ≤ p.groupIndex ∨ p.info.padPerGroup ≤ p.padNumber) :=
    fun hout ↦ hout.elim (fun hge ↦ Nat.not_le.2 h.valid.group_eq.2 hge) hpad
  have hown : gpioGetPadOwnership P p r = gpioPadOwnHost := by
    rw [gpioGetPadOwnership, if_neg hread]
    exact h.hostOwned
  rw [checkPad, hown, if_neg, if_neg, if_neg hgroup, if_neg hpad]
  · exact fun hne ↦ hne.2 rfl
  · rintro ⟨hdebug, hwrong⟩
    rw [h.chipset hdebug] at hwrong
    cases hwrong

theorem Configurable.gpioGetPadConfig_eq (h : Configurable P r p) :
    gpioGetPadConfig P p r = .ok (padState r p).config := by
  rw [gpioGetPadConfig, h.checkPad_eq, readConfig_eq]
  rfl

theorem Configurable.gpioSetPadConfig_eq (h : Configurable P r p) (c : GpioConfig) :
    gpioSetPadConfig P p c r = (.success, setPad p c r) := by
  rw [gpioSetPadConfig, h.checkPad_eq, gpioIsPadLocked_eq, h.unlocked]
  rfl

/-- **Reading and writing are inverse**, but for the GPE enable, which follows the route to the
SCI. -/
theorem gpioPadConfig_roundTrip (P : GpioPlatform) (p : GpioPad) (r : Registers)
    (h : Configurable P r p) :
    (∃ c, gpioGetPadConfig P p r = .ok c ∧ (gpioSetPadConfig P p c r).1 = .success ∧
      ∀ q, ValidPad q → padState (gpioSetPadConfig P p c r).2 q =
        if q = p then { padState r q with gpeEn := (padState r q).sciRoute } else padState r q) ∧
    ∀ c : GpioConfig, c.EnumValues → c.lockConfig = 0 → ∃ before after,
      gpioGetPadConfig P p r = .ok before ∧
      gpioGetPadConfig P p (gpioSetPadConfig P p c r).2 = .ok after ∧
      ∀ f : ConfigField, f.value after = if f.value c = 0 then f.value before else f.value c := by
  constructor
  · refine ⟨_, h.gpioGetPadConfig_eq, by rw [h.gpioSetPadConfig_eq], fun q hq ↦ ?_⟩
    rw [h.gpioSetPadConfig_eq, padState_setPad h.valid hq]
    by_cases heq : q = p
    · subst heq
      rw [if_pos rfl, if_pos rfl, PadState.configure_config h.unlocked]
    · rw [if_neg heq, if_neg heq]
  · intro c hc hlock
    have hstate : padState (setPad p c r) p = (padState r p).configure c := by
      rw [padState_setPad h.valid h.valid, if_pos rfl]
    have hlocks : c.locks = false := by
      rw [GpioConfig.locks, hlock]
      decide
    have hafter : Configurable P (setPad p c r) p := by
      refine ⟨h.valid, h.chipset, ?_, ?_⟩
      · rw [hstate, PadState.configure, h.unlocked, hlocks]
        rfl
      · rw [hstate]
        exact h.hostOwned
    refine ⟨_, _, h.gpioGetPadConfig_eq, ?_, ConfigField.value_configure hc hlock (padState r p)⟩
    rw [h.gpioSetPadConfig_eq, hafter.gpioGetPadConfig_eq, hstate]

/-- A debug build for the server PCH. -/
def pchHDebug : GpioPlatform := ⟨true, .pchH, 0⟩

/-- GPP_A0, with all registers zero. -/
theorem gpioPadConfig_roundTrip_gppA0 :
    ∃ c, gpioGetPadConfig pchHDebug 0x01000000 (fun _ ↦ 0) = .ok c ∧
      (gpioSetPadConfig pchHDebug 0x01000000 c fun _ ↦ 0).1 = .success := by
  have hconfigurable : Configurable pchHDebug (fun _ ↦ 0) 0x01000000 :=
    ⟨by decide, by decide, by decide, by decide⟩
  obtain ⟨⟨c, hget, hset, -⟩, -⟩ :=
    gpioPadConfig_roundTrip pchHDebug 0x01000000 (fun _ ↦ 0) hconfigurable
  exact ⟨c, hget, hset⟩

end PurleyFirmware.Gpio
