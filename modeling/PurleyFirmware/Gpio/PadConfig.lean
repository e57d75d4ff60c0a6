import PurleyFirmware.Gpio.Registers

/-!
# Configuring a pad

A `GPIO_CONFIG` packs what can be configured of a pad into bit fields. A field has a valid bit and,
above it, a value; without the valid bit, which is `GpioHardwareDefault`, the register is left as it
is. The reader and the writer move the values between the fields and the registers.

A pad does not see what is done to another, although pads share registers: `padState_setPad`.
-/

namespace PurleyFirmware.Gpio

/-- `GPIO_CONFIG`, without the reserved bits. -/
structure GpioConfig where
  padMode : BitVec 4
  hostSoftPadOwn : BitVec 2
  direction : BitVec 5
  outputState : BitVec 2
  interruptConfig : BitVec 8
  powerConfig : BitVec 4
  electricalConfig : BitVec 7
  lockConfig : BitVec 3
  otherSettings : BitVec 2
  deriving DecidableEq

/-! ### Fields of the configuration registers -/

/-- A field of `PADCFG`, and where it is in the configuration. -/
structure PadField where
  /-- `GPIO_CONF_…_MASK`, with the valid bit. -/
  confMask : BitVec 32
  /-- `GPIO_CONF_…_BIT_POS`. -/
  confPos : ℕ
  /-- `B_PCH_GPIO_…`. -/
  regMask : BitVec 32
  /-- `N_PCH_GPIO_…`. -/
  regPos : ℕ
  /-- The number of bits of the value. -/
  width : ℕ
  conf_bits : ∀ j < 32, confMask.getLsbD j = (decide (confPos ≤ j) && decide (j ≤ confPos + width))
  reg_bits : ∀ i < 32, regMask.getLsbD i = (decide (regPos ≤ i) && decide (i < regPos + width))
  conf_lt : confPos + width < 32
  reg_le : regPos + width ≤ 32

namespace PadField

variable (f : PadField)

/-- What the writer adds to the mask and to the value of the register. -/
def write (conf : BitVec 32) : MaskedWrite 32 where
  mask := if (conf &&& f.confMask) >>> f.confPos = 0 then 0 else f.regMask
  value := ((conf &&& f.confMask) >>> (f.confPos + 1)) <<< f.regPos

/-- What the reader gets from the register. -/
def read (reg : BitVec 32) : BitVec 32 :=
  ((reg &&& f.regMask) >>> (f.regPos - (f.confPos + 1))) ||| (1#32 <<< f.confPos)

/-- What the reader gets of a field at the bottom of the register. -/
def readUp (reg : BitVec 32) : BitVec 32 :=
  ((reg &&& f.regMask) <<< (f.regPos + (f.confPos + 1))) ||| (1#32 <<< f.confPos)

end PadField

/-- Reset type, `PadRstCfg`. -/
def rstConf : PadField := ⟨0x7, 0, 0xC0000000, 30, 2,
  by decide, by decide, by decide, by decide⟩

/-- How the interrupt is triggered, `RxEvCfg`. -/
def rxLvlEdg : PadField := ⟨0xE0, 5, 0x06000000, 25, 2,
  by decide, by decide, by decide, by decide⟩

/-- The routes of the interrupt: NMI, SMI, SCI and I/O APIC. -/
def rxRoute : PadField := ⟨0x1F, 0, 0x001E0000, 17, 4,
  by decide, by decide, by decide, by decide⟩

/-- Direction, `GPIORxDis` and `GPIOTxDis`. -/
def rxTxDis : PadField := ⟨0x7, 0, 0x00000300, 8, 2,
  by decide, by decide, by decide, by decide⟩

/-- Inversion of the input, `RXINV`. -/
def rxInv : PadField := ⟨0x18, 3, 0x00800000, 23, 1,
  by decide, by decide, by decide, by decide⟩

/-- Output state, `GPIOTxState`. -/
def txState : PadField := ⟨0x3, 0, 0x00000001, 0, 1,
  by decide, by decide, by decide, by decide⟩

/-- Raw override of the input, `RXRAW1`. -/
def rxRaw1 : PadField := ⟨0x3, 0, 0x10000000, 28, 1,
  by decide, by decide, by decide, by decide⟩

/-- Pad mode, `PMode`. -/
def pMode : PadField := ⟨0xF, 0, 0x00001C00, 10, 3,
  by decide, by decide, by decide, by decide⟩

/-- Termination. -/
def term : PadField := ⟨0x1F, 0, 0x00003C00, 10, 4,
  by decide, by decide, by decide, by decide⟩

/-- Tolerance, `padtol`. -/
def padTol : PadField := ⟨0x60, 5, 0x02000000, 25, 1,
  by decide, by decide, by decide, by decide⟩

/-! ### What the writer writes -/

namespace GpioConfig

variable (c : GpioConfig)

/-- The fields of the first dword, with the part of the configuration that has them. -/
def dw0Fields : List (PadField × BitVec 32) :=
  [(rstConf, c.powerConfig.setWidth 32), (rxLvlEdg, c.interruptConfig.setWidth 32),
    (rxRoute, c.interruptConfig.setWidth 32), (rxTxDis, c.direction.setWidth 32),
    (rxInv, c.direction.setWidth 32), (txState, c.outputState.setWidth 32),
    (rxRaw1, c.otherSettings.setWidth 32), (pMode, c.padMode.setWidth 32)]

/-- The fields of the second dword. -/
def dw1Fields : List (PadField × BitVec 32) :=
  [(term, c.electricalConfig.setWidth 32), (padTol, c.electricalConfig.setWidth 32)]

/-- `Dw0RegMask` and `Dw0Reg`. -/
def dw0Write : MaskedWrite 32 := .merge (c.dw0Fields.map fun f ↦ f.1.write f.2)

/-- `Dw1RegMask` and `Dw1Reg`. -/
def dw1Write : MaskedWrite 32 := .merge (c.dw1Fields.map fun f ↦ f.1.write f.2)

/-- `HostSoftOwnRegMask` and `HostSoftOwnReg`. -/
def hostSoftOwnWrite (padNumber : ℕ) : MaskedWrite 32 where
  mask := (c.hostSoftPadOwn.setWidth 32 &&& 0x1) <<< padNumber
  value := (c.hostSoftPadOwn.setWidth 32 >>> 1) <<< padNumber

/-- `GpioIntSci`. -/
def gpioIntSci : BitVec 32 := 0x9

/-- `GpiGpeEnRegMask` and `GpiGpeEnReg`. -/
def gpiGpeEnWrite (padNumber : ℕ) : MaskedWrite 32 where
  mask := (c.interruptConfig.setWidth 32 &&& 0x1) <<< padNumber
  value := ((c.interruptConfig.setWidth 32 &&& gpioIntSci) >>> 3) <<< padNumber

/-- `GpioPadConfigLock`. -/
def gpioPadConfigLock : BitVec 3 := 0x3

/-- `GpioOutputStateLock`. -/
def gpioOutputStateLock : BitVec 3 := 0x5

/-- The configuration of the pad is to be locked. -/
def locks : Bool := c.lockConfig &&& gpioPadConfigLock = gpioPadConfigLock

/-- The output of the pad is to be locked. -/
def locksTx : Bool := c.lockConfig &&& gpioOutputStateLock = gpioOutputStateLock

end GpioConfig

/-! ### The platform -/

/-- `PCH_SERIES`. -/
inductive PchSeries
  | pchH
  | pchLp
  deriving DecidableEq

/-- What the functions read besides the registers. -/
structure GpioPlatform where
  /-- `DEBUG_CODE` is compiled and enabled. -/
  debugCode : Bool
  pchSeries : PchSeries
  /-- What `PadOwnVal` holds when the ownership could not be read. -/
  unread : BitVec 32

variable (P : GpioPlatform)

/-- `GpioIsCorrectPadForThisChipset`, where it is called. -/
def gpioIsCorrectPadForThisChipset (p : GpioPad) : Bool :=
  (P.pchSeries = .pchH ∧ p.chipsetId = 1) ∨ (P.pchSeries = .pchLp ∧ p.chipsetId = 2)

/-- `GpioPadOwnHost`. -/
def gpioPadOwnHost : BitVec 32 := 0

/-- `GpioGetPadOwnership`. -/
def gpioGetPadOwnership (p : GpioPad) (r : Registers) : BitVec 32 :=
  if gpioGetNumberOfGroups ≤ p.groupIndex ∨ p.info.padPerGroup ≤ p.padNumber then P.unread
  else padOwnership p r

/-- `GpioIsPadLocked`. -/
def gpioIsPadLocked (p : GpioPad) (r : Registers) : Bool :=
  ((r (p.reg .padConfigLock).address >>> p.padNumber) &&& 0x1) = 1

/-- The checks that `GpioGetPadConfig` and `GpioSetPadConfig` begin with. -/
def checkPad (p : GpioPad) (r : Registers) : EfiStatus :=
  if P.debugCode = true ∧ gpioIsCorrectPadForThisChipset P p = false then .unsupported
  else if P.debugCode = true ∧ gpioGetPadOwnership P p r ≠ gpioPadOwnHost then .unsupported
  else if p.group < gpioGetLowestGroup ∨ gpioGetHighestGroup < p.group then .invalidParameter
  else if p.info.padPerGroup ≤ p.padNumber then .invalidParameter
  else .success

/-! ### Writing -/

/-- `GpioLockPadsUsingSbi` for one pad, whose checks have been made before: the register gets the
value that the message carries. -/
def gpioLockPadUsingSbi (reg : GpioReg) (p : GpioPad) (r : Registers) : Registers :=
  if reg.offset p.info = noRegisterForProperty then r
  else
    let a : PcrAddress := ⟨p.info.community, reg.offset p.info + (p.padNumber >>> 5) * 0x4⟩
    Function.update r a (r a ||| (1#32 <<< (p.padNumber % 32)))

/-- The writes of `GpioSetPadConfig`. -/
def setPad (p : GpioPad) (c : GpioConfig) (r : Registers) : Registers :=
  let r := mmioAndThenOr32 (p.padCfg 0).address c.dw0Write r
  let r := mmioAndThenOr32 (p.padCfg 1).address c.dw1Write r
  let r := mmioAndThenOr32 (p.reg .hostOwnership).address (c.hostSoftOwnWrite p.padNumber) r
  let r := mmioAndThenOr32 (p.reg .gpeEnable).address (c.gpiGpeEnWrite p.padNumber) r
  let r := if c.locks then gpioLockPadUsingSbi .padConfigLock p r else r
  if c.locksTx then gpioLockPadUsingSbi .padLockOutput p r else r

/-- `GpioSetPadConfig`. -/
def gpioSetPadConfig (p : GpioPad) (c : GpioConfig) (r : Registers) : EfiStatus × Registers :=
  if (checkPad P p r).isError then (checkPad P p r, r)
  else if gpioIsPadLocked p r then (.writeProtected, r)
  else (.success, setPad p c r)

/-! ### Reading -/

/-- What `GpioGetPadConfig` puts into `GpioData`. -/
def readConfig (p : GpioPad) (r : Registers) : GpioConfig :=
  let dw0 := r (p.padCfg 0).address
  let dw1 := r (p.padCfg 1).address
  let bit (reg : GpioReg) : BitVec 32 := (r (p.reg reg).address >>> p.padNumber) &&& 0x1
  { powerConfig := (rstConf.read dw0).setWidth 4
    interruptConfig := (rxLvlEdg.read dw0).setWidth 8 ||| (rxRoute.read dw0).setWidth 8
    direction := (rxTxDis.read dw0).setWidth 5 ||| (rxInv.read dw0).setWidth 5
    outputState := (txState.readUp dw0).setWidth 2
    otherSettings := (rxRaw1.read dw0).setWidth 2
    padMode := (pMode.read dw0).setWidth 4
    electricalConfig := (term.read dw1).setWidth 7 ||| (padTol.read dw1).setWidth 7
    hostSoftPadOwn := ((bit .hostOwnership <<< 1) ||| 0x1).setWidth 2
    lockConfig := ((bit .padConfigLock <<< 1) ||| 0x1).setWidth 3 |||
      ((bit .padLockOutput <<< 2) ||| 0x1).setWidth 3 }

/-- `GpioGetPadConfig`. -/
def gpioGetPadConfig (p : GpioPad) (r : Registers) : Except EfiStatus GpioConfig :=
  if (checkPad P p r).isError then .error (checkPad P p r) else .ok (readConfig p r)

/-! ### A pad on its own -/

namespace PadState

variable (s : PadState)

/-- The pad after it is configured. -/
def configure (c : GpioConfig) : PadState where
  dw0 := c.dw0Write.apply s.dw0
  dw1 := c.dw1Write.apply s.dw1
  hostOwn := (s.hostOwn && !c.hostSoftPadOwn.getLsbD 0) || c.hostSoftPadOwn.getLsbD 1
  gpeEn := (s.gpeEn && !c.interruptConfig.getLsbD 0) || c.interruptConfig.getLsbD 3
  lock := s.lock || c.locks
  lockTx := s.lockTx || c.locksTx
  owner := s.owner

/-- What is read of the pad. -/
def config : GpioConfig where
  powerConfig := (rstConf.read s.dw0).setWidth 4
  interruptConfig := (rxLvlEdg.read s.dw0).setWidth 8 ||| (rxRoute.read s.dw0).setWidth 8
  direction := (rxTxDis.read s.dw0).setWidth 5 ||| (rxInv.read s.dw0).setWidth 5
  outputState := (txState.readUp s.dw0).setWidth 2
  otherSettings := (rxRaw1.read s.dw0).setWidth 2
  padMode := (pMode.read s.dw0).setWidth 4
  electricalConfig := (term.read s.dw1).setWidth 7 ||| (padTol.read s.dw1).setWidth 7
  hostSoftPadOwn := if s.hostOwn then 3 else 1
  lockConfig := (if s.lock then 3 else 1) ||| (if s.lockTx then 5 else 1)

end PadState

variable {P} {p q : GpioPad} {r : Registers} {c : GpioConfig}

theorem ushiftRight_and_one (v : BitVec 32) (n : ℕ) :
    (v >>> n) &&& 0x1 = if v.getLsbD n then 1 else 0 := by
  refine BitVec.eq_of_getLsbD_eq fun i hi ↦ ?_
  rw [BitVec.getLsbD_and, BitVec.getLsbD_ushiftRight]
  rcases Nat.eq_zero_or_pos i with rfl | hpos
  · cases v.getLsbD n <;> simp
  · have hone : (1#32).getLsbD i = false := by
      rw [BitVec.getLsbD_one]
      simp [Nat.ne_of_gt hpos]
    split <;> simp [hone]

theorem gpioIsPadLocked_eq (p : GpioPad) (r : Registers) :
    gpioIsPadLocked p r = (padState r p).lock := by
  have hbit : ∀ b : Bool, decide ((if b then 1#32 else 0#32) = 1) = b := by decide
  rw [gpioIsPadLocked, ushiftRight_and_one]
  exact hbit _

/-- **What is read of a pad.** -/
theorem readConfig_eq (p : GpioPad) (r : Registers) : readConfig p r = (padState r p).config := by
  have hown : ∀ b : Bool, (((if b then 1#32 else 0#32) <<< 1) ||| 0x1).setWidth 2 =
      if b then 3#2 else 1#2 := by decide
  have hlock : ∀ b : Bool, (((if b then 1#32 else 0#32) <<< 1) ||| 0x1).setWidth 3 =
      if b then 3#3 else 1#3 := by decide
  have hlockTx : ∀ b : Bool, (((if b then 1#32 else 0#32) <<< 2) ||| 0x1).setWidth 3 =
      if b then 5#3 else 1#3 := by decide
  rw [readConfig]
  simp only [ushiftRight_and_one]
  rw [PadState.config]
  congr 1
  · exact hown _
  · exact congrArg₂ (· ||| ·) (hlock _) (hlockTx _)

/-! ### The bits in the registers of a group -/

theorem getLsbD_shifted_bit {v : BitVec 32} {n i : ℕ} (hi : i < 32)
    (hv : ∀ j < 32, 0 < j → v.getLsbD j = false) :
    (v <<< n).getLsbD i = (decide (i = n) && v.getLsbD 0) := by
  rw [BitVec.getLsbD_shiftLeft]
  rcases Nat.lt_trichotomy i n with hlt | rfl | hgt
  · simp [hlt, Nat.ne_of_lt hlt]
  · simp [hi]
  · rw [hv (i - n) (by omega) (by omega)]
    simp [Nat.ne_of_gt hgt]

/-- What is written to the ownership of the pads of a group. -/
theorem getLsbD_hostSoftOwnWrite (c : GpioConfig) {n i : ℕ} (hi : i < 32) :
    (c.hostSoftOwnWrite n).mask.getLsbD i = (decide (i = n) && c.hostSoftPadOwn.getLsbD 0) ∧
      (c.hostSoftOwnWrite n).value.getLsbD i = (decide (i = n) && c.hostSoftPadOwn.getLsbD 1) := by
  have hmask : ∀ h : BitVec 2, (∀ j < 32, 0 < j → (h.setWidth 32 &&& 0x1).getLsbD j = false) ∧
      (h.setWidth 32 &&& 0x1).getLsbD 0 = h.getLsbD 0 := by decide
  have hvalue : ∀ h : BitVec 2, (∀ j < 32, 0 < j → (h.setWidth 32 >>> 1).getLsbD j = false) ∧
      (h.setWidth 32 >>> 1).getLsbD 0 = h.getLsbD 1 := by decide
  rw [GpioConfig.hostSoftOwnWrite]
  dsimp only
  rw [getLsbD_shifted_bit hi (hmask _).1, getLsbD_shifted_bit hi (hvalue _).1, (hmask _).2,
    (hvalue _).2]
  exact ⟨rfl, rfl⟩

theorem applyBit_hostSoftOwnWrite (c : GpioConfig) {n i : ℕ} (hi : i < 32) (b : Bool) :
    (c.hostSoftOwnWrite n).applyBit i b =
      if i = n then (b && !c.hostSoftPadOwn.getLsbD 0) || c.hostSoftPadOwn.getLsbD 1 else b := by
  obtain ⟨hmask, hvalue⟩ := getLsbD_hostSoftOwnWrite (n := n) c hi
  rw [MaskedWrite.applyBit, hmask, hvalue]
  split <;> simp [*]

/-- What is written to the GPE enables of a group. -/
theorem getLsbD_gpiGpeEnWrite (c : GpioConfig) {n i : ℕ} (hi : i < 32) :
    (c.gpiGpeEnWrite n).mask.getLsbD i = (decide (i = n) && c.interruptConfig.getLsbD 0) ∧
      (c.gpiGpeEnWrite n).value.getLsbD i = (decide (i = n) && c.interruptConfig.getLsbD 3) := by
  have hone : ∀ j < 32, 0 < j → (0x1 : BitVec 32).getLsbD j = false := by decide
  have hsci : ∀ j < 32, 0 < j → GpioConfig.gpioIntSci.getLsbD (3 + j) = false := by decide
  have hmask : ∀ j < 32, 0 < j →
      (c.interruptConfig.setWidth 32 &&& 0x1).getLsbD j = false := by
    intro j hj hpos
    rw [BitVec.getLsbD_and, hone j hj hpos, Bool.and_false]
  have hvalue : ∀ j < 32, 0 < j →
      ((c.interruptConfig.setWidth 32 &&& GpioConfig.gpioIntSci) >>> 3).getLsbD j = false := by
    intro j hj hpos
    rw [BitVec.getLsbD_ushiftRight, BitVec.getLsbD_and, hsci j hj hpos, Bool.and_false]
  have hmask₀ : (c.interruptConfig.setWidth 32 &&& 0x1).getLsbD 0 = c.interruptConfig.getLsbD 0 := by
    simp
  have hvalue₀ : ((c.interruptConfig.setWidth 32 &&& GpioConfig.gpioIntSci) >>> 3).getLsbD 0 =
      c.interruptConfig.getLsbD 3 := by
    simp [GpioConfig.gpioIntSci]
  rw [GpioConfig.gpiGpeEnWrite]
  dsimp only
  rw [getLsbD_shifted_bit hi hmask, getLsbD_shifted_bit hi hvalue, hmask₀, hvalue₀]
  exact ⟨rfl, rfl⟩

theorem applyBit_gpiGpeEnWrite (c : GpioConfig) {n i : ℕ} (hi : i < 32) (b : Bool) :
    (c.gpiGpeEnWrite n).applyBit i b =
      if i = n then (b && !c.interruptConfig.getLsbD 0) || c.interruptConfig.getLsbD 3 else b := by
  obtain ⟨hmask, hvalue⟩ := getLsbD_gpiGpeEnWrite (n := n) c hi
  rw [MaskedWrite.applyBit, hmask, hvalue]
  split <;> simp [*]

/-! ### One pad among the others -/

theorem ValidPad.padCfg_eq_iff (hp : ValidPad p) (hq : ValidPad q) {dw dw' : ℕ} :
    q.padCfg dw' = p.padCfg dw ↔ q = p ∧ dw' = dw := by
  constructor
  · intro h
    injection h with hgroup hnumber hdw
    exact ⟨hq.ext hp hgroup hnumber, hdw⟩
  · rintro ⟨rfl, rfl⟩
    rfl

theorem padCfg_ne_padOwn (p : GpioPad) (dw g dw' : ℕ) : p.padCfg dw ≠ .padOwn g dw' :=
  fun h ↦ RegKey.noConfusion h

theorem padState_dw0 (hp : ValidPad p) (hq : ValidPad q) (m : MaskedWrite 32) (r : Registers) :
    padState (mmioAndThenOr32 (p.padCfg 0).address m r) q =
      if q = p then { padState r q with dw0 := m.apply (padState r q).dw0 } else padState r q := by
  rw [padState_mmioAndThenOr32 (hp.padCfg_exists (by decide)) (padCfg_ne_padOwn p 0) hq]
  simp only [hp.padCfg_eq_iff hq]
  by_cases h : q = p <;> simp [h, GpioPad.reg, GpioPad.padCfg]

theorem padState_dw1 (hp : ValidPad p) (hq : ValidPad q) (m : MaskedWrite 32) (r : Registers) :
    padState (mmioAndThenOr32 (p.padCfg 1).address m r) q =
      if q = p then { padState r q with dw1 := m.apply (padState r q).dw1 } else padState r q := by
  rw [padState_mmioAndThenOr32 (hp.padCfg_exists (by decide)) (padCfg_ne_padOwn p 1) hq]
  simp only [hp.padCfg_eq_iff hq]
  by_cases h : q = p <;> simp [h, GpioPad.reg, GpioPad.padCfg]

/-- The ownership of the pads of a group is written. -/
theorem padState_hostOwnership {g : ℕ} (hg : g < gpioGetNumberOfGroups) (hq : ValidPad q)
    (m : MaskedWrite 32) (r : Registers) :
    padState (mmioAndThenOr32 (RegKey.perGroup .hostOwnership g).address m r) q =
      { padState r q with
        hostOwn := if q.groupIndex = g then m.applyBit q.padNumber (padState r q).hostOwn
          else (padState r q).hostOwn } := by
  rw [padState_mmioAndThenOr32 (k := .perGroup .hostOwnership g) hg
    (fun _ _ h ↦ RegKey.noConfusion h) hq]
  simp [GpioPad.reg, GpioPad.padCfg]

/-- The GPE enables of a group are written. -/
theorem padState_gpeEnable {g : ℕ} (hg : g < gpioGetNumberOfGroups) (hq : ValidPad q)
    (m : MaskedWrite 32) (r : Registers) :
    padState (mmioAndThenOr32 (RegKey.perGroup .gpeEnable g).address m r) q =
      { padState r q with
        gpeEn := if q.groupIndex = g then m.applyBit q.padNumber (padState r q).gpeEn
          else (padState r q).gpeEn } := by
  rw [padState_mmioAndThenOr32 (k := .perGroup .gpeEnable g) hg
    (fun _ _ h ↦ RegKey.noConfusion h) hq]
  simp [GpioPad.reg, GpioPad.padCfg]

/-- The message for a lock sets the pad's bit. -/
theorem gpioLockPadUsingSbi_eq (hp : ValidPad p) {reg : GpioReg}
    (hreg : reg = .padConfigLock ∨ reg = .padLockOutput) (r : Registers) :
    gpioLockPadUsingSbi reg p r =
      mmioAndThenOr32 (p.reg reg).address ⟨0, 1#32 <<< p.padNumber⟩ r := by
  have hlt := hp.padNumber_lt
  have hlaid := laidOut hp.group_eq.2
  have hexists : reg.offset p.info ≠ noRegisterForProperty := by
    have hslot := hlaid.slot_lt
    have hlock := hlaid.padCfgLock
    have hlockTx := hlaid.padCfgLockTx
    unfold noRegisterForProperty
    rcases hreg with rfl | rfl
    · simp only [GpioReg.offset, GpioPad.info]
      omega
    · simp only [GpioReg.offset, GpioPad.info]
      omega
  have hdw : p.padNumber >>> 5 = 0 := by
    rw [Nat.shiftRight_eq_div_pow]
    omega
  have hbit : p.padNumber % 32 = p.padNumber := Nat.mod_eq_of_lt (by omega)
  have happly : ∀ v x : BitVec 32, MaskedWrite.apply ⟨0, x⟩ v = v ||| x := by
    intro v x
    have hones : ~~~(0 : BitVec 32) = BitVec.allOnes 32 := by decide
    rw [MaskedWrite.apply, hones, BitVec.and_allOnes]
  rw [gpioLockPadUsingSbi, if_neg hexists, hdw, hbit, mmioAndThenOr32, happly]
  rfl

/-- The bit that locks a pad. -/
theorem applyBit_lock {n i : ℕ} (hi : i < 32) (b : Bool) :
    MaskedWrite.applyBit ⟨0, 1#32 <<< n⟩ i b = (b || decide (i = n)) := by
  have hone : ∀ j < 32, 0 < j → (1#32).getLsbD j = false := by decide
  rw [MaskedWrite.applyBit, getLsbD_shifted_bit hi hone]
  simp

/-- The pad's bit among those of its group. -/
theorem ValidPad.bit_eq (hp : ValidPad p) (hq : ValidPad q) (b : Bool) :
    (if q.groupIndex = p.groupIndex then b || decide (q.padNumber = p.padNumber) else b) =
      (b || decide (q = p)) := by
  by_cases h : q = p
  · subst h
    simp
  · rw [decide_eq_false h]
    split
    · rename_i hgroup
      rw [decide_eq_false fun hnumber ↦ h (hq.ext hp hgroup hnumber)]
    · rw [Bool.or_false]

theorem padState_lock (hp : ValidPad p) (hq : ValidPad q) (r : Registers) :
    padState (gpioLockPadUsingSbi .padConfigLock p r) q =
      { padState r q with lock := (padState r q).lock || decide (q = p) } := by
  have hlt : q.padNumber < 32 := Nat.lt_trans hq.padNumber_lt (by decide)
  rw [gpioLockPadUsingSbi_eq hp (.inl rfl),
    padState_mmioAndThenOr32 (hp.reg_exists _) (fun _ _ h ↦ RegKey.noConfusion h) hq,
    applyBit_lock hlt, applyBit_lock hlt, applyBit_lock hlt, applyBit_lock hlt, ← hp.bit_eq hq]
  simp [GpioPad.reg, GpioPad.padCfg]

theorem padState_lockTx (hp : ValidPad p) (hq : ValidPad q) (r : Registers) :
    padState (gpioLockPadUsingSbi .padLockOutput p r) q =
      { padState r q with lockTx := (padState r q).lockTx || decide (q = p) } := by
  have hlt : q.padNumber < 32 := Nat.lt_trans hq.padNumber_lt (by decide)
  rw [gpioLockPadUsingSbi_eq hp (.inr rfl),
    padState_mmioAndThenOr32 (hp.reg_exists _) (fun _ _ h ↦ RegKey.noConfusion h) hq,
    applyBit_lock hlt, applyBit_lock hlt, applyBit_lock hlt, applyBit_lock hlt, ← hp.bit_eq hq]
  simp [GpioPad.reg, GpioPad.padCfg]

/-- **A pad does not see another.** -/
theorem padState_setPad (hp : ValidPad p) (hq : ValidPad q) (c : GpioConfig) (r : Registers) :
    padState (setPad p c r) q = if q = p then (padState r q).configure c else padState r q := by
  have hlt : q.padNumber < 32 := Nat.lt_trans hq.padNumber_lt (by decide)
  have hlock : ∀ r, padState (if c.locks then gpioLockPadUsingSbi .padConfigLock p r else r) q =
      { padState r q with lock := (padState r q).lock || (decide (q = p) && c.locks) } := by
    intro r
    split <;> simp [padState_lock hp hq, *]
  have hlockTx : ∀ r, padState (if c.locksTx then gpioLockPadUsingSbi .padLockOutput p r else r) q =
      { padState r q with lockTx := (padState r q).lockTx || (decide (q = p) && c.locksTx) } := by
    intro r
    split <;> simp [padState_lockTx hp hq, *]
  rw [setPad, hlockTx, hlock, GpioPad.reg, padState_gpeEnable hp.group_eq.2 hq, GpioPad.reg,
    padState_hostOwnership hp.group_eq.2 hq, padState_dw1 hp hq, padState_dw0 hp hq,
    applyBit_gpiGpeEnWrite c hlt, applyBit_hostSoftOwnWrite c hlt]
  by_cases h : q = p
  · subst h
    simp [PadState.configure]
  · have hother : ∀ b b' : Bool, (if q.groupIndex = p.groupIndex then
        if q.padNumber = p.padNumber then b else b' else b') = b' := by
      intro b b'
      split
      · rename_i hgroup
        exact if_neg fun hnumber ↦ h (hq.ext hp hgroup hnumber)
      · rfl
    simp [h, hother]

end PurleyFirmware.Gpio
