import PurleyFirmware.Gpio.RoundTrip

/-!
# Configuring pads from a table

`GpioConfigureSklPch` writes the configuration dwords of a pad when it comes to an entry for it. The
ownership and the GPE enable of the pad are bits in registers of its group: what the entries ask for
is ORed into a mask and a value for each group, and written once, at the end. `GpioSetPadConfig`
writes everything at once.

A pad that occurs once is configured alike. When it occurs again, the dwords are what the last entry
made of them, but a bit of a group's register that one entry sets and a later one clears stays set.
-/

namespace PurleyFirmware.Gpio

/-! ### The function -/

/-- `GPIO_INIT_CONFIG`. -/
structure GpioInitConfig where
  gpioPad : GpioPad
  gpioConfig : GpioConfig
  deriving DecidableEq

/-- `V_PCH_GPIO_GROUP_MAX`. -/
def gpioGroupMax : ℕ := 13

/-- `GPIO_SKL_H_GPP_B2`, `GPIO_SKL_H_GPD7` and `GPIO_SKL_H_GPD9`. -/
def gpioModePads : List GpioPad := [0x01010002, 0x010C0007, 0x010C0009]

/-- `GpioPadModeGpio`. -/
def gpioPadModeGpio : BitVec 4 := 0x1

/-- `GpioPadModeNative1`. -/
def gpioPadModeNative1 : BitVec 4 := 0x3

/-- `GpioResetPwrGood`. -/
def gpioResetPwrGood : BitVec 32 := 0x1

/-- `mPchHSataDevSlpPinToGpioMap`. -/
def mPchHSataDevSlpPinToGpioMap : List (GpioPad × BitVec 4) :=
  [(0x01040004, gpioPadModeNative1), (0x01040005, gpioPadModeNative1),
    (0x01040006, gpioPadModeNative1), (0x01050005, gpioPadModeNative1),
    (0x01050006, gpioPadModeNative1), (0x01050007, gpioPadModeNative1),
    (0x01050008, gpioPadModeNative1), (0x01050009, gpioPadModeNative1)]

/-- `GpioIsPadASataDevSlpPin`. -/
def gpioIsPadASataDevSlpPin (p : GpioPad) (padMode : BitVec 4) (r : Registers) : Bool :=
  (p, padMode) ∈ mPchHSataDevSlpPinToGpioMap ∧ padOwnership p r = gpioPadOwnHost

/-- What is kept on the way through the table. -/
structure BatchState where
  regs : Registers
  /-- `HostSoftOwnRegMask` and `HostSoftOwnReg`, by group. -/
  hostSoftOwn : ℕ → MaskedWrite 32
  /-- `GpiGpeEnRegMask` and `GpiGpeEnReg`, by group. -/
  gpiGpeEn : ℕ → MaskedWrite 32

namespace GpioInitConfig

variable (e : GpioInitConfig)

/-- What is written for the pad mode. -/
def padModeWrite : MaskedWrite 32 :=
  if e.gpioPad ∈ gpioModePads ∧ e.gpioConfig.padMode ≠ gpioPadModeGpio then
    ⟨pMode.regMask, (gpioPadModeGpio.setWidth 32 >>> (pMode.confPos + 1)) <<< pMode.regPos⟩
  else pMode.write (e.gpioConfig.padMode.setWidth 32)

/-- `GpioHandleSataDevSlpPad`. -/
def sataDevSlpWrites (r : Registers) : List (MaskedWrite 32) :=
  if gpioIsPadASataDevSlpPin e.gpioPad e.gpioConfig.padMode r then
    [⟨rstConf.regMask, (gpioResetPwrGood >>> 1) <<< rstConf.regPos⟩]
  else []

/-- `Dw0RegMask` and `Dw0Reg`: all fields but the pad mode are as for `GpioSetPadConfig`. -/
def dw0Write (r : Registers) : MaskedWrite 32 :=
  .merge ((e.gpioConfig.dw0Fields.dropLast.map fun f ↦ f.1.write f.2) ++
    e.padModeWrite :: e.sataDevSlpWrites r)

/-- What the entry asks for the ownership register of its group. -/
def hostSoftOwnWrite : MaskedWrite 32 := e.gpioConfig.hostSoftOwnWrite e.gpioPad.padNumber

/-- What the entry asks for the GPE enables of its group. -/
def gpiGpeEnWrite : MaskedWrite 32 := e.gpioConfig.gpiGpeEnWrite e.gpioPad.padNumber

/-- What is done for an entry that passes the checks. -/
def configure (s : BatchState) : BatchState where
  regs := mmioAndThenOr32 (e.gpioPad.padCfg 1).address e.gpioConfig.dw1Write
    (mmioAndThenOr32 (e.gpioPad.padCfg 0).address (e.dw0Write s.regs) s.regs)
  hostSoftOwn := Function.update s.hostSoftOwn e.gpioPad.groupIndex
    ((s.hostSoftOwn e.gpioPad.groupIndex).or e.hostSoftOwnWrite)
  gpiGpeEn := Function.update s.gpiGpeEn e.gpioPad.groupIndex
    ((s.gpiGpeEn e.gpioPad.groupIndex).or e.gpiGpeEnWrite)

end GpioInitConfig

variable (P : GpioPlatform)

/-- The body of the loop; an error has the registers with which the function returns. -/
def configureItem (s : BatchState) (e : GpioInitConfig) :
    Except (EfiStatus × Registers) BatchState :=
  let p := e.gpioPad
  if gpioGroupMax ≤ p.groupIndex then .ok s
  else if P.debugCode = true ∧ gpioIsCorrectPadForThisChipset P p = false then
    .error (.unsupported, s.regs)
  else if p.group < gpioGetLowestGroup ∨
      BitVec.ofNat 32 gpioGetNumberOfGroups + gpioGetLowestGroup ≤ p.group then
    .error (.invalidParameter, s.regs)
  else if p.info.padPerGroup ≤ p.padNumber then .error (.invalidParameter, s.regs)
  else if gpioIsPadLocked p s.regs then .ok s
  else if P.debugCode = true ∧ padOwnership p s.regs ≠ gpioPadOwnHost then .ok s
  else .ok (e.configure s)

/-- The registers of a group are written. -/
def writeGroup (s : BatchState) (r : Registers) (g : ℕ) : Registers :=
  let r := if (gpioGroupInfo g).hostOwnOffset ≠ noRegisterForProperty then
    mmioAndThenOr32 (RegKey.perGroup .hostOwnership g).address (s.hostSoftOwn g) r else r
  if (gpioGroupInfo g).gpiGpeEnOffset ≠ noRegisterForProperty then
    mmioAndThenOr32 (RegKey.perGroup .gpeEnable g).address (s.gpiGpeEn g) r else r

/-- `GpioConfigureSklPch`. -/
def gpioConfigureSklPch (table : List GpioInitConfig) (r : Registers) : EfiStatus × Registers :=
  match table.foldlM (configureItem P) ⟨r, fun _ ↦ ⟨0, 0⟩, fun _ ↦ ⟨0, 0⟩⟩ with
  | .error out => out
  | .ok s => (.success, (List.range gpioGetNumberOfGroups).foldl (writeGroup s) s.regs)

/-- `GpioSetPadConfig`, called on the entries in order. -/
def gpioSetPadConfigs (table : List GpioInitConfig) (r : Registers) : Registers :=
  table.foldl (fun r e ↦ (gpioSetPadConfig P e.gpioPad e.gpioConfig r).2) r

/-! ### What is given to a pad -/

/-- What a configuration gives the ownership on the host. -/
def GpioConfig.ownGiven (c : GpioConfig) : Option Bool :=
  if c.hostSoftPadOwn.getLsbD 0 then some (c.hostSoftPadOwn.getLsbD 1) else none

/-- What a configuration gives the GPE enable. -/
def GpioConfig.gpeGiven (c : GpioConfig) : Option Bool :=
  if c.interruptConfig.getLsbD 0 then some (c.interruptConfig.getLsbD 3) else none

/-- The configurations that a table has for a pad, in order. -/
def configsOf (table : List GpioInitConfig) (p : GpioPad) : List GpioConfig :=
  (table.filter fun e ↦ e.gpioPad = p).map (·.gpioConfig)

/-- The configurations up to the first that locks the pad. -/
def untilLocked : List GpioConfig → List GpioConfig
  | [] => []
  | c :: cs => c :: if c.locks then [] else untilLocked cs

/-- An entry that the table may have. -/
structure GpioInitConfig.Plain (P : GpioPlatform) (r : Registers) (e : GpioInitConfig) : Prop where
  configurable : Configurable P r e.gpioPad
  enumValues : e.gpioConfig.EnumValues
  /-- The pad is not forced to GPIO mode. -/
  notForced : e.gpioPad ∈ gpioModePads → e.gpioConfig.padMode = gpioPadModeGpio
  notDevSlp : (e.gpioPad, e.gpioConfig.padMode) ∉ mPchHSataDevSlpPinToGpioMap

/-- The pad after the batch. -/
def PadState.batch (s : PadState) (cs : List GpioConfig) : PadState :=
  { s with
    dw0 := cs.foldl (fun v c ↦ c.dw0Write.apply v) s.dw0
    dw1 := cs.foldl (fun v c ↦ c.dw1Write.apply v) s.dw1
    hostOwn := (anyGiven (cs.map (·.ownGiven))).getD s.hostOwn
    gpeEn := (anyGiven (cs.map (·.gpeGiven))).getD s.gpeEn }

variable {P} {table done : List GpioInitConfig} {e : GpioInitConfig} {c : GpioConfig}
  {cs : List GpioConfig} {r : Registers} {s : BatchState} {p q : GpioPad}

theorem configsOf_append (done : List GpioInitConfig) (e : GpioInitConfig) (q : GpioPad) :
    configsOf (done ++ [e]) q =
      if e.gpioPad = q then configsOf done q ++ [e.gpioConfig] else configsOf done q := by
  rw [configsOf, configsOf, List.filter_append, List.map_append]
  split
  · rename_i h
    simp [h]
  · rename_i h
    simp [h]

/-! ### Entry by entry -/

theorem gpioSetPadConfig_snd (hvalid : ValidPad p)
    (hchipset : P.debugCode = true → gpioIsCorrectPadForThisChipset P p = true)
    (howner : (padState r p).owner = gpioPadOwnHost) (c : GpioConfig) :
    (gpioSetPadConfig P p c r).2 = if (padState r p).lock then r else setPad p c r := by
  split
  · rename_i hlock
    rw [gpioSetPadConfig, gpioIsPadLocked_eq, hlock]
    split <;> rfl
  · rename_i hlock
    have h : Configurable P r p := ⟨hvalid, hchipset, by simpa using hlock, howner⟩
    rw [h.gpioSetPadConfig_eq]

/-- **Entries in order configure a pad** until it is locked. -/
theorem padState_gpioSetPadConfigs (hq : ValidPad q) (r : Registers)
    (hvalid : ∀ e ∈ table, ValidPad e.gpioPad)
    (hchipset : ∀ e ∈ table, P.debugCode = true →
      gpioIsCorrectPadForThisChipset P e.gpioPad = true)
    (howner : ∀ e ∈ table, (padState r e.gpioPad).owner = gpioPadOwnHost) :
    padState (gpioSetPadConfigs P table r) q =
      if (padState r q).lock then padState r q
      else (untilLocked (configsOf table q)).foldl PadState.configure (padState r q) := by
  induction table generalizing r with
  | nil => exact (ite_self _).symm
  | cons e table ih =>
    have hp := hvalid e List.mem_cons_self
    have hstep := gpioSetPadConfig_snd hp (hchipset e List.mem_cons_self)
      (howner e List.mem_cons_self) e.gpioConfig
    have hpad : ∀ {q}, ValidPad q → padState (gpioSetPadConfig P e.gpioPad e.gpioConfig r).2 q =
        if q = e.gpioPad ∧ (padState r q).lock = false then (padState r q).configure e.gpioConfig
        else padState r q := by
      intro q hq
      rw [hstep]
      split
      · rename_i hlock
        rw [if_neg]
        rintro ⟨rfl, hunlocked⟩
        rw [hlock] at hunlocked
        cases hunlocked
      · rename_i hlock
        rw [padState_setPad hp hq]
        by_cases heq : q = e.gpioPad
        · subst heq
          rw [if_pos rfl, if_pos ⟨rfl, by simpa using hlock⟩]
        · rw [if_neg heq, if_neg fun h ↦ heq h.1]
    have hconfigs : configsOf (e :: table) q =
        if e.gpioPad = q then e.gpioConfig :: configsOf table q else configsOf table q := by
      rw [configsOf, List.filter_cons]
      split <;> simp_all [configsOf]
    rw [gpioSetPadConfigs, List.foldl_cons, ← gpioSetPadConfigs,
      ih _ (fun e he ↦ hvalid e (List.mem_cons_of_mem _ he))
        (fun e he ↦ hchipset e (List.mem_cons_of_mem _ he)), hconfigs]
    · have hstate := hpad hq
      by_cases heq : q = e.gpioPad
      · cases hlock : (padState r q).lock with
        | true =>
          rw [hlock, if_neg fun h ↦ Bool.noConfusion h.2] at hstate
          rw [hstate, hlock]
          rfl
        | false =>
          have hlocked : ((padState r q).configure e.gpioConfig).lock = e.gpioConfig.locks := by
            rw [PadState.configure, hlock, Bool.false_or]
          rw [hlock, if_pos ⟨heq, rfl⟩] at hstate
          rw [hstate, hlocked, if_pos heq.symm, untilLocked]
          cases e.gpioConfig.locks <;> rfl
      · rw [if_neg fun h ↦ heq h.1] at hstate
        have hne : ¬ e.gpioPad = q := fun h ↦ heq h.symm
        rw [hstate, if_neg hne]
    · intro e' he'
      rw [hpad (hvalid e' (List.mem_cons_of_mem _ he'))]
      split <;> exact howner e' (List.mem_cons_of_mem _ he')

/-! ### The batch -/

/-- How far the batch has come: the dwords are written, what is asked of the groups is kept. -/
structure BatchOf (r : Registers) (done : List GpioInitConfig) (s : BatchState) : Prop where
  pads : ∀ q, ValidPad q → padState s.regs q =
    { padState r q with
      dw0 := (configsOf done q).foldl (fun v c ↦ c.dw0Write.apply v) (padState r q).dw0
      dw1 := (configsOf done q).foldl (fun v c ↦ c.dw1Write.apply v) (padState r q).dw1 }
  hostSoftOwn : ∀ g, s.hostSoftOwn g =
    .merge ((done.filter fun e ↦ e.gpioPad.groupIndex = g).map (·.hostSoftOwnWrite))
  gpiGpeEn : ∀ g, s.gpiGpeEn g =
    .merge ((done.filter fun e ↦ e.gpioPad.groupIndex = g).map (·.gpiGpeEnWrite))

theorem GpioInitConfig.Plain.dw0Write_eq (h : e.Plain P r) (r' : Registers) :
    e.dw0Write r' = e.gpioConfig.dw0Write := by
  have hmode : e.padModeWrite = pMode.write (e.gpioConfig.padMode.setWidth 32) :=
    if_neg fun hforced ↦ hforced.2 (h.notForced hforced.1)
  have hsata : e.sataDevSlpWrites r' = [] := by
    rw [GpioInitConfig.sataDevSlpWrites, gpioIsPadASataDevSlpPin,
      decide_eq_false fun hpin ↦ h.notDevSlp hpin.1]
    rfl
  rw [GpioInitConfig.dw0Write, hmode, hsata]
  rfl

/-- An entry that passes the checks. -/
theorem Configurable.configureItem_eq (h : Configurable P s.regs e.gpioPad) :
    configureItem P s e = .ok (e.configure s) := by
  have hgroup : ¬ (e.gpioPad.group < gpioGetLowestGroup ∨
      BitVec.ofNat 32 gpioGetNumberOfGroups + gpioGetLowestGroup ≤ e.gpioPad.group) := by
    have hbound : BitVec.ofNat 32 gpioGetNumberOfGroups + gpioGetLowestGroup =
        gpioGetHighestGroup + 1 := by decide
    have hlowest := h.valid.lowest
    have hhighest := h.valid.highest
    rw [hbound]
    unfold gpioGetHighestGroup at hhighest ⊢
    rw [BitVec.lt_def, BitVec.le_def] at *
    rintro (hlt | hge)
    · omega
    · have hnat : (0x010C + 1 : BitVec 32).toNat = 0x010D := by decide
      have hnat' : (0x010C : BitVec 32).toNat = 0x010C := by decide
      omega
  have hmax : ¬ gpioGroupMax ≤ e.gpioPad.groupIndex := Nat.not_le.2 h.valid.group_eq.2
  have hnumber : ¬ e.gpioPad.info.padPerGroup ≤ e.gpioPad.padNumber :=
    Nat.not_le.2 h.valid.padNumber
  rw [configureItem, if_neg hmax, if_neg, if_neg hgroup,
    if_neg hnumber, gpioIsPadLocked_eq, h.unlocked, if_neg (by decide),
    if_neg fun hne ↦ hne.2 h.hostOwned]
  rintro ⟨hdebug, hwrong⟩
  rw [h.chipset hdebug] at hwrong
  cases hwrong

theorem BatchOf.configure (hs : BatchOf r done s) (h : e.Plain P r) :
    BatchOf r (done ++ [e]) (e.configure s) := by
  have hp := h.configurable.valid
  constructor
  · intro q hq
    rw [GpioInitConfig.configure]
    dsimp only
    rw [padState_dw1 hp hq, padState_dw0 hp hq, h.dw0Write_eq, hs.pads q hq, configsOf_append]
    by_cases heq : q = e.gpioPad
    · subst heq
      simp
    · rw [if_neg heq, if_neg heq, if_neg fun h ↦ heq h.symm]
  · intro g
    rw [GpioInitConfig.configure, List.filter_append, List.map_append]
    by_cases hg : g = e.gpioPad.groupIndex
    · subst hg
      simp [hs.hostSoftOwn, MaskedWrite.merge_append]
    · simp [hs.hostSoftOwn, Function.update_of_ne hg, Ne.symm hg]
  · intro g
    rw [GpioInitConfig.configure, List.filter_append, List.map_append]
    by_cases hg : g = e.gpioPad.groupIndex
    · subst hg
      simp [hs.gpiGpeEn, MaskedWrite.merge_append]
    · simp [hs.gpiGpeEn, Function.update_of_ne hg, Ne.symm hg]

/-- **The loop goes through the whole table.** -/
theorem BatchOf.foldlM (hs : BatchOf r done s) (h : ∀ e ∈ table, e.Plain P r) :
    ∃ s', table.foldlM (configureItem P) s = .ok s' ∧ BatchOf r (done ++ table) s' := by
  induction table generalizing done s with
  | nil => exact ⟨s, rfl, by rwa [List.append_nil]⟩
  | cons e table ih =>
    have he := h e List.mem_cons_self
    have hconfigurable : Configurable P s.regs e.gpioPad := by
      have hpad := hs.pads e.gpioPad he.configurable.valid
      refine ⟨he.configurable.valid, he.configurable.chipset, ?_, ?_⟩
      · rw [hpad]
        exact he.configurable.unlocked
      · rw [hpad]
        exact he.configurable.hostOwned
    obtain ⟨s', hrun, hs'⟩ := ih (hs.configure he) fun e' he' ↦ h e' (List.mem_cons_of_mem _ he')
    refine ⟨s', ?_, by rwa [List.append_assoc] at hs'⟩
    rw [List.foldlM_cons, hconfigurable.configureItem_eq]
    exact hrun

/-! ### The registers of the groups -/

theorem padState_writeGroup {g : ℕ} (hg : g < gpioGetNumberOfGroups) (hq : ValidPad q)
    (s : BatchState) (r : Registers) :
    padState (writeGroup s r g) q =
      { padState r q with
        hostOwn := if q.groupIndex = g then
          (s.hostSoftOwn g).applyBit q.padNumber (padState r q).hostOwn else (padState r q).hostOwn
        gpeEn := if q.groupIndex = g then
          (s.gpiGpeEn g).applyBit q.padNumber (padState r q).gpeEn else (padState r q).gpeEn } := by
  have hslot := (laidOut hg).slot_lt
  have hown : (gpioGroupInfo g).hostOwnOffset ≠ noRegisterForProperty := by
    have hoffset := (laidOut hg).hostOwn
    unfold noRegisterForProperty
    omega
  have hgpe : (gpioGroupInfo g).gpiGpeEnOffset ≠ noRegisterForProperty := by
    have hoffset := (laidOut hg).gpiGpeEn
    unfold noRegisterForProperty
    omega
  rw [writeGroup, if_pos hown, if_pos hgpe, padState_gpeEnable hg hq, padState_hostOwnership hg hq]

/-- The registers of the first groups are written. -/
theorem padState_foldl_writeGroup (hq : ValidPad q) (s : BatchState) (r : Registers) {n : ℕ}
    (hn : n ≤ gpioGetNumberOfGroups) :
    padState ((List.range n).foldl (writeGroup s) r) q =
      { padState r q with
        hostOwn := if q.groupIndex < n then
          (s.hostSoftOwn q.groupIndex).applyBit q.padNumber (padState r q).hostOwn
          else (padState r q).hostOwn
        gpeEn := if q.groupIndex < n then
          (s.gpiGpeEn q.groupIndex).applyBit q.padNumber (padState r q).gpeEn
          else (padState r q).gpeEn } := by
  induction n with
  | zero => simp
  | succ n ih =>
    rw [List.range_succ, List.foldl_append, List.foldl_cons, List.foldl_nil,
      padState_writeGroup hn hq, ih (Nat.le_of_succ_le hn)]
    rcases Nat.lt_trichotomy q.groupIndex n with hlt | heq | hgt
    · simp [hlt, Nat.ne_of_lt hlt, Nat.lt_succ_of_lt hlt]
    · simp [heq]
    · simp [Nat.not_lt.2 (Nat.le_of_lt hgt), Nat.ne_of_gt hgt, Nat.not_lt.2 (Nat.succ_le_of_lt hgt)]

/-! ### What is asked of the groups -/

/-- A value that is not at its default is valid. -/
theorem GpioConfig.EnumValues.bits (h : c.EnumValues) :
    (c.hostSoftPadOwn.getLsbD 1 = true → c.hostSoftPadOwn.getLsbD 0 = true) ∧
      (c.interruptConfig.getLsbD 3 = true → c.interruptConfig.getLsbD 0 = true) := by
  have hown : ∀ x ∈ [0x0#2, 0x1, 0x3], x.getLsbD 1 = true → x.getLsbD 0 = true := by decide
  have hint : ∀ route ∈ [0x00#8, 0x01, 0x03, 0x05, 0x09, 0x11],
      ∀ trigger ∈ [0x00#8, 0x20, 0x60, 0xA0, 0xE0],
        (route ||| trigger).getLsbD 3 = true → (route ||| trigger).getLsbD 0 = true := by decide
  obtain ⟨route, hroute, trigger, htrigger, heq⟩ := h.interruptConfig
  exact ⟨hown _ h.hostSoftPadOwn, heq ▸ hint _ hroute _ htrigger⟩

theorem GpioConfig.EnumValues.own_eq (h : c.EnumValues) (b : Bool) :
    ((b && !c.hostSoftPadOwn.getLsbD 0) || c.hostSoftPadOwn.getLsbD 1) = c.ownGiven.getD b := by
  have hbits := h.bits.1
  rw [ownGiven]
  cases hmask : c.hostSoftPadOwn.getLsbD 0 <;> simp_all

theorem GpioConfig.EnumValues.gpe_eq (h : c.EnumValues) (b : Bool) :
    ((b && !c.interruptConfig.getLsbD 0) || c.interruptConfig.getLsbD 3) = c.gpeGiven.getD b := by
  have hbits := h.bits.2
  rw [gpeGiven]
  cases hmask : c.interruptConfig.getLsbD 0 <;> simp_all

/-- What the entries of a group ask for a pad is what its own entries ask. -/
theorem applyBit_merge_group (hq : ValidPad q) (hvalid : ∀ e ∈ table, ValidPad e.gpioPad)
    {write : GpioInitConfig → MaskedWrite 32} {given : GpioConfig → Option Bool}
    (hinside : ∀ e ∈ table, (write e).Inside)
    (hgiven : ∀ e ∈ table, (write e).given q.padNumber =
      if q.padNumber = e.gpioPad.padNumber then given e.gpioConfig else none) (b : Bool) :
    (MaskedWrite.merge ((table.filter fun e ↦ e.gpioPad.groupIndex = q.groupIndex).map
      write)).applyBit q.padNumber b = (anyGiven ((configsOf table q).map given)).getD b := by
  have hlt : q.padNumber < 32 := Nat.lt_trans hq.padNumber_lt (by decide)
  have hin : ∀ m ∈ (table.filter fun e ↦ e.gpioPad.groupIndex = q.groupIndex).map write,
      m.Inside := by
    intro m hm
    obtain ⟨e, he, rfl⟩ := List.mem_map.1 hm
    exact hinside e (List.mem_filter.1 he).1
  have hmap : ((table.filter fun e ↦ e.gpioPad.groupIndex = q.groupIndex).map write).map
      (MaskedWrite.given q.padNumber) =
      (table.filter fun e ↦ e.gpioPad.groupIndex = q.groupIndex).map fun e ↦
        if q.padNumber = e.gpioPad.padNumber then given e.gpioConfig else none := by
    rw [List.map_map]
    exact List.map_congr_left fun e he ↦ hgiven e (List.mem_filter.1 he).1
  have hfilter : (table.filter fun e ↦ e.gpioPad.groupIndex = q.groupIndex).filter
      (fun e ↦ q.padNumber = e.gpioPad.padNumber) = table.filter fun e ↦ e.gpioPad = q := by
    rw [List.filter_filter]
    refine List.filter_congr fun e he ↦ ?_
    rw [← Bool.decide_and, decide_eq_decide]
    constructor
    · rintro ⟨hnumber, hgroup⟩
      exact (hvalid e he).ext hq hgroup hnumber.symm
    · rintro rfl
      exact ⟨rfl, rfl⟩
  rw [MaskedWrite.applyBit_eq (MaskedWrite.Inside.merge hin) hlt,
    MaskedWrite.given_merge_eq_anyGiven hin hlt, hmap, anyGiven_map_ite, hfilter, configsOf,
    List.map_map]
  rfl

/-- **What the batch makes of a pad.** -/
theorem padState_gpioConfigureSklPch (hq : ValidPad q) (h : ∀ e ∈ table, e.Plain P r) :
    padState (gpioConfigureSklPch P table r).2 q = (padState r q).batch (configsOf table q) := by
  have hlt : q.padNumber < 32 := Nat.lt_trans hq.padNumber_lt (by decide)
  have hinit : BatchOf r [] ⟨r, fun _ ↦ ⟨0, 0⟩, fun _ ↦ ⟨0, 0⟩⟩ :=
    ⟨fun _ _ ↦ rfl, fun _ ↦ rfl, fun _ ↦ rfl⟩
  obtain ⟨s, hrun, hs⟩ := hinit.foldlM h
  rw [List.nil_append] at hs
  have hvalid : ∀ e ∈ table, ValidPad e.gpioPad := fun e he ↦ (h e he).configurable.valid
  have hown : ∀ b, (s.hostSoftOwn q.groupIndex).applyBit q.padNumber b =
      (anyGiven ((configsOf table q).map (·.ownGiven))).getD b := by
    rw [hs.hostSoftOwn]
    refine applyBit_merge_group hq hvalid (fun e he i hi hvalue ↦ ?_) fun e _ ↦ ?_
    · obtain ⟨hmask, hbit⟩ := getLsbD_hostSoftOwnWrite (n := e.gpioPad.padNumber) e.gpioConfig hi
      rw [GpioInitConfig.hostSoftOwnWrite, hbit, Bool.and_eq_true] at hvalue
      rw [GpioInitConfig.hostSoftOwnWrite, hmask, hvalue.1, (h e he).enumValues.bits.1 hvalue.2]
      rfl
    · obtain ⟨hmask, hbit⟩ := getLsbD_hostSoftOwnWrite (n := e.gpioPad.padNumber) e.gpioConfig hlt
      rw [MaskedWrite.given, GpioInitConfig.hostSoftOwnWrite, hmask, hbit, GpioConfig.ownGiven]
      split <;> simp_all
  have hgpe : ∀ b, (s.gpiGpeEn q.groupIndex).applyBit q.padNumber b =
      (anyGiven ((configsOf table q).map (·.gpeGiven))).getD b := by
    rw [hs.gpiGpeEn]
    refine applyBit_merge_group hq hvalid (fun e he i hi hvalue ↦ ?_) fun e _ ↦ ?_
    · obtain ⟨hmask, hbit⟩ := getLsbD_gpiGpeEnWrite (n := e.gpioPad.padNumber) e.gpioConfig hi
      rw [GpioInitConfig.gpiGpeEnWrite, hbit, Bool.and_eq_true] at hvalue
      rw [GpioInitConfig.gpiGpeEnWrite, hmask, hvalue.1, (h e he).enumValues.bits.2 hvalue.2]
      rfl
    · obtain ⟨hmask, hbit⟩ := getLsbD_gpiGpeEnWrite (n := e.gpioPad.padNumber) e.gpioConfig hlt
      rw [MaskedWrite.given, GpioInitConfig.gpiGpeEnWrite, hmask, hbit, GpioConfig.gpeGiven]
      split <;> simp_all
  rw [gpioConfigureSklPch, hrun]
  dsimp only
  rw [padState_foldl_writeGroup hq s s.regs (Nat.le_refl _), if_pos hq.group_eq.2,
    if_pos hq.group_eq.2, hown, hgpe, hs.pads q hq]
  rfl

/-! ### Alike -/

/-- **Entries in a row** leave each bit as the last of them gave it. -/
theorem foldl_configure (hcs : ∀ c ∈ cs, c.EnumValues) (s : PadState) :
    (cs.foldl PadState.configure s).dw0 = cs.foldl (fun v c ↦ c.dw0Write.apply v) s.dw0 ∧
      (cs.foldl PadState.configure s).dw1 = cs.foldl (fun v c ↦ c.dw1Write.apply v) s.dw1 ∧
      (cs.foldl PadState.configure s).hostOwn =
        (lastGiven (cs.map (·.ownGiven))).getD s.hostOwn ∧
      (cs.foldl PadState.configure s).gpeEn =
        (lastGiven (cs.map (·.gpeGiven))).getD s.gpeEn := by
  induction cs generalizing s with
  | nil => exact ⟨rfl, rfl, rfl, rfl⟩
  | cons c cs ih =>
    have hc := hcs c List.mem_cons_self
    obtain ⟨hdw0, hdw1, hown, hgpe⟩ :=
      ih (fun c hc ↦ hcs c (List.mem_cons_of_mem _ hc)) (s.configure c)
    refine ⟨hdw0, hdw1, ?_, ?_⟩
    · rw [List.foldl_cons, hown, PadState.configure, hc.own_eq, List.map_cons, lastGiven]
      cases lastGiven (cs.map (·.ownGiven)) <;> rfl
    · rw [List.foldl_cons, hgpe, PadState.configure, hc.gpe_eq, List.map_cons, lastGiven]
      cases lastGiven (cs.map (·.gpeGiven)) <;> rfl

theorem getLsbD_foldl_write {write : GpioConfig → MaskedWrite 32} (hinside : ∀ c, (write c).Inside)
    (cs : List GpioConfig) (v : BitVec 32) {i : ℕ} (hi : i < 32) :
    (cs.foldl (fun v c ↦ (write c).apply v) v).getLsbD i =
      (lastGiven (cs.map fun c ↦ (write c).given i)).getD (v.getLsbD i) := by
  have hms : ∀ m ∈ cs.map write, m.Inside := by
    intro m hm
    obtain ⟨c, -, rfl⟩ := List.mem_map.1 hm
    exact hinside c
  have hfold := MaskedWrite.getLsbD_foldl_apply hms v hi
  rwa [List.foldl_map, List.map_map] at hfold

theorem GpioConfig.dw0Write_inside (c : GpioConfig) : c.dw0Write.Inside := by
  refine MaskedWrite.Inside.merge fun m hm ↦ ?_
  obtain ⟨f, -, rfl⟩ := List.mem_map.1 hm
  exact f.1.write_inside f.2

theorem GpioConfig.dw1Write_inside (c : GpioConfig) : c.dw1Write.Inside := by
  refine MaskedWrite.Inside.merge fun m hm ↦ ?_
  obtain ⟨f, -, rfl⟩ := List.mem_map.1 hm
  exact f.1.write_inside f.2

/-- The batch leaves the registers of every pad as the entries in order would. -/
def ConfiguresAlike (P : GpioPlatform) (table : List GpioInitConfig) (r : Registers) : Prop :=
  ∀ q, ValidPad q →
    (padState (gpioConfigureSklPch P table r).2 q).dw0 =
      (padState (gpioSetPadConfigs P table r) q).dw0 ∧
    (padState (gpioConfigureSklPch P table r).2 q).dw1 =
      (padState (gpioSetPadConfigs P table r) q).dw1 ∧
    (padState (gpioConfigureSklPch P table r).2 q).hostOwn =
      (padState (gpioSetPadConfigs P table r) q).hostOwn ∧
    (padState (gpioConfigureSklPch P table r).2 q).gpeEn =
      (padState (gpioSetPadConfigs P table r) q).gpeEn

/-- What the configurations give a pad is what those up to the first lock give: for the dwords the
last value counts on both sides, for the ownership and the GPE enable a one counts on the left. -/
structure PadState.GivesAlike (s : PadState) (cs : List GpioConfig) : Prop where
  dw0 : ∀ i < 32, (lastGiven (cs.map fun c ↦ c.dw0Write.given i)).getD (s.dw0.getLsbD i) =
    (lastGiven ((untilLocked cs).map fun c ↦ c.dw0Write.given i)).getD (s.dw0.getLsbD i)
  dw1 : ∀ i < 32, (lastGiven (cs.map fun c ↦ c.dw1Write.given i)).getD (s.dw1.getLsbD i) =
    (lastGiven ((untilLocked cs).map fun c ↦ c.dw1Write.given i)).getD (s.dw1.getLsbD i)
  hostOwn : (anyGiven (cs.map (·.ownGiven))).getD s.hostOwn =
    (lastGiven ((untilLocked cs).map (·.ownGiven))).getD s.hostOwn
  gpeEn : (anyGiven (cs.map (·.gpeGiven))).getD s.gpeEn =
    (lastGiven ((untilLocked cs).map (·.gpeGiven))).getD s.gpeEn

theorem untilLocked_subset (cs : List GpioConfig) : untilLocked cs ⊆ cs := by
  induction cs with
  | nil => exact List.Subset.refl _
  | cons c cs ih =>
    rw [untilLocked]
    refine List.cons_subset_cons c ?_
    split
    · exact List.nil_subset cs
    · exact ih

theorem untilLocked_eq_self (h : ∀ c ∈ cs, c.locks = false) : untilLocked cs = cs := by
  induction cs with
  | nil => rfl
  | cons c cs ih =>
    rw [untilLocked, h c List.mem_cons_self, ih fun c hc ↦ h c (List.mem_cons_of_mem _ hc)]
    rfl

theorem anyGiven_getD_eq_iff {gs : List (Option Bool)} (b : Bool) :
    (anyGiven gs).getD b = (lastGiven gs).getD b ↔
      (some true ∈ gs → lastGiven gs = some true) := by
  rw [← anyGiven_eq_lastGiven_iff, anyGiven]
  cases hlast : lastGiven gs with
  | none =>
    rw [lastGiven_eq_none_iff] at hlast
    simp [hlast]
  | some v =>
    have hany : gs.any Option.isSome = true :=
      List.any_eq_true.2 ⟨_, mem_of_lastGiven hlast, rfl⟩
    simp [hany]

/-- **A pad that no entry locks**: where a one is given, the last that is given is a one. -/
theorem PadState.givesAlike_iff_of_not_locks (s : PadState) (h : ∀ c ∈ cs, c.locks = false) :
    s.GivesAlike cs ↔
      (some true ∈ cs.map (·.ownGiven) → lastGiven (cs.map (·.ownGiven)) = some true) ∧
      (some true ∈ cs.map (·.gpeGiven) → lastGiven (cs.map (·.gpeGiven)) = some true) := by
  have hself := untilLocked_eq_self h
  rw [← anyGiven_getD_eq_iff s.hostOwn, ← anyGiven_getD_eq_iff s.gpeEn]
  constructor
  · rintro ⟨-, -, hown, hgpe⟩
    rw [hself] at hown hgpe
    exact ⟨hown, hgpe⟩
  · rintro ⟨hown, hgpe⟩
    constructor <;> rw [hself]
    · exact fun _ _ ↦ rfl
    · exact fun _ _ ↦ rfl
    · exact hown
    · exact hgpe

/-- What the entries in order make of a pad that they may configure. -/
theorem padState_inOrder (hq : ValidPad q) (h : ∀ e ∈ table, e.Plain P r) :
    padState (gpioSetPadConfigs P table r) q =
      (untilLocked (configsOf table q)).foldl PadState.configure (padState r q) := by
  rw [padState_gpioSetPadConfigs hq r (fun e he ↦ (h e he).configurable.valid)
    (fun e he ↦ (h e he).configurable.chipset) fun e he ↦ (h e he).configurable.hostOwned]
  split
  · rename_i hlock
    have hnone : configsOf table q = [] := by
      rw [configsOf, List.map_eq_nil_iff, List.filter_eq_nil_iff]
      intro e he heq
      have hunlocked := (h e he).configurable.unlocked
      rw [of_decide_eq_true heq, hlock] at hunlocked
      cases hunlocked
    rw [hnone]
    rfl
  · rfl

/-- A pad is configured alike when its entries give alike. -/
theorem batch_eq_iff (hcs : ∀ c ∈ cs, c.EnumValues) (s : PadState) :
    ((s.batch cs).dw0 = ((untilLocked cs).foldl PadState.configure s).dw0 ∧
      (s.batch cs).dw1 = ((untilLocked cs).foldl PadState.configure s).dw1 ∧
      (s.batch cs).hostOwn = ((untilLocked cs).foldl PadState.configure s).hostOwn ∧
      (s.batch cs).gpeEn = ((untilLocked cs).foldl PadState.configure s).gpeEn) ↔
      s.GivesAlike cs := by
  obtain ⟨hdw0, hdw1, hown, hgpe⟩ :=
    foldl_configure (fun c hc ↦ hcs c (untilLocked_subset cs hc)) s
  have hbits : ∀ {write : GpioConfig → MaskedWrite 32} (_ : ∀ c, (write c).Inside) (v : BitVec 32),
      cs.foldl (fun v c ↦ (write c).apply v) v =
          (untilLocked cs).foldl (fun v c ↦ (write c).apply v) v ↔
        ∀ i < 32, (lastGiven (cs.map fun c ↦ (write c).given i)).getD (v.getLsbD i) =
          (lastGiven ((untilLocked cs).map fun c ↦ (write c).given i)).getD (v.getLsbD i) := by
    intro write hinside v
    constructor
    · intro heq i hi
      rw [← getLsbD_foldl_write hinside cs v hi, heq, getLsbD_foldl_write hinside _ v hi]
    · intro heq
      refine BitVec.eq_of_getLsbD_eq fun i hi ↦ ?_
      rw [getLsbD_foldl_write hinside cs v hi, heq i hi, getLsbD_foldl_write hinside _ v hi]
  rw [hdw0, hdw1, hown, hgpe]
  constructor
  · rintro ⟨h₀, h₁, hown, hgpe⟩
    exact ⟨(hbits GpioConfig.dw0Write_inside s.dw0).1 h₀,
      (hbits GpioConfig.dw1Write_inside s.dw1).1 h₁, hown, hgpe⟩
  · rintro ⟨h₀, h₁, hown, hgpe⟩
    exact ⟨(hbits GpioConfig.dw0Write_inside s.dw0).2 h₀,
      (hbits GpioConfig.dw1Write_inside s.dw1).2 h₁, hown, hgpe⟩

/-- **The batch configures as the entries in order would** exactly if they give every pad alike. -/
theorem gpioConfigureSklPch_configuresAlike_iff (P : GpioPlatform) (table : List GpioInitConfig)
    (r : Registers) (h : ∀ e ∈ table, e.Plain P r) :
    ConfiguresAlike P table r ↔
      ∀ q, ValidPad q → (padState r q).GivesAlike (configsOf table q) := by
  have hcs : ∀ q, ∀ c ∈ configsOf table q, c.EnumValues := by
    intro q c hc
    obtain ⟨e, he, rfl⟩ := List.mem_map.1 hc
    exact (h e (List.mem_filter.1 he).1).enumValues
  refine forall₂_congr fun q hq ↦ ?_
  rw [padState_gpioConfigureSklPch hq h, padState_inOrder hq h]
  exact batch_eq_iff (hcs q) (padState r q)

/-- GPIO mode, with the ownership on the host that is asked for. -/
def gpioModeConfig (own : BitVec 2) : GpioConfig := ⟨0x1, own, 0, 0, 0, 0, 0, 0, 0⟩

/-- GPP_A0 goes to the GPIO driver, and then back to ACPI. -/
def handedBack : List GpioInitConfig :=
  [⟨0x01000000, gpioModeConfig 0x3⟩, ⟨0x01000000, gpioModeConfig 0x1⟩]

theorem handedBack_plain : ∀ e ∈ handedBack, e.Plain pchHDebug fun _ ↦ 0 := by
  have hconfigurable : Configurable pchHDebug (fun _ ↦ 0) 0x01000000 :=
    ⟨by decide, by decide, by decide, by decide⟩
  have henum : ∀ own ∈ [0x0#2, 0x1, 0x3], (gpioModeConfig own).EnumValues := fun own hown ↦
    ⟨by decide +revert, hown, by decide +revert, by decide +revert,
      ⟨0, by decide, 0, by decide, by decide +revert⟩, by decide +revert,
      ⟨0, by decide, 0, by decide, by decide +revert⟩, by decide +revert, by decide +revert⟩
  intro e he
  rcases List.mem_cons.1 he with rfl | he
  · exact ⟨hconfigurable, henum 0x3 (by decide), by decide, by decide⟩
  · obtain rfl := List.mem_singleton.1 he
    exact ⟨hconfigurable, henum 0x1 (by decide), by decide, by decide⟩

/-- The pad stays with the GPIO driver. -/
theorem not_configuresAlike_handedBack :
    (∀ e ∈ handedBack, e.Plain pchHDebug fun _ ↦ 0) ∧
      ¬ ConfiguresAlike pchHDebug handedBack fun _ ↦ 0 := by
  refine ⟨handedBack_plain, fun h ↦ ?_⟩
  have hq : ValidPad 0x01000000 := by decide
  obtain ⟨-, -, hown, -⟩ := h 0x01000000 hq
  rw [padState_gpioConfigureSklPch hq handedBack_plain, padState_inOrder hq handedBack_plain] at hown
  revert hown
  decide

/-- The theorem, for these entries. -/
theorem gpioConfigureSklPch_configuresAlike_handedBack :
    ConfiguresAlike pchHDebug handedBack (fun _ ↦ 0) ↔
      ∀ q, ValidPad q → (padState (fun _ ↦ 0) q).GivesAlike (configsOf handedBack q) :=
  gpioConfigureSklPch_configuresAlike_iff pchHDebug handedBack (fun _ ↦ 0) handedBack_plain

end PurleyFirmware.Gpio
