import PurleyFirmware.Foundation.MaskedWrite
import PurleyFirmware.Uefi.Status
import Mathlib.Logic.Function.Basic

/-!
# GPIO registers

The pads of the PCH are in groups, the groups in communities. Each pad has two dwords of
configuration, and in each of its group's registers a bit: who owns it on the host, whether its GPE
is enabled, whether its configuration and its output are locked. `mPchGpioGroupInfo` says where these
registers are.

A register is known by the port of its community and its offset there, which `PCH_PCR_ADDRESS` puts
into different bits of an address. The registers of the table do not overlap, `address_inj`.
-/

namespace PurleyFirmware.Gpio

/-! ### Pads -/

/-- `GPIO_PAD`. -/
abbrev GpioPad := BitVec 32

namespace GpioPad

variable (p : GpioPad)

/-- `GpioGetGroupFromGpioPad`. -/
def group : BitVec 32 := p >>> 16

/-- `GpioGetGroupIndexFromGpioPad`. -/
def groupIndex : ℕ := ((p >>> 16) &&& 0xFF).toNat

/-- `GpioGetPadNumberFromGpioPad`. -/
def padNumber : ℕ := (p &&& 0xFFFF).toNat

/-- `GPIO_GET_CHIPSET_ID`. -/
def chipsetId : BitVec 32 := p >>> 24

end GpioPad

/-- `GpioGetLowestGroup`. -/
def gpioGetLowestGroup : BitVec 32 := 0x0100

/-- `GpioGetHighestGroup`. -/
def gpioGetHighestGroup : BitVec 32 := 0x010C

/-- `GpioGetNumberOfGroups`. -/
def gpioGetNumberOfGroups : ℕ := 13

/-! ### The table of groups -/

/-- `GPIO_GROUP_INFO`. -/
structure GpioGroupInfo where
  community : BitVec 8
  padOwnOffset : ℕ
  hostOwnOffset : ℕ
  gpiGpeEnOffset : ℕ
  padCfgLockOffset : ℕ
  padCfgLockTxOffset : ℕ
  padCfgOffset : ℕ
  padPerGroup : ℕ
  deriving DecidableEq, Inhabited

/-- `NO_REGISTER_FOR_PROPERTY`. -/
def noRegisterForProperty : ℕ := 0xFFFFFFFF

/-- `mPchGpioGroupInfo`. -/
def mPchGpioGroupInfo : List GpioGroupInfo :=
  [⟨0xAF, 0x20, 0x80, 0x130, 0x60, 0x64, 0x400, 24⟩,
    ⟨0xAF, 0x2C, 0x84, 0x134, 0x68, 0x6C, 0x4C0, 24⟩,
    ⟨0xAE, 0x20, 0x80, 0x130, 0x60, 0x64, 0x400, 24⟩,
    ⟨0xAE, 0x2C, 0x84, 0x134, 0x68, 0x6C, 0x4C0, 24⟩,
    ⟨0xAE, 0x38, 0x88, 0x138, 0x70, 0x74, 0x580, 13⟩,
    ⟨0xAF, 0x38, 0x88, 0x138, 0x70, 0x74, 0x580, 24⟩,
    ⟨0x11, 0x20, 0x80, 0x130, 0x60, 0x64, 0x400, 24⟩,
    ⟨0x11, 0x2C, 0x84, 0x134, 0x68, 0x6C, 0x4C0, 24⟩,
    ⟨0xAC, 0x20, 0x80, 0x130, 0x60, 0x64, 0x400, 11⟩,
    ⟨0xAB, 0x20, 0x80, 0x130, 0x60, 0x64, 0x400, 24⟩,
    ⟨0xAB, 0x2C, 0x84, 0x134, 0x68, 0x6C, 0x4C0, 11⟩,
    ⟨0x11, 0x38, 0x88, 0x138, 0x70, 0x74, 0x580, 20⟩,
    ⟨0xAD, 0x20, 0x80, 0x130, 0x60, 0x64, 0x400, 12⟩]

/-- `GpioGroupInfo[GroupIndex]`. -/
def gpioGroupInfo (groupIndex : ℕ) : GpioGroupInfo := mPchGpioGroupInfo.getD groupIndex default

/-- The pad is one of the table's. -/
structure ValidPad (p : GpioPad) : Prop where
  lowest : gpioGetLowestGroup ≤ p.group
  highest : p.group ≤ gpioGetHighestGroup
  padNumber : p.padNumber < (gpioGroupInfo p.groupIndex).padPerGroup

instance (p : GpioPad) : Decidable (ValidPad p) :=
  decidable_of_iff (gpioGetLowestGroup ≤ p.group ∧ p.group ≤ gpioGetHighestGroup ∧
      p.padNumber < (gpioGroupInfo p.groupIndex).padPerGroup)
    ⟨fun h ↦ ⟨h.1, h.2.1, h.2.2⟩, fun h ↦ ⟨h.lowest, h.highest, h.padNumber⟩⟩

variable {p q : GpioPad}

theorem GpioPad.group_toNat (p : GpioPad) : p.group.toNat = p.toNat / 65536 := by
  rw [GpioPad.group, BitVec.toNat_ushiftRight, Nat.shiftRight_eq_div_pow]

theorem GpioPad.padNumber_eq (p : GpioPad) : p.padNumber = p.toNat % 65536 := by
  rw [GpioPad.padNumber, BitVec.toNat_and]
  exact Nat.and_two_pow_sub_one_eq_mod p.toNat 16

theorem GpioPad.groupIndex_eq (p : GpioPad) : p.groupIndex = p.toNat / 65536 % 256 := by
  rw [← GpioPad.group_toNat, GpioPad.groupIndex, BitVec.toNat_and]
  exact Nat.and_two_pow_sub_one_eq_mod p.group.toNat 8

/-- The group of a valid pad is its index, with the id of the chipset. -/
theorem ValidPad.group_eq (h : ValidPad p) :
    p.toNat / 65536 = 256 + p.groupIndex ∧ p.groupIndex < gpioGetNumberOfGroups := by
  have hlowest : 256 ≤ p.group.toNat := BitVec.le_def.1 h.lowest
  have hhighest : p.group.toNat ≤ 268 := BitVec.le_def.1 h.highest
  rw [GpioPad.group_toNat] at hlowest hhighest
  rw [GpioPad.groupIndex_eq, gpioGetNumberOfGroups]
  omega

/-- **A valid pad is known by its group and its number.** -/
theorem ValidPad.ext (hp : ValidPad p) (hq : ValidPad q) (hgroup : p.groupIndex = q.groupIndex)
    (hnumber : p.padNumber = q.padNumber) : p = q := by
  have hpgroup := hp.group_eq.1
  have hqgroup := hq.group_eq.1
  rw [GpioPad.padNumber_eq, GpioPad.padNumber_eq] at hnumber
  refine BitVec.eq_of_toNat_eq ?_
  omega

/-! ### Where the registers are -/

/-- `GPIO_REG`, as far as registers with one bit for each pad are used. -/
inductive GpioReg
  | hostOwnership
  | gpeEnable
  | padConfigLock
  | padLockOutput
  deriving DecidableEq

/-- The offset of the register of a group. -/
def GpioReg.offset (info : GpioGroupInfo) : GpioReg → ℕ
  | hostOwnership => info.hostOwnOffset
  | gpeEnable => info.gpiGpeEnOffset
  | padConfigLock => info.padCfgLockOffset
  | padLockOutput => info.padCfgLockTxOffset

/-- `PCH_PCR_ADDRESS`: a port and an offset. -/
structure PcrAddress where
  pid : BitVec 8
  offset : ℕ
  deriving DecidableEq

/-- The registers that are used, by group, pad and number of the dword. -/
inductive RegKey
  | padCfg (group pad dw : ℕ)
  | perGroup (reg : GpioReg) (group : ℕ)
  | padOwn (group dw : ℕ)
  deriving DecidableEq

/-- Where a register is. -/
def RegKey.address : RegKey → PcrAddress
  | padCfg g n dw => ⟨(gpioGroupInfo g).community, 0x8 * n + (gpioGroupInfo g).padCfgOffset + 0x4 * dw⟩
  | perGroup reg g => ⟨(gpioGroupInfo g).community, reg.offset (gpioGroupInfo g)⟩
  | padOwn g dw => ⟨(gpioGroupInfo g).community, (gpioGroupInfo g).padOwnOffset + dw * 0x4⟩

/-- The register exists. -/
def RegKey.Exists : RegKey → Prop
  | padCfg g n dw => g < gpioGetNumberOfGroups ∧ n < (gpioGroupInfo g).padPerGroup ∧ dw < 2
  | perGroup _ g => g < gpioGetNumberOfGroups
  | padOwn g dw => g < gpioGetNumberOfGroups ∧ dw < 3

/-- The place of a group among those of its community. -/
def slot (g : ℕ) : ℕ := ((gpioGroupInfo g).padCfgOffset - 0x400) / 0xC0

/-- **How the registers of a community are laid out.** -/
structure LaidOut (g : ℕ) : Prop where
  slot_lt : slot g < 3
  padOwn : (gpioGroupInfo g).padOwnOffset = 0x20 + 0xC * slot g
  hostOwn : (gpioGroupInfo g).hostOwnOffset = 0x80 + 0x4 * slot g
  gpiGpeEn : (gpioGroupInfo g).gpiGpeEnOffset = 0x130 + 0x4 * slot g
  padCfgLock : (gpioGroupInfo g).padCfgLockOffset = 0x60 + 0x8 * slot g
  padCfgLockTx : (gpioGroupInfo g).padCfgLockTxOffset = 0x64 + 0x8 * slot g
  padCfg : (gpioGroupInfo g).padCfgOffset = 0x400 + 0xC0 * slot g
  padPerGroup : (gpioGroupInfo g).padPerGroup ≤ 24

theorem laidOut {g : ℕ} (hg : g < gpioGetNumberOfGroups) : LaidOut g := by
  have hall : ∀ g < gpioGetNumberOfGroups,
      slot g < 3 ∧ (gpioGroupInfo g).padOwnOffset = 0x20 + 0xC * slot g ∧
      (gpioGroupInfo g).hostOwnOffset = 0x80 + 0x4 * slot g ∧
      (gpioGroupInfo g).gpiGpeEnOffset = 0x130 + 0x4 * slot g ∧
      (gpioGroupInfo g).padCfgLockOffset = 0x60 + 0x8 * slot g ∧
      (gpioGroupInfo g).padCfgLockTxOffset = 0x64 + 0x8 * slot g ∧
      (gpioGroupInfo g).padCfgOffset = 0x400 + 0xC0 * slot g ∧
      (gpioGroupInfo g).padPerGroup ≤ 24 := by decide
  obtain ⟨h₁, h₂, h₃, h₄, h₅, h₆, h₇, h₈⟩ := hall g hg
  exact ⟨h₁, h₂, h₃, h₄, h₅, h₆, h₇, h₈⟩

/-- A group is known by its community and its place there. -/
theorem group_inj {g g' : ℕ} (hg : g < gpioGetNumberOfGroups) (hg' : g' < gpioGetNumberOfGroups)
    (hcommunity : (gpioGroupInfo g).community = (gpioGroupInfo g').community)
    (hslot : slot g = slot g') : g = g' := by
  have hall : ∀ g < gpioGetNumberOfGroups, ∀ g' < gpioGetNumberOfGroups,
      (gpioGroupInfo g).community = (gpioGroupInfo g').community → slot g = slot g' → g = g' := by
    decide
  exact hall g hg g' hg' hcommunity hslot

/-- The group of a register. -/
def RegKey.group : RegKey → ℕ
  | padCfg g _ _ => g
  | perGroup _ g => g
  | padOwn g _ => g

theorem RegKey.Exists.group_lt {k : RegKey} (hk : k.Exists) : k.group < gpioGetNumberOfGroups := by
  cases k with
  | padCfg g n dw => exact hk.1
  | perGroup reg g => exact hk
  | padOwn g dw => exact hk.1

/-- Where the registers of its kind begin. -/
def RegKey.base : RegKey → ℕ
  | padCfg _ _ _ => 0x400
  | perGroup .hostOwnership _ => 0x80
  | perGroup .gpeEnable _ => 0x130
  | perGroup _ _ => 0x60
  | padOwn _ _ => 0x20

/-- How much space its kind takes for a group. -/
def RegKey.stride : RegKey → ℕ
  | padCfg _ _ _ => 0xC0
  | perGroup .hostOwnership _ => 0x4
  | perGroup .gpeEnable _ => 0x4
  | perGroup _ _ => 0x8
  | padOwn _ _ => 0xC

/-- Where the register is in the space of its group. -/
def RegKey.within : RegKey → ℕ
  | padCfg _ n dw => 0x8 * n + 0x4 * dw
  | perGroup .padLockOutput _ => 0x4
  | perGroup _ _ => 0
  | padOwn _ dw => 0x4 * dw

/-- The offset of a register, and the space it is in. -/
theorem RegKey.Exists.offset_eq {k : RegKey} (hk : k.Exists) :
    k.address.offset = k.base + k.stride * slot k.group + k.within ∧ k.within < k.stride ∧
      slot k.group < 3 := by
  have hlaid := laidOut hk.group_lt
  refine ⟨?_, ?_, hlaid.slot_lt⟩
  · rcases k with ⟨g, n, dw⟩ | ⟨_ | _ | _ | _, g⟩ | ⟨g, dw⟩
    · have hpad := hlaid.padCfg
      simp only [address, base, stride, within, group] at hpad ⊢
      omega
    · exact hlaid.hostOwn
    · exact hlaid.gpiGpeEn
    · exact hlaid.padCfgLock
    · have hlock := hlaid.padCfgLockTx
      simp only [address, base, stride, within, group, GpioReg.offset] at hlock ⊢
      omega
    · have hown := hlaid.padOwn
      simp only [address, base, stride, within, group] at hown ⊢
      omega
  · rcases k with ⟨g, n, dw⟩ | ⟨_ | _ | _ | _, g⟩ | ⟨g, dw⟩
    · have hpads := hlaid.padPerGroup
      obtain ⟨-, hn, hdw⟩ := hk
      simp only [stride, within, group] at hpads ⊢
      omega
    · exact (by decide : 0 < 0x4)
    · exact (by decide : 0 < 0x4)
    · exact (by decide : 0 < 0x8)
    · exact (by decide : 0x4 < 0x8)
    · obtain ⟨-, hdw⟩ := hk
      simp only [stride, within]
      omega

/-- **The registers do not overlap.** -/
theorem RegKey.address_inj {k k' : RegKey} (hk : k.Exists) (hk' : k'.Exists)
    (h : k.address = k'.address) : k = k' := by
  obtain ⟨hoff, hwithin, hslot⟩ := hk.offset_eq
  obtain ⟨hoff', hwithin', hslot'⟩ := hk'.offset_eq
  rw [h] at hoff
  have heq := hoff.symm.trans hoff'
  have hgroup : slot k.group = slot k'.group → k.group = k'.group := by
    refine group_inj hk.group_lt hk'.group_lt ?_
    have hpid := congrArg PcrAddress.pid h
    cases k <;> cases k' <;> exact hpid
  rcases k with ⟨g, n, dw⟩ | ⟨_ | _ | _ | _, g⟩ | ⟨g, dw⟩ <;>
    rcases k' with ⟨g', n', dw'⟩ | ⟨_ | _ | _ | _, g'⟩ | ⟨g', dw'⟩ <;>
    simp only [base, stride, within, group, RegKey.Exists] at * <;>
    first
      | omega
      | (obtain rfl := hgroup (by omega)
         first
           | rfl
           | (congr 1 <;> omega))

/-! ### The register file -/

/-- What the registers hold. -/
abbrev Registers := PcrAddress → BitVec 32

/-- `MmioAndThenOr32`, with the complement of the mask. -/
def mmioAndThenOr32 (a : PcrAddress) (m : MaskedWrite 32) (r : Registers) : Registers :=
  Function.update r a (m.apply (r a))

/-- **A write changes its own register.** -/
theorem mmioAndThenOr32_address {k k' : RegKey} (hk : k.Exists) (hk' : k'.Exists)
    (m : MaskedWrite 32) (r : Registers) :
    mmioAndThenOr32 k.address m r k'.address =
      if k' = k then m.apply (r k'.address) else r k'.address := by
  rw [mmioAndThenOr32]
  split
  · rename_i heq
    rw [heq, Function.update_self]
  · rename_i hne
    exact Function.update_of_ne (fun heq ↦ hne (RegKey.address_inj hk' hk heq)) _ _

/-! ### The registers of a pad -/

namespace GpioPad

variable (p : GpioPad)

/-- The group of the pad. -/
def info : GpioGroupInfo := gpioGroupInfo p.groupIndex

/-- The dwords of the pad's configuration. -/
def padCfg (dw : ℕ) : RegKey := .padCfg p.groupIndex p.padNumber dw

/-- A register of the pad's group, in which the pad has a bit. -/
def reg (reg : GpioReg) : RegKey := .perGroup reg p.groupIndex

/-- The register that says who owns the pad. -/
def padOwn : RegKey := .padOwn p.groupIndex (p.padNumber >>> 3)

end GpioPad

theorem ValidPad.padNumber_lt (h : ValidPad p) : p.padNumber < 24 :=
  Nat.lt_of_lt_of_le h.padNumber (laidOut h.group_eq.2).padPerGroup

theorem ValidPad.padCfg_exists (h : ValidPad p) {dw : ℕ} (hdw : dw < 2) : (p.padCfg dw).Exists :=
  ⟨h.group_eq.2, h.padNumber, hdw⟩

theorem ValidPad.reg_exists (h : ValidPad p) (reg : GpioReg) : (p.reg reg).Exists := h.group_eq.2

theorem ValidPad.padOwn_exists (h : ValidPad p) : p.padOwn.Exists := by
  have hlt := h.padNumber_lt
  refine ⟨h.group_eq.2, ?_⟩
  rw [Nat.shiftRight_eq_div_pow]
  omega

/-- What the registers say of a pad. -/
structure PadState where
  dw0 : BitVec 32
  dw1 : BitVec 32
  hostOwn : Bool
  gpeEn : Bool
  lock : Bool
  lockTx : Bool
  owner : BitVec 32
  deriving DecidableEq

/-- `GpioGetPadOwnership`, for a valid pad. -/
def padOwnership (p : GpioPad) (r : Registers) : BitVec 32 :=
  (r p.padOwn.address &&& (3#32 <<< (p.padNumber % 8 * 4))) >>> (p.padNumber % 8 * 4)

/-- The pad as the registers have it. -/
def padState (r : Registers) (p : GpioPad) : PadState where
  dw0 := r (p.padCfg 0).address
  dw1 := r (p.padCfg 1).address
  hostOwn := (r (p.reg .hostOwnership).address).getLsbD p.padNumber
  gpeEn := (r (p.reg .gpeEnable).address).getLsbD p.padNumber
  lock := (r (p.reg .padConfigLock).address).getLsbD p.padNumber
  lockTx := (r (p.reg .padLockOutput).address).getLsbD p.padNumber
  owner := padOwnership p r

/-- **What a write changes of a pad**, to any register but those of the ownership. -/
theorem padState_mmioAndThenOr32 {k : RegKey} (hk : k.Exists) (hown : ∀ g dw, k ≠ .padOwn g dw)
    (hq : ValidPad q) (m : MaskedWrite 32) (r : Registers) :
    padState (mmioAndThenOr32 k.address m r) q =
      { dw0 := if q.padCfg 0 = k then m.apply (padState r q).dw0 else (padState r q).dw0
        dw1 := if q.padCfg 1 = k then m.apply (padState r q).dw1 else (padState r q).dw1
        hostOwn := if q.reg .hostOwnership = k then m.applyBit q.padNumber (padState r q).hostOwn
          else (padState r q).hostOwn
        gpeEn := if q.reg .gpeEnable = k then m.applyBit q.padNumber (padState r q).gpeEn
          else (padState r q).gpeEn
        lock := if q.reg .padConfigLock = k then m.applyBit q.padNumber (padState r q).lock
          else (padState r q).lock
        lockTx := if q.reg .padLockOutput = k then m.applyBit q.padNumber (padState r q).lockTx
          else (padState r q).lockTx
        owner := (padState r q).owner } := by
  have hlt : q.padNumber < 32 := Nat.lt_trans hq.padNumber_lt (by decide)
  have hbit : ∀ reg, (mmioAndThenOr32 k.address m r (q.reg reg).address).getLsbD q.padNumber =
      if q.reg reg = k then m.applyBit q.padNumber ((r (q.reg reg).address).getLsbD q.padNumber)
      else (r (q.reg reg).address).getLsbD q.padNumber := by
    intro reg
    rw [mmioAndThenOr32_address hk (hq.reg_exists reg)]
    split
    · exact m.getLsbD_apply_eq _ hlt
    · rfl
  have howner : padOwnership q (mmioAndThenOr32 k.address m r) = padOwnership q r := by
    have hne : q.padOwn ≠ k := (hown _ _).symm
    rw [padOwnership, mmioAndThenOr32_address hk hq.padOwn_exists, if_neg hne, padOwnership]
  rw [padState, hbit, hbit, hbit, hbit, howner,
    mmioAndThenOr32_address hk (hq.padCfg_exists (by decide)),
    mmioAndThenOr32_address hk (hq.padCfg_exists (by decide))]
  rfl

end PurleyFirmware.Gpio
