import Mathlib.Data.BitVec
import Mathlib.Data.List.Basic
import Mathlib.Order.BoundedOrder.Basic
import Mathlib.Order.Lattice

/-!
# Machine-check banks

What a machine-check bank holds and how severe it is. The layout of the registers is in headers
outside this code, so a status register is given field by field, under the names of its bit fields;
`other` stands for the fields nobody here reads.

Severities are ordered as `GetHighestSeverity` orders them, which makes that function the maximum
(`getHighestSeverity_eq_max`).
-/

namespace PurleyFirmware.Ras

/-! ### Severities -/

/-- `EFI_ACPI_5_0_ERROR_SEVERITY_*`. -/
inductive Severity
  | correctable
  | fatal
  | corrected
  | none
  deriving DecidableEq, Repr

namespace Severity

/-- The place of a severity in the order. -/
def rank : Severity → ℕ
  | none => 0
  | corrected => 1
  | correctable => 2
  | fatal => 3

theorem rank_injective : Function.Injective rank := by
  intro a b h
  cases a <;> cases b <;> first | rfl | cases h

instance : LinearOrder Severity := LinearOrder.lift' rank rank_injective

instance : OrderBot Severity where
  bot := none
  bot_le a := Nat.zero_le a.rank

end Severity

/-- The more severe of the two. -/
def getHighestSeverity (newSev oldSev : Severity) : Severity :=
  match newSev with
  | .fatal => newSev
  | .correctable => if oldSev = .corrected ∨ oldSev = .none then newSev else oldSev
  | .corrected => if oldSev = .none then newSev else oldSev
  | .none => oldSev

theorem getHighestSeverity_eq_max (newSev oldSev : Severity) :
    getHighestSeverity newSev oldSev = max newSev oldSev := by
  cases newSev <;> cases oldSev <;> rfl

/-! ### Registers -/

/-- A status register. -/
structure MciStatus where
  /-- The register holds an error. -/
  val : Bool
  /-- `OVER`: an error came while the register held one. -/
  overflow : Bool
  /-- The error is not corrected. -/
  uc : Bool
  /-- The miscellaneous register is valid. -/
  miscv : Bool
  /-- The address register is valid. -/
  addrv : Bool
  /-- The processor context is corrupt. -/
  pcc : Bool
  /-- The error is signalled. -/
  s : Bool
  /-- `MCA_FIRMWARE_UPDATED_BIT`. -/
  firmwareUpdated : Bool
  /-- Everything else. -/
  other : BitVec 64
  deriving DecidableEq

/-- The registers of a bank. -/
structure McBankSignature where
  /-- Status. -/
  mcSts : MciStatus
  /-- Address. -/
  mcAddr : BitVec 64
  /-- Miscellaneous. -/
  mcMisc : BitVec 64
  deriving DecidableEq

/-- A bank's registers and the processor that reads them. -/
structure McSignatureRecord where
  /-- The registers. -/
  signature : McBankSignature
  /-- The processor. -/
  apicId : BitVec 32
  deriving DecidableEq

/-- A status register that is clear. -/
def MciStatus.zero : MciStatus := ⟨false, false, false, false, false, false, false, false, 0⟩

/-- The record `McBankErrorHandler` starts with. -/
def McSignatureRecord.zero : McSignatureRecord := ⟨⟨.zero, 0, 0⟩, 0⟩

/-- The banks a processor sees, by number. -/
abbrev McBanks : Type := ℕ → McBankSignature

/-- The severity of what a status register holds. The spin loop in the fatal branch is in the
callers' models. -/
def mapErrorSeverity (mcSts : MciStatus) : Severity :=
  if mcSts.uc then
    if !mcSts.pcc then
      if mcSts.s then .correctable else .corrected
    else .fatal
  else .corrected

theorem mapErrorSeverity_ne_none (mcSts : MciStatus) : mapErrorSeverity mcSts ≠ .none := by
  rw [mapErrorSeverity]
  split
  · split
    · split <;> exact nofun
    · exact nofun
  · exact nofun

/-! ### Bank bit fields -/

/-- The banks of a bit field, from the lowest. The source takes them one by one with
`FindFirstSet`. -/
def setBits (bankBitField : BitVec 64) : List ℕ :=
  (List.range 64).filter fun i ↦ bankBitField.getLsbD i

@[simp] theorem mem_setBits {bankBitField : BitVec 64} {i : ℕ} :
    i ∈ setBits bankBitField ↔ bankBitField.getLsbD i = true := by
  rw [setBits, List.mem_filter, List.mem_range]
  exact ⟨fun h ↦ h.2, fun h ↦ ⟨BitVec.lt_of_getLsbD h, h⟩⟩

/-- The lowest bank of a bit field. The source's loop does not end on an empty one; nobody calls it
on one. -/
def findFirstSet (bankBitField : BitVec 64) : ℕ := (setBits bankBitField).head?.getD 0

/-- Two bit fields with a bank in common. -/
theorem exists_getLsbD_of_and_ne_zero {v w : BitVec 64} (h : v &&& w ≠ 0#64) :
    ∃ i, v.getLsbD i = true ∧ w.getLsbD i = true := by
  by_contra hnone
  refine h (BitVec.eq_of_getLsbD_eq fun i _ ↦ ?_)
  rw [BitVec.getLsbD_and, BitVec.getLsbD_zero]
  by_contra hi
  exact hnone ⟨i, by simpa using hi⟩

theorem getLsbD_findFirstSet {w : BitVec 64} {i : ℕ} (hi : w.getLsbD i = true) :
    w.getLsbD (findFirstSet w) = true := by
  have hmem : i ∈ setBits w := mem_setBits.2 hi
  obtain ⟨b, rest, heq⟩ := List.exists_cons_of_ne_nil (List.ne_nil_of_mem hmem)
  have hfirst : findFirstSet w = b := by
    rw [findFirstSet, heq]
    rfl
  rw [hfirst, ← mem_setBits, heq]
  exact List.mem_cons_self

/-- At most one bank. -/
def AtMostOneBank (w : BitVec 64) : Prop :=
  ∀ i j, w.getLsbD i = true → w.getLsbD j = true → i = j

theorem atMostOneBank_zero : AtMostOneBank 0#64 := by
  intro i j hi
  simp at hi

theorem atMostOneBank_shiftLeft (bank : ℕ) : AtMostOneBank (1#64 <<< bank) := by
  have hbit : ∀ i, (1#64 <<< bank).getLsbD i = true → i = bank := by
    intro i hi
    simp only [BitVec.getLsbD_shiftLeft, BitVec.getLsbD_one, Bool.and_eq_true,
      Bool.not_eq_true', decide_eq_true_eq, decide_eq_false_iff_not] at hi
    omega
  intro i j hi hj
  rw [hbit i hi, hbit j hj]

/-- A bit field with one bank at most that shares a bank with another shares its lowest. -/
theorem AtMostOneBank.getLsbD_findFirstSet {v w : BitVec 64} (hw : AtMostOneBank w)
    (h : v &&& w ≠ 0#64) : v.getLsbD (findFirstSet w) = true := by
  obtain ⟨i, hv, hi⟩ := exists_getLsbD_of_and_ne_zero h
  rwa [hw _ _ (Ras.getLsbD_findFirstSet hi) hi]

end PurleyFirmware.Ras
