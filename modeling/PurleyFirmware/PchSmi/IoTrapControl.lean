import PurleyFirmware.PchSmi.IoTrapDelivery
import PurleyFirmware.PchSmi.IoTrapPool

/-!
# Pausing and resuming a trap

`IoTrapControlPause` and `IoTrapControlResume` clear and set the SMI enable of the trap of a child
with an explicit address. A record does not say which trap it has: both functions decode the range
of every such trap and take the first that is the child's.

A range of less than four ports is encoded by byte enables, and is decoded from them; the low dword
holds its dword only. What is decoded is therefore the range of the child itself
(`decoded_encoded`), and the trap that is found is the child's own unless one before it has the same
range.
-/

namespace PurleyFirmware.PchSmi

variable {s s' t : IoTrapInstance} {context : IoTrapContext} {n : Fin ioTrapHandlerNum}

/-! ### The two functions -/

/-- `UsedLength`: from the byte enables, if not all are set. -/
def decodedLength (low high : BitVec 32) : BitVec 32 :=
  if high &&& 0xF0 ≠ 0xF0 then
    BitVec.ofInt 32 (highBitSet32 (high &&& 0xF0) - lowBitSet32 (high &&& 0xF0) + 1)
  else trpregUsedLength low

/-- `BaseAddress`. -/
def decodedBase (low high : BitVec 32) : BitVec 64 :=
  if high &&& 0xF0 ≠ 0xF0 then
    (trpregAd low).setWidth 64 + BitVec.ofInt 64 (lowBitSet32 ((high &&& 0xF0) >>> 4))
  else (trpregAd low).setWidth 64

/-- The trap has the range of the child. -/
def IoTrapInstance.HasRange (s : IoTrapInstance) (context : IoTrapContext)
    (n : Fin ioTrapHandlerNum) : Prop :=
  decodedBase (s.low n) (s.high n) = context.address.setWidth 64 ∧
    decodedLength (s.low n) (s.high n) = context.length.setWidth 32

instance : Decidable (s.HasRange context n) := inferInstanceAs (Decidable (_ ∧ _))

/-- The loop over the traps. -/
def controlledTrap (s : IoTrapInstance) (context : IoTrapContext) : Option (Fin ioTrapHandlerNum) :=
  (List.finRange ioTrapHandlerNum).find? fun n ↦ s.mergeDisable n ∧ s.HasRange context n

/-- The common body: the SMI enable is set to `resume`. -/
def ioTrapControl (resume : Bool) (s : IoTrapInstance) (dispatchHandle : Option ℕ) :
    EfiStatus × IoTrapInstance :=
  match dispatchHandle with
  | none => (.invalidParameter, s)
  | some link =>
    match s.callbackDataBase.find? fun r ↦ r.link == link with
    | none => (.invalidParameter, s)
    | some record =>
      if record.context.address = 0 ∨ record.context.length = 0 then (.invalidParameter, s)
      else
        match controlledTrap s record.context with
        | none => (.invalidParameter, s)
        | some n =>
          if (s.low n).getLsbD 0 = resume then (.accessDenied, s)
          else (.success, s.setHw (setIoTrapLowDword s.smi.hw n
            (if resume then s.low n ||| 1 else s.low n &&& ~~~1)))

/-- `IoTrapControlPause`. -/
def ioTrapControlPause : IoTrapInstance → Option ℕ → EfiStatus × IoTrapInstance :=
  ioTrapControl false

/-- `IoTrapControlResume`. -/
def ioTrapControlResume : IoTrapInstance → Option ℕ → EfiStatus × IoTrapInstance :=
  ioTrapControl true

/-! ### What is decoded -/

theorem trpregUsedLength_lowDword (usedLength : BitVec 32) (baseAddress : BitVec 16) :
    trpregUsedLength (trpregLowDword usedLength baseAddress) = ((usedLength - 1) &&& 0xFC) + 4 := by
  have hmask : ∀ i < 32, (0xFC : BitVec 32).getLsbD i = true → i < 8 ∧ (3 : BitVec 32).getLsbD i = false := by
    decide
  refine congrArg (· + 4) (BitVec.eq_of_getLsbD_eq fun i hi ↦ ?_)
  rw [BitVec.getLsbD_and, BitVec.getLsbD_and]
  cases hbit : (0xFC : BitVec 32).getLsbD i with
  | false => rw [Bool.and_false, Bool.and_false]
  | true =>
    obtain ⟨hlt, hthree⟩ := hmask i hi hbit
    rw [Bool.and_true, Bool.and_true, trpregLowDword, BitVec.getLsbD_ushiftRight,
      BitVec.getLsbD_or, BitVec.getLsbD_or, BitVec.getLsbD_shiftLeft, BitVec.getLsbD_setWidth,
      BitVec.getLsbD_of_ge baseAddress (16 + i) (by omega), BitVec.getLsbD_and, BitVec.getLsbD_not,
      Nat.add_sub_cancel_left, hthree]
    simp [hi, show 16 + i < 32 by omega]

/-- From four ports on, the mask holds the length. -/
theorem mask_add_four : ∀ length ∈ mLengthTable, 4 ≤ length →
    ((BitVec.ofNat 32 length - 1) &&& 0xFC) + 4 = BitVec.ofNat 32 length := by
  decide

/-- The high dword of a range of less than four ports. -/
def shortHighDword (length offset code : ℕ) : BitVec 32 :=
  (((1#32 <<< length) - 1) <<< (offset + 4)) ||| (BitVec.ofNat 32 code <<< 16)

/-- Not all bytes are enabled. -/
theorem shortHighDword_ne : ∀ length : ℕ, length < 4 → ∀ offset : ℕ, offset < 4 →
    ∀ code : ℕ, code < 4 → 1 ≤ length ∧ offset + length ≤ 4 →
      ¬ shortHighDword length offset code &&& 0xF0 = 0xF0 := by
  decide

/-- The lowest byte that is enabled. -/
theorem lowBitSet32_shortHighDword : ∀ length : ℕ, length < 4 → ∀ offset : ℕ, offset < 4 →
    ∀ code : ℕ, code < 4 → 1 ≤ length ∧ offset + length ≤ 4 →
      lowBitSet32 ((shortHighDword length offset code &&& 0xF0) >>> 4) = (offset : ℤ) := by
  decide

/-- The number of bytes that are enabled. -/
theorem bitSet32_shortHighDword : ∀ length : ℕ, length < 4 → ∀ offset : ℕ, offset < 4 →
    ∀ code : ℕ, code < 4 → 1 ≤ length ∧ offset + length ≤ 4 →
      highBitSet32 (shortHighDword length offset code &&& 0xF0) -
        lowBitSet32 (shortHighDword length offset code &&& 0xF0) + 1 = (length : ℤ) := by
  decide

theorem IoTrapType.code_eq (type : IoTrapType) : ∃ code < 4, type.code = BitVec.ofNat 32 code := by
  cases type
  · exact ⟨0, by decide, rfl⟩
  · exact ⟨1, by decide, rfl⟩
  · exact ⟨2, by decide, rfl⟩
  · exact ⟨3, by decide, rfl⟩

theorem and_byteEnables_long (type : IoTrapType) : ((0xF0 : BitVec 32) ||| (type.code <<< 16)) &&& 0xF0 = 0xF0 := by
  cases type <;> decide

/-- The dword of an address. -/
theorem setWidth_dword (address : BitVec 16) :
    ((address &&& 0xFFFC).setWidth 32).setWidth 64 = BitVec.ofNat 64 (address.toNat / 4 * 4) := by
  have hmask : ∀ i < 16, (0xFFFC : BitVec 16).getLsbD i = decide (2 ≤ i) := by decide
  refine BitVec.eq_of_getLsbD_eq fun i hi ↦ ?_
  rw [BitVec.getLsbD_setWidth, BitVec.getLsbD_setWidth, BitVec.getLsbD_and, BitVec.getLsbD_ofNat,
    Nat.mul_comm, show 4 = 2 ^ 2 from rfl, Nat.testBit_two_pow_mul, Nat.testBit_div_two_pow]
  by_cases hlt : i < 16
  · rw [hmask i hlt]
    by_cases htwo : 2 ≤ i
    · rw [Nat.sub_add_cancel htwo, BitVec.testBit_toNat]
      simp [hi, htwo, show i < 32 by omega]
    · simp [htwo]
  · rw [BitVec.getLsbD_of_ge address i (by omega)]
    by_cases htwo : 2 ≤ i
    · rw [Nat.sub_add_cancel htwo, BitVec.testBit_toNat, BitVec.getLsbD_of_ge address i (by omega)]
      simp
    · omega

/-- **The range of the child is decoded** from what its registration encodes. -/
theorem decoded_encoded (hcheck : ioTrapCheck context = true) :
    decodedBase (trpregLowDword (context.length.setWidth 32) (context.address &&& 0xFFFC))
        (trpregHighDword context (context.length.setWidth 32)) = context.address.setWidth 64 ∧
      decodedLength (trpregLowDword (context.length.setWidth 32) (context.address &&& 0xFFFC))
        (trpregHighDword context (context.length.setWidth 32)) = context.length.setWidth 32 := by
  obtain ⟨-, hlength, hlong, hshort⟩ := (ioTrapCheck_iff context).1 hcheck
  obtain ⟨hone, hmax, -⟩ := and_of_mem_mLengthTable _ hlength
  have hmasked : (context.address &&& 0xFFFC) &&& 3 = 0 := by
    rw [BitVec.and_assoc]
    exact BitVec.and_zero
  have hnat : (context.length.setWidth 32).toNat = context.length.toNat := by
    rw [BitVec.toNat_setWidth]
    exact Nat.mod_eq_of_lt (by omega)
  have hsum := Nat.div_add_mod' context.address.toNat 4
  unfold decodedBase decodedLength
  rw [trpregAd_lowDword hmasked, setWidth_dword, trpregUsedLength_lowDword, trpregHighDword]
  rcases Nat.lt_or_ge context.length.toNat 4 with hlt | hge
  · have hless : context.length.setWidth 32 < 4#32 := by
      rw [BitVec.lt_def, hnat]
      exact hlt
    obtain ⟨code, hcode, heq⟩ := context.type.code_eq
    have hoffset : context.address.toNat % 4 < 4 := Nat.mod_lt _ (by decide)
    have hmask := shortHighDword_ne _ hlt _ hoffset code hcode ⟨hone, hshort hlt⟩
    have hlow := lowBitSet32_shortHighDword _ hlt _ hoffset code hcode ⟨hone, hshort hlt⟩
    have hhigh := bitSet32_shortHighDword _ hlt _ hoffset code hcode ⟨hone, hshort hlt⟩
    rw [if_pos hless, hnat, heq]
    change (if shortHighDword context.length.toNat (context.address.toNat % 4) code &&& 0xF0 ≠ 0xF0
        then _ else _) = _ ∧
      (if shortHighDword context.length.toNat (context.address.toNat % 4) code &&& 0xF0 ≠ 0xF0
        then BitVec.ofInt 32
          (highBitSet32 (shortHighDword context.length.toNat (context.address.toNat % 4) code &&& 0xF0)
            - lowBitSet32
              (shortHighDword context.length.toNat (context.address.toNat % 4) code &&& 0xF0) + 1)
        else _) = _
    rw [if_pos hmask, if_pos hmask, hhigh, BitVec.ofInt_natCast, BitVec.ofNat_toNat]
    refine ⟨?_, rfl⟩
    change BitVec.ofNat 64 _ + BitVec.ofInt 64 (lowBitSet32
      ((shortHighDword context.length.toNat (context.address.toNat % 4) code &&& 0xF0) >>> 4)) = _
    rw [hlow, BitVec.ofInt_natCast, ← BitVec.ofNat_add, hsum, BitVec.ofNat_toNat]
  · have hnot : ¬ context.length.setWidth 32 < 4#32 := by
      rw [BitVec.lt_def, hnat]
      exact Nat.not_lt.2 hge
    have hdvd : 4 ∣ context.address.toNat := by
      obtain ⟨k, -, hk⟩ := exists_two_pow _ hlength hge
      have htwo : 2 ≤ k := by
        by_contra hlt
        have hle : 2 ^ k ≤ 2 ^ 1 := Nat.pow_le_pow_right (by decide) (by omega)
        omega
      exact (pow_dvd_pow 2 htwo).trans (hk ▸ hlong hge)
    rw [if_neg hnot, and_byteEnables_long, if_neg (not_not.2 rfl), if_neg (not_not.2 rfl),
      Nat.div_mul_cancel hdvd, BitVec.ofNat_toNat]
    have hmaskLength := mask_add_four _ hlength hge
    rw [BitVec.ofNat_toNat] at hmaskLength
    exact ⟨rfl, hmaskLength⟩

/-! ### What a registration leaves -/

theorem trpregHigh_ne : ∀ {n m : Fin ioTrapHandlerNum}, trpregHigh m ≠ dmiIotHigh n := by decide

/-- The low dword of the trap that is programmed, also after the record is inserted. -/
theorem low_programTrap (s : IoTrapInstance) (alloc : IoTrapAllocation) (n : Fin ioTrapHandlerNum)
    (context : IoTrapContext) (base : BitVec 16) (usedLength : BitVec 32) (b : Bool)
    (callback : ℕ) :
    (insertIoTrapRecord (programTrap s alloc n context base usedLength b) context callback n).low n
      = trpregLowDword usedLength base := by
  show pchPcrRead32 (setIoTrapHighDword (setIoTrapLowDword _ n _) n _) (trpreg n) = _
  rw [trpreg_setIoTrapHighDword, trpreg_setIoTrapLowDword, if_pos rfl]

theorem high_programTrap (s : IoTrapInstance) (alloc : IoTrapAllocation) (n : Fin ioTrapHandlerNum)
    (context : IoTrapContext) (base : BitVec 16) (usedLength : BitVec 32) (b : Bool)
    (callback : ℕ) :
    (insertIoTrapRecord (programTrap s alloc n context base usedLength b) context callback n).high n
      = trpregHighDword context usedLength := by
  show pchPcrRead32 (pchPcrWrite32 (pchPcrWrite32 _ (trpregHigh n) _) (dmiIotHigh n) _)
    (trpregHigh n) = _
  rw [pchPcrRead32_write32_of_ne trpregHigh_ne, pchPcrRead32_write32_self]

/-- A registration with an explicit address takes a free trap, and leaves its range there. -/
theorem ioTrapRegister_explicit {alloc : IoTrapAllocation} {callback link : ℕ}
    {context' : IoTrapContext} (haddress : context.address ≠ 0)
    (h : ioTrapRegister s alloc callback context = (.success, s', some (link, context'))) :
    context' = context ∧ ∃ n, (⟨link, context, callback, n⟩ : IoTrapRecord) ∈ s'.callbackDataBase ∧
      s'.mergeDisable n = true ∧ (s'.low n).getLsbD 0 = true ∧ s'.HasRange context n := by
  rw [ioTrapRegister] at h
  split at h
  · cases (Prod.mk.inj h).1
  rename_i hcheck
  rw [Bool.not_eq_true', Bool.not_eq_false] at hcheck
  split at h
  · cases (Prod.mk.inj h).1
  split at h
  · rename_i t c n hsearch
    split at h
    · cases (Prod.mk.inj h).1
    obtain ⟨-, hs', hresult⟩ := (Prod.mk.injEq _ _ _ _).mp h |>.imp_right (Prod.mk.injEq _ _ _ _).mp
    obtain ⟨rfl, rfl⟩ := Prod.mk.inj (Option.some.inj hresult)
    rcases searchTrap_take hsearch with ⟨-, htake⟩ | ⟨-, hshare⟩
    · rw [takeFreeTrap, if_neg haddress] at htake
      obtain ⟨rfl, rfl⟩ := TrapAnswer.take.inj htake
      subst hs'
      refine ⟨rfl, n, List.mem_append_right _ List.mem_cons_self, Function.update_self _ _ _, ?_, ?_⟩
      · rw [low_programTrap, trpregLowDword_getLsbD_zero]
      · rw [IoTrapInstance.HasRange, low_programTrap, high_programTrap]
        exact decoded_encoded hcheck
    · rw [shareUsedTrap, if_pos (Or.inl haddress)] at hshare
      cases hshare
  · cases (Prod.mk.inj (Prod.mk.inj h).2).2
  · cases (Prod.mk.inj (Prod.mk.inj h).2).2

/-! ### Pausing, then resuming -/

/-- Nothing changes but registers, and of these only the low dword of the trap in both places. -/
structure OnlyTrap (t : IoTrapInstance) (n : Fin ioTrapHandlerNum) (t' : IoTrapInstance) : Prop where
  setHw : t' = t.setHw t'.smi.hw
  register : ∀ addr, addr ≠ trpreg n → addr ≠ dmiIot n → t'.smi.hw addr = t.smi.hw addr

/-- Pausing the child turns the SMI of its trap off, and resuming it then puts both dwords of every
trap back. -/
def PausesAndResumes (t : IoTrapInstance) (link : ℕ) (n : Fin ioTrapHandlerNum) : Prop :=
  ∃ p q, ioTrapControlPause t (some link) = (.success, p) ∧
    ioTrapControlResume p (some link) = (.success, q) ∧
    OnlyTrap t n p ∧ (p.low n).getLsbD 0 = false ∧
    OnlyTrap t n q ∧ ∀ m, q.low m = t.low m ∧ q.high m = t.high m

theorem onlyTrap_setLow (t : IoTrapInstance) (n : Fin ioTrapHandlerNum) (value : BitVec 32) :
    OnlyTrap t n (t.setHw (setIoTrapLowDword t.smi.hw n value)) := by
  refine ⟨rfl, fun addr hlow hdmi ↦ ?_⟩
  show (if addr = dmiIot n then _ else if addr = trpreg n then _ else t.smi.hw addr) = _
  rw [if_neg hdmi, if_neg hlow]

theorem OnlyTrap.trans {t'' : IoTrapInstance} (h : OnlyTrap s n t) (h' : OnlyTrap t n t'') :
    OnlyTrap s n t'' := by
  refine ⟨?_, fun addr hlow hdmi ↦
    (h'.register addr hlow hdmi).trans (h.register addr hlow hdmi)⟩
  rw [h'.setHw, h.setHw]
  rfl

theorem trpregHigh_ne_trpreg : ∀ {n m : Fin ioTrapHandlerNum}, trpregHigh m ≠ trpreg n := by decide

theorem trpregHigh_ne_dmiIot : ∀ {n m : Fin ioTrapHandlerNum}, trpregHigh m ≠ dmiIot n := by decide

theorem OnlyTrap.high (h : OnlyTrap s n t) (m : Fin ioTrapHandlerNum) : t.high m = s.high m :=
  congrArg (BitVec.setWidth 32) (h.register _ trpregHigh_ne_trpreg trpregHigh_ne_dmiIot)

theorem low_setLow (t : IoTrapInstance) (n m : Fin ioTrapHandlerNum) (value : BitVec 32) :
    (t.setHw (setIoTrapLowDword t.smi.hw n value)).low m = if m = n then value else t.low m :=
  trpreg_setIoTrapLowDword value

/-- The SMI enable is not part of what is decoded. -/
theorem decoded_congr {low low' : BitVec 32}
    (h : ∀ i, i ≠ 0 → low'.getLsbD i = low.getLsbD i) (high : BitVec 32) :
    decodedBase low' high = decodedBase low high ∧
      decodedLength low' high = decodedLength low high := by
  have had : trpregAd low' = trpregAd low := by
    refine BitVec.eq_of_getLsbD_eq fun i _ ↦ ?_
    rw [trpregAd, trpregAd, BitVec.getLsbD_and, BitVec.getLsbD_and]
    by_cases hi : i = 0
    · rw [hi, show (0xFFFC : BitVec 32).getLsbD 0 = false by decide, Bool.and_false, Bool.and_false]
    · rw [h i hi]
  have hlength : trpregUsedLength low' = trpregUsedLength low := by
    refine congrArg (fun x : BitVec 32 ↦ (x &&& 0xFC) + 4) (BitVec.eq_of_getLsbD_eq fun i _ ↦ ?_)
    rw [BitVec.getLsbD_ushiftRight, BitVec.getLsbD_ushiftRight, h _ (by omega)]
  rw [decodedBase, decodedBase, decodedLength, decodedLength, had, hlength]
  exact ⟨rfl, rfl⟩

/-- The trap that is found is the first of those with an explicit address and this range. -/
theorem controlledTrap_eq (hmerge : t.mergeDisable n = true) (hrange : t.HasRange context n)
    (hfirst : ∀ m < n, t.mergeDisable m = true → ¬ t.HasRange context m) :
    controlledTrap t context = some n := by
  rw [controlledTrap, find?_finRange_eq_some_iff]
  refine ⟨decide_eq_true ⟨hmerge, hrange⟩, fun m hm ↦ decide_eq_false ?_⟩
  rintro ⟨hmerge', hrange'⟩
  exact hfirst m hm hmerge' hrange'

/-- One call for a child whose trap is found, and is in the other state. -/
theorem ioTrapControl_eq (resume : Bool) {link : ℕ} {r : IoTrapRecord}
    (hrecord : t.callbackDataBase.find? (fun r ↦ r.link == link) = some r)
    (haddress : r.context.address ≠ 0) (hlength : r.context.length ≠ 0)
    (htrap : controlledTrap t r.context = some n) (hother : (t.low n).getLsbD 0 = !resume) :
    ioTrapControl resume t (some link) =
      (.success, t.setHw (setIoTrapLowDword t.smi.hw n
        (if resume then t.low n ||| 1 else t.low n &&& ~~~1))) := by
  have hne : ¬ (t.low n).getLsbD 0 = resume := by
    rw [hother]
    cases resume <;> decide
  rw [ioTrapControl, hrecord]
  dsimp only
  rw [if_neg (not_or.2 ⟨haddress, hlength⟩), htrap]
  dsimp only
  rw [if_neg hne]

/-- **Pausing and resuming** a child whose trap holds its range, and no trap before it does. -/
theorem pausesAndResumes {link : ℕ} {r : IoTrapRecord}
    (hrecord : t.callbackDataBase.find? (fun r ↦ r.link == link) = some r)
    (haddress : r.context.address ≠ 0) (hlength : r.context.length ≠ 0)
    (hmerge : t.mergeDisable n = true) (henabled : (t.low n).getLsbD 0 = true)
    (hrange : t.HasRange r.context n)
    (hfirst : ∀ m < n, t.mergeDisable m = true → ¬ t.HasRange r.context m) :
    PausesAndResumes t link n := by
  obtain ⟨p, hp⟩ : ∃ p, p = t.setHw (setIoTrapLowDword t.smi.hw n (t.low n &&& ~~~1)) := ⟨_, rfl⟩
  have hpause : ioTrapControlPause t (some link) = (.success, p) :=
    (ioTrapControl_eq false hrecord haddress hlength (controlledTrap_eq hmerge hrange hfirst)
      henabled).trans (congrArg _ hp.symm)
  have honly : OnlyTrap t n p := hp ▸ onlyTrap_setLow t n _
  have hlow : ∀ m, p.low m = if m = n then t.low n &&& ~~~1 else t.low m := fun m ↦
    hp ▸ low_setLow t n m _
  have hbit : ∀ i, (t.low n &&& ~~~1).getLsbD i = (decide (i ≠ 0) && (t.low n).getLsbD i) := by
    intro i
    rw [BitVec.getLsbD_and]
    by_cases hi : i < 32
    · rw [BitVec.getLsbD_not, show (1 : BitVec 32).getLsbD i = decide (i = 0) from ?_]
      · by_cases hzero : i = 0 <;> simp [hi, hzero]
      · exact (BitVec.getLsbD_one).trans (by simp)
    · rw [BitVec.getLsbD_of_ge (t.low n) i (by omega), Bool.false_and, Bool.and_false]
  have hrange' : ∀ m, p.HasRange r.context m ↔ t.HasRange r.context m := by
    intro m
    rw [IoTrapInstance.HasRange, IoTrapInstance.HasRange, honly.high m, hlow m]
    by_cases hm : m = n
    · subst hm
      rw [if_pos rfl]
      have hagree : ∀ i, i ≠ 0 → (t.low m &&& ~~~1).getLsbD i = (t.low m).getLsbD i := fun i hi ↦
        (hbit i).trans (by rw [decide_eq_true hi, Bool.true_and])
      obtain ⟨hbase, hused⟩ := decoded_congr hagree (t.high m)
      rw [hbase, hused]
    · rw [if_neg hm]
  have hpaused : (p.low n).getLsbD 0 = false := by
    rw [hlow n, if_pos rfl, hbit]
    rfl
  have hpmerge : p.mergeDisable = t.mergeDisable := hp ▸ rfl
  have hprecord : p.callbackDataBase = t.callbackDataBase := hp ▸ rfl
  rw [← hprecord] at hrecord
  have hresume := ioTrapControl_eq true hrecord haddress hlength
    (controlledTrap_eq (by rw [hpmerge]; exact hmerge) ((hrange' n).2 hrange)
      fun m hm hmerge' h ↦ hfirst m hm (by rwa [hpmerge] at hmerge') ((hrange' m).1 h)) hpaused
  refine ⟨p, _, hpause, hresume, honly, hpaused, honly.trans (onlyTrap_setLow p n _), fun m ↦ ⟨?_, ?_⟩⟩
  · rw [low_setLow]
    by_cases hm : m = n
    · subst hm
      rw [if_pos rfl, if_pos rfl, hlow m, if_pos rfl]
      refine BitVec.eq_of_getLsbD_eq fun i hi ↦ ?_
      rw [BitVec.getLsbD_or, hbit, show (1 : BitVec 32).getLsbD i = decide (i = 0) from
        (BitVec.getLsbD_one).trans (by simp)]
      by_cases hzero : i = 0
      · rw [hzero, henabled]
        rfl
      · simp [hzero]
    · rw [if_neg hm, hlow m, if_neg hm]
  · exact ((onlyTrap_setLow p n _).high m).trans (honly.high m)

/-- The child's trap is as its registration has left it, and none before it has its range. -/
structure KeepsTrap (s' : IoTrapInstance) (r : IoTrapRecord) (t : IoTrapInstance) : Prop where
  record : t.callbackDataBase.find? (fun r' ↦ r'.link == r.link) = some r
  low : t.low r.trap = s'.low r.trap
  high : t.high r.trap = s'.high r.trap
  mergeDisable : t.mergeDisable r.trap = true
  first : ∀ m < r.trap, t.mergeDisable m = true → ¬ t.HasRange r.context m

/-- The range of the child is what is decoded, and its trap can be paused and resumed as long as it
keeps it. -/
def RoundTrips (s' : IoTrapInstance) (r : IoTrapRecord) : Prop :=
  s'.HasRange r.context r.trap ∧ ∀ t, KeepsTrap s' r t → PausesAndResumes t r.link r.trap

/-- **The round trip** of every registration with an explicit address. -/
theorem ioTrapRegister_roundTrips {alloc : IoTrapAllocation} {callback link : ℕ}
    {context' : IoTrapContext} (haddress : context.address ≠ 0)
    (h : ioTrapRegister s alloc callback context = (.success, s', some (link, context'))) :
    ∃ r ∈ s'.callbackDataBase, r.link = link ∧ r.context = context ∧ RoundTrips s' r := by
  obtain ⟨-, n, hmem, -, henabled, hrange⟩ := ioTrapRegister_explicit haddress h
  refine ⟨_, hmem, rfl, rfl, hrange, fun t ht ↦ ?_⟩
  have hlength : context.length ≠ 0 := by
    intro hzero
    have hcheck : ioTrapCheck context = true := by
      by_contra hno
      rw [ioTrapRegister, if_pos (by simpa using hno)] at h
      cases (Prod.mk.inj h).1
    have hone := one_le_of_ioTrapCheck hcheck
    rw [hzero] at hone
    exact absurd hone (by decide)
  refine pausesAndResumes ht.record haddress hlength ht.mergeDisable (ht.low ▸ henabled) ?_ ht.first
  rw [IoTrapInstance.HasRange, ht.low, ht.high]
  exact hrange

/-- A child for the port 0x101. -/
def onePort : EfiStatus × IoTrapInstance × Option (ℕ × IoTrapContext) :=
  ioTrapRegister .initial recordsAllocated 1 ⟨0x101, 1, .readTrap⟩

theorem onePort_eq : onePort = (.success, onePort.2.1, some (1, ⟨0x101, 1, .readTrap⟩)) := by
  have hstatus : onePort.1 = .success := by decide
  have hresult : onePort.2.2 = some (1, ⟨0x101, 1, .readTrap⟩) := by decide
  exact Prod.ext hstatus (Prod.ext rfl hresult)

theorem ioTrapRegister_roundTrips_onePort :
    ∃ r ∈ onePort.2.1.callbackDataBase, r.link = 1 ∧ r.context = ⟨0x101, 1, .readTrap⟩ ∧
      RoundTrips onePort.2.1 r :=
  ioTrapRegister_roundTrips (by decide) onePort_eq

/-- The second child of the ports from 0x100 on. -/
def secondChild : EfiStatus × IoTrapInstance × Option (ℕ × IoTrapContext) :=
  ioTrapRegister (ioTrapNext .initial (.register recordsAllocated 1 ⟨0x100, 4, .writeTrap⟩))
    recordsAllocated 2 ⟨0x100, 4, .readTrap⟩

/-- The length that is decoded for one port is not that of the dword; and with two children of one
range, pausing the second changes the trap of the first. -/
theorem not_decodesDword_and_not_pausesOwn :
    (¬ ∀ (s : IoTrapInstance) (alloc : IoTrapAllocation) (callback : ℕ) (context : IoTrapContext)
        (s' : IoTrapInstance) (link : ℕ) (context' : IoTrapContext), context.address ≠ 0 →
        ioTrapRegister s alloc callback context = (.success, s', some (link, context')) →
        ∀ r ∈ s'.callbackDataBase, r.link = link →
          decodedBase (s'.low r.trap) (s'.high r.trap) = (trpregAd (s'.low r.trap)).setWidth 64 ∧
            decodedLength (s'.low r.trap) (s'.high r.trap) = trpregUsedLength (s'.low r.trap)) ∧
    ¬ ∀ (s : IoTrapInstance) (alloc : IoTrapAllocation) (callback : ℕ) (context : IoTrapContext)
        (s' : IoTrapInstance) (link : ℕ) (context' : IoTrapContext), context.address ≠ 0 →
        ioTrapRegister s alloc callback context = (.success, s', some (link, context')) →
        ∀ r ∈ s'.callbackDataBase, r.link = link → PausesAndResumes s' link r.trap := by
  refine ⟨fun hall ↦ ?_, fun hall ↦ ?_⟩
  · have hdecoded := (hall .initial recordsAllocated 1 ⟨0x101, 1, .readTrap⟩ onePort.2.1 1 _
      (by decide) onePort_eq ⟨1, ⟨0x101, 1, .readTrap⟩, 1, 0⟩ (by decide) rfl).2
    exact absurd hdecoded (by decide)
  · have hstatus : secondChild.1 = .success := by decide
    have hresult : secondChild.2.2 = some (3, ⟨0x100, 4, .readTrap⟩) := by decide
    have hpauses := hall _ recordsAllocated 2 ⟨0x100, 4, .readTrap⟩ secondChild.2.1 3 _ (by decide)
      (Prod.ext hstatus (Prod.ext rfl hresult)) ⟨3, ⟨0x100, 4, .readTrap⟩, 2, 1⟩ (by decide) rfl
    obtain ⟨p, -, hpause, -, honly, -⟩ := hpauses
    have hfirst := honly.register (trpreg 0) (by decide) (by decide)
    have hp : p = (ioTrapControlPause secondChild.2.1 (some 3)).2 := (congrArg Prod.snd hpause).symm
    rw [hp] at hfirst
    exact absurd hfirst (by decide)

end PurleyFirmware.PchSmi
