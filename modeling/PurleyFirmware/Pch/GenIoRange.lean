import PurleyFirmware.Foundation.MaskMatch
import PurleyFirmware.Foundation.Runs
import PurleyFirmware.Pch.DmiMirror

/-!
# Generic I/O ranges of the first slave

What `PchLpcGenIoRangeSet` grants should stay decoded. A register decodes the ports that agree with
its base outside its mask, which is the range it is meant for only when the length is a power of two
and the base a multiple of it. `RangesDecoded` says what should hold, and
`rangesDecoded_of_reachable` proves it of every state that a run of safe calls reaches.

The checks of the function do not make every call safe. They let pass addresses that are not aligned
to the length, and the length zero; a request that sticks out of the register that is taken to cover
it is answered with success; and a merged range need not have a length the mask can express. Last,
base zero is both an allowed range and the mark of a free register, so that such a range may be
overwritten.
-/

namespace PurleyFirmware.Pch

/-! ### What a register decodes -/

/-- The register decodes the port: it is enabled, and the port agrees with the base on every bit
above bit 1 that is not in the mask. -/
def GenIoRange.Decodes (r : GenIoRange) (p : ℕ) : Prop :=
  r.enable = true ∧ MaskMatch 2 (r.length - 4) r.baseAddr p

/-- Some register of the first slave decodes the port. -/
def DecodesPort (s : DecodeRegisters) (p : ℕ) : Prop :=
  ∃ i, (genIoRange (s.genDec i)).Decodes p

/-- A range the mask can express. -/
structure GenIoRange.WellFormed (r : GenIoRange) : Prop where
  /-- The length is a power of two, 256 at most. -/
  length_eq : ∃ k ≤ 8, r.length = 2 ^ k
  /-- The base is aligned to it. -/
  length_dvd : r.length ∣ r.baseAddr

theorem four_le_length (data32 : BitVec 32) : 4 ≤ (genIoRange data32).length := by
  show 4 ≤ _ + 4
  omega

/-- **A register in good form decodes its range.** -/
theorem GenIoRange.WellFormed.decodes_iff {r : GenIoRange} (hr : r.WellFormed)
    (hlength : 4 ≤ r.length) (hen : r.enable = true) {p : ℕ} :
    r.Decodes p ↔ r.baseAddr ≤ p ∧ p < r.baseAddr + r.length := by
  obtain ⟨⟨k, -, hk⟩, hdvd⟩ := hr
  rw [hk] at hlength hdvd
  have hlow : 2 ≤ k := by
    by_contra hlt
    have hlt' : 2 ^ k < 2 ^ 2 := Nat.pow_lt_pow_right (by omega) (by omega)
    omega
  rw [GenIoRange.Decodes, hk, and_iff_right hen]
  exact maskMatch_block_iff hlow hdvd

/-- The length that a register comes to hold for a given length: whole dwords, modulo 256, with 256
for zero. -/
def maskLength (length : ℕ) : ℕ := (length + 255) % 256 / 4 * 4 + 4

theorem and_lengthMask (x : ℕ) : x &&& 0xFC = x % 256 / 4 * 4 := by
  have hmask : ∀ i, (0xFC : ℕ).testBit i = (decide (i < 8) && decide (2 ≤ i)) :=
    testBit_blockMask (show 2 ≤ 8 by decide)
  refine Nat.eq_of_testBit_eq fun i ↦ ?_
  have hdiv : x % 256 / 4 * 4 = x % 2 ^ 8 / 2 ^ 2 * 2 ^ 2 := rfl
  rw [Nat.testBit_and, hmask, hdiv, Nat.testBit_mul_two_pow]
  rcases lt_or_ge i 2 with hlow | hlow
  · rw [decide_eq_false (by omega : ¬ 2 ≤ i)]
    simp
  · rw [Nat.testBit_div_two_pow, Nat.testBit_mod_two_pow, decide_eq_true hlow,
      show i - 2 + 2 = i by omega]
    simp [Bool.and_comm]

section Data

variable {address : BitVec 16}

theorem genIoRange_genIoData_baseAddr (length : BitVec 64) (h : address &&& 3 = 0) :
    (genIoRange (genIoData address length)).baseAddr = address.toNat := by
  have hvalue : ∀ i, 2 ≤ i → i < 16 →
      (genIoData address length).getLsbD i = address.getLsbD i := by
    intro i hlow hhigh
    have hmask : ∀ i < 16, (0xFC0000 : BitVec 64).getLsbD i = false := by decide
    have hone : (1 : BitVec 32).getLsbD i = false := by
      simp [show i ≠ 0 by omega]
    rw [genIoData, BitVec.getLsbD_or, BitVec.getLsbD_or, BitVec.getLsbD_setWidth,
      BitVec.getLsbD_and, hmask i hhigh, hone, BitVec.getLsbD_setWidth, Bool.and_false,
      Bool.and_false, Bool.false_or, Bool.or_false, decide_eq_true (by omega), Bool.true_and]
  show (genIoData address length &&& 0xFFFC).toNat = address.toNat
  rw [and_portMask_eq h hvalue, BitVec.toNat_setWidth]
  exact Nat.mod_eq_of_lt (by omega)

theorem genIoRange_genIoData_length (address : BitVec 16) (length : BitVec 64) :
    (genIoRange (genIoData address length)).length = maskLength length.toNat := by
  have hbits : (genIoData address length &&& 0xFC0000) >>> 16 =
      ((length - 1) &&& 0xFC).setWidth 32 := by
    have hmask : ∀ i < 16, (0xFC0000 : BitVec 32).getLsbD (16 + i) = (0xFC : BitVec 64).getLsbD i ∧
        (0xFC0000 : BitVec 64).getLsbD (16 + i) = (0xFC : BitVec 64).getLsbD i := by
      decide
    refine BitVec.eq_of_getLsbD_eq fun i hi ↦ ?_
    rw [BitVec.getLsbD_ushiftRight, BitVec.getLsbD_and, BitVec.getLsbD_setWidth,
      BitVec.getLsbD_and, decide_eq_true hi, Bool.true_and]
    rcases lt_or_ge i 16 with hlow | hhigh
    · have haddress : address.getLsbD (16 + i) = false := BitVec.getLsbD_of_ge _ _ (by omega)
      have hone : (1 : BitVec 32).getLsbD (16 + i) = false := by simp
      have hshift : ((length - 1) <<< 16).getLsbD (16 + i) = (length - 1).getLsbD i := by
        rw [BitVec.getLsbD_shiftLeft, decide_eq_true (by omega), decide_eq_false (by omega),
          Nat.add_sub_cancel_left]
        rfl
      rw [genIoData, BitVec.getLsbD_or, BitVec.getLsbD_or, BitVec.getLsbD_setWidth,
        BitVec.getLsbD_and, BitVec.getLsbD_setWidth, hshift, haddress, hone, (hmask i hlow).1,
        (hmask i hlow).2, decide_eq_true (by omega)]
      simp
    · have hmaskHigh : ∀ i < 32, 16 ≤ i → (0xFC : BitVec 64).getLsbD i = false := by decide
      rw [hmaskHigh i hi hhigh, BitVec.getLsbD_of_ge _ _ (by omega : 32 ≤ 16 + i), Bool.false_and,
        Bool.and_false]
  show ((genIoData address length &&& 0xFC0000) >>> 16).toNat + 4 = _
  rw [hbits, BitVec.toNat_setWidth, BitVec.toNat_and, BitVec.toNat_sub,
    show (0xFC : BitVec 64).toNat = 0xFC from rfl, and_lengthMask,
    show (1 : BitVec 64).toNat = 1 from rfl, maskLength]
  omega

theorem genIoRange_genIoData_enable (address : BitVec 16) (length : BitVec 64) :
    (genIoRange (genIoData address length)).enable = true := by
  show (genIoData address length).getLsbD 0 = true
  simp [genIoData]

end Data

/-! ### Runs -/

/-- The first slave's registers, with what was granted so far and the registers as they were after
each successful call. -/
structure GenIoRun where
  /-- The registers. -/
  regs : DecodeRegisters
  /-- The requests that were granted. -/
  granted : List (BitVec 16 × BitVec 64)
  /-- The registers after each of them. -/
  seen : List DecodeRegisters

/-- One call. -/
def genIoNext (s : GenIoRun) (call : BitVec 16 × BitVec 64) : GenIoRun :=
  let r := pchLpcGenIoRangeSet s.regs call.1 call.2 lpcEspiFirstSlave
  if r.1 = .success then ⟨r.2, call :: s.granted, r.2 :: s.seen⟩ else { s with regs := r.2 }

/-- The calls for the first slave, from four empty registers. -/
def genIoSystem : LabelledSystem GenIoRun (BitVec 16 × BitVec 64) where
  init s := (∀ i, s.regs.genDec i = 0) ∧ s.granted = [] ∧ s.seen = []
  step s call s' := s' = genIoNext s call

/-- What was granted is decoded, what was decoded still is, and every register in use is in good
form. -/
structure RangesDecoded (s : GenIoRun) : Prop where
  /-- Every port of every granted request is decoded. -/
  granted : ∀ call ∈ s.granted, ∀ p, call.1.toNat ≤ p → p < call.1.toNat + call.2.toNat →
    DecodesPort s.regs p
  /-- Every port that was decoded after a successful call is decoded. -/
  seen : ∀ regs ∈ s.seen, ∀ p, DecodesPort regs p → DecodesPort s.regs p
  /-- Every enabled register has a power of two for its length, and an aligned base. -/
  wellFormed : ∀ i, (genIoRange (s.regs.genDec i)).enable = true →
    (genIoRange (s.regs.genDec i)).WellFormed

/-- Programming the register is safe: the length to be programmed, in whole dwords, is a power of
two up to 256 that divides the address; and a register that is taken for free is disabled, or its
range is within the new one. -/
structure ProgramSafe (r : GenIoRange) (address : BitVec 16) (length : BitVec 64) : Prop where
  /-- The mask can hold the length. -/
  le_maskLength : length.toNat ≤ maskLength length.toNat
  /-- It is a power of two. -/
  maskLength_eq : ∃ k ≤ 8, maskLength length.toNat = 2 ^ k
  /-- The address is aligned. -/
  maskLength_dvd : maskLength length.toNat ∣ address.toNat
  /-- No range from port 0 is given up. -/
  free : r.baseAddr = 0 → r.enable = false ∨ address = 0 ∧ r.length ≤ maskLength length.toNat

instance (r : GenIoRange) (address : BitVec 16) (length : BitVec 64) :
    Decidable (ProgramSafe r address length) :=
  decidable_of_iff (length.toNat ≤ maskLength length.toNat ∧
      (∃ k ≤ 8, maskLength length.toNat = 2 ^ k) ∧ maskLength length.toNat ∣ address.toNat ∧
      (r.baseAddr = 0 → r.enable = false ∨ address = 0 ∧ r.length ≤ maskLength length.toNat))
    ⟨fun ⟨h₁, h₂, h₃, h₄⟩ ↦ ⟨h₁, h₂, h₃, h₄⟩, fun ⟨h₁, h₂, h₃, h₄⟩ ↦ ⟨h₁, h₂, h₃, h₄⟩⟩

/-- The condition on a branch: a request that is taken to be covered is within some register in use;
and if a register is programmed, that is safe. -/
def GenIoChoice.Safe (s : DecodeRegisters) (call : BitVec 16 × BitVec 64) : GenIoChoice → Prop
  | .done => ∃ i, (genIoRange (s.genDec i)).baseAddr ≠ 0 ∧
      (genIoRange (s.genDec i)).baseAddr ≤ call.1.toNat ∧
      call.1.toNat + call.2.toNat ≤
        (genIoRange (s.genDec i)).baseAddr + (genIoRange (s.genDec i)).length
  | .full => True
  | .program i address length => ¬ s.Locked → ProgramSafe (genIoRange (s.genDec i)) address length

instance (s : DecodeRegisters) (call : BitVec 16 × BitVec 64) :
    (choice : GenIoChoice) → Decidable (choice.Safe s call)
  | .done => inferInstanceAs (Decidable (∃ _, _))
  | .full => inferInstanceAs (Decidable True)
  | .program _ _ _ => inferInstanceAs (Decidable (_ → _))

/-- The condition on a call: if it passes the argument checks, its branch is safe. -/
def GenIoSafe (s : GenIoRun) (call : BitVec 16 × BitVec 64) : Prop :=
  genIoCheck call.1 call.2 = true → (chooseGenIo s.regs call.1 call.2).Safe s.regs call

instance (s : GenIoRun) (call : BitVec 16 × BitVec 64) : Decidable (GenIoSafe s call) :=
  inferInstanceAs (Decidable (_ → _))

/-! ### The choice of a register -/

section Choice

variable {s : DecodeRegisters} {address address' : BitVec 16} {length length' : BitVec 64}
  {i : Fin pchLpcGenIoRangeMax}

/-- **Which register is programmed**, and with what. -/
theorem chooseGenIo_eq_program (h : chooseGenIo s address length = .program i address' length') :
    (genIoRange (s.genDec i)).baseAddr ≠ 0 ∧
        (address', length') = mergeRange address length (genIoRange (s.genDec i)) ∨
      (genIoRange (s.genDec i)).baseAddr = 0 ∧ address' = address ∧ length' = length := by
  have hget : pchLpcGenIoRangeGet s lpcEspiFirstSlave = fun i ↦ genIoRange (s.genDec i) := by
    funext j
    exact if_pos rfl
  rw [chooseGenIo, hget] at h
  dsimp only at h
  split at h
  · rename_i j hj
    have hfound := List.find?_some hj
    split at h
    · cases h
    · obtain ⟨rfl, rfl, rfl⟩ := GenIoChoice.program.inj h
      exact Or.inl ⟨(of_decide_eq_true hfound).1, rfl⟩
  · split at h
    · rename_i j hj
      have hfound := List.find?_some hj
      obtain ⟨rfl, rfl, rfl⟩ := GenIoChoice.program.inj h
      exact Or.inr ⟨of_decide_eq_true hfound, rfl, rfl⟩
    · cases h

theorem baseAddr_lt (data32 : BitVec 32) : (genIoRange data32).baseAddr < 2 ^ 16 := by
  show (data32 &&& 0xFFFC).toNat < _
  rw [BitVec.toNat_and]
  exact lt_of_le_of_lt Nat.and_le_right (by decide)

theorem length_le (data32 : BitVec 32) : (genIoRange data32).length ≤ 256 := by
  show ((data32 &&& 0xFC0000) >>> 16).toNat + 4 ≤ _
  rw [BitVec.toNat_ushiftRight, BitVec.toNat_and, Nat.shiftRight_eq_div_pow]
  have hle : data32.toNat &&& (0xFC0000 : BitVec 32).toNat ≤ 0xFC0000 := Nat.and_le_right
  omega

/-- **A merged range** spans the request and the register. -/
theorem mergeRange_spans {data32 : BitVec 32} (hlength : length.toNat ≤ 256)
    (h : (address', length') = mergeRange address length (genIoRange data32)) :
    address'.toNat ≤ address.toNat ∧ address'.toNat ≤ (genIoRange data32).baseAddr ∧
      address.toNat + length.toNat ≤ address'.toNat + length'.toNat ∧
      (genIoRange data32).baseAddr + (genIoRange data32).length ≤
        address'.toNat + length'.toNat := by
  have hbase := baseAddr_lt data32
  have hlen := length_le data32
  rw [mergeRange] at h
  obtain ⟨haddress, hlength'⟩ := Prod.mk.inj h
  rw [← haddress] at hlength'
  have hto : length'.toNat = max (address.toNat + length.toNat)
      ((genIoRange data32).baseAddr + (genIoRange data32).length) - address'.toNat := by
    rw [hlength', BitVec.toNat_ofNat]
    exact Nat.mod_eq_of_lt (by omega)
  split at haddress
  · have hto' : address'.toNat = (genIoRange data32).baseAddr := by
      rw [haddress, BitVec.toNat_ofNat]
      exact Nat.mod_eq_of_lt hbase
    omega
  · rw [haddress] at hto ⊢
    omega

end Choice

/-! ### Programming a register -/

/-- The registers of the first slave are in good form, and those that are not enabled are empty. -/
structure RegistersOk (s : DecodeRegisters) : Prop where
  /-- Enabled registers. -/
  wellFormed : ∀ i, (genIoRange (s.genDec i)).enable = true → (genIoRange (s.genDec i)).WellFormed
  /-- The others. -/
  unused : ∀ i, (genIoRange (s.genDec i)).enable = false → (genIoRange (s.genDec i)).baseAddr = 0

theorem RegistersOk.enable_of_ne {s : DecodeRegisters} (hs : RegistersOk s)
    {i : Fin pchLpcGenIoRangeMax} (hbase : (genIoRange (s.genDec i)).baseAddr ≠ 0) :
    (genIoRange (s.genDec i)).enable = true := by
  by_contra hen
  exact hbase (hs.unused i (by simpa using hen))

theorem and_three_eq_zero {address : BitVec 16} (h : 4 ∣ address.toNat) : address &&& 3 = 0 := by
  refine BitVec.eq_of_toNat_eq ?_
  rw [BitVec.toNat_and]
  show address.toNat &&& (2 ^ 2 - 1) = 0
  rw [Nat.and_two_pow_sub_one_eq_mod]
  omega

section Program

variable {s s' : DecodeRegisters} {i : Fin pchLpcGenIoRangeMax} {address : BitVec 16}
  {length : BitVec 64}

/-- What a safely programmed register holds. -/
theorem ProgramSafe.genIoRange_eq {r : GenIoRange} (h : ProgramSafe r address length) :
    genIoRange (genIoData address length) =
      ⟨address.toNat, maskLength length.toNat, true⟩ := by
  have hfour : 4 ∣ maskLength length.toNat :=
    ⟨(length.toNat + 255) % 256 / 4 + 1, by rw [maskLength]; omega⟩
  have hbase := genIoRange_genIoData_baseAddr length
    (and_three_eq_zero (hfour.trans h.maskLength_dvd))
  rw [← hbase, ← genIoRange_genIoData_length address, ← genIoRange_genIoData_enable address length]

theorem ProgramSafe.wellFormed {r : GenIoRange} (h : ProgramSafe r address length) :
    (⟨address.toNat, maskLength length.toNat, true⟩ : GenIoRange).WellFormed :=
  ⟨h.maskLength_eq, h.maskLength_dvd⟩

/-- **The programmed register decodes what it is meant for.** -/
theorem decodesPort_of_programmed (hs' : s'.genDec = Function.update s.genDec i
      (genIoData address length)) {r : GenIoRange} (h : ProgramSafe r address length) {p : ℕ}
    (hle : address.toNat ≤ p) (hlt : p < address.toNat + maskLength length.toNat) :
    DecodesPort s' p := by
  refine ⟨i, ?_⟩
  rw [hs', Function.update_self, h.genIoRange_eq]
  exact (h.wellFormed.decodes_iff (by show 4 ≤ _ + 4; omega) rfl).2 ⟨hle, hlt⟩

/-- **And nothing is given up for it**, if it spans the range that was there. -/
theorem decodesPort_mono (hs : RegistersOk s) (hs' : s'.genDec = Function.update s.genDec i
      (genIoData address length)) (h : ProgramSafe (genIoRange (s.genDec i)) address length)
    (hspan : (genIoRange (s.genDec i)).baseAddr ≠ 0 →
      address.toNat ≤ (genIoRange (s.genDec i)).baseAddr ∧
        (genIoRange (s.genDec i)).baseAddr + (genIoRange (s.genDec i)).length ≤
          address.toNat + length.toNat) {p : ℕ} (hp : DecodesPort s p) : DecodesPort s' p := by
  obtain ⟨j, hj⟩ := hp
  by_cases hji : j = i
  · subst hji
    obtain ⟨hle, hlt⟩ := ((hs.wellFormed j hj.1).decodes_iff (four_le_length _) hj.1).1 hj
    have hmask := h.le_maskLength
    by_cases hbase : (genIoRange (s.genDec j)).baseAddr = 0
    · -- the register counted as free, although it decodes a port
      obtain hen | ⟨haddress, hlength⟩ := h.free hbase
      · rw [hj.1] at hen
        cases hen
      · have hzero : address.toNat = 0 := by
          rw [haddress]
          rfl
        exact decodesPort_of_programmed hs' h (by omega) (by omega)
    · obtain ⟨hfirst, hlast⟩ := hspan hbase
      exact decodesPort_of_programmed hs' h (by omega) (by omega)
  · refine ⟨j, ?_⟩
    rw [hs', Function.update_of_ne hji]
    exact hj

theorem RegistersOk.program (hs : RegistersOk s) (hs' : s'.genDec = Function.update s.genDec i
      (genIoData address length)) {r : GenIoRange} (h : ProgramSafe r address length) :
    RegistersOk s' := by
  constructor
  · intro j hen
    rw [hs'] at hen ⊢
    by_cases hji : j = i
    · rw [hji, Function.update_self, h.genIoRange_eq]
      exact h.wellFormed
    · rw [Function.update_of_ne hji] at hen ⊢
      exact hs.wellFormed j hen
  · intro j hen
    rw [hs'] at hen ⊢
    by_cases hji : j = i
    · rw [hji, Function.update_self, h.genIoRange_eq] at hen
      cases hen
    · rw [Function.update_of_ne hji] at hen ⊢
      exact hs.unused j hen

end Program

/-! ### Every safe call -/

/-- A call that is not granted leaves the registers as they are. -/
theorem genIoNext_of_fail {s : GenIoRun} {call : BitVec 16 × BitVec 64} {status : EfiStatus}
    (h : pchLpcGenIoRangeSet s.regs call.1 call.2 lpcEspiFirstSlave = (status, s.regs))
    (hstatus : status ≠ .success) : genIoNext s call = s := by
  rw [genIoNext, h, if_neg hstatus]

theorem genIoNext_of_success {s : GenIoRun} {call : BitVec 16 × BitVec 64} {regs' : DecodeRegisters}
    (h : pchLpcGenIoRangeSet s.regs call.1 call.2 lpcEspiFirstSlave = (.success, regs')) :
    genIoNext s call = ⟨regs', call :: s.granted, regs' :: s.seen⟩ := by
  rw [genIoNext, h, if_pos rfl]

/-- **What a call may do**: nothing; grant the request as covered; or program a register. -/
theorem genIoNext_cases (s : GenIoRun) (call : BitVec 16 × BitVec 64) :
    genIoNext s call = s ∨
      genIoCheck call.1 call.2 = true ∧
        (chooseGenIo s.regs call.1 call.2 = .done ∧
            genIoNext s call = ⟨s.regs, call :: s.granted, s.regs :: s.seen⟩ ∨
          ∃ i address length regs', chooseGenIo s.regs call.1 call.2 = .program i address length ∧
            ¬ s.regs.Locked ∧
            regs'.genDec = Function.update s.regs.genDec i (genIoData address length) ∧
            genIoNext s call = ⟨regs', call :: s.granted, regs' :: s.seen⟩) := by
  obtain ⟨result, hset⟩ : ∃ result,
      pchLpcGenIoRangeSet s.regs call.1 call.2 lpcEspiFirstSlave = result := ⟨_, rfl⟩
  have hresult := hset
  rw [pchLpcGenIoRangeSet] at hresult
  rcases hcheck : genIoCheck call.1 call.2 with - | -
  · -- the arguments are refused
    rw [hcheck, if_pos rfl] at hresult
    exact Or.inl (genIoNext_of_fail (hset.trans hresult.symm) (by decide))
  · rw [hcheck, if_neg (show ¬ (!true) = true by decide), if_pos rfl] at hresult
    rcases hchoose : chooseGenIo s.regs call.1 call.2 with - | - | ⟨i, address, length⟩
    · rw [hchoose] at hresult
      exact Or.inr ⟨rfl, Or.inl ⟨rfl, genIoNext_of_success (hset.trans hresult.symm)⟩⟩
    · rw [hchoose] at hresult
      exact Or.inl (genIoNext_of_fail (hset.trans hresult.symm) (by decide))
    · -- a register is chosen, and written unless the cycle decoding is locked
      rw [hchoose] at hresult
      dsimp only at hresult
      by_cases hlock : s.regs.Locked
      · rw [if_pos hlock] at hresult
        exact Or.inl (genIoNext_of_fail (hset.trans hresult.symm) (by decide))
      · rw [if_neg hlock] at hresult
        exact Or.inr ⟨rfl, Or.inr ⟨i, address, length, _, rfl, hlock, rfl,
          genIoNext_of_success (hset.trans hresult.symm)⟩⟩

/-- **The next state**, if nothing is given up and the request is decoded. -/
theorem RangesDecoded.grant {s : GenIoRun} (h : RangesDecoded s) {regs' : DecodeRegisters}
    (hok : RegistersOk regs') (hmono : ∀ p, DecodesPort s.regs p → DecodesPort regs' p)
    {call : BitVec 16 × BitVec 64} (hcall : ∀ p, call.1.toNat ≤ p →
      p < call.1.toNat + call.2.toNat → DecodesPort regs' p) :
    RangesDecoded ⟨regs', call :: s.granted, regs' :: s.seen⟩ := by
  refine ⟨fun call' hcall' p hle hlt ↦ ?_, fun regs hregs p hp ↦ ?_, hok.wellFormed⟩
  · obtain rfl | hmem := List.mem_cons.1 hcall'
    · exact hcall p hle hlt
    · exact hmono p (h.granted call' hmem p hle hlt)
  · obtain rfl | hmem := List.mem_cons.1 hregs
    · exact hp
    · exact hmono p (h.seen regs hmem p hp)

/-- **A safe call keeps what was granted.** -/
theorem rangesDecoded_genIoNext {s : GenIoRun} (h : RangesDecoded s) (hok : RegistersOk s.regs)
    {call : BitVec 16 × BitVec 64} (hsafe : GenIoSafe s call) :
    RangesDecoded (genIoNext s call) ∧ RegistersOk (genIoNext s call).regs := by
  obtain heq | ⟨hcheck, hcase⟩ := genIoNext_cases s call
  · rw [heq]
    exact ⟨h, hok⟩
  · have hsafe := hsafe hcheck
    obtain ⟨hchoose, heq⟩ | ⟨i, address, length, regs', hchoose, hlock, hregs', heq⟩ := hcase
    · -- covered: the register that spans the request decodes it
      rw [hchoose] at hsafe
      obtain ⟨i, hbase, hfirst, hlast⟩ := hsafe
      have hen := hok.enable_of_ne hbase
      rw [heq]
      refine ⟨h.grant hok (fun _ hp ↦ hp) fun p hle hlt ↦ ⟨i, ?_⟩, hok⟩
      exact ((hok.wellFormed i hen).decodes_iff (four_le_length _) hen).2 ⟨by omega, by omega⟩
    · -- programmed: the new range spans the request and what the register decoded before
      rw [hchoose] at hsafe
      have hprogram := hsafe hlock
      have hmask := hprogram.le_maskLength
      have hlength : call.2.toNat ≤ 256 := by
        simp only [genIoCheck, Bool.and_eq_true, decide_eq_true_eq] at hcheck
        exact hcheck.1.2
      have hok' := hok.program hregs' hprogram
      rw [heq]
      refine ⟨h.grant hok' (fun p hp ↦ ?_) fun p hle hlt ↦ ?_, hok'⟩
      · refine decodesPort_mono hok hregs' hprogram (fun hbase ↦ ?_) hp
        obtain ⟨-, hmerge⟩ | ⟨hfree, -⟩ := chooseGenIo_eq_program hchoose
        · obtain ⟨-, hfirst, -, hlast⟩ := mergeRange_spans hlength hmerge
          exact ⟨hfirst, hlast⟩
        · exact absurd hfree hbase
      · obtain ⟨-, hmerge⟩ | ⟨-, rfl, rfl⟩ := chooseGenIo_eq_program hchoose
        · obtain ⟨hfirst, -, hlast, -⟩ := mergeRange_spans hlength hmerge
          exact decodesPort_of_programmed hregs' hprogram (by omega) (by omega)
        · exact decodesPort_of_programmed hregs' hprogram hle (by omega)

/-- Registers that are all empty are in good form. -/
theorem registersOk_of_eq_zero {s : DecodeRegisters} (h : ∀ i, s.genDec i = 0) : RegistersOk s := by
  have hempty : ∀ i, genIoRange (s.genDec i) = genIoRange 0 := fun i ↦ by rw [h]
  refine ⟨fun i hen ↦ ?_, fun i _ ↦ ?_⟩
  · rw [hempty] at hen
    cases hen
  · rw [hempty]
    rfl

/-- **Granted ranges stay decoded**, in every state of every run whose calls are all safe. -/
theorem rangesDecoded_of_reachable {s : GenIoRun}
    (h : genIoSystem.ReachableUnder GenIoSafe s) : RangesDecoded s := by
  have hinit : ∀ s : GenIoRun, genIoSystem.init s → RangesDecoded s ∧ RegistersOk s.regs := by
    rintro s ⟨hregs, hgranted, hseen⟩
    have hok := registersOk_of_eq_zero hregs
    refine ⟨⟨?_, ?_, hok.wellFormed⟩, hok⟩
    · rw [hgranted]
      exact fun _ hcall ↦ absurd hcall List.not_mem_nil
    · rw [hseen]
      exact fun _ hregs' ↦ absurd hregs' List.not_mem_nil
  -- one safe call keeps what was granted, and the registers in good form
  have hstep : ∀ (s : GenIoRun) (call : BitVec 16 × BitVec 64) (s' : GenIoRun),
      genIoSystem.ReachableUnder GenIoSafe s → RangesDecoded s ∧ RegistersOk s.regs →
        GenIoSafe s call → genIoSystem.step s call s' →
          RangesDecoded s' ∧ RegistersOk s'.regs := by
    rintro s call s' - ⟨hdecoded, hok⟩ hsafe rfl
    exact rangesDecoded_genIoNext hdecoded hok hsafe
  exact (h.invariant hinit hstep).1

/-- Before the first call. -/
def emptyGenIo : GenIoRun := ⟨clearedRegisters, [], []⟩

theorem init_emptyGenIo : genIoSystem.init emptyGenIo := ⟨fun _ ↦ rfl, rfl, rfl⟩

/-- A run of safe calls: a new range; one that extends it downwards; one within the result; and a
range below port 0x100. -/
theorem rangesDecoded_extended :
    RangesDecoded ([(0x310, 16), (0x300, 32), (0x304, 8), (0x60, 8), (0x80, 16)].foldl genIoNext
      emptyGenIo) :=
  rangesDecoded_of_reachable (LabelledSystem.ReachableUnder.foldl (fun _ _ ↦ rfl)
    (.init init_emptyGenIo) (by decide))

/-- Eight ports from 0x204 are granted: the register decodes 0x200 to 0x207. -/
theorem not_rangesDecoded_unaligned :
    ¬ ∀ calls : List (BitVec 16 × BitVec 64), RangesDecoded (calls.foldl genIoNext emptyGenIo) := by
  intro h
  have hrange := (h [(0x204, 8)]).granted (0x204, 8) (by decide) 0x208 (by decide) (by decide)
  obtain ⟨i, hen, hmatch⟩ := hrange
  -- bit 3 of the port is not in the mask, and not set in the base
  have hbit := hmatch 3 (by decide)
  clear hmatch
  revert hbit hen i
  decide

end PurleyFirmware.Pch
