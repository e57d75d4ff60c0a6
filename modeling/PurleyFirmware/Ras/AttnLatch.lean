import Mathlib.Order.Basic
import Mathlib.Tactic.SplitIfs
import PurleyFirmware.Foundation.Resumable

/-!
# Clearing the attention latches

The two ports of each I/O expander of the hot-plug logic are read over the SMBus, and where BIT4 of
a port is clear its output register is written with BIT1 low and then with BIT1 high.
`ClearAttnLatch` does this in two modes: it waits for each transfer, or it returns when a transfer
is in progress and is called again. In the second mode the static variables `Index`, `EntryFlag` and
`Buffer` say how far it has come.

The two modes should complete the same transfers, each port whose BIT4 is clear should get its two
writes whatever the other port shows, and `Index` and `EntryFlag` should be zero at the end. The
modes do belong together. But the step counter is advanced by the writes to port 0, so when there
are none the second port is not even read; and `Index` is a byte, which comes back to zero when
there are too many expanders. `latchesRight_iff` says that nothing else goes wrong.
-/

namespace PurleyFirmware.Ras

/-! ### The bus -/

/-- An I/O expander: its address in `mSlaveAddress`, and what its ports show. -/
structure Expander where
  address : BitVec 8
  port0 : BitVec 8
  port1 : BitVec 8
  /-- The address is not the end of the list. -/
  address_ne : address ≠ 0xFF

/-- `SMB_READ` and `SMB_WRITE`. -/
inductive SmbOperation
  | smbRead
  | smbWrite
  deriving DecidableEq

/-- A transfer that was completed, and the value of `Index` for which it was made. -/
structure SmbTransfer where
  index : BitVec 8
  address : BitVec 8
  operation : SmbOperation
  command : BitVec 8
  data : BitVec 8
  deriving DecidableEq

/-- The static variables of `ClearAttnLatch`, and the bus. -/
structure LatchState where
  buffer : BitVec 8
  index : BitVec 8
  entryFlag : BitVec 8
  /-- Whether the next transfers are in progress when they are asked for; when there are no more
  entries, they are completed at once. -/
  answers : List Bool
  /-- The transfers that were completed. -/
  log : List SmbTransfer

section Code

variable (es : List Expander)

/-- `mSlaveAddress`, which ends with 0xFF. -/
def slaveAddress (index : BitVec 8) : BitVec 8 :=
  (es[index.toNat]?.map Expander.address).getD 0xFF

/-- What a read of an input register returns. -/
def inputRegister (index command : BitVec 8) : BitVec 8 :=
  (es[index.toNat]?.map fun e ↦ if command = 0 then e.port0 else e.port1).getD 0

/-- A transfer is completed. -/
def completeTransfer (operation : SmbOperation) (command : BitVec 8) (s : LatchState) :
    LatchState :=
  let data := match operation with
    | .smbRead => inputRegister es s.index command
    | .smbWrite => s.buffer
  { s with
    buffer := data
    log := s.log ++ [⟨s.index, slaveAddress es s.index, operation, command, data⟩] }

/-- `SmbusReadWrite`: whether the transfer is in progress. -/
def smbusReadWrite (operation : SmbOperation) (command : BitVec 8) (s : LatchState) :
    Bool × LatchState :=
  match s.answers with
  | true :: rest => (true, { s with answers := rest })
  | false :: rest => (false, completeTransfer es operation command { s with answers := rest })
  | [] => (false, completeTransfer es operation command s)

/-- The loop that waits while a transfer is in progress, with at most `n` turns. -/
def smbusWait (operation : SmbOperation) (command : BitVec 8) : ℕ → LatchState → LatchState
  | 0, s => s
  | n + 1, s =>
    match smbusReadWrite es operation command s with
    | (true, t) => smbusWait operation command n t
    | (false, t) => t

/-- A transfer in one of the two modes. -/
def smbusTransfer (timeSliced : Bool) (operation : SmbOperation) (command : BitVec 8)
    (s : LatchState) : Except LatchState LatchState :=
  if !timeSliced then .ok (smbusWait es operation command (s.answers.length + 1) s)
  else
    match smbusReadWrite es operation command s with
    | (true, t) => .error t
    | (false, t) => .ok t

/-- A step of the sequence: it is taken where `EntryFlag` has the given value, changes the buffer,
makes a transfer and advances `EntryFlag`. -/
def latchStep (timeSliced : Bool) (flag : BitVec 8) (operation : SmbOperation)
    (command : BitVec 8) (change : BitVec 8 → BitVec 8) :
    LatchState → Except LatchState LatchState :=
  skipUnless (fun s ↦ s.entryFlag = flag) fun s ↦
    (smbusTransfer es timeSliced operation command { s with buffer := change s.buffer }).map
      fun t ↦ { t with entryFlag := t.entryFlag + 1 }

/-- `Buffer &= ~BIT1`. -/
def bit1Low (buffer : BitVec 8) : BitVec 8 := buffer &&& ~~~2#8

/-- `Buffer |= BIT1`. -/
def bit1High (buffer : BitVec 8) : BitVec 8 := buffer ||| 2#8

/-- The two writes to an output register, where BIT4 is clear. -/
def latchPulse (timeSliced : Bool) (flag command : BitVec 8) :
    LatchState → Except LatchState LatchState :=
  skipUnless (fun s ↦ s.buffer.getLsbD 4 = false) fun s ↦
    latchStep es timeSliced flag .smbWrite command bit1Low s >>=
      latchStep es timeSliced (flag + 1) .smbWrite command bit1High

/-- The next expander. -/
def nextExpander (s : LatchState) : Except LatchState LatchState :=
  .ok { s with index := s.index + 1, entryFlag := 0 }

/-- The body of the loop. -/
def latchBody (timeSliced : Bool) (s : LatchState) : Except LatchState LatchState :=
  latchStep es timeSliced 0 .smbRead 0 id s >>= fun s ↦
    latchPulse es timeSliced 1 2 s >>= fun s ↦
      latchStep es timeSliced 3 .smbRead 1 id s >>= fun s ↦
        latchPulse es timeSliced 4 3 s >>= nextExpander

/-- `ClearAttnLatch` returns: with `ok` when it is done, and with `error` when a transfer is in
progress. -/
def ClearAttnLatch (timeSliced : Bool) : LatchState → Except LatchState LatchState → Prop :=
  LoopReturns (fun s : LatchState ↦ slaveAddress es s.index ≠ 0xFF) (fun s ↦ { s with index := 0 })
    (latchBody es timeSliced)

/-- `ClearAttnLatch(TRUE)` is called until it is done. -/
def ClearAttnLatchSliced : LatchState → LatchState → Prop :=
  Polled (fun s : LatchState ↦ slaveAddress es s.index ≠ 0xFF) (fun s ↦ { s with index := 0 })
    (latchBody es true)

end Code

/-! ### The modes belong together -/

section Modes

variable {es : List Expander} {operation : SmbOperation} {command flag : BitVec 8}
  {change : BitVec 8 → BitVec 8} {s t : LatchState}

/-- A transfer that is in progress uses up an answer, and changes nothing else. -/
theorem smbusReadWrite_true (h : smbusReadWrite es operation command s = (true, t)) :
    s.answers = true :: t.answers ∧ t = { s with answers := t.answers } := by
  rw [smbusReadWrite] at h
  split at h
  · rename_i rest hanswers
    obtain rfl := (Prod.mk.inj h).2
    exact ⟨hanswers, rfl⟩
  · cases h
  · cases h

/-- A transfer that is completed uses up one answer at most. -/
theorem smbusReadWrite_false (h : smbusReadWrite es operation command s = (false, t)) :
    t.index = s.index ∧ t.entryFlag = s.entryFlag ∧ t.answers.length ≤ s.answers.length ∧
      (operation = .smbWrite → t.buffer = s.buffer) := by
  rw [smbusReadWrite] at h
  split at h
  · cases h
  · rename_i rest hanswers
    obtain rfl := (Prod.mk.inj h).2
    rw [hanswers]
    exact ⟨rfl, rfl, Nat.le_succ _, fun hw ↦ by rw [hw]; rfl⟩
  · obtain rfl := (Prod.mk.inj h).2
    exact ⟨rfl, rfl, Nat.le_refl _, fun hw ↦ by rw [hw]; rfl⟩

theorem smbusTransfer_ok (h : smbusTransfer es true operation command s = .ok t) :
    smbusReadWrite es operation command s = (false, t) := by
  rw [smbusTransfer, if_neg (by decide)] at h
  split at h
  · cases h
  · cases h
    assumption

theorem smbusTransfer_error (h : smbusTransfer es true operation command s = .error t) :
    smbusReadWrite es operation command s = (true, t) := by
  rw [smbusTransfer, if_neg (by decide)] at h
  split at h
  · cases h
    assumption
  · cases h

/-- The two modes of a transfer. -/
theorem smbusTransfer_resumes :
    Resumes (smbusTransfer es true operation command)
      (smbusTransfer es false operation command) where
  ok {s t} h := by
    have hread := smbusTransfer_ok h
    rw [smbusTransfer, if_pos (by decide), smbusWait, hread]
  error {s t} h := by
    obtain ⟨hanswers, hsame⟩ := smbusReadWrite_true (smbusTransfer_error h)
    have hwait : smbusWait es operation command (t.answers.length + 1 + 1) s =
        smbusWait es operation command (t.answers.length + 1) t := by
      rw [smbusWait, smbusTransfer_error h]
    rw [smbusTransfer, if_pos (by decide), smbusTransfer, if_pos (by decide), hanswers,
      List.length_cons, hwait]

theorem except_map_ok {x : Except LatchState LatchState} {f : LatchState → LatchState}
    (h : x.map f = .ok t) : ∃ u, x = .ok u ∧ t = f u := by
  cases x with
  | error u => cases h
  | ok u =>
    cases h
    exact ⟨u, rfl, rfl⟩

theorem except_map_error {x : Except LatchState LatchState} {f : LatchState → LatchState}
    (h : x.map f = .error t) : x = .error t := by
  cases x with
  | error u =>
    cases h
    rfl
  | ok u => cases h

/-- A step that goes on was skipped or has completed its transfer. -/
theorem latchStep_ok (h : latchStep es true flag operation command change s = .ok t) :
    t.index = s.index ∧ t.answers.length ≤ s.answers.length ∧
      (operation = .smbWrite → t.buffer = s.buffer ∨ t.buffer = change s.buffer) := by
  rcases of_skipUnless_ok h with ⟨-, h⟩ | rfl
  · obtain ⟨u, hu, rfl⟩ := except_map_ok h
    obtain ⟨hindex, -, hanswers, hbuffer⟩ := smbusReadWrite_false (smbusTransfer_ok hu)
    exact ⟨hindex, hanswers, fun hw ↦ Or.inr (hbuffer hw)⟩
  · exact ⟨rfl, Nat.le_refl _, fun _ ↦ Or.inl rfl⟩

/-- A step that returns has changed the buffer, and uses up an answer. -/
theorem latchStep_error (h : latchStep es true flag operation command change s = .error t) :
    t.entryFlag = flag ∧ t.index = s.index ∧ t.answers.length < s.answers.length ∧
      t.buffer = change s.buffer := by
  obtain ⟨hflag, h⟩ := of_skipUnless_error h
  obtain ⟨hanswers, hsame⟩ := smbusReadWrite_true (smbusTransfer_error (except_map_error h))
  rw [hsame]
  refine ⟨hflag, rfl, ?_, rfl⟩
  change s.answers = _ at hanswers
  rw [hanswers]
  exact Nat.lt_succ_self _

theorem latchStep_of_eq {timeSliced : Bool} (h : s.entryFlag = flag) :
    latchStep es timeSliced flag operation command change s =
      (smbusTransfer es timeSliced operation command { s with buffer := change s.buffer }).map
        fun t ↦ { t with entryFlag := t.entryFlag + 1 } :=
  if_pos h

theorem latchStep_of_ne {timeSliced : Bool} (h : s.entryFlag ≠ flag) :
    latchStep es timeSliced flag operation command change s = .ok s :=
  skipUnless_of_neg h

/-- The two modes of a step, whose change of the buffer may be repeated. -/
theorem latchStep_resumes (hchange : ∀ b, change (change b) = change b) :
    Resumes (latchStep es true flag operation command change)
      (latchStep es false flag operation command change) := by
  refine Resumes.skipUnless ⟨fun {s t} h ↦ ?_, fun {s t} h ↦ ?_⟩ fun {s t} hs h ↦ ?_
  · obtain ⟨u, hu, rfl⟩ := except_map_ok h
    rw [smbusTransfer_resumes.ok hu]
    rfl
  · have hwait := except_map_error h
    have hbuffer : { t with buffer := change t.buffer } = t := by
      rw [(smbusReadWrite_true (smbusTransfer_error hwait)).2, hchange]
    rw [hbuffer, smbusTransfer_resumes.error hwait]
  · rw [(smbusReadWrite_true (smbusTransfer_error (except_map_error h))).2]
    exact hs

@[simp] theorem bit1Low_bit1Low (b : BitVec 8) : bit1Low (bit1Low b) = bit1Low b := by
  rw [bit1Low, bit1Low, BitVec.and_assoc, BitVec.and_self]

@[simp] theorem bit1High_bit1High (b : BitVec 8) : bit1High (bit1High b) = bit1High b := by
  rw [bit1High, bit1High, BitVec.or_assoc, BitVec.or_self]

@[simp] theorem bit1Low_getLsbD_four (b : BitVec 8) :
    (bit1Low b).getLsbD 4 = b.getLsbD 4 := by
  simp [bit1Low]

@[simp] theorem bit1High_getLsbD_four (b : BitVec 8) :
    (bit1High b).getLsbD 4 = b.getLsbD 4 := by
  simp [bit1High]

theorem bit1Low_getLsbD_one (b : BitVec 8) : (bit1Low b).getLsbD 1 = false := by
  simp [bit1Low]

theorem bit1High_getLsbD_one (b : BitVec 8) : (bit1High b).getLsbD 1 = true := by
  simp [bit1High]

/-- Two writes that go on. -/
theorem latchPulse_ok (h : latchPulse es true flag command s = .ok t) :
    t.index = s.index ∧ t.answers.length ≤ s.answers.length := by
  rcases of_skipUnless_ok h with ⟨-, h⟩ | rfl
  · obtain ⟨u, hu, ht⟩ := of_bind_ok h
    obtain ⟨hi, ha, -⟩ := latchStep_ok hu
    obtain ⟨hi', ha', -⟩ := latchStep_ok ht
    exact ⟨hi'.trans hi, Nat.le_trans ha' ha⟩
  · exact ⟨rfl, Nat.le_refl _⟩

/-- Two writes of which one returns. -/
theorem latchPulse_error (h : latchPulse es true flag command s = .error t) :
    (t.entryFlag = flag ∨ t.entryFlag = flag + 1) ∧ t.index = s.index ∧
      t.answers.length < s.answers.length := by
  obtain ⟨-, h⟩ := of_skipUnless_error h
  rcases of_bind_error h with hwait | ⟨u, hu, hwait⟩
  · obtain ⟨hflag, hi, ha, -⟩ := latchStep_error hwait
    exact ⟨Or.inl hflag, hi, ha⟩
  · obtain ⟨hi, ha, -⟩ := latchStep_ok hu
    obtain ⟨hflag, hi', ha', -⟩ := latchStep_error hwait
    exact ⟨Or.inr hflag, hi'.trans hi, Nat.lt_of_lt_of_le ha' ha⟩

theorem latchPulse_of_bit {timeSliced : Bool} (h : s.buffer.getLsbD 4 = false) :
    latchPulse es timeSliced flag command s =
      latchStep es timeSliced flag .smbWrite command bit1Low s >>=
        latchStep es timeSliced (flag + 1) .smbWrite command bit1High :=
  if_pos h

theorem latchPulse_of_not_bit {timeSliced : Bool} (h : ¬ s.buffer.getLsbD 4 = false) :
    latchPulse es timeSliced flag command s = .ok s :=
  if_neg h

theorem latchPulse_of_ne {timeSliced : Bool} (h : s.entryFlag ≠ flag)
    (h' : s.entryFlag ≠ flag + 1) : latchPulse es timeSliced flag command s = .ok s := by
  refine skipUnless_eq_ok fun _ ↦ ?_
  rw [latchStep_of_ne h]
  exact latchStep_of_ne h'

theorem flag_add_one_ne (flag : BitVec 8) : flag + 1 ≠ flag := by bv_omega

/-- The two modes of the two writes. -/
theorem latchPulse_resumes :
    Resumes (latchPulse es true flag command) (latchPulse es false flag command) := by
  refine Resumes.skipUnless ((latchStep_resumes bit1Low_bit1Low).bind
    (latchStep_resumes bit1High_bit1High) fun h ↦ ?_) fun {s t} hs h ↦ ?_
  · refine latchStep_of_ne ?_
    rw [(latchStep_error h).1]
    exact flag_add_one_ne flag
  · rcases of_bind_error h with hwait | ⟨u, hu, hwait⟩
    · rw [(latchStep_error hwait).2.2.2, bit1Low_getLsbD_four]
      exact hs
    · rw [(latchStep_error hwait).2.2.2, bit1High_getLsbD_four]
      rcases (latchStep_ok hu).2.2 rfl with hbuffer | hbuffer
      · rw [hbuffer]
        exact hs
      · rw [hbuffer, bit1Low_getLsbD_four]
        exact hs

/-- What a body that goes on has done to the index. -/
theorem latchBody_ok (h : latchBody es true s = .ok t) :
    t.index = s.index + 1 ∧ t.answers.length ≤ s.answers.length := by
  obtain ⟨s₁, h₁, h⟩ := of_bind_ok h
  obtain ⟨s₂, h₂, h⟩ := of_bind_ok h
  obtain ⟨s₃, h₃, h⟩ := of_bind_ok h
  obtain ⟨s₄, h₄, h⟩ := of_bind_ok h
  cases h
  obtain ⟨hi₁, ha₁, -⟩ := latchStep_ok h₁
  obtain ⟨hi₂, ha₂⟩ := latchPulse_ok h₂
  obtain ⟨hi₃, ha₃, -⟩ := latchStep_ok h₃
  obtain ⟨hi₄, ha₄⟩ := latchPulse_ok h₄
  dsimp only
  exact ⟨by rw [hi₄, hi₃, hi₂, hi₁], by omega⟩

/-- The last two writes and the step to the next expander. -/
theorem latchEnd_error (h : latchPulse es true 4 3 s >>= nextExpander = .error t) :
    (t.entryFlag = 4 ∨ t.entryFlag = 4 + 1) ∧ t.index = s.index ∧
      t.answers.length < s.answers.length := by
  rcases of_bind_error h with hwait | ⟨u, -, hwait⟩
  · exact latchPulse_error hwait
  · cases hwait

/-- What is done for the second port. -/
theorem latchPort1_error
    (h : latchStep es true 3 .smbRead 1 id s >>=
      (fun s ↦ latchPulse es true 4 3 s >>= nextExpander) = .error t) :
    (t.entryFlag = 3 ∨ t.entryFlag = 4 ∨ t.entryFlag = 4 + 1) ∧ t.index = s.index ∧
      t.answers.length < s.answers.length := by
  rcases of_bind_error h with hwait | ⟨u, hu, hwait⟩
  · obtain ⟨hflag, hi, ha, -⟩ := latchStep_error hwait
    exact ⟨Or.inl hflag, hi, ha⟩
  · obtain ⟨hi, ha, -⟩ := latchStep_ok hu
    obtain ⟨hflag, hi', ha'⟩ := latchEnd_error hwait
    exact ⟨Or.inr hflag, hi'.trans hi, Nat.lt_of_lt_of_le ha' ha⟩

/-- What is done after the first port was read. -/
theorem latchPort0_error
    (h : latchPulse es true 1 2 s >>= (fun s ↦ latchStep es true 3 .smbRead 1 id s >>=
      fun s ↦ latchPulse es true 4 3 s >>= nextExpander) = .error t) :
    t.entryFlag ≠ 0 ∧ t.index = s.index ∧ t.answers.length < s.answers.length := by
  rcases of_bind_error h with hwait | ⟨u, hu, hwait⟩
  · obtain ⟨hflag, hi, ha⟩ := latchPulse_error hwait
    refine ⟨?_, hi, ha⟩
    rcases hflag with hflag | hflag
    · rw [hflag]
      decide
    · rw [hflag]
      decide
  · obtain ⟨hi, ha⟩ := latchPulse_ok hu
    obtain ⟨hflag, hi', ha'⟩ := latchPort1_error hwait
    refine ⟨?_, hi'.trans hi, Nat.lt_of_lt_of_le ha' ha⟩
    rcases hflag with hflag | hflag | hflag
    · rw [hflag]
      decide
    · rw [hflag]
      decide
    · rw [hflag]
      decide

/-- A body that returns uses up an answer. -/
theorem latchBody_error (h : latchBody es true s = .error t) :
    t.index = s.index ∧ t.answers.length < s.answers.length := by
  rcases of_bind_error h with hwait | ⟨u, hu, hwait⟩
  · obtain ⟨-, hi, ha, -⟩ := latchStep_error hwait
    exact ⟨hi, ha⟩
  · obtain ⟨hi, ha, -⟩ := latchStep_ok hu
    obtain ⟨-, hi', ha'⟩ := latchPort0_error hwait
    exact ⟨hi'.trans hi, Nat.lt_of_lt_of_le ha' ha⟩

/-- **The two modes of the body**: in each state in which a part returns, the parts before it do
nothing. -/
theorem latchBody_resumes : Resumes (latchBody es true) (latchBody es false) := by
  have hid : ∀ b : BitVec 8, id (id b) = id b := fun _ ↦ rfl
  have hend : Resumes (fun s ↦ latchPulse es true 4 3 s >>= nextExpander)
      fun s ↦ latchPulse es false 4 3 s >>= nextExpander :=
    latchPulse_resumes.bind ⟨fun h ↦ h, fun h ↦ nomatch h⟩ fun h ↦ nomatch h
  have hread : Resumes (latchStep es true 3 .smbRead 1 id) (latchStep es false 3 .smbRead 1 id) :=
    latchStep_resumes hid
  have hport1 := hread.bind hend fun h ↦ by
    refine latchStep_of_ne ?_
    rcases (latchEnd_error h).1 with hflag | hflag <;> rw [hflag] <;> decide
  have hpulse : Resumes (latchPulse es true 1 2) (latchPulse es false 1 2) := latchPulse_resumes
  have hport0 := hpulse.bind hport1 fun h ↦ by
    obtain ⟨hflag, -⟩ := latchPort1_error h
    refine latchPulse_of_ne ?_ ?_ <;>
      rcases hflag with hflag | hflag | hflag <;> rw [hflag] <;> decide
  exact (latchStep_resumes hid).bind hport0 fun h ↦ latchStep_of_ne (latchPort0_error h).1

end Modes

/-! ### Polling -/

section Polling

variable {es : List Expander} {s t : LatchState}

/-- Where the list goes on, there is an expander. -/
theorem slaveAddress_ne_iff {index : BitVec 8} :
    slaveAddress es index ≠ 0xFF ↔ index.toNat < es.length := by
  rw [slaveAddress]
  rcases Nat.lt_or_ge index.toNat es.length with hlt | hge
  · rw [List.getElem?_eq_getElem hlt]
    exact iff_of_true (es[index.toNat].address_ne) hlt
  · rw [List.getElem?_eq_none hge]
    exact iff_of_false (fun h ↦ h rfl) (by omega)

theorem toNat_index_add_one {index : BitVec 8} (h : index.toNat + 1 < 256) :
    (index + 1).toNat = index.toNat + 1 := by
  rw [BitVec.toNat_add]
  exact Nat.mod_eq_of_lt h

/-- A call of the second mode returns. -/
theorem exists_clearAttnLatch (hlength : es.length < 256) (hs : s.index.toNat ≤ es.length) :
    ∃ r, ClearAttnLatch es true s r := by
  induction hn : es.length - s.index.toNat generalizing s with
  | zero =>
    refine ⟨_, loopReturns_of_not_more ?_⟩
    rw [slaveAddress_ne_iff]
    omega
  | succ n ih =>
    have hmore : slaveAddress es s.index ≠ 0xFF := slaveAddress_ne_iff.mpr (by omega)
    cases hbody : latchBody es true s with
    | error t => exact ⟨_, loopReturns_of_error hmore hbody⟩
    | ok t =>
      have hindex : t.index.toNat = s.index.toNat + 1 := by
        rw [(latchBody_ok hbody).1, toNat_index_add_one (by omega)]
      obtain ⟨r, hr⟩ := @ih t (by omega) (by omega)
      exact ⟨r, loopReturns_of_ok hmore hbody hr⟩

/-- A call that returns with a transfer in progress uses up an answer. -/
theorem clearAttnLatch_error (hlength : es.length < 256) (hs : s.index.toNat ≤ es.length)
    (h : ClearAttnLatch es true s (.error t)) :
    t.index.toNat ≤ es.length ∧ t.answers.length < s.answers.length := by
  obtain ⟨n, hn⟩ := h
  induction n generalizing s with
  | zero => cases hn
  | succ n ih =>
    rw [loopWithin] at hn
    split at hn
    · rename_i hmore
      have hlt := slaveAddress_ne_iff.mp hmore
      cases hbody : latchBody es true s with
      | error u =>
        rw [hbody] at hn
        obtain rfl : u = t := Except.error.inj (Option.some.inj hn)
        obtain ⟨hindex, hanswers⟩ := latchBody_error hbody
        exact ⟨by rw [hindex]; exact hs, hanswers⟩
      | ok u =>
        rw [hbody] at hn
        obtain ⟨hindex, hanswers⟩ := latchBody_ok hbody
        have hu : u.index.toNat = s.index.toNat + 1 := by
          rw [hindex, toNat_index_add_one (by omega)]
        obtain ⟨ht, hlt'⟩ := ih (by omega) hn
        exact ⟨ht, Nat.lt_of_lt_of_le hlt' hanswers⟩
    · cases hn

/-- The second mode comes to its end. -/
theorem exists_sliced (hlength : es.length < 256) (hs : s.index.toNat ≤ es.length) :
    ∃ t, ClearAttnLatchSliced es s t :=
  exists_polled (fun s ↦ s.index.toNat ≤ es.length) (fun s ↦ s.answers.length)
    (fun _ ↦ exists_clearAttnLatch hlength) (clearAttnLatch_error hlength) hs

/-- **The two modes**: where the second one comes to its end, the first one does. -/
theorem ClearAttnLatchSliced.blocking (h : ClearAttnLatchSliced es s t) :
    ClearAttnLatch es false s (.ok t) := by
  refine latchBody_resumes.polled (fun {s t} hmore hwait ↦ ?_) h
  rw [(latchBody_error hwait).1]
  exact hmore

end Polling

/-! ### What is transferred -/

section Transfers

variable {es : List Expander} {s t : LatchState}

/-- The two writes to the output register of a port. -/
def pulseLog (index : BitVec 8) (e : Expander) (command port : BitVec 8) : List SmbTransfer :=
  [⟨index, e.address, .smbWrite, command, bit1Low port⟩,
    ⟨index, e.address, .smbWrite, command, bit1High (bit1Low port)⟩]

/-- What is transferred for the second port. -/
def port1Log (index : BitVec 8) (e : Expander) : List SmbTransfer :=
  ⟨index, e.address, .smbRead, 1, e.port1⟩ ::
    if e.port1.getLsbD 4 = false then pulseLog index e 3 e.port1 else []

/-- What is transferred for an expander: the second port is read if the first one was written. -/
def expanderLog (index : BitVec 8) (e : Expander) : List SmbTransfer :=
  ⟨index, e.address, .smbRead, 0, e.port0⟩ ::
    if e.port0.getLsbD 4 = false then pulseLog index e 2 e.port0 ++ port1Log index e else []

/-- What is transferred for the expanders from an index on. -/
def latchLog : ℕ → List Expander → List SmbTransfer
  | _, [] => []
  | k, e :: es => expanderLog (BitVec.ofNat 8 k) e ++ latchLog (k + 1) es

/-- The loop that waits ends with the transfer. -/
theorem smbusWait_eq (es : List Expander) (operation : SmbOperation) (command : BitVec 8)
    (s : LatchState) :
    ∃ rest, smbusWait es operation command (s.answers.length + 1) s =
      completeTransfer es operation command { s with answers := rest } := by
  obtain ⟨buffer, index, entryFlag, answers, log⟩ := s
  induction answers with
  | nil => exact ⟨[], rfl⟩
  | cons answer answers ih =>
    cases answer with
    | true => exact ih
    | false => exact ⟨answers, rfl⟩

/-- A step of the first mode. -/
theorem latchStep_blocking (es : List Expander) (flag : BitVec 8) (operation : SmbOperation)
    (command buffer index : BitVec 8) (change : BitVec 8 → BitVec 8) (answers : List Bool)
    (log : List SmbTransfer) :
    ∃ rest, latchStep es false flag operation command change
        ⟨buffer, index, flag, answers, log⟩ =
      .ok (completeTransfer es operation command
        ⟨change buffer, index, flag + 1, rest, log⟩) := by
  obtain ⟨rest, hwait⟩ := smbusWait_eq es operation command
    ⟨change buffer, index, flag, answers, log⟩
  refine ⟨rest, (latchStep_of_eq rfl).trans ?_⟩
  rw [smbusTransfer, if_pos (by decide), hwait]
  rfl

variable {e : Expander} {index : BitVec 8}

/-- A read of the first mode. -/
theorem latchRead_blocking (haddress : slaveAddress es index = e.address) {command port : BitVec 8}
    (hport : inputRegister es index command = port) {flag next : BitVec 8}
    (hnext : flag + 1 = next) (buffer : BitVec 8) (answers : List Bool) (log : List SmbTransfer) :
    ∃ rest, latchStep es false flag .smbRead command id ⟨buffer, index, flag, answers, log⟩ =
      .ok ⟨port, index, next, rest,
        log ++ [⟨index, e.address, .smbRead, command, port⟩]⟩ := by
  obtain ⟨rest, hread⟩ := latchStep_blocking es flag .smbRead command buffer index id answers log
  refine ⟨rest, hread.trans ?_⟩
  rw [completeTransfer, haddress, hnext]
  dsimp only
  rw [hport]

/-- The two writes of the first mode. -/
theorem latchPulse_blocking (haddress : slaveAddress es index = e.address)
    {flag next : BitVec 8} (hnext : flag + 1 + 1 = next) (command : BitVec 8) {buffer : BitVec 8}
    (hbit : buffer.getLsbD 4 = false) (answers : List Bool) (log : List SmbTransfer) :
    ∃ rest, latchPulse es false flag command ⟨buffer, index, flag, answers, log⟩ =
      .ok ⟨bit1High (bit1Low buffer), index, next, rest,
        log ++ pulseLog index e command buffer⟩ := by
  obtain ⟨rest, hlow⟩ := latchStep_blocking es flag .smbWrite command buffer index bit1Low answers
    log
  obtain ⟨rest', hhigh⟩ := latchStep_blocking es (flag + 1) .smbWrite command (bit1Low buffer)
    index bit1High rest
    (log ++ [⟨index, slaveAddress es index, .smbWrite, command, bit1Low buffer⟩])
  refine ⟨rest', ?_⟩
  rw [latchPulse_of_bit (by exact hbit), bind_of_ok hlow]
  refine hhigh.trans ?_
  rw [completeTransfer, haddress, hnext, List.append_assoc]
  rfl

/-- The end of the body in the first mode. -/
theorem latchEnd_blocking (haddress : slaveAddress es index = e.address) (buffer : BitVec 8)
    (answers : List Bool) (log : List SmbTransfer) :
    ∃ buffer' rest, (latchPulse es false 4 3 ⟨buffer, index, 4, answers, log⟩ >>= nextExpander) =
      .ok ⟨buffer', index + 1, 0, rest,
        log ++ if buffer.getLsbD 4 = false then pulseLog index e 3 buffer else []⟩ := by
  by_cases hbit : buffer.getLsbD 4 = false
  · have hnext : (4 : BitVec 8) + 1 + 1 = 6 := by decide
    obtain ⟨rest, hpulse⟩ := latchPulse_blocking haddress hnext 3 hbit answers log
    refine ⟨bit1High (bit1Low buffer), rest, ?_⟩
    rw [bind_of_ok hpulse, if_pos hbit]
    rfl
  · refine ⟨buffer, answers, ?_⟩
    rw [bind_of_ok (latchPulse_of_not_bit (by exact hbit)), if_neg hbit, List.append_nil]
    rfl

/-- The second port in the first mode. -/
theorem latchPort1_blocking (haddress : slaveAddress es index = e.address)
    (hport : inputRegister es index 1 = e.port1) (buffer : BitVec 8) (answers : List Bool)
    (log : List SmbTransfer) :
    ∃ buffer' rest, (latchStep es false 3 .smbRead 1 id ⟨buffer, index, 3, answers, log⟩ >>=
        fun s ↦ latchPulse es false 4 3 s >>= nextExpander) =
      .ok ⟨buffer', index + 1, 0, rest, log ++ port1Log index e⟩ := by
  have hnext : (3 : BitVec 8) + 1 = 4 := by decide
  obtain ⟨rest, hread⟩ := latchRead_blocking haddress hport hnext buffer answers log
  obtain ⟨buffer', rest', hend⟩ := latchEnd_blocking haddress e.port1 rest
    (log ++ [⟨index, e.address, .smbRead, 1, e.port1⟩])
  rw [List.append_assoc] at hend
  exact ⟨buffer', rest', (bind_of_ok hread).trans hend⟩

/-- The body in the first mode. -/
theorem latchBody_blocking (haddress : slaveAddress es index = e.address)
    (hport0 : inputRegister es index 0 = e.port0) (hport1 : inputRegister es index 1 = e.port1)
    (buffer : BitVec 8) (answers : List Bool) (log : List SmbTransfer) :
    ∃ buffer' rest, latchBody es false ⟨buffer, index, 0, answers, log⟩ =
      .ok ⟨buffer', index + 1, 0, rest, log ++ expanderLog index e⟩ := by
  have hnext : (0 : BitVec 8) + 1 = 1 := by decide
  obtain ⟨rest, hread⟩ := latchRead_blocking haddress hport0 hnext buffer answers log
  rw [expanderLog]
  by_cases hbit : e.port0.getLsbD 4 = false
  · have hnext' : (1 : BitVec 8) + 1 + 1 = 3 := by decide
    obtain ⟨rest', hpulse⟩ := latchPulse_blocking haddress hnext' 2 hbit rest
      (log ++ [⟨index, e.address, .smbRead, 0, e.port0⟩])
    obtain ⟨buffer', rest'', hend⟩ := latchPort1_blocking haddress hport1
      (bit1High (bit1Low e.port0)) rest'
      (log ++ [⟨index, e.address, .smbRead, 0, e.port0⟩] ++ pulseLog index e 2 e.port0)
    refine ⟨buffer', rest'', ?_⟩
    rw [latchBody, bind_of_ok hread, bind_of_ok hpulse, hend, if_pos hbit, List.append_assoc,
      List.append_assoc]
    rfl
  · -- `EntryFlag` is still 1, so that the steps that follow are skipped.
    have hpulse : latchPulse es false 1 2
        ⟨e.port0, index, 1, rest, log ++ [⟨index, e.address, .smbRead, 0, e.port0⟩]⟩ = .ok _ :=
      latchPulse_of_not_bit hbit
    have hread1 : (1 : BitVec 8) ≠ 3 := by decide
    have hlow1 : (1 : BitVec 8) ≠ 4 := by decide
    have hhigh1 : (1 : BitVec 8) ≠ 4 + 1 := by decide
    refine ⟨e.port0, rest, ?_⟩
    rw [latchBody, bind_of_ok hread, bind_of_ok hpulse, bind_of_ok (latchStep_of_ne hread1),
      bind_of_ok (latchPulse_of_ne hlow1 hhigh1), if_neg hbit]
    rfl

/-- **The first mode** transfers what belongs to the expanders that are left. -/
theorem clearAttnLatch_blocking (hlength : es.length < 256) (k : ℕ) (hk : k ≤ es.length)
    (buffer : BitVec 8) (answers : List Bool) (log : List SmbTransfer) :
    ∃ t, ClearAttnLatch es false ⟨buffer, BitVec.ofNat 8 k, 0, answers, log⟩ (.ok t) ∧
      t.index = 0 ∧ t.entryFlag = 0 ∧ t.log = log ++ latchLog k (es.drop k) := by
  induction hn : es.length - k generalizing k buffer answers log with
  | zero =>
    have hend : ¬ slaveAddress es (BitVec.ofNat 8 k) ≠ 0xFF := by
      rw [slaveAddress_ne_iff, BitVec.toNat_ofNat, Nat.mod_eq_of_lt (by omega)]
      omega
    refine ⟨_, loopReturns_of_not_more hend, rfl, rfl, ?_⟩
    rw [List.drop_eq_nil_of_le (by omega), latchLog, List.append_nil]
  | succ n ih =>
    have hlt : k < es.length := by omega
    have htoNat : (BitVec.ofNat 8 k).toNat = k := by
      rw [BitVec.toNat_ofNat]
      exact Nat.mod_eq_of_lt (by omega)
    have hget : es[(BitVec.ofNat 8 k).toNat]? = some es[k] := by
      rw [htoNat, List.getElem?_eq_getElem hlt]
    have haddress : slaveAddress es (BitVec.ofNat 8 k) = es[k].address := by
      rw [slaveAddress, hget]
      rfl
    have hport0 : inputRegister es (BitVec.ofNat 8 k) 0 = es[k].port0 := by
      rw [inputRegister, hget]
      rfl
    have hport1 : inputRegister es (BitVec.ofNat 8 k) 1 = es[k].port1 := by
      rw [inputRegister, hget]
      rfl
    obtain ⟨buffer', rest, hbody⟩ := latchBody_blocking haddress hport0 hport1 buffer answers log
    obtain ⟨t, hret, hindex, hflag, hlog⟩ := ih (k + 1) (by omega) buffer' rest
      (log ++ expanderLog (BitVec.ofNat 8 k) es[k]) (by omega)
    have hmore : slaveAddress es (BitVec.ofNat 8 k) ≠ 0xFF :=
      slaveAddress_ne_iff.mpr (htoNat.trans_lt hlt)
    rw [BitVec.ofNat_add] at hret
    refine ⟨t, loopReturns_of_ok hmore hbody hret, hindex, hflag, ?_⟩
    rw [hlog, List.drop_eq_getElem_cons hlt, latchLog, List.append_assoc]

theorem latchStep_ne_error {flag command : BitVec 8} {operation : SmbOperation}
    {change : BitVec 8 → BitVec 8} :
    latchStep es false flag operation command change s ≠ .error t := by
  intro h
  have hwait := except_map_error (of_skipUnless_error h).2
  rw [smbusTransfer, if_pos (by decide)] at hwait
  cases hwait

theorem latchPulse_ne_error {flag command : BitVec 8} :
    latchPulse es false flag command s ≠ .error t := by
  intro h
  rcases of_bind_error (of_skipUnless_error h).2 with hwait | ⟨u, -, hwait⟩
  · exact latchStep_ne_error hwait
  · exact latchStep_ne_error hwait

/-- The first mode does not return from the body. -/
theorem latchBody_ne_error : latchBody es false s ≠ .error t := by
  intro h
  rcases of_bind_error h with hwait | ⟨u, -, h⟩
  · exact latchStep_ne_error hwait
  rcases of_bind_error h with hwait | ⟨v, -, h⟩
  · exact latchPulse_ne_error hwait
  rcases of_bind_error h with hwait | ⟨w, -, h⟩
  · exact latchStep_ne_error hwait
  rcases of_bind_error h with hwait | ⟨x, -, h⟩
  · exact latchPulse_ne_error hwait
  · cases h

/-- With too many expanders the first mode does not come to an end. -/
theorem not_clearAttnLatch (hlength : 256 ≤ es.length) {r : Except LatchState LatchState} :
    ¬ ClearAttnLatch es false s r := by
  exact not_loopReturns (fun s ↦ slaveAddress_ne_iff.mpr (Nat.lt_of_lt_of_le s.index.isLt hlength))
    fun _ _ ↦ latchBody_ne_error

/-! #### The writes -/

/-- A write with BIT1 low and then one with BIT1 high are made to an output register. -/
def Pulsed (log : List SmbTransfer) (index : BitVec 8) (e : Expander) (command : BitVec 8) : Prop :=
  ∃ low high, low.getLsbD 1 = false ∧ high.getLsbD 1 = true ∧
    [⟨index, e.address, .smbWrite, command, low⟩,
      ⟨index, e.address, .smbWrite, command, high⟩].Sublist log

theorem pulsed_of_sublist {log : List SmbTransfer} {command port : BitVec 8}
    (h : (pulseLog index e command port).Sublist log) : Pulsed log index e command :=
  ⟨_, _, bit1Low_getLsbD_one _, bit1High_getLsbD_one _, h⟩

theorem expanderLog_sublist {k i : ℕ} (h : es[i]? = some e) :
    (expanderLog (BitVec.ofNat 8 (k + i)) e).Sublist (latchLog k es) := by
  induction es generalizing k i with
  | nil => cases h
  | cons e' es ih =>
    rw [latchLog]
    cases i with
    | zero =>
      obtain rfl := Option.some.inj h
      exact List.sublist_append_left _ _
    | succ i =>
      rw [← Nat.add_assoc, Nat.add_right_comm]
      exact (ih h).trans (List.sublist_append_right _ _)

theorem of_mem_latchLog {k : ℕ} {x : SmbTransfer} (h : x ∈ latchLog k es) :
    ∃ i e, es[i]? = some e ∧ x ∈ expanderLog (BitVec.ofNat 8 (k + i)) e := by
  induction es generalizing k with
  | nil => cases h
  | cons e' es ih =>
    rw [latchLog, List.mem_append] at h
    rcases h with h | h
    · exact ⟨0, e', rfl, h⟩
    · obtain ⟨i, e, he, hx⟩ := ih h
      refine ⟨i + 1, e, he, ?_⟩
      rwa [← Nat.add_assoc, Nat.add_right_comm]

theorem index_of_mem_pulseLog {x : SmbTransfer} {command port : BitVec 8}
    (h : x ∈ pulseLog index e command port) : x.index = index := by
  rw [pulseLog, List.mem_cons, List.mem_singleton] at h
  rcases h with rfl | rfl
  · rfl
  · rfl

theorem index_of_mem_expanderLog {x : SmbTransfer} (h : x ∈ expanderLog index e) :
    x.index = index := by
  rw [expanderLog, List.mem_cons] at h
  rcases h with rfl | h
  · rfl
  split_ifs at h
  · rw [List.mem_append, port1Log, List.mem_cons] at h
    rcases h with h | rfl | h
    · exact index_of_mem_pulseLog h
    · rfl
    split_ifs at h
    · exact index_of_mem_pulseLog h
    · cases h
  · cases h

end Transfers

/-! ### What should hold -/

/-- The static variables at the start, and a bus that gives some answers. -/
def latchStart (buffer : BitVec 8) (answers : List Bool) : LatchState := ⟨buffer, 0, 0, answers, []⟩

/-- What should hold of the two modes: both come to an end, they complete the same transfers, leave
`Index` and `EntryFlag` at zero, and each port whose BIT4 is clear gets its two writes. -/
def LatchesRight (es : List Expander) (start start' : LatchState) : Prop :=
  ∃ blocking sliced, ClearAttnLatch es false start (.ok blocking) ∧
    ClearAttnLatchSliced es start' sliced ∧
    sliced.log = blocking.log ∧
    (blocking.index = 0 ∧ blocking.entryFlag = 0) ∧ (sliced.index = 0 ∧ sliced.entryFlag = 0) ∧
    ∀ i e, es[i]? = some e →
      (e.port0.getLsbD 4 = false → Pulsed blocking.log (BitVec.ofNat 8 i) e 2 ∧
        Pulsed sliced.log (BitVec.ofNat 8 i) e 2) ∧
      (e.port1.getLsbD 4 = false → Pulsed blocking.log (BitVec.ofNat 8 i) e 3 ∧
        Pulsed sliced.log (BitVec.ofNat 8 i) e 3)

section Both

variable {es : List Expander} {buffer : BitVec 8} {answers : List Bool}

/-- What the two modes do when there are not too many expanders. -/
theorem exists_clearAttnLatch_log (hlength : es.length < 256) (buffer : BitVec 8)
    (answers : List Bool) :
    ∃ t, ClearAttnLatch es false (latchStart buffer answers) (.ok t) ∧
      ClearAttnLatchSliced es (latchStart buffer answers) t ∧
      t.index = 0 ∧ t.entryFlag = 0 ∧ t.log = latchLog 0 es := by
  obtain ⟨t, hret, hindex, hflag, hlog⟩ := clearAttnLatch_blocking hlength 0 (Nat.zero_le _) buffer
    answers []
  obtain ⟨u, hu⟩ := @exists_sliced es (latchStart buffer answers) hlength (Nat.zero_le _)
  obtain rfl : u = t := Except.ok.inj (hu.blocking.unique hret)
  exact ⟨u, hret, hu, hindex, hflag, hlog⟩

/-- The second port of an expander whose first port has BIT4 set gets no write. -/
theorem not_pulsed_port1 (hlength : es.length < 256) {i : ℕ} {e : Expander} (he : es[i]? = some e)
    (hbit : e.port0.getLsbD 4 = true) : ¬ Pulsed (latchLog 0 es) (BitVec.ofNat 8 i) e 3 := by
  rintro ⟨low, high, -, -, hsub⟩
  obtain ⟨j, e', he', hx⟩ := of_mem_latchLog (hsub.subset List.mem_cons_self)
  have hi := (List.getElem?_eq_some_iff.mp he).1
  have hj := (List.getElem?_eq_some_iff.mp he').1
  have hij : i = j := by
    have hindex := congrArg BitVec.toNat (index_of_mem_expanderLog hx)
    rw [Nat.zero_add, BitVec.toNat_ofNat, BitVec.toNat_ofNat, Nat.mod_eq_of_lt (by omega),
      Nat.mod_eq_of_lt (by omega)] at hindex
    exact hindex
  subst hij
  obtain rfl := Option.some.inj (he.symm.trans he')
  rw [expanderLog, hbit, if_neg (by decide), List.mem_singleton] at hx
  have hoperation : SmbOperation.smbWrite = .smbRead := congrArg SmbTransfer.operation hx
  cases hoperation

/-- **The two modes** do what they should if and only if there are less than 256 expanders, and no
expander has BIT4 set at its first port and clear at its second one. -/
theorem latchesRight_iff (es : List Expander) (buffer buffer' : BitVec 8)
    (answers answers' : List Bool) :
    LatchesRight es (latchStart buffer answers) (latchStart buffer' answers') ↔
      es.length < 256 ∧
        ∀ e ∈ es, e.port0.getLsbD 4 = false ∨ e.port1.getLsbD 4 = true := by
  constructor
  · rintro ⟨blocking, sliced, hblocking, -, -, -, -, hpulses⟩
    have hlength : es.length < 256 := by
      by_contra hge
      exact not_clearAttnLatch (Nat.le_of_not_lt hge) hblocking
    refine ⟨hlength, fun e he ↦ ?_⟩
    obtain ⟨i, hi⟩ := List.mem_iff_getElem?.mp he
    by_contra hbits
    obtain ⟨hport0, hport1⟩ := not_or.mp hbits
    obtain ⟨t, hret, -, -, -, hlog⟩ := exists_clearAttnLatch_log hlength buffer answers
    obtain rfl : t = blocking := Except.ok.inj (hret.unique hblocking)
    have hpulsed := ((hpulses i e hi).2 (by simpa using hport1)).1
    rw [hlog] at hpulsed
    exact not_pulsed_port1 hlength hi (by simpa using hport0) hpulsed
  · rintro ⟨hlength, hbits⟩
    obtain ⟨t, hret, -, hindex, hflag, hlog⟩ := exists_clearAttnLatch_log hlength buffer answers
    obtain ⟨u, -, hsliced, hindex', hflag', hlog'⟩ := exists_clearAttnLatch_log hlength buffer'
      answers'
    refine ⟨t, u, hret, hsliced, hlog'.trans hlog.symm, ⟨hindex, hflag⟩, ⟨hindex', hflag'⟩, ?_⟩
    intro i e he
    rw [hlog, hlog', and_self, and_self]
    have hsub := expanderLog_sublist (k := 0) he
    rw [Nat.zero_add, expanderLog] at hsub
    constructor
    · intro hport0
      rw [if_pos hport0] at hsub
      exact pulsed_of_sublist (((List.sublist_append_left _ _).cons _).trans hsub)
    · intro hport1
      have hport0 : e.port0.getLsbD 4 = false := by
        rcases hbits e (List.mem_of_getElem? he) with hport0 | hport1'
        · exact hport0
        · rw [hport1] at hport1'
          cases hport1'
      rw [if_pos hport0, port1Log, if_pos hport1] at hsub
      exact pulsed_of_sublist (((((List.Sublist.refl _).cons _).trans
        (List.sublist_append_right _ _)).cons _).trans hsub)

end Both

/-- The expander of the platform, where BIT4 of the first port is set and that of the second one is
clear. -/
def ioxPort0Set : Expander := ⟨0x4E, 0x10, 0, by decide⟩

/-- The second port of this expander gets no write. -/
theorem not_latchesRight_ioxPort0Set :
    ¬ LatchesRight [ioxPort0Set] (latchStart 0 []) (latchStart 0 []) := by
  rintro ⟨blocking, sliced, hblocking, -, -, -, -, hpulses⟩
  have hlength : [ioxPort0Set].length < 256 := by decide
  obtain ⟨t, hret, -, -, -, hlog⟩ := exists_clearAttnLatch_log hlength 0 []
  obtain rfl : t = blocking := Except.ok.inj (hret.unique hblocking)
  have hpulsed := ((hpulses 0 ioxPort0Set rfl).2 (by decide)).1
  rw [hlog] at hpulsed
  exact not_pulsed_port1 hlength rfl (by decide) hpulsed

end PurleyFirmware.Ras
