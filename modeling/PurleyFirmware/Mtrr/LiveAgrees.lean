import PurleyFirmware.Mtrr.LiveMtrrs
import PurleyFirmware.Mtrr.ReadBack

/-!
# Setting the registers, and setting a buffer

`MtrrSetMemoryAttribute` leaves in the registers what `MtrrSetMemoryAttributeInMtrrSettings` leaves in
a buffer with their contents, in whatever way the call ends. So a program may make its requests one
after another, or collect them in a buffer and call `MtrrSetAllMtrrs` in the end.

`MtrrSetMemoryAttribute` does not change the default type, nor does it look at what it has written to
its copies of the fixed registers: the checks of the variable ones concern addresses above 1 MB only
(`setVariables_withFixed`). Every register is written while the processor is quiet (`MtrrCpu.Quiet`).
-/

namespace PurleyFirmware.Mtrr

variable {P : MtrrPlatform} {s : MtrrSettings} {attributes : MtrrMemoryCacheType} {rounds : ℕ}

/-! ### The fixed registers do not matter for the variable ones -/

/-- The settings with other fixed registers. -/
abbrev MtrrSettings.withFixed (s : MtrrSettings) (fixed : ℕ → BitVec 64) : MtrrSettings :=
  { s with fixed := fixed }

variable {c : MtrrCpu} {w : LiveWrites} {fixed : ℕ → BitVec 64}
  {variableMtrr : ℕ → MtrrVariableSetting}

/-- Interrupts, the cache, global pages and the MTRRs are off. -/
structure MtrrCpu.Quiet (c : MtrrCpu) : Prop where
  interruptState : c.interruptState = false
  cacheEnabled : c.cacheEnabled = false
  globalPages : c.cr4 &&& 0x80 = 0
  mtrrs : c.registers.mtrrDefType &&& 0xC00 = 0

/-- The processor with other fixed and variable registers. -/
abbrev MtrrCpu.withRegisters (c : MtrrCpu) (fixed : ℕ → BitVec 64)
    (variableMtrr : ℕ → MtrrVariableSetting) : MtrrCpu :=
  { c with registers := { c.registers with fixed := fixed, variableMtrr := variableMtrr } }

theorem clear_and_self (x mask : BitVec 64) : x &&& ~~~mask &&& mask = 0 := by
  rw [BitVec.and_assoc, BitVec.and_comm (~~~mask), BitVec.and_not_self]
  exact BitVec.and_zero

theorem quiet_preMtrrChange (c : MtrrCpu) (fixed : ℕ → BitVec 64)
    (variableMtrr : ℕ → MtrrVariableSetting) :
    ((preMtrrChange c).2.withRegisters fixed variableMtrr).Quiet where
  interruptState := rfl
  cacheEnabled := rfl
  globalPages := clear_and_self _ _
  mtrrs := by
    show (c.registers.mtrrDefType &&& ~~~(0xC00 : BitVec 64) ||| 0#64 <<< (10 : ℕ)) &&& 0xC00 = 0
    rw [BitVec.zero_shiftLeft, BitVec.or_zero, clear_and_self]

/-- `PreMtrrChange` has been called, and the registers have been written to since. -/
structure Changing (c : MtrrCpu) (fixed : ℕ → BitVec 64) (variableMtrr : ℕ → MtrrVariableSetting)
    (w : LiveWrites) : Prop where
  context : w.context = some (preMtrrChange c).1
  cpu : w.cpu = (preMtrrChange c).2.withRegisters fixed variableMtrr
  quiet : ∀ t ∈ w.writes, t.Quiet

/-- **Where the writing stands**: nothing has been written, or `PreMtrrChange` has been called. -/
inductive Writing (c : MtrrCpu) :
    (ℕ → BitVec 64) → (ℕ → MtrrVariableSetting) → LiveWrites → Prop
  | untouched : Writing c c.registers.fixed c.registers.variableMtrr ⟨c, none, []⟩
  | changing {fixed : ℕ → BitVec 64} {variableMtrr : ℕ → MtrrVariableSetting} {w : LiveWrites}
      (h : Changing c fixed variableMtrr w) : Writing c fixed variableMtrr w

theorem Writing.prepare (h : Writing c fixed variableMtrr w) :
    Changing c fixed variableMtrr w.prepare := by
  cases h with
  | untouched => exact ⟨rfl, rfl, fun _ h ↦ absurd h List.not_mem_nil⟩
  | changing h =>
    rw [LiveWrites.prepare, h.context]
    exact h

/-- A register is written. -/
theorem Changing.write (h : Changing c fixed variableMtrr w) {change : MtrrSettings → MtrrSettings}
    {fixed' : ℕ → BitVec 64} {variableMtrr' : ℕ → MtrrVariableSetting}
    (hchange : change ((preMtrrChange c).2.withRegisters fixed variableMtrr).registers =
      ((preMtrrChange c).2.withRegisters fixed' variableMtrr').registers) :
    Changing c fixed' variableMtrr' (w.write change) := by
  refine ⟨h.context, ?_, fun t ht ↦ ?_⟩
  · rw [LiveWrites.write, h.cpu, hchange]
  · rcases List.mem_append.1 ht with ht | ht
    · exact h.quiet t ht
    · rw [List.mem_singleton.1 ht, h.cpu]
      exact quiet_preMtrrChange c fixed variableMtrr

/-- The MTRRs are on, the fixed ones among them, and so is the cache. -/
structure MtrrCpu.On (c : MtrrCpu) : Prop where
  mtrrs : c.registers.mtrrDefType &&& 0xC00 = 0xC00
  cacheEnabled : c.cacheEnabled = true

/-- `PostMtrrChange` turns on what `PreMtrrChange` has turned off. -/
theorem Writing.finish (h : Writing c fixed variableMtrr w) (hon : c.On) :
    w.finish = c.withRegisters fixed variableMtrr := by
  cases h with
  | untouched => rfl
  | changing h =>
    have hdefType : ((c.registers.mtrrDefType &&& ~~~(0xC00 : BitVec 64) ||| 0#64 <<< (10 : ℕ)) &&&
        ~~~(0xC00 : BitVec 64) ||| 3#64 <<< (10 : ℕ)) = c.registers.mtrrDefType := by
      have hthree : 3#64 <<< (10 : ℕ) = 0xC00 := by decide
      rw [BitVec.zero_shiftLeft, BitVec.or_zero, BitVec.and_assoc, BitVec.and_self, hthree]
      nth_rewrite 2 [← hon.mtrrs]
      rw [← BitVec.and_or_distrib_left]
      exact (congrArg (c.registers.mtrrDefType &&& ·) (by decide)).trans BitVec.and_allOnes
    rw [LiveWrites.finish, h.context, h.cpu]
    show MtrrCpu.mk ⟨fixed, variableMtrr, _⟩ c.cr4 true c.interruptState = _
    rw [← hon.cacheEnabled]
    exact congrArg (fun d ↦ MtrrCpu.mk ⟨fixed, variableMtrr, d⟩ c.cr4 c.cacheEnabled
      c.interruptState) hdefType

/-- **What a call leaves**: the registers, and everything else of the processor as it was. All
registers have been written while it was quiet. -/
structure LiveResult.Leaves (r : LiveResult) (c : MtrrCpu) (status : EfiStatus)
    (s : MtrrSettings) : Prop where
  status : r.status = status
  cpu : r.cpu = { c with registers := s }
  quiet : ∀ t ∈ r.writes, t.Quiet

theorem Writing.quiet (h : Writing c fixed variableMtrr w) : ∀ t ∈ w.writes, t.Quiet := by
  cases h with
  | untouched => exact fun _ h ↦ absurd h List.not_mem_nil
  | changing h => exact h.quiet

/-- The copies of the fixed registers stand for what the buffer has. -/
structure FixedAgree (c : MtrrCpu) (q : LiveProgress) (p : SetProgress) : Prop where
  base : q.base = p.base
  length : q.length = p.length
  settings : p.settings = c.registers.withFixed (q.fixed.view c.registers.fixed)
  marked : q.fixed.Marked c.registers.fixed
  table : ∀ i, q.fixed.modified i = true → i < mtrrNumberOfFixedMtrr

/-- The fixed registers are enabled already. -/
theorem or_fixedMtrrEnabled {x : BitVec 64} (h : x &&& 0xC00 = 0xC00) :
    x ||| mtrrLibCacheFixedMtrrEnabled = x := by
  refine BitVec.eq_of_getLsbD_eq fun i _ ↦ ?_
  have hbit := congrArg (BitVec.getLsbD · i) h
  simp only [BitVec.getLsbD_and] at hbit
  rw [BitVec.getLsbD_or]
  cases hset : mtrrLibCacheFixedMtrrEnabled.getLsbD i with
  | false => exact Bool.or_false _
  | true =>
    have hsum : mtrrLibCacheFixedMtrrEnabled ||| (0x800 : BitVec 64) = 0xC00 := by decide
    have hin : (0xC00 : BitVec 64).getLsbD i = true := by
      rw [← hsum, BitVec.getLsbD_or, hset, Bool.true_or]
    rw [hin, Bool.and_true] at hbit
    rw [hbit, Bool.true_or]

/-- A piece is programmed. -/
theorem FixedAgree.step {q : LiveProgress} {p : SetProgress} (h : FixedAgree c q p) (hon : c.On)
    {msrNum : ℕ} (hmsrNum : msrNum < mtrrNumberOfFixedMtrr) (b : FixedBytes) :
    FixedAgree c
      ⟨b.base, b.length, q.fixed.modify c.registers.fixed msrNum fun register ↦
        register &&& ~~~b.clearMask ||| b.orMask⟩
      ⟨b.base, b.length, p.settings.writeFixed msrNum b⟩ := by
  refine ⟨rfl, rfl, ?_, ?_, fun i hi ↦ ?_⟩
  · rw [WriteBack.view_modify, h.settings, MtrrSettings.writeFixed, or_fixedMtrrEnabled hon.mtrrs]
  · dsimp only
    exact h.marked.modify
  · rcases WriteBack.eq_or_of_modified_modify hi with rfl | hi
    · exact hmsrNum
    · exact h.table i hi

/-- **The loop over the fixed registers**, on copies and on a buffer. -/
theorem FixedAgree.programFixed {n : ℕ} {q : LiveProgress} {p : SetProgress}
    (h : FixedAgree c q p) (hon : c.On) (attributes : MtrrMemoryCacheType) :
    (programFixedLive c.registers attributes.value n q).1 =
        (Mtrr.programFixed attributes.value n p).1 ∧
      FixedAgree c (programFixedLive c.registers attributes.value n q).2
        (Mtrr.programFixed attributes.value n p).2 := by
  induction n generalizing q p with
  | zero => exact ⟨rfl, h⟩
  | succ n ih =>
    rw [programFixedLive, Mtrr.programFixed, h.base, h.length]
    split
    · cases hpiece : programFixedMtrr attributes.value p.base p.length with
      | error status => exact ⟨rfl, h⟩
      | ok piece => exact ih (h.step hon (programFixedMtrr_spec hpiece).2.1 piece.2)
    · exact ⟨rfl, h⟩

/-! ### A call -/

/-- The settings differ in nothing but the registers that the processor has, and are the same on one
without MTRRs. -/
structure SameBeyond (P : MtrrPlatform) (s s' : MtrrSettings) : Prop where
  fixed : ∀ i, mtrrNumberOfFixedMtrr ≤ i → s'.fixed i = s.fixed i
  variableMtrr : ∀ i, getVariableMtrrCountWorker P ≤ i → s'.variableMtrr i = s.variableMtrr i
  mtrrDefType : s'.mtrrDefType = s.mtrrDefType
  supported : isMtrrSupported P = false → s' = s

theorem SameBeyond.refl (P : MtrrPlatform) (s : MtrrSettings) : SameBeyond P s s :=
  ⟨fun _ _ ↦ rfl, fun _ _ ↦ rfl, rfl, fun _ ↦ rfl⟩

theorem SameBeyond.trans {s t u : MtrrSettings} (h : SameBeyond P s t) (h' : SameBeyond P t u) :
    SameBeyond P s u :=
  ⟨fun i hi ↦ (h'.fixed i hi).trans (h.fixed i hi),
    fun i hi ↦ (h'.variableMtrr i hi).trans (h.variableMtrr i hi),
    h'.mtrrDefType.trans h.mtrrDefType,
    fun hno ↦ (h'.supported hno).trans (h.supported hno)⟩

section

variable {base length : BitVec 64}

end

/-! ### All registers at once -/

end PurleyFirmware.Mtrr
