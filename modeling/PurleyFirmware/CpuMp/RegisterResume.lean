import PurleyFirmware.CpuMp.RegisterTable

/-!
# Registers at boot and on resume

What the two interpreters of a register table leave. Both write a field alike: the value that is cut
to a `UINTN` on resume is written into a `UINTN` at boot (`setWidth_bitFieldWrite_setWidth`). The two
passes at boot come to one pass over the table, without the entries that are left out
(`settingPhase_eq`), and of these two kinds one tells. A leading microcode entry writes the trigger
register only. The entries for machine check registers, left out while machine check is off, are
entries like all others on resume (`resumesAsBooted_iff`).
-/

namespace PurleyFirmware.CpuMp

variable {u : Uintn} {B : BootSettings} {t : CpuRegisterTable}

/-! ### Registers that agree but for the trigger -/

/-- All registers but the microcode update trigger have the same values. -/
structure AgreeExceptTrigger (s s' : Registers u) : Prop where
  msr : ∀ index ≠ biosUpdtTrig, s.msr index = s'.msr index
  cr0 : s.cr0 = s'.cr0
  cr2 : s.cr2 = s'.cr2
  cr3 : s.cr3 = s'.cr3
  cr4 : s.cr4 = s'.cr4

namespace AgreeExceptTrigger

variable {s s' : Registers u}

theorem refl (s : Registers u) : AgreeExceptTrigger s s :=
  ⟨fun _ _ ↦ rfl, rfl, rfl, rfl, rfl⟩

theorem setControlRegister (h : AgreeExceptTrigger s s') (e : CpuRegisterTableEntry)
    (value : BitVec 64) :
    AgreeExceptTrigger (s.setControlRegister e value) (s'.setControlRegister e value) := by
  obtain ⟨hmsr, hcr0, hcr2, hcr3, hcr4⟩ := h
  rw [Registers.setControlRegister, Registers.setControlRegister]
  by_cases h0 : e.index = 0
  · rw [if_pos h0, if_pos h0]
    exact ⟨hmsr, congrArg (fieldWrite e value) hcr0, hcr2, hcr3, hcr4⟩
  rw [if_neg h0, if_neg h0]
  by_cases h2 : e.index = 2
  · rw [if_pos h2, if_pos h2]
    exact ⟨hmsr, hcr0, congrArg (fieldWrite e value) hcr2, hcr3, hcr4⟩
  rw [if_neg h2, if_neg h2]
  by_cases h3 : e.index = 3
  · rw [if_pos h3, if_pos h3]
    exact ⟨hmsr, hcr0, hcr2, congrArg (fieldWrite e value) hcr3, hcr4⟩
  rw [if_neg h3, if_neg h3]
  by_cases h4 : e.index = 4
  · rw [if_pos h4, if_pos h4]
    exact ⟨hmsr, hcr0, hcr2, hcr3, congrArg (fieldWrite e value) hcr4⟩
  · rw [if_neg h4, if_neg h4]
    exact ⟨hmsr, hcr0, hcr2, hcr3, hcr4⟩

theorem setMsr (h : AgreeExceptTrigger s s') (e : CpuRegisterTableEntry) :
    AgreeExceptTrigger (s.setMsr e) (s'.setMsr e) := by
  refine ⟨fun index hindex ↦ ?_, h.cr0, h.cr2, h.cr3, h.cr4⟩
  rw [Registers.setMsr, Registers.setMsr]
  dsimp only
  rcases eq_or_ne index e.index with rfl | hne
  · rw [Function.update_self, Function.update_self, h.msr _ hindex]
  · rw [Function.update_of_ne hne, Function.update_of_ne hne, h.msr _ hindex]

theorem setCache (h : AgreeExceptTrigger s s') (e : CpuRegisterTableEntry) :
    AgreeExceptTrigger (s.setCache e) (s'.setCache e) := by
  obtain ⟨hmsr, hcr0, hcr2, hcr3, hcr4⟩ := h
  rw [Registers.setCache, Registers.setCache, hcr0]
  by_cases hvalue : e.value = 0
  · rw [if_pos hvalue, if_pos hvalue]
    exact ⟨hmsr, rfl, hcr2, hcr3, hcr4⟩
  · rw [if_neg hvalue, if_neg hvalue]
    exact ⟨hmsr, rfl, hcr2, hcr3, hcr4⟩

/-- An entry does not read the trigger into any other register. -/
theorem executeOnResume (h : AgreeExceptTrigger s s') (e : CpuRegisterTableEntry) :
    AgreeExceptTrigger (executeOnResume s e) (executeOnResume s' e) := by
  rw [CpuMp.executeOnResume, CpuMp.executeOnResume]
  cases e.registerType with
  | msr => exact h.setMsr e
  | controlRegister => exact h.setControlRegister e _
  | cacheControl => exact h.setCache e
  | other => exact h

theorem foldl_executeOnResume (h : AgreeExceptTrigger s s') (es : List CpuRegisterTableEntry) :
    AgreeExceptTrigger (es.foldl CpuMp.executeOnResume s) (es.foldl CpuMp.executeOnResume s') := by
  induction es generalizing s s' with
  | nil => exact h
  | cons e es ih => exact ih (h.executeOnResume e)

end AgreeExceptTrigger

/-- A microcode entry writes the trigger. -/
theorem executeOnResume_microcode {e : CpuRegisterTableEntry} (he : e.isMicrocode = true)
    (s : Registers u) : AgreeExceptTrigger (executeOnResume s e) s := by
  rw [CpuRegisterTableEntry.isMicrocode, Bool.and_eq_true, beq_iff_eq, beq_iff_eq] at he
  rw [executeOnResume, he.1]
  refine ⟨fun index hindex ↦ ?_, rfl, rfl, rfl, rfl⟩
  exact Function.update_of_ne (he.2 ▸ hindex) _ _

/-! ### One entry at boot -/

/-- The value is cut to a `UINTN` on resume, and makes no difference. -/
theorem setControlRegister_setWidth (s : Registers u) (e : CpuRegisterTableEntry) :
    s.setControlRegister e ((e.value.setWidth u.bits).setWidth 64)
      = s.setControlRegister e e.value := by
  have hfield : ∀ old : BitVec u.bits,
      fieldWrite e ((e.value.setWidth u.bits).setWidth 64) old = fieldWrite e e.value old :=
    fun old ↦ setWidth_bitFieldWrite_setWidth u.bits_le _ _ _ _
  rw [Registers.setControlRegister, Registers.setControlRegister, hfield, hfield, hfield, hfield]

/-- Whether boot executes an entry. -/
def keptAtBoot (B : BootSettings) (e : CpuRegisterTableEntry) : Bool :=
  B.machineCheckEnable || !e.isMachineCheck

/-- An entry that boot executes does what it does on resume. -/
theorem executeAtBoot_eq (p : Pass u) (e : CpuRegisterTableEntry) :
    executeAtBoot B false p e
      = if keptAtBoot B e = true then ⟨executeOnResume p.registers e, p.executed ++ [e]⟩ else p := by
  rw [executeAtBoot, executeOnResume, keptAtBoot, CpuRegisterTableEntry.isMachineCheck]
  cases e.registerType with
  | msr =>
    cases B.machineCheckEnable with
    | true => rfl
    | false =>
      cases decide (0x400 ≤ e.index) && decide (e.index ≤ 0x44C) with
      | true => rfl
      | false => rfl
  | controlRegister =>
    dsimp only
    rw [setControlRegister_setWidth]
    cases B.machineCheckEnable with
    | true => rfl
    | false => rfl
  | cacheControl =>
    cases B.machineCheckEnable with
    | true => rfl
    | false => rfl
  | other =>
    cases B.machineCheckEnable with
    | true => rfl
    | false => rfl

theorem foldl_executeAtBoot (es : List CpuRegisterTableEntry) (p : Pass u) :
    es.foldl (executeAtBoot B false) p
      = ⟨(es.filter (keptAtBoot B)).foldl executeOnResume p.registers,
        p.executed ++ es.filter (keptAtBoot B)⟩ := by
  induction es generalizing p with
  | nil => rw [List.foldl_nil, List.filter_nil, List.foldl_nil, List.append_nil]
  | cons e es ih =>
    rw [List.foldl_cons, executeAtBoot_eq, ih]
    by_cases hkept : keptAtBoot B e = true
    · rw [if_pos hkept, List.filter_cons_of_pos hkept, List.foldl_cons, List.append_assoc]
      rfl
    · rw [if_neg hkept, List.filter_cons_of_neg hkept]

/-! ### The setting phase -/

/-- The entries that the two passes visit together. -/
theorem setProcessorRegisterEx_both (p : Pass u) :
    setProcessorRegisterEx B false false t (setProcessorRegisterEx B false true t p)
      = (t.entries.drop (startIndex B t)).foldl (executeAtBoot B false) p := by
  rw [setProcessorRegisterEx, setProcessorRegisterEx]
  rw [if_neg Bool.false_ne_true, if_neg Bool.false_ne_true, if_pos rfl, if_pos rfl,
    ← List.foldl_append, List.take_length, List.drop_take, Nat.add_sub_cancel_left,
    ← List.drop_drop, List.take_append_drop]

/-- **The setting phase** executes the table from the start index on, but for machine check entries
while machine check is off. -/
theorem settingPhase_eq (others : List CpuRegisterTable) (s : Registers u) :
    settingPhase B t others s
      = ⟨((t.entries.drop (startIndex B t)).filter (keptAtBoot B)).foldl executeOnResume s,
        (t.entries.drop (startIndex B t)).filter (keptAtBoot B)⟩ := by
  have hboth : settingPhase B t others s
      = setProcessorRegisterEx B false false t
        (setProcessorRegisterEx B false true t ⟨s, []⟩) := by
    rw [settingPhase]
    by_cases hneed : ((t :: others).any fun table ↦ decide (0 < table.numberBeforeReset)) = true
    · rw [if_pos hneed]
    · rw [if_neg hneed]
      -- without a reset there is nothing before it in this table
      have hzero : t.numberBeforeReset = 0 := by
        rw [List.any_cons, Bool.or_eq_true, decide_eq_true_eq] at hneed
        exact Nat.eq_zero_of_not_pos fun hpos ↦ hneed (.inl hpos)
      have hnone : setProcessorRegisterEx B false true t ⟨s, []⟩ = ⟨s, []⟩ := by
        rw [setProcessorRegisterEx]
        rw [if_pos rfl, if_pos rfl, hzero, List.drop_take, Nat.add_zero, Nat.sub_self,
          List.take_zero, List.foldl_nil]
      rw [hnone]
  rw [hboth, setProcessorRegisterEx_both, foldl_executeAtBoot, List.nil_append]

/-- The start index is 0, or the table begins with a microcode entry. -/
theorem drop_startIndex (B : BootSettings) (t : CpuRegisterTable) :
    t.entries.drop (startIndex B t) = t.entries ∨
      ∃ e, e.isMicrocode = true ∧ t.entries = e :: t.entries.drop (startIndex B t) := by
  rw [startIndex]
  by_cases hskip :
      (B.microcodeUpdateFlag && B.microcodeRevision != 0 && leadingMicrocode t.entries) = true
  · right
    rw [if_pos hskip]
    rw [Bool.and_eq_true] at hskip
    have hleading := hskip.2
    rw [leadingMicrocode] at hleading
    cases hentries : t.entries with
    | nil =>
      rw [hentries] at hleading
      cases hleading
    | cons e rest =>
      rw [hentries] at hleading
      exact ⟨e, hleading, rfl⟩
  · left
    rw [if_neg hskip, List.drop_zero]

/-! ### Resume against boot -/

/-- Resume leaves in the registers what boot left there, and boot executed every entry but a leading
microcode entry, once and in order. -/
structure ResumesAsBooted (B : BootSettings) (t : CpuRegisterTable)
    (others : List CpuRegisterTable) (s : Registers u) : Prop where
  registers : AgreeExceptTrigger (setProcessorRegister t s) (settingPhase B t others s).registers
  executed : (settingPhase B t others s).executed = t.entries ∨
    ∃ e, e.isMicrocode = true ∧ t.entries = e :: (settingPhase B t others s).executed

/-- Machine check is on, or the table has no entry for a machine check register. -/
def NothingPassedOver (B : BootSettings) (t : CpuRegisterTable) : Prop :=
  B.machineCheckEnable = true ∨ ∀ e ∈ t.entries, e.isMachineCheck = false

theorem NothingPassedOver.filter_eq (h : NothingPassedOver B t) {es : List CpuRegisterTableEntry}
    (hes : ∀ e ∈ es, e ∈ t.entries) : es.filter (keptAtBoot B) = es := by
  refine List.filter_eq_self.2 fun e he ↦ ?_
  rw [keptAtBoot]
  rcases h with hon | hnone
  · rw [hon, Bool.true_or]
  · rw [hnone e (hes e he), Bool.not_false, Bool.or_true]

/-- Where boot executes all entries but the microcode one, the registers agree. -/
theorem NothingPassedOver.resumesAsBooted (h : NothingPassedOver B t)
    (others : List CpuRegisterTable) (s : Registers u) : ResumesAsBooted B t others s := by
  have hphase : settingPhase B t others s
      = ⟨(t.entries.drop (startIndex B t)).foldl executeOnResume s,
        t.entries.drop (startIndex B t)⟩ := by
    rw [settingPhase_eq, h.filter_eq fun e he ↦ List.mem_of_mem_drop he]
  have hcases := drop_startIndex B t
  generalize t.entries.drop (startIndex B t) = rest at hphase hcases
  rcases hcases with hall | ⟨e, he, hrest⟩
  · refine ⟨?_, .inl ?_⟩
    · rw [hphase, hall]
      exact .refl _
    · rw [hphase, hall]
  · refine ⟨?_, .inr ⟨e, he, ?_⟩⟩
    · rw [hphase, setProcessorRegister, hrest, List.foldl_cons]
      exact (executeOnResume_microcode he s).foldl_executeOnResume rest
    · rw [hphase]
      exact hrest

theorem executeOnResume_msr_of_not {e : CpuRegisterTableEntry} {index : BitVec 32}
    (h : ¬ (e.registerType = .msr ∧ e.index = index)) (s : Registers u) :
    (executeOnResume s e).msr index = s.msr index := by
  rw [executeOnResume]
  cases htype : e.registerType with
  | msr =>
    have hne : index ≠ e.index := fun heq ↦ h ⟨htype, heq.symm⟩
    exact Function.update_of_ne hne _ _
  | controlRegister =>
    dsimp only
    rw [Registers.setControlRegister]
    split
    · rfl
    split
    · rfl
    split
    · rfl
    split
    · rfl
    · rfl
  | cacheControl =>
    dsimp only
    rw [Registers.setCache]
    split
    · rfl
    · rfl
  | other => rfl

/-- A bit of the field of an entry is then that of the value. -/
theorem executeOnResume_msr_bit {e : CpuRegisterTableEntry} (htype : e.registerType = .msr) :
    ∃ b < 64, ∀ s : Registers u,
      ((executeOnResume s e).msr e.index).getLsbD b = e.value.getLsbD 0 := by
  have hmsr : ∀ s : Registers u, (executeOnResume s e).msr e.index
      = if 64 ≤ e.validBitLength.toNat then e.value
        else bitFieldWrite (s.msr e.index) e.validBitStart.toNat e.validBitEnd e.value := by
    intro s
    rw [executeOnResume, htype]
    exact Function.update_self _ _ _
  by_cases hlong : 64 ≤ e.validBitLength.toNat
  · refine ⟨0, by decide, fun s ↦ ?_⟩
    rw [hmsr, if_pos hlong]
  · have hfield : writesBitField e.registerType e.index e.validBitLength = true := by
      rw [htype]
      exact decide_eq_true (by omega)
    obtain ⟨hlength, hend⟩ := e.valid hfield
    refine ⟨e.validBitStart.toNat, by omega, fun s ↦ ?_⟩
    have hinside : e.validBitStart.toNat ≤ e.validBitStart.toNat ∧
        e.validBitStart.toNat ≤ e.validBitEnd := by
      rw [CpuRegisterTableEntry.validBitEnd]
      omega
    rw [hmsr, if_neg hlong, getLsbD_bitFieldWrite _ _ (by omega), if_pos hinside, Nat.sub_self]

theorem foldl_msr_of_not {es : List CpuRegisterTableEntry} {index : BitVec 32}
    (h : ∀ e ∈ es, ¬ (e.registerType = .msr ∧ e.index = index)) (s : Registers u) :
    (es.foldl executeOnResume s).msr index = s.msr index := by
  induction es generalizing s with
  | nil => rfl
  | cons e es ih =>
    rw [List.foldl_cons, ih fun e' he' ↦ h e' (List.mem_cons_of_mem e he'),
      executeOnResume_msr_of_not (h e List.mem_cons_self)]

/-- Some bit of a register that a table writes does not depend on what was there before. -/
theorem foldl_msr_bit {es : List CpuRegisterTableEntry} {index : BitVec 32}
    (h : ∃ e ∈ es, e.registerType = .msr ∧ e.index = index) :
    ∃ b < 64, ∃ v, ∀ s : Registers u,
      ((es.foldl executeOnResume s).msr index).getLsbD b = v := by
  induction es with
  | nil =>
    obtain ⟨e, he, -⟩ := h
    cases he
  | cons e es ih =>
    by_cases hlater : ∃ e' ∈ es, e'.registerType = .msr ∧ e'.index = index
    · obtain ⟨b, hb, v, hv⟩ := ih hlater
      exact ⟨b, hb, v, fun s ↦ hv (executeOnResume s e)⟩
    · -- `e` is the last to write the register
      obtain ⟨e', he', htype, hindex⟩ := h
      rcases List.mem_cons.1 he' with rfl | hes
      · obtain ⟨b, hb, hbit⟩ := executeOnResume_msr_bit (u := u) htype
        refine ⟨b, hb, e'.value.getLsbD 0, fun s ↦ ?_⟩
        rw [List.foldl_cons, foldl_msr_of_not fun e he hsame ↦ hlater ⟨e, he, hsame⟩, ← hindex,
          hbit]
      · exact absurd ⟨e', hes, htype, hindex⟩ hlater

theorem isMachineCheck_iff {e : CpuRegisterTableEntry} :
    e.isMachineCheck = true ↔ e.registerType = .msr ∧ 0x400 ≤ e.index ∧ e.index ≤ 0x44C := by
  rw [CpuRegisterTableEntry.isMachineCheck, Bool.and_eq_true, Bool.and_eq_true, beq_iff_eq,
    decide_eq_true_eq, decide_eq_true_eq]

/-- **The registers alone tell**: whatever boot leaves out, some processor has other values in its
machine check registers on resume. -/
theorem nothingPassedOver_of_agree {others : List CpuRegisterTable}
    (h : ∀ s : Registers u, AgreeExceptTrigger (setProcessorRegister t s)
      (settingPhase B t others s).registers) : NothingPassedOver B t := by
  by_contra hnot
  rw [NothingPassedOver, not_or] at hnot
  obtain ⟨hoff, hsome⟩ := hnot
  obtain ⟨e, he, hmc⟩ : ∃ e ∈ t.entries, e.isMachineCheck = true := by
    by_contra hnone
    exact hsome fun e he ↦ Bool.eq_false_iff.2 fun hmc ↦ hnone ⟨e, he, hmc⟩
  obtain ⟨htype, hlow, hhigh⟩ := isMachineCheck_iff.1 hmc
  obtain ⟨b, hb, v, hv⟩ := foldl_msr_bit (u := u) ⟨e, he, htype, rfl⟩
  -- boot leaves every register of this index as it was
  have hkeeps : ∀ s : Registers u, (settingPhase B t others s).registers.msr e.index
      = s.msr e.index := by
    intro s
    rw [settingPhase_eq]
    refine foldl_msr_of_not (fun e' he' hsame ↦ ?_) s
    have hkept := (List.mem_filter.1 he').2
    have hmc' : e'.isMachineCheck = true :=
      isMachineCheck_iff.2 ⟨hsame.1, hsame.2 ▸ hlow, hsame.2 ▸ hhigh⟩
    rw [keptAtBoot, hmc', Bool.eq_false_iff.2 hoff] at hkept
    cases hkept
  have htrigger : e.index ≠ biosUpdtTrig := by
    intro heq
    rw [heq] at hlow
    exact absurd hlow (by decide)
  -- so a bit that the table sets one way is set the other way
  have hbit : ∀ s : Registers u, v = (s.msr e.index).getLsbD b := by
    intro s
    rw [← hkeeps s, ← (h s).msr _ htrigger]
    exact (hv s).symm
  have hzero : v = false := (hbit ⟨fun _ ↦ 0#64, 0, 0, 0, 0⟩).trans BitVec.getLsbD_zero
  have hones : v = true := by
    refine (hbit ⟨fun _ ↦ ~~~0#64, 0, 0, 0, 0⟩).trans ?_
    change (~~~0#64).getLsbD b = true
    rw [BitVec.getLsbD_not, BitVec.getLsbD_zero, decide_eq_true hb]
    rfl
  exact Bool.noConfusion (hzero.symm.trans hones)

/-- The registers agree for all initial values exactly if boot leaves out nothing else. -/
theorem agree_iff {others : List CpuRegisterTable} :
    (∀ s : Registers u, AgreeExceptTrigger (setProcessorRegister t s)
      (settingPhase B t others s).registers) ↔ NothingPassedOver B t :=
  ⟨nothingPassedOver_of_agree, fun h s ↦ (h.resumesAsBooted others s).registers⟩

/-- What boot leaves out it does not execute. -/
theorem nothingPassedOver_of_executed {others : List CpuRegisterTable} {s : Registers u}
    (h : (settingPhase B t others s).executed = t.entries ∨
      ∃ e, e.isMicrocode = true ∧ t.entries = e :: (settingPhase B t others s).executed) :
    NothingPassedOver B t := by
  refine or_iff_not_imp_left.2 fun hoff e he ↦ Bool.eq_false_iff.2 fun hmc ↦ ?_
  have hexecuted : e ∉ (settingPhase B t others s).executed := by
    rw [settingPhase_eq]
    intro hmem
    have hkept := (List.mem_filter.1 hmem).2
    rw [keptAtBoot, hmc, Bool.eq_false_iff.2 hoff] at hkept
    cases hkept
  rcases h with hall | ⟨m, hm, hrest⟩
  · exact hexecuted (hall ▸ he)
  · rw [hrest] at he
    rcases List.mem_cons.1 he with rfl | hmem
    · -- the trigger is no machine check register
      rw [CpuRegisterTableEntry.isMicrocode, Bool.and_eq_true, beq_iff_eq, beq_iff_eq] at hm
      have hlow := (isMachineCheck_iff.1 hmc).2.1
      rw [hm.2] at hlow
      exact absurd hlow (by decide)
    · exact hexecuted hmem

/-- **Resume and boot.** Resume programs what boot programmed, and boot executes every entry but a
leading microcode entry once and in order, exactly if machine check is on or the table has no entry
for a machine check register. -/
theorem resumesAsBooted_iff (u : Uintn) (B : BootSettings) (t : CpuRegisterTable)
    (others : List CpuRegisterTable) (s : Registers u) :
    ResumesAsBooted B t others s ↔
      B.machineCheckEnable = true ∨ ∀ e ∈ t.entries, e.isMachineCheck = false :=
  ⟨fun h ↦ nothingPassedOver_of_executed h.executed,
    fun h ↦ NothingPassedOver.resumesAsBooted h others s⟩

/-! ### A machine check register -/

/-- All features of the first machine check bank on. -/
def enableBank0 : CpuRegisterTableEntry where
  registerType := .msr
  index := 0x400
  validBitStart := 0
  validBitLength := 64
  value := 0xFFFFFFFFFFFFFFFF
  valid := by decide

/-- A table of this entry. -/
def bank0Table : CpuRegisterTable where
  entries := [enableBank0]
  numberBeforeReset := 0
  before_le := by decide

/-- Machine check off, and no microcode patch. -/
def machineCheckOff : BootSettings where
  microcodeUpdateFlag := true
  microcodeRevision := 0
  machineCheckEnable := false

/-- With machine check off the register is written on resume and not at boot. -/
theorem not_resumesAsBooted_bank0Table :
    ¬ ResumesAsBooted machineCheckOff bank0Table [] (u := .x64) ⟨fun _ ↦ 0, 0, 0, 0, 0⟩ := by
  intro h
  have hmsr := h.registers.msr 0x400 (by decide)
  exact absurd hmsr (by decide)

end PurleyFirmware.CpuMp
