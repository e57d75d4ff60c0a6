import PurleyFirmware.Mtrr.Combining
import PurleyFirmware.Mtrr.FixedTypes

/-!
# How a call ends

Every call of `MtrrSetMemoryAttributeInMtrrSettings` ends (`exists_workerEnd`): it is refused, or it
was for the fixed registers only, or the variable ones have the rest. There it may be refused still,
or the range had its type already, or registers were cleared and nothing had to be programmed, or a
decomposition of the range has been programmed (`VariablesEnd`).

The registers that are enabled afterwards are those that `CombineMemoryAttribute` kept, and those
that were programmed. So they are well-formed if they were before.
-/

namespace PurleyFirmware.Mtrr

variable {P : MtrrPlatform} {s s' : MtrrSettings} {attributes : MtrrMemoryCacheType}
  {p : SetProgress} {c : CombineVars} {rounds : ℕ}

/-! ### The lookup -/

/-- An address is covered by a well-formed entry if it is in its range. -/
theorem VariableMtrr.WellFormed.covers_iff {v : VariableMtrr} (h : v.WellFormed P)
    {a : BitVec 64} : v.Covers a ↔ v.valid = true ∧ v.Contains a.toNat := by
  have hend := h.lt
  have hsum : (v.baseAddress + v.length).toNat = v.baseAddress.toNat + v.length.toNat := by
    rw [BitVec.toNat_add]
    omega
  rw [VariableMtrr.Covers, VariableMtrr.Contains, BitVec.le_def, BitVec.lt_def, hsum]

theorem shadowMtrrs_of_lt {i : ℕ} (hi : i < getFirmwareVariableMtrrCountWorker P) :
    (shadowMtrrs P s).1 i = shadowMtrr P (s.variableMtrr i) := if_pos hi

/-- The types of the registers that cover an address. -/
theorem mem_coveringTypes_iff {a type : BitVec 64} :
    type ∈ coveringTypes P (getFirmwareVariableMtrrCountWorker P) s a ↔
      ∃ i, ((shadowMtrrs P s).1 i).Covers a ∧ ((shadowMtrrs P s).1 i).type = type := by
  rw [coveringTypes_eq, List.mem_map]
  constructor
  · rintro ⟨i, hi, htype⟩
    rw [List.mem_filter, List.mem_range, decide_eq_true_eq] at hi
    refine ⟨i, ?_⟩
    rw [shadowMtrrs_of_lt hi.1]
    exact ⟨hi.2, htype⟩
  · rintro ⟨i, hcovers, htype⟩
    have hi := lt_of_valid hcovers.1
    rw [shadowMtrrs_of_lt hi] at hcovers htype
    exact ⟨i, List.mem_filter.2 ⟨List.mem_range.2 hi, decide_eq_true hcovers⟩, htype⟩

/-- Above the first megabyte, the types of the registers are combined. -/
theorem lookup_eq_combinedType {a : BitVec 64}
    (henabled : s.mtrrDefType &&& mtrrLibCacheMtrrEnabled ≠ 0) (ha : base1Mb ≤ a) :
    mtrrGetMemoryAttributeByAddressWorker P s a =
      combinedType s (coveringTypes P (getFirmwareVariableMtrrCountWorker P) s a) := by
  rw [mtrrGetMemoryAttributeByAddressWorker_eq henabled ha, variableType_eq]
  rfl

/-! ### The registers that stay -/

/-- The registers of the firmware that are enabled after `InvalidateMtrr` are those whose entries
are valid still. -/
theorem registersBefore_of_enabled
    (hused : ∀ i, (c.shadow i).used = ((shadowMtrrs P p.settings).1 i).used) {i : ℕ}
    (hi : i < getFirmwareVariableMtrrCountWorker P)
    (henabled : (registersBefore P p c i).Enabled) :
    (c.shadow i).valid = true ∧ registersBefore P p c i = p.settings.variableMtrr i := by
  have hle : getFirmwareVariableMtrrCountWorker P ≤ getVariableMtrrCountWorker P := Nat.sub_le _ _
  rw [registersBefore, invalidateMtrr] at henabled ⊢
  split at henabled
  next => exact absurd rfl henabled
  next hstays =>
    rw [if_neg hstays]
    refine ⟨Bool.of_not_eq_false fun hgone ↦ hstays ⟨by omega, hgone, ?_⟩, rfl⟩
    rw [hused, used_shadowMtrrs, valid_shadowMtrrs]
    exact ⟨hi, henabled⟩

theorem registersBefore_of_valid {i : ℕ} (hvalid : (c.shadow i).valid = true) :
    registersBefore P p c i = p.settings.variableMtrr i := by
  rw [registersBefore, invalidateMtrr, if_neg]
  rintro ⟨-, hgone, -⟩
  cases hvalid.symm.trans hgone

theorem Combined.used {shadow : ℕ → VariableMtrr} {type base length : BitVec 64}
    (h : Combined P shadow type base length c) (i : ℕ) : (c.shadow i).used = (shadow i).used := by
  rcases h.entry i with heq | heq
  · rw [heq]
  · rw [heq]

theorem Combined.valid {shadow : ℕ → VariableMtrr} {type base length : BitVec 64}
    (h : Combined P shadow type base length c) {i : ℕ} (hvalid : (c.shadow i).valid = true) :
    (shadow i).valid = true := by
  rcases h.entry i with heq | heq
  · rwa [heq] at hvalid
  · rw [heq] at hvalid
    cases hvalid

/-! ### How the worker ends -/

/-- The range is one that `MtrrSetMemoryAttributeWorker` comes to with the variable registers. -/
structure ReachesVariables (P : MtrrPlatform) (p : SetProgress) : Prop where
  base_ge : base1Mb ≤ p.base
  length_ne : p.length ≠ 0
  pages : 2 ^ 12 ∣ p.base.toNat ∧ 2 ^ 12 ∣ p.length.toNat
  ends : p.base.toNat + p.length.toNat ≤ 2 ^ addressBits P

namespace ReachesVariables

/-- The range that goes into the registers is the same, or starts at 0. -/
theorem variableRange (h : ReachesVariables P p) :
    (variableBase p).toNat ≤ p.base.toNat ∧
      (variableBase p).toNat + (variableLength p).toNat = p.base.toNat + p.length.toNat ∧
      2 ^ 12 ∣ (variableBase p).toNat ∧ 2 ^ 12 ∣ (variableLength p).toNat := by
  have hends := h.ends
  have hpages := h.pages
  have hlimit : 2 ^ addressBits P ≤ 2 ^ 52 := Nat.pow_le_pow_right (Nat.succ_pos 1) addressBits_le
  rw [variableBase, variableLength]
  split
  next hbase =>
    have hmb : base1Mb.toNat = 0x100000 := rfl
    have hzero : (0 : BitVec 64).toNat = 0 := rfl
    rw [hbase, hmb] at hends ⊢
    rw [BitVec.toNat_add, hmb, hzero]
    omega
  next => exact ⟨Nat.le_refl _, rfl, hpages⟩

theorem variableLength_ne (h : ReachesVariables P p) : variableLength p ≠ 0 := by
  intro hzero
  obtain ⟨hle, hsum, -⟩ := h.variableRange
  have hpos : 0 < p.length.toNat :=
    Nat.pos_of_ne_zero fun hzero ↦ h.length_ne (BitVec.eq_of_toNat_eq hzero)
  have hnone : (variableLength p).toNat = 0 := congrArg BitVec.toNat hzero
  omega

theorem combined (h : ReachesVariables P p) (hwf : WellFormedMtrrs P p.settings)
    (hc : combineRequest P attributes p = .ok c) :
    Combined P (shadowMtrrs P p.settings).1 attributes.value (variableBase p) (variableLength p)
      c := by
  obtain ⟨-, hsum, hpages⟩ := h.variableRange
  exact combineRequest_spec hwf h.variableLength_ne hpages (hsum ▸ h.ends) hc

/-- The check of the range answers. -/
theorem exists_mapped (h : ReachesVariables P p) (hrounds : 2 ^ 64 < rounds) (type : BitVec 64) :
    ∃ b, checkMemoryAttributeMapped P p.settings type (shadowMtrrs P p.settings).1
        (getFirmwareVariableMtrrCountWorker P) rounds (variableBase p)
        (variableBase p + variableLength p - 1) = some b ∧
      (b = true → ∀ a : BitVec 64, p.base ≤ a → a.toNat < p.base.toNat + p.length.toNat →
        mtrrGetMemoryAttributeByAddressWorker P p.settings a = type) := by
  obtain ⟨hle, hsum, -⟩ := h.variableRange
  have hpos : 0 < p.length.toNat :=
    Nat.pos_of_ne_zero fun hzero ↦ h.length_ne (BitVec.eq_of_toNat_eq hzero)
  have hlast : (variableBase p + variableLength p - 1).toNat + 1 = p.base.toNat + p.length.toNat :=
    (toNat_rangeLast h.variableLength_ne (hsum ▸ h.ends)).trans hsum
  have hbase := BitVec.le_def.1 h.base_ge
  obtain ⟨rounds, rfl⟩ : ∃ n, rounds = n + 1 := ⟨rounds - 1, by omega⟩
  obtain ⟨hfirst, hmb, -, hbound⟩ := raised_spec (variableBase p) base1Mb
  obtain ⟨b, hb, hiff⟩ := checks_checkMapped (P := P) (s := p.settings) (rounds + 1) _
    (variableBase p + variableLength p - 1) hmb
    (hbound _ (BitVec.le_def.2 (by omega)) (BitVec.le_def.2 (by omega)))
    (by have := (variableBase p + variableLength p - 1).isLt; omega)
  refine ⟨b, (checkMapped_raised rounds).trans hb, fun htrue a ha halt ↦ ?_⟩
  rw [BitVec.le_def] at ha
  exact hiff.1 htrue a (hbound a (BitVec.le_def.2 (by omega)) (BitVec.le_def.2 (by omega)))
    (BitVec.le_def.2 (by omega))

end ReachesVariables

/-- **How the part for the variable registers ends.** -/
inductive VariablesEnd (P : MtrrPlatform) (rounds : ℕ) (attributes : MtrrMemoryCacheType)
    (p : SetProgress) : EfiStatus → MtrrSettings → Prop
  | refused {status : EfiStatus} (herror : status.isError = true) :
      VariablesEnd P rounds attributes p status p.settings
  | mapped (h : ∀ a : BitVec 64, p.base ≤ a → a.toNat < p.base.toNat + p.length.toNat →
      mtrrGetMemoryAttributeByAddressWorker P p.settings a = attributes.value) :
      VariablesEnd P rounds attributes p .success p.settings
  | cleared {c : CombineVars} (hcombined : combineRequest P attributes p = .ok c)
      (h : c.length = 0 ∨ c.overwriteExistingMtrr = false ∧
        attributes.value = mtrrGetDefaultMemoryTypeWorker p.settings) :
      VariablesEnd P rounds attributes p .success
        { p.settings with variableMtrr := registersBefore P p c }
  | programmed {c : CombineVars} {mtrrNumber : ℕ} {positive : Bool}
      {after : ℕ → MtrrVariableSetting} {attributeCalls uncacheableCalls : List ProgramCall}
      (h : Programs P rounds attributes p c mtrrNumber positive)
      (hdecomposes : Decomposes P attributes (registersBefore P p c) after mtrrNumber c.base
        c.length attributeCalls uncacheableCalls) :
      VariablesEnd P rounds attributes p .success { p.settings with variableMtrr := after }

/-- The only error of `CombineMemoryAttribute`. -/
theorem combineRequest_error {status : EfiStatus}
    (h : combineRequest P attributes p = .error status) : status = .accessDenied := by
  rw [combineRequest] at h
  split at h
  next =>
    rw [combineMemoryAttribute] at h
    cases hloop : (List.range (getFirmwareVariableMtrrCountWorker P)).foldlM
        (combineStep attributes.value) ⟨variableBase p, variableLength p,
          variableBase p + variableLength p - 1, (shadowMtrrs P p.settings).1,
          (shadowMtrrs P p.settings).2, false, false⟩ with
    | ok c =>
      rw [hloop] at h
      cases h
    | error status' =>
      rw [hloop] at h
      cases h
      refine foldlM_error (Q := (· = .accessDenied)) (fun c i e hturn ↦ ?_) hloop
      rw [combineStep] at hturn
      dsimp only at hturn
      split at hturn
      · cases hturn
      split at hturn
      · split at hturn
        · cases hturn
        · cases hturn
      split at hturn
      · cases hturn
      split at hturn
      · cases hturn
      · cases hturn
        rfl
  next => cases h

/-- What the worker does when the request has been combined. -/
def setCombined (P : MtrrPlatform) (rounds : ℕ) (attributes : MtrrMemoryCacheType) (p : SetProgress)
    (c : CombineVars) : Option (EfiStatus × MtrrSettings) :=
  let cleared := { p.settings with variableMtrr := registersBefore P p c }
  if c.length = 0 then some (.success, cleared)
  else if c.overwriteExistingMtrr = false ∧
      attributes.value = mtrrGetDefaultMemoryTypeWorker p.settings then some (.success, cleared)
  else
    (getMtrrNumberAndDirection rounds c.base c.length).bind fun r ↦
      if getFirmwareVariableMtrrCountWorker P < c.usedMtrr + r.1 then
        some (.outOfResources, p.settings)
      else
        (programVariables P rounds attributes.value r.2 (programStart P p c)).bind fun after ↦
          some (.success, { p.settings with variableMtrr := after })

/-- The part for the variable registers, when the check of the range has answered. -/
theorem setVariables_eq {b : Bool}
    (hmapped : checkMemoryAttributeMapped P p.settings attributes.value (shadowMtrrs P p.settings).1
      (getFirmwareVariableMtrrCountWorker P) rounds (variableBase p)
      (variableBase p + variableLength p - 1) = some b) :
    setVariables P rounds attributes p =
      if b = true then some (.success, p.settings)
      else
        match combineRequest P attributes p with
        | .error status => some (status, p.settings)
        | .ok c => setCombined P rounds attributes p c := by
  unfold setVariables
  exact congrArg (Option.bind · _) hmapped

/-- **The part for the variable registers ends**, and how. -/
theorem exists_variablesEnd (h : ReachesVariables P p) (hwf : WellFormedMtrrs P p.settings)
    (hrounds : 2 ^ 64 < rounds) (attributes : MtrrMemoryCacheType) :
    ∃ status s', setVariables P rounds attributes p = some (status, s') ∧
      VariablesEnd P rounds attributes p status s' := by
  obtain ⟨b, hmapped, hall⟩ := h.exists_mapped hrounds attributes.value
  cases b with
  | true =>
    rw [setVariables_eq hmapped, if_pos rfl]
    exact ⟨_, _, rfl, .mapped (hall rfl)⟩
  | false =>
    cases hcombined : combineRequest P attributes p with
    | error status =>
      rw [setVariables_eq hmapped, if_neg Bool.false_ne_true, hcombined]
      refine ⟨_, _, rfl, .refused ?_⟩
      rw [combineRequest_error hcombined]
      rfl
    | ok c =>
      have hset : setVariables P rounds attributes p = setCombined P rounds attributes p c := by
        rw [setVariables_eq hmapped, if_neg Bool.false_ne_true, hcombined]
      by_cases hneeded : c.length = 0
      · rw [hset, setCombined, if_pos hneeded]
        exact ⟨_, _, rfl, .cleared hcombined (.inl hneeded)⟩
      by_cases hdefault : c.overwriteExistingMtrr = false ∧
          attributes.value = mtrrGetDefaultMemoryTypeWorker p.settings
      · rw [hset, setCombined, if_neg hneeded, if_pos hdefault]
        exact ⟨_, _, rfl, .cleared hcombined (.inr hdefault)⟩
      have hc := h.combined hwf hcombined
      obtain ⟨hlow, hhigh, hends⟩ := hc.range hneeded
      have hlimit : 2 ^ addressBits P ≤ 2 ^ 52 :=
        Nat.pow_le_pow_right (Nat.succ_pos 1) addressBits_le
      have hreturns : getMtrrNumberAndDirection rounds c.base c.length ≠ none :=
        getMtrrNumberAndDirection_ne_none (by omega) (by omega)
      obtain ⟨⟨mtrrNumber, positive⟩, hdirection⟩ := Option.ne_none_iff_exists'.1 hreturns
      by_cases henough : getFirmwareVariableMtrrCountWorker P < c.usedMtrr + mtrrNumber
      · rw [hset, setCombined, if_neg hneeded, if_neg hdefault, hdirection, Option.bind_some,
          if_pos henough]
        exact ⟨_, _, rfl, .refused rfl⟩
      · have hprograms : Programs P rounds attributes p c mtrrNumber positive :=
          ⟨hmapped, hcombined, hneeded, hdefault, hdirection, henough⟩
        obtain ⟨hbasePages, hlengthPages⟩ := hc.pages hneeded
        obtain ⟨r, after, -, hsets, hdecomposes⟩ :=
          decomposesRequest_of_le hprograms hbasePages hlengthPages hends
        exact ⟨_, _, hsets, .programmed hprograms hdecomposes⟩

/-! ### The registers after the call -/

/-- The settings with other registers. -/
abbrev MtrrSettings.withVariables (s : MtrrSettings) (regs : ℕ → MtrrVariableSetting) :
    MtrrSettings :=
  { s with variableMtrr := regs }

/-- A register that is as it was has the entry that it had. -/
theorem shadowMtrrs_withVariables {regs : ℕ → MtrrVariableSetting} {i : ℕ}
    (h : regs i = s.variableMtrr i) :
    (shadowMtrrs P (s.withVariables regs)).1 i = (shadowMtrrs P s).1 i := by
  show (if i < getFirmwareVariableMtrrCountWorker P then shadowMtrr P (regs i)
      else ⟨0, 0, 0, false, false⟩) =
    if i < getFirmwareVariableMtrrCountWorker P then shadowMtrr P (s.variableMtrr i)
      else ⟨0, 0, 0, false, false⟩
  rw [h]

section

variable {mtrrNumber : ℕ} {after : ℕ → MtrrVariableSetting}
  {attributeCalls uncacheableCalls : List ProgramCall}

/-- An enabled register after the programming: one of a call, or one that has stayed. -/
theorem Decomposes.register_cases
    (h : Decomposes P attributes (registersBefore P p c) after mtrrNumber c.base c.length
      attributeCalls uncacheableCalls)
    (hused : ∀ i, (c.shadow i).used = ((shadowMtrrs P p.settings).1 i).used) {i : ℕ}
    (hvalid : ((shadowMtrrs P (p.settings.withVariables after)).1 i).valid = true) :
    (∃ call ∈ attributeCalls ++ uncacheableCalls,
      (shadowMtrrs P (p.settings.withVariables after)).1 i = call.entry P) ∨
    ((c.shadow i).valid = true ∧ after i = p.settings.variableMtrr i) := by
  obtain ⟨hi, henabled⟩ := valid_shadowMtrrs.1 hvalid
  by_cases hcall : i ∈ (attributeCalls ++ uncacheableCalls).map ProgramCall.msrNum
  · obtain ⟨call, hmem, rfl⟩ := List.mem_map.1 hcall
    refine .inl ⟨call, hmem, ?_⟩
    have hwritten := h.programmed.written call hmem
    rw [shadowMtrrs_of_lt hi, ProgramCall.entry, ← hwritten]
  · have hframe := h.programmed.frame i hcall
    have hbefore : (registersBefore P p c i).Enabled := hframe ▸ henabled
    obtain ⟨hstays, hsame⟩ := registersBefore_of_enabled hused hi hbefore
    exact .inr ⟨hstays, hframe.trans hsame⟩

/-- A register that stays is not programmed. -/
theorem Decomposes.after_of_valid
    (h : Decomposes P attributes (registersBefore P p c) after mtrrNumber c.base c.length
      attributeCalls uncacheableCalls)
    (hentry : ∀ i, (c.shadow i).valid = true → ((shadowMtrrs P p.settings).1 i).valid = true)
    {i : ℕ} (hvalid : (c.shadow i).valid = true) : after i = p.settings.variableMtrr i := by
  have hsame := registersBefore_of_valid (p := p) (P := P) hvalid
  rw [h.programmed.frame i, hsame]
  intro hcall
  obtain ⟨call, hmem, rfl⟩ := List.mem_map.1 hcall
  have hfree := (mem_freeRegisters.1 (h.programmed.free call hmem)).2
  rw [hsame] at hfree
  exact hfree (valid_shadowMtrrs.1 (hentry _ hvalid)).2

/-- The register of a call holds its range. -/
theorem Decomposes.exists_register
    (h : Decomposes P attributes (registersBefore P p c) after mtrrNumber c.base c.length
      attributeCalls uncacheableCalls) {call : ProgramCall}
    (hcall : call ∈ attributeCalls ++ uncacheableCalls) :
    (shadowMtrrs P (p.settings.withVariables after)).1 call.msrNum = call.entry P := by
  have hi := (mem_freeRegisters.1 (h.programmed.free call hcall)).1
  have hwritten := h.programmed.written call hcall
  rw [shadowMtrrs_of_lt hi, ProgramCall.entry, ← hwritten]

theorem valid_entry (call : ProgramCall) : (call.entry P).valid = true := by
  rw [ProgramCall.entry, shadowMtrr, if_pos]
  exact enabled_programmedSetting

theorem isMemoryType_value (h : attributes ≠ .cacheInvalid) : IsMemoryType attributes.value := by
  cases attributes with
  | cacheInvalid => exact absurd rfl h
  | _ => decide

/-- What the calls write is well-formed. -/
theorem Decomposes.wellFormed_entry
    (h : Decomposes P attributes (registersBefore P p c) after mtrrNumber c.base c.length
      attributeCalls uncacheableCalls) (hattributes : attributes ≠ .cacheInvalid)
    {call : ProgramCall} (hcall : call ∈ attributeCalls ++ uncacheableCalls) :
    (call.entry P).WellFormed P := by
  refine ⟨?_, h.block call hcall, entry_end_le (h.block call hcall)⟩
  rcases List.mem_append.1 hcall with hcall | hcall
  · rw [h.attributeType call hcall]
    exact isMemoryType_value hattributes
  · rw [h.uncacheableType call hcall]
    exact .inl rfl

end

/-- **The registers stay well-formed**, however the call ends. -/
theorem VariablesEnd.wellFormed {status : EfiStatus}
    (h : VariablesEnd P rounds attributes p status s') (hreaches : ReachesVariables P p)
    (hwf : WellFormedMtrrs P p.settings) (hattributes : attributes ≠ .cacheInvalid) :
    WellFormedMtrrs P s' := by
  cases h with
  | refused => exact hwf
  | mapped => exact hwf
  | @cleared c hcombined =>
    have hc := hreaches.combined hwf hcombined
    intro i hvalid
    obtain ⟨hi, henabled⟩ := valid_shadowMtrrs.1 hvalid
    obtain ⟨hstays, hsame⟩ := registersBefore_of_enabled hc.used hi henabled
    rw [shadowMtrrs_withVariables hsame]
    exact hwf i (hc.valid hstays)
  | @programmed c _ _ after _ _ hprograms hdecomposes =>
    have hc := hreaches.combined hwf hprograms.combined
    intro i hvalid
    rcases hdecomposes.register_cases hc.used hvalid with ⟨call, hcall, heq⟩ | ⟨hstays, hsame⟩
    · rw [heq]
      exact hdecomposes.wellFormed_entry hattributes hcall
    · rw [shadowMtrrs_withVariables hsame]
      exact hwf i (hc.valid hstays)

/-! ### The whole call -/

/-- The end of a call that succeeds. -/
def MtrrSettings.enable (s : MtrrSettings) : MtrrSettings :=
  { s with mtrrDefType := s.mtrrDefType ||| mtrrLibCacheMtrrEnabled }

theorem MtrrSettings.enable_enabled (s : MtrrSettings) :
    s.enable.mtrrDefType &&& mtrrLibCacheMtrrEnabled ≠ 0 :=
  or_and_ne_zero _ (by decide)

theorem and_or_of_and_eq_zero (x : BitVec 64) {bit mask : BitVec 64} (h : bit &&& mask = 0) :
    (x ||| bit) &&& mask = x &&& mask := by
  refine BitVec.eq_of_getLsbD_eq fun i _ ↦ ?_
  have hbit := congrArg (BitVec.getLsbD · i) h
  have hzero : (0 : BitVec 64).getLsbD i = false := BitVec.getLsbD_zero
  simp only [BitVec.getLsbD_and, hzero] at hbit
  rw [BitVec.getLsbD_and, BitVec.getLsbD_and, BitVec.getLsbD_or, Bool.and_or_distrib_right, hbit,
    Bool.or_false]

/-- It leaves the default type alone, and whether the fixed registers are enabled. -/
theorem MtrrSettings.enable_default (s : MtrrSettings) :
    mtrrGetDefaultMemoryTypeWorker s.enable = mtrrGetDefaultMemoryTypeWorker s :=
  and_or_of_and_eq_zero _ (by decide)

theorem MtrrSettings.enable_fixedEnabled (s : MtrrSettings) :
    s.enable.mtrrDefType &&& mtrrLibCacheFixedMtrrEnabled =
      s.mtrrDefType &&& mtrrLibCacheFixedMtrrEnabled :=
  and_or_of_and_eq_zero _ (by decide)

theorem setDone_of_isError {status : EfiStatus} (h : status.isError = true) :
    setDone status s = (status, s) := by
  rw [setDone, if_pos h]

section

variable {base length : BitVec 64}

/-- An address that the mask lets pass is the start of a page. -/
theorem pages_of_and_eq_zero {x : BitVec 64} (h : x &&& ~~~mtrrValidAddressMask P = 0) :
    2 ^ 12 ∣ x.toNat := by
  refine two_pow_dvd_iff_testBit.2 fun j hj ↦ ?_
  have hbit := congrArg (BitVec.getLsbD · j) h
  have hzero : (0 : BitVec 64).getLsbD j = false := BitVec.getLsbD_zero
  have hlow : decide (12 ≤ j ∧ j < addressBits P) = false := decide_eq_false (by omega)
  have hwidth : decide (j < 64) = true := decide_eq_true (by omega)
  simp only [BitVec.getLsbD_and, BitVec.getLsbD_not, getLsbD_mtrrValidAddressMask, hlow, hwidth,
    hzero, Bool.not_false, Bool.and_true] at hbit
  exact hbit

theorem programFixed_status {n : ℕ} {p : SetProgress} :
    (programFixed attributes.value n p).1 = .success ∨
      (programFixed attributes.value n p).1 = .unsupported := by
  induction n generalizing p with
  | zero => exact .inl rfl
  | succ n ih =>
    rw [programFixed]
    split
    · cases hb : programFixedMtrr attributes.value p.base p.length with
      | error status => exact .inr (programFixedMtrr_error hb)
      | ok piece => exact ih
    · exact .inl rfl

theorem programFixed_success {n : ℕ} {p : SetProgress}
    (h : (programFixed attributes.value n p).1.isError = false) :
    (programFixed attributes.value n p).1 = .success := by
  refine programFixed_status.resolve_right fun hrefused ↦ ?_
  rw [hrefused] at h
  cases h

/-- What the loop over the fixed registers leaves of a request is for the variable ones. -/
theorem reachesVariables_programFixed (hlength : length ≠ 0)
    (hpages : 2 ^ 12 ∣ base.toNat ∧ 2 ^ 12 ∣ length.toNat)
    (hends : base.toNat + length.toNat ≤ 2 ^ addressBits P)
    (hsuccess : (programFixed attributes.value mtrrNumberOfFixedMtrr ⟨base, length, s⟩).1.isError =
      false)
    (hleft : ¬ (base < base1Mb ∧
      (programFixed attributes.value mtrrNumberOfFixedMtrr ⟨base, length, s⟩).2.length = 0)) :
    ReachesVariables P
      (programFixed attributes.value mtrrNumberOfFixedMtrr ⟨base, length, s⟩).2 := by
  by_cases hbase : base < base1Mb
  · have hwritten := piecesWritten_programFixed hbase hlength hsuccess
    have hset :=
      (piecesSet_start s base length attributes).programFixed (n := mtrrNumberOfFixedMtrr)
    have hstops := programFixed_start_ends (programFixed_success hsuccess)
    obtain ⟨i, hi, k, hk, hlast⟩ := hwritten.last
    have hle := byteAddress_le hi hk
    have hsum := hset.length_eq
    have hmb : base1Mb.toNat = 0x100000 := rfl
    generalize (programFixed attributes.value mtrrNumberOfFixedMtrr ⟨base, length, s⟩).2 = p at *
    have hlengthNe : p.length ≠ 0 := fun hzero ↦ hleft ⟨hbase, hzero⟩
    have hge := hstops.resolve_right hlengthNe
    have hreached := BitVec.le_def.1 hge
    exact ⟨hge, hlengthNe, ⟨by omega, by omega⟩, by omega⟩
  · rw [programFixed_of_stop fun hgo ↦ hbase hgo.1]
    exact ⟨BitVec.not_lt.1 hbase, hlength, hpages, hends⟩

theorem WellFormedMtrrs.of_variableMtrr {t : MtrrSettings} (h : WellFormedMtrrs P s)
    (hvariableMtrr : t.variableMtrr = s.variableMtrr) : WellFormedMtrrs P t := by
  have hentry : (shadowMtrrs P t).1 = (shadowMtrrs P s).1 := by
    rw [shadowMtrrs, shadowMtrrs, hvariableMtrr]
  rw [WellFormedMtrrs, hentry]
  exact h

/-- The pieces do not enable the registers, nor disable them. -/
theorem PiecesSet.enabled (h : PiecesSet s base length attributes p) :
    p.settings.mtrrDefType &&& mtrrLibCacheMtrrEnabled =
      s.mtrrDefType &&& mtrrLibCacheMtrrEnabled := by
  rcases h.mtrrDefType with heq | heq
  · rw [heq]
  · rw [heq]
    exact and_or_of_and_eq_zero _ (by decide)

/-- The part for the variable registers leaves the fixed ones alone. -/
theorem VariablesEnd.frame {status : EfiStatus} (h : VariablesEnd P rounds attributes p status s') :
    s'.fixed = p.settings.fixed ∧ s'.mtrrDefType = p.settings.mtrrDefType := by
  cases h with
  | _ => exact ⟨rfl, rfl⟩

theorem VariablesEnd.status {status : EfiStatus}
    (h : VariablesEnd P rounds attributes p status s') :
    status.isError = true ∨ status = .success := by
  cases h with
  | refused herror => exact .inl herror
  | _ => exact .inr rfl

/-- **How `MtrrSetMemoryAttributeWorker` ends.** -/
inductive WorkerEnd (P : MtrrPlatform) (rounds : ℕ) (s : MtrrSettings) (base length : BitVec 64)
    (attributes : MtrrMemoryCacheType) : EfiStatus → MtrrSettings → Prop
  | refused {status : EfiStatus} {s' : MtrrSettings} (herror : status.isError = true)
      (hvariableMtrr : s'.variableMtrr = s.variableMtrr)
      (henabled : s'.mtrrDefType &&& mtrrLibCacheMtrrEnabled =
        s.mtrrDefType &&& mtrrLibCacheMtrrEnabled) :
      WorkerEnd P rounds s base length attributes status s'
  | fixedRegisters {p : SetProgress} (hset : PiecesSet s base length attributes p)
      (hwritten : PiecesWritten base attributes p) (hdone : p.length = 0) :
      WorkerEnd P rounds s base length attributes .success p.settings.enable
  | variableRegisters {p : SetProgress} {status : EfiStatus} {t : MtrrSettings}
      (hset : PiecesSet s base length attributes p)
      (hwritten : base < base1Mb → PiecesWritten base attributes p)
      (hstart : ¬ base < base1Mb → p.base = base) (hreaches : ReachesVariables P p)
      (hend : VariablesEnd P rounds attributes p status t) :
      WorkerEnd P rounds s base length attributes status (setDone status t).2

/-- **Every call ends**, and how. -/
theorem exists_workerEnd (hwf : WellFormedMtrrs P s)
    (hends : base.toNat + length.toNat ≤ 2 ^ addressBits P) (hrounds : 2 ^ 64 < rounds)
    (attributes : MtrrMemoryCacheType) :
    ∃ status s', mtrrSetMemoryAttributeInMtrrSettings P rounds s base length attributes =
      some (status, s') ∧ WorkerEnd P rounds s base length attributes status s' := by
  rw [mtrrSetMemoryAttributeInMtrrSettings, mtrrSetMemoryAttributeWorker]
  by_cases hsupported : isMtrrSupported P = false
  · rw [if_pos hsupported]
    exact ⟨_, _, rfl, .refused rfl rfl rfl⟩
  rw [if_neg hsupported]
  by_cases hlength : length = 0
  · rw [if_pos hlength]
    exact ⟨_, _, rfl, .refused rfl rfl rfl⟩
  rw [if_neg hlength]
  by_cases hmask : base &&& ~~~mtrrValidAddressMask P ≠ 0 ∨ length &&& ~~~mtrrValidAddressMask P ≠ 0
  · rw [if_pos hmask]
    exact ⟨_, _, rfl, .refused rfl rfl rfl⟩
  rw [if_neg hmask]
  rw [not_or, not_not, not_not] at hmask
  have hpages := And.intro (pages_of_and_eq_zero hmask.1) (pages_of_and_eq_zero hmask.2)
  have hset : PiecesSet s base length attributes
      (programFixed attributes.value mtrrNumberOfFixedMtrr ⟨base, length, s⟩).2 :=
    (piecesSet_start s base length attributes).programFixed
  dsimp only
  split
  next herror =>
    rw [setDone_of_isError herror]
    exact ⟨_, _, rfl, .refused herror hset.variableMtrr hset.enabled⟩
  next hsuccess =>
    rw [Bool.not_eq_true] at hsuccess
    have hwritten (hbase : base < base1Mb) := piecesWritten_programFixed hbase hlength hsuccess
    have hreaches := reachesVariables_programFixed hlength hpages hends hsuccess
    have hstart (hbase : ¬ base < base1Mb) :
        (programFixed attributes.value mtrrNumberOfFixedMtrr ⟨base, length, s⟩).2.base = base := by
      rw [programFixed_of_stop fun hgo ↦ hbase hgo.1]
    split
    next hdone =>
      rw [programFixed_success hsuccess]
      exact ⟨_, _, rfl, .fixedRegisters hset (hwritten hdone.1) hdone.2⟩
    next hleft =>
      obtain ⟨status, t, hvariables, hend⟩ := exists_variablesEnd (hreaches hleft)
        (hwf.of_variableMtrr hset.variableMtrr) hrounds attributes
      exact ⟨status, (setDone status t).2, congrArg (Option.map _) hvariables,
        .variableRegisters hset hwritten hstart (hreaches hleft) hend⟩

end

end PurleyFirmware.Mtrr
