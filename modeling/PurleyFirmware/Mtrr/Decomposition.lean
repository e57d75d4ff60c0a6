import PurleyFirmware.Mtrr.Programming
import PurleyFirmware.Foundation.Fold

/-!
# A request in the variable registers

When `MtrrSetMemoryAttributeWorker` comes to program the variable registers (`Programs`), it has counted
the registers that are used, less those that the request takes the place of; as many are enabled once
`InvalidateMtrr` has cleared the rest (`card_freeRegisters`). So what has been counted suffices, and no
register is overwritten.

The registers hold the range of the request if it ends within the addresses of the processor. That is
not checked: `BaseAddress` and `Length` are compared with the mask one by one.
-/

namespace PurleyFirmware.Mtrr

variable {P : MtrrPlatform}

/-! ### The registers in use -/

/-- The entries of the shadow that are valid. -/
def validEntries (n : ℕ) (shadow : ℕ → VariableMtrr) : Finset ℕ :=
  (Finset.range n).filter fun i ↦ (shadow i).valid = true

/-- What `CombineMemoryAttribute` keeps of the shadow: `usedMtrr` counts the valid entries, which were
so before, and no entry changes whether it is used. -/
structure Accounted (n : ℕ) (shadow : ℕ → VariableMtrr) (c : CombineVars) : Prop where
  count : c.usedMtrr = (validEntries n c.shadow).card
  valid : ∀ i, (c.shadow i).valid = true → (shadow i).valid = true
  used : ∀ i, (c.shadow i).used = (shadow i).used

/-- One turn invalidates the entry at hand, or none. -/
theorem combineStep_cases {attributes : BitVec 64} {c c' : CombineVars} {i : ℕ}
    (h : combineStep attributes c i = .ok c') :
    (c'.shadow = c.shadow ∧ c'.usedMtrr = c.usedMtrr) ∨
      ((c.shadow i).valid = true ∧ c'.usedMtrr = c.usedMtrr - 1 ∧
        c'.shadow = Function.update c.shadow i { c.shadow i with valid := false }) := by
  rw [combineStep] at h
  dsimp only at h
  split at h
  · cases h
    exact .inl ⟨rfl, rfl⟩
  · rename_i hskip
    have hvalid : (c.shadow i).valid = true := Bool.of_not_eq_false fun hf ↦ hskip (.inl hf)
    split at h
    · split at h
      · cases h
        exact .inl ⟨rfl, rfl⟩
      · cases h
        exact .inr ⟨hvalid, rfl, rfl⟩
    · split at h
      · cases h
        exact .inr ⟨hvalid, rfl, rfl⟩
      · split at h
        · cases h
          exact .inl ⟨rfl, rfl⟩
        · cases h

theorem Accounted.step {n : ℕ} {shadow : ℕ → VariableMtrr} {attributes : BitVec 64}
    {c c' : CombineVars} {i : ℕ} (hi : i < n) (h : Accounted n shadow c)
    (hstep : combineStep attributes c i = .ok c') : Accounted n shadow c' := by
  rcases combineStep_cases hstep with ⟨hshadow, hused⟩ | ⟨hvalid, hused, hshadow⟩
  · exact ⟨by rw [hused, hshadow, h.count], fun j ↦ hshadow ▸ h.valid j, fun j ↦ hshadow ▸ h.used j⟩
  · have hentries : validEntries n c'.shadow = (validEntries n c.shadow).erase i := by
      ext j
      rw [Finset.mem_erase, validEntries, validEntries, Finset.mem_filter, Finset.mem_filter, hshadow]
      by_cases hj : j = i
      · rw [hj, Function.update_self]
        exact iff_of_false (fun h ↦ Bool.false_ne_true h.2) fun h ↦ h.1 rfl
      · rw [Function.update_of_ne hj, and_iff_right hj]
    have hmem : i ∈ validEntries n c.shadow :=
      Finset.mem_filter.2 ⟨Finset.mem_range.2 hi, hvalid⟩
    refine ⟨by rw [hused, hentries, Finset.card_erase_of_mem hmem, h.count], fun j hj ↦ ?_, fun j ↦ ?_⟩
    · rw [hshadow] at hj
      by_cases hji : j = i
      · rw [hji]
        exact h.valid i hvalid
      · rw [Function.update_of_ne hji] at hj
        exact h.valid j hj
    · rw [hshadow]
      by_cases hji : j = i
      · rw [hji, Function.update_self]
        exact h.used i
      · rw [Function.update_of_ne hji]
        exact h.used j

theorem Accounted.combine {n : ℕ} {shadow : ℕ → VariableMtrr} {attributes base length : BitVec 64}
    {usedMtrr : ℕ} {c : CombineVars} (hcount : usedMtrr = (validEntries n shadow).card)
    (h : combineMemoryAttribute n attributes base length shadow usedMtrr = .ok c) :
    Accounted n shadow c := by
  rw [combineMemoryAttribute, bind_eq_ok] at h
  obtain ⟨c', hloop, hend⟩ := h
  have haccounted : Accounted n shadow c' :=
    foldlM_invariant (fun c i c' hi hc hstep ↦ hc.step (List.mem_range.1 hi) hstep)
      ⟨hcount, fun _ h ↦ h, fun _ ↦ rfl⟩ hloop
  cases hend
  split
  · exact ⟨haccounted.count, haccounted.valid, haccounted.used⟩
  · exact haccounted

/-! ### Reaching the programming -/

/-- The range that the variable registers are to have: it starts at 0 if it starts at 1 MB. -/
def variableBase (p : SetProgress) : BitVec 64 := if p.base = base1Mb then 0 else p.base

/-- The length of that range. -/
def variableLength (p : SetProgress) : BitVec 64 :=
  if p.base = base1Mb then p.length + base1Mb else p.length

/-- The shadow of the firmware's registers, and how many are used. -/
def shadowMtrrs (P : MtrrPlatform) (s : MtrrSettings) : (ℕ → VariableMtrr) × ℕ :=
  mtrrGetMemoryAttributeInVariableMtrrWorker P s.variableMtrr (getFirmwareVariableMtrrCountWorker P)

/-- The request combined with the registers that it overlaps. -/
def combineRequest (P : MtrrPlatform) (attributes : MtrrMemoryCacheType) (p : SetProgress) :
    Except EfiStatus CombineVars :=
  let shadow := shadowMtrrs P p.settings
  let n := getFirmwareVariableMtrrCountWorker P
  let last := variableBase p + variableLength p - 1
  if checkMemoryAttributeOverlap n (variableBase p) last shadow.1 then
    combineMemoryAttribute n attributes.value (variableBase p) (variableLength p) shadow.1 shadow.2
  else .ok ⟨variableBase p, variableLength p, last, shadow.1, shadow.2, false, false⟩

/-- **The worker comes to program the variable registers**, with the range in `c`, a number of registers
and a direction. -/
structure Programs (P : MtrrPlatform) (rounds : ℕ) (attributes : MtrrMemoryCacheType)
    (p : SetProgress) (c : CombineVars) (mtrrNumber : ℕ) (positive : Bool) : Prop where
  mapped : checkMemoryAttributeMapped P p.settings attributes.value (shadowMtrrs P p.settings).1
    (getFirmwareVariableMtrrCountWorker P) rounds (variableBase p)
    (variableBase p + variableLength p - 1) = some false
  combined : combineRequest P attributes p = .ok c
  needed : c.length ≠ 0
  notDefault : ¬ (c.overwriteExistingMtrr = false ∧
    attributes.value = mtrrGetDefaultMemoryTypeWorker p.settings)
  direction : getMtrrNumberAndDirection rounds c.base c.length = some (mtrrNumber, positive)
  enough : ¬ getFirmwareVariableMtrrCountWorker P < c.usedMtrr + mtrrNumber

/-- The registers after `InvalidateMtrr`. -/
def registersBefore (P : MtrrPlatform) (p : SetProgress) (c : CombineVars) :
    ℕ → MtrrVariableSetting :=
  invalidateMtrr (getVariableMtrrCountWorker P) c.shadow p.settings.variableMtrr

/-- The variables when the programming starts. -/
def programStart (P : MtrrPlatform) (p : SetProgress) (c : CombineVars) : ProgramVars :=
  ⟨registersBefore P p c,
    findUnused (getVariableMtrrCountWorker P) (registersBefore P p c) 0, c.base, c.length⟩

section

variable {rounds mtrrNumber : ℕ} {attributes : MtrrMemoryCacheType} {p : SetProgress}
  {c : CombineVars} {positive : Bool}

theorem setVariables_of_programs (h : Programs P rounds attributes p c mtrrNumber positive) :
    setVariables P rounds attributes p =
      (programVariables P rounds attributes.value positive (programStart P p c)).map fun regs ↦
        (.success, { p.settings with variableMtrr := regs }) := by
  unfold setVariables
  dsimp only
  refine (congrArg (Option.bind · _) h.mapped).trans ?_
  simp only [Option.bind_some, Bool.false_eq_true, if_false]
  split
  · rename_i status herror
    cases h.combined.symm.trans herror
  · rename_i c' hok
    cases h.combined.symm.trans hok
    rw [if_neg h.needed, if_neg h.notDefault, h.direction]
    refine (if_neg h.enough).trans ?_
    rw [Option.map_eq_bind]
    rfl

/-- The shadow says which registers are enabled. -/
theorem valid_shadowMtrrs {s : MtrrSettings} {i : ℕ} :
    ((shadowMtrrs P s).1 i).valid = true ↔
      i < getFirmwareVariableMtrrCountWorker P ∧ (s.variableMtrr i).Enabled := by
  change (if i < getFirmwareVariableMtrrCountWorker P then shadowMtrr P (s.variableMtrr i)
    else ⟨0, 0, 0, false, false⟩).valid = true ↔ _
  split
  · rename_i hi
    rw [and_iff_right hi, shadowMtrr]
    split
    · exact iff_of_true rfl ‹_›
    · exact iff_of_false Bool.false_ne_true ‹_›
  · rename_i hi
    exact iff_of_false Bool.false_ne_true fun h ↦ hi h.1

theorem used_shadowMtrrs {s : MtrrSettings} {i : ℕ} :
    ((shadowMtrrs P s).1 i).used = ((shadowMtrrs P s).1 i).valid := by
  change (if i < getFirmwareVariableMtrrCountWorker P then shadowMtrr P (s.variableMtrr i)
      else ⟨0, 0, 0, false, false⟩).used =
    (if i < getFirmwareVariableMtrrCountWorker P then shadowMtrr P (s.variableMtrr i)
      else ⟨0, 0, 0, false, false⟩).valid
  split
  · rw [shadowMtrr]
    split <;> rfl
  · rfl

theorem accounted_of_programs (h : Programs P rounds attributes p c mtrrNumber positive) :
    Accounted (getFirmwareVariableMtrrCountWorker P) (shadowMtrrs P p.settings).1 c := by
  have hcount : (shadowMtrrs P p.settings).2 =
      (validEntries (getFirmwareVariableMtrrCountWorker P) (shadowMtrrs P p.settings).1).card := by
    have hentries : validEntries (getFirmwareVariableMtrrCountWorker P)
        (shadowMtrrs P p.settings).1 =
        (Finset.range (getFirmwareVariableMtrrCountWorker P)).filter fun i ↦
          (p.settings.variableMtrr i).Enabled := by
      refine Finset.filter_congr fun i hi ↦ ?_
      rw [valid_shadowMtrrs, and_iff_right (Finset.mem_range.1 hi)]
    rw [hentries]
    exact List.countP_eq_length_filter
  have hcombined := h.combined
  unfold combineRequest at hcombined
  dsimp only at hcombined
  split at hcombined
  · exact Accounted.combine hcount hcombined
  · cases hcombined
    exact ⟨hcount, fun _ h ↦ h, fun _ ↦ rfl⟩

/-- **As many registers are free as have not been counted.** -/
theorem card_freeRegisters (h : Programs P rounds attributes p c mtrrNumber positive) :
    mtrrNumber ≤ (freeRegisters (getFirmwareVariableMtrrCountWorker P)
      (registersBefore P p c)).card := by
  have haccounted := accounted_of_programs h
  have hle : getFirmwareVariableMtrrCountWorker P ≤ getVariableMtrrCountWorker P := Nat.sub_le _ _
  have hfree : freeRegisters (getFirmwareVariableMtrrCountWorker P) (registersBefore P p c) =
      (Finset.range (getFirmwareVariableMtrrCountWorker P)).filter fun i ↦
        ¬ (c.shadow i).valid = true := by
    refine Finset.filter_congr fun i hi ↦ not_congr ?_
    have hlt := Finset.mem_range.1 hi
    rw [registersBefore, invalidateMtrr]
    split
    · rename_i hcleared
      refine iff_of_false (fun h ↦ h rfl) ?_
      rw [hcleared.2.1]
      exact Bool.false_ne_true
    · rename_i hkept
      constructor
      · intro henabled
        by_contra hinvalid
        refine hkept ⟨by omega, Bool.eq_false_iff.2 hinvalid, ?_⟩
        rw [haccounted.used, used_shadowMtrrs, valid_shadowMtrrs]
        exact ⟨hlt, henabled⟩
      · intro hvalid
        exact (valid_shadowMtrrs.1 (haccounted.valid i hvalid)).2
  have hsum : (validEntries (getFirmwareVariableMtrrCountWorker P) c.shadow).card +
      (freeRegisters (getFirmwareVariableMtrrCountWorker P) (registersBefore P p c)).card =
        (Finset.range (getFirmwareVariableMtrrCountWorker P)).card := by
    rw [hfree]
    exact Finset.card_filter_add_card_filter_not _
  rw [Finset.card_range, ← haccounted.count] at hsum
  have henough := h.enough
  omega

theorem lowEnabled_programStart : LowEnabled (programStart P p c) :=
  fun _ hi ↦ enabled_of_lt_findUnused (Nat.zero_le _) hi

end

/-! ### What the registers hold -/

/-- The address is in the range of the entry. -/
def VariableMtrr.Contains (v : VariableMtrr) (a : ℕ) : Prop :=
  v.baseAddress.toNat ≤ a ∧ a < v.baseAddress.toNat + v.length.toNat

theorem toNat_and_lt {x mask : BitVec 64} {n : ℕ} (h : ∀ i, n ≤ i → mask.getLsbD i = false) :
    (x &&& mask).toNat < 2 ^ n := by
  refine Nat.lt_pow_two_of_testBit _ fun i hi ↦ ?_
  rw [BitVec.testBit_toNat, BitVec.getLsbD_and, h i hi, Bool.and_false]

/-- An aligned entry ends within the addresses of the processor. -/
theorem entry_end_le {call : ProgramCall}
    (hblock : IsBlock 12 (call.entry P).baseAddress.toNat (call.entry P).length.toNat) :
    (call.entry P).baseAddress.toNat + (call.entry P).length.toNat ≤ 2 ^ addressBits P := by
  obtain ⟨k, -, hlength, hdvd⟩ := hblock
  have hentry : call.entry P =
      ⟨(call.setting P).base &&& mtrrValidAddressMask P,
        (~~~((call.setting P).mask &&& mtrrValidAddressMask P) &&& mtrrValidBitsMask P) + 1,
        (call.setting P).base &&& 0xFF, true, true⟩ := by
    rw [ProgramCall.entry, shadowMtrr]
    exact if_pos enabled_programmedSetting
  have hbase : (call.entry P).baseAddress.toNat < 2 ^ addressBits P := by
    rw [hentry]
    refine toNat_and_lt fun i hi ↦ ?_
    rw [getLsbD_mtrrValidAddressMask, decide_eq_false (by omega)]
  have hbits := addressBits_le (P := P)
  have hlimit : 2 ^ addressBits P ≤ 2 ^ 52 := Nat.pow_le_pow_right (by decide) hbits
  have hlengthLe : (call.entry P).length.toNat ≤ 2 ^ addressBits P := by
    have hmasked : (~~~((call.setting P).mask &&& mtrrValidAddressMask P) &&&
        mtrrValidBitsMask P).toNat < 2 ^ addressBits P := by
      refine toNat_and_lt fun i hi ↦ ?_
      rw [getLsbD_mtrrValidBitsMask, decide_eq_false (by omega)]
    rw [hentry]
    dsimp only
    rw [BitVec.toNat_add]
    change (_ + 1) % 2 ^ 64 ≤ _
    omega
  have hkBits : k ≤ addressBits P := by
    refine (Nat.pow_le_pow_iff_right (by decide : 1 < 2)).1 ?_
    omega
  have hgap := Nat.le_of_dvd (by omega : 0 < 2 ^ addressBits P - (call.entry P).baseAddress.toNat)
    (Nat.dvd_sub (Nat.pow_dvd_pow 2 hkBits) hdvd)
  omega

/-- **The calls decompose the range**: as many as were counted, aligned entries with the types of the
request and of the holes, which make up the range, in free registers of the firmware. -/
structure Decomposes (P : MtrrPlatform) (attributes : MtrrMemoryCacheType)
    (before after : ℕ → MtrrVariableSetting) (mtrrNumber : ℕ) (base length : BitVec 64)
    (attributeCalls uncacheableCalls : List ProgramCall) : Prop where
  number : attributeCalls.length + uncacheableCalls.length = mtrrNumber
  attributeType : ∀ call ∈ attributeCalls, (call.entry P).type = attributes.value
  uncacheableType : ∀ call ∈ uncacheableCalls,
    (call.entry P).type = MtrrMemoryCacheType.cacheUncacheable.value
  block : ∀ call ∈ attributeCalls ++ uncacheableCalls,
    IsBlock 12 (call.entry P).baseAddress.toNat (call.entry P).length.toNat
  covered : ∀ a : ℕ, ((∃ call ∈ attributeCalls, (call.entry P).Contains a) ∧
    ¬ ∃ call ∈ uncacheableCalls, (call.entry P).Contains a) ↔
      base.toNat ≤ a ∧ a < base.toNat + length.toNat
  programmed : Programmed P (getFirmwareVariableMtrrCountWorker P) before after
    (attributeCalls ++ uncacheableCalls)

/-- The worker's calls decompose the range that it comes to program. -/
def DecomposesRequest (P : MtrrPlatform) (rounds : ℕ) (attributes : MtrrMemoryCacheType)
    (p : SetProgress) (c : CombineVars) (mtrrNumber : ℕ) (positive : Bool) : Prop :=
  ∃ r after, rangesOf rounds positive c.base c.length = some r ∧
    setVariables P rounds attributes p =
      some (.success, { p.settings with variableMtrr := after }) ∧
    Decomposes P attributes (registersBefore P p c) after mtrrNumber c.base c.length
      (attributeCalls P attributes.value (programStart P p c) r)
      (uncacheableCalls P attributes.value (programStart P p c) r)

section

variable {rounds mtrrNumber : ℕ} {attributes : MtrrMemoryCacheType} {p : SetProgress}
  {c : CombineVars} {positive : Bool}

/-- The entry of a call is its range. -/
theorem entry_eq {memoryCacheType : MtrrMemoryCacheType} {q : ProgramVars} {ranges : List MtrrRange}
    {call : ProgramCall} (hcall : call ∈ callsOf P memoryCacheType.value q ranges)
    (hblock : AllBlocks ranges)
    (hbelow : ∀ r ∈ ranges, r.base.toNat + r.length.toNat ≤ 2 ^ addressBits P) :
    call.entry P = ⟨call.base, call.length, memoryCacheType.value, true, true⟩ ∧
      (⟨call.base, call.length⟩ : MtrrRange) ∈ ranges := by
  obtain ⟨hmem, htype⟩ := exists_range_of_mem_callsOf hcall
  refine ⟨?_, hmem⟩
  rw [ProgramCall.entry, ProgramCall.setting, htype]
  exact shadowMtrr_programmedSetting (hblock _ hmem) (hbelow _ hmem)
    fun j hj ↦ value_getLsbD memoryCacheType hj

theorem exists_entry_iff {memoryCacheType : MtrrMemoryCacheType} {q : ProgramVars}
    {ranges : List MtrrRange} (hblock : AllBlocks ranges)
    (hbelow : ∀ r ∈ ranges, r.base.toNat + r.length.toNat ≤ 2 ^ addressBits P) (a : ℕ) :
    (∃ call ∈ callsOf P memoryCacheType.value q ranges, (call.entry P).Contains a) ↔
      Covered ranges a := by
  constructor
  · rintro ⟨call, hcall, hcontains⟩
    obtain ⟨hentry, hmem⟩ := entry_eq hcall hblock hbelow
    rw [hentry] at hcontains
    exact ⟨_, hmem, hcontains⟩
  · rintro ⟨r, hr, hcontains⟩
    obtain ⟨call, hcall, hbase, hlength⟩ := exists_call_of_mem (P := P) (p := q) hr
    obtain ⟨hentry, -⟩ := entry_eq hcall hblock hbelow
    refine ⟨call, hcall, ?_⟩
    rw [hentry, VariableMtrr.Contains, hbase, hlength]
    exact hcontains

/-- All calls go to free registers. -/
theorem programmed_of_programs (h : Programs P rounds attributes p c mtrrNumber positive)
    {r : List MtrrRange × List MtrrRange} (hnumber : r.1.length + r.2.length = mtrrNumber) :
    Programmed P (getFirmwareVariableMtrrCountWorker P) (registersBefore P p c)
      (programCalls P (registersBefore P p c)
        (attributeCalls P attributes.value (programStart P p c) r ++
          uncacheableCalls P attributes.value (programStart P p c) r))
      (attributeCalls P attributes.value (programStart P p c) r ++
        uncacheableCalls P attributes.value (programStart P p c) r) := by
  have hF : getFirmwareVariableMtrrCountWorker P ≤ getVariableMtrrCountWorker P := Nat.sub_le _ _
  have hfree : mtrrNumber ≤ (freeRegisters (getFirmwareVariableMtrrCountWorker P)
    (programStart P p c).variableMtrr).card := card_freeRegisters h
  have hlow : LowEnabled (programStart P p c) := lowEnabled_programStart
  obtain ⟨hranges, hlow', hcount⟩ := programmed_programRanges attributes.value hF hlow
    (by omega : r.1.length ≤ _)
  obtain ⟨hholes, -, -⟩ := programmed_programRanges MtrrMemoryCacheType.cacheUncacheable.value hF
    hlow' (by omega : r.2.length ≤ _)
  have hall := hranges.append hholes
  rw [programRanges_eq, programRanges_eq] at hall
  rw [programCalls, List.foldl_append]
  exact hall

/-- No entry goes further than the processor. -/
theorem le_of_decomposesRequest (h : Programs P rounds attributes p c mtrrNumber positive)
    (hdecomposes : DecomposesRequest P rounds attributes p c mtrrNumber positive) :
    c.base.toNat + c.length.toNat ≤ 2 ^ addressBits P := by
  obtain ⟨r, after, -, -, hcalls⟩ := hdecomposes
  have hpos : 0 < c.length.toNat :=
    Nat.pos_of_ne_zero fun hzero ↦ h.needed (BitVec.eq_of_toNat_eq hzero)
  obtain ⟨⟨call, hcall, -, hlast⟩, -⟩ :=
    (hcalls.covered (c.base.toNat + c.length.toNat - 1)).2 (by omega)
  have hend := entry_end_le (hcalls.block call (List.mem_append_left _ hcall))
  omega

/-- A range within the addresses of the processor. -/
theorem decomposesRequest_of_le (h : Programs P rounds attributes p c mtrrNumber positive)
    (hbase : 2 ^ 12 ∣ c.base.toNat) (hlength : 2 ^ 12 ∣ c.length.toNat)
    (hends : c.base.toNat + c.length.toNat ≤ 2 ^ addressBits P) :
    DecomposesRequest P rounds attributes p c mtrrNumber positive := by
  obtain ⟨r, hr, hnumber⟩ := length_rangesOf h.direction
  have hsplits := splits_rangesOf addressBits_le hbase hlength h.needed hends h.direction hr
  have hblock : AllBlocks r.1 := fun q hq ↦ hsplits.block q (List.mem_append_left _ hq)
  have hbelow : ∀ q ∈ r.1, q.base.toNat + q.length.toNat ≤ 2 ^ addressBits P :=
    fun q hq ↦ hsplits.below q (List.mem_append_left _ hq)
  have hblock' : AllBlocks r.2 := fun q hq ↦ hsplits.block q (List.mem_append_right _ hq)
  have hbelow' : ∀ q ∈ r.2, q.base.toNat + q.length.toNat ≤ 2 ^ addressBits P :=
    fun q hq ↦ hsplits.below q (List.mem_append_right _ hq)
  have hrange : rangesOf rounds positive (programStart P p c).base (programStart P p c).length =
    some r := hr
  refine ⟨r, _, hr, ?_, ?_, fun call hcall ↦ ?_, fun call hcall ↦ ?_, fun call hcall ↦ ?_,
    fun a ↦ ?_, programmed_of_programs h hnumber⟩
  · rw [setVariables_of_programs h, programVariables_eq, hrange]
    rfl
  · rw [attributeCalls, uncacheableCalls, length_callsOf, length_callsOf, hnumber]
  · rw [(entry_eq hcall hblock hbelow).1]
  · rw [(entry_eq hcall hblock' hbelow').1]
  · rcases List.mem_append.1 hcall with hcall | hcall
    · obtain ⟨hentry, hmem⟩ := entry_eq hcall hblock hbelow
      rw [hentry]
      exact hblock _ hmem
    · obtain ⟨hentry, hmem⟩ := entry_eq hcall hblock' hbelow'
      rw [hentry]
      exact hblock' _ hmem
  · rw [← hsplits.covered, attributeCalls, uncacheableCalls, exists_entry_iff hblock hbelow,
      exists_entry_iff hblock' hbelow']

/-- **The worker decomposes the range if and only if** it ends within the addresses of the
processor. -/
theorem decomposesRequest_iff (h : Programs P rounds attributes p c mtrrNumber positive)
    (hbase : 2 ^ 12 ∣ c.base.toNat) (hlength : 2 ^ 12 ∣ c.length.toNat) :
    DecomposesRequest P rounds attributes p c mtrrNumber positive ↔
      c.base.toNat + c.length.toNat ≤ 2 ^ addressBits P :=
  ⟨le_of_decomposesRequest h, decomposesRequest_of_le h hbase hlength⟩

end

/-! ### A range beyond the last address -/

/-- A processor with 36 address bits, and with ten variable registers. -/
def addressBits36 : MtrrPlatform :=
  { tenRegisters with physicalAddressBits := 36, physicalAddressBits_le := by decide }

/-- A request for everything uncacheable, which overlaps no register. -/
def freshRequest (base length : BitVec 64) : SetProgress := ⟨base, length, uncacheable⟩

/-- It is not combined with anything. -/
def freshCombined (base length : BitVec 64) : CombineVars :=
  ⟨base, length, base + length - 1, (shadowMtrrs addressBits36 uncacheable).1,
    (shadowMtrrs addressBits36 uncacheable).2, false, false⟩

theorem combineRequest_fresh {attributes : MtrrMemoryCacheType} {base length : BitVec 64}
    (hbase : base ≠ base1Mb)
    (h : checkMemoryAttributeOverlap (getFirmwareVariableMtrrCountWorker addressBits36) base
      (base + length - 1) (shadowMtrrs addressBits36 uncacheable).1 = false) :
    combineRequest addressBits36 attributes (freshRequest base length) =
      .ok (freshCombined base length) := by
  have hvariableBase : variableBase (freshRequest base length) = base := if_neg hbase
  have hvariableLength : variableLength (freshRequest base length) = length := if_neg hbase
  rw [combineRequest, hvariableBase, hvariableLength]
  exact if_neg (Bool.eq_false_iff.1 h)

/-- 2 MB at 2 MB, write-back. -/
theorem programs_secondTwoMegabytes :
    Programs addressBits36 3 .cacheWriteBack (freshRequest 0x200000 0x200000)
      (freshCombined 0x200000 0x200000) 1 true := by
  refine ⟨by decide +kernel, combineRequest_fresh (by decide) (by decide +kernel), by decide, ?_,
    by decide +kernel, by decide +kernel⟩
  exact fun h ↦ absurd h.2 (by decide)

theorem decomposesRequest_iff_secondTwoMegabytes :
    DecomposesRequest addressBits36 3 .cacheWriteBack (freshRequest 0x200000 0x200000)
        (freshCombined 0x200000 0x200000) 1 true ↔
      (freshCombined 0x200000 0x200000).base.toNat +
        (freshCombined 0x200000 0x200000).length.toNat ≤ 2 ^ addressBits addressBits36 :=
  decomposesRequest_iff programs_secondTwoMegabytes ⟨0x200, rfl⟩ ⟨0x200, rfl⟩

/-- 8 KB, of which the second half is beyond the last address. -/
theorem programs_beyondLast :
    Programs addressBits36 3 .cacheWriteBack (freshRequest 0xFFFFFF000 0x2000)
      (freshCombined 0xFFFFFF000 0x2000) 2 true := by
  refine ⟨by decide +kernel, combineRequest_fresh (by decide) (by decide +kernel), by decide, ?_,
    by decide +kernel, by decide +kernel⟩
  exact fun h ↦ absurd h.2 (by decide)

/-- The register for the second half holds the first 4 KB. -/
theorem not_decomposesRequest_beyondLast :
    ¬ ∀ (P : MtrrPlatform) (rounds : ℕ) (attributes : MtrrMemoryCacheType) (p : SetProgress)
      (c : CombineVars) (mtrrNumber : ℕ) (positive : Bool),
      Programs P rounds attributes p c mtrrNumber positive → 2 ^ 12 ∣ c.base.toNat →
        2 ^ 12 ∣ c.length.toNat → DecomposesRequest P rounds attributes p c mtrrNumber positive := by
  intro hall
  have hle := le_of_decomposesRequest programs_beyondLast
    (hall _ _ _ _ _ _ _ programs_beyondLast ⟨0xFFFFFF, rfl⟩ ⟨2, rfl⟩)
  revert hle
  decide

end PurleyFirmware.Mtrr
