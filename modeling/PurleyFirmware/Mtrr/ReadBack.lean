import PurleyFirmware.Mtrr.WorkerEnd

/-!
# Reading back what was set

After a successful call of `MtrrSetMemoryAttributeInMtrrSettings`, the lookup of an address of the
request gives the type of the request, with two exceptions (`TypeAfter`). Registers with UC that
overlap the request are left alone, and so are those with WT under a request for WB; there UC or WT
stays.

The request is covered by a register that has its type, or by none, and then its type is the default
one. The other registers that cover it were there before.
-/

namespace PurleyFirmware.Mtrr

variable {P : MtrrPlatform} {s s' : MtrrSettings} {attributes : MtrrMemoryCacheType}
  {p : SetProgress} {c : CombineVars} {rounds : ℕ}

/-! ### Types over each other -/

/-- The type of an address that a register with the type of the request covers, when all others may
lie over it. -/
theorem combinedType_of_mayOverlap {types : List (BitVec 64)} {type : BitVec 64}
    (htypes : ∀ type' ∈ types, IsMemoryType type') (hmem : type ∈ types)
    (hmay : ∀ type' ∈ types, type' = type ∨ MayOverlap type type') :
    combinedType s types = type ∨ (0 ∈ types ∧ combinedType s types = 0) ∨
      (type = 6 ∧ 4 ∈ types ∧ combinedType s types = 4) := by
  by_cases hzero : (0 : BitVec 64) ∈ types
  · exact .inr (.inl ⟨hzero, combinedType_of_mem htypes hzero⟩)
  have hne : ∀ type' ∈ types, type' ≠ 0 := fun type' hmem' heq ↦ hzero (heq ▸ hmem')
  by_cases hagree : ∀ type' ∈ types, type' = type
  · exact .inl (combinedType_of_forall_eq htypes (List.ne_nil_of_mem hmem) hagree)
  · -- WT and WB meet
    push Not at hagree
    obtain ⟨other, hother, hdiffers⟩ := hagree
    have hboth : (type = 4 ∧ other = 6) ∨ (type = 6 ∧ other = 4) := by
      rcases (hmay other hother).resolve_left hdiffers with h | h | h | h
      · exact .inl h
      · exact .inr h
      · exact absurd h (hne type hmem)
      · exact absurd h (hne other hother)
    have hall : ∀ type' ∈ types, type' = 4 ∨ type' = 6 := by
      intro type' hmem'
      have htype : type = 4 ∨ type = 6 := hboth.imp And.left And.left
      rcases hmay type' hmem' with rfl | h | h | h | h
      · exact htype
      · exact .inr h.2
      · exact .inl h.2
      · exact absurd h (hne type hmem)
      · exact absurd h (hne type' hmem')
    rcases hboth with ⟨rfl, -⟩ | ⟨rfl, rfl⟩
    · exact .inl (combinedType_writeThrough hall hmem)
    · exact .inr (.inr ⟨rfl, hother, combinedType_writeThrough hall hother⟩)

/-! ### The types after the call -/

/-- A register of the firmware that the call has left alone covers the address, with the type. -/
def StaysOver (P : MtrrPlatform) (s s' : MtrrSettings) (a type : BitVec 64) : Prop :=
  ∃ i < getFirmwareVariableMtrrCountWorker P, s'.variableMtrr i = s.variableMtrr i ∧
    ((shadowMtrrs P s).1 i).Covers a ∧ ((shadowMtrrs P s).1 i).type = type

/-- **The type of an address of the request** after the call: that of the request, or that of an
older register, which is UC, or WT under WB. -/
inductive TypeAfter (P : MtrrPlatform) (s s' : MtrrSettings) (attributes : MtrrMemoryCacheType)
    (a : BitVec 64) : Prop
  | requested (h : mtrrGetMemoryAttributeByAddressWorker P s' a = attributes.value) :
      TypeAfter P s s' attributes a
  | uncacheable (haddress : base1Mb ≤ a)
      (h : mtrrGetMemoryAttributeByAddressWorker P s' a =
        MtrrMemoryCacheType.cacheUncacheable.value)
      (hstays : StaysOver P s s' a MtrrMemoryCacheType.cacheUncacheable.value) :
      TypeAfter P s s' attributes a
  | writeThrough (haddress : base1Mb ≤ a) (hrequest : attributes = .cacheWriteBack)
      (h : mtrrGetMemoryAttributeByAddressWorker P s' a =
        MtrrMemoryCacheType.cacheWriteThrough.value)
      (hstays : StaysOver P s s' a MtrrMemoryCacheType.cacheWriteThrough.value) :
      TypeAfter P s s' attributes a

section

variable {a : BitVec 64}

theorem isMemoryType_of_mem (hwf : WellFormedMtrrs P s) {type : BitVec 64}
    (h : type ∈ coveringTypes P (getFirmwareVariableMtrrCountWorker P) s a) :
    IsMemoryType type := by
  obtain ⟨i, hcovers, rfl⟩ := mem_coveringTypes_iff.1 h
  exact (hwf i hcovers.1).memoryType

/-- The combined types of an address do not depend on the enable bits. -/
theorem lookup_enable (ha : base1Mb ≤ a) : mtrrGetMemoryAttributeByAddressWorker P s.enable a =
    combinedType s (coveringTypes P (getFirmwareVariableMtrrCountWorker P) s a) := by
  rw [lookup_eq_combinedType s.enable_enabled ha, combinedType, combinedType,
    getMemoryCacheTypeFromMtrrType, getMemoryCacheTypeFromMtrrType, s.enable_default]
  rfl

/-- The address is covered by a register with the type of the request, and all others that cover it
may lie over the request and are older. -/
theorem typeAfter_of_covered {t : MtrrSettings} (hwf : WellFormedMtrrs P s') (ha : base1Mb ≤ a)
    (hmem : attributes.value ∈ coveringTypes P (getFirmwareVariableMtrrCountWorker P) s' a)
    (hall : ∀ type ∈ coveringTypes P (getFirmwareVariableMtrrCountWorker P) s' a,
      type = attributes.value ∨ (MayOverlap attributes.value type ∧ StaysOver P t s' a type)) :
    TypeAfter P t s'.enable attributes a := by
  have hlookup := lookup_enable (P := P) (s := s') ha
  have hmay := combinedType_of_mayOverlap (s := s') (fun _ h ↦ isMemoryType_of_mem hwf h) hmem
    fun type htype ↦ (hall type htype).imp_right And.left
  rcases hmay with hsame | ⟨hzero, hsame⟩ | ⟨hrequest, hfour, hsame⟩
  · exact .requested (hlookup.trans hsame)
  · rcases hall 0 hzero with hvalue | ⟨-, hstays⟩
    · exact .requested (hlookup.trans (hsame.trans hvalue))
    · exact .uncacheable ha (hlookup.trans hsame) hstays
  · have hwriteBack : attributes = .cacheWriteBack := by
      cases attributes with
      | cacheWriteBack => rfl
      | _ => exact absurd hrequest (by decide)
    rcases hall 4 hfour with hvalue | ⟨-, hstays⟩
    · exact .requested (hlookup.trans (hsame.trans hvalue))
    · exact .writeThrough ha hwriteBack (hlookup.trans hsame) hstays

/-- A register that `CombineMemoryAttribute` has kept over an address of the request. -/
theorem Combined.stays {after : ℕ → MtrrVariableSetting}
    (hc : Combined P (shadowMtrrs P p.settings).1 attributes.value (variableBase p)
      (variableLength p) c) (hwf : WellFormedMtrrs P p.settings)
    (ha : InRange (variableBase p) (variableLength p) a.toNat) {i : ℕ}
    (hstays : (c.shadow i).valid = true) (hsame : after i = p.settings.variableMtrr i)
    (hcovers : ((shadowMtrrs P (p.settings.withVariables after)).1 i).Covers a) :
    StaysOver P p.settings (p.settings.withVariables after) a
        ((shadowMtrrs P (p.settings.withVariables after)).1 i).type ∧
      (((shadowMtrrs P (p.settings.withVariables after)).1 i).type = attributes.value ∧
          c.length = 0 ∨
        MayOverlap attributes.value ((shadowMtrrs P (p.settings.withVariables after)).1 i).type ∧
          c.overwriteExistingMtrr = true) := by
  rw [shadowMtrrs_withVariables hsame] at hcovers ⊢
  have hvalid := hc.valid hstays
  have hcontains := ((hwf i hvalid).covers_iff.1 hcovers).2
  exact ⟨⟨i, lt_of_valid hvalid, hsame, hcovers, rfl⟩, hc.kept i hstays a.toNat ha hcontains⟩

/-- **The variable registers after a call that succeeds** give every address of the range its
type. -/
theorem VariablesEnd.typeAfter (h : VariablesEnd P rounds attributes p .success s')
    (hreaches : ReachesVariables P p) (hwf : WellFormedMtrrs P p.settings)
    (hattributes : attributes ≠ .cacheInvalid)
    (henabled : p.settings.mtrrDefType &&& mtrrLibCacheMtrrEnabled ≠ 0 ∨
      attributes ≠ .cacheUncacheable)
    (hlow : p.base ≤ a) (hhigh : a.toNat < p.base.toNat + p.length.toNat) :
    TypeAfter P p.settings s'.enable attributes a := by
  have hwf' := h.wellFormed hreaches hwf hattributes
  have ha : base1Mb ≤ a := BitVec.le_trans hreaches.base_ge hlow
  obtain ⟨hbase, hsum, -⟩ := hreaches.variableRange
  have hin : InRange (variableBase p) (variableLength p) a.toNat := by
    rw [BitVec.le_def] at hlow
    exact ⟨by omega, by omega⟩
  cases h with
  | refused herror => cases herror
  | mapped hmapped =>
    have hvalue := hmapped a hlow hhigh
    by_cases hon : p.settings.mtrrDefType &&& mtrrLibCacheMtrrEnabled = 0
    · -- everything is UC, and the request is not for UC
      rw [mtrrGetMemoryAttributeByAddressWorker, if_pos hon] at hvalue
      refine absurd hvalue ?_
      have hother := henabled.resolve_left fun hne ↦ hne hon
      cases attributes with
      | cacheUncacheable => exact absurd rfl hother
      | _ => decide
    · refine .requested ?_
      rw [lookup_enable ha, ← lookup_eq_combinedType hon ha]
      exact hvalue
  | @cleared c hcombined hclears =>
    have hc := hreaches.combined hwf hcombined
    have hstays : ∀ i,
        ((shadowMtrrs P (p.settings.withVariables (registersBefore P p c))).1 i).Covers a →
          (c.shadow i).valid = true ∧ registersBefore P p c i = p.settings.variableMtrr i := by
      intro i hcovers
      obtain ⟨hi, hon⟩ := valid_shadowMtrrs.1 hcovers.1
      exact registersBefore_of_enabled hc.used hi hon
    by_cases hlength : c.length = 0
    · obtain ⟨i, hkept, htype, hcontains⟩ := hc.covered hlength
      refine typeAfter_of_covered hwf' ha (mem_coveringTypes_iff.2 ⟨i, ?_⟩) fun type htype' ↦ ?_
      · rw [shadowMtrrs_withVariables (registersBefore_of_valid hkept)]
        have hvalid := hc.valid hkept
        exact ⟨(hwf i hvalid).covers_iff.2 ⟨hvalid, hcontains _ hin⟩, htype⟩
      · obtain ⟨j, hcovers, rfl⟩ := mem_coveringTypes_iff.1 htype'
        obtain ⟨hkept', hsame⟩ := hstays j hcovers
        obtain ⟨hover, hkind⟩ := hc.stays hwf hin hkept' hsame hcovers
        exact hkind.imp And.left fun hmay ↦ ⟨hmay.1, hover⟩
    · -- no register covers the request any more, and its type is the default one
      obtain ⟨halone, hdefault⟩ := hclears.resolve_left hlength
      have hnone : coveringTypes P (getFirmwareVariableMtrrCountWorker P)
          (p.settings.withVariables (registersBefore P p c)) a = [] := by
        refine List.eq_nil_iff_forall_not_mem.2 fun type htype ↦ ?_
        obtain ⟨j, hcovers, rfl⟩ := mem_coveringTypes_iff.1 htype
        obtain ⟨hkept, hsame⟩ := hstays j hcovers
        rcases (hc.stays hwf hin hkept hsame hcovers).2 with ⟨-, hzero⟩ | ⟨-, hover⟩
        · exact hlength hzero
        · cases hover.symm.trans halone
      refine .requested ?_
      rw [lookup_enable ha, hnone, combinedType_nil, hdefault]
      rfl
  | @programmed c _ _ after attributeCalls uncacheableCalls hprograms hdecomposes =>
    have hc := hreaches.combined hwf hprograms.combined
    obtain ⟨hfirst, hlast, -⟩ := hc.range hprograms.needed
    obtain ⟨hlow', hhigh'⟩ := hin
    obtain ⟨⟨call, hcall, hcontains⟩, hholes⟩ :=
      (hdecomposes.covered a.toNat).2 ⟨by omega, by omega⟩
    have hmem := List.mem_append_left uncacheableCalls hcall
    refine typeAfter_of_covered hwf' ha
      (mem_coveringTypes_iff.2 ⟨call.msrNum, ?_⟩) fun type htype ↦ ?_
    · rw [hdecomposes.exists_register hmem]
      have hentry := hdecomposes.wellFormed_entry hattributes hmem
      exact ⟨hentry.covers_iff.2 ⟨valid_entry call, hcontains⟩,
        hdecomposes.attributeType call hcall⟩
    · obtain ⟨j, hcovers, rfl⟩ := mem_coveringTypes_iff.1 htype
      rcases hdecomposes.register_cases hc.used hcovers.1 with ⟨call', hcall', heq⟩ | ⟨hkept, hsame⟩
      · rw [heq] at hcovers ⊢
        have hentry := hdecomposes.wellFormed_entry hattributes hcall'
        rcases List.mem_append.1 hcall' with hattribute | hhole
        · exact .inl (hdecomposes.attributeType call' hattribute)
        · exact absurd ⟨call', hhole, (hentry.covers_iff.1 hcovers).2⟩ hholes
      · obtain ⟨hover, hkind⟩ := hc.stays hwf ⟨hlow', hhigh'⟩ hkept hsame hcovers
        exact hkind.imp And.left fun hmay ↦ ⟨hmay.1, hover⟩

end

/-! ### The whole call -/

section

variable {base length : BitVec 64}

/-- The settings differ in nothing that decides about the variable registers. -/
theorem StaysOver.of_variableMtrr {t : MtrrSettings}
    (hvariableMtrr : t.variableMtrr = s.variableMtrr) {a type : BitVec 64}
    (h : StaysOver P t s' a type) : StaysOver P s s' a type := by
  obtain ⟨i, hi, hsame, hcovers, htype⟩ := h
  have hentry : (shadowMtrrs P t).1 i = (shadowMtrrs P s).1 i := by
    rw [shadowMtrrs_of_lt hi, shadowMtrrs_of_lt hi, hvariableMtrr]
  rw [hentry] at hcovers htype
  exact ⟨i, hi, hvariableMtrr ▸ hsame, hcovers, htype⟩

theorem TypeAfter.of_variableMtrr {t : MtrrSettings}
    (hvariableMtrr : t.variableMtrr = s.variableMtrr) {a : BitVec 64}
    (h : TypeAfter P t s' attributes a) : TypeAfter P s s' attributes a := by
  cases h with
  | requested h => exact .requested h
  | uncacheable haddress h hstays =>
    exact .uncacheable haddress h (hstays.of_variableMtrr hvariableMtrr)
  | writeThrough haddress hrequest h hstays =>
    exact .writeThrough haddress hrequest h (hstays.of_variableMtrr hvariableMtrr)

/-- An address that the fixed registers have been programmed for. -/
theorem PiecesWritten.typeAfter (h : PiecesWritten base attributes p)
    (hattributes : attributes ≠ .cacheInvalid) {t : MtrrSettings}
    (hfixed : t.fixed = p.settings.fixed) (hdefType : t.mtrrDefType = p.settings.mtrrDefType)
    {a : BitVec 64} (ha : a < base1Mb) (hlow : base ≤ a) (hhigh : a.toNat < p.base.toNat) : TypeAfter P s t.enable attributes a := by
  have hfixedEnabled := h.enabled
  rw [← hdefType, ← t.enable_fixedEnabled] at hfixedEnabled
  have hfixed' : t.enable.fixed = p.settings.fixed := hfixed
  exact .requested (h.lookup hfixed' t.enable_enabled hfixedEnabled hattributes ha hlow hhigh)

/-- **A call**: what it leaves of the settings, and what a success says. -/
structure CallEnd (P : MtrrPlatform) (s : MtrrSettings) (base length : BitVec 64)
    (attributes : MtrrMemoryCacheType) (status : EfiStatus) (s' : MtrrSettings) : Prop where
  wellFormed : WellFormedMtrrs P s'
  enabled : s.mtrrDefType &&& mtrrLibCacheMtrrEnabled ≠ 0 →
    s'.mtrrDefType &&& mtrrLibCacheMtrrEnabled ≠ 0
  readsBack : status = .success →
    (s.mtrrDefType &&& mtrrLibCacheMtrrEnabled ≠ 0 ∨ attributes ≠ .cacheUncacheable) →
    ∀ a, base ≤ a → a.toNat < base.toNat + length.toNat → TypeAfter P s s' attributes a

/-- What is left for the variable registers of a request starts at 1 MB, or where the request
does. -/
theorem base_le_of_le (hwritten : base < base1Mb → PiecesWritten base attributes p)
    (hstart : ¬ base < base1Mb → p.base = base) {a : BitVec 64} (ha : base1Mb ≤ a)
    (hlow : base ≤ a) : p.base ≤ a := by
  by_cases hbase : base < base1Mb
  · obtain ⟨i, hi, k, hk, hlast⟩ := (hwritten hbase).last
    have hle := byteAddress_le hi hk
    have hmb : base1Mb.toNat = 0x100000 := rfl
    rw [BitVec.le_def] at ha ⊢
    omega
  · rw [hstart hbase]
    exact hlow

/-- **What a call leaves behind.** -/
theorem WorkerEnd.callEnd {status : EfiStatus} (hwf : WellFormedMtrrs P s)
    (hattributes : attributes ≠ .cacheInvalid)
    (h : WorkerEnd P rounds s base length attributes status s') :
    CallEnd P s base length attributes status s' := by
  cases h with
  | refused herror hvariableMtrr henabled =>
    refine ⟨hwf.of_variableMtrr hvariableMtrr, fun h ↦ henabled ▸ h, fun hsuccess ↦ ?_⟩
    rw [hsuccess] at herror
    cases herror
  | @fixedRegisters p hset hwritten hdone =>
    refine ⟨hwf.of_variableMtrr hset.variableMtrr, fun _ ↦ p.settings.enable_enabled,
      fun _ _ a hlow hhigh ↦ ?_⟩
    have hzero : p.length.toNat = 0 := congrArg BitVec.toNat hdone
    have hsum := hset.length_eq
    obtain ⟨i, hi, k, hk, hlast⟩ := hwritten.last
    have hle := byteAddress_le hi hk
    have ha : a < base1Mb := by
      have hmb : base1Mb.toNat = 0x100000 := rfl
      rw [BitVec.lt_def]
      omega
    exact hwritten.typeAfter hattributes rfl rfl ha hlow (by omega)
  | @variableRegisters p status t hset hwritten hstart hreaches hend =>
    have hwf' := hwf.of_variableMtrr hset.variableMtrr
    have hwellFormed := hend.wellFormed hreaches hwf' hattributes
    obtain ⟨hfixed, hdefType⟩ := hend.frame
    rcases hend.status with herror | rfl
    · rw [setDone_of_isError herror]
      refine ⟨hwellFormed, fun hon ↦ ?_, fun hsuccess ↦ ?_⟩
      · rwa [hdefType, hset.enabled]
      · rw [hsuccess] at herror
        cases herror
    · refine ⟨hwellFormed, fun _ ↦ t.enable_enabled, fun _ hon a hlow hhigh ↦ ?_⟩
      rw [← hset.enabled] at hon
      have hsum := hset.length_eq
      have hge := BitVec.le_def.1 hreaches.base_ge
      by_cases ha : a < base1Mb
      · rw [BitVec.lt_def] at ha
        have hbase : base < base1Mb := by
          rw [BitVec.le_def] at hlow
          rw [BitVec.lt_def]
          omega
        exact (hwritten hbase).typeAfter hattributes hfixed hdefType (BitVec.lt_def.2 ha) hlow
          (by omega)
      · have hstarts := base_le_of_le hwritten hstart (BitVec.not_lt.1 ha) hlow
        exact (hend.typeAfter hreaches hwf' hattributes hon hstarts (by omega)).of_variableMtrr
          hset.variableMtrr

/-! ### Every call of a run -/

/-- Settings that come from others by calls, for ranges of the address space. -/
inductive SetFrom (P : MtrrPlatform) (rounds : ℕ) (s : MtrrSettings) : MtrrSettings → Prop
  | start : SetFrom P rounds s s
  | call {t t' : MtrrSettings} {base length : BitVec 64} {attributes : MtrrMemoryCacheType}
      {status : EfiStatus} (h : SetFrom P rounds s t) (hattributes : attributes ≠ .cacheInvalid)
      (hends : base.toNat + length.toNat ≤ 2 ^ addressBits P)
      (hcall : mtrrSetMemoryAttributeInMtrrSettings P rounds t base length attributes =
        some (status, t')) :
      SetFrom P rounds s t'

/-- **The registers stay well-formed and enabled** over all calls. -/
theorem SetFrom.wellFormed {t : MtrrSettings} (h : SetFrom P rounds s t) (hrounds : 2 ^ 64 < rounds)
    (hwf : WellFormedMtrrs P s) (henabled : s.mtrrDefType &&& mtrrLibCacheMtrrEnabled ≠ 0) :
    WellFormedMtrrs P t ∧ t.mtrrDefType &&& mtrrLibCacheMtrrEnabled ≠ 0 := by
  induction h with
  | start => exact ⟨hwf, henabled⟩
  | call _ hattributes hends hcall ih =>
    obtain ⟨status, t', hcall', hend⟩ := exists_workerEnd ih.1 hends hrounds _
    cases hcall.symm.trans hcall'
    have hleaves := hend.callEnd ih.1 hattributes
    exact ⟨hleaves.wellFormed, hleaves.enabled ih.2⟩

/-- **What was set is read back**, in every call of a run: the call ends, and if it ends with
success, the lookup gives every address of the request its type, except where a register with UC, or
with WT under a request for WB, was there before and stays. -/
theorem mtrrSetMemoryAttribute_readsBack {t : MtrrSettings} (hwf : WellFormedMtrrs P s)
    (henabled : s.mtrrDefType &&& mtrrLibCacheMtrrEnabled ≠ 0) (hrounds : 2 ^ 64 < rounds)
    (h : SetFrom P rounds s t) (hattributes : attributes ≠ .cacheInvalid)
    (hends : base.toNat + length.toNat ≤ 2 ^ addressBits P) :
    ∃ status t', mtrrSetMemoryAttributeInMtrrSettings P rounds t base length attributes =
      some (status, t') ∧
        (status = .success → ∀ a, base ≤ a → a.toNat < base.toNat + length.toNat →
          TypeAfter P t t' attributes a) := by
  obtain ⟨hwf', henabled'⟩ := h.wellFormed hrounds hwf henabled
  obtain ⟨status, t', hcall, hend⟩ := exists_workerEnd hwf' hends hrounds attributes
  exact ⟨status, t', hcall, fun hsuccess ↦
    (hend.callEnd hwf' hattributes).readsBack hsuccess (.inl henabled')⟩

end

/-- Registers that are all disabled are well-formed. -/
theorem wellFormed_uncacheable : WellFormedMtrrs addressBits36 uncacheable := by
  intro i hvalid
  have hdisabled : ¬ (⟨0, 0⟩ : MtrrVariableSetting).Enabled := by decide
  exact absurd (valid_shadowMtrrs.1 hvalid).2 hdisabled

/-- Write-back for 2 MB at 2 MB. -/
theorem mtrrSetMemoryAttribute_readsBack_secondTwoMegabytes :
    ∃ status t', mtrrSetMemoryAttributeInMtrrSettings addressBits36 (2 ^ 64 + 1) uncacheable
        0x200000 0x200000 .cacheWriteBack = some (status, t') ∧
      (status = .success → ∀ a, (0x200000 : BitVec 64) ≤ a →
        a.toNat < (0x200000 : BitVec 64).toNat + (0x200000 : BitVec 64).toNat →
          TypeAfter addressBits36 uncacheable t' .cacheWriteBack a) :=
  mtrrSetMemoryAttribute_readsBack wellFormed_uncacheable (by decide) (Nat.lt_succ_self _) .start
    (by rintro ⟨⟩) (by decide)

end PurleyFirmware.Mtrr
