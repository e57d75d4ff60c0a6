import PurleyFirmware.Mtrr.ReadBack

/-!
# The addresses around a request

What a successful call of `MtrrSetMemoryAttributeInMtrrSettings` does to the type of an address that
was not asked for. In the subtractive form a register is programmed for more than the request, and
the rest is taken out again with UC: there the address becomes UC, whatever it was
(`NeighbourAfter`). All others keep their type, unless the request has been put together with
registers that it overlaps; these are programmed again with other ranges, and this is left aside
here (`NoneAlike`).
-/

namespace PurleyFirmware.Mtrr

variable {P : MtrrPlatform} {s s' : MtrrSettings} {attributes : MtrrMemoryCacheType}
  {p : SetProgress} {c : CombineVars} {rounds : ℕ} {base length a : BitVec 64}

/-! ### The range stays as it is -/

/-- What the loop of `CombineMemoryAttribute` keeps of such a range, after `k` turns. -/
structure Alone (shadow : ℕ → VariableMtrr) (base length : BitVec 64) (k : ℕ) (c : CombineVars) :
    Prop where
  ahead : ∀ i, k ≤ i → c.shadow i = shadow i
  base_eq : c.base = base
  length_eq : c.length = length
  endAddress_eq : c.endAddress = base + length - 1
  covered : c.coveredByExistingMtrr = false

/-- Without an enabled register of its type in the range, a request is not put together with
anything. -/
theorem combineRequest_alone (hreaches : ReachesVariables P p) (hwf : WellFormedMtrrs P p.settings)
    (hnone : ∀ i, ((shadowMtrrs P p.settings).1 i).valid = true →
      ((shadowMtrrs P p.settings).1 i).type = attributes.value → ∀ x,
        InRange (variableBase p) (variableLength p) x →
          ¬ ((shadowMtrrs P p.settings).1 i).Contains x)
    (h : combineRequest P attributes p = .ok c) :
    c.base = variableBase p ∧ c.length = variableLength p := by
  have hne := hreaches.variableLength_ne
  obtain ⟨-, hsum, -⟩ := hreaches.variableRange
  have hends : (variableBase p).toNat + (variableLength p).toNat ≤ 2 ^ addressBits P :=
    hsum ▸ hreaches.ends
  have hpos : 0 < (variableLength p).toNat :=
    Nat.pos_of_ne_zero fun hzero ↦ hne (BitVec.eq_of_toNat_eq hzero)
  have hlast := toNat_rangeLast hne hends
  rw [combineRequest] at h
  split at h
  next =>
    rw [combineMemoryAttribute, bind_eq_ok] at h
    obtain ⟨c', hloop, hend⟩ := h
    have hstart : Alone (shadowMtrrs P p.settings).1 (variableBase p) (variableLength p) 0
        ⟨variableBase p, variableLength p, variableBase p + variableLength p - 1,
          (shadowMtrrs P p.settings).1, (shadowMtrrs P p.settings).2, false, false⟩ :=
      ⟨fun _ _ ↦ rfl, rfl, rfl, rfl, rfl⟩
    have hinv := foldlM_range_ok hstart (fun k _ c c' hc hstep ↦ ?_) hloop
    · obtain ⟨-, hbase, hlength, -, hcovered⟩ := hinv
      cases hend
      rw [hcovered]
      exact ⟨hbase, hlength⟩
    · obtain ⟨hahead, hbase, hlength, hendAddress, hcovered⟩ := hc
      have hsame := hahead k (Nat.le_refl k)
      -- an entry of the type of the request is passed
      have hother (hmeets : ¬ c.Passes k) (htype : (c.shadow k).type = attributes.value) :
          False := by
        have hvalid : (c.shadow k).valid = true := Bool.of_not_eq_false fun hf ↦ hmeets (.inl hf)
        rw [hsame] at hvalid htype
        have hentry := hwf k hvalid
        have htop := hentry.toNat_last
        have hlong := hentry.length_pos
        rw [CombineVars.Passes, not_or, not_or, hsame, hbase, hendAddress, BitVec.lt_def,
          BitVec.lt_def] at hmeets
        refine hnone k hvalid htype (max (variableBase p).toNat
          ((shadowMtrrs P p.settings).1 k).baseAddress.toNat) ⟨by omega, by omega⟩ ?_
        rw [VariableMtrr.Contains]
        omega
      have hahead' (i : ℕ) (hi : k + 1 ≤ i) : c.shadow i = (shadowMtrrs P p.settings).1 i :=
        hahead i (Nat.le_of_succ_le hi)
      cases combineTurn hstep with
      | pass => exact ⟨hahead', hbase, hlength, hendAddress, hcovered⟩
      | cover hmeets htype => exact (hother hmeets htype).elim
      | merge hmeets htype => exact (hother hmeets htype).elim
      | replace =>
        refine ⟨fun i hi ↦ ?_, hbase, hlength, hendAddress, hcovered⟩
        have hrest : (c.invalidateShadowMtrr k).shadow i = c.shadow i :=
          Function.update_of_ne (by omega : i ≠ k) _ _
        rw [hrest, hahead' i hi]
      | keep => exact ⟨hahead', hbase, hlength, hendAddress, hcovered⟩
  next =>
    cases h
    exact ⟨rfl, rfl⟩

/-! ### The registers over a neighbour -/

/-- Registers that have the same entries where they cover the address give it the same types. -/
theorem coveringTypes_congr
    (h : ∀ i, ((shadowMtrrs P s).1 i).Covers a ∨ ((shadowMtrrs P s').1 i).Covers a →
      (shadowMtrrs P s').1 i = (shadowMtrrs P s).1 i) :
    coveringTypes P (getFirmwareVariableMtrrCountWorker P) s' a =
      coveringTypes P (getFirmwareVariableMtrrCountWorker P) s a := by
  have hentries : ∀ i < getFirmwareVariableMtrrCountWorker P,
      (shadowMtrr P (s.variableMtrr i)).Covers a ∨ (shadowMtrr P (s'.variableMtrr i)).Covers a →
        shadowMtrr P (s'.variableMtrr i) = shadowMtrr P (s.variableMtrr i) := by
    intro i hi hcovers
    have hsame := h i
    rw [shadowMtrrs_of_lt hi, shadowMtrrs_of_lt hi] at hsame
    exact hsame hcovers
  have hfilter : (List.range (getFirmwareVariableMtrrCountWorker P)).filter
        (fun i ↦ (shadowMtrr P (s'.variableMtrr i)).Covers a)
      = (List.range (getFirmwareVariableMtrrCountWorker P)).filter
        fun i ↦ (shadowMtrr P (s.variableMtrr i)).Covers a := by
    refine List.filter_congr fun i hi ↦ decide_eq_decide.2 ⟨fun hcovers ↦ ?_, fun hcovers ↦ ?_⟩
    · exact hentries i (List.mem_range.1 hi) (.inr hcovers) ▸ hcovers
    · exact (hentries i (List.mem_range.1 hi) (.inl hcovers)).symm ▸ hcovers
  rw [coveringTypes_eq, coveringTypes_eq, hfilter]
  refine List.map_congr_left fun i hi ↦ ?_
  rw [List.mem_filter, List.mem_range, decide_eq_true_eq] at hi
  rw [hentries i hi.1 (.inl hi.2)]

/-- **The type of an address outside the request** after the call: what it was, or UC, because a
register has been programmed for it to take it out of a larger one. -/
inductive NeighbourAfter (P : MtrrPlatform) (s s' : MtrrSettings) (a : BitVec 64) : Prop
  | same (h : mtrrGetMemoryAttributeByAddressWorker P s' a =
      mtrrGetMemoryAttributeByAddressWorker P s a) : NeighbourAfter P s s' a
  | hole (haddress : base1Mb ≤ a)
      (h : mtrrGetMemoryAttributeByAddressWorker P s' a =
        MtrrMemoryCacheType.cacheUncacheable.value) (i : ℕ)
      (hbefore : ¬ ((shadowMtrrs P s).1 i).Covers a) (hafter : ((shadowMtrrs P s').1 i).Covers a)
      (htype : ((shadowMtrrs P s').1 i).type = MtrrMemoryCacheType.cacheUncacheable.value) :
      NeighbourAfter P s s' a

/-- A register over a neighbour has stayed. -/
theorem Combined.valid_of_covers
    (hc : Combined P (shadowMtrrs P p.settings).1 attributes.value (variableBase p)
      (variableLength p) c) (hwf : WellFormedMtrrs P p.settings) (hlength : c.length ≠ 0)
    (hout : ¬ InRange c.base c.length a.toNat) {i : ℕ}
    (hcovers : ((shadowMtrrs P p.settings).1 i).Covers a) : (c.shadow i).valid = true := by
  refine Bool.of_not_eq_false fun hgone ↦ hout (hc.removed hlength i hcovers.1 hgone a.toNat ?_)
  exact ((hwf i hcovers.1).covers_iff.1 hcovers).2

/-- **The variable registers after a call that succeeds** leave the neighbours alone, but for the
holes. -/
theorem VariablesEnd.neighbourAfter (h : VariablesEnd P rounds attributes p .success s')
    (hreaches : ReachesVariables P p) (hwf : WellFormedMtrrs P p.settings)
    (hattributes : attributes ≠ .cacheInvalid)
    (henabled : p.settings.mtrrDefType &&& mtrrLibCacheMtrrEnabled ≠ 0)
    (hnone : ∀ i, ((shadowMtrrs P p.settings).1 i).valid = true →
      ((shadowMtrrs P p.settings).1 i).type = attributes.value → ∀ x,
        InRange (variableBase p) (variableLength p) x →
          ¬ ((shadowMtrrs P p.settings).1 i).Contains x)
    (ha : base1Mb ≤ a) (hout : ¬ InRange (variableBase p) (variableLength p) a.toNat) :
    NeighbourAfter P p.settings s'.enable a := by
  have hwf' := h.wellFormed hreaches hwf hattributes
  have hsame (hdefault : s'.mtrrDefType = p.settings.mtrrDefType)
      (hcovering : coveringTypes P (getFirmwareVariableMtrrCountWorker P) s' a =
        coveringTypes P (getFirmwareVariableMtrrCountWorker P) p.settings a) :
      NeighbourAfter P p.settings s'.enable a := by
    refine .same ?_
    rw [lookup_enable ha, lookup_eq_combinedType henabled ha, hcovering, combinedType,
      combinedType, getMemoryCacheTypeFromMtrrType, getMemoryCacheTypeFromMtrrType,
      mtrrGetDefaultMemoryTypeWorker, mtrrGetDefaultMemoryTypeWorker, hdefault]
  cases h with
  | refused herror => cases herror
  | mapped => exact hsame rfl rfl
  | @cleared c hcombined hclears =>
    have hc := hreaches.combined hwf hcombined
    obtain ⟨hbase, hlength⟩ := combineRequest_alone hreaches hwf hnone hcombined
    have hne : c.length ≠ 0 := hlength ▸ hreaches.variableLength_ne
    rw [← hbase, ← hlength] at hout
    refine hsame rfl (coveringTypes_congr fun i hcovers ↦ shadowMtrrs_withVariables ?_)
    rcases hcovers with hcovers | hcovers
    · exact registersBefore_of_valid (hc.valid_of_covers hwf hne hout hcovers)
    · obtain ⟨hi, hon⟩ := valid_shadowMtrrs.1 hcovers.1
      exact (registersBefore_of_enabled hc.used hi hon).2
  | @programmed c _ _ after attributeCalls uncacheableCalls hprograms hdecomposes =>
    have hc := hreaches.combined hwf hprograms.combined
    obtain ⟨hbase, hlength⟩ := combineRequest_alone hreaches hwf hnone hprograms.combined
    rw [← hbase, ← hlength] at hout
    have hstays {i : ℕ} (hcovers : ((shadowMtrrs P p.settings).1 i).Covers a) :
        after i = p.settings.variableMtrr i :=
      hdecomposes.after_of_valid (fun _ ↦ hc.valid)
        (hc.valid_of_covers hwf hprograms.needed hout hcovers)
    by_cases hhole : ∃ call ∈ uncacheableCalls, (call.entry P).Contains a.toNat
    · obtain ⟨call, hcall, hcontains⟩ := hhole
      have hmem := List.mem_append_right attributeCalls hcall
      have hentry := hdecomposes.wellFormed_entry hattributes hmem
      have hregister := hdecomposes.exists_register hmem
      have hafter : ((shadowMtrrs P (p.settings.withVariables after)).1 call.msrNum).Covers a := by
        rw [hregister]
        exact hentry.covers_iff.2 ⟨valid_entry call, hcontains⟩
      have htype : ((shadowMtrrs P (p.settings.withVariables after)).1 call.msrNum).type = 0 := by
        rw [hregister]
        exact hdecomposes.uncacheableType call hcall
      refine .hole ha ?_ call.msrNum (fun hbefore ↦ ?_) hafter htype
      · rw [lookup_enable ha]
        exact combinedType_of_mem (fun _ hmem' ↦ isMemoryType_of_mem hwf' hmem')
          (mem_coveringTypes_iff.2 ⟨_, hafter, htype⟩)
      · -- a register of a call was free
        have hfree := (mem_freeRegisters.1 (hdecomposes.programmed.free call hmem)).2
        have hkept := hc.valid_of_covers hwf hprograms.needed hout hbefore
        rw [registersBefore_of_valid hkept] at hfree
        exact hfree (valid_shadowMtrrs.1 hbefore.1).2
    · refine hsame rfl (coveringTypes_congr fun i hcovers ↦ shadowMtrrs_withVariables ?_)
      rcases hcovers with hcovers | hcovers
      · exact hstays hcovers
      · rcases hdecomposes.register_cases hc.used hcovers.1 with ⟨call, hcall, heq⟩ | ⟨-, hafter⟩
        · rw [heq] at hcovers
          have hcontains :=
            ((hdecomposes.wellFormed_entry hattributes hcall).covers_iff.1 hcovers).2
          rcases List.mem_append.1 hcall with hcall | hcall
          · exact absurd ((hdecomposes.covered a.toNat).1 ⟨⟨call, hcall, hcontains⟩, hhole⟩) hout
          · exact absurd ⟨call, hcall, hcontains⟩ hhole
        · exact hafter

/-! ### The whole call -/

/-- No enabled register of the firmware with the type meets the range. If this starts at 1 MB or
below, it is the one from 0 on that goes into the variable registers. -/
def NoneAlike (P : MtrrPlatform) (s : MtrrSettings) (attributes : MtrrMemoryCacheType)
    (base length : BitVec 64) : Prop :=
  ∀ i, ((shadowMtrrs P s).1 i).valid = true →
    ((shadowMtrrs P s).1 i).type = attributes.value → ∀ x,
      (if base ≤ base1Mb then 0 else base.toNat) ≤ x → x < base.toNat + length.toNat →
        ¬ ((shadowMtrrs P s).1 i).Contains x

theorem PiecesSet.default (h : PiecesSet s base length attributes p) :
    mtrrGetDefaultMemoryTypeWorker p.settings = mtrrGetDefaultMemoryTypeWorker s := by
  rcases h.mtrrDefType with heq | heq
  · rw [mtrrGetDefaultMemoryTypeWorker, heq]
    rfl
  · rw [mtrrGetDefaultMemoryTypeWorker, heq]
    exact and_or_of_and_eq_zero _ (by decide)

theorem PiecesSet.fixedEnabled (h : PiecesSet s base length attributes p)
    (hon : s.mtrrDefType &&& mtrrLibCacheFixedMtrrEnabled ≠ 0) :
    p.settings.mtrrDefType &&& mtrrLibCacheFixedMtrrEnabled ≠ 0 := by
  rcases h.mtrrDefType with heq | heq
  · rwa [heq]
  · rw [heq]
    exact or_and_ne_zero _ (by decide)

theorem shadowMtrrs_of_variableMtrr (h : s'.variableMtrr = s.variableMtrr) :
    shadowMtrrs P s' = shadowMtrrs P s := by
  rw [shadowMtrrs, shadowMtrrs, h]

/-- The pieces of the first megabyte change no type above it. -/
theorem PiecesSet.lookup_above (h : PiecesSet s base length attributes p)
    (henabled : s.mtrrDefType &&& mtrrLibCacheMtrrEnabled ≠ 0) (ha : base1Mb ≤ a) :
    mtrrGetMemoryAttributeByAddressWorker P p.settings a =
      mtrrGetMemoryAttributeByAddressWorker P s a := by
  have henabled' : p.settings.mtrrDefType &&& mtrrLibCacheMtrrEnabled ≠ 0 := h.enabled ▸ henabled
  rw [lookup_eq_combinedType henabled ha, lookup_eq_combinedType henabled' ha, combinedType,
    combinedType, getMemoryCacheTypeFromMtrrType, getMemoryCacheTypeFromMtrrType, h.default,
    coveringTypes, coveringTypes, h.variableMtrr]

theorem NeighbourAfter.of_piecesSet (h : PiecesSet s base length attributes p)
    (henabled : s.mtrrDefType &&& mtrrLibCacheMtrrEnabled ≠ 0) (ha : base1Mb ≤ a)
    (hafter : NeighbourAfter P p.settings s' a) : NeighbourAfter P s s' a := by
  cases hafter with
  | same hsame => exact .same (hsame.trans (h.lookup_above henabled ha))
  | hole haddress hlookup i hbefore hcovers htype =>
    rw [shadowMtrrs_of_variableMtrr h.variableMtrr] at hbefore
    exact .hole haddress hlookup i hbefore hcovers htype

/-- An address of the first megabyte outside the request. -/
theorem PiecesSet.neighbourAfter (h : PiecesSet s base length attributes p) {t : MtrrSettings}
    (hfixed : t.fixed = p.settings.fixed) (hdefType : t.mtrrDefType = p.settings.mtrrDefType)
    (henabled : s.mtrrDefType &&& mtrrLibCacheMtrrEnabled ≠ 0)
    (hfixedEnabled : s.mtrrDefType &&& mtrrLibCacheFixedMtrrEnabled ≠ 0) (ha : a < base1Mb)
    (hout : a < base ∨ base.toNat + length.toNat ≤ a.toNat) : NeighbourAfter P s t.enable a := by
  have hdefault : mtrrGetDefaultMemoryTypeWorker t.enable = mtrrGetDefaultMemoryTypeWorker s := by
    rw [t.enable_default, ← h.default, mtrrGetDefaultMemoryTypeWorker, hdefType]
    rfl
  have hfixedEnabled' : t.enable.mtrrDefType &&& mtrrLibCacheFixedMtrrEnabled ≠ 0 := by
    rw [t.enable_fixedEnabled, hdefType]
    exact h.fixedEnabled hfixedEnabled
  have hsame : t.enable.fixed = p.settings.fixed := hfixed
  exact .same (h.lookup hsame hdefault henabled hfixedEnabled t.enable_enabled hfixedEnabled' ha
    hout)

/-- What is left of a request for the variable registers leaves out the same addresses above
1 MB. -/
theorem not_inRange_variableRange (hset : PiecesSet s base length attributes p)
    (hstart : ¬ base < base1Mb → p.base = base) (hreaches : ReachesVariables P p)
    (ha : base1Mb ≤ a) (hout : a < base ∨ base.toNat + length.toNat ≤ a.toNat) :
    ¬ InRange (variableBase p) (variableLength p) a.toNat := by
  rintro ⟨hlow, hhigh⟩
  obtain ⟨-, hsum, -⟩ := hreaches.variableRange
  have hends := hset.length_eq
  rcases hout with hbelow | habove
  · have hbase : p.base = base := hstart fun hlt ↦ by
      rw [BitVec.lt_def] at hlt hbelow
      rw [BitVec.le_def] at ha
      omega
    have hmb : variableBase p = base := by
      rw [variableBase, hbase, if_neg]
      rintro rfl
      exact BitVec.not_lt.2 ha hbelow
    rw [hmb] at hlow
    rw [BitVec.lt_def] at hbelow
    omega
  · omega

theorem NoneAlike.variableRange (h : NoneAlike P s attributes base length)
    (hset : PiecesSet s base length attributes p) (hstart : ¬ base < base1Mb → p.base = base)
    (hreaches : ReachesVariables P p) (i : ℕ)
    (hvalid : ((shadowMtrrs P p.settings).1 i).valid = true)
    (htype : ((shadowMtrrs P p.settings).1 i).type = attributes.value) (x : ℕ)
    (hx : InRange (variableBase p) (variableLength p) x) :
    ¬ ((shadowMtrrs P p.settings).1 i).Contains x := by
  rw [shadowMtrrs_of_variableMtrr hset.variableMtrr] at hvalid htype ⊢
  obtain ⟨hlow, hhigh⟩ := hx
  obtain ⟨-, hsum, -⟩ := hreaches.variableRange
  have hends := hset.length_eq
  refine h i hvalid htype x ?_ (by omega)
  split
  · exact Nat.zero_le x
  next hbase =>
    have hlt : base1Mb < base := BitVec.not_le.1 hbase
    have hbase' : p.base = base := hstart fun hbelow ↦ hbase (BitVec.le_of_lt hbelow)
    rw [variableBase, hbase', if_neg] at hlow
    · exact hlow
    · rintro rfl
      exact BitVec.lt_irrefl _ hlt

/-- **The neighbours of a request**, in every call of a run that ends with success: an address
outside the request keeps its type, or becomes UC in a hole, unless a register with the type of the
request meets it. In the first megabyte the fixed registers have to be enabled. -/
theorem mtrrSetMemoryAttribute_neighbours {t t' : MtrrSettings} (hwf : WellFormedMtrrs P s)
    (henabled : s.mtrrDefType &&& mtrrLibCacheMtrrEnabled ≠ 0) (hrounds : 2 ^ 64 < rounds)
    (h : SetFrom P rounds s t) (hattributes : attributes ≠ .cacheInvalid)
    (hends : base.toNat + length.toNat ≤ 2 ^ addressBits P)
    (hnone : NoneAlike P t attributes base length)
    (hcall : mtrrSetMemoryAttributeInMtrrSettings P rounds t base length attributes =
      some (.success, t'))
    (hout : a < base ∨ base.toNat + length.toNat ≤ a.toNat)
    (hfixed : base1Mb ≤ a ∨ t.mtrrDefType &&& mtrrLibCacheFixedMtrrEnabled ≠ 0) :
    NeighbourAfter P t t' a := by
  obtain ⟨hwf', henabled'⟩ := h.wellFormed hrounds hwf henabled
  obtain ⟨status, t'', hcall', hend⟩ := exists_workerEnd hwf' hends hrounds attributes
  cases hcall.symm.trans hcall'
  by_cases ha : a < base1Mb
  · have hfixedEnabled := hfixed.resolve_left (BitVec.not_le.2 ha)
    cases hend with
    | refused herror => cases herror
    | fixedRegisters hset => exact hset.neighbourAfter rfl rfl henabled' hfixedEnabled ha hout
    | variableRegisters hset _ _ _ hvariables =>
      obtain ⟨hfixed', hdefType⟩ := hvariables.frame
      exact hset.neighbourAfter hfixed' hdefType henabled' hfixedEnabled ha hout
  · have ha' := BitVec.not_lt.1 ha
    cases hend with
    | refused herror => cases herror
    | @fixedRegisters p hset =>
      have hon : p.settings.mtrrDefType &&& mtrrLibCacheMtrrEnabled ≠ 0 := hset.enabled ▸ henabled'
      refine .same ?_
      rw [lookup_enable ha', ← lookup_eq_combinedType hon ha', hset.lookup_above henabled' ha']
    | variableRegisters hset _ hstart hreaches hvariables =>
      exact (hvariables.neighbourAfter hreaches (hwf'.of_variableMtrr hset.variableMtrr) hattributes
        (hset.enabled ▸ henabled') (hnone.variableRange hset hstart hreaches) ha'
        (not_inRange_variableRange hset hstart hreaches ha' hout)).of_piecesSet hset henabled' ha'

/-- Write-back from 1 MB to 15 MB takes two registers: 16 MB, less the last one of them. -/
theorem mtrrSetMemoryAttribute_fourteenMegabytes :
    (mtrrSetMemoryAttributeInMtrrSettings addressBits36 (2 ^ 64 + 1) uncacheable 0x100000 0xE00000
      .cacheWriteBack).map (fun r ↦ (r.1, r.2.variableMtrr 0, r.2.variableMtrr 1)) =
        some (.success, ⟨6, 0xFFF000800⟩, ⟨0xF00000, 0xFFFF00800⟩) := by
  decide +kernel

/-- The address behind the range is taken out. -/
theorem mtrrSetMemoryAttribute_neighbours_fourteenMegabytes :
    ∃ t', mtrrSetMemoryAttributeInMtrrSettings addressBits36 (2 ^ 64 + 1) uncacheable 0x100000
        0xE00000 .cacheWriteBack = some (.success, t') ∧
      NeighbourAfter addressBits36 uncacheable t' 0xF00000 := by
  obtain ⟨⟨status, t'⟩, hrun, hresult⟩ :=
    Option.map_eq_some_iff.1 mtrrSetMemoryAttribute_fourteenMegabytes
  obtain ⟨rfl, -⟩ := Prod.mk.inj hresult
  have hnone : NoneAlike addressBits36 uncacheable .cacheWriteBack 0x100000 0xE00000 := by
    intro i hvalid
    have hdisabled : ¬ (⟨0, 0⟩ : MtrrVariableSetting).Enabled := by decide
    exact absurd (valid_shadowMtrrs.1 hvalid).2 hdisabled
  have hattributes : MtrrMemoryCacheType.cacheWriteBack ≠ .cacheInvalid := by rintro ⟨⟩
  have hends : (0x100000 : BitVec 64).toNat + (0xE00000 : BitVec 64).toNat ≤
      2 ^ addressBits addressBits36 := by decide
  have hout : (0x100000 : BitVec 64).toNat + (0xE00000 : BitVec 64).toNat ≤
      (0xF00000 : BitVec 64).toNat := by decide
  exact ⟨t', hrun, mtrrSetMemoryAttribute_neighbours wellFormed_uncacheable (by decide)
    (Nat.lt_succ_self _) .start hattributes hends hnone hrun (.inr hout) (.inl (by decide))⟩

end PurleyFirmware.Mtrr
