import PurleyFirmware.PchSmi.TcoDispatch

/-!
# Write protection cannot be trusted to the TCO unregistration

What the write-protect refusal of `pchTcoSmiUnRegister` amounts to over every sequence of TCO calls.
The law it is meant to enforce is `WriteProtectLaw`: a protected record is refused with everything
left as it was, and any other TCO record is removed.

`pchTcoSmiUnRegister_eq_core` is the whole story: on a record whose enables come from the tables,
the unregistration **is** the core unregistration. So the law holds along a sequence exactly when
the sequence never tries to unregister a protected record, and that is what the final theorem says.
-/

namespace PurleyFirmware.PchSmi

variable {H : Type} (P : PchHardware H)

/-! ### TCO records carry the enables of their table -/

/-- The table behind each TCO kind of SMI. -/
def tcoSrcDesc : PchSmiTypes → Option PchSmmSourceDesc
  | .pchTcoSmiMchType => some mSrcDescMch
  | .pchTcoSmiTcoTimeoutType => some mSrcDescTcoTimeout
  | .pchTcoSmiOsTcoType => some mSrcDescOsTco
  | .pchTcoSmiNmiType => some mSrcDescNmi
  | .pchTcoSmiIntruderDetectType => some mSrcDescIntruderDet
  | .pchTcoSmiSpiBiosWpType => some mSrcDescSpiBiosWp
  | .pchTcoSmiLpcBiosWpType => some mSrcDescLpcBiosWp
  | .pchTcoSmiNewCenturyType => some mSrcDescNewCentury
  | _ => none

namespace DatabaseRecord

/-- A record made by a TCO registration. Records of the standard protocols leave the PCH specific
kind at its initial value, so the protocol has to be asked for too. -/
def IsTco (r : DatabaseRecord) : Prop :=
  r.protocolType = .pchSmiDispatchType ∧ (tcoSrcDesc r.pchSmiType).isSome

/-- A record of SPI or LPC BIOS write protection. -/
def IsWriteProtect (r : DatabaseRecord) : Prop :=
  r.protocolType = .pchSmiDispatchType ∧
    (r.pchSmiType = .pchTcoSmiSpiBiosWpType ∨ r.pchSmiType = .pchTcoSmiLpcBiosWpType)

instance (r : DatabaseRecord) : Decidable r.IsTco :=
  inferInstanceAs (Decidable (_ ∧ _))

instance (r : DatabaseRecord) : Decidable r.IsWriteProtect :=
  inferInstanceAs (Decidable (_ ∧ _))

end DatabaseRecord

/-- The invariant of TCO call sequences: the patched descriptor keeps its enables, and every TCO
record carries the enables of its table. -/
structure TcoRecords (d : PchSmiDispatcher H) : Prop where
  /-- Patching the LPC descriptor only touches its status. -/
  lpc_en : d.srcDescLpcBiosWp.en = mSrcDescLpcBiosWp.en
  /-- The enables of a TCO record are those of its table. -/
  record_en : ∀ r ∈ d.callbackDataBase, r.protocolType = .pchSmiDispatchType →
    ∀ srcDesc, tcoSrcDesc r.pchSmiType = some srcDesc → r.srcDesc.en = srcDesc.en

theorem tcoRecords_initialDispatcher (hw : H) : TcoRecords (initialDispatcher hw) :=
  ⟨rfl, by simp [initialDispatcher]⟩

/-- **No table has an ACPI second enable**, which is the address type the refusal asks for. -/
theorem type_en_ne_acpi {pchSmiType : PchSmiTypes} {srcDesc : PchSmmSourceDesc}
    (h : tcoSrcDesc pchSmiType = some srcDesc) : srcDesc.en[1].reg.type ≠ .acpi := by
  cases pchSmiType <;> simp only [tcoSrcDesc, Option.some.injEq, reduceCtorEq] at h
  all_goals subst h; decide

/-- **The refusal recognises nothing**: on a record with the enables of its table the TCO
unregistration is the core unregistration. -/
theorem pchTcoSmiUnRegister_eq_core {d : PchSmiDispatcher H} (hd : TcoRecords d)
    {r : DatabaseRecord} (hr : r ∈ d.callbackDataBase) (htco : r.IsTco) :
    pchTcoSmiUnRegister P d (some r.link) = pchSmmCoreUnRegister P d (some r.link) := by
  obtain ⟨srcDesc, hsrc⟩ := Option.isSome_iff_exists.1 htco.2
  have hen : r.srcDesc.en = srcDesc.en := hd.record_en r hr htco.1 srcDesc hsrc
  have htype : (r.srcDesc.en[1].reg.type == .acpi) = false := by
    rw [hen]
    exact beq_eq_false_iff_ne.2 (type_en_ne_acpi hsrc)
  have hfind : (d.callbackDataBase.find? fun r' ↦ some r'.link == some r.link) = some r := by
    simpa using find?_eq_some_of_mem d hr
  rw [pchTcoSmiUnRegister, hfind]
  simp [isSpiBiosWp, isLpcBiosWp, htype]

/-! ### The invariant is kept by every call -/

/-- **Registration, by cases.** The dispatcher is unchanged, or one record made from the given
descriptor has been appended and only the hardware differs besides. -/
theorem pchTcoSmiRegister_cases (d : PchSmiDispatcher H) (alloc : Bool)
    (srcDesc : PchSmmSourceDesc) (dispatchFunction : Option Nat) (pchSmiType : PchSmiTypes)
    (clearSource : PchSmmClearSource) (initHw : H → H) (d' : PchSmiDispatcher H)
    (h : (pchTcoSmiRegister d alloc srcDesc dispatchFunction pchSmiType clearSource
      initHw).2.1 = d') :
    d'.srcDescLpcBiosWp = d.srcDescLpcBiosWp ∧ ∀ r ∈ d'.callbackDataBase,
      r ∈ d.callbackDataBase ∨ (r.srcDesc = srcDesc ∧ r.pchSmiType = pchSmiType) := by
  subst h
  unfold pchTcoSmiRegister
  split
  · exact ⟨rfl, fun r hr ↦ Or.inl hr⟩
  · rcases pchSmiRecordInsert_cases d alloc srcDesc dispatchFunction pchSmiType with
      ⟨status, hstatus, hins⟩ | hins
    · rw [hins]
      cases status <;> exact ⟨rfl, fun r hr ↦ Or.inl hr⟩
    · rw [hins]
      refine ⟨rfl, fun r hr ↦ ?_⟩
      rcases d.mem_insertTailList_setClearSource _ clearSource hr with hold | hnew
      · exact Or.inl hold
      · rw [hnew]
        exact Or.inr ⟨rfl, rfl⟩

theorem TcoRecords.pchTcoSmiRegister {d : PchSmiDispatcher H} (hd : TcoRecords d) (alloc : Bool)
    {srcDesc table : PchSmmSourceDesc} (dispatchFunction : Option Nat) {pchSmiType : PchSmiTypes}
    (clearSource : PchSmmClearSource) (initHw : H → H)
    (htable : tcoSrcDesc pchSmiType = some table) (hen : srcDesc.en = table.en) :
    TcoRecords (pchTcoSmiRegister d alloc srcDesc dispatchFunction pchSmiType clearSource
      initHw).2.1 := by
  obtain ⟨hlpc, hmem⟩ := pchTcoSmiRegister_cases d alloc srcDesc dispatchFunction pchSmiType
    clearSource initHw _ rfl
  refine ⟨hlpc ▸ hd.lpc_en, fun r hr hproto table' htable' ↦ ?_⟩
  rcases hmem r hr with hold | ⟨hsrc, htype⟩
  · exact hd.record_en r hold hproto table' htable'
  · rw [htype, htable] at htable'
    rw [hsrc, hen, Option.some.inj htable']

theorem TcoRecords.pchTcoSmiLpcBiosWpRegister {d : PchSmiDispatcher H} (hd : TcoRecords d)
    (alloc : Bool) (dispatchFunction : Option Nat) :
    TcoRecords (pchTcoSmiLpcBiosWpRegister P d alloc dispatchFunction).2.1 := by
  unfold PchSmi.pchTcoSmiLpcBiosWpRegister
  split
  · exact hd
  · split
    · exact hd
    · -- the patch changes the status of the global descriptor, never its enables
      have hpatched : TcoRecords
          { d with srcDescLpcBiosWp := { d.srcDescLpcBiosWp with sts := stsBits (tco1Sts 8) } } :=
        ⟨hd.lpc_en, hd.record_en⟩
      exact hpatched.pchTcoSmiRegister alloc dispatchFunction _ _ rfl hd.lpc_en

theorem TcoRecords.pchSmmCoreUnRegister {d : PchSmiDispatcher H} (hd : TcoRecords d)
    (dispatchHandle : Option Nat) : TcoRecords (pchSmmCoreUnRegister P d dispatchHandle).2 := by
  rcases dispatchHandle with - | link
  · exact hd
  · refine ⟨?_, fun r hr ↦ hd.record_en r ?_⟩
    · by_cases h : d.IsLinked link
      · obtain ⟨r, hr, rfl⟩ := h
        rw [pchSmmCoreUnRegister_of_mem P d hr]
        exact hd.lpc_en
      · rw [pchSmmCoreUnRegister_of_not_isLinked P d h]
        exact hd.lpc_en
    · rw [callbackDataBase_pchSmmCoreUnRegister] at hr
      exact (List.mem_filter.1 hr).1

/-- **Every call keeps the invariant.** -/
theorem TcoRecords.tcoNext {d : PchSmiDispatcher H} (hd : TcoRecords d) (call : TcoCall) :
    TcoRecords (tcoNext P d call) := by
  cases call with
  | register service alloc dispatchFunction =>
    cases service with
    | lpcBiosWp => exact hd.pchTcoSmiLpcBiosWpRegister P alloc dispatchFunction
    | _ => exact hd.pchTcoSmiRegister alloc dispatchFunction _ _ rfl rfl
  | unRegister dispatchHandle =>
    simp only [PchSmi.tcoNext, pchTcoSmiUnRegister]
    split
    · exact hd.pchSmmCoreUnRegister P dispatchHandle
    · split
      · exact hd
      · split
        · exact hd
        · exact hd.pchSmmCoreUnRegister P dispatchHandle
  | smmReadyToLock => exact ⟨hd.lpc_en, hd.record_en⟩

/-! ### The law, and when it holds -/

/-- What an unregistration is meant to do with the record its handle names: a protected record is
refused and nothing changes, any other is taken out of the database. -/
def WriteProtectLaw (d : PchSmiDispatcher H) : TcoCall → Prop
  | .unRegister dispatchHandle => ∀ r ∈ d.callbackDataBase, dispatchHandle = some r.link →
      (r.IsWriteProtect → pchTcoSmiUnRegister P d dispatchHandle = (.accessDenied, d)) ∧
      (¬ r.IsWriteProtect → (pchTcoSmiUnRegister P d dispatchHandle).1 = .success ∧
        ¬ (pchTcoSmiUnRegister P d dispatchHandle).2.IsLinked r.link)
  | _ => True

/-- The handle of an unregistration is one that a TCO registration returned and that is still
registered. -/
def ValidHandle (d : PchSmiDispatcher H) : TcoCall → Prop
  | .unRegister dispatchHandle => ∃ r ∈ d.callbackDataBase, dispatchHandle = some r.link ∧ r.IsTco
  | _ => True

/-- The call does not try to unregister a protected record. -/
def SparesWriteProtect (d : PchSmiDispatcher H) : TcoCall → Prop
  | .unRegister dispatchHandle =>
    ∀ r ∈ d.callbackDataBase, dispatchHandle = some r.link → ¬ r.IsWriteProtect
  | _ => True

instance (d : PchSmiDispatcher H) (call : TcoCall) : Decidable (ValidHandle d call) :=
  match call with
  | .unRegister dispatchHandle =>
    inferInstanceAs (Decidable (∃ r ∈ d.callbackDataBase, dispatchHandle = some r.link ∧ r.IsTco))
  | .register .. => isTrue trivial
  | .smmReadyToLock => isTrue trivial

instance (d : PchSmiDispatcher H) (call : TcoCall) : Decidable (SparesWriteProtect d call) :=
  match call with
  | .unRegister dispatchHandle => inferInstanceAs (Decidable
      (∀ r ∈ d.callbackDataBase, dispatchHandle = some r.link → ¬ r.IsWriteProtect))
  | .register .. => isTrue trivial
  | .smmReadyToLock => isTrue trivial

/-- **One call.** With a valid handle the law holds exactly when no protected record is named. -/
theorem writeProtectLaw_iff_sparesWriteProtect {d : PchSmiDispatcher H} (hd : TcoRecords d)
    {call : TcoCall} (hvalid : ValidHandle d call) :
    WriteProtectLaw P d call ↔ SparesWriteProtect d call := by
  cases call with
  | unRegister dispatchHandle =>
    obtain ⟨r, hr, rfl, htco⟩ := hvalid
    have hrun := pchTcoSmiUnRegister_eq_core P hd hr htco
    rw [pchSmmCoreUnRegister_of_mem P d hr] at hrun
    constructor
    · -- the unregistration succeeds, so it cannot have been refused
      intro hlaw r' hr' hlink hwp
      have := (hlaw r' hr' hlink).1 hwp
      rw [hrun] at this
      exact absurd (congrArg Prod.fst this) (by simp)
    · intro hspares r' hr' hlink
      refine ⟨fun hwp ↦ absurd hwp (hspares r' hr' hlink), fun _ ↦ ?_⟩
      have heq : r.link = r'.link := Option.some.inj hlink
      rw [hrun, ← heq]
      exact ⟨rfl, d.not_isLinked_removeEntryList r.link⟩
  | register service alloc dispatchFunction => exact Iff.rfl
  | smmReadyToLock => exact Iff.rfl

/-- **When the write-protect law holds over a whole sequence**: exactly when no call of the sequence
tries to unregister a protected record. -/
theorem along_writeProtectLaw_iff {d : PchSmiDispatcher H} (hd : TcoRecords d)
    {calls : List TcoCall} (hvalid : Along (tcoNext P) ValidHandle d calls) :
    Along (tcoNext P) (WriteProtectLaw P) d calls ↔
      Along (tcoNext P) SparesWriteProtect d calls :=
  along_iff_of_invariant (fun _ call hd _ _ ↦ hd.tcoNext P call)
    (fun _ _ hd hvalid ↦ writeProtectLaw_iff_sparesWriteProtect P hd hvalid) hd hvalid

/-- A sequence within the condition: the software TCO handler goes, write protection stays. -/
theorem along_writeProtectLaw_osTco :
    Along (tcoNext PchHardware.registerFile) (WriteProtectLaw PchHardware.registerFile)
      (initialDispatcher fun _ ↦ 0)
      [.register .spiBiosWp true (some 1), .register .osTco true (some 2), .unRegister (some 1)] :=
  (along_writeProtectLaw_iff _ (tcoRecords_initialDispatcher _) (by decide)).2 (by decide)

/-- Registering SPI write protection and unregistering it again. -/
def spiWriteProtectCalls : List TcoCall :=
  [.register .spiBiosWp true (some 1), .unRegister (some 0)]

/-- **The refusal fails on SPI write protection.** On plain registers and an empty database the
handle is valid, the lock enable is on, and the unregistration removes the record and turns the
lock enable off. -/
theorem not_along_writeProtectLaw_spi :
    let P := PchHardware.registerFile
    let d := initialDispatcher fun _ ↦ 0
    let d₁ := tcoNext P d (.register .spiBiosWp true (some 1))
    let d₂ := tcoNext P d₁ (.unRegister (some 0))
    Along (tcoNext P) ValidHandle d spiWriteProtectCalls ∧
      readBitDesc P d₁.hw mSrcDescSpiBiosWp.en[1] = true ∧
      d₂.callbackDataBase = [] ∧ readBitDesc P d₂.hw mSrcDescSpiBiosWp.en[1] = false ∧
      ¬ Along (tcoNext P) (WriteProtectLaw P) d spiWriteProtectCalls := by
  intro P d d₁ d₂
  have hd₁ : TcoRecords d₁ := (tcoRecords_initialDispatcher _).tcoNext P _
  have hvalid : Along (tcoNext P) ValidHandle d spiWriteProtectCalls := by decide
  refine ⟨hvalid, by decide, by decide, by decide, fun hlaw ↦ ?_⟩
  -- the law at the second call would mean that it does not name a protected record
  have hspares := (writeProtectLaw_iff_sparesWriteProtect P hd₁ hvalid.2.1).1 hlaw.2.1
  have hwp : ∃ r ∈ d₁.callbackDataBase, some 0 = some r.link ∧ r.IsWriteProtect := by decide
  obtain ⟨r, hr, hlink, hr'⟩ := hwp
  exact hspares r hr hlink hr'

end PurleyFirmware.PchSmi
