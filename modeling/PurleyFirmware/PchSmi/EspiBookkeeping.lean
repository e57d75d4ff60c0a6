import PurleyFirmware.PchSmi.Espi

/-!
# The bookkeeping of eSPI registrations

Counters, lists and top-level handles over every sequence of eSPI calls before ready-to-lock.

Counters and lists agree, and the two shared top-level records come and go with their children, in
every run. The slave SMI is the exception. Its counter is never raised, so the teardown loop at the
end of `espiSmiUnRegister` always finds its top-level source safe to disable, and the first child
that is unregistered after the slave SMI takes the slave SMI along. `along_espiLaw_iff` says that
this is the **only** way in which the bookkeeping fails.

## How the proof is organised

`TornDown` describes what the teardown loop does to a state, source by source; `EspiInv` is the
invariant between calls. It asks more than the law: that distinct sources have distinct handles and
that the two shared handles never name a slave record, which is what keeps one teardown from
touching another source's record.
-/

namespace PurleyFirmware.PchSmi

variable {H : Type} (P : PchHardware H) (pchH : Bool)

/-- A record of the eSPI slave SMI. -/
def DatabaseRecord.IsEspiSlave (r : DatabaseRecord) : Prop :=
  r.protocolType = .pchSmiDispatchType ∧ r.pchSmiType = .pchEspiSmiEspiSlaveType

/-- Some child of a top-level source is registered. -/
def EspiState.HasChild (s : EspiState H) (top : EspiTopLevelType) : Prop :=
  ∃ t ∈ top.children, s.callbackDataBase t ≠ []

/-! ### The teardown loop -/

/-- What the teardown loop over the sources `tops` does: a source whose counters are all zero loses
its record and its handle, and nothing else changes. -/
structure TornDown (tops : List EspiTopLevelType) (s s' : EspiState H) : Prop where
  /-- Child lists are not touched. -/
  callbackDataBase_eq : s'.callbackDataBase = s.callbackDataBase
  /-- Counters are not touched. -/
  counter_eq : s'.espiSmiEventCounter = s.espiSmiEventCounter
  /-- The ready-to-lock flag is not touched. -/
  readyToLock_eq : s'.pch.readyToLock = s.pch.readyToLock
  /-- The pool is not touched. -/
  nextLink_eq : s'.pch.nextLink = s.pch.nextLink
  /-- The handles of the safe sources are cleared. -/
  handle_eq : ∀ top, s'.pchSmiEspiHandle top =
    if top ∈ tops ∧ safeToDisable s top = true then none else s.pchSmiEspiHandle top
  /-- No record is added to the dispatcher's database. -/
  mem_of_mem : ∀ r ∈ s'.pch.callbackDataBase, r ∈ s.pch.callbackDataBase
  /-- Only the handles of safe sources are unlinked. -/
  isLinked : ∀ link, s.pch.IsLinked link →
    (∀ top ∈ tops, safeToDisable s top = true → s.pchSmiEspiHandle top ≠ some link) →
    s'.pch.IsLinked link

theorem TornDown.nil (s : EspiState H) : TornDown [] s s :=
  ⟨rfl, rfl, rfl, rfl, by simp, fun _ h ↦ h, fun _ h _ ↦ h⟩

/-- One turn of the loop. -/
theorem tornDown_unregisterTopLevel (s : EspiState H) (top : EspiTopLevelType) :
    TornDown [top] s (unregisterTopLevel P s top) := by
  unfold unregisterTopLevel
  by_cases hsafe : safeToDisable s top = true
  · rcases hhandle : s.pchSmiEspiHandle top with - | link
    · rw [if_pos hsafe]
      refine ⟨rfl, rfl, rfl, rfl, fun top' ↦ ?_, fun _ h ↦ h, fun _ h _ ↦ h⟩
      by_cases htop : top' = top
      · subst htop
        simp [hhandle]
      · simp [htop]
    · rw [if_pos hsafe]
      refine ⟨rfl, rfl, by simp, by simp, fun top' ↦ ?_, fun r hr ↦ ?_, fun link' hlink' hne ↦ ?_⟩
      · by_cases htop : top' = top
        · subst htop
          simp [hsafe]
        · simp [setAt_of_ne _ _ htop, htop]
      · simp only [callbackDataBase_pchSmmCoreUnRegister] at hr
        exact (List.mem_filter.1 hr).1
      · rw [isLinked_pchSmmCoreUnRegister]
        refine ⟨hlink', fun heq ↦ hne top (by simp) hsafe ?_⟩
        rw [hhandle, heq]
  · rw [if_neg hsafe]
    refine ⟨rfl, rfl, rfl, rfl, fun top' ↦ (if_neg ?_).symm, fun _ h ↦ h, fun _ h _ ↦ h⟩
    rintro ⟨htop, hsafe'⟩
    rw [List.mem_singleton.1 htop] at hsafe'
    exact hsafe hsafe'

theorem TornDown.cons {top : EspiTopLevelType} {tops : List EspiTopLevelType}
    {s s₁ s' : EspiState H} (h₁ : TornDown [top] s s₁) (h : TornDown tops s₁ s') :
    TornDown (top :: tops) s s' := by
  have hsafe : ∀ top', safeToDisable s₁ top' = safeToDisable s top' := by
    intro top'
    simp only [safeToDisable, h₁.counter_eq]
  refine ⟨h.callbackDataBase_eq.trans h₁.callbackDataBase_eq, h.counter_eq.trans h₁.counter_eq,
    h.readyToLock_eq.trans h₁.readyToLock_eq, h.nextLink_eq.trans h₁.nextLink_eq, fun top' ↦ ?_,
    fun r hr ↦ h₁.mem_of_mem r (h.mem_of_mem r hr), fun link hlink hne ↦ ?_⟩
  · rw [h.handle_eq, h₁.handle_eq, hsafe]
    by_cases hs : safeToDisable s top' = true
    · by_cases ht : top' = top
      · subst ht
        simp [hs]
      · simp [hs, ht]
    · simp [hs]
  · refine h.isLinked link (h₁.isLinked link hlink ?_) ?_
    · intro top' htop' hs
      exact hne top' (by simpa using Or.inl (List.mem_singleton.1 htop')) hs
    · intro top' htop' hs
      rw [hsafe] at hs
      rw [h₁.handle_eq]
      split
      · simp
      · exact hne top' (List.mem_cons_of_mem _ htop') hs

/-- **The whole loop**, by induction on the sources that remain. -/
theorem tornDown_foldl (tops : List EspiTopLevelType) (s : EspiState H) :
    TornDown tops s (tops.foldl (unregisterTopLevel P) s) := by
  induction tops generalizing s with
  | nil => exact TornDown.nil s
  | cons top tops ih => exact (tornDown_unregisterTopLevel P s top).cons (ih _)

/-! ### The invariant between calls -/

/-- The coupling of the top-level handles to the dispatcher's database, relative to the sources
`live` that ought to have a record. The slave source is exempt from `live`. -/
structure TopLevelInv (s : EspiState H) (live : EspiTopLevelType → Prop) : Prop where
  /-- The two shared top-level records exist exactly while they ought to. -/
  handle_iff : ∀ top, top ≠ .espiPmc → ((s.pchSmiEspiHandle top).isSome ↔ live top)
  /-- Top-level handles are linked. -/
  handle_linked : ∀ top link, s.pchSmiEspiHandle top = some link → s.pch.IsLinked link
  /-- Distinct sources have distinct handles. -/
  handle_inj : ∀ top top' link, s.pchSmiEspiHandle top = some link →
    s.pchSmiEspiHandle top' = some link → top = top'
  /-- The shared handles do not name slave records. -/
  handle_not_slave : ∀ top, top ≠ .espiPmc → ∀ r ∈ s.pch.callbackDataBase,
    s.pchSmiEspiHandle top = some r.link → ¬ r.IsEspiSlave

/-- The invariant between eSPI calls. -/
structure EspiInv (s : EspiState H) : Prop where
  /-- Counters count the children. -/
  counter_eq : ∀ t, s.espiSmiEventCounter t = (s.callbackDataBase t).length
  /-- The slave SMI leaves no trace in the lists. -/
  slave_nil : s.callbackDataBase .espiSlaveSmi = []
  /-- A top-level record exists exactly while it has a child. -/
  topLevel : TopLevelInv s s.HasChild
  /-- Child records have addresses of the pool that are not addresses of dispatcher records. -/
  child_fresh : ∀ t, ∀ r ∈ s.callbackDataBase t,
    r.link < s.pch.nextLink ∧ ¬ s.pch.IsLinked r.link
  /-- Ready-to-lock has not been signalled. -/
  not_ready : s.pch.readyToLock = false

theorem espiInv_initialEspiState {pch : PchSmiDispatcher H} (h : pch.readyToLock = false) :
    EspiInv (initialEspiState pch) where
  counter_eq _ := rfl
  slave_nil := rfl
  topLevel :=
    { handle_iff := fun top _ ↦ by simp [initialEspiState, EspiState.HasChild]
      handle_linked := fun top link h ↦ by simp [initialEspiState] at h
      handle_inj := fun top top' link h ↦ by simp [initialEspiState] at h
      handle_not_slave := fun top _ r _ h ↦ by simp [initialEspiState] at h }
  child_fresh t r hr := by simp [initialEspiState] at hr
  not_ready := h

/-- A source is safe to disable exactly when it has no child. -/
theorem safeToDisable_iff {s : EspiState H}
    (hs : ∀ t, s.espiSmiEventCounter t = (s.callbackDataBase t).length) (top : EspiTopLevelType) :
    safeToDisable s top = true ↔ ¬ s.HasChild top := by
  simp [safeToDisable, EspiState.HasChild, hs]

/-- The top-level source of each kind of event. -/
def EspiSmiType.topLevel : EspiSmiType → EspiTopLevelType
  | .biosWrProtect => .espiBiosWrProtect
  | .espiSlaveSmi => .espiPmc
  | _ => .espiSerialIrq

/-- The barriers put every event under exactly one top-level source. -/
theorem EspiTopLevelType.mem_children_iff {top : EspiTopLevelType} {t : EspiSmiType} :
    t ∈ top.children ↔ t.topLevel = top := by
  cases t <;> cases top <;> decide

/-! ### Registration keeps the invariant -/

/-- **A fresh top-level record.** Storing the address of a record that has just been appended makes
its source live and disturbs no other. -/
theorem TopLevelInv.insert {s : EspiState H} {live : EspiTopLevelType → Prop}
    (hs : TopLevelInv s live) {top : EspiTopLevelType} {pch : PchSmiDispatcher H}
    (hlinked : ∀ link, pch.IsLinked link ↔ s.pch.IsLinked link ∨ link = s.pch.nextLink)
    (hmem : ∀ r ∈ pch.callbackDataBase, r ∈ s.pch.callbackDataBase ∨
      (r.link = s.pch.nextLink ∧ (top ≠ .espiPmc → ¬ r.IsEspiSlave))) :
    TopLevelInv
      { s with pch, pchSmiEspiHandle := setAt s.pchSmiEspiHandle top (some s.pch.nextLink) }
      (fun top' ↦ top' = top ∨ live top') := by
  -- an older handle is linked, and the fresh address is not
  have hold : ∀ top' link, s.pchSmiEspiHandle top' = some link → link ≠ s.pch.nextLink := by
    intro top' link h heq
    exact s.pch.not_isLinked_nextLink (heq ▸ hs.handle_linked top' link h)
  refine ⟨fun top' htop' ↦ ?_, fun top' link h ↦ ?_, fun top₁ top₂ link h₁ h₂ ↦ ?_,
    fun top' htop' r hr h ↦ ?_⟩
  · by_cases heq : top' = top
    · simp [heq]
    · simp [setAt_of_ne _ _ heq, heq, hs.handle_iff top' htop']
  · by_cases heq : top' = top
    · simp only [heq, setAt_self, Option.some.injEq] at h
      exact (hlinked link).2 (Or.inr h.symm)
    · simp only [setAt_of_ne _ _ heq] at h
      exact (hlinked link).2 (Or.inl (hs.handle_linked top' link h))
  · by_cases heq₁ : top₁ = top <;> by_cases heq₂ : top₂ = top
    · rw [heq₁, heq₂]
    · simp only [heq₁, setAt_self, Option.some.injEq] at h₁
      simp only [setAt_of_ne _ _ heq₂] at h₂
      exact absurd h₁.symm (hold top₂ link h₂)
    · simp only [setAt_of_ne _ _ heq₁] at h₁
      simp only [heq₂, setAt_self, Option.some.injEq] at h₂
      exact absurd h₂.symm (hold top₁ link h₁)
    · simp only [setAt_of_ne _ _ heq₁] at h₁
      simp only [setAt_of_ne _ _ heq₂] at h₂
      exact hs.handle_inj top₁ top₂ link h₁ h₂
  · by_cases heq : top' = top
    · simp only [heq, setAt_self, Option.some.injEq] at h
      rcases hmem r hr with hmem | ⟨-, hnot⟩
      · exact absurd ⟨r, hmem, h.symm⟩ s.pch.not_isLinked_nextLink
      · exact hnot (heq ▸ htop')
    · simp only [setAt_of_ne _ _ heq] at h
      rcases hmem r hr with hmem | ⟨hlink, -⟩
      · exact hs.handle_not_slave top' htop' r hmem h
      · exact absurd hlink (hold top' r.link h)

/-- What making sure of a top-level record leaves alone. -/
structure Extended (s s' : EspiState H) : Prop where
  /-- Child lists are not touched. -/
  callbackDataBase_eq : s'.callbackDataBase = s.callbackDataBase
  /-- Counters are not touched. -/
  counter_eq : s'.espiSmiEventCounter = s.espiSmiEventCounter
  /-- The ready-to-lock flag is not touched. -/
  readyToLock_eq : s'.pch.readyToLock = s.pch.readyToLock
  /-- The slave handle is not touched. -/
  handle_espiPmc_eq : s'.pchSmiEspiHandle .espiPmc = s.pchSmiEspiHandle .espiPmc
  /-- Addresses are only handed out. -/
  nextLink_le : s.pch.nextLink ≤ s'.pch.nextLink
  /-- Only a fresh address can become linked. -/
  isLinked_iff : ∀ link, link < s.pch.nextLink → (s'.pch.IsLinked link ↔ s.pch.IsLinked link)

/-- **Making sure of a top-level record**, when it succeeds: the source is live afterwards. -/
theorem TopLevelInv.registerTopLevelIfNull {s s' : EspiState H}
    {live : EspiTopLevelType → Prop} (hs : TopLevelInv s live) {alloc : Bool}
    {top : EspiTopLevelType} {srcDesc : PchSmmSourceDesc} {pchSmiType : PchSmiTypes}
    {clearSource : Option PchSmmClearSource} (htop : top ≠ .espiPmc)
    (htype : pchSmiType ≠ .pchEspiSmiEspiSlaveType)
    (h : registerTopLevelIfNull s alloc top srcDesc pchSmiType clearSource = (.success, s')) :
    TopLevelInv s' (fun top' ↦ top' = top ∨ live top') ∧ Extended s s' := by
  unfold PchSmi.registerTopLevelIfNull at h
  rcases hhandle : s.pchSmiEspiHandle top with - | link
  · rw [hhandle] at h
    rcases pchSmiRecordInsert_cases s.pch alloc srcDesc espiSmiCallback pchSmiType with
      ⟨status, hstatus, hins⟩ | hins
    · rw [hins] at h
      cases status <;> simp [EfiStatus.isError] at hstatus h
    · rw [hins] at h
      simp only [Prod.mk.injEq, true_and] at h
      subst h
      have hnot : ∀ r : DatabaseRecord, r.pchSmiType = pchSmiType → ¬ r.IsEspiSlave :=
        fun r hr hslave ↦ htype (hr ▸ hslave.2)
      have hlinked : ∀ link, (s.pch.insertTailList
          (pchSmiRecord srcDesc espiSmiCallback pchSmiType) fun _ ↦ rfl).IsLinked link ↔
            s.pch.IsLinked link ∨ link = s.pch.nextLink :=
        s.pch.isLinked_insertTailList _
      refine ⟨hs.insert (fun link ↦ ?_) (fun r hr ↦ ?_), rfl, rfl, ?_, ?_, ?_, fun link hlt ↦ ?_⟩
      · cases clearSource with
        | none => exact hlinked link
        | some f => exact (PchSmiDispatcher.isLinked_setClearSource _ _ _ f).trans (hlinked link)
      · rcases clearSource with - | f
        · rcases List.mem_append.1 hr with hold | hnew
          · exact Or.inl hold
          · rw [List.mem_singleton.1 hnew]
            exact Or.inr ⟨rfl, fun _ ↦ hnot _ rfl⟩
        · rcases s.pch.mem_insertTailList_setClearSource _ f hr with hold | hnew
          · exact Or.inl hold
          · rw [hnew]
            exact Or.inr ⟨rfl, fun _ ↦ hnot _ rfl⟩
      · cases clearSource <;> rfl
      · exact setAt_of_ne _ _ htop.symm
      · cases clearSource <;> exact Nat.le_succ _
      · have hold := (hlinked link).trans (or_iff_left (Nat.ne_of_lt hlt))
        cases clearSource with
        | none => exact hold
        | some f => exact (PchSmiDispatcher.isLinked_setClearSource _ _ _ f).trans hold
  · rw [hhandle] at h
    obtain rfl : s = s' := congrArg Prod.snd h
    refine ⟨⟨fun top' htop' ↦ ?_, hs.handle_linked, hs.handle_inj, hs.handle_not_slave⟩,
      rfl, rfl, rfl, rfl, Nat.le_refl _, fun _ _ ↦ Iff.rfl⟩
    by_cases heq : top' = top
    · simp [heq, hhandle]
    · simp [heq, hs.handle_iff top' htop']

/-- The slave record of the dispatcher and its handle survive a step. -/
structure SlaveKept (s s' : EspiState H) : Prop where
  /-- Slave records stay in the dispatcher's database. -/
  isLinked : ∀ r ∈ s.pch.callbackDataBase, r.IsEspiSlave → s'.pch.IsLinked r.link
  /-- The slave handle stays set. -/
  isSome : (s.pchSmiEspiHandle .espiPmc).isSome → (s'.pchSmiEspiHandle .espiPmc).isSome

/-- **The registration of a child** keeps the invariant and the slave record. -/
theorem EspiInv.espiChildRegister {s : EspiState H} (hs : EspiInv s)
    {alloc allocTop : Bool} {dispatchFunction : Option Nat} {t : EspiSmiType}
    {srcDesc : PchSmmSourceDesc} {pchSmiType : PchSmiTypes}
    {clearSource : Option PchSmmClearSource} (ht : t ≠ .espiSlaveSmi)
    (htop : t.topLevel ≠ .espiPmc) (htype : pchSmiType ≠ .pchEspiSmiEspiSlaveType)
    (h : (espiChildRegister P pchH s
      (registerTopLevelIfNull s allocTop t.topLevel srcDesc pchSmiType clearSource)
      alloc dispatchFunction t).1 = .success) :
    EspiInv (espiChildRegister P pchH s
      (registerTopLevelIfNull s allocTop t.topLevel srcDesc pchSmiType clearSource)
      alloc dispatchFunction t).2.1 ∧
    SlaveKept s (espiChildRegister P pchH s
      (registerTopLevelIfNull s allocTop t.topLevel srcDesc pchSmiType clearSource)
      alloc dispatchFunction t).2.1 := by
  unfold PchSmi.espiChildRegister at h ⊢
  rw [hs.not_ready] at h ⊢
  rcases hreg : registerTopLevelIfNull s allocTop t.topLevel srcDesc pchSmiType clearSource with
    ⟨status, s₁⟩
  rw [hreg] at h
  cases status <;> simp only [Bool.false_eq_true, if_false, reduceCtorEq] at h ⊢
  obtain ⟨htopLevel, hext⟩ := hs.topLevel.registerTopLevelIfNull htop htype hreg
  have hdb := hext.callbackDataBase_eq
  cases alloc <;> simp only [insertEspiRecord, Bool.not_false, Bool.not_true, if_true, if_false,
    reduceCtorEq, Bool.false_eq_true] at h ⊢
  refine ⟨⟨fun t' ↦ ?_, ?_, ?_, fun t' r hr ↦ ?_, hext.readyToLock_eq.trans hs.not_ready⟩,
    ⟨fun r hr _ ↦ (hext.isLinked_iff r.link (s.pch.link_lt r hr)).2 ⟨r, hr, rfl⟩,
      fun h ↦ hext.handle_espiPmc_eq.symm ▸ h⟩⟩
  · by_cases heq : t' = t
    · simp [heq, hext.counter_eq, hdb, hs.counter_eq]
    · simp only [setAt_of_ne _ _ heq, hext.counter_eq, hdb, hs.counter_eq]
  · simp only [setAt_of_ne _ _ ht.symm, hdb, hs.slave_nil]
  · -- the new child makes its source live and no other
    refine ⟨fun top htop' ↦ (htopLevel.handle_iff top htop').trans ?_, htopLevel.handle_linked,
      htopLevel.handle_inj, htopLevel.handle_not_slave⟩
    constructor
    · rintro (rfl | ⟨t', ht', hne⟩)
      · exact ⟨t, EspiTopLevelType.mem_children_iff.2 rfl, by simp⟩
      · refine ⟨t', ht', ?_⟩
        by_cases heq : t' = t
        · simp [heq]
        · simpa only [setAt_of_ne _ _ heq, hdb] using hne
    · rintro ⟨t', ht', hne⟩
      by_cases heq : t' = t
      · exact Or.inl ((EspiTopLevelType.mem_children_iff.1 ht').symm.trans (by rw [heq]))
      · exact Or.inr ⟨t', ht', by simpa only [setAt_of_ne _ _ heq, hdb] using hne⟩
  · -- the new child takes the next address, the older ones keep theirs
    have hold : ∀ r ∈ s.callbackDataBase t', r.link < s₁.pch.nextLink + 1 ∧
        ¬ s₁.pch.IsLinked r.link := by
      intro r hr
      obtain ⟨hlt, hnot⟩ := hs.child_fresh t' r hr
      have hle := hext.nextLink_le
      exact ⟨by omega, fun hl ↦ hnot ((hext.isLinked_iff r.link hlt).1 hl)⟩
    by_cases heq : t' = t
    · subst heq
      simp only [setAt_self, List.mem_append, List.mem_singleton, hdb] at hr
      rcases hr with hr | rfl
      · exact hold r hr
      · exact ⟨Nat.lt_succ_self _, s₁.pch.not_isLinked_nextLink⟩
    · simp only [setAt_of_ne _ _ heq, hdb] at hr
      exact hold r hr

/-- **The registration of the slave SMI** keeps the invariant and the slave records. -/
theorem EspiInv.espiSlaveSmiRegister {s : EspiState H} (hs : EspiInv s) {alloc : Bool}
    {dispatchFunction : Option Nat}
    (h : (espiSlaveSmiRegister P s alloc dispatchFunction).1 = .success) :
    EspiInv (espiSlaveSmiRegister P s alloc dispatchFunction).2.1 ∧
      SlaveKept s (espiSlaveSmiRegister P s alloc dispatchFunction).2.1 := by
  unfold PchSmi.espiSlaveSmiRegister at h ⊢
  rw [hs.not_ready] at h ⊢
  simp only [Bool.false_eq_true, if_false] at h ⊢
  split at h
  · simp at h
  · rename_i hlock
    rw [if_neg hlock]
    rcases pchSmiRecordInsert_cases s.pch alloc mSrcDescEspiSlave dispatchFunction
        .pchEspiSmiEspiSlaveType with ⟨status, hstatus, hins⟩ | hins
    · rw [hins] at h
      cases status <;> simp [EfiStatus.isError] at hstatus h
    · rw [hins]
      have hlinked : ∀ link, (s.pch.insertTailList (pchSmiRecord mSrcDescEspiSlave dispatchFunction
          .pchEspiSmiEspiSlaveType) fun _ ↦ rfl).IsLinked link ↔
            s.pch.IsLinked link ∨ link = s.pch.nextLink :=
        s.pch.isLinked_insertTailList _
      have htopLevel := @TopLevelInv.insert _ _ _ hs.topLevel .espiPmc _ hlinked fun r hr ↦ by
        rcases List.mem_append.1 hr with hold | hnew
        · exact Or.inl hold
        · rw [List.mem_singleton.1 hnew]
          exact Or.inr ⟨rfl, fun hne ↦ absurd rfl hne⟩
      refine ⟨⟨hs.counter_eq, hs.slave_nil, ⟨fun top htop ↦ ?_, htopLevel.handle_linked,
        htopLevel.handle_inj, htopLevel.handle_not_slave⟩, fun t r hr ↦ ?_, hs.not_ready⟩,
        ⟨fun r hr _ ↦ (hlinked r.link).2 (Or.inl ⟨r, hr, rfl⟩), fun _ ↦ ?_⟩⟩
      · refine (htopLevel.handle_iff top htop).trans ⟨?_, Or.inr⟩
        rintro (heq | hlive)
        · exact absurd heq htop
        · exact hlive
      · obtain ⟨hlt, hnot⟩ := hs.child_fresh t r hr
        refine ⟨Nat.lt_succ_of_lt hlt, fun hl ↦ ?_⟩
        rcases (hlinked r.link).1 hl with hl | hl
        · exact hnot hl
        · exact absurd hl (Nat.ne_of_lt hlt)
      · simp

/-! ### Unregistration keeps the invariant -/

/-- A found record is in the list of the event it was found under. -/
theorem exists_mem_of_findEspiRecord {s : EspiState H} {link : Nat} {t : EspiSmiType}
    (h : findEspiRecord s link = some t) : ∃ r ∈ s.callbackDataBase t, r.link = link := by
  have := List.find?_some h
  simpa using this

/-- What taking a child out of its list does, as far as the bookkeeping goes. -/
structure ChildRemoved (s s₁ : EspiState H) : Prop where
  /-- Counters still count the children. -/
  counter_eq : ∀ t, s₁.espiSmiEventCounter t = (s₁.callbackDataBase t).length
  /-- The slave SMI still leaves no trace. -/
  slave_nil : s₁.callbackDataBase .espiSlaveSmi = []
  /-- Handles are not touched. -/
  handle_eq : s₁.pchSmiEspiHandle = s.pchSmiEspiHandle
  /-- The dispatcher's database is not touched. -/
  database_eq : s₁.pch.callbackDataBase = s.pch.callbackDataBase
  /-- The ready-to-lock flag is not touched. -/
  readyToLock_eq : s₁.pch.readyToLock = s.pch.readyToLock
  /-- The pool is not touched. -/
  nextLink_eq : s₁.pch.nextLink = s.pch.nextLink
  /-- No event gains a child. -/
  mem_of_mem : ∀ t, ∀ r ∈ s₁.callbackDataBase t, r ∈ s.callbackDataBase t

theorem ChildRemoved.hasChild {s s₁ : EspiState H} (h : ChildRemoved s s₁)
    {top : EspiTopLevelType} : s₁.HasChild top → s.HasChild top := by
  rintro ⟨t, ht, hne⟩
  obtain ⟨r, hr⟩ := List.exists_mem_of_ne_nil _ hne
  exact ⟨t, ht, List.ne_nil_of_mem (h.mem_of_mem t r hr)⟩

theorem EspiInv.removeEspiRecord {s : EspiState H} (hs : EspiInv s) {link : Nat}
    {t : EspiSmiType} (hfind : findEspiRecord s link = some t) :
    ChildRemoved s (removeEspiRecord P pchH s link t) := by
  obtain ⟨r, hr, hlink⟩ := exists_mem_of_findEspiRecord hfind
  have hpos : 0 < (s.callbackDataBase t).length := List.length_pos_of_mem hr
  have hcount : s.espiSmiEventCounter t ≠ 0 := by
    rw [hs.counter_eq]
    omega
  -- under consistent counters the removal only differs in the registers it writes
  have hrem : ∃ hw, PchSmi.removeEspiRecord P pchH s link t =
      { s with
        pch := s.pch.setHw hw
        callbackDataBase :=
          setAt s.callbackDataBase t ((s.callbackDataBase t).eraseP fun r ↦ r.link == link)
        espiSmiEventCounter := setAt s.espiSmiEventCounter t (s.espiSmiEventCounter t - 1) } := by
    unfold PchSmi.removeEspiRecord
    rw [if_neg hcount]
    split
    · exact ⟨_, rfl⟩
    · exact ⟨s.pch.hw, rfl⟩
  obtain ⟨hw, hrem⟩ := hrem
  rw [hrem]
  refine ⟨fun t' ↦ ?_, ?_, rfl, rfl, rfl, rfl, fun t' r' hr' ↦ ?_⟩
  · by_cases heq : t' = t
    · simp only [heq, setAt_self, hs.counter_eq]
      rw [List.length_eraseP_of_mem hr (by simp [hlink])]
    · simp only [setAt_of_ne _ _ heq, hs.counter_eq]
  · by_cases heq : EspiSmiType.espiSlaveSmi = t
    · simp only [← heq, setAt_self, hs.slave_nil, List.eraseP_nil]
    · simp only [setAt_of_ne _ _ heq, hs.slave_nil]
  · by_cases heq : t' = t
    · simp only [heq, setAt_self] at hr'
      exact heq ▸ List.mem_of_mem_eraseP hr'
    · simpa only [setAt_of_ne _ _ heq] using hr'

/-- **Removal and teardown keep the invariant.** A source that still has a child keeps its record,
because no other source shares the handle. -/
theorem EspiInv.tornDown {s s₁ s' : EspiState H} (hs : EspiInv s) (h₁ : ChildRemoved s s₁)
    (h : TornDown EspiTopLevelType.all s₁ s') : EspiInv s' := by
  have hhandle : ∀ top, s'.pchSmiEspiHandle top =
      if safeToDisable s₁ top = true then none else s.pchSmiEspiHandle top := by
    intro top
    rw [h.handle_eq, h₁.handle_eq]
    simp
  -- a handle that is still set belongs to a source that is not safe, and is the old one
  have hkept : ∀ top link, s'.pchSmiEspiHandle top = some link →
      safeToDisable s₁ top ≠ true ∧ s.pchSmiEspiHandle top = some link := by
    intro top link hset
    rw [hhandle] at hset
    by_cases hsafe : safeToDisable s₁ top = true
    · simp [hsafe] at hset
    · exact ⟨hsafe, by rwa [if_neg hsafe] at hset⟩
  refine ⟨fun t ↦ ?_, ?_, ⟨fun top htop ↦ ?_, fun top link hset ↦ ?_,
    fun top top' link hset hset' ↦ ?_, fun top htop r hr hset ↦ ?_⟩, fun t r hr ↦ ?_, ?_⟩
  · rw [h.counter_eq, h.callbackDataBase_eq, h₁.counter_eq]
  · rw [h.callbackDataBase_eq, h₁.slave_nil]
  · have hlive : s'.HasChild top ↔ s₁.HasChild top := by
      simp only [EspiState.HasChild, h.callbackDataBase_eq]
    rw [hhandle, hlive]
    by_cases hchild : s₁.HasChild top
    · have hsafe : ¬ safeToDisable s₁ top = true := by
        rw [safeToDisable_iff h₁.counter_eq]
        exact fun hno ↦ hno hchild
      rw [if_neg hsafe]
      exact iff_of_true ((hs.topLevel.handle_iff top htop).2 (h₁.hasChild hchild)) hchild
    · rw [if_pos ((safeToDisable_iff h₁.counter_eq top).2 hchild)]
      exact iff_of_false (by simp) hchild
  · obtain ⟨hsafe, hold⟩ := hkept top link hset
    obtain ⟨r, hr, hlink⟩ := hs.topLevel.handle_linked top link hold
    refine h.isLinked link ⟨r, h₁.database_eq ▸ hr, hlink⟩ fun top' _ hsafe' hset' ↦ ?_
    rw [h₁.handle_eq] at hset'
    exact hsafe (hs.topLevel.handle_inj top top' link hold hset' ▸ hsafe')
  · exact hs.topLevel.handle_inj top top' link (hkept top link hset).2 (hkept top' link hset').2
  · exact hs.topLevel.handle_not_slave top htop r (h₁.database_eq ▸ h.mem_of_mem r hr)
      (hkept top r.link hset).2
  · rw [h.callbackDataBase_eq] at hr
    obtain ⟨hlt, hnot⟩ := hs.child_fresh t r (h₁.mem_of_mem t r hr)
    rw [h.nextLink_eq, h₁.nextLink_eq]
    refine ⟨hlt, ?_⟩
    rintro ⟨r', hr', hlink⟩
    exact hnot ⟨r', h₁.database_eq ▸ h.mem_of_mem r' hr', hlink⟩
  · rw [h.readyToLock_eq, h₁.readyToLock_eq, hs.not_ready]

/-- **The source of the slave SMI always looks safe to disable**, so its handle is cleared. -/
theorem TornDown.handle_espiPmc {s s₁ s' : EspiState H} (h₁ : ChildRemoved s s₁)
    (h : TornDown EspiTopLevelType.all s₁ s') : s'.pchSmiEspiHandle .espiPmc = none := by
  have hsafe : safeToDisable s₁ .espiPmc = true := by
    rw [safeToDisable_iff h₁.counter_eq]
    rintro ⟨t, ht, hne⟩
    have hslave : t = .espiSlaveSmi := by
      revert ht
      cases t <;> decide
    exact hne (hslave ▸ h₁.slave_nil)
  rw [h.handle_eq, if_pos ⟨EspiTopLevelType.mem_all _, hsafe⟩]

/-- While no slave handle is stored, removal and teardown leave slave records alone. -/
theorem EspiInv.slaveKept_of_tornDown {s s₁ s' : EspiState H} (hs : EspiInv s)
    (h₁ : ChildRemoved s s₁) (h : TornDown EspiTopLevelType.all s₁ s')
    (hpmc : s.pchSmiEspiHandle .espiPmc = none) : SlaveKept s s' := by
  refine ⟨fun r hr hslave ↦ ?_, fun hsome ↦ absurd hsome (by simp [hpmc])⟩
  refine h.isLinked r.link ⟨r, h₁.database_eq ▸ hr, rfl⟩ fun top _ _ hset ↦ ?_
  rw [h₁.handle_eq] at hset
  by_cases htop : top = .espiPmc
  · rw [htop, hpmc] at hset
    exact absurd hset (by simp)
  · exact hs.topLevel.handle_not_slave top htop r hr hset hslave

/-! ### The law, and when it holds -/

/-- What the bookkeeping promises of a state. -/
structure EspiBookkeeping (s : EspiState H) : Prop where
  /-- The counter of every event below the slave SMI is the length of its list. -/
  counter_eq : ∀ t, t ≠ .espiSlaveSmi → s.espiSmiEventCounter t = (s.callbackDataBase t).length
  /-- The shared top-level handles are set exactly while a child of theirs is registered. -/
  handle_iff : ∀ top, top ≠ .espiPmc → ((s.pchSmiEspiHandle top).isSome ↔ s.HasChild top)
  /-- A shared top-level handle that is set is linked. -/
  handle_linked : ∀ top, top ≠ .espiPmc → ∀ link, s.pchSmiEspiHandle top = some link →
    s.pch.IsLinked link

/-- What every call promises: the bookkeeping holds afterwards, no slave record is removed, and the
slave handle does not become null. -/
def EspiLaw (s : EspiState H) (call : EspiCall) : Prop :=
  EspiBookkeeping (espiNext P pchH s call) ∧ SlaveKept s (espiNext P pchH s call)

/-- A registration of the sequence succeeds. -/
def RegistersSucceed (s : EspiState H) : EspiCall → Prop
  | .register t allocTop alloc dispatchFunction =>
    (espiRegister P pchH s allocTop alloc dispatchFunction t).1 = .success
  | .unRegister _ => True

/-- While the slave SMI is registered, the call does not name a registered child. -/
def SparesSlave (s : EspiState H) : EspiCall → Prop
  | .register .. => True
  | .unRegister dispatchHandle => (s.pchSmiEspiHandle .espiPmc).isSome →
    ∀ t ∈ EspiSmiType.all, ∀ r ∈ s.callbackDataBase t, dispatchHandle ≠ some r.link

instance (s : EspiState H) (call : EspiCall) : Decidable (RegistersSucceed P pchH s call) :=
  match call with
  | .register t allocTop alloc dispatchFunction => inferInstanceAs
      (Decidable ((espiRegister P pchH s allocTop alloc dispatchFunction t).1 = .success))
  | .unRegister _ => isTrue trivial

instance (s : EspiState H) (call : EspiCall) : Decidable (SparesSlave s call) :=
  match call with
  | .register .. => isTrue trivial
  | .unRegister dispatchHandle => inferInstanceAs
      (Decidable ((s.pchSmiEspiHandle .espiPmc).isSome → ∀ t ∈ EspiSmiType.all,
        ∀ r ∈ s.callbackDataBase t, dispatchHandle ≠ some r.link))

theorem EspiInv.bookkeeping {s : EspiState H} (hs : EspiInv s) : EspiBookkeeping s where
  counter_eq t _ := hs.counter_eq t
  handle_iff := hs.topLevel.handle_iff
  handle_linked top _ := hs.topLevel.handle_linked top

/-- Every registration but that of the slave SMI has the common course, under the top-level source
of its event. -/
theorem espiRegister_eq_espiChildRegister (s : EspiState H) {t : EspiSmiType}
    (ht : t ≠ .espiSlaveSmi) (allocTop alloc : Bool) (dispatchFunction : Option Nat) :
    ∃ srcDesc pchSmiType clearSource, pchSmiType ≠ .pchEspiSmiEspiSlaveType ∧
      espiRegister P pchH s allocTop alloc dispatchFunction t = espiChildRegister P pchH s
        (registerTopLevelIfNull s allocTop t.topLevel srcDesc pchSmiType clearSource)
        alloc dispatchFunction t := by
  cases t with
  | espiSlaveSmi => exact absurd rfl ht
  | biosWrProtect => exact ⟨_, .pchTcoSmiLpcBiosWpType, _, by decide, rfl⟩
  | _ => exact ⟨_, .pchSmiSerialIrqType, _, by decide, rfl⟩

/-- **A successful registration** keeps the invariant and the slave records. -/
theorem EspiInv.register {s : EspiState H} (hs : EspiInv s) {t : EspiSmiType}
    {allocTop alloc : Bool} {dispatchFunction : Option Nat}
    (h : (espiRegister P pchH s allocTop alloc dispatchFunction t).1 = .success) :
    EspiInv (espiRegister P pchH s allocTop alloc dispatchFunction t).2.1 ∧
      SlaveKept s (espiRegister P pchH s allocTop alloc dispatchFunction t).2.1 := by
  by_cases ht : t = .espiSlaveSmi
  · subst ht
    exact hs.espiSlaveSmiRegister P h
  · obtain ⟨srcDesc, pchSmiType, clearSource, htype, heq⟩ :=
      espiRegister_eq_espiChildRegister P pchH s ht allocTop alloc dispatchFunction
    rw [heq] at h ⊢
    have htop : t.topLevel ≠ .espiPmc := by
      revert ht
      cases t <;> decide
    exact hs.espiChildRegister P pchH ht htop htype h

/-- A handle of a registered child is found. -/
theorem exists_findEspiRecord_of_mem {s : EspiState H} {t : EspiSmiType} {r : EspiSmiRecord}
    (hr : r ∈ s.callbackDataBase t) : ∃ t', findEspiRecord s r.link = some t' := by
  rcases hfind : findEspiRecord s r.link with - | t'
  · have := List.find?_eq_none.1 hfind t (EspiSmiType.mem_all t)
    simp only [List.any_eq_true, beq_iff_eq, not_exists, not_and] at this
    exact absurd rfl (this r hr)
  · exact ⟨t', rfl⟩

/-- **An unregistration, by cases.** It is refused and changes nothing, or it names a registered
child and is a removal followed by the teardown loop. -/
theorem espiSmiUnRegister_cases (s : EspiState H) (dispatchHandle : Option Nat) :
    (espiSmiUnRegister P pchH s dispatchHandle).2 = s ∨
    ∃ link t, dispatchHandle = some link ∧ findEspiRecord s link = some t ∧
      espiSmiUnRegister P pchH s dispatchHandle =
        (.success, EspiTopLevelType.all.foldl (unregisterTopLevel P)
          (removeEspiRecord P pchH s link t)) := by
  rcases dispatchHandle with - | link
  · exact Or.inl rfl
  · by_cases hready : s.pch.readyToLock = true
    · exact Or.inl (by simp [espiSmiUnRegister, hready])
    · by_cases hpmc : s.pchSmiEspiHandle .espiPmc = some link
      · exact Or.inl (by simp [espiSmiUnRegister, hready, hpmc])
      · rcases hfind : findEspiRecord s link with - | t
        · exact Or.inl (by simp [espiSmiUnRegister, hready, hpmc, hfind])
        · exact Or.inr ⟨link, t, rfl, hfind, by simp [espiSmiUnRegister, hready, hpmc, hfind]⟩

/-- **Every call keeps the invariant**, as long as its registrations succeed. -/
theorem EspiInv.espiNext {s : EspiState H} (hs : EspiInv s) {call : EspiCall}
    (hsucceed : RegistersSucceed P pchH s call) : EspiInv (espiNext P pchH s call) := by
  cases call with
  | register t allocTop alloc dispatchFunction => exact (hs.register P pchH hsucceed).1
  | unRegister dispatchHandle =>
    simp only [PchSmi.espiNext]
    rcases espiSmiUnRegister_cases P pchH s dispatchHandle with hrefused | ⟨link, t, -, hfind, hrun⟩
    · rw [hrefused]
      exact hs
    · rw [hrun]
      exact hs.tornDown (hs.removeEspiRecord P pchH hfind) (tornDown_foldl P _ _)

/-- **One call.** The law holds exactly when the call spares the slave SMI. -/
theorem espiLaw_iff_sparesSlave {s : EspiState H} (hs : EspiInv s) {call : EspiCall}
    (hsucceed : RegistersSucceed P pchH s call) :
    EspiLaw P pchH s call ↔ SparesSlave s call := by
  have hbook := (hs.espiNext P pchH hsucceed).bookkeeping
  cases call with
  | register t allocTop alloc dispatchFunction =>
    exact iff_of_true ⟨hbook, (hs.register P pchH hsucceed).2⟩ trivial
  | unRegister dispatchHandle =>
    constructor
    · rintro ⟨-, hkept⟩ hslave t - r hr rfl
      -- the handle is found, so the call succeeds and clears the slave handle
      obtain ⟨t', hfind⟩ := exists_findEspiRecord_of_mem hr
      have hpmc : s.pchSmiEspiHandle .espiPmc ≠ some r.link := fun heq ↦
        (hs.child_fresh t r hr).2 (hs.topLevel.handle_linked _ _ heq)
      have hnone := TornDown.handle_espiPmc (hs.removeEspiRecord P pchH hfind)
        (tornDown_foldl P EspiTopLevelType.all _)
      have hsome := hkept.isSome hslave
      simp only [PchSmi.espiNext, espiSmiUnRegister, hs.not_ready, hpmc, hfind] at hsome
      simp [hnone] at hsome
    · intro hspares
      refine ⟨hbook, ?_⟩
      simp only [PchSmi.espiNext]
      rcases espiSmiUnRegister_cases P pchH s dispatchHandle with
        hrefused | ⟨link, t, rfl, hfind, hrun⟩
      · rw [hrefused]
        exact ⟨fun r hr _ ↦ ⟨r, hr, rfl⟩, fun h ↦ h⟩
      · rw [hrun]
        obtain ⟨r, hr, hlink⟩ := exists_mem_of_findEspiRecord hfind
        refine hs.slaveKept_of_tornDown (hs.removeEspiRecord P pchH hfind)
          (tornDown_foldl P _ _) (Option.not_isSome_iff_eq_none.1 fun hslave ↦ ?_)
        exact hspares hslave t (EspiSmiType.mem_all t) r hr (by rw [hlink])

/-- **When the eSPI bookkeeping holds over a whole sequence** of successful registrations and any
unregistrations: exactly when no registered child is unregistered while the slave SMI is
registered. -/
theorem along_espiLaw_iff {pch : PchSmiDispatcher H} (hready : pch.readyToLock = false)
    {calls : List EspiCall}
    (hsucceed : Along (espiNext P pchH) (RegistersSucceed P pchH) (initialEspiState pch) calls) :
    Along (espiNext P pchH) (EspiLaw P pchH) (initialEspiState pch) calls ↔
      Along (espiNext P pchH) SparesSlave (initialEspiState pch) calls :=
  along_iff_of_invariant (fun _ _ hs hsucceed _ ↦ hs.espiNext P pchH hsucceed)
    (fun _ _ hs hsucceed ↦ espiLaw_iff_sparesSlave P pchH hs hsucceed)
    (espiInv_initialEspiState hready) hsucceed

/-- A sequence within the condition: the children that go are gone before the slave SMI comes. -/
theorem along_espiLaw_slaveLast :
    Along (espiNext PchHardware.registerFile true) (EspiLaw PchHardware.registerFile true)
      (initialEspiState (initialDispatcher fun _ ↦ 0))
      [.register .lnkType1Err true true (some 1), .register .biosWrProtect true true (some 2),
        .unRegister (some 1), .register .espiSlaveSmi true true (some 3)] :=
  (along_espiLaw_iff _ true rfl (by decide)).2 (by decide)

/-- The default link error handler, the slave SMI, and the link error handler unregistered. -/
def slaveThenUnRegister : List EspiCall :=
  [.register .lnkType1Err true true (some 1), .register .espiSlaveSmi true true (some 2),
    .unRegister (some 1)]

/-- **Unregistering a child tears the slave SMI down.** On plain registers every registration of the
sequence succeeds, and after the unregistration of the link error handler the slave record is gone
and its handle is null. -/
theorem not_along_espiLaw_slaveThenUnRegister :
    let P := PchHardware.registerFile
    let s := initialEspiState (initialDispatcher fun _ ↦ 0)
    let s' := slaveThenUnRegister.foldl (espiNext P true) s
    Along (espiNext P true) (RegistersSucceed P true) s slaveThenUnRegister ∧
      s'.pch.callbackDataBase = [] ∧ s'.pchSmiEspiHandle .espiPmc = none ∧
      ¬ Along (espiNext P true) (EspiLaw P true) s slaveThenUnRegister := by
  intro P s s'
  have hsucceed : Along (espiNext P true) (RegistersSucceed P true) s slaveThenUnRegister := by
    decide
  refine ⟨hsucceed, by decide, by decide, fun hlaw ↦ ?_⟩
  -- the law at the last call keeps the slave handle, which is null afterwards
  have hkept := hlaw.2.2.1.2.isSome (by decide)
  revert hkept
  decide

end PurleyFirmware.PchSmi
