import PurleyFirmware.PchSmi.EnableBits

/-!
# Enable bits mirror the database

An enable bit that some source names should be set exactly while a record of the database lists it.
Records share bits, the timers are programmed before and after an insertion, and an unregistration
decides bit by bit. `enablesMirror_foldl` proves the equivalence for every sequence of calls, and says
what one more unregistration does to each bit.

Programming the timers switches a timer off when no child is counted for it. What it needs to know
about the records is `CoreRecordOk`: a record lists the enable of a timer exactly when it is counted
as a child of that timer. What it does to a bit is said by two implications, because between the
insertion of a record and the enabling of its source the mirror does not hold: no bit becomes set that
is not listed, and no bit that is set and listed is cleared.
-/

namespace PurleyFirmware.PchSmi

open PchSmmBitDesc

/-! ### Listed bits -/

/-- Some record of the database lists the bit. -/
def Listed (db : List DatabaseRecord) (d : PchSmmBitDesc) : Prop :=
  ∃ r ∈ db, isBitEqualToAnySourceEn d r.srcDesc = true

theorem listed_append {db : List DatabaseRecord} {r : DatabaseRecord} {d : PchSmmBitDesc} :
    Listed (db ++ [r]) d ↔ Listed db d ∨ isBitEqualToAnySourceEn d r.srcDesc = true := by
  simp [Listed, or_and_right, exists_or]

/-- Only the compared fields of a bit matter. -/
theorem isBitEqualToAnySourceEn_congr {d e : PchSmmBitDesc} (h : sameBit d e = true)
    (src : PchSmmSourceDesc) :
    isBitEqualToAnySourceEn d src = isBitEqualToAnySourceEn e src := by
  obtain ⟨hbit, hreg⟩ := sameBit_iff.1 h
  rw [isBitEqualToAnySourceEn, isBitEqualToAnySourceEn]
  congr 1
  funext e'
  rw [sameBit, sameBit, hbit, hreg]

theorem listed_congr {d e : PchSmmBitDesc} (h : sameBit d e = true) (db : List DatabaseRecord) :
    Listed db d ↔ Listed db e := by
  simp only [Listed, isBitEqualToAnySourceEn_congr h]

/-! ### Children of the timers -/

/-- The enable of a timer. -/
def timerEnable : SupportedTimer → PchSmmBitDesc
  | .periodicTimer => smiEn 14
  | .swsmiTimer => smiEn 6

/-- The interval that a timer child was registered for. -/
def DatabaseRecord.timerInterval? (r : DatabaseRecord) : Option TimerInterval :=
  if r.protocolType = .periodicTimerType then contextToTimerInterval r.childContext else none

/-- The timer that a record is counted for. -/
def DatabaseRecord.timer? (r : DatabaseRecord) : Option SupportedTimer :=
  r.timerInterval?.map TimerInterval.associatedTimer

/-- What is known about the records of the standard protocols. -/
structure CoreRecordOk (r : DatabaseRecord) : Prop where
  /-- The source is one of the tables, or zero. -/
  source : CoreSource r.srcDesc
  /-- It lists the enable of a timer if and only if it is counted for it. -/
  timer_iff : ∀ timer, isBitEqualToAnySourceEn (timerEnable timer) r.srcDesc = true ↔
    r.timer? = some timer
  /-- A record that is counted for a timer has the timer's source. -/
  srcDesc_eq : ∀ timer, r.timer? = some timer → r.srcDesc = mTimerSourceDescs timer

/-- The enable of a timer is the one its source names. -/
theorem isBitEqualToAnySourceEn_mTimerSourceDescs {d : PchSmmBitDesc} (hd : SourceEnable d)
    (timer : SupportedTimer) :
    isBitEqualToAnySourceEn d (mTimerSourceDescs timer) = sameBit d (timerEnable timer) := by
  have hen : (mTimerSourceDescs timer).en.toList = [timerEnable timer, nullBitDesc] := by
    rcases timer with - | - <;> rfl
  rw [isBitEqualToAnySourceEn, hen, List.any_cons, List.any_cons, List.any_nil,
    hd.sameBit_eq_false.1, Bool.or_false, Bool.or_false]

/-- **Counting children.** A walk that is not cut short counts a child for each timer that some
record is counted for. -/
theorem numChildren_requiredTimers {db : List DatabaseRecord}
    {timers : SupportedTimer → TimerInfo} (h : (requiredTimers timers db).2 = true)
    (timer : SupportedTimer) :
    0 < ((requiredTimers timers db).1 timer).numChildren ↔
      0 < (timers timer).numChildren ∨ ∃ r ∈ db, r.timer? = some timer := by
  induction db generalizing timers with
  | nil => simp [requiredTimers]
  | cons r rs ih =>
    rw [requiredTimers] at h ⊢
    by_cases htype : r.protocolType = .periodicTimerType
    · rw [if_pos htype] at h ⊢
      rcases hinterval : contextToTimerInterval r.childContext with - | t
      · rw [hinterval] at h
        cases h
      · rw [hinterval] at h
        dsimp only at h ⊢
        have htimer : r.timer? = some t.associatedTimer := by
          rw [DatabaseRecord.timer?, DatabaseRecord.timerInterval?, if_pos htype, hinterval]
          rfl
        rw [ih h, List.exists_mem_cons_iff, htimer, addChild]
        by_cases hsame : timer = t.associatedTimer
        · subst hsame
          rw [Function.update_self]
          simp
        · rw [Function.update_of_ne hsame, Option.some_inj]
          simp [Ne.symm hsame]
    · have htimer : r.timer? = none := by
        rw [DatabaseRecord.timer?, DatabaseRecord.timerInterval?, if_neg htype]
        rfl
      rw [if_neg htype] at h ⊢
      rw [ih h, List.exists_mem_cons_iff, htimer]
      simp

theorem listed_timerEnable {db : List DatabaseRecord} (hdb : ∀ r ∈ db, CoreRecordOk r)
    (timer : SupportedTimer) :
    Listed db (timerEnable timer) ↔ ∃ r ∈ db, r.timer? = some timer := by
  constructor
  · rintro ⟨r, hr, h⟩
    exact ⟨r, hr, ((hdb r hr).timer_iff timer).1 h⟩
  · rintro ⟨r, hr, h⟩
    exact ⟨r, hr, ((hdb r hr).timer_iff timer).2 h⟩

/-! ### Programming the timers -/

section Program

variable {H : Type} {P : PchHardware H} {s : CoreState H} {d : PchSmmBitDesc}

theorem timer_coreSource (timer : SupportedTimer) : CoreSource (mTimerSourceDescs timer) :=
  Or.inr (.timer timer)

/-- Writing a rate changes no enable. -/
theorem isSet_programRate (hP : PlainEnables P) (hd : SourceEnable d) (timer : SupportedTimer)
    {addr : PchSmmAddress} (haddr : (addr, 1) ∈ otherRegisters) (mask : BitVec 64)
    (rates : List TimerRate) :
    IsSet P (programRate P s timer addr mask rates).pch.hw d ↔ IsSet P s.pch.hw d := by
  rw [programRate]
  split
  · exact isSet_write_other hP hd haddr _ _
  · exact isSet_write_other hP hd haddr _ _

/-- The periodic timer is switched off if it has no children. -/
theorem isSet_programPeriodicTimer (hP : PlainEnables P) (hd : SourceEnable d) :
    IsSet P (programPeriodicTimer P s).pch.hw d ↔
      IsSet P s.pch.hw d ∧ (sameBit d (timerEnable .periodicTimer) = true →
        0 < (s.mTimers .periodicTimer).numChildren) := by
  have hsrc := timer_coreSource .periodicTimer
  rw [programPeriodicTimer]
  dsimp only
  split
  · rename_i hpos
    refine (isSet_clearSource hP hd hsrc _).trans ?_
    rw [isSet_programRate hP hd .periodicTimer (by decide)]
    exact ⟨fun h ↦ ⟨h, fun _ ↦ hpos⟩, fun h ↦ h.1⟩
  · rename_i hnone
    refine (isSet_disableSource hP hd hsrc _).trans ?_
    rw [isBitEqualToAnySourceEn_mTimerSourceDescs hd, and_comm, Bool.eq_false_iff]
    exact and_congr_right fun _ ↦ imp_congr_right fun _ ↦ ⟨fun h ↦ h.elim, fun h ↦ hnone h⟩

/-- The software SMI timer is switched on or off as it has children. -/
theorem isSet_programSwsmiTimer (hP : PlainEnables P) (hd : SourceEnable d) :
    IsSet P (programSwsmiTimer P s).pch.hw d ↔
      if sameBit d (timerEnable .swsmiTimer) = true then 0 < (s.mTimers .swsmiTimer).numChildren
      else IsSet P s.pch.hw d := by
  have hsrc := timer_coreSource .swsmiTimer
  have hen := isBitEqualToAnySourceEn_mTimerSourceDescs hd .swsmiTimer
  rw [programSwsmiTimer]
  dsimp only
  split
  · rename_i hpos
    refine (isSet_enableSource hP hd hsrc _).trans ?_
    rw [isSet_clearSource hP hd hsrc, isSet_disableSource hP hd hsrc, hen,
      isSet_programRate hP hd .swsmiTimer (by decide)]
    rcases sameBit d (timerEnable .swsmiTimer) with - | -
    · simp
    · simp [hpos]
  · rename_i hnone
    refine (isSet_disableSource hP hd hsrc _).trans ?_
    rw [hen]
    rcases sameBit d (timerEnable .swsmiTimer) with - | -
    · simp
    · simp [hnone]

theorem mTimers_programRate {timer timer' : SupportedTimer} (h : timer' ≠ timer)
    (addr : PchSmmAddress) (mask : BitVec 64) (rates : List TimerRate) :
    (programRate P s timer addr mask rates).mTimers timer' = s.mTimers timer' := by
  rw [programRate]
  split
  · exact Function.update_of_ne h _ _
  · rfl

theorem swsmiTimer_programPeriodicTimer :
    (programPeriodicTimer P s).mTimers .swsmiTimer = s.mTimers .swsmiTimer := by
  rw [programPeriodicTimer]
  dsimp only
  split
  · exact mTimers_programRate (by decide) _ _ _
  · rfl

/-- **Programming the timers** sets no bit that is not listed, and clears no bit that is set and
listed. -/
theorem isSet_programTimers (hP : PlainEnables P) (hd : SourceEnable d)
    (hdb : ∀ r ∈ s.pch.callbackDataBase, CoreRecordOk r) :
    ((IsSet P s.pch.hw d → Listed s.pch.callbackDataBase d) →
        IsSet P (pchSmmPeriodicTimerProgramTimers P s).pch.hw d →
          Listed s.pch.callbackDataBase d) ∧
      (IsSet P s.pch.hw d → Listed s.pch.callbackDataBase d →
        IsSet P (pchSmmPeriodicTimerProgramTimers P s).pch.hw d) := by
  rw [pchSmmPeriodicTimerProgramTimers]
  split
  · rename_i hcomplete
    -- a timer has children if and only if its enable is listed
    have hlisted : ∀ timer, sameBit d (timerEnable timer) = true →
        (0 < ((requiredTimers (resetTimers s.mTimers) s.pch.callbackDataBase).1
            timer).numChildren ↔ Listed s.pch.callbackDataBase d) := by
      intro timer hsame
      rw [numChildren_requiredTimers hcomplete, listed_congr hsame, listed_timerEnable hdb]
      exact or_iff_right (Nat.lt_irrefl 0)
    rw [isSet_programSwsmiTimer hP hd, isSet_programPeriodicTimer hP hd,
      swsmiTimer_programPeriodicTimer]
    dsimp only
    split
    · rename_i hsame
      rw [hlisted _ hsame]
      exact ⟨fun _ h ↦ h, fun _ h ↦ h⟩
    · refine ⟨fun h hset ↦ h hset.1, fun hset h ↦ ⟨hset, fun hsame ↦ ?_⟩⟩
      exact (hlisted _ hsame).2 h
  · exact ⟨fun h ↦ h, fun h _ ↦ h⟩

theorem programRate_pch (timer : SupportedTimer) (addr : PchSmmAddress) (mask : BitVec 64)
    (rates : List TimerRate) : ∃ hw, (programRate P s timer addr mask rates).pch = s.pch.setHw hw := by
  rw [programRate]
  split
  · exact ⟨_, rfl⟩
  · exact ⟨_, rfl⟩

/-- **The frame.** Programming the timers leaves the database alone. -/
theorem programTimers_pch :
    ∃ hw, (pchSmmPeriodicTimerProgramTimers P s).pch = s.pch.setHw hw := by
  have hperiodic : ∀ s : CoreState H, ∃ hw, (programPeriodicTimer P s).pch = s.pch.setHw hw := by
    intro s
    rw [programPeriodicTimer]
    dsimp only
    split
    · obtain ⟨hw, h⟩ := programRate_pch (P := P) (s := s) .periodicTimer (.ofPcie 0 31 2 0xA0) 0x3
        [⟨640000000, 0, 0⟩, ⟨320000000, 1, 1⟩, ⟨160000000, 2, 2⟩, ⟨80000000, 3, 3⟩]
      exact ⟨_, (congrArg (fun d : PchSmiDispatcher H ↦ d.setHw _) h).trans rfl⟩
    · exact ⟨_, rfl⟩
  have hswsmi : ∀ s : CoreState H, ∃ hw, (programSwsmiTimer P s).pch = s.pch.setHw hw := by
    intro s
    rw [programSwsmiTimer]
    dsimp only
    split
    · obtain ⟨hw, h⟩ := programRate_pch (P := P) (s := s) .swsmiTimer (.ofPcie 0 31 2 0xA4) 0xC2
        [⟨640000, 0xC0, 4⟩, ⟨320000, 0x80, 5⟩, ⟨160000, 0x40, 6⟩, ⟨15000, 0x00, 7⟩]
      exact ⟨_, (congrArg (fun d : PchSmiDispatcher H ↦ d.setHw _) h).trans rfl⟩
    · exact ⟨_, rfl⟩
  rw [pchSmmPeriodicTimerProgramTimers]
  split
  · obtain ⟨hw, h⟩ := hswsmi (programPeriodicTimer P
      { s with mTimers := (requiredTimers (resetTimers s.mTimers) s.pch.callbackDataBase).1 })
    obtain ⟨hw', h'⟩ := hperiodic
      { s with mTimers := (requiredTimers (resetTimers s.mTimers) s.pch.callbackDataBase).1 }
    exact ⟨hw, h.trans ((congrArg (fun d : PchSmiDispatcher H ↦ d.setHw hw) h').trans rfl)⟩
  · exact ⟨s.pch.hw, rfl⟩

theorem callbackDataBase_programTimers :
    (pchSmmPeriodicTimerProgramTimers P s).pch.callbackDataBase = s.pch.callbackDataBase := by
  obtain ⟨hw, h⟩ := programTimers_pch (P := P) (s := s)
  rw [h]
  rfl

end Program

/-! ### Registration -/

/-- The mirror: a bit that some source names is set if and only if it is listed. -/
def EnablesMirror {H : Type} (P : PchHardware H) (s : CoreState H) : Prop :=
  ∀ d, SourceEnable d → (IsSet P s.pch.hw d ↔ Listed s.pch.callbackDataBase d)

section Register

variable {H : Type} {P : PchHardware H} {s : CoreState H} {q : CoreRequest}

/-- A source of another protocol names no timer. -/
theorem coreRecordOk_of_ne {r : DatabaseRecord} (hsrc : CoreSource r.srcDesc)
    (htype : r.protocolType ≠ .periodicTimerType)
    (hen : ∀ timer, isBitEqualToAnySourceEn (timerEnable timer) r.srcDesc = false) :
    CoreRecordOk r := by
  have htimer : r.timer? = none := by
    rw [DatabaseRecord.timer?, DatabaseRecord.timerInterval?, if_neg htype]
    rfl
  refine ⟨hsrc, fun timer ↦ ?_, fun timer h ↦ ?_⟩
  · rw [hen, htimer]
    simp
  · rw [htimer] at h
    cases h

theorem timerEnable_zeroSourceDesc (timer : SupportedTimer) :
    isBitEqualToAnySourceEn (timerEnable timer) zeroSourceDesc = false := by
  rcases timer with - | - <;> decide

/-- The sources in the SMI enable register other than the timers' own name no timer. -/
theorem timerEnable_smiSourceDesc {bit : Nat} (h : bit ≠ 14) (h' : bit ≠ 6)
    (timer : SupportedTimer) :
    isBitEqualToAnySourceEn (timerEnable timer) (smiSourceDesc bit) = false := by
  rcases timer with - | -
  · simp [isBitEqualToAnySourceEn, smiSourceDesc, enBits, timerEnable, smiEn, sameBit, nullBitDesc,
      h.symm]
  · simp [isBitEqualToAnySourceEn, smiSourceDesc, enBits, timerEnable, smiEn, sameBit, nullBitDesc,
      h'.symm]

theorem mapUsbToSrcDesc_cases (type : Nat) (controller : Option PchUsbControllerType) :
    CoreSource (mapUsbToSrcDesc type controller) ∧
      ∀ timer, isBitEqualToAnySourceEn (timerEnable timer) (mapUsbToSrcDesc type controller) =
        false := by
  unfold mapUsbToSrcDesc
  split
  · exact ⟨Or.inr .usb1, timerEnable_smiSourceDesc (by decide) (by decide)⟩
  · exact ⟨Or.inr .usb3, timerEnable_smiSourceDesc (by decide) (by decide)⟩
  · exact ⟨Or.inl rfl, timerEnable_zeroSourceDesc⟩

/-- A timer child lists the enable of the timer it is counted for, or, if its interval is not in the
table, of none. -/
theorem mapPeriodicTimerToSrcDesc_cases {period smiTickInterval : Nat}
    {r : DatabaseRecord} (htype : r.protocolType = .periodicTimerType)
    (hcontext : r.childContext = .periodicTimer period smiTickInterval)
    (hsrc : r.srcDesc =
      (mapPeriodicTimerToSrcDesc P s (.periodicTimer period smiTickInterval)).2) :
    CoreRecordOk r := by
  rw [mapPeriodicTimerToSrcDesc] at hsrc
  have htimer : r.timer? = (contextToTimerInterval (.periodicTimer period smiTickInterval)).map
      TimerInterval.associatedTimer := by
    rw [DatabaseRecord.timer?, DatabaseRecord.timerInterval?, if_pos htype, hcontext]
  rcases hinterval : contextToTimerInterval (.periodicTimer period smiTickInterval) with - | t
  · rw [hinterval] at hsrc htimer
    refine ⟨Or.inl hsrc, fun timer ↦ ?_, fun timer h ↦ ?_⟩
    · rw [hsrc, timerEnable_zeroSourceDesc, htimer]
      simp
    · rw [htimer] at h
      cases h
  · rw [hinterval] at hsrc htimer
    change r.srcDesc = mTimerSourceDescs t.associatedTimer at hsrc
    refine ⟨hsrc ▸ timer_coreSource _, fun timer ↦ ?_, fun timer h ↦ ?_⟩
    · rw [hsrc, htimer, Option.map_some, Option.some_inj]
      rcases timer with - | - <;> rcases t.associatedTimer with - | - <;> decide
    · rw [htimer] at h
      rw [hsrc, ← Option.some.inj h]

/-- **What the switch finds.** The record to be inserted is in order, and the timers may have been
programmed. -/
theorem mapToSrcDesc_cases {childContext : PchSmmContext} {srcDesc : PchSmmSourceDesc}
    {clearSource : Option PchSmmClearSource} {s' : CoreState H}
    (h : mapToSrcDesc P s q = some (childContext, srcDesc, clearSource, s')) :
    (∀ link, CoreRecordOk (coreRecord q childContext srcDesc clearSource link)) ∧
      (s' = s ∨ s' = pchSmmPeriodicTimerProgramTimers P s) := by
  have hprotocol : ∀ link, (coreRecord q childContext srcDesc clearSource link).protocolType =
      q.dispatchContext.protocolType := fun _ ↦ rfl
  rw [mapToSrcDesc] at h
  rcases hcontext : q.dispatchContext with - | ⟨type, phase⟩ | ⟨period, smiTickInterval⟩ |
    swSmiInputValue | phase | type | gpiNum
  all_goals rw [hcontext] at h hprotocol
  · -- no standard protocol
    cases h
  · -- sleep state transitions
    dsimp only at h
    split at h
    · cases h
    · cases h
      refine ⟨fun link ↦ coreRecordOk_of_ne (Or.inr .sx) ?_
        (timerEnable_smiSourceDesc (by decide) (by decide)), Or.inl rfl⟩
      rw [hprotocol, PchSmmContext.protocolType]
      decide
  · -- a timer child: the only case that programs the timers
    dsimp only at h
    split at h
    · cases h
    · cases h
      refine ⟨fun link ↦ mapPeriodicTimerToSrcDesc_cases (hprotocol link) rfl rfl, ?_⟩
      rw [mapPeriodicTimerToSrcDesc]
      split
      · exact Or.inl rfl
      · exact Or.inr rfl
  · -- a software SMI, with the value it got
    obtain ⟨value, -, heq⟩ := Option.map_eq_some_iff.1 h
    cases heq
    refine ⟨fun link ↦ coreRecordOk_of_ne (Or.inr .sw) ?_
      (timerEnable_smiSourceDesc (by decide) (by decide)), Or.inl rfl⟩
    rw [hprotocol, PchSmmContext.protocolType]
    decide
  · -- the power button
    dsimp only at h
    split at h
    · cases h
    · cases h
      refine ⟨fun link ↦ coreRecordOk_of_ne (Or.inr .powerButton) ?_ fun timer ↦ ?_, Or.inl rfl⟩
      · rw [hprotocol, PchSmmContext.protocolType]
        decide
      · show isBitEqualToAnySourceEn (timerEnable timer) powerButtonSourceDesc = false
        rcases timer with - | - <;> decide
  · -- USB, possibly with a descriptor that stays zero
    dsimp only at h
    split at h
    · cases h
    · cases h
      obtain ⟨hsrc, hen⟩ := mapUsbToSrcDesc_cases type
        ((devicePathToSupportedController q.device).or q.controller)
      refine ⟨fun link ↦ coreRecordOk_of_ne hsrc ?_ hen, Or.inl rfl⟩
      rw [hprotocol, PchSmmContext.protocolType]
      decide
  · -- a pad, whose enable is in another address space than the timers'
    obtain ⟨regs, hregs, heq⟩ := Option.map_eq_some_iff.1 h
    cases heq
    refine ⟨fun link ↦ coreRecordOk_of_ne (Or.inr (.gpi hregs)) ?_ fun timer ↦ ?_, Or.inl rfl⟩
    · rw [hprotocol, PchSmmContext.protocolType]
      decide
    · show isBitEqualToAnySourceEn (timerEnable timer) (gpiSourceDesc regs) = false
      rcases timer with - | - <;>
        simp [isBitEqualToAnySourceEn, gpiSourceDesc, enBits, timerEnable, smiEn, sameBit,
          nullBitDesc]

/-- What holds between calls. -/
structure CoreInvariant (P : PchHardware H) (s : CoreState H) : Prop where
  /-- The records are in order. -/
  records : ∀ r ∈ s.pch.callbackDataBase, CoreRecordOk r
  /-- The enables mirror them. -/
  mirror : EnablesMirror P s

theorem CoreInvariant.programTimers (h : CoreInvariant P s) (hP : PlainEnables P) :
    CoreInvariant P (pchSmmPeriodicTimerProgramTimers P s) := by
  refine ⟨?_, fun d hd ↦ ?_⟩
  · rw [callbackDataBase_programTimers]
    exact h.records
  · obtain ⟨hsound, hkeep⟩ := isSet_programTimers hP hd h.records
    rw [callbackDataBase_programTimers]
    refine ⟨hsound (h.mirror d hd).1, fun hlisted ↦ ?_⟩
    exact hkeep ((h.mirror d hd).2 hlisted) hlisted

/-- Clearing the source of a new record, likewise, sets no bit that is not listed and clears none
that is. -/
theorem isSet_clearNewSource (hP : PlainEnables P) {d : PchSmmBitDesc} (hd : SourceEnable d)
    (hdb : ∀ r ∈ s.pch.callbackDataBase, CoreRecordOk r) {srcDesc : PchSmmSourceDesc}
    (hsrc : CoreSource srcDesc) (clearSource : Option PchSmmClearSource) :
    ((IsSet P s.pch.hw d → Listed s.pch.callbackDataBase d) →
        IsSet P (clearNewSource P s clearSource srcDesc).pch.hw d →
          Listed s.pch.callbackDataBase d) ∧
      (IsSet P s.pch.hw d → Listed s.pch.callbackDataBase d →
        IsSet P (clearNewSource P s clearSource srcDesc).pch.hw d) := by
  rcases clearSource with - | hook
  · have hclear : IsSet P (clearNewSource P s none srcDesc).pch.hw d ↔ IsSet P s.pch.hw d :=
      isSet_clearSource hP hd hsrc _
    rw [hclear]
    exact ⟨fun h ↦ h, fun h _ ↦ h⟩
  · exact isSet_programTimers hP hd hdb

theorem callbackDataBase_clearNewSource (clearSource : Option PchSmmClearSource)
    (srcDesc : PchSmmSourceDesc) : (clearNewSource P s clearSource srcDesc).pch.callbackDataBase =
      s.pch.callbackDataBase := by
  rcases clearSource with - | hook
  · rfl
  · exact callbackDataBase_programTimers

/-- **A registration keeps the mirror.** -/
theorem CoreInvariant.register (h : CoreInvariant P s) (hP : PlainEnables P) (q : CoreRequest) :
    CoreInvariant P (pchSmmCoreRegister P s q).2.1 := by
  rw [pchSmmCoreRegister]
  split
  · exact h
  · rcases hmap : mapToSrcDesc P s q with - | ⟨childContext, srcDesc, clearSource, s'⟩
    · exact h
    · obtain ⟨hrecord, hs'⟩ := mapToSrcDesc_cases hmap
      have h' : CoreInvariant P s' := by
        obtain rfl | rfl := hs'
        · exact h
        · exact h.programTimers hP
      have hsrc : CoreSource srcDesc := (hrecord 0).source
      dsimp only
      split
      · exact h'
      · -- the record is in the database, its source not enabled yet
        obtain ⟨s₁, hs₁⟩ : ∃ s₁, s'.insertTailList
            (coreRecord q childContext srcDesc clearSource) (fun _ ↦ rfl) = s₁ := ⟨_, rfl⟩
        have hdb₁ : s₁.pch.callbackDataBase = s'.pch.callbackDataBase ++
            [coreRecord q childContext srcDesc clearSource s'.pch.nextLink] := by
          rw [← hs₁]
          rfl
        have hhw₁ : s₁.pch.hw = s'.pch.hw := by
          rw [← hs₁]
          rfl
        have hrecords₁ : ∀ r ∈ s₁.pch.callbackDataBase, CoreRecordOk r := by
          rw [hdb₁]
          intro r hr
          obtain hr | hr := List.mem_append.1 hr
          · exact h'.records r hr
          · rw [List.mem_singleton.1 hr]
            exact hrecord _
        have hdb₂ := callbackDataBase_clearNewSource (P := P) (s := s₁) clearSource srcDesc
        rw [hs₁]
        refine ⟨?_, fun d hd ↦ ?_⟩
        · show ∀ r ∈ (clearNewSource P s₁ clearSource srcDesc).pch.callbackDataBase, CoreRecordOk r
          rw [hdb₂]
          exact hrecords₁
        · show IsSet P (pchSmmEnableSource P _ srcDesc) d ↔
            Listed (clearNewSource P s₁ clearSource srcDesc).pch.callbackDataBase d
          obtain ⟨hsound, hkeep⟩ := isSet_clearNewSource hP hd hrecords₁ hsrc clearSource
          have hlisted : Listed s₁.pch.callbackDataBase d ↔
              Listed s'.pch.callbackDataBase d ∨ isBitEqualToAnySourceEn d srcDesc = true := by
            rw [hdb₁]
            exact listed_append
          have hmirror := h'.mirror d hd
          rw [isSet_enableSource hP hd hsrc, hdb₂]
          rw [hhw₁] at hsound hkeep
          constructor
          · rintro (hnew | hset)
            · exact hlisted.2 (Or.inr hnew)
            · exact hsound (fun hset ↦ hlisted.2 (Or.inl (hmirror.1 hset))) hset
          · intro h
            obtain hold | hnew := hlisted.1 h
            · exact Or.inr (hkeep (hmirror.2 hold) h)
            · exact Or.inl hnew

end Register

/-! ### Unregistration -/

section UnRegister

variable {H : Type} {P : PchHardware H}

/-- **Clearing what nobody else lists**, by induction on the bits of the record. -/
theorem isSet_clearUnshared (hP : PlainEnables P) {d : PchSmmBitDesc} (hd : SourceEnable d)
    (db : List DatabaseRecord) {es : List PchSmmBitDesc} (hes : ∀ e ∈ es, NamedEnable e) (hw : H) :
    IsSet P (es.foldl (fun hw e ↦
        if e.isBitDescNull then hw
        else if db.any fun r ↦ isBitEqualToAnySourceEn e r.srcDesc then hw
        else writeBitDesc P hw e false false) hw) d ↔
      IsSet P hw d ∧ (es.any (sameBit d) = true → Listed db d) := by
  induction es generalizing hw with
  | nil => simp
  | cons e es ih =>
    rw [List.foldl_cons, ih fun e he ↦ hes e (List.mem_cons_of_mem _ he), List.any_cons,
      Bool.or_eq_true, or_imp, ← and_assoc]
    refine and_congr_left fun _ ↦ ?_
    by_cases hshared : (db.any fun r ↦ isBitEqualToAnySourceEn e r.srcDesc) = true
    · have hlisted : Listed db e := List.any_eq_true.1 hshared
      rw [if_pos hshared, ite_self]
      refine ⟨fun h ↦ ⟨h, fun hsame ↦ (listed_congr hsame db).2 hlisted⟩, fun h ↦ h.1⟩
    · have hlisted : ¬ Listed db e := fun h ↦ hshared (List.any_eq_true.2 h)
      rw [if_neg hshared, isSet_writeNamed hP hd (hes e List.mem_cons_self)]
      by_cases hsame : sameBit d e = true
      · rw [if_pos hsame, listed_congr hsame]
        exact ⟨fun h ↦ absurd h (by decide), fun h ↦ absurd (h.2 hsame) hlisted⟩
      · rw [if_neg hsame]
        exact ⟨fun h ↦ ⟨h, fun h' ↦ absurd h' hsame⟩, fun h ↦ h.1⟩

variable {s : CoreState H}

theorem listed_removeEntryList {r : DatabaseRecord} (hr : r ∈ s.pch.callbackDataBase)
    (d : PchSmmBitDesc) : Listed s.pch.callbackDataBase d ↔
      isBitEqualToAnySourceEn d r.srcDesc = true ∨
        Listed (s.pch.removeEntryList r.link).callbackDataBase d := by
  constructor
  · rintro ⟨r', hr', h⟩
    by_cases hlink : r'.link = r.link
    · rw [s.pch.eq_of_link_eq hr' hr hlink] at h
      exact Or.inl h
    · exact Or.inr ⟨r', s.pch.mem_removeEntryList.2 ⟨hr', hlink⟩, h⟩
  · rintro (h | ⟨r', hr', h⟩)
    · exact ⟨r, hr, h⟩
    · exact ⟨r', (s.pch.mem_removeEntryList.1 hr').1, h⟩

/-- **What an unregistration does to a bit**: it stays as it is, unless the record lists it and no
other record does. -/
theorem isSet_unRegister (hP : PlainEnables P) {d : PchSmmBitDesc} (hd : SourceEnable d)
    {r : DatabaseRecord} (hr : r ∈ s.pch.callbackDataBase) (hsrc : CoreSource r.srcDesc) :
    IsSet P (coreNext P s (.unRegister (some r.link))).pch.hw d ↔
      IsSet P s.pch.hw d ∧ (isBitEqualToAnySourceEn d r.srcDesc = true →
        Listed (s.pch.removeEntryList r.link).callbackDataBase d) := by
  show IsSet P (pchSmmCoreUnRegister P s.pch (some r.link)).2.hw d ↔ _
  rw [pchSmmCoreUnRegister_of_mem P s.pch hr]
  exact isSet_clearUnshared hP hd _ hsrc.en _

/-- **An unregistration keeps the mirror.** -/
theorem CoreInvariant.unRegister (h : CoreInvariant P s) (hP : PlainEnables P)
    (dispatchHandle : Option Nat) : CoreInvariant P (coreNext P s (.unRegister dispatchHandle)) := by
  rcases dispatchHandle with - | link
  · exact h
  · by_cases hlinked : s.pch.IsLinked link
    · obtain ⟨r, hr, rfl⟩ := hlinked
      have hdb : (coreNext P s (.unRegister (some r.link))).pch.callbackDataBase =
          (s.pch.removeEntryList r.link).callbackDataBase :=
        callbackDataBase_pchSmmCoreUnRegister P s.pch r.link
      refine ⟨?_, fun d hd ↦ ?_⟩
      · rw [hdb]
        exact fun r' hr' ↦ h.records r' (s.pch.mem_removeEntryList.1 hr').1
      · rw [isSet_unRegister hP hd hr (h.records r hr).source, hdb, h.mirror d hd,
          listed_removeEntryList hr]
        constructor
        · rintro ⟨hmine | hother, h⟩
          · exact h hmine
          · exact hother
        · exact fun h ↦ ⟨Or.inr h, fun _ ↦ h⟩
    · have hsame : coreNext P s (.unRegister (some link)) = s := by
        show { s with pch := (pchSmmCoreUnRegister P s.pch (some link)).2 } = s
        rw [pchSmmCoreUnRegister_of_not_isLinked P s.pch hlinked]
      rw [hsame]
      exact h

end UnRegister

/-! ### Every sequence of calls -/

section Runs

variable {H : Type} {P : PchHardware H}

theorem coreInvariant_foldl (hP : PlainEnables P) {hw : H}
    (hclear : ∀ d, SourceEnable d → ¬ IsSet P hw d) (calls : List CoreCall) :
    CoreInvariant P (calls.foldl (coreNext P) (initialCore hw)) := by
  have hinit : CoreInvariant P (initialCore hw) := by
    refine ⟨fun r hr ↦ absurd hr List.not_mem_nil, fun d hd ↦ ⟨fun h ↦ absurd h (hclear d hd), ?_⟩⟩
    rintro ⟨r, hr, -⟩
    exact absurd hr List.not_mem_nil
  generalize initialCore hw = s at hinit
  induction calls generalizing s with
  | nil => exact hinit
  | cons call calls ih =>
    rcases call with q | dispatchHandle
    · exact ih _ (hinit.register hP q)
    · exact ih _ (hinit.unRegister hP dispatchHandle)

/-- **Enable bits mirror the database.** After every sequence of calls, a bit that some source names
is set if and only if a record lists it; and if one of the records is then unregistered, a bit that
is set stays set, unless that record lists it and no other one does. -/
theorem enablesMirror_foldl (hP : PlainEnables P) {hw : H}
    (hclear : ∀ d, SourceEnable d → ¬ IsSet P hw d) (calls : List CoreCall) :
    EnablesMirror P (calls.foldl (coreNext P) (initialCore hw)) ∧
      ∀ r ∈ (calls.foldl (coreNext P) (initialCore hw)).pch.callbackDataBase,
        ∀ d, SourceEnable d →
          (IsSet P (coreNext P (calls.foldl (coreNext P) (initialCore hw))
              (.unRegister (some r.link))).pch.hw d ↔
            IsSet P (calls.foldl (coreNext P) (initialCore hw)).pch.hw d ∧
              (isBitEqualToAnySourceEn d r.srcDesc = true →
                ∃ r' ∈ (calls.foldl (coreNext P) (initialCore hw)).pch.callbackDataBase,
                  r' ≠ r ∧ isBitEqualToAnySourceEn d r'.srcDesc = true)) := by
  have h := coreInvariant_foldl hP hclear calls
  generalize calls.foldl (coreNext P) (initialCore hw) = s at h
  refine ⟨h.mirror, fun r hr d hd ↦ ?_⟩
  rw [isSet_unRegister hP hd hr (h.records r hr).source]
  refine and_congr_right fun _ ↦ imp_congr_right fun _ ↦ ?_
  constructor
  · rintro ⟨r', hr', hlists⟩
    obtain ⟨hmem, hlink⟩ := s.pch.mem_removeEntryList.1 hr'
    exact ⟨r', hmem, fun heq ↦ hlink (by rw [heq]), hlists⟩
  · rintro ⟨r', hr', hne, hlists⟩
    exact ⟨r', s.pch.mem_removeEntryList.2 ⟨hr', fun hlink ↦ hne (s.pch.eq_of_link_eq hr' hr hlink)⟩,
      hlists⟩

end Runs

/-- Registers that keep what is written, but for the status registers, where a one clears a bit. -/
def statusFile : PchHardware (PchSmmAddress → BitVec 64) where
  read hw addr _ := hw addr
  write hw addr _ value := Function.update hw addr
    (if (statusRegisters.map Prod.fst).contains addr then hw addr &&& ~~~value else value)
  waitClear hw _ := hw

theorem plainEnables_statusFile : PlainEnables statusFile := by
  have hplain : ∀ a ∈ enableRegisters, (statusRegisters.map Prod.fst).contains a.1 = false := by
    decide
  refine ⟨fun d hd hw value ↦ ?_, fun d hd a ha hw value ↦ ?_⟩
  · have hreg : (statusRegisters.map Prod.fst).contains d.reg = false :=
      hplain d.register hd.enableBit.1
    show (Function.update hw d.reg _ d.reg).getLsbD d.bit = _
    rw [Function.update_self, hreg]
    rfl
  · have hne : d.reg ≠ a.1 := ha.1.symm
    show (Function.update hw a.1 _ d.reg).getLsbD d.bit = _
    rw [Function.update_of_ne hne]
    rfl

/-- A registration with a callback, whose allocation succeeds. -/
def coreRequest (context : PchSmmContext) : CoreCall :=
  .register ⟨some 1, context, ⟨⟨2, 1, 12⟩, 0x0A0341D0, 0, ⟨1, 1, 6⟩, 20, 0⟩, none, true⟩

/-- Two software SMI children, two timer children that share a timer, a pad, a button and a USB
child; then one of each pair and the pad's child go. -/
def sharedSourceCalls : List CoreCall :=
  [coreRequest (.sw 0xFFFFFFFFFFFFFFFF), coreRequest (.sw 0x50), coreRequest (.periodicTimer 0 640000000),
    coreRequest (.periodicTimer 0 80000000), coreRequest (.gpi 30), coreRequest (.powerButton 0),
    coreRequest (.usb 0), .unRegister (some 0), .unRegister (some 3), .unRegister (some 4)]

theorem enablesMirror_sharedSourceCalls :
    EnablesMirror statusFile (sharedSourceCalls.foldl (coreNext statusFile)
      (initialCore fun _ ↦ 0)) :=
  (enablesMirror_foldl plainEnables_statusFile (fun d hd ↦ by
    rw [isSet_iff hd]
    show ¬ (0#64).getLsbD d.bit = true
    simp) sharedSourceCalls).1

end PurleyFirmware.PchSmi
