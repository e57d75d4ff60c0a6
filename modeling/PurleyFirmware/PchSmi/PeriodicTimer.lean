import PurleyFirmware.Foundation.Runs
import PurleyFirmware.Foundation.Slots
import PurleyFirmware.PchSmi.EnableMirror

/-!
# The elapsed time of timer children

The children of a hardware timer share it, and it is set to the shortest interval that one of them
asks for. On every SMI of the timer each child's elapsed time is advanced, and a child whose period
is over is called back with its elapsed time, which starts from zero again.

What should be added is the interval the timer was programmed to. What is added is the interval the
child itself asked for. `TimerRun` keeps, next to the state of the code, the sum of the programmed
intervals since the last callback of each child, and `Accounted` says that the two agree and that no
callback comes early. `along_accounted_iff` says for which sequences of events that is so.

An SMI of a timer is one turn of the dispatcher's outer loop that finds the source of that timer
active. The registers may have changed since the last event, so it comes with their contents. What
the callbacks of the children do is left to the events that follow.
-/

namespace PurleyFirmware.PchSmi

open PchSmmBitDesc

/-! ### The context functions -/

/-- The period of a timer context. -/
def PchSmmContext.period : PchSmmContext → Nat
  | .periodicTimer period _ => period
  | _ => 0

/-- Advance the elapsed time of a child, by the interval of its own context. -/
def periodicTimerGetContext (elapsedTime : Nat → BitVec 64) (r : DatabaseRecord) :
    Nat → BitVec 64 :=
  match contextToTimerInterval r.childContext with
  | none => elapsedTime
  | some t => Function.update elapsedTime r.link (elapsedTime r.link + BitVec.ofNat 64 t.interval)

/-- The period of a child is over. -/
def periodicTimerCmpContext (elapsedTime : Nat → BitVec 64) (r : DatabaseRecord) : Bool :=
  decide (r.childContext.period ≤ (elapsedTime r.link).toNat)

/-- What a child is called back with: its elapsed time, which starts from zero again. -/
def periodicTimerGetCommBuffer (elapsedTime : Nat → BitVec 64) (r : DatabaseRecord) :
    BitVec 64 × (Nat → BitVec 64) :=
  (elapsedTime r.link, Function.update elapsedTime r.link 0)

/-- A callback of a timer child. -/
structure TimerCallback where
  /-- The child. -/
  record : DatabaseRecord
  /-- The elapsed time it is handed. -/
  elapsedTime : BitVec 64
  deriving DecidableEq

/-- The turn of one record in the walk over the records of the active source. Records of other
protocols have other context functions, which know of no elapsed time. -/
def exhaustTimerRecord (activeSource : PchSmmSourceDesc)
    (acc : (Nat → BitVec 64) × List TimerCallback) (r : DatabaseRecord) :
    (Nat → BitVec 64) × List TimerCallback :=
  if compareSources r.srcDesc activeSource && r.protocolType == .periodicTimerType then
    let elapsedTime := periodicTimerGetContext acc.1 r
    if periodicTimerCmpContext elapsedTime r && r.callback.isSome then
      let commBuffer := periodicTimerGetCommBuffer elapsedTime r
      (commBuffer.2, acc.2 ++ [⟨r, commBuffer.1⟩])
    else (elapsedTime, acc.2)
  else acc

/-- One turn of the dispatcher that finds the source of a timer active: the records of the source
are exhausted, then the source is cleared through the hook of the record that was found first. The
second component lists the callbacks. -/
def dispatchTimerSource {H : Type} (P : PchHardware H) (s : CoreState H) (timer : SupportedTimer) :
    CoreState H × List TimerCallback :=
  let activeSource := mTimerSourceDescs timer
  match s.pch.callbackDataBase.find? fun r ↦ compareSources r.srcDesc activeSource with
  | none => (s, [])
  | some recordInDb =>
    let exhausted := s.pch.callbackDataBase.foldl (exhaustTimerRecord activeSource)
      (s.elapsedTime, [])
    (clearNewSource P { s with elapsedTime := exhausted.1 } recordInDb.clearSource activeSource,
      exhausted.2)

/-! ### Runs -/

/-- An event. -/
inductive TimerEvent (H : Type)
  /-- A registration. -/
  | register (q : CoreRequest)
  /-- An unregistration. -/
  | unRegister (dispatchHandle : Option Nat)
  /-- An SMI of a timer, with the registers as it finds them. -/
  | timerSmi (timer : SupportedTimer) (hw : H)

/-- A callback, with what it should have waited for. -/
structure AccountedCallback where
  /-- The elapsed time handed to the child. -/
  elapsedTime : BitVec 64
  /-- The sum of the programmed intervals. -/
  programmed : Nat
  /-- The period of the child. -/
  period : Nat
  deriving DecidableEq

/-- The state of the code, with the sum of the programmed intervals for each child. -/
structure TimerRun (H : Type) where
  /-- The state of the code. -/
  core : CoreState H
  /-- The sum of the intervals its timer was programmed to at the SMIs since a child was registered
  or last called back, by the address of the record's link. -/
  programmed : Nat → Nat
  /-- The callbacks so far. -/
  callbacks : List AccountedCallback

section Next

variable {H : Type} (P : PchHardware H)

/-- The sums at an SMI of a timer: for its children, one more programmed interval. -/
def TimerRun.programmedAt (s : TimerRun H) (timer : SupportedTimer) (link : Nat) : Nat :=
  if s.core.pch.callbackDataBase.any fun r ↦ r.link == link && r.timer? == some timer then
    s.programmed link + (s.core.mTimers timer).minReqInterval
  else s.programmed link

/-- The state after one event. -/
def timerNext (s : TimerRun H) : TimerEvent H → TimerRun H
  | .register q =>
    { s with
      core := coreNext P s.core (.register q)
      programmed := Function.update s.programmed s.core.pch.nextLink 0 }
  | .unRegister dispatchHandle => { s with core := coreNext P s.core (.unRegister dispatchHandle) }
  | .timerSmi timer hw =>
    let smi := dispatchTimerSource P (s.core.setHw hw) timer
    { core := smi.1
      programmed := fun link ↦
        if smi.2.any fun c ↦ c.record.link == link then 0 else s.programmedAt timer link
      callbacks := s.callbacks ++ smi.2.map fun c ↦
        ⟨c.elapsedTime, s.programmedAt timer c.record.link, c.record.childContext.period⟩ }

/-- Before the first event. -/
def initialTimerRun (hw : H) : TimerRun H := ⟨initialCore hw, fun _ ↦ 0, []⟩

/-- The elapsed time of every child is the sum of the programmed intervals, and so was the one handed
over in every callback, which came when at least the period had passed. -/
structure Accounted (s : TimerRun H) : Prop where
  /-- Elapsed times. -/
  elapsedTime : ∀ r ∈ s.core.pch.callbackDataBase, r.timer? ≠ none →
    (s.core.elapsedTime r.link).toNat = s.programmed r.link
  /-- Callbacks. -/
  callbacks : ∀ c ∈ s.callbacks, c.elapsedTime.toNat = c.programmed ∧ c.period ≤ c.programmed

/-- The condition on an event: at an SMI of a timer, every child of it was registered for exactly the
interval the timer is programmed to, and its elapsed time does not overflow. -/
def TimerSmiExact (s : TimerRun H) : TimerEvent H → Prop
  | .timerSmi timer _ => ∀ r ∈ s.core.pch.callbackDataBase, ∀ t ∈ r.timerInterval?,
      t.associatedTimer = timer → t.interval = (s.core.mTimers timer).minReqInterval ∧
        (s.core.elapsedTime r.link).toNat + t.interval < 0x10000000000000000
  | _ => True

end Next

/-! ### One walk over the records -/

/-- The elapsed time of a record, advanced by the interval of its own context. -/
def advancedTime (r : DatabaseRecord) (elapsedTime : BitVec 64) : BitVec 64 :=
  match contextToTimerInterval r.childContext with
  | none => elapsedTime
  | some t => elapsedTime + BitVec.ofNat 64 t.interval

/-- What the turn of a record does to its elapsed time, and the callback it makes. -/
def childTurn (activeSource : PchSmmSourceDesc) (r : DatabaseRecord) (elapsedTime : BitVec 64) :
    BitVec 64 × List TimerCallback :=
  if compareSources r.srcDesc activeSource && r.protocolType == .periodicTimerType then
    if decide (r.childContext.period ≤ (advancedTime r elapsedTime).toNat) && r.callback.isSome then
      (0, [⟨r, advancedTime r elapsedTime⟩])
    else (advancedTime r elapsedTime, [])
  else (elapsedTime, [])

/-- **A turn works on one slot**: the elapsed time of its own record. -/
theorem exhaustTimerRecord_eq (activeSource : PchSmmSourceDesc) :
    exhaustTimerRecord activeSource = slotStep DatabaseRecord.link (childTurn activeSource) := by
  funext acc r
  have hcontext : periodicTimerGetContext acc.1 r =
      Function.update acc.1 r.link (advancedTime r (acc.1 r.link)) := by
    rw [periodicTimerGetContext, advancedTime]
    split
    · exact (Function.update_eq_self _ _).symm
    · rfl
  rw [exhaustTimerRecord, slotStep, childTurn]
  split
  · dsimp only
    rw [periodicTimerCmpContext, periodicTimerGetCommBuffer, hcontext, Function.update_self]
    split
    · dsimp only
      rw [Function.update_idem]
    · rw [List.append_nil]
  · rw [Function.update_eq_self, List.append_nil]

theorem sameBit_comm (d e : PchSmmBitDesc) : sameBit d e = sameBit e d := by
  refine Bool.eq_iff_iff.2 ?_
  rw [sameBit_iff, sameBit_iff, eq_comm, @eq_comm _ d.reg]

/-- A source that compares equal lists the enables of the other. -/
theorem isBitEqualToAnySourceEn_of_compareSources {src₁ src₂ : PchSmmSourceDesc}
    (h : compareSources src₁ src₂ = true) {d : PchSmmBitDesc} (hd : d ∈ src₂.en.toList) :
    isBitEqualToAnySourceEn d src₁ = true := by
  have hzip : ∀ (l₁ l₂ : List PchSmmBitDesc), l₁.length = l₂.length →
      ((l₁.zip l₂).all fun p ↦ sameBit p.1 p.2) = true → d ∈ l₂ →
        l₁.any (sameBit d) = true := by
    intro l₁ l₂ hlength hall hd
    induction l₂ generalizing l₁ with
    | nil => cases hd
    | cons e₂ l₂ ih =>
      rcases l₁ with - | ⟨e₁, l₁⟩
      · cases hlength
      · rw [List.zip_cons_cons, List.all_cons, Bool.and_eq_true] at hall
        rw [List.any_cons, Bool.or_eq_true]
        obtain rfl | hd := List.mem_cons.1 hd
        · exact Or.inl ((sameBit_comm _ _).trans hall.1)
        · exact Or.inr (ih l₁ (Nat.succ.inj hlength) hall.2 hd)
  rw [compareSources, Bool.and_eq_true] at h
  exact hzip _ _ (by simp) h.1 hd

section Turn

variable {r : DatabaseRecord} {timer : SupportedTimer} {t : TimerInterval}

theorem timer?_eq_some_iff : r.timer? = some timer ↔
    ∃ t, r.timerInterval? = some t ∧ t.associatedTimer = timer := by
  rw [DatabaseRecord.timer?, Option.map_eq_some_iff]

/-- The interval of a child is in the table. -/
theorem interval_le (h : r.timerInterval? = some t) : t.interval ≤ 640000000 := by
  have htable : ∀ t ∈ mSmmPeriodicTimerIntervals, t.interval ≤ 640000000 := by decide
  rw [DatabaseRecord.timerInterval?] at h
  split at h
  · unfold contextToTimerInterval at h
    split at h
    · exact htable t (List.mem_of_find?_eq_some h)
    · cases h
  · cases h

/-- **Which records have a turn** at an SMI of a timer: the children of the timer. -/
theorem hasTurn_iff (h : CoreRecordOk r) :
    (compareSources r.srcDesc (mTimerSourceDescs timer) &&
        r.protocolType == .periodicTimerType) = true ↔ r.timer? = some timer := by
  rw [Bool.and_eq_true]
  constructor
  · rintro ⟨hsrc, -⟩
    have hmem : timerEnable timer ∈ (mTimerSourceDescs timer).en.toList := by
      rcases timer with - | - <;> decide
    exact (h.timer_iff timer).1 (isBitEqualToAnySourceEn_of_compareSources hsrc hmem)
  · intro htimer
    refine ⟨?_, ?_⟩
    · rw [h.srcDesc_eq timer htimer]
      exact compareSources_self _
    · obtain ⟨t, ht, -⟩ := timer?_eq_some_iff.1 htimer
      rw [DatabaseRecord.timerInterval?] at ht
      split at ht
      · rename_i htype
        rw [htype]
        rfl
      · cases ht

theorem advancedTime_eq (h : r.timerInterval? = some t) (elapsedTime : BitVec 64) :
    advancedTime r elapsedTime = elapsedTime + BitVec.ofNat 64 t.interval := by
  rw [DatabaseRecord.timerInterval?] at h
  split at h
  · rw [advancedTime, h]
  · cases h

/-- A child is called back when its turn comes. -/
def CalledBack (r : DatabaseRecord) (t : TimerInterval) (elapsedTime : BitVec 64) : Prop :=
  r.childContext.period ≤ (elapsedTime + BitVec.ofNat 64 t.interval).toNat ∧
    r.callback.isSome = true

theorem childTurn_of_calledBack (h : CoreRecordOk r) (ht : r.timerInterval? = some t)
    {elapsedTime : BitVec 64} (hcalled : CalledBack r t elapsedTime) :
    childTurn (mTimerSourceDescs t.associatedTimer) r elapsedTime =
      (0, [⟨r, elapsedTime + BitVec.ofNat 64 t.interval⟩]) := by
  have hturn := (hasTurn_iff h).2 (timer?_eq_some_iff.2 ⟨t, ht, rfl⟩)
  rw [childTurn, if_pos hturn, advancedTime_eq ht]
  exact if_pos (Bool.and_eq_true_iff.2 ⟨decide_eq_true hcalled.1, hcalled.2⟩)

theorem childTurn_of_not_calledBack (h : CoreRecordOk r) (ht : r.timerInterval? = some t)
    {elapsedTime : BitVec 64} (hcalled : ¬ CalledBack r t elapsedTime) :
    childTurn (mTimerSourceDescs t.associatedTimer) r elapsedTime =
      (elapsedTime + BitVec.ofNat 64 t.interval, []) := by
  have hturn := (hasTurn_iff h).2 (timer?_eq_some_iff.2 ⟨t, ht, rfl⟩)
  rw [childTurn, if_pos hturn, advancedTime_eq ht]
  refine if_neg fun hboth ↦ hcalled ?_
  obtain ⟨hperiod, hcallback⟩ := Bool.and_eq_true_iff.1 hboth
  exact ⟨of_decide_eq_true hperiod, hcallback⟩

theorem childTurn_of_ne (h : CoreRecordOk r) (htimer : r.timer? ≠ some timer)
    (elapsedTime : BitVec 64) :
    childTurn (mTimerSourceDescs timer) r elapsedTime = (elapsedTime, []) :=
  if_neg fun hturn ↦ htimer ((hasTurn_iff h).1 hturn)

end Turn

/-! ### What an event leaves alone -/

section Frames

variable {H : Type} {P : PchHardware H} {s : CoreState H}

theorem elapsedTime_programRate (timer : SupportedTimer) (addr : PchSmmAddress)
    (mask : BitVec 64) (rates : List TimerRate) :
    (programRate P s timer addr mask rates).elapsedTime = s.elapsedTime := by
  rw [programRate]
  split <;> rfl

/-- Programming the timers changes no elapsed time. -/
theorem elapsedTime_programTimers :
    (pchSmmPeriodicTimerProgramTimers P s).elapsedTime = s.elapsedTime := by
  have hperiodic : ∀ s : CoreState H, (programPeriodicTimer P s).elapsedTime = s.elapsedTime := by
    intro s
    rw [programPeriodicTimer]
    dsimp only
    split
    · exact elapsedTime_programRate _ _ _ _
    · rfl
  have hswsmi : ∀ s : CoreState H, (programSwsmiTimer P s).elapsedTime = s.elapsedTime := by
    intro s
    rw [programSwsmiTimer]
    dsimp only
    split
    · exact elapsedTime_programRate _ _ _ _
    · rfl
  rw [pchSmmPeriodicTimerProgramTimers]
  split
  · exact (hswsmi _).trans (hperiodic _)
  · rfl

theorem elapsedTime_clearNewSource (clearSource : Option PchSmmClearSource)
    (srcDesc : PchSmmSourceDesc) :
    (clearNewSource P s clearSource srcDesc).elapsedTime = s.elapsedTime := by
  rcases clearSource with - | hook
  · rfl
  · exact elapsedTime_programTimers

/-- **A registration**, as far as elapsed times go: it changes nothing, or it appends one record at a
fresh address, whose elapsed time is zero. -/
theorem coreNext_register_cases (q : CoreRequest) :
    ((coreNext P s (.register q)).pch.callbackDataBase = s.pch.callbackDataBase ∧
        (coreNext P s (.register q)).elapsedTime = s.elapsedTime) ∨
      ∃ r : DatabaseRecord, CoreRecordOk r ∧ r.link = s.pch.nextLink ∧
        (coreNext P s (.register q)).pch.callbackDataBase = s.pch.callbackDataBase ++ [r] ∧
        (coreNext P s (.register q)).elapsedTime =
          Function.update s.elapsedTime s.pch.nextLink 0 := by
  rw [coreNext, pchSmmCoreRegister]
  split
  · exact Or.inl ⟨rfl, rfl⟩
  · rcases hmap : mapToSrcDesc P s q with - | ⟨childContext, srcDesc, clearSource, s'⟩
    · exact Or.inl ⟨rfl, rfl⟩
    · obtain ⟨hrecord, hs'⟩ := mapToSrcDesc_cases hmap
      have hframe : s'.pch.callbackDataBase = s.pch.callbackDataBase ∧
          s'.pch.nextLink = s.pch.nextLink ∧ s'.elapsedTime = s.elapsedTime := by
        obtain rfl | rfl := hs'
        · exact ⟨rfl, rfl, rfl⟩
        · obtain ⟨hw, hpch⟩ := programTimers_pch (P := P) (s := s)
          refine ⟨callbackDataBase_programTimers, ?_, elapsedTime_programTimers⟩
          rw [hpch]
          rfl
      obtain ⟨hdb, hlink, helapsed⟩ := hframe
      dsimp only
      split
      · exact Or.inl ⟨hdb, helapsed⟩
      · refine Or.inr ⟨_, hrecord s'.pch.nextLink, hlink, ?_, ?_⟩
        · refine (callbackDataBase_clearNewSource clearSource srcDesc).trans ?_
          rw [← hdb]
          rfl
        · refine (elapsedTime_clearNewSource clearSource srcDesc).trans ?_
          rw [← hlink, ← helapsed]
          rfl

end Frames

/-! ### One SMI -/

section Smi

variable {H : Type} {P : PchHardware H} {s : CoreState H} {timer : SupportedTimer}

/-- If no record has the source, no record has a turn. -/
theorem foldl_exhaustTimerRecord_of_none {activeSource : PchSmmSourceDesc}
    {db : List DatabaseRecord}
    (h : db.find? (fun r ↦ compareSources r.srcDesc activeSource) = none)
    (acc : (Nat → BitVec 64) × List TimerCallback) :
    db.foldl (exhaustTimerRecord activeSource) acc = acc := by
  induction db with
  | nil => rfl
  | cons r rs ih =>
    rw [List.find?_cons] at h
    split at h
    · cases h
    · rename_i hsrc
      rw [List.foldl_cons, exhaustTimerRecord, hsrc]
      exact ih h

/-- **The frame of an SMI**: the elapsed times and the callbacks are those of the walk, and the
database is the same. -/
theorem dispatchTimerSource_frame (P : PchHardware H) (s : CoreState H) (timer : SupportedTimer) :
    (dispatchTimerSource P s timer).1.pch.callbackDataBase = s.pch.callbackDataBase ∧
      ((dispatchTimerSource P s timer).1.elapsedTime, (dispatchTimerSource P s timer).2) =
        s.pch.callbackDataBase.foldl (exhaustTimerRecord (mTimerSourceDescs timer))
          (s.elapsedTime, []) := by
  rw [dispatchTimerSource]
  dsimp only
  split
  · rename_i h
    exact ⟨rfl, (foldl_exhaustTimerRecord_of_none h _).symm⟩
  · rename_i recordInDb h
    refine ⟨callbackDataBase_clearNewSource recordInDb.clearSource _, ?_⟩
    rw [elapsedTime_clearNewSource]

theorem elapsedTime_dispatchTimerSource {r : DatabaseRecord} (hr : r ∈ s.pch.callbackDataBase) :
    (dispatchTimerSource P s timer).1.elapsedTime r.link =
      (childTurn (mTimerSourceDescs timer) r (s.elapsedTime r.link)).1 := by
  have hwalk := (dispatchTimerSource_frame P s timer).2
  rw [exhaustTimerRecord_eq] at hwalk
  rw [← foldl_slotStep_of_mem s.pch.nodup_link hr s.elapsedTime [], ← hwalk]

theorem callbacks_dispatchTimerSource :
    (dispatchTimerSource P s timer).2 = s.pch.callbackDataBase.flatMap fun r ↦
      (childTurn (mTimerSourceDescs timer) r (s.elapsedTime r.link)).2 := by
  have hwalk := (dispatchTimerSource_frame P s timer).2
  rw [exhaustTimerRecord_eq] at hwalk
  have houtput := foldl_slotStep_output s.pch.nodup_link
    (f := childTurn (mTimerSourceDescs timer)) s.elapsedTime []
  rw [← hwalk, List.nil_append] at houtput
  exact houtput

/-- **The callbacks of an SMI** are those of the children of the timer whose period is over. -/
theorem mem_callbacks_iff (hdb : ∀ r ∈ s.pch.callbackDataBase, CoreRecordOk r)
    {c : TimerCallback} : c ∈ (dispatchTimerSource P s timer).2 ↔
      ∃ r ∈ s.pch.callbackDataBase, ∃ t, r.timerInterval? = some t ∧ t.associatedTimer = timer ∧
        CalledBack r t (s.elapsedTime r.link) ∧
          c = ⟨r, s.elapsedTime r.link + BitVec.ofNat 64 t.interval⟩ := by
  rw [callbacks_dispatchTimerSource, List.mem_flatMap]
  refine exists_congr fun r ↦ and_congr_right fun hr ↦ ?_
  have hrecord := hdb r hr
  constructor
  · intro hc
    by_cases htimer : r.timer? = some timer
    · obtain ⟨t, ht, rfl⟩ := timer?_eq_some_iff.1 htimer
      by_cases hcalled : CalledBack r t (s.elapsedTime r.link)
      · rw [childTurn_of_calledBack hrecord ht hcalled] at hc
        exact ⟨t, ht, rfl, hcalled, List.mem_singleton.1 hc⟩
      · rw [childTurn_of_not_calledBack hrecord ht hcalled] at hc
        cases hc
    · rw [childTurn_of_ne hrecord htimer] at hc
      cases hc
  · rintro ⟨t, ht, rfl, hcalled, rfl⟩
    rw [childTurn_of_calledBack hrecord ht hcalled]
    exact List.mem_singleton_self _

end Smi

/-! ### Accounting -/

section Accounting

variable {H : Type} {P : PchHardware H} {s : TimerRun H} {timer : SupportedTimer}
  {r : DatabaseRecord}

theorem programmedAt_of_timer (hr : r ∈ s.core.pch.callbackDataBase)
    (htimer : r.timer? = some timer) : s.programmedAt timer r.link =
      s.programmed r.link + (s.core.mTimers timer).minReqInterval := by
  refine if_pos (List.any_eq_true.2 ⟨r, hr, ?_⟩)
  rw [htimer]
  simp

theorem programmedAt_of_ne (hr : r ∈ s.core.pch.callbackDataBase) (htimer : r.timer? ≠ some timer) :
    s.programmedAt timer r.link = s.programmed r.link := by
  refine if_neg fun hany ↦ htimer ?_
  obtain ⟨r', hr', hboth⟩ := List.any_eq_true.1 hany
  obtain ⟨hlink, htimer'⟩ := Bool.and_eq_true_iff.1 hboth
  rw [← s.core.pch.eq_of_link_eq hr' hr (beq_iff_eq.1 hlink)]
  exact beq_iff_eq.1 htimer'

/-- A child is among the callbacks of an SMI if and only if its period is over. -/
theorem any_callbacks_iff (core : CoreState H)
    (hdb : ∀ r ∈ core.pch.callbackDataBase, CoreRecordOk r) (hr : r ∈ core.pch.callbackDataBase) :
    ((dispatchTimerSource P core timer).2.any fun c ↦ c.record.link == r.link) = true ↔
      ∃ t, r.timerInterval? = some t ∧ t.associatedTimer = timer ∧
        CalledBack r t (core.elapsedTime r.link) := by
  rw [List.any_eq_true]
  constructor
  · rintro ⟨c, hc, hlink⟩
    obtain ⟨r', hr', t, ht, htimer, hcalled, rfl⟩ := (mem_callbacks_iff hdb).1 hc
    obtain rfl := core.pch.eq_of_link_eq hr' hr (beq_iff_eq.1 hlink)
    exact ⟨t, ht, htimer, hcalled⟩
  · rintro ⟨t, ht, htimer, hcalled⟩
    exact ⟨_, (mem_callbacks_iff hdb).2 ⟨r, hr, t, ht, htimer, hcalled, rfl⟩, beq_self_eq_true _⟩

/-- One more interval is the programmed one if and only if the child asked for that, unless the sum
overflows. -/
theorem advanced_eq_iff {elapsedTime : BitVec 64} {t : TimerInterval} {sum programmed : Nat}
    (hsum : elapsedTime.toNat = sum) (hinterval : t.interval ≤ 640000000) :
    (elapsedTime + BitVec.ofNat 64 t.interval).toNat = sum + programmed ↔
      t.interval = programmed ∧ elapsedTime.toNat + t.interval < 0x10000000000000000 := by
  rw [BitVec.toNat_add, BitVec.toNat_ofNat]
  have hlt := elapsedTime.isLt
  omega

/-- **The accounts after an SMI** are right if and only if every child of the timer was advanced by
what the timer was programmed to. -/
theorem accounted_timerSmi_iff (hdb : ∀ r ∈ s.core.pch.callbackDataBase, CoreRecordOk r)
    (h : Accounted s) (hw : H) : Accounted (timerNext P s (.timerSmi timer hw)) ↔
      ∀ r ∈ s.core.pch.callbackDataBase, ∀ t, r.timerInterval? = some t →
        t.associatedTimer = timer →
          (s.core.elapsedTime r.link + BitVec.ofNat 64 t.interval).toNat =
            s.programmed r.link + (s.core.mTimers timer).minReqInterval := by
  have hdb' : (dispatchTimerSource P (s.core.setHw hw) timer).1.pch.callbackDataBase =
      s.core.pch.callbackDataBase := (dispatchTimerSource_frame _ _ _).1
  have helapsed : ∀ r ∈ s.core.pch.callbackDataBase,
      (dispatchTimerSource P (s.core.setHw hw) timer).1.elapsedTime r.link =
        (childTurn (mTimerSourceDescs timer) r (s.core.elapsedTime r.link)).1 :=
    fun r hr ↦ elapsedTime_dispatchTimerSource (s := s.core.setHw hw) hr
  have hany : ∀ r ∈ s.core.pch.callbackDataBase,
      ((dispatchTimerSource P (s.core.setHw hw) timer).2.any fun c ↦
          c.record.link == r.link) = true ↔
        ∃ t, r.timerInterval? = some t ∧ t.associatedTimer = timer ∧
          CalledBack r t (s.core.elapsedTime r.link) :=
    fun r hr ↦ any_callbacks_iff (s.core.setHw hw) hdb hr
  have hmem : ∀ c, c ∈ (dispatchTimerSource P (s.core.setHw hw) timer).2 ↔
      ∃ r ∈ s.core.pch.callbackDataBase, ∃ t, r.timerInterval? = some t ∧
        t.associatedTimer = timer ∧ CalledBack r t (s.core.elapsedTime r.link) ∧
          c = ⟨r, s.core.elapsedTime r.link + BitVec.ofNat 64 t.interval⟩ :=
    fun c ↦ mem_callbacks_iff (s := s.core.setHw hw) hdb
  constructor
  · rintro ⟨htimes, hcallbacks⟩ r hr t ht rfl
    have htimer : r.timer? = some t.associatedTimer := timer?_eq_some_iff.2 ⟨t, ht, rfl⟩
    by_cases hcalled : CalledBack r t (s.core.elapsedTime r.link)
    · -- the child is called back, with what has been accounted
      have hc := (hmem _).2 ⟨r, hr, t, ht, rfl, hcalled, rfl⟩
      have haccount := (hcallbacks _ (List.mem_append_right _ (List.mem_map_of_mem hc))).1
      rw [← programmedAt_of_timer hr htimer]
      exact haccount
    · -- it is not, and keeps what has been accounted
      have hnot : ¬ ((dispatchTimerSource P (s.core.setHw hw) t.associatedTimer).2.any fun c ↦
          c.record.link == r.link) = true := by
        rw [hany r hr]
        rintro ⟨t', ht', -, hcalled'⟩
        rw [ht, Option.some_inj] at ht'
        exact hcalled (ht' ▸ hcalled')
      have hr' : r ∈ (dispatchTimerSource P (s.core.setHw hw)
          t.associatedTimer).1.pch.callbackDataBase := by
        rw [hdb']
        exact hr
      have haccount := htimes r hr' (by rw [htimer]; exact Option.some_ne_none _)
      change ((dispatchTimerSource P (s.core.setHw hw) t.associatedTimer).1.elapsedTime
        r.link).toNat = (if _ then 0 else s.programmedAt t.associatedTimer r.link) at haccount
      rw [if_neg hnot, helapsed r hr, childTurn_of_not_calledBack (hdb r hr) ht hcalled,
        programmedAt_of_timer hr htimer] at haccount
      exact haccount
  · intro hexact
    refine ⟨fun r hr hchild ↦ ?_, fun c hc ↦ ?_⟩
    · change r ∈ (dispatchTimerSource P (s.core.setHw hw) timer).1.pch.callbackDataBase at hr
      rw [hdb'] at hr
      show ((dispatchTimerSource P (s.core.setHw hw) timer).1.elapsedTime r.link).toNat =
        if _ then 0 else s.programmedAt timer r.link
      rw [helapsed r hr]
      by_cases htimer : r.timer? = some timer
      · obtain ⟨t, ht, rfl⟩ := timer?_eq_some_iff.1 htimer
        by_cases hcalled : CalledBack r t (s.core.elapsedTime r.link)
        · rw [if_pos ((hany r hr).2 ⟨t, ht, rfl, hcalled⟩),
            childTurn_of_calledBack (hdb r hr) ht hcalled]
          rfl
        · rw [if_neg fun h ↦ ?_, childTurn_of_not_calledBack (hdb r hr) ht hcalled,
            programmedAt_of_timer hr htimer]
          · exact hexact r hr t ht rfl
          · obtain ⟨t', ht', -, hcalled'⟩ := (hany r hr).1 h
            rw [ht, Option.some_inj] at ht'
            exact hcalled (ht' ▸ hcalled')
      · -- a child of the other timer
        rw [childTurn_of_ne (hdb r hr) htimer, if_neg fun h ↦ ?_, programmedAt_of_ne hr htimer]
        · exact h.elapsedTime r hr hchild
        · obtain ⟨t, ht, rfl, -⟩ := (hany r hr).1 h
          exact htimer (timer?_eq_some_iff.2 ⟨t, ht, rfl⟩)
    · obtain hold | hnew := List.mem_append.1 hc
      · exact h.callbacks c hold
      · obtain ⟨c', hc', rfl⟩ := List.mem_map.1 hnew
        obtain ⟨r, hr, t, ht, rfl, hcalled, rfl⟩ := (hmem c').1 hc'
        have hsum := hexact r hr t ht rfl
        have hat := programmedAt_of_timer hr (timer?_eq_some_iff.2 ⟨t, ht, rfl⟩)
        refine ⟨hsum.trans hat.symm, ?_⟩
        show r.childContext.period ≤ s.programmedAt t.associatedTimer r.link
        rw [hat, ← hsum]
        exact hcalled.1

/-- **Which events keep the accounts right.** -/
theorem accounted_timerNext_iff (hdb : ∀ r ∈ s.core.pch.callbackDataBase, CoreRecordOk r)
    (h : Accounted s) (event : TimerEvent H) :
    Accounted (timerNext P s event) ↔ TimerSmiExact s event := by
  rcases event with q | dispatchHandle | ⟨timer, hw⟩
  · -- a new child starts from zero on both sides
    refine ⟨fun _ ↦ trivial, fun _ ↦ ⟨fun r hr hchild ↦ ?_, h.callbacks⟩⟩
    show ((coreNext P s.core (.register q)).elapsedTime r.link).toNat =
      Function.update s.programmed s.core.pch.nextLink 0 r.link
    change r ∈ (coreNext P s.core (.register q)).pch.callbackDataBase at hr
    have hold : ∀ r ∈ s.core.pch.callbackDataBase, r.link ≠ s.core.pch.nextLink :=
      fun r hr ↦ Nat.ne_of_lt (s.core.pch.link_lt r hr)
    obtain ⟨hdb', htime⟩ | ⟨r', -, hlink, hdb', htime⟩ := coreNext_register_cases (P := P)
      (s := s.core) q
    · rw [hdb'] at hr
      rw [htime, Function.update_of_ne (hold r hr)]
      exact h.elapsedTime r hr hchild
    · rw [hdb'] at hr
      rw [htime]
      obtain hr | hr := List.mem_append.1 hr
      · rw [Function.update_of_ne (hold r hr), Function.update_of_ne (hold r hr)]
        exact h.elapsedTime r hr hchild
      · rw [List.mem_singleton.1 hr, hlink, Function.update_self, Function.update_self]
        rfl
  · refine ⟨fun _ ↦ trivial, fun _ ↦ ⟨fun r hr hchild ↦ ?_, h.callbacks⟩⟩
    change r ∈ (pchSmmCoreUnRegister P s.core.pch dispatchHandle).2.callbackDataBase at hr
    rcases dispatchHandle with - | link
    · exact h.elapsedTime r hr hchild
    · rw [callbackDataBase_pchSmmCoreUnRegister] at hr
      exact h.elapsedTime r (List.mem_filter.1 hr).1 hchild
  · rw [accounted_timerSmi_iff hdb h]
    show _ ↔ ∀ r ∈ s.core.pch.callbackDataBase, ∀ t ∈ r.timerInterval?, _
    refine forall₂_congr fun r hr ↦ forall₂_congr fun t ht ↦ imp_congr_right fun htimer ↦ ?_
    refine advanced_eq_iff (h.elapsedTime r hr ?_) (interval_le ht)
    rw [DatabaseRecord.timer?, ht]
    exact Option.some_ne_none _

/-- Every event keeps the records in order. -/
theorem coreRecordOk_timerNext (hdb : ∀ r ∈ s.core.pch.callbackDataBase, CoreRecordOk r)
    (event : TimerEvent H) :
    ∀ r ∈ (timerNext P s event).core.pch.callbackDataBase, CoreRecordOk r := by
  rcases event with q | dispatchHandle | ⟨timer, hw⟩
  · intro r hr
    change r ∈ (coreNext P s.core (.register q)).pch.callbackDataBase at hr
    obtain ⟨hdb', -⟩ | ⟨r', hr', -, hdb', -⟩ := coreNext_register_cases (P := P) (s := s.core) q
    · rw [hdb'] at hr
      exact hdb r hr
    · rw [hdb'] at hr
      obtain hr | hr := List.mem_append.1 hr
      · exact hdb r hr
      · rw [List.mem_singleton.1 hr]
        exact hr'
  · intro r hr
    change r ∈ (pchSmmCoreUnRegister P s.core.pch dispatchHandle).2.callbackDataBase at hr
    rcases dispatchHandle with - | link
    · exact hdb r hr
    · rw [callbackDataBase_pchSmmCoreUnRegister] at hr
      exact hdb r (List.mem_filter.1 hr).1
  · intro r hr
    change r ∈ (dispatchTimerSource P (s.core.setHw hw) timer).1.pch.callbackDataBase at hr
    rw [(dispatchTimerSource_frame _ _ _).1] at hr
    exact hdb r hr

/-- **Exactly which sequences of events keep the accounts right**: those in which, at every SMI of a
timer, every child of it was registered for the interval the timer is programmed to. -/
theorem along_accounted_iff (P : PchHardware H) (hw : H) (events : List (TimerEvent H)) :
    Along (timerNext P) (fun s event ↦ Accounted (timerNext P s event)) (initialTimerRun hw) events ↔
      Along (timerNext P) TimerSmiExact (initialTimerRun hw) events := by
  have hpres : ∀ (s : TimerRun H) (event : TimerEvent H),
      (∀ r ∈ s.core.pch.callbackDataBase, CoreRecordOk r) ∧ Accounted s → True →
        Accounted (timerNext P s event) →
          (∀ r ∈ (timerNext P s event).core.pch.callbackDataBase, CoreRecordOk r) ∧
            Accounted (timerNext P s event) :=
    fun s event hs _ hnext ↦ ⟨coreRecordOk_timerNext hs.1 event, hnext⟩
  have hiff : ∀ (s : TimerRun H) (event : TimerEvent H),
      (∀ r ∈ s.core.pch.callbackDataBase, CoreRecordOk r) ∧ Accounted s → True →
        (Accounted (timerNext P s event) ↔ TimerSmiExact s event) :=
    fun s event hs _ ↦ accounted_timerNext_iff hs.1 hs.2 event
  have hinit : (∀ r ∈ (initialTimerRun hw).core.pch.callbackDataBase, CoreRecordOk r) ∧
      Accounted (initialTimerRun hw) :=
    ⟨fun _ hr ↦ absurd hr List.not_mem_nil, fun _ hr _ ↦ absurd hr List.not_mem_nil,
      fun _ hc ↦ absurd hc List.not_mem_nil⟩
  exact along_iff_of_invariant hpres hiff hinit (along_of_forall (fun _ _ ↦ trivial) _ events)

end Accounting

/-- The registration of a timer child with a callback. -/
def timerChild (period smiTickInterval : Nat) : TimerEvent (PchSmmAddress → BitVec 64) :=
  .register ⟨some 1, .periodicTimer period smiTickInterval,
    ⟨⟨2, 1, 12⟩, 0x0A0341D0, 0, ⟨1, 1, 6⟩, 20, 0⟩, none, true⟩

/-- A child for 64 seconds and one for 8 seconds: the first SMI comes after 8 seconds, and the first
child is called back, 56 seconds early. -/
theorem not_along_accounted_shared :
    ¬ ∀ events, Along (timerNext statusFile) (fun s event ↦ Accounted (timerNext statusFile s event))
      (initialTimerRun fun _ ↦ 0) events := by
  intro h
  have hrun := h [timerChild 640000000 640000000, timerChild 80000000 80000000,
    .timerSmi .periodicTimer fun _ ↦ 0]
  have hcallback := hrun.2.2.1.callbacks ⟨640000000, 80000000, 640000000⟩ (by decide)
  exact absurd hcallback.2 (by decide)

end PurleyFirmware.PchSmi
