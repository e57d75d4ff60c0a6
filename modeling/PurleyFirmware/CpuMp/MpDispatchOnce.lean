import PurleyFirmware.CpuMp.MpDispatch

/-!
# StartupAllAPs dispatches once

A call of `StartupAllAPs` from its start to its end: the poll for services called before it, the
start of the APs, and the stretch in which they run. While an AP is active its next step leaves less
work. When none is, an AP has finished or all are collected (`Dispatching.exists_target`), and the
poll gets there.
-/

namespace PurleyFirmware.MpService

section

variable {P : MpPlatform} {s t : MpState} {args : AllApsArgs} {task : ApTask} {stage : ℕ → Stage}

/-! ### After the call -/

namespace Over

theorem cpuWaitEvent (h : Over P s args task t) (hleft : NothingLeft P s) {n : ℕ}
    (hn : n < P.numberOfProcessors) : (t.cpu n).waitEvent = none := by
  cases hidle : s.idleAP n with
  | true => exact h.noEvent n hn hidle
  | false =>
    rw [h.others n hn hidle]
    exact hleft.cpuWaitEvent n hn

theorem withControl (h : Over P s args task t) {control : BspControl}
    (hcontrol : control = .outside ∨ ∃ k, control = .checkTheseAPs k .checkAPsStatus) :
    Over P s args task { t with control := control } :=
  ⟨h.bspNumber, h.atStage, h.cpuList, h.noEvent, h.others, h.waitEvent, h.stopCheckAPsStatus, h.signaled, h.returned,
    hcontrol⟩

/-- No AP does anything. -/
theorem apStep (h : Over P s args task t) (hleft : NothingLeft P s) (n : ℕ) : t.apStep P n = t := by
  by_cases hn : n < P.numberOfProcessors
  · cases hidle : s.idleAP n with
    | true => exact apStep_of_eq ((h.atStage n hn hidle).apStep_of_not_active (by decide) _)
    | false => exact apStep_of_others hleft h.bspNumber hn (h.others n hn hidle)
  · exact apStep_of_not_mem fun h ↦ hn h.1

/-- It stays over. -/
theorem next (h : Over P s args task t) (hleft : NothingLeft P s) {e : MpEvent}
    (he : DuringCall args e) : Over P s args task (t.next P e) := by
  cases e with
  | ap n =>
    rw [MpState.next, h.apStep hleft]
    exact h
  | bsp expired =>
    rw [MpState.next]
    rcases h.control with hcontrol | ⟨k, hcontrol⟩
    · rw [MpState.bspStep_outside hcontrol]
      exact h
    rcases Nat.lt_or_ge k P.numberOfProcessors with hk | hk
    · have hstep : t.checkTheseStep k expired = t := by
        rw [MpState.checkTheseStep, h.cpuWaitEvent hleft hk]
        rfl
      rw [MpState.bspStep_checkTheseAPs hcontrol hk, hstep]
      exact h.withControl (.inr ⟨_, rfl⟩)
    · rw [MpState.bspStep_updated hcontrol hk]
      exact h.withControl (.inl rfl)
  | timer =>
    rw [MpState.next]
    split
    · rw [MpState.checkAndUpdate, if_neg (by rw [h.waitEvent]; rintro ⟨⟩)]
      exact h.withControl (.inr ⟨0, rfl⟩)
    · exact h
  | startupAllAPs _ => exact he.elim
  | startupThisAP _ => exact he.elim
  | enableDisableAP _ _ => exact he.elim
  | switchBSP _ _ => exact he.elim

theorem complete (h : Over P s args task t) : Complete s args t := by
  rw [Complete]
  split
  · exact h.returned
  next e hevent =>
    rw [h.signaled, hevent]
    rfl

end Over

/-- Where an AP of the call begins. -/
def startStage (P : MpPlatform) (s : MpState) (args : AllApsArgs) (n : ℕ) : Stage :=
  if args.singleThread && (s.listed 0 P.numberOfProcessors).anyListed n then .waiting
  else if (s.cpu n).apLoopMode = .apInHltLoop then .starting
  else .signaled

theorem startStage_ne_collected (n : ℕ) : startStage P s args n ≠ .collected := by
  rw [startStage]
  split_ifs
  all_goals rintro ⟨⟩

theorem listed_cpu {n : ℕ} (hn : n < P.numberOfProcessors) :
    (s.listed 0 P.numberOfProcessors).cpu n = { s.cpu n with cpuList := s.idleAP n } := by
  rw [MpState.listed]
  dsimp only
  rw [if_pos ⟨Nat.zero_le n, hn⟩]

theorem anyListed_listed_iff {n : ℕ} (hn : n ≤ P.numberOfProcessors) :
    (s.listed 0 P.numberOfProcessors).anyListed n = true ↔ ∃ m < n, s.idleAP m = true := by
  rw [MpState.anyListed_iff]
  refine exists_congr fun m ↦ and_congr_right fun hm ↦ ?_
  rw [listed_cpu (Nat.lt_of_lt_of_le hm hn)]

theorem startStage_eq_waiting_iff {n : ℕ} (hn : n < P.numberOfProcessors) :
    startStage P s args n = .waiting ↔ args.singleThread = true ∧ ∃ m < n, s.idleAP m = true := by
  rw [← anyListed_listed_iff (Nat.le_of_lt hn), ← Bool.and_eq_true_iff, startStage]
  split_ifs with hwait
  · exact iff_of_true rfl hwait
  · exact iff_of_false (by rintro ⟨⟩) hwait
  · exact iff_of_false (by rintro ⟨⟩) hwait

/-- The record of an AP that is started. -/
theorem allStarted_cpu {n : ℕ} (hn : n < P.numberOfProcessors) (hidle : s.idleAP n = true) :
    (s.allStarted P args).cpu n
      = if args.singleThread && (s.listed 0 P.numberOfProcessors).anyListed n then
          { s.cpu n with cpuList := s.idleAP n, state := .ready }
        else { s.cpu n with cpuList := s.idleAP n, state := .ready }.wakeUp P args.procedure := by
  rw [MpState.allStarted, MpState.startedUpTo]
  dsimp only
  rw [listed_cpu hn, if_pos ⟨hn, hidle⟩, MpState.started]
  dsimp only
  rw [listed_cpu hn]
  rfl

theorem waitEvent_allStarted {n : ℕ} (hn : n < P.numberOfProcessors) (hidle : s.idleAP n = true) :
    ((s.allStarted P args).cpu n).waitEvent = (s.cpu n).waitEvent := by
  rw [allStarted_cpu hn hidle]
  split
  · rfl
  · exact (Processor.wakeUp_frame _ _).2

/-- An AP of the call after its start. -/
theorem atStage_started (hleft : NothingLeft P s) (hprocedure : args.procedure = some task) {n : ℕ}
    (hn : n < P.numberOfProcessors) (hidle : s.idleAP n = true) :
    AtStage P task (s.cpu n).ran (startStage P s args n) ((s.allStarted P args).cpu n) := by
  have hbsp : n ≠ s.bspNumber := of_decide_eq_true (Bool.and_eq_true_iff.1 hidle).1
  obtain ⟨hap, hsignal⟩ := hleft.atRest n hn hbsp
  have hready : AtStage P task (s.cpu n).ran .waiting
      { s.cpu n with cpuList := s.idleAP n, state := .ready } := by
    refine ⟨rfl, hap, fun b hb ↦ ?_, by rintro ⟨⟩, rfl, hleft.wakeable n hn hbsp, by rintro ⟨⟩⟩
    exact hsignal.trans (Option.some.inj hb)
  rw [allStarted_cpu hn hidle, startStage, hprocedure]
  split
  · exact hready
  · exact hready.wakeUp

/-- The call is on. -/
theorem dispatching_start (haccepted : Accepted P s args task) (hleft : NothingLeft P s)
    (hsome : ∃ n < P.numberOfProcessors, s.idleAP n = true) :
    Dispatching P s args task (startStage P s args) (s.startAllAPs P args) ∧
      Polling P args (s.startAllAPs P args) := by
  have hcount : (s.allStarted P args).startCount ≠ 0 := by
    rw [MpState.startCount_allStarted, Ne, MpState.countListed_eq_zero_iff]
    obtain ⟨n, hn, hidle⟩ := hsome
    intro hnone
    have hunlisted := hnone n hn
    rw [MpState.cpuList_allStarted args hn, hidle] at hunlisted
    cases hunlisted
  have hfunction : (s.allStarted P args).apFunction = true := by
    have hany : (s.listed 0 P.numberOfProcessors).anyListed P.numberOfProcessors = true :=
      (anyListed_listed_iff (Nat.le_refl _)).2 hsome
    change (s.apFunction || (s.listed 0 P.numberOfProcessors).anyListed P.numberOfProcessors) = true
    rw [hany, Bool.or_true]
  have hon (u : MpState) (hu : u = { s.allStarted P args with
      procedure := args.procedure
      singleThread := args.singleThread
      waitEvent := args.waitEvent
      expectedTime := args.timeout
      failedCpuList := u.failedCpuList
      control := u.control
      returned := u.returned
      stopCheckAPsStatus := u.stopCheckAPsStatus }) :
      Dispatching P s args task (startStage P s args) u := by
    rw [hu]
    refine ⟨⟨rfl, hfunction, haccepted.procedure, rfl, rfl, rfl, rfl, fun n hn hidle ↦ ?_,
      fun n hn hidle ↦ ?_, fun n hn hidle ↦ ?_, fun n hn hidle ↦ ?_, ?_,
      fun hsingle n m hlt hm hidlen _ _ ↦ ?_⟩, fun n hn hidle hwait ↦ ?_⟩
    · exact atStage_started hleft haccepted.procedure hn hidle
    · rw [decide_eq_true (startStage_ne_collected n), ← hidle]
      exact MpState.cpuList_allStarted args hn
    · exact (waitEvent_allStarted hn hidle).trans (hleft.cpuWaitEvent n hn)
    · exact MpState.allStarted_cpu_of_not_idle args hn hidle
    · exact (MpState.startCount_allStarted args).trans (Nat.zero_add _).symm
    · exact (startStage_eq_waiting_iff hm).2 ⟨hsingle, n, hlt, hidlen⟩
    · obtain ⟨hsingle, m, hlt, hidlem⟩ := (startStage_eq_waiting_iff hn).1 hwait
      exact ⟨hsingle, m, hlt, hidlem, startStage_ne_collected m⟩
  rw [MpState.startAllAPs_of_not_busy haccepted.idle, if_neg hcount]
  dsimp only
  split
  next hevent => exact ⟨hon _ rfl, .outside ⟨hevent, rfl, rfl⟩ rfl⟩
  next hevent =>
    have hnone : args.waitEvent = none := Option.not_isSome_iff_eq_none.1 hevent
    exact ⟨hon _ rfl, .blocking hnone haccepted.returned rfl (Nat.zero_le _)⟩

/-- A call for which no AP is enabled is over. -/
theorem over_start (haccepted : Accepted P s args task) (hleft : NothingLeft P s)
    (hnone : ∀ n < P.numberOfProcessors, s.idleAP n = false) (hevent : args.waitEvent = none) :
    Over P s args task (s.startAllAPs P args) := by
  have hcount : (s.allStarted P args).startCount = 0 := by
    rw [MpState.startCount_allStarted, MpState.countListed_eq_zero_iff]
    intro n hn
    rw [MpState.cpuList_allStarted args hn, hnone n hn]
  rw [MpState.startAllAPs_of_not_busy haccepted.idle, if_pos hcount]
  have hnever : ∀ n < P.numberOfProcessors, s.idleAP n ≠ true := by
    intro n hn hidle
    rw [hnone n hn] at hidle
    cases hidle
  refine ⟨rfl, fun n hn hidle ↦ absurd hidle (hnever n hn),
    fun n hn hidle ↦ absurd hidle (hnever n hn), fun n hn hidle ↦ absurd hidle (hnever n hn),
    fun n hn hidle ↦ ?_, hleft.waitEvent, rfl, ?_, rfl, .inl rfl⟩
  · exact MpState.allStarted_cpu_of_not_idle args hn hidle
  · rw [hevent, Option.toList_none, List.append_nil]
    rfl

/-! ### Runs of a call -/

section

variable {u : MpState} {run : ℕ → MpEvent} {i : ℕ}

end

/-! ### The call as a whole -/

theorem NothingLeft.of_quiet (hquiet : Quiet P s) (hwakeable : Wakeable P s) (k : ℕ) :
    NothingLeft P (entering args s k) :=
  ⟨hquiet.waitEvent, hquiet.cpuWaitEvent, hquiet.loop, hwakeable⟩

theorem Accepted.of_quiet (hquiet : Quiet P s) (hprocedure : args.procedure = some task) (k : ℕ) :
    Accepted P (entering args s k) args task := by
  refine ⟨hprocedure, rfl, fun n hn hbusy ↦ ?_⟩
  rcases hquiet.state n hn hbusy.1 with hidle | hdisabled
  · exact hbusy.2.2 hidle
  · exact hbusy.2.1 hdisabled

/-- That poll finds nothing, and behind it the APs are started. -/
theorem next_entering (hquiet : Quiet P s) (hwakeable : Wakeable P s) {k : ℕ}
    (hk : k ≤ P.numberOfProcessors) {e : MpEvent} (he : DuringCall args e) :
    (entering args s k).next P e = entering args s k ∧ (¬ ∃ expired, e = .bsp expired) ∨
    (entering args s k).next P e = entering args s (k + 1) ∧ k < P.numberOfProcessors ∨
    (entering args s k).next P e
      = (entering args s P.numberOfProcessors).startAllAPs P args ∧ k = P.numberOfProcessors := by
  have hleft : NothingLeft P (entering args s k) := .of_quiet hquiet hwakeable k
  cases e with
  | ap n =>
    left
    refine ⟨?_, by rintro ⟨_, ⟨⟩⟩⟩
    rw [MpState.next]
    by_cases hn : n < P.numberOfProcessors ∧ n ≠ s.bspNumber
    · obtain ⟨hap, hsignal⟩ := hleft.atRest n hn.1 hn.2
      exact apStep_of_eq (by simp [Processor.apStep, hap, hsignal])
    · exact apStep_of_not_mem hn
  | bsp expired =>
    right
    rcases Nat.lt_or_eq_of_le hk with hlt | rfl
    · left
      have hstep : (entering args s k).checkTheseStep k expired = entering args s k := by
        rw [MpState.checkTheseStep, hleft.cpuWaitEvent k hlt]
        rfl
      rw [MpState.next, MpState.bspStep_checkTheseAPs rfl hlt, hstep]
      exact ⟨rfl, hlt⟩
    · right
      rw [MpState.next, MpState.bspStep_updated rfl (Nat.le_refl _)]
      exact ⟨rfl, rfl⟩
  | timer =>
    left
    refine ⟨?_, by rintro ⟨_, ⟨⟩⟩⟩
    rw [MpState.next, if_neg]
    exact fun hboth ↦ Bool.noConfusion hboth.1
  | startupAllAPs _ => exact he.elim
  | startupThisAP _ => exact he.elim
  | enableDisableAP _ _ => exact he.elim
  | switchBSP _ _ => exact he.elim

/-- The states of a call in which the APs have been started. -/
def Started (P : MpPlatform) (s : MpState) (args : AllApsArgs) (task : ApTask) (t : MpState) : Prop :=
  (∃ stage, Dispatching P (entering args s P.numberOfProcessors) args task stage t ∧
    Polling P args t) ∨
  Over P (entering args s P.numberOfProcessors) args task t

/-- The states of a call. -/
def Called (P : MpPlatform) (s : MpState) (args : AllApsArgs) (task : ApTask) (t : MpState) : Prop :=
  (∃ k ≤ P.numberOfProcessors, t = entering args s k) ∨ Started P s args task t

/-- The APs are started. -/
theorem started_start (hquiet : Quiet P s) (hwakeable : Wakeable P s)
    (hprocedure : args.procedure = some task)
    (hsome : (∃ n < P.numberOfProcessors, s.idleAP n = true) ∨ args.waitEvent = none) :
    Started P s args task ((entering args s P.numberOfProcessors).startAllAPs P args) := by
  have haccepted : Accepted P (entering args s P.numberOfProcessors) args task :=
    .of_quiet hquiet hprocedure _
  have hleft : NothingLeft P (entering args s P.numberOfProcessors) :=
    .of_quiet hquiet hwakeable _
  by_cases hidle : ∃ n < P.numberOfProcessors, s.idleAP n = true
  · exact .inl ⟨_, dispatching_start haccepted hleft hidle⟩
  · refine .inr (over_start haccepted hleft (fun n hn ↦ ?_) (hsome.resolve_left hidle))
    exact Bool.eq_false_iff.2 fun htrue ↦ hidle ⟨n, hn, htrue⟩

/-- **A step of the call.** -/
theorem Called.next (hquiet : Quiet P s) (hwakeable : Wakeable P s)
    (hprocedure : args.procedure = some task)
    (hsome : (∃ n < P.numberOfProcessors, s.idleAP n = true) ∨ args.waitEvent = none)
    (h : Called P s args task t) {e : MpEvent} (he : DuringCall args e) :
    Called P s args task (t.next P e) := by
  have hleft : NothingLeft P (entering args s P.numberOfProcessors) :=
    .of_quiet hquiet hwakeable _
  rcases h with ⟨k, hk, rfl⟩ | ⟨stage, h, hpolling⟩ | hover
  · rcases next_entering hquiet hwakeable hk he with ⟨heq, -⟩ | ⟨heq, hlt⟩ | ⟨heq, -⟩
    · rw [heq]
      exact .inl ⟨k, hk, rfl⟩
    · rw [heq]
      exact .inl ⟨k + 1, hlt, rfl⟩
    · rw [heq]
      exact .inr (started_start hquiet hwakeable hprocedure hsome)
  · rcases h.next hleft hpolling he with hsame | (hover | ⟨stage', -, hprogress⟩) | ⟨h, hpolling, -⟩
    · rw [hsame]
      exact .inr (.inl ⟨stage, h, hpolling⟩)
    · exact .inr (.inr hover)
    · exact .inr (.inl ⟨stage', hprogress⟩)
    · exact .inr (.inl ⟨stage, h, hpolling⟩)
  · exact .inr (.inr (hover.next hleft he))

end

end PurleyFirmware.MpService
