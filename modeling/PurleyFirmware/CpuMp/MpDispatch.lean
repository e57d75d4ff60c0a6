import PurleyFirmware.CpuMp.MpStages
import PurleyFirmware.CpuMp.MpStartup
import PurleyFirmware.Foundation.FairRun

/-!
# A call of StartupAllAPs and its steps

What may happen in a call that is made when nothing is left of earlier calls, if it does not time out
and no other service is called before it is over, and what it is to come to (`DispatchesOnce`). The
APs and the BSP take turns in any order, and a call with an event is polled by the timer.

A step of an AP moves it to its next stage, a poll takes an AP that has finished off the list, and
with `SingleThread` wakes the next one. Which one that is follows from the list alone: the APs run in
the order of their numbers, so behind the first one that is listed all are waiting (`Stages.single`).
At the end of a poll the counters agree if and only if nothing is listed, and then every AP has been
through all stages (`Dispatching.next`).
-/

namespace PurleyFirmware.MpService

/-! ### The call -/

/-- What may happen until the call is over: steps of APs, polls, and the timer that starts one. If
the call has a timeout, it does not expire. -/
def DuringCall (args : AllApsArgs) : MpEvent → Prop
  | .ap _ | .timer => True
  | .bsp expired => expired = true → args.timeout = false
  | _ => False

/-- The call is over: it has returned, or has signaled its event. -/
def Complete (s : MpState) (args : AllApsArgs) (t : MpState) : Prop :=
  match args.waitEvent with
  | none => t.returned = some .success
  | some e => t.signaled = s.signaled ++ [e]

/-- **A state that the call comes to.** -/
structure DispatchState (P : MpPlatform) (s : MpState) (args : AllApsArgs) (task : ApTask)
    (t : MpState) : Prop where
  /-- Every AP of the call has run the procedure at most once, and nothing else. -/
  atMostOnce : ∀ n < P.numberOfProcessors, s.idleAP n = true →
    (t.cpu n).ran = (s.cpu n).ran ∨ (t.cpu n).ran = (s.cpu n).ran ++ [task]
  /-- The other APs have run nothing. -/
  others : ∀ n < P.numberOfProcessors, s.idleAP n = false → (t.cpu n).ran = (s.cpu n).ran
  /-- With `SingleThread` one AP runs at a time. -/
  oneAtATime : args.singleThread = true → ∀ n < P.numberOfProcessors, ∀ m < P.numberOfProcessors,
    n ≠ s.bspNumber → m ≠ s.bspNumber → ∀ task₁ task₂, (t.cpu n).ap = .running task₁ →
      (t.cpu m).ap = .running task₂ → n = m
  /-- No event is signaled but that of the call, and it once. -/
  signaled : t.signaled = s.signaled ∨ t.signaled = s.signaled ++ args.waitEvent.toList
  /-- Once the call is over, every AP of it has run the procedure and is idle again. -/
  complete : Complete s args t → ∀ n < P.numberOfProcessors, (t.cpu n).cpuList = false ∧
    (s.idleAP n = true → (t.cpu n).ran = (s.cpu n).ran ++ [task] ∧ (t.cpu n).state = .idle ∧
      (t.cpu n).ap = .loop)

/-- The call before it has polled processor `k` for the services called before it. -/
def entering (args : AllApsArgs) (s : MpState) (k : ℕ) : MpState :=
  { s with
    stopCheckAPsStatus := true
    returned := none
    control := .checkTheseAPs k (.startupAllAPs args) }

/-- **The call is accepted**: the polls before it are over, and all enabled APs are idle. -/
structure Accepted (P : MpPlatform) (s : MpState) (args : AllApsArgs) (task : ApTask) : Prop where
  procedure : args.procedure = some task
  returned : s.returned = none
  idle : ∀ n < P.numberOfProcessors, ¬ s.BusyAP n

/-- **Nothing is left of earlier calls.** -/
structure NothingLeft (P : MpPlatform) (s : MpState) : Prop where
  waitEvent : s.waitEvent = none
  cpuWaitEvent : ∀ n < P.numberOfProcessors, (s.cpu n).waitEvent = none
  atRest : ∀ n < P.numberOfProcessors, n ≠ s.bspNumber →
    (s.cpu n).ap = .loop ∧ (s.cpu n).startupApSignal = false
  wakeable : Wakeable P s

/-- The work that is left. -/
def work (P : MpPlatform) (s : MpState) (stage : ℕ → Stage) : ℕ :=
  tally P.numberOfProcessors (fun r ↦ r) fun n ↦ if s.idleAP n then (stage n).rank else 0

/-- The APs of the call are at these stages, and the others are as they were. -/
structure Stages (P : MpPlatform) (s : MpState) (args : AllApsArgs) (task : ApTask)
    (stage : ℕ → Stage) (t : MpState) : Prop where
  bspNumber : t.bspNumber = s.bspNumber
  apFunction : t.apFunction = true
  procedure : t.procedure = some task
  singleThread : t.singleThread = args.singleThread
  expectedTime : t.expectedTime = args.timeout
  waitEvent : t.waitEvent = args.waitEvent
  signaled : t.signaled = s.signaled
  atStage : ∀ n < P.numberOfProcessors, s.idleAP n = true →
    AtStage P task (s.cpu n).ran (stage n) (t.cpu n)
  cpuList : ∀ n < P.numberOfProcessors, s.idleAP n = true →
    (t.cpu n).cpuList = decide (stage n ≠ .collected)
  noEvent : ∀ n < P.numberOfProcessors, s.idleAP n = true → (t.cpu n).waitEvent = none
  others : ∀ n < P.numberOfProcessors, s.idleAP n = false →
    t.cpu n = { s.cpu n with cpuList := false }
  counts : t.startCount = t.finishCount + t.countListed P.numberOfProcessors
  /-- Behind the first one that is listed, all wait. -/
  single : args.singleThread = true → ∀ n m, n < m → m < P.numberOfProcessors →
    s.idleAP n = true → s.idleAP m = true → stage n ≠ .collected → stage m = .waiting

/-- **While the call is on**, an AP waits only behind another one that is listed. -/
structure Dispatching (P : MpPlatform) (s : MpState) (args : AllApsArgs) (task : ApTask)
    (stage : ℕ → Stage) (t : MpState) : Prop extends Stages P s args task stage t where
  awake : ∀ n < P.numberOfProcessors, s.idleAP n = true → stage n = .waiting →
    args.singleThread = true ∧ ∃ m < n, s.idleAP m = true ∧ stage m ≠ .collected

/-- The call has returned, and the timer polls it. -/
structure Polled (args : AllApsArgs) (t : MpState) : Prop where
  waitEvent : args.waitEvent.isSome = true
  returned : t.returned = some .success
  stopCheckAPsStatus : t.stopCheckAPsStatus = false

/-- Where the BSP is while the call is on. -/
inductive Polling (P : MpPlatform) (args : AllApsArgs) (t : MpState) : Prop
  | blocking {k : ℕ} (hevent : args.waitEvent = none) (hreturned : t.returned = none)
    (hcontrol : t.control = .checkAllAPs k none) (hk : k ≤ P.numberOfProcessors)
  | outside (h : Polled args t) (hcontrol : t.control = .outside)
  | checkAllAPs {k : ℕ} (h : Polled args t)
    (hcontrol : t.control = .checkAllAPs k (some .checkAPsStatus)) (hk : k ≤ P.numberOfProcessors)
  | checkTheseAPs {k : ℕ} (h : Polled args t)
    (hcontrol : t.control = .checkTheseAPs k .checkAPsStatus) (hk : k ≤ P.numberOfProcessors)

/-- **When the call is over.** -/
structure Over (P : MpPlatform) (s : MpState) (args : AllApsArgs) (task : ApTask) (t : MpState) :
    Prop where
  bspNumber : t.bspNumber = s.bspNumber
  atStage : ∀ n < P.numberOfProcessors, s.idleAP n = true →
    AtStage P task (s.cpu n).ran .collected (t.cpu n)
  cpuList : ∀ n < P.numberOfProcessors, s.idleAP n = true → (t.cpu n).cpuList = false
  noEvent : ∀ n < P.numberOfProcessors, s.idleAP n = true → (t.cpu n).waitEvent = none
  others : ∀ n < P.numberOfProcessors, s.idleAP n = false →
    t.cpu n = { s.cpu n with cpuList := false }
  waitEvent : t.waitEvent = none
  stopCheckAPsStatus : t.stopCheckAPsStatus = false
  signaled : t.signaled = s.signaled ++ args.waitEvent.toList
  returned : t.returned = some .success
  control : t.control = .outside ∨ ∃ k, t.control = .checkTheseAPs k .checkAPsStatus

/-- The call is over, or is on with less work left. -/
def Progress (P : MpPlatform) (s : MpState) (args : AllApsArgs) (task : ApTask) (stage : ℕ → Stage)
    (t : MpState) : Prop :=
  Over P s args task t ∨
    ∃ stage', work P s stage' < work P s stage ∧ Dispatching P s args task stage' t ∧
      Polling P args t

/-- How far the BSP is with a poll. -/
def position (P : MpPlatform) (t : MpState) : ℕ :=
  match t.control with
  | .checkAllAPs k _ => k
  | .checkTheseAPs k _ => P.numberOfProcessors + 1 + k
  | .outside | .checkThisAP _ => 2 * P.numberOfProcessors + 2

/-- The BSP goes on with a poll, or begins with one. -/
def GoesOn (P : MpPlatform) (t u : MpState) : Prop :=
  (position P u = position P t + 1 ∨ P.numberOfProcessors ≤ position P t ∧ position P u = 0) ∧
    position P t ≤ 2 * P.numberOfProcessors + 2

/-- Where the poll finds something: an AP that has finished, or at its end that nothing is left. -/
def Target (P : MpPlatform) (s : MpState) (stage : ℕ → Stage) (k : ℕ) : Prop :=
  (k < P.numberOfProcessors ∧ s.idleAP k = true ∧ stage k = .finished) ∨
    (k = P.numberOfProcessors ∧
      ∀ n < P.numberOfProcessors, s.idleAP n = true → stage n = .collected)

section

variable {P : MpPlatform} {s t : MpState} {args : AllApsArgs} {task : ApTask} {stage : ℕ → Stage}

/-- A stage that comes nearer to the end. -/
theorem work_update_lt {n : ℕ} {g : Stage} (hn : n < P.numberOfProcessors)
    (hidle : s.idleAP n = true) (hlt : g.rank < (stage n).rank) :
    work P s (Function.update stage n g) < work P s stage := by
  refine tally_lt_tally (fun m _ ↦ ?_) hn ?_
  · rcases eq_or_ne m n with rfl | hne
    · simp only [Function.update_self, hidle, if_true]
      exact Nat.le_of_lt hlt
    · simp only [Function.update_of_ne hne]
      exact Nat.le_refl _
  · simp only [Function.update_self, hidle, if_true]
    exact hlt

/-- An AP that takes no part does nothing. -/
theorem apStep_of_others {n : ℕ} (hleft : NothingLeft P s) (hbsp : t.bspNumber = s.bspNumber)
    (hn : n < P.numberOfProcessors) (hcpu : t.cpu n = { s.cpu n with cpuList := false }) :
    t.apStep P n = t := by
  by_cases hne : n = s.bspNumber
  · exact apStep_of_not_mem fun h ↦ h.2 (hne.trans hbsp.symm)
  · obtain ⟨hap, hsignal⟩ := hleft.atRest n hn hne
    refine apStep_of_eq ?_
    rw [hcpu]
    simp [Processor.apStep, hap, hsignal]

theorem position_checkAllAPs {k : ℕ} {caller : Option Caller}
    (h : t.control = .checkAllAPs k caller) : position P t = k := by
  rw [position, h]

theorem position_checkTheseAPs {k : ℕ} {caller : Caller} (h : t.control = .checkTheseAPs k caller) :
    position P t = P.numberOfProcessors + 1 + k := by
  rw [position, h]

theorem position_outside (h : t.control = .outside) :
    position P t = 2 * P.numberOfProcessors + 2 := by
  rw [position, h]

theorem Target.le {k : ℕ} (h : Target P s stage k) : k ≤ P.numberOfProcessors := by
  rcases h with ⟨hlt, -⟩ | ⟨rfl, -⟩
  · exact Nat.le_of_lt hlt
  · exact Nat.le_refl _

/-- An AP does not move the BSP. -/
theorem Polling.apStep (h : Polling P args t) (n : ℕ) : Polling P args (t.apStep P n) := by
  have hframe : (t.apStep P n).returned = t.returned ∧
      (t.apStep P n).stopCheckAPsStatus = t.stopCheckAPsStatus := by
    rw [MpState.apStep]
    split
    · exact ⟨rfl, rfl⟩
    · exact ⟨rfl, rfl⟩
  have hpolled (hpolled : Polled args t) : Polled args (t.apStep P n) :=
    ⟨hpolled.waitEvent, hframe.1.trans hpolled.returned,
      hframe.2.trans hpolled.stopCheckAPsStatus⟩
  have hsame := MpState.control_apStep (P := P) (s := t) n
  cases h with
  | blocking hevent hreturned hcontrol hk =>
    exact .blocking hevent (hframe.1.trans hreturned) (hsame.trans hcontrol) hk
  | outside h hcontrol => exact .outside (hpolled h) (hsame.trans hcontrol)
  | checkAllAPs h hcontrol hk => exact .checkAllAPs (hpolled h) (hsame.trans hcontrol) hk
  | checkTheseAPs h hcontrol hk => exact .checkTheseAPs (hpolled h) (hsame.trans hcontrol) hk

/-- A round of the poll returns nothing and does not stop the timer. -/
theorem checkAllStep_frame (k : ℕ) :
    (t.checkAllStep P k).returned = t.returned ∧
      (t.checkAllStep P k).stopCheckAPsStatus = t.stopCheckAPsStatus := by
  by_cases h : (t.cpu k).cpuList = true ∧ (t.cpu k).state = .finished
  · rw [MpState.checkAllStep_of_finished h.1 h.2]
    split
    · split
      · exact ⟨rfl, rfl⟩
      · exact ⟨rfl, rfl⟩
    · exact ⟨rfl, rfl⟩
  · rw [MpState.checkAllStep_of_not_finished h]
    exact ⟨rfl, rfl⟩

/-- The BSP is outside only if the call has returned. -/
theorem Polling.polled (h : Polling P args t) (houtside : t.control = .outside) :
    Polled args t := by
  cases h with
  | blocking _ _ hcontrol => cases hcontrol.symm.trans houtside
  | outside h => exact h
  | checkAllAPs h => exact h
  | checkTheseAPs h => exact h

namespace Stages

/-- Where the BSP is makes no difference. -/
theorem withControl (h : Stages P s args task stage t) (control : BspControl) :
    Stages P s args task stage { t with control := control } :=
  ⟨h.bspNumber, h.apFunction, h.procedure, h.singleThread, h.expectedTime, h.waitEvent, h.signaled,
    h.atStage, h.cpuList, h.noEvent, h.others, h.counts, h.single⟩

theorem cpuWaitEvent (h : Stages P s args task stage t) (hleft : NothingLeft P s) {n : ℕ}
    (hn : n < P.numberOfProcessors) : (t.cpu n).waitEvent = none := by
  cases hidle : s.idleAP n with
  | true => exact h.noEvent n hn hidle
  | false =>
    rw [h.others n hn hidle]
    exact hleft.cpuWaitEvent n hn

/-- What is listed has not been collected. -/
theorem listed_iff (h : Stages P s args task stage t) {n : ℕ} (hn : n < P.numberOfProcessors) :
    (t.cpu n).cpuList = true ↔ s.idleAP n = true ∧ stage n ≠ .collected := by
  cases hidle : s.idleAP n with
  | true => rw [h.cpuList n hn hidle, decide_eq_true_iff, and_iff_right rfl]
  | false =>
    rw [h.others n hn hidle]
    exact ⟨fun h ↦ Bool.noConfusion h, fun h ↦ Bool.noConfusion h.1⟩

/-- **An AP of the call changes its stage.** -/
theorem update (h : Stages P s args task stage t) {n : ℕ} {g : Stage} {c : Processor}
    {finishCount : ℕ} (hn : n < P.numberOfProcessors) (hidle : s.idleAP n = true)
    (hself : AtStage P task (s.cpu n).ran g c) (hlist : c.cpuList = decide (g ≠ .collected))
    (hevent : c.waitEvent = none)
    (hcounts : finishCount + c.cpuList.toNat = t.finishCount + (t.cpu n).cpuList.toNat)
    (hgoes : stage n = .collected → g = .collected)
    (hfirst : args.singleThread = true → stage n = .waiting →
      ∀ m < n, s.idleAP m = true → stage m = .collected) :
    Stages P s args task (Function.update stage n g)
      { t with cpu := Function.update t.cpu n c, finishCount := finishCount } := by
  refine ⟨h.bspNumber, h.apFunction, h.procedure, h.singleThread, h.expectedTime, h.waitEvent,
    h.signaled, fun m hm hidlem ↦ ?_, fun m hm hidlem ↦ ?_, fun m hm hidlem ↦ ?_,
    fun m hm hidlem ↦ ?_, ?_, fun hsingle m m' hlt hm' hidlem hidlem' hne ↦ ?_⟩
  · dsimp only
    rcases eq_or_ne m n with rfl | hne
    · rw [Function.update_self, Function.update_self]
      exact hself
    · rw [Function.update_of_ne hne, Function.update_of_ne hne]
      exact h.atStage m hm hidlem
  · dsimp only
    rcases eq_or_ne m n with rfl | hne
    · rw [Function.update_self, Function.update_self]
      exact hlist
    · rw [Function.update_of_ne hne, Function.update_of_ne hne]
      exact h.cpuList m hm hidlem
  · dsimp only
    rcases eq_or_ne m n with rfl | hne
    · rw [Function.update_self]
      exact hevent
    · rw [Function.update_of_ne hne]
      exact h.noEvent m hm hidlem
  · dsimp only
    have hne : m ≠ n := by
      rintro rfl
      rw [hidle] at hidlem
      cases hidlem
    rw [Function.update_of_ne hne]
    exact h.others m hm hidlem
  · have htally : tally P.numberOfProcessors (fun c ↦ c.cpuList.toNat) (Function.update t.cpu n c)
        + (t.cpu n).cpuList.toNat = t.countListed P.numberOfProcessors + c.cpuList.toNat :=
      tally_update hn (fun c ↦ c.cpuList.toNat) t.cpu c
    have hold := h.counts
    rw [MpState.countListed]
    dsimp only
    omega
  · rcases eq_or_ne m' n with rfl | hne'
    · rw [Function.update_of_ne (Nat.ne_of_lt hlt)] at hne
      have hwait := h.single hsingle m m' hlt hm' hidlem hidlem' hne
      exact absurd (hfirst hsingle hwait m hlt hidlem) hne
    · rw [Function.update_of_ne hne']
      refine h.single hsingle m m' hlt hm' hidlem hidlem' fun hc ↦ hne ?_
      rcases eq_or_ne m n with rfl | hnem
      · rw [Function.update_self, hgoes hc]
      · rw [Function.update_of_ne hnem, hc]

/-- The poll takes an AP that has finished off the list. -/
theorem collect (h : Stages P s args task stage t) {n : ℕ} (hn : n < P.numberOfProcessors)
    (hidle : s.idleAP n = true) (hfinished : stage n = .finished) :
    Stages P s args task (Function.update stage n .collected) (t.collected n) := by
  have hat := h.atStage n hn hidle
  rw [hfinished] at hat
  refine h.update hn hidle (hat.collect rfl rfl rfl rfl rfl) rfl (h.noEvent n hn hidle) ?_
    (fun _ ↦ rfl) fun _ hwait ↦ ?_
  · have hlist : (t.cpu n).cpuList = true := by
      rw [h.cpuList n hn hidle, hfinished]
      rfl
    rw [hlist, Bool.toNat_true]
    rfl
  · rw [hfinished] at hwait
    cases hwait

/-- The poll wakes an AP if those before it have been collected. -/
theorem wakeUpAp (h : Stages P s args task stage t) {n : ℕ} (hn : n < P.numberOfProcessors)
    (hidle : s.idleAP n = true) (hwaiting : stage n = .waiting)
    (hfirst : ∀ m < n, s.idleAP m = true → stage m = .collected) :
    ∃ g : Stage, g.Active ∧
      Stages P s args task (Function.update stage n g) (t.wakeUpAp P n (some task)) := by
  have hat := h.atStage n hn hidle
  rw [hwaiting] at hat
  have hwoken : t.wakeUpAp P n (some task)
      = { t with
          cpu := Function.update t.cpu n ((t.cpu n).wakeUp P (some task))
          finishCount := t.finishCount } := by
    rw [MpState.wakeUpAp, MpState.modify, ← h.apFunction]
  have hcollected : stage n ≠ .collected := by
    rw [hwaiting]
    rintro ⟨⟩
  obtain ⟨hlist, hevent⟩ := Processor.wakeUp_frame (P := P) (some task) (t.cpu n)
  have hactive : Stage.Active
      (if (t.cpu n).apLoopMode = .apInHltLoop then .starting else .signaled) := by
    split
    · decide
    · decide
  rw [hwoken]
  refine ⟨_, hactive, h.update hn hidle hat.wakeUp ?_ (hevent.trans (h.noEvent n hn hidle))
    (by rw [hlist]) (fun hc ↦ absurd hc hcollected) fun _ _ ↦ hfirst⟩
  rw [hlist, h.cpuList n hn hidle]
  exact decide_eq_decide.2 (iff_of_true hcollected hactive.2.2)

end Stages

namespace Dispatching

/-- An AP moves to its next stage. -/
theorem apStep_of_active (h : Dispatching P s args task stage t) {n : ℕ}
    (hn : n < P.numberOfProcessors) (hidle : s.idleAP n = true) (hactive : (stage n).Active) :
    Dispatching P s args task (Function.update stage n (stage n).next) (t.apStep P n) := by
  have hbsp : n ≠ t.bspNumber := by
    intro hbsp
    rw [h.bspNumber] at hbsp
    rw [MpState.idleAP, decide_eq_false (not_not.2 hbsp)] at hidle
    cases hidle
  have hstep : t.apStep P n
      = { t with cpu := Function.update t.cpu n ((t.cpu n).apStep P true) } := by
    rw [MpState.apStep, if_pos ⟨hn, hbsp⟩, MpState.modify, h.apFunction]
  obtain ⟨hlist, hevent, -⟩ := Processor.apStep_frame (P := P) true (t.cpu n)
  have hlisted : ((t.cpu n).apStep P true).cpuList = decide ((stage n).next ≠ .collected) := by
    rw [hlist, h.cpuList n hn hidle]
    exact decide_eq_decide.2 (not_congr Stage.next_eq_collected_iff.symm)
  rw [hstep]
  refine { toStages := h.toStages.update hn hidle (h.atStage n hn hidle).apStep hlisted
             (hevent.trans (h.noEvent n hn hidle)) (by rw [hlist])
             Stage.next_eq_collected_iff.2 fun _ hwait ↦ absurd hwait hactive.1
           awake := fun m hm hidlem hwait ↦ ?_ }
  have hwait' : stage m = .waiting := by
    rcases eq_or_ne m n with rfl | hne
    · rw [Function.update_self] at hwait
      exact Stage.next_eq_waiting_iff.1 hwait
    · rwa [Function.update_of_ne hne] at hwait
  obtain ⟨hsingle, m', hlt, hidlem', hne⟩ := h.awake m hm hidlem hwait'
  refine ⟨hsingle, m', hlt, hidlem', fun hc ↦ hne ?_⟩
  rcases eq_or_ne m' n with rfl | hne'
  · rw [Function.update_self] at hc
    exact Stage.next_eq_collected_iff.1 hc
  · rwa [Function.update_of_ne hne'] at hc

/-- With `SingleThread` the next one to be woken is the lowest one listed, which has waited. -/
theorem nextWaiting (h : Dispatching P s args task stage t) (hsingle : args.singleThread = true)
    {k next : ℕ} (hk : k < P.numberOfProcessors) (hidle : s.idleAP k = true)
    (hfinished : stage k = .finished)
    (hnext : (t.collected k).getNextWaitingProcessorNumber P = some next) :
    next < P.numberOfProcessors ∧ s.idleAP next = true ∧
      Function.update stage k .collected next = .waiting ∧
      ∀ m < next, s.idleAP m = true → Function.update stage k .collected m = .collected := by
  have hcollect := h.collect hk hidle hfinished
  obtain ⟨hlisted, hmem, hlowest⟩ := List.find?_range_eq_some.1 hnext
  have hn : next < P.numberOfProcessors := List.mem_range.1 hmem
  obtain ⟨hidlen, hstagen⟩ := (hcollect.listed_iff hn).1 hlisted
  have hne : next ≠ k := by
    rintro rfl
    exact hstagen (Function.update_self _ _ _)
  rw [Function.update_of_ne hne] at hstagen
  have hlt : k < next := by
    refine Nat.lt_of_le_of_ne (Nat.not_lt.1 fun hlt ↦ ?_) hne.symm
    have hwait := h.single hsingle next k hlt hk hidlen hidle hstagen
    rw [hfinished] at hwait
    cases hwait
  have hwaiting : Function.update stage k .collected next = .waiting := by
    rw [Function.update_of_ne hne]
    refine h.single hsingle k next hlt hn hidle hidlen ?_
    rw [hfinished]
    rintro ⟨⟩
  have hfirst : ∀ m < next, s.idleAP m = true →
      Function.update stage k .collected m = .collected := by
    intro m hm hidlem
    by_contra hne
    have hlistedm := (hcollect.listed_iff (Nat.lt_trans hm hn)).2 ⟨hidlem, hne⟩
    have hunlisted := hlowest m hm
    rw [hlistedm] at hunlisted
    cases hunlisted
  exact ⟨hn, hidlen, hwaiting, hfirst⟩

/-- **The poll finds an AP finished.** With `SingleThread` the next one is woken. -/
theorem checkAllStep (h : Dispatching P s args task stage t) {k : ℕ} (hk : k < P.numberOfProcessors)
    (hidle : s.idleAP k = true) (hfinished : stage k = .finished) :
    ∃ stage', work P s stage' < work P s stage ∧
      Dispatching P s args task stage' (t.checkAllStep P k) := by
  have hcollect := h.collect hk hidle hfinished
  have hat := h.atStage k hk hidle
  rw [hfinished] at hat
  have hwork : work P s (Function.update stage k .collected) < work P s stage := by
    refine work_update_lt hk hidle ?_
    rw [hfinished]
    decide
  have hlisted : (t.cpu k).cpuList = true := by
    rw [h.cpuList k hk hidle, hfinished]
    rfl
  rw [MpState.checkAllStep_of_finished hlisted hat.state, h.singleThread]
  cases hsingle : args.singleThread with
  | false =>
    refine ⟨_, hwork, { toStages := hcollect, awake := fun m hm hidlem hwait ↦ ?_ }⟩
    have hne : m ≠ k := by
      rintro rfl
      rw [Function.update_self] at hwait
      cases hwait
    rw [Function.update_of_ne hne] at hwait
    exact absurd (h.awake m hm hidlem hwait).1 (by rw [hsingle]; rintro ⟨⟩)
  | true =>
    rw [if_pos rfl]
    split
    next next hnext =>
      obtain ⟨hn, hidlen, hwaiting, hfirst⟩ := h.nextWaiting hsingle hk hidle hfinished hnext
      obtain ⟨g, hg, hwoken⟩ := hcollect.wakeUpAp hn hidlen hwaiting hfirst
      rw [h.procedure]
      have hgrank : g.rank < (Function.update stage k .collected next).rank := by
        rw [hwaiting]
        exact Stage.rank_lt_of_active hg
      refine ⟨_, Nat.lt_trans (work_update_lt hn hidlen hgrank) hwork,
        { toStages := hwoken, awake := fun m hm hidlem hwait ↦ ?_ }⟩
      have hnem : m ≠ next := by
        rintro rfl
        rw [Function.update_self] at hwait
        exact hg.1 hwait
      rw [Function.update_of_ne hnem] at hwait
      refine ⟨hsingle, next, ?_, hidlen, ?_⟩
      · refine Nat.lt_of_le_of_ne (Nat.not_lt.1 fun hlt ↦ ?_) hnem.symm
        rw [hfirst m hlt hidlem] at hwait
        cases hwait
      · rw [Function.update_self]
        exact hg.2.2
    next hnone =>
      refine ⟨_, hwork, { toStages := hcollect, awake := fun m hm hidlem hwait ↦ ?_ }⟩
      have hlisted : ((t.collected k).cpu m).cpuList = true := by
        refine (hcollect.listed_iff hm).2 ⟨hidlem, ?_⟩
        rw [hwait]
        rintro ⟨⟩
      have hunlisted := List.find?_range_eq_none.1 hnone m hm
      rw [hlisted] at hunlisted
      cases hunlisted

/-- An AP that is not active does nothing. -/
theorem apStep_of_not_active (h : Dispatching P s args task stage t) (hleft : NothingLeft P s)
    {n : ℕ} (hnot : ¬ (n < P.numberOfProcessors ∧ s.idleAP n = true ∧ (stage n).Active)) :
    t.apStep P n = t := by
  by_cases hn : n < P.numberOfProcessors
  · cases hidle : s.idleAP n with
    | true =>
      refine apStep_of_eq ((h.atStage n hn hidle).apStep_of_not_active ?_ _)
      exact fun hactive ↦ hnot ⟨hn, hidle, hactive⟩
    | false => exact apStep_of_others hleft h.bspNumber hn (h.others n hn hidle)
  · exact apStep_of_not_mem fun h ↦ hn h.1

/-- A round of the poll finds an AP finished, or does nothing. -/
theorem checkAllStep_cases (h : Dispatching P s args task stage t) {k : ℕ}
    (hk : k < P.numberOfProcessors) :
    (∃ stage', work P s stage' < work P s stage ∧
      Dispatching P s args task stage' (t.checkAllStep P k)) ∨
    (t.checkAllStep P k = t ∧ ¬ Target P s stage k) := by
  by_cases hfinished : s.idleAP k = true ∧ stage k = .finished
  · exact .inl (h.checkAllStep hk hfinished.1 hfinished.2)
  · right
    refine ⟨MpState.checkAllStep_of_not_finished fun hboth ↦ hfinished ?_, ?_⟩
    · have hidle := ((h.listed_iff hk).1 hboth.1).1
      exact ⟨hidle, (h.atStage k hk hidle).eq_finished hboth.2⟩
    · rintro (⟨-, htarget⟩ | ⟨rfl, -⟩)
      · exact hfinished htarget
      · exact Nat.lt_irrefl _ hk

/-- At the end of a poll the counters agree if nothing is left. -/
theorem counts_iff (h : Dispatching P s args task stage t) :
    t.finishCount = t.startCount ↔
      ∀ n < P.numberOfProcessors, s.idleAP n = true → stage n = .collected := by
  have hzero : t.finishCount = t.startCount ↔ t.countListed P.numberOfProcessors = 0 := by
    rw [h.counts]
    omega
  rw [hzero, MpState.countListed_eq_zero_iff]
  refine forall₂_congr fun n hn ↦ ?_
  rw [← Bool.not_eq_true, h.listed_iff hn, not_and, not_not]

theorem not_target_end (h : Dispatching P s args task stage t)
    (hall : t.finishCount ≠ t.startCount) : ¬ Target P s stage P.numberOfProcessors := by
  rintro (⟨hlt, -⟩ | ⟨-, hcollected⟩)
  · exact Nat.lt_irrefl _ hlt
  · exact hall (h.counts_iff.2 hcollected)

/-- The end of a poll. -/
theorem checkAllEnd (h : Dispatching P s args task stage t) {expired : Bool}
    (hexpired : expired = true → args.timeout = false) :
    t.checkAllEnd P expired
      = (if t.finishCount = t.startCount then .success else .notReady, t) := by
  have htimeout : (t.expectedTime && expired) = false := by
    rw [h.expectedTime]
    cases expired with
    | true => rw [hexpired rfl, Bool.false_and]
    | false => exact Bool.and_false _
  rw [MpState.checkAllEnd, htimeout]
  split
  · rfl
  · rfl

/-- When all have been collected, a state that has returned and signaled is one after the call. -/
theorem callOver (h : Dispatching P s args task stage t)
    (hall : ∀ n < P.numberOfProcessors, s.idleAP n = true → stage n = .collected) {u : MpState}
    (hcpu : u.cpu = t.cpu) (hbsp : u.bspNumber = t.bspNumber) (hwait : u.waitEvent = none)
    (hstop : u.stopCheckAPsStatus = false)
    (hsignaled : u.signaled = s.signaled ++ args.waitEvent.toList)
    (hreturned : u.returned = some .success)
    (hcontrol : u.control = .outside ∨ ∃ k, u.control = .checkTheseAPs k .checkAPsStatus) :
    Over P s args task u := by
  refine ⟨hbsp.trans h.bspNumber, fun n hn hidle ↦ ?_, fun n hn hidle ↦ ?_, fun n hn hidle ↦ ?_,
    fun n hn hidle ↦ ?_, hwait, hstop, hsignaled, hreturned, hcontrol⟩
  · rw [hcpu, ← hall n hn hidle]
    exact h.atStage n hn hidle
  · rw [hcpu, h.cpuList n hn hidle, hall n hn hidle]
    rfl
  · rw [hcpu]
    exact h.noEvent n hn hidle
  · rw [hcpu]
    exact h.others n hn hidle

theorem withControl (h : Dispatching P s args task stage t) (control : BspControl) :
    Dispatching P s args task stage { t with control := control } :=
  ⟨h.toStages.withControl control, h.awake⟩

/-- A round of the poll. -/
theorem bspStep_round (h : Dispatching P s args task stage t) {k : ℕ} {caller : Option Caller}
    {expired : Bool} (hcontrol : t.control = .checkAllAPs k caller) (hk : k < P.numberOfProcessors)
    (hpolling : Polling P args
      { t.checkAllStep P k with control := .checkAllAPs (k + 1) caller }) :
    Progress P s args task stage (t.bspStep P expired) ∨
    (Dispatching P s args task stage (t.bspStep P expired) ∧ Polling P args (t.bspStep P expired) ∧
      GoesOn P t (t.bspStep P expired) ∧ ¬ Target P s stage (position P t)) := by
  rw [MpState.bspStep_checkAllAPs hcontrol hk]
  rcases h.checkAllStep_cases hk with ⟨stage', hlt, hdispatching⟩ | ⟨hsame, htarget⟩
  · exact .inl (.inr ⟨stage', hlt, hdispatching.withControl _, hpolling⟩)
  · rw [hsame] at hpolling ⊢
    refine .inr ⟨h.withControl _, hpolling, ?_, ?_⟩
    · rw [GoesOn, position_checkAllAPs hcontrol, position_checkAllAPs rfl]
      omega
    · rwa [position_checkAllAPs hcontrol]

/-- The end of a poll that the call waits in. -/
theorem bspStep_blocking (h : Dispatching P s args task stage t) {expired : Bool}
    (hexpired : expired = true → args.timeout = false) (hevent : args.waitEvent = none)
    (hreturned : t.returned = none) (hcontrol : t.control = .checkAllAPs P.numberOfProcessors none) :
    Progress P s args task stage (t.bspStep P expired) ∨
    (Dispatching P s args task stage (t.bspStep P expired) ∧ Polling P args (t.bspStep P expired) ∧
      GoesOn P t (t.bspStep P expired) ∧ ¬ Target P s stage (position P t)) := by
  rw [MpState.bspStep_checkedAllAPs hcontrol (Nat.le_refl _), h.checkAllEnd hexpired]
  by_cases hall : t.finishCount = t.startCount
  · rw [if_pos hall]
    refine .inl (.inl (h.callOver (h.counts_iff.1 hall) rfl rfl ?_ rfl ?_ rfl (.inl rfl)))
    · exact h.waitEvent.trans hevent
    · rw [hevent, Option.toList_none, List.append_nil]
      exact h.signaled
  · rw [if_neg hall]
    refine .inr ⟨h.withControl _, .blocking hevent hreturned rfl (Nat.zero_le _), ?_, ?_⟩
    · rw [GoesOn, position_checkAllAPs hcontrol, position_checkAllAPs rfl]
      omega
    · rw [position_checkAllAPs hcontrol]
      exact h.not_target_end hall

/-- The end of a poll by the timer. -/
theorem bspStep_polled (h : Dispatching P s args task stage t) {expired : Bool}
    (hexpired : expired = true → args.timeout = false) (hpolled : Polled args t)
    (hcontrol : t.control = .checkAllAPs P.numberOfProcessors (some .checkAPsStatus)) :
    Progress P s args task stage (t.bspStep P expired) ∨
    (Dispatching P s args task stage (t.bspStep P expired) ∧ Polling P args (t.bspStep P expired) ∧
      GoesOn P t (t.bspStep P expired) ∧ ¬ Target P s stage (position P t)) := by
  rw [MpState.bspStep_checkedAllAPs hcontrol (Nat.le_refl _), h.checkAllEnd hexpired]
  by_cases hall : t.finishCount = t.startCount
  · rw [if_pos hall]
    refine .inl (.inl (h.callOver (h.counts_iff.1 hall) rfl rfl rfl hpolled.stopCheckAPsStatus ?_
      hpolled.returned (.inr ⟨0, rfl⟩)))
    change t.signaled ++ t.waitEvent.toList = _
    rw [h.signaled, h.waitEvent]
  · rw [if_neg hall]
    refine .inr ⟨h.withControl _, .checkTheseAPs ?_ rfl (Nat.zero_le _), ?_, ?_⟩
    · exact ⟨hpolled.waitEvent, hpolled.returned, hpolled.stopCheckAPsStatus⟩
    · rw [GoesOn, position_checkAllAPs hcontrol, position_checkTheseAPs rfl]
      omega
    · rw [position_checkAllAPs hcontrol]
      exact h.not_target_end hall

/-- **A step of the BSP in a service.** -/
theorem bspStep (h : Dispatching P s args task stage t) (hleft : NothingLeft P s)
    (hpolling : Polling P args t) {expired : Bool}
    (hexpired : expired = true → args.timeout = false) :
    (t.control = .outside ∧ t.bspStep P expired = t) ∨
    Progress P s args task stage (t.bspStep P expired) ∨
    (Dispatching P s args task stage (t.bspStep P expired) ∧ Polling P args (t.bspStep P expired) ∧
      GoesOn P t (t.bspStep P expired) ∧ ¬ Target P s stage (position P t)) := by
  cases hpolling with
  | @blocking k hevent hreturned hcontrol hk =>
    right
    rcases Nat.lt_or_eq_of_le hk with hlt | rfl
    · refine h.bspStep_round hcontrol hlt (.blocking hevent ?_ rfl hlt)
      exact (checkAllStep_frame k).1.trans hreturned
    · exact h.bspStep_blocking hexpired hevent hreturned hcontrol
  | outside hpolled hcontrol => exact .inl ⟨hcontrol, MpState.bspStep_outside hcontrol⟩
  | @checkAllAPs k hpolled hcontrol hk =>
    right
    rcases Nat.lt_or_eq_of_le hk with hlt | rfl
    · refine h.bspStep_round hcontrol hlt (.checkAllAPs ⟨hpolled.waitEvent, ?_, ?_⟩ rfl hlt)
      · exact (checkAllStep_frame k).1.trans hpolled.returned
      · exact (checkAllStep_frame k).2.trans hpolled.stopCheckAPsStatus
    · exact h.bspStep_polled hexpired hpolled hcontrol
  | @checkTheseAPs k hpolled hcontrol hk =>
    have htarget : ¬ Target P s stage (position P t) := by
      rw [position_checkTheseAPs hcontrol]
      rintro (⟨hlt, -⟩ | ⟨heq, -⟩)
      · omega
      · omega
    right
    right
    rcases Nat.lt_or_eq_of_le hk with hlt | rfl
    · have hstep : t.checkTheseStep k expired = t := by
        rw [MpState.checkTheseStep, h.cpuWaitEvent hleft hlt]
        rfl
      rw [MpState.bspStep_checkTheseAPs hcontrol hlt, hstep]
      refine ⟨h.withControl _, .checkTheseAPs ?_ rfl hlt, ?_, htarget⟩
      · exact ⟨hpolled.waitEvent, hpolled.returned, hpolled.stopCheckAPsStatus⟩
      · rw [GoesOn, position_checkTheseAPs hcontrol, position_checkTheseAPs rfl]
        omega
    · rw [MpState.bspStep_updated hcontrol (Nat.le_refl _)]
      refine ⟨h.withControl _, .outside ?_ rfl, ?_, htarget⟩
      · exact ⟨hpolled.waitEvent, hpolled.returned, hpolled.stopCheckAPsStatus⟩
      · rw [GoesOn, position_checkTheseAPs hcontrol, position_outside rfl]
        omega

/-- **The timer** begins a poll if the BSP is in none. -/
theorem timer (h : Dispatching P s args task stage t) (hpolling : Polling P args t) :
    (t.control ≠ .outside ∧ t.next P .timer = t) ∨
    (Dispatching P s args task stage (t.next P .timer) ∧ Polling P args (t.next P .timer) ∧
      GoesOn P t (t.next P .timer) ∧ ¬ Target P s stage (position P t)) := by
  by_cases hcontrol : t.control = .outside
  · right
    have hpolled := hpolling.polled hcontrol
    have hstep : t.next P .timer = { t with control := .checkAllAPs 0 (some .checkAPsStatus) } := by
      rw [MpState.next, MpState.isOutside, hcontrol, if_pos ⟨rfl, hpolled.stopCheckAPsStatus⟩,
        MpState.checkAndUpdate, h.waitEvent, if_pos hpolled.waitEvent]
    rw [hstep]
    refine ⟨h.withControl _, .checkAllAPs ?_ rfl (Nat.zero_le _), ?_, ?_⟩
    · exact ⟨hpolled.waitEvent, hpolled.returned, hpolled.stopCheckAPsStatus⟩
    · rw [GoesOn, position_outside hcontrol, position_checkAllAPs rfl]
      omega
    · rw [position_outside hcontrol]
      exact fun htarget ↦ absurd htarget.le (by omega)
  · left
    refine ⟨hcontrol, ?_⟩
    rw [MpState.next, if_neg]
    exact fun hboth ↦ hcontrol (MpState.control_of_isOutside hboth.1)

/-- A step of an AP that is active. -/
theorem progress_of_active (h : Dispatching P s args task stage t) (hpolling : Polling P args t)
    {n : ℕ} (hn : n < P.numberOfProcessors) (hidle : s.idleAP n = true) (hactive : (stage n).Active) :
    Progress P s args task stage (t.apStep P n) :=
  .inr ⟨_, work_update_lt hn hidle (Stage.rank_next_lt hactive),
    h.apStep_of_active hn hidle hactive, hpolling.apStep n⟩

/-- **A step of the call.** It does nothing, gets on with the call, or is a step of a poll that finds
nothing. -/
theorem next (h : Dispatching P s args task stage t) (hleft : NothingLeft P s)
    (hpolling : Polling P args t) {e : MpEvent} (he : DuringCall args e) :
    t.next P e = t ∨ Progress P s args task stage (t.next P e) ∨
    (Dispatching P s args task stage (t.next P e) ∧ Polling P args (t.next P e) ∧
      GoesOn P t (t.next P e) ∧ ¬ Target P s stage (position P t)) := by
  cases e with
  | ap n =>
    by_cases hactive : n < P.numberOfProcessors ∧ s.idleAP n = true ∧ (stage n).Active
    · exact .inr (.inl (h.progress_of_active hpolling hactive.1 hactive.2.1 hactive.2.2))
    · exact .inl (h.apStep_of_not_active hleft hactive)
  | bsp expired =>
    rcases h.bspStep hleft hpolling he with ⟨-, hsame⟩ | hgoes
    · exact .inl hsame
    · exact .inr hgoes
  | timer =>
    rcases h.timer hpolling with ⟨-, hsame⟩ | hgoes
    · exact .inl hsame
    · exact .inr (.inr hgoes)
  | startupAllAPs _ => exact he.elim
  | startupThisAP _ => exact he.elim
  | enableDisableAP _ _ => exact he.elim
  | switchBSP _ _ => exact he.elim

end Dispatching

end

end PurleyFirmware.MpService
