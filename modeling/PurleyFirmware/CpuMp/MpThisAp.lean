import PurleyFirmware.CpuMp.MpStages
import PurleyFirmware.CpuMp.MpStartup
import PurleyFirmware.Foundation.Tally
import Mathlib.Data.List.Basic

/-!
# Calls of StartupThisAP

Calls of `StartupThisAP` one after the other, for any APs, while those started before may still run.
The BSP finds that an AP has finished in a poll by the timer, in the poll that the next call begins
with, or in the call itself if it waits.

A history keeps the calls that were accepted (`served`). Of them nothing is lost and nothing is done
twice (`Conserved`): each AP has run the procedures of the calls for it, in their order, the last one
perhaps not yet, and the events that were signaled together with those still to come are those of the
calls.
-/

namespace PurleyFirmware.MpService

/-! ### Histories -/

/-- What may happen: steps of APs, polls, and calls of `StartupThisAP`. No timeout expires. -/
def ThisApOnly : MpEvent → Prop
  | .ap _ | .timer | .startupThisAP _ => True
  | .bsp expired => expired = false
  | _ => False

/-- The call that a step of the BSP accepts: its polls are over, and the AP is idle. -/
def acceptedCall (P : MpPlatform) (t : MpState) : MpEvent → Option ThisApArgs
  | .bsp _ =>
    match t.control with
    | .checkTheseAPs k (.startupThisAP args) =>
      if P.numberOfProcessors ≤ k ∧ (t.cpu args.processorNumber).state = .idle then some args
      else none
    | _ => none
  | _ => none

/-- A step, with the calls that were accepted. -/
def served (P : MpPlatform) (h : MpState × List ThisApArgs) (e : MpEvent) :
    MpState × List ThisApArgs :=
  (h.1.next P e, h.2 ++ (acceptedCall P h.1 e).toList)

/-- The procedures of the calls for an AP. -/
def tasksOf (n : ℕ) (calls : List ThisApArgs) : List ApTask :=
  (calls.filter fun args ↦ args.processorNumber = n).filterMap (·.procedure)

/-- The events of the calls. -/
def eventsOf (calls : List ThisApArgs) : List ℕ := calls.filterMap (·.waitEvent)

/-- How often an event is still to be signaled. -/
def pending (P : MpPlatform) (event : ℕ) (t : MpState) : ℕ :=
  tally P.numberOfProcessors (fun c ↦ if c.waitEvent = some event then 1 else 0) t.cpu

/-- **Nothing is lost and nothing is done twice.** -/
structure Conserved (P : MpPlatform) (s t : MpState) (calls : List ThisApArgs) : Prop where
  /-- An AP has run the procedures of the calls for it, but perhaps the last. -/
  ran : ∀ n < P.numberOfProcessors, n ≠ s.bspNumber → ∃ rest, rest.length ≤ 1 ∧
    (t.cpu n).ran ++ rest = (s.cpu n).ran ++ tasksOf n calls
  /-- An AP that is idle or disabled has run them all, and no event of it is to come. -/
  idle : ∀ n < P.numberOfProcessors, n ≠ s.bspNumber →
    (t.cpu n).state = .idle ∨ (t.cpu n).state = .disabled →
    (t.cpu n).ran = (s.cpu n).ran ++ tasksOf n calls ∧ (t.cpu n).waitEvent = none
  /-- If no event of it is to come and the BSP does not wait for it, it is. -/
  signal : ∀ n < P.numberOfProcessors, n ≠ s.bspNumber → (t.cpu n).waitEvent = none →
    t.control ≠ .checkThisAP n → (t.cpu n).state = .idle ∨ (t.cpu n).state = .disabled
  /-- The BSP runs nothing. -/
  bsp : (t.cpu s.bspNumber).ran = (s.cpu s.bspNumber).ran
  signaled : ∀ event, t.signaled.count event + pending P event t
    = s.signaled.count event + (eventsOf calls).count event

/-! ### The invariant -/

/-- **An AP** for which these were the procedures of the calls. -/
inductive ApServed (P : MpPlatform) (tasks : List ApTask) (c : Processor) : Prop
  | resting (hstate : c.state = .idle ∨ c.state = .disabled) (hap : c.ap = .loop)
    (hsignal : c.startupApSignal = false) (hran : c.ran = tasks) (hevent : c.waitEvent = none)
    (hmode : c.apLoopMode = .apInHltLoop ∨ P.apLoopMode ≠ .apInHltLoop)
  | atWork {ran : List ApTask} {task : ApTask} {g : Stage} (htasks : tasks = ran ++ [task])
    (hstage : AtStage P task ran g c) (hwaiting : g ≠ .waiting) (hcollected : g ≠ .collected)

/-- A call that can be accepted. -/
structure Valid (P : MpPlatform) (s : MpState) (args : ThisApArgs) : Prop where
  processorNumber : args.processorNumber < P.numberOfProcessors
  ne_bsp : args.processorNumber ≠ s.bspNumber
  procedure : args.procedure.isSome = true

/-- Where the BSP is. -/
inductive Serving (P : MpPlatform) (s t : MpState) : Prop
  | outside (hcontrol : t.control = .outside) (hstop : t.stopCheckAPsStatus = false)
  | checkAPsStatus {k : ℕ} (hcontrol : t.control = .checkTheseAPs k .checkAPsStatus)
    (hk : k ≤ P.numberOfProcessors) (hstop : t.stopCheckAPsStatus = false)
  | startupThisAP {k : ℕ} {args : ThisApArgs} (hvalid : Valid P s args)
    (hcontrol : t.control = .checkTheseAPs k (.startupThisAP args)) (hk : k ≤ P.numberOfProcessors)
  | checkThisAP {n : ℕ} (hcontrol : t.control = .checkThisAP n) (hn : n < P.numberOfProcessors)
    (hbsp : n ≠ s.bspNumber) (hevent : (t.cpu n).waitEvent = none)
    (hstate : (t.cpu n).state ≠ .idle ∧ (t.cpu n).state ≠ .disabled)

/-- **The invariant.** -/
structure Served (P : MpPlatform) (s t : MpState) (calls : List ThisApArgs) : Prop where
  bspNumber : t.bspNumber = s.bspNumber
  waitEvent : t.waitEvent = none
  bsp : t.cpu s.bspNumber = s.cpu s.bspNumber
  ap : ∀ n < P.numberOfProcessors, n ≠ s.bspNumber →
    ApServed P ((s.cpu n).ran ++ tasksOf n calls) (t.cpu n)
  /-- An AP that works has been given the function that it calls. -/
  apFunction : ∀ n < P.numberOfProcessors, n ≠ s.bspNumber →
    (t.cpu n).state ≠ .idle → (t.cpu n).state ≠ .disabled → t.apFunction = true
  signal : ∀ n < P.numberOfProcessors, n ≠ s.bspNumber → (t.cpu n).waitEvent = none →
    t.control ≠ .checkThisAP n → (t.cpu n).state = .idle ∨ (t.cpu n).state = .disabled
  signaled : ∀ event, t.signaled.count event + pending P event t
    = s.signaled.count event + (eventsOf calls).count event
  serving : Serving P s t

section

variable {P : MpPlatform} {s t u : MpState} {calls calls' : List ThisApArgs} {tasks : List ApTask}
  {c : Processor} {n : ℕ}

/-! ### One AP -/

namespace ApServed

/-- What it has run is what there is to run, but perhaps the last. -/
theorem exists_rest (h : ApServed P tasks c) : ∃ rest, rest.length ≤ 1 ∧ c.ran ++ rest = tasks := by
  cases h with
  | resting hstate hap hsignal hran => exact ⟨[], Nat.zero_le _, by rw [List.append_nil, hran]⟩
  | @atWork ran task g htasks hstage =>
    have hran := hstage.ran_eq
    cases hrun : g.hasRun with
    | true =>
      rw [if_pos hrun] at hran
      exact ⟨[], Nat.zero_le _, by rw [List.append_nil, hran, htasks]⟩
    | false =>
      rw [if_neg (by rw [hrun]; rintro ⟨⟩)] at hran
      exact ⟨[task], Nat.le_refl _, by rw [hran, htasks]⟩

/-- An AP at work is neither idle nor disabled. -/
theorem not_idle {task : ApTask} {ran : List ApTask} {g : Stage} (hstage : AtStage P task ran g c)
    (hcollected : g ≠ .collected) : ¬ (c.state = .idle ∨ c.state = .disabled) := by
  rw [hstage.state]
  cases g <;> first | exact absurd rfl hcollected | decide

/-- It is at rest. -/
theorem rest (h : ApServed P tasks c) (hstate : c.state = .idle ∨ c.state = .disabled) :
    c.ran = tasks ∧ c.waitEvent = none := by
  cases h with
  | resting hstate hap hsignal hran hevent => exact ⟨hran, hevent⟩
  | atWork htasks hstage hwaiting hcollected => exact absurd hstate (not_idle hstage hcollected)

/-- A step of it. -/
theorem apStep (h : ApServed P tasks c) :
    (∀ apFunction, c.apStep P apFunction = c) ∨
    (¬ (c.state = .idle ∨ c.state = .disabled) ∧ ApServed P tasks (c.apStep P true) ∧
      ¬ ((c.apStep P true).state = .idle ∨ (c.apStep P true).state = .disabled)) := by
  cases h with
  | resting hstate hap hsignal =>
    exact .inl fun apFunction ↦ by simp [Processor.apStep, hap, hsignal]
  | @atWork ran task g htasks hstage hwaiting hcollected =>
    by_cases hactive : g.Active
    · right
      have hnext : g.next ≠ .collected := fun hc ↦ hcollected (Stage.next_eq_collected_iff.1 hc)
      exact ⟨not_idle hstage hcollected,
        .atWork htasks hstage.apStep (fun hw ↦ hwaiting (Stage.next_eq_waiting_iff.1 hw)) hnext,
        not_idle hstage.apStep hnext⟩
    · exact .inl (hstage.apStep_of_not_active hactive)

/-- The BSP finds that it has finished. -/
theorem collect (h : ApServed P tasks c) (hfinished : c.state = .finished) {c' : Processor}
    (hstate : c'.state = .idle) (hap : c'.ap = c.ap)
    (hsignal : c'.startupApSignal = c.startupApSignal) (hran : c'.ran = c.ran)
    (hmode : c'.apLoopMode = c.apLoopMode) (hevent : c'.waitEvent = none) :
    ApServed P tasks c' := by
  cases h with
  | resting hstate' => exact absurd hstate' (by rw [hfinished]; decide)
  | @atWork ran task g htasks hstage =>
    obtain rfl := hstage.eq_finished hfinished
    have hdone := hstage.collect hstate hap hsignal hran hmode
    refine .resting (.inl hstate) hdone.ap (hdone.signal false rfl) ?_ hevent hdone.mode
    rw [htasks]
    exact hdone.ran_eq

/-- The BSP starts it. -/
theorem start (h : ApServed P tasks c) (hidle : c.state = .idle) (task : ApTask) {c' : Processor}
    (hc' : c' = { ({ c with state := .ready }.wakeUp P (some task)) with
      waitEvent := c'.waitEvent, finished := c'.finished, expectedTime := c'.expectedTime }) :
    ApServed P (tasks ++ [task]) c' ∧ ¬ (c'.state = .idle ∨ c'.state = .disabled) := by
  cases h with
  | resting hstate hap hsignal hran hevent hmode =>
    have hready : AtStage P task tasks .waiting { c with state := .ready } := by
      refine ⟨rfl, hap, fun b hb ↦ ?_, by rintro ⟨⟩, hran, hmode, by rintro ⟨⟩⟩
      exact hsignal.trans (Option.some.inj hb)
    have hwoken := hready.wakeUp
    have hactive : Stage.Active
        (if c.apLoopMode = .apInHltLoop then .starting else .signaled) := by
      split
      · decide
      · decide
    have hstage : AtStage P task tasks
        (if c.apLoopMode = .apInHltLoop then .starting else .signaled) c' := by
      rw [hc']
      exact ⟨hwoken.state, hwoken.ap, hwoken.signal, hwoken.procedure, hwoken.ran_eq, hwoken.mode,
        hwoken.seen⟩
    exact ⟨.atWork rfl hstage hactive.1 hactive.2.2, not_idle hstage hactive.2.2⟩
  | atWork htasks hstage hwaiting hcollected =>
    exact absurd (.inl hidle) (not_idle hstage hcollected)

end ApServed

/-! ### Calls -/

theorem tasksOf_append (n : ℕ) (calls calls' : List ThisApArgs) :
    tasksOf n (calls ++ calls') = tasksOf n calls ++ tasksOf n calls' := by
  rw [tasksOf, List.filter_append, List.filterMap_append]
  rfl

theorem tasksOf_self {args : ThisApArgs} {task : ApTask} (h : args.procedure = some task) :
    tasksOf args.processorNumber [args] = [task] := by
  simp [tasksOf, h]

theorem tasksOf_of_ne {args : ThisApArgs} (h : args.processorNumber ≠ n) : tasksOf n [args] = [] := by
  simp [tasksOf, h]

theorem eventsOf_append (calls calls' : List ThisApArgs) :
    eventsOf (calls ++ calls') = eventsOf calls ++ eventsOf calls' :=
  List.filterMap_append

theorem count_eventsOf_self (args : ThisApArgs) (event : ℕ) :
    (eventsOf [args]).count event = if args.waitEvent = some event then 1 else 0 := by
  cases h : args.waitEvent with
  | none => simp [eventsOf, h]
  | some e => simp [eventsOf, h, List.count_singleton]

/-! ### Steps -/

/-- Outside of the services the checks by the timer go on. -/
theorem Serving.stopCheckAPsStatus_of_outside (h : Serving P s t) (hcontrol : t.control = .outside) :
    t.stopCheckAPsStatus = false := by
  cases h with
  | outside _ hstop => exact hstop
  | checkAPsStatus hother => cases hother.symm.trans hcontrol
  | startupThisAP _ hother => cases hother.symm.trans hcontrol
  | checkThisAP hother => cases hother.symm.trans hcontrol

/-- A round of the poll. -/
theorem Serving.round (h : Serving P s t) {k : ℕ} {caller : Caller}
    (hcontrol : t.control = .checkTheseAPs k caller) (hk : k < P.numberOfProcessors)
    (hcontrol' : u.control = .checkTheseAPs (k + 1) caller)
    (hstop' : u.stopCheckAPsStatus = t.stopCheckAPsStatus) : Serving P s u := by
  cases h with
  | outside hother => cases hother.symm.trans hcontrol
  | checkAPsStatus hother _ hstop =>
    cases hother.symm.trans hcontrol
    exact .checkAPsStatus hcontrol' hk (hstop'.trans hstop)
  | startupThisAP hvalid hother =>
    cases hother.symm.trans hcontrol
    exact .startupThisAP hvalid hcontrol' hk
  | checkThisAP hother => cases hother.symm.trans hcontrol

/-- A round that finds that an AP has finished. -/
theorem checkTheseStep_of_finished {k event : ℕ} {expired : Bool}
    (hevent : (t.cpu k).waitEvent = some event) (hfinished : (t.cpu k).state = .finished) :
    t.checkTheseStep k expired
      = { t with
          cpu := Function.update t.cpu k { t.cpu k with
            state := .idle, finished := (t.cpu k).finished.map fun _ ↦ true, waitEvent := none }
          signaled := t.signaled ++ [event] } := by
  rw [MpState.checkTheseStep, hevent, MpState.checkThisAP, if_pos hfinished]
  simp [MpState.modify, hevent]

theorem checkTheseStep_of_not_finished {k : ℕ}
    (h : ¬ ((t.cpu k).waitEvent.isSome = true ∧ (t.cpu k).state = .finished)) :
    t.checkTheseStep k false = t := by
  rw [MpState.checkTheseStep]
  split
  next hevent =>
    rw [MpState.checkThisAP, if_neg fun hfinished ↦ h ⟨hevent, hfinished⟩, Bool.and_false]
    rfl
  · rfl

theorem acceptedCall_of_lt {k : ℕ} {caller : Caller} {expired : Bool}
    (hcontrol : t.control = .checkTheseAPs k caller) (hk : k < P.numberOfProcessors) :
    acceptedCall P t (.bsp expired) = none := by
  rw [acceptedCall, hcontrol]
  cases caller with
  | checkAPsStatus => rfl
  | startupAllAPs _ => rfl
  | startupThisAP args => exact if_neg fun hboth ↦ Nat.not_le.2 hk hboth.1

/-- The BSP waits for an AP, which has finished. -/
theorem bspStep_of_finished (hcontrol : t.control = .checkThisAP n)
    (hfinished : (t.cpu n).state = .finished) :
    t.bspStep P false
      = (t.modify n fun c ↦
        { c with state := .idle, finished := c.finished.map fun _ ↦ true }).leave .success := by
  rw [MpState.bspStep, hcontrol]
  dsimp only
  rw [MpState.checkThisAP, if_pos hfinished]
  rfl

theorem bspStep_of_not_finished (hcontrol : t.control = .checkThisAP n)
    (hfinished : (t.cpu n).state ≠ .finished) : t.bspStep P false = t := by
  rw [MpState.bspStep, hcontrol]
  dsimp only
  rw [MpState.checkThisAP, if_neg hfinished, Bool.and_false]
  rfl

/-- The record of an AP that a call starts. -/
def startedBy (P : MpPlatform) (args : ThisApArgs) (c : Processor) : Processor :=
  { ({ c with state := .ready }.wakeUp P args.procedure) with
    waitEvent := args.waitEvent
    finished := if args.finished then some true else none
    expectedTime := args.timeout }

theorem startThisAP_of_idle {args : ThisApArgs} (hidle : (t.cpu args.processorNumber).state = .idle) :
    t.startThisAP P args =
      let u := { t with
        cpu := Function.update t.cpu args.processorNumber
          (startedBy P args (t.cpu args.processorNumber))
        apFunction := true }
      if args.waitEvent.isSome then u.leave .success
      else { u with control := .checkThisAP args.processorNumber } := by
  have hdisabled : (t.cpu args.processorNumber).state ≠ .disabled := by
    rw [hidle]
    rintro ⟨⟩
  rw [MpState.startThisAP, if_neg hdisabled, if_neg (not_not.2 hidle)]
  simp only [MpState.modify, MpState.wakeUpAp, Function.update_idem, Function.update_self, startedBy]

namespace Served

/-- No AP changes, and the BSP goes elsewhere. -/
theorem withControl (h : Served P s t calls) (hcpu : u.cpu = t.cpu) (hbsp : u.bspNumber = t.bspNumber)
    (hwait : u.waitEvent = t.waitEvent) (hfunction : u.apFunction = t.apFunction)
    (hsignaled : u.signaled = t.signaled) (hnot : ∀ n, t.control ≠ .checkThisAP n)
    (hserving : Serving P s u) : Served P s u calls := by
  have hpending (event : ℕ) : pending P event u = pending P event t := by rw [pending, hcpu]; rfl
  refine ⟨hbsp.trans h.bspNumber, hwait.trans h.waitEvent, ?_, ?_, ?_, ?_, ?_, hserving⟩
  · rw [hcpu]
    exact h.bsp
  · rw [hcpu]
    exact h.ap
  · rw [hcpu, hfunction]
    exact h.apFunction
  · rw [hcpu]
    exact fun n hn hne hevent _ ↦ h.signal n hn hne hevent (hnot n)
  · intro event
    rw [hsignaled, hpending]
    exact h.signaled event

/-- **One AP changes.** -/
theorem update (h : Served P s t calls) (hn : n < P.numberOfProcessors) (hne : n ≠ s.bspNumber)
    (hcpu : u.cpu = Function.update t.cpu n c) (hbsp : u.bspNumber = t.bspNumber)
    (hwait : u.waitEvent = t.waitEvent) (hfunction : u.apFunction = true)
    (hap : ApServed P ((s.cpu n).ran ++ tasksOf n calls') c)
    (hcalls : ∀ m, m ≠ n → tasksOf m calls' = tasksOf m calls)
    (hself : c.waitEvent = none → u.control ≠ .checkThisAP n → c.state = .idle ∨ c.state = .disabled)
    (hother : ∀ m, m ≠ n → t.control = .checkThisAP m → u.control = .checkThisAP m)
    (hsignaled : ∀ event, u.signaled.count event + (if c.waitEvent = some event then 1 else 0)
      + (eventsOf calls).count event
      = t.signaled.count event + (if (t.cpu n).waitEvent = some event then 1 else 0)
      + (eventsOf calls').count event)
    (hserving : Serving P s u) : Served P s u calls' := by
  refine ⟨hbsp.trans h.bspNumber, hwait.trans h.waitEvent, ?_, fun m hm hmne ↦ ?_,
    fun m hm hmne _ _ ↦ hfunction, fun m hm hmne ↦ ?_, fun event ↦ ?_, hserving⟩
  · rw [hcpu, Function.update_of_ne hne.symm]
    exact h.bsp
  · rw [hcpu]
    rcases eq_or_ne m n with rfl | hmn
    · rw [Function.update_self]
      exact hap
    · rw [Function.update_of_ne hmn, hcalls m hmn]
      exact h.ap m hm hmne
  · rw [hcpu]
    rcases eq_or_ne m n with rfl | hmn
    · rw [Function.update_self]
      exact hself
    · rw [Function.update_of_ne hmn]
      exact fun hevent hcontrol ↦ h.signal m hm hmne hevent fun hc ↦ hcontrol (hother m hmn hc)
  · have htally := tally_update hn (fun c ↦ if c.waitEvent = some event then 1 else 0) t.cpu c
    have hbefore := h.signaled event
    have hstep := hsignaled event
    rw [pending] at hbefore ⊢
    rw [hcpu]
    omega

/-- A step of an AP. -/
theorem apStep (h : Served P s t calls) (n : ℕ) : Served P s (t.apStep P n) calls := by
  by_cases hn : n < P.numberOfProcessors ∧ n ≠ t.bspNumber
  case neg =>
    rw [apStep_of_not_mem hn]
    exact h
  have hne : n ≠ s.bspNumber := fun heq ↦ hn.2 (heq.trans h.bspNumber.symm)
  rcases (h.ap n hn.1 hne).apStep with hsame | ⟨hwork, hap, hwork'⟩
  · rw [apStep_of_eq (hsame _)]
    exact h
  have hfunction : t.apFunction = true :=
    h.apFunction n hn.1 hne (fun hc ↦ hwork (.inl hc)) fun hc ↦ hwork (.inr hc)
  obtain ⟨-, hevent, -⟩ := Processor.apStep_frame (P := P) true (t.cpu n)
  have hstep : t.apStep P n
      = { t with cpu := Function.update t.cpu n ((t.cpu n).apStep P true) } := by
    rw [MpState.apStep, if_pos hn, MpState.modify, hfunction]
  rw [hstep]
  refine h.update hn.1 hne rfl rfl rfl hfunction hap (fun _ _ ↦ rfl) (fun hnone hcontrol ↦ ?_)
    (fun _ _ hc ↦ hc) (fun event ↦ by rw [hevent]) ?_
  · exact absurd (h.signal n hn.1 hne (hevent.symm.trans hnone) hcontrol) hwork
  · cases h.serving with
    | outside hcontrol hstop => exact .outside hcontrol hstop
    | checkAPsStatus hcontrol hk hstop => exact .checkAPsStatus hcontrol hk hstop
    | startupThisAP hvalid hcontrol hk => exact .startupThisAP hvalid hcontrol hk
    | @checkThisAP m hcontrol hm hbsp hnone hstate =>
      refine .checkThisAP hcontrol hm hbsp ?_ ?_
      · dsimp only
        rcases eq_or_ne m n with rfl | hmn
        · rw [Function.update_self, hevent]
          exact hnone
        · rw [Function.update_of_ne hmn]
          exact hnone
      · dsimp only
        rcases eq_or_ne m n with rfl | hmn
        · rw [Function.update_self]
          exact not_or.1 hwork'
        · rw [Function.update_of_ne hmn]
          exact hstate

/-- A round of the poll. -/
theorem checkTheseStep (h : Served P s t calls) (hquiet : Quiet P s) {k : ℕ} {caller : Caller}
    (hcontrol : t.control = .checkTheseAPs k caller) (hk : k < P.numberOfProcessors) :
    Served P s { t.checkTheseStep k false with control := .checkTheseAPs (k + 1) caller } calls := by
  have hnot (n : ℕ) : t.control ≠ .checkThisAP n := by
    rw [hcontrol]
    rintro ⟨⟩
  by_cases hfinished : (t.cpu k).waitEvent.isSome = true ∧ (t.cpu k).state = .finished
  case neg =>
    rw [checkTheseStep_of_not_finished hfinished]
    exact h.withControl rfl rfl rfl rfl rfl hnot (h.serving.round hcontrol hk rfl rfl)
  obtain ⟨event, hevent⟩ := Option.isSome_iff_exists.1 hfinished.1
  have hne : k ≠ s.bspNumber := by
    rintro rfl
    rw [h.bsp, hquiet.cpuWaitEvent _ hk] at hevent
    cases hevent
  have hfunction : t.apFunction = true := by
    refine h.apFunction k hk hne ?_ ?_
    · rw [hfinished.2]
      rintro ⟨⟩
    · rw [hfinished.2]
      rintro ⟨⟩
  rw [checkTheseStep_of_finished hevent hfinished.2]
  refine h.update hk hne rfl rfl rfl hfunction
    ((h.ap k hk hne).collect hfinished.2 rfl rfl rfl rfl rfl rfl) (fun _ _ ↦ rfl)
    (fun _ _ ↦ .inl rfl) (fun m _ hc ↦ absurd hc (hnot m)) (fun other ↦ ?_)
    (h.serving.round hcontrol hk rfl rfl)
  rw [List.count_append, List.count_singleton, hevent]
  dsimp only
  simp only [Option.some.injEq, beq_iff_eq]
  have hnone : ¬ (none : Option ℕ) = some other := by rintro ⟨⟩
  rw [if_neg hnone]
  omega

/-- **A call behind its polls.** -/
theorem startThisAP (h : Served P s t calls) {k : ℕ} {args : ThisApArgs}
    (hcontrol : t.control = .checkTheseAPs k (.startupThisAP args)) (hvalid : Valid P s args) :
    Served P s (t.startThisAP P args)
      (calls ++ if (t.cpu args.processorNumber).state = .idle then [args] else []) := by
  have hnot (n : ℕ) : t.control ≠ .checkThisAP n := by
    rw [hcontrol]
    rintro ⟨⟩
  have hleave (status : EfiStatus) : Served P s (t.leave status) calls :=
    h.withControl rfl rfl rfl rfl rfl hnot (.outside rfl rfl)
  obtain ⟨task, htask⟩ := Option.isSome_iff_exists.1 hvalid.procedure
  by_cases hidle : (t.cpu args.processorNumber).state = .idle
  case neg =>
    rw [if_neg hidle, List.append_nil, MpState.startThisAP, if_pos hidle]
    split
    · exact hleave _
    · exact hleave _
  have hap := h.ap args.processorNumber hvalid.processorNumber hvalid.ne_bsp
  have hstartedBy : startedBy P args (t.cpu args.processorNumber) =
      { ({ t.cpu args.processorNumber with state := .ready }.wakeUp P (some task)) with
        waitEvent := (startedBy P args (t.cpu args.processorNumber)).waitEvent
        finished := (startedBy P args (t.cpu args.processorNumber)).finished
        expectedTime := (startedBy P args (t.cpu args.processorNumber)).expectedTime } := by
    rw [startedBy, htask]
  obtain ⟨hstarted, hwork⟩ := hap.start hidle task hstartedBy
  have hnone : (t.cpu args.processorNumber).waitEvent = none := (hap.rest (.inl hidle)).2
  rw [List.append_assoc, ← tasksOf_self htask, ← tasksOf_append] at hstarted
  have hcalls (m : ℕ) (hm : m ≠ args.processorNumber) :
      tasksOf m (calls ++ [args]) = tasksOf m calls := by
    rw [tasksOf_append, tasksOf_of_ne hm.symm, List.append_nil]
  have hsignaled (event : ℕ) : t.signaled.count event
      + (if (startedBy P args (t.cpu args.processorNumber)).waitEvent = some event then 1 else 0)
      + (eventsOf calls).count event
      = t.signaled.count event
      + (if (t.cpu args.processorNumber).waitEvent = some event then 1 else 0)
      + (eventsOf (calls ++ [args])).count event := by
    have hno : ¬ (none : Option ℕ) = some event := by rintro ⟨⟩
    rw [hnone, if_neg hno, eventsOf_append, List.count_append, count_eventsOf_self, startedBy]
    dsimp only
    omega
  rw [if_pos hidle, startThisAP_of_idle hidle]
  dsimp only
  split
  next hevent =>
    refine h.update hvalid.processorNumber hvalid.ne_bsp rfl rfl rfl rfl hstarted hcalls
      (fun hno ↦ ?_) (fun m _ hc ↦ absurd hc (hnot m)) hsignaled (.outside rfl rfl)
    rw [startedBy] at hno
    dsimp only at hno
    rw [hno] at hevent
    cases hevent
  next hevent =>
    refine h.update hvalid.processorNumber hvalid.ne_bsp rfl rfl rfl rfl hstarted hcalls
      (fun _ hc ↦ absurd rfl hc) (fun m _ hc ↦ absurd hc (hnot m)) hsignaled
      (.checkThisAP rfl hvalid.processorNumber hvalid.ne_bsp ?_ ?_)
    · dsimp only
      rw [Function.update_self]
      exact Option.not_isSome_iff_eq_none.1 hevent
    · dsimp only
      rw [Function.update_self]
      exact not_or.1 hwork

/-- The BSP waits for an AP. -/
theorem checkThisAP (h : Served P s t calls) (hcontrol : t.control = .checkThisAP n)
    (hn : n < P.numberOfProcessors) (hne : n ≠ s.bspNumber) (hevent : (t.cpu n).waitEvent = none) :
    Served P s (t.bspStep P false) calls := by
  by_cases hfinished : (t.cpu n).state = .finished
  · rw [bspStep_of_finished hcontrol hfinished]
    have hfunction : t.apFunction = true := by
      refine h.apFunction n hn hne ?_ ?_
      · rw [hfinished]
        rintro ⟨⟩
      · rw [hfinished]
        rintro ⟨⟩
    refine h.update hn hne rfl rfl rfl hfunction
      ((h.ap n hn hne).collect hfinished rfl rfl rfl rfl rfl hevent) (fun _ _ ↦ rfl)
      (fun _ _ ↦ .inl rfl) (fun m hm hc ↦ ?_) (fun _ ↦ rfl) (.outside rfl rfl)
    cases hcontrol.symm.trans hc
    exact absurd rfl hm
  · rw [bspStep_of_not_finished hcontrol hfinished]
    exact h

/-- A step of the BSP. -/
theorem bspStep (h : Served P s t calls) (hquiet : Quiet P s) :
    Served P s (t.bspStep P false) (calls ++ (acceptedCall P t (.bsp false)).toList) := by
  cases h.serving with
  | outside hcontrol =>
    rw [acceptedCall, hcontrol, MpState.bspStep_outside hcontrol]
    exact (List.append_nil calls).symm ▸ h
  | @checkAPsStatus k hcontrol hk hstop =>
    rcases Nat.lt_or_eq_of_le hk with hlt | rfl
    · rw [acceptedCall_of_lt hcontrol hlt, MpState.bspStep_checkTheseAPs hcontrol hlt]
      exact (List.append_nil calls).symm ▸ h.checkTheseStep hquiet hcontrol hlt
    · rw [acceptedCall, hcontrol, MpState.bspStep_updated hcontrol (Nat.le_refl _)]
      refine (List.append_nil calls).symm ▸ h.withControl rfl rfl rfl rfl rfl ?_ (.outside rfl hstop)
      rw [hcontrol]
      rintro _ ⟨⟩
  | @startupThisAP k args hvalid hcontrol hk =>
    rcases Nat.lt_or_eq_of_le hk with hlt | rfl
    · rw [acceptedCall_of_lt hcontrol hlt, MpState.bspStep_checkTheseAPs hcontrol hlt]
      exact (List.append_nil calls).symm ▸ h.checkTheseStep hquiet hcontrol hlt
    · rw [acceptedCall, hcontrol, MpState.bspStep_updated hcontrol (Nat.le_refl _)]
      have hcall := h.startThisAP hcontrol hvalid
      rw [MpState.updated]
      simp only [Nat.le_refl, true_and]
      split
      next hidle =>
        rw [if_pos hidle] at hcall
        exact hcall
      next hidle =>
        rw [if_neg hidle] at hcall
        exact hcall
  | checkThisAP hcontrol hn hne hevent hstate =>
    rw [acceptedCall, hcontrol]
    exact (List.append_nil calls).symm ▸ h.checkThisAP hcontrol hn hne hevent

/-- A poll begins. -/
theorem checkAndUpdate (h : Served P s t calls) (hcontrol : t.control = .outside) {caller : Caller}
    (hcpu : u.cpu = t.cpu) (hbsp : u.bspNumber = t.bspNumber) (hwait : u.waitEvent = t.waitEvent)
    (hfunction : u.apFunction = t.apFunction) (hsignaled : u.signaled = t.signaled)
    (hserving : Serving P s { u with control := .checkTheseAPs 0 caller }) :
    Served P s (u.checkAndUpdate caller) calls := by
  rw [MpState.checkAndUpdate, if_neg (by rw [hwait, h.waitEvent]; rintro ⟨⟩)]
  refine h.withControl hcpu hbsp hwait hfunction hsignaled ?_ hserving
  rw [hcontrol]
  rintro _ ⟨⟩

/-- A call. -/
theorem startupThisAP (h : Served P s t calls) (hcontrol : t.control = .outside)
    (hstop : t.stopCheckAPsStatus = false) (args : ThisApArgs) :
    Served P s (t.startupThisAP P args) calls := by
  have hreject (status : EfiStatus) : Served P s { t with returned := some status } calls := by
    refine h.withControl rfl rfl rfl rfl rfl ?_ (.outside hcontrol hstop)
    rw [hcontrol]
    rintro _ ⟨⟩
  rw [MpState.startupThisAP]
  split
  · exact hreject _
  next hn =>
    split
    · exact hreject _
    next hbsp =>
      split
      · exact hreject _
      next hprocedure =>
        refine h.checkAndUpdate hcontrol rfl rfl rfl rfl rfl ?_
        refine .startupThisAP ⟨Nat.not_le.1 hn, ?_, ?_⟩ rfl (Nat.zero_le _)
        · rw [← h.bspNumber]
          exact hbsp
        · rw [Option.isSome_iff_ne_none, Ne, ← Option.isNone_iff_eq_none]
          exact hprocedure

/-- **A step.** -/
theorem next (h : Served P s t calls) (hquiet : Quiet P s) {e : MpEvent} (he : ThisApOnly e) :
    Served P s (t.next P e) (calls ++ (acceptedCall P t e).toList) := by
  cases e with
  | ap n => exact (List.append_nil calls).symm ▸ h.apStep n
  | bsp expired =>
    obtain rfl : expired = false := he
    exact h.bspStep hquiet
  | timer =>
    rw [MpState.next]
    refine (List.append_nil calls).symm ▸ ?_
    split
    next houtside =>
      have hcontrol := MpState.control_of_isOutside houtside.1
      exact h.checkAndUpdate hcontrol rfl rfl rfl rfl rfl
        (.checkAPsStatus rfl (Nat.zero_le _) houtside.2)
    · exact h
  | startupThisAP args =>
    rw [MpState.next]
    refine (List.append_nil calls).symm ▸ ?_
    split
    next houtside =>
      have hcontrol := MpState.control_of_isOutside houtside
      exact h.startupThisAP hcontrol (h.serving.stopCheckAPsStatus_of_outside hcontrol) args
    · exact h
  | startupAllAPs _ => exact he.elim
  | enableDisableAP _ _ => exact he.elim
  | switchBSP _ _ => exact he.elim

/-- Before the first call. -/
theorem of_quiet (hquiet : Quiet P s) (hwakeable : Wakeable P s) : Served P s s [] := by
  refine ⟨rfl, hquiet.waitEvent, rfl, fun n hn hne ↦ ?_, fun n hn hne hidle hdisabled ↦ ?_,
    fun n hn hne _ _ ↦ hquiet.state n hn hne, fun event ↦ ?_,
    .outside hquiet.control hquiet.stopCheckAPsStatus⟩
  · obtain ⟨hap, hsignal⟩ := hquiet.loop n hn hne
    exact .resting (hquiet.state n hn hne) hap hsignal (List.append_nil _).symm
      (hquiet.cpuWaitEvent n hn) (hwakeable n hn hne)
  · rcases hquiet.state n hn hne with h | h
    · exact absurd h hidle
    · exact absurd h hdisabled
  · have hpending : pending P event s = 0 := by
      refine tally_eq_zero_iff.2 fun n hn ↦ ?_
      rw [hquiet.cpuWaitEvent n hn]
      exact if_neg (by rintro ⟨⟩)
    rw [hpending]
    rfl

theorem conserved (h : Served P s t calls) : Conserved P s t calls := by
  refine ⟨fun n hn hne ↦ (h.ap n hn hne).exists_rest, fun n hn hne ↦ (h.ap n hn hne).rest, h.signal,
    ?_, h.signaled⟩
  rw [h.bsp]

end Served

/-- The invariant in every state of a history. -/
theorem served_foldl (hquiet : Quiet P s) (hwakeable : Wakeable P s) {es : List MpEvent}
    (hes : ∀ e ∈ es, ThisApOnly e) :
    Served P s (es.foldl (served P) (s, [])).1 (es.foldl (served P) (s, [])).2 := by
  suffices hrun : ∀ h : MpState × List ThisApArgs, Served P s h.1 h.2 →
      Served P s (es.foldl (served P) h).1 (es.foldl (served P) h).2 from
    hrun (s, []) (.of_quiet hquiet hwakeable)
  induction es with
  | nil => exact fun _ h ↦ h
  | cons e es ih =>
    intro h hserved
    rw [List.forall_mem_cons] at hes
    exact ih hes.2 _ (hserved.next hquiet hes.1)

/-- **`StartupThisAP` loses nothing and does nothing twice**, over any calls of it for any APs, in any
order of the steps. -/
theorem startupThisAP_conserved (hquiet : Quiet P s) (hwakeable : Wakeable P s) (es : List MpEvent)
    (hes : ∀ e ∈ es, ThisApOnly e) :
    Conserved P s (es.foldl (served P) (s, [])).1 (es.foldl (served P) (s, [])).2 :=
  (served_foldl hquiet hwakeable hes).conserved

end

/-- A call of which the timer tells the end. -/
def eventCall : ThisApArgs where
  procedure := some ⟨1, 0⟩
  processorNumber := 1
  waitEvent := some 5
  timeout := false
  finished := false

/-- The call is made, is accepted, and its AP runs. -/
def eventHistory : List MpEvent :=
  [.startupThisAP eventCall, .bsp false, .bsp false, .bsp false, .ap 1, .ap 1, .ap 1, .ap 1, .timer]

theorem startupThisAP_conserved_eventHistory :
    Conserved twoProcessors twoAtRest.toMpState
      (eventHistory.foldl (served twoProcessors) (twoAtRest.toMpState, [])).1
      (eventHistory.foldl (served twoProcessors) (twoAtRest.toMpState, [])).2 :=
  startupThisAP_conserved twoAtRest.quiet (fun _ _ _ ↦ .inl rfl) eventHistory (by simp [eventHistory, ThisApOnly])

end PurleyFirmware.MpService
