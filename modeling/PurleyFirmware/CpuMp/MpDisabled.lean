import PurleyFirmware.CpuMp.MpStartup
import PurleyFirmware.Foundation.Runs

/-!
# Disabled APs

When a disabled AP stays disabled. `EnableDisableAP` writes the state of the AP and looks at nothing
else, so what is going on for the AP goes on: a procedure it runs ends with the state finished, a
poll that gives it up resets it to idle, and a single-threaded `StartupAllAPs` that has it on its list
wakes it when its turn comes. An AP that is at rest, and on no list of a call that could reach for it
(`AtRest`), sleeps until it is enabled or takes part in a switch of the BSP (`Asleep.next`).
-/

namespace PurleyFirmware.MpService

variable {P : MpPlatform} {s : MpState} {n : ℕ}

/-! ### The property and the condition -/

/-- The machine, and the APs that have been disabled and not enabled since. -/
structure Monitored where
  state : MpState
  held : ℕ → Bool

namespace Monitored

/-- The APs held after a step: `EnableDisableAP` adds one or takes it out, and a switch of the BSP
takes out the two that take part. -/
def heldNext (P : MpPlatform) (m : Monitored) (e : MpEvent) : ℕ → Bool :=
  match e with
  | .enableDisableAP n newAPState =>
    if m.state.isOutside ∧ n < P.numberOfProcessors ∧ n ≠ m.state.bspNumber then
      Function.update m.held n (!newAPState)
    else m.held
  | .switchBSP n _ =>
    if m.state.isOutside ∧ n < P.numberOfProcessors ∧ n ≠ m.state.bspNumber ∧
        (m.state.cpu n).state = .idle then
      Function.update (Function.update m.held n false) m.state.bspNumber false
    else m.held
  | _ => m.held

/-- A step of both. -/
def next (P : MpPlatform) (m : Monitored) (e : MpEvent) : Monitored :=
  ⟨m.state.next P e, m.heldNext P e⟩

/-- Every AP held is disabled. -/
def StaysDisabled (m : Monitored) : Prop :=
  ∀ n, m.held n = true → (m.state.cpu n).state = .disabled

/-- Every AP held is in its loop, and has not been woken. -/
def NothingDispatched (m : Monitored) : Prop :=
  ∀ n, m.held n = true → (m.state.cpu n).ap = .loop ∧ (m.state.cpu n).startupApSignal = false

end Monitored

/-- The AP is in its loop and has no signal, no pending `StartupAllAPs` that has it on its list has a
timeout or is single-threaded, and no pending `StartupThisAP` for it has a timeout. -/
structure AtRest (s : MpState) (n : ℕ) : Prop where
  loop : (s.cpu n).ap = .loop
  signal : (s.cpu n).startupApSignal = false
  listed : (s.cpu n).cpuList = true → s.waitEvent.isSome = true →
    s.expectedTime = false ∧ s.singleThread = false
  event : (s.cpu n).waitEvent.isSome = true → (s.cpu n).expectedTime = false

/-- If this step disables an AP, the AP is at rest. -/
def DisablesAtRest (P : MpPlatform) (m : Monitored) (e : MpEvent) : Prop :=
  ∀ n, e = .enableDisableAP n false → m.state.isOutside = true → n < P.numberOfProcessors →
    n ≠ m.state.bspNumber → AtRest m.state n

/-! ### APs asleep -/

/-- No poll reaches for what is on the list and not finished: there is none, or it is one without a
timeout and not single-threaded. -/
def MpState.Harmless (s : MpState) : Prop :=
  ((∀ k caller, s.control ≠ .checkAllAPs k caller) ∧ s.waitEvent = none) ∨
    (s.expectedTime = false ∧ s.singleThread = false)

/-- The AP is disabled, and nothing reaches for it. -/
structure Asleep (P : MpPlatform) (s : MpState) (n : ℕ) : Prop where
  number : n < P.numberOfProcessors
  notBsp : n ≠ s.bspNumber
  state : (s.cpu n).state = .disabled
  loop : (s.cpu n).ap = .loop
  signal : (s.cpu n).startupApSignal = false
  listed : (s.cpu n).cpuList = true → s.Harmless
  event : (s.cpu n).waitEvent.isSome = true → (s.cpu n).expectedTime = false
  notAwaited : s.control ≠ .checkThisAP n

/-- The BSP is the same in both states, and so is the call that is pending. -/
structure SameCall (s s' : MpState) : Prop where
  bspNumber : s'.bspNumber = s.bspNumber
  waitEvent : s'.waitEvent = s.waitEvent
  expectedTime : s'.expectedTime = s.expectedTime
  singleThread : s'.singleThread = s.singleThread

namespace MpState

/-- What goes on is as harmless as before. -/
theorem Harmless.congr {s' : MpState} (h : s.Harmless)
    (hcontrol : ∀ k caller, s'.control = .checkAllAPs k caller →
      (∃ k' caller', s.control = .checkAllAPs k' caller') ∨ s.waitEvent.isSome = true)
    (hevent : s.waitEvent = none → s'.waitEvent = none) (htime : s'.expectedTime = s.expectedTime)
    (hsingle : s'.singleThread = s.singleThread) : s'.Harmless := by
  rcases h with ⟨hout, hnone⟩ | ⟨hnotime, hmulti⟩
  · refine .inl ⟨fun k caller hk ↦ ?_, hevent hnone⟩
    rcases hcontrol k caller hk with ⟨k', caller', hk'⟩ | hsome
    · exact hout k' caller' hk'
    · rw [hnone] at hsome
      cases hsome
  · exact .inr ⟨htime.trans hnotime, hsingle.trans hmulti⟩

/-- While the BSP polls for a call, that call is one without a timeout and not single-threaded. -/
theorem Harmless.of_polling (h : s.Harmless) {k : ℕ} {caller : Option Caller}
    (hcontrol : s.control = .checkAllAPs k caller) :
    s.expectedTime = false ∧ s.singleThread = false := by
  rcases h with ⟨hout, -⟩ | hslow
  · exact absurd hcontrol (hout k caller)
  · exact hslow

end MpState

namespace Asleep

/-- A step that leaves the AP's record alone. -/
theorem congr {s' : MpState} (h : Asleep P s n) (hcpu : s'.cpu n = s.cpu n)
    (hbsp : n ≠ s'.bspNumber)
    (hharmless : (s.cpu n).cpuList = true → s.Harmless → s'.Harmless)
    (hcontrol : s'.control ≠ .checkThisAP n) : Asleep P s' n := by
  obtain ⟨hn, -, hstate, hloop, hsignal, hlisted, hevent, -⟩ := h
  exact ⟨hn, hbsp, by rwa [hcpu], by rwa [hcpu], by rwa [hcpu],
    fun hl ↦ hharmless (hcpu ▸ hl) (hlisted (hcpu ▸ hl)), by rwa [hcpu], hcontrol⟩

/-- A step that also leaves the call alone, and begins a poll only for a call that is pending. -/
theorem congr_of_same (h : Asleep P s n) {s' : MpState} (hcpu : s'.cpu n = s.cpu n)
    (hcall : SameCall s s')
    (hpoll : ∀ k caller, s'.control = .checkAllAPs k caller →
      (∃ k' caller', s.control = .checkAllAPs k' caller') ∨ s.waitEvent.isSome = true)
    (hcontrol : s'.control ≠ .checkThisAP n) : Asleep P s' n :=
  h.congr hcpu (hcall.bspNumber ▸ h.notBsp) (fun _ hharmless ↦ hharmless.congr hpoll
    (fun hnone ↦ hcall.waitEvent.trans hnone) hcall.expectedTime hcall.singleThread) hcontrol

/-- A step after which the BSP is where it was. -/
theorem congr_of_control (h : Asleep P s n) {s' : MpState} (hcpu : s'.cpu n = s.cpu n)
    (hcall : SameCall s s') (hcontrol : s'.control = s.control) : Asleep P s' n := by
  refine h.congr_of_same hcpu hcall (fun k caller hk ↦ .inl ⟨k, caller, hcontrol ▸ hk⟩) ?_
  rw [hcontrol]
  exact h.notAwaited

/-- A step that ends a service. -/
theorem congr_of_outside (h : Asleep P s n) {s' : MpState} (hcpu : s'.cpu n = s.cpu n)
    (hcall : SameCall s s') (houtside : s'.control = .outside) : Asleep P s' n := by
  refine h.congr_of_same hcpu hcall (fun k caller hk ↦ ?_) ?_
  · rw [houtside] at hk
    cases hk
  · rw [houtside]
    intro hk
    cases hk

/-! ### Steps of the APs and of the polls -/

theorem apStep (h : Asleep P s n) (m : ℕ) : Asleep P (s.apStep P m) n := by
  have hcpu : (s.apStep P m).cpu n = s.cpu n := by
    rw [MpState.apStep]
    split
    · rcases eq_or_ne n m with rfl | hne
      · rw [MpState.modify_cpu_self, Processor.apStep, h.loop]
        dsimp only
        rw [if_neg fun hwoken ↦ Bool.noConfusion (h.signal.symm.trans hwoken.2)]
      · exact MpState.modify_cpu_of_ne hne _
    · rfl
  have hcall : SameCall s (s.apStep P m) := by
    rw [MpState.apStep]
    split
    · exact ⟨rfl, rfl, rfl, rfl⟩
    · exact ⟨rfl, rfl, rfl, rfl⟩
  exact h.congr_of_control hcpu hcall (MpState.control_apStep m)

/-- The AP that is woken next is another one. -/
theorem ne_of_getNextWaiting (h : Asleep P s n) {k m : ℕ} {caller : Option Caller}
    (hcontrol : s.control = .checkAllAPs k caller) (hsingle : s.singleThread = true)
    (hcollected : (s.collected k).cpu n = s.cpu n)
    (hnext : (s.collected k).getNextWaitingProcessorNumber P = some m) : n ≠ m := by
  rintro rfl
  have hlisted := MpState.cpuList_of_getNextWaiting hnext
  rw [hcollected] at hlisted
  have hslow := ((h.listed hlisted).of_polling hcontrol).2
  exact Bool.noConfusion (hslow.symm.trans hsingle)

/-- A round of `CheckAllAPs`. -/
theorem checkAllStep (h : Asleep P s n) {k : ℕ} {caller : Option Caller}
    (hcontrol : s.control = .checkAllAPs k caller) :
    Asleep P { s.checkAllStep P k with control := .checkAllAPs (k + 1) caller } n := by
  have hstep : (s.checkAllStep P k).cpu n = s.cpu n ∧ SameCall s (s.checkAllStep P k) := by
    by_cases hfound : (s.cpu k).cpuList = true ∧ (s.cpu k).state = .finished
    · have hne : n ≠ k := by
        rintro rfl
        rw [h.state] at hfound
        cases hfound.2
      have hcollected : (s.collected k).cpu n = s.cpu n := MpState.collected_cpu_of_ne hne
      rw [MpState.checkAllStep_of_finished hfound.1 hfound.2]
      split
      next hsingle =>
        split
        next m hnext =>
          have hnm := h.ne_of_getNextWaiting hcontrol hsingle hcollected hnext
          exact ⟨(MpState.modify_cpu_of_ne hnm _).trans hcollected, ⟨rfl, rfl, rfl, rfl⟩⟩
        · exact ⟨hcollected, ⟨rfl, rfl, rfl, rfl⟩⟩
      · exact ⟨hcollected, ⟨rfl, rfl, rfl, rfl⟩⟩
    · rw [MpState.checkAllStep_of_not_finished hfound]
      exact ⟨rfl, ⟨rfl, rfl, rfl, rfl⟩⟩
  obtain ⟨hcpu, hbsp, hevent, htime, hsingle⟩ := hstep
  exact h.congr_of_same hcpu ⟨hbsp, hevent, htime, hsingle⟩
    (fun _ _ _ ↦ .inl ⟨k, caller, hcontrol⟩) nofun

/-- `CheckAllAPs` behind its loop. If it resets the APs on its list, this one is not on it. -/
theorem checkAllEnd (h : Asleep P s n) {k : ℕ} {caller : Option Caller} (expired : Bool)
    (hcontrol : s.control = .checkAllAPs k caller) :
    (s.checkAllEnd P expired).2.cpu n = s.cpu n ∧ SameCall s (s.checkAllEnd P expired).2 := by
  rw [MpState.checkAllEnd]
  split
  · exact ⟨rfl, ⟨rfl, rfl, rfl, rfl⟩⟩
  split
  next hexpired =>
    refine ⟨if_neg ?_, ⟨rfl, rfl, rfl, rfl⟩⟩
    rintro ⟨-, hlisted⟩
    have hslow := ((h.listed hlisted).of_polling hcontrol).1
    rw [hslow] at hexpired
    cases hexpired
  · exact ⟨rfl, ⟨rfl, rfl, rfl, rfl⟩⟩

/-- What follows a `CheckAllAPs` that has returned. -/
theorem checkedAllAPs (h : Asleep P s n) {k : ℕ} {caller : Option Caller} (expired : Bool)
    (hcontrol : s.control = .checkAllAPs k caller) :
    Asleep P ((s.checkAllEnd P expired).2.checkedAllAPs (s.checkAllEnd P expired).1 caller) n := by
  have hend := h.checkAllEnd expired hcontrol
  generalize s.checkAllEnd P expired = r at hend
  obtain ⟨status, t⟩ := r
  obtain ⟨hcpu, hbsp, hevent, htime, hsingle⟩ := hend
  dsimp only at hcpu hbsp hevent htime hsingle ⊢
  cases caller with
  | some caller =>
    rw [MpState.checkedAllAPs]
    split
    · refine h.congr hcpu (hbsp ▸ h.notBsp) (fun _ hharmless ↦ ?_) nofun
      exact hharmless.congr (fun k' caller' hk ↦ by cases hk) (fun _ ↦ rfl) htime hsingle
    · exact h.congr_of_same hcpu ⟨hbsp, hevent, htime, hsingle⟩
        (fun _ _ _ ↦ .inl ⟨k, _, hcontrol⟩) nofun
  | none =>
    rw [MpState.checkedAllAPs]
    split
    · exact h.congr_of_same hcpu ⟨hbsp, hevent, htime, hsingle⟩
        (fun _ _ _ ↦ .inl ⟨k, _, hcontrol⟩) nofun
    · exact h.congr_of_same hcpu ⟨hbsp, hevent, htime, hsingle⟩
        (fun _ _ _ ↦ .inl ⟨k, _, hcontrol⟩) nofun

/-- `CheckThisAP`. It finds this AP not finished, and without a timeout. -/
theorem checkThisAP (h : Asleep P s n) {k : ℕ} (expired : Bool)
    (hevent : k = n → (s.cpu n).waitEvent.isSome = true) :
    (s.checkThisAP k expired).2.cpu n = s.cpu n ∧ SameCall s (s.checkThisAP k expired).2 ∧
      (k = n → (s.checkThisAP k expired).1 = .notReady) := by
  rw [MpState.checkThisAP]
  split
  next hfinished =>
    have hne : n ≠ k := by
      rintro rfl
      rw [h.state] at hfinished
      cases hfinished
    exact ⟨Function.update_of_ne hne _ _, ⟨rfl, rfl, rfl, rfl⟩, fun heq ↦ absurd heq.symm hne⟩
  split
  next hexpired =>
    have hne : n ≠ k := by
      rintro rfl
      rw [h.event (hevent rfl)] at hexpired
      cases hexpired
    exact ⟨Function.update_of_ne hne _ _, ⟨rfl, rfl, rfl, rfl⟩, fun heq ↦ absurd heq.symm hne⟩
  · exact ⟨rfl, ⟨rfl, rfl, rfl, rfl⟩, fun _ ↦ rfl⟩

/-- A round of the second loop of `CheckAndUpdateAPsStatus`. -/
theorem checkTheseStep (h : Asleep P s n) (k : ℕ) (caller : Caller) (expired : Bool) :
    Asleep P { s.checkTheseStep k expired with control := .checkTheseAPs (k + 1) caller } n := by
  have hstep : (s.checkTheseStep k expired).cpu n = s.cpu n ∧
      SameCall s (s.checkTheseStep k expired) := by
    rw [MpState.checkTheseStep]
    split
    next hevent =>
      obtain ⟨hcpu, hcall, hnotReady⟩ := h.checkThisAP (k := k) expired fun heq ↦ heq ▸ hevent
      dsimp only
      split
      next hdone =>
        have hne : n ≠ k := fun heq ↦ hdone (hnotReady heq.symm)
        refine ⟨(Function.update_of_ne hne _ _).trans hcpu, ?_⟩
        exact ⟨hcall.bspNumber, hcall.waitEvent, hcall.expectedTime, hcall.singleThread⟩
      · exact ⟨hcpu, hcall⟩
    · exact ⟨rfl, ⟨rfl, rfl, rfl, rfl⟩⟩
  obtain ⟨hcpu, hbsp, hevent, htime, hsingle⟩ := hstep
  exact h.congr_of_same hcpu ⟨hbsp, hevent, htime, hsingle⟩ nofun nofun

/-! ### Steps of the services -/

/-- A step that takes the AP off the list. -/
theorem of_unlisted (h : Asleep P s n) {s' : MpState}
    (hcpu : s'.cpu n = { s.cpu n with cpuList := false }) (hbsp : s'.bspNumber = s.bspNumber)
    (hcontrol : s'.control = .outside ∨ s'.control = .checkAllAPs 0 none) : Asleep P s' n := by
  have hawaited : s'.control ≠ .checkThisAP n := by
    rcases hcontrol with hcontrol | hcontrol
    · rw [hcontrol]
      intro hk
      cases hk
    · rw [hcontrol]
      intro hk
      cases hk
  obtain ⟨hn, hne, hstate, hloop, hsignal, -, hevent, -⟩ := h
  have hoff : (s'.cpu n).cpuList = true → s'.Harmless := by
    intro hlisted
    rw [hcpu] at hlisted
    cases hlisted
  exact ⟨hn, by rwa [hbsp], by rwa [hcpu], by rwa [hcpu], by rwa [hcpu], hoff, by rwa [hcpu],
    hawaited⟩

theorem idleAP_eq_false (h : Asleep P s n) : s.idleAP n = false := by
  rw [MpState.idleAP, h.state]
  exact Bool.and_false _

/-- `StartupAllAPs` behind the poll. Whether it is rejected or not, it does not list the AP. -/
theorem startAllAPs (h : Asleep P s n) (args : AllApsArgs) : Asleep P (s.startAllAPs P args) n := by
  by_cases hbusy : ∃ j < P.numberOfProcessors, s.BusyAP j
  · obtain ⟨j, hj, hbusyj, hfirst⟩ := MpState.exists_first_busy hbusy
    rw [MpState.startAllAPs_of_busy hj hbusyj hfirst]
    by_cases hnj : n < j + 1
    · have hcpu : (s.listed 0 (j + 1)).cpu n = { s.cpu n with cpuList := false } := by
        rw [MpState.listed]
        dsimp only
        rw [if_pos ⟨Nat.zero_le n, hnj⟩, h.idleAP_eq_false]
      exact h.of_unlisted hcpu rfl (.inl rfl)
    · exact h.congr_of_outside (if_neg fun hboth ↦ hnj hboth.2) ⟨rfl, rfl, rfl, rfl⟩ rfl
  · have hnone : ∀ m < P.numberOfProcessors, ¬ s.BusyAP m := fun m hm hb ↦ hbusy ⟨m, hm, hb⟩
    have hcpu := MpState.allStarted_cpu_of_not_idle args h.number h.idleAP_eq_false
    rw [MpState.startAllAPs_of_not_busy hnone]
    split
    · exact h.of_unlisted hcpu rfl (.inl rfl)
    · dsimp only
      split
      · exact h.of_unlisted hcpu rfl (.inl rfl)
      · exact h.of_unlisted hcpu rfl (.inr rfl)

/-- `StartupThisAP` behind the poll. It rejects a call for the AP. -/
theorem startThisAP (h : Asleep P s n) (args : ThisApArgs) : Asleep P (s.startThisAP P args) n := by
  rw [MpState.startThisAP]
  split
  · exact h.congr_of_outside rfl ⟨rfl, rfl, rfl, rfl⟩ rfl
  next henabled =>
    have hne : n ≠ args.processorNumber := fun heq ↦ henabled (heq ▸ h.state)
    split
    · exact h.congr_of_outside rfl ⟨rfl, rfl, rfl, rfl⟩ rfl
    · have hcpu : (((s.modify args.processorNumber fun c ↦ { c with state := .ready }).wakeUpAp P
          args.processorNumber args.procedure).modify args.processorNumber fun c ↦
            { c with
              waitEvent := args.waitEvent
              finished := if args.finished then some true else none
              expectedTime := args.timeout }).cpu n = s.cpu n := by
        rw [MpState.modify_cpu_of_ne hne]
        exact (MpState.modify_cpu_of_ne hne _).trans (MpState.modify_cpu_of_ne hne _)
      dsimp only
      split
      · exact h.congr_of_outside hcpu ⟨rfl, rfl, rfl, rfl⟩ rfl
      · refine h.congr_of_same hcpu ⟨rfl, rfl, rfl, rfl⟩ (fun k caller hk ↦ ?_) fun hawaits ↦ ?_
        · cases hk
        · injection hawaits with heq
          exact hne heq.symm

/-- A poll that begins. -/
theorem checkAndUpdate (h : Asleep P s n) (caller : Caller) :
    Asleep P (s.checkAndUpdate caller) n := by
  rw [MpState.checkAndUpdate]
  split
  next hevent => exact h.congr_of_same rfl ⟨rfl, rfl, rfl, rfl⟩ (fun _ _ _ ↦ .inr hevent) nofun
  · exact h.congr_of_same rfl ⟨rfl, rfl, rfl, rfl⟩ nofun nofun

/-- A step of the BSP. -/
theorem bspStep (h : Asleep P s n) (expired : Bool) : Asleep P (s.bspStep P expired) n := by
  cases hcontrol : s.control with
  | outside =>
    rw [MpState.bspStep_outside hcontrol]
    exact h
  | checkAllAPs k caller =>
    rcases Nat.lt_or_ge k P.numberOfProcessors with hk | hk
    · rw [MpState.bspStep_checkAllAPs hcontrol hk]
      exact h.checkAllStep hcontrol
    · rw [MpState.bspStep_checkedAllAPs hcontrol hk]
      exact h.checkedAllAPs expired hcontrol
  | checkTheseAPs k caller =>
    rcases Nat.lt_or_ge k P.numberOfProcessors with hk | hk
    · rw [MpState.bspStep_checkTheseAPs hcontrol hk]
      exact h.checkTheseStep k caller expired
    · rw [MpState.bspStep_updated hcontrol hk]
      cases caller with
      | checkAPsStatus => exact h.congr_of_outside rfl ⟨rfl, rfl, rfl, rfl⟩ rfl
      | startupAllAPs args => exact h.startAllAPs args
      | startupThisAP args => exact h.startThisAP args
  | checkThisAP k =>
    have hne : k ≠ n := fun heq ↦ h.notAwaited (heq ▸ hcontrol)
    obtain ⟨hcpu, hcall, -⟩ := h.checkThisAP expired fun heq ↦ absurd heq hne
    rw [MpState.bspStep_checkThisAP hcontrol]
    split
    · refine h.congr_of_outside hcpu ?_ rfl
      exact ⟨hcall.bspNumber, hcall.waitEvent, hcall.expectedTime, hcall.singleThread⟩
    · exact h.congr_of_control hcpu hcall (MpState.control_checkThisAP k expired)

/-- `EnableDisableAP`, unless it enables the AP. -/
theorem enableDisableAP (h : Asleep P s n) {m : ℕ} {newAPState : Bool}
    (hkeep : m = n → newAPState = false) : Asleep P (s.enableDisableAP P m newAPState) n := by
  have hcpu : (s.enableDisableAP P m newAPState).cpu n = s.cpu n := by
    rw [MpState.enableDisableAP]
    split
    · rfl
    split
    · rfl
    · rcases eq_or_ne n m with rfl | hne
      · -- the AP is disabled as it was
        have hself : (s.changeCpuState n false).cpu n = { s.cpu n with state := .disabled } :=
          MpState.modify_cpu_self n _
        rw [← h.state] at hself
        rw [hkeep rfl]
        exact hself
      · exact Function.update_of_ne hne _ _
  have hcall : SameCall s (s.enableDisableAP P m newAPState) := by
    rw [MpState.enableDisableAP]
    split
    · exact ⟨rfl, rfl, rfl, rfl⟩
    split
    · exact ⟨rfl, rfl, rfl, rfl⟩
    · exact ⟨rfl, rfl, rfl, rfl⟩
  exact h.congr_of_control hcpu hcall (MpState.control_enableDisableAP m newAPState)

/-- `SwitchBSP`. It does not take an AP that is disabled. -/
theorem switchBSP (h : Asleep P s n) (m : ℕ) (enableOldBSP : Bool) :
    Asleep P (s.switchBSP P m enableOldBSP) n := by
  have hcontrol : (s.switchBSP P m enableOldBSP).control ≠ .checkThisAP n := by
    rw [MpState.control_switchBSP]
    exact h.notAwaited
  rw [MpState.switchBSP] at hcontrol ⊢
  split
  · exact h.congr_of_control rfl ⟨rfl, rfl, rfl, rfl⟩ rfl
  next hother =>
    split
    · exact h.congr_of_control rfl ⟨rfl, rfl, rfl, rfl⟩ rfl
    next hbsp =>
      split
      · exact h.congr_of_control rfl ⟨rfl, rfl, rfl, rfl⟩ rfl
      next henabled =>
        split
        · exact h.congr_of_control rfl ⟨rfl, rfl, rfl, rfl⟩ rfl
        next hidle =>
          have hne : n ≠ m := fun heq ↦ henabled (heq ▸ h.state)
          rw [if_neg hother, if_neg hbsp, if_neg henabled, if_neg hidle] at hcontrol
          refine h.congr ?_ hne (fun _ hharmless ↦ ?_) hcontrol
          · exact (Function.update_of_ne h.notBsp _ _).trans
              ((Function.update_of_ne h.notBsp _ _).trans (Function.update_of_ne hne _ _))
          · exact hharmless.congr (fun k caller hk ↦ .inl ⟨k, caller, hk⟩) (fun hnone ↦ hnone) rfl rfl

/-- An AP that is at rest when it is disabled. -/
theorem of_atRest (hrest : AtRest s n) (houtside : s.isOutside = true)
    (hn : n < P.numberOfProcessors) (hbsp : n ≠ s.bspNumber) :
    Asleep P (s.enableDisableAP P n false) n := by
  have hstep : s.enableDisableAP P n false
      = { s.changeCpuState n false with returned := some .success } := by
    rw [MpState.enableDisableAP, if_neg (Nat.not_le.2 hn), if_neg hbsp]
  have hcpu : (s.enableDisableAP P n false).cpu n = { s.cpu n with state := .disabled } := by
    rw [hstep]
    exact Function.update_self _ _ _
  have hcontrol : (s.enableDisableAP P n false).control = .outside := by
    rw [MpState.control_enableDisableAP]
    exact MpState.control_of_isOutside houtside
  have hlisted : (s.cpu n).cpuList = true → (s.enableDisableAP P n false).Harmless := by
    intro hlisted
    rw [hstep] at hcontrol ⊢
    cases hevent : s.waitEvent with
    | none =>
      refine .inl ⟨fun k caller hk ↦ ?_, hevent⟩
      rw [hcontrol] at hk
      cases hk
    | some event => exact .inr (hrest.listed hlisted (by rw [hevent]; rfl))
  refine ⟨hn, ?_, ?_, ?_, ?_, ?_, ?_, ?_⟩
  · rw [hstep]
    exact hbsp
  · rw [hcpu]
  · rw [hcpu]
    exact hrest.loop
  · rw [hcpu]
    exact hrest.signal
  · rw [hcpu]
    exact hlisted
  · rw [hcpu]
    exact hrest.event
  · rw [hcontrol]
    intro hk
    cases hk

end Asleep

/-! ### Runs -/

/-- Every AP held is asleep. -/
def HeldAsleep (P : MpPlatform) (m : Monitored) : Prop :=
  ∀ n, m.held n = true → Asleep P m.state n

namespace HeldAsleep

variable {m : Monitored}

/-- `EnableDisableAP`. -/
theorem enableDisableAP (h : HeldAsleep P m) {k : ℕ} {newAPState : Bool}
    (hrest : DisablesAtRest P m (.enableDisableAP k newAPState)) :
    HeldAsleep P (m.next P (.enableDisableAP k newAPState)) := by
  intro n hheld
  change m.heldNext P (.enableDisableAP k newAPState) n = true at hheld
  change Asleep P (if m.state.isOutside then m.state.enableDisableAP P k newAPState else m.state) n
  rw [Monitored.heldNext] at hheld
  split at hheld
  next hdone =>
    obtain ⟨houtside, hk, hbsp⟩ := hdone
    rw [if_pos houtside]
    rcases eq_or_ne n k with rfl | hne
    · rw [Function.update_self] at hheld
      obtain rfl : newAPState = false := by simpa using hheld
      exact .of_atRest (hrest n rfl houtside hk hbsp) houtside hk hbsp
    · rw [Function.update_of_ne hne] at hheld
      exact (h n hheld).enableDisableAP fun heq ↦ absurd heq.symm hne
  next hrejected =>
    have hasleep := h n hheld
    split
    next houtside =>
      refine hasleep.enableDisableAP fun heq ↦ absurd ⟨houtside, ?_⟩ hrejected
      exact heq ▸ ⟨hasleep.number, hasleep.notBsp⟩
    · exact hasleep

/-- `SwitchBSP`. -/
theorem switchBSP (h : HeldAsleep P m) (k : ℕ) (enableOldBSP : Bool) :
    HeldAsleep P (m.next P (.switchBSP k enableOldBSP)) := by
  intro n hheld
  have hbefore : m.held n = true := by
    change m.heldNext P (.switchBSP k enableOldBSP) n = true at hheld
    rw [Monitored.heldNext] at hheld
    split at hheld
    · rcases eq_or_ne n m.state.bspNumber with rfl | hbsp
      · rw [Function.update_self] at hheld
        cases hheld
      rw [Function.update_of_ne hbsp] at hheld
      rcases eq_or_ne n k with rfl | hne
      · rw [Function.update_self] at hheld
        cases hheld
      rwa [Function.update_of_ne hne] at hheld
    · exact hheld
  change Asleep P (if m.state.isOutside then m.state.switchBSP P k enableOldBSP else m.state) n
  split
  · exact (h n hbefore).switchBSP k enableOldBSP
  · exact h n hbefore

/-- **A step of a run.** -/
theorem next (h : HeldAsleep P m) {e : MpEvent} (hrest : DisablesAtRest P m e) :
    HeldAsleep P (m.next P e) := by
  cases e with
  | ap k => exact fun n hheld ↦ (h n hheld).apStep k
  | bsp expired => exact fun n hheld ↦ (h n hheld).bspStep expired
  | timer =>
    intro n hheld
    have hasleep := h n hheld
    rw [Monitored.next, MpState.next]
    split
    · exact hasleep.checkAndUpdate .checkAPsStatus
    · exact hasleep
  | startupAllAPs args =>
    intro n hheld
    have hasleep := h n hheld
    rw [Monitored.next, MpState.next]
    split
    · rw [MpState.startupAllAPs]
      split
      · exact hasleep.congr_of_control rfl ⟨rfl, rfl, rfl, rfl⟩ rfl
      · have hstopped : Asleep P { m.state with stopCheckAPsStatus := true, returned := none } n :=
          hasleep.congr_of_control rfl ⟨rfl, rfl, rfl, rfl⟩ rfl
        exact hstopped.checkAndUpdate _
    · exact hasleep
  | startupThisAP args =>
    intro n hheld
    have hasleep := h n hheld
    rw [Monitored.next, MpState.next]
    split
    · rw [MpState.startupThisAP]
      split
      · exact hasleep.congr_of_control rfl ⟨rfl, rfl, rfl, rfl⟩ rfl
      split
      · exact hasleep.congr_of_control rfl ⟨rfl, rfl, rfl, rfl⟩ rfl
      split
      · exact hasleep.congr_of_control rfl ⟨rfl, rfl, rfl, rfl⟩ rfl
      · have hstopped : Asleep P { m.state with stopCheckAPsStatus := true, returned := none } n :=
          hasleep.congr_of_control rfl ⟨rfl, rfl, rfl, rfl⟩ rfl
        exact hstopped.checkAndUpdate _
    · exact hasleep
  | enableDisableAP k newAPState => exact h.enableDisableAP hrest
  | switchBSP k enableOldBSP => exact h.switchBSP k enableOldBSP

/-- **A run.** -/
theorem run (h : HeldAsleep P m) {es : List MpEvent}
    (hrest : Along (Monitored.next P) (DisablesAtRest P) m es) :
    HeldAsleep P (es.foldl (Monitored.next P) m) := by
  induction es generalizing m with
  | nil => exact h
  | cons e es ih => exact ih (h.next hrest.1) hrest.2

end HeldAsleep

/-- **Disabled APs.** In a run that disables only APs at rest, every AP that has been disabled stays
disabled, and nothing is dispatched to it, until it is enabled or takes part in a switch of the
BSP. -/
theorem staysDisabled_of_along (P : MpPlatform) (s : QuietState P) (es : List MpEvent)
    (hrest : Along (Monitored.next P) (DisablesAtRest P) ⟨s.toMpState, fun _ ↦ false⟩ es) :
    (es.foldl (Monitored.next P) ⟨s.toMpState, fun _ ↦ false⟩).StaysDisabled ∧
      (es.foldl (Monitored.next P) ⟨s.toMpState, fun _ ↦ false⟩).NothingDispatched := by
  have hasleep := HeldAsleep.run (fun _ hheld ↦ Bool.noConfusion hheld) hrest
  exact ⟨fun n hheld ↦ (hasleep n hheld).state,
    fun n hheld ↦ ⟨(hasleep n hheld).loop, (hasleep n hheld).signal⟩⟩

/-- The AP is disabled while it is at rest, and a `StartupAllAPs` after that passes it over. -/
theorem staysDisabled_disabledFirst :
    ([.enableDisableAP 1 false, .startupAllAPs ⟨some ⟨1, 0⟩, false, some 7, false, false⟩, .bsp false,
      .bsp false, .bsp false, .ap 1].foldl (Monitored.next twoProcessors)
        ⟨twoAtRest.toMpState, fun _ ↦ false⟩).StaysDisabled ∧
    ([.enableDisableAP 1 false, .startupAllAPs ⟨some ⟨1, 0⟩, false, some 7, false, false⟩, .bsp false,
      .bsp false, .bsp false, .ap 1].foldl (Monitored.next twoProcessors)
        ⟨twoAtRest.toMpState, fun _ ↦ false⟩).NothingDispatched := by
  refine staysDisabled_of_along twoProcessors twoAtRest _ ⟨?_, nofun, nofun, nofun, nofun, nofun,
    trivial⟩
  rintro n ⟨⟩ - - -
  exact ⟨rfl, rfl, nofun, nofun⟩

/-- The AP is given a procedure and disabled before it has begun with it. It sets its own state. -/
theorem not_staysDisabled_disabledLate :
    ¬ ([.startupThisAP ⟨some ⟨1, 0⟩, 1, some 7, false, false⟩, .bsp false, .bsp false, .bsp false,
      .enableDisableAP 1 false, .ap 1, .ap 1].foldl (Monitored.next twoProcessors)
        ⟨twoAtRest.toMpState, fun _ ↦ false⟩).StaysDisabled := by
  intro h
  have hbusy := h 1 (by decide)
  exact absurd hbusy (by decide)

end PurleyFirmware.MpService
