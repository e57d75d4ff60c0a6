import PurleyFirmware.CpuMp.MpStartup
import PurleyFirmware.Foundation.Runs

/-!
# Rejected calls

What a call that is rejected does to a `StartupAllAPs` that is pending. `StartupAllAPs` writes its
`CpuList` while it looks whether all APs are idle, and what it has written stays when it finds one
that is not. So the pending call loses the first AP that is busy, and gets back those before it that
it had done with. No other field is written, and `StartupThisAP` writes none at all.

`along_undisturbed_iff` says on which runs no rejected call disturbs anything: those in which each
finds the list as it would write it. In these runs a pending call completes exactly when all the APs
that it started have been found finished, for the list and the two counters say which are left.
-/

namespace PurleyFirmware.MpService

/-! ### Bookkeeping -/

/-- The bookkeeping of `StartupAllAPs` is the same in both states. -/
structure SameBooks (s s' : MpState) : Prop where
  startCount : s'.startCount = s.startCount
  finishCount : s'.finishCount = s.finishCount
  waitEvent : s'.waitEvent = s.waitEvent
  cpuList : ∀ n, (s'.cpu n).cpuList = (s.cpu n).cpuList

/-- So are the states of the processors. -/
structure Undisturbed (s s' : MpState) : Prop extends SameBooks s s' where
  state : ∀ n, (s'.cpu n).state = (s.cpu n).state

namespace SameBooks

variable {s s' s'' : MpState}

theorem trans (h : SameBooks s s') (h' : SameBooks s' s'') : SameBooks s s'' :=
  ⟨h'.startCount.trans h.startCount, h'.finishCount.trans h.finishCount,
    h'.waitEvent.trans h.waitEvent, fun n ↦ (h'.cpuList n).trans (h.cpuList n)⟩

theorem of_cpu (h : s'.cpu = s.cpu) (hstart : s'.startCount = s.startCount)
    (hfinish : s'.finishCount = s.finishCount) (hwait : s'.waitEvent = s.waitEvent) :
    SameBooks s s' :=
  ⟨hstart, hfinish, hwait, fun n ↦ by rw [h]⟩

/-- The record of a processor changes, but not its entry of the list. -/
theorem of_update {n : ℕ} {c : Processor} (h : s'.cpu = Function.update s.cpu n c)
    (hc : c.cpuList = (s.cpu n).cpuList) (hstart : s'.startCount = s.startCount)
    (hfinish : s'.finishCount = s.finishCount) (hwait : s'.waitEvent = s.waitEvent) :
    SameBooks s s' := by
  refine ⟨hstart, hfinish, hwait, fun m ↦ ?_⟩
  rw [h]
  rcases eq_or_ne m n with rfl | hne
  · rw [Function.update_self, hc]
  · rw [Function.update_of_ne hne]

theorem modify {n : ℕ} {f : Processor → Processor} (h : ∀ c, (f c).cpuList = c.cpuList) :
    SameBooks s (s.modify n f) :=
  .of_update rfl (h _) rfl rfl rfl

end SameBooks

namespace Processor

variable {P : MpPlatform} {c : Processor}

theorem cpuList_apStep (apFunction : Bool) : (c.apStep P apFunction).cpuList = c.cpuList := by
  rw [apStep]
  split
  · split
    · rfl
    · rfl
  · split
    · rfl
    · rfl
  · rfl
  · split
    · rfl
    · rfl
  · rfl
  · rfl
  · rfl

theorem cpuList_wakeUp (task : Option ApTask) : (c.wakeUp P task).cpuList = c.cpuList := by
  rw [wakeUp]
  split
  · rfl
  · rfl

end Processor

namespace MpState

variable {P : MpPlatform} {s : MpState}

theorem sameBooks_apStep (n : ℕ) : SameBooks s (s.apStep P n) := by
  rw [apStep]
  split
  · exact .modify fun _ ↦ Processor.cpuList_apStep _
  · exact .of_cpu rfl rfl rfl rfl

theorem sameBooks_wakeUpAp (n : ℕ) (task : Option ApTask) : SameBooks s (s.wakeUpAp P n task) :=
  .of_update rfl (Processor.cpuList_wakeUp task) rfl rfl rfl

theorem sameBooks_checkAndUpdate (caller : Caller) : SameBooks s (s.checkAndUpdate caller) := by
  rw [checkAndUpdate]
  split
  · exact .of_cpu rfl rfl rfl rfl
  · exact .of_cpu rfl rfl rfl rfl

theorem sameBooks_checkThisAP (n : ℕ) (expired : Bool) :
    SameBooks s (s.checkThisAP n expired).2 := by
  rw [checkThisAP]
  split
  · exact .of_update rfl rfl rfl rfl rfl
  split
  · exact .of_update rfl rfl rfl rfl rfl
  · exact .of_cpu rfl rfl rfl rfl

theorem sameBooks_checkTheseStep (k : ℕ) (expired : Bool) :
    SameBooks s (s.checkTheseStep k expired) := by
  rw [checkTheseStep]
  split
  · have h := sameBooks_checkThisAP (s := s) k expired
    dsimp only
    split
    · exact h.trans (.of_update rfl rfl rfl rfl rfl)
    · exact h
  · exact .of_cpu rfl rfl rfl rfl

theorem sameBooks_startThisAP (args : ThisApArgs) : SameBooks s (s.startThisAP P args) := by
  rw [startThisAP]
  split
  · exact .of_cpu rfl rfl rfl rfl
  split
  · exact .of_cpu rfl rfl rfl rfl
  · have hready : SameBooks s (s.modify args.processorNumber fun c ↦ { c with state := .ready }) :=
      .modify fun _ ↦ rfl
    have hwoken := hready.trans (sameBooks_wakeUpAp (P := P) args.processorNumber args.procedure)
    dsimp only
    split
    · exact hwoken.trans (.of_update rfl rfl rfl rfl rfl)
    · exact hwoken.trans (.of_update rfl rfl rfl rfl rfl)

theorem sameBooks_enableDisableAP (n : ℕ) (newAPState : Bool) :
    SameBooks s (s.enableDisableAP P n newAPState) := by
  rw [enableDisableAP]
  split
  · exact .of_cpu rfl rfl rfl rfl
  split
  · exact .of_cpu rfl rfl rfl rfl
  · exact .of_update rfl rfl rfl rfl rfl

theorem sameBooks_switchBSP (n : ℕ) (enableOldBSP : Bool) :
    SameBooks s (s.switchBSP P n enableOldBSP) := by
  rw [switchBSP]
  split
  · exact .of_cpu rfl rfl rfl rfl
  split
  · exact .of_cpu rfl rfl rfl rfl
  split
  · exact .of_cpu rfl rfl rfl rfl
  split
  · exact .of_cpu rfl rfl rfl rfl
  · have hnew : SameBooks s (s.modify n fun c ↦
        { c with
          procedure := none, state := .busy, apLoopMode := P.apLoopMode, startupApSignal := false
          ap := .loop }) := .modify fun _ ↦ rfl
    have hold := hnew.trans (.modify (n := s.bspNumber) (f := fun c ↦
      { c with apLoopMode := P.apLoopMode, startupApSignal := false, ap := .loop }) fun _ ↦ rfl)
    exact hold.trans (.of_update rfl rfl rfl rfl rfl)

end MpState

/-! ### An observer of the pending call -/

/-- The machine, and the APs that the last `StartupAllAPs` accepted has started and that no poll has
found finished since. -/
structure Watched where
  state : MpState
  awaited : ℕ → Bool

namespace Watched

variable (P : MpPlatform)

/-- The APs still awaited after a step. A poll goes through the processors; if it ends with the
timeout, the call is over. -/
def awaitedNext (w : Watched) (e : MpEvent) : ℕ → Bool :=
  match e, w.state.control with
  | .bsp expired, .checkAllAPs k _ =>
    if k < P.numberOfProcessors then
      if (w.state.cpu k).state = .finished then Function.update w.awaited k false else w.awaited
    else if (w.state.checkAllEnd P expired).1 = .timeout then fun _ ↦ false
    else w.awaited
  | .bsp _, .checkTheseAPs k (.startupAllAPs _) =>
    if P.numberOfProcessors ≤ k ∧ ∀ n < P.numberOfProcessors, ¬ w.state.BusyAP n then
      fun n ↦ decide (n ≠ w.state.bspNumber) && decide ((w.state.cpu n).state ≠ .disabled)
    else w.awaited
  | _, _ => w.awaited

variable {P} {w : Watched} {expired : Bool} {k : ℕ}

theorem awaitedNext_checkAllAPs {caller : Option Caller}
    (h : w.state.control = .checkAllAPs k caller) :
    w.awaitedNext P (.bsp expired) =
      if k < P.numberOfProcessors then
        if (w.state.cpu k).state = .finished then Function.update w.awaited k false else w.awaited
      else if (w.state.checkAllEnd P expired).1 = .timeout then fun _ ↦ false
      else w.awaited := by
  unfold awaitedNext
  rw [h]

theorem awaitedNext_startupAllAPs {args : AllApsArgs}
    (h : w.state.control = .checkTheseAPs k (.startupAllAPs args)) :
    w.awaitedNext P (.bsp expired) =
      if P.numberOfProcessors ≤ k ∧ ∀ n < P.numberOfProcessors, ¬ w.state.BusyAP n then
        fun n ↦ decide (n ≠ w.state.bspNumber) && decide ((w.state.cpu n).state ≠ .disabled)
      else w.awaited := by
  unfold awaitedNext
  rw [h]

theorem awaitedNext_checkTheseAPs {caller : Caller}
    (h : w.state.control = .checkTheseAPs k caller) (hcaller : ∀ args, caller ≠ .startupAllAPs args) :
    w.awaitedNext P (.bsp expired) = w.awaited := by
  unfold awaitedNext
  rw [h]
  cases caller with
  | checkAPsStatus => rfl
  | startupAllAPs args => exact absurd rfl (hcaller args)
  | startupThisAP args => rfl

variable (P)

/-- A step of both. -/
def next (w : Watched) (e : MpEvent) : Watched := ⟨w.state.next P e, w.awaitedNext P e⟩

end Watched

/-! ### The property and the condition -/

/-- Whether it is a start that polls first. -/
def Caller.isStartup : Caller → Bool
  | .checkAPsStatus => false
  | _ => true

/-- Whether the BSP is in a call of `StartupAllAPs` or `StartupThisAP`. -/
def MpState.inStartup (s : MpState) : Bool :=
  match s.control with
  | .outside => false
  | .checkAllAPs _ none => true
  | .checkAllAPs _ (some caller) => caller.isStartup
  | .checkTheseAPs _ caller => caller.isStartup
  | .checkThisAP _ => true

/-- In this step a call of `StartupAllAPs` or `StartupThisAP` returns `EFI_NOT_READY` or
`EFI_INVALID_PARAMETER`. -/
def Rejects (P : MpPlatform) (s : MpState) (e : MpEvent) : Prop :=
  (match e with
    | .bsp _ => s.inStartup = true
    | .startupAllAPs _ => s.isOutside = true
    | .startupThisAP _ => s.isOutside = true
    | _ => False) ∧ (s.next P e).isOutside = true ∧
      ((s.next P e).returned = some .notReady ∨ (s.next P e).returned = some .invalidParameter)

/-- A call that is rejected in this step disturbs nothing, and a poll that ends in it finds the
pending call complete exactly if no AP is awaited. -/
structure StepUndisturbed (P : MpPlatform) (w : Watched) (e : MpEvent) : Prop where
  rejected : Rejects P w.state e → Undisturbed w.state (w.state.next P e)
  completes : ∀ k caller expired, e = .bsp expired → w.state.control = .checkAllAPs k caller →
    P.numberOfProcessors ≤ k →
      ((w.state.checkAllEnd P expired).1 = .success ↔ ∀ n < P.numberOfProcessors, w.awaited n = false)

/-- A `StartupAllAPs` that is to be rejected in this step finds the list as it will write it: with
the idle APs before the first busy one, and without that one. -/
def FindsListWritten (P : MpPlatform) (s : MpState) (e : MpEvent) : Prop :=
  ∀ k args expired j, e = .bsp expired → s.control = .checkTheseAPs k (.startupAllAPs args) →
    P.numberOfProcessors ≤ k → j < P.numberOfProcessors → s.BusyAP j → (∀ n < j, ¬ s.BusyAP n) →
      (s.cpu j).cpuList = false ∧ ∀ n < j, (s.cpu n).cpuList = s.idleAP n

/-! ### Rejections -/

section

variable {P : MpPlatform} {s : MpState}

/-- What the check has written is what was there. -/
theorem undisturbed_listed_iff {j : ℕ} (hbusy : s.BusyAP j) :
    Undisturbed s ((s.listed 0 (j + 1)).leave .notReady) ↔
      (s.cpu j).cpuList = false ∧ ∀ n < j, (s.cpu n).cpuList = s.idleAP n := by
  have hcpu : ∀ n, ((s.listed 0 (j + 1)).leave .notReady).cpu n
      = if 0 ≤ n ∧ n < j + 1 then { s.cpu n with cpuList := s.idleAP n } else s.cpu n := fun _ ↦ rfl
  constructor
  · intro h
    have hlist : ∀ n < j + 1, (s.cpu n).cpuList = s.idleAP n := by
      intro n hn
      have hn' := h.cpuList n
      rw [hcpu, if_pos ⟨Nat.zero_le n, hn⟩] at hn'
      exact hn'.symm
    refine ⟨?_, fun n hn ↦ hlist n (by omega)⟩
    rw [hlist j (Nat.lt_succ_self j), hbusy.idleAP_eq_false]
  · rintro ⟨hj, hlist⟩
    refine ⟨⟨rfl, rfl, rfl, fun n ↦ ?_⟩, fun n ↦ ?_⟩
    · rw [hcpu]
      split
      next hn =>
        rcases Nat.lt_or_eq_of_le (Nat.le_of_lt_succ hn.2) with hlt | rfl
        · exact (hlist n hlt).symm
        · rw [hj]
          exact hbusy.idleAP_eq_false
      · rfl
    · rw [hcpu]
      split
      · rfl
      · rfl

/-- The step behind the poll of a `StartupAllAPs`. -/
theorem next_startAllAPs {k : ℕ} {args : AllApsArgs} {expired : Bool}
    (hcontrol : s.control = .checkTheseAPs k (.startupAllAPs args)) (hk : P.numberOfProcessors ≤ k) :
    s.next P (.bsp expired) = s.startAllAPs P args :=
  MpState.bspStep_updated hcontrol hk

/-- A status that `CheckAllAPs` returns when it is done. -/
theorem checkAllEnd_status (expired : Bool) :
    (s.checkAllEnd P expired).1 = .success ∨ (s.checkAllEnd P expired).1 = .timeout ∨
      (s.checkAllEnd P expired).1 = .notReady := by
  rw [MpState.checkAllEnd]
  split
  · exact .inl rfl
  split
  · exact .inr (.inl rfl)
  · exact .inr (.inr rfl)

theorem checkThisAP_status (n : ℕ) (expired : Bool) :
    (s.checkThisAP n expired).1 = .success ∨ (s.checkThisAP n expired).1 = .timeout ∨
      (s.checkThisAP n expired).1 = .notReady := by
  rw [MpState.checkThisAP]
  split
  · exact .inl rfl
  split
  · exact .inr (.inl rfl)
  · exact .inr (.inr rfl)

theorem done_of_ne_notReady {status : EfiStatus}
    (h : status = .success ∨ status = .timeout ∨ status = .notReady) (hdone : status ≠ .notReady) :
    status = .success ∨ status = .timeout := by
  rcases h with h | h | h
  · exact .inl h
  · exact .inr h
  · exact absurd h hdone

/-- A call that comes back with success or a timeout is not rejected. -/
theorem not_rejected_leave {status : EfiStatus} (hstatus : status = .success ∨ status = .timeout)
    (h : (s.leave status).returned = some .notReady ∨
      (s.leave status).returned = some .invalidParameter) : False := by
  change some status = some .notReady ∨ some status = some .invalidParameter at h
  rcases hstatus with rfl | rfl
  · simp at h
  · simp at h

/-- What follows the poll of a `StartupThisAP` disturbs nothing if it rejects the call. -/
theorem undisturbed_startThisAP {args : ThisApArgs}
    (houtside : (s.startThisAP P args).isOutside = true)
    (h : (s.startThisAP P args).returned = some .notReady ∨
      (s.startThisAP P args).returned = some .invalidParameter) :
    Undisturbed s (s.startThisAP P args) := by
  rw [MpState.startThisAP] at houtside h ⊢
  split at houtside
  next hdisabled =>
    rw [if_pos hdisabled]
    exact ⟨.of_cpu rfl rfl rfl rfl, fun _ ↦ rfl⟩
  next hdisabled =>
    rw [if_neg hdisabled] at h ⊢
    split at houtside
    next hbusy =>
      rw [if_pos hbusy]
      exact ⟨.of_cpu rfl rfl rfl rfl, fun _ ↦ rfl⟩
    next hbusy =>
      rw [if_neg hbusy] at h
      dsimp only at houtside h
      split at houtside
      next hevent =>
        rw [if_pos hevent] at h
        exact (not_rejected_leave (.inl rfl) h).elim
      next => exact Bool.noConfusion houtside

theorem isOutside_checkAndUpdate (caller : Caller) :
    (s.checkAndUpdate caller).isOutside = false := by
  rw [MpState.checkAndUpdate]
  split
  · rfl
  · rfl

/-- A call that is rejected at once. -/
theorem undisturbed_startupAllAPs {args : AllApsArgs}
    (houtside : (s.startupAllAPs args).isOutside = true) :
    Undisturbed s (s.startupAllAPs args) := by
  rw [MpState.startupAllAPs] at houtside ⊢
  split at houtside
  next hnull =>
    rw [if_pos hnull]
    exact ⟨.of_cpu rfl rfl rfl rfl, fun _ ↦ rfl⟩
  next =>
    rw [isOutside_checkAndUpdate] at houtside
    cases houtside

theorem undisturbed_startupThisAP {args : ThisApArgs}
    (houtside : (s.startupThisAP P args).isOutside = true) :
    Undisturbed s (s.startupThisAP P args) := by
  rw [MpState.startupThisAP] at houtside ⊢
  split at houtside
  next hnumber =>
    rw [if_pos hnumber]
    exact ⟨.of_cpu rfl rfl rfl rfl, fun _ ↦ rfl⟩
  next hnumber =>
    rw [if_neg hnumber]
    split at houtside
    next hbsp =>
      rw [if_pos hbsp]
      exact ⟨.of_cpu rfl rfl rfl rfl, fun _ ↦ rfl⟩
    next hbsp =>
      rw [if_neg hbsp]
      split at houtside
      next hnull =>
        rw [if_pos hnull]
        exact ⟨.of_cpu rfl rfl rfl rfl, fun _ ↦ rfl⟩
      next =>
        rw [isOutside_checkAndUpdate] at houtside
        cases houtside

/-- A `StartupAllAPs` that comes back has not been accepted, if it is rejected. -/
theorem not_rejected_startAllAPs {args : AllApsArgs}
    (hnone : ∀ n < P.numberOfProcessors, ¬ s.BusyAP n)
    (houtside : (s.startAllAPs P args).isOutside = true)
    (h : (s.startAllAPs P args).returned = some .notReady ∨
      (s.startAllAPs P args).returned = some .invalidParameter) : False := by
  rw [MpState.startAllAPs_of_not_busy hnone] at houtside h
  split at houtside
  next hzero =>
    rw [if_pos hzero] at h
    exact not_rejected_leave (.inl rfl) h
  next hzero =>
    rw [if_neg hzero] at h
    dsimp only at houtside h
    split at houtside
    next hevent =>
      rw [if_pos hevent] at h
      exact not_rejected_leave (.inl rfl) h
    next => exact Bool.noConfusion houtside

/-- The step in which a call that has polled is rejected. -/
theorem undisturbed_bspStep {expired : Bool} (hwritten : FindsListWritten P s (.bsp expired))
    (hcall : s.inStartup = true) (houtside : (s.bspStep P expired).isOutside = true)
    (h : (s.bspStep P expired).returned = some .notReady ∨
      (s.bspStep P expired).returned = some .invalidParameter) :
    Undisturbed s (s.bspStep P expired) := by
  rw [MpState.inStartup] at hcall
  cases hcontrol : s.control with
  | outside =>
    rw [hcontrol] at hcall
    cases hcall
  | checkAllAPs k caller =>
    rcases Nat.lt_or_ge k P.numberOfProcessors with hk | hk
    · rw [MpState.bspStep_checkAllAPs hcontrol hk] at houtside
      cases houtside
    · rw [MpState.bspStep_checkedAllAPs hcontrol hk] at houtside h
      have hstatus := checkAllEnd_status (P := P) (s := s) expired
      generalize s.checkAllEnd P expired = r at houtside h hstatus
      cases caller with
      | some caller =>
        rw [MpState.checkedAllAPs] at houtside
        split at houtside
        · cases houtside
        · cases houtside
      | none =>
        rw [MpState.checkedAllAPs] at houtside h
        split at houtside
        next hdone =>
          rw [if_pos hdone] at h
          exact (not_rejected_leave (done_of_ne_notReady hstatus hdone) h).elim
        · cases houtside
  | checkTheseAPs k caller =>
    rcases Nat.lt_or_ge k P.numberOfProcessors with hk | hk
    · rw [MpState.bspStep_checkTheseAPs hcontrol hk] at houtside
      cases houtside
    · rw [MpState.bspStep_updated hcontrol hk] at houtside h ⊢
      cases caller with
      | checkAPsStatus =>
        rw [hcontrol] at hcall
        cases hcall
      | startupThisAP args => exact undisturbed_startThisAP houtside h
      | startupAllAPs args =>
        rw [MpState.updated] at houtside h ⊢
        by_cases hbusy : ∃ j < P.numberOfProcessors, s.BusyAP j
        · obtain ⟨j, hj, hbusyj, hfirst⟩ := MpState.exists_first_busy hbusy
          rw [MpState.startAllAPs_of_busy hj hbusyj hfirst]
          exact (undisturbed_listed_iff hbusyj).2
            (hwritten k args expired j rfl hcontrol hk hj hbusyj hfirst)
        · exact (not_rejected_startAllAPs (fun n hn hb ↦ hbusy ⟨n, hn, hb⟩) houtside h).elim
  | checkThisAP n =>
    rw [MpState.bspStep_checkThisAP hcontrol] at houtside h
    split at houtside
    next hdone =>
      rw [if_pos hdone] at h
      exact (not_rejected_leave (done_of_ne_notReady (checkThisAP_status n expired) hdone) h).elim
    next hdone =>
      rw [MpState.isOutside, MpState.control_checkThisAP, hcontrol] at houtside
      cases houtside

/-- **Rejections.** They disturb nothing exactly if the list is written already. -/
theorem rejected_iff {e : MpEvent} :
    (Rejects P s e → Undisturbed s (s.next P e)) ↔ FindsListWritten P s e := by
  constructor
  · rintro h k args expired j rfl hcontrol hk hj hbusy hfirst
    have hnext : s.next P (.bsp expired) = s.startAllAPs P args := next_startAllAPs hcontrol hk
    rw [MpState.startAllAPs_of_busy hj hbusy hfirst] at hnext
    rw [Rejects, hnext] at h
    refine (undisturbed_listed_iff hbusy).1 (h ⟨?_, rfl, .inl rfl⟩)
    rw [MpState.inStartup, hcontrol]
    rfl
  · rintro h ⟨hcall, houtside, hreturned⟩
    cases e with
    | ap n => exact hcall.elim
    | timer => exact hcall.elim
    | enableDisableAP n newAPState => exact hcall.elim
    | switchBSP n enableOldBSP => exact hcall.elim
    | startupAllAPs args =>
      rw [MpState.next] at houtside ⊢
      rw [if_pos hcall] at houtside ⊢
      exact undisturbed_startupAllAPs houtside
    | startupThisAP args =>
      rw [MpState.next] at houtside ⊢
      rw [if_pos hcall] at houtside ⊢
      exact undisturbed_startupThisAP houtside
    | bsp expired => exact undisturbed_bspStep h hcall houtside hreturned

end

/-! ### The list and the counters of the pending call -/

/-- Whether a `StartupAllAPs` is pending, with an event or waiting. -/
def MpState.Pending (s : MpState) : Prop :=
  s.waitEvent.isSome = true ∨ ∃ k, s.control = .checkAllAPs k none

/-- The list of the pending call has the APs awaited, and the counters differ by their number. -/
structure Counted (P : MpPlatform) (w : Watched) : Prop where
  cpuList : w.state.Pending → ∀ n < P.numberOfProcessors, (w.state.cpu n).cpuList = w.awaited n
  startCount : w.state.Pending →
    w.state.startCount = w.state.finishCount + w.state.countListed P.numberOfProcessors
  updating : ∀ k caller, w.state.control = .checkAllAPs k (some caller) →
    w.state.waitEvent.isSome = true
  waiting : ∀ k, w.state.control = .checkAllAPs k none → w.state.waitEvent = none

namespace Counted

variable {P : MpPlatform} {w : Watched}

theorem pending (h : Counted P w) {k : ℕ} {caller : Option Caller}
    (hcontrol : w.state.control = .checkAllAPs k caller) : w.state.Pending := by
  cases caller with
  | some caller => exact .inl (h.updating k caller hcontrol)
  | none => exact .inr ⟨k, hcontrol⟩

/-- A poll that ends finds the call complete exactly if no AP is awaited. -/
theorem completes (h : Counted P w) {k : ℕ} {caller : Option Caller} (expired : Bool)
    (hcontrol : w.state.control = .checkAllAPs k caller) :
    (w.state.checkAllEnd P expired).1 = .success ↔
      ∀ n < P.numberOfProcessors, w.awaited n = false := by
  have hpending := h.pending hcontrol
  have hsuccess : (w.state.checkAllEnd P expired).1 = .success ↔
      w.state.finishCount = w.state.startCount := by
    rw [MpState.checkAllEnd]
    split
    next heq => exact ⟨fun _ ↦ heq, fun _ ↦ rfl⟩
    next hne =>
      refine ⟨fun hs ↦ ?_, fun heq ↦ absurd heq hne⟩
      split at hs
      · cases hs
      · cases hs
  have hcount : w.state.finishCount = w.state.startCount ↔
      w.state.countListed P.numberOfProcessors = 0 := by
    rw [h.startCount hpending]
    omega
  rw [hsuccess, hcount, MpState.countListed_eq_zero_iff]
  refine forall₂_congr fun n hn ↦ ?_
  rw [h.cpuList hpending n hn]

/-- A step that leaves the bookkeeping as it is and begins no poll without a call. -/
theorem congr (h : Counted P w) {s : MpState} (hbooks : SameBooks w.state s)
    (hwaiting : ∀ k, s.control = .checkAllAPs k none → ∃ k', w.state.control = .checkAllAPs k' none)
    (hupdating : ∀ k caller, s.control = .checkAllAPs k (some caller) →
      w.state.waitEvent.isSome = true) : Counted P ⟨s, w.awaited⟩ := by
  have hpending : s.Pending → w.state.Pending := by
    rintro (hevent | ⟨k, hcontrol⟩)
    · rw [hbooks.waitEvent] at hevent
      exact .inl hevent
    · exact .inr (hwaiting k hcontrol)
  refine ⟨fun hp n hn ↦ ?_, fun hp ↦ ?_, fun k caller hcontrol ↦ ?_, fun k hcontrol ↦ ?_⟩
  · exact (hbooks.cpuList n).trans (h.cpuList (hpending hp) n hn)
  · have hcount : s.countListed P.numberOfProcessors = w.state.countListed P.numberOfProcessors :=
      tally_congr fun n _ ↦ congrArg Bool.toNat (hbooks.cpuList n)
    rw [hbooks.startCount, hbooks.finishCount, hcount]
    exact h.startCount (hpending hp)
  · exact hbooks.waitEvent ▸ hupdating k caller hcontrol
  · obtain ⟨k', hk'⟩ := hwaiting k hcontrol
    exact hbooks.waitEvent.trans (h.waiting k' hk')

/-- A step after which the BSP does not poll for a call. -/
theorem congr_of_not_polling (h : Counted P w) {s : MpState} (hbooks : SameBooks w.state s)
    (hcontrol : ∀ k caller, s.control ≠ .checkAllAPs k caller) : Counted P ⟨s, w.awaited⟩ :=
  h.congr hbooks (fun k hk ↦ absurd hk (hcontrol k none))
    fun k caller hk ↦ absurd hk (hcontrol k (some caller))

/-- A step that leaves the BSP where it is. -/
theorem congr_of_control (h : Counted P w) {s : MpState} (hbooks : SameBooks w.state s)
    (hcontrol : s.control = w.state.control) : Counted P ⟨s, w.awaited⟩ :=
  h.congr hbooks (fun k hk ↦ ⟨k, hcontrol ▸ hk⟩) fun k caller hk ↦ h.updating k caller (hcontrol ▸ hk)

/-- A call that begins with the poll. -/
theorem checkAndUpdate (h : Counted P w) {s : MpState} (hbooks : SameBooks w.state s)
    (caller : Caller) : Counted P ⟨s.checkAndUpdate caller, w.awaited⟩ := by
  have hbooks' := hbooks.trans (MpState.sameBooks_checkAndUpdate caller)
  rw [MpState.checkAndUpdate] at hbooks' ⊢
  by_cases hevent : s.waitEvent.isSome = true
  · rw [if_pos hevent] at hbooks' ⊢
    refine h.congr hbooks' (fun k hk ↦ by cases hk) fun _ _ _ ↦ ?_
    rwa [← hbooks.waitEvent]
  · rw [if_neg hevent] at hbooks' ⊢
    exact h.congr_of_not_polling hbooks' fun k caller' hk ↦ by cases hk

/-- **A round of the poll.** -/
theorem checkAllStep (h : Counted P w) {k : ℕ} {caller : Option Caller}
    (hcontrol : w.state.control = .checkAllAPs k caller) (hk : k < P.numberOfProcessors) :
    Counted P
      ⟨{ w.state.checkAllStep P k with control := .checkAllAPs (k + 1) caller },
        if (w.state.cpu k).state = .finished then Function.update w.awaited k false
        else w.awaited⟩ := by
  have hpending := h.pending hcontrol
  -- where the BSP is and whether there is an event do not change
  have hrest : ∀ s : MpState, s.waitEvent = w.state.waitEvent →
      (∀ k' caller', BspControl.checkAllAPs (k + 1) caller = .checkAllAPs k' (some caller') →
        s.waitEvent.isSome = true) ∧
      ∀ k', BspControl.checkAllAPs (k + 1) caller = .checkAllAPs k' none → s.waitEvent = none := by
    intro s hs
    rw [hs]
    constructor
    · intro k' caller' heq
      injection heq with _ hcaller
      exact h.updating k caller' (hcaller ▸ hcontrol)
    · intro k' heq
      injection heq with _ hcaller
      exact h.waiting k (hcaller ▸ hcontrol)
  by_cases hfinished : (w.state.cpu k).state = .finished
  · rw [if_pos hfinished]
    by_cases hlisted : (w.state.cpu k).cpuList = true
    · have hbooks : SameBooks (w.state.collected k) (w.state.checkAllStep P k) := by
        rw [MpState.checkAllStep_of_finished hlisted hfinished]
        split
        · split
          · exact MpState.sameBooks_wakeUpAp _ _
          · exact .of_cpu rfl rfl rfl rfl
        · exact .of_cpu rfl rfl rfl rfl
      obtain ⟨hupdating, hwaiting⟩ := hrest (w.state.checkAllStep P k) hbooks.waitEvent
      refine ⟨fun _ n hn ↦ ?_, fun _ ↦ ?_, hupdating, hwaiting⟩
      · change ((w.state.checkAllStep P k).cpu n).cpuList = Function.update w.awaited k false n
        rw [hbooks.cpuList, MpState.cpuList_collected, h.cpuList hpending n hn]
        rcases eq_or_ne n k with rfl | hne
        · rw [Function.update_self, decide_eq_false (not_not.2 rfl), Bool.false_and]
        · rw [Function.update_of_ne hne, decide_eq_true hne, Bool.true_and]
      · have hcount : (w.state.checkAllStep P k).countListed P.numberOfProcessors
            = (w.state.collected k).countListed P.numberOfProcessors :=
          tally_congr fun n _ ↦ congrArg Bool.toNat (hbooks.cpuList n)
        have hless := MpState.countListed_collected hk hlisted
        have hbefore := h.startCount hpending
        change (w.state.checkAllStep P k).startCount = (w.state.checkAllStep P k).finishCount
          + (w.state.checkAllStep P k).countListed P.numberOfProcessors
        rw [hcount, hbooks.startCount, hbooks.finishCount]
        change w.state.startCount = w.state.finishCount + 1
          + (w.state.collected k).countListed P.numberOfProcessors
        omega
    · -- the AP is not the call's, so it was not awaited
      have hawaited : Function.update w.awaited k false = w.awaited := by
        rw [Function.update_eq_self_iff, ← h.cpuList hpending k hk]
        exact (Bool.eq_false_iff.2 hlisted).symm
      rw [hawaited, MpState.checkAllStep_of_not_finished fun hboth ↦ hlisted hboth.1]
      obtain ⟨hupdating, hwaiting⟩ := hrest w.state rfl
      exact ⟨fun _ ↦ h.cpuList hpending, fun _ ↦ h.startCount hpending, hupdating, hwaiting⟩
  · rw [if_neg hfinished, MpState.checkAllStep_of_not_finished fun hboth ↦ hfinished hboth.2]
    obtain ⟨hupdating, hwaiting⟩ := hrest w.state rfl
    exact ⟨fun _ ↦ h.cpuList hpending, fun _ ↦ h.startCount hpending, hupdating, hwaiting⟩

/-- No call is pending, and the BSP does not poll for one. -/
theorem of_not_pending {s : MpState} {awaited : ℕ → Bool} (hevent : s.waitEvent = none)
    (hcontrol : ∀ k caller, s.control ≠ .checkAllAPs k caller) : Counted P ⟨s, awaited⟩ := by
  have hnot : ¬ s.Pending := by
    rintro (hsome | ⟨k, hk⟩)
    · rw [hevent] at hsome
      cases hsome
    · exact hcontrol k none hk
  exact ⟨fun hp ↦ absurd hp hnot, fun hp ↦ absurd hp hnot,
    fun k caller hk ↦ absurd hk (hcontrol k (some caller)), fun k hk ↦ absurd hk (hcontrol k none)⟩

/-- The end of a poll that finds the call over. -/
theorem checkedAllAPs_of_over (h : Counted P w) {k : ℕ} {caller : Option Caller}
    (hcontrol : w.state.control = .checkAllAPs k caller) {s : MpState}
    (hevent : s.waitEvent = w.state.waitEvent) {status : EfiStatus} (hover : status ≠ .notReady)
    (awaited : ℕ → Bool) : Counted P ⟨s.checkedAllAPs status caller, awaited⟩ := by
  cases caller with
  | some caller =>
    rw [MpState.checkedAllAPs, if_pos hover]
    exact of_not_pending rfl fun k' caller' hk ↦ by cases hk
  | none =>
    rw [MpState.checkedAllAPs, if_pos hover]
    exact of_not_pending (hevent.trans (h.waiting k hcontrol)) fun k' caller' hk ↦ by cases hk

/-- **The end of the poll.** -/
theorem checkedAllAPs (h : Counted P w) {k : ℕ} {caller : Option Caller} (expired : Bool)
    (hcontrol : w.state.control = .checkAllAPs k caller) :
    Counted P
      ⟨(w.state.checkAllEnd P expired).2.checkedAllAPs (w.state.checkAllEnd P expired).1 caller,
        if (w.state.checkAllEnd P expired).1 = .timeout then fun _ ↦ false else w.awaited⟩ := by
  rw [MpState.checkAllEnd]
  split
  · have hover : EfiStatus.success ≠ .notReady := by decide
    exact h.checkedAllAPs_of_over hcontrol rfl hover _
  split
  · have hover : EfiStatus.timeout ≠ .notReady := by decide
    have hevent : (w.state.resetListed P).waitEvent = w.state.waitEvent := rfl
    exact h.checkedAllAPs_of_over hcontrol hevent hover _
  · dsimp only
    rw [if_neg (by decide)]
    cases caller with
    | some caller =>
      rw [MpState.checkedAllAPs, if_neg (by decide)]
      exact h.congr_of_not_polling (.of_cpu rfl rfl rfl rfl) fun k' caller' hk ↦ by cases hk
    | none =>
      rw [MpState.checkedAllAPs, if_neg (by decide)]
      exact h.congr (.of_cpu rfl rfl rfl rfl) (fun _ _ ↦ ⟨k, hcontrol⟩) fun k' caller' hk ↦ by cases hk

/-- **An accepted call.** -/
theorem startAllAPs {args : AllApsArgs} (hnone : ∀ n < P.numberOfProcessors, ¬ w.state.BusyAP n) :
    Counted P ⟨w.state.startAllAPs P args,
      fun n ↦ decide (n ≠ w.state.bspNumber) && decide ((w.state.cpu n).state ≠ .disabled)⟩ := by
  have hcpuList : ∀ n < P.numberOfProcessors, ((w.state.allStarted P args).cpu n).cpuList
      = (decide (n ≠ w.state.bspNumber) && decide ((w.state.cpu n).state ≠ .disabled)) := by
    intro n hn
    rw [MpState.cpuList_allStarted args hn, MpState.idleAP]
    by_cases hbsp : n = w.state.bspNumber
    · rw [decide_eq_false (not_not.2 hbsp), Bool.false_and, Bool.false_and]
    · have hstate : (w.state.cpu n).state = .idle ↔ (w.state.cpu n).state ≠ .disabled := by
        constructor
        · intro hidle
          rw [hidle]
          decide
        · intro hdisabled
          by_contra hidle
          exact hnone n hn ⟨hbsp, hdisabled, hidle⟩
      rw [decide_eq_decide.2 hstate]
  have hcount : (w.state.allStarted P args).startCount = (w.state.allStarted P args).finishCount
      + (w.state.allStarted P args).countListed P.numberOfProcessors := by
    rw [MpState.startCount_allStarted]
    exact (Nat.zero_add _).symm
  rw [MpState.startAllAPs_of_not_busy hnone]
  split
  · refine ⟨fun _ ↦ hcpuList, fun _ ↦ hcount, fun k caller hk ↦ ?_, fun k hk ↦ ?_⟩
    · cases hk
    · cases hk
  · dsimp only
    split
    · refine ⟨fun _ ↦ hcpuList, fun _ ↦ hcount, fun k caller hk ↦ ?_, fun k hk ↦ ?_⟩
      · cases hk
      · cases hk
    next hevent =>
      refine ⟨fun _ ↦ hcpuList, fun _ ↦ hcount, fun k caller hk ↦ ?_, fun k hk ↦ ?_⟩
      · cases hk
      · exact Option.not_isSome_iff_eq_none.1 hevent

/-- **A step of the BSP.** -/
theorem bspStep (h : Counted P w) {expired : Bool}
    (hwritten : FindsListWritten P w.state (.bsp expired)) :
    Counted P (w.next P (.bsp expired)) := by
  change Counted P ⟨w.state.bspStep P expired, w.awaitedNext P (.bsp expired)⟩
  cases hcontrol : w.state.control with
  | outside =>
    have hawaited : w.awaitedNext P (.bsp expired) = w.awaited := by
      unfold Watched.awaitedNext
      rw [hcontrol]
    rw [MpState.bspStep_outside hcontrol, hawaited]
    exact h
  | checkAllAPs k caller =>
    rw [Watched.awaitedNext_checkAllAPs hcontrol]
    rcases Nat.lt_or_ge k P.numberOfProcessors with hk | hk
    · rw [MpState.bspStep_checkAllAPs hcontrol hk, if_pos hk]
      exact h.checkAllStep hcontrol hk
    · rw [MpState.bspStep_checkedAllAPs hcontrol hk, if_neg (Nat.not_lt.2 hk)]
      exact h.checkedAllAPs expired hcontrol
  | checkTheseAPs k caller =>
    rcases Nat.lt_or_ge k P.numberOfProcessors with hk | hk
    · have hbooks : SameBooks w.state
          { w.state.checkTheseStep k expired with control := .checkTheseAPs (k + 1) caller } :=
        (MpState.sameBooks_checkTheseStep k expired).trans (.of_cpu rfl rfl rfl rfl)
      have hawaited : w.awaitedNext P (.bsp expired) = w.awaited := by
        cases caller with
        | checkAPsStatus => exact Watched.awaitedNext_checkTheseAPs hcontrol nofun
        | startupThisAP args => exact Watched.awaitedNext_checkTheseAPs hcontrol nofun
        | startupAllAPs args =>
          rw [Watched.awaitedNext_startupAllAPs hcontrol,
            if_neg fun hboth ↦ absurd hk (Nat.not_lt.2 hboth.1)]
      rw [MpState.bspStep_checkTheseAPs hcontrol hk, hawaited]
      exact h.congr_of_not_polling hbooks nofun
    · rw [MpState.bspStep_updated hcontrol hk]
      cases caller with
      | checkAPsStatus =>
        rw [Watched.awaitedNext_checkTheseAPs hcontrol nofun]
        exact h.congr_of_not_polling (.of_cpu rfl rfl rfl rfl) nofun
      | startupThisAP args =>
        rw [Watched.awaitedNext_checkTheseAPs hcontrol nofun]
        exact h.congr_of_not_polling (MpState.sameBooks_startThisAP args)
          (MpState.control_startThisAP args)
      | startupAllAPs args =>
        rw [MpState.updated, Watched.awaitedNext_startupAllAPs hcontrol]
        by_cases hbusy : ∃ j < P.numberOfProcessors, w.state.BusyAP j
        · obtain ⟨j, hj, hbusyj, hfirst⟩ := MpState.exists_first_busy hbusy
          have hlist := hwritten k args expired j rfl hcontrol hk hj hbusyj hfirst
          rw [if_neg fun hboth ↦ hboth.2 j hj hbusyj,
            MpState.startAllAPs_of_busy hj hbusyj hfirst]
          exact h.congr_of_not_polling ((undisturbed_listed_iff hbusyj).2 hlist).toSameBooks nofun
        · have hnone : ∀ n < P.numberOfProcessors, ¬ w.state.BusyAP n :=
            fun n hn hb ↦ hbusy ⟨n, hn, hb⟩
          rw [if_pos ⟨hk, hnone⟩]
          exact startAllAPs hnone
  | checkThisAP n =>
    have hbooks := MpState.sameBooks_checkThisAP (s := w.state) n expired
    have hawaited : w.awaitedNext P (.bsp expired) = w.awaited := by
      unfold Watched.awaitedNext
      rw [hcontrol]
    rw [MpState.bspStep_checkThisAP hcontrol, hawaited]
    split
    · exact h.congr_of_not_polling (hbooks.trans (.of_cpu rfl rfl rfl rfl)) nofun
    · refine h.congr_of_not_polling hbooks fun k' caller' hk ↦ ?_
      rw [MpState.control_checkThisAP, hcontrol] at hk
      cases hk

/-- **A step of a run.** -/
theorem next (h : Counted P w) {e : MpEvent} (hwritten : FindsListWritten P w.state e) :
    Counted P (w.next P e) := by
  cases e with
  | bsp expired => exact h.bspStep hwritten
  | ap n => exact h.congr_of_control (MpState.sameBooks_apStep n) (MpState.control_apStep n)
  | timer =>
    rw [Watched.next, MpState.next]
    split
    · exact h.checkAndUpdate (.of_cpu rfl rfl rfl rfl) _
    · exact h
  | startupAllAPs args =>
    rw [Watched.next, MpState.next]
    split
    · rw [MpState.startupAllAPs]
      split
      · exact h.congr_of_control (.of_cpu rfl rfl rfl rfl) rfl
      · exact h.checkAndUpdate (s := { w.state with stopCheckAPsStatus := true, returned := none })
          (.of_cpu rfl rfl rfl rfl) _
    · exact h
  | startupThisAP args =>
    rw [Watched.next, MpState.next]
    split
    · rw [MpState.startupThisAP]
      split
      · exact h.congr_of_control (.of_cpu rfl rfl rfl rfl) rfl
      split
      · exact h.congr_of_control (.of_cpu rfl rfl rfl rfl) rfl
      split
      · exact h.congr_of_control (.of_cpu rfl rfl rfl rfl) rfl
      · exact h.checkAndUpdate (s := { w.state with stopCheckAPsStatus := true, returned := none })
          (.of_cpu rfl rfl rfl rfl) _
    · exact h
  | enableDisableAP n newAPState =>
    rw [Watched.next, MpState.next]
    split
    · exact h.congr_of_control (MpState.sameBooks_enableDisableAP n newAPState)
        (MpState.control_enableDisableAP n newAPState)
    · exact h
  | switchBSP n enableOldBSP =>
    rw [Watched.next, MpState.next]
    split
    · exact h.congr_of_control (MpState.sameBooks_switchBSP n enableOldBSP)
        (MpState.control_switchBSP n enableOldBSP)
    · exact h

end Counted

/-- **Rejected calls.** In a run from any quiet state, no rejected call disturbs anything and every
pending `StartupAllAPs` completes when all its APs have finished, exactly if each call that is
rejected finds the list as it would write it. -/
theorem along_undisturbed_iff (P : MpPlatform) (s : QuietState P) (awaited : ℕ → Bool)
    (es : List MpEvent) :
    Along (Watched.next P) (StepUndisturbed P) ⟨s.toMpState, awaited⟩ es ↔
      Along (Watched.next P) (fun w e ↦ FindsListWritten P w.state e) ⟨s.toMpState, awaited⟩ es := by
  have hquiet : Counted P ⟨s.toMpState, awaited⟩ :=
    .of_not_pending s.quiet.waitEvent fun k caller hk ↦ by
      rw [s.quiet.control] at hk
      cases hk
  have hpres : ∀ w e, Counted P w → True → StepUndisturbed P w e → Counted P (w.next P e) :=
    fun w e h _ hok ↦ h.next (rejected_iff.1 hok.rejected)
  have hiff : ∀ w e, Counted P w → True →
      (StepUndisturbed P w e ↔ FindsListWritten P w.state e) := by
    intro w e h _
    refine ⟨fun hok ↦ rejected_iff.1 hok.rejected, fun hwritten ↦ ⟨rejected_iff.2 hwritten, ?_⟩⟩
    rintro k caller expired rfl hcontrol -
    exact h.completes expired hcontrol
  exact along_iff_of_invariant hpres hiff hquiet (along_of_forall (fun _ _ ↦ trivial) _ _)

/-! ### A second call while the first is pending -/

/-- A call with an event and without a timeout. -/
def eventArgs : AllApsArgs where
  procedure := some ⟨1, 0⟩
  singleThread := false
  waitEvent := some 7
  timeout := false
  failedCpuList := false

/-- A call that starts the AP, and the same call again before the AP has done anything. -/
def callTwice : List MpEvent :=
  [.startupAllAPs eventArgs, .bsp false, .bsp false, .bsp false,
    .startupAllAPs eventArgs, .bsp false, .bsp false, .bsp false, .bsp false, .bsp false, .bsp false]

/-- The second call is rejected, and the AP is no longer on the list. -/
theorem not_undisturbed_callTwice :
    ¬ Along (Watched.next twoProcessors) (StepUndisturbed twoProcessors)
      ⟨twoAtRest.toMpState, fun _ ↦ false⟩ callTwice := by
  rintro ⟨-, -, -, -, -, -, -, -, -, -, h, -⟩
  have hlist := (h.rejected ⟨rfl, rfl, .inl rfl⟩).cpuList 1
  exact absurd hlist (by decide)

end PurleyFirmware.MpService
