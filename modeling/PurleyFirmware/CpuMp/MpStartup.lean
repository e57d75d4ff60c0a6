import PurleyFirmware.CpuMp.MpService
import PurleyFirmware.Foundation.Tally
import Mathlib.Data.Nat.Find

/-!
# The loops of StartupAllAPs

What the two loops of `StartupAllAPs` come to. The first one writes `CpuList` as it goes: it ends with
the idle APs listed, or stops at an AP that is busy, with the list written up to there
(`checkIdle_cases`). The second one starts the APs listed (`foldl_startStep`).
-/

namespace PurleyFirmware.MpService.MpState

variable {P : MpPlatform} {s : MpState}

/-! ### Records -/

@[simp] theorem modify_cpu_self (n : ℕ) (f : Processor → Processor) :
    (s.modify n f).cpu n = f (s.cpu n) :=
  Function.update_self _ _ _

theorem modify_cpu_of_ne {n m : ℕ} (h : m ≠ n) (f : Processor → Processor) :
    (s.modify n f).cpu m = s.cpu m :=
  Function.update_of_ne h _ _

/-! ### Where the BSP is -/

theorem control_of_isOutside (h : s.isOutside = true) : s.control = .outside := by
  rw [isOutside] at h
  split at h
  next hcontrol => exact hcontrol
  · cases h

theorem control_apStep (n : ℕ) : (s.apStep P n).control = s.control := by
  rw [apStep]
  split
  · rfl
  · rfl

theorem control_checkThisAP (n : ℕ) (expired : Bool) :
    (s.checkThisAP n expired).2.control = s.control := by
  rw [checkThisAP]
  split
  · rfl
  split
  · rfl
  · rfl

/-- A `StartupThisAP` does not begin a poll of all APs. -/
theorem control_startThisAP (args : ThisApArgs) (k : ℕ) (caller : Option Caller) :
    (s.startThisAP P args).control ≠ .checkAllAPs k caller := by
  rw [startThisAP]
  split
  · exact nofun
  split
  · exact nofun
  · dsimp only
    split
    · exact nofun
    · exact nofun

theorem control_enableDisableAP (n : ℕ) (newAPState : Bool) :
    (s.enableDisableAP P n newAPState).control = s.control := by
  rw [enableDisableAP]
  split
  · rfl
  split
  · rfl
  · rfl

theorem control_switchBSP (n : ℕ) (enableOldBSP : Bool) :
    (s.switchBSP P n enableOldBSP).control = s.control := by
  rw [switchBSP]
  split
  · rfl
  split
  · rfl
  split
  · rfl
  split
  · rfl
  · rfl

/-! ### Steps of the BSP -/

section

variable {expired : Bool} {k : ℕ}

theorem bspStep_outside (h : s.control = .outside) : s.bspStep P expired = s := by
  rw [bspStep, h]

theorem bspStep_checkAllAPs {caller : Option Caller} (h : s.control = .checkAllAPs k caller)
    (hk : k < P.numberOfProcessors) :
    s.bspStep P expired = { s.checkAllStep P k with control := .checkAllAPs (k + 1) caller } := by
  rw [bspStep, h]
  dsimp only
  rw [if_pos hk]

theorem bspStep_checkedAllAPs {caller : Option Caller} (h : s.control = .checkAllAPs k caller)
    (hk : P.numberOfProcessors ≤ k) :
    s.bspStep P expired
      = (s.checkAllEnd P expired).2.checkedAllAPs (s.checkAllEnd P expired).1 caller := by
  rw [bspStep, h]
  dsimp only
  rw [if_neg (Nat.not_lt.2 hk)]

theorem bspStep_checkTheseAPs {caller : Caller} (h : s.control = .checkTheseAPs k caller)
    (hk : k < P.numberOfProcessors) :
    s.bspStep P expired
      = { s.checkTheseStep k expired with control := .checkTheseAPs (k + 1) caller } := by
  rw [bspStep, h]
  dsimp only
  rw [if_pos hk]

theorem bspStep_updated {caller : Caller} (h : s.control = .checkTheseAPs k caller)
    (hk : P.numberOfProcessors ≤ k) : s.bspStep P expired = s.updated P caller := by
  rw [bspStep, h]
  dsimp only
  rw [if_neg (Nat.not_lt.2 hk)]

theorem bspStep_checkThisAP {n : ℕ} (h : s.control = .checkThisAP n) :
    s.bspStep P expired
      = if (s.checkThisAP n expired).1 ≠ .notReady then
          (s.checkThisAP n expired).2.leave (s.checkThisAP n expired).1
        else (s.checkThisAP n expired).2 := by
  rw [bspStep, h]

end

/-! ### The check -/

/-- An AP that is idle. -/
def idleAP (s : MpState) (n : ℕ) : Bool :=
  decide (n ≠ s.bspNumber) && decide ((s.cpu n).state = .idle)

/-- An AP that is neither idle nor disabled. -/
def BusyAP (s : MpState) (n : ℕ) : Prop :=
  n ≠ s.bspNumber ∧ (s.cpu n).state ≠ .disabled ∧ (s.cpu n).state ≠ .idle

instance (s : MpState) (n : ℕ) : Decidable (s.BusyAP n) :=
  inferInstanceAs (Decidable (_ ∧ _ ∧ _))

/-- The state with `CpuList` written from `k` to before `j`. -/
def listed (s : MpState) (k j : ℕ) : MpState :=
  { s with cpu := fun n ↦ if k ≤ n ∧ n < j then { s.cpu n with cpuList := s.idleAP n } else s.cpu n }

/-- The first AP that is busy, if there is one. -/
theorem exists_first_busy (h : ∃ j < P.numberOfProcessors, s.BusyAP j) :
    ∃ j < P.numberOfProcessors, s.BusyAP j ∧ ∀ n < j, ¬ s.BusyAP n := by
  refine ⟨Nat.find h, (Nat.find_spec h).1, (Nat.find_spec h).2, fun n hn hbusy ↦ ?_⟩
  have hlt : n < P.numberOfProcessors := Nat.lt_trans hn (Nat.find_spec h).1
  exact Nat.find_min h hn ⟨hlt, hbusy⟩

theorem BusyAP.idleAP_eq_false {n : ℕ} (h : s.BusyAP n) : s.idleAP n = false := by
  rw [idleAP, decide_eq_false h.2.2, Bool.and_false]

/-- The state with one entry of `CpuList` written. -/
def listAP (s : MpState) (k : ℕ) (b : Bool) : MpState := s.modify k fun c ↦ { c with cpuList := b }

theorem listAP_cpu (k : ℕ) (b : Bool) (n : ℕ) :
    (s.listAP k b).cpu n = if n = k then { s.cpu n with cpuList := b } else s.cpu n := by
  rw [listAP]
  rcases eq_or_ne n k with rfl | hne
  · rw [if_pos rfl, modify_cpu_self]
  · rw [if_neg hne, modify_cpu_of_ne hne]

@[simp] theorem listAP_state (k : ℕ) (b : Bool) (n : ℕ) :
    ((s.listAP k b).cpu n).state = (s.cpu n).state := by
  rw [listAP_cpu]
  split
  · rfl
  · rfl

@[simp] theorem listAP_idleAP (k : ℕ) (b : Bool) (n : ℕ) : (s.listAP k b).idleAP n = s.idleAP n := by
  rw [idleAP, listAP_state]
  rfl

@[simp] theorem listAP_busyAP (k : ℕ) (b : Bool) (n : ℕ) :
    (s.listAP k b).BusyAP n ↔ s.BusyAP n := by
  rw [BusyAP, listAP_state]
  rfl

theorem listAP_listAP (k : ℕ) (b b' : Bool) : (s.listAP k b).listAP k b' = s.listAP k b' := by
  rw [listAP, listAP, listAP, modify, modify, modify]
  dsimp only
  rw [Function.update_idem, Function.update_self]

theorem listed_succ_self (k : ℕ) : s.listed k (k + 1) = s.listAP k (s.idleAP k) := by
  rw [listed, listAP, modify]
  congr 1
  funext n
  rcases eq_or_ne n k with rfl | hne
  · rw [if_pos ⟨Nat.le_refl n, Nat.lt_succ_self n⟩, Function.update_self]
  · rw [if_neg (by omega), Function.update_of_ne hne]

/-- A round that writes its entry, and then the rest of the list. -/
theorem listed_listAP {k j : ℕ} (hj : k < j) :
    (s.listAP k (s.idleAP k)).listed (k + 1) j = s.listed k j := by
  have hcpu : (fun n ↦ if k + 1 ≤ n ∧ n < j then
        { (s.listAP k (s.idleAP k)).cpu n with
          cpuList := (s.listAP k (s.idleAP k)).idleAP n }
        else (s.listAP k (s.idleAP k)).cpu n) =
      fun n ↦ if k ≤ n ∧ n < j then { s.cpu n with cpuList := s.idleAP n } else s.cpu n := by
    funext n
    rcases eq_or_ne n k with rfl | hne
    · rw [if_neg (by omega), if_pos ⟨Nat.le_refl n, hj⟩, listAP_cpu, if_pos rfl]
    · have hiff : k + 1 ≤ n ∧ n < j ↔ k ≤ n ∧ n < j := by omega
      simp only [hiff, listAP_idleAP, listAP_cpu, if_neg hne]
  rw [listed, hcpu]
  rfl

/-- A round of the check that goes on. -/
theorem checkIdle_of_not_busy {k : ℕ} (h : ¬ s.BusyAP k) (left : ℕ) :
    checkIdle (left + 1) k s = checkIdle left (k + 1) (s.listAP k (s.idleAP k)) := by
  have hstate : ((s.listAP k false).cpu k).state = (s.cpu k).state := listAP_state k false k
  rw [checkIdle]
  change (if k ≠ s.bspNumber then
      if ((s.listAP k false).cpu k).state ≠ .disabled then
        if ((s.listAP k false).cpu k).state ≠ .idle then (false, s.listAP k false)
        else checkIdle left (k + 1) ((s.listAP k false).listAP k true)
      else checkIdle left (k + 1) (s.listAP k false)
    else checkIdle left (k + 1) (s.listAP k false)) = _
  rw [hstate, listAP_listAP, idleAP]
  by_cases hbsp : k = s.bspNumber
  · rw [if_neg (not_not.2 hbsp), decide_eq_false (not_not.2 hbsp), Bool.false_and]
  rw [if_pos hbsp, decide_eq_true hbsp, Bool.true_and]
  by_cases hdisabled : (s.cpu k).state = .disabled
  · rw [if_neg (not_not.2 hdisabled), hdisabled]
    rfl
  rw [if_pos hdisabled]
  by_cases hidle : (s.cpu k).state = .idle
  · rw [if_neg (not_not.2 hidle), decide_eq_true hidle]
  · exact absurd ⟨hbsp, hdisabled, hidle⟩ h

/-- The round of the check that finds a busy AP. -/
theorem checkIdle_of_busy {k : ℕ} (h : s.BusyAP k) (left : ℕ) :
    checkIdle (left + 1) k s = (false, s.listed k (k + 1)) := by
  have hstate : ((s.listAP k false).cpu k).state = (s.cpu k).state := listAP_state k false k
  rw [checkIdle]
  change (if k ≠ s.bspNumber then
      if ((s.listAP k false).cpu k).state ≠ .disabled then
        if ((s.listAP k false).cpu k).state ≠ .idle then (false, s.listAP k false)
        else checkIdle left (k + 1) ((s.listAP k false).listAP k true)
      else checkIdle left (k + 1) (s.listAP k false)
    else checkIdle left (k + 1) (s.listAP k false)) = _
  rw [hstate, if_pos h.1, if_pos h.2.1, if_pos h.2.2, listed_succ_self, h.idleAP_eq_false]

/-- **The check.** It stops at the first AP that is busy, with the list written as far as that, or
goes through and lists the idle APs. -/
theorem checkIdle_cases (left k : ℕ) (s : MpState) :
    (∃ j, k ≤ j ∧ j < k + left ∧ s.BusyAP j ∧ (∀ n, k ≤ n → n < j → ¬ s.BusyAP n) ∧
      checkIdle left k s = (false, s.listed k (j + 1))) ∨
    ((∀ n, k ≤ n → n < k + left → ¬ s.BusyAP n) ∧
      checkIdle left k s = (true, s.listed k (k + left))) := by
  induction left generalizing k s with
  | zero =>
    right
    refine ⟨fun n hn hlt ↦ by omega, ?_⟩
    have hcpu : (fun n ↦ if k ≤ n ∧ n < k + 0 then { s.cpu n with cpuList := s.idleAP n }
        else s.cpu n) = s.cpu := by
      funext n
      rw [if_neg (by omega)]
    rw [checkIdle, listed, hcpu]
  | succ left ih =>
    by_cases hbusy : s.BusyAP k
    · left
      exact ⟨k, Nat.le_refl k, by omega, hbusy, fun n hn hlt ↦ by omega, checkIdle_of_busy hbusy left⟩
    · rw [checkIdle_of_not_busy hbusy]
      have hkeep : ∀ j, (∀ n, k + 1 ≤ n → n < j → ¬ s.BusyAP n) →
          ∀ n, k ≤ n → n < j → ¬ s.BusyAP n := by
        intro j h n hn hlt
        rcases Nat.eq_or_lt_of_le hn with rfl | hn
        · exact hbusy
        · exact h n hn hlt
      have hrest := ih (k + 1) (s.listAP k (s.idleAP k))
      simp only [listAP_busyAP] at hrest
      rcases hrest with ⟨j, hj, hlt, hbusyj, hfirst, heq⟩ | ⟨hnone, heq⟩
      · left
        refine ⟨j, by omega, by omega, hbusyj, hkeep j hfirst, ?_⟩
        rw [heq, listed_listAP (by omega)]
      · right
        rw [Nat.add_right_comm] at heq hnone
        exact ⟨hkeep _ hnone, by rw [heq, listed_listAP (by omega), Nat.add_assoc]⟩

/-! ### The start -/

/-- An AP before `k` is listed. -/
def anyListed (s : MpState) (k : ℕ) : Bool := (List.range k).any fun n ↦ (s.cpu n).cpuList

/-- The number of APs before `k` that are listed. -/
def countListed (s : MpState) (k : ℕ) : ℕ := tally k (fun c ↦ c.cpuList.toNat) s.cpu

/-- An AP that is listed, started. With `SingleThread` only the first one is woken. -/
def started (P : MpPlatform) (args : AllApsArgs) (s : MpState) (n : ℕ) : Processor :=
  if args.singleThread && s.anyListed n then { s.cpu n with state := .ready }
  else { s.cpu n with state := .ready }.wakeUp P args.procedure

/-- The state with the APs listed before `k` started. -/
def startedUpTo (P : MpPlatform) (args : AllApsArgs) (s : MpState) (k : ℕ) : MpState :=
  { s with
    cpu := fun n ↦ if n < k ∧ (s.cpu n).cpuList = true then s.started P args n else s.cpu n
    startCount := s.startCount + s.countListed k
    apFunction := s.apFunction || s.anyListed k }

theorem anyListed_succ (s : MpState) (k : ℕ) :
    s.anyListed (k + 1) = (s.anyListed k || (s.cpu k).cpuList) := by
  rw [anyListed, anyListed, List.range_succ, List.any_append, List.any_cons, List.any_nil,
    Bool.or_false]

theorem countListed_succ (s : MpState) (k : ℕ) :
    s.countListed (k + 1) = s.countListed k + (s.cpu k).cpuList.toNat := tally_succ

theorem anyListed_iff {k : ℕ} : s.anyListed k = true ↔ ∃ n < k, (s.cpu n).cpuList = true := by
  rw [anyListed, List.any_eq_true]
  simp only [List.mem_range]

theorem countListed_eq_zero_iff {k : ℕ} :
    s.countListed k = 0 ↔ ∀ n < k, (s.cpu n).cpuList = false := by
  rw [countListed, tally_eq_zero_iff]
  refine forall₂_congr fun n _ ↦ ?_
  cases (s.cpu n).cpuList with
  | true => exact ⟨fun h ↦ absurd h Nat.one_ne_zero, fun h ↦ Bool.noConfusion h⟩
  | false => exact ⟨fun _ ↦ rfl, fun _ ↦ rfl⟩

/-- The AP that a round starts. -/
theorem startedUpTo_succ_of_listed {args : AllApsArgs} {k : ℕ} (h : (s.cpu k).cpuList = true) :
    s.startedUpTo P args (k + 1)
      = { s.startedUpTo P args k with
          cpu := Function.update (s.startedUpTo P args k).cpu k (s.started P args k)
          startCount := (s.startedUpTo P args k).startCount + 1
          apFunction := true } := by
  have hcpu : (fun n ↦ if n < k + 1 ∧ (s.cpu n).cpuList = true then s.started P args n
      else s.cpu n) =
      Function.update (fun n ↦ if n < k ∧ (s.cpu n).cpuList = true then s.started P args n
        else s.cpu n) k (s.started P args k) := by
    funext n
    rcases eq_or_ne n k with rfl | hne
    · rw [Function.update_self, if_pos ⟨Nat.lt_succ_self n, h⟩]
    · have hiff : n < k + 1 ↔ n < k := by omega
      rw [Function.update_of_ne hne]
      simp only [hiff]
  rw [startedUpTo, startedUpTo, hcpu, countListed_succ, anyListed_succ, h, Bool.or_true,
    Bool.or_true, Bool.toNat_true, Nat.add_assoc]

theorem startedUpTo_succ_of_not_listed {args : AllApsArgs} {k : ℕ}
    (h : ¬ (s.cpu k).cpuList = true) :
    s.startedUpTo P args (k + 1) = s.startedUpTo P args k := by
  have hcpu : (fun n ↦ if n < k + 1 ∧ (s.cpu n).cpuList = true then s.started P args n
      else s.cpu n) =
      fun n ↦ if n < k ∧ (s.cpu n).cpuList = true then s.started P args n else s.cpu n := by
    funext n
    rcases eq_or_ne n k with rfl | hne
    · rw [if_neg fun hn ↦ h hn.2, if_neg fun hn ↦ h hn.2]
    · have hiff : n < k + 1 ↔ n < k := by omega
      simp only [hiff]
  rw [startedUpTo, startedUpTo, hcpu, countListed_succ, anyListed_succ, Bool.eq_false_iff.2 h,
    Bool.or_false]
  rfl

/-- **The start.** -/
theorem foldl_startStep (args : AllApsArgs) (s : MpState) (k : ℕ) :
    (List.range k).foldl (startStep P args) (s, false)
      = (s.startedUpTo P args k, args.singleThread && s.anyListed k) := by
  induction k with
  | zero =>
    have hcpu : (fun n ↦ if n < 0 ∧ (s.cpu n).cpuList = true then s.started P args n
        else s.cpu n) = s.cpu := by
      funext n
      rw [if_neg fun hn ↦ n.not_lt_zero hn.1]
    rw [startedUpTo, hcpu]
    simp [anyListed, countListed, tally]
  | succ k ih =>
    rw [List.range_succ, List.foldl_append, ih, List.foldl_cons, List.foldl_nil, startStep]
    dsimp only
    have hcpu : (s.startedUpTo P args k).cpu k = s.cpu k := by
      rw [startedUpTo]
      exact if_neg fun hn ↦ Nat.lt_irrefl k hn.1
    by_cases h : (s.cpu k).cpuList = true
    · rw [hcpu, if_pos h, startedUpTo_succ_of_listed h, anyListed_succ, h, Bool.or_true,
        Bool.and_true]
      refine Prod.ext ?_ ?_
      · dsimp only
        rw [started]
        by_cases hblocking : (args.singleThread && s.anyListed k) = true
        · have hany : (s.startedUpTo P args k).apFunction = true := by
            have hlisted := (Bool.and_eq_true_iff.1 hblocking).2
            rw [startedUpTo]
            dsimp only
            rw [hlisted, Bool.or_true]
          rw [if_pos hblocking, if_pos hblocking, modify, hcpu, ← hany]
        · rw [if_neg hblocking, if_neg hblocking, wakeUpAp, modify, modify]
          dsimp only
          rw [Function.update_idem, Function.update_self, hcpu]
      · dsimp only
        cases args.singleThread with
        | true => exact Bool.or_true _
        | false => rfl
    · rw [hcpu, if_neg h, startedUpTo_succ_of_not_listed h, anyListed_succ, Bool.eq_false_iff.2 h,
        Bool.or_false]

/-! ### StartupAllAPs behind the poll -/

/-- **A rejected call.** It has written the list up to the first AP that is busy. -/
theorem startAllAPs_of_busy {args : AllApsArgs} {j : ℕ} (hj : j < P.numberOfProcessors)
    (hbusy : s.BusyAP j) (hfirst : ∀ n < j, ¬ s.BusyAP n) :
    s.startAllAPs P args = (s.listed 0 (j + 1)).leave .notReady := by
  rw [startAllAPs]
  rcases checkIdle_cases P.numberOfProcessors 0 s with ⟨i, -, hi, hbusyi, hbefore, heq⟩ | ⟨hnone, -⟩
  · have hij : i = j := by
      rcases Nat.lt_trichotomy i j with hlt | heq | hlt
      · exact absurd hbusyi (hfirst i hlt)
      · exact heq
      · exact absurd hbusy (hbefore j (Nat.zero_le j) hlt)
    rw [heq, hij]
    rfl
  · exact absurd hbusy (hnone j (Nat.zero_le j) (by omega))

/-- The state in which the APs have been started, with `CpuList` and the counters of the call. -/
def allStarted (P : MpPlatform) (args : AllApsArgs) (s : MpState) : MpState :=
  { s.listed 0 P.numberOfProcessors with finishCount := 0, startCount := 0 }.startedUpTo P args
    P.numberOfProcessors

theorem cpuList_started (args : AllApsArgs) (n : ℕ) :
    (s.started P args n).cpuList = (s.cpu n).cpuList := by
  rw [started]
  split
  · rfl
  · rw [Processor.wakeUp]
    split
    · rfl
    · rfl

/-- The list of the call. -/
theorem cpuList_allStarted (args : AllApsArgs) {n : ℕ} (hn : n < P.numberOfProcessors) :
    ((s.allStarted P args).cpu n).cpuList = s.idleAP n := by
  have hlisted : ((s.listed 0 P.numberOfProcessors).cpu n).cpuList = s.idleAP n := by
    rw [listed]
    dsimp only
    rw [if_pos ⟨Nat.zero_le n, hn⟩]
  rw [allStarted, startedUpTo]
  dsimp only
  split
  · rw [cpuList_started]
    exact hlisted
  · exact hlisted

/-- An AP that is not idle is not started. -/
theorem allStarted_cpu_of_not_idle (args : AllApsArgs) {n : ℕ} (hn : n < P.numberOfProcessors)
    (hidle : s.idleAP n = false) :
    (s.allStarted P args).cpu n = { s.cpu n with cpuList := false } := by
  have hlisted : (s.listed 0 P.numberOfProcessors).cpu n = { s.cpu n with cpuList := false } := by
    rw [listed]
    dsimp only
    rw [if_pos ⟨Nat.zero_le n, hn⟩, hidle]
  rw [allStarted, startedUpTo]
  dsimp only
  rw [hlisted, if_neg fun hboth ↦ Bool.noConfusion hboth.2]

/-- The counters of the call. -/
theorem startCount_allStarted (args : AllApsArgs) :
    (s.allStarted P args).startCount = (s.allStarted P args).countListed P.numberOfProcessors := by
  rw [allStarted, startedUpTo, Nat.zero_add]
  refine tally_congr fun n hn ↦ ?_
  dsimp only
  split
  · rw [cpuList_started]
  · rfl

/-- **An accepted call.** -/
theorem startAllAPs_of_not_busy {args : AllApsArgs}
    (hnone : ∀ n < P.numberOfProcessors, ¬ s.BusyAP n) :
    s.startAllAPs P args =
      if (s.allStarted P args).startCount = 0 then (s.allStarted P args).leave .success
      else
        let t := { s.allStarted P args with
          procedure := args.procedure
          singleThread := args.singleThread
          waitEvent := args.waitEvent
          expectedTime := args.timeout
          failedCpuList := if args.failedCpuList then some [] else none }
        if args.waitEvent.isSome then t.leave .success
        else { t with control := .checkAllAPs 0 none } := by
  rw [startAllAPs]
  rcases checkIdle_cases P.numberOfProcessors 0 s with ⟨i, -, hi, hbusyi, -, -⟩ | ⟨-, heq⟩
  · exact absurd hbusyi (hnone i (by omega))
  · rw [heq, Nat.zero_add]
    dsimp only
    rw [if_pos rfl, foldl_startStep]
    rfl

/-! ### The poll -/

/-- An AP that has finished is taken off the list. -/
def collected (s : MpState) (k : ℕ) : MpState :=
  { s.modify k (fun c ↦ { c with cpuList := false, state := .idle }) with
    finishCount := s.finishCount + 1 }

/-- **A round of the poll** that finds an AP of the call finished: the AP is taken off the list, and
with `SingleThread` the next one on it is woken. -/
theorem checkAllStep_of_finished {k : ℕ} (hlisted : (s.cpu k).cpuList = true)
    (hfinished : (s.cpu k).state = .finished) :
    s.checkAllStep P k =
      if s.singleThread then
        match (s.collected k).getNextWaitingProcessorNumber P with
        | some next => (s.collected k).wakeUpAp P next s.procedure
        | none => s.collected k
      else s.collected k := by
  rw [checkAllStep, if_pos ⟨hlisted, hfinished⟩]
  rfl

theorem checkAllStep_of_not_finished {k : ℕ}
    (h : ¬ ((s.cpu k).cpuList = true ∧ (s.cpu k).state = .finished)) :
    s.checkAllStep P k = s := by
  rw [checkAllStep, if_neg h]

theorem collected_cpu_self (k : ℕ) :
    (s.collected k).cpu k = { s.cpu k with cpuList := false, state := .idle } :=
  Function.update_self _ _ _

theorem collected_cpu_of_ne {k n : ℕ} (h : n ≠ k) : (s.collected k).cpu n = s.cpu n :=
  Function.update_of_ne h _ _

/-- The next AP to be woken is on the list. -/
theorem cpuList_of_getNextWaiting {n : ℕ} (h : s.getNextWaitingProcessorNumber P = some n) :
    (s.cpu n).cpuList = true := by
  have hlisted := List.find?_some h
  exact hlisted

theorem cpuList_collected (k n : ℕ) :
    ((s.collected k).cpu n).cpuList = (decide (n ≠ k) && (s.cpu n).cpuList) := by
  rcases eq_or_ne n k with rfl | hne
  · rw [collected_cpu_self, decide_eq_false (not_not.2 rfl), Bool.false_and]
  · rw [collected_cpu_of_ne hne, decide_eq_true hne, Bool.true_and]

/-- One AP less is listed. -/
theorem countListed_collected {k n : ℕ} (hk : k < n) (hlisted : (s.cpu k).cpuList = true) :
    (s.collected k).countListed n + 1 = s.countListed n := by
  have hframe : ∀ m, m ≠ k → ((s.collected k).cpu m).cpuList.toNat = (s.cpu m).cpuList.toNat := by
    intro m hm
    rw [cpuList_collected, decide_eq_true hm, Bool.true_and]
  have htally : (s.collected k).countListed n + (s.cpu k).cpuList.toNat
      = s.countListed n + ((s.collected k).cpu k).cpuList.toNat := tally_frame hk hframe
  rw [cpuList_collected, decide_eq_false (not_not.2 rfl), hlisted] at htally
  exact htally

end PurleyFirmware.MpService.MpState
