import PurleyFirmware.Smm.RendezvousBsp

/-!
# What the rendezvous guarantees

Two results about every run, over any number of processors and SMIs.

* `barrierSafe_of_reachable`: as long as no AP's sync timer expires, the barriers of the phases keep
  the BSP and the APs together.
* `gateHolds_of_reachable`: whatever the timers do, the entry of an SMI is gated, *provided* the
  counter is not locked down while an AP has decided to give up and has yet to take itself off the
  counter. `not_gateHolds_giveUpAfterLockdown` is a run in which the counter is locked down just
  then: the AP that `ApCount` counts leaves, and takes one off the locked counter.

Both rest on the invariant of `step_inv`. Without timeouts no AP decides to give up, so the first
result needs no proviso.
-/

namespace PurleyFirmware.Smm

variable {cfg : Config} {s s' : State}

/-! ### The invariant holds in every run -/

theorem initialState_inv (cfg : Config) : Inv cfg (initialState cfg) := by
  refine ⟨.idle, ⟨fun _ _ ↦ rfl, ?_, fun _ _ ↦ ⟨rfl, rfl⟩, rfl, fun _ ↦ rfl, nofun, fun _ ↦ ?_,
    fun _ _ ↦ rfl, nofun, ⟨?_, ?_, nofun⟩, nofun⟩⟩
  · exact fun _ _ _ ↦ iff_of_false (by simp [initialState]) (by simp)
  · have hzero : awaiting cfg (initialState cfg) .reset = 0 := tally_eq_zero_iff.2 fun _ _ ↦ rfl
    show 0 = awaiting cfg (initialState cfg) .reset + 0
    rw [hzero]
  · intro henable
    show (if cfg.enableBspElection then none else some 0) = some 0
    rw [henable]
    rfl
  · intro h henable _
    show (if cfg.enableBspElection then none else some 0) = none ∨ _
    rw [henable]
    exact .inl rfl

theorem inv_of_reachable (hs : (rendezvous cfg).ReachableUnder (NoLockdownOverGiveUp cfg) s) :
    Inv cfg s :=
  hs.invariant (fun _ hinit ↦ hinit ▸ initialState_inv cfg)
    fun _ _ _ _ hinv hguard hstep ↦ step_inv hinv hguard hstep

/-! ### Runs of two processors -/

/-- Two processors, with the default election. -/
def twoCpus : Config where
  maxCpus := 2
  maxCpus_lt := by decide
  enableBspElection := true
  platformSmmBspElection := none
  needConfigureMtrrs := false

/-- `n` steps of processor `cpu`, with the environment's default answers. -/
def steps (cpu n : ℕ) : List Label := List.replicate n { cpu := cpu }

/-- What is observed of a state: the counter, the two processors, and whether processor 1 is
counted. -/
def observe (s : State) : ℕ × CpuPc × CpuPc × Bool := (s.counter, s.pc 0, s.pc 1, s.counted 1)

/-- The state after a run from the initial state, as far as the guard lets it go. -/
def stateAfter (guard : State → Label → Bool) (as : List Label) : Option State :=
  LabelledSystem.exec (step twoCpus) guard (initialState twoCpus) as

theorem exists_of_observe {guard : State → Label → Bool} {ok : State → Label → Prop}
    (hguard : ∀ s l, guard s l = true → ok s l) {as : List Label} {o : ℕ × CpuPc × CpuPc × Bool}
    (h : (stateAfter guard as).map observe = some o) :
    ∃ s, (rendezvous twoCpus).ReachableUnder ok s ∧ observe s = o := by
  obtain ⟨s, hs, ho⟩ := Option.map_eq_some_iff.1 h
  exact ⟨s, LabelledSystem.ReachableUnder.exec hguard (fun _ _ _ hst ↦ hst) (.init rfl) hs, ho⟩

/-- Both processors check in, processor 0 is elected, and both go on up to the first barrier, where
processor 1 signals its arrival. -/
def firstBarrier : List Label := steps 0 5 ++ steps 1 6 ++ steps 0 3 ++ steps 1 5 ++ steps 0 4

/-! ### The entry gate -/

/-- The entry of an SMI is gated. -/
structure GateHolds (cfg : Config) (s : State) : Prop where
  /-- No processor that `ApCount` counts takes the give-up path of `APHandler`. -/
  stays : ∀ c, s.counted c = true → s.pc c ≠ .apGiveUp
  /-- `Counter` is `(UINT32)-1` from the lock-down of an SMI to its reset. -/
  locked : ∀ b m q, s.pc b = .bsp m q → q.counterLocked cfg m = true → s.counter = lockedDown

theorem ViewInv.gateHolds {v : View} (h : ViewInv cfg s v) : GateHolds cfg s := by
  constructor
  · intro c hcounted hgive
    have hcb : ¬ v.isBsp c := by
      cases v with
      | idle => exact id
      | bsp b m q =>
        rintro rfl
        rw [(h.atBsp c m q).2 rfl] at hgive
        cases hgive
    have hok := h.ap c hcb
    rw [hgive] at hok
    obtain ⟨-, -, -, -, -, hopen⟩ := hok.at (by simp)
    rw [h.counted hopen c] at hcounted
    cases hcounted
  · intro b m q hat hlocked
    have hv := (h.atBsp b m q).1 hat
    subst hv
    exact h.counterLocked ((stageOf_locked cfg m q).trans hlocked)

/-- **The entry gate holds** in every run in which the counter is never locked down while an AP is
about to give up. -/
theorem gateHolds_of_reachable (cfg : Config) (s : State)
    (hs : (rendezvous cfg).ReachableUnder (NoLockdownOverGiveUp cfg) s) : GateHolds cfg s := by
  obtain ⟨v, hv⟩ := inv_of_reachable hs
  exact hv.gateHolds

theorem gateHolds_of_reachable_firstBarrier :
    ∃ s, observe s = (lockedDown, .bsp .tradition (.waitForAllAPs .arrival 1 1 (some 1)),
      .apWait 0 .exit, true) ∧ GateHolds twoCpus s := by
  obtain ⟨s, hs, ho⟩ := exists_of_observe (fun _ _ h ↦ of_decide_eq_true h) (show
    (stateAfter (fun s l ↦ decide (NoLockdownOverGiveUp twoCpus s l)) firstBarrier).map observe =
      some (lockedDown, .bsp .tradition (.waitForAllAPs .arrival 1 1 (some 1)), .apWait 0 .exit,
        true) by decide +kernel)
  exact ⟨s, ho, gateHolds_of_reachable twoCpus s hs⟩

/-- Processor 0 is elected and is about to call `BSPHandler`; processor 1 waits for it twice, in
vain, and gives up. -/
def apGivesUp : List Label :=
  steps 0 5 ++ steps 1 6 ++ [{ cpu := 1, env := { timerExpired := true } }] ++ steps 1 2 ++
    [{ cpu := 1, env := { timerExpired := true } }] ++ steps 1 1

/-- Then processor 0 runs `BSPHandler` up to the lock-down, which counts processor 1. -/
def lockdownAfterGiveUp : List Label := apGivesUp ++ steps 0 6

/-- Then processor 1 takes itself off the locked counter. -/
def giveUpAfterLockdown : List Label := lockdownAfterGiveUp ++ steps 1 1

/-- **The entry gate does not hold in every run.** Processor 1 decides to give up, the lock-down
counts it, and it gives up: the counter is `(UINT32)-2` while the BSP waits for it. -/
theorem not_gateHolds_giveUpAfterLockdown :
    (∃ s, (rendezvous twoCpus).Reachable s ∧ s.counted 1 = true ∧ s.pc 1 = .apGiveUp) ∧
    (∃ s, (rendezvous twoCpus).Reachable s ∧ s.counted 1 = true ∧ s.pc 1 = .exitWait ∧
      s.pc 0 = .bsp .tradition (.waitForAllAPs .arrival 1 1 none) ∧
      s.counter = lockedDown - 1) ∧
    ¬ ∀ s, (rendezvous twoCpus).Reachable s → GateHolds twoCpus s := by
  have hgive : ∃ s, (rendezvous twoCpus).Reachable s ∧ s.counted 1 = true ∧
      s.pc 1 = .apGiveUp := by
    obtain ⟨s, hs, ho⟩ := exists_of_observe (fun _ _ _ ↦ trivial) (show
      (stateAfter (fun _ _ ↦ true) lockdownAfterGiveUp).map observe = some (lockedDown,
        .bsp .tradition (.waitForAllAPs .arrival 1 1 none), .apGiveUp, true) by decide)
    simp only [observe, Prod.mk.injEq] at ho
    exact ⟨s, hs, ho.2.2.2, ho.2.2.1⟩
  refine ⟨hgive, ?_, fun hall ↦ ?_⟩
  · obtain ⟨s, hs, ho⟩ := exists_of_observe (fun _ _ _ ↦ trivial) (show
      (stateAfter (fun _ _ ↦ true) giveUpAfterLockdown).map observe = some (lockedDown - 1,
        .bsp .tradition (.waitForAllAPs .arrival 1 1 none), .exitWait, true) by decide)
    simp only [observe, Prod.mk.injEq] at ho
    exact ⟨s, hs, ho.2.2.2, ho.2.2.1, ho.2.1, ho.1⟩
  · obtain ⟨s, hs, hcounted, hpc⟩ := hgive
    exact (hall s hs).stays 1 hcounted hpc

/-! ### Patience: no AP decides to give up unless its timer expires -/

/-- Where a processor can be whose timer has not expired, while `InsideSmm` is `inside`. -/
def CpuPc.Patient (inside : Bool) : CpuPc → Prop
  | .apCheck1 _ => inside = true
  | .apBspKnown _ | .apTimer2 _ | .apCheck2 _ | .apGiveUp => False
  | _ => True

/-- A step of `BSPHandler` stays in it or ends it, and clears `InsideSmm` at one point only. -/
theorem bspStep_pc {b : ℕ} {m : SyncMode} {q : BspPc} {e : Env} (hat : s.pc b = .bsp m q)
    (hstep : bspStep cfg s b m e q = some s') :
    ∃ q', s'.pc = Function.update s.pc b q' ∧ (∀ inside, q'.Patient inside) ∧
      (s'.insideSmm = s.insideSmm ∨ s'.insideSmm = true ∨ ∃ a, q = .leave a) := by
  have hstay : s.pc = Function.update s.pc b (.bsp m q) := by
    rw [← hat, Function.update_eq_self]
  cases q with
  | enter =>
    obtain rfl := Option.some.inj hstep
    exact ⟨_, rfl, fun _ ↦ trivial, .inr (.inl rfl)⟩
  | leave a =>
    obtain rfl := Option.some.inj hstep
    exact ⟨_, rfl, fun _ ↦ trivial, .inr (.inr ⟨a, rfl⟩)⟩
  | markPresent | waitForApArrival | inSync | lockdown | acquireBusy | startupThisAp | relaxedInSync
  | relaxedLockdown | setSyncMode | clearPresent | resetBspIndex | resetCounter =>
    obtain rfl := Option.some.inj hstep
    exact ⟨_, rfl, fun _ ↦ trivial, .inl rfl⟩
  | waitForAllAPs p a numberOfAPs count =>
    cases count with
    | none =>
      obtain rfl := Option.some.inj hstep
      exact ⟨_, rfl, fun _ ↦ trivial, .inl rfl⟩
    | some count =>
      obtain ⟨run, -, rfl⟩ := Option.map_eq_some_iff.1 hstep
      exact ⟨_, rfl, fun _ ↦ trivial, .inl rfl⟩
  | releaseAllAPs p a index =>
    cases index with
    | zero =>
      obtain rfl := Option.some.inj hstep
      exact ⟨_, rfl, fun _ ↦ trivial, .inl rfl⟩
    | succ index =>
      obtain rfl := Option.some.inj hstep
      split <;> exact ⟨_, rfl, fun _ ↦ trivial, .inl rfl⟩
  | tasks drained a =>
    cases htask : e.startTask with
    | none =>
      simp only [bspStep, htask] at hstep
      obtain rfl := Option.some.inj hstep
      exact ⟨_, rfl, fun _ ↦ trivial, .inl rfl⟩
    | some ap =>
      simp only [bspStep, htask] at hstep
      split at hstep
      · obtain rfl := Option.some.inj hstep
        exact ⟨_, rfl, fun _ ↦ trivial, .inl rfl⟩
      · obtain rfl := Option.some.inj hstep
        exact ⟨_, hstay, fun _ ↦ trivial, .inl rfl⟩
  | blockOnAp drained a ap =>
    simp only [bspStep, Option.ite_none_left_eq_some, Option.some.injEq] at hstep
    obtain ⟨-, rfl⟩ := hstep
    exact ⟨_, rfl, fun _ ↦ trivial, .inl rfl⟩
  | drain a index =>
    cases index with
    | zero =>
      obtain rfl := Option.some.inj hstep
      exact ⟨_, rfl, fun _ ↦ trivial, .inl rfl⟩
    | succ index =>
      simp only [bspStep, Option.ite_none_left_eq_some, Option.some.injEq] at hstep
      obtain ⟨-, rfl⟩ := hstep
      exact ⟨_, rfl, fun _ ↦ trivial, .inl rfl⟩
  | countPresent a index k =>
    cases index <;>
      · obtain rfl := Option.some.inj hstep
        exact ⟨_, rfl, fun _ ↦ trivial, .inl rfl⟩

/-- A processor whose timer has not expired does not decide to give up. -/
theorem cpuStep_patient {c : ℕ} {e : Env} (hpatient : (s.pc c).Patient s.insideSmm)
    (htimer : e.timerExpired = false) (hstep : cpuStep cfg s c e = some s') :
    ∃ q, s'.pc = Function.update s.pc c q ∧ q.Patient s'.insideSmm ∧
      (s'.insideSmm = s.insideSmm ∨ s'.insideSmm = true ∨ ∃ m a, s.pc c = .bsp m (.leave a)) := by
  cases hpc : s.pc c with
  | bsp m q =>
    simp only [cpuStep, hpc] at hstep
    obtain ⟨q', hq', hp, hin⟩ := bspStep_pc hpc hstep
    refine ⟨q', hq', hp _, ?_⟩
    rcases hin with hin | hin | ⟨a, rfl⟩
    · exact .inl hin
    · exact .inr (.inl hin)
    · exact .inr (.inr ⟨m, a, rfl⟩)
  | apBspKnown | apTimer2 | apCheck2 | apGiveUp =>
    rw [hpc] at hpatient
    exact hpatient.elim
  | apTimer1 m =>
    simp only [cpuStep, hpc, htimer, Bool.or_false, Option.ite_none_right_eq_some,
      Option.some.injEq] at hstep
    obtain ⟨hin, rfl⟩ := hstep
    exact ⟨_, rfl, hin, .inl rfl⟩
  | apCheck1 m =>
    rw [hpc] at hpatient
    have hin : s.insideSmm = true := hpatient
    simp only [cpuStep, hpc, hin, if_true, Option.some.injEq] at hstep
    subst hstep
    exact ⟨_, rfl, trivial, .inl rfl⟩
  | outside =>
    simp only [cpuStep, hpc, Option.some.injEq] at hstep
    subst hstep
    split
    · exact ⟨_, rfl, trivial, .inl rfl⟩
    · refine ⟨.outside, ?_, trivial, .inl rfl⟩
      rw [← hpc, Function.update_eq_self]
  | late | exitWait =>
    simp only [cpuStep, hpc, Option.ite_none_left_eq_some, Option.some.injEq] at hstep
    obtain ⟨-, rfl⟩ := hstep
    exact ⟨_, rfl, trivial, .inl rfl⟩
  | apAvailable m =>
    simp only [cpuStep, hpc, Option.map_eq_some_iff] at hstep
    obtain ⟨b, -, rfl⟩ := hstep
    exact ⟨_, rfl, trivial, .inl rfl⟩
  | apWait b p =>
    simp only [cpuStep, hpc, Option.map_eq_some_iff] at hstep
    obtain ⟨run, -, rfl⟩ := hstep
    refine ⟨_, rfl, ?_, .inl rfl⟩
    cases p <;> trivial
  | apSignal b p =>
    simp only [cpuStep, hpc, Option.some.injEq] at hstep
    subst hstep
    refine ⟨_, rfl, ?_, .inl rfl⟩
    unfold afterSignal
    split <;> trivial
  | sampled | checkedIn | elected | apPresent | apExit =>
    simp only [cpuStep, hpc, Option.some.injEq] at hstep
    subst hstep
    refine ⟨_, rfl, ?_, .inl rfl⟩
    split <;> trivial
  | elect | callBspHandler | callApHandler | apTask | apReset | clearInSync =>
    simp only [cpuStep, hpc, Option.some.injEq] at hstep
    subst hstep
    exact ⟨_, rfl, trivial, .inl rfl⟩

/-- The invariant of runs without timeouts. -/
structure PatientInv (cfg : Config) (s : State) : Prop where
  inv : Inv cfg s
  patient : ∀ c, (s.pc c).Patient s.insideSmm

/-- **Without timeouts**, no AP decides to give up, and the invariant holds. -/
theorem step_patientInv {l : Label} (h : PatientInv cfg s) (htimer : NoTimeout s l)
    (hstep : step cfg s l = some s') : PatientInv cfg s' := by
  obtain ⟨hinv, hpatient⟩ := h
  have hguard : NoLockdownOverGiveUp cfg s l := by
    intro _ c _ hgive
    have hp := hpatient c
    rw [hgive] at hp
    exact hp
  refine ⟨step_inv hinv hguard hstep, fun d ↦ ?_⟩
  have hcpu : cpuStep cfg s l.cpu l.env = some s' := by
    unfold step at hstep
    split at hstep
    · exact hstep
    · cases hstep
  obtain ⟨q, hq, hpq, hin⟩ := cpuStep_patient (hpatient l.cpu) htimer hcpu
  by_cases hd : d = l.cpu
  · rw [hd, hq, Function.update_self]
    exact hpq
  · rw [hq, Function.update_of_ne hd]
    have hp := hpatient d
    rcases hin with hin | hin | ⟨m, a, hleave⟩
    · rwa [hin]
    · rw [hin]
      cases hpc : s.pc d <;> rw [hpc] at hp <;> first | exact hp | trivial
    · -- nobody is still waiting for `InsideSmm` when the BSP clears it
      obtain ⟨v, hv⟩ := hinv
      have hvb := (hv.atBsp _ _ _).1 hleave
      subst hvb
      have hok := hv.ap d hd
      cases hpc : s.pc d with
      | apCheck1 m' =>
        rw [hpc] at hok
        cases (hok.at (by simp)).2.1
      | _ =>
        rw [hpc] at hp
        exact hp

theorem patientInv_of_reachable (hs : (rendezvous cfg).ReachableUnder NoTimeout s) :
    PatientInv cfg s :=
  hs.invariant (fun _ hinit ↦ hinit ▸ ⟨initialState_inv cfg, fun _ ↦ trivial⟩)
    fun _ _ _ _ hinv htimer hstep ↦ step_patientInv hinv htimer hstep

/-! ### The barriers -/

/-- The phase an AP is in: it has been woken up for the phase and has not signalled it. In the wait
loop, a wake-up while `InsideSmm` is set is for a task and not for the exit. -/
def CpuPc.working (insideSmm : Bool) : CpuPc → Option Phase
  | .apSignal _ p => if p = .arrival then none else some p
  | .apExit _ => if insideSmm then none else some .exit
  | .apReset _ => some .reset
  | _ => none

/-- The AP has completed phase `p`: it waits for a later phase or, after the last one, is through
with its handler. -/
def CpuPc.Completed (p : Phase) : CpuPc → Prop
  | .apWait _ p' => p.rank < p'.rank
  | q => p = .reset ∧ q.insideAp = false

/-- The BSP has released processor `c` for phase `p` of the current SMI. -/
def BspPc.Released (p : Phase) (c : ℕ) : BspPc → Prop
  | .enter | .markPresent | .waitForApArrival | .inSync | .lockdown => False
  | .releaseAllAPs p' _ index => p.rank < p'.rank ∨ (p = p' ∧ index ≤ c)
  | .waitForAllAPs p' _ _ _ => p.rank ≤ p'.rank
  | .setSyncMode _ => p.rank ≤ Phase.exit.rank
  | .clearPresent _ | .resetBspIndex | .resetCounter => True
  | _ => p.rank < Phase.exit.rank

/-- The BSP is past the last barrier of the SMI. -/
def BspPc.pastLastBarrier : BspPc → Bool
  | .resetBspIndex | .resetCounter => true
  | _ => false

/-- The barriers keep the BSP and the APs together. -/
structure BarrierSafe (cfg : Config) (s : State) : Prop where
  /-- What `WaitForAllAPs` is about to take from the BSP's semaphore, and what it leaves there, has
  been signalled by APs that are still awaited: `NumberOfAPs` does not underflow. -/
  noUnderflow : ∀ b m p a numberOfAPs count,
    s.pc b = .bsp m (.waitForAllAPs p a numberOfAPs (some count)) →
      count ≤ s.run b ∧ s.run b ≤ numberOfAPs
  /-- When the BSP leaves `WaitForAllAPs`, every AP that `ApCount` counts has completed the
  phase. -/
  completed : ∀ b m p a count, s.pc b = .bsp m (.waitForAllAPs p a 0 count) →
    ∀ c, s.counted c = true → (s.pc c).Completed p
  /-- No AP is in a phase for which the BSP has not released it. -/
  released : ∀ c p, (s.pc c).working s.insideSmm = some p →
    ∃ b m q, s.pc b = .bsp m q ∧ q.Released p c
  /-- When the SMI ends, and until the next one begins, all `Run` semaphores are 0. -/
  drained : (∀ b m q, s.pc b = .bsp m q → q.pastLastBarrier = true) → ∀ c, s.run c = 0

/-- A counted AP that has signalled the phase of a barrier waits for the next phase. -/
theorem ApOk.completed {m : SyncMode} {p : Phase} {early : Bool} {b c run : ℕ}
    {present busy : Bool} {q : CpuPc}
    (h : ApOk cfg (barrierStage m p 0 early) b c run present busy q)
    (hawaits : q.awaits p = false) (hinside : p ≠ .reset → q.insideAp = true) : q.Completed p := by
  have hat : ApAt cfg (barrierStage m p 0 early) b c run present busy q := h
  cases q with
  | bsp => exact hat.elim
  | outside | sampled | late | exitWait | clearInSync =>
    refine ⟨?_, rfl⟩
    by_contra hp
    cases hinside hp
  | checkedIn | elect | elected | callBspHandler | callApHandler | apTimer1 | apCheck1 | apBspKnown
  | apTimer2 | apCheck2 | apGiveUp | apAvailable | apPresent => cases hawaits
  | apSignal b' p' =>
    obtain ⟨-, -, rfl, -⟩ := hat
    simp [CpuPc.awaits] at hawaits
  | apWait b' p' =>
    have hlt : ¬ p'.rank ≤ p.rank := of_decide_eq_false hawaits
    exact Nat.lt_of_not_le hlt
  | apExit b' =>
    obtain ⟨-, -, hp, -⟩ := hat
    have hp' : p = .exit := hp
    rw [hp'] at hawaits
    cases hawaits
  | apTask b' =>
    obtain ⟨-, -, hp, -⟩ := hat
    have hp' : p = .exit := hp
    rw [hp'] at hawaits
    cases hawaits
  | apReset b' =>
    obtain ⟨-, -, hp, -⟩ := hat
    have hp' : p = .reset := hp
    rw [hp'] at hawaits
    cases hawaits

theorem ViewInv.completed {b : ℕ} {m : SyncMode} {p : Phase} {a : ℕ} {count : Option ℕ}
    (h : ViewInv cfg s (.bsp b m (.waitForAllAPs p a 0 count))) {c : ℕ}
    (hcounted : s.counted c = true) : (s.pc c).Completed p := by
  obtain ⟨-, -, hleft, -⟩ := h.bsp b m _ rfl
  have hzero : awaiting cfg s p = 0 := by omega
  have hinside : p ≠ .reset → (s.pc c).insideAp = true := fun hp ↦
    (h.countedInside rfl hp c).symm.trans hcounted
  by_cases hcb : c = b
  · have hat : s.pc c = .bsp m (.waitForAllAPs p a 0 count) := by
      rw [hcb]
      exact (h.atBsp b m _).2 rfl
    rw [hat] at hinside ⊢
    refine ⟨?_, rfl⟩
    by_contra hp
    cases hinside hp
  · refine ApOk.completed (h.ap c hcb) ?_ hinside
    by_cases hout : s.pc c = .outside
    · rw [hout]
      rfl
    · exact awaits_eq_false_of_awaiting hzero (h.lt_maxCpus hout)

/-- Whoever the stage of the BSP counts as released has been released by it. -/
theorem released_of_stage {m : SyncMode} {q : BspPc} {c : ℕ} (hc : c < cfg.maxCpus)
    (harrival : (stageOf cfg m q).phase ≠ .arrival) (hreleased : (stageOf cfg m q).released ≤ c) :
    q.Released (stageOf cfg m q).phase c := by
  cases q with
  | enter | markPresent | waitForApArrival | inSync | lockdown =>
    simp only [stageOf, gatheringStage] at harrival hreleased
    split at harrival
    · exact absurd rfl harrival
    · rename_i hg
      rw [if_neg hg] at hreleased
      omega
  | waitForAllAPs => exact le_rfl
  | releaseAllAPs => exact .inr ⟨rfl, hreleased⟩
  | acquireBusy | tasks | startupThisAp | blockOnAp | drain | relaxedInSync | relaxedLockdown
  | countPresent | leave | setSyncMode =>
    simp only [stageOf, handlersStage, barrierStage] at hreleased
    omega
  | clearPresent | resetBspIndex | resetCounter => trivial

theorem ViewInv.released {v : View} (h : ViewInv cfg s v) {c : ℕ} {p : Phase}
    (hworking : (s.pc c).working s.insideSmm = some p) :
    ∃ b m q, s.pc b = .bsp m q ∧ q.Released p c := by
  have hc : c < cfg.maxCpus := h.lt_maxCpus fun hout ↦ by rw [hout] at hworking; cases hworking
  have hcb : ¬ v.isBsp c := by
    cases v with
    | idle => exact id
    | bsp b m q =>
      rintro rfl
      rw [(h.atBsp c m q).2 rfl] at hworking
      cases hworking
  have hok := h.ap c hcb
  -- it is enough that the AP is released for the phase of a stage that has a BSP
  have hstage : (v.stage cfg s.effectiveSyncMode).active = true →
      (v.stage cfg s.effectiveSyncMode).phase = p → p ≠ .arrival →
      (v.stage cfg s.effectiveSyncMode).released ≤ c →
      ∃ b m q, s.pc b = .bsp m q ∧ q.Released p c := by
    rintro hactive rfl harrival hreleased
    cases v with
    | idle => cases hactive
    | bsp b m q => exact ⟨b, m, q, (h.atBsp b m q).2 rfl, released_of_stage hc harrival hreleased⟩
  cases hpc : s.pc c with
  | apSignal b' p' =>
    rw [hpc] at hok hworking
    obtain ⟨-, -, hactive, rfl, hreleased, -⟩ := hok.at (by simp)
    simp only [CpuPc.working] at hworking
    split at hworking
    · cases hworking
    · rename_i hne
      obtain rfl := Option.some.inj hworking
      exact hstage hactive rfl hne hreleased
  | apExit b' =>
    rw [hpc] at hok hworking
    obtain ⟨-, -, hactive, hphase, -, -, ⟨hreleased, -⟩ | ⟨-, -, hmay⟩⟩ := hok.at (by simp)
    · simp only [CpuPc.working] at hworking
      split at hworking
      · cases hworking
      · obtain rfl := Option.some.inj hworking
        exact hstage hactive hphase (by simp) hreleased
    · rw [h.inside, h.wf.inside_of_mayTask c hmay] at hworking
      cases hworking
  | apReset b' =>
    rw [hpc] at hok hworking
    obtain ⟨-, -, hactive, hphase, hreleased, -⟩ := hok.at (by simp)
    obtain rfl := Option.some.inj hworking
    exact hstage hactive hphase (by simp) hreleased
  | _ =>
    rw [hpc] at hworking
    cases hworking

/-- An AP that has no part in an SMI has been woken up as often as it was released. -/
theorem ApOk.run_eq_zero {st : Stage} {b c run : ℕ} {present busy : Bool} {q : CpuPc}
    (h : ApOk cfg st b c run present busy q)
    (hout : st.active = false ∨ q.awaits .reset = false) : run = 0 := by
  unfold ApOk at h
  split at h
  · exact h.2.1
  cases q with
  | outside | sampled | late | exitWait | clearInSync => exact h.1
  | bsp => exact h.elim
  | checkedIn | elect | elected | callBspHandler | callApHandler | apTimer1 | apCheck1 | apBspKnown
  | apTimer2 | apCheck2 | apGiveUp | apAvailable | apPresent => exact h.2.1
  | apExit | apTask => exact h.2.2.2.1
  | apSignal => exact h.2.2.2.2.1
  | apReset => exact h.2.2.2.2.1
  | apWait b' p =>
    rcases hout with hout | hout
    · have hactive := h.2.1
      rw [hout] at hactive
      cases hactive
    · simp [CpuPc.awaits, p.rank_le_reset] at hout

theorem ViewInv.drained {v : View} (h : ViewInv cfg s v)
    (hend : ∀ b m q, s.pc b = .bsp m q → q.pastLastBarrier = true) (c : ℕ) : s.run c = 0 := by
  cases v with
  | idle => exact (h.ap c id).run_eq_zero (.inl rfl)
  | bsp b m q =>
    have hpast := hend b m q ((h.atBsp b m q).2 rfl)
    have htally : s.run b = 0 ∧ awaiting cfg s .reset = 0 := by
      obtain ⟨-, -, htally⟩ := h.bsp b m q rfl
      cases q with
      | resetBspIndex | resetCounter => exact ⟨htally.1, htally.2.1⟩
      | _ => cases hpast
    by_cases hcb : c = b
    · rw [hcb]
      exact htally.1
    · refine (h.ap c hcb).run_eq_zero (.inr ?_)
      by_cases hout : s.pc c = .outside
      · rw [hout]
        rfl
      · exact awaits_eq_false_of_awaiting htally.2 (h.lt_maxCpus hout)

/-- **The barriers are safe** in every run without timeouts, for any number of processors and any
interleaving. -/
theorem barrierSafe_of_reachable (cfg : Config) (s : State)
    (hs : (rendezvous cfg).ReachableUnder NoTimeout s) : BarrierSafe cfg s := by
  obtain ⟨v, hv⟩ := (patientInv_of_reachable hs).inv
  refine ⟨fun b m p a numberOfAPs count hat ↦ ?_, fun b m p a count hat c hcounted ↦ ?_,
    fun c p hworking ↦ hv.released hworking, hv.drained⟩
  · obtain rfl := (hv.atBsp b m _).1 hat
    obtain ⟨-, -, hleft, hcount, -⟩ := hv.bsp b m _ rfl
    exact ⟨hcount count rfl, by omega⟩
  · obtain rfl := (hv.atBsp b m _).1 hat
    exact hv.completed hcounted

theorem barrierSafe_of_reachable_firstBarrier :
    ∃ s, observe s = (lockedDown, .bsp .tradition (.waitForAllAPs .arrival 1 1 (some 1)),
      .apWait 0 .exit, true) ∧ BarrierSafe twoCpus s := by
  obtain ⟨s, hs, ho⟩ := exists_of_observe (fun _ _ h ↦ of_decide_eq_true h) (show
    (stateAfter (fun s l ↦ decide (NoTimeout s l)) firstBarrier).map observe =
      some (lockedDown, .bsp .tradition (.waitForAllAPs .arrival 1 1 (some 1)), .apWait 0 .exit,
        true) by decide +kernel)
  exact ⟨s, ho, barrierSafe_of_reachable twoCpus s hs⟩

end PurleyFirmware.Smm
