import PurleyFirmware.Foundation.Tally
import PurleyFirmware.Smm.RendezvousModel

/-!
# The invariant of the rendezvous

One counting semaphore, the BSP's `Run`, collects the signals of all APs for all phases. What keeps
the phases apart is recorded here as an invariant of every reachable state.

* A `Stage` summarises how far the BSP is: the phase whose barrier is current, the processors it
  has released for that phase, whether processors may still be arriving, whether the counter is
  locked down, and which APs may have a task pending. It is a function of the BSP's program
  counter (`stageOf`), so what the BSP does is said once, by that function.
* `ApOk` says where an AP can be at a stage, with the values of its own `Run`, `Present` and
  `Busy`. A released AP is at most one phase ahead of an AP that is yet to be released.
* `TallyOk` is the counting half. `awaiting s p` is the number of APs that have yet to signal
  phase `p`; during the barrier of `p` it is what is left of `ApCount` when the signals that the BSP
  has consumed and those still in its semaphore are taken off.

## How the cases go

An AP moves itself and at most adds one to the BSP's semaphore; the BSP moves the stage and at most
touches one AP. `ViewInv.apMove` and `ViewInv.bspMove` are these two frames, and each step of the
code is one application of one of them.
-/

namespace PurleyFirmware.Smm

/-! ### What an AP has yet to signal -/

/-- The AP has yet to signal phase `p`. -/
def CpuPc.awaits (p : Phase) : CpuPc → Bool
  | .outside | .sampled _ | .late | .exitWait | .bsp _ _ | .clearInSync => false
  | .apSignal _ p' | .apWait _ p' => decide (p'.rank ≤ p.rank)
  | .apExit _ | .apTask _ => decide (Phase.exit.rank ≤ p.rank)
  | .apReset _ => decide (Phase.reset.rank ≤ p.rank)
  | _ => true

theorem Phase.rank_le_reset (p : Phase) : p.rank ≤ Phase.reset.rank := by
  cases p <;> decide

/-- Every AP that the counter counts has the reset ahead of it. -/
theorem CpuPc.awaits_reset (q : CpuPc) : q.awaits .reset = q.insideAp := by
  cases q <;> simp only [awaits, insideAp, Phase.rank_le_reset, decide_true]

theorem Phase.rank_lt_next {cfg : Config} {p p' : Phase} (h : p.next cfg = some p') :
    p.rank < p'.rank := by
  cases p <;> simp only [Phase.next, Option.some.injEq, reduceCtorEq] at h <;> subst h <;>
    (try split) <;> decide

/-- The number of APs that have yet to signal phase `p`. -/
def awaiting (cfg : Config) (s : State) (p : Phase) : ℕ :=
  tally cfg.maxCpus (fun q ↦ (q.awaits p).toNat) s.pc

/-- The number of processors from `index` on whose `Present` flag is set. -/
def presentFrom (cfg : Config) (s : State) (index : ℕ) : ℕ :=
  tally cfg.maxCpus (fun x : ℕ × Bool ↦ (decide (index ≤ x.1) && x.2).toNat)
    fun i ↦ (i, s.present i)

/-! ### Stages -/

/-- The BSP is past the lock-down of this SMI's counter and has not reset it. -/
def BspPc.counterLocked (cfg : Config) (m : SyncMode) : BspPc → Bool
  | .enter | .markPresent | .waitForApArrival | .inSync | .lockdown => false
  | .acquireBusy _ | .tasks _ _ | .startupThisAp _ _ _ | .blockOnAp _ _ _ | .drain _ _ =>
      cfg.gathers m
  | .relaxedInSync | .relaxedLockdown => false
  | _ => true

/-- The phases that come before `InsideSmm` is cleared. -/
def Phase.beforeLeave (p : Phase) : Bool := decide (p.rank < Phase.exit.rank)

/-- How far the BSP is in the current SMI. -/
structure Stage where
  /-- There is a BSP. -/
  active : Bool
  /-- The mode of the SMI. -/
  mode : SyncMode
  /-- The phase whose barrier is current. -/
  phase : Phase
  /-- The processors from this index on have been released for that phase. -/
  released : ℕ
  /-- Processors may be on their way to the first barrier. -/
  early : Bool
  /-- The counter is locked down. -/
  locked : Bool
  /-- `InsideSmm`. -/
  inside : Bool
  /-- The APs that may have a task pending. -/
  mayTask : ℕ → Bool
  /-- The AP whose `Busy` is acquired for a task and whose `Run` is yet to be released. -/
  starting : Option ℕ

/-- No BSP. -/
def idleStage (m : SyncMode) : Stage :=
  { active := false, mode := m, phase := .arrival, released := 0, early := true, locked := false,
    inside := false, mayTask := fun _ ↦ false, starting := none }

/-- The barrier of phase `p`, with the processors from `index` on released. -/
def barrierStage (m : SyncMode) (p : Phase) (index : ℕ) (early : Bool) : Stage :=
  { active := true, mode := m, phase := p, released := index, early := early, locked := true,
    inside := p.beforeLeave, mayTask := fun _ ↦ false, starting := none }

/-- Before the first barrier: its phase is the arrival if APs are gathered first, and the exit if
they are not. -/
def gatheringStage (cfg : Config) (m : SyncMode) (inside : Bool) : Stage :=
  { active := true, mode := m, phase := if cfg.gathers m then .arrival else .exit,
    released := if cfg.gathers m then 0 else cfg.maxCpus, early := true, locked := false,
    inside := inside, mayTask := fun _ ↦ false, starting := none }

/-- The SMI handlers run; all APs that are present wait for a task or for the exit. -/
def handlersStage (cfg : Config) (m : SyncMode) (early locked : Bool) (mayTask : ℕ → Bool)
    (starting : Option ℕ) : Stage :=
  { active := true, mode := m, phase := .exit, released := cfg.maxCpus, early := early,
    locked := locked, inside := true, mayTask := mayTask, starting := starting }

/-- The stage of the SMI at each point of `BSPHandler`. -/
def stageOf (cfg : Config) (m : SyncMode) : BspPc → Stage
  | .enter => gatheringStage cfg m false
  | .markPresent | .waitForApArrival | .inSync | .lockdown => gatheringStage cfg m true
  | .waitForAllAPs p _ _ _ => barrierStage m p 0 (decide (p = .arrival))
  | .releaseAllAPs p _ index => barrierStage m p index false
  | .acquireBusy _ => handlersStage cfg m (!cfg.gathers m) (cfg.gathers m) (fun _ ↦ false) none
  | .tasks drained _ =>
      handlersStage cfg m (!cfg.gathers m) (cfg.gathers m) (fun _ ↦ !drained) none
  | .startupThisAp drained _ ap =>
      handlersStage cfg m (!cfg.gathers m) (cfg.gathers m) (fun c ↦ !drained || decide (c = ap))
        (some ap)
  | .blockOnAp drained _ ap =>
      handlersStage cfg m (!cfg.gathers m) (cfg.gathers m) (fun c ↦ !drained || decide (c = ap))
        none
  | .drain _ index =>
      handlersStage cfg m (!cfg.gathers m) (cfg.gathers m) (fun c ↦ decide (c < index)) none
  | .relaxedInSync | .relaxedLockdown => handlersStage cfg m true false (fun _ ↦ false) none
  | .countPresent _ _ _ => handlersStage cfg m true true (fun _ ↦ false) none
  | .leave _ => handlersStage cfg m false true (fun _ ↦ false) none
  | .setSyncMode _ =>
      barrierStage m (if cfg.needConfigureMtrrs then .restore else .reset) cfg.maxCpus false
  | .clearPresent _ | .resetBspIndex | .resetCounter => barrierStage m .reset 0 false

/-- Some points of `BSPHandler` are reached in only one of the two orders (APs gathered before the
SMI handlers, or after them), APs are not released to arrive, and the BSP starts no task on
itself. -/
def BspPc.ModeOk (cfg : Config) (b : ℕ) (m : SyncMode) : BspPc → Prop
  | .waitForApArrival | .inSync | .lockdown => cfg.gathers m = true
  | .waitForAllAPs p _ _ _ => p.beforeLeave = true → cfg.gathers m = true
  | .releaseAllAPs p _ _ => p ≠ .arrival ∧ (p.beforeLeave = true → cfg.gathers m = true)
  | .relaxedInSync | .relaxedLockdown | .countPresent _ _ _ => cfg.gathers m = false
  | .startupThisAp _ _ ap => ap ≠ b
  | _ => True

theorem stageOf_active (cfg : Config) (m : SyncMode) (q : BspPc) :
    (stageOf cfg m q).active = true := by
  cases q <;> rfl

theorem stageOf_locked (cfg : Config) (m : SyncMode) (q : BspPc) :
    (stageOf cfg m q).locked = q.counterLocked cfg m := by
  cases q <;> rfl

theorem stageOf_mode (cfg : Config) (m : SyncMode) (q : BspPc) : (stageOf cfg m q).mode = m := by
  cases q <;> rfl

/-- What every stage has in common. -/
structure Stage.Wf (cfg : Config) (st : Stage) : Prop where
  early_of_unlocked : st.locked = false → st.early = true
  inside_of_locked : st.early = true → st.locked = true → st.inside = true
  inside_of_mayTask : ∀ c, st.mayTask c = true → st.inside = true
  inactive : st.active = false → st.inside = false
  not_inside_of_released : ∀ c, c < cfg.maxCpus → st.phase = .exit → st.released ≤ c →
    st.inside = false
  /-- Where APs are gathered, they arrive without being released. -/
  gathers : st.active = true → st.early = true → cfg.gathers st.mode = true →
    st.phase = .arrival ∧ st.released = 0
  /-- Elsewhere they go straight to the wait loop. -/
  relaxed : st.active = true → st.early = true → cfg.gathers st.mode = false →
    st.phase = .exit ∧ st.released = cfg.maxCpus

theorem idleStage_wf (cfg : Config) (m : SyncMode) : (idleStage m).Wf cfg :=
  ⟨fun _ ↦ rfl, nofun, nofun, fun _ ↦ rfl, fun _ _ _ _ ↦ rfl, nofun, nofun⟩

theorem gatheringStage_wf (cfg : Config) (m : SyncMode) (inside : Bool) :
    (gatheringStage cfg m inside).Wf cfg := by
  refine ⟨fun _ ↦ rfl, nofun, nofun, nofun, fun c hc hphase hreleased ↦ ?_, fun _ _ hg ↦ ?_,
    fun _ _ hg ↦ ?_⟩
  · simp only [gatheringStage] at hphase hreleased
    split at hphase
    · cases hphase
    · rename_i hg
      rw [if_neg hg] at hreleased
      omega
  · have hg' : cfg.gathers m = true := hg
    simp [gatheringStage, hg']
  · have hg' : cfg.gathers m = false := hg
    simp [gatheringStage, hg']

theorem handlersStage_wf {cfg : Config} {m : SyncMode} {early locked : Bool} {mayTask : ℕ → Bool}
    {starting : Option ℕ} (hlocked : locked = false → early = true)
    (hearly : early = true → cfg.gathers m = false) :
    (handlersStage cfg m early locked mayTask starting).Wf cfg := by
  refine ⟨hlocked, fun _ _ ↦ rfl, fun _ _ ↦ rfl, nofun, fun c hc _ hreleased ↦ ?_,
    fun _ he hg ↦ ?_, fun _ _ _ ↦ ⟨rfl, rfl⟩⟩
  · exact absurd hreleased (Nat.not_le.2 hc)
  · have hg' : cfg.gathers m = true := hg
    rw [hearly he] at hg'
    cases hg'

theorem barrierStage_wf {cfg : Config} {m : SyncMode} {p : Phase} {index : ℕ} {early : Bool}
    (hearly : early = true → p = .arrival ∧ cfg.gathers m = true ∧ index = 0) :
    (barrierStage m p index early).Wf cfg := by
  refine ⟨nofun, fun he _ ↦ ?_, nofun, nofun, fun c _ hphase _ ↦ ?_,
    fun _ he _ ↦ ⟨(hearly he).1, (hearly he).2.2⟩, fun _ he hg ↦ ?_⟩
  · obtain ⟨rfl, -⟩ := hearly he
    rfl
  · have hp : p = .exit := hphase
    subst hp
    rfl
  · have hg' : cfg.gathers m = false := hg
    rw [(hearly he).2.1] at hg'
    cases hg'

theorem stageOf_wf {cfg : Config} {b : ℕ} {m : SyncMode} {q : BspPc} (hq : q.ModeOk cfg b m) :
    (stageOf cfg m q).Wf cfg := by
  cases q with
  | enter | markPresent | waitForApArrival | inSync | lockdown => exact gatheringStage_wf cfg m _
  | waitForAllAPs p a numberOfAPs count =>
    refine barrierStage_wf fun h ↦ ?_
    have hp : p = .arrival := by simpa using h
    subst hp
    exact ⟨rfl, hq rfl, rfl⟩
  | releaseAllAPs | setSyncMode | clearPresent | resetBspIndex | resetCounter =>
    exact barrierStage_wf nofun
  | acquireBusy | tasks | startupThisAp | blockOnAp | drain =>
    exact handlersStage_wf (by simp) (by simp)
  | relaxedInSync | relaxedLockdown | countPresent => exact handlersStage_wf (by simp) fun _ ↦ hq
  | leave => exact handlersStage_wf nofun nofun

/-! ### Where an AP can be -/

/-- Where an AP can be that waits for phase `p`. -/
def WaitOk (cfg : Config) (st : Stage) (c : ℕ) (p : Phase) (run : ℕ) (busy : Bool) : Prop :=
  -- released for the current phase, and yet to notice
  (p = st.phase ∧ st.released ≤ c ∧ run = 1 ∧ busy = false) ∨
  -- through with the current phase
  (st.phase.next cfg = some p ∧ st.released ≤ c ∧ run = 0 ∧ busy = false) ∨
  -- not released for the current phase
  (p = st.phase ∧ c < st.released ∧ run = 0 ∧ busy = false) ∨
  -- a task is pending
  (p = .exit ∧ st.phase = .exit ∧ c < st.released ∧ run = 1 ∧ busy = true ∧ st.mayTask c = true)

/-- Where processor `c` can be, when `b` is the BSP and no task is being started on `c`. -/
def ApAt (cfg : Config) (st : Stage) (b c run : ℕ) (present busy : Bool) : CpuPc → Prop
  | .outside | .sampled _ | .late | .exitWait | .clearInSync => run = 0 ∧ present = false
  | .checkedIn _ => st.early = true ∧ run = 0 ∧ present = false
  | .elect | .elected | .callBspHandler | .callApHandler =>
      st.early = true ∧ run = 0 ∧ present = false ∧ busy = false
  | .apTimer1 m | .apCheck1 m | .apBspKnown m | .apTimer2 m | .apCheck2 m =>
      st.early = true ∧ run = 0 ∧ present = false ∧ busy = false ∧ m = st.mode
  | .apGiveUp => st.early = true ∧ run = 0 ∧ present = false ∧ busy = false ∧ st.locked = false
  | .apAvailable m =>
      st.early = true ∧ run = 0 ∧ present = false ∧ busy = false ∧ m = st.mode ∧ st.inside = true
  | .apPresent m b' =>
      st.early = true ∧ run = 0 ∧ present = false ∧ busy = false ∧ m = st.mode ∧
        st.inside = true ∧ b' = b
  | .apSignal b' p =>
      b' = b ∧ st.active = true ∧ p = st.phase ∧ st.released ≤ c ∧ run = 0 ∧
        (present = true ↔ p ≠ .reset) ∧ busy = false
  | .apWait b' p => b' = b ∧ st.active = true ∧ present = true ∧ WaitOk cfg st c p run busy
  | .apExit b' =>
      b' = b ∧ st.active = true ∧ st.phase = .exit ∧ run = 0 ∧ present = true ∧
        ((st.released ≤ c ∧ busy = false) ∨
          (c < st.released ∧ busy = true ∧ st.mayTask c = true))
  | .apTask b' =>
      b' = b ∧ st.active = true ∧ st.phase = .exit ∧ run = 0 ∧ present = true ∧
        c < st.released ∧ busy = true ∧ st.mayTask c = true
  | .apReset b' =>
      b' = b ∧ st.active = true ∧ st.phase = .reset ∧ st.released ≤ c ∧ run = 0 ∧
        present = true ∧ busy = false
  | .bsp _ _ => False

/-- Where processor `c` can be at a stage, when `b` is the BSP. -/
def ApOk (cfg : Config) (st : Stage) (b c run : ℕ) (present busy : Bool) (q : CpuPc) : Prop :=
  if st.starting = some c then q = .apWait b .exit ∧ run = 0 ∧ present = true ∧ busy = true
  else ApAt cfg st b c run present busy q

/-! ### The counts -/

/-- The counting half of the invariant: `count p` APs have yet to signal phase `p`, the BSP's `Run`
and `Present` are `run` and `present`, and `presentFrom i` processors from `i` on are present. -/
def TallyOk (cfg : Config) (count : Phase → ℕ) (run : ℕ) (present : Bool) (presentFrom : ℕ → ℕ)
    (m : SyncMode) : BspPc → Prop
  | .enter | .markPresent | .waitForApArrival | .inSync | .lockdown =>
      if cfg.gathers m then count .reset = count .arrival + run else run = 0
  | .waitForAllAPs p a numberOfAPs k =>
      numberOfAPs = count p + run ∧ (∀ k', k = some k' → k' ≤ run) ∧ numberOfAPs ≤ a ∧
        a ≤ cfg.maxCpus ∧ (p ≠ .reset → count .reset = a) ∧ (p = .reset → present = false)
  | .releaseAllAPs p a _ =>
      a = count p + run ∧ a ≤ cfg.maxCpus ∧ (p ≠ .reset → count .reset = a)
  | .acquireBusy a | .tasks _ a | .startupThisAp _ a _ | .blockOnAp _ a _ | .drain a _ =>
      run = 0 ∧ (cfg.gathers m = true → count .reset = a ∧ a ≤ cfg.maxCpus)
  | .relaxedInSync | .relaxedLockdown => run = 0
  | .countPresent a index k =>
      run = 0 ∧ count .reset = a ∧ a ≤ cfg.maxCpus ∧ index ≤ cfg.maxCpus ∧ k ≤ presentFrom index
  | .leave a | .setSyncMode a => run = 0 ∧ count .reset = a ∧ a ≤ cfg.maxCpus
  | .clearPresent a => a = count .reset + run ∧ a ≤ cfg.maxCpus
  | .resetBspIndex | .resetCounter => run = 0 ∧ count .reset = 0 ∧ present = false

/-! ### The invariant -/

/-- What an SMI looks like from outside: no BSP, or a BSP `b` that runs `BSPHandler` in mode `m` and
is at `q`. -/
inductive View
  | idle
  | bsp (b : ℕ) (m : SyncMode) (q : BspPc)

/-- The stage of a view, in a state whose `EffectiveSyncMode` is `mode`. -/
def View.stage (cfg : Config) (mode : SyncMode) : View → Stage
  | .idle => idleStage mode
  | .bsp _ m q => stageOf cfg m q

/-- The BSP of a view (any number, when there is none). -/
def View.cpu : View → ℕ
  | .idle => 0
  | .bsp b _ _ => b

/-- Processor `c` is the BSP. -/
def View.isBsp (c : ℕ) : View → Prop
  | .idle => False
  | .bsp b _ _ => c = b

/-- What `BspIndex` can be. -/
structure IndexOk (cfg : Config) (s : State) : Prop where
  /-- Without an election, processor 0 is the BSP. -/
  fixed : cfg.enableBspElection = false → s.bspIndex = some 0
  /-- With a platform hook that determines the BSP, no other processor becomes the BSP. -/
  hook : ∀ h, cfg.enableBspElection = true → cfg.platformSmmBspElection = some h →
    s.bspIndex = none ∨ s.bspIndex = some h
  /-- A processor that is about to call `BSPHandler` has been elected. -/
  called : ∀ c, s.pc c = .callBspHandler → s.bspIndex = some c

/-- What holds of the BSP's own data. -/
structure BspOk (cfg : Config) (s : State) (b : ℕ) (m : SyncMode) (q : BspPc) : Prop where
  /-- The BSP stays elected until it resets `BspIndex`. -/
  index : q ≠ .resetCounter → s.bspIndex = some b
  modeOk : q.ModeOk cfg b m
  tally : TallyOk cfg (awaiting cfg s) (s.run b) (s.present b) (presentFrom cfg s) m q

/-- The invariant, for a given view of the SMI. -/
structure ViewInv (cfg : Config) (s : State) (v : View) : Prop where
  /-- Only the first `maxCpus` processors exist. -/
  exist : ∀ c, cfg.maxCpus ≤ c → s.pc c = .outside
  /-- The view names the processor that is in `BSPHandler`, and there is no other. -/
  atBsp : ∀ c m q, s.pc c = .bsp m q ↔ v = .bsp c m q
  /-- Every other processor is where the stage lets it be. -/
  ap : ∀ c, ¬ v.isBsp c → ApOk cfg (v.stage cfg s.effectiveSyncMode) v.cpu c (s.run c)
    (s.present c) (s.busy c) (s.pc c)
  inside : s.insideSmm = (v.stage cfg s.effectiveSyncMode).inside
  /-- While processors may still call a handler, they call it with the BSP's mode. -/
  mode : (v.stage cfg s.effectiveSyncMode).early = true →
    (v.stage cfg s.effectiveSyncMode).mode = s.effectiveSyncMode
  /-- The counter is locked down from the lock-down to its reset. -/
  counterLocked : (v.stage cfg s.effectiveSyncMode).locked = true → s.counter = lockedDown
  /-- Before, it counts the processors that checked in. -/
  counterOpen : (v.stage cfg s.effectiveSyncMode).locked = false →
    s.counter = awaiting cfg s .reset + (v.stage cfg s.effectiveSyncMode).active.toNat
  counted : (v.stage cfg s.effectiveSyncMode).locked = false → ∀ c, s.counted c = false
  /-- From the lock-down to the reset phase, the APs that were counted are the APs that are part of
  the SMI. -/
  countedInside : (v.stage cfg s.effectiveSyncMode).locked = true →
    (v.stage cfg s.effectiveSyncMode).phase ≠ .reset → ∀ c, s.counted c = (s.pc c).insideAp
  index : IndexOk cfg s
  bsp : ∀ b m q, v = .bsp b m q → BspOk cfg s b m q

/-- The invariant of the rendezvous. -/
def Inv (cfg : Config) (s : State) : Prop := ∃ v, ViewInv cfg s v

end PurleyFirmware.Smm
