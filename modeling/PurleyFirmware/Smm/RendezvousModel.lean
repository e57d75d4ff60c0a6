import PurleyFirmware.Foundation.Runs
import PurleyFirmware.Foundation.Unsigned
import Mathlib.Logic.Function.Basic

/-!
# The SMI rendezvous of the BSP and the APs

`PiSmmCpuDxeSmm/MpService.c` brings all processors into SMM, lets one of them (the BSP) run the SMI
handlers, and lets all of them leave together. The parties share `mSmmMpSyncData`; each runs
`SmiRendezvous`, and from there `BSPHandler` or `APHandler`. `cpuStep` is one step of one processor:
one semaphore operation, or one access to a shared flag, with the local control flow around it.

## What is a parameter, and what is left out

* `PlatformSmmBspElection` and `NeedConfigureMtrrs` belong to a platform hook library that the
  package only declares. `Config` carries their answers: the processor the hook determines to be
  the BSP (or `none` where it fails and the default election runs), and whether MTRRs are
  configured.
* What the environment answers during a step (the SMI source, the sync timer, a pending
  `SwitchBsp` request, the SMI handlers' own requests) is the step's `Env`; a step ignores the
  answers it does not ask for.
* The MTRR, CR2, XD, save-state and profile work of the processors between the semaphore
  operations touches none of the shared fields and is not modelled. `SmmWaitForApArrival` may
  return at any time: its timers and exceptions decide when.
-/

namespace PurleyFirmware.Smm

/-! ### Semaphores -/

/-- The value `LockdownSemaphore` leaves behind, `(UINT32)-1`. -/
def lockedDown : ℕ := 2 ^ 32 - 1

/-- `ReleaseSemaphore`: the new value of the semaphore and the returned value. A semaphore that is
locked down stays so, and 0 is returned. -/
def releaseSemaphore (value : ℕ) : ℕ × ℕ :=
  if value + 1 = 2 ^ 32 then (value, 0) else (value + 1, value + 1)

/-- `WaitForSemaphore`: blocked on 0, else one less. -/
def waitForSemaphore (value : ℕ) : Option ℕ := if value = 0 then none else some (value - 1)

/-- `WaitForSemaphoreCount`: blocked on 0, else `count` less. -/
def waitForSemaphoreCount (value count : ℕ) : Option ℕ :=
  if value = 0 then none else some (wrapSub 32 value count)

@[simp] theorem releaseSemaphore_fst_of_lt {value : ℕ} (h : value < lockedDown) :
    (releaseSemaphore value).1 = value + 1 := by
  unfold lockedDown at h
  rw [releaseSemaphore, if_neg (by omega)]

theorem releaseSemaphore_snd_of_lt {value : ℕ} (h : value < lockedDown) :
    (releaseSemaphore value).2 = value + 1 := by
  unfold lockedDown at h
  rw [releaseSemaphore, if_neg (by omega)]

@[simp] theorem releaseSemaphore_lockedDown : releaseSemaphore lockedDown = (lockedDown, 0) := rfl

theorem waitForSemaphore_eq_some {value value' : ℕ} :
    waitForSemaphore value = some value' ↔ value = value' + 1 := by
  unfold waitForSemaphore
  split <;> simp only [reduceCtorEq, Option.some.injEq, false_iff] <;> omega

/-! ### The configuration -/

/-- `SMM_CPU_SYNC_MODE`. -/
inductive SyncMode
  | tradition
  | relaxedAp
  deriving DecidableEq, Repr

/-- What is fixed while the system runs. -/
structure Config where
  /-- `mMaxNumberOfCpus`. -/
  maxCpus : ℕ
  /-- A processor index is a `UINT32` other than -1, which stands for "no BSP", and the counter of
  the processors that checked in stays below the lock-down value. -/
  maxCpus_lt : maxCpus < lockedDown
  /-- `PcdCpuSmmEnableBspElection`. -/
  enableBspElection : Bool
  /-- The processor `PlatformSmmBspElection` determines to be the BSP; `none` when it fails to
  determine one. -/
  platformSmmBspElection : Option ℕ
  /-- `NeedConfigureMtrrs`. -/
  needConfigureMtrrs : Bool

/-- `SyncMode == SmmCpuSyncModeTradition || NeedConfigureMtrrs ()`: the BSP gathers the APs before
it runs the SMI handlers. -/
def Config.gathers (cfg : Config) (m : SyncMode) : Bool :=
  decide (m = .tradition) || cfg.needConfigureMtrrs

/-! ### Phases -/

/-- The phases an AP signals to the BSP, in the order of the handlers. Every phase but the first
begins with the BSP's release of the AP. -/
inductive Phase
  /-- The AP is present. -/
  | arrival
  /-- Back up the OS MTRRs. -/
  | backup
  /-- Program the SMM MTRRs. -/
  | program
  /-- Finish the pending tasks and leave the wait loop. -/
  | exit
  /-- Restore the OS MTRRs. -/
  | restore
  /-- Reset the state of the processor. -/
  | reset
  deriving DecidableEq, Repr

/-- The place of a phase in that order. -/
def Phase.rank : Phase → ℕ
  | .arrival => 0
  | .backup => 1
  | .program => 2
  | .exit => 3
  | .restore => 4
  | .reset => 5

/-- The phase that follows, where the MTRR phases are run only if MTRRs are configured. -/
def Phase.next (cfg : Config) : Phase → Option Phase
  | .arrival => some (if cfg.needConfigureMtrrs then .backup else .exit)
  | .backup => some .program
  | .program => some .exit
  | .exit => some (if cfg.needConfigureMtrrs then .restore else .reset)
  | .restore => some .reset
  | .reset => none

/-! ### Program counters -/

/-- Where `BSPHandler` is. `a` is its local `ApCount`. -/
inductive BspPc
  /-- Next: `InsideSmm = TRUE`. -/
  | enter
  /-- Next: `CpuData[CpuIndex].Present = TRUE`, and the choice of the mode. -/
  | markPresent
  /-- In `SmmWaitForApArrival`. -/
  | waitForApArrival
  /-- Next: `AllCpusInSync = TRUE`, before the SMI handlers. -/
  | inSync
  /-- Next: `LockdownSemaphore (&Counter)`, before the SMI handlers. -/
  | lockdown
  /-- In `WaitForAllAPs (a)` for a phase, with `numberOfAPs` left to wait for. `count` is what the
  last read of the `Run` semaphore returned, until it is subtracted. -/
  | waitForAllAPs (p : Phase) (a numberOfAPs : ℕ) (count : Option ℕ)
  /-- In `ReleaseAllAPs` for a phase; the loop has yet to visit the indices below `index`. -/
  | releaseAllAPs (p : Phase) (a index : ℕ)
  /-- Next: `AcquireSpinLockOrFail (&CpuData[CpuIndex].Busy)`. -/
  | acquireBusy (a : ℕ)
  /-- In the SMI handlers or, once the APs are `drained`, in `PerformRemainingTasks`. -/
  | tasks (drained : Bool) (a : ℕ)
  /-- In `SmmStartupThisAp` or `SmmBlockingStartupThisAp` for `ap`, whose `Busy` it acquired. -/
  | startupThisAp (drained : Bool) (a ap : ℕ)
  /-- In the same call, waiting for `ap` to release `Busy`. -/
  | blockOnAp (drained : Bool) (a ap : ℕ)
  /-- In the loop that waits for pending tasks; it has yet to visit the indices below `index`. -/
  | drain (a index : ℕ)
  /-- Next: `AllCpusInSync = TRUE`, after the SMI handlers. -/
  | relaxedInSync
  /-- Next: `LockdownSemaphore (&Counter)`, after the SMI handlers. -/
  | relaxedLockdown
  /-- In the loop that counts the `Present` flags; it has yet to visit the indices below `index`. -/
  | countPresent (a index presentCount : ℕ)
  /-- Next: `InsideSmm = FALSE`. -/
  | leave (a : ℕ)
  /-- Next: `EffectiveSyncMode = SyncModeToBeSet`. -/
  | setSyncMode (a : ℕ)
  /-- Next: `CpuData[CpuIndex].Present = FALSE`. -/
  | clearPresent (a : ℕ)
  /-- Next: `BspIndex = (UINT32)-1`. -/
  | resetBspIndex
  /-- Next: `Counter = 0`. -/
  | resetCounter
  deriving DecidableEq, Repr

/-- Where a processor is in `SmiRendezvous`, `APHandler` or `BSPHandler`. `m` is the handler's
`SyncMode` argument, and `b` the AP's local `BspIndex`. -/
inductive CpuPc
  /-- Outside SMM. -/
  | outside
  /-- `BspInProgress` is sampled. Next: `ReleaseSemaphore (&Counter)`. -/
  | sampled (bspInProgress : Bool)
  /-- Too late for this SMI: waits for `AllCpusInSync` to clear. -/
  | late
  /-- Next: `InitializeSpinLock (&CpuData[CpuIndex].Busy)`. -/
  | checkedIn (bspInProgress : Bool)
  /-- Next: the election of the BSP. -/
  | elect
  /-- Next: `BspIndex == CpuIndex`. -/
  | elected
  /-- Next: the call of `BSPHandler`, which reads `EffectiveSyncMode`. -/
  | callBspHandler
  /-- Next: the call of `APHandler`, which reads `EffectiveSyncMode`. -/
  | callApHandler
  /-- In the first timed wait for `InsideSmm`. -/
  | apTimer1 (m : SyncMode)
  /-- Next: the test of `InsideSmm` after the first wait. -/
  | apCheck1 (m : SyncMode)
  /-- Next: the test of `BspIndex`. -/
  | apBspKnown (m : SyncMode)
  /-- In the second timed wait for `InsideSmm`. -/
  | apTimer2 (m : SyncMode)
  /-- Next: the test of `InsideSmm` after the second wait. -/
  | apCheck2 (m : SyncMode)
  /-- Gives up. Next: `WaitForSemaphore (&Counter)`. -/
  | apGiveUp
  /-- The BSP is available. Next: the read of `BspIndex`. -/
  | apAvailable (m : SyncMode)
  /-- Next: `CpuData[CpuIndex].Present = TRUE`. -/
  | apPresent (m : SyncMode) (b : ℕ)
  /-- In a phase. Next: `ReleaseSemaphore (&CpuData[BspIndex].Run)`, which completes it. -/
  | apSignal (b : ℕ) (p : Phase)
  /-- Waits on its own `Run` semaphore for the release of a phase (or, for `exit`, for a task). -/
  | apWait (b : ℕ) (p : Phase)
  /-- Released in the wait loop. Next: the test of `InsideSmm`. -/
  | apExit (b : ℕ)
  /-- In a scheduled procedure. Next: `ReleaseSpinLock (&CpuData[CpuIndex].Busy)`. -/
  | apTask (b : ℕ)
  /-- Released to reset. Next: `CpuData[CpuIndex].Present = FALSE`. -/
  | apReset (b : ℕ)
  /-- Back from its handler: waits for `AllCpusInSync` to clear. -/
  | exitWait
  /-- In `BSPHandler`. -/
  | bsp (m : SyncMode) (q : BspPc)
  /-- At the end of `BSPHandler`. Next: `AllCpusInSync = FALSE`. -/
  | clearInSync
  deriving DecidableEq, Repr

/-! ### The shared state -/

/-- The shared fields of `mSmmMpSyncData`, and the place of every processor. -/
structure State where
  /-- `Counter`, the semaphore of the processors that checked in. -/
  counter : ℕ
  /-- `InsideSmm`. -/
  insideSmm : Bool
  /-- `AllCpusInSync`. -/
  allCpusInSync : Bool
  /-- `BspIndex`; `none` is `(UINT32)-1`. -/
  bspIndex : Option ℕ
  /-- `EffectiveSyncMode`. -/
  effectiveSyncMode : SyncMode
  /-- `CpuData[].Run`. -/
  run : ℕ → ℕ
  /-- `CpuData[].Present`. -/
  present : ℕ → Bool
  /-- `CpuData[].Busy`, acquired. -/
  busy : ℕ → Bool
  /-- Where each processor is. -/
  pc : ℕ → CpuPc
  /-- Not in the code: the processors that were counted in the value which the current SMI's
  `LockdownSemaphore` returned, as AP. -/
  counted : ℕ → Bool

namespace State

variable (s : State)

/-- Processor `c` goes on to `q`. -/
def goto (c : ℕ) (q : CpuPc) : State := { s with pc := Function.update s.pc c q }

/-- `CpuData[c].Run = v`. -/
def setRun (c v : ℕ) : State := { s with run := Function.update s.run c v }

/-- `CpuData[c].Present = v`. -/
def setPresent (c : ℕ) (v : Bool) : State := { s with present := Function.update s.present c v }

/-- `CpuData[c].Busy` is acquired (`v`) or released. -/
def setBusy (c : ℕ) (v : Bool) : State := { s with busy := Function.update s.busy c v }

/-- `ReleaseSemaphore (&CpuData[c].Run)`. -/
def releaseRun (c : ℕ) : State := s.setRun c (releaseSemaphore (s.run c)).1

end State

/-- What the environment answers to the questions a step may ask. -/
structure Env where
  /-- `PlatformValidSmi`. -/
  validSmi : Bool := true
  /-- `IsSyncTimerTimeout`, at the end of an AP's timed wait. -/
  timerExpired : Bool := false
  /-- `SwitchBsp && !CandidateBsp[CpuIndex]`. -/
  excluded : Bool := false
  /-- The AP the SMI handlers start a task on; `none` when they return. -/
  startTask : Option ℕ := none
  /-- The task is started in a blocking fashion. -/
  blocking : Bool := false
  /-- `SyncModeToBeSet`. -/
  syncModeToBeSet : SyncMode := .tradition
  deriving DecidableEq, Repr

/-! ### The election -/

/-- The election of the BSP, as processor `c` runs it: the new `BspIndex`. -/
def electBsp (cfg : Config) (bspIndex : Option ℕ) (c : ℕ) (excluded : Bool) : Option ℕ :=
  if cfg.enableBspElection && !excluded then
    match cfg.platformSmmBspElection with
    | some h => if h = c then some c else bspIndex
    -- InterlockedCompareExchange32 (&BspIndex, -1, CpuIndex)
    | none => if bspIndex = none then some c else bspIndex
  else bspIndex

/-! ### The handlers -/

/-- The processors that `Counter` counts as AP: checked in, and neither through with their handler
nor the BSP. -/
def CpuPc.insideAp : CpuPc → Bool
  | .outside | .sampled _ | .late | .exitWait | .bsp _ _ | .clearInSync => false
  | _ => true

/-- `LockdownSemaphore (&Counter) - 1`, a `UINT32`. -/
def apCount (counter : ℕ) : ℕ := wrapSub 32 counter 1

/-- Locks the counter down. -/
def lockdownCounter (s : State) : State :=
  { s with counter := lockedDown, counted := fun c ↦ (s.pc c).insideAp }

/-- After `WaitForAllAPs` for phase `p`: what `BSPHandler` does next. -/
def afterWait (cfg : Config) (p : Phase) (a : ℕ) : BspPc :=
  match p with
  | .arrival => if cfg.needConfigureMtrrs then .releaseAllAPs .backup a cfg.maxCpus
      else .acquireBusy a
  | .backup => .releaseAllAPs .program a cfg.maxCpus
  | .program => .acquireBusy a
  | .exit => .setSyncMode a
  | .restore => .releaseAllAPs .reset a cfg.maxCpus
  | .reset => .resetBspIndex

/-- After `ReleaseAllAPs` for phase `p`: the BSP's own work in the phase (not modelled, except for
the reset of its own state), and then `WaitForAllAPs`. -/
def afterRelease (p : Phase) (a : ℕ) : BspPc :=
  match p with
  | .reset => .clearPresent a
  | _ => .waitForAllAPs p a a none

/-- One step of `BSPHandler` on processor `b`. The handler asserts `CpuIndex == BspIndex`, so the
`BspIndex` that `WaitForAllAPs` and `ReleaseAllAPs` read is `b` as well. -/
def bspStep (cfg : Config) (s : State) (b : ℕ) (m : SyncMode) (e : Env) : BspPc → Option State
  | .enter => some ({ s with insideSmm := true }.goto b (.bsp m .markPresent))
  | .markPresent =>
      some ((s.setPresent b true).goto b
        (.bsp m (if cfg.gathers m then .waitForApArrival else .acquireBusy 0)))
  | .waitForApArrival => some (s.goto b (.bsp m .inSync))
  | .inSync => some ({ s with allCpusInSync := true }.goto b (.bsp m .lockdown))
  | .lockdown =>
      let a := apCount s.counter
      some ((lockdownCounter s).goto b (.bsp m (.waitForAllAPs .arrival a a none)))
  | .waitForAllAPs p a numberOfAPs none =>
      some (s.goto b (.bsp m
        (if numberOfAPs = 0 then afterWait cfg p a
          else .waitForAllAPs p a numberOfAPs (some (s.run b)))))
  | .waitForAllAPs p a numberOfAPs (some count) =>
      (waitForSemaphoreCount (s.run b) count).map fun run ↦
        (s.setRun b run).goto b
          (.bsp m (.waitForAllAPs p a (wrapSub 64 numberOfAPs count) none))
  | .releaseAllAPs p a 0 => some (s.goto b (.bsp m (afterRelease p a)))
  | .releaseAllAPs p a (index + 1) =>
      some ((if index ≠ b ∧ s.present index = true then s.releaseRun index else s).goto b
        (.bsp m (.releaseAllAPs p a index)))
  | .acquireBusy a => some ((s.setBusy b true).goto b (.bsp m (.tasks false a)))
  | .tasks drained a =>
      match e.startTask with
      | none =>
          some (s.goto b (.bsp m
            (if drained then (if cfg.gathers m then .leave a else .relaxedInSync)
              else .drain a cfg.maxCpus)))
      | some ap =>
          if ap < cfg.maxCpus ∧ ap ≠ b ∧ s.present ap = true ∧ s.busy ap = false then
            some ((s.setBusy ap true).goto b (.bsp m (.startupThisAp drained a ap)))
          else some s
  | .startupThisAp drained a ap =>
      -- PerformRemainingTasks starts its tasks with SmmBlockingStartupThisAp only.
      some ((s.releaseRun ap).goto b
        (.bsp m (if drained || e.blocking then .blockOnAp drained a ap else .tasks drained a)))
  | .blockOnAp drained a ap =>
      -- AcquireSpinLock (Busy), then ReleaseSpinLock (Busy): no other party takes the lock.
      if s.busy ap = true then none else some (s.goto b (.bsp m (.tasks drained a)))
  | .drain a 0 => some (s.goto b (.bsp m (.tasks true a)))
  | .drain a (index + 1) =>
      if index ≠ b ∧ s.present index = true ∧ s.busy index = true then none
      else some (s.goto b (.bsp m (.drain a index)))
  | .relaxedInSync => some ({ s with allCpusInSync := true }.goto b (.bsp m .relaxedLockdown))
  | .relaxedLockdown =>
      some ((lockdownCounter s).goto b
        (.bsp m (.countPresent (apCount s.counter) cfg.maxCpus 0)))
  | .countPresent a 0 presentCount =>
      some (s.goto b (.bsp m
        (if a < presentCount then .leave a else .countPresent a cfg.maxCpus 0)))
  | .countPresent a (index + 1) presentCount =>
      some (s.goto b (.bsp m
        (.countPresent a index (if s.present index = true then presentCount + 1
          else presentCount))))
  | .leave a =>
      some ({ s with insideSmm := false }.goto b (.bsp m (.releaseAllAPs .exit a cfg.maxCpus)))
  | .setSyncMode a =>
      some ({ s with effectiveSyncMode := e.syncModeToBeSet }.goto b
        (.bsp m (.releaseAllAPs (if cfg.needConfigureMtrrs then .restore else .reset) a
          cfg.maxCpus)))
  | .clearPresent a =>
      some ((s.setPresent b false).goto b (.bsp m (.waitForAllAPs .reset a a none)))
  | .resetBspIndex =>
      some ({ s with bspIndex := if cfg.enableBspElection then none else s.bspIndex }.goto b
        (.bsp m .resetCounter))
  | .resetCounter =>
      some ({ s with counter := 0, counted := fun _ ↦ false }.goto b .clearInSync)

/-- Where an AP goes after it signalled phase `p`. -/
def afterSignal (cfg : Config) (b : ℕ) (p : Phase) : CpuPc :=
  match p.next cfg with
  | some p' => .apWait b p'
  | none => .exitWait

/-- Where an AP goes when it is released for phase `p`. -/
def afterWake (b : ℕ) (p : Phase) : CpuPc :=
  match p with
  | .exit => .apExit b
  | .reset => .apReset b
  | _ => .apSignal b p

/-- One step of processor `c`, in `SmiRendezvous`, `APHandler` or `BSPHandler`. -/
def cpuStep (cfg : Config) (s : State) (c : ℕ) (e : Env) : Option State :=
  match s.pc c with
  | .outside =>
      some (if s.insideSmm || e.validSmi then s.goto c (.sampled s.insideSmm) else s)
  | .sampled bspInProgress =>
      some ({ s with counter := (releaseSemaphore s.counter).1 }.goto c
        (if (releaseSemaphore s.counter).2 = 0 then .late else .checkedIn bspInProgress))
  | .late => if s.allCpusInSync then none else some (s.goto c .outside)
  | .checkedIn bspInProgress =>
      some ((s.setBusy c false).goto c (if bspInProgress then .callApHandler else .elect))
  | .elect =>
      some ({ s with bspIndex := electBsp cfg s.bspIndex c e.excluded }.goto c .elected)
  | .elected =>
      some (s.goto c (if s.bspIndex = some c then .callBspHandler else .callApHandler))
  | .callBspHandler => some (s.goto c (.bsp s.effectiveSyncMode .enter))
  | .callApHandler => some (s.goto c (.apTimer1 s.effectiveSyncMode))
  | .apTimer1 m => if s.insideSmm || e.timerExpired then some (s.goto c (.apCheck1 m)) else none
  | .apCheck1 m => some (s.goto c (if s.insideSmm then .apAvailable m else .apBspKnown m))
  | .apBspKnown m => some (s.goto c (if s.bspIndex = none then .apGiveUp else .apTimer2 m))
  | .apTimer2 m => if s.insideSmm || e.timerExpired then some (s.goto c (.apCheck2 m)) else none
  | .apCheck2 m => some (s.goto c (if s.insideSmm then .apAvailable m else .apGiveUp))
  | .apGiveUp =>
      (waitForSemaphore s.counter).map fun counter ↦
        { s with counter := counter }.goto c .exitWait
  | .apAvailable m => s.bspIndex.map fun b ↦ s.goto c (.apPresent m b)
  | .apPresent m b =>
      some ((s.setPresent c true).goto c
        (if cfg.gathers m then .apSignal b .arrival else .apWait b .exit))
  | .apSignal b p => some ((s.releaseRun b).goto c (afterSignal cfg b p))
  | .apWait b p =>
      (waitForSemaphore (s.run c)).map fun run ↦ (s.setRun c run).goto c (afterWake b p)
  | .apExit b => some (s.goto c (if s.insideSmm then .apTask b else .apSignal b .exit))
  | .apTask b => some ((s.setBusy c false).goto c (.apWait b .exit))
  | .apReset b => some ((s.setPresent c false).goto c (.apSignal b .reset))
  | .exitWait => if s.allCpusInSync then none else some (s.goto c .outside)
  | .bsp m q => bspStep cfg s c m e q
  | .clearInSync => some ({ s with allCpusInSync := false }.goto c .exitWait)

/-! ### The system -/

/-- Who moves, and what the environment answers. -/
structure Label where
  /-- The processor that moves. -/
  cpu : ℕ
  /-- The environment's answers. -/
  env : Env := {}
  deriving DecidableEq, Repr

/-- The state that `InitializeMpSyncData` leaves: zeroed, except for `BspIndex` when the BSP is
elected. -/
def initialState (cfg : Config) : State where
  counter := 0
  insideSmm := false
  allCpusInSync := false
  bspIndex := if cfg.enableBspElection then none else some 0
  effectiveSyncMode := .tradition
  run := fun _ ↦ 0
  present := fun _ ↦ false
  busy := fun _ ↦ false
  pc := fun _ ↦ .outside
  counted := fun _ ↦ false

/-- One step of the system: one of the `maxCpus` processors moves. -/
def step (cfg : Config) (s : State) (l : Label) : Option State :=
  if l.cpu < cfg.maxCpus then cpuStep cfg s l.cpu l.env else none

/-- **The rendezvous**: any interleaving of the steps of the processors, with any behaviour of the
environment, over any number of SMIs. -/
def rendezvous (cfg : Config) : LabelledSystem State Label where
  init s := s = initialState cfg
  step s l s' := step cfg s l = some s'

/-- The sync timers of the APs do not expire. -/
def NoTimeout (_ : State) (l : Label) : Prop := l.env.timerExpired = false

instance : DecidableRel NoTimeout := fun _ l ↦
  inferInstanceAs (Decidable (l.env.timerExpired = false))

/-- The processor is about to lock the counter down. -/
def CpuPc.aboutToLock : CpuPc → Bool
  | .bsp _ .lockdown | .bsp _ .relaxedLockdown => true
  | _ => false

/-- The counter is not locked down while an AP has decided to give up and has yet to take itself
off the counter. -/
def NoLockdownOverGiveUp (cfg : Config) (s : State) (l : Label) : Prop :=
  (s.pc l.cpu).aboutToLock = true → ∀ c, c < cfg.maxCpus → s.pc c ≠ .apGiveUp

instance (cfg : Config) : DecidableRel (NoLockdownOverGiveUp cfg) := fun s l ↦
  inferInstanceAs (Decidable ((s.pc l.cpu).aboutToLock = true →
    ∀ c, c < cfg.maxCpus → s.pc c ≠ .apGiveUp))

end PurleyFirmware.Smm
