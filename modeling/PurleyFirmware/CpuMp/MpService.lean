import PurleyFirmware.Uefi.Status
import Mathlib.Data.Nat.Notation
import Mathlib.Logic.Function.Basic

/-!
# MP services

`StartupAllAPs`, `StartupThisAP`, `EnableDisableAP`, `SwitchBSP` and the timer's `CheckAPsStatus` of
`MpService.c`, with the APs that they start.

The BSP and the APs take turns in any order. A step of an AP is one access of `ApProcWrapper` to what
it shares with the BSP, or the run of a procedure; a step of the BSP is a round of a loop that polls
the APs. Between two polls the BSP's code reads only APs that are at rest and writes only what they
do not touch before they are woken, so the two loops of `StartupAllAPs` behind the poll are one step,
as are `EnableDisableAP` and `SwitchBSP`. Services are called by the BSP: a call by an AP returns
`EFI_DEVICE_ERROR` and does nothing.

The arrays that the source has for the processors, `CpuList`, `CpuData` and the monitor data in the
APs' stacks, are one array of records here. How much time has passed is not in the model. Where the
source asks whether a timeout expired, the label of the step says so, and it counts only if there is
a timeout. Left out are the health flags, the causes for which processors are disabled, and the
registers that an AP sets up before it runs a procedure.
-/

namespace PurleyFirmware.MpService

/-! ### Processors -/

/-- `CPU_STATE`. -/
inductive CpuState
  | idle
  | ready
  | busy
  | finished
  | disabled
  deriving DecidableEq

/-- `AP_LOOP_MODE`. -/
inductive ApLoopMode
  | apInHltLoop
  | apInMwaitLoop
  | apInRunLoop
  deriving DecidableEq

/-- A procedure with its argument. -/
structure ApTask where
  procedure : ℕ
  argument : ℕ
  deriving DecidableEq

/-- Where an AP is. -/
inductive ApControl
  /-- In the loop of the startup code. -/
  | loop
  /-- On its way to `ApProcEntry`. -/
  | starting
  /-- In `ApProcWrapper`, before it sets its state. -/
  | wrapper
  /-- Before it takes the procedure. -/
  | fetching
  /-- In the procedure. -/
  | running (task : ApTask)
  /-- Before it clears the signal. -/
  | clearing
  /-- Before it sets its state again. -/
  | finishing
  deriving DecidableEq

/-- What there is of a processor. -/
structure Processor where
  /-- `CpuList` of it. -/
  cpuList : Bool
  /-- `CpuData` of it. -/
  state : CpuState
  procedure : Option ApTask
  waitEvent : Option ℕ
  /-- What `Finished` points to, if it is not `NULL`. -/
  finished : Option Bool
  /-- `ExpectedTime` is not 0. -/
  expectedTime : Bool
  /-- The monitor data of it. -/
  apLoopMode : ApLoopMode
  startupApSignal : Bool
  ap : ApControl
  /-- The procedures it has run. -/
  ran : List ApTask

/-- What does not change. -/
structure MpPlatform where
  numberOfProcessors : ℕ
  /-- `mExchangeInfo->ApLoopMode`. -/
  apLoopMode : ApLoopMode

/-- The arguments of `StartupAllAPs`. -/
structure AllApsArgs where
  procedure : Option ApTask
  singleThread : Bool
  waitEvent : Option ℕ
  /-- `CalculateTimeout` does not return 0. -/
  timeout : Bool
  /-- `FailedCpuList` is not `NULL`. -/
  failedCpuList : Bool

/-- The arguments of `StartupThisAP`. -/
structure ThisApArgs where
  procedure : Option ApTask
  processorNumber : ℕ
  waitEvent : Option ℕ
  /-- `CalculateTimeout` does not return 0. -/
  timeout : Bool
  /-- `Finished` is not `NULL`. -/
  finished : Bool

/-- Who called `CheckAndUpdateAPsStatus`. -/
inductive Caller
  | checkAPsStatus
  | startupAllAPs (args : AllApsArgs)
  | startupThisAP (args : ThisApArgs)

/-- Where the BSP is. -/
inductive BspControl
  /-- Not in a service. -/
  | outside
  /-- In the loop of `CheckAllAPs`, called for the caller or, if there is none, by a `StartupAllAPs`
  that waits. -/
  | checkAllAPs (processorNumber : ℕ) (caller : Option Caller)
  /-- In the second loop of `CheckAndUpdateAPsStatus`. -/
  | checkTheseAPs (processorNumber : ℕ) (caller : Caller)
  /-- In a `StartupThisAP` that waits. -/
  | checkThisAP (processorNumber : ℕ)

/-- The state of the machine. -/
structure MpState where
  cpu : ℕ → Processor
  bspNumber : ℕ
  startCount : ℕ
  finishCount : ℕ
  /-- `Procedure`, `SingleThread`, `WaitEvent`, `ExpectedTime` and `FailedCpuList` of
  `mMPSystemData`. -/
  procedure : Option ApTask
  singleThread : Bool
  waitEvent : Option ℕ
  expectedTime : Bool
  failedCpuList : Option (List ℕ)
  /-- `mStopCheckAPsStatus`. -/
  stopCheckAPsStatus : Bool
  /-- `mApFunction` is `ApProcWrapper`, else `NULL`. -/
  apFunction : Bool
  control : BspControl
  /-- The events signaled. -/
  signaled : List ℕ
  /-- What the last call returned. -/
  returned : Option EfiStatus

/-! ### Steps of an AP -/

/-- A step of an AP. In another loop than the halt loop it looks for the signal. -/
def Processor.apStep (P : MpPlatform) (apFunction : Bool) (c : Processor) : Processor :=
  match c.ap with
  | .loop =>
    if P.apLoopMode ≠ .apInHltLoop ∧ c.startupApSignal = true then { c with ap := .starting } else c
  | .starting => if apFunction then { c with ap := .wrapper } else { c with ap := .loop }
  | .wrapper => { c with state := .busy, ap := .fetching }
  | .fetching =>
    match c.procedure with
    | some task => { c with ap := .running task, ran := c.ran ++ [task] }
    | none => { c with ap := .clearing }
  | .running _ => { c with procedure := none, ap := .clearing }
  | .clearing => { c with startupApSignal := false, ap := .finishing }
  | .finishing => { c with state := .finished, ap := .loop }

namespace MpState

variable (P : MpPlatform)

/-- Changes the record of a processor. -/
def modify (s : MpState) (n : ℕ) (f : Processor → Processor) : MpState :=
  { s with cpu := Function.update s.cpu n (f (s.cpu n)) }

/-- A step of processor `n`, if it is an AP. -/
def apStep (s : MpState) (n : ℕ) : MpState :=
  if n < P.numberOfProcessors ∧ n ≠ s.bspNumber then
    s.modify n (Processor.apStep P s.apFunction)
  else s

/-! ### Waking and resetting APs -/

end MpState

/-- What `WakeUpAp` does to the AP. An AP in the halt loop gets INIT and SIPI. -/
def Processor.wakeUp (P : MpPlatform) (task : Option ApTask) (c : Processor) : Processor :=
  if c.apLoopMode = .apInHltLoop then
    { c with procedure := task, apLoopMode := P.apLoopMode, ap := .starting }
  else { c with procedure := task, apLoopMode := P.apLoopMode, startupApSignal := true }

/-- What `ResetProcessorToIdleState` does to the AP. -/
def Processor.reset (c : Processor) : Processor := { c with ap := .starting, state := .idle }

namespace MpState

variable (P : MpPlatform)

/-- `WakeUpAp`. -/
def wakeUpAp (s : MpState) (n : ℕ) (task : Option ApTask) : MpState :=
  { s.modify n (Processor.wakeUp P task) with apFunction := true }

/-- `GetNextWaitingProcessorNumber`. -/
def getNextWaitingProcessorNumber (s : MpState) : Option ℕ :=
  (List.range P.numberOfProcessors).find? fun n ↦ (s.cpu n).cpuList

/-! ### CheckAllAPs and CheckThisAP -/

/-- A round of the loop of `CheckAllAPs`. -/
def checkAllStep (s : MpState) (k : ℕ) : MpState :=
  if (s.cpu k).cpuList = true ∧ (s.cpu k).state = .finished then
    let s := { s.modify k (fun c ↦ { c with cpuList := false, state := .idle }) with
      finishCount := s.finishCount + 1 }
    if s.singleThread then
      match s.getNextWaitingProcessorNumber P with
      | some next => s.wakeUpAp P next s.procedure
      | none => s
    else s
  else s

/-- The APs in `CpuList`. -/
def listedAPs (s : MpState) : List ℕ :=
  (List.range P.numberOfProcessors).filter fun n ↦ (s.cpu n).cpuList

/-- The loop of `CheckAllAPs` that resets the failed APs. -/
def resetListed (s : MpState) : MpState :=
  { s with
    cpu := fun n ↦ if n < P.numberOfProcessors ∧ (s.cpu n).cpuList = true then
      { (s.cpu n).reset with cpuList := false } else s.cpu n
    apFunction := s.apFunction && (s.listedAPs P).isEmpty
    failedCpuList := s.failedCpuList.map fun _ ↦ s.listedAPs P }

/-- `CheckAllAPs` behind its loop. -/
def checkAllEnd (s : MpState) (expired : Bool) : EfiStatus × MpState :=
  if s.finishCount = s.startCount then (.success, s)
  else if s.expectedTime && expired then (.timeout, s.resetListed P)
  else (.notReady, s)

/-- `CheckThisAP`. -/
def checkThisAP (s : MpState) (n : ℕ) (expired : Bool) : EfiStatus × MpState :=
  if (s.cpu n).state = .finished then
    (.success, s.modify n fun c ↦
      { c with state := .idle, finished := c.finished.map fun _ ↦ true })
  else if (s.cpu n).expectedTime && expired then
    (.timeout, { s.modify n fun c ↦
      { c.reset with finished := c.finished.map fun _ ↦ false } with apFunction := false })
  else (.notReady, s)

/-! ### StartupAllAPs behind CheckAndUpdateAPsStatus -/

/-- The loop that checks whether all enabled APs are idle, with so many processors left: whether they
are, and the state with its `CpuList`. -/
def checkIdle : ℕ → ℕ → MpState → Bool × MpState
  | 0, _, s => (true, s)
  | left + 1, k, s =>
    let s := s.modify k fun c ↦ { c with cpuList := false }
    if k ≠ s.bspNumber then
      if (s.cpu k).state ≠ .disabled then
        if (s.cpu k).state ≠ .idle then (false, s)
        else checkIdle left (k + 1) (s.modify k fun c ↦ { c with cpuList := true })
      else checkIdle left (k + 1) s
    else checkIdle left (k + 1) s

/-- A round of the loop that starts the APs, with `Blocking`. -/
def startStep (args : AllApsArgs) (t : MpState × Bool) (k : ℕ) : MpState × Bool :=
  if (t.1.cpu k).cpuList = true then
    let s := { t.1.modify k (fun c ↦ { c with state := .ready }) with
      startCount := t.1.startCount + 1 }
    (if t.2 then s else s.wakeUpAp P k args.procedure, t.2 || args.singleThread)
  else t

/-- The return of a service. -/
def leave (s : MpState) (status : EfiStatus) : MpState :=
  { s with stopCheckAPsStatus := false, control := .outside, returned := some status }

/-- `StartupAllAPs` behind `CheckAndUpdateAPsStatus`. -/
def startAllAPs (s : MpState) (args : AllApsArgs) : MpState :=
  let (idle, s) := checkIdle P.numberOfProcessors 0 s
  if idle then
    let s := ((List.range P.numberOfProcessors).foldl (startStep P args)
      ({ s with finishCount := 0, startCount := 0 }, false)).1
    if s.startCount = 0 then s.leave .success
    else
      let s := { s with
        procedure := args.procedure
        singleThread := args.singleThread
        waitEvent := args.waitEvent
        expectedTime := args.timeout
        failedCpuList := if args.failedCpuList then some [] else none }
      if args.waitEvent.isSome then s.leave .success
      else { s with control := .checkAllAPs 0 none }
  else s.leave .notReady

/-! ### StartupThisAP behind CheckAndUpdateAPsStatus -/

/-- `StartupThisAP` behind `CheckAndUpdateAPsStatus`. -/
def startThisAP (s : MpState) (args : ThisApArgs) : MpState :=
  if (s.cpu args.processorNumber).state = .disabled then s.leave .invalidParameter
  else if (s.cpu args.processorNumber).state ≠ .idle then s.leave .notReady
  else
    let s := (s.modify args.processorNumber fun c ↦ { c with state := .ready }).wakeUpAp P
      args.processorNumber args.procedure
    let s := s.modify args.processorNumber fun c ↦
      { c with
        waitEvent := args.waitEvent
        finished := if args.finished then some true else none
        expectedTime := args.timeout }
    if args.waitEvent.isSome then s.leave .success
    else { s with control := .checkThisAP args.processorNumber }

/-! ### Steps of the BSP -/

/-- The code behind `CheckAndUpdateAPsStatus`. -/
def updated (s : MpState) (caller : Caller) : MpState :=
  match caller with
  | .checkAPsStatus => { s with control := .outside }
  | .startupAllAPs args => s.startAllAPs P args
  | .startupThisAP args => s.startThisAP P args

/-- The call of `CheckAndUpdateAPsStatus`. -/
def checkAndUpdate (s : MpState) (caller : Caller) : MpState :=
  if s.waitEvent.isSome then { s with control := .checkAllAPs 0 (some caller) }
  else { s with control := .checkTheseAPs 0 caller }

/-- `CheckAllAPs` has returned. -/
def checkedAllAPs (s : MpState) (status : EfiStatus) (caller : Option Caller) : MpState :=
  match caller with
  | some caller =>
    if status ≠ .notReady then
      { s with
        signaled := s.signaled ++ s.waitEvent.toList
        waitEvent := none
        control := .checkTheseAPs 0 caller }
    else { s with control := .checkTheseAPs 0 caller }
  | none => if status ≠ .notReady then s.leave status else { s with control := .checkAllAPs 0 none }

/-- A round of the second loop of `CheckAndUpdateAPsStatus`. -/
def checkTheseStep (s : MpState) (k : ℕ) (expired : Bool) : MpState :=
  if (s.cpu k).waitEvent.isSome then
    let (status, s) := s.checkThisAP k expired
    if status ≠ .notReady then
      { s.modify k (fun c ↦ { c with waitEvent := none }) with
        signaled := s.signaled ++ (s.cpu k).waitEvent.toList }
    else s
  else s

/-- A step of the BSP inside a service. -/
def bspStep (s : MpState) (expired : Bool) : MpState :=
  match s.control with
  | .outside => s
  | .checkAllAPs k caller =>
    if k < P.numberOfProcessors then
      { s.checkAllStep P k with control := .checkAllAPs (k + 1) caller }
    else
      let (status, s) := s.checkAllEnd P expired
      s.checkedAllAPs status caller
  | .checkTheseAPs k caller =>
    if k < P.numberOfProcessors then
      { s.checkTheseStep k expired with control := .checkTheseAPs (k + 1) caller }
    else s.updated P caller
  | .checkThisAP n =>
    let (status, s) := s.checkThisAP n expired
    if status ≠ .notReady then s.leave status else s

/-! ### Calls -/

/-- The call of `StartupAllAPs`. -/
def startupAllAPs (s : MpState) (args : AllApsArgs) : MpState :=
  if args.procedure.isNone then { s with returned := some .invalidParameter }
  else { s with stopCheckAPsStatus := true, returned := none }.checkAndUpdate (.startupAllAPs args)

/-- The call of `StartupThisAP`. -/
def startupThisAP (s : MpState) (args : ThisApArgs) : MpState :=
  if P.numberOfProcessors ≤ args.processorNumber then { s with returned := some .notFound }
  else if args.processorNumber = s.bspNumber then { s with returned := some .invalidParameter }
  else if args.procedure.isNone then { s with returned := some .invalidParameter }
  else { s with stopCheckAPsStatus := true, returned := none }.checkAndUpdate (.startupThisAP args)

/-- `ChangeCpuState`. -/
def changeCpuState (s : MpState) (n : ℕ) (newState : Bool) : MpState :=
  s.modify n fun c ↦ { c with state := if newState then .idle else .disabled }

/-- `EnableDisableAP`. -/
def enableDisableAP (s : MpState) (n : ℕ) (newAPState : Bool) : MpState :=
  if P.numberOfProcessors ≤ n then { s with returned := some .notFound }
  else if n = s.bspNumber then { s with returned := some .invalidParameter }
  else { s.changeCpuState n newAPState with returned := some .success }

/-- `SwitchBSP`. The AP is woken for `FutureBSPProc`, and the two exchange their roles in it: the AP
goes on as BSP, with the state busy, and the BSP comes back from the procedure as the AP. -/
def switchBSP (s : MpState) (n : ℕ) (enableOldBSP : Bool) : MpState :=
  if P.numberOfProcessors ≤ n then { s with returned := some .notFound }
  else if n = s.bspNumber then { s with returned := some .invalidParameter }
  else if (s.cpu n).state = .disabled then { s with returned := some .invalidParameter }
  else if (s.cpu n).state ≠ .idle then { s with returned := some .notReady }
  else
    let s := s.modify n fun c ↦
      { c with
        procedure := none, state := .busy, apLoopMode := P.apLoopMode, startupApSignal := false
        ap := .loop }
    let s := s.modify s.bspNumber fun c ↦
      { c with apLoopMode := P.apLoopMode, startupApSignal := false, ap := .loop }
    { s.changeCpuState s.bspNumber enableOldBSP with
      bspNumber := n, apFunction := true, returned := some .success }

end MpState

/-! ### Runs -/

/-- What happens next. A service can be called while the BSP is in none, and the timer has no effect
in one. -/
inductive MpEvent
  | ap (n : ℕ)
  | bsp (expired : Bool)
  | timer
  | startupAllAPs (args : AllApsArgs)
  | startupThisAP (args : ThisApArgs)
  | enableDisableAP (processorNumber : ℕ) (newAPState : Bool)
  | switchBSP (processorNumber : ℕ) (enableOldBSP : Bool)

namespace MpState

/-- Whether the BSP is in no service. -/
def isOutside (s : MpState) : Bool :=
  match s.control with
  | .outside => true
  | _ => false

/-- One step of a run. -/
def next (P : MpPlatform) (s : MpState) (e : MpEvent) : MpState :=
  match e with
  | .ap n => s.apStep P n
  | .bsp expired => s.bspStep P expired
  | .timer =>
    if s.isOutside ∧ s.stopCheckAPsStatus = false then s.checkAndUpdate .checkAPsStatus else s
  | .startupAllAPs args => if s.isOutside then s.startupAllAPs args else s
  | .startupThisAP args => if s.isOutside then s.startupThisAP P args else s
  | .enableDisableAP n newAPState => if s.isOutside then s.enableDisableAP P n newAPState else s
  | .switchBSP n enableOldBSP => if s.isOutside then s.switchBSP P n enableOldBSP else s

end MpState

/-- No call is pending, and every AP is at rest, idle or disabled. So it is after the services have
been set up, with any set of APs disabled. -/
structure Quiet (P : MpPlatform) (s : MpState) : Prop where
  control : s.control = .outside
  stopCheckAPsStatus : s.stopCheckAPsStatus = false
  waitEvent : s.waitEvent = none
  bspNumber : s.bspNumber < P.numberOfProcessors
  cpuWaitEvent : ∀ n < P.numberOfProcessors, (s.cpu n).waitEvent = none
  loop : ∀ n < P.numberOfProcessors, n ≠ s.bspNumber →
    (s.cpu n).ap = .loop ∧ (s.cpu n).startupApSignal = false
  state : ∀ n < P.numberOfProcessors, n ≠ s.bspNumber →
    (s.cpu n).state = .idle ∨ (s.cpu n).state = .disabled

/-- A state in which runs begin. -/
structure QuietState (P : MpPlatform) extends MpState where
  quiet : Quiet P toMpState

/-! ### Two processors -/

/-- The BSP and an AP. -/
def twoProcessors : MpPlatform where
  numberOfProcessors := 2
  apLoopMode := .apInHltLoop

/-- A processor at rest. -/
def restingProcessor : Processor where
  cpuList := false
  state := .idle
  procedure := none
  waitEvent := none
  finished := none
  expectedTime := false
  apLoopMode := .apInHltLoop
  startupApSignal := false
  ap := .loop
  ran := []

/-- Both at rest, before the first call. -/
def twoAtRest : QuietState twoProcessors where
  cpu := fun _ ↦ restingProcessor
  bspNumber := 0
  startCount := 0
  finishCount := 0
  procedure := none
  singleThread := false
  waitEvent := none
  expectedTime := false
  failedCpuList := none
  stopCheckAPsStatus := false
  apFunction := false
  control := .outside
  signaled := []
  returned := none
  quiet :=
    { control := rfl
      stopCheckAPsStatus := rfl
      waitEvent := rfl
      bspNumber := by decide
      cpuWaitEvent := fun _ _ ↦ rfl
      loop := fun _ _ _ ↦ ⟨rfl, rfl⟩
      state := fun _ _ _ ↦ .inl rfl }

end PurleyFirmware.MpService
