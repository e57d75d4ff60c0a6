import PurleyFirmware.Foundation.Loops
import PurleyFirmware.Foundation.Runs
import PurleyFirmware.Uefi.Status
import Mathlib.Data.BitVec

/-!
# Bringing memory online

`MemOnlineOffline` and the three functions below it, with the function-static variables of all four
in one state. The handler calls `MemOnlineOffline` in one SMI after another until it returns
something else than `IN_PROGRESS`; that sequence of calls is one *request*.

The MRC functions, the quiesce protocol and the RAS handler that sets the abort flag are outside
this code. What they answer during one call is a `CallOutcome`, so a request is its memory state
array and one outcome for each call.

`UpdateSystemMemoryMapStruct`, `UpdateAcpiMemoryParams` and the SPS notification decide nothing here
and are left out, as is the node number, which only messages use.
-/

namespace PurleyFirmware.Ras

/-! ### Codes and states -/

/-- Return codes of the online flow. `ras` is a `RAS_MEM_ERR_*` code with the error mask in it. -/
inductive OnlineStatus
  | statusDone
  | inProgress
  | errorExit
  | unsupported
  | ras (code : BitVec 32)
  deriving DecidableEq

/-- `ONLINE_OFFLINE_STATE`. -/
inductive OnlineOfflineState
  | enumUnchanged
  | enumOnline
  | enumOffline
  deriving DecidableEq

/-- The values of `INTERNAL_STATE` that the two outer functions use. -/
inductive InternalState
  | enumMemoryLibCallInit
  | enumMemoryLibCallExecute
  | enumMemoryLibCallDone
  | enumMemoryOnlineOfflineEntry
  | enumMemorySwitchBranch
  | enumMemoryOnlining
  | enumMemoryUpdate
  | enumMemoryOfflining
  | enumMemoryPowerOff
  | enumMemoryOnlineOfflineDone
  deriving DecidableEq

/-- The states of one memory node that the online flow goes through or tests. -/
inductive MemNodeStatus
  | memNodeNop
  | memNodeOnline
  | memNodeInstallInProgressEntry
  | memNodeInstallInProgress
  | memNodeInstallQuiesce
  | memNodeUpdateStructuresOnline
  | memNodeOnlineComplete
  | memNodeInstallAbortQuiesce
  | memNodeRemoveQuiesce
  | memNodeError
  deriving DecidableEq

/-- The action byte, flag by flag. -/
structure MemAction where
  /-- `MEM_NODE_ON`. -/
  nodeOn : Bool
  /-- `MEM_NODE_OFF`. -/
  nodeOff : Bool
  /-- `MEM_NODE_INIT`. -/
  nodeInit : Bool
  /-- `MEM_MAP_UPDATE`. -/
  mapUpdate : Bool
  deriving DecidableEq

/-- `MEM_NODE_ON | MEM_MAP_UPDATE`, the action of every request. -/
def onlineAction : MemAction := ⟨true, false, false, true⟩

@[simp] theorem onlineAction_nodeOn : onlineAction.nodeOn = true := rfl

@[simp] theorem onlineAction_nodeOff : onlineAction.nodeOff = false := rfl

/-- The argument of `CallQuiesceSupport`. -/
inductive QuiesceAction
  | prepareQuiesce
  | releaseQuiesce
  | abortQuiesce
  | executeQuiesce
  deriving DecidableEq

/-- The functions in `mMemMapTable`. -/
inductive MemMapFunction
  | initMemoryMap
  | initADR
  | setRASConfig
  | memLate
  deriving DecidableEq

/-- What the code outside answers during one call of `MemOnlineOffline`. -/
structure CallOutcome where
  /-- The RAS handler has raised `mAbortQuiesce` since the last call. -/
  abortRequested : Bool
  /-- `mRasMpLink->HostParmValid`. -/
  hostParmValid : Bool
  /-- The status of `AquireDataBuffer`; the buffer is handed out only on success. -/
  aquireDataBuffer : EfiStatus
  /-- The buffer `AquireDataBuffer` hands out. -/
  dataBuffer : ℕ
  /-- The status of `ReleaseDataBuffer`. -/
  releaseDataBuffer : EfiStatus
  /-- The status of `QuiesceMain`. -/
  quiesceMain : EfiStatus
  /-- The status of each memory map function. -/
  memMap : MemMapFunction → EfiStatus

/-- The variables of `CallQuiesceSupport`. -/
structure QuiesceVars where
  /-- `mMemQuiesceEnabled`. -/
  mMemQuiesceEnabled : Bool
  /-- The current quiesce buffer, `none` for `NULL`. -/
  mCurrQuiescePtr : Option ℕ
  /-- The first quiesce buffer, `none` for `NULL`. -/
  mStartQuiescePtr : Option ℕ

/-- The variables of `OnlineOfflineSingleMemoryNode`. -/
structure NodeVars where
  /-- The state of the node, kept from one call to the next. -/
  mrcStatus : MemNodeStatus
  /-- The state in which the current action is done. -/
  mrcEndStatus : MemNodeStatus
  /-- The node is about to quiesce. -/
  mBeforeQuiesce : Bool
  /-- Raised to abort the request before it quiesces. -/
  mAbortQuiesce : Bool
  /-- The variables of the quiesce support. -/
  quiesce : QuiesceVars

/-- The variables of `OnlineOfflineMemoryLibCall`. -/
structure LibCallVars where
  /-- Its `StateMachine`. -/
  stateMachine : InternalState
  /-- The variables of the node. -/
  node : NodeVars

/-- The static variables of `MemOnlineOffline`, with those of the functions below it. -/
structure MemoryRas where
  /-- Its `StateMachine`. -/
  stateMachine : InternalState
  /-- The action in process. -/
  action : MemAction
  /-- The branch passed down, `ALL_BRANCHES` at first. -/
  branch : ℤ
  /-- The error mask, one bit for each branch. -/
  memRasError : BitVec 32
  /-- The variables of the library call. -/
  libCall : LibCallVars

/-- `ALL_BRANCHES`. -/
def allBranches : ℤ := -1

/-- The variables as they are initialised. -/
def MemoryRas.boot : MemoryRas where
  stateMachine := .enumMemoryOnlineOfflineEntry
  action := ⟨false, false, false, false⟩
  branch := allBranches
  memRasError := 0
  libCall :=
    { stateMachine := .enumMemoryLibCallInit
      node :=
        { mrcStatus := .memNodeNop
          mrcEndStatus := .memNodeNop
          mBeforeQuiesce := false
          mAbortQuiesce := false
          quiesce := ⟨false, none, none⟩ } }

/-! ### Quiesce and memory map -/

/-- Prepares, aborts or executes a quiesce. -/
def callQuiesceSupport (o : CallOutcome) (action : QuiesceAction) (s : QuiesceVars) :
    EfiStatus × QuiesceVars :=
  match action with
  | .prepareQuiesce =>
    if s.mCurrQuiescePtr.isNone then
      if o.aquireDataBuffer = .success then
        (.success, { s with
          mMemQuiesceEnabled := true
          mCurrQuiescePtr := some o.dataBuffer
          mStartQuiescePtr := s.mStartQuiescePtr.or (some o.dataBuffer) })
      else (o.aquireDataBuffer, { s with mMemQuiesceEnabled := true })
    else (.aborted, s)
  | .abortQuiesce =>
    if s.mStartQuiescePtr.isSome then
      (o.releaseDataBuffer, { s with
        mMemQuiesceEnabled := false
        mStartQuiescePtr := none
        mCurrQuiescePtr := none })
    else (.aborted, s)
  | .executeQuiesce =>
    if s.mCurrQuiescePtr.isSome then
      (if o.releaseDataBuffer.isError then o.releaseDataBuffer else o.quiesceMain, { s with
        mMemQuiesceEnabled := false
        mCurrQuiescePtr := none
        mStartQuiescePtr := none })
    else (.aborted, s)
  | .releaseQuiesce => (.aborted, s)

/-- The table of memory map functions. -/
def mMemMapTable : List MemMapFunction := [.initMemoryMap, .initADR, .setRASConfig, .memLate]

/-- Calls the memory map functions in order until one fails. -/
def rasMemMap (o : CallOutcome) : EfiStatus :=
  match mMemMapTable.find? fun f ↦ o.memMap f != .success with
  | some f => o.memMap f
  | none => .success

/-! ### The four functions -/

/-- The second half of the entry state: the memory map is rebuilt, and the quiesce is the next state
or is given up. -/
def updateSad (o : CallOutcome) : EfiStatus × MemNodeStatus :=
  if rasMemMap o = .success then (.success, .memNodeInstallQuiesce)
  else (rasMemMap o, .memNodeInstallAbortQuiesce)

/-- One step of the node: the status, the new node state and the quiesce variables. -/
def memoryNodeOnline (o : CallOutcome) (memHpStatus : MemNodeStatus) (s : QuiesceVars) :
    EfiStatus × MemNodeStatus × QuiesceVars :=
  match memHpStatus with
  | .memNodeInstallInProgressEntry =>
    if !o.hostParmValid then (.success, .memNodeError, s)
    else
      let (status, s) := callQuiesceSupport o .prepareQuiesce s
      if status = .success then ((updateSad o).1, (updateSad o).2, s)
      else (status, .memNodeError, s)
  | .memNodeInstallInProgress => ((updateSad o).1, (updateSad o).2, s)
  | .memNodeInstallQuiesce =>
    (.success, .memNodeUpdateStructuresOnline, (callQuiesceSupport o .executeQuiesce s).2)
  | .memNodeUpdateStructuresOnline => (.success, .memNodeOnlineComplete, s)
  | .memNodeInstallAbortQuiesce =>
    (.success, .memNodeError, (callQuiesceSupport o .abortQuiesce s).2)
  | other => (.success, other, s)

/-- The node states a new action starts and ends with. -/
def mrcStart (action : MemAction) : MemNodeStatus × MemNodeStatus :=
  if action.nodeInit then (.memNodeOnline, .memNodeInstallInProgressEntry)
  else if action.mapUpdate then (.memNodeInstallInProgressEntry, .memNodeOnlineComplete)
  else (.memNodeOnlineComplete, .memNodeOnlineComplete)

/-- The switch that ends `OnlineOfflineSingleMemoryNode`: a node in error or in its end state is
idle again. -/
def mrcFinish (s : NodeVars) : OnlineStatus × NodeVars :=
  if s.mrcStatus = .memNodeError then (.errorExit, { s with mrcStatus := .memNodeNop })
  else
    let s := if s.mrcStatus = .memNodeRemoveQuiesce ∨ s.mrcStatus = .memNodeInstallQuiesce then
      { s with mBeforeQuiesce := true, mAbortQuiesce := false } else s
    if s.mrcStatus = s.mrcEndStatus then (.statusDone, { s with mrcStatus := .memNodeNop })
    else (.inProgress, s)

/-- One step of one node. `pSysHost` says that the host structure is there. -/
def onlineOfflineSingleMemoryNode (pSysHost : Bool) (o : CallOutcome) (action : MemAction)
    (s : NodeVars) : OnlineStatus × NodeVars :=
  if !pSysHost then (.errorExit, s)
  else
    let s := { s with mBeforeQuiesce := false }
    if action.nodeOn then
      let s := if s.mrcStatus = .memNodeNop then
        { s with mrcStatus := (mrcStart action).1, mrcEndStatus := (mrcStart action).2 } else s
      -- the hook point of the RAS handler
      let s := if s.mrcStatus = .memNodeInstallQuiesce ∧ s.mAbortQuiesce then
        { s with mrcStatus := .memNodeInstallAbortQuiesce } else s
      let r := memoryNodeOnline o s.mrcStatus s.quiesce
      mrcFinish { s with mrcStatus := r.2.1, quiesce := r.2.2 }
    else mrcFinish { s with mrcStatus := .memNodeNop, mrcEndStatus := .memNodeNop }

/-- Drives one node and returns to the initial state when it is no longer in progress. -/
def onlineOfflineMemoryLibCall (pSysHost : Bool) (o : CallOutcome) (action : MemAction)
    (s : LibCallVars) : OnlineStatus × LibCallVars :=
  match s.stateMachine with
  | .enumMemoryLibCallInit | .enumMemoryLibCallExecute =>
    let r := onlineOfflineSingleMemoryNode pSysHost o action s.node
    if r.1 = .inProgress then (r.1, ⟨.enumMemoryLibCallExecute, r.2⟩)
    else (r.1, ⟨.enumMemoryLibCallInit, r.2⟩)
  | _ => (.inProgress, { s with stateMachine := .enumMemoryLibCallInit })

/-- The locals of `MemOnlineOffline` that live across the rounds of its loop. -/
structure OnlineLoop where
  /-- `Status`, what the function returns. -/
  status : OnlineStatus
  /-- `RetStatus`, what the library call returned last. -/
  retStatus : OnlineStatus
  /-- The static variables. -/
  ras : MemoryRas

/-- The error mask of a failed update: the branches that were to come online. -/
def updateError (memState : OnlineOfflineState × OnlineOfflineState) (mask : BitVec 32) :
    BitVec 32 :=
  let mask := if memState.1 = .enumOnline then mask ||| 1 else mask
  if memState.2 = .enumOnline then mask ||| 2 else mask

/-- The state `EnumMemoryUpdate`. -/
def memoryUpdate (pSysHost : Bool) (o : CallOutcome)
    (memState : OnlineOfflineState × OnlineOfflineState) (l : OnlineLoop) : OnlineLoop :=
  let r := onlineOfflineMemoryLibCall pSysHost o l.ras.action l.ras.libCall
  let l := { l with retStatus := r.1, ras := { l.ras with libCall := r.2 } }
  let s := l.ras
  if l.retStatus = .inProgress then l
  else if l.retStatus ≠ .statusDone then
    if s.action.nodeOn then
      { l with ras := { s with
          action := { s.action with nodeInit := false, mapUpdate := false, nodeOff := true }
          memRasError := updateError memState s.memRasError
          branch := 0
          stateMachine := .enumMemoryPowerOff } }
    else { l with ras := { s with stateMachine := .enumMemoryOnlineOfflineDone } }
  else if s.action.nodeOff then
    { l with ras := { s with
        action := { s.action with mapUpdate := false, nodeOff := true }
        stateMachine := .enumMemoryPowerOff } }
  else if s.memRasError = 0 then
    { l with ras := { s with stateMachine := .enumMemoryOnlineOfflineDone } }
  else
    { l with ras := { s with
        action := { s.action with mapUpdate := false, nodeOff := true }
        branch := if s.memRasError &&& 2 ≠ 0 then 1 else if s.memRasError &&& 1 ≠ 0 then 0
          else s.branch
        stateMachine := .enumMemoryPowerOff } }

/-- `RAS_MEM_ERR_ONLINE`. -/
def rasMemErrOnline : BitVec 32 := 1000

/-- `RAS_MEM_ERR_OFFLINE`. -/
def rasMemErrOffline : BitVec 32 := 2000

/-- The code a finished request returns. -/
def doneStatus (s : MemoryRas) : OnlineStatus :=
  if s.memRasError = 0 then .statusDone
  else if s.action.nodeOn then .ras (rasMemErrOnline ||| s.memRasError)
  else .ras (rasMemErrOffline ||| s.memRasError)

/-- One round of the loop of `MemOnlineOffline`. -/
def memOnlineOfflineRound (pSysHost : Bool) (o : CallOutcome)
    (memState : OnlineOfflineState × OnlineOfflineState) (l : OnlineLoop) : OnlineLoop :=
  match l.ras.stateMachine with
  | .enumMemoryOnlineOfflineEntry | .enumMemorySwitchBranch | .enumMemoryOnlining =>
    memoryUpdate pSysHost o memState { l with ras := { l.ras with
      stateMachine := .enumMemoryUpdate
      action := onlineAction } }
  | .enumMemoryUpdate => memoryUpdate pSysHost o memState l
  | .enumMemoryOfflining => { l with status := .unsupported }
  | .enumMemoryPowerOff | .enumMemoryOnlineOfflineDone =>
    { l with
      status := doneStatus l.ras
      ras := { l.ras with stateMachine := .enumMemoryOnlineOfflineEntry } }
  | _ => { l with ras := { l.ras with stateMachine := .enumMemoryOnlineOfflineEntry } }

/-- The condition of the loop of `MemOnlineOffline`. -/
def memOnlineOfflineAgain (l : OnlineLoop) : Bool :=
  l.ras.stateMachine != .enumMemoryOnlineOfflineEntry && l.retStatus != .inProgress

/-- The RAS handler may raise the abort flag between two calls. -/
def raiseAbort (abortRequested : Bool) (s : MemoryRas) : MemoryRas :=
  { s with libCall.node.mAbortQuiesce := s.libCall.node.mAbortQuiesce || abortRequested }

/-- One call of `MemOnlineOffline`. The loop makes at most two rounds
(`memOnlineOffline_of_finishes`), so the bound is no restriction. -/
def memOnlineOffline (pSysHost : Bool) (o : CallOutcome)
    (memState : OnlineOfflineState × OnlineOfflineState) (s : MemoryRas) : Option OnlineLoop :=
  doWhile (fun l ↦ some (memOnlineOfflineRound pSysHost o memState l)) memOnlineOfflineAgain 2
    { status := .inProgress, retStatus := .statusDone, ras := raiseAbort o.abortRequested s }

/-! ### Requests -/

/-- A memory online request, with what the code outside answers in each of its calls. -/
structure OnlineRequest where
  /-- The state wanted for each of the two branches. -/
  memState : OnlineOfflineState × OnlineOfflineState
  /-- The answers during the first call, the second and so on. -/
  outcome : ℕ → CallOutcome

/-- Where the calls of one request have got to. -/
structure RequestProgress where
  /-- Calls made so far. -/
  calls : ℕ
  /-- What the last call returned. -/
  status : OnlineStatus
  /-- The variables after it. -/
  ras : MemoryRas

/-- The calls of a request from a given point on, at most `fuel` of them: `MemOnlineOffline` is
called again as long as it returns `IN_PROGRESS`. -/
def requestFrom (pSysHost : Bool) (r : OnlineRequest) (fuel : ℕ) (p : RequestProgress) :
    Option RequestProgress :=
  doWhile
    (fun p ↦ (memOnlineOffline pSysHost (r.outcome p.calls) r.memState p.ras).map fun l ↦
      { calls := p.calls + 1, status := l.status, ras := l.ras })
    (fun p ↦ p.status = .inProgress) fuel p

/-- A whole request. Three calls are enough (`memoryOnlineRequest_completed`). -/
def memoryOnlineRequest (pSysHost : Bool) (r : OnlineRequest) (s : MemoryRas) :
    Option RequestProgress :=
  requestFrom pSysHost r 3 { calls := 0, status := .inProgress, ras := s }

/-- The variables after a request. -/
def afterRequest (pSysHost : Bool) (s : MemoryRas) (r : OnlineRequest) : MemoryRas :=
  ((memoryOnlineRequest pSysHost r s).map (·.ras)).getD s

end PurleyFirmware.Ras
