import PurleyFirmware.Ras.MemoryRequests

/-!
# The memory RAS handler

`MemRasHandler` is called in one SMI after another. It finds out whether a memory request is
pending, drives `MemOnlineOfflineRasHandler`, and stores the status for the OS. The latter is a state
machine of its own around `MemOnlineOffline`: it checks the setup options, drives the online flow
until that is no longer in progress, notifies the OS, and is done.

Both functions keep static variables, which are collected in `MemRasVars`. What they read of the
request and of the hardware in one SMI is a `MemRasInput`, with the answers that `MemOnlineOffline`
gets from outside among it.

Left out are the socket numbers, the SMI counter and `mForceRequest`, which nothing decides on. A
status is stored as it is and not as the 32-bit number it is cast to.
-/

namespace PurleyFirmware.Ras

/-! ### Statuses and inputs -/

/-- The statuses of the two handlers. -/
inductive RasStatus
  | noRequest
  | online (status : OnlineStatus)
  deriving DecidableEq

/-- `IN_PROGRESS`. -/
abbrev RasStatus.inProgress : RasStatus := .online .inProgress

/-- `STATUS_DONE`. -/
abbrev RasStatus.statusDone : RasStatus := .online .statusDone

/-- The status is an error: it says neither that there is nothing to report nor that all is well. -/
def RasStatus.IsError (status : RasStatus) : Prop :=
  status ≠ .noRequest ∧ status ≠ .inProgress ∧ status ≠ .statusDone

instance {status : RasStatus} : Decidable status.IsError :=
  inferInstanceAs (Decidable (_ ∧ _ ∧ _))

/-- `RAS_MEM_ONOFFLINE_INVALID_SETUP`. -/
def rasMemOnofflineInvalidSetup : OnlineStatus := .ras 1010

/-- `RAS_MEM_ONOFFLINE_REDIRECT`. -/
def rasMemOnofflineRedirect : OnlineStatus := .ras 1013

/-- `mSmiParam[0]`, the type of a soft request. -/
inductive SmiRequest
  | smiMemOnlineOffline
  | smiCpuOnlineOffline
  | smiCpuHotAddRemove
  | other
  deriving DecidableEq

/-- What the platform fixes. -/
structure RasPlatform where
  /-- `mMemRas->pSysHost` is there. -/
  pSysHost : Bool
  /-- `MAX_SOCKET`. -/
  maxSocket : ℕ
  /-- There is a socket. -/
  maxSocket_pos : 0 < maxSocket
  /-- `MC_MAX_NODE`. -/
  mcMaxNode : ℕ

/-- The request that an SMI finds. -/
structure RasSignals where
  /-- `mSmiParam[0]`. -/
  smiRequest : SmiRequest
  /-- `mSmiParam[1] & MEM_RAS_FLAG_NO_OS_SCI`. -/
  noOsSci : Bool
  /-- `mHpRequest`: 0 is the status of the CPUs, 2 the attention buttons of the memory boards, 3 the
  CPUs that are present, 5 the boards that are present. -/
  mHpRequest : ℕ → BitVec 8
  /-- `host->var.common.socketPresentBitMap`. -/
  socketPresentBitMap : BitVec 32

/-- What one call of `MemRasHandler` reads. -/
structure MemRasInput where
  /-- The request. -/
  signals : RasSignals
  /-- `CheckMrcSetupOption` succeeds. -/
  checkMrcSetupOption : Bool
  /-- The answers to `MemOnlineOffline`. -/
  outcome : CallOutcome

/-! ### The static variables -/

/-- The values of `INTERNAL_STATE` that `MemOnlineOfflineRasHandler` uses. -/
inductive MemHandlerState
  | enumMemoryEntry
  | enumMemoryCheckRequest
  | enumMemoryGetState
  | enumMemoryExecuteRequest
  | enumMemoryNotifyOS
  | enumMemoryExit
  deriving DecidableEq

/-- The values of `INTERNAL_STATE` that `MemOsNotify` uses. -/
inductive OsNotifyState
  | enumOsNotifyInit
  | enumOsNotifyWait
  | enumOsNotifyDone
  deriving DecidableEq

/-- The static and global variables of the two handlers. -/
structure MemRasVars where
  /-- `Progress` of `MemRasHandler` is `IN_PROGRESS`, and not `NO_REQUEST`. -/
  progress : Bool
  /-- `MemStateMachine`. -/
  memStateMachine : MemHandlerState
  /-- `MemRasError` of `MemOnlineOfflineRasHandler`; `none` is `RAS_NO_ERROR`. -/
  memRasError : Option OnlineStatus
  /-- `RAS_MEM_ERR_NOTIFY_OS` in the same variable. -/
  notifyOsError : Bool
  /-- `MemState`. -/
  memState : OnlineOfflineState × OnlineOfflineState
  /-- `mNotifyOs`. -/
  mNotifyOs : Bool
  /-- `StateMachine` of `MemOsNotify`. -/
  osNotify : OsNotifyState
  /-- The variables of `MemOnlineOffline`. -/
  ras : MemoryRas
  /-- `mIsSoftSmiRequest`. -/
  mIsSoftSmiRequest : Bool
  /-- `mSmiParam[3]`, the status for the OS. -/
  smiParam3 : RasStatus
  /-- `mPatrolCKEStopped`. -/
  mPatrolCKEStopped : Bool
  /-- `mExitImmediately`. -/
  mExitImmediately : Bool
  /-- Not in the code: what `MemOnlineOffline` ended with, since the request was checked. -/
  ended : Option OnlineStatus

/-- The variables as they are initialised. -/
def MemRasVars.boot : MemRasVars where
  progress := false
  memStateMachine := .enumMemoryEntry
  memRasError := none
  notifyOsError := false
  memState := (.enumUnchanged, .enumUnchanged)
  mNotifyOs := false
  osNotify := .enumOsNotifyInit
  ras := .boot
  mIsSoftSmiRequest := false
  smiParam3 := .statusDone
  mPatrolCKEStopped := false
  mExitImmediately := false
  ended := none

/-! ### MemOnlineOfflineRasHandler -/

/-- `MemOsNotify`: the status and the next state. The first state raises the SCI and stays. -/
def memOsNotify : OsNotifyState → OnlineStatus × OsNotifyState
  | .enumOsNotifyInit => (.inProgress, .enumOsNotifyInit)
  | .enumOsNotifyWait => (.inProgress, .enumOsNotifyDone)
  | .enumOsNotifyDone => (.statusDone, .enumOsNotifyInit)

/-- After the call of `MemOnlineOffline`. Whatever it returned, the handler is in progress. -/
def flowReturned (s : MemRasVars) (l : OnlineLoop) : RasStatus × MemRasVars :=
  let s := { s with ras := l.ras }
  if l.status = .inProgress then (.inProgress, s)
  else if l.status ≠ .statusDone then
    (.inProgress, { s with
      memRasError := some l.status, memStateMachine := .enumMemoryExit, ended := some l.status })
  else (.inProgress, { s with memStateMachine := .enumMemoryNotifyOS, ended := some l.status })

/-- The state `EnumMemoryExecuteRequest`; `none` says that `MemOnlineOffline` does not return. -/
def executeRequest (P : RasPlatform) (e : MemRasInput) (s : MemRasVars) :
    Option (RasStatus × MemRasVars) :=
  (memOnlineOffline P.pSysHost e.outcome s.memState s.ras).map (flowReturned s)

/-- The state `EnumMemoryGetState`, and on. -/
def getState (P : RasPlatform) (e : MemRasInput) (s : MemRasVars) :
    Option (RasStatus × MemRasVars) :=
  executeRequest P e
    { s with memState := (.enumOnline, .enumOnline), memStateMachine := .enumMemoryExecuteRequest }

/-- The state `EnumMemoryCheckRequest`, and on. -/
def checkRequest (P : RasPlatform) (e : MemRasInput) (s : MemRasVars) :
    Option (RasStatus × MemRasVars) :=
  getState P e
    { s with
      mNotifyOs := !(s.mIsSoftSmiRequest && e.signals.noOsSci)
      memRasError := none
      notifyOsError := false
      ended := none }

/-- The end of the switch, which the last three states fall through to. -/
def handlerDone (s : MemRasVars) : RasStatus × MemRasVars :=
  (.statusDone, { s with memStateMachine := .enumMemoryEntry })

/-- The state `EnumMemoryNotifyOS`, and on. What the notification returns is overwritten. -/
def notifyOs (s : MemRasVars) : RasStatus × MemRasVars :=
  if s.mNotifyOs then
    let r := memOsNotify s.osNotify
    let s := { s with osNotify := r.2 }
    if r.1 ≠ .inProgress then
      handlerDone { s with
        notifyOsError := s.notifyOsError || r.1 != .statusDone, memStateMachine := .enumMemoryExit }
    else handlerDone s
  else handlerDone { s with memStateMachine := .enumMemoryExit }

/-- `MemOnlineOfflineRasHandler`. -/
def memOnlineOfflineRasHandler (P : RasPlatform) (e : MemRasInput) (s : MemRasVars) :
    Option (RasStatus × MemRasVars) :=
  match s.memStateMachine with
  | .enumMemoryEntry =>
    if !e.checkMrcSetupOption then some (.online rasMemOnofflineInvalidSetup, s)
    else checkRequest P e s
  | .enumMemoryCheckRequest => checkRequest P e s
  | .enumMemoryGetState => getState P e s
  | .enumMemoryExecuteRequest => executeRequest P e s
  | .enumMemoryNotifyOS => some (notifyOs s)
  | .enumMemoryExit => some (handlerDone s)

/-! ### MemRasHandler -/

/-- The first socket that is absent and has its bit set in `mHpRequest[0]`. -/
def requestedSocket (P : RasPlatform) (sig : RasSignals) : Option ℕ :=
  (List.range P.maxSocket).find? fun i ↦
    !sig.socketPresentBitMap.getLsbD i && (sig.mHpRequest 0).getLsbD i

/-- The first socket that is present and whose status has not changed. -/
def risingSocket (P : RasPlatform) (sig : RasSignals) : Option ℕ :=
  (List.range P.maxSocket).find? fun i ↦
    !(sig.mHpRequest 0).getLsbD i && (sig.mHpRequest 3).getLsbD i

/-- The search for a request in the signals: whether it sets `Progress`, `none` if there is no
request. The loop over the sockets runs only if one of four bits is set; `i` is its counter, which
is zero if it does not run. The loop over the attention buttons always goes on to the same place. -/
def detectRequest (P : RasPlatform) (sig : RasSignals) : Option Bool :=
  let runs := sig.mHpRequest 0 &&& 0xF ≠ 0
  let i := if runs then (requestedSocket P sig).getD P.maxSocket else 0
  if i = P.maxSocket then
    if sig.mHpRequest 0 = sig.mHpRequest 3 then none
    else if sig.mHpRequest 2 ≠ 0 then some true
    else if (risingSocket P sig).isNone then none
    else some true
  else some (decide runs)

/-- The handler's end: the status is stored, and `Progress` is cleared if it is `STATUS_DONE`. -/
def storeStatus (status : RasStatus) (s : MemRasVars) : MemRasVars :=
  let s := { s with smiParam3 := status, mPatrolCKEStopped := decide (status = .inProgress) }
  if status = .statusDone then
    { s with
      progress := false
      mExitImmediately := s.mExitImmediately || !s.mIsSoftSmiRequest }
  else s

/-- What a call of `MemRasHandler` did. -/
structure MemRasCall where
  /-- The status it returns. -/
  status : RasStatus
  /-- It called `MemOnlineOfflineRasHandler`. -/
  called : Bool
  /-- The variables after it. -/
  vars : MemRasVars

/-- After the call of `MemOnlineOfflineRasHandler`, for a soft request or without one. -/
def handlerReturned (soft : Bool) (r : RasStatus × MemRasVars) : MemRasCall :=
  if r.1 = .noRequest then ⟨r.1, true, r.2⟩
  else if soft = false ∧ r.1 = .online rasMemOnofflineRedirect then
    ⟨.inProgress, true, storeStatus .inProgress { r.2 with mIsSoftSmiRequest := true }⟩
  else ⟨r.1, true, storeStatus r.1 r.2⟩

/-- The call of `MemOnlineOfflineRasHandler`, and what follows it. -/
def serveRequest (P : RasPlatform) (e : MemRasInput) (s : MemRasVars) : Option MemRasCall :=
  (memOnlineOfflineRasHandler P e s).map (handlerReturned s.mIsSoftSmiRequest)

/-- `MemRasHandler`; `none` says that it does not return. -/
def memRasHandler (P : RasPlatform) (e : MemRasInput) (s : MemRasVars) : Option MemRasCall :=
  if s.mIsSoftSmiRequest then
    if e.signals.smiRequest ≠ .other then serveRequest P e s else some ⟨.noRequest, false, s⟩
  else if s.progress then serveRequest P e s
  else
    match detectRequest P e.signals with
    | none => some ⟨.noRequest, false, s⟩
    | some latches => serveRequest P e { s with progress := latches }

end PurleyFirmware.Ras
