import PurleyFirmware.Ras.MemoryOnline

/-!
# Runs of memory online requests

Whether a memory online request succeeds should depend on its own steps only. Each of the four
nested functions is described by what one call does in each state it can be called in, from the
inside out: the node (`single_*`), one call of `MemOnlineOffline` (`memOnlineOffline_of_*`), the
calls of one request (`requestFrom_*`). `memoryOnlineRequest_completed` puts them together: from any
state between two requests, a request ends with every machine idle, and only the error mask tells
what happened before.

That mask is the flaw. It is initialised once, failures are OR-ed into it, and nothing clears it, so
`requestIndependent_run_iff` says exactly which runs are free of its effect.
-/

namespace PurleyFirmware.Ras

/-! ### The node, state by state -/

section Node

variable {o : CallOutcome} {n : NodeVars}

/-- No quiesce buffer is held. -/
def QuiesceVars.Released (q : QuiesceVars) : Prop :=
  q.mCurrQuiescePtr = none ∧ q.mStartQuiescePtr = none

/-- Both quiesce pointers are set. -/
def QuiesceVars.Held (q : QuiesceVars) : Prop :=
  q.mCurrQuiescePtr.isSome ∧ q.mStartQuiescePtr.isSome

/-- The node is between two requests. -/
structure NodeVars.Idle (n : NodeVars) : Prop where
  /-- The node state is the initial one. -/
  mrcStatus : n.mrcStatus = .memNodeNop
  /-- No quiesce buffer is left over. -/
  released : n.quiesce.Released

/-- The node is inside a request, in the state `mrc`. -/
structure NodeVars.At (mrc : MemNodeStatus) (n : NodeVars) : Prop where
  /-- The state of the node. -/
  mrcStatus : n.mrcStatus = mrc
  /-- The action ends when the node is online. -/
  mrcEndStatus : n.mrcEndStatus = .memNodeOnlineComplete

/-- The quiesce buffer is there and the memory map will be rebuilt. -/
def CallOutcome.PrepareSucceeds (o : CallOutcome) : Prop :=
  o.hostParmValid = true ∧ o.aquireDataBuffer = .success

instance : Decidable o.PrepareSucceeds := inferInstanceAs (Decidable (_ ∧ _))

theorem memoryNodeOnline_entry (hn : n.quiesce.Released) (ho : o.PrepareSucceeds) :
    ∃ status q, memoryNodeOnline o .memNodeInstallInProgressEntry n.quiesce =
      (status, (updateSad o).2, q) ∧ q.Held := by
  obtain ⟨hvalid, haquire⟩ := ho
  obtain ⟨hcurr, hstart⟩ := hn
  refine ⟨(updateSad o).1, ⟨true, some o.dataBuffer, some o.dataBuffer⟩, ?_, rfl, rfl⟩
  simp [memoryNodeOnline, callQuiesceSupport, hvalid, haquire, hcurr, hstart]

theorem memoryNodeOnline_entry_fail (hn : n.quiesce.Released) (ho : ¬ o.PrepareSucceeds) :
    ∃ status q, memoryNodeOnline o .memNodeInstallInProgressEntry n.quiesce =
      (status, .memNodeError, q) ∧ q.Released := by
  obtain ⟨hcurr, hstart⟩ := hn
  by_cases hvalid : o.hostParmValid = true
  · have haquire : o.aquireDataBuffer ≠ .success := fun h ↦ ho ⟨hvalid, h⟩
    refine ⟨o.aquireDataBuffer, { n.quiesce with mMemQuiesceEnabled := true }, ?_, hcurr, hstart⟩
    simp [memoryNodeOnline, callQuiesceSupport, hvalid, haquire, hcurr]
  · refine ⟨.success, n.quiesce, ?_, hcurr, hstart⟩
    simp [memoryNodeOnline, hvalid]

theorem abortQuiesce_released (q : QuiesceVars) (hq : q.Held) :
    (callQuiesceSupport o .abortQuiesce q).2.Released := by
  simp [callQuiesceSupport, hq.2, QuiesceVars.Released]

theorem executeQuiesce_released (q : QuiesceVars) (hq : q.Held) :
    (callQuiesceSupport o .executeQuiesce q).2.Released := by
  simp [callQuiesceSupport, hq.1, QuiesceVars.Released]

/-- The first call of a request whose preparation succeeds: the node goes on to the quiesce when the
memory map could be rebuilt, and to its abort otherwise. An abort flag left over is cleared on the
way to the quiesce. -/
theorem single_start (hn : n.Idle) (ho : o.PrepareSucceeds) :
    ∃ n', onlineOfflineSingleMemoryNode true o onlineAction n = (.inProgress, n') ∧
      n'.At (updateSad o).2 ∧ n'.quiesce.Held ∧
      ((updateSad o).2 = .memNodeInstallQuiesce → n'.mAbortQuiesce = false) := by
  obtain ⟨status, q, hnode, hq⟩ := memoryNodeOnline_entry hn.released ho
  by_cases hmap : rasMemMap o = .success
  · have hsad : (updateSad o).2 = .memNodeInstallQuiesce := by simp [updateSad, hmap]
    rw [hsad] at hnode ⊢
    refine ⟨⟨.memNodeInstallQuiesce, .memNodeOnlineComplete, true, false, q⟩, ?_, ⟨rfl, rfl⟩, hq,
      fun _ ↦ rfl⟩
    simp [onlineOfflineSingleMemoryNode, onlineAction, mrcStart, mrcFinish, hn.mrcStatus, hnode]
  · have hsad : (updateSad o).2 = .memNodeInstallAbortQuiesce := by simp [updateSad, hmap]
    rw [hsad] at hnode ⊢
    refine ⟨⟨.memNodeInstallAbortQuiesce, .memNodeOnlineComplete, false, n.mAbortQuiesce, q⟩, ?_,
      ⟨rfl, rfl⟩, hq, by simp⟩
    simp [onlineOfflineSingleMemoryNode, onlineAction, mrcStart, mrcFinish, hn.mrcStatus, hnode]

/-- The first call of a request whose preparation fails ends it with the node idle. -/
theorem single_start_fail (hn : n.Idle) (ho : ¬ o.PrepareSucceeds) :
    ∃ n', onlineOfflineSingleMemoryNode true o onlineAction n = (.errorExit, n') ∧ n'.Idle := by
  obtain ⟨status, q, hnode, hq⟩ := memoryNodeOnline_entry_fail hn.released ho
  refine ⟨⟨.memNodeNop, .memNodeOnlineComplete, false, n.mAbortQuiesce, q⟩, ?_, rfl, hq⟩
  simp [onlineOfflineSingleMemoryNode, onlineAction, mrcStart, mrcFinish, hn.mrcStatus, hnode]

/-- The quiesce is executed when nobody asks for an abort. -/
theorem single_quiesce (hn : n.At .memNodeInstallQuiesce) (hq : n.quiesce.Held)
    (habort : n.mAbortQuiesce = false) :
    ∃ n', onlineOfflineSingleMemoryNode true o onlineAction n = (.inProgress, n') ∧
      n'.At .memNodeUpdateStructuresOnline ∧ n'.quiesce.Released := by
  refine ⟨⟨.memNodeUpdateStructuresOnline, .memNodeOnlineComplete, false, false,
    (callQuiesceSupport o .executeQuiesce n.quiesce).2⟩, ?_, ⟨rfl, rfl⟩,
    executeQuiesce_released n.quiesce hq⟩
  simp [onlineOfflineSingleMemoryNode, onlineAction, mrcFinish, memoryNodeOnline, hn.mrcStatus,
    hn.mrcEndStatus, habort]

/-- The quiesce is given up when the abort flag is up: the request ends with the node idle. -/
theorem single_quiesce_aborted (hn : n.At .memNodeInstallQuiesce) (hq : n.quiesce.Held)
    (habort : n.mAbortQuiesce = true) :
    ∃ n', onlineOfflineSingleMemoryNode true o onlineAction n = (.errorExit, n') ∧ n'.Idle := by
  refine ⟨⟨.memNodeNop, .memNodeOnlineComplete, false, true,
    (callQuiesceSupport o .abortQuiesce n.quiesce).2⟩, ?_, rfl,
    abortQuiesce_released n.quiesce hq⟩
  simp [onlineOfflineSingleMemoryNode, onlineAction, mrcFinish, memoryNodeOnline, hn.mrcStatus,
    hn.mrcEndStatus, habort]

/-- A failed memory map: the quiesce buffer is released and the request ends with the node idle. -/
theorem single_abort (hn : n.At .memNodeInstallAbortQuiesce) (hq : n.quiesce.Held) :
    ∃ n', onlineOfflineSingleMemoryNode true o onlineAction n = (.errorExit, n') ∧ n'.Idle := by
  refine ⟨⟨.memNodeNop, .memNodeOnlineComplete, false, n.mAbortQuiesce,
    (callQuiesceSupport o .abortQuiesce n.quiesce).2⟩, ?_, rfl,
    abortQuiesce_released n.quiesce hq⟩
  simp [onlineOfflineSingleMemoryNode, onlineAction, mrcFinish, memoryNodeOnline, hn.mrcStatus,
    hn.mrcEndStatus]

/-- The last call of a request that succeeds. -/
theorem single_update (hn : n.At .memNodeUpdateStructuresOnline) (hq : n.quiesce.Released) :
    ∃ n', onlineOfflineSingleMemoryNode true o onlineAction n = (.statusDone, n') ∧ n'.Idle := by
  refine ⟨⟨.memNodeNop, .memNodeOnlineComplete, false, n.mAbortQuiesce, n.quiesce⟩, ?_, rfl, hq⟩
  simp [onlineOfflineSingleMemoryNode, onlineAction, mrcFinish, memoryNodeOnline, hn.mrcStatus,
    hn.mrcEndStatus]

end Node

/-! ### One call of MemOnlineOffline -/

section Call

variable {pSysHost : Bool} {o : CallOutcome} {memState : OnlineOfflineState × OnlineOfflineState}
  {s : MemoryRas} {n' : NodeVars}

/-- All nested state machines are in their initial states. -/
structure MemoryRas.Initial (s : MemoryRas) : Prop where
  /-- `MemOnlineOffline` is at its entry. -/
  stateMachine : s.stateMachine = .enumMemoryOnlineOfflineEntry
  /-- `OnlineOfflineMemoryLibCall` is at its initial state. -/
  libCall : s.libCall.stateMachine = .enumMemoryLibCallInit
  /-- The node does nothing. -/
  mrcStatus : s.libCall.node.mrcStatus = .memNodeNop

/-- The next call drives the node with the online action: either a request starts, or one goes
on. -/
structure MemoryRas.Drives (s : MemoryRas) : Prop where
  /-- A new request, or the update state of a running one. -/
  stateMachine : s.stateMachine = .enumMemoryOnlineOfflineEntry ∨
    s.stateMachine = .enumMemoryUpdate ∧ s.action = onlineAction
  /-- The library call is not in its end state. -/
  libCall : s.libCall.stateMachine = .enumMemoryLibCallInit ∨
    s.libCall.stateMachine = .enumMemoryLibCallExecute

/-- The node as the call finds it, the abort flag possibly raised. -/
def nodeBefore (o : CallOutcome) (s : MemoryRas) : NodeVars :=
  (raiseAbort o.abortRequested s).libCall.node

theorem MemoryRas.Initial.drives (hs : s.Initial) : s.Drives :=
  ⟨Or.inl hs.stateMachine, Or.inl hs.libCall⟩

/-- In both states the first round is the update with the online action. -/
theorem memOnlineOfflineRound_of_drives (pSysHost : Bool) (o : CallOutcome)
    (memState : OnlineOfflineState × OnlineOfflineState) (hs : s.Drives) :
    memOnlineOfflineRound pSysHost o memState
        ⟨.inProgress, .statusDone, raiseAbort o.abortRequested s⟩ =
      memoryUpdate pSysHost o memState ⟨.inProgress, .statusDone,
        { raiseAbort o.abortRequested s with
          stateMachine := .enumMemoryUpdate, action := onlineAction }⟩ := by
  obtain hentry | ⟨hupdate, haction⟩ := hs.stateMachine
  · simp [memOnlineOfflineRound, raiseAbort, hentry]
  · rw [← haction, ← hupdate]
    simp [memOnlineOfflineRound, raiseAbort, hupdate]

/-- The library call passes on what the node returns. -/
theorem onlineOfflineMemoryLibCall_of_drives {status : OnlineStatus} (hs : s.Drives)
    (hnode : onlineOfflineSingleMemoryNode pSysHost o onlineAction (nodeBefore o s) = (status, n')) :
    onlineOfflineMemoryLibCall pSysHost o onlineAction (raiseAbort o.abortRequested s).libCall =
      (status, ⟨if status = .inProgress then .enumMemoryLibCallExecute
        else .enumMemoryLibCallInit, n'⟩) := by
  have hstate : (raiseAbort o.abortRequested s).libCall.stateMachine = s.libCall.stateMachine := rfl
  unfold nodeBefore at hnode
  obtain hlib | hlib := hs.libCall <;>
  · rw [hlib] at hstate
    simp only [onlineOfflineMemoryLibCall, hstate, hnode]
    split <;> rfl

/-- While the node is in progress, so is the call. -/
theorem memOnlineOffline_of_inProgress (memState : OnlineOfflineState × OnlineOfflineState)
    (hs : s.Drives)
    (hnode : onlineOfflineSingleMemoryNode pSysHost o onlineAction (nodeBefore o s) =
      (.inProgress, n')) :
    ∃ l, memOnlineOffline pSysHost o memState s = some l ∧ l.status = .inProgress ∧
      l.ras.Drives ∧ l.ras.libCall.node = n' ∧ l.ras.memRasError = s.memRasError := by
  have hlib := onlineOfflineMemoryLibCall_of_drives hs hnode
  have hround := memOnlineOfflineRound_of_drives pSysHost o memState hs
  simp only [memoryUpdate, hlib, if_true] at hround
  exact ⟨_, doWhile_of_last (congrArg some hround) (by simp [memOnlineOfflineAgain]), rfl,
    ⟨Or.inr ⟨rfl, rfl⟩, Or.inr rfl⟩, rfl, rfl⟩

/-- The update has ended the request: what is left is the round that computes its code. -/
structure OnlineLoop.Finishes (l : OnlineLoop) (n' : NodeVars) (error : BitVec 32) : Prop where
  /-- One of the last two states comes next. -/
  stateMachine : l.ras.stateMachine = .enumMemoryPowerOff ∨
    l.ras.stateMachine = .enumMemoryOnlineOfflineDone
  /-- The library call is no longer in progress. -/
  retStatus : l.retStatus ≠ .inProgress
  /-- The library call is in its initial state, over the node `n'`. -/
  libCall : l.ras.libCall = ⟨.enumMemoryLibCallInit, n'⟩
  /-- The error mask. -/
  memRasError : l.ras.memRasError = error

theorem memoryUpdate_of_done {l : OnlineLoop} (haction : l.ras.action = onlineAction)
    (hlib : onlineOfflineMemoryLibCall pSysHost o onlineAction l.ras.libCall =
      (.statusDone, ⟨.enumMemoryLibCallInit, n'⟩)) :
    (memoryUpdate pSysHost o memState l).Finishes n' l.ras.memRasError := by
  by_cases herror : l.ras.memRasError = 0#32
  · constructor <;> simp [memoryUpdate, haction, hlib, herror]
  · constructor <;> simp [memoryUpdate, haction, hlib, herror]

theorem memoryUpdate_of_error {l : OnlineLoop} (haction : l.ras.action = onlineAction)
    (hlib : onlineOfflineMemoryLibCall pSysHost o onlineAction l.ras.libCall =
      (.errorExit, ⟨.enumMemoryLibCallInit, n'⟩)) :
    (memoryUpdate pSysHost o memState l).Finishes n' (updateError memState l.ras.memRasError) := by
  constructor <;> simp [memoryUpdate, haction, hlib]

/-- The code of a request is done exactly when the error mask is empty. -/
theorem doneStatus_eq_statusDone_iff : doneStatus s = .statusDone ↔ s.memRasError = 0 := by
  simp only [doneStatus]
  split_ifs <;> simp_all

theorem doneStatus_ne_inProgress : doneStatus s ≠ .inProgress := by
  simp only [doneStatus]
  split_ifs <;> simp

/-- A first round that ends the request is followed by one more, which returns its code. -/
theorem memOnlineOffline_of_finishes {l : OnlineLoop} {error : BitVec 32}
    (hround : memOnlineOfflineRound pSysHost o memState
      ⟨.inProgress, .statusDone, raiseAbort o.abortRequested s⟩ = l)
    (hl : l.Finishes n' error) (hn : n'.Idle) :
    ∃ l', memOnlineOffline pSysHost o memState s = some l' ∧ l'.ras.Initial ∧
      l'.ras.libCall.node = n' ∧ l'.ras.memRasError = error ∧
      (l'.status = .statusDone ↔ error = 0) ∧ l'.status ≠ .inProgress := by
  have hagain : memOnlineOfflineAgain l = true := by
    obtain h | h := hl.stateMachine <;> simp [memOnlineOfflineAgain, h, hl.retStatus]
  have hlast : memOnlineOfflineRound pSysHost o memState l = { l with
      status := doneStatus l.ras
      ras := { l.ras with stateMachine := .enumMemoryOnlineOfflineEntry } } := by
    obtain h | h := hl.stateMachine <;> simp [memOnlineOfflineRound, h]
  have hcall : memOnlineOffline pSysHost o memState s =
      some (memOnlineOfflineRound pSysHost o memState l) := by
    refine (doWhile_of_again ?_ hagain).trans (doWhile_of_last rfl ?_)
    · exact congrArg some hround
    · rw [hlast]
      simp [memOnlineOfflineAgain]
  rw [hlast] at hcall
  refine ⟨_, hcall, ⟨rfl, ?_, ?_⟩, ?_, hl.memRasError, ?_, doneStatus_ne_inProgress⟩
  · exact congrArg LibCallVars.stateMachine hl.libCall
  · rw [hl.libCall]
    exact hn.mrcStatus
  · exact congrArg LibCallVars.node hl.libCall
  · rw [doneStatus_eq_statusDone_iff, hl.memRasError]

/-- When the node is done, the call returns what the error mask says. -/
theorem memOnlineOffline_of_done (memState : OnlineOfflineState × OnlineOfflineState)
    (hs : s.Drives)
    (hnode : onlineOfflineSingleMemoryNode pSysHost o onlineAction (nodeBefore o s) =
      (.statusDone, n')) (hn : n'.Idle) :
    ∃ l, memOnlineOffline pSysHost o memState s = some l ∧ l.ras.Initial ∧
      l.ras.libCall.node = n' ∧ l.ras.memRasError = s.memRasError ∧
      (l.status = .statusDone ↔ s.memRasError = 0) ∧ l.status ≠ .inProgress := by
  have hlib := onlineOfflineMemoryLibCall_of_drives hs hnode
  exact memOnlineOffline_of_finishes (memOnlineOfflineRound_of_drives _ _ _ hs)
    (memoryUpdate_of_done rfl hlib) hn

/-- When the node fails, the branches that were to come online enter the error mask first. -/
theorem memOnlineOffline_of_error (memState : OnlineOfflineState × OnlineOfflineState)
    (hs : s.Drives)
    (hnode : onlineOfflineSingleMemoryNode pSysHost o onlineAction (nodeBefore o s) =
      (.errorExit, n')) (hn : n'.Idle) :
    ∃ l, memOnlineOffline pSysHost o memState s = some l ∧ l.ras.Initial ∧
      l.ras.libCall.node = n' ∧ l.ras.memRasError = updateError memState s.memRasError ∧
      (l.status = .statusDone ↔ updateError memState s.memRasError = 0) ∧
      l.status ≠ .inProgress := by
  have hlib := onlineOfflineMemoryLibCall_of_drives hs hnode
  exact memOnlineOffline_of_finishes (memOnlineOfflineRound_of_drives _ _ _ hs)
    (memoryUpdate_of_error rfl hlib) hn

end Call

/-! ### One request -/

section Request

variable {pSysHost : Bool} {r : OnlineRequest} {s : MemoryRas}

/-- The state between two requests: every machine is in its initial state and no quiesce buffer is
held. Neither the error mask nor the abort flag is restricted. -/
structure MemoryRas.Idle (s : MemoryRas) : Prop extends s.Initial where
  /-- No quiesce buffer is left over. -/
  released : s.libCall.node.quiesce.Released

theorem MemoryRas.boot_idle : MemoryRas.boot.Idle := ⟨⟨rfl, rfl, rfl⟩, rfl, rfl⟩

/-- The request's own steps all succeed: the host structure and its parameters are there, the
quiesce buffer is acquired, the memory map is rebuilt, and nobody asks for an abort before the
quiesce. -/
def OwnStepsSucceed (pSysHost : Bool) (r : OnlineRequest) : Prop :=
  pSysHost = true ∧ (r.outcome 0).PrepareSucceeds ∧ rasMemMap (r.outcome 0) = .success ∧
    (r.outcome 1).abortRequested = false

instance : Decidable (OwnStepsSucceed pSysHost r) := inferInstanceAs (Decidable (_ ∧ _))

/-- The error mask after a request. -/
def errorAfter (pSysHost : Bool) (r : OnlineRequest) (mask : BitVec 32) : BitVec 32 :=
  if OwnStepsSucceed pSysHost r then mask else updateError r.memState mask

/-- What a request leaves behind: it is no longer in progress, every machine is idle, and its code
is done exactly when the error mask is empty. -/
structure RequestProgress.Completed (p : RequestProgress) (error : BitVec 32) : Prop where
  /-- The machines are back in their initial states. -/
  idle : p.ras.Idle
  /-- The error mask. -/
  memRasError : p.ras.memRasError = error
  /-- The code the request finishes with. -/
  status : p.status = .statusDone ↔ error = 0

variable {fuel calls : ℕ} {status : OnlineStatus} {n' : NodeVars}

/-- A call in which the node fails is the last of its request. -/
theorem requestFrom_of_error (hs : s.Drives)
    (hnode : onlineOfflineSingleMemoryNode pSysHost (r.outcome calls) onlineAction
      (nodeBefore (r.outcome calls) s) = (.errorExit, n')) (hn : n'.Idle) :
    ∃ p, requestFrom pSysHost r (fuel + 1) ⟨calls, status, s⟩ = some p ∧
      p.Completed (updateError r.memState s.memRasError) := by
  obtain ⟨l, hl, hinit, hlnode, herror, hstatus, hend⟩ :=
    memOnlineOffline_of_error r.memState hs hnode hn
  refine ⟨⟨calls + 1, l.status, l.ras⟩, doWhile_of_last ?_ ?_, ⟨hinit, ?_⟩, herror, hstatus⟩
  · simp [hl]
  · simpa using hend
  · rw [hlnode]
    exact hn.released

/-- A call in which the node is done is the last of its request. -/
theorem requestFrom_of_done (hs : s.Drives)
    (hnode : onlineOfflineSingleMemoryNode pSysHost (r.outcome calls) onlineAction
      (nodeBefore (r.outcome calls) s) = (.statusDone, n')) (hn : n'.Idle) :
    ∃ p, requestFrom pSysHost r (fuel + 1) ⟨calls, status, s⟩ = some p ∧
      p.Completed s.memRasError := by
  obtain ⟨l, hl, hinit, hlnode, herror, hstatus, hend⟩ :=
    memOnlineOffline_of_done r.memState hs hnode hn
  refine ⟨⟨calls + 1, l.status, l.ras⟩, doWhile_of_last ?_ ?_, ⟨hinit, ?_⟩, herror, hstatus⟩
  · simp [hl]
  · simpa using hend
  · rw [hlnode]
    exact hn.released

/-- A call in which the node is in progress is followed by the next one. -/
theorem requestFrom_of_inProgress (fuel : ℕ) (status : OnlineStatus) (hs : s.Drives)
    (hnode : onlineOfflineSingleMemoryNode pSysHost (r.outcome calls) onlineAction
      (nodeBefore (r.outcome calls) s) = (.inProgress, n')) :
    ∃ s', requestFrom pSysHost r (fuel + 1) ⟨calls, status, s⟩ =
        requestFrom pSysHost r fuel ⟨calls + 1, .inProgress, s'⟩ ∧
      s'.Drives ∧ s'.libCall.node = n' ∧ s'.memRasError = s.memRasError := by
  obtain ⟨l, hl, hstatus, hdrives, hlnode, herror⟩ :=
    memOnlineOffline_of_inProgress r.memState hs hnode
  exact ⟨l.ras, doWhile_of_again (by simp [hl, hstatus]) (by simp), hdrives, hlnode, herror⟩

theorem nodeBefore_at {o : CallOutcome} {mrc : MemNodeStatus}
    (h : s.libCall.node.At mrc) : (nodeBefore o s).At mrc := ⟨h.mrcStatus, h.mrcEndStatus⟩

/-- The calls after a successful preparation: the quiesce and then the update of the structures, or
the abort of the quiesce. -/
theorem requestFrom_prepared {o : CallOutcome} (hs : s.Drives)
    (hat : s.libCall.node.At (updateSad o).2) (hheld : s.libCall.node.quiesce.Held)
    (hflag : (updateSad o).2 = .memNodeInstallQuiesce → s.libCall.node.mAbortQuiesce = false) :
    ∃ p, requestFrom true r 2 ⟨1, .inProgress, s⟩ = some p ∧ p.Completed
      (if rasMemMap o = .success ∧ (r.outcome 1).abortRequested = false then s.memRasError
        else updateError r.memState s.memRasError) := by
  by_cases hmap : rasMemMap o = .success
  · have hsad : (updateSad o).2 = .memNodeInstallQuiesce := by simp [updateSad, hmap]
    rw [hsad] at hat
    have hraised : (nodeBefore (r.outcome 1) s).mAbortQuiesce = (r.outcome 1).abortRequested := by
      simp [nodeBefore, raiseAbort, hflag hsad]
    cases habort : (r.outcome 1).abortRequested with
    | true =>
      obtain ⟨n', hnode, hn'⟩ := single_quiesce_aborted (o := r.outcome 1)
        (nodeBefore_at hat) hheld (hraised.trans habort)
      rw [if_neg (by simp)]
      exact requestFrom_of_error hs hnode hn'
    | false =>
      obtain ⟨n₂, hnode₂, hat₂, hfree⟩ := single_quiesce (o := r.outcome 1)
        (nodeBefore_at hat) hheld (hraised.trans habort)
      obtain ⟨s₂, hcall₂, hdrives₂, hs₂, herror₂⟩ :=
        requestFrom_of_inProgress 1 .inProgress hs hnode₂
      obtain ⟨n', hnode, hn'⟩ := single_update (o := r.outcome 2)
        (nodeBefore_at (s := s₂) (hs₂ ▸ hat₂)) (hs₂ ▸ hfree)
      rw [hcall₂, if_pos ⟨hmap, rfl⟩, ← herror₂]
      exact requestFrom_of_done hdrives₂ hnode hn'
  · have hsad : (updateSad o).2 = .memNodeInstallAbortQuiesce := by simp [updateSad, hmap]
    rw [hsad] at hat
    obtain ⟨n', hnode, hn'⟩ := single_abort (o := r.outcome 1) (nodeBefore_at hat) hheld
    rw [if_neg (fun h ↦ hmap h.1)]
    exact requestFrom_of_error hs hnode hn'

/-- **A request, whatever came before.** It completes within three calls, every machine is idle
again, and the error mask collects its failure. -/
theorem memoryOnlineRequest_completed (pSysHost : Bool) (r : OnlineRequest) (hs : s.Idle) :
    ∃ p, memoryOnlineRequest pSysHost r s = some p ∧
      p.Completed (errorAfter pSysHost r s.memRasError) := by
  have hidle : (nodeBefore (r.outcome 0) s).Idle := ⟨hs.mrcStatus, hs.released⟩
  have hdrives := hs.toInitial.drives
  cases pSysHost with
  | false =>
    have hown : ¬ OwnStepsSucceed false r := by simp [OwnStepsSucceed]
    rw [errorAfter, if_neg hown]
    exact requestFrom_of_error hdrives rfl hidle
  | true =>
    by_cases hprep : (r.outcome 0).PrepareSucceeds
    · obtain ⟨n₁, hnode₁, hat₁, hheld, hflag⟩ := single_start hidle hprep
      obtain ⟨s₁, hcall₁, hdrives₁, hs₁, herror₁⟩ :=
        requestFrom_of_inProgress 2 .inProgress hdrives hnode₁
      have hown : OwnStepsSucceed true r ↔
          rasMemMap (r.outcome 0) = .success ∧ (r.outcome 1).abortRequested = false := by
        simp [OwnStepsSucceed, hprep]
      obtain ⟨p, hp, hcompleted⟩ := requestFrom_prepared (r := r) hdrives₁ (hs₁ ▸ hat₁)
        (hs₁ ▸ hheld) (hs₁ ▸ hflag)
      rw [herror₁] at hcompleted
      refine ⟨p, hcall₁.trans hp, ?_⟩
      simpa only [errorAfter, hown] using hcompleted
    · obtain ⟨n', hnode, hn'⟩ := single_start_fail hidle hprep
      have hown : ¬ OwnStepsSucceed true r := fun h ↦ hprep h.2.1
      rw [errorAfter, if_neg hown]
      exact requestFrom_of_error hdrives hnode hn'

end Request

/-! ### Every run of requests -/

section Runs

variable {pSysHost : Bool} {r : OnlineRequest} {s : MemoryRas} {rs : List OnlineRequest}

/-- Some branch is asked to come online. -/
def OnlineRequest.WantsOnline (r : OnlineRequest) : Prop :=
  r.memState.1 = .enumOnline ∨ r.memState.2 = .enumOnline

instance : Decidable r.WantsOnline := inferInstanceAs (Decidable (_ ∨ _))

/-- The request fails by its own steps, and has a branch to report. -/
def FailsByItself (pSysHost : Bool) (r : OnlineRequest) : Prop :=
  ¬ OwnStepsSucceed pSysHost r ∧ r.WantsOnline

instance : Decidable (FailsByItself pSysHost r) := inferInstanceAs (Decidable (_ ∧ _))

/-- A request made in the state `s` finishes with `STATUS_DONE`. -/
def FinishesDone (pSysHost : Bool) (s : MemoryRas) (r : OnlineRequest) : Prop :=
  (memoryOnlineRequest pSysHost r s).map (·.status) = some .statusDone

instance : Decidable (FinishesDone pSysHost s r) := inferInstanceAs (Decidable (_ = _))

/-- What is expected of each request: it completes with every nested machine in its initial state,
and it finishes with `STATUS_DONE` exactly when it would have done so as the first request after
boot, with the same outcomes of its own steps. -/
structure RequestIndependent (pSysHost : Bool) (s : MemoryRas) (r : OnlineRequest) : Prop where
  /-- The calls of the request end, and reset all machines. -/
  completes : ∃ p, memoryOnlineRequest pSysHost r s = some p ∧ p.status ≠ .inProgress ∧
    p.ras.Initial
  /-- What came before makes no difference. -/
  independent : FinishesDone pSysHost s r ↔ FinishesDone pSysHost .boot r

theorem updateError_eq_zero_iff {memState : OnlineOfflineState × OnlineOfflineState}
    {mask : BitVec 32} : updateError memState mask = 0 ↔
      mask = 0 ∧ ¬ (memState.1 = .enumOnline ∨ memState.2 = .enumOnline) := by
  have h1 : (1 : BitVec 32) ≠ 0 := by decide
  have h2 : (2 : BitVec 32) ≠ 0 := by decide
  by_cases hfst : memState.1 = .enumOnline <;> by_cases hsnd : memState.2 = .enumOnline <;>
    simp [updateError, hfst, hsnd]

/-- The mask is empty after a request exactly when it was empty before it and the request does not
fail by itself: the mask only grows. -/
theorem errorAfter_eq_zero_iff {mask : BitVec 32} :
    errorAfter pSysHost r mask = 0 ↔ mask = 0 ∧ ¬ FailsByItself pSysHost r := by
  rw [errorAfter, FailsByItself]
  split
  · simp [*]
  · rw [updateError_eq_zero_iff]
    simp [*, OnlineRequest.WantsOnline]

theorem afterRequest_idle (hs : s.Idle) : (afterRequest pSysHost s r).Idle := by
  obtain ⟨p, hp, hcompleted⟩ := memoryOnlineRequest_completed pSysHost r hs
  simpa [afterRequest, hp] using hcompleted.idle

theorem afterRequest_memRasError_eq_zero_iff (hs : s.Idle) :
    (afterRequest pSysHost s r).memRasError = 0 ↔
      s.memRasError = 0 ∧ ¬ FailsByItself pSysHost r := by
  obtain ⟨p, hp, hcompleted⟩ := memoryOnlineRequest_completed pSysHost r hs
  rw [← errorAfter_eq_zero_iff, ← hcompleted.memRasError]
  simp [afterRequest, hp]

/-- **When a request finishes with `STATUS_DONE`**: the mask of earlier failures is empty and the
request does not fail by itself. -/
theorem finishesDone_iff (hs : s.Idle) :
    FinishesDone pSysHost s r ↔ s.memRasError = 0 ∧ ¬ FailsByItself pSysHost r := by
  obtain ⟨p, hp, hcompleted⟩ := memoryOnlineRequest_completed pSysHost r hs
  rw [← errorAfter_eq_zero_iff, ← hcompleted.status]
  simp [FinishesDone, hp]

theorem requestIndependent_iff (hs : s.Idle) :
    RequestIndependent pSysHost s r ↔ s.memRasError = 0 ∨ FailsByItself pSysHost r := by
  obtain ⟨p, hp, hcompleted⟩ := memoryOnlineRequest_completed pSysHost r hs
  have hend : p.status ≠ .inProgress := by
    have hlast := again_of_doWhile hp
    simpa using hlast
  have hboot : MemoryRas.boot.memRasError = 0 := rfl
  constructor
  · rintro ⟨-, h⟩
    rw [finishesDone_iff hs, finishesDone_iff MemoryRas.boot_idle] at h
    tauto
  · intro h
    refine ⟨⟨p, hp, hend, hcompleted.idle.toInitial⟩, ?_⟩
    rw [finishesDone_iff hs, finishesDone_iff MemoryRas.boot_idle]
    tauto

/-- Once the mask is not empty, only requests that fail by themselves get the answer they would get
after boot. -/
theorem along_requestIndependent_of_error (hs : s.Idle) (herror : s.memRasError ≠ 0) :
    Along (afterRequest pSysHost) (RequestIndependent pSysHost) s rs ↔
      ∀ r ∈ rs, FailsByItself pSysHost r := by
  induction rs generalizing s with
  | nil => simp
  | cons r rs ih =>
    have hnext : (afterRequest pSysHost s r).memRasError ≠ 0 := by
      rw [ne_eq, afterRequest_memRasError_eq_zero_iff hs]
      tauto
    rw [along_cons, requestIndependent_iff hs, ih (afterRequest_idle hs) hnext,
      List.forall_mem_cons]
    tauto

theorem along_requestIndependent (hs : s.Idle) (herror : s.memRasError = 0) :
    Along (afterRequest pSysHost) (RequestIndependent pSysHost) s rs ↔
      rs.Pairwise fun earlier later ↦
        FailsByItself pSysHost earlier → FailsByItself pSysHost later := by
  induction rs generalizing s with
  | nil => simp
  | cons r rs ih =>
    rw [along_cons, requestIndependent_iff hs, List.pairwise_cons]
    have hidle : (afterRequest pSysHost s r).Idle := afterRequest_idle hs
    have hzero : (afterRequest pSysHost s r).memRasError = 0 ↔
        s.memRasError = 0 ∧ ¬ FailsByItself pSysHost r := afterRequest_memRasError_eq_zero_iff hs
    by_cases hfail : FailsByItself pSysHost r
    · rw [along_requestIndependent_of_error hidle (by tauto)]
      refine ⟨fun h ↦ ⟨fun l hl _ ↦ h.2 l hl, ?_⟩, fun h ↦ ⟨Or.inl herror, fun l hl ↦ h.1 l hl hfail⟩⟩
      exact List.pairwise_of_forall_mem_list fun _ _ b hb _ ↦ h.2 b hb
    · rw [ih hidle (by tauto)]
      simp [herror, hfail]

/-- **Requests are independent exactly up to the first failure.** In a run of requests after boot
every request behaves as if it were the first if and only if only requests that fail by themselves
come after one that failed by itself: the error mask of `MemOnlineOffline` is never cleared. -/
theorem requestIndependent_run_iff (pSysHost : Bool) (rs : List OnlineRequest) :
    Along (afterRequest pSysHost) (RequestIndependent pSysHost) .boot rs ↔
      rs.Pairwise fun earlier later ↦
        FailsByItself pSysHost earlier → FailsByItself pSysHost later :=
  along_requestIndependent MemoryRas.boot_idle rfl

/-- A call in which everything outside succeeds. -/
def successfulCall : CallOutcome where
  abortRequested := false
  hostParmValid := true
  aquireDataBuffer := .success
  dataBuffer := 0x1000
  releaseDataBuffer := .success
  quiesceMain := .success
  memMap _ := .success

/-- Both branches come online, all steps succeed. -/
def successfulRequest : OnlineRequest := ⟨(.enumOnline, .enumOnline), fun _ ↦ successfulCall⟩

/-- Both branches come online, the host parameters are not valid yet. -/
def prematureRequest : OnlineRequest :=
  ⟨(.enumOnline, .enumOnline), fun _ ↦ { successfulCall with hostParmValid := false }⟩

/-- A request with every step succeeding, made after one that failed, does not finish with
`STATUS_DONE`; the same request made first does. -/
theorem not_requestIndependent_afterFailure :
    ¬ ∀ (pSysHost : Bool) (rs : List OnlineRequest),
      Along (afterRequest pSysHost) (RequestIndependent pSysHost) .boot rs := by
  intro h
  have hrun := h true [prematureRequest, successfulRequest]
  have hfirst : FinishesDone true .boot successfulRequest := by decide
  have hsecond : ¬ FinishesDone true (afterRequest true .boot prematureRequest) successfulRequest := by
    decide
  exact hsecond (hrun.2.1.independent.2 hfirst)

end Runs

end PurleyFirmware.Ras
