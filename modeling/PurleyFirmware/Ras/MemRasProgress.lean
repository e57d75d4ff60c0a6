import PurleyFirmware.Ras.MemRasHandler

/-!
# When the memory RAS handler acts

`MemRasHandler` should act on requests only, and be ready for the next one when it is no longer in
progress. `ActsOnRequests` says so of one call, and `along_actsOnRequests_iff` says for which runs of
calls it holds.

There are two ways out. The search for a request tests a loop counter that is zero if the loop did
not run, so without any of the four bits that start the loop every SMI passes for a request. And
`Progress` is cleared for `STATUS_DONE` only, so a request that the setup options rule out leaves it
set.

The rest of the module is the invariant `VarsOk`: between two calls the online flow is idle or
somewhere within a request, and `MemStateMachine` says which. It is what makes every call return.
-/

namespace PurleyFirmware.Ras

variable {P : RasPlatform} {e : MemRasInput} {s : MemRasVars}

/-! ### One call of the online flow -/

/-- A request is under way: the node is at one of the three states in which a call leaves it. -/
structure MemoryRas.InFlight (s : MemoryRas) : Prop where
  /-- The next call drives the node. -/
  drives : s.Drives
  /-- Where the node is, with the quiesce buffer and the abort flag. -/
  node : (s.libCall.node.At .memNodeInstallQuiesce ∧ s.libCall.node.quiesce.Held ∧
      s.libCall.node.mAbortQuiesce = false) ∨
    (s.libCall.node.At .memNodeInstallAbortQuiesce ∧ s.libCall.node.quiesce.Held) ∨
    (s.libCall.node.At .memNodeUpdateStructuresOnline ∧ s.libCall.node.quiesce.Released)

/-- A call of the online flow returns, in flight if it is in progress and idle if not. -/
def MemoryRas.Returns (pSysHost : Bool) (o : CallOutcome)
    (memState : OnlineOfflineState × OnlineOfflineState) (s : MemoryRas) : Prop :=
  ∃ l, memOnlineOffline pSysHost o memState s = some l ∧
    (l.status = .inProgress → pSysHost = true ∧ l.ras.InFlight) ∧
    (l.status ≠ .inProgress → l.ras.Idle)

section Flow

variable {pSysHost : Bool} {o : CallOutcome} {memState : OnlineOfflineState × OnlineOfflineState}
  {ras : MemoryRas} {n' : NodeVars}

theorem MemoryRas.returns_of_error (hs : ras.Drives)
    (hnode : onlineOfflineSingleMemoryNode pSysHost o onlineAction (nodeBefore o ras) =
      (.errorExit, n')) (hn : n'.Idle) : ras.Returns pSysHost o memState := by
  obtain ⟨l, hl, hinit, hlnode, -, -, hend⟩ := memOnlineOffline_of_error memState hs hnode hn
  refine ⟨l, hl, fun h ↦ absurd h hend, fun _ ↦ ⟨hinit, ?_⟩⟩
  rw [hlnode]
  exact hn.released

theorem MemoryRas.returns_of_done (hs : ras.Drives)
    (hnode : onlineOfflineSingleMemoryNode pSysHost o onlineAction (nodeBefore o ras) =
      (.statusDone, n')) (hn : n'.Idle) : ras.Returns pSysHost o memState := by
  obtain ⟨l, hl, hinit, hlnode, -, -, hend⟩ := memOnlineOffline_of_done memState hs hnode hn
  refine ⟨l, hl, fun h ↦ absurd h hend, fun _ ↦ ⟨hinit, ?_⟩⟩
  rw [hlnode]
  exact hn.released

theorem MemoryRas.returns_of_inProgress (hs : ras.Drives)
    (hnode : onlineOfflineSingleMemoryNode true o onlineAction (nodeBefore o ras) =
      (.inProgress, n'))
    (hn : (n'.At .memNodeInstallQuiesce ∧ n'.quiesce.Held ∧ n'.mAbortQuiesce = false) ∨
      (n'.At .memNodeInstallAbortQuiesce ∧ n'.quiesce.Held) ∨
      (n'.At .memNodeUpdateStructuresOnline ∧ n'.quiesce.Released)) :
    ras.Returns true o memState := by
  obtain ⟨l, hl, hstatus, hdrives, hlnode, -⟩ := memOnlineOffline_of_inProgress memState hs hnode
  rw [← hlnode] at hn
  exact ⟨l, hl, fun _ ↦ ⟨rfl, hdrives, hn⟩, fun h ↦ absurd hstatus h⟩

/-- **The first call of a request.** -/
theorem MemoryRas.Idle.returns (hs : ras.Idle) : ras.Returns pSysHost o memState := by
  have hidle : (nodeBefore o ras).Idle := ⟨hs.mrcStatus, hs.released⟩
  have hdrives := hs.toInitial.drives
  cases pSysHost with
  | false => exact returns_of_error hdrives rfl hidle
  | true =>
    by_cases hprep : o.PrepareSucceeds
    · obtain ⟨n', hnode, hat, hheld, hflag⟩ := single_start hidle hprep
      refine returns_of_inProgress hdrives hnode ?_
      by_cases hmap : rasMemMap o = .success
      · have hsad : (updateSad o).2 = .memNodeInstallQuiesce := by simp [updateSad, hmap]
        exact .inl ⟨hsad ▸ hat, hheld, hflag hsad⟩
      · have hsad : (updateSad o).2 = .memNodeInstallAbortQuiesce := by simp [updateSad, hmap]
        exact .inr (.inl ⟨hsad ▸ hat, hheld⟩)
    · obtain ⟨n', hnode, hn'⟩ := single_start_fail hidle hprep
      exact returns_of_error hdrives hnode hn'

/-- **Every other call of a request.** -/
theorem MemoryRas.InFlight.returns (hs : ras.InFlight) : ras.Returns true o memState := by
  obtain ⟨hat, hheld, -⟩ | ⟨hat, hheld⟩ | ⟨hat, hfree⟩ := hs.node
  · cases habort : (nodeBefore o ras).mAbortQuiesce with
    | true =>
      obtain ⟨n', hnode, hn'⟩ := single_quiesce_aborted (o := o) (nodeBefore_at hat) hheld habort
      exact returns_of_error hs.drives hnode hn'
    | false =>
      obtain ⟨n', hnode, hat', hfree⟩ := single_quiesce (o := o) (nodeBefore_at hat) hheld habort
      exact returns_of_inProgress hs.drives hnode (.inr (.inr ⟨hat', hfree⟩))
  · obtain ⟨n', hnode, hn'⟩ := single_abort (o := o) (nodeBefore_at hat) hheld
    exact returns_of_error hs.drives hnode hn'
  · obtain ⟨n', hnode, hn'⟩ := single_update (o := o) (nodeBefore_at hat) hfree
    exact returns_of_done hs.drives hnode hn'

end Flow

/-! ### Between two calls of the handler -/

/-- **The invariant.** The online flow is under way exactly in the state that drives it. -/
structure VarsOk (P : RasPlatform) (s : MemRasVars) : Prop where
  state : s.memStateMachine = .enumMemoryEntry ∨ s.memStateMachine = .enumMemoryExecuteRequest ∨
    s.memStateMachine = .enumMemoryNotifyOS ∨ s.memStateMachine = .enumMemoryExit
  idle : s.memStateMachine ≠ .enumMemoryExecuteRequest → s.ras.Idle
  inFlight : s.memStateMachine = .enumMemoryExecuteRequest →
    P.pSysHost = true ∧ s.ras.InFlight ∧ s.memState = (.enumOnline, .enumOnline)

theorem varsOk_boot (P : RasPlatform) : VarsOk P .boot :=
  ⟨.inl rfl, fun _ ↦ MemoryRas.boot_idle, nofun⟩

/-- What one call of `MemOnlineOfflineRasHandler` does with the variables that the invariant and the
outer handler look at. -/
structure HandlerReturns (P : RasPlatform) (s : MemRasVars) (r : RasStatus × MemRasVars) :
    Prop where
  ok : VarsOk P r.2
  progress : r.2.progress = s.progress
  soft : r.2.mIsSoftSmiRequest = s.mIsSoftSmiRequest

theorem executeRequest_returns (hmem : s.memState = (.enumOnline, .enumOnline))
    (hexec : s.memStateMachine = .enumMemoryExecuteRequest)
    (hras : s.ras.Returns P.pSysHost e.outcome s.memState) :
    ∃ r, executeRequest P e s = some r ∧ r.1 = .inProgress ∧ HandlerReturns P s r := by
  obtain ⟨l, hl, hflight, hidle⟩ := hras
  refine ⟨flowReturned s l, congrArg (Option.map _) hl, ?_⟩
  unfold flowReturned
  by_cases hprog : l.status = .inProgress
  · obtain ⟨hhost, hfl⟩ := hflight hprog
    rw [if_pos hprog]
    exact ⟨rfl, ⟨.inr (.inl hexec), fun h ↦ absurd hexec h, fun _ ↦ ⟨hhost, hfl, hmem⟩⟩, rfl, rfl⟩
  · rw [if_neg hprog]
    split
    · exact ⟨rfl, ⟨.inr (.inr (.inr rfl)), fun _ ↦ hidle hprog, nofun⟩, rfl, rfl⟩
    · exact ⟨rfl, ⟨.inr (.inr (.inl rfl)), fun _ ↦ hidle hprog, nofun⟩, rfl, rfl⟩

theorem checkRequest_returns (hidle : s.ras.Idle) :
    ∃ r, checkRequest P e s = some r ∧ r.1 = .inProgress ∧ HandlerReturns P s r := by
  obtain ⟨r, hr, hprog, hok, hp, hsoft⟩ := executeRequest_returns (P := P) (e := e)
    (s := { s with
      mNotifyOs := !(s.mIsSoftSmiRequest && e.signals.noOsSci), memRasError := none
      notifyOsError := false, ended := none, memState := (.enumOnline, .enumOnline)
      memStateMachine := .enumMemoryExecuteRequest }) rfl rfl hidle.returns
  exact ⟨r, hr, hprog, hok, hp, hsoft⟩

theorem handlerDone_returns (hidle : s.ras.Idle) : HandlerReturns P s (handlerDone s) :=
  ⟨⟨.inl rfl, fun _ ↦ hidle, nofun⟩, rfl, rfl⟩

theorem notifyOs_returns (hidle : s.ras.Idle) :
    (notifyOs s).1 = .statusDone ∧ HandlerReturns P s (notifyOs s) := by
  unfold notifyOs
  split
  · dsimp only
    split
    · exact ⟨rfl, ⟨.inl rfl, fun _ ↦ hidle, nofun⟩, rfl, rfl⟩
    · exact ⟨rfl, ⟨.inl rfl, fun _ ↦ hidle, nofun⟩, rfl, rfl⟩
  · exact ⟨rfl, ⟨.inl rfl, fun _ ↦ hidle, nofun⟩, rfl, rfl⟩

/-- A call that finds the handler between two requests and is refused by the setup options. -/
def RefusedBySetup (e : MemRasInput) (s : MemRasVars) : Prop :=
  s.memStateMachine = .enumMemoryEntry ∧ e.checkMrcSetupOption = false

instance : Decidable (RefusedBySetup e s) := inferInstanceAs (Decidable (_ ∧ _))

/-- The status that `MemOnlineOfflineRasHandler` returns. -/
def handlerStatus (e : MemRasInput) (s : MemRasVars) : RasStatus :=
  match s.memStateMachine with
  | .enumMemoryEntry =>
    if e.checkMrcSetupOption then .inProgress else .online rasMemOnofflineInvalidSetup
  | .enumMemoryCheckRequest | .enumMemoryGetState | .enumMemoryExecuteRequest => .inProgress
  | .enumMemoryNotifyOS | .enumMemoryExit => .statusDone

theorem handlerStatus_of_refused (h : RefusedBySetup e s) :
    handlerStatus e s = .online rasMemOnofflineInvalidSetup := by
  unfold handlerStatus
  rw [h.1, h.2]
  rfl

theorem handlerStatus_of_not_refused (h : ¬ RefusedBySetup e s) :
    handlerStatus e s = .inProgress ∨ handlerStatus e s = .statusDone := by
  unfold handlerStatus
  cases hst : s.memStateMachine with
  | enumMemoryEntry =>
    have hsetup : e.checkMrcSetupOption = true := by
      rw [← Bool.not_eq_false]
      exact fun hfalse ↦ h ⟨hst, hfalse⟩
    exact .inl (if_pos hsetup)
  | enumMemoryCheckRequest | enumMemoryGetState | enumMemoryExecuteRequest => exact .inl rfl
  | enumMemoryNotifyOS | enumMemoryExit => exact .inr rfl

/-- **`MemOnlineOfflineRasHandler` returns.** -/
theorem memOnlineOfflineRasHandler_returns (hs : VarsOk P s) (e : MemRasInput) :
    ∃ r, memOnlineOfflineRasHandler P e s = some r ∧ HandlerReturns P s r ∧
      r.1 = handlerStatus e s := by
  unfold memOnlineOfflineRasHandler handlerStatus
  obtain hst | hst | hst | hst := hs.state <;> rw [hst]
  · have hidle : s.ras.Idle := hs.idle (by rw [hst]; decide)
    cases hsetup : e.checkMrcSetupOption with
    | false => exact ⟨_, rfl, ⟨hs, rfl, rfl⟩, rfl⟩
    | true =>
      obtain ⟨r, hr, hprog, hret⟩ := checkRequest_returns (P := P) (e := e) hidle
      exact ⟨r, hr, hret, hprog⟩
  · obtain ⟨hhost, hfl, hmem⟩ := hs.inFlight hst
    have hras : s.ras.Returns P.pSysHost e.outcome s.memState := hhost ▸ hfl.returns
    obtain ⟨r, hr, hprog, hret⟩ := executeRequest_returns hmem hst hras
    exact ⟨r, hr, hret, hprog⟩
  · obtain ⟨hdone, hret⟩ := notifyOs_returns (P := P) (hs.idle (by rw [hst]; decide))
    exact ⟨_, rfl, hret, hdone⟩
  · exact ⟨_, rfl, handlerDone_returns (hs.idle (by rw [hst]; decide)), rfl⟩

/-! ### One call of the handler -/

/-- What a call of `MemRasHandler` that serves a request returns and leaves behind. -/
structure RequestServed (P : RasPlatform) (e : MemRasInput) (s : MemRasVars) (c : MemRasCall) :
    Prop where
  called : c.called = true
  ok : VarsOk P c.vars
  soft : c.vars.mIsSoftSmiRequest = s.mIsSoftSmiRequest
  stored : c.vars.smiParam3 = c.status
  status : c.status = handlerStatus e s
  progress : c.vars.progress = (s.progress && c.status != .statusDone)

theorem storeStatus_smiParam3 (status : RasStatus) :
    (storeStatus status s).smiParam3 = status := by
  unfold storeStatus
  dsimp only
  split <;> rfl

theorem VarsOk.storeStatus (hs : VarsOk P s) (status : RasStatus) :
    VarsOk P (storeStatus status s) := by
  unfold Ras.storeStatus
  dsimp only
  split <;> exact ⟨hs.state, hs.idle, hs.inFlight⟩

theorem storeStatus_soft (status : RasStatus) :
    (storeStatus status s).mIsSoftSmiRequest = s.mIsSoftSmiRequest := by
  unfold storeStatus
  dsimp only
  split <;> rfl

theorem storeStatus_progress (status : RasStatus) :
    (storeStatus status s).progress = (s.progress && status != .statusDone) := by
  unfold storeStatus
  dsimp only
  split
  · rename_i hdone
    simp [hdone]
  · rename_i hdone
    simp [hdone]

/-- **A call that serves a request returns.** -/
theorem serveRequest_returns (hs : VarsOk P s) (e : MemRasInput) :
    ∃ c, serveRequest P e s = some c ∧ RequestServed P e s c := by
  obtain ⟨r, hr, ⟨hok, hprogress, hsoft⟩, hstatus⟩ := memOnlineOfflineRasHandler_returns hs e
  have hthree : r.1 = .online rasMemOnofflineInvalidSetup ∨ r.1 = .inProgress ∨
      r.1 = .statusDone := by
    rw [hstatus]
    by_cases h : RefusedBySetup e s
    · exact .inl (handlerStatus_of_refused h)
    · exact .inr (handlerStatus_of_not_refused h)
  have hredirect : r.1 ≠ .online rasMemOnofflineRedirect := by
    obtain h | h | h := hthree <;> rw [h] <;> decide
  have hne : r.1 ≠ .noRequest := by
    obtain h | h | h := hthree <;> rw [h] <;> nofun
  refine ⟨⟨r.1, true, storeStatus r.1 r.2⟩, ?_, rfl, hok.storeStatus _, ?_,
    storeStatus_smiParam3 _, hstatus, ?_⟩
  · rw [serveRequest, hr, Option.map_some, handlerReturned, if_neg hne,
      if_neg fun h ↦ hredirect h.2]
  · exact (storeStatus_soft _).trans hsoft
  · exact (storeStatus_progress _).trans (by rw [hprogress])

/-! ### Acting on requests -/

/-- A socket or riser request is pending: a bit of `mHpRequest[0]` for an absent socket, a CPU bit
that changed, or the attention button of a board that is not present. -/
def Pending (P : RasPlatform) (sig : RasSignals) : Prop :=
  (∃ i < P.maxSocket, sig.socketPresentBitMap.getLsbD i = false ∧
      (sig.mHpRequest 0).getLsbD i = true) ∨
    sig.mHpRequest 0 ≠ sig.mHpRequest 3 ∨
    ∃ i < P.mcMaxNode, (sig.mHpRequest 2).getLsbD i = true ∧ (sig.mHpRequest 5).getLsbD i = false

instance {sig : RasSignals} : Decidable (Pending P sig) :=
  inferInstanceAs (Decidable (_ ∨ _ ∨ _))

/-- What is expected of a call without a soft request. -/
structure ActsOnRequests (P : RasPlatform) (s : MemRasVars) (e : MemRasInput) : Prop where
  /-- The call returns, and ... -/
  returns : ∃ c, memRasHandler P e s = some c ∧
    -- ... it calls the handler only if a request is pending or in progress, ...
    (c.called = true → Pending P e.signals ∨ s.progress = true) ∧
    -- ... and says that there is no request otherwise.
    (¬ (Pending P e.signals ∨ s.progress = true) → c.status = .noRequest) ∧
    -- If it is not in progress, `Progress` is `NO_REQUEST`.
    (c.status ≠ .inProgress → c.vars.progress = false)

/-- `Progress` is set when the handler is called. -/
def Latched (P : RasPlatform) (e : MemRasInput) (s : MemRasVars) : Prop :=
  s.progress = true ∨ detectRequest P e.signals = some true

instance : Decidable (Latched P e s) := inferInstanceAs (Decidable (_ ∨ _))

/-- When a call does what is expected of it. -/
structure ActsWhen (P : RasPlatform) (s : MemRasVars) (e : MemRasInput) : Prop where
  /-- A request is pending or in progress, or the loop over the sockets runs. -/
  detects : s.progress = true ∨ Pending P e.signals ∨ e.signals.mHpRequest 0 &&& 0xF ≠ 0
  /-- The setup options do not rule out a request for which `Progress` is set. -/
  setup : ¬ (RefusedBySetup e s ∧ Latched P e s)

instance : Decidable (ActsWhen P s e) :=
  decidable_of_iff (_ ∧ _) ⟨fun h ↦ ⟨h.1, h.2⟩, fun h ↦ ⟨h.detects, h.setup⟩⟩

/-- The loop over the sockets runs, and finds the request of an absent socket. -/
theorem pending_of_requestedSocket {sig : RasSignals} {i : ℕ}
    (h : requestedSocket P sig = some i) : i < P.maxSocket ∧ Pending P sig := by
  have hi := List.mem_range.1 (List.mem_of_find?_eq_some h)
  have hbits := List.find?_some h
  simp only [Bool.and_eq_true, Bool.not_eq_true'] at hbits
  exact ⟨hi, .inl ⟨i, hi, hbits⟩⟩

/-- **The search for a request.** It takes an SMI for a request without one if and only if the loop
over the sockets does not run. -/
theorem detectRequest_cases (P : RasPlatform) (sig : RasSignals) :
    detectRequest P sig = none ∨
      (detectRequest P sig = some true ∧ Pending P sig) ∨
      (detectRequest P sig = some false ∧ sig.mHpRequest 0 &&& 0xF = 0) := by
  unfold detectRequest
  dsimp only
  by_cases hruns : sig.mHpRequest 0 &&& 0xF ≠ 0
  · simp only [if_pos hruns, decide_eq_true hruns]
    cases hsocket : requestedSocket P sig with
    | some i =>
      obtain ⟨hi, hpending⟩ := pending_of_requestedSocket hsocket
      rw [Option.getD_some, if_neg (by omega)]
      exact .inr (.inl ⟨rfl, hpending⟩)
    | none =>
      rw [Option.getD_none, if_pos rfl]
      split
      · exact .inl rfl
      · rename_i hchanged
        have hpending : Pending P sig := .inr (.inl hchanged)
        split
        · exact .inr (.inl ⟨rfl, hpending⟩)
        · split
          · exact .inl rfl
          · exact .inr (.inl ⟨rfl, hpending⟩)
  · have hpos := P.maxSocket_pos
    rw [if_neg hruns, if_neg (by omega), decide_eq_false hruns]
    exact .inr (.inr ⟨rfl, not_not.1 hruns⟩)

/-- Without any of the four bits the search passes every SMI for a request. -/
theorem detectRequest_of_zero {sig : RasSignals} (h : sig.mHpRequest 0 &&& 0xF = 0) :
    detectRequest P sig = some false := by
  have hpos := P.maxSocket_pos
  have hruns : ¬ (sig.mHpRequest 0 &&& 0xF ≠ 0) := not_not.2 h
  unfold detectRequest
  dsimp only
  rw [if_neg hruns, if_neg (by omega), decide_eq_false hruns]

/-- A call that is not in progress cleared `Progress` unless the setup options ruled out a request
for which it was set. -/
theorem RequestServed.progress_iff {c : MemRasCall} (h : RequestServed P e s c) :
    (c.status ≠ .inProgress → c.vars.progress = false) ↔
      ¬ (RefusedBySetup e s ∧ s.progress = true) := by
  rw [h.progress, h.status]
  by_cases hrefused : RefusedBySetup e s
  · rw [handlerStatus_of_refused hrefused]
    simp [hrefused, rasMemOnofflineInvalidSetup]
  · obtain hstatus | hstatus := handlerStatus_of_not_refused hrefused <;> rw [hstatus] <;>
      simp [hrefused]

theorem memRasHandler_of_progress (hsoft : s.mIsSoftSmiRequest = false)
    (hprogress : s.progress = true) : memRasHandler P e s = serveRequest P e s := by
  have hnot : ¬ s.mIsSoftSmiRequest = true := Bool.eq_false_iff.1 hsoft
  unfold memRasHandler
  rw [if_neg hnot, if_pos hprogress]

theorem memRasHandler_of_none (hsoft : s.mIsSoftSmiRequest = false)
    (hprogress : ¬ s.progress = true) (hdetect : detectRequest P e.signals = none) :
    memRasHandler P e s = some ⟨.noRequest, false, s⟩ := by
  have hnot : ¬ s.mIsSoftSmiRequest = true := Bool.eq_false_iff.1 hsoft
  unfold memRasHandler
  rw [if_neg hnot, if_neg hprogress, hdetect]

theorem memRasHandler_of_some (hsoft : s.mIsSoftSmiRequest = false)
    (hprogress : ¬ s.progress = true) {latches : Bool}
    (hdetect : detectRequest P e.signals = some latches) :
    memRasHandler P e s = serveRequest P e { s with progress := latches } := by
  have hnot : ¬ s.mIsSoftSmiRequest = true := Bool.eq_false_iff.1 hsoft
  unfold memRasHandler
  rw [if_neg hnot, if_neg hprogress, hdetect]

theorem VarsOk.withProgress (hs : VarsOk P s) (progress : Bool) :
    VarsOk P { s with progress := progress } := ⟨hs.state, hs.idle, hs.inFlight⟩

/-- **One call.** -/
theorem actsOnRequests_iff (hs : VarsOk P s) (hsoft : s.mIsSoftSmiRequest = false) :
    ActsOnRequests P s e ↔ ActsWhen P s e := by
  by_cases hprogress : s.progress = true
  · obtain ⟨c, hc, hserved⟩ := serveRequest_returns hs e
    have hcall : memRasHandler P e s = some c :=
      (memRasHandler_of_progress hsoft hprogress).trans hc
    have hiff := hserved.progress_iff
    constructor
    · rintro ⟨c', hc', -, -, hclear⟩
      rw [hcall] at hc'
      obtain rfl := Option.some.inj hc'
      exact ⟨.inl hprogress, fun h ↦ (hiff.1 hclear) ⟨h.1, hprogress⟩⟩
    · rintro ⟨-, hsetup⟩
      exact ⟨c, hcall, fun _ ↦ .inr hprogress, fun h ↦ absurd (.inr hprogress) h,
        hiff.2 fun h ↦ hsetup ⟨h.1, .inl hprogress⟩⟩
  · have hnot : s.progress = false := Bool.eq_false_iff.2 hprogress
    obtain hnone | ⟨hlatch, hpending⟩ | ⟨hlatch, hzero⟩ := detectRequest_cases P e.signals
    · have hcall := memRasHandler_of_none (P := P) hsoft hprogress hnone
      have hlatched : ¬ Latched P e s := by
        rintro (h | h)
        · exact hprogress h
        · rw [hnone] at h
          cases h
      have hruns : e.signals.mHpRequest 0 &&& 0xF ≠ 0 := fun h ↦ by
        rw [detectRequest_of_zero h] at hnone
        cases hnone
      exact iff_of_true ⟨_, hcall, nofun, fun _ ↦ rfl, fun _ ↦ hnot⟩
        ⟨.inr (.inr hruns), fun h ↦ hlatched h.2⟩
    · obtain ⟨c, hc, hserved⟩ := serveRequest_returns (hs.withProgress true) e
      have hcall := (memRasHandler_of_some hsoft hprogress hlatch).trans hc
      have hiff := hserved.progress_iff
      constructor
      · rintro ⟨c', hc', -, -, hclear⟩
        rw [hcall] at hc'
        obtain rfl := Option.some.inj hc'
        exact ⟨.inr (.inl hpending), fun h ↦ (hiff.1 hclear) ⟨h.1, rfl⟩⟩
      · rintro ⟨-, hsetup⟩
        exact ⟨c, hcall, fun _ ↦ .inl hpending, fun h ↦ absurd (.inl hpending) h,
          hiff.2 fun h ↦ hsetup ⟨h.1, .inr hlatch⟩⟩
    · obtain ⟨c, hc, hserved⟩ := serveRequest_returns (hs.withProgress false) e
      have hcall := (memRasHandler_of_some hsoft hprogress hlatch).trans hc
      have hiff := hserved.progress_iff
      constructor
      · rintro ⟨c', hc', hcalled, -, -⟩
        rw [hcall] at hc'
        obtain rfl := Option.some.inj hc'
        obtain hpending | h := hcalled hserved.called
        · refine ⟨.inr (.inl hpending), fun h ↦ ?_⟩
          obtain hp | hd := h.2
          · exact hprogress hp
          · rw [hlatch] at hd
            cases hd
        · exact absurd h hprogress
      · rintro ⟨hdetects, -⟩
        obtain h | hpending | hruns := hdetects
        · exact absurd h hprogress
        · exact ⟨c, hcall, fun _ ↦ .inl hpending, fun h ↦ absurd (.inl hpending) h,
            hiff.2 fun h ↦ Bool.false_ne_true h.2⟩
        · exact absurd hzero hruns

/-! ### Every run -/

/-- The variables after a call. -/
def afterSmi (P : RasPlatform) (s : MemRasVars) (e : MemRasInput) : MemRasVars :=
  ((memRasHandler P e s).map (·.vars)).getD s

/-- A call without a soft request keeps the invariant, and asks for no soft request. -/
theorem varsOk_afterSmi (hs : VarsOk P s) (hsoft : s.mIsSoftSmiRequest = false)
    (e : MemRasInput) :
    VarsOk P (afterSmi P s e) ∧ (afterSmi P s e).mIsSoftSmiRequest = false := by
  unfold afterSmi
  by_cases hprogress : s.progress = true
  · obtain ⟨c, hc, hserved⟩ := serveRequest_returns hs e
    rw [memRasHandler_of_progress hsoft hprogress, hc]
    exact ⟨hserved.ok, hserved.soft.trans hsoft⟩
  · cases hdetect : detectRequest P e.signals with
    | none =>
      rw [memRasHandler_of_none hsoft hprogress hdetect]
      exact ⟨hs, hsoft⟩
    | some latches =>
      obtain ⟨c, hc, hserved⟩ := serveRequest_returns (hs.withProgress latches) e
      rw [memRasHandler_of_some hsoft hprogress hdetect, hc]
      exact ⟨hserved.ok, hserved.soft.trans hsoft⟩

/-- **The handler acts on requests**, in a run of calls without a soft request, exactly if each call
finds a request pending or in progress or at least one of the four bits set, and the setup options
never rule out a request for which `Progress` is set. -/
theorem along_actsOnRequests_iff (P : RasPlatform) (es : List MemRasInput) :
    Along (afterSmi P) (ActsOnRequests P) .boot es ↔
      Along (afterSmi P) (ActsWhen P) .boot es := by
  have hpres : ∀ s e, (VarsOk P s ∧ s.mIsSoftSmiRequest = false) → True → ActsOnRequests P s e →
      VarsOk P (afterSmi P s e) ∧ (afterSmi P s e).mIsSoftSmiRequest = false :=
    fun _ e hs _ _ ↦ varsOk_afterSmi hs.1 hs.2 e
  have hiff : ∀ s e, (VarsOk P s ∧ s.mIsSoftSmiRequest = false) → True →
      (ActsOnRequests P s e ↔ ActsWhen P s e) := fun _ _ hs _ ↦ actsOnRequests_iff hs.1 hs.2
  exact along_iff_of_invariant hpres hiff ⟨varsOk_boot P, rfl⟩
    (along_of_forall (fun _ _ ↦ trivial) _ _)

/-- Four sockets with two memory boards each. -/
def fourSockets : RasPlatform where
  pSysHost := true
  maxSocket := 4
  maxSocket_pos := Nat.succ_pos 3
  mcMaxNode := 8

/-- An SMI that finds no request. -/
def quietSmi : MemRasInput where
  signals :=
    { smiRequest := .other, noOsSci := false, mHpRequest := fun _ ↦ 0, socketPresentBitMap := 1 }
  checkMrcSetupOption := true
  outcome := successfulCall

/-- **Without any request the handler is called**, in the first SMI after boot. -/
theorem not_actsOnRequests_quietSmi :
    ¬ ∀ (P : RasPlatform) (es : List MemRasInput),
      Along (afterSmi P) (ActsOnRequests P) .boot es := by
  intro h
  obtain ⟨c, hc, hcalled, -⟩ := (h fourSockets [quietSmi]).1.returns
  have hrun : (memRasHandler fourSockets quietSmi .boot).map (·.called) = some true := by decide
  rw [hc, Option.map_some] at hrun
  have hnot : ¬ (Pending fourSockets quietSmi.signals ∨ MemRasVars.boot.progress = true) := by
    decide
  exact hnot (hcalled (Option.some.inj hrun))

end PurleyFirmware.Ras
