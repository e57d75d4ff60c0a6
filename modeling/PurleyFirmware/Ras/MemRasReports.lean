import PurleyFirmware.Ras.MemRasProgress

/-!
# What the memory RAS handler reports

A request is served over several SMIs, until `MemRasHandler` is no longer in progress; what it has
stored by then is published to the OS. `ReportsFailure` says that a failure of the online flow shows
in that status.

It does not. The state that follows a failed flow leads to the end of the switch, where the status is
`STATUS_DONE` for everybody; the error is kept in a variable that nothing reads. So a failure shows
only if there is none, or if the setup options rule out the request before the flow starts
(`along_reportsFailure_iff`).
-/

namespace PurleyFirmware.Ras

variable {P : RasPlatform} {s : MemRasVars} {fuel : ℕ}

/-! ### Requests over several SMIs -/

/-- A memory online request, as the SMIs find it that serve it. -/
structure MemRasRequest where
  /-- `mIsSoftSmiRequest`. -/
  soft : Bool
  /-- What the SMIs find; it stays as it is until the request is served. -/
  signals : RasSignals
  /-- `CheckMrcSetupOption` succeeds, in the first SMI, the second and so on. -/
  checkMrcSetupOption : ℕ → Bool
  /-- The answers to `MemOnlineOffline`, in the first SMI, the second and so on. -/
  outcome : ℕ → CallOutcome

/-- What the SMI of a given number reads. -/
def MemRasRequest.input (q : MemRasRequest) (smi : ℕ) : MemRasInput :=
  ⟨q.signals, q.checkMrcSetupOption smi, q.outcome smi⟩

/-- The online request that the handler makes. -/
def MemRasRequest.online (q : MemRasRequest) : OnlineRequest :=
  ⟨(.enumOnline, .enumOnline), q.outcome⟩

/-- Where the SMIs of one request have got to. -/
structure ServeProgress where
  /-- SMIs so far. -/
  smis : ℕ
  /-- What the last call returned. -/
  status : RasStatus
  /-- The variables after it. -/
  vars : MemRasVars

/-- The SMIs of a request from a given point on, at most `fuel` of them. -/
def serveFrom (P : RasPlatform) (q : MemRasRequest) (fuel : ℕ) (p : ServeProgress) :
    Option ServeProgress :=
  doWhile
    (fun p ↦ (memRasHandler P (q.input p.smis) p.vars).map fun c ↦
      { smis := p.smis + 1, status := c.status, vars := c.vars })
    (fun p ↦ p.status = .inProgress) fuel p

/-- The request is accepted: the status for the OS is `IN_PROGRESS`. -/
def acceptRequest (q : MemRasRequest) (s : MemRasVars) : MemRasVars :=
  { s with mIsSoftSmiRequest := q.soft, smiParam3 := .inProgress, ended := none }

/-- A whole request. Four SMIs are enough (`serve_completed`). -/
def serve (P : RasPlatform) (q : MemRasRequest) (s : MemRasVars) : Option ServeProgress :=
  serveFrom P q 4 { smis := 0, status := .inProgress, vars := acceptRequest q s }

/-- The variables after a request. -/
def afterServe (P : RasPlatform) (s : MemRasVars) (q : MemRasRequest) : MemRasVars :=
  ((serve P q s).map (·.vars)).getD s

/-- What is expected of a request: it is served to its end, if `MemOnlineOffline` ends with something
else than `STATUS_DONE` then the status stored for the OS is an error, and it is `STATUS_DONE` only
if `MemOnlineOffline` ended with `STATUS_DONE`. -/
def ReportsFailure (P : RasPlatform) (s : MemRasVars) (q : MemRasRequest) : Prop :=
  ∃ p, serve P q s = some p ∧
    (∀ status, p.vars.ended = some status → status ≠ .statusDone → p.vars.smiParam3.IsError) ∧
    (p.vars.smiParam3 = .statusDone → p.vars.ended = some .statusDone)

/-- The SMIs of the request call `MemOnlineOfflineRasHandler`. -/
def Serves (P : RasPlatform) (s : MemRasVars) (q : MemRasRequest) : Prop :=
  (q.soft = true ∧ q.signals.smiRequest ≠ .other) ∨
    (q.soft = false ∧ (s.progress = true ∨ detectRequest P q.signals ≠ none))

instance {q : MemRasRequest} : Decidable (Serves P s q) :=
  inferInstanceAs (Decidable (_ ∧ _ ∨ _ ∧ (_ ∨ _)))

/-- When a failure would show: nothing is served, the setup options rule the request out, or the
online flow does not fail. -/
def ReportsWhen (P : RasPlatform) (s : MemRasVars) (q : MemRasRequest) : Prop :=
  ¬ Serves P s q ∨ q.checkMrcSetupOption 0 = false ∨
    (s.ras.memRasError = 0 ∧ OwnStepsSucceed P.pSysHost q.online)

instance {q : MemRasRequest} : Decidable (ReportsWhen P s q) :=
  inferInstanceAs (Decidable (_ ∨ _ ∨ _))

/-! ### One SMI of a request -/

/-- What storing a status leaves alone. -/
structure SameFlow (s s' : MemRasVars) : Prop where
  memStateMachine : s'.memStateMachine = s.memStateMachine
  memState : s'.memState = s.memState
  ras : s'.ras = s.ras
  ended : s'.ended = s.ended
  soft : s'.mIsSoftSmiRequest = s.mIsSoftSmiRequest

theorem sameFlow_storeStatus (status : RasStatus) (s : MemRasVars) :
    SameFlow s (storeStatus status s) := by
  unfold storeStatus
  dsimp only
  split <;> exact ⟨rfl, rfl, rfl, rfl, rfl⟩

theorem storeStatus_inProgress_progress (s : MemRasVars) :
    (storeStatus .inProgress s).progress = s.progress :=
  (storeStatus_progress _).trans (Bool.and_true _)

/-- A status that is neither `NO_REQUEST` nor a redirection is stored and returned. -/
theorem serveRequest_of_returned {e : MemRasInput} {r : RasStatus × MemRasVars}
    (hr : memOnlineOfflineRasHandler P e s = some r) (hne : r.1 ≠ .noRequest)
    (hredirect : r.1 ≠ .online rasMemOnofflineRedirect) :
    serveRequest P e s = some ⟨r.1, true, storeStatus r.1 r.2⟩ := by
  rw [serveRequest, hr, Option.map_some, handlerReturned, if_neg hne, if_neg fun h ↦ hredirect h.2]

variable {q : MemRasRequest}

/-- An SMI of a request that is served calls the handler, `Progress` set or not, and so does the next
one as long as `Progress` stays. -/
theorem memRasHandler_of_serves (hsoft : s.mIsSoftSmiRequest = q.soft) (hserves : Serves P s q)
    (smi : ℕ) :
    ∃ progress, memRasHandler P (q.input smi) s =
        serveRequest P (q.input smi) { s with progress := progress } ∧
      ∀ s', s'.progress = progress → Serves P s' q := by
  obtain ⟨hq, hother⟩ | ⟨hq, hrequest⟩ := hserves
  · refine ⟨s.progress, ?_, fun _ _ ↦ .inl ⟨hq, hother⟩⟩
    unfold memRasHandler
    exact (if_pos (hsoft.trans hq)).trans (if_pos hother)
  · have hnot : s.mIsSoftSmiRequest = false := hsoft.trans hq
    by_cases hprogress : s.progress = true
    · exact ⟨s.progress, memRasHandler_of_progress hnot hprogress,
        fun _ hs' ↦ .inr ⟨hq, .inl (hs'.trans hprogress)⟩⟩
    · have hdetect := hrequest.resolve_left hprogress
      obtain ⟨latches, hlatches⟩ := Option.ne_none_iff_exists'.1 hdetect
      exact ⟨latches, memRasHandler_of_some hnot hprogress hlatches,
        fun _ _ ↦ .inr ⟨hq, .inr hdetect⟩⟩

/-- The request waits for the online flow. -/
structure Executing (P : RasPlatform) (q : MemRasRequest) (s : MemRasVars) : Prop where
  soft : s.mIsSoftSmiRequest = q.soft
  serves : Serves P s q
  memStateMachine : s.memStateMachine = .enumMemoryExecuteRequest
  memState : s.memState = (.enumOnline, .enumOnline)

/-- The online flow has ended with `status`, and the handler is about to do so. -/
structure Ending (P : RasPlatform) (q : MemRasRequest) (status : OnlineStatus) (ras : MemoryRas)
    (s : MemRasVars) : Prop where
  soft : s.mIsSoftSmiRequest = q.soft
  serves : Serves P s q
  memStateMachine : s.memStateMachine = .enumMemoryNotifyOS ∨ s.memStateMachine = .enumMemoryExit
  ras : s.ras = ras
  ended : s.ended = some status

/-- The request is served, and the OS is told that all is well. -/
structure Served (status : OnlineStatus) (ras : MemoryRas) (p : ServeProgress) : Prop where
  memStateMachine : p.vars.memStateMachine = .enumMemoryEntry
  ras : p.vars.ras = ras
  ended : p.vars.ended = some status
  smiParam3 : p.vars.smiParam3 = .statusDone

theorem flowReturned_status (s : MemRasVars) (l : OnlineLoop) :
    (flowReturned s l).1 = .inProgress := by
  unfold flowReturned
  dsimp only
  split_ifs <;> rfl

theorem flowReturned_of_inProgress {l : OnlineLoop} (h : l.status = .inProgress) :
    (flowReturned s l).2 = { s with ras := l.ras } := by
  unfold flowReturned
  dsimp only
  rw [if_pos h]

theorem flowReturned_of_ended {l : OnlineLoop} (h : l.status ≠ .inProgress) :
    ((flowReturned s l).2.memStateMachine = .enumMemoryNotifyOS ∨
        (flowReturned s l).2.memStateMachine = .enumMemoryExit) ∧
      (flowReturned s l).2.ras = l.ras ∧ (flowReturned s l).2.ended = some l.status ∧
      (flowReturned s l).2.progress = s.progress ∧
      (flowReturned s l).2.mIsSoftSmiRequest = s.mIsSoftSmiRequest := by
  unfold flowReturned
  dsimp only
  rw [if_neg h]
  split
  · exact ⟨.inr rfl, rfl, rfl, rfl, rfl⟩
  · exact ⟨.inl rfl, rfl, rfl, rfl, rfl⟩

/-- The SMI of a given number calls the online flow. Whatever that returns, the handler is in
progress. -/
def CallsFlow (P : RasPlatform) (q : MemRasRequest) (smi : ℕ) (s : MemRasVars) : Prop :=
  ∀ l, memOnlineOffline P.pSysHost (q.outcome smi) (.enumOnline, .enumOnline) s.ras = some l →
    ∃ c, memRasHandler P (q.input smi) s = some c ∧ c.status = .inProgress ∧
      (l.status = .inProgress → Executing P q c.vars ∧ c.vars.ras = l.ras) ∧
      (l.status ≠ .inProgress → Ending P q l.status l.ras c.vars)

/-- The online flow is called in the state `enumMemoryExecuteRequest`, in which the handler may find
itself or to which it may get in the same SMI. -/
theorem callsFlow_of_flowReturned {smi : ℕ} (hsoft : s.mIsSoftSmiRequest = q.soft)
    (hserves : Serves P s q)
    (hreturned : ∀ progress l,
      memOnlineOffline P.pSysHost (q.outcome smi) (.enumOnline, .enumOnline) s.ras = some l →
      ∃ s₀, memOnlineOfflineRasHandler P (q.input smi) { s with progress := progress } =
          some (flowReturned s₀ l) ∧ s₀.progress = progress ∧
        s₀.mIsSoftSmiRequest = s.mIsSoftSmiRequest ∧
        s₀.memStateMachine = .enumMemoryExecuteRequest ∧
        s₀.memState = (.enumOnline, .enumOnline)) : CallsFlow P q smi s := by
  intro l hl
  obtain ⟨progress, hcall, hstays⟩ := memRasHandler_of_serves hsoft hserves smi
  obtain ⟨s₀, hret, hp₀, hsoft₀, hst₀, hmem₀⟩ := hreturned progress l hl
  have hprog := flowReturned_status s₀ l
  have hserve := serveRequest_of_returned hret (by rw [hprog]; nofun) (by rw [hprog]; decide)
  refine ⟨_, hcall.trans hserve, hprog, fun hstatus ↦ ?_, fun hstatus ↦ ?_⟩
  · have hsame := sameFlow_storeStatus .inProgress { s₀ with ras := l.ras }
    rw [hprog, flowReturned_of_inProgress hstatus]
    refine ⟨⟨hsame.soft.trans (hsoft₀.trans hsoft), hstays _ ?_, hsame.memStateMachine.trans hst₀,
      hsame.memState.trans hmem₀⟩, hsame.ras⟩
    exact (storeStatus_inProgress_progress _).trans hp₀
  · obtain ⟨hst, hras, hended, hp, hsoft'⟩ := flowReturned_of_ended (s := s₀) hstatus
    have hsame := sameFlow_storeStatus .inProgress (flowReturned s₀ l).2
    rw [hprog]
    refine ⟨hsame.soft.trans (hsoft'.trans (hsoft₀.trans hsoft)), hstays _ ?_, ?_,
      hsame.ras.trans hras, hsame.ended.trans hended⟩
    · exact (storeStatus_inProgress_progress _).trans (hp.trans hp₀)
    · rw [hsame.memStateMachine]
      exact hst

/-- **An SMI in the middle of a request.** -/
theorem Executing.callsFlow (h : Executing P q s) (smi : ℕ) : CallsFlow P q smi s := by
  refine callsFlow_of_flowReturned h.soft h.serves fun progress l hl ↦
    ⟨{ s with progress := progress }, ?_, rfl, rfl, h.memStateMachine, h.memState⟩
  unfold memOnlineOfflineRasHandler executeRequest
  dsimp only
  rw [h.memStateMachine, h.memState]
  exact congrArg (Option.map _) hl

/-- **The first SMI of a request** that the setup options allow. -/
theorem callsFlow_of_entry (hentry : s.memStateMachine = .enumMemoryEntry)
    (hsoft : s.mIsSoftSmiRequest = q.soft) (hserves : Serves P s q)
    (hsetup : q.checkMrcSetupOption 0 = true) : CallsFlow P q 0 s := by
  refine callsFlow_of_flowReturned hsoft hserves fun progress l hl ↦
    ⟨{ s with
      progress := progress
      mNotifyOs := !(s.mIsSoftSmiRequest && (q.input 0).signals.noOsSci)
      memRasError := none, notifyOsError := false, ended := none
      memState := (.enumOnline, .enumOnline), memStateMachine := .enumMemoryExecuteRequest },
      ?_, rfl, rfl, rfl, rfl⟩
  have hallowed : (q.input 0).checkMrcSetupOption = true := hsetup
  unfold memOnlineOfflineRasHandler checkRequest getState executeRequest
  dsimp only
  rw [hentry, hallowed]
  exact congrArg (Option.map _) hl

/-- The notification and the end of the switch change nothing of the flow. -/
theorem notifyOs_done (s : MemRasVars) :
    (notifyOs s).1 = .statusDone ∧ (notifyOs s).2.memStateMachine = .enumMemoryEntry ∧
      (notifyOs s).2.ras = s.ras ∧ (notifyOs s).2.ended = s.ended := by
  unfold notifyOs
  split
  · dsimp only
    split <;> exact ⟨rfl, rfl, rfl, rfl⟩
  · exact ⟨rfl, rfl, rfl, rfl⟩

/-- **The last SMI.** The status is `STATUS_DONE`, however the flow ended. -/
theorem memRasHandler_of_ending {status : OnlineStatus} {ras : MemoryRas}
    (h : Ending P q status ras s) (smi : ℕ) :
    ∃ c, memRasHandler P (q.input smi) s = some c ∧ c.status = .statusDone ∧
      Served status ras ⟨smi + 1, c.status, c.vars⟩ := by
  obtain ⟨progress, hcall, -⟩ := memRasHandler_of_serves h.soft h.serves smi
  have hreturned : ∃ r, memOnlineOfflineRasHandler P (q.input smi)
      { s with progress := progress } = some r ∧ r.1 = .statusDone ∧
        r.2.memStateMachine = .enumMemoryEntry ∧ r.2.ras = s.ras ∧ r.2.ended = s.ended := by
    unfold memOnlineOfflineRasHandler
    dsimp only
    obtain hst | hst := h.memStateMachine <;> rw [hst]
    · exact ⟨_, rfl, notifyOs_done _⟩
    · exact ⟨_, rfl, rfl, rfl, rfl, rfl⟩
  obtain ⟨r, hr, hdone, hst, hras, hended⟩ := hreturned
  have hserve := serveRequest_of_returned hr (by rw [hdone]; nofun) (by rw [hdone]; decide)
  have hsame := sameFlow_storeStatus r.1 r.2
  exact ⟨_, hcall.trans hserve, hdone, hsame.memStateMachine.trans hst,
    hsame.ras.trans (hras.trans h.ras), hsame.ended.trans (hended.trans h.ended),
    (storeStatus_smiParam3 _).trans hdone⟩

/-! ### A whole request -/

/-- **The SMIs follow the calls of the online flow**, with one more for the end. The induction is on
the calls: an SMI is made for each of them. -/
theorem serveFrom_of_requestFrom {fuel calls : ℕ} {before : OnlineStatus} {status : RasStatus}
    {p : RequestProgress} (h : CallsFlow P q calls s)
    (hp : requestFrom P.pSysHost q.online fuel ⟨calls, before, s.ras⟩ = some p) :
    ∃ p', serveFrom P q (fuel + 1) ⟨calls, status, s⟩ = some p' ∧ Served p.status p.ras p' := by
  induction fuel generalizing calls before status s with
  | zero => simp [requestFrom, doWhile] at hp
  | succ fuel ih =>
    rw [requestFrom, doWhile, Option.bind_eq_some_iff] at hp
    obtain ⟨t, ht, hrest⟩ := hp
    obtain ⟨l, hl, rfl⟩ := Option.map_eq_some_iff.1 ht
    obtain ⟨c, hc, hstatus, hgoes, hends⟩ := h l hl
    have hagain : serveFrom P q (fuel + 1 + 1) ⟨calls, status, s⟩ =
        serveFrom P q (fuel + 1) ⟨calls + 1, c.status, c.vars⟩ :=
      doWhile_of_again (congrArg (Option.map _) hc) (decide_eq_true hstatus)
    rw [hagain]
    by_cases hprog : l.status = .inProgress
    · obtain ⟨hexec, hras⟩ := hgoes hprog
      rw [if_pos (decide_eq_true hprog), ← hras] at hrest
      exact ih (hexec.callsFlow _) hrest
    · rw [if_neg (by simpa using hprog)] at hrest
      obtain rfl := Option.some.inj hrest
      obtain ⟨c', hc', hdone, hserved⟩ := memRasHandler_of_ending (hends hprog) (calls + 1)
      have hlast : c'.status ≠ .inProgress := by
        rw [hdone]
        decide
      exact ⟨_, doWhile_of_last (congrArg (Option.map _) hc') (decide_eq_false hlast), hserved⟩

/-- The handler is between two requests. -/
structure Resting (s : MemRasVars) : Prop where
  memStateMachine : s.memStateMachine = .enumMemoryEntry
  idle : s.ras.Idle

theorem resting_boot : Resting .boot := ⟨rfl, MemoryRas.boot_idle⟩

/-- The first SMI ends the request. -/
theorem serve_of_last {c : MemRasCall}
    (hcall : memRasHandler P (q.input 0) (acceptRequest q s) = some c) (h : c.status ≠ .inProgress) :
    serve P q s = some ⟨1, c.status, c.vars⟩ := by
  rw [serve, serveFrom]
  exact doWhile_of_last (congrArg (Option.map _) hcall) (decide_eq_false h)

/-- Nothing is served: the first SMI ends the request. -/
theorem serve_of_not_serves (h : ¬ Serves P s q) :
    serve P q s = some ⟨1, .noRequest, acceptRequest q s⟩ := by
  have hcall : memRasHandler P (q.input 0) (acceptRequest q s) =
      some ⟨.noRequest, false, acceptRequest q s⟩ := by
    cases hq : q.soft with
    | true =>
      have hother : ¬ (q.input 0).signals.smiRequest ≠ .other := fun hne ↦ h (.inl ⟨hq, hne⟩)
      unfold memRasHandler
      exact (if_pos hq).trans (if_neg hother)
    | false =>
      have hnone : detectRequest P q.signals = none := by
        by_contra hdetect
        exact h (.inr ⟨hq, .inr hdetect⟩)
      exact memRasHandler_of_none hq (fun hprogress ↦ h (.inr ⟨hq, .inl hprogress⟩)) hnone
  exact serve_of_last hcall nofun

/-- The setup options rule the request out: the first SMI ends the request with the error. -/
theorem serve_of_refused (hs : Resting s) (hserves : Serves P s q)
    (hsetup : q.checkMrcSetupOption 0 = false) :
    ∃ p, serve P q s = some p ∧ p.vars.smiParam3 = .online rasMemOnofflineInvalidSetup ∧
      p.vars.ended = none ∧ Resting p.vars := by
  have hserves' : Serves P (acceptRequest q s) q := hserves
  obtain ⟨progress, hcall, -⟩ := memRasHandler_of_serves (s := acceptRequest q s) rfl hserves' 0
  have hrefused : (q.input 0).checkMrcSetupOption = false := hsetup
  have hreturned : memOnlineOfflineRasHandler P (q.input 0)
      { acceptRequest q s with progress := progress } =
      some (.online rasMemOnofflineInvalidSetup,
        { acceptRequest q s with progress := progress }) := by
    have hentry : (acceptRequest q s).memStateMachine = .enumMemoryEntry := hs.memStateMachine
    unfold memOnlineOfflineRasHandler
    dsimp only
    rw [hentry, hrefused]
    rfl
  have hredirect : RasStatus.online rasMemOnofflineInvalidSetup ≠
      .online rasMemOnofflineRedirect := by decide
  have hserve := hcall.trans (serveRequest_of_returned hreturned nofun hredirect)
  have hsame := sameFlow_storeStatus (.online rasMemOnofflineInvalidSetup)
    { acceptRequest q s with progress := progress }
  refine ⟨_, serve_of_last hserve nofun, storeStatus_smiParam3 _, hsame.ended,
    hsame.memStateMachine.trans hs.memStateMachine, ?_⟩
  exact hsame.ras ▸ hs.idle

/-- **Any other request is served to its end**, and the status for the OS is `STATUS_DONE`. -/
theorem serve_completed (hs : Resting s) (hserves : Serves P s q)
    (hsetup : q.checkMrcSetupOption 0 = true) :
    ∃ p status, serve P q s = some p ∧ p.vars.smiParam3 = .statusDone ∧
      p.vars.ended = some status ∧ Resting p.vars ∧
      (status = .statusDone ↔ s.ras.memRasError = 0 ∧ OwnStepsSucceed P.pSysHost q.online) := by
  have hserves' : Serves P (acceptRequest q s) q := hserves
  have hflow : CallsFlow P q 0 (acceptRequest q s) :=
    callsFlow_of_entry hs.memStateMachine rfl hserves' hsetup
  obtain ⟨r, hr, hcompleted⟩ := memoryOnlineRequest_completed P.pSysHost q.online hs.idle
  obtain ⟨p, hp, hserved⟩ : ∃ p, serve P q s = some p ∧ Served r.status r.ras p :=
    serveFrom_of_requestFrom hflow hr
  refine ⟨p, r.status, hp, hserved.smiParam3, hserved.ended,
    ⟨hserved.memStateMachine, hserved.ras ▸ hcompleted.idle⟩, ?_⟩
  have hwants : q.online.WantsOnline := .inl rfl
  rw [hcompleted.status, errorAfter_eq_zero_iff, FailsByItself, and_iff_left hwants, not_not]

/-! ### Every run of requests -/

/-- **One request.** -/
theorem reportsFailure_iff (hs : Resting s) : ReportsFailure P s q ↔ ReportsWhen P s q := by
  by_cases hserves : Serves P s q
  · cases hsetup : q.checkMrcSetupOption 0 with
    | false =>
      obtain ⟨p, hp, hstored, hended, -⟩ := serve_of_refused hs hserves hsetup
      refine iff_of_true ⟨p, hp, ?_, ?_⟩ (.inr (.inl hsetup))
      · rw [hended]
        nofun
      · rw [hstored]
        nofun
    | true =>
      obtain ⟨p, status, hp, hstored, hended, -, hstatus⟩ := serve_completed hs hserves hsetup
      constructor
      · rintro ⟨p', hp', -, hdone⟩
        obtain rfl := Option.some.inj (hp.symm.trans hp')
        have hflow := hdone hstored
        rw [hended] at hflow
        exact .inr (.inr (hstatus.1 (Option.some.inj hflow)))
      · rintro (h | h | h)
        · exact absurd hserves h
        · rw [hsetup] at h
          cases h
        · have hdone := hstatus.2 h
          rw [hdone] at hended
          refine ⟨p, hp, fun status' hstatus' hne ↦ ?_, fun _ ↦ hended⟩
          rw [hended] at hstatus'
          exact absurd (Option.some.inj hstatus').symm hne
  · exact iff_of_true ⟨_, serve_of_not_serves hserves, nofun, nofun⟩ (.inl hserves)

theorem resting_afterServe (hs : Resting s) (q : MemRasRequest) : Resting (afterServe P s q) := by
  unfold afterServe
  by_cases hserves : Serves P s q
  · cases hsetup : q.checkMrcSetupOption 0 with
    | false =>
      obtain ⟨p, hp, -, -, hrest⟩ := serve_of_refused hs hserves hsetup
      rw [hp]
      exact hrest
    | true =>
      obtain ⟨p, -, hp, -, -, hrest, -⟩ := serve_completed hs hserves hsetup
      rw [hp]
      exact hrest
  · rw [serve_of_not_serves hserves]
    exact ⟨hs.memStateMachine, hs.idle⟩

/-- **Failures are reported exactly if there are none.** In a run of requests from boot each of them
reports a failure of the online flow if and only if each is not served at all, or is ruled out by the
setup options, or makes the flow succeed: no earlier request failed, and its own steps succeed. -/
theorem along_reportsFailure_iff (P : RasPlatform) (qs : List MemRasRequest) :
    Along (afterServe P) (ReportsFailure P) .boot qs ↔
      Along (afterServe P) (ReportsWhen P) .boot qs := by
  have hpres : ∀ s q, Resting s → True → ReportsFailure P s q → Resting (afterServe P s q) :=
    fun _ q hs _ _ ↦ resting_afterServe hs q
  have hiff : ∀ s q, Resting s → True → (ReportsFailure P s q ↔ ReportsWhen P s q) :=
    fun _ _ hs _ ↦ reportsFailure_iff hs
  exact along_iff_of_invariant hpres hiff resting_boot (along_of_forall (fun _ _ ↦ trivial) _ _)

/-- A soft request for memory, before the host parameters are valid. -/
def prematureSoftRequest : MemRasRequest where
  soft := true
  signals :=
    { smiRequest := .smiMemOnlineOffline, noOsSci := true, mHpRequest := fun _ ↦ 0
      socketPresentBitMap := 1 }
  checkMrcSetupOption _ := true
  outcome _ := { successfulCall with hostParmValid := false }

/-- **A failure is reported as `STATUS_DONE`**: `MemOnlineOffline` ends with an error in the first
SMI, and the second one stores `STATUS_DONE`. -/
theorem not_reportsFailure_premature :
    ¬ ∀ (P : RasPlatform) (qs : List MemRasRequest),
      Along (afterServe P) (ReportsFailure P) .boot qs := by
  intro h
  obtain ⟨p, hp, -, hdone⟩ := (h fourSockets [prematureSoftRequest]).1
  have hrun : (serve fourSockets prematureSoftRequest .boot).map
      (fun p ↦ (p.vars.smiParam3, p.vars.ended)) =
        some (.statusDone, some (.ras (1000 ||| 3))) := by decide
  rw [hp, Option.map_some, Option.some.injEq, Prod.mk.injEq] at hrun
  have hended := hdone hrun.1
  rw [hrun.2] at hended
  exact absurd hended (by decide)

end PurleyFirmware.Ras
