import PurleyFirmware.Ras.McBankErrorHandler

/-!
# A call of the bank handler, undisturbed

With no exception in between, a call of `McBankErrorHandler` comes to one of four ends: the bank
holds nothing; the error keeps the handler in the spin loop; the error is cancelled, as an I/O error
that only says a device was removed; or it is kept, and logged under its severity.
`handlesError_runBankError` and `pc_runBankError_of_spins` say so of the handler step by step.
-/

namespace PurleyFirmware.Ras

variable {P : McaPlatform} {cfg : ErrorHandlerSetup}

/-- A bank to handle and what the handler meets there. -/
structure BankError where
  /-- Whose bank it is. -/
  scope : McScope
  /-- The bank. -/
  bank : ℕ
  /-- The answers of the code outside. -/
  answer : McAnswer

namespace BankError

variable (P cfg) (e : BankError)

/-- The record the handler reads. -/
def mcErrSig : McSignatureRecord := P.readMcBankSigHook e.answer.banks e.bank

/-- The bank holds an error. -/
def Valid : Prop := (e.mcErrSig P).signature.mcSts.val = true

instance : Decidable (e.Valid P) := inferInstanceAs (Decidable (_ = _))

/-- The severity the handler finds: a recovered error counts as corrected. -/
def sev : Severity :=
  let sev := mapErrorSeverity (e.mcErrSig P).signature.mcSts
  if sev = .correctable ∧ e.answer.attemptRecovery = true then .corrected else sev

/-- The handler cancels the error. -/
def Cancelled : Prop := P.getMcBankSecType e.bank = .iio ∧ e.answer.handleIoMca = true

instance : Decidable (e.Cancelled P) := inferInstanceAs (Decidable (_ ∧ _))

/-- The handler logs the error. -/
def Kept : Prop := e.Valid P ∧ ¬ e.Cancelled P

instance : Decidable (e.Kept P) := inferInstanceAs (Decidable (_ ∧ _))

/-- The handler does not come back from the error. -/
def Spins : Prop :=
  e.Valid P ∧ mapErrorSeverity (e.mcErrSig P).signature.mcSts = .fatal ∧
    cfg.fatalErrSpinLoopEn = true

instance : Decidable (e.Spins P cfg) := inferInstanceAs (Decidable (_ ∧ _))

/-- The severities by which the handler raises `mSeverity`. A cancelled error has none. -/
def severities : List Severity :=
  if e.Valid P then [if e.Cancelled P then .none else e.sev P] else []

/-- The event log after the error. -/
def logged (eventLog : EventLog) : EventLog :=
  if e.Valid P then
    updateEventLog eventLog (decide (e.Cancelled P)) (e.sev P) ⟨e.bank, (e.mcErrSig P).apicId⟩
  else eventLog

theorem sev_ne_none : e.sev P ≠ .none := by
  rw [sev]
  split
  · exact nofun
  · exact mapErrorSeverity_ne_none _

end BankError

/-- The severities that a run of the handler has raised `mSeverity` by. -/
def loggedSeverities (trace : List McBankEvent) : List Severity :=
  trace.filterMap fun
    | .log sev _ => some sev
    | _ => none

theorem reportedSection_snd (secType : SecType) (a : McAnswer) :
    (reportedSection cfg secType a).2 = decide (secType = .iio ∧ a.handleIoMca = true) := by
  cases secType <;> simp [reportedSection]

/-- The call, without exceptions. -/
def runBankError (P : McaPlatform) (cfg : ErrorHandlerSetup) (cpu : CpuData) (e : BankError) :
    McMachine :=
  runMcBankErrorHandler P cfg e.bank (cpu.beginBank e.scope e.bank)
    (List.replicate 9 (.handler e.answer))

/-- The processor's data when the call has returned. -/
def mcBankErrorHandler (P : McaPlatform) (cfg : ErrorHandlerSetup) (cpu : CpuData)
    (e : BankError) : Option CpuData :=
  if (runBankError P cfg cpu e).pc = .done then
    some ((runBankError P cfg cpu e).cpu.endBank e.scope)
  else none


/-! ### The four ends -/

/-- The handler when it has read the bank. -/
def readMachine (P : McaPlatform) (cpu : CpuData) (e : BankError) : McMachine where
  cpu := { cpu.beginBank e.scope e.bank with smmMceSyncState := .processingState }
  pc := .dispatch
  state := .processingState
  mcErrSig := e.mcErrSig P
  sev := .none
  trace := [.read (e.mcErrSig P)]

/-- The handler when it is about to log an error. -/
def loggingMachine (P : McaPlatform) (cpu : CpuData) (e : BankError) (count : ℕ → ℕ)
    (trace : List McBankEvent) : McMachine where
  cpu := { cpu.beginBank e.scope e.bank with
    smmMceSyncState := .loggingState
    cmciMcBankErrCount := count }
  pc := .dispatch
  state := .loggingState
  mcErrSig := e.mcErrSig P
  sev := e.sev P
  trace := trace

/-- A call of the handler that returns: the log, and the severities that `mSeverity` is raised
by. -/
structure HandlesError (P : McaPlatform) (cpu : CpuData) (e : BankError) (m : McMachine) :
    Prop where
  /-- The call has returned. -/
  pc : m.pc = .done
  /-- The state word is clear. -/
  sync : m.cpu.smmMceSyncState = .clearedState
  /-- The core bank in process. -/
  core : m.cpu.coreProcessingBank = (cpu.beginBank e.scope e.bank).coreProcessingBank
  /-- The uncore bank in process. -/
  uncore : m.cpu.uncoreProcessingBank = (cpu.beginBank e.scope e.bank).uncoreProcessingBank
  /-- The event log. -/
  eventLog : m.cpu.eventLog = e.logged P (cpu.beginBank e.scope e.bank).eventLog
  /-- The severities. -/
  severities : loggedSeverities m.trace = e.severities P

section Ends

variable {cpu : CpuData} (e : BankError)

theorem foldl_read (hcpu : cpu.AtRest) :
    (List.replicate 3 (.handler e.answer)).foldl (McMachine.next P cfg e.bank)
      (.start (cpu.beginBank e.scope e.bank)) = readMachine P cpu e := by
  obtain ⟨scope, bank, a⟩ := e
  have hsync : (cpu.beginBank scope bank).smmMceSyncState = .clearedState := by
    cases scope <;> exact hcpu.sync
  simp [List.replicate, McMachine.next, McMachine.start, handlerStep, McMachine.exchange,
    dispatchCase, hsync, readMachine, BankError.mcErrSig]

/-- Nothing happens once the handler has returned. -/
theorem foldl_handler_of_done (n bank : ℕ) (a : McAnswer) {m : McMachine} (hpc : m.pc = .done) :
    (List.replicate n (.handler a)).foldl (McMachine.next P cfg bank) m = m := by
  induction n with
  | zero => rfl
  | succ n ih =>
    have hstep : m.next P cfg bank (.handler a) = m := by
      show handlerStep P cfg bank a m = m
      rw [handlerStep, hpc]
    rw [List.replicate_succ, List.foldl_cons, hstep]
    exact ih

/-- The processing case of an error that is recovered: the bank is written first. -/
theorem foldl_process_recovered (hv : e.Valid P)
    (hcorrectable : mapErrorSeverity (e.mcErrSig P).signature.mcSts = .correctable)
    (hrec : e.answer.attemptRecovery = true) :
    (List.replicate 4 (.handler e.answer)).foldl (McMachine.next P cfg e.bank)
      (readMachine P cpu e) =
        loggingMachine P cpu e (cpu.beginBank e.scope e.bank).cmciMcBankErrCount
          [.write (e.mcErrSig P), .read (e.mcErrSig P)] := by
  rw [BankError.Valid] at hv
  simp [List.replicate, McMachine.next, handlerStep, McMachine.exchange, dispatchCase,
    processingCase, readMachine, loggingMachine, BankError.sev, hv, hcorrectable, hrec]

/-- Of one that is corrected to begin with: it is counted. -/
theorem foldl_process_corrected (hv : e.Valid P)
    (hcorrected : mapErrorSeverity (e.mcErrSig P).signature.mcSts = .corrected) :
    ∃ count trace, loggedSeverities trace = [] ∧
      (List.replicate 2 (.handler e.answer)).foldl (McMachine.next P cfg e.bank)
        (readMachine P cpu e) = loggingMachine P cpu e count trace := by
  rw [BankError.Valid] at hv
  refine ⟨Function.update (cpu.beginBank e.scope e.bank).cmciMcBankErrCount e.bank
      ((cpu.beginBank e.scope e.bank).cmciMcBankErrCount e.bank + 1),
    if 20 ≤ (cpu.beginBank e.scope e.bank).cmciMcBankErrCount e.bank + 1 then
      [.disableCsmi, .read (e.mcErrSig P)] else [.read (e.mcErrSig P)], ?_, ?_⟩
  · split <;> rfl
  · simp [List.replicate, McMachine.next, handlerStep, McMachine.exchange, dispatchCase,
      processingCase, readMachine, loggingMachine, BankError.sev, hv, hcorrected]

/-- Of any other that does not keep the handler. -/
theorem foldl_process_other (hv : e.Valid P) (hspins : ¬ e.Spins P cfg)
    (hcorrected : mapErrorSeverity (e.mcErrSig P).signature.mcSts ≠ .corrected)
    (hrec : ¬ (mapErrorSeverity (e.mcErrSig P).signature.mcSts = .correctable ∧
      e.answer.attemptRecovery = true)) :
    (List.replicate 2 (.handler e.answer)).foldl (McMachine.next P cfg e.bank)
      (readMachine P cpu e) =
        loggingMachine P cpu e (cpu.beginBank e.scope e.bank).cmciMcBankErrCount
          [.read (e.mcErrSig P)] := by
  have hspin : ¬ (mapErrorSeverity (e.mcErrSig P).signature.mcSts = .fatal ∧
      cfg.fatalErrSpinLoopEn = true) := fun h ↦ hspins ⟨hv, h⟩
  rw [BankError.Valid] at hv
  simp only [List.replicate, List.foldl_cons, List.foldl_nil, McMachine.next, handlerStep,
    dispatchCase, processingCase, readMachine, loggingMachine, BankError.sev, hv, hspin, hrec,
    hcorrected, McMachine.exchange]
  simp

/-- The processing case leads a valid error to the logging case, unless it keeps the handler. -/
theorem foldl_process (cpu : CpuData) (hv : e.Valid P) (hspins : ¬ e.Spins P cfg) :
    ∃ k ≤ 4, ∃ count trace, loggedSeverities trace = [] ∧
      (List.replicate k (.handler e.answer)).foldl (McMachine.next P cfg e.bank)
        (readMachine P cpu e) = loggingMachine P cpu e count trace := by
  by_cases hcorrected : mapErrorSeverity (e.mcErrSig P).signature.mcSts = .corrected
  · exact ⟨2, by omega, foldl_process_corrected e hv hcorrected⟩
  · by_cases hrec : mapErrorSeverity (e.mcErrSig P).signature.mcSts = .correctable ∧
        e.answer.attemptRecovery = true
    · exact ⟨4, le_rfl, _, _, rfl, foldl_process_recovered e hv hrec.1 hrec.2⟩
    · exact ⟨2, by omega, _, _, rfl, foldl_process_other e hv hspins hcorrected hrec⟩

/-- The logging case ends the call. -/
theorem foldl_log (hv : e.Valid P) (count : ℕ → ℕ) (trace : List McBankEvent)
    (htrace : loggedSeverities trace = []) :
    HandlesError P cpu e ((List.replicate 2 (.handler e.answer)).foldl
      (McMachine.next P cfg e.bank) (loggingMachine P cpu e count trace)) := by
  have hlogged : e.logged P (cpu.beginBank e.scope e.bank).eventLog =
      updateEventLog (cpu.beginBank e.scope e.bank).eventLog (decide (e.Cancelled P)) (e.sev P)
        ⟨e.bank, (e.mcErrSig P).apicId⟩ := if_pos hv
  have hseverities : e.severities P = [if e.Cancelled P then .none else e.sev P] := if_pos hv
  have hcancel : decide (e.Cancelled P) =
      (reportedSection cfg (P.getMcBankSecType e.bank) e.answer).2 :=
    (reportedSection_snd _ _).symm
  simp only [List.replicate, List.foldl_cons, List.foldl_nil, McMachine.next, handlerStep,
    dispatchCase, loggingCase, loggingMachine, McMachine.exchange]
  refine ⟨rfl, rfl, rfl, rfl, ?_, ?_⟩
  · rw [hlogged, hcancel]
    rfl
  rw [hseverities]
  have hiff : (reportedSection cfg (P.getMcBankSecType e.bank) e.answer).2 = true ↔
      e.Cancelled P := by
    rw [← hcancel, decide_eq_true_iff]
  rw [← if_congr hiff rfl rfl]
  obtain ⟨reported, cancelMce⟩ := reportedSection cfg (P.getMcBankSecType e.bank) e.answer
  cases reported with
  | some section_ => exact congrArg (List.cons _) htrace
  | none =>
    cases cancelMce with
    | true => exact congrArg (List.cons _) htrace
    | false => exact congrArg (List.cons _) htrace

/-- A bank that holds nothing is left at once. -/
theorem foldl_notValid (hv : ¬ e.Valid P) :
    (List.replicate 2 (.handler e.answer)).foldl (McMachine.next P cfg e.bank)
      (readMachine P cpu e) = { readMachine P cpu e with
        cpu := { cpu.beginBank e.scope e.bank with smmMceSyncState := .clearedState }
        state := .clearedState
        pc := .done } := by
  rw [BankError.Valid, Bool.not_eq_true] at hv
  simp [List.replicate, McMachine.next, handlerStep, McMachine.exchange, dispatchCase,
    processingCase, readMachine, hv]

/-- An error that keeps the handler. -/
theorem foldl_spins (hspins : e.Spins P cfg) :
    (List.replicate 6 (.handler e.answer)).foldl (McMachine.next P cfg e.bank)
      (readMachine P cpu e) = { readMachine P cpu e with pc := .deadLoop } := by
  obtain ⟨hv, hspin⟩ := hspins
  rw [BankError.Valid] at hv
  simp [List.replicate, McMachine.next, handlerStep, dispatchCase, processingCase, readMachine, hv,
    hspin]

end Ends

/-- **An undisturbed call that does not stay in the spin loop.** -/
theorem handlesError_runBankError {cpu : CpuData} (hcpu : cpu.AtRest) (e : BankError)
    (hspins : ¬ e.Spins P cfg) : HandlesError P cpu e (runBankError P cfg cpu e) := by
  have hread : (List.replicate 3 (.handler e.answer)).foldl (McMachine.next P cfg e.bank)
      (.start (cpu.beginBank e.scope e.bank)) = readMachine P cpu e := foldl_read e hcpu
  by_cases hv : e.Valid P
  · obtain ⟨k, hk, count, trace, htrace, hprocess⟩ := foldl_process e cpu hv hspins
    have hsplit : 9 = 3 + (k + (2 + (4 - k))) := by omega
    have hlog : HandlesError P cpu e ((List.replicate 2 (.handler e.answer)).foldl
        (McMachine.next P cfg e.bank) (loggingMachine P cpu e count trace)) :=
      foldl_log e hv count trace htrace
    rw [runBankError, runMcBankErrorHandler, hsplit, List.replicate_add, List.replicate_add,
      List.replicate_add, List.foldl_append, List.foldl_append, List.foldl_append, hread, hprocess,
      foldl_handler_of_done _ _ _ hlog.pc]
    exact hlog
  · rw [runBankError, runMcBankErrorHandler, show 9 = 3 + (2 + 4) from rfl, List.replicate_add,
      List.replicate_add, List.foldl_append, List.foldl_append, hread, foldl_notValid e hv,
      foldl_handler_of_done _ _ _ rfl]
    have hlogged : e.logged P (cpu.beginBank e.scope e.bank).eventLog =
        (cpu.beginBank e.scope e.bank).eventLog := if_neg hv
    have hseverities : e.severities P = [] := if_neg hv
    exact ⟨rfl, rfl, rfl, rfl, hlogged.symm, hseverities.symm⟩

/-- **And one that does.** -/
theorem pc_runBankError_of_spins {cpu : CpuData} (hcpu : cpu.AtRest) (e : BankError)
    (hspins : e.Spins P cfg) : (runBankError P cfg cpu e).pc = .deadLoop := by
  rw [runBankError, runMcBankErrorHandler, show 9 = 3 + 6 from rfl, List.replicate_add,
    List.foldl_append, foldl_read e hcpu, foldl_spins e hspins]

/-- **The call returns** exactly when the error does not keep the handler, with the processor at
rest and the log updated. -/
theorem mcBankErrorHandler_eq_some {cpu cpu' : CpuData} (hcpu : cpu.AtRest) {e : BankError}
    (h : mcBankErrorHandler P cfg cpu e = some cpu') :
    ¬ e.Spins P cfg ∧ cpu'.AtRest ∧ cpu'.eventLog = e.logged P cpu.eventLog := by
  rw [mcBankErrorHandler] at h
  by_cases hpc : (runBankError P cfg cpu e).pc = .done
  · have hspins : ¬ e.Spins P cfg := by
      intro hspins
      rw [pc_runBankError_of_spins hcpu e hspins] at hpc
      cases hpc
    rw [if_pos hpc] at h
    have hm : HandlesError P cpu e (runBankError P cfg cpu e) :=
      handlesError_runBankError hcpu e hspins
    obtain rfl := Option.some.inj h
    obtain ⟨scope, bank, a⟩ := e
    cases scope with
    | core => exact ⟨hspins, ⟨hm.sync, rfl, hm.uncore.trans hcpu.uncore⟩, hm.eventLog⟩
    | uncore => exact ⟨hspins, ⟨hm.sync, hm.core.trans hcpu.core, rfl⟩, hm.eventLog⟩
  · rw [if_neg hpc] at h
    cases h

theorem mcBankErrorHandler_isSome {cpu : CpuData} (hcpu : cpu.AtRest) {e : BankError}
    (hspins : ¬ e.Spins P cfg) : ∃ cpu', mcBankErrorHandler P cfg cpu e = some cpu' :=
  ⟨_, if_pos (handlesError_runBankError hcpu e hspins).pc⟩

end PurleyFirmware.Ras
