import Mathlib.Logic.Function.Basic
import PurleyFirmware.Ras.McBank

/-!
# The machine-check bank handler and its exception

`McBankErrorHandler` works on one bank through a **state word** that it moves on with
compare-exchange, and `SmiMcaHandler`, the machine-check exception, may come between any two steps
of it on the same processor. The exception talks to the handler through the state word only, which
it changes by plain stores.

The handler is a machine whose steps are its atomic operations: what one case of its loop does, and
the compare-exchange that ends the case. An exception is one step. Both may see any content of the
banks, and what the code outside answers to the handler is part of the step, so that a list of
`McLabel` is one placement of exceptions with everything that happens on it.

Two things are kept outside. `mSeverity` is shared by all processors; a `McBankEvent.log` tells what
the handler adds to it. A failed assertion does not stop the model: the source's release build goes
on.
-/

namespace PurleyFirmware.Ras

/-! ### Data -/

/-- The values of `SmmMceSyncState`. -/
inductive SmmMceState
  | clearedState
  | readingState
  | processingState
  | writingState
  | loggingState
  | readingInterrupted
  | processingInterrupted
  | writingInterrupted
  deriving DecidableEq, Repr

/-- The states of the error handler as a whole. -/
inductive EmcaHandlerState
  | notStartedState
  | inProgressState
  | interruptedState
  | finishedState
  deriving DecidableEq, Repr

/-- `SEVERITY_MAP_*`: the bits of `SeverityMap`, each with its entry in the log. -/
inductive SeverityMapBit
  | fatal
  | recoverable
  | corrected
  deriving DecidableEq, Repr

/-- The bit of a severity. -/
def severityMapBit : Severity → Option SeverityMapBit
  | .fatal => some .fatal
  | .correctable => some .recoverable
  | .corrected => some .corrected
  | .none => none

/-- An entry of the log. -/
structure ErrorLocation where
  /-- The bank. -/
  bankIdx : ℕ
  /-- The processor. -/
  apicId : BitVec 32
  deriving DecidableEq

/-- The event log of a processor. -/
structure EventLog where
  /-- Some error is logged. -/
  errorsFound : Bool
  /-- The severities that are logged. -/
  severityMap : SeverityMapBit → Bool
  /-- Some machine-check bank error is logged. -/
  errorFound : Bool
  /-- The last error of each severity. -/
  log : SeverityMapBit → ErrorLocation

/-- The data of a processor. -/
structure CpuData where
  /-- The state word. -/
  smmMceSyncState : SmmMceState
  /-- The core bank in process. -/
  coreProcessingBank : BitVec 64
  /-- The uncore bank in process. -/
  uncoreProcessingBank : BitVec 64
  /-- Corrected errors of each bank so far. -/
  cmciMcBankErrCount : ℕ → ℕ
  /-- The event log. -/
  eventLog : EventLog
  /-- A machine check is in progress outside. -/
  mcip : Bool
  /-- A local machine check is pending. -/
  lmce : Bool

/-- The setup options and capabilities the handlers read. -/
structure ErrorHandlerSetup where
  /-- `FatalErrSpinLoopEn`. -/
  fatalErrSpinLoopEn : Bool
  /-- `PoisonEn`. -/
  poisonEn : Bool
  /-- `EmcaGen2Cap`. -/
  emcaGen2Cap : Bool
  /-- `EmcaMsmiEn`. -/
  emcaMsmiEn : BitVec 8
  /-- `EmcaCsmiEn`. -/
  emcaCsmiEn : BitVec 8

/-- What `GetMcBankSecType` tells about a bank. -/
inductive SecType
  | platMem
  | procGen
  | procIa32
  | iio
  | other
  deriving DecidableEq

/-- The kinds of error record. -/
inductive ErrorSection
  | memory
  | processor
  deriving DecidableEq

/-- What `GetMceClass` tells about a status register. -/
inductive MceClass
  | invalid
  | corrected
  | ucna
  | srao
  | srar
  | due
  | fatal
  deriving DecidableEq

/-- The functions outside this code. -/
structure McaPlatform where
  /-- `ReadMcBankSigHook`. -/
  readMcBankSigHook : McBanks → ℕ → McSignatureRecord
  /-- `GetMceClass`. -/
  getMceClass : MciStatus → MceClass
  /-- The address of an error lies in SMRAM. -/
  mcAddressInSmram : McBankSignature → Bool
  /-- `GetMcBankSecType`. -/
  getMcBankSecType : ℕ → SecType

/-- What the functions outside are relied on for. -/
structure McaPlatform.Documented (P : McaPlatform) : Prop where
  /-- The hook reads the status register of the bank. -/
  reads_mcSts : ∀ banks bank, (P.readMcBankSigHook banks bank).signature.mcSts = (banks bank).mcSts
  /-- An uncorrected error with a corrupt context is fatal. -/
  fatal_of_pcc : ∀ mcSts : MciStatus, mcSts.pcc = true → mcSts.uc = true → mcSts.val = true →
    P.getMceClass mcSts = .fatal

/-! ### The exception -/

/-- What an exception meets. -/
structure McException where
  /-- `MCG_STATUS.MCIP`. -/
  mcip : Bool
  /-- `MCG_STATUS.RIPV`. -/
  ripv : Bool
  /-- Uncore banks that signal. -/
  uncoreSmiSrc : BitVec 64
  /-- Core banks that signal. -/
  coreSmiSrc : BitVec 64
  /-- The banks. -/
  banks : McBanks

/-- The status register written to a bank that is hit while the handler writes it. -/
def MciStatus.makeFatal (mcSts : MciStatus) : MciStatus :=
  { mcSts with uc := true, val := true, pcc := true, overflow := true, firmwareUpdated := true }

/-- Tell the handler that the bank it works on has a new error. -/
def detectHandleMcBankContention (cpu : CpuData) (banks : McBanks)
    (smiSrc processingBank : BitVec 64) : CpuData × McBanks :=
  if smiSrc &&& processingBank = 0#64 then (cpu, banks)
  else
    match cpu.smmMceSyncState with
    | .readingState => ({ cpu with smmMceSyncState := .readingInterrupted }, banks)
    | .processingState => ({ cpu with smmMceSyncState := .processingInterrupted }, banks)
    | .writingState =>
      let mcBank := findFirstSet processingBank
      ({ cpu with smmMceSyncState := .writingInterrupted },
        Function.update banks mcBank
          { banks mcBank with mcSts := (banks mcBank).mcSts.makeFatal })
    | _ => (cpu, banks)

/-- It is not safe to return to the SMM handler. -/
def detectSmmErrorContention (P : McaPlatform) (mcSig : McSignatureRecord) : Bool :=
  if mcSig.signature.mcSts.addrv && mcSig.signature.mcSts.miscv then
    P.mcAddressInSmram mcSig.signature
  else true

/-- The error of a bank calls for `MceShutdown`. -/
def needsShutdown (P : McaPlatform) (mcSig : McSignatureRecord) : Bool :=
  match P.getMceClass mcSig.signature.mcSts with
  | .srar => detectSmmErrorContention P mcSig
  | .due => true
  | .fatal => true
  | _ => false

/-- Process the banks that signal. `none` when the exception does not return. -/
def mcaProcessErrors (P : McaPlatform) (emcaState : EmcaHandlerState) (cpu : CpuData)
    (banks : McBanks) (smiSrc processingBank : BitVec 64) : Option (CpuData × McBanks) :=
  match emcaState with
  | .notStartedState => some (cpu, banks)
  | .inProgressState =>
    let r := detectHandleMcBankContention cpu banks smiSrc processingBank
    if (setBits smiSrc).any fun b ↦ needsShutdown P (P.readMcBankSigHook r.2 b) then none
    else some r
  | _ =>
    if (setBits smiSrc).any fun b ↦ needsShutdown P (P.readMcBankSigHook banks b) then none
    else some (cpu, banks)

/-- The machine-check exception: uncore banks, then core banks. -/
def smiMcaHandler (P : McaPlatform) (emcaState : EmcaHandlerState) (cpu : CpuData)
    (e : McException) : Option CpuData :=
  if !e.mcip || !e.ripv then none
  else
    (mcaProcessErrors P emcaState cpu e.banks e.uncoreSmiSrc cpu.uncoreProcessingBank).bind fun r ↦
      (mcaProcessErrors P emcaState r.1 r.2 e.coreSmiSrc r.1.coreProcessingBank).map Prod.fst

/-! ### The handler -/

/-- What the code outside answers during a step of the handler. -/
structure McAnswer where
  /-- The banks. -/
  banks : McBanks
  /-- `AttemptRecovery` succeeds. -/
  attemptRecovery : Bool
  /-- `FillPlatformMemorySection` succeeds. -/
  fillPlatformMemorySection : Bool
  /-- `HandleIoMca` succeeds. -/
  handleIoMca : Bool

/-- What can be seen of a run from outside. -/
inductive McBankEvent
  /-- `ReadMcBankSigHook` has read a bank. -/
  | read (mcErrSig : McSignatureRecord)
  /-- `DisableCSMIAtMcBank`. -/
  | disableCsmi
  /-- `WriteMcBank`. -/
  | write (mcErrSig : McSignatureRecord)
  /-- `McaClearStatus` and `ClearMcBank (6)`. -/
  | clearIoMca
  /-- `LogReportedError`. -/
  | report (section_ : ErrorSection) (mcErrSig : McSignatureRecord)
  /-- The event log is updated, and `mSeverity` is raised to `sev`. -/
  | log (sev : Severity) (mcErrSig : McSignatureRecord)
  /-- The case that asserts. -/
  | writingInterruptedCase
  /-- An exception finds an error in the bank in process. -/
  | mce (smmMceSyncState : SmmMceState)
  deriving DecidableEq

/-- Where the handler is. -/
inductive HandlerPc
  /-- Before the first compare-exchange. -/
  | enter
  /-- At the head of the loop. -/
  | dispatch
  /-- Before the compare-exchange that ends a case. -/
  | exchange (expected desired : SmmMceState)
  /-- The handler has returned. -/
  | done
  /-- In the spin loop for fatal errors. -/
  | deadLoop
  /-- In an exception that does not return. -/
  | shutdown
  deriving DecidableEq

/-- The handler at work. -/
structure McMachine where
  /-- The processor's data. -/
  cpu : CpuData
  /-- The next step. -/
  pc : HandlerPc
  /-- `State`. -/
  state : SmmMceState
  /-- `McErrSig`. -/
  mcErrSig : McSignatureRecord
  /-- `Sev`. -/
  sev : Severity
  /-- What has happened, the latest first. -/
  trace : List McBankEvent

/-- The error record that is reported, if any, and whether the machine check is cancelled. -/
def reportedSection (cfg : ErrorHandlerSetup) (secType : SecType) (a : McAnswer) :
    Option ErrorSection × Bool :=
  match secType with
  | .platMem => (if a.fillPlatformMemorySection then some .memory else none, false)
  | .procGen => (some .processor, false)
  | .procIa32 =>
    (if cfg.poisonEn && a.fillPlatformMemorySection then some .memory else some .processor, false)
  | .iio => (none, a.handleIoMca)
  | .other => (none, false)

/-- Update the event log. -/
def updateEventLog (eventLog : EventLog) (cancelMce : Bool) (sev : Severity)
    (location : ErrorLocation) : EventLog :=
  if cancelMce then { eventLog with errorsFound := false }
  else
    match severityMapBit sev with
    | none => { eventLog with errorsFound := true }
    | some b =>
      { errorsFound := true
        severityMap := Function.update eventLog.severityMap b true
        errorFound := true
        log := Function.update eventLog.log b location }

/-- The compare-exchange that ends a case, and the test at the end of the loop. -/
def McMachine.exchange (m : McMachine) (expected desired : SmmMceState) : McMachine :=
  let prevState := m.cpu.smmMceSyncState
  if prevState = expected then
    { m with
      cpu := { m.cpu with smmMceSyncState := desired }
      state := desired
      pc := if desired = .clearedState then .done else .dispatch }
  else { m with state := prevState, pc := if prevState = .clearedState then .done else .dispatch }

/-- The processing case. -/
def processingCase (cfg : ErrorHandlerSetup) (bank : ℕ) (a : McAnswer) (m : McMachine) :
    McMachine :=
  let mcSts := m.mcErrSig.signature.mcSts
  if !mcSts.val then { m with pc := .exchange .processingState .clearedState }
  else if mapErrorSeverity mcSts = .fatal ∧ cfg.fatalErrSpinLoopEn = true then
    { m with pc := .deadLoop }
  else if mapErrorSeverity mcSts = .correctable ∧ a.attemptRecovery = true then
    { m with sev := .corrected, pc := .exchange .processingState .writingState }
  else if mapErrorSeverity mcSts = .corrected then
    let count := m.cpu.cmciMcBankErrCount bank + 1
    { m with
      sev := .corrected
      cpu := { m.cpu with
        cmciMcBankErrCount := Function.update m.cpu.cmciMcBankErrCount bank count }
      trace := if 20 ≤ count then .disableCsmi :: m.trace else m.trace
      pc := .exchange .processingState .loggingState }
  else
    { m with sev := mapErrorSeverity mcSts, pc := .exchange .processingState .loggingState }

/-- The logging case. -/
def loggingCase (P : McaPlatform) (cfg : ErrorHandlerSetup) (bank : ℕ) (a : McAnswer)
    (m : McMachine) : McMachine :=
  let r := reportedSection cfg (P.getMcBankSecType bank) a
  let reported := match r.1 with
    | some section_ => .report section_ m.mcErrSig :: m.trace
    | none => if r.2 then .clearIoMca :: m.trace else m.trace
  let sev := if r.2 then .none else m.sev
  { m with
    cpu := { m.cpu with
      eventLog := updateEventLog m.cpu.eventLog r.2 m.sev ⟨bank, m.mcErrSig.apicId⟩ }
    sev := sev
    trace := .log sev m.mcErrSig :: reported
    pc := .exchange .loggingState .clearedState }

/-- One case of the loop, up to its compare-exchange. -/
def dispatchCase (P : McaPlatform) (cfg : ErrorHandlerSetup) (bank : ℕ) (a : McAnswer)
    (m : McMachine) : McMachine :=
  match m.state with
  | .readingState =>
    let mcErrSig := P.readMcBankSigHook a.banks bank
    { m with
      mcErrSig := mcErrSig
      trace := .read mcErrSig :: m.trace
      pc := .exchange .readingState .processingState }
  | .processingState => processingCase cfg bank a m
  | .writingState =>
    { m with trace := .write m.mcErrSig :: m.trace, pc := .exchange .writingState .loggingState }
  | .loggingState => loggingCase P cfg bank a m
  | .readingInterrupted => { m with pc := .exchange .readingInterrupted .clearedState }
  | .processingInterrupted => { m with pc := .exchange .processingInterrupted .clearedState }
  | .clearedState => { m with pc := .done }
  | .writingInterrupted => { m with trace := .writingInterruptedCase :: m.trace }

/-- One step of the handler. -/
def handlerStep (P : McaPlatform) (cfg : ErrorHandlerSetup) (bank : ℕ) (a : McAnswer)
    (m : McMachine) : McMachine :=
  match m.pc with
  | .enter => { m.exchange .clearedState .readingState with pc := .dispatch }
  | .dispatch => dispatchCase P cfg bank a m
  | .exchange expected desired => m.exchange expected desired
  | _ => m

/-- The handler has not stopped. -/
def McMachine.Running (m : McMachine) : Prop :=
  m.pc ≠ .done ∧ m.pc ≠ .deadLoop ∧ m.pc ≠ .shutdown

instance (m : McMachine) : Decidable m.Running := inferInstanceAs (Decidable (_ ∧ _))

/-- The exception finds an error in the bank in process. -/
def McException.Hits (e : McException) (cpu : CpuData) : Prop :=
  e.uncoreSmiSrc &&& cpu.uncoreProcessingBank ≠ 0#64 ∨
    e.coreSmiSrc &&& cpu.coreProcessingBank ≠ 0#64

instance (e : McException) (cpu : CpuData) : Decidable (e.Hits cpu) :=
  inferInstanceAs (Decidable (_ ∨ _))

/-- An exception between two steps of the handler, which runs in progress only. -/
def mceStep (P : McaPlatform) (e : McException) (m : McMachine) : McMachine :=
  if m.Running then
    let trace := if e.Hits m.cpu then .mce m.cpu.smmMceSyncState :: m.trace else m.trace
    match smiMcaHandler P .inProgressState m.cpu e with
    | none => { m with trace := trace, pc := .shutdown }
    | some cpu => { m with trace := trace, cpu := cpu }
  else m

/-- What happens next. -/
inductive McLabel
  /-- The handler takes a step. -/
  | handler (a : McAnswer)
  /-- An exception comes. -/
  | mce (e : McException)

/-- What happens next, done. -/
def McMachine.next (P : McaPlatform) (cfg : ErrorHandlerSetup) (bank : ℕ) (m : McMachine) :
    McLabel → McMachine
  | .handler a => handlerStep P cfg bank a m
  | .mce e => mceStep P e m

/-- The handler at its entry. -/
def McMachine.start (cpu : CpuData) : McMachine := ⟨cpu, .enter, .clearedState, .zero, .none, []⟩

/-- A call of the handler with everything that happens on it. -/
def runMcBankErrorHandler (P : McaPlatform) (cfg : ErrorHandlerSetup) (bank : ℕ) (cpu : CpuData)
    (labels : List McLabel) : McMachine :=
  labels.foldl (McMachine.next P cfg bank) (.start cpu)

/-! ### The callers -/

/-- `ProcessCoreMcBankError` and `ProcessUncoreMcBankError` differ in the word for the bank in
process. -/
inductive McScope
  | core
  | uncore
  deriving DecidableEq

/-- A processor between two banks: as the callers set it up, and as they leave it. -/
structure CpuData.AtRest (cpu : CpuData) : Prop where
  /-- The state word. -/
  sync : cpu.smmMceSyncState = .clearedState
  /-- No core bank is in process. -/
  core : cpu.coreProcessingBank = 0#64
  /-- No uncore bank is in process. -/
  uncore : cpu.uncoreProcessingBank = 0#64

/-- Name the bank in process before the handler is called. -/
def CpuData.beginBank (cpu : CpuData) (scope : McScope) (bank : ℕ) : CpuData :=
  match scope with
  | .core => { cpu with coreProcessingBank := 1#64 <<< bank }
  | .uncore => { cpu with uncoreProcessingBank := 1#64 <<< bank }

/-- Take the name back when the handler has returned. -/
def CpuData.endBank (cpu : CpuData) (scope : McScope) : CpuData :=
  match scope with
  | .core => { cpu with coreProcessingBank := 0#64 }
  | .uncore => { cpu with uncoreProcessingBank := 0#64 }

end PurleyFirmware.Ras
