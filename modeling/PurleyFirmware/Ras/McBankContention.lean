import PurleyFirmware.Ras.McBankErrorHandler

/-!
# Nested machine checks

An exception that finds a new error in the bank in process makes the handler give the bank up, and
it does so in time: a signature read before the exception is neither written back nor logged. What
carries this is one invariant of the handler and its state word. The handler's own `State` and the
word agree, except that an exception may have moved the word from reading or processing to the
interrupted twin of either; and while the word is not interrupted, nothing read so far is stale.

There is no such twin for writing in practice. An exception that hits the bank while it is being
written makes its error fatal, and then finds the fatal error itself and does not return.

The handler's loop ends within nine steps of its own, however many exceptions come between them,
with one exception that is meant: a fatal error under the setup option for a spin loop.
-/

namespace PurleyFirmware.Ras

variable {P : McaPlatform} {cfg : ErrorHandlerSetup} {bank : ℕ}

/-! ### Stale signatures -/

/-- The states in which a new error in the bank in process makes its signature stale. -/
def SmmMceState.Stales (s : SmmMceState) : Prop := s = .readingState ∨ s = .processingState

instance (s : SmmMceState) : Decidable s.Stales := inferInstanceAs (Decidable (_ ∨ _))

/-- A signature has been read, and after that the bank in process was hit. -/
def Stale (trace : List McBankEvent) : Prop :=
  ∃ mcErrSig s, s.Stales ∧ [.mce s, .read mcErrSig].Sublist trace

/-- Uses of a signature: it is written back, reported or logged. -/
def McBankEvent.Uses : McBankEvent → Prop
  | .write _ => True
  | .report _ _ => True
  | .log _ _ => True
  | _ => False

/-- No signature is used after the bank in process was hit. -/
def NoStaleUse (trace : List McBankEvent) : Prop :=
  ∀ mcErrSig s (e : McBankEvent), s.Stales → e.Uses →
    ¬ [e, .mce s, .read mcErrSig].Sublist trace

theorem stale_cons_iff {e : McBankEvent} {trace : List McBankEvent} :
    Stale (e :: trace) ↔
      Stale trace ∨ ∃ mcErrSig s, s.Stales ∧ e = .mce s ∧ .read mcErrSig ∈ trace := by
  constructor
  · rintro ⟨mcErrSig, s, hs, hsub⟩
    rw [List.sublist_cons_iff] at hsub
    obtain hsub | ⟨r, hr, hsub⟩ := hsub
    · exact Or.inl ⟨mcErrSig, s, hs, hsub⟩
    · obtain ⟨rfl, rfl⟩ := List.cons.inj hr
      exact Or.inr ⟨mcErrSig, s, hs, rfl, List.singleton_sublist.1 hsub⟩
  · rintro (⟨mcErrSig, s, hs, hsub⟩ | ⟨mcErrSig, s, hs, rfl, hread⟩)
    · exact ⟨mcErrSig, s, hs, hsub.cons _⟩
    · exact ⟨mcErrSig, s, hs, (List.singleton_sublist.2 hread).cons_cons _⟩

/-- Only an exception makes a signature stale. -/
theorem stale_cons_of_ne {e : McBankEvent} (he : ∀ s, e ≠ .mce s) {trace : List McBankEvent} :
    Stale (e :: trace) ↔ Stale trace := by
  rw [stale_cons_iff]
  refine ⟨fun h ↦ h.resolve_right ?_, Or.inl⟩
  rintro ⟨-, s, -, heq, -⟩
  exact he s heq

theorem noStaleUse_nil : NoStaleUse [] := by
  intro mcErrSig s e _ _ hsub
  cases hsub

/-- What is not a use may happen at any time, and a use while nothing is stale. -/
theorem NoStaleUse.cons {e : McBankEvent} {trace : List McBankEvent} (h : NoStaleUse trace)
    (he : e.Uses → ¬ Stale trace) : NoStaleUse (e :: trace) := by
  intro mcErrSig s e' hs he' hsub
  rw [List.sublist_cons_iff] at hsub
  obtain hsub | ⟨r, hr, hsub⟩ := hsub
  · exact h mcErrSig s e' hs he' hsub
  · obtain ⟨rfl, rfl⟩ := List.cons.inj hr
    exact he he' ⟨mcErrSig, s, hs, hsub⟩

theorem stale_append_iff {events trace : List McBankEvent}
    (h : ∀ e ∈ events, ∀ s, e ≠ .mce s) : Stale (events ++ trace) ↔ Stale trace := by
  induction events with
  | nil => exact Iff.rfl
  | cons e events ih =>
    rw [List.cons_append, stale_cons_of_ne (h e List.mem_cons_self)]
    exact ih fun e' he' ↦ h e' (List.mem_cons_of_mem _ he')

theorem NoStaleUse.append {events trace : List McBankEvent} (h : NoStaleUse trace)
    (hmce : ∀ e ∈ events, ∀ s, e ≠ .mce s) (huse : ∀ e ∈ events, e.Uses → ¬ Stale trace) :
    NoStaleUse (events ++ trace) := by
  induction events with
  | nil => exact h
  | cons e events ih =>
    have hmce' : ∀ e ∈ events, ∀ s, e ≠ .mce s := fun e' he' ↦ hmce e' (List.mem_cons_of_mem _ he')
    refine (ih hmce' fun e' he' ↦ huse e' (List.mem_cons_of_mem _ he')).cons fun he ↦ ?_
    rw [stale_append_iff hmce']
    exact huse e List.mem_cons_self he

/-! ### One exception -/

/-- What a hit makes of the state word, if the exception returns. -/
def SmmMceState.interrupted : SmmMceState → SmmMceState
  | .readingState => .readingInterrupted
  | .processingState => .processingInterrupted
  | s => s

theorem SmmMceState.interrupted_interrupted (s : SmmMceState) :
    s.interrupted.interrupted = s.interrupted := by
  cases s <;> rfl

/-- A hit, on the processor's data. -/
def CpuData.interrupt (cpu : CpuData) : CpuData :=
  { cpu with smmMceSyncState := cpu.smmMceSyncState.interrupted }

@[simp] theorem CpuData.interrupt_smmMceSyncState (cpu : CpuData) :
    cpu.interrupt.smmMceSyncState = cpu.smmMceSyncState.interrupted := rfl

@[simp] theorem CpuData.interrupt_coreProcessingBank (cpu : CpuData) :
    cpu.interrupt.coreProcessingBank = cpu.coreProcessingBank := rfl

@[simp] theorem CpuData.interrupt_uncoreProcessingBank (cpu : CpuData) :
    cpu.interrupt.uncoreProcessingBank = cpu.uncoreProcessingBank := rfl

@[simp] theorem CpuData.interrupt_eventLog (cpu : CpuData) :
    cpu.interrupt.eventLog = cpu.eventLog := rfl

/-- The second hit changes nothing. -/
theorem CpuData.interrupt_interrupt (cpu : CpuData) : cpu.interrupt.interrupt = cpu.interrupt := by
  rw [CpuData.interrupt, CpuData.interrupt, SmmMceState.interrupted_interrupted]

section Contention

variable {cpu cpu' : CpuData} {banks banks' : McBanks} {smiSrc processingBank : BitVec 64}

/-- **A bank that is hit while it is written becomes fatal.** -/
theorem getMceClass_detectHandleMcBankContention (banks : McBanks) (hP : P.Documented)
    (hsync : cpu.smmMceSyncState = .writingState) (hhit : smiSrc &&& processingBank ≠ 0#64) :
    P.getMceClass ((detectHandleMcBankContention cpu banks smiSrc processingBank).2
      (findFirstSet processingBank)).mcSts = .fatal := by
  rw [detectHandleMcBankContention, if_neg hhit, hsync]
  show P.getMceClass (Function.update banks (findFirstSet processingBank) _
    (findFirstSet processingBank)).mcSts = .fatal
  rw [Function.update_self]
  exact hP.fatal_of_pcc _ rfl rfl rfl

/-- So the exception does not return. -/
theorem mcaProcessErrors_writingState (hP : P.Documented) (hone : AtMostOneBank processingBank)
    (hsync : cpu.smmMceSyncState = .writingState) (hhit : smiSrc &&& processingBank ≠ 0#64) :
    mcaProcessErrors P .inProgressState cpu banks smiSrc processingBank = none := by
  rw [mcaProcessErrors]
  refine if_pos (List.any_eq_true.2 ⟨findFirstSet processingBank, ?_, ?_⟩)
  · exact mem_setBits.2 (hone.getLsbD_findFirstSet hhit)
  · rw [needsShutdown, hP.reads_mcSts,
      getMceClass_detectHandleMcBankContention banks hP hsync hhit]

/-- Otherwise the state word is all that changes for the processor. -/
theorem detectHandleMcBankContention_fst
    (hne : smiSrc &&& processingBank ≠ 0#64 → cpu.smmMceSyncState ≠ .writingState) :
    (detectHandleMcBankContention cpu banks smiSrc processingBank).1 =
      if smiSrc &&& processingBank = 0#64 then cpu else cpu.interrupt := by
  rw [detectHandleMcBankContention]
  by_cases hhit : smiSrc &&& processingBank = 0#64
  · rw [if_pos hhit, if_pos hhit]
  · have hsync := hne hhit
    rw [if_neg hhit, if_neg hhit]
    obtain ⟨sync, _, _, _, _, _, _⟩ := cpu
    cases sync <;> first | rfl | exact absurd rfl hsync

/-- If the exception returns, it has changed the state word and nothing else. -/
theorem eq_of_mcaProcessErrors (hP : P.Documented) (hone : AtMostOneBank processingBank)
    (h : mcaProcessErrors P .inProgressState cpu banks smiSrc processingBank =
      some (cpu', banks')) :
    (smiSrc &&& processingBank ≠ 0#64 → cpu.smmMceSyncState ≠ .writingState) ∧
      cpu' = if smiSrc &&& processingBank = 0#64 then cpu else cpu.interrupt := by
  have hne : smiSrc &&& processingBank ≠ 0#64 → cpu.smmMceSyncState ≠ .writingState := by
    intro hhit hsync
    rw [mcaProcessErrors_writingState hP hone hsync hhit] at h
    cases h
  refine ⟨hne, ?_⟩
  rw [mcaProcessErrors] at h
  split at h
  · cases h
  · have hfst := congrArg Prod.fst (Option.some.inj h)
    rw [detectHandleMcBankContention_fst hne] at hfst
    exact hfst.symm

end Contention

/-- The processor's data after an exception that returns. -/
theorem eq_of_smiMcaHandler (hP : P.Documented) {cpu cpu' : CpuData} {e : McException}
    (hcore : AtMostOneBank cpu.coreProcessingBank)
    (huncore : AtMostOneBank cpu.uncoreProcessingBank)
    (h : smiMcaHandler P .inProgressState cpu e = some cpu') :
    (e.Hits cpu → cpu.smmMceSyncState ≠ .writingState) ∧
      cpu' = if e.Hits cpu then cpu.interrupt else cpu := by
  rw [smiMcaHandler] at h
  split at h
  · cases h
  · obtain ⟨⟨cpu₁, banks₁⟩, hfirst, hmap⟩ := Option.bind_eq_some_iff.1 h
    obtain ⟨⟨cpu₂, banks₂⟩, hsecond, rfl⟩ := Option.map_eq_some_iff.1 hmap
    clear h hmap
    obtain ⟨hne₁, rfl⟩ := eq_of_mcaProcessErrors hP huncore hfirst
    dsimp only at hsecond ⊢
    by_cases hu : e.uncoreSmiSrc &&& cpu.uncoreProcessingBank = 0#64
    · -- only a core bank may be in process
      have hiff : e.Hits cpu ↔ e.coreSmiSrc &&& cpu.coreProcessingBank ≠ 0#64 :=
        or_iff_right (not_not.2 hu)
      rw [if_pos hu] at hsecond
      obtain ⟨hne₂, rfl⟩ := eq_of_mcaProcessErrors hP hcore hsecond
      refine ⟨fun hhit ↦ hne₂ (hiff.1 hhit), ?_⟩
      by_cases hc : e.coreSmiSrc &&& cpu.coreProcessingBank = 0#64
      · rw [if_pos hc, if_neg (mt hiff.1 (not_not.2 hc))]
      · rw [if_neg hc, if_pos (hiff.2 hc)]
    · have hhit : e.Hits cpu := Or.inl hu
      rw [if_neg hu] at hsecond
      obtain ⟨-, rfl⟩ := eq_of_mcaProcessErrors hP hcore hsecond
      refine ⟨fun _ ↦ hne₁ hu, ?_⟩
      rw [if_pos hhit, CpuData.interrupt_interrupt, ite_self]

/-! ### The invariant -/

/-- The state word agrees with the handler's own state, or an exception has interrupted it. -/
def SyncOk (state sync : SmmMceState) : Prop :=
  sync = state ∨ state.Stales ∧ sync = state.interrupted

/-- The compare-exchanges at the end of a case. -/
inductive CaseEnd : SmmMceState → SmmMceState → Prop
  | read : CaseEnd .readingState .processingState
  | notValid : CaseEnd .processingState .clearedState
  | recovered : CaseEnd .processingState .writingState
  | processed : CaseEnd .processingState .loggingState
  | written : CaseEnd .writingState .loggingState
  | logged : CaseEnd .loggingState .clearedState
  | readingInterrupted : CaseEnd .readingInterrupted .clearedState
  | processingInterrupted : CaseEnd .processingInterrupted .clearedState

/-- The steps a case of the loop and everything after it may take. -/
def SmmMceState.casesLeft : SmmMceState → ℕ
  | .readingState => 8
  | .processingState => 6
  | .writingState => 4
  | .loggingState => 2
  | .readingInterrupted => 2
  | .processingInterrupted => 2
  | _ => 0

/-- The steps the handler may still take. A compare-exchange out of reading or processing may be
followed by the case of its interrupted twin. -/
def McMachine.stepsLeft (m : McMachine) : ℕ :=
  match m.pc with
  | .enter => 9
  | .dispatch => m.state.casesLeft
  | .exchange .processingState .clearedState => 3
  | .exchange _ desired => desired.casesLeft + 1
  | _ => 0

/-- The state word, at each place of the handler. -/
def McMachine.Synced (cfg : ErrorHandlerSetup) (m : McMachine) : Prop :=
  match m.pc with
  | .enter => m.cpu.smmMceSyncState = .clearedState
  | .dispatch => SyncOk m.state m.cpu.smmMceSyncState ∧ m.state ≠ .clearedState ∧
      m.state ≠ .writingInterrupted
  | .exchange expected desired =>
    SyncOk expected m.cpu.smmMceSyncState ∧ CaseEnd expected desired
  | .done => m.cpu.smmMceSyncState = .clearedState
  | .deadLoop => cfg.fatalErrSpinLoopEn = true ∧
      mapErrorSeverity m.mcErrSig.signature.mcSts = .fatal
  | .shutdown => True

/-- The state word is not interrupted. -/
def SmmMceState.Clean (s : SmmMceState) : Prop :=
  s ≠ .readingInterrupted ∧ s ≠ .processingInterrupted

instance (s : SmmMceState) : Decidable s.Clean := inferInstanceAs (Decidable (_ ∧ _))

/-- **The invariant of handler and exception.** -/
structure HandlerInv (cfg : ErrorHandlerSetup) (m : McMachine) : Prop where
  /-- One core bank at most is in process. -/
  core : AtMostOneBank m.cpu.coreProcessingBank
  /-- One uncore bank at most is in process. -/
  uncore : AtMostOneBank m.cpu.uncoreProcessingBank
  /-- The handler's state and the state word agree. -/
  synced : m.Synced cfg
  /-- While the word is not interrupted, nothing read is stale. -/
  fresh : m.Running → m.cpu.smmMceSyncState.Clean → ¬ Stale m.trace
  /-- No stale signature has been used. -/
  noStaleUse : NoStaleUse m.trace
  /-- The case that asserts has not been executed. -/
  notInterrupted : .writingInterruptedCase ∉ m.trace
  /-- A hit while the bank was written has not returned. -/
  shutdown : .mce .writingState ∈ m.trace → m.pc = .shutdown

theorem handlerInv_start {cpu : CpuData} (hsync : cpu.smmMceSyncState = .clearedState)
    (hcore : AtMostOneBank cpu.coreProcessingBank)
    (huncore : AtMostOneBank cpu.uncoreProcessingBank) : HandlerInv cfg (.start cpu) where
  core := hcore
  uncore := huncore
  synced := hsync
  fresh _ _ := by
    rintro ⟨mcErrSig, s, -, hsub⟩
    cases hsub
  noStaleUse := noStaleUse_nil
  notInterrupted := List.not_mem_nil
  shutdown h := absurd h List.not_mem_nil

theorem McMachine.running_of_dispatch {m : McMachine} (h : m.pc = .dispatch) : m.Running := by
  rw [McMachine.Running, h]
  decide

theorem McMachine.running_of_exchange {m : McMachine} {expected desired : SmmMceState}
    (h : m.pc = .exchange expected desired) : m.Running := by
  rw [McMachine.Running, h]
  exact ⟨nofun, nofun, nofun⟩

/-! ### One case of the loop -/

/-- What one case of the loop may do, up to its compare-exchange: it keeps the state word and the
bank words, uses a signature in the writing and the logging case only, and goes on to a
compare-exchange or into the spin loop. -/
structure Dispatches (cfg : ErrorHandlerSetup) (m m' : McMachine) : Prop where
  /-- The state word. -/
  sync : m'.cpu.smmMceSyncState = m.cpu.smmMceSyncState
  /-- The core bank in process. -/
  core : m'.cpu.coreProcessingBank = m.cpu.coreProcessingBank
  /-- The uncore bank in process. -/
  uncore : m'.cpu.uncoreProcessingBank = m.cpu.uncoreProcessingBank
  /-- Where the handler goes. -/
  pc : (∃ desired, m'.pc = .exchange m.state desired ∧ CaseEnd m.state desired) ∨
    m'.pc = .deadLoop ∧ m.state = .processingState ∧ cfg.fatalErrSpinLoopEn = true ∧
      mapErrorSeverity m'.mcErrSig.signature.mcSts = .fatal
  /-- What happens. -/
  trace : ∃ events, m'.trace = events ++ m.trace ∧ ∀ e ∈ events, (∀ s, e ≠ .mce s) ∧
    e ≠ .writingInterruptedCase ∧ (e.Uses → m.state = .writingState ∨ m.state = .loggingState)

theorem dispatches_processingCase {m : McMachine} (hstate : m.state = .processingState)
    (a : McAnswer) : Dispatches cfg m (processingCase cfg bank a m) := by
  rw [processingCase]
  split
  · exact ⟨rfl, rfl, rfl, Or.inl ⟨_, by rw [hstate], by rw [hstate]; exact .notValid⟩,
      [], rfl, by simp⟩
  · split
    · exact ⟨rfl, rfl, rfl, Or.inr ⟨rfl, hstate, ‹_ ∧ _›.2, ‹_ ∧ _›.1⟩, [], rfl, by simp⟩
    · split
      · exact ⟨rfl, rfl, rfl, Or.inl ⟨_, by rw [hstate], by rw [hstate]; exact .recovered⟩,
          [], rfl, by simp⟩
      · split
        · refine ⟨rfl, rfl, rfl, Or.inl ⟨_, by rw [hstate], by rw [hstate]; exact .processed⟩, ?_⟩
          by_cases hcount : 20 ≤ m.cpu.cmciMcBankErrCount bank + 1
          · exact ⟨[.disableCsmi], if_pos hcount, by simp [McBankEvent.Uses]⟩
          · exact ⟨[], if_neg hcount, by simp⟩
        · exact ⟨rfl, rfl, rfl, Or.inl ⟨_, by rw [hstate], by rw [hstate]; exact .processed⟩,
            [], rfl, by simp⟩

theorem dispatches_loggingCase {m : McMachine} (hstate : m.state = .loggingState) (a : McAnswer) :
    Dispatches cfg m (loggingCase P cfg bank a m) := by
  refine ⟨rfl, rfl, rfl, Or.inl ⟨.clearedState, by rw [hstate]; rfl, by rw [hstate]; exact .logged⟩,
    ?_⟩
  rw [loggingCase]
  obtain ⟨reported, cancelMce⟩ := reportedSection cfg (P.getMcBankSecType bank) a
  cases reported with
  | some section_ => exact ⟨[.log _ _, .report _ _], rfl, by simp [hstate]⟩
  | none =>
    cases cancelMce with
    | true => exact ⟨[.log _ _, .clearIoMca], rfl, by simp [hstate]⟩
    | false => exact ⟨[.log _ _], rfl, by simp [hstate]⟩

/-- **The cases of the loop**, one by one. -/
theorem dispatches_dispatchCase {m : McMachine} (hcleared : m.state ≠ .clearedState)
    (hwriting : m.state ≠ .writingInterrupted) (a : McAnswer) :
    Dispatches cfg m (dispatchCase P cfg bank a m) := by
  rw [dispatchCase]
  cases hstate : m.state with
  | clearedState => exact absurd hstate hcleared
  | readingState =>
    exact ⟨rfl, rfl, rfl, Or.inl ⟨_, by rw [hstate], by rw [hstate]; exact .read⟩,
      [_], rfl, by simp [McBankEvent.Uses]⟩
  | processingState => exact dispatches_processingCase hstate a
  | writingState =>
    exact ⟨rfl, rfl, rfl, Or.inl ⟨_, by rw [hstate], by rw [hstate]; exact .written⟩,
      [_], rfl, by simp [hstate]⟩
  | loggingState => exact dispatches_loggingCase hstate a
  | readingInterrupted =>
    exact ⟨rfl, rfl, rfl, Or.inl ⟨_, by rw [hstate], by rw [hstate]; exact .readingInterrupted⟩,
      [], rfl, by simp⟩
  | processingInterrupted =>
    exact ⟨rfl, rfl, rfl, Or.inl ⟨_, by rw [hstate], by rw [hstate]; exact .processingInterrupted⟩,
      [], rfl, by simp⟩
  | writingInterrupted => exact absurd hstate hwriting

/-! ### Every step keeps the invariant -/

section Steps

variable {m m' : McMachine}

theorem SyncOk.eq_of_writing_or_logging {state sync : SmmMceState} (h : SyncOk state sync)
    (hstate : state = .writingState ∨ state = .loggingState) : sync = state := by
  obtain heq | ⟨hstales, -⟩ := h
  · exact heq
  · obtain rfl | rfl := hstate
    · exact absurd hstales (by decide)
    · exact absurd hstales (by decide)

theorem HandlerInv.of_dispatches (h : HandlerInv cfg m) (hpc : m.pc = .dispatch)
    (hd : Dispatches cfg m m') : HandlerInv cfg m' := by
  have hsynced := h.synced
  rw [McMachine.Synced, hpc] at hsynced
  obtain ⟨hsync, -, -⟩ := hsynced
  obtain ⟨events, htrace, hevents⟩ := hd.trace
  have hmce : ∀ e ∈ events, ∀ s, e ≠ .mce s := fun e he ↦ (hevents e he).1
  have huse : ∀ e ∈ events, e.Uses → ¬ Stale m.trace := by
    intro e he huses
    have hstate := (hevents e he).2.2 huses
    refine h.fresh (m.running_of_dispatch hpc) ?_
    rw [hsync.eq_of_writing_or_logging hstate]
    obtain hstate | hstate := hstate
    · rw [hstate]
      decide
    · rw [hstate]
      decide
  refine ⟨?_, ?_, ?_, ?_, ?_, ?_, ?_⟩
  · rw [hd.core]
    exact h.core
  · rw [hd.uncore]
    exact h.uncore
  · obtain ⟨desired, hpc', hend⟩ | ⟨hpc', -, hspin⟩ := hd.pc
    · rw [McMachine.Synced, hpc', hd.sync]
      exact ⟨hsync, hend⟩
    · rw [McMachine.Synced, hpc']
      exact hspin
  · intro _ hclean
    rw [hd.sync] at hclean
    rw [htrace, stale_append_iff hmce]
    exact h.fresh (m.running_of_dispatch hpc) hclean
  · rw [htrace]
    exact h.noStaleUse.append hmce huse
  · rw [htrace, List.mem_append, not_or]
    exact ⟨fun he ↦ (hevents _ he).2.1 rfl, h.notInterrupted⟩
  · intro hmem
    rw [htrace, List.mem_append] at hmem
    obtain hmem | hmem := hmem
    · exact absurd rfl (hmce _ hmem _)
    · have hshut := h.shutdown hmem
      rw [hpc] at hshut
      cases hshut

theorem HandlerInv.enter (h : HandlerInv cfg m) (hpc : m.pc = .enter) :
    HandlerInv cfg { m.exchange .clearedState .readingState with pc := .dispatch } := by
  have hsync := h.synced
  rw [McMachine.Synced, hpc] at hsync
  have hrun : m.Running := by
    rw [McMachine.Running, hpc]
    decide
  have hclean : m.cpu.smmMceSyncState.Clean := by
    rw [hsync]
    decide
  rw [McMachine.exchange, if_pos hsync]
  exact {
    core := h.core
    uncore := h.uncore
    synced := ⟨Or.inl rfl, nofun, nofun⟩
    fresh := fun _ _ ↦ h.fresh hrun hclean
    noStaleUse := h.noStaleUse
    notInterrupted := h.notInterrupted
    shutdown := fun hmem ↦ by
      have hshut := h.shutdown hmem
      rw [hpc] at hshut
      cases hshut }

/-- The compare-exchange that ends a case, when no exception has interrupted the case. -/
theorem McMachine.exchange_of_eq {expected desired : SmmMceState}
    (hsync : m.cpu.smmMceSyncState = expected) :
    m.exchange expected desired = { m with
      cpu := { m.cpu with smmMceSyncState := desired }
      state := desired
      pc := if desired = .clearedState then .done else .dispatch } := by
  rw [McMachine.exchange, if_pos hsync]

/-- And when one has. -/
theorem McMachine.exchange_of_interrupted {expected desired : SmmMceState}
    (hstales : expected.Stales) (hsync : m.cpu.smmMceSyncState = expected.interrupted) :
    m.exchange expected desired = { m with state := expected.interrupted, pc := .dispatch } := by
  obtain rfl | rfl := hstales
  · rw [McMachine.exchange, if_neg (by rw [hsync]; decide), hsync]
    rfl
  · rw [McMachine.exchange, if_neg (by rw [hsync]; decide), hsync]
    rfl

theorem HandlerInv.exchange (h : HandlerInv cfg m) {expected desired : SmmMceState}
    (hpc : m.pc = .exchange expected desired) : HandlerInv cfg (m.exchange expected desired) := by
  have hsynced := h.synced
  rw [McMachine.Synced, hpc] at hsynced
  obtain ⟨hsync, hend⟩ := hsynced
  have hnot : .mce .writingState ∉ m.trace := by
    intro hmem
    have hshut := h.shutdown hmem
    rw [hpc] at hshut
    cases hshut
  obtain heq | ⟨hstales, heq⟩ := hsync
  · rw [McMachine.exchange_of_eq heq]
    refine ⟨h.core, h.uncore, ?_, ?_, h.noStaleUse, h.notInterrupted, fun hmem ↦ absurd hmem hnot⟩
    · -- the word and the state move on together
      cases hend with
      | notValid => rfl
      | logged => rfl
      | readingInterrupted => rfl
      | processingInterrupted => rfl
      | read => exact ⟨Or.inl rfl, nofun, nofun⟩
      | recovered => exact ⟨Or.inl rfl, nofun, nofun⟩
      | processed => exact ⟨Or.inl rfl, nofun, nofun⟩
      | written => exact ⟨Or.inl rfl, nofun, nofun⟩
    · intro hrun _
      refine h.fresh (m.running_of_exchange hpc) ?_
      rw [heq]
      cases hend with
      | readingInterrupted => exact absurd rfl hrun.1
      | processingInterrupted => exact absurd rfl hrun.1
      | _ => decide
  · rw [McMachine.exchange_of_interrupted hstales heq]
    refine ⟨h.core, h.uncore, ?_, ?_, h.noStaleUse, h.notInterrupted, fun hmem ↦ absurd hmem hnot⟩
    · refine ⟨Or.inl heq, ?_⟩
      obtain rfl | rfl := hstales
      · exact ⟨nofun, nofun⟩
      · exact ⟨nofun, nofun⟩
    · intro _
      exact h.fresh (m.running_of_exchange hpc)

/-- **Every step of the handler** keeps the invariant. -/
theorem HandlerInv.handlerStep (h : HandlerInv cfg m) (a : McAnswer) :
    HandlerInv cfg (handlerStep P cfg bank a m) := by
  rw [Ras.handlerStep]
  cases hpc : m.pc with
  | enter => exact h.enter hpc
  | dispatch =>
    have hsynced := h.synced
    rw [McMachine.Synced, hpc] at hsynced
    exact h.of_dispatches hpc (dispatches_dispatchCase hsynced.2.1 hsynced.2.2 a)
  | exchange expected desired => exact h.exchange hpc
  | done => exact h
  | deadLoop => exact h
  | shutdown => exact h

/-- What an exception may do to a handler that runs: it does not return; or it interrupts the case;
or it finds nothing in the bank in process. -/
theorem mceStep_cases (hP : P.Documented) (h : HandlerInv cfg m) (hrun : m.Running)
    (e : McException) :
    (mceStep P e m).pc = .shutdown ∧ (mceStep P e m).cpu = m.cpu ∧
        ((mceStep P e m).trace = m.trace ∨
          (mceStep P e m).trace = .mce m.cpu.smmMceSyncState :: m.trace) ∨
      m.cpu.smmMceSyncState ≠ .writingState ∧
        mceStep P e m = { m with
          cpu := m.cpu.interrupt
          trace := .mce m.cpu.smmMceSyncState :: m.trace } ∨
      mceStep P e m = m := by
  rw [mceStep, if_pos hrun]
  cases hcall : smiMcaHandler P .inProgressState m.cpu e with
  | none =>
    refine Or.inl ⟨rfl, rfl, ?_⟩
    by_cases hhit : e.Hits m.cpu
    · exact Or.inr (if_pos hhit)
    · exact Or.inl (if_neg hhit)
  | some cpu =>
    obtain ⟨hne, rfl⟩ := eq_of_smiMcaHandler hP h.core h.uncore hcall
    refine Or.inr ?_
    by_cases hhit : e.Hits m.cpu
    · exact Or.inl ⟨hne hhit, by rw [if_pos hhit, if_pos hhit]⟩
    · exact Or.inr (by rw [if_neg hhit, if_neg hhit])

/-- An interruption is what the handler's state allows for. -/
theorem SyncOk.interrupt {state sync : SmmMceState} (h : SyncOk state sync) :
    SyncOk state sync.interrupted := by
  obtain rfl | ⟨hstales, rfl⟩ := h
  · by_cases hstales : sync.Stales
    · exact Or.inr ⟨hstales, rfl⟩
    · refine Or.inl ?_
      cases sync <;> first | rfl | exact absurd (by decide) hstales
  · rw [SmmMceState.interrupted_interrupted]
    exact Or.inr ⟨hstales, rfl⟩

theorem McMachine.Synced.interrupt (hrun : m.Running) (h : m.Synced cfg)
    (trace : List McBankEvent) :
    McMachine.Synced cfg { m with cpu := m.cpu.interrupt, trace := trace } := by
  rw [McMachine.Synced] at h ⊢
  dsimp only
  cases hpc : m.pc with
  | enter =>
    rw [hpc] at h
    rw [CpuData.interrupt_smmMceSyncState, h]
    rfl
  | dispatch =>
    rw [hpc] at h
    exact ⟨h.1.interrupt, h.2⟩
  | exchange expected desired =>
    rw [hpc] at h
    exact ⟨h.1.interrupt, h.2⟩
  | done => exact absurd hpc hrun.1
  | deadLoop => exact absurd hpc hrun.2.1
  | shutdown => trivial

/-- **Every exception** keeps the invariant. -/
theorem HandlerInv.mceStep (hP : P.Documented) (h : HandlerInv cfg m) (e : McException) :
    HandlerInv cfg (mceStep P e m) := by
  by_cases hrun : m.Running
  · obtain ⟨hpc, hcpu, htrace⟩ | ⟨hne, heq⟩ | heq := mceStep_cases hP h hrun e
    · refine ⟨?_, ?_, ?_, fun hrun' ↦ absurd hpc hrun'.2.2, ?_, ?_, fun _ ↦ hpc⟩
      · rw [hcpu]
        exact h.core
      · rw [hcpu]
        exact h.uncore
      · rw [McMachine.Synced, hpc]
        trivial
      · obtain htrace | htrace := htrace
        · rw [htrace]
          exact h.noStaleUse
        · rw [htrace]
          exact h.noStaleUse.cons nofun
      · obtain htrace | htrace := htrace
        · rw [htrace]
          exact h.notInterrupted
        · rw [htrace, List.mem_cons, not_or]
          exact ⟨nofun, h.notInterrupted⟩
    · rw [heq]
      refine ⟨h.core, h.uncore, h.synced.interrupt hrun _, ?_, h.noStaleUse.cons nofun, ?_, ?_⟩
      · -- a word that is still not interrupted was neither reading nor processing
        intro _ hclean
        have hstales : ¬ m.cpu.smmMceSyncState.Stales := by
          rintro (hsync | hsync)
          · rw [CpuData.interrupt_smmMceSyncState, hsync] at hclean
            exact hclean.1 rfl
          · rw [CpuData.interrupt_smmMceSyncState, hsync] at hclean
            exact hclean.2 rfl
        have hsame : m.cpu.smmMceSyncState.interrupted = m.cpu.smmMceSyncState := by
          cases hsync : m.cpu.smmMceSyncState <;>
            first | rfl | exact absurd (by rw [hsync]; decide) hstales
        rw [CpuData.interrupt_smmMceSyncState, hsame] at hclean
        rw [stale_cons_iff]
        rintro (hstale | ⟨-, s, hs, hmce, -⟩)
        · exact h.fresh hrun hclean hstale
        · obtain rfl := McBankEvent.mce.inj hmce
          exact hstales hs
      · rw [List.mem_cons, not_or]
        exact ⟨nofun, h.notInterrupted⟩
      · intro hmem
        obtain hmem | hmem := List.mem_cons.1 hmem
        · exact absurd (McBankEvent.mce.inj hmem).symm hne
        · exact h.shutdown hmem
    · rw [heq]
      exact h
  · rw [Ras.mceStep, if_neg hrun]
    exact h

/-! ### The loop ends -/

theorem stepsLeft_of_dispatches (hpc : m.pc = .dispatch) (hd : Dispatches cfg m m') :
    m'.stepsLeft ≤ m.stepsLeft - 1 := by
  have hleft : m.stepsLeft = m.state.casesLeft := by rw [McMachine.stepsLeft, hpc]
  rw [hleft]
  obtain ⟨desired, hpc', hend⟩ | ⟨hpc', -⟩ := hd.pc
  · rw [McMachine.stepsLeft, hpc']
    revert hend
    generalize m.state = state
    intro hend
    cases hend <;> simp [SmmMceState.casesLeft]
  · rw [McMachine.stepsLeft, hpc']
    exact Nat.zero_le _

/-- **The handler comes closer to its end with every step.** -/
theorem HandlerInv.stepsLeft_handlerStep (h : HandlerInv cfg m) (a : McAnswer) :
    (Ras.handlerStep P cfg bank a m).stepsLeft ≤ m.stepsLeft - 1 := by
  have hsynced := h.synced
  rw [Ras.handlerStep]
  cases hpc : m.pc with
  | enter =>
    rw [McMachine.Synced, hpc] at hsynced
    rw [McMachine.exchange_of_eq hsynced, McMachine.stepsLeft, McMachine.stepsLeft, hpc]
    exact le_rfl
  | dispatch =>
    rw [McMachine.Synced, hpc] at hsynced
    exact stepsLeft_of_dispatches hpc (dispatches_dispatchCase hsynced.2.1 hsynced.2.2 a)
  | exchange expected desired =>
    rw [McMachine.Synced, hpc] at hsynced
    obtain ⟨heq | ⟨hstales, heq⟩, hend⟩ := hsynced
    · show (m.exchange expected desired).stepsLeft ≤ _
      rw [McMachine.exchange_of_eq heq, McMachine.stepsLeft, McMachine.stepsLeft, hpc]
      cases hend <;> simp [SmmMceState.casesLeft]
    · show (m.exchange expected desired).stepsLeft ≤ _
      rw [McMachine.exchange_of_interrupted hstales heq, McMachine.stepsLeft, McMachine.stepsLeft,
        hpc]
      cases hend <;>
        first | exact absurd hstales (by decide) | simp [SmmMceState.casesLeft, SmmMceState.interrupted]
  | done =>
    show m.stepsLeft ≤ _
    rw [McMachine.stepsLeft, hpc]
    exact Nat.zero_le _
  | deadLoop =>
    show m.stepsLeft ≤ _
    rw [McMachine.stepsLeft, hpc]
    exact Nat.zero_le _
  | shutdown =>
    show m.stepsLeft ≤ _
    rw [McMachine.stepsLeft, hpc]
    exact Nat.zero_le _

/-- And an exception does not take it back. -/
theorem HandlerInv.stepsLeft_mceStep (hP : P.Documented) (h : HandlerInv cfg m) (e : McException) :
    (Ras.mceStep P e m).stepsLeft ≤ m.stepsLeft := by
  by_cases hrun : m.Running
  · obtain ⟨hpc, -⟩ | ⟨-, heq⟩ | heq := mceStep_cases hP h hrun e
    · rw [McMachine.stepsLeft, hpc]
      exact Nat.zero_le _
    · rw [heq]
      exact le_rfl
    · rw [heq]
  · rw [Ras.mceStep, if_neg hrun]

/-- A handler with no step left has stopped. -/
theorem HandlerInv.not_running (h : HandlerInv cfg m) (hleft : m.stepsLeft = 0) : ¬ m.Running := by
  intro hrun
  have hsynced := h.synced
  rw [McMachine.Synced] at hsynced
  rw [McMachine.stepsLeft] at hleft
  cases hpc : m.pc with
  | enter =>
    rw [hpc] at hleft
    cases hleft
  | dispatch =>
    rw [hpc] at hsynced hleft
    obtain ⟨-, hcleared, hwriting⟩ := hsynced
    dsimp only at hleft
    cases hstate : m.state with
    | clearedState => exact hcleared hstate
    | writingInterrupted => exact hwriting hstate
    | _ =>
      rw [hstate] at hleft
      cases hleft
  | exchange expected desired =>
    rw [hpc] at hsynced hleft
    obtain ⟨-, hend⟩ := hsynced
    cases hend <;> cases hleft
  | done => exact hrun.1 hpc
  | deadLoop => exact hrun.2.1 hpc
  | shutdown => exact hrun.2.2 hpc

end Steps

/-! ### Runs -/

/-- The steps of the handler in a run. -/
def handlerSteps : List McLabel → ℕ
  | [] => 0
  | .handler _ :: labels => handlerSteps labels + 1
  | .mce _ :: labels => handlerSteps labels

theorem HandlerInv.next (hP : P.Documented) {m : McMachine} (h : HandlerInv cfg m) (l : McLabel) :
    HandlerInv cfg (m.next P cfg bank l) := by
  cases l with
  | handler a => exact h.handlerStep a
  | mce e => exact h.mceStep hP e

/-- **The run rule**, with the steps that are left. -/
theorem HandlerInv.foldl (hP : P.Documented) (bank : ℕ) {m : McMachine} (h : HandlerInv cfg m)
    (labels : List McLabel) :
    HandlerInv cfg (labels.foldl (McMachine.next P cfg bank) m) ∧
      (labels.foldl (McMachine.next P cfg bank) m).stepsLeft ≤
        m.stepsLeft - handlerSteps labels := by
  induction labels generalizing m with
  | nil => exact ⟨h, le_rfl⟩
  | cons l labels ih =>
    have hnext : HandlerInv cfg (m.next P cfg bank l) := h.next hP l
    obtain ⟨hinv, hleft⟩ := ih hnext
    refine ⟨hinv, hleft.trans ?_⟩
    cases l with
    | handler a =>
      have hstep : (Ras.handlerStep P cfg bank a m).stepsLeft ≤ m.stepsLeft - 1 :=
        h.stepsLeft_handlerStep a
      show (Ras.handlerStep P cfg bank a m).stepsLeft - handlerSteps labels ≤
        m.stepsLeft - (handlerSteps labels + 1)
      omega
    | mce e =>
      have hstep := h.stepsLeft_mceStep hP e
      show (Ras.mceStep P e m).stepsLeft - handlerSteps labels ≤
        m.stepsLeft - handlerSteps labels
      omega

/-- A processor on which the handler has just been called for a bank. -/
theorem handlerInv_beginBank (cfg : ErrorHandlerSetup) (bank : ℕ) {cpu : CpuData}
    (hcpu : cpu.AtRest) (scope : McScope) :
    HandlerInv cfg (.start (cpu.beginBank scope bank)) := by
  cases scope with
  | core =>
    refine handlerInv_start hcpu.sync (atMostOneBank_shiftLeft bank) ?_
    show AtMostOneBank cpu.uncoreProcessingBank
    rw [hcpu.uncore]
    exact atMostOneBank_zero
  | uncore =>
    refine handlerInv_start hcpu.sync ?_ (atMostOneBank_shiftLeft bank)
    show AtMostOneBank cpu.coreProcessingBank
    rw [hcpu.core]
    exact atMostOneBank_zero

/-- The handler has returned and left the state word clear; or it is in an exception that does not
return; or it is in the spin loop, which the setup asks for and the error deserves. -/
def McMachine.Ended (cfg : ErrorHandlerSetup) (m : McMachine) : Prop :=
  m.pc = .done ∧ m.cpu.smmMceSyncState = .clearedState ∨ m.pc = .shutdown ∨
    m.pc = .deadLoop ∧ cfg.fatalErrSpinLoopEn = true ∧
      mapErrorSeverity m.mcErrSig.signature.mcSts = .fatal

theorem HandlerInv.ended {m : McMachine} (h : HandlerInv cfg m) (hrun : ¬ m.Running) :
    m.Ended cfg := by
  have hsynced := h.synced
  rw [McMachine.Synced] at hsynced
  cases hpc : m.pc with
  | done =>
    rw [hpc] at hsynced
    exact Or.inl ⟨hpc, hsynced⟩
  | shutdown => exact Or.inr (Or.inl hpc)
  | deadLoop =>
    rw [hpc] at hsynced
    exact Or.inr (Or.inr ⟨hpc, hsynced⟩)
  | _ =>
    refine absurd ?_ hrun
    rw [McMachine.Running, hpc]
    exact ⟨nofun, nofun, nofun⟩

/-- An exception that hits the bank in process while it is written does not return. -/
theorem HandlerInv.mceStep_writingState (hP : P.Documented) {m : McMachine}
    (h : HandlerInv cfg m) (hrun : m.Running) {e : McException}
    (hsync : m.cpu.smmMceSyncState = .writingState) (hhit : e.Hits m.cpu) :
    (Ras.mceStep P e m).pc = .shutdown := by
  obtain ⟨hpc, -⟩ | ⟨hne, -⟩ | heq := mceStep_cases hP h hrun e
  · exact hpc
  · exact absurd hsync hne
  · -- an exception that changes nothing has not even been seen
    have htrace := congrArg McMachine.trace heq
    rw [Ras.mceStep, if_pos hrun, if_pos hhit] at htrace
    split at htrace
    · exact absurd htrace (List.cons_ne_self _ _)
    · exact absurd htrace (List.cons_ne_self _ _)

/-- What holds of a handler at any moment, wherever exceptions came. -/
structure NestedSafe (P : McaPlatform) (m : McMachine) : Prop where
  /-- No signature was written back, reported or logged after the bank in process was hit in the
  reading or the processing state. -/
  noStaleUse : NoStaleUse m.trace
  /-- The case that asserts was not executed. -/
  notInterrupted : .writingInterruptedCase ∉ m.trace
  /-- An exception that hits the bank in the writing state makes it fatal. -/
  makesFatal : m.cpu.smmMceSyncState = .writingState → ∀ banks smiSrc processingBank,
    smiSrc &&& processingBank ≠ 0#64 →
      P.getMceClass ((detectHandleMcBankContention m.cpu banks smiSrc processingBank).2
        (findFirstSet processingBank)).mcSts = .fatal
  /-- And it does not return. -/
  shutdown : m.Running → m.cpu.smmMceSyncState = .writingState → ∀ e : McException,
    e.Hits m.cpu → (mceStep P e m).pc = .shutdown

/-- **Nested machine checks.** However exceptions are placed between the steps of the handler, nine
steps of its own end it, and it is safe at every moment. -/
theorem mcBankErrorHandler_nested (hP : P.Documented) {cpu : CpuData} (hcpu : cpu.AtRest)
    (scope : McScope) (labels : List McLabel) :
    (9 ≤ handlerSteps labels →
        (runMcBankErrorHandler P cfg bank (cpu.beginBank scope bank) labels).Ended cfg) ∧
      NestedSafe P (runMcBankErrorHandler P cfg bank (cpu.beginBank scope bank) labels) := by
  obtain ⟨hinv, hleft⟩ := (handlerInv_beginBank cfg bank hcpu scope).foldl hP bank labels
  refine ⟨fun hsteps ↦ hinv.ended (hinv.not_running ?_), hinv.noStaleUse, hinv.notInterrupted,
    ?_, ?_⟩
  · have hstart : (McMachine.start (cpu.beginBank scope bank)).stepsLeft = 9 := rfl
    omega
  · intro hsync banks smiSrc processingBank hhit
    exact getMceClass_detectHandleMcBankContention banks hP hsync hhit
  · intro hrun hsync e hhit
    exact hinv.mceStep_writingState hP hrun hsync hhit

/-- A platform that reads the banks as they are. -/
def plainPlatform : McaPlatform where
  readMcBankSigHook banks bank := ⟨banks bank, 0⟩
  getMceClass mcSts :=
    if mcSts.val && mcSts.uc && mcSts.pcc then .fatal
    else if mcSts.val then .corrected
    else .invalid
  mcAddressInSmram _ := false
  getMcBankSecType _ := .procGen

theorem documented_plainPlatform : plainPlatform.Documented where
  reads_mcSts _ _ := rfl
  fatal_of_pcc mcSts hpcc huc hval := by
    show (if mcSts.val && mcSts.uc && mcSts.pcc then MceClass.fatal else _) = _
    rw [hpcc, huc, hval]
    rfl

/-- A processor between two banks, with an empty log. -/
def idleCpu : CpuData where
  smmMceSyncState := .clearedState
  coreProcessingBank := 0#64
  uncoreProcessingBank := 0#64
  cmciMcBankErrCount _ := 0
  eventLog := ⟨false, fun _ ↦ false, false, fun _ ↦ ⟨0, 0⟩⟩
  mcip := false
  lmce := false

theorem atRest_idleCpu : idleCpu.AtRest := ⟨rfl, rfl, rfl⟩

/-- A setup with both signals to the operating system enabled. -/
def signalSetup (fatalErrSpinLoopEn : Bool) : ErrorHandlerSetup :=
  ⟨fatalErrSpinLoopEn, false, true, 2, 2⟩

/-- Every bank holds an error with this status. -/
def banksWith (mcSts : MciStatus) : McBanks := fun _ ↦ ⟨mcSts, 0, 0⟩

/-- Banks with a corrected error, and nothing special outside. -/
def correctedAnswer : McAnswer := ⟨banksWith { MciStatus.zero with val := true }, false, true, false⟩

/-- Banks with a fatal error. -/
def fatalAnswer : McAnswer :=
  ⟨banksWith { MciStatus.zero with val := true, uc := true, pcc := true }, false, true, false⟩

/-- The bank is read, then hit, and the handler goes on. -/
def hitWhileReading : List McLabel :=
  List.replicate 2 (.handler correctedAnswer) ++
    .mce ⟨true, true, 0, 0x10, correctedAnswer.banks⟩ :: List.replicate 7 (.handler correctedAnswer)

/-- Nested machine checks, on that run: the handler gives the bank up. -/
theorem mcBankErrorHandler_nested_hitWhileReading :
    (runMcBankErrorHandler plainPlatform (signalSetup false) 4 (idleCpu.beginBank .core 4)
        hitWhileReading).Ended (signalSetup false) ∧
      NestedSafe plainPlatform (runMcBankErrorHandler plainPlatform (signalSetup false) 4
        (idleCpu.beginBank .core 4) hitWhileReading) := by
  obtain ⟨hended, hsafe⟩ :=
    mcBankErrorHandler_nested documented_plainPlatform atRest_idleCpu .core hitWhileReading
  exact ⟨hended (by decide), hsafe⟩

/-- With the spin loop enabled a fatal error keeps the handler for ever: no number of steps makes it
return or leaves it in an exception. -/
theorem not_returns_spinLoop :
    ¬ ∀ (P : McaPlatform) (cfg : ErrorHandlerSetup) (bank : ℕ) (cpu : CpuData) (scope : McScope),
      P.Documented → cpu.AtRest → ∃ n, ∀ labels, n ≤ handlerSteps labels →
        (runMcBankErrorHandler P cfg bank (cpu.beginBank scope bank) labels).pc = .done ∨
          (runMcBankErrorHandler P cfg bank (cpu.beginBank scope bank) labels).pc = .shutdown := by
  intro h
  obtain ⟨n, hn⟩ := h plainPlatform (signalSetup true) 4 idleCpu .core documented_plainPlatform
    atRest_idleCpu
  have hsteps : ∀ k, handlerSteps (List.replicate k (.handler fatalAnswer)) = k := by
    intro k
    induction k with
    | zero => rfl
    | succ k ih => exact congrArg (· + 1) ih
  have hloop : ∀ (k : ℕ) (m : McMachine), m.pc = .deadLoop →
      ((List.replicate k (McLabel.handler fatalAnswer)).foldl
        (McMachine.next plainPlatform (signalSetup true) 4) m).pc = .deadLoop := by
    intro k
    induction k with
    | zero => exact fun _ hpc ↦ hpc
    | succ k ih =>
      intro m hpc
      refine ih _ ?_
      show (handlerStep plainPlatform (signalSetup true) 4 fatalAnswer m).pc = .deadLoop
      rw [handlerStep, hpc]
      exact hpc
  have hpc : (runMcBankErrorHandler plainPlatform (signalSetup true) 4 (idleCpu.beginBank .core 4)
      (List.replicate (4 + n) (.handler fatalAnswer))).pc = .deadLoop := by
    rw [runMcBankErrorHandler, List.replicate_add, List.foldl_append]
    exact hloop n _ (by decide)
  obtain hdone | hshut := hn (List.replicate (4 + n) (.handler fatalAnswer))
    (by rw [hsteps]; omega)
  · rw [hpc] at hdone
    cases hdone
  · rw [hpc] at hshut
    cases hshut

end PurleyFirmware.Ras
