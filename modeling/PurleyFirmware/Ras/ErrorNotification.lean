import Mathlib.Data.List.FinRange
import PurleyFirmware.Foundation.Fold
import PurleyFirmware.Ras.BankErrors
import PurleyFirmware.Ras.McBankContention

/-!
# From the event log to the operating system

Each processor's event log says which severities were logged in the SMI, and `ErrorsFound` whether
any was. `ProcessorNotifyOs` reads the severities only where `ErrorsFound` is set, and only there
clears them. An error that is cancelled resets `ErrorsFound`, whatever was logged before it
(`errorsFound_handleBanks`), while the severities stay: that error is not signalled, and its
severity is still in the log in the next SMI.

So the log serves its purpose exactly when nothing is kept, or the last error is
(`notified_iff`).
-/

namespace PurleyFirmware.Ras

variable {P : McaPlatform} {cfg : ErrorHandlerSetup}

/-! ### The model -/

/-- The calls of the handler on one processor within one SMI. -/
def handleBanks (P : McaPlatform) (cfg : ErrorHandlerSetup) (cpu : CpuData)
    (errors : List BankError) : Option CpuData :=
  errors.foldlM (mcBankErrorHandler P cfg) cpu

/-- The data of all processors. -/
structure SmmErrorMpSyncData (n : ℕ) where
  /-- One by one. -/
  cpuData : Fin n → CpuData
  /-- The machine check is to be broadcast. -/
  broadcast : Bool

/-- What `ProcessorNotifyOs` does to signal. -/
inductive NotifyAction
  /-- `SignalCmciToOs`. -/
  | signalCmciToOs (location : ErrorLocation)
  /-- `SignalMceToOs`. -/
  | signalMceToOs (cpuNumber saveStateType : ℕ) (broadcast lmceNotify : Bool)
  deriving DecidableEq

/-- The processor's log has an error to be signalled by a machine check. -/
def uncorrectedErrorFound (cfg : ErrorHandlerSetup) (cpu : CpuData) : Bool :=
  cpu.eventLog.errorsFound &&
    (cpu.eventLog.severityMap .recoverable || cpu.eventLog.severityMap .fatal) &&
    cfg.emcaMsmiEn != 0

/-- The processor's log has an error to be signalled by a corrected machine-check interrupt. -/
def correctedErrorFound (cfg : ErrorHandlerSetup) (cpu : CpuData) : Bool :=
  cpu.eventLog.errorsFound && cpu.eventLog.severityMap .corrected && cfg.emcaCsmiEn == 2

/-- Clear the log. The severities are cleared with `ErrorsFound` only. -/
def clearEventLog (eventLog : EventLog) : EventLog where
  errorsFound := false
  severityMap := if eventLog.errorsFound then fun _ ↦ false else eventLog.severityMap
  errorFound := if eventLog.errorsFound then false else eventLog.errorFound
  log _ := ⟨0, 0⟩

/-- What `ProcessorNotifyOs` comes to. -/
structure NotifyResult (n : ℕ) where
  /-- The call is supported. -/
  supported : Bool
  /-- The data of all processors. -/
  data : SmmErrorMpSyncData n
  /-- `OsNotified`. -/
  osNotified : Bool
  /-- The signals. -/
  actions : List NotifyAction

/-- Notify the operating system of the errors in the logs. -/
def processorNotifyOs {n : ℕ} (cfg : ErrorHandlerSetup) (saveStateType : ℕ)
    (s : SmmErrorMpSyncData n) (osNotified : Bool) : NotifyResult n :=
  if !cfg.emcaGen2Cap then ⟨false, s, osNotified, []⟩
  else
    let cpus := List.finRange n
    let uncorrected := cpus.any fun c ↦ uncorrectedErrorFound cfg (s.cpuData c)
    let mce := uncorrected && cfg.emcaMsmiEn == 2
    { supported := true
      data :=
        { cpuData := fun c ↦ { s.cpuData c with
            eventLog := clearEventLog (s.cpuData c).eventLog
            lmce := if mce then false else (s.cpuData c).lmce }
          broadcast := false }
      osNotified := osNotified || uncorrected ||
        cpus.any fun c ↦ correctedErrorFound cfg (s.cpuData c)
      actions :=
        ((cpus.filter fun c ↦ correctedErrorFound cfg (s.cpuData c)).map fun c ↦
          .signalCmciToOs ((s.cpuData c).eventLog.log .corrected)) ++
        if mce then
          cpus.map fun c ↦ .signalMceToOs c saveStateType s.broadcast
            (!(s.cpuData c).mcip && (s.cpuData c).lmce)
        else [] }


/-! ### The log of one SMI -/

section Log

variable {e : BankError} {errors : List BankError} {eventLog : EventLog}

theorem logged_of_not_valid (hv : ¬ e.Valid P) : e.logged P eventLog = eventLog := if_neg hv

theorem logged_of_cancelled (hv : e.Valid P) (hc : e.Cancelled P) :
    e.logged P eventLog = { eventLog with errorsFound := false } := by
  rw [BankError.logged, if_pos hv, decide_eq_true hc]
  rfl

theorem exists_severityMapBit (P : McaPlatform) (e : BankError) :
    ∃ b, severityMapBit (e.sev P) = some b := by
  have hne := e.sev_ne_none P
  cases hsev : e.sev P with
  | none => exact absurd hsev hne
  | _ => exact ⟨_, rfl⟩

theorem logged_of_kept (hk : e.Kept P) {b : SeverityMapBit}
    (hb : severityMapBit (e.sev P) = some b) :
    e.logged P eventLog =
      { errorsFound := true
        severityMap := Function.update eventLog.severityMap b true
        errorFound := true
        log := Function.update eventLog.log b ⟨e.bank, (e.mcErrSig P).apicId⟩ } := by
  rw [BankError.logged, if_pos hk.1, decide_eq_false hk.2, updateEventLog]
  simp [hb]

/-- **The calls one after another.** -/
theorem handleBanks_eq_some {cpu cpu' : CpuData} (hcpu : cpu.AtRest)
    (h : handleBanks P cfg cpu errors = some cpu') :
    cpu'.AtRest ∧ cpu'.eventLog = errors.foldl (fun l e ↦ e.logged P l) cpu.eventLog := by
  induction errors generalizing cpu with
  | nil =>
    obtain rfl := Option.some.inj h
    exact ⟨hcpu, rfl⟩
  | cons e errors ih =>
    rw [handleBanks, List.foldlM_cons] at h
    obtain ⟨cpu₁, hfirst, hrest⟩ := Option.bind_eq_some_iff.1 h
    obtain ⟨-, hrest₁, hlog⟩ := mcBankErrorHandler_eq_some hcpu hfirst
    obtain ⟨hrest', hlog'⟩ := ih hrest₁ hrest
    refine ⟨hrest', ?_⟩
    rw [hlog', List.foldl_cons, hlog]

/-- The last error with `VAL = 1` is kept. -/
def KeptLast (P : McaPlatform) (errors : List BankError) : Prop :=
  ∃ e, (errors.filter fun e ↦ e.Valid P).getLast? = some e ∧ e.Kept P

theorem keptLast_concat_iff :
    KeptLast P (errors ++ [e]) ↔ if e.Valid P then e.Kept P else KeptLast P errors := by
  rw [KeptLast, List.filter_append]
  by_cases hv : e.Valid P
  · rw [if_pos hv, List.filter_cons_of_pos (by simpa using hv), List.filter_nil,
      List.getLast?_concat]
    exact ⟨fun ⟨e', he', hk⟩ ↦ Option.some.inj he' ▸ hk, fun hk ↦ ⟨e, rfl, hk⟩⟩
  · rw [if_neg hv, List.filter_cons_of_neg (by simpa using hv), List.filter_nil, List.append_nil]
    exact Iff.rfl

/-- **`ErrorsFound` is about the last error only.** -/
theorem errorsFound_foldl_logged (hclean : eventLog.errorsFound = false) :
    (errors.foldl (fun l e ↦ e.logged P l) eventLog).errorsFound = true ↔ KeptLast P errors := by
  induction errors using List.reverseRecOn with
  | nil =>
    refine iff_of_false ?_ ?_
    · show ¬ eventLog.errorsFound = true
      rw [hclean]
      exact Bool.false_ne_true
    · rintro ⟨e, he, -⟩
      cases he
  | append_singleton errors e ih =>
    rw [List.foldl_append, List.foldl_cons, List.foldl_nil, keptLast_concat_iff]
    by_cases hv : e.Valid P
    · rw [if_pos hv]
      by_cases hc : e.Cancelled P
      · rw [logged_of_cancelled hv hc]
        exact iff_of_false Bool.false_ne_true fun hk ↦ hk.2 hc
      · obtain ⟨b, hb⟩ := exists_severityMapBit P e
        rw [logged_of_kept ⟨hv, hc⟩ hb]
        exact iff_of_true rfl ⟨hv, hc⟩
    · rw [if_neg hv, logged_of_not_valid hv]
      exact ih

theorem logged_of_not_kept (hk : ¬ e.Kept P) :
    (e.logged P eventLog).severityMap = eventLog.severityMap ∧
      (e.logged P eventLog).log = eventLog.log := by
  by_cases hv : e.Valid P
  · have hc : e.Cancelled P := by
      by_contra hc
      exact hk ⟨hv, hc⟩
    rw [logged_of_cancelled hv hc]
    exact ⟨rfl, rfl⟩
  · rw [logged_of_not_valid hv]
    exact ⟨rfl, rfl⟩

/-- The error is kept and has this bit. -/
def BankError.KeptAs (P : McaPlatform) (b : SeverityMapBit) (e : BankError) : Prop :=
  e.Kept P ∧ severityMapBit (e.sev P) = some b

theorem exists_mem_concat_iff {p : BankError → Prop} :
    (∃ e' ∈ errors ++ [e], p e') ↔ (∃ e' ∈ errors, p e') ∨ p e := by
  constructor
  · rintro ⟨e', he', hp⟩
    obtain hmem | hmem := List.mem_append.1 he'
    · exact Or.inl ⟨e', hmem, hp⟩
    · obtain rfl := List.mem_singleton.1 hmem
      exact Or.inr hp
  · rintro (⟨e', he', hp⟩ | hp)
    · exact ⟨e', List.mem_append_left _ he', hp⟩
    · exact ⟨e, List.mem_append_right _ (List.mem_singleton_self e), hp⟩

/-- **The severities are those of the kept errors.** -/
theorem severityMap_foldl_logged (hclean : ∀ b, eventLog.severityMap b = false)
    (b : SeverityMapBit) :
    (errors.foldl (fun l e ↦ e.logged P l) eventLog).severityMap b = true ↔
      ∃ e ∈ errors, e.KeptAs P b := by
  induction errors using List.reverseRecOn with
  | nil =>
    refine iff_of_false ?_ ?_
    · show ¬ eventLog.severityMap b = true
      rw [hclean]
      exact Bool.false_ne_true
    · rintro ⟨e, he, -⟩
      cases he
  | append_singleton errors e ih =>
    rw [List.foldl_append, List.foldl_cons, List.foldl_nil, exists_mem_concat_iff, ← ih]
    by_cases hk : e.Kept P
    · obtain ⟨b', hb'⟩ := exists_severityMapBit P e
      rw [logged_of_kept hk hb']
      dsimp only
      rw [Function.update_apply]
      by_cases hbb : b = b'
      · rw [if_pos hbb, hbb]
        exact iff_of_true rfl (Or.inr ⟨hk, hb'⟩)
      · rw [if_neg hbb, or_iff_left]
        rintro ⟨-, hb⟩
        exact hbb (Option.some.inj (hb.symm.trans hb'))
    · rw [(logged_of_not_kept hk).1, or_iff_left]
      exact fun hkept ↦ hk hkept.1

/-- **And each entry of the log is one of them.** -/
theorem log_foldl_logged (eventLog : EventLog) {b : SeverityMapBit} (h : ∃ e ∈ errors, e.KeptAs P b) :
    ∃ e ∈ errors, e.KeptAs P b ∧
      (errors.foldl (fun l e ↦ e.logged P l) eventLog).log b =
        ⟨e.bank, (e.mcErrSig P).apicId⟩ := by
  induction errors using List.reverseRecOn with
  | nil =>
    obtain ⟨e, he, -⟩ := h
    cases he
  | append_singleton errors e ih =>
    rw [List.foldl_append, List.foldl_cons, List.foldl_nil, exists_mem_concat_iff]
    by_cases hkept : e.KeptAs P b
    · refine Or.inr ⟨hkept, ?_⟩
      rw [logged_of_kept hkept.1 hkept.2]
      exact Function.update_self ..
    · have hbefore := ih ((exists_mem_concat_iff.1 h).resolve_right hkept)
      refine Or.inl ?_
      by_cases hk : e.Kept P
      · obtain ⟨b', hb'⟩ := exists_severityMapBit P e
        have hbb : b ≠ b' := by
          rintro rfl
          exact hkept ⟨hk, hb'⟩
        rw [logged_of_kept hk hb']
        dsimp only
        rw [Function.update_of_ne hbb]
        exact hbefore
      · rw [(logged_of_not_kept hk).2]
        exact hbefore

end Log

/-! ### Notification -/

/-- What the log and the next `ProcessorNotifyOs` should be, for one processor. -/
structure Notified {n : ℕ} (P : McaPlatform) (cfg : ErrorHandlerSetup) (errors : List BankError)
    (saveStateType : ℕ) (osNotified : Bool) (s : SmmErrorMpSyncData n) (c : Fin n) : Prop where
  /-- `ErrorsFound` says whether an error was kept. -/
  errorsFound : (s.cpuData c).eventLog.errorsFound = true ↔ ∃ e ∈ errors, e.Kept P
  /-- The severities are those of the kept errors. -/
  severityMap : ∀ b, (s.cpuData c).eventLog.severityMap b = true ↔ ∃ e ∈ errors, e.KeptAs P b
  /-- If a corrected error was kept, one is signalled. -/
  corrected : (∃ e ∈ errors, e.KeptAs P .corrected) → ∃ e ∈ errors, e.KeptAs P .corrected ∧
    .signalCmciToOs ⟨e.bank, (e.mcErrSig P).apicId⟩ ∈
      (processorNotifyOs cfg saveStateType s osNotified).actions
  /-- If any other was kept, all processors are told. -/
  uncorrected : (∃ e ∈ errors, e.KeptAs P .recoverable ∨ e.KeptAs P .fatal) → ∀ k : Fin n,
    ∃ broadcast lmceNotify, .signalMceToOs k saveStateType broadcast lmceNotify ∈
      (processorNotifyOs cfg saveStateType s osNotified).actions
  /-- `ErrorsFound` is reset. -/
  errorsFound_after : ((processorNotifyOs cfg saveStateType s osNotified).data.cpuData
    c).eventLog.errorsFound = false
  /-- The severities are cleared. -/
  severityMap_after : ∀ b, ((processorNotifyOs cfg saveStateType s osNotified).data.cpuData
    c).eventLog.severityMap b = false

/-- The errors of the SMI, and the platform, let all that come true: nothing was kept; or the last
error was, on a platform with the second generation of the feature and the signals enabled. -/
def Notifiable (P : McaPlatform) (cfg : ErrorHandlerSetup) (errors : List BankError) : Prop :=
  (∃ e ∈ errors, e.Kept P) → KeptLast P errors ∧ cfg.emcaGen2Cap = true ∧
    ((∃ e ∈ errors, e.KeptAs P .corrected) → cfg.emcaCsmiEn = 2) ∧
    ((∃ e ∈ errors, e.KeptAs P .recoverable ∨ e.KeptAs P .fatal) → cfg.emcaMsmiEn = 2)

section Notify

variable {n : ℕ} {saveStateType : ℕ} {osNotified : Bool} {s : SmmErrorMpSyncData n}

theorem mem_actions_cmci {location : ErrorLocation}
    (h : .signalCmciToOs location ∈ (processorNotifyOs cfg saveStateType s osNotified).actions) :
    cfg.emcaCsmiEn = 2 := by
  rw [processorNotifyOs] at h
  split at h
  · cases h
  · obtain h | h := List.mem_append.1 h
    · obtain ⟨c, hc, -⟩ := List.mem_map.1 h
      have hfound := (List.mem_filter.1 hc).2
      simp only [correctedErrorFound, Bool.and_eq_true, beq_iff_eq] at hfound
      exact hfound.2
    · split at h
      · obtain ⟨c, -, hc⟩ := List.mem_map.1 h
        cases hc
      · cases h

theorem mem_actions_mce {k : ℕ} {broadcast lmceNotify : Bool}
    (h : .signalMceToOs k saveStateType broadcast lmceNotify ∈
      (processorNotifyOs cfg saveStateType s osNotified).actions) : cfg.emcaMsmiEn = 2 := by
  rw [processorNotifyOs] at h
  split at h
  · cases h
  · obtain h | h := List.mem_append.1 h
    · obtain ⟨c, -, hc⟩ := List.mem_map.1 h
      cases hc
    · split at h
      · rename_i hmce
        simp only [Bool.and_eq_true, beq_iff_eq] at hmce
        exact hmce.2
      · cases h

/-- A corrected error in a log with `ErrorsFound` set is signalled. -/
theorem signalCmciToOs_mem (hcap : cfg.emcaGen2Cap = true) (hcsmi : cfg.emcaCsmiEn = 2)
    {c : Fin n} (hfound : (s.cpuData c).eventLog.errorsFound = true)
    (hmap : (s.cpuData c).eventLog.severityMap .corrected = true) :
    .signalCmciToOs ((s.cpuData c).eventLog.log .corrected) ∈
      (processorNotifyOs cfg saveStateType s osNotified).actions := by
  rw [processorNotifyOs, if_neg (by simp [hcap])]
  refine List.mem_append_left _ (List.mem_map.2 ⟨c, List.mem_filter.2 ⟨List.mem_finRange c, ?_⟩,
    rfl⟩)
  rw [correctedErrorFound, hfound, hmap, hcsmi]
  rfl

/-- An uncorrected one is signalled to all processors. -/
theorem signalMceToOs_mem (hcap : cfg.emcaGen2Cap = true) (hmsmi : cfg.emcaMsmiEn = 2)
    {c : Fin n} (hfound : (s.cpuData c).eventLog.errorsFound = true)
    (hmap : (s.cpuData c).eventLog.severityMap .recoverable = true ∨
      (s.cpuData c).eventLog.severityMap .fatal = true) (k : Fin n) :
    ∃ broadcast lmceNotify, .signalMceToOs k saveStateType broadcast lmceNotify ∈
      (processorNotifyOs cfg saveStateType s osNotified).actions := by
  have huncorrected : (List.finRange n).any (fun c ↦ uncorrectedErrorFound cfg (s.cpuData c)) =
      true := by
    refine List.any_eq_true.2 ⟨c, List.mem_finRange c, ?_⟩
    rw [uncorrectedErrorFound, hfound, hmsmi, Bool.or_eq_true_iff.2 hmap]
    rfl
  refine ⟨s.broadcast, !(s.cpuData k).mcip && (s.cpuData k).lmce, ?_⟩
  rw [processorNotifyOs, if_neg (by simp [hcap])]
  refine List.mem_append_right _ ?_
  rw [if_pos (by rw [huncorrected, hmsmi]; rfl)]
  exact List.mem_map.2 ⟨k, List.mem_finRange k, rfl⟩

/-- Each processor's log after the call. -/
theorem eventLog_processorNotifyOs (hcap : cfg.emcaGen2Cap = true) (c : Fin n) :
    ((processorNotifyOs cfg saveStateType s osNotified).data.cpuData c).eventLog =
      clearEventLog (s.cpuData c).eventLog := by
  rw [processorNotifyOs, if_neg (by simp [hcap])]

theorem eventLog_processorNotifyOs_of_not (hcap : ¬ cfg.emcaGen2Cap = true) (c : Fin n) :
    ((processorNotifyOs cfg saveStateType s osNotified).data.cpuData c).eventLog =
      (s.cpuData c).eventLog := by
  rw [processorNotifyOs, if_pos (by simp [hcap])]

/-- A log that is clean stays clean. -/
theorem clean_processorNotifyOs (cfg : ErrorHandlerSetup) (saveStateType : ℕ) (osNotified : Bool)
    {c : Fin n} (hfound : (s.cpuData c).eventLog.errorsFound = false)
    (hmap : ∀ b, (s.cpuData c).eventLog.severityMap b = false) :
    ((processorNotifyOs cfg saveStateType s osNotified).data.cpuData c).eventLog.errorsFound =
        false ∧
      ∀ b, ((processorNotifyOs cfg saveStateType s osNotified).data.cpuData
        c).eventLog.severityMap b = false := by
  by_cases hcap : cfg.emcaGen2Cap = true
  · rw [eventLog_processorNotifyOs hcap, clearEventLog, hfound]
    exact ⟨rfl, hmap⟩
  · rw [eventLog_processorNotifyOs_of_not hcap]
    exact ⟨hfound, hmap⟩

end Notify

/-- A log with nothing in it. -/
structure EventLog.Clean (eventLog : EventLog) : Prop where
  /-- `ErrorsFound` is reset. -/
  errorsFound : eventLog.errorsFound = false
  /-- No severity is logged. -/
  severityMap : ∀ b, eventLog.severityMap b = false

/-- **Exactly when no error is lost.** The calls of the handler on one processor that start from a
clean log leave it as it should be, and the next notification signals every severity and cleans the
log, if and only if nothing is kept, or the last error is and the platform signals what was
logged. -/
theorem notified_iff {cpu cpu' : CpuData} (hcpu : cpu.AtRest) (hclean : cpu.eventLog.Clean)
    {errors : List BankError} (herrors : handleBanks P cfg cpu errors = some cpu') {n : ℕ}
    {s : SmmErrorMpSyncData n} {c : Fin n} (hs : s.cpuData c = cpu') (saveStateType : ℕ)
    (osNotified : Bool) :
    Notified P cfg errors saveStateType osNotified s c ↔ Notifiable P cfg errors := by
  obtain ⟨-, hlog⟩ := handleBanks_eq_some hcpu herrors
  have hfound : (s.cpuData c).eventLog.errorsFound = true ↔ KeptLast P errors := by
    rw [hs, hlog]
    exact errorsFound_foldl_logged hclean.errorsFound
  have hmap : ∀ b, (s.cpuData c).eventLog.severityMap b = true ↔ ∃ e ∈ errors, e.KeptAs P b := by
    rw [hs, hlog]
    exact severityMap_foldl_logged hclean.severityMap
  constructor
  · intro h hkept
    have hset := h.errorsFound.2 hkept
    refine ⟨hfound.1 hset, ?_, fun hcorrected ↦ ?_, fun huncorrected ↦ ?_⟩
    · -- otherwise the call would have left `ErrorsFound` as it was
      by_contra hcap
      have hafter := h.errorsFound_after
      rw [eventLog_processorNotifyOs_of_not hcap, hset] at hafter
      cases hafter
    · obtain ⟨e, -, -, hmem⟩ := h.corrected hcorrected
      exact mem_actions_cmci hmem
    · obtain ⟨broadcast, lmceNotify, hmem⟩ := h.uncorrected huncorrected c
      exact mem_actions_mce hmem
  · intro h
    by_cases hkept : ∃ e ∈ errors, e.Kept P
    · obtain ⟨hlast, hcap, hcsmi, hmsmi⟩ := h hkept
      have hset := hfound.2 hlast
      refine ⟨iff_of_true hset hkept, hmap, fun hcorrected ↦ ?_, fun huncorrected ↦ ?_, ?_, ?_⟩
      · obtain ⟨e, he, hke, hloc⟩ := log_foldl_logged cpu.eventLog hcorrected
        refine ⟨e, he, hke, ?_⟩
        rw [← hloc, ← hlog, ← hs]
        exact signalCmciToOs_mem hcap (hcsmi hcorrected) hset ((hmap _).2 hcorrected)
      · have hor : (s.cpuData c).eventLog.severityMap .recoverable = true ∨
            (s.cpuData c).eventLog.severityMap .fatal = true := by
          obtain ⟨e, he, hr | hf⟩ := huncorrected
          · exact Or.inl ((hmap _).2 ⟨e, he, hr⟩)
          · exact Or.inr ((hmap _).2 ⟨e, he, hf⟩)
        exact signalMceToOs_mem hcap (hmsmi huncorrected) hset hor
      · rw [eventLog_processorNotifyOs hcap]
        rfl
      · rw [eventLog_processorNotifyOs hcap, clearEventLog, hset]
        exact fun _ ↦ rfl
    · -- nothing was kept: the log is as clean as it was
      have hunset : (s.cpuData c).eventLog.errorsFound = false := by
        rw [Bool.eq_false_iff]
        intro hset
        obtain ⟨e, hlast, hk⟩ := hfound.1 hset
        have hmem := List.mem_of_getLast? hlast
        exact hkept ⟨e, (List.mem_filter.1 hmem).1, hk⟩
      have hunmap : ∀ b, (s.cpuData c).eventLog.severityMap b = false := by
        intro b
        rw [Bool.eq_false_iff]
        intro hset
        obtain ⟨e, he, hk, -⟩ := (hmap b).1 hset
        exact hkept ⟨e, he, hk⟩
      obtain ⟨hafter, hafter'⟩ :=
        clean_processorNotifyOs cfg saveStateType osNotified hunset hunmap
      refine ⟨iff_of_false ?_ hkept, hmap, ?_, ?_, hafter, hafter'⟩
      · rw [hunset]
        exact Bool.false_ne_true
      · rintro ⟨e, he, hk, -⟩
        exact absurd ⟨e, he, hk⟩ hkept
      · rintro ⟨e, he, ⟨hk, -⟩ | ⟨hk, -⟩⟩
        · exact absurd ⟨e, he, hk⟩ hkept
        · exact absurd ⟨e, he, hk⟩ hkept

/-- A platform whose bank 6 is that of the I/O unit. -/
def ioPlatform : McaPlatform :=
  { plainPlatform with getMcBankSecType := fun bank ↦ if bank = 6 then .iio else .procGen }

/-- A corrected error. -/
def correctedError : BankError := ⟨.uncore, 5, correctedAnswer⟩

/-- A completion timeout after the removal of a device. -/
def removalError : BankError := ⟨.uncore, 6, { fatalAnswer with handleIoMca := true }⟩

/-- An idle processor after some calls of the handler. -/
def loggedCpu (errors : List BankError) : CpuData :=
  (handleBanks ioPlatform (signalSetup false) idleCpu errors).getD idleCpu

theorem handleBanks_loggedCpu {errors : List BankError}
    (h : (handleBanks ioPlatform (signalSetup false) idleCpu errors).isSome = true) :
    handleBanks ioPlatform (signalSetup false) idleCpu errors = some (loggedCpu errors) := by
  obtain ⟨cpu, hcpu⟩ := Option.isSome_iff_exists.1 h
  rw [loggedCpu, hcpu]
  rfl

theorem clean_idleCpu : idleCpu.eventLog.Clean := ⟨rfl, fun _ ↦ rfl⟩

/-- The equivalence, where a device was removed first and an error was corrected then. -/
theorem notified_removalFirst :
    Notified ioPlatform (signalSetup false) [removalError, correctedError] 0 false
      (⟨fun _ ↦ loggedCpu [removalError, correctedError], false⟩ : SmmErrorMpSyncData 1)
      ⟨0, by decide⟩ := by
  refine (notified_iff atRest_idleCpu clean_idleCpu (handleBanks_loggedCpu (by decide)) rfl 0
    false).2 ?_
  intro _
  refine ⟨⟨correctedError, by rfl, by decide⟩, rfl, fun _ ↦ rfl, fun _ ↦ rfl⟩

/-- The other way round the corrected error is lost, whatever is enabled. -/
theorem not_notified_removalLast :
    ¬ ∀ (P : McaPlatform) (cfg : ErrorHandlerSetup) (cpu cpu' : CpuData) (errors : List BankError)
      (s : SmmErrorMpSyncData 1), cpu.AtRest → cpu.eventLog.Clean → cfg.emcaGen2Cap = true →
        cfg.emcaCsmiEn = 2 → cfg.emcaMsmiEn = 2 → handleBanks P cfg cpu errors = some cpu' →
          s.cpuData ⟨0, by decide⟩ = cpu' → Notified P cfg errors 0 false s ⟨0, by decide⟩ := by
  intro h
  have hnotified := h ioPlatform (signalSetup false) idleCpu _ [correctedError, removalError]
    ⟨fun _ ↦ loggedCpu [correctedError, removalError], false⟩ atRest_idleCpu clean_idleCpu rfl rfl
    rfl (handleBanks_loggedCpu (by decide)) rfl
  have hset := hnotified.errorsFound.2 ⟨correctedError, List.mem_cons_self, by decide⟩
  exact absurd hset (by decide)

end PurleyFirmware.Ras
