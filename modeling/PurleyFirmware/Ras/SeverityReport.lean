import Mathlib.Data.Finset.Lattice.Fold
import Mathlib.Data.Fintype.Basic
import PurleyFirmware.Foundation.Runs
import PurleyFirmware.Ras.McBankContention
import PurleyFirmware.Ras.BankErrors

/-!
# The severity reported to the operating system

All processors raise one variable, `mSeverity`, and each does so in two steps: it tests whether its
error is more severe, and if so stores it. `McaDetectAndHandle` then returns the variable, and
nothing ever lowers it again. So what is reported in an SMI is the maximum over that SMI *and
whatever was reported before*.

A schedule says which processor goes next. Where no processor stores its severity after another has
stored a higher one (`RaceFree`), the report is right exactly when no earlier SMI left anything
higher than the present SMI has (`along_reportsOwnSeverity_iff`).
-/

namespace PurleyFirmware.Ras

variable {κ : Type} [DecidableEq κ]

/-! ### Raising the variable -/

/-- The variable and the processors that raise it. -/
structure SeverityState (κ : Type) where
  /-- `mSeverity`. -/
  mSeverity : Severity
  /-- Severities that are tested but not stored. -/
  tested : κ → Option Severity
  /-- Severities that each processor still has to raise the variable by. -/
  todo : κ → List Severity

/-- The next step of a processor: the store that follows a test, or else the next test. -/
def SeverityState.step (s : SeverityState κ) (c : κ) : SeverityState κ :=
  match s.tested c with
  | some sev => { s with mSeverity := sev, tested := Function.update s.tested c none }
  | none =>
    match s.todo c with
    | [] => s
    | sev :: rest => { s with
        tested := Function.update s.tested c
          (if s.mSeverity ≠ getHighestSeverity sev s.mSeverity then some sev else none)
        todo := Function.update s.todo c rest }

/-- All processors are done. -/
def SeverityState.Finished (s : SeverityState κ) : Prop :=
  ∀ c, s.tested c = none ∧ s.todo c = []

/-- A processor that goes next does not store a severity below the one that is there. -/
def SeverityState.NoLoss (s : SeverityState κ) (c : κ) : Prop :=
  ∀ sev ∈ s.tested c, s.mSeverity ≤ sev

instance (s : SeverityState κ) (c : κ) : Decidable (s.NoLoss c) :=
  inferInstanceAs (Decidable (∀ sev ∈ s.tested c, _))

/-! ### One SMI -/

/-- The error handler's part of one SMI. -/
structure ErrorSmi (κ : Type) where
  /-- The state of the error handler. It is `finishedState` when the last exit from SMM has not
  reset it. -/
  emcaHandlerState : EmcaHandlerState
  /-- The banks that each processor handles. -/
  errors : κ → List BankError
  /-- Which processor goes next. -/
  schedule : List κ

variable (P : McaPlatform) (cfg : ErrorHandlerSetup)

namespace ErrorSmi

variable (smi : ErrorSmi κ)

/-- `ProcessSocketMcBankError` is called, once: the loop of `McaDetectAndHandle` goes from whatever
state it finds to the finished one. -/
def Processed : Prop := smi.emcaHandlerState ≠ .finishedState

instance : Decidable smi.Processed := inferInstanceAs (Decidable (_ ≠ _))

/-- The severities that the handlers compute on one processor. -/
def severities (c : κ) : List Severity :=
  if smi.Processed then (smi.errors c).flatMap (BankError.severities P) else []

/-- The variable and the processors before the handlers start. -/
def start (mSeverity : Severity) : SeverityState κ :=
  ⟨mSeverity, fun _ ↦ none, smi.severities P⟩

/-- `mSeverity` after the SMI. -/
def after (mSeverity : Severity) : Severity :=
  (smi.schedule.foldl SeverityState.step (smi.start P mSeverity)).mSeverity

/-- All handlers return, and the caller waits for all of them. -/
def Returns (mSeverity : Severity) : Prop :=
  (∀ c, ∀ e ∈ smi.errors c, ¬ e.Spins P cfg) ∧
    (smi.schedule.foldl SeverityState.step (smi.start P mSeverity)).Finished

/-- No severity is lost between a test and its store. -/
def RaceFree (mSeverity : Severity) : Prop :=
  Along SeverityState.step SeverityState.NoLoss (smi.start P mSeverity) smi.schedule

instance [Fintype κ] (mSeverity : Severity) : Decidable (smi.Returns P cfg mSeverity) :=
  inferInstanceAs (Decidable ((∀ _, ∀ _ ∈ _, ¬ _) ∧ ∀ _, _ ∧ _))

instance (mSeverity : Severity) : Decidable (smi.RaceFree P mSeverity) :=
  inferInstanceAs (Decidable (Along _ _ _ _))

end ErrorSmi

/-- What `McaDetectAndHandle` returns, from `mSeverity` when the handlers are done. -/
def mcaDetectAndHandle (mSeverity : Severity) : Severity :=
  if Severity.none ≠ getHighestSeverity mSeverity .none then mSeverity else .none

/-- What a reporter answers: `CheckStatus`, and the severity that `DetectAndHandle` returns. -/
structure Reporter where
  /-- An error is pending. -/
  checkStatus : Bool
  /-- The severity. -/
  detectAndHandle : Severity

/-- The severity that `MainErrorHandler` has gathered after another reporter. -/
def gatherSeverity (severity : Severity) (r : Reporter) : Severity :=
  if r.checkStatus then
    match r.detectAndHandle with
    | .fatal => .fatal
    | .corrected => if severity = .none then .corrected else severity
    | .correctable => if severity = .none ∨ severity = .corrected then .correctable else severity
    | .none => severity
  else severity

/-- What `MainErrorHandler` passes to `NotifyOs`, if it calls it. -/
def mainErrorHandler (reporters : List Reporter) : Option Severity :=
  let severity := reporters.foldl gatherSeverity .none
  if severity ≠ .none then some severity else none

/-! ### What the variable is raised to -/

namespace SeverityState

variable {s : SeverityState κ} {c : κ} {x : Severity}

/-- Nothing is, or will be, above `x`. -/
def Below (s : SeverityState κ) (x : Severity) : Prop :=
  s.mSeverity ≤ x ∧ ∀ c, (∀ sev ∈ s.tested c, sev ≤ x) ∧ ∀ sev ∈ s.todo c, sev ≤ x

theorem step_of_tested {sev : Severity} (ht : s.tested c = some sev) :
    s.step c = { s with mSeverity := sev, tested := Function.update s.tested c none } := by
  rw [step, ht]

theorem step_of_todo {sev : Severity} {rest : List Severity} (ht : s.tested c = none)
    (hd : s.todo c = sev :: rest) :
    s.step c = { s with
      tested := Function.update s.tested c
        (if s.mSeverity ≠ getHighestSeverity sev s.mSeverity then some sev else none)
      todo := Function.update s.todo c rest } := by
  rw [step, ht]
  dsimp only
  rw [hd]

theorem step_of_idle (ht : s.tested c = none) (hd : s.todo c = []) : s.step c = s := by
  rw [step, ht]
  dsimp only
  rw [hd]

/-- **A step that loses nothing** keeps the bounds of all that is and will be stored. -/
theorem below_step_iff (hloss : s.NoLoss c) : (s.step c).Below x ↔ s.Below x := by
  cases ht : s.tested c with
  | some sev =>
    have hle : s.mSeverity ≤ sev := hloss sev ht
    rw [step_of_tested ht, Below, Below]
    dsimp only
    constructor
    · rintro ⟨hsev, hall⟩
      refine ⟨hle.trans hsev, fun c' ↦ ⟨fun sev' ht' ↦ ?_, (hall c').2⟩⟩
      by_cases hc : c' = c
      · rw [hc, ht] at ht'
        obtain rfl := Option.some.inj ht'
        exact hsev
      · refine (hall c').1 sev' ?_
        rwa [Function.update_of_ne hc]
    · rintro ⟨-, hall⟩
      refine ⟨(hall c).1 sev ht, fun c' ↦ ⟨fun sev' ht' ↦ ?_, (hall c').2⟩⟩
      by_cases hc : c' = c
      · rw [hc, Function.update_self] at ht'
        cases ht'
      · rw [Function.update_of_ne hc] at ht'
        exact (hall c').1 sev' ht'
  | none =>
    cases hd : s.todo c with
    | nil => rw [step_of_idle ht hd]
    | cons sev rest =>
      rw [step_of_todo ht hd, getHighestSeverity_eq_max, Below, Below]
      dsimp only
      constructor
      · rintro ⟨hm, hall⟩
        have hsev : sev ≤ x := by
          by_cases hhigh : s.mSeverity = max sev s.mSeverity
          · exact (max_eq_right_iff.1 hhigh.symm).trans hm
          · refine (hall c).1 sev ?_
            rw [Function.update_self, if_pos hhigh]
            rfl
        refine ⟨hm, fun c' ↦ ?_⟩
        by_cases hc : c' = c
        · rw [hc]
          refine ⟨fun sev' ht' ↦ ?_, fun sev' hd' ↦ ?_⟩
          · rw [ht] at ht'
            cases ht'
          · rw [hd] at hd'
            obtain rfl | hd' := List.mem_cons.1 hd'
            · exact hsev
            · refine (hall c).2 sev' ?_
              rwa [Function.update_self]
        · have hsame := hall c'
          rwa [Function.update_of_ne hc, Function.update_of_ne hc] at hsame
      · rintro ⟨hm, hall⟩
        have htodo := (hall c).2
        rw [hd] at htodo
        refine ⟨hm, fun c' ↦ ?_⟩
        by_cases hc : c' = c
        · rw [hc, Function.update_self, Function.update_self]
          refine ⟨fun sev' ht' ↦ ?_, fun sev' hd' ↦ htodo sev' (List.mem_cons_of_mem _ hd')⟩
          split at ht'
          · obtain rfl := Option.some.inj ht'
            exact htodo _ List.mem_cons_self
          · cases ht'
        · rw [Function.update_of_ne hc, Function.update_of_ne hc]
          exact hall c'

/-- **The run rule.** -/
theorem below_foldl_iff {cs : List κ} (hloss : Along step NoLoss s cs) :
    (cs.foldl step s).Below x ↔ s.Below x := by
  induction cs generalizing s with
  | nil => exact Iff.rfl
  | cons c cs ih =>
    obtain ⟨hfirst, hrest⟩ := hloss
    rw [List.foldl_cons, ih hrest, below_step_iff hfirst]

omit [DecidableEq κ] in
/-- When all processors are done, only the variable counts. -/
theorem Finished.below_iff (h : s.Finished) : s.Below x ↔ s.mSeverity ≤ x := by
  refine ⟨fun hbelow ↦ hbelow.1, fun hm ↦ ⟨hm, fun c ↦ ⟨fun sev ht ↦ ?_, fun sev hd ↦ ?_⟩⟩⟩
  · rw [(h c).1] at ht
    cases ht
  · rw [(h c).2] at hd
    cases hd

end SeverityState

/-- The highest of some severities. -/
def maxSeverity (sevs : List Severity) : Severity := sevs.foldr max .none

theorem maxSeverity_le_iff {sevs : List Severity} {x : Severity} :
    maxSeverity sevs ≤ x ↔ ∀ sev ∈ sevs, sev ≤ x := by
  induction sevs with
  | nil => exact iff_of_true bot_le fun _ hsev ↦ absurd hsev List.not_mem_nil
  | cons sev sevs ih =>
    rw [List.forall_mem_cons, ← ih]
    exact max_le_iff

variable [Fintype κ] {P cfg}

/-- The highest severity that the handlers compute in the SMI. -/
def ErrorSmi.highest (P : McaPlatform) (smi : ErrorSmi κ) : Severity :=
  Finset.univ.sup fun c ↦ maxSeverity (smi.severities P c)

/-- **What the variable is raised to**: the maximum of the SMI and of what was there. -/
theorem ErrorSmi.after_eq {smi : ErrorSmi κ} {mSeverity : Severity}
    (hrace : smi.RaceFree P mSeverity) (hreturns : smi.Returns P cfg mSeverity) :
    smi.after P mSeverity = max mSeverity (smi.highest P) := by
  refine eq_of_forall_ge_iff fun x ↦ ?_
  rw [after, ← hreturns.2.below_iff, SeverityState.below_foldl_iff hrace, max_le_iff, highest,
    Finset.sup_le_iff]
  constructor
  · rintro ⟨hm, hall⟩
    exact ⟨hm, fun c _ ↦ maxSeverity_le_iff.2 (hall c).2⟩
  · rintro ⟨hm, hall⟩
    refine ⟨hm, fun c ↦ ⟨fun sev ht ↦ ?_, maxSeverity_le_iff.1 (hall c (Finset.mem_univ c))⟩⟩
    cases ht

theorem mcaDetectAndHandle_eq (mSeverity : Severity) : mcaDetectAndHandle mSeverity = mSeverity := by
  cases mSeverity <;> rfl

theorem mainErrorHandler_singleton (severity : Severity) :
    mainErrorHandler [⟨true, severity⟩] = if severity ≠ .none then some severity else none := by
  cases severity <;> rfl

/-! ### The report -/

/-- The severity of the SMI itself is returned, and passed on. -/
structure ReportsOwnSeverity (P : McaPlatform) (mSeverity : Severity) (smi : ErrorSmi κ) :
    Prop where
  /-- What `McaDetectAndHandle` returns. -/
  returned : mcaDetectAndHandle (smi.after P mSeverity) = smi.highest P
  /-- What `MainErrorHandler` passes to `NotifyOs` where it is the only reporter. -/
  passed : mainErrorHandler [⟨true, mcaDetectAndHandle (smi.after P mSeverity)⟩] =
    if smi.highest P ≠ .none then some (smi.highest P) else none

/-- **One SMI.** -/
theorem reportsOwnSeverity_iff {smi : ErrorSmi κ} {mSeverity : Severity}
    (hrace : smi.RaceFree P mSeverity) (hreturns : smi.Returns P cfg mSeverity) :
    ReportsOwnSeverity P mSeverity smi ↔ mSeverity ≤ smi.highest P := by
  constructor
  · rintro ⟨hreturned, -⟩
    rw [mcaDetectAndHandle_eq, ErrorSmi.after_eq hrace hreturns] at hreturned
    exact max_eq_right_iff.1 hreturned
  · intro hle
    have heq : mcaDetectAndHandle (smi.after P mSeverity) = smi.highest P := by
      rw [mcaDetectAndHandle_eq, ErrorSmi.after_eq hrace hreturns, max_eq_right hle]
    refine ⟨heq, ?_⟩
    rw [heq, mainErrorHandler_singleton]

/-- **Exactly when every SMI reports its own severity.** In a sequence of SMIs whose handlers all
return and lose nothing to each other, every report is right if and only if `mSeverity` is never
above the highest severity of the SMI that comes. -/
theorem along_reportsOwnSeverity_iff {mSeverity : Severity} {smis : List (ErrorSmi κ)}
    (h : Along (fun m smi ↦ smi.after P m) (fun m smi ↦ smi.RaceFree P m ∧ smi.Returns P cfg m)
      mSeverity smis) :
    Along (fun m smi ↦ smi.after P m) (ReportsOwnSeverity P) mSeverity smis ↔
      Along (fun m smi ↦ smi.after P m) (fun m smi ↦ m ≤ smi.highest P) mSeverity smis := by
  have hpres : ∀ (m : Severity) (smi : ErrorSmi κ), True →
      smi.RaceFree P m ∧ smi.Returns P cfg m → ReportsOwnSeverity P m smi → True :=
    fun _ _ _ _ _ ↦ trivial
  have hiff : ∀ (m : Severity) (smi : ErrorSmi κ), True →
      smi.RaceFree P m ∧ smi.Returns P cfg m →
        (ReportsOwnSeverity P m smi ↔ m ≤ smi.highest P) :=
    fun _ _ _ hr ↦ reportsOwnSeverity_iff hr.1 hr.2
  exact along_iff_of_invariant hpres hiff trivial h

/-- One error on each of two processors, one after the other. -/
def twoErrorSmi (a b : McAnswer) : ErrorSmi Bool where
  emcaHandlerState := .notStartedState
  errors c := [⟨.core, 4, if c then a else b⟩]
  schedule := [true, true, false, false]

/-- The equivalence, where the severities go up: corrected errors first, then a fatal one. -/
theorem along_reportsOwnSeverity_rising :
    Along (fun m smi ↦ smi.after plainPlatform m) (ReportsOwnSeverity plainPlatform) .none
      [twoErrorSmi correctedAnswer correctedAnswer, twoErrorSmi correctedAnswer fatalAnswer] := by
  have h : Along (fun m smi ↦ smi.after plainPlatform m)
      (fun m smi ↦ smi.RaceFree plainPlatform m ∧
        smi.Returns plainPlatform (signalSetup false) m) .none
      [twoErrorSmi correctedAnswer correctedAnswer, twoErrorSmi correctedAnswer fatalAnswer] := by
    decide
  exact (along_reportsOwnSeverity_iff h).2 (by decide)

/-- After a fatal error, a corrected one is reported as fatal. -/
theorem not_along_reportsOwnSeverity_falling :
    ¬ ∀ (P : McaPlatform) (cfg : ErrorHandlerSetup) (smis : List (ErrorSmi Bool)),
      Along (fun m smi ↦ smi.after P m) (fun m smi ↦ smi.RaceFree P m ∧ smi.Returns P cfg m)
          .none smis →
        Along (fun m smi ↦ smi.after P m) (ReportsOwnSeverity P) .none smis := by
  intro h
  have hrun := h plainPlatform (signalSetup false)
    [twoErrorSmi fatalAnswer correctedAnswer, twoErrorSmi correctedAnswer correctedAnswer]
    (by decide)
  exact absurd hrun.2.1.returned (by decide)

end PurleyFirmware.Ras
