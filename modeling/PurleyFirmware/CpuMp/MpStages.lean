import PurleyFirmware.CpuMp.MpService
import Mathlib.Tactic.SplitIfs

/-!
# Stages of an AP

What an AP goes through from the wait for a procedure to when the BSP finds that it has finished
(`Stage`), and what there is of it at each of them (`AtStage`). A step of the AP moves it to its next
stage, the BSP wakes it and collects it.
-/

namespace PurleyFirmware.MpService

/-! ### Stages -/

/-- How far an AP is with the procedure of the call. -/
inductive Stage
  | waiting
  | signaled
  | starting
  | wrapper
  | fetching
  | running
  | clearing
  | finishing
  | finished
  | collected
  deriving DecidableEq

namespace Stage

/-- Where the AP is. -/
def ap (task : ApTask) : Stage → ApControl
  | waiting | signaled | finished | collected => .loop
  | starting => .starting
  | wrapper => .wrapper
  | fetching => .fetching
  | running => .running task
  | clearing => .clearing
  | finishing => .finishing

/-- The state of the AP. -/
def state : Stage → CpuState
  | waiting | signaled | starting | wrapper => .ready
  | fetching | running | clearing | finishing => .busy
  | finished => .finished
  | collected => .idle

/-- The start signal of the AP, where it matters. -/
def signal : Stage → Option Bool
  | waiting | finishing | finished | collected => some false
  | signaled => some true
  | starting | wrapper | fetching | running | clearing => none

/-- The AP has been given the procedure and has not taken it. -/
def hasTask : Stage → Bool
  | signaled | starting | wrapper | fetching => true
  | waiting | running | clearing | finishing | finished | collected => false

/-- The AP has entered the procedure. -/
def hasRun : Stage → Bool
  | waiting | signaled | starting | wrapper | fetching => false
  | running | clearing | finishing | finished | collected => true

/-- How much is left. -/
def rank : Stage → ℕ
  | waiting => 9
  | signaled => 8
  | starting => 7
  | wrapper => 6
  | fetching => 5
  | running => 4
  | clearing => 3
  | finishing => 2
  | finished => 1
  | collected => 0

/-- The stage after a step of the AP. -/
def next : Stage → Stage
  | waiting => waiting
  | signaled => starting
  | starting => wrapper
  | wrapper => fetching
  | fetching => running
  | running => clearing
  | clearing => finishing
  | finishing => finished
  | finished => finished
  | collected => collected

/-- The AP goes on by itself. -/
def Active (g : Stage) : Prop := g ≠ waiting ∧ g ≠ finished ∧ g ≠ collected

instance {g : Stage} : Decidable g.Active := inferInstanceAs (Decidable (_ ∧ _ ∧ _))

theorem rank_next_lt {g : Stage} (h : g.Active) : g.next.rank < g.rank := by
  cases g <;> first | decide | exact absurd h (by decide)

theorem rank_lt_of_active {g : Stage} (h : g.Active) : g.rank < waiting.rank := by
  cases g <;> first | decide | exact absurd h (by decide)

theorem next_of_not_active {g : Stage} (h : ¬ g.Active) : g.next = g := by
  cases g <;> first | rfl | exact absurd (by decide) h

theorem next_eq_collected_iff {g : Stage} : g.next = collected ↔ g = collected := by
  cases g <;> decide

theorem next_eq_waiting_iff {g : Stage} : g.next = waiting ↔ g = waiting := by
  cases g <;> decide

end Stage

/-- **An AP at a stage of the call.** It had run `ran` before. -/
structure AtStage (P : MpPlatform) (task : ApTask) (ran : List ApTask) (g : Stage) (c : Processor) :
    Prop where
  state : c.state = g.state
  ap : c.ap = g.ap task
  signal : ∀ b, g.signal = some b → c.startupApSignal = b
  procedure : g.hasTask = true → c.procedure = some task
  ran_eq : c.ran = if g.hasRun then ran ++ [task] else ran
  /-- A signal is seen. -/
  mode : c.apLoopMode = .apInHltLoop ∨ P.apLoopMode ≠ .apInHltLoop
  seen : g = .signaled → P.apLoopMode ≠ .apInHltLoop

namespace AtStage

variable {P : MpPlatform} {task : ApTask} {ran : List ApTask} {g : Stage} {c : Processor}

/-- An AP that waits for the BSP does nothing. -/
theorem apStep_of_not_active (h : AtStage P task ran g c) (hactive : ¬ g.Active)
    (apFunction : Bool) : c.apStep P apFunction = c := by
  have hrest : g.ap task = .loop ∧ g.signal = some false := by
    cases g <;> first | exact ⟨rfl, rfl⟩ | exact absurd (by decide) hactive
  have hap : c.ap = .loop := h.ap.trans hrest.1
  have hsignal : c.startupApSignal = false := h.signal false hrest.2
  simp [Processor.apStep, hap, hsignal]

/-- A step of the AP. -/
theorem apStep (h : AtStage P task ran g c) :
    AtStage P task ran g.next (c.apStep P true) := by
  by_cases hactive : g.Active
  case neg =>
    rw [Stage.next_of_not_active hactive, h.apStep_of_not_active hactive]
    exact h
  have hap := h.ap
  have hsignal := h.signal
  have hprocedure := h.procedure
  cases g with
  | waiting => exact absurd hactive (by decide)
  | signaled =>
    have hgo : c.apStep P true = { c with ap := .starting } := by
      simp only [Stage.ap] at hap
      simp [Processor.apStep, hap, hsignal true rfl, h.seen rfl]
    rw [hgo]
    exact ⟨h.state, rfl, nofun, fun _ ↦ hprocedure rfl, h.ran_eq, h.mode, nofun⟩
  | starting =>
    simp only [Stage.ap] at hap
    simp only [Processor.apStep, hap, if_true]
    exact ⟨h.state, rfl, nofun, fun _ ↦ hprocedure rfl, h.ran_eq, h.mode, nofun⟩
  | wrapper =>
    simp only [Stage.ap] at hap
    simp only [Processor.apStep, hap]
    exact ⟨rfl, rfl, nofun, fun _ ↦ hprocedure rfl, h.ran_eq, h.mode, nofun⟩
  | fetching =>
    simp only [Stage.ap] at hap
    simp only [Processor.apStep, hap, hprocedure rfl]
    refine ⟨h.state, rfl, nofun, nofun, ?_, h.mode, nofun⟩
    have hran : c.ran = ran := h.ran_eq
    simp only [hran]
    rfl
  | running =>
    simp only [Stage.ap] at hap
    simp only [Processor.apStep, hap]
    exact ⟨h.state, rfl, nofun, nofun, h.ran_eq, h.mode, nofun⟩
  | clearing =>
    simp only [Stage.ap] at hap
    simp only [Processor.apStep, hap]
    refine ⟨h.state, rfl, fun b hb ↦ ?_, nofun, h.ran_eq, h.mode, nofun⟩
    exact Option.some.inj hb
  | finishing =>
    simp only [Stage.ap] at hap
    simp only [Processor.apStep, hap]
    exact ⟨rfl, rfl, hsignal, nofun, h.ran_eq, h.mode, nofun⟩
  | finished => exact absurd hactive (by decide)
  | collected => exact absurd hactive (by decide)

/-- The BSP wakes an AP that has waited. -/
theorem wakeUp (h : AtStage P task ran .waiting c) :
    AtStage P task ran (if c.apLoopMode = .apInHltLoop then .starting else .signaled)
      (c.wakeUp P (some task)) := by
  rw [Processor.wakeUp]
  split_ifs with hmode
  · refine ⟨h.state, rfl, nofun, fun _ ↦ rfl, h.ran_eq, ?_, nofun⟩
    exact Decidable.em (P.apLoopMode = .apInHltLoop)
  · have hseen := h.mode.resolve_left hmode
    refine ⟨h.state, h.ap, fun b hb ↦ ?_, fun _ ↦ rfl, h.ran_eq, .inr hseen,
      fun _ ↦ hseen⟩
    exact Option.some.inj hb

/-- The BSP finds that an AP has finished. What else it writes does not matter. -/
theorem collect (h : AtStage P task ran .finished c) {c' : Processor} (hstate : c'.state = .idle)
    (hap : c'.ap = c.ap) (hsignal : c'.startupApSignal = c.startupApSignal) (hran : c'.ran = c.ran)
    (hmode : c'.apLoopMode = c.apLoopMode) : AtStage P task ran .collected c' := by
  refine ⟨hstate, hap.trans h.ap, fun b hb ↦ hsignal.trans (h.signal b hb), nofun,
    hran.trans h.ran_eq, ?_, nofun⟩
  rw [hmode]
  exact h.mode

theorem eq_finished (h : AtStage P task ran g c) (hstate : c.state = .finished) : g = .finished := by
  have hstate' := h.state.symm.trans hstate
  cases g <;> first | rfl | cases hstate'

end AtStage

/-- An AP that is woken by its signal looks for it. -/
def Wakeable (P : MpPlatform) (s : MpState) : Prop :=
  ∀ n < P.numberOfProcessors, n ≠ s.bspNumber →
    (s.cpu n).apLoopMode = .apInHltLoop ∨ P.apLoopMode ≠ .apInHltLoop

/-- What an AP does not write. -/
theorem Processor.apStep_frame {P : MpPlatform} (apFunction : Bool) (c : Processor) :
    (c.apStep P apFunction).cpuList = c.cpuList ∧ (c.apStep P apFunction).waitEvent = c.waitEvent ∧
      (c.apStep P apFunction).expectedTime = c.expectedTime := by
  rw [Processor.apStep]
  repeat' split
  all_goals exact ⟨rfl, rfl, rfl⟩

theorem Processor.wakeUp_frame {P : MpPlatform} (task : Option ApTask) (c : Processor) :
    (c.wakeUp P task).cpuList = c.cpuList ∧ (c.wakeUp P task).waitEvent = c.waitEvent := by
  rw [Processor.wakeUp]
  split
  · exact ⟨rfl, rfl⟩
  · exact ⟨rfl, rfl⟩

/-! ### Steps of an AP -/

section

variable {P : MpPlatform} {t : MpState} {n : ℕ}

theorem apStep_of_not_mem (hn : ¬ (n < P.numberOfProcessors ∧ n ≠ t.bspNumber)) :
    t.apStep P n = t := by
  rw [MpState.apStep, if_neg hn]

theorem apStep_of_eq (h : (t.cpu n).apStep P t.apFunction = t.cpu n) : t.apStep P n = t := by
  rw [MpState.apStep]
  split
  · rw [MpState.modify, h, Function.update_eq_self]
  · rfl

end

end PurleyFirmware.MpService
