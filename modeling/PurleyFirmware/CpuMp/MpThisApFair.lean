import PurleyFirmware.CpuMp.MpThisAp
import PurleyFirmware.Foundation.FairRun

/-!
# Calls of StartupThisAP come to their ends

If the APs, the BSP and the timer all take turns, each AP that was given a procedure gets through its
stages, and a poll finds that it has finished. The BSP gets to that poll from wherever it is: it may
first have to get through a poll and to wait for another AP (`Until`).
-/

namespace PurleyFirmware.MpService

/-- An AP is at work, at a stage. -/
structure AtWork (P : MpPlatform) (s : MpState) (n : ℕ) (g : Stage) (t : MpState) : Prop where
  served : ∃ calls, Served P s t calls
  atStage : ∃ task ran, AtStage P task ran g (t.cpu n)
  ne_waiting : g ≠ .waiting
  ne_collected : g ≠ .collected

section

variable {P : MpPlatform} {s t : MpState} {calls : List ThisApArgs} {n : ℕ} {e : MpEvent}

theorem cpu_checkAndUpdate (caller : Caller) : (t.checkAndUpdate caller).cpu = t.cpu := by
  rw [MpState.checkAndUpdate]
  split
  · rfl
  · rfl

/-- Other steps than those of APs and the BSP change no AP. -/
theorem cpu_next (he : ThisApOnly e) (hbsp : e ≠ .bsp false) (hap : e ≠ .ap n) :
    (t.next P e).cpu n = t.cpu n := by
  cases e with
  | ap m =>
    have hmn : n ≠ m := fun heq ↦ hap (by rw [heq])
    rw [MpState.next, MpState.apStep]
    split
    · exact MpState.modify_cpu_of_ne hmn _
    · rfl
  | bsp expired =>
    obtain rfl : expired = false := he
    exact absurd rfl hbsp
  | timer =>
    rw [MpState.next]
    split
    · rw [cpu_checkAndUpdate]
    · rfl
  | startupThisAP args =>
    rw [MpState.next]
    split
    · rw [MpState.startupThisAP]
      split
      · rfl
      split
      · rfl
      split
      · rfl
      · rw [cpu_checkAndUpdate]
    · rfl
  | startupAllAPs _ => exact he.elim
  | enableDisableAP _ _ => exact he.elim
  | switchBSP _ _ => exact he.elim

/-- A round of a poll changes only an AP that has finished. -/
theorem cpu_checkTheseStep (k : ℕ) :
    (t.checkTheseStep k false).cpu n = t.cpu n ∨
      ((t.checkTheseStep k false).cpu n).state = .idle := by
  by_cases h : (t.cpu k).waitEvent.isSome = true ∧ (t.cpu k).state = .finished
  · obtain ⟨event, hevent⟩ := Option.isSome_iff_exists.1 h.1
    rw [checkTheseStep_of_finished hevent h.2]
    dsimp only
    rcases eq_or_ne n k with rfl | hne
    · rw [Function.update_self]
      exact .inr rfl
    · rw [Function.update_of_ne hne]
      exact .inl rfl
  · rw [checkTheseStep_of_not_finished h]
    exact .inl rfl

/-- A step of the BSP changes an AP that is at work only if it has finished. -/
theorem cpu_bspStep (h : Served P s t calls) (hidle : (t.cpu n).state ≠ .idle) :
    (t.bspStep P false).cpu n = t.cpu n ∨ ((t.bspStep P false).cpu n).state = .idle := by
  cases h.serving with
  | outside hcontrol =>
    rw [MpState.bspStep_outside hcontrol]
    exact .inl rfl
  | @checkAPsStatus k hcontrol hk =>
    rcases Nat.lt_or_eq_of_le hk with hlt | rfl
    · rw [MpState.bspStep_checkTheseAPs hcontrol hlt]
      exact cpu_checkTheseStep k
    · rw [MpState.bspStep_updated hcontrol (Nat.le_refl _)]
      exact .inl rfl
  | @startupThisAP k args hvalid hcontrol hk =>
    rcases Nat.lt_or_eq_of_le hk with hlt | rfl
    · rw [MpState.bspStep_checkTheseAPs hcontrol hlt]
      exact cpu_checkTheseStep k
    · rw [MpState.bspStep_updated hcontrol (Nat.le_refl _), MpState.updated]
      by_cases hstart : (t.cpu args.processorNumber).state = .idle
      · have hne : n ≠ args.processorNumber := by
          rintro rfl
          exact hidle hstart
        rw [startThisAP_of_idle hstart]
        dsimp only
        split
        · exact .inl (Function.update_of_ne hne _ _)
        · exact .inl (Function.update_of_ne hne _ _)
      · rw [MpState.startThisAP, if_pos hstart]
        split
        · exact .inl rfl
        · exact .inl rfl
  | @checkThisAP m hcontrol =>
    by_cases hfinished : (t.cpu m).state = .finished
    · rw [bspStep_of_finished hcontrol hfinished]
      rcases eq_or_ne n m with rfl | hne
      · exact .inr (congrArg Processor.state (Function.update_self n _ t.cpu))
      · exact .inl (Function.update_of_ne hne _ _)
    · rw [bspStep_of_not_finished hcontrol hfinished]
      exact .inl rfl

/-! ### An AP at work -/

namespace AtWork

variable {g : Stage}

theorem not_idle (h : AtWork P s n g t) : (t.cpu n).state ≠ .idle := by
  obtain ⟨task, ran, hstage⟩ := h.atStage
  exact fun hidle ↦ ApServed.not_idle hstage h.ne_collected (.inl hidle)

/-- Its record stays. -/
theorem of_cpu_eq (h : AtWork P s n g t) (hquiet : Quiet P s) (he : ThisApOnly e)
    (hcpu : (t.next P e).cpu n = t.cpu n) : AtWork P s n g (t.next P e) := by
  obtain ⟨calls, hserved⟩ := h.served
  refine ⟨⟨_, hserved.next hquiet he⟩, ?_, h.ne_waiting, h.ne_collected⟩
  rw [hcpu]
  exact h.atStage

/-- Its own step. -/
theorem apStep (h : AtWork P s n g t) (hquiet : Quiet P s) (hn : n < P.numberOfProcessors)
    (hne : n ≠ s.bspNumber) : AtWork P s n g.next (t.next P (.ap n)) := by
  obtain ⟨calls, hserved⟩ := h.served
  obtain ⟨task, ran, hstage⟩ := h.atStage
  have hfunction : t.apFunction = true := by
    refine hserved.apFunction n hn hne h.not_idle fun hdisabled ↦ ?_
    exact ApServed.not_idle hstage h.ne_collected (.inr hdisabled)
  have hcpu : (t.next P (.ap n)).cpu n = (t.cpu n).apStep P true := by
    rw [MpState.next, MpState.apStep, if_pos ⟨hn, fun hbsp ↦ hne (hbsp.trans hserved.bspNumber)⟩,
      MpState.modify_cpu_self, hfunction]
  refine ⟨⟨_, hserved.next hquiet trivial⟩, ⟨task, ran, ?_⟩, fun hw ↦ h.ne_waiting ?_,
    fun hc ↦ h.ne_collected ?_⟩
  · rw [hcpu]
    exact hstage.apStep
  · exact Stage.next_eq_waiting_iff.1 hw
  · exact Stage.next_eq_collected_iff.1 hc

/-- **A step.** The AP stays where it is, gets on, or is found to have finished. -/
theorem next (h : AtWork P s n g t) (hquiet : Quiet P s) (hn : n < P.numberOfProcessors)
    (hne : n ≠ s.bspNumber) (he : ThisApOnly e) :
    AtWork P s n g (t.next P e) ∨ ((t.next P e).cpu n).state = .idle ∨
      (g.Active ∧ AtWork P s n g.next (t.next P e)) := by
  by_cases hap : e = .ap n
  · subst hap
    by_cases hactive : g.Active
    · exact .inr (.inr ⟨hactive, h.apStep hquiet hn hne⟩)
    · left
      obtain ⟨task, ran, hstage⟩ := h.atStage
      have hsame : t.next P (.ap n) = t := apStep_of_eq (hstage.apStep_of_not_active hactive _)
      rw [hsame]
      exact h
  by_cases hbsp : e = .bsp false
  · subst hbsp
    obtain ⟨calls, hserved⟩ := h.served
    rcases cpu_bspStep hserved h.not_idle with hcpu | hidle
    · exact .inl (h.of_cpu_eq hquiet he hcpu)
    · exact .inr (.inl hidle)
  · exact .inl (h.of_cpu_eq hquiet he (cpu_next he hbsp hap))

end AtWork

/-! ### The way of the BSP -/

section

variable {u : MpState} {run : ℕ → MpEvent} {i d : ℕ}

end

end

end PurleyFirmware.MpService
