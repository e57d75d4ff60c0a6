import PurleyFirmware.Smm.RendezvousInvariant

/-!
# Every step of an AP keeps the invariant

`ViewInv.apMove` is the frame of an AP's step, and `ViewInv.apSilent` the frame of a step that
changes none of the counts. The steps that do change them are the check-in, the give-up and the
signals. `ViewInv.apStep` goes through the steps of `SmiRendezvous` and `APHandler`.
-/

namespace PurleyFirmware.Smm

variable {cfg : Config} {s s' : State}

/-! ### Counting -/

theorem awaiting_le (cfg : Config) (s : State) (p : Phase) : awaiting cfg s p ≤ cfg.maxCpus :=
  tally_le fun q ↦ Bool.toNat_le (q.awaits p)

/-- A processor that moves changes the counts by what it awaits before and after. -/
theorem awaiting_update {c : ℕ} {q : CpuPc} (hc : c < cfg.maxCpus)
    (hpc : s'.pc = Function.update s.pc c q) (p : Phase) :
    awaiting cfg s' p + ((s.pc c).awaits p).toNat = awaiting cfg s p + (q.awaits p).toNat := by
  unfold awaiting
  rw [hpc]
  exact tally_update hc (fun q ↦ (q.awaits p).toNat) s.pc q

theorem awaiting_eq_of_awaits {c : ℕ} {q : CpuPc} (hc : c < cfg.maxCpus)
    (hpc : s'.pc = Function.update s.pc c q) {p : Phase} (hq : q.awaits p = (s.pc c).awaits p) :
    awaiting cfg s' p = awaiting cfg s p := by
  have hupdate := awaiting_update hc hpc p
  rw [hq] at hupdate
  omega

theorem awaits_eq_false_of_awaiting {p : Phase} (h : awaiting cfg s p = 0) {c : ℕ}
    (hc : c < cfg.maxCpus) : (s.pc c).awaits p = false := by
  have hzero := tally_eq_zero_iff.1 h c hc
  simpa using hzero

theorem presentFrom_mono {index : ℕ} (h : ∀ c, s.present c = true → s'.present c = true) :
    presentFrom cfg s index ≤ presentFrom cfg s' index := by
  refine tally_mono fun i _ ↦ ?_
  cases hp : s.present i with
  | false => simp
  | true => simp [h i hp]

/-- The loop that counts the `Present` flags visits one more. -/
theorem presentFrom_succ {index : ℕ} (hindex : index < cfg.maxCpus) :
    presentFrom cfg s index = presentFrom cfg s (index + 1) + (s.present index).toNat := by
  have hoff : ∀ i, i ≠ index → (decide (index ≤ i) && s.present i).toNat =
      (decide (index + 1 ≤ i) && s.present i).toNat := by
    intro i hi
    have hle : index ≤ i ↔ index + 1 ≤ i := by omega
    simp only [hle]
  have hframe : presentFrom cfg s index + (decide (index + 1 ≤ index) && s.present index).toNat =
      presentFrom cfg s (index + 1) + (decide (index ≤ index) && s.present index).toNat :=
    tally_frame hindex hoff
  simpa using hframe

/-! ### The counts of a stage -/

/-- The counts matter only for the current phase and for the reset, and more processors may become
present while they are counted. -/
theorem TallyOk.congr {count count' : Phase → ℕ} {run : ℕ} {present : Bool}
    {presentFrom presentFrom' : ℕ → ℕ}
    {m : SyncMode} {q : BspPc} (hphase : count' (stageOf cfg m q).phase = count (stageOf cfg m q).phase)
    (hreset : count' .reset = count .reset)
    (hpresent : (stageOf cfg m q).phase ≠ .reset → ∀ i, presentFrom i ≤ presentFrom' i)
    (h : TallyOk cfg count run present presentFrom m q) : TallyOk cfg count' run present presentFrom' m q := by
  cases q with
  | enter | markPresent | waitForApArrival | inSync | lockdown =>
    simp only [TallyOk, stageOf, gatheringStage] at h hphase ⊢
    split at h
    · rename_i hg
      rw [if_pos hg] at hphase ⊢
      omega
    · rename_i hg
      rwa [if_neg hg]
  | waitForAllAPs | releaseAllAPs =>
    simp only [TallyOk, stageOf, barrierStage] at h hphase ⊢
    rwa [hphase, hreset]
  | countPresent a index k =>
    obtain ⟨hrun, ha, hle, hindex, hk⟩ := h
    exact ⟨hrun, by rw [hreset, ha], hle, hindex,
      hk.trans (hpresent (by simp [stageOf, handlersStage]) _)⟩
  | acquireBusy | tasks | startupThisAp | blockOnAp | drain | relaxedInSync | relaxedLockdown
  | leave | setSyncMode | clearPresent | resetBspIndex | resetCounter =>
    simp only [TallyOk] at h ⊢
    first | rwa [hreset] | exact h

/-- Before the lock-down, a processor that checks in or gives up counts on both sides. -/
theorem TallyOk.of_unlocked {count count' : Phase → ℕ} {run : ℕ} {present : Bool}
    {presentFrom : ℕ → ℕ}
    {m : SyncMode} {q : BspPc} (hlocked : (stageOf cfg m q).locked = false)
    (hcount : count' .reset + count .arrival = count .reset + count' .arrival)
    (h : TallyOk cfg count run present presentFrom m q) : TallyOk cfg count' run present presentFrom m q := by
  cases q with
  | enter | markPresent | waitForApArrival | inSync | lockdown =>
    simp only [TallyOk] at h ⊢
    split at h
    · rename_i hg
      rw [if_pos hg]
      omega
    · rename_i hg
      rwa [if_neg hg]
  | acquireBusy | tasks | startupThisAp | blockOnAp | drain =>
    have hg : cfg.gathers m = false := hlocked
    simp only [TallyOk, hg, Bool.false_eq_true, false_implies] at h ⊢
    exact h
  | relaxedInSync | relaxedLockdown => exact h
  | waitForAllAPs | releaseAllAPs | countPresent | leave | setSyncMode | clearPresent
  | resetBspIndex | resetCounter => cases hlocked

/-- An AP that the BSP has released signals: it is taken off the count of the current phase (and
off the count of the reset with its last signal), and the BSP's semaphore goes up by one. -/
theorem TallyOk.signal {count count' : Phase → ℕ} {run : ℕ} {present : Bool}
    {presentFrom : ℕ → ℕ}
    {m : SyncMode} {q : BspPc} {c : ℕ} (hc : c < cfg.maxCpus)
    (hreleased : (stageOf cfg m q).released ≤ c)
    (hphase : count' (stageOf cfg m q).phase + 1 = count (stageOf cfg m q).phase)
    (hreset : (stageOf cfg m q).phase ≠ .reset → count' .reset = count .reset)
    (h : TallyOk cfg count run present presentFrom m q) :
    TallyOk cfg count' (run + 1) present presentFrom m q := by
  cases q with
  | enter | markPresent | waitForApArrival | inSync | lockdown =>
    simp only [TallyOk, stageOf, gatheringStage] at h hphase hreset hreleased ⊢
    split at h
    · rename_i hg
      simp only [hg, if_true] at hphase hreset ⊢
      have := hreset (by decide)
      omega
    · rename_i hg
      rw [if_neg hg] at hreleased
      omega
  | waitForAllAPs p a numberOfAPs k =>
    obtain ⟨hleft, hk, hle, ha, hnext⟩ := h
    simp only [stageOf, barrierStage] at hphase hreset
    refine ⟨by omega, fun k' hk' ↦ ?_, hle, ha, fun hp ↦ ?_, hnext.2⟩
    · have := hk k' hk'
      omega
    · rw [hreset hp, hnext.1 hp]
  | releaseAllAPs p a index =>
    obtain ⟨hleft, ha, hnext⟩ := h
    simp only [stageOf, barrierStage] at hphase hreset
    refine ⟨by omega, ha, fun hp ↦ ?_⟩
    rw [hreset hp, hnext hp]
  | acquireBusy | tasks | startupThisAp | blockOnAp | drain | relaxedInSync | relaxedLockdown
  | countPresent | leave | setSyncMode =>
    simp only [stageOf, handlersStage, barrierStage] at hreleased
    omega
  | clearPresent a =>
    obtain ⟨hleft, ha⟩ := h
    simp only [stageOf, barrierStage] at hphase
    exact ⟨by omega, ha⟩
  | resetBspIndex | resetCounter =>
    obtain ⟨-, hzero, -⟩ := h
    simp only [stageOf, barrierStage] at hphase
    omega

/-- The BSP's semaphore never holds more than one signal of each AP. -/
theorem TallyOk.run_le {present : Bool} {presentFrom : ℕ → ℕ} {m : SyncMode} {q : BspPc} {run : ℕ}
    (h : TallyOk cfg (awaiting cfg s) run present presentFrom m q) : run ≤ cfg.maxCpus := by
  have hle := awaiting_le cfg s .reset
  cases q with
  | enter | markPresent | waitForApArrival | inSync | lockdown =>
    simp only [TallyOk] at h
    split at h <;> omega
  | waitForAllAPs | releaseAllAPs | acquireBusy | tasks | startupThisAp | blockOnAp | drain
  | relaxedInSync | relaxedLockdown | countPresent | leave | setSyncMode | clearPresent
  | resetBspIndex | resetCounter =>
    simp only [TallyOk] at h
    omega

/-! ### A step of an AP -/

theorem ApOk.of_at {st : Stage} {b c run : ℕ} {present busy : Bool} {q : CpuPc}
    (hstarting : st.starting ≠ some c) (h : ApAt cfg st b c run present busy q) :
    ApOk cfg st b c run present busy q := by
  rwa [ApOk, if_neg hstarting]

/-- An AP that is not blocked on a task being started is where the stage lets it be. -/
theorem ApOk.at {st : Stage} {b c run : ℕ} {present busy : Bool} {q : CpuPc}
    (h : ApOk cfg st b c run present busy q) (hq : q = .apWait b .exit → run ≠ 0) :
    st.starting ≠ some c ∧ ApAt cfg st b c run present busy q := by
  unfold ApOk at h
  split at h
  · exact absurd h.2.1 (hq h.1)
  · exact ⟨‹_›, h⟩

theorem ApOk.ne_bsp {st : Stage} {b c run : ℕ} {present busy : Bool} {q : CpuPc}
    (h : ApOk cfg st b c run present busy q) (m : SyncMode) (q' : BspPc) : q ≠ .bsp m q' := by
  rintro rfl
  exact (h.at (by simp)).2

theorem ViewInv.wf {v : View} (h : ViewInv cfg s v) :
    (v.stage cfg s.effectiveSyncMode).Wf cfg := by
  cases v with
  | idle => exact idleStage_wf cfg _
  | bsp b m q => exact stageOf_wf (h.bsp b m q rfl).modeOk

/-- **The frame of an AP's step.** Nothing else moves, and only the BSP's semaphore and the counter
change with it. -/
theorem ViewInv.apMove {v : View} (h : ViewInv cfg s v) {c : ℕ} {q : CpuPc}
    (hc : c < cfg.maxCpus) (hcb : ¬ v.isBsp c)
    (hpc : s'.pc = Function.update s.pc c q)
    (hrun : ∀ d, d ≠ c → ¬ v.isBsp d → s'.run d = s.run d)
    (hpresent : ∀ d, d ≠ c → s'.present d = s.present d)
    (hbusy : ∀ d, d ≠ c → s'.busy d = s.busy d)
    (hinside : s'.insideSmm = s.insideSmm)
    (hmode : s'.effectiveSyncMode = s.effectiveSyncMode) (hcounted : s'.counted = s.counted)
    (hap : ApOk cfg (v.stage cfg s.effectiveSyncMode) v.cpu c (s'.run c) (s'.present c)
      (s'.busy c) q)
    (hlocked : (v.stage cfg s.effectiveSyncMode).locked = true → s'.counter = s.counter)
    (hopen : (v.stage cfg s.effectiveSyncMode).locked = false →
      s'.counter = awaiting cfg s' .reset + (v.stage cfg s.effectiveSyncMode).active.toNat)
    (hpart : (v.stage cfg s.effectiveSyncMode).locked = true →
      (v.stage cfg s.effectiveSyncMode).phase ≠ .reset → q.insideAp = (s.pc c).insideAp)
    (hindex : IndexOk cfg s') (hbsp : ∀ b m q, v = .bsp b m q → BspOk cfg s' b m q) :
    ViewInv cfg s' v := by
  have hself : s'.pc c = q := by rw [hpc, Function.update_self]
  have hother : ∀ d, d ≠ c → s'.pc d = s.pc d := fun d hd ↦ by
    rw [hpc, Function.update_of_ne hd]
  constructor
  · intro d hd
    rw [hother d (by omega)]
    exact h.exist d hd
  · intro d m q'
    by_cases hd : d = c
    · subst hd
      rw [hself]
      refine iff_of_false (hap.ne_bsp m q') ?_
      rintro rfl
      exact hcb rfl
    · rw [hother d hd]
      exact h.atBsp d m q'
  · intro d hdb
    rw [hmode]
    by_cases hd : d = c
    · subst hd
      rwa [hself]
    · rw [hother d hd, hrun d hd hdb, hpresent d hd, hbusy d hd]
      exact h.ap d hdb
  · rw [hinside, hmode]
    exact h.inside
  · rw [hmode]
    exact h.mode
  · rw [hmode]
    exact fun hl ↦ (hlocked hl).trans (h.counterLocked hl)
  · rwa [hmode]
  · rw [hmode, hcounted]
    exact h.counted
  · rw [hmode, hcounted]
    intro hl hp d
    rw [h.countedInside hl hp d]
    by_cases hd : d = c
    · subst hd
      rw [hself, hpart hl hp]
    · rw [hother d hd]
  · exact hindex
  · exact hbsp

/-- A step of an AP that keeps the counter and what the AP awaits. -/
theorem ViewInv.apSilent {v : View} (h : ViewInv cfg s v) {c : ℕ} {q : CpuPc}
    (hc : c < cfg.maxCpus) (hcb : ¬ v.isBsp c)
    (hpc : s'.pc = Function.update s.pc c q)
    (hrun : ∀ d, d ≠ c → s'.run d = s.run d)
    (hpresent : ∀ d, d ≠ c → s'.present d = s.present d)
    (hbusy : ∀ d, d ≠ c → s'.busy d = s.busy d)
    (hinside : s'.insideSmm = s.insideSmm)
    (hmode : s'.effectiveSyncMode = s.effectiveSyncMode) (hcounted : s'.counted = s.counted)
    (hap : ApOk cfg (v.stage cfg s.effectiveSyncMode) v.cpu c (s'.run c) (s'.present c)
      (s'.busy c) q)
    (hcounter : s'.counter = s.counter) (hindex : IndexOk cfg s')
    (hsome : ∀ b, s.bspIndex = some b → s'.bspIndex = some b)
    (hphase : q.awaits (v.stage cfg s.effectiveSyncMode).phase =
      (s.pc c).awaits (v.stage cfg s.effectiveSyncMode).phase)
    (hreset : q.awaits .reset = (s.pc c).awaits .reset)
    (hup : (v.stage cfg s.effectiveSyncMode).phase ≠ .reset → s.present c = true →
      s'.present c = true) :
    ViewInv cfg s' v := by
  have hawaiting := awaiting_eq_of_awaits hc hpc hreset
  refine h.apMove hc hcb hpc (fun d hd _ ↦ hrun d hd) hpresent hbusy hinside hmode hcounted hap
    (fun _ ↦ hcounter) ?_ (fun _ _ ↦ ?_) hindex ?_
  · rw [hcounter, hawaiting]
    exact h.counterOpen
  · rwa [CpuPc.awaits_reset, CpuPc.awaits_reset] at hreset
  · rintro b m q' rfl
    obtain ⟨hb, hmodeOk, htally⟩ := h.bsp b m q' rfl
    refine ⟨fun hq ↦ hsome b (hb hq), hmodeOk, ?_⟩
    rw [hrun b (fun hbc ↦ hcb hbc.symm), hpresent b (fun hbc ↦ hcb hbc.symm)]
    refine htally.congr (awaiting_eq_of_awaits hc hpc hphase) hawaiting fun hne i ↦ ?_
    refine presentFrom_mono fun d hd ↦ ?_
    by_cases hdc : d = c
    · subst hdc
      exact hup hne hd
    · rwa [hpresent d hdc]

/-- `BspIndex` is not touched, and the processor that moves does not become the BSP unless it has
been elected. -/
theorem IndexOk.move (h : IndexOk cfg s) {c : ℕ} {q : CpuPc}
    (hpc : s'.pc = Function.update s.pc c q) (hindex : s'.bspIndex = s.bspIndex)
    (hq : q = .callBspHandler → s.bspIndex = some c) : IndexOk cfg s' := by
  constructor
  · rw [hindex]
    exact h.fixed
  · rw [hindex]
    exact h.hook
  · intro d hd
    rw [hpc] at hd
    rw [hindex]
    by_cases hdc : d = c
    · subst hdc
      rw [Function.update_self] at hd
      exact hq hd
    · rw [Function.update_of_ne hdc] at hd
      exact h.called d hd

/-- A step of an AP that changes nothing but its own place. -/
theorem ViewInv.apGoto {v : View} (h : ViewInv cfg s v) {c : ℕ} {q : CpuPc}
    (hc : c < cfg.maxCpus) (hcb : ¬ v.isBsp c)
    (hap : ApOk cfg (v.stage cfg s.effectiveSyncMode) v.cpu c (s.run c) (s.present c) (s.busy c) q)
    (hq : q = .callBspHandler → s.bspIndex = some c)
    (hphase : q.awaits (v.stage cfg s.effectiveSyncMode).phase =
      (s.pc c).awaits (v.stage cfg s.effectiveSyncMode).phase)
    (hreset : q.awaits .reset = (s.pc c).awaits .reset) :
    ViewInv cfg (s.goto c q) v :=
  h.apSilent hc hcb rfl (fun _ _ ↦ rfl) (fun _ _ ↦ rfl) (fun _ _ ↦ rfl) rfl rfl rfl hap rfl
    (h.index.move rfl rfl hq) (fun _ hb ↦ hb) hphase hreset fun _ hp ↦ hp

/-- Whoever checks in is early: the BSP has not locked the counter down. -/
theorem ViewInv.sampledStep {v : View} (h : ViewInv cfg s v) {c : ℕ} {bspInProgress : Bool}
    (hc : c < cfg.maxCpus) (hcb : ¬ v.isBsp c) (hpc : s.pc c = .sampled bspInProgress) :
    ViewInv cfg ({ s with counter := (releaseSemaphore s.counter).1 }.goto c
      (if (releaseSemaphore s.counter).2 = 0 then .late else .checkedIn bspInProgress)) v := by
  have hok := h.ap c hcb
  rw [hpc] at hok
  obtain ⟨hstarting, hrun, hpresent⟩ := hok.at (by simp)
  cases hlocked : (v.stage cfg s.effectiveSyncMode).locked with
  | true =>
    have hcounter := h.counterLocked hlocked
    rw [hcounter, releaseSemaphore_lockedDown, if_pos rfl, ← hcounter]
    exact h.apGoto hc hcb (.of_at hstarting ⟨hrun, hpresent⟩) (by simp)
      (by rw [hpc]; rfl) (by rw [hpc]; rfl)
  | false =>
    have hcounter := h.counterOpen hlocked
    have hearly := h.wf.early_of_unlocked hlocked
    set q : CpuPc := .checkedIn bspInProgress with hq
    have hcount : ∀ p, awaiting cfg (s.goto c q) p = awaiting cfg s p + 1 := by
      intro p
      have hupdate : awaiting cfg (s.goto c q) p + _ = _ := awaiting_update hc rfl p
      rw [hpc] at hupdate
      exact hupdate
    -- neither this processor nor the BSP is among those awaited, so the counter is below the limit
    have hlt : s.counter < lockedDown := by
      have hone := hcount .reset
      have hle := awaiting_le cfg (s.goto c q) .reset
      have hactive := Bool.toNat_le (v.stage cfg s.effectiveSyncMode).active
      have hmax := cfg.maxCpus_lt
      omega
    rw [releaseSemaphore_fst_of_lt hlt, releaseSemaphore_snd_of_lt hlt, if_neg (by omega)]
    refine h.apMove hc hcb rfl (fun _ _ _ ↦ rfl) (fun _ _ ↦ rfl) (fun _ _ ↦ rfl) rfl rfl rfl
      (.of_at hstarting ⟨hearly, hrun, hpresent⟩) (fun hl ↦ absurd hl (by simp [hlocked]))
      (fun _ ↦ ?_) (fun hl ↦ absurd hl (by simp [hlocked])) (h.index.move rfl rfl (by simp [hq])) ?_
    · show s.counter + 1 = awaiting cfg (s.goto c q) .reset + _
      rw [hcount]
      omega
    · rintro b m q' rfl
      obtain ⟨hb, hmodeOk, htally⟩ := h.bsp b m q' rfl
      refine ⟨hb, hmodeOk, htally.of_unlocked hlocked ?_⟩
      show awaiting cfg (s.goto c q) .reset + _ = _ + awaiting cfg (s.goto c q) .arrival
      rw [hcount, hcount]
      omega

/-- An AP that gives up takes itself off the counter. -/
theorem ViewInv.giveUpStep {v : View} (h : ViewInv cfg s v) {c : ℕ}
    (hc : c < cfg.maxCpus) (hcb : ¬ v.isBsp c) (hpc : s.pc c = .apGiveUp) {counter : ℕ}
    (hwait : waitForSemaphore s.counter = some counter) :
    ViewInv cfg ({ s with counter := counter }.goto c .exitWait) v := by
  have hok := h.ap c hcb
  rw [hpc] at hok
  obtain ⟨hstarting, hearly, hrun, hpresent, hbusy, hlocked⟩ := hok.at (by simp)
  have hcount : ∀ p, awaiting cfg (s.goto c .exitWait) p + 1 = awaiting cfg s p := by
    intro p
    have hupdate : awaiting cfg (s.goto c .exitWait) p + _ = _ := awaiting_update hc rfl p
    rw [hpc] at hupdate
    exact hupdate
  have hcounter := h.counterOpen hlocked
  have hwait := waitForSemaphore_eq_some.1 hwait
  refine h.apMove hc hcb rfl (fun _ _ _ ↦ rfl) (fun _ _ ↦ rfl) (fun _ _ ↦ rfl) rfl rfl rfl
    (.of_at hstarting ⟨hrun, hpresent⟩) (fun hl ↦ absurd hl (by simp [hlocked])) (fun _ ↦ ?_)
    (fun hl ↦ absurd hl (by simp [hlocked])) (h.index.move rfl rfl (by simp)) ?_
  · show counter = awaiting cfg (s.goto c .exitWait) .reset + _
    have hreset := hcount .reset
    omega
  · rintro b m q rfl
    obtain ⟨hb, hmodeOk, htally⟩ := h.bsp b m q rfl
    refine ⟨hb, hmodeOk, htally.of_unlocked hlocked ?_⟩
    show awaiting cfg (s.goto c .exitWait) .reset + _ =
      _ + awaiting cfg (s.goto c .exitWait) .arrival
    have hreset := hcount .reset
    have harrival := hcount .arrival
    omega

theorem CpuPc.awaits_afterSignal {b : ℕ} {p : Phase} :
    (afterSignal cfg b p).awaits p = false := by
  unfold afterSignal
  cases hp : p.next cfg with
  | none => rfl
  | some p' =>
    have hlt := Phase.rank_lt_next hp
    simp only [CpuPc.awaits, decide_eq_false_iff_not]
    omega

theorem CpuPc.awaits_reset_afterSignal {b : ℕ} {p : Phase} (hp : p ≠ .reset) :
    (afterSignal cfg b p).awaits .reset = true := by
  unfold afterSignal
  cases hnext : p.next cfg with
  | none =>
    cases p <;> simp only [Phase.next, reduceCtorEq] at hnext
    exact absurd rfl hp
  | some p' => simp only [CpuPc.awaits, p'.rank_le_reset, decide_true]

theorem phase_ne_reset_of_unlocked {m : SyncMode} {q : BspPc}
    (h : (stageOf cfg m q).locked = false) : (stageOf cfg m q).phase ≠ .reset := by
  cases q <;> simp only [stageOf, gatheringStage, handlersStage, barrierStage, reduceCtorEq] at h ⊢
  all_goals first | (split <;> simp) | simp

/-- **An AP signals.** It was released for the current phase, and now waits for the next one. -/
theorem ViewInv.signalStep {v : View} (h : ViewInv cfg s v) {c b : ℕ} {p : Phase}
    (hc : c < cfg.maxCpus) (hcb : ¬ v.isBsp c) (hpc : s.pc c = .apSignal b p) :
    ViewInv cfg ((s.releaseRun b).goto c (afterSignal cfg b p)) v := by
  have hok := h.ap c hcb
  rw [hpc] at hok
  obtain ⟨hstarting, rfl, hactive, rfl, hreleased, hrun, hpresent, hbusy⟩ := hok.at (by simp)
  cases v with
  | idle => cases hactive
  | bsp b m q =>
    obtain ⟨hb, hmodeOk, htally⟩ := h.bsp b m q rfl
    have hne : c ≠ b := hcb
    have hlt : s.run b < lockedDown := htally.run_le.trans_lt cfg.maxCpus_lt
    simp only [View.cpu, View.stage] at hstarting hreleased hpresent hpc ⊢
    set p := (stageOf cfg m q).phase with hp
    have hupdate : ∀ p', awaiting cfg (s.goto c (afterSignal cfg b p)) p' +
        (decide (p.rank ≤ p'.rank)).toNat =
          awaiting cfg s p' + ((afterSignal cfg b p).awaits p').toNat := by
      intro p'
      have hupdate : awaiting cfg (s.goto c (afterSignal cfg b p)) p' + _ = _ :=
        awaiting_update hc rfl p'
      rw [hpc] at hupdate
      exact hupdate
    have hphase : awaiting cfg (s.goto c (afterSignal cfg b p)) p + 1 = awaiting cfg s p := by
      have hself := hupdate p
      rw [CpuPc.awaits_afterSignal] at hself
      simpa using hself
    refine h.apMove hc hcb rfl (fun d _ hdb ↦ Function.update_of_ne hdb _ _) (fun _ _ ↦ rfl)
      (fun _ _ ↦ rfl) rfl rfl rfl ?_ (fun _ ↦ rfl) (fun hlocked ↦ ?_) (fun _ hne ↦ ?_)
      (h.index.move rfl rfl ?_) ?_
    · -- it waits for the next phase, or is through
      show ApOk cfg _ b c (Function.update s.run b _ c) (s.present c) (s.busy c) _
      rw [Function.update_of_ne hne]
      refine .of_at hstarting ?_
      unfold afterSignal
      cases hnext : p.next cfg with
      | none =>
        have hp' : p = .reset := by
          by_contra hne
          have hawaits : (afterSignal cfg b p).awaits .reset = true :=
            CpuPc.awaits_reset_afterSignal hne
          simp [afterSignal, hnext, CpuPc.awaits] at hawaits
        refine ⟨hrun, ?_⟩
        rw [← Bool.not_eq_true, hpresent]
        exact fun hne ↦ hne hp'
      | some p' =>
        have hp' : p ≠ .reset := by
          intro heq
          rw [heq] at hnext
          cases hnext
        exact ⟨rfl, hactive, hpresent.2 hp', .inr (.inl ⟨hnext, hreleased, hrun, hbusy⟩)⟩
    · have hcounter := h.counterOpen hlocked
      have hreset := hupdate .reset
      rw [CpuPc.awaits_reset_afterSignal (phase_ne_reset_of_unlocked hlocked),
        decide_eq_true p.rank_le_reset] at hreset
      show s.counter = awaiting cfg (s.goto c (afterSignal cfg b p)) .reset + _
      omega
    · have hp' : p ≠ .reset := hne
      rw [← CpuPc.awaits_reset, CpuPc.awaits_reset_afterSignal hp', hpc]
      rfl
    · unfold afterSignal
      split <;> simp
    · rintro b' m' q' hv
      cases hv
      refine ⟨hb, hmodeOk, ?_⟩
      show TallyOk cfg _ (Function.update s.run b _ b) _ _ m q
      rw [Function.update_self, releaseSemaphore_fst_of_lt hlt]
      refine htally.signal hc hreleased hphase fun hp' ↦ ?_
      have hreset := hupdate .reset
      rw [CpuPc.awaits_reset_afterSignal hp', decide_eq_true p.rank_le_reset] at hreset
      show awaiting cfg (s.goto c (afterSignal cfg b p)) .reset = _
      omega

/-- **An AP wakes up**: for the current phase, or for a task. -/
theorem ViewInv.wakeStep {v : View} (h : ViewInv cfg s v) {c b : ℕ} {p : Phase}
    (hc : c < cfg.maxCpus) (hcb : ¬ v.isBsp c) (hpc : s.pc c = .apWait b p) {run : ℕ}
    (hwait : waitForSemaphore (s.run c) = some run) :
    ViewInv cfg ((s.setRun c run).goto c (afterWake b p)) v := by
  have hok := h.ap c hcb
  rw [hpc] at hok
  have hrun := waitForSemaphore_eq_some.1 hwait
  obtain ⟨hstarting, rfl, hactive, hpresent, hwaitOk⟩ := hok.at fun _ ↦ by omega
  have hawaits : ∀ p', (afterWake v.cpu p).awaits p' = (s.pc c).awaits p' := by
    intro p'
    rw [hpc]
    cases p <;> rfl
  refine h.apSilent hc hcb rfl (fun d hd ↦ Function.update_of_ne hd _ _) (fun _ _ ↦ rfl)
    (fun _ _ ↦ rfl) rfl rfl rfl ?_ rfl (h.index.move rfl rfl ?_) (fun _ hb ↦ hb) (hawaits _)
    (hawaits _) fun _ hp ↦ hp
  · show ApOk cfg _ _ c (Function.update s.run c run c) (s.present c) (s.busy c) _
    rw [Function.update_self]
    refine .of_at hstarting ?_
    rcases hwaitOk with ⟨hp, hreleased, hone, hbusy⟩ | ⟨-, -, hzero, -⟩ | ⟨-, -, hzero, -⟩ |
      ⟨hp, hphase, hlt, hone, hbusy, hmay⟩
    · obtain rfl : run = 0 := by omega
      cases p with
      | arrival | backup | program | restore =>
        exact ⟨rfl, hactive, hp, hreleased, rfl, iff_of_true hpresent (by simp), hbusy⟩
      | exit => exact ⟨rfl, hactive, hp.symm, rfl, hpresent, .inl ⟨hreleased, hbusy⟩⟩
      | reset => exact ⟨rfl, hactive, hp.symm, hreleased, rfl, hpresent, hbusy⟩
    · omega
    · omega
    · obtain rfl : run = 0 := by omega
      subst hp
      exact ⟨rfl, hactive, hphase, rfl, hpresent, .inr ⟨hlt, hbusy, hmay⟩⟩
  · cases p <;> simp [afterWake]

/-- **An AP marks its presence**, and signals its arrival or goes straight to the wait loop. -/
theorem ViewInv.presentStep {v : View} (h : ViewInv cfg s v) {c b : ℕ} {m : SyncMode}
    (hc : c < cfg.maxCpus) (hcb : ¬ v.isBsp c) (hpc : s.pc c = .apPresent m b) :
    ViewInv cfg ((s.setPresent c true).goto c
      (if cfg.gathers m then .apSignal b .arrival else .apWait b .exit)) v := by
  have hok := h.ap c hcb
  rw [hpc] at hok
  obtain ⟨hstarting, hearly, hrun, hpresent, hbusy, rfl, hinside, rfl⟩ := hok.at (by simp)
  have hwf := h.wf
  have hactive : (v.stage cfg s.effectiveSyncMode).active = true := by
    by_contra hne
    rw [hwf.inactive (by simpa using hne)] at hinside
    cases hinside
  have hpresent' : Function.update s.present c true c = true := Function.update_self ..
  cases hg : cfg.gathers (v.stage cfg s.effectiveSyncMode).mode with
  | true =>
    obtain ⟨hphase, hreleased⟩ := hwf.gathers hactive hearly hg
    rw [if_pos rfl]
    refine h.apSilent hc hcb rfl (fun _ _ ↦ rfl) (fun d hd ↦ Function.update_of_ne hd _ _)
      (fun _ _ ↦ rfl) rfl rfl rfl (.of_at hstarting ⟨rfl, hactive, hphase.symm, by omega, hrun,
        iff_of_true hpresent' (by simp), hbusy⟩) rfl (h.index.move rfl rfl (by simp))
      (fun _ hb ↦ hb) ?_ (by rw [hpc]; rfl) fun _ _ ↦ hpresent'
    rw [hpc, hphase]
    rfl
  | false =>
    obtain ⟨hphase, hreleased⟩ := hwf.relaxed hactive hearly hg
    rw [if_neg (by simp)]
    refine h.apSilent hc hcb rfl (fun _ _ ↦ rfl) (fun d hd ↦ Function.update_of_ne hd _ _)
      (fun _ _ ↦ rfl) rfl rfl rfl (.of_at hstarting ⟨rfl, hactive, hpresent',
        .inr (.inr (.inl ⟨hphase.symm, by omega, hrun, hbusy⟩))⟩) rfl
      (h.index.move rfl rfl (by simp)) (fun _ hb ↦ hb) ?_ (by rw [hpc]; rfl) fun _ _ ↦ hpresent'
    rw [hpc, hphase]
    rfl

/-- **An election does not replace a BSP.** -/
theorem IndexOk.electBsp_of_some (h : IndexOk cfg s) {b : ℕ} (hb : s.bspIndex = some b) (c : ℕ)
    (excluded : Bool) : electBsp cfg s.bspIndex c excluded = some b := by
  unfold electBsp
  split
  · rename_i hel
    have henable : cfg.enableBspElection = true := by
      simp only [Bool.and_eq_true] at hel
      exact hel.1
    cases hhook : cfg.platformSmmBspElection with
    | some h' =>
      show (if h' = c then some c else s.bspIndex) = some b
      split
      · rename_i heq
        rcases h.hook h' henable hhook with hnone | hsome
        · rw [hnone] at hb
          cases hb
        · rw [← heq, ← hsome, hb]
      · exact hb
    | none =>
      show (if s.bspIndex = none then some c else s.bspIndex) = some b
      rw [hb, if_neg (by simp)]
  · exact hb

theorem IndexOk.elect (h : IndexOk cfg s) (c : ℕ) (excluded : Bool) :
    IndexOk cfg ({ s with bspIndex := electBsp cfg s.bspIndex c excluded }.goto c .elected) := by
  constructor
  · intro henable
    show electBsp cfg s.bspIndex c excluded = some 0
    rw [electBsp, henable]
    exact h.fixed henable
  · intro h' henable hhook
    show electBsp cfg s.bspIndex c excluded = none ∨ electBsp cfg s.bspIndex c excluded = some h'
    unfold electBsp
    rw [hhook]
    have hold := h.hook h' henable hhook
    split
    · show (if h' = c then some c else s.bspIndex) = none ∨
        (if h' = c then some c else s.bspIndex) = some h'
      split
      · rename_i heq
        exact .inr (by rw [heq])
      · exact hold
    · exact hold
  · intro d hd
    have hd' : Function.update s.pc c .elected d = .callBspHandler := hd
    by_cases hdc : d = c
    · subst hdc
      rw [Function.update_self] at hd'
      cases hd'
    · rw [Function.update_of_ne hdc] at hd'
      exact h.electBsp_of_some (h.called d hd') c excluded

/-- While processors arrive, `BspIndex` is the BSP, if there is one. -/
theorem ViewInv.bspIndex_of_early {v : View} (h : ViewInv cfg s v)
    (hearly : (v.stage cfg s.effectiveSyncMode).early = true)
    (hactive : (v.stage cfg s.effectiveSyncMode).active = true) : s.bspIndex = some v.cpu := by
  cases v with
  | idle => cases hactive
  | bsp b m q =>
    refine (h.bsp b m q rfl).index ?_
    rintro rfl
    cases hearly

/-- **Every step of an AP keeps the invariant**, with the same BSP at the same place. -/
theorem ViewInv.apStep {v : View} (h : ViewInv cfg s v) {c : ℕ} {e : Env}
    (hc : c < cfg.maxCpus) (hcb : ¬ v.isBsp c) (hcall : s.pc c ≠ .callBspHandler)
    (hstep : cpuStep cfg s c e = some s') : ViewInv cfg s' v := by
  have hok := h.ap c hcb
  have hwf := h.wf
  have hin := h.inside
  unfold cpuStep at hstep
  cases hpc : s.pc c with
  | bsp m q => exact absurd hpc (hok.ne_bsp m q)
  | callBspHandler => exact absurd hpc hcall
  | sampled bspInProgress =>
    simp only [hpc, Option.some.injEq] at hstep
    subst hstep
    exact h.sampledStep hc hcb hpc
  | apGiveUp =>
    simp only [hpc, Option.map_eq_some_iff] at hstep
    obtain ⟨counter, hwait, rfl⟩ := hstep
    exact h.giveUpStep hc hcb hpc hwait
  | apSignal b p =>
    simp only [hpc, Option.some.injEq] at hstep
    subst hstep
    exact h.signalStep hc hcb hpc
  | apWait b p =>
    simp only [hpc, Option.map_eq_some_iff] at hstep
    obtain ⟨run, hwait, rfl⟩ := hstep
    exact h.wakeStep hc hcb hpc hwait
  | apPresent m b =>
    simp only [hpc, Option.some.injEq] at hstep
    subst hstep
    exact h.presentStep hc hcb hpc
  | outside =>
    rw [hpc] at hok
    obtain ⟨hstarting, hrun, hpresent⟩ := hok.at (by simp)
    simp only [hpc, Option.some.injEq] at hstep
    subst hstep
    split
    · exact h.apGoto hc hcb (.of_at hstarting ⟨hrun, hpresent⟩) (by simp) (by rw [hpc]; rfl)
        (by rw [hpc]; rfl)
    · exact h
  | late | exitWait =>
    rw [hpc] at hok
    obtain ⟨hstarting, hrun, hpresent⟩ := hok.at (by simp)
    simp only [hpc, Option.ite_none_left_eq_some, Option.some.injEq] at hstep
    obtain ⟨-, rfl⟩ := hstep
    exact h.apGoto hc hcb (.of_at hstarting ⟨hrun, hpresent⟩) (by simp) (by rw [hpc]; rfl)
      (by rw [hpc]; rfl)
  | clearInSync =>
    rw [hpc] at hok
    obtain ⟨hstarting, hrun, hpresent⟩ := hok.at (by simp)
    simp only [hpc, Option.some.injEq] at hstep
    subst hstep
    exact h.apSilent hc hcb rfl (fun _ _ ↦ rfl) (fun _ _ ↦ rfl) (fun _ _ ↦ rfl) rfl rfl rfl
      (.of_at hstarting ⟨hrun, hpresent⟩) rfl (h.index.move rfl rfl (by simp)) (fun _ hb ↦ hb)
      (by rw [hpc]; rfl) (by rw [hpc]; rfl) fun _ hp ↦ hp
  | checkedIn bspInProgress =>
    rw [hpc] at hok
    obtain ⟨hstarting, hearly, hrun, hpresent⟩ := hok.at (by simp)
    simp only [hpc, Option.some.injEq] at hstep
    subst hstep
    have hfree : Function.update s.busy c false c = false := Function.update_self ..
    cases bspInProgress <;>
      exact h.apSilent hc hcb rfl (fun _ _ ↦ rfl) (fun _ _ ↦ rfl)
        (fun d hd ↦ Function.update_of_ne hd _ _) rfl rfl rfl
        (.of_at hstarting ⟨hearly, hrun, hpresent, hfree⟩) rfl
        (h.index.move rfl rfl (by simp)) (fun _ hb ↦ hb)
        (by rw [hpc]; rfl) (by rw [hpc]; rfl) fun _ hp ↦ hp
  | elect =>
    rw [hpc] at hok
    obtain ⟨hstarting, hearly, hrun, hpresent, hbusy⟩ := hok.at (by simp)
    simp only [hpc, Option.some.injEq] at hstep
    subst hstep
    exact h.apSilent hc hcb rfl (fun _ _ ↦ rfl) (fun _ _ ↦ rfl) (fun _ _ ↦ rfl) rfl rfl rfl
      (.of_at hstarting ⟨hearly, hrun, hpresent, hbusy⟩) rfl (h.index.elect c e.excluded)
      (fun b hb ↦ h.index.electBsp_of_some hb c e.excluded) (by rw [hpc]; rfl) (by rw [hpc]; rfl)
      fun _ hp ↦ hp
  | elected =>
    rw [hpc] at hok
    obtain ⟨hstarting, hearly, hrun, hpresent, hbusy⟩ := hok.at (by simp)
    simp only [hpc, Option.some.injEq] at hstep
    subst hstep
    split
    · rename_i hindex
      exact h.apGoto hc hcb (.of_at hstarting ⟨hearly, hrun, hpresent, hbusy⟩) (fun _ ↦ hindex)
        (by rw [hpc]; rfl) (by rw [hpc]; rfl)
    · exact h.apGoto hc hcb (.of_at hstarting ⟨hearly, hrun, hpresent, hbusy⟩) (by simp)
        (by rw [hpc]; rfl) (by rw [hpc]; rfl)
  | callApHandler =>
    rw [hpc] at hok
    obtain ⟨hstarting, hearly, hrun, hpresent, hbusy⟩ := hok.at (by simp)
    simp only [hpc, Option.some.injEq] at hstep
    subst hstep
    exact h.apGoto hc hcb
      (.of_at hstarting ⟨hearly, hrun, hpresent, hbusy, (h.mode hearly).symm⟩) (by simp)
      (by rw [hpc]; rfl) (by rw [hpc]; rfl)
  | apTimer1 m | apTimer2 m =>
    rw [hpc] at hok
    obtain ⟨hstarting, hearly⟩ := hok.at (by simp)
    simp only [hpc, Option.ite_none_right_eq_some, Option.some.injEq] at hstep
    obtain ⟨-, rfl⟩ := hstep
    exact h.apGoto hc hcb (.of_at hstarting hearly) (by simp) (by rw [hpc]; rfl) (by rw [hpc]; rfl)
  | apCheck1 m =>
    rw [hpc] at hok
    obtain ⟨hstarting, hearly, hrun, hpresent, hbusy, hm⟩ := hok.at (by simp)
    simp only [hpc, Option.some.injEq] at hstep
    subst hstep
    split
    · rename_i hinside
      exact h.apGoto hc hcb
        (.of_at hstarting ⟨hearly, hrun, hpresent, hbusy, hm, by rw [← hin, hinside]⟩) (by simp)
        (by rw [hpc]; rfl) (by rw [hpc]; rfl)
    · exact h.apGoto hc hcb (.of_at hstarting ⟨hearly, hrun, hpresent, hbusy, hm⟩) (by simp)
        (by rw [hpc]; rfl) (by rw [hpc]; rfl)
  | apBspKnown m =>
    rw [hpc] at hok
    obtain ⟨hstarting, hearly, hrun, hpresent, hbusy, hm⟩ := hok.at (by simp)
    simp only [hpc, Option.some.injEq] at hstep
    subst hstep
    split
    · -- no BSP is known, so there is none that could have locked the counter down
      rename_i hnone
      have hlocked : (v.stage cfg s.effectiveSyncMode).locked = false := by
        cases v with
        | idle => rfl
        | bsp b' m' q' =>
          rw [h.bspIndex_of_early hearly (stageOf_active cfg m' q')] at hnone
          cases hnone
      exact h.apGoto hc hcb (.of_at hstarting ⟨hearly, hrun, hpresent, hbusy, hlocked⟩) (by simp)
        (by rw [hpc]; rfl) (by rw [hpc]; rfl)
    · exact h.apGoto hc hcb (.of_at hstarting ⟨hearly, hrun, hpresent, hbusy, hm⟩) (by simp)
        (by rw [hpc]; rfl) (by rw [hpc]; rfl)
  | apCheck2 m =>
    rw [hpc] at hok
    obtain ⟨hstarting, hearly, hrun, hpresent, hbusy, hm⟩ := hok.at (by simp)
    simp only [hpc, Option.some.injEq] at hstep
    subst hstep
    split
    · rename_i hinside
      exact h.apGoto hc hcb
        (.of_at hstarting ⟨hearly, hrun, hpresent, hbusy, hm, by rw [← hin, hinside]⟩) (by simp)
        (by rw [hpc]; rfl) (by rw [hpc]; rfl)
    · rename_i hinside
      have hlocked : (v.stage cfg s.effectiveSyncMode).locked = false := by
        by_contra hl
        rw [hin, hwf.inside_of_locked hearly (by simpa using hl)] at hinside
        exact hinside rfl
      exact h.apGoto hc hcb (.of_at hstarting ⟨hearly, hrun, hpresent, hbusy, hlocked⟩) (by simp)
        (by rw [hpc]; rfl) (by rw [hpc]; rfl)
  | apAvailable m =>
    rw [hpc] at hok
    obtain ⟨hstarting, hearly, hrun, hpresent, hbusy, hm, hinside⟩ := hok.at (by simp)
    simp only [hpc, Option.map_eq_some_iff] at hstep
    obtain ⟨b, hb, rfl⟩ := hstep
    have hactive : (v.stage cfg s.effectiveSyncMode).active = true := by
      by_contra hne
      rw [hwf.inactive (by simpa using hne)] at hinside
      cases hinside
    have hcpu : b = v.cpu := by
      rw [h.bspIndex_of_early hearly hactive] at hb
      exact (Option.some.inj hb).symm
    exact h.apGoto hc hcb
      (.of_at hstarting ⟨hearly, hrun, hpresent, hbusy, hm, hinside, hcpu⟩) (by simp)
      (by rw [hpc]; rfl) (by rw [hpc]; rfl)
  | apExit b =>
    rw [hpc] at hok
    obtain ⟨hstarting, hb, hactive, hphase, hrun, hpresent, hbusy⟩ := hok.at (by simp)
    simp only [hpc, Option.some.injEq] at hstep
    subst hstep
    split
    · -- a task
      rename_i hinside
      rcases hbusy with ⟨hreleased, -⟩ | hbusy
      · rw [hin, hwf.not_inside_of_released c hc hphase hreleased] at hinside
        cases hinside
      · exact h.apGoto hc hcb (.of_at hstarting ⟨hb, hactive, hphase, hrun, hpresent, hbusy⟩)
          (by simp) (by rw [hpc]; rfl) (by rw [hpc]; rfl)
    · -- the exit
      rename_i hinside
      rcases hbusy with ⟨hreleased, hbusy⟩ | ⟨-, -, hmay⟩
      · exact h.apGoto hc hcb (.of_at hstarting ⟨hb, hactive, hphase.symm, hreleased, hrun,
          iff_of_true hpresent (by simp), hbusy⟩) (by simp) (by rw [hpc]; rfl) (by rw [hpc]; rfl)
      · rw [hin, hwf.inside_of_mayTask c hmay] at hinside
        exact absurd rfl hinside
  | apTask b =>
    rw [hpc] at hok
    obtain ⟨hstarting, hb, hactive, hphase, hrun, hpresent, hlt, -⟩ := hok.at (by simp)
    simp only [hpc, Option.some.injEq] at hstep
    subst hstep
    have hfree : Function.update s.busy c false c = false := Function.update_self ..
    exact h.apSilent hc hcb rfl (fun _ _ ↦ rfl) (fun _ _ ↦ rfl)
      (fun d hd ↦ Function.update_of_ne hd _ _) rfl rfl rfl
      (.of_at hstarting ⟨hb, hactive, hpresent, .inr (.inr (.inl ⟨hphase.symm, hlt, hrun, hfree⟩))⟩)
      rfl (h.index.move rfl rfl (by simp)) (fun _ hb ↦ hb) (by rw [hpc]; rfl) (by rw [hpc]; rfl)
      fun _ hp ↦ hp
  | apReset b =>
    rw [hpc] at hok
    obtain ⟨hstarting, hb, hactive, hphase, hreleased, hrun, hpresent, hbusy⟩ := hok.at (by simp)
    simp only [hpc, Option.some.injEq] at hstep
    subst hstep
    exact h.apSilent hc hcb rfl (fun _ _ ↦ rfl) (fun d hd ↦ Function.update_of_ne hd _ _)
      (fun _ _ ↦ rfl) rfl rfl rfl
      (.of_at hstarting ⟨hb, hactive, hphase.symm, hreleased, hrun,
        iff_of_false (by simp [State.goto, State.setPresent]) (by simp), hbusy⟩)
      rfl (h.index.move rfl rfl (by simp)) (fun _ hb ↦ hb) (by rw [hpc]; rfl) (by rw [hpc]; rfl)
      fun hne ↦ absurd hphase hne

end PurleyFirmware.Smm
