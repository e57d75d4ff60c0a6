import PurleyFirmware.Smm.RendezvousAp

/-!
# Every step of the BSP keeps the invariant

The BSP moves the stage. `ApOk.mono` says when a new stage lets every AP stay where it is; the steps
that need more are the releases, the start of a task, and the ends of the barriers, where the counts
say that no AP is left behind. `step_inv` puts the steps of both handlers together.
-/

namespace PurleyFirmware.Smm

variable {cfg : Config} {s s' : State}

/-! ### Stages that an AP does not notice -/

/-- An AP may stay where it is when the barrier is the same and nothing it rests on is taken
away. -/
theorem ApAt.mono {st st' : Stage} {b c run : ℕ} {present busy : Bool} {q : CpuPc}
    (h : ApAt cfg st b c run present busy q) (hactive : st'.active = true)
    (hmode : st'.mode = st.mode) (hphase : st'.phase = st.phase)
    (hreleased : st'.released = st.released)
    (hearly : st.early = true → present = false → q.insideAp = true → st'.early = true)
    (hinside : st.early = true → st.inside = true → st'.inside = true)
    (hlocked : q = .apGiveUp → st.locked = false → st'.locked = false)
    (hmay : present = true → busy = true → st.mayTask c = true → st'.mayTask c = true) :
    ApAt cfg st' b c run present busy q := by
  cases q with
  | outside | sampled | late | exitWait | clearInSync => exact h
  | bsp => exact h
  | checkedIn => exact ⟨hearly h.1 h.2.2 rfl, h.2⟩
  | elect | elected | callBspHandler | callApHandler => exact ⟨hearly h.1 h.2.2.1 rfl, h.2⟩
  | apTimer1 | apCheck1 | apBspKnown | apTimer2 | apCheck2 =>
    obtain ⟨h1, h2, h3, h4, h5⟩ := h
    exact ⟨hearly h1 h3 rfl, h2, h3, h4, h5.trans hmode.symm⟩
  | apGiveUp =>
    obtain ⟨h1, h2, h3, h4, h5⟩ := h
    exact ⟨hearly h1 h3 rfl, h2, h3, h4, hlocked rfl h5⟩
  | apAvailable =>
    obtain ⟨h1, h2, h3, h4, h5, h6⟩ := h
    exact ⟨hearly h1 h3 rfl, h2, h3, h4, h5.trans hmode.symm, hinside h1 h6⟩
  | apPresent =>
    obtain ⟨h1, h2, h3, h4, h5, h6, h7⟩ := h
    exact ⟨hearly h1 h3 rfl, h2, h3, h4, h5.trans hmode.symm, hinside h1 h6, h7⟩
  | apSignal =>
    obtain ⟨h1, -, h3⟩ := h
    refine ⟨h1, hactive, ?_⟩
    rwa [hphase, hreleased]
  | apReset =>
    obtain ⟨h1, -, h3⟩ := h
    refine ⟨h1, hactive, ?_⟩
    rwa [hphase, hreleased]
  | apWait =>
    obtain ⟨h1, -, h3, h4⟩ := h
    refine ⟨h1, hactive, h3, ?_⟩
    unfold WaitOk at h4 ⊢
    rw [hphase, hreleased]
    rcases h4 with h4 | h4 | h4 | ⟨h5, h6, h7, h8, h9, h10⟩
    · exact .inl h4
    · exact .inr (.inl h4)
    · exact .inr (.inr (.inl h4))
    · exact .inr (.inr (.inr ⟨h5, h6, h7, h8, h9, hmay h3 h9 h10⟩))
  | apExit =>
    obtain ⟨h1, -, h3, h4, h5, h6⟩ := h
    refine ⟨h1, hactive, hphase.trans h3, h4, h5, ?_⟩
    rw [hreleased]
    rcases h6 with h6 | ⟨h7, h8, h9⟩
    · exact .inl h6
    · exact .inr ⟨h7, h8, hmay h5 h8 h9⟩
  | apTask =>
    obtain ⟨h1, -, h3, h4, h5, h6, h7, h8⟩ := h
    refine ⟨h1, hactive, hphase.trans h3, h4, h5, ?_⟩
    rw [hreleased]
    exact ⟨h6, h7, hmay h5 h7 h8⟩

theorem ApOk.mono {st st' : Stage} {b c run : ℕ} {present busy : Bool} {q : CpuPc}
    (h : ApOk cfg st b c run present busy q) (hactive : st'.active = true)
    (hmode : st'.mode = st.mode) (hphase : st'.phase = st.phase)
    (hreleased : st'.released = st.released) (hstarting : st'.starting = st.starting)
    (hearly : st.early = true → present = false → q.insideAp = true → st'.early = true)
    (hinside : st.early = true → st.inside = true → st'.inside = true)
    (hlocked : q = .apGiveUp → st.locked = false → st'.locked = false)
    (hmay : present = true → busy = true → st.mayTask c = true → st'.mayTask c = true) :
    ApOk cfg st' b c run present busy q := by
  unfold ApOk at h ⊢
  rw [hstarting]
  split at h
  · rwa [if_pos ‹_›]
  · rw [if_neg ‹_›]
    exact h.mono hactive hmode hphase hreleased hearly hinside hlocked hmay

/-- **The frame of a step of the BSP.** -/
theorem ViewInv.bspMove {b : ℕ} {m : SyncMode} {q q' : BspPc}
    (h : ViewInv cfg s (.bsp b m q)) (hpc : s'.pc = Function.update s.pc b (.bsp m q'))
    (hap : ∀ c, c ≠ b → ApOk cfg (stageOf cfg m q) b c (s.run c) (s.present c) (s.busy c) (s.pc c) →
      ApOk cfg (stageOf cfg m q') b c (s'.run c) (s'.present c) (s'.busy c) (s.pc c))
    (hinside : s'.insideSmm = (stageOf cfg m q').inside)
    (hmode : (stageOf cfg m q').early = true →
      (stageOf cfg m q').mode = s'.effectiveSyncMode)
    (hlocked : (stageOf cfg m q').locked = true → s'.counter = lockedDown)
    (hopen : (stageOf cfg m q').locked = false → s'.counter = awaiting cfg s .reset + 1)
    (hcounted : (stageOf cfg m q').locked = false → ∀ c, s'.counted c = false)
    (hpart : (stageOf cfg m q').locked = true → (stageOf cfg m q').phase ≠ .reset →
      ∀ c, s'.counted c = (s.pc c).insideAp)
    (hindex : (q' ≠ .resetCounter → s'.bspIndex = some b) ∧ IndexOk cfg s')
    (hmodeOk : q'.ModeOk cfg b m)
    (htally : TallyOk cfg (awaiting cfg s) (s'.run b) (s'.present b) (presentFrom cfg s') m q') :
    ViewInv cfg s' (.bsp b m q') := by
  have hat : s.pc b = .bsp m q := (h.atBsp b m q).2 rfl
  have hb : b < cfg.maxCpus := by
    by_contra hge
    rw [h.exist b (by omega)] at hat
    cases hat
  have hself : s'.pc b = .bsp m q' := by rw [hpc, Function.update_self]
  have hother : ∀ d, d ≠ b → s'.pc d = s.pc d := fun d hd ↦ by
    rw [hpc, Function.update_of_ne hd]
  have hawaiting : awaiting cfg s' = awaiting cfg s := by
    funext p
    refine awaiting_eq_of_awaits hb hpc ?_
    rw [hat]
    rfl
  constructor
  · intro d hd
    rw [hother d (by omega)]
    exact h.exist d hd
  · intro d m' q''
    by_cases hd : d = b
    · subst hd
      rw [hself]
      constructor
      · rintro heq
        cases heq
        rfl
      · rintro heq
        cases heq
        rfl
    · rw [hother d hd, h.atBsp d m' q'']
      constructor
      · rintro heq
        cases heq
        exact absurd rfl hd
      · rintro heq
        cases heq
        exact absurd rfl hd
  · intro d hd
    rw [hother d hd]
    exact hap d hd (h.ap d hd)
  · exact hinside
  · exact hmode
  · exact hlocked
  · intro hl
    show s'.counter = awaiting cfg s' .reset + (stageOf cfg m q').active.toNat
    rw [hawaiting, stageOf_active]
    exact hopen hl
  · exact hcounted
  · intro hl hp d
    rw [hpart hl hp d]
    by_cases hd : d = b
    · rw [hd, hself, hat]
      rfl
    · rw [hother d hd]
  · exact hindex.2
  · rintro b' m' q'' heq
    cases heq
    refine ⟨hindex.1, hmodeOk, ?_⟩
    rwa [hawaiting]

/-- A step of the BSP that touches neither the counter nor the flags that the stage is about. -/
theorem ViewInv.bspSilent {b : ℕ} {m : SyncMode} {q q' : BspPc}
    (h : ViewInv cfg s (.bsp b m q)) (hpc : s'.pc = Function.update s.pc b (.bsp m q'))
    (hq : q ≠ .resetCounter)
    (hap : ∀ c, c ≠ b → ApOk cfg (stageOf cfg m q) b c (s.run c) (s.present c) (s.busy c) (s.pc c) →
      ApOk cfg (stageOf cfg m q') b c (s'.run c) (s'.present c) (s'.busy c) (s.pc c))
    (hcounter : s'.counter = s.counter) (hflag : s'.insideSmm = s.insideSmm)
    (heff : s'.effectiveSyncMode = s.effectiveSyncMode) (hghost : s'.counted = s.counted)
    (hbspIndex : s'.bspIndex = s.bspIndex)
    (hlocked : (stageOf cfg m q').locked = (stageOf cfg m q).locked)
    (hinside : (stageOf cfg m q').inside = (stageOf cfg m q).inside)
    (hearly : (stageOf cfg m q').early = true → (stageOf cfg m q).early = true)
    (hreset : (stageOf cfg m q).phase = .reset → (stageOf cfg m q').phase = .reset)
    (hmodeOk : q'.ModeOk cfg b m)
    (htally : TallyOk cfg (awaiting cfg s) (s'.run b) (s'.present b) (presentFrom cfg s') m q') :
    ViewInv cfg s' (.bsp b m q') := by
  refine h.bspMove hpc hap ?_ ?_ ?_ ?_ ?_ ?_ ⟨fun _ ↦ ?_, h.index.move hpc hbspIndex (by simp)⟩ hmodeOk
    htally
  · rw [hflag, hinside]
    exact h.inside
  · intro he
    rw [heff, stageOf_mode, ← stageOf_mode cfg m q]
    exact h.mode (hearly he)
  · rw [hlocked, hcounter]
    exact h.counterLocked
  · rw [hlocked, hcounter]
    intro hl
    have hopen := h.counterOpen hl
    rwa [show (View.stage cfg s.effectiveSyncMode (.bsp b m q)).active = true from
      stageOf_active cfg m q] at hopen
  · rw [hlocked, hghost]
    exact h.counted
  · rw [hlocked, hghost]
    exact fun hl hp ↦ h.countedInside hl fun hp' ↦ hp (hreset hp')
  · rw [hbspIndex]
    exact (h.bsp b m q rfl).index hq

/-- A step of the BSP within one stage that touches none of the APs. -/
theorem ViewInv.bspSameStage {b : ℕ} {m : SyncMode} {q q' : BspPc}
    (h : ViewInv cfg s (.bsp b m q)) (hpc : s'.pc = Function.update s.pc b (.bsp m q'))
    (hq : q ≠ .resetCounter) (hstage : stageOf cfg m q' = stageOf cfg m q)
    (hrun : ∀ c, c ≠ b → s'.run c = s.run c) (hpresent : ∀ c, c ≠ b → s'.present c = s.present c)
    (hbusy : ∀ c, c ≠ b → s'.busy c = s.busy c)
    (hcounter : s'.counter = s.counter) (hflag : s'.insideSmm = s.insideSmm)
    (heff : s'.effectiveSyncMode = s.effectiveSyncMode) (hghost : s'.counted = s.counted)
    (hbspIndex : s'.bspIndex = s.bspIndex) (hmodeOk : q'.ModeOk cfg b m)
    (htally : TallyOk cfg (awaiting cfg s) (s'.run b) (s'.present b) (presentFrom cfg s') m q') :
    ViewInv cfg s' (.bsp b m q') := by
  refine h.bspSilent hpc hq (fun c hc hok ↦ ?_) hcounter hflag heff hghost hbspIndex
    (by rw [hstage]) (by rw [hstage]) (by rw [hstage]; exact id) (by rw [hstage]; exact id) hmodeOk
    htally
  rw [hstage, hrun c hc, hpresent c hc, hbusy c hc]
  exact hok

/-! ### The lock-down -/

theorem apCount_of_counter {a : ℕ} (ha : a ≤ cfg.maxCpus) : apCount (a + 1) = a := by
  have hmax := cfg.maxCpus_lt
  unfold lockedDown at hmax
  rw [apCount, wrapSub_of_le (by omega) (by omega)]
  rfl

/-- **`LockdownSemaphore` before the SMI handlers.** `ApCount` is the number of APs that checked
in. -/
theorem ViewInv.lockdownStep {b : ℕ} {m : SyncMode} (h : ViewInv cfg s (.bsp b m .lockdown))
    (hguard : ∀ c, s.pc c ≠ .apGiveUp) :
    ViewInv cfg ((lockdownCounter s).goto b
      (.bsp m (.waitForAllAPs .arrival (apCount s.counter) (apCount s.counter) none)))
      (.bsp b m (.waitForAllAPs .arrival (apCount s.counter) (apCount s.counter) none)) := by
  obtain ⟨hb, hg, htally⟩ := h.bsp b m _ rfl
  have hcounter : s.counter = awaiting cfg s .reset + 1 := h.counterOpen rfl
  rw [hcounter, apCount_of_counter (awaiting_le cfg s .reset)]
  have hg' : cfg.gathers m = true := hg
  refine h.bspMove rfl (fun c _ hok ↦ ?_) h.inside (fun _ ↦ h.mode rfl) (fun _ ↦ rfl)
    (fun hl ↦ by cases hl) (fun hl ↦ by cases hl) (fun _ _ _ ↦ rfl) ⟨fun _ ↦ hb (by simp),
      h.index.move rfl rfl (by simp)⟩ (fun _ ↦ hg') ?_
  · refine hok.mono rfl rfl ?_ ?_ rfl (fun _ _ _ ↦ rfl) (fun _ _ ↦ rfl)
      (fun hgive ↦ absurd hgive (hguard c)) (fun _ _ hmay ↦ hmay)
    · simp [stageOf, gatheringStage, barrierStage, hg']
    · simp [stageOf, gatheringStage, barrierStage, hg']
  · simp only [TallyOk, hg', if_true] at htally
    exact ⟨htally, by simp, le_rfl, awaiting_le cfg s .reset, fun _ ↦ rfl, by simp⟩

/-- **`LockdownSemaphore` after the SMI handlers.** -/
theorem ViewInv.relaxedLockdownStep {b : ℕ} {m : SyncMode}
    (h : ViewInv cfg s (.bsp b m .relaxedLockdown)) (hguard : ∀ c, s.pc c ≠ .apGiveUp) :
    ViewInv cfg ((lockdownCounter s).goto b
      (.bsp m (.countPresent (apCount s.counter) cfg.maxCpus 0)))
      (.bsp b m (.countPresent (apCount s.counter) cfg.maxCpus 0)) := by
  obtain ⟨hb, hg, htally⟩ := h.bsp b m _ rfl
  have hcounter : s.counter = awaiting cfg s .reset + 1 := h.counterOpen rfl
  rw [hcounter, apCount_of_counter (awaiting_le cfg s .reset)]
  refine h.bspMove rfl (fun c _ hok ↦ ?_) h.inside (fun _ ↦ h.mode rfl) (fun _ ↦ rfl)
    (fun hl ↦ by cases hl) (fun hl ↦ by cases hl) (fun _ _ _ ↦ rfl) ⟨fun _ ↦ hb (by simp),
      h.index.move rfl rfl (by simp)⟩ hg ?_
  · exact hok.mono rfl rfl rfl rfl rfl (fun _ _ _ ↦ rfl) (fun _ _ ↦ rfl)
      (fun hgive ↦ absurd hgive (hguard c)) (fun _ _ hmay ↦ hmay)
  · exact ⟨htally, rfl, awaiting_le cfg s .reset, le_rfl, Nat.zero_le _⟩

/-! ### The barriers -/

/-- **The end of a barrier.** An AP that has signalled phase `p` waits for the next one, or is not
part of the SMI. -/
theorem ApOk.pass {m : SyncMode} {p p' : Phase} {early : Bool} {st' : Stage} {b c run : ℕ}
    {present busy : Bool} {q : CpuPc}
    (h : ApOk cfg (barrierStage m p 0 early) b c run present busy q) (hnext : p.next cfg = some p')
    (hawaits : q.awaits p = false) (hc : q ≠ .outside → c < cfg.maxCpus)
    (hactive : st'.active = true) (hphase : st'.phase = p') (hreleased : st'.released = cfg.maxCpus)
    (hstarting : st'.starting = none) : ApOk cfg st' b c run present busy q := by
  have hat : ApAt cfg (barrierStage m p 0 early) b c run present busy q := h
  rw [ApOk, hstarting, if_neg (by simp)]
  cases q with
  | outside | sampled | late | exitWait | clearInSync => exact hat
  | bsp => exact hat
  | checkedIn | elect | elected | callBspHandler | callApHandler | apTimer1 | apCheck1 | apBspKnown
  | apTimer2 | apCheck2 | apGiveUp | apAvailable | apPresent => cases hawaits
  | apSignal b' p'' =>
    obtain ⟨-, -, rfl, -⟩ := hat
    simp [CpuPc.awaits] at hawaits
  | apWait b' p'' =>
    obtain ⟨hb, -, hpresent, ⟨rfl, -⟩ | ⟨hnext', -, hrun, hbusy⟩ | ⟨-, hlt, -⟩ | ⟨-, -, hlt, -⟩⟩ := hat
    · simp [CpuPc.awaits] at hawaits
    · have hp : p'' = p' := by
        have hnext'' : p.next cfg = some p'' := hnext'
        rw [hnext] at hnext''
        exact (Option.some.inj hnext'').symm
      refine ⟨hb, hactive, hpresent, .inr (.inr (.inl ⟨by rw [hp, hphase], ?_, hrun, hbusy⟩))⟩
      rw [hreleased]
      exact hc (by simp)
    · exact absurd hlt (Nat.not_lt_zero c)
    · exact absurd hlt (Nat.not_lt_zero c)
  | apExit b' =>
    obtain ⟨-, -, hp, -⟩ := hat
    have hp' : p = .exit := hp
    subst hp'
    simp [CpuPc.awaits] at hawaits
  | apTask b' =>
    obtain ⟨-, -, hp, -⟩ := hat
    have hp' : p = .exit := hp
    subst hp'
    simp [CpuPc.awaits] at hawaits
  | apReset b' =>
    obtain ⟨-, -, hp, -⟩ := hat
    have hp' : p = .reset := hp
    subst hp'
    simp [CpuPc.awaits] at hawaits

/-- **`ReleaseAllAPs` visits a processor.** The others do not notice. -/
theorem ApOk.release_other {m : SyncMode} {p : Phase} {b c run index : ℕ} {present busy : Bool}
    {q : CpuPc} (h : ApOk cfg (barrierStage m p (index + 1) false) b c run present busy q)
    (hc : c ≠ index) : ApOk cfg (barrierStage m p index false) b c run present busy q := by
  have hle : (index + 1 ≤ c) = (index ≤ c) := propext ⟨by omega, by omega⟩
  have hlt : (c < index + 1) = (c < index) := propext ⟨by omega, by omega⟩
  cases q <;> simp only [ApOk, ApAt, WaitOk, barrierStage, hle, hlt] at h ⊢ <;> exact h

/-- A processor that is present waits for the phase, and is released for it. -/
theorem ApOk.release_present {m : SyncMode} {p : Phase} {b run index : ℕ} {present busy : Bool}
    {q : CpuPc} (h : ApOk cfg (barrierStage m p (index + 1) false) b index run present busy q)
    (hpresent : present = true) :
    ApOk cfg (barrierStage m p index false) b index (releaseSemaphore run).1 present busy q := by
  subst hpresent
  have hat : ApAt cfg (barrierStage m p (index + 1) false) b index run true busy q := h
  refine .of_at (by simp [barrierStage]) ?_
  cases q with
  | outside | sampled | late | exitWait | clearInSync => cases hat.2
  | bsp => exact hat
  | checkedIn | elect | elected | callBspHandler | callApHandler | apTimer1 | apCheck1 | apBspKnown
  | apTimer2 | apCheck2 | apGiveUp | apAvailable | apPresent => cases hat.1
  | apSignal b' p'' =>
    obtain ⟨-, -, -, hreleased, -⟩ := hat
    exact absurd hreleased (Nat.not_succ_le_self index)
  | apWait b' p'' =>
    obtain ⟨hb, hactive, hpresent, ⟨-, hreleased, -⟩ | ⟨-, hreleased, -⟩ | ⟨hp, -, rfl, hbusy⟩ |
      ⟨-, -, -, -, -, hmay⟩⟩ := hat
    · exact absurd hreleased (Nat.not_succ_le_self index)
    · exact absurd hreleased (Nat.not_succ_le_self index)
    · exact ⟨hb, hactive, rfl, .inl ⟨hp, le_rfl, rfl, hbusy⟩⟩
    · cases hmay
  | apExit b' =>
    obtain ⟨-, -, -, -, -, ⟨hreleased, -⟩ | ⟨-, -, hmay⟩⟩ := hat
    · exact absurd hreleased (Nat.not_succ_le_self index)
    · cases hmay
  | apTask b' =>
    obtain ⟨-, -, -, -, -, -, -, hmay⟩ := hat
    cases hmay
  | apReset b' =>
    obtain ⟨-, -, -, hreleased, -⟩ := hat
    exact absurd hreleased (Nat.not_succ_le_self index)

/-- A processor that is not present is not part of the SMI, and is not released. -/
theorem ApOk.release_absent {m : SyncMode} {p : Phase} {b run index : ℕ} {present busy : Bool}
    {q : CpuPc} (h : ApOk cfg (barrierStage m p (index + 1) false) b index run present busy q)
    (hpresent : present = false) :
    ApOk cfg (barrierStage m p index false) b index run present busy q := by
  subst hpresent
  have hat : ApAt cfg (barrierStage m p (index + 1) false) b index run false busy q := h
  refine .of_at (by simp [barrierStage]) ?_
  cases q with
  | outside | sampled | late | exitWait | clearInSync => exact hat
  | bsp => exact hat
  | checkedIn | elect | elected | callBspHandler | callApHandler | apTimer1 | apCheck1 | apBspKnown
  | apTimer2 | apCheck2 | apGiveUp | apAvailable | apPresent => cases hat.1
  | apSignal b' p'' =>
    obtain ⟨-, -, -, hreleased, -⟩ := hat
    exact absurd hreleased (Nat.not_succ_le_self index)
  | apWait b' p'' =>
    obtain ⟨-, -, hpresent, -⟩ := hat
    cases hpresent
  | apExit b' =>
    obtain ⟨-, -, -, -, hpresent, -⟩ := hat
    cases hpresent
  | apTask b' =>
    obtain ⟨-, -, -, -, hpresent, -⟩ := hat
    cases hpresent
  | apReset b' =>
    obtain ⟨-, -, -, -, -, hpresent, -⟩ := hat
    cases hpresent

/-- **One turn of the loop of `ReleaseAllAPs`.** -/
theorem ViewInv.releaseStep {b : ℕ} {m : SyncMode} {p : Phase} {a index : ℕ}
    (h : ViewInv cfg s (.bsp b m (.releaseAllAPs p a (index + 1)))) :
    ViewInv cfg ((if index ≠ b ∧ s.present index = true then s.releaseRun index else s).goto b
      (.bsp m (.releaseAllAPs p a index))) (.bsp b m (.releaseAllAPs p a index)) := by
  obtain ⟨hb, hp, htally⟩ := h.bsp b m _ rfl
  split
  · rename_i hcond
    obtain ⟨hne, hpresent⟩ := hcond
    refine h.bspSilent rfl (by simp) (fun c hc hok ↦ ?_) rfl rfl rfl rfl rfl rfl rfl
      (fun he ↦ he) id hp ?_
    · show ApOk cfg _ b c (Function.update s.run index _ c) _ _ _
      by_cases hci : c = index
      · subst hci
        rw [Function.update_self]
        exact ApOk.release_present hok hpresent
      · rw [Function.update_of_ne hci]
        exact hok.release_other hci
    · show TallyOk cfg _ (Function.update s.run index _ b) _ _ m _
      rw [Function.update_of_ne (Ne.symm hne)]
      exact htally
  · rename_i hcond
    refine h.bspSilent rfl (by simp) (fun c hc hok ↦ ?_) rfl rfl rfl rfl rfl rfl rfl
      (fun he ↦ he) id hp htally
    by_cases hci : c = index
    · subst hci
      have habsent : s.present c = false := by
        by_contra hne
        exact hcond ⟨hc, by simpa using hne⟩
      exact ApOk.release_absent hok habsent
    · exact hok.release_other hci

/-- Between two barriers, every AP that is part of the SMI awaits the next phase. -/
theorem ApOk.awaits_phase {st : Stage} {b c run : ℕ} {present busy : Bool} {q : CpuPc}
    (h : ApOk cfg st b c run present busy q) (hearly : st.early = false)
    (hstarting : st.starting = none) (hc : c < st.released) :
    q.awaits st.phase = q.awaits .reset := by
  rw [ApOk, hstarting, if_neg (by simp)] at h
  cases q with
  | outside | sampled | late | exitWait | clearInSync | bsp => rfl
  | checkedIn | elect | elected | callBspHandler | callApHandler | apTimer1 | apCheck1 | apBspKnown
  | apTimer2 | apCheck2 | apGiveUp | apAvailable | apPresent =>
    have hon := h.1
    rw [hearly] at hon
    cases hon
  | apSignal b' p =>
    obtain ⟨-, -, -, hreleased, -⟩ := h
    omega
  | apReset b' =>
    obtain ⟨-, -, -, hreleased, -⟩ := h
    omega
  | apWait b' p =>
    have hp : p = st.phase := by
      obtain ⟨-, -, -, ⟨-, hreleased, -⟩ | ⟨-, hreleased, -⟩ | ⟨hp, -⟩ | ⟨hp, hphase, -⟩⟩ := h
      · omega
      · omega
      · exact hp
      · exact hp.trans hphase.symm
    simp only [CpuPc.awaits, hp, le_refl, Phase.rank_le_reset]
  | apExit b' =>
    obtain ⟨-, -, hphase, -⟩ := h
    rw [hphase]
    rfl
  | apTask b' =>
    obtain ⟨-, -, hphase, -⟩ := h
    rw [hphase]
    rfl

theorem ViewInv.lt_maxCpus {v : View} (h : ViewInv cfg s v) {c : ℕ} (hc : s.pc c ≠ .outside) :
    c < cfg.maxCpus := by
  by_contra hge
  exact hc (h.exist c (by omega))

/-- Between two barriers, all the APs that the counter counted await the next phase. -/
theorem ViewInv.awaiting_phase {b : ℕ} {m : SyncMode} {q : BspPc}
    (h : ViewInv cfg s (.bsp b m q)) (hearly : (stageOf cfg m q).early = false)
    (hstarting : (stageOf cfg m q).starting = none)
    (hreleased : (stageOf cfg m q).released = cfg.maxCpus) :
    awaiting cfg s (stageOf cfg m q).phase = awaiting cfg s .reset := by
  refine tally_congr fun c hc ↦ ?_
  by_cases hcb : c = b
  · rw [hcb, (h.atBsp b m q).2 rfl]
    rfl
  · have hok : ApOk cfg (stageOf cfg m q) b c _ _ _ _ := h.ap c hcb
    rw [hok.awaits_phase hearly hstarting (hc.trans_eq hreleased.symm)]

/-- The barrier of a phase is passed when no AP has yet to signal it. -/
theorem ViewInv.passBarrier {b : ℕ} {m : SyncMode} {p p' : Phase} {a : ℕ} {q' : BspPc}
    (h : ViewInv cfg s (.bsp b m (.waitForAllAPs p a 0 none))) (hnext : p.next cfg = some p')
    (hphase : (stageOf cfg m q').phase = p')
    (hreleased : (stageOf cfg m q').released = cfg.maxCpus)
    (hstarting : (stageOf cfg m q').starting = none)
    (hlocked : (stageOf cfg m q').locked = true)
    (hinside : (stageOf cfg m q').inside = p.beforeLeave)
    (hearly : (stageOf cfg m q').early = false) (hmodeOk : q'.ModeOk cfg b m)
    (htally : awaiting cfg s p' = a → awaiting cfg s .reset = a → a ≤ cfg.maxCpus →
      TallyOk cfg (awaiting cfg s) (s.run b) (s.present b) (presentFrom cfg s) m q') :
    ViewInv cfg (s.goto b (.bsp m q')) (.bsp b m q') := by
  obtain ⟨hb, -, hleft, -, -, ha, hreset, -⟩ := h.bsp b m _ rfl
  have hzero : awaiting cfg s p = 0 := by omega
  have hp : p ≠ .reset := by
    rintro rfl
    cases hnext
  have hnew : ∀ c, c ≠ b →
      ApOk cfg (stageOf cfg m q') b c (s.run c) (s.present c) (s.busy c) (s.pc c) := by
    intro c hc
    have hlt : s.pc c ≠ .outside → c < cfg.maxCpus := h.lt_maxCpus
    have hawaits : (s.pc c).awaits p = false := by
      by_cases hout : s.pc c = .outside
      · rw [hout]
        rfl
      · exact awaits_eq_false_of_awaiting hzero (hlt hout)
    exact ApOk.pass (h.ap c hc) hnext hawaits hlt (stageOf_active cfg m q') hphase hreleased
      hstarting
  have hall : awaiting cfg s p' = awaiting cfg s .reset := by
    refine tally_congr fun c hc ↦ ?_
    by_cases hcb : c = b
    · rw [hcb, (h.atBsp b m _).2 rfl]
      rfl
    · rw [← hphase, (hnew c hcb).awaits_phase hearly hstarting (hc.trans_eq hreleased.symm)]
  exact h.bspSilent rfl (by simp) (fun c hc _ ↦ hnew c hc) rfl rfl rfl rfl rfl hlocked hinside
    (fun he ↦ by rw [hearly] at he; cases he) (fun hp' ↦ absurd hp' hp) hmodeOk
    (htally (hall.trans (hreset hp)) (hreset hp) ha)

/-- **`WaitForAllAPs` returns.** -/
theorem ViewInv.waitDoneStep {b : ℕ} {m : SyncMode} {p : Phase} {a : ℕ}
    (h : ViewInv cfg s (.bsp b m (.waitForAllAPs p a 0 none))) :
    ViewInv cfg (s.goto b (.bsp m (afterWait cfg p a))) (.bsp b m (afterWait cfg p a)) := by
  obtain ⟨-, hg, hleft, -, -, -, -, habsent⟩ := h.bsp b m _ rfl
  have hrun : s.run b = 0 := by omega
  cases p with
  | arrival =>
    have hg' : cfg.gathers m = true := hg rfl
    cases hmtrr : cfg.needConfigureMtrrs with
    | true =>
      have hnext : Phase.arrival.next cfg = some .backup := by simp [Phase.next, hmtrr]
      simp only [afterWait, hmtrr, if_true]
      exact h.passBarrier hnext rfl rfl rfl rfl rfl rfl ⟨by simp, fun _ ↦ hg'⟩
        fun hphase hreset ha ↦ ⟨by omega, ha, fun _ ↦ hreset⟩
    | false =>
      have hnext : Phase.arrival.next cfg = some .exit := by simp [Phase.next, hmtrr]
      simp only [afterWait, hmtrr, Bool.false_eq_true, if_false]
      have hlate : (!cfg.gathers m) = false := by rw [hg', Bool.not_true]
      exact h.passBarrier hnext rfl rfl rfl hg' rfl hlate trivial
        fun _ hreset ha ↦ ⟨hrun, fun _ ↦ ⟨hreset, ha⟩⟩
  | backup =>
    have hg' : cfg.gathers m = true := hg rfl
    exact h.passBarrier rfl rfl rfl rfl rfl rfl rfl
      ⟨by simp, fun _ ↦ hg'⟩ fun hphase hreset ha ↦ ⟨by omega, ha, fun _ ↦ hreset⟩
  | program =>
    have hg' : cfg.gathers m = true := hg rfl
    have hlate : (!cfg.gathers m) = false := by rw [hg', Bool.not_true]
    exact h.passBarrier rfl rfl rfl rfl hg' rfl hlate trivial
      fun _ hreset ha ↦ ⟨hrun, fun _ ↦ ⟨hreset, ha⟩⟩
  | exit =>
    have hleft : (if cfg.needConfigureMtrrs then Phase.restore else .reset).beforeLeave = false := by
      split <;> rfl
    exact h.passBarrier rfl rfl rfl rfl rfl hleft rfl trivial fun _ hreset ha ↦ ⟨hrun, hreset, ha⟩
  | restore =>
    exact h.passBarrier rfl rfl rfl rfl rfl rfl rfl
      ⟨by simp, fun hp ↦ by cases hp⟩ fun hphase hreset ha ↦ ⟨by omega, ha, fun _ ↦ hreset⟩
  | reset =>
    have hzero : awaiting cfg s .reset = 0 := by omega
    exact h.bspSameStage rfl (by simp) rfl (fun _ _ ↦ rfl) (fun _ _ ↦ rfl)
      (fun _ _ ↦ rfl) rfl rfl rfl rfl rfl trivial ⟨hrun, hzero, habsent rfl⟩

/-- **`WaitForSemaphoreCount` in `WaitForAllAPs`.** What the BSP takes from its semaphore has been
signalled, so `NumberOfAPs` does not wrap. -/
theorem ViewInv.waitTakeStep {b : ℕ} {m : SyncMode} {p : Phase} {a numberOfAPs count run : ℕ}
    (h : ViewInv cfg s (.bsp b m (.waitForAllAPs p a numberOfAPs (some count))))
    (hwait : waitForSemaphoreCount (s.run b) count = some run) :
    ViewInv cfg ((s.setRun b run).goto b
      (.bsp m (.waitForAllAPs p a (wrapSub 64 numberOfAPs count) none)))
      (.bsp b m (.waitForAllAPs p a (wrapSub 64 numberOfAPs count) none)) := by
  obtain ⟨-, hg, hleft, hcount, hle, ha, hreset⟩ := h.bsp b m _ rfl
  have hmax := cfg.maxCpus_lt
  unfold lockedDown at hmax
  have hk := hcount count rfl
  have hrun : run = s.run b - count := by
    unfold waitForSemaphoreCount at hwait
    split at hwait
    · cases hwait
    · rw [wrapSub_of_le hk (by omega)] at hwait
      exact (Option.some.inj hwait).symm
  have hnumber : wrapSub 64 numberOfAPs count = numberOfAPs - count :=
    wrapSub_of_le (by omega) (by omega)
  rw [hnumber]
  refine h.bspSameStage rfl (by simp) rfl (fun c hc ↦ Function.update_of_ne hc _ _)
    (fun _ _ ↦ rfl) (fun _ _ ↦ rfl) rfl rfl rfl rfl rfl hg ?_
  show TallyOk cfg _ (Function.update s.run b run b) _ _ m _
  rw [Function.update_self]
  exact ⟨by omega, by simp, by omega, ha, hreset⟩

/-! ### Tasks -/

/-- While the SMI handlers run, an AP that is present and has no task pending is in the wait
loop. -/
theorem ApAt.waiting {st : Stage} {b c run : ℕ} {q : CpuPc}
    (h : ApAt cfg st b c run true false q) (hphase : st.phase = .exit) (hc : c < st.released) :
    q = .apWait b .exit ∧ run = 0 := by
  cases q with
  | outside | sampled | late | exitWait | clearInSync => cases h.2
  | bsp => exact h.elim
  | checkedIn => cases h.2.2
  | elect | elected | callBspHandler | callApHandler | apTimer1 | apCheck1 | apBspKnown | apTimer2
  | apCheck2 | apGiveUp | apAvailable | apPresent => cases h.2.2.1
  | apSignal b' p =>
    obtain ⟨-, -, -, hreleased, -⟩ := h
    omega
  | apReset b' =>
    obtain ⟨-, -, -, hreleased, -⟩ := h
    omega
  | apWait b' p =>
    obtain ⟨rfl, -, -, ⟨-, hreleased, -⟩ | ⟨-, hreleased, -⟩ | ⟨hp, -, hrun, -⟩ |
      ⟨-, -, -, -, hbusy, -⟩⟩ := h
    · omega
    · omega
    · exact ⟨by rw [hp, hphase], hrun⟩
    · cases hbusy
  | apExit b' =>
    obtain ⟨-, -, -, -, -, ⟨hreleased, -⟩ | ⟨-, hbusy, -⟩⟩ := h
    · omega
    · cases hbusy
  | apTask b' =>
    obtain ⟨-, -, -, -, -, -, hbusy, -⟩ := h
    cases hbusy

/-- **A task is started.** -/
theorem ViewInv.startTaskStep {b : ℕ} {m : SyncMode} {drained : Bool} {a ap : ℕ}
    (h : ViewInv cfg s (.bsp b m (.tasks drained a))) (hlt : ap < cfg.maxCpus) (hne : ap ≠ b)
    (hpresent : s.present ap = true) (hbusy : s.busy ap = false) :
    ViewInv cfg ((s.setBusy ap true).goto b (.bsp m (.startupThisAp drained a ap)))
      (.bsp b m (.startupThisAp drained a ap)) := by
  obtain ⟨-, -, htally⟩ := h.bsp b m _ rfl
  refine h.bspSilent rfl (by simp) (fun c hc hok ↦ ?_) rfl rfl rfl rfl rfl rfl rfl (fun he ↦ he)
    id hne htally
  show ApOk cfg _ b c (s.run c) (s.present c) (Function.update s.busy ap true c) (s.pc c)
  have hat : ApAt cfg (stageOf cfg m (.tasks drained a)) b c (s.run c) (s.present c) (s.busy c)
      (s.pc c) := hok
  by_cases hcap : c = ap
  · subst hcap
    rw [hpresent, hbusy] at hat
    obtain ⟨hpc, hrun⟩ := hat.waiting rfl hlt
    rw [Function.update_self]
    exact (if_pos rfl).mpr ⟨hpc, hrun, hpresent, rfl⟩
  · rw [Function.update_of_ne hcap]
    have hstarting : (stageOf cfg m (.startupThisAp drained a ap)).starting ≠ some c :=
      fun heq ↦ hcap (Option.some.inj heq).symm
    refine .of_at hstarting (hat.mono rfl rfl rfl rfl (fun he _ _ ↦ he) (fun _ hin ↦ hin)
      (fun _ hl ↦ hl) fun _ _ hmay ↦ ?_)
    have hmay' : (!drained) = true := hmay
    show (!drained || decide (c = ap)) = true
    rw [hmay', Bool.true_or]

/-- **The AP is released for its task.** -/
theorem ViewInv.startupTo {b : ℕ} {m : SyncMode} {drained : Bool} {a ap : ℕ} {q' : BspPc}
    {mayTask : ℕ → Bool} (h : ViewInv cfg s (.bsp b m (.startupThisAp drained a ap)))
    (hstage : stageOf cfg m q' =
      handlersStage cfg m (!cfg.gathers m) (cfg.gathers m) mayTask none)
    (hap : mayTask ap = true)
    (hmono : ∀ c, (stageOf cfg m (.startupThisAp drained a ap)).mayTask c = true → mayTask c = true)
    (hmodeOk : q'.ModeOk cfg b m)
    (htally : TallyOk cfg (awaiting cfg s) (s.run b) (s.present b) (presentFrom cfg s) m q') :
    ViewInv cfg ((s.releaseRun ap).goto b (.bsp m q')) (.bsp b m q') := by
  obtain ⟨-, hne, -⟩ := h.bsp b m _ rfl
  have hne' : ap ≠ b := hne
  refine h.bspSilent rfl (by simp) (fun c hc hok ↦ ?_) rfl rfl rfl rfl rfl (by rw [hstage]; rfl)
    (by rw [hstage]; rfl) (by rw [hstage]; exact fun he ↦ he) (fun hp ↦ by cases hp) hmodeOk ?_
  · show ApOk cfg _ b c (Function.update s.run ap _ c) (s.present c) (s.busy c) (s.pc c)
    rw [hstage]
    by_cases hcap : c = ap
    · subst hcap
      obtain ⟨hpc, hrun, hpresent, hbusy⟩ := (if_pos rfl).mp hok
      have hlt : c < cfg.maxCpus := h.lt_maxCpus (by rw [hpc]; simp)
      rw [Function.update_self, hpc, hrun]
      exact ⟨rfl, rfl, hpresent, .inr (.inr (.inr ⟨rfl, rfl, hlt, rfl, hbusy, hap⟩))⟩
    · rw [Function.update_of_ne hcap]
      have hstarting : (stageOf cfg m (.startupThisAp drained a ap)).starting ≠ some c :=
        fun heq ↦ hcap (Option.some.inj heq).symm
      have hat : ApAt cfg (stageOf cfg m (.startupThisAp drained a ap)) b c (s.run c) (s.present c)
        (s.busy c) (s.pc c) := (if_neg hstarting).mp hok
      exact .of_at (by simp [handlersStage]) (hat.mono rfl rfl rfl rfl (fun he _ _ ↦ he)
        (fun _ hin ↦ hin) (fun _ hl ↦ hl) fun _ _ ↦ hmono c)
  · show TallyOk cfg _ (Function.update s.run ap _ b) _ _ m _
    rwa [Function.update_of_ne (Ne.symm hne')]

/-! ### The end of a relaxed SMI -/

/-- Who is present is an AP that is part of the SMI. -/
theorem ApOk.insideAp_of_present {st : Stage} {b c run : ℕ} {present busy : Bool} {q : CpuPc}
    (h : ApOk cfg st b c run present busy q) (hpresent : present = true) : q.insideAp = true := by
  subst hpresent
  unfold ApOk at h
  split at h
  · rw [h.1]
    rfl
  · cases q <;> first | rfl | exact h.elim | cases h.2

/-- **Once more processors are present than APs checked in, all of them are.** -/
theorem ViewInv.allPresent {b : ℕ} {m : SyncMode} {a k : ℕ}
    (h : ViewInv cfg s (.bsp b m (.countPresent a 0 k))) (hlt : a < k) {c : ℕ} (hc : c ≠ b)
    (hinside : (s.pc c).insideAp = true) : s.present c = true := by
  obtain ⟨-, -, -, hreset, -, -, hk⟩ := h.bsp b m _ rfl
  have hat : s.pc b = .bsp m (.countPresent a 0 k) := (h.atBsp b m _).2 rfl
  have hbmax : b < cfg.maxCpus := h.lt_maxCpus (by rw [hat]; simp)
  have hcmax : c < cfg.maxCpus := h.lt_maxCpus fun hout ↦ by rw [hout] at hinside; cases hinside
  by_contra habsent
  -- the processors that are part of the SMI: the APs, and the BSP
  let weight : ℕ × CpuPc → ℕ := fun x ↦ (x.2.awaits .reset).toNat + if x.1 = b then 1 else 0
  have hall : tally cfg.maxCpus weight (fun i ↦ (i, s.pc i)) = a + 1 := by
    have hoff : ∀ i, i ≠ b → weight (i, s.pc i) = ((s.pc i).awaits .reset).toNat := by
      intro i hi
      simp [weight, hi]
    have hframe : tally cfg.maxCpus weight (fun i ↦ (i, s.pc i)) + ((s.pc b).awaits .reset).toNat =
        awaiting cfg s .reset + weight (b, s.pc b) := tally_frame hbmax hoff
    have hself : weight (b, s.pc b) = ((s.pc b).awaits .reset).toNat + 1 := by simp [weight]
    omega
  have hless : presentFrom cfg s 0 < tally cfg.maxCpus weight (fun i ↦ (i, s.pc i)) := by
    refine tally_lt_tally (fun i _ ↦ ?_) hcmax ?_
    · by_cases hib : i = b
      · simp only [weight, hib, if_true]
        have := Bool.toNat_le (decide (0 ≤ b) && s.present b)
        omega
      · cases hp : s.present i with
        | false => simp
        | true =>
          have hin := (h.ap i hib).insideAp_of_present hp
          simp [weight, CpuPc.awaits_reset, hin]
    · have habsent' : s.present c = false := by simpa using habsent
      simp [weight, CpuPc.awaits_reset, hinside, habsent', hc]
  omega

/-! ### The steps of `BSPHandler` -/

/-- **`InsideSmm = TRUE`.** -/
theorem ViewInv.enterStep {b : ℕ} {m : SyncMode} (h : ViewInv cfg s (.bsp b m .enter)) :
    ViewInv cfg ({ s with insideSmm := true }.goto b (.bsp m .markPresent))
      (.bsp b m .markPresent) := by
  obtain ⟨hb, hmodeOk, htally⟩ := h.bsp b m _ rfl
  refine h.bspMove rfl (fun c _ hok ↦ ?_) rfl (fun he ↦ h.mode he) (fun hl ↦ h.counterLocked hl)
    h.counterOpen h.counted (fun hl ↦ by cases hl)
    ⟨fun _ ↦ hb (by simp), h.index.move rfl rfl (by simp)⟩ trivial htally
  exact hok.mono rfl rfl rfl rfl rfl (fun he _ _ ↦ he) (fun _ _ ↦ rfl) (fun _ hl ↦ hl)
    fun _ _ hmay ↦ hmay

/-- **`InsideSmm = FALSE`.** No processor is on its way to the first barrier any more. -/
theorem ViewInv.leaveStep {b : ℕ} {m : SyncMode} {a : ℕ} (h : ViewInv cfg s (.bsp b m (.leave a))) :
    ViewInv cfg ({ s with insideSmm := false }.goto b
      (.bsp m (.releaseAllAPs .exit a cfg.maxCpus)))
      (.bsp b m (.releaseAllAPs .exit a cfg.maxCpus)) := by
  obtain ⟨hb, hmodeOk, hrun, hreset, ha⟩ := h.bsp b m _ rfl
  have hphase : awaiting cfg s .exit = awaiting cfg s .reset := h.awaiting_phase rfl rfl rfl
  refine h.bspMove rfl (fun c _ hok ↦ ?_) rfl (fun he ↦ by cases he) h.counterLocked
    (fun hl ↦ by cases hl) (fun hl ↦ by cases hl) (fun _ _ ↦ h.countedInside rfl nofun)
    ⟨fun _ ↦ hb (by simp), h.index.move rfl rfl (by simp)⟩ ⟨by simp, fun hp ↦ by cases hp⟩
    ⟨?_, ha, fun _ ↦ hreset⟩
  · exact hok.mono rfl rfl rfl rfl rfl (fun he _ _ ↦ he) (fun he ↦ by cases he) (fun _ hl ↦ hl)
      fun _ _ hmay ↦ hmay
  · show a = awaiting cfg s .exit + s.run b
    omega

/-- **`EffectiveSyncMode = SyncModeToBeSet`**, while no processor can check in. -/
theorem ViewInv.setSyncModeStep {b : ℕ} {m m' : SyncMode} {a : ℕ}
    (h : ViewInv cfg s (.bsp b m (.setSyncMode a))) :
    ViewInv cfg ({ s with effectiveSyncMode := m' }.goto b (.bsp m (.releaseAllAPs
      (if cfg.needConfigureMtrrs then .restore else .reset) a cfg.maxCpus)))
      (.bsp b m (.releaseAllAPs (if cfg.needConfigureMtrrs then .restore else .reset) a
        cfg.maxCpus)) := by
  obtain ⟨hb, -, hrun, hreset, ha⟩ := h.bsp b m _ rfl
  have hphase : awaiting cfg s (if cfg.needConfigureMtrrs then .restore else .reset) =
      awaiting cfg s .reset := h.awaiting_phase rfl rfl rfl
  refine h.bspMove rfl (fun c _ hok ↦ hok) h.inside (fun he ↦ by cases he) h.counterLocked
    (fun hl ↦ by cases hl) (fun hl ↦ by cases hl) (fun _ hp ↦ h.countedInside rfl hp)
    ⟨fun _ ↦ hb (by simp), h.index.move rfl rfl (by simp)⟩ ⟨?_, ?_⟩ ⟨?_, ha, fun _ ↦ hreset⟩
  · split <;> simp
  · split <;> exact fun hp ↦ by cases hp
  · show a = awaiting cfg s (if cfg.needConfigureMtrrs then .restore else .reset) + s.run b
    omega

/-- **The flags are counted**; the loop ends when every AP that checked in is present. -/
theorem ViewInv.countDoneStep {b : ℕ} {m : SyncMode} {a k : ℕ}
    (h : ViewInv cfg s (.bsp b m (.countPresent a 0 k))) (hlt : a < k) :
    ViewInv cfg (s.goto b (.bsp m (.leave a))) (.bsp b m (.leave a)) := by
  obtain ⟨-, -, hrun, hreset, ha, -⟩ := h.bsp b m _ rfl
  refine h.bspSilent rfl (by simp) (fun c hc hok ↦ ?_) rfl rfl rfl rfl rfl rfl rfl
    (fun he ↦ by cases he) id trivial ⟨hrun, hreset, ha⟩
  refine hok.mono rfl rfl rfl rfl rfl (fun _ habsent hinside ↦ ?_) (fun _ hin ↦ hin)
    (fun _ hl ↦ by cases hl) fun _ _ hmay ↦ hmay
  rw [h.allPresent hlt hc hinside] at habsent
  cases habsent

/-- **`BspIndex = -1`.** -/
theorem ViewInv.resetBspIndexStep {b : ℕ} {m : SyncMode}
    (h : ViewInv cfg s (.bsp b m .resetBspIndex)) :
    ViewInv cfg ({ s with bspIndex := if cfg.enableBspElection then none else s.bspIndex }.goto b
      (.bsp m .resetCounter)) (.bsp b m .resetCounter) := by
  obtain ⟨-, -, htally⟩ := h.bsp b m _ rfl
  have hat : s.pc b = .bsp m .resetBspIndex := (h.atBsp b m _).2 rfl
  refine h.bspMove rfl (fun c _ hok ↦ hok) h.inside (fun he ↦ by cases he) h.counterLocked
    (fun hl ↦ by cases hl) (fun hl ↦ by cases hl) (fun _ hp ↦ absurd rfl hp)
    ⟨fun hq ↦ absurd rfl hq, ?_, ?_, ?_⟩ trivial htally
  · intro henable
    show (if cfg.enableBspElection then none else s.bspIndex) = some 0
    rw [henable]
    exact h.index.fixed henable
  · intro _ henable _
    show (if cfg.enableBspElection then none else s.bspIndex) = none ∨ _
    rw [henable]
    exact .inl rfl
  · -- nobody is about to call a handler
    intro c hc
    have hc' : Function.update s.pc b (.bsp m .resetCounter) c = .callBspHandler := hc
    by_cases hcb : c = b
    · subst hcb
      rw [Function.update_self] at hc'
      cases hc'
    · rw [Function.update_of_ne hcb] at hc'
      have hok := h.ap c hcb
      rw [hc'] at hok
      cases (hok.at (by simp)).2.1

/-! ### The ends of an SMI -/

/-- An AP that has nothing left to signal has no part in an SMI. -/
theorem ApOk.out {st st' : Stage} {b b' c run : ℕ} {present busy : Bool} {q : CpuPc}
    (h : ApOk cfg st b c run present busy q) (hawaits : q.awaits .reset = false)
    (hstarting : st'.starting = none) : ApOk cfg st' b' c run present busy q := by
  have hat := (h.at (by rintro rfl; cases hawaits)).2
  refine .of_at (by simp [hstarting]) ?_
  cases q with
  | outside | sampled | late | exitWait | clearInSync => exact hat
  | bsp => exact hat
  | checkedIn | elect | elected | callBspHandler | callApHandler | apTimer1 | apCheck1 | apBspKnown
  | apTimer2 | apCheck2 | apGiveUp | apAvailable | apPresent | apExit | apTask | apReset =>
    cases hawaits
  | apSignal b' p | apWait b' p => simp [CpuPc.awaits, p.rank_le_reset] at hawaits

/-- **`Counter = 0`**: the SMI is over, and no AP is part of it any more. -/
theorem ViewInv.resetCounterStep {b : ℕ} {m : SyncMode}
    (h : ViewInv cfg s (.bsp b m .resetCounter)) :
    ViewInv cfg ({ s with counter := 0, counted := fun _ ↦ false }.goto b .clearInSync) .idle := by
  obtain ⟨-, -, hrun, hzero, habsent⟩ := h.bsp b m _ rfl
  have hat : s.pc b = .bsp m .resetCounter := (h.atBsp b m _).2 rfl
  have hb : b < cfg.maxCpus := h.lt_maxCpus (by rw [hat]; simp)
  have hself : Function.update s.pc b .clearInSync b = .clearInSync := Function.update_self ..
  have hother : ∀ d, d ≠ b → Function.update s.pc b .clearInSync d = s.pc d := fun d hd ↦
    Function.update_of_ne hd _ _
  have hawaiting : awaiting cfg (s.goto b .clearInSync) .reset = awaiting cfg s .reset :=
    awaiting_eq_of_awaits hb rfl (by rw [hat]; rfl)
  constructor
  · intro d hd
    refine (hother d (by omega)).trans (h.exist d hd)
  · intro d m' q'
    refine iff_of_false (fun hd ↦ ?_) (by simp)
    have hd' : Function.update s.pc b .clearInSync d = .bsp m' q' := hd
    by_cases hdb : d = b
    · subst hdb
      rw [hself] at hd'
      cases hd'
    · rw [hother d hdb, h.atBsp d m' q'] at hd'
      cases hd'
      exact hdb rfl
  · intro d _
    show ApOk cfg (idleStage s.effectiveSyncMode) 0 d (s.run d) (s.present d) (s.busy d)
      (Function.update s.pc b .clearInSync d)
    by_cases hdb : d = b
    · subst hdb
      rw [hself]
      exact .of_at (by simp [idleStage]) ⟨hrun, habsent⟩
    · rw [hother d hdb]
      refine ApOk.out (h.ap d hdb) ?_ rfl
      by_cases hout : s.pc d = .outside
      · rw [hout]
        rfl
      · exact awaits_eq_false_of_awaiting hzero (h.lt_maxCpus hout)
  · exact h.inside
  · exact fun _ ↦ rfl
  · exact fun hl ↦ by cases hl
  · intro _
    show 0 = awaiting cfg (s.goto b .clearInSync) .reset + 0
    rw [hawaiting, hzero]
  · exact fun _ _ ↦ rfl
  · exact fun hl ↦ by cases hl
  · exact h.index.move rfl rfl (by simp)
  · exact fun _ _ _ hv ↦ by cases hv

/-- Without a BSP, an AP that checked in has all phases ahead of it. -/
theorem ApOk.awaits_idle {m : SyncMode} {b c run : ℕ} {present busy : Bool} {q : CpuPc}
    (h : ApOk cfg (idleStage m) b c run present busy q) : q.awaits .arrival = q.awaits .reset := by
  have hat : ApAt cfg (idleStage m) b c run present busy q := h
  cases q with
  | apSignal | apWait | apExit | apTask | apReset => cases hat.2.1
  | _ => rfl

/-- Before a BSP flags its presence, an AP that checked in waits for it. -/
theorem ApOk.start {m : SyncMode} {b b' c run : ℕ} {present busy : Bool} {q : CpuPc}
    (h : ApOk cfg (idleStage m) b c run present busy q) :
    ApOk cfg (stageOf cfg m .enter) b' c run present busy q := by
  have hat : ApAt cfg (idleStage m) b c run present busy q := h
  refine .of_at (by simp [stageOf, gatheringStage]) ?_
  cases q with
  | apSignal | apWait | apExit | apTask | apReset => cases hat.2.1
  | apAvailable =>
    obtain ⟨-, -, -, -, -, hinside⟩ := hat
    cases hinside
  | apPresent =>
    obtain ⟨-, -, -, -, -, hinside, -⟩ := hat
    cases hinside
  | _ => exact hat

/-- **The elected processor calls `BSPHandler`**: there is no other BSP. -/
theorem ViewInv.callBspStep {v : View} (h : ViewInv cfg s v) {c : ℕ}
    (hpc : s.pc c = .callBspHandler) :
    ViewInv cfg (s.goto c (.bsp s.effectiveSyncMode .enter)) (.bsp c s.effectiveSyncMode .enter) := by
  have hcalled := h.index.called c hpc
  have hcmax : c < cfg.maxCpus := h.lt_maxCpus (by rw [hpc]; simp)
  cases v with
  | bsp b m q =>
    exfalso
    have hcb : c ≠ b := by
      rintro rfl
      rw [(h.atBsp c m q).2 rfl] at hpc
      cases hpc
    have hok := h.ap c hcb
    rw [hpc] at hok
    have hindex := h.bspIndex_of_early (hok.at (by simp)).2.1 (stageOf_active cfg m q)
    rw [hcalled] at hindex
    exact hcb (Option.some.inj hindex)
  | idle =>
    set m := s.effectiveSyncMode with hm
    have hap : ∀ d, ApOk cfg (idleStage m) 0 d (s.run d) (s.present d) (s.busy d) (s.pc d) :=
      fun d ↦ h.ap d id
    have hrun : s.run c = 0 := by
      have hok := hap c
      rw [hpc] at hok
      exact (hok.at (by simp)).2.2.1
    have hother : ∀ d, d ≠ c → Function.update s.pc c (.bsp m .enter) d = s.pc d := fun d hd ↦
      Function.update_of_ne hd _ _
    have hself : Function.update s.pc c (.bsp m .enter) c = .bsp m .enter := Function.update_self ..
    have hcount : ∀ p, awaiting cfg (s.goto c (.bsp m .enter)) p + 1 = awaiting cfg s p := by
      intro p
      have hupdate : awaiting cfg (s.goto c (.bsp m .enter)) p + _ = _ :=
        awaiting_update hcmax rfl p
      rw [hpc] at hupdate
      exact hupdate
    have hsame : awaiting cfg s .arrival = awaiting cfg s .reset :=
      tally_congr fun d _ ↦ by rw [(hap d).awaits_idle]
    constructor
    · intro d hd
      exact (hother d (by omega)).trans (h.exist d hd)
    · intro d m' q'
      show Function.update s.pc c (.bsp m .enter) d = .bsp m' q' ↔ _
      by_cases hdc : d = c
      · subst hdc
        rw [hself]
        constructor
        · intro heq
          cases heq
          rfl
        · intro heq
          cases heq
          rfl
      · rw [hother d hdc, h.atBsp d m' q']
        refine iff_of_false (by simp) fun heq ↦ ?_
        cases heq
        exact hdc rfl
    · intro d hd
      have hd' : d ≠ c := hd
      show ApOk cfg (stageOf cfg m .enter) c d (s.run d) (s.present d) (s.busy d)
        (Function.update s.pc c (.bsp m .enter) d)
      rw [hother d hd']
      exact (hap d).start
    · exact h.inside
    · exact fun _ ↦ rfl
    · exact fun hl ↦ by cases hl
    · intro _
      have hopen : s.counter = awaiting cfg s .reset + 0 := h.counterOpen rfl
      have hreset := hcount .reset
      show s.counter = awaiting cfg (s.goto c (.bsp m .enter)) .reset + 1
      omega
    · exact fun _ ↦ h.counted rfl
    · exact fun hl ↦ by cases hl
    · exact h.index.move rfl rfl (by simp)
    · rintro b m' q' heq
      cases heq
      refine ⟨fun _ ↦ hcalled, trivial, ?_⟩
      have hreset := hcount .reset
      have harrival := hcount .arrival
      show if cfg.gathers m then awaiting cfg (s.goto c (.bsp m .enter)) .reset =
        awaiting cfg (s.goto c (.bsp m .enter)) .arrival + s.run c else s.run c = 0
      split
      · omega
      · exact hrun

/-! ### Every step -/

/-- **The SMI handlers return**, or `PerformRemainingTasks` does. -/
theorem ViewInv.handlersReturnStep {b : ℕ} {m : SyncMode} {drained : Bool} {a : ℕ}
    (h : ViewInv cfg s (.bsp b m (.tasks drained a))) :
    Inv cfg (s.goto b (.bsp m (if drained then (if cfg.gathers m then .leave a else .relaxedInSync)
      else .drain a cfg.maxCpus))) := by
  obtain ⟨-, -, hrun, hcount⟩ := h.bsp b m _ rfl
  cases drained with
  | false =>
    refine ⟨_, h.bspSilent rfl (by simp) (fun c hc hok ↦ ?_) rfl rfl rfl rfl rfl rfl rfl
      (fun he ↦ he) id trivial ⟨hrun, hcount⟩⟩
    refine hok.mono rfl rfl rfl rfl rfl (fun he _ _ ↦ he) (fun _ hin ↦ hin) (fun _ hl ↦ hl)
      fun hpresent _ _ ↦ decide_eq_true (h.lt_maxCpus fun hout ↦ ?_)
    rw [hout] at hok
    have habsent := (hok.at (by simp)).2.2
    rw [hpresent] at habsent
    cases habsent
  | true =>
    cases hg : cfg.gathers m with
    | true =>
      obtain ⟨hreset, ha⟩ := hcount hg
      have hstage : stageOf cfg m (.leave a) = stageOf cfg m (.tasks true a) := by
        simp [stageOf, hg]
      exact ⟨_, h.bspSameStage rfl (by simp) hstage (fun _ _ ↦ rfl) (fun _ _ ↦ rfl) (fun _ _ ↦ rfl)
        rfl rfl rfl rfl rfl trivial ⟨hrun, hreset, ha⟩⟩
    | false =>
      have hstage : stageOf cfg m .relaxedInSync = stageOf cfg m (.tasks true a) := by
        simp [stageOf, hg]
      exact ⟨_, h.bspSameStage rfl (by simp) hstage (fun _ _ ↦ rfl) (fun _ _ ↦ rfl) (fun _ _ ↦ rfl)
        rfl rfl rfl rfl rfl hg hrun⟩

/-- **Every step of `BSPHandler` keeps the invariant**, unless the counter is locked down while an
AP is about to give up. -/
theorem ViewInv.bspStep_inv {b : ℕ} {m : SyncMode} {q : BspPc} {e : Env}
    (h : ViewInv cfg s (.bsp b m q))
    (hguard : (CpuPc.bsp m q).aboutToLock = true → ∀ c, s.pc c ≠ .apGiveUp)
    (hstep : bspStep cfg s b m e q = some s') : Inv cfg s' := by
  obtain ⟨hb, hmodeOk, htally⟩ := h.bsp b m q rfl
  cases q with
  | enter =>
    obtain rfl := Option.some.inj hstep
    exact ⟨_, h.enterStep⟩
  | markPresent =>
    obtain rfl := Option.some.inj hstep
    have hother : ∀ c, c ≠ b → Function.update s.present b true c = s.present c :=
      fun c hc ↦ Function.update_of_ne hc _ _
    cases hg : cfg.gathers m with
    | true =>
      rw [if_pos rfl]
      exact ⟨_, h.bspSameStage rfl (by simp) rfl (fun _ _ ↦ rfl) hother (fun _ _ ↦ rfl) rfl rfl
        rfl rfl rfl hg htally⟩
    | false =>
      rw [if_neg (by simp)]
      have hstage : stageOf cfg m (.acquireBusy 0) = stageOf cfg m .markPresent := by
        simp [stageOf, handlersStage, gatheringStage, hg]
      have hrun : s.run b = 0 := by
        simpa only [TallyOk, hg, Bool.false_eq_true, if_false] using htally
      exact ⟨_, h.bspSameStage rfl (by simp) hstage (fun _ _ ↦ rfl) hother (fun _ _ ↦ rfl) rfl rfl
        rfl rfl rfl trivial ⟨hrun, fun hg' ↦ by rw [hg] at hg'; cases hg'⟩⟩
  | waitForApArrival =>
    obtain rfl := Option.some.inj hstep
    exact ⟨_, h.bspSameStage rfl (by simp) rfl (fun _ _ ↦ rfl) (fun _ _ ↦ rfl) (fun _ _ ↦ rfl) rfl
      rfl rfl rfl rfl hmodeOk htally⟩
  | inSync =>
    obtain rfl := Option.some.inj hstep
    exact ⟨_, h.bspSameStage rfl (by simp) rfl (fun _ _ ↦ rfl) (fun _ _ ↦ rfl) (fun _ _ ↦ rfl) rfl
      rfl rfl rfl rfl hmodeOk htally⟩
  | lockdown =>
    obtain rfl := Option.some.inj hstep
    exact ⟨_, h.lockdownStep (hguard rfl)⟩
  | waitForAllAPs p a numberOfAPs count =>
    cases count with
    | none =>
      obtain rfl := Option.some.inj hstep
      by_cases hzero : numberOfAPs = 0
      · subst hzero
        rw [if_pos rfl]
        exact ⟨_, h.waitDoneStep⟩
      · rw [if_neg hzero]
        obtain ⟨hleft, -, hrest⟩ := htally
        exact ⟨_, h.bspSameStage rfl (by simp) rfl (fun _ _ ↦ rfl) (fun _ _ ↦ rfl) (fun _ _ ↦ rfl)
          rfl rfl rfl rfl rfl hmodeOk ⟨hleft, fun _ hk ↦ (Option.some.inj hk).ge, hrest⟩⟩
    | some count =>
      obtain ⟨run, hwait, rfl⟩ := Option.map_eq_some_iff.1 hstep
      exact ⟨_, h.waitTakeStep hwait⟩
  | releaseAllAPs p a index =>
    cases index with
    | zero =>
      obtain rfl := Option.some.inj hstep
      obtain ⟨hleft, ha, hreset⟩ := htally
      obtain ⟨hp, hg⟩ := hmodeOk
      cases p with
      | arrival => exact absurd rfl hp
      | reset =>
        exact ⟨_, h.bspSameStage rfl (by simp) rfl (fun _ _ ↦ rfl) (fun _ _ ↦ rfl) (fun _ _ ↦ rfl)
          rfl rfl rfl rfl rfl trivial ⟨hleft, ha⟩⟩
      | backup | program | exit | restore =>
        exact ⟨_, h.bspSameStage rfl (by simp) rfl (fun _ _ ↦ rfl) (fun _ _ ↦ rfl) (fun _ _ ↦ rfl)
          rfl rfl rfl rfl rfl hg ⟨hleft, by simp, le_rfl, ha, hreset, by simp⟩⟩
    | succ index =>
      obtain rfl := Option.some.inj hstep
      exact ⟨_, h.releaseStep⟩
  | acquireBusy a =>
    obtain rfl := Option.some.inj hstep
    refine ⟨_, h.bspSilent rfl (by simp) (fun c hc hok ↦ ?_) rfl rfl rfl rfl rfl rfl rfl
      (fun he ↦ he) id trivial htally⟩
    show ApOk cfg _ b c (s.run c) (s.present c) (Function.update s.busy b true c) (s.pc c)
    rw [Function.update_of_ne hc]
    exact hok.mono rfl rfl rfl rfl rfl (fun he _ _ ↦ he) (fun _ hin ↦ hin) (fun _ hl ↦ hl)
      fun _ _ _ ↦ rfl
  | tasks drained a =>
    cases htask : e.startTask with
    | some ap =>
      simp only [bspStep, htask] at hstep
      split at hstep
      · rename_i hcond
        obtain ⟨hlt, hne, hpresent, hbusy⟩ := hcond
        obtain rfl := Option.some.inj hstep
        exact ⟨_, h.startTaskStep hlt hne hpresent hbusy⟩
      · obtain rfl := Option.some.inj hstep
        exact ⟨_, h⟩
    | none =>
      simp only [bspStep, htask] at hstep
      obtain rfl := Option.some.inj hstep
      exact h.handlersReturnStep
  | startupThisAp drained a ap =>
    obtain rfl := Option.some.inj hstep
    split
    · exact ⟨_, h.startupTo rfl (by simp) (fun _ hmay ↦ hmay) trivial htally⟩
    · rename_i hreturns
      obtain rfl : drained = false := by
        cases drained
        · rfl
        · exact absurd rfl hreturns
      exact ⟨_, h.startupTo rfl rfl (fun _ _ ↦ rfl) trivial htally⟩
  | blockOnAp drained a ap =>
    simp only [bspStep, Option.ite_none_left_eq_some, Option.some.injEq] at hstep
    obtain ⟨hfree, rfl⟩ := hstep
    refine ⟨_, h.bspSilent rfl (by simp) (fun c hc hok ↦ ?_) rfl rfl rfl rfl rfl rfl rfl
      (fun he ↦ he) id trivial htally⟩
    refine hok.mono rfl rfl rfl rfl rfl (fun he _ _ ↦ he) (fun _ hin ↦ hin) (fun _ hl ↦ hl)
      fun _ hbusy hmay ↦ ?_
    have hne : c ≠ ap := by
      rintro rfl
      exact hfree hbusy
    have hmay' : (!drained || decide (c = ap)) = true := hmay
    rwa [decide_eq_false hne, Bool.or_false] at hmay'
  | drain a index =>
    cases index with
    | zero =>
      obtain rfl := Option.some.inj hstep
      refine ⟨_, h.bspSilent rfl (by simp) (fun c hc hok ↦ ?_) rfl rfl rfl rfl rfl rfl rfl
        (fun he ↦ he) id trivial htally⟩
      refine hok.mono rfl rfl rfl rfl rfl (fun he _ _ ↦ he) (fun _ hin ↦ hin) (fun _ hl ↦ hl)
        fun _ _ hmay ↦ ?_
      have hlt : c < 0 := of_decide_eq_true hmay
      omega
    | succ index =>
      simp only [bspStep, Option.ite_none_left_eq_some, Option.some.injEq] at hstep
      obtain ⟨hdone, rfl⟩ := hstep
      refine ⟨_, h.bspSilent rfl (by simp) (fun c hc hok ↦ ?_) rfl rfl rfl rfl rfl rfl rfl
        (fun he ↦ he) id trivial htally⟩
      refine hok.mono rfl rfl rfl rfl rfl (fun he _ _ ↦ he) (fun _ hin ↦ hin) (fun _ hl ↦ hl)
        fun hpresent hbusy hmay ↦ decide_eq_true ?_
      have hlt : c < index + 1 := of_decide_eq_true hmay
      have hne : c ≠ index := by
        rintro rfl
        exact hdone ⟨hc, hpresent, hbusy⟩
      omega
  | relaxedInSync =>
    obtain rfl := Option.some.inj hstep
    exact ⟨_, h.bspSameStage rfl (by simp) rfl (fun _ _ ↦ rfl) (fun _ _ ↦ rfl) (fun _ _ ↦ rfl) rfl
      rfl rfl rfl rfl hmodeOk htally⟩
  | relaxedLockdown =>
    obtain rfl := Option.some.inj hstep
    exact ⟨_, h.relaxedLockdownStep (hguard rfl)⟩
  | countPresent a index k =>
    obtain ⟨hrun, hreset, ha, hindex, hk⟩ := htally
    cases index with
    | zero =>
      obtain rfl := Option.some.inj hstep
      split
      · rename_i hlt
        exact ⟨_, h.countDoneStep hlt⟩
      · exact ⟨_, h.bspSameStage rfl (by simp) rfl (fun _ _ ↦ rfl) (fun _ _ ↦ rfl) (fun _ _ ↦ rfl)
          rfl rfl rfl rfl rfl hmodeOk ⟨hrun, hreset, ha, le_rfl, Nat.zero_le _⟩⟩
    | succ index =>
      obtain rfl := Option.some.inj hstep
      refine ⟨_, h.bspSameStage rfl (by simp) rfl (fun _ _ ↦ rfl) (fun _ _ ↦ rfl) (fun _ _ ↦ rfl)
        rfl rfl rfl rfl rfl hmodeOk ⟨hrun, hreset, ha, by omega, ?_⟩⟩
      show (if s.present index = true then k + 1 else k) ≤ presentFrom cfg s index
      rw [presentFrom_succ (by omega)]
      split
      · rename_i hpresent
        rw [hpresent]
        exact Nat.succ_le_succ hk
      · omega
  | leave a =>
    obtain rfl := Option.some.inj hstep
    exact ⟨_, h.leaveStep⟩
  | setSyncMode a =>
    obtain rfl := Option.some.inj hstep
    exact ⟨_, h.setSyncModeStep⟩
  | clearPresent a =>
    obtain rfl := Option.some.inj hstep
    obtain ⟨hleft, ha⟩ := htally
    exact ⟨_, h.bspSameStage rfl (by simp) rfl (fun _ _ ↦ rfl)
      (fun c hc ↦ Function.update_of_ne hc _ _) (fun _ _ ↦ rfl) rfl rfl rfl rfl rfl
      (fun hp ↦ by cases hp) ⟨hleft, by simp, le_rfl, ha, fun hp ↦ absurd rfl hp,
        fun _ ↦ Function.update_self ..⟩⟩
  | resetBspIndex =>
    obtain rfl := Option.some.inj hstep
    exact ⟨_, h.resetBspIndexStep⟩
  | resetCounter =>
    obtain rfl := Option.some.inj hstep
    exact ⟨_, h.resetCounterStep⟩

/-- **Every step keeps the invariant**, unless the counter is locked down while an AP is about to
give up. -/
theorem step_inv {l : Label} (h : Inv cfg s) (hguard : NoLockdownOverGiveUp cfg s l)
    (hstep : step cfg s l = some s') : Inv cfg s' := by
  obtain ⟨v, hv⟩ := h
  unfold step at hstep
  split at hstep
  · rename_i hlt
    by_cases hcall : s.pc l.cpu = .callBspHandler
    · simp only [cpuStep, hcall, Option.some.injEq] at hstep
      subst hstep
      exact ⟨_, hv.callBspStep hcall⟩
    · by_cases hcb : v.isBsp l.cpu
      · cases v with
        | idle => exact hcb.elim
        | bsp b m q =>
          have hcb' : l.cpu = b := hcb
          have hat : s.pc l.cpu = .bsp m q := by
            rw [hcb']
            exact (hv.atBsp b m q).2 rfl
          simp only [cpuStep, hat] at hstep
          unfold NoLockdownOverGiveUp at hguard
          rw [hat] at hguard
          rw [hcb'] at hstep
          refine hv.bspStep_inv (fun hlock c hgive ↦ ?_) hstep
          exact hguard hlock c (hv.lt_maxCpus (by rw [hgive]; simp)) hgive
      · exact ⟨v, hv.apStep hlt hcb hcall hstep⟩
  · cases hstep

end PurleyFirmware.Smm
