import PurleyFirmware.Ras.CoreBroadcastInvariant

/-!
# The callback runs once on every core

What the two halves of the invariant say about a call of `SmmStartupCoreApBlkCnt`, in every state of
every interleaving: the counter is never taken below zero, the caller returns only after every AP it
started has come to the end of the callback, and by then the callback ran once on each core that
was owed a run, and on no other.

That the call does return is a statement about `work`, which every step lowers except the caller's
repeated reading of the counter, together with the fact that some party can always make such a step.
-/

namespace PurleyFirmware.MpSync

variable {cfg : Config} {s s' : State} {core : BitVec 8} {i : ℕ}

/-! ### The invariant of every run -/

/-- Both halves of the invariant. -/
structure Inv (cfg : Config) (s : State) : Prop where
  counter : CounterOk cfg s
  core : cfg.HasLoopEnd → ∀ core, CoreOk cfg s core

theorem apsAt_eq_zero {q : ApPc} (h : ∀ i, s.ap i ≠ q) : apsAt cfg s q = 0 :=
  tally_eq_zero_iff.2 fun i _ ↦ by rw [decide_eq_false (h i), Bool.toNat_false]

theorem Inv.init (cfg : Config) (h : Init s) : Inv cfg s := by
  have hnot : ∀ i, (s.ap i).counted = false := fun i ↦ by
    obtain hap | hap := h.ap i <;> rw [hap] <;> rfl
  have hnone : ∀ q : ApPc, q.counted = true → ∀ i, s.ap i ≠ q := fun q hq i hi ↦ by
    have hfalse := hnot i
    rw [hi, hq] at hfalse
    cases hfalse
  refine ⟨⟨?_, fun hcall ↦ ?_, fun _ ↦ ?_, fun i hi ↦ ?_⟩, fun _ core ↦ ⟨?_, ?_, fun hstart ↦ ?_⟩⟩
  · rw [h.caller]
    trivial
  · rw [h.caller] at hcall
    cases hcall
  · exact tally_eq_zero_iff.2 fun i _ ↦ by rw [hnot i, Bool.toNat_false]
  · rw [hnot i] at hi
    cases hi
  · have hnotdue : ¬ Due cfg s core := by
      rintro (hstart | ⟨-, -, hlt⟩)
      · rw [h.startSucceeded] at hstart
        cases hstart
      · rw [h.caller] at hlt
        exact Nat.not_lt_zero _ hlt
    rw [if_neg hnotdue, h.entered, apsAt_eq_zero (hnone _ rfl)]
  · rw [h.entered, h.finished, apsAt_eq_zero (hnone _ rfl), h.caller]
    rfl
  · rw [h.startSucceeded] at hstart
    cases hstart

theorem Inv.step (hs : Inv cfg s) {a : Label} (hstep : step cfg s a = some s') : Inv cfg s' := by
  cases a with
  | caller succeeds =>
    exact ⟨hs.counter.callerStep hstep,
      fun hend core ↦ (hs.core hend core).callerStep hs.counter.caller hend hstep⟩
  | ap i =>
    exact ⟨hs.counter.apStep hstep, fun hend core ↦ (hs.core hend core).apStep hstep⟩

theorem inv_of_reachable (hs : (system cfg).Reachable s) : Inv cfg s :=
  hs.invariant (fun _ h ↦ .init cfg h) fun _ _ _ _ hinv _ hstep ↦ hinv.step hstep

/-! ### What is left to do -/

/-- A bound on the steps that the caller has ahead of it, where a turn that starts an AP counts for
the AP's steps too. -/
def CallerPc.work : CallerPc → ℕ
  | .enter => 8 * 256 + 2
  | .loop core => 8 * (256 - core.toNat) + 1
  | .increment core _ => 8 * (256 - core.toNat)
  | .startupThisAp core _ => 8 * (255 - core.toNat) + 7
  | .blockOnAp core _ | .decrement core | .localCallback core => 8 * (255 - core.toNat) + 2
  | .wait => 1
  | .returned _ => 0

/-- The steps that an AP has ahead of it. -/
def ApPc.work : ApPc → ℕ
  | .scheduled _ => 4
  | .callback _ => 3
  | .decrement => 2
  | .release | .other => 1
  | .idle => 0

/-- A bound on the steps ahead, but for those in which the caller finds the counter above zero. -/
def work (cfg : Config) (s : State) : ℕ := s.caller.work + tally cfg.maxCpuData ApPc.work s.ap

/-- Every step of an AP is work. -/
theorem work_apStep (hstep : apStep cfg s i = some s') : work cfg s' < work cfg s := by
  unfold apStep at hstep
  split at hstep
  · rename_i hi
    have hmove : ∀ q, tally cfg.maxCpuData ApPc.work (Function.update s.ap i q) + (s.ap i).work =
      tally cfg.maxCpuData ApPc.work s.ap + q.work := fun q ↦ tally_update hi _ _ q
    have hlt : ∀ q : ApPc, q.work < (s.ap i).work → s'.caller = s.caller →
        s'.ap = Function.update s.ap i q → work cfg s' < work cfg s := by
      intro q hq hcaller hap
      have h := hmove q
      unfold work
      rw [hcaller, hap]
      omega
    cases hpc : s.ap i with
    | idle =>
      rw [hpc] at hstep
      cases hstep
    | other | scheduled core | callback core | decrement | release =>
      rw [hpc] at hstep hlt
      obtain rfl := Option.some.inj hstep
      exact hlt _ (Nat.lt_succ_self _) rfl rfl
  · cases hstep

/-- So is every step of the caller but an unsuccessful read of the counter. -/
theorem work_callerStep (hok : s.caller.Ok cfg) (hend : cfg.HasLoopEnd) {succeeds : Bool}
    (hstep : callerStep cfg s succeeds = some s') :
    work cfg s' < work cfg s ∨ (s.caller = .wait ∧ s.cpuCnt ≠ 0 ∧ s' = s) := by
  have hmax : cfg.mMaxCoreId.toNat < 256 := hend
  have hmove : ∀ (t : State) (pc : CallerPc), t.ap = s.ap → pc.work < s.caller.work →
      work cfg (t.callerTo pc) < work cfg s := by
    intro t pc hap hlt
    change pc.work + tally cfg.maxCpuData ApPc.work t.ap < _
    rw [hap]
    exact Nat.add_lt_add_right hlt _
  have hloop : ∀ k : BitVec 8, k.toNat < cfg.mMaxCoreId.toNat →
      (CallerPc.loop (k + 1)).work = 8 * (255 - k.toNat) + 1 := by
    intro k hk
    change 8 * (256 - (k + 1).toNat) + 1 = _
    rw [toNat_succ_of_lt hend hk]
    omega
  unfold callerStep at hstep
  cases hpc : s.caller with
  | enter =>
    rw [hpc] at hstep hmove
    dsimp only at hstep
    split at hstep
    · obtain rfl := Option.some.inj hstep
      exact .inl (hmove _ _ rfl (by decide))
    · obtain rfl := Option.some.inj hstep
      exact .inl (hmove _ _ rfl (by decide))
  | loop k =>
    rw [hpc] at hstep hok hmove
    dsimp only at hstep
    obtain ⟨hturn, hge⟩ | ⟨hturn, hlt, -⟩ | ⟨hturn, hlocal, hvalid⟩ | ⟨i, hturn, -⟩ :=
      turn_cases cfg k <;> rw [hturn] at hstep <;> obtain rfl := Option.some.inj hstep
    · have hk := k.isLt
      exact .inl (hmove _ _ rfl (by simp only [CallerPc.work]; omega))
    · have hnext := hloop k hlt
      exact .inl (hmove _ _ rfl (by rw [hnext]; simp only [CallerPc.work]; omega))
    · have hk := hvalid.2.1
      exact .inl (hmove _ _ rfl (by simp only [CallerPc.work]; omega))
    · exact .inl (hmove _ _ rfl (by simp only [CallerPc.work]; omega))
  | increment k i =>
    rw [hpc] at hstep hok hmove
    obtain rfl := Option.some.inj hstep
    have hk := hok.2.2.2.1
    exact .inl (hmove _ _ rfl (by simp only [CallerPc.work]; omega))
  | startupThisAp k i =>
    rw [hpc] at hstep hok hmove
    have hnext := hloop k hok.2.2.2.1
    dsimp only at hstep
    split at hstep
    · split at hstep
      · rename_i hidle
        obtain rfl := Option.some.inj hstep
        have hstart := tally_update hok.1 ApPc.work s.ap (.scheduled k)
        rw [hidle.2] at hstart
        have htally : tally cfg.maxCpuData ApPc.work (s.start k i).ap =
          tally cfg.maxCpuData ApPc.work s.ap + 4 := hstart
        refine .inl ?_
        unfold work
        rw [hpc]
        change CallerPc.work (if _ then _ else _) + tally _ _ (s.start k i).ap < _
        rw [htally]
        split
        · simp only [CallerPc.work]
          omega
        · rw [hnext]
          simp only [CallerPc.work]
          omega
      · cases hstep
    · obtain rfl := Option.some.inj hstep
      exact .inl (hmove _ _ rfl (by simp only [CallerPc.work]; omega))
  | blockOnAp k i =>
    rw [hpc] at hstep hok hmove
    have hnext := hloop k hok.2.2.2.1
    dsimp only at hstep
    split at hstep
    · obtain rfl := Option.some.inj hstep
      exact .inl (hmove _ _ rfl (by rw [hnext]; simp only [CallerPc.work]; omega))
    · cases hstep
  | decrement k | localCallback k =>
    rw [hpc] at hstep hok hmove
    have hnext := hloop k hok.2.2.1
    obtain rfl := Option.some.inj hstep
    exact .inl (hmove _ _ rfl (by rw [hnext]; simp only [CallerPc.work]; omega))
  | wait =>
    rw [hpc] at hstep hmove
    dsimp only at hstep
    split at hstep
    · obtain rfl := Option.some.inj hstep
      exact .inl (hmove _ _ rfl (by decide))
    · obtain rfl := Option.some.inj hstep
      exact .inr ⟨rfl, ‹_›, rfl⟩
  | returned status =>
    rw [hpc] at hstep
    cases hstep

/-- An AP that is not idle can move. -/
theorem exists_apStep (hi : i < cfg.maxCpuData) (hbusy : s.ap i ≠ .idle) :
    ∃ s', apStep cfg s i = some s' := by
  unfold apStep
  rw [if_pos hi]
  cases hpc : s.ap i with
  | idle => exact absurd hpc hbusy
  | other | scheduled core | callback core | decrement | release => exact ⟨_, rfl⟩

/-- **Somebody can work**, as long as the call has not returned. -/
theorem Inv.exists_work (hs : Inv cfg s) (hend : cfg.HasLoopEnd)
    (hcaller : ∀ status, s.caller ≠ .returned status) :
    ∃ a s', MpSync.step cfg s a = some s' ∧ work cfg s' < work cfg s := by
  have hap : ∀ i, i < cfg.maxCpuData → s.ap i ≠ .idle →
      ∃ a s', MpSync.step cfg s a = some s' ∧ work cfg s' < work cfg s := by
    intro i hi hbusy
    obtain ⟨s', hstep⟩ := exists_apStep hi hbusy
    exact ⟨.ap i, s', hstep, work_apStep hstep⟩
  have hmoves : ∀ s', callerStep cfg s false = some s' → (s.caller = .wait → s.cpuCnt = 0) →
      ∃ a s', MpSync.step cfg s a = some s' ∧ work cfg s' < work cfg s := by
    intro s' hstep hread
    obtain hlt | ⟨hwait, hne, -⟩ := work_callerStep hs.counter.caller hend hstep
    · exact ⟨.caller false, s', hstep, hlt⟩
    · exact absurd (hread hwait) hne
  cases hpc : s.caller with
  | enter =>
    by_cases hargs : cfg.mSmst = false ∨ cfg.maxSocket ≤ cfg.skt.toNat ∨ cfg.smmApCallback = false
    · exact hmoves _ (by unfold callerStep; rw [hpc]; exact if_pos hargs) (by rw [hpc]; nofun)
    · exact hmoves _ (by unfold callerStep; rw [hpc]; exact if_neg hargs) (by rw [hpc]; nofun)
  | loop k =>
    have hstep : ∃ s', callerStep cfg s false = some s' := by
      unfold callerStep
      rw [hpc]
      dsimp only
      split <;> exact ⟨_, rfl⟩
    obtain ⟨s', hs'⟩ := hstep
    exact hmoves s' hs' (by rw [hpc]; nofun)
  | startupThisAp k i =>
    have hfails : ¬ (false : Bool) = true := Bool.false_ne_true
    exact hmoves _ (by unfold callerStep; rw [hpc]; exact if_neg hfails) (by rw [hpc]; nofun)
  | increment k i | decrement k | localCallback k =>
    exact hmoves _ (by unfold callerStep; rw [hpc]) (by rw [hpc]; nofun)
  | blockOnAp k i =>
    have hok := hs.counter.caller
    rw [hpc] at hok
    by_cases hidle : s.ap i = .idle
    · exact hmoves _ (by unfold callerStep; rw [hpc]; exact if_pos hidle) (by rw [hpc]; nofun)
    · exact hap i hok.1 hidle
  | wait =>
    by_cases hzero : s.cpuCnt = 0
    · exact hmoves _ (by unfold callerStep; rw [hpc]; exact if_pos hzero) fun _ ↦ hzero
    · -- The counter is the number of APs that have yet to decrement it, so there is one.
      have hcnt := hs.counter.cpuCnt (by rw [hpc]; rfl)
      rw [hpc] at hcnt
      have hcounted : counted cfg s ≠ 0 := fun h ↦ by
        rw [h] at hcnt
        exact hzero (BitVec.eq_of_toNat_eq hcnt)
      have hex : ∃ i, i < cfg.maxCpuData ∧ (s.ap i).counted = true := by
        by_contra hnone
        refine hcounted (tally_eq_zero_iff.2 fun i hi ↦ ?_)
        rw [Bool.eq_false_iff.2 fun h ↦ hnone ⟨i, hi, h⟩, Bool.toNat_false]
      obtain ⟨i, hi, hcount⟩ := hex
      exact hap i hi fun h ↦ by
        rw [h] at hcount
        cases hcount
  | returned status => exact absurd hpc (hcaller status)

/-! ### The broadcast -/

/-- What a call of `SmmStartupCoreApBlkCnt` promises of the states it goes through. -/
structure BroadcastOk (cfg : Config) (s : State) : Prop where
  /-- No step takes the counter below zero. -/
  cpuCnt_ne_zero : ∀ a s', step cfg s a = some s' → s'.cpuCnt = s.cpuCnt - 1 → s.cpuCnt ≠ 0
  /-- The call returns only after every AP it started has finished the callback. -/
  finished_of_returned : s.caller = .returned .success → ∀ i, (s.ap i).counted = false
  /-- By then the callback ran from beginning to end once on each core with a valid thread whose
  start succeeded or on which the caller is, and it was entered on no other core. -/
  once_of_returned : s.caller = .returned .success → ∀ core,
    s.entered core = s.finished core ∧
      s.finished core = if cfg.HasValidThread core ∧
        (cfg.IsLocal core ∨ s.startSucceeded core = true) then 1 else 0
  /-- A start succeeds only on a core with a valid thread, and not on the caller's. -/
  started : cfg.HasLoopEnd → ∀ core, s.startSucceeded core = true →
    cfg.HasValidThread core ∧ ¬ cfg.IsLocal core
  /-- At no time has a core been given the callback twice. -/
  at_most_once : cfg.HasLoopEnd → ∀ core, s.entered core ≤ 1
  /-- Every step is work, but for those in which the caller finds the counter above zero ... -/
  works : cfg.HasLoopEnd → ∀ a s', step cfg s a = some s' →
    work cfg s' < work cfg s ∨ (s.caller = .wait ∧ s.cpuCnt ≠ 0 ∧ s' = s)
  /-- ... and until the call returns some party can work. -/
  can_work : cfg.HasLoopEnd → (∀ status, s.caller ≠ .returned status) →
    ∃ a s', step cfg s a = some s' ∧ work cfg s' < work cfg s

/-- What a step of the caller does to the counter. -/
theorem cpuCnt_callerStep {succeeds : Bool} (hstep : callerStep cfg s succeeds = some s') :
    s'.cpuCnt = s.cpuCnt ∨ s'.cpuCnt = s.cpuCnt + 1 ∨ s'.cpuCnt = 0 ∨
      ∃ core, s.caller = .decrement core := by
  unfold callerStep at hstep
  cases hpc : s.caller with
  | enter =>
    rw [hpc] at hstep
    dsimp only at hstep
    split at hstep <;> obtain rfl := Option.some.inj hstep
    · exact .inl rfl
    · exact .inr (.inr (.inl rfl))
  | loop k =>
    rw [hpc] at hstep
    dsimp only at hstep
    split at hstep <;> obtain rfl := Option.some.inj hstep <;> exact .inl rfl
  | increment k i =>
    rw [hpc] at hstep
    obtain rfl := Option.some.inj hstep
    exact .inr (.inl rfl)
  | startupThisAp k i =>
    rw [hpc] at hstep
    dsimp only at hstep
    split at hstep
    · split at hstep
      · obtain rfl := Option.some.inj hstep
        exact .inl rfl
      · cases hstep
    · obtain rfl := Option.some.inj hstep
      exact .inl rfl
  | blockOnAp k i =>
    rw [hpc] at hstep
    dsimp only at hstep
    split at hstep
    · obtain rfl := Option.some.inj hstep
      exact .inl rfl
    · cases hstep
  | decrement k => exact .inr (.inr (.inr ⟨k, rfl⟩))
  | localCallback k =>
    rw [hpc] at hstep
    obtain rfl := Option.some.inj hstep
    exact .inl rfl
  | wait =>
    rw [hpc] at hstep
    dsimp only at hstep
    split at hstep <;> obtain rfl := Option.some.inj hstep <;> exact .inl rfl
  | returned status =>
    rw [hpc] at hstep
    cases hstep

/-- What a step of an AP does to the counter. -/
theorem cpuCnt_apStep (hstep : apStep cfg s i = some s') :
    s'.cpuCnt = s.cpuCnt ∨ (i < cfg.maxCpuData ∧ s.ap i = .decrement) := by
  unfold apStep at hstep
  split at hstep
  · rename_i hi
    cases hpc : s.ap i with
    | idle =>
      rw [hpc] at hstep
      cases hstep
    | decrement => exact .inr ⟨hi, rfl⟩
    | other | scheduled core | callback core | release =>
      rw [hpc] at hstep
      obtain rfl := Option.some.inj hstep
      exact .inl rfl
  · cases hstep

/-- A step that takes one off the counter finds it above zero. -/
theorem CounterOk.cpuCnt_ne_zero (hs : CounterOk cfg s) {a : Label}
    (hstep : step cfg s a = some s') (hdec : s'.cpuCnt = s.cpuCnt - 1) : s.cpuCnt ≠ 0 := by
  intro hzero
  rw [hzero] at hdec
  cases a with
  | caller succeeds =>
    obtain hsame | hinc | hreset | ⟨core, hpc⟩ := cpuCnt_callerStep hstep
    · rw [hsame, hzero] at hdec
      exact absurd hdec (by decide)
    · rw [hinc, hzero] at hdec
      exact absurd hdec (by decide)
    · rw [hreset] at hdec
      exact absurd hdec (by decide)
    · have hcnt := hs.cpuCnt (by rw [hpc]; rfl)
      rw [hpc, hzero] at hcnt
      exact Nat.succ_ne_zero _ hcnt.symm
  | ap i =>
    obtain hsame | ⟨hi, hpc⟩ := cpuCnt_apStep hstep
    · rw [hsame, hzero] at hdec
      exact absurd hdec (by decide)
    · have hcounted : counted cfg s ≠ 0 := fun h ↦ by
        have hi0 := tally_eq_zero_iff.1 h i hi
        rw [hpc] at hi0
        cases hi0
      cases hin : s.caller.inCall with
      | false => exact hcounted (hs.outside hin)
      | true =>
        have hcnt := hs.cpuCnt hin
        rw [hzero] at hcnt
        exact hcounted (Nat.eq_zero_of_add_eq_zero hcnt.symm).1

/-- After the return no AP has a decrement ahead of it. -/
theorem CounterOk.not_counted_of_returned (hs : CounterOk cfg s) {status : EfiStatus}
    (hreturned : s.caller = .returned status) (i : ℕ) : (s.ap i).counted = false := by
  have hnone : counted cfg s = 0 := hs.outside (by rw [hreturned]; rfl)
  cases hcount : (s.ap i).counted with
  | false => rfl
  | true =>
    have hi := tally_eq_zero_iff.1 hnone i (hs.ap i hcount)
    rw [hcount] at hi
    cases hi

/-- After the return every core had its runs of the callback. -/
theorem Inv.runs_of_returned (hs : Inv cfg s) (hreturned : s.caller = .returned .success)
    (core : BitVec 8) :
    s.entered core = s.finished core ∧
      s.finished core = if cfg.HasValidThread core ∧
        (cfg.IsLocal core ∨ s.startSucceeded core = true) then 1 else 0 := by
  have hok := hs.counter.caller
  rw [hreturned] at hok
  obtain ⟨hentered, hfinished, hstarted⟩ := hs.core (hok rfl) core
  have hnone : ∀ q : ApPc, q.counted = true → apsAt cfg s q = 0 := fun q hq ↦
    apsAt_eq_zero fun i hi ↦ by
      have hnot := hs.counter.not_counted_of_returned hreturned i
      rw [hi, hq] at hnot
      cases hnot
  have hdue : Due cfg s core ↔
      cfg.HasValidThread core ∧ (cfg.IsLocal core ∨ s.startSucceeded core = true) := by
    unfold Due
    rw [hreturned]
    constructor
    · rintro (hstart | ⟨hlocal, hvalid, -⟩)
      · exact ⟨(hstarted hstart).2.2, .inr hstart⟩
      · exact ⟨hvalid, .inl hlocal⟩
    · rintro ⟨hvalid, hlocal | hstart⟩
      · exact .inr ⟨hlocal, hvalid, hvalid.2.1⟩
      · exact .inl hstart
  have hsame : s.entered core = s.finished core := by
    rw [hnone (.callback core) rfl, hreturned] at hfinished
    exact hfinished
  rw [hnone (.scheduled core) rfl] at hentered
  exact ⟨hsame, hsame.symm.trans (hentered.trans (if_congr hdue rfl rfl))⟩

/-- **The broadcast** keeps its promises in every state of every interleaving. -/
theorem broadcastOk_of_reachable (hs : (system cfg).Reachable s) : BroadcastOk cfg s := by
  have hinv := inv_of_reachable hs
  refine ⟨fun a s' hstep hdec ↦ hinv.counter.cpuCnt_ne_zero hstep hdec,
    hinv.counter.not_counted_of_returned, hinv.runs_of_returned, fun hend core hstart ↦ ?_,
    fun hend core ↦ ?_, fun hend a s' hstep ↦ ?_, hinv.exists_work⟩
  · obtain ⟨-, hlocal, hvalid⟩ := (hinv.core hend core).started hstart
    exact ⟨hvalid, hlocal⟩
  · have hentered := (hinv.core hend core).entered
    split at hentered <;> omega
  · cases a with
    | caller succeeds => exact work_callerStep hinv.counter.caller hend hstep
    | ap i => exact .inl (work_apStep hstep)

/-- Two cores with a thread each. The caller is on the first, processor 0; the thread of the second
is processor 1. -/
def twoCores : Config where
  skt := 0
  smmApCallback := true
  mSmst := true
  maxSocket := 1
  maxCpuData := 2
  maxCpuData_lt := by decide
  coreBits := 1
  threadBits := 0
  valid _ core _ := decide (core.toNat < 2)
  cpuNumber _ core _ := core.setWidth 64
  localSocket := 0
  localCore := 0
  numberOfCpus := 2
  currentlyExecutingCpu := 0
  present _ := true
  removed _ := false
  blockStartupThisAp := false

/-- The state before a call, with every AP idle. -/
def initialState : State where
  cpuCnt := 0
  caller := .enter
  ap _ := .idle
  startSucceeded _ := false
  entered _ := 0
  finished _ := 0

/-- The caller serves its own core, starts processor 1 and waits. Its first read of the counter
comes before processor 1 is done, the second after. -/
def waitsOnce : List Label :=
  List.replicate 5 (.caller true) ++ [.caller true, .ap 1, .ap 1, .caller true, .caller true, .ap 1,
    .caller true]

theorem broadcastOk_waitsOnce :
    ∃ s, s.caller = .returned .success ∧ s.finished 0 = 1 ∧ s.finished 1 = 1 ∧
      BroadcastOk twoCores s := by
  have hrun : (LabelledSystem.exec (step twoCores) (fun _ _ ↦ true) initialState waitsOnce).map
      (fun s ↦ (s.caller, s.finished 0, s.finished 1)) = some (.returned .success, 1, 1) := by
    decide
  obtain ⟨s, hs, ho⟩ := Option.map_eq_some_iff.1 hrun
  simp only [Prod.mk.injEq] at ho
  have hinit : (system twoCores).init initialState :=
    ⟨rfl, fun _ ↦ .inl rfl, fun _ ↦ rfl, fun _ ↦ rfl, fun _ ↦ rfl⟩
  exact ⟨s, ho.1, ho.2.1, ho.2.2, broadcastOk_of_reachable
    (.exec (fun _ _ _ ↦ trivial) (fun _ _ _ hst ↦ hst) (.init hinit) hs)⟩

end PurleyFirmware.MpSync
