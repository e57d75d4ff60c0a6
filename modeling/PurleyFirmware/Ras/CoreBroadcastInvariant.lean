import PurleyFirmware.Ras.CoreBroadcast

/-!
# The invariant of a broadcast to the cores

The invariant of `SmmStartupCoreApBlkCnt` has two halves.

* `CounterOk`: the counter is the number of APs that are started and have yet to decrement it, plus
  one while the caller is between its increment and what `SmmStartupThisAp` says. This half holds
  for every topology, and it is what keeps the counter from passing below zero and the caller from
  returning early.
* `CoreOk`, for each core: the callback was entered once for each start that is no longer only
  scheduled, and it is still running where it was entered and did not come to its end. `due` says
  how many runs a core is owed at a point of the loop, which is at most one because the loop visits
  a core once.

A step of an AP moves one unit between the terms of either half; `tally_update` says so for all of
them at once.
-/

namespace PurleyFirmware.MpSync

variable {cfg : Config} {s s' : State} {core : BitVec 8} {i : ℕ}

/-! ### What a turn of the loop finds -/

/-- The core has a thread that `FindValidThread` can find. -/
def Config.HasValidThread (cfg : Config) (core : BitVec 8) : Prop :=
  cfg.skt.toNat < cfg.maxSocket ∧ core.toNat < cfg.mMaxCoreId.toNat ∧
    ∃ thread : BitVec 8, thread.toNat < cfg.getMaxThreads.toNat ∧
      cfg.valid cfg.skt core thread = true

/-- The caller is on the core. -/
def Config.IsLocal (cfg : Config) (core : BitVec 8) : Prop :=
  cfg.executingOnLocalNodeCore cfg.skt core = true

instance : Decidable (cfg.IsLocal core) := inferInstanceAs (Decidable (_ = _))

theorem findValidThread_isSome_iff :
    (cfg.findValidThread cfg.skt core).isSome = true ↔ cfg.HasValidThread core := by
  unfold Config.findValidThread Config.HasValidThread
  by_cases hguard : cfg.maxSocket ≤ cfg.skt.toNat ∨ cfg.mMaxCoreId.toNat ≤ core.toNat
  · rw [if_pos hguard]
    simp only [Option.isSome_none, Bool.false_eq_true, false_iff]
    rintro ⟨hskt, hcore, -⟩
    omega
  · rw [if_neg hguard, List.find?_isSome]
    rw [not_or, not_le, not_le] at hguard
    constructor
    · rintro ⟨thread, hmem, hvalid⟩
      obtain ⟨t, ht, rfl⟩ := List.mem_map.1 hmem
      have htlt := List.mem_range.1 ht
      refine ⟨hguard.1, hguard.2, _, ?_, hvalid⟩
      rw [BitVec.toNat_ofNat]
      exact (Nat.mod_le _ _).trans_lt htlt
    · rintro ⟨-, -, thread, hthread, hvalid⟩
      refine ⟨thread, List.mem_map.2 ⟨thread.toNat, List.mem_range.2 hthread, ?_⟩, hvalid⟩
      exact BitVec.eq_of_toNat_eq (by simp)

instance : DecidablePred cfg.HasValidThread := fun _ ↦
  decidable_of_iff _ findValidThread_isSome_iff

/-- **One turn of the loop.** It ends the loop at its bound; at a core with a valid thread it
calls the callback if the caller is there, and elsewhere it may go on to start an AP. -/
theorem turn_cases (cfg : Config) (core : BitVec 8) :
    (turn cfg core = .wait ∧ cfg.mMaxCoreId.toNat ≤ core.toNat) ∨
    (turn cfg core = .loop (core + 1) ∧ core.toNat < cfg.mMaxCoreId.toNat ∧
      ¬ (cfg.IsLocal core ∧ cfg.HasValidThread core)) ∨
    (turn cfg core = .localCallback core ∧ cfg.IsLocal core ∧ cfg.HasValidThread core) ∨
    ∃ i, turn cfg core = .increment core i ∧ i < cfg.maxCpuData ∧ ¬ cfg.IsLocal core ∧
      cfg.HasValidThread core := by
  unfold turn
  by_cases hcore : core.toNat < cfg.mMaxCoreId.toNat
  · rw [if_pos hcore]
    have hiff : (cfg.findValidThread cfg.skt core).isSome = true ↔ cfg.HasValidThread core :=
      findValidThread_isSome_iff
    cases hthread : cfg.findValidThread cfg.skt core with
    | none =>
      rw [hthread] at hiff
      have hnot : ¬ cfg.HasValidThread core := fun h ↦ by simpa using hiff.2 h
      exact .inr (.inl ⟨rfl, hcore, fun h ↦ hnot h.2⟩)
    | some thread =>
      rw [hthread] at hiff
      have hvalid : cfg.HasValidThread core := hiff.1 rfl
      dsimp only
      by_cases hlocal : cfg.executingOnLocalNodeCore cfg.skt core = true
      · rw [if_pos hlocal]
        exact .inr (.inr (.inl ⟨rfl, hlocal, hvalid⟩))
      · rw [if_neg hlocal]
        have hskip : core.toNat < cfg.mMaxCoreId.toNat ∧
            ¬ (cfg.IsLocal core ∧ cfg.HasValidThread core) := ⟨hcore, fun h ↦ hlocal h.1⟩
        split
        · split
          · exact .inr (.inl ⟨rfl, hskip⟩)
          · split
            · exact .inr (.inr (.inr ⟨_, rfl, ‹_›, hlocal, hvalid⟩))
            · exact .inr (.inl ⟨rfl, hskip⟩)
        · exact .inr (.inl ⟨rfl, hskip⟩)
  · rw [if_neg hcore]
    exact .inl ⟨rfl, not_lt.1 hcore⟩

/-! ### The counter -/

/-- The APs that are started and have yet to decrement the counter. -/
def counted (cfg : Config) (s : State) : ℕ := tally cfg.maxCpuData (fun q ↦ q.counted.toNat) s.ap

/-- The counter includes a start whose outcome is not known yet, or not yet taken back. -/
def CallerPc.pending : CallerPc → ℕ
  | .startupThisAp _ _ | .decrement _ => 1
  | _ => 0

/-- The call has set the counter and has not returned. -/
def CallerPc.inCall : CallerPc → Bool
  | .enter | .returned _ => false
  | _ => true

/-- Where the caller can be. The bound of the loop is known to be in reach only once the loop has
ended. -/
def CallerPc.Ok (cfg : Config) : CallerPc → Prop
  | .loop core => cfg.HasLoopEnd → core.toNat ≤ cfg.mMaxCoreId.toNat
  | .increment core i | .startupThisAp core i | .blockOnAp core i =>
      i < cfg.maxCpuData ∧ ¬ cfg.IsLocal core ∧ cfg.HasValidThread core
  | .decrement core => ¬ cfg.IsLocal core ∧ cfg.HasValidThread core
  | .localCallback core => cfg.IsLocal core ∧ cfg.HasValidThread core
  | .wait => cfg.HasLoopEnd
  | .returned status => status = .success → cfg.HasLoopEnd
  | .enter => True

/-- **The counter.** -/
structure CounterOk (cfg : Config) (s : State) : Prop where
  caller : s.caller.Ok cfg
  cpuCnt : s.caller.inCall = true → s.cpuCnt.toNat = counted cfg s + s.caller.pending
  outside : s.caller.inCall = false → counted cfg s = 0
  ap : ∀ i, (s.ap i).counted = true → i < cfg.maxCpuData

theorem toNat_add_one {c : BitVec 32} (h : c.toNat + 1 < 4294967296) :
    (c + 1).toNat = c.toNat + 1 := by
  rw [BitVec.toNat_add]
  simpa using h

theorem toNat_sub_one {c : BitVec 32} (h : 0 < c.toNat) : (c - 1).toNat = c.toNat - 1 := by
  have hlt := c.isLt
  rw [BitVec.toNat_sub]
  simp only [BitVec.ofNat_eq_ofNat, BitVec.toNat_ofNat]
  omega

theorem counted_le (cfg : Config) (s : State) : counted cfg s ≤ cfg.maxCpuData :=
  tally_le fun _ ↦ Bool.toNat_le _

/-- The core after one below the bound. -/
theorem toNat_succ_of_lt (hend : cfg.HasLoopEnd) (hcore : core.toNat < cfg.mMaxCoreId.toNat) :
    (core + 1).toNat = core.toNat + 1 := by
  have hmax : cfg.mMaxCoreId.toNat < 256 := hend
  rw [BitVec.toNat_add]
  simp only [BitVec.ofNat_eq_ofNat, BitVec.toNat_ofNat]
  omega

theorem Ok.loop_succ (hcore : core.toNat < cfg.mMaxCoreId.toNat) :
    (CallerPc.loop (core + 1)).Ok cfg := fun hend ↦ by
  rw [toNat_succ_of_lt hend hcore]
  exact hcore

/-- The caller moves without touching the shared state. -/
theorem CounterOk.callerTo (hs : CounterOk cfg s) {pc : CallerPc} (hpc : pc.Ok cfg)
    (hin : pc.inCall = s.caller.inCall) (hpending : pc.pending = s.caller.pending) :
    CounterOk cfg (s.callerTo pc) where
  caller := hpc
  cpuCnt hcall := by
    have hcnt := hs.cpuCnt (hin ▸ hcall)
    rw [← hpending] at hcnt
    exact hcnt
  outside hcall := hs.outside (hin ▸ hcall)
  ap := hs.ap

/-- **One step of the caller keeps the counter right.** -/
theorem CounterOk.callerStep (hs : CounterOk cfg s) {succeeds : Bool}
    (hstep : callerStep cfg s succeeds = some s') : CounterOk cfg s' := by
  have hle := counted_le cfg s
  have hmax := cfg.maxCpuData_lt
  have hok := hs.caller
  have hcnt := hs.cpuCnt
  unfold MpSync.callerStep at hstep
  cases hpc : s.caller with
  | enter =>
    have hzero : counted cfg s = 0 := hs.outside (by rw [hpc]; rfl)
    rw [hpc] at hstep
    dsimp only at hstep
    split at hstep
    · obtain rfl := Option.some.inj hstep
      exact ⟨nofun, nofun, fun _ ↦ hzero, hs.ap⟩
    · obtain rfl := Option.some.inj hstep
      exact ⟨fun _ ↦ Nat.zero_le _, fun _ ↦ hzero.symm, nofun, hs.ap⟩
  | loop core =>
    have hin : s.caller.inCall = true := by rw [hpc]; rfl
    have hpending : s.caller.pending = 0 := by rw [hpc]; rfl
    rw [hpc] at hstep hok
    dsimp only at hstep
    obtain ⟨hturn, hge⟩ | ⟨hturn, hlt, -⟩ | ⟨hturn, hlocal, hvalid⟩ |
      ⟨i, hturn, hi, hlocal, hvalid⟩ := turn_cases cfg core <;>
      rw [hturn] at hstep <;> obtain rfl := Option.some.inj hstep
    · exact hs.callerTo (hge.trans_lt core.isLt) hin.symm hpending.symm
    · exact hs.callerTo (Ok.loop_succ hlt) hin.symm hpending.symm
    · have hs' : CounterOk cfg (s.enter core) := ⟨hs.caller, hs.cpuCnt, hs.outside, hs.ap⟩
      exact hs'.callerTo ⟨hlocal, hvalid⟩ hin.symm hpending.symm
    · exact hs.callerTo ⟨hi, hlocal, hvalid⟩ hin.symm hpending.symm
  | increment core i =>
    rw [hpc] at hstep hok hcnt
    obtain rfl := Option.some.inj hstep
    have hbefore : s.cpuCnt.toNat = counted cfg s := hcnt rfl
    refine ⟨hok, fun _ ↦ ?_, nofun, hs.ap⟩
    exact (toNat_add_one (by omega)).trans (congrArg (· + 1) hbefore)
  | startupThisAp core i =>
    rw [hpc] at hstep hok hcnt
    have hbefore : s.cpuCnt.toNat = counted cfg s + 1 := hcnt rfl
    dsimp only at hstep
    split at hstep
    · split at hstep
      · rename_i hidle
        obtain rfl := Option.some.inj hstep
        have hmove := tally_update hok.1 (fun q ↦ q.counted.toNat) s.ap (.scheduled core)
        have hafter : s.cpuCnt.toNat = counted cfg (s.start core i) := by
          rw [hidle.2] at hmove
          exact hbefore.trans hmove.symm
        have hap : ∀ j, ((s.start core i).ap j).counted = true → j < cfg.maxCpuData := by
          intro j hj
          by_cases hji : j = i
          · exact hji ▸ hok.1
          · have hsame : (s.start core i).ap j = s.ap j := Function.update_of_ne hji _ _
            exact hs.ap j (hsame ▸ hj)
        by_cases hblock : cfg.blockStartupThisAp = true
        · rw [if_pos hblock]
          exact ⟨hok, fun _ ↦ hafter, nofun, hap⟩
        · rw [if_neg hblock]
          exact ⟨Ok.loop_succ hok.2.2.2.1, fun _ ↦ hafter, nofun, hap⟩
      · cases hstep
    · obtain rfl := Option.some.inj hstep
      exact ⟨hok.2, fun _ ↦ hbefore, nofun, hs.ap⟩
  | blockOnAp core i =>
    have hin : s.caller.inCall = true := by rw [hpc]; rfl
    have hpending : s.caller.pending = 0 := by rw [hpc]; rfl
    rw [hpc] at hstep hok
    dsimp only at hstep
    split at hstep
    · obtain rfl := Option.some.inj hstep
      exact hs.callerTo (Ok.loop_succ hok.2.2.2.1) hin.symm hpending.symm
    · cases hstep
  | decrement core =>
    rw [hpc] at hstep hok hcnt
    obtain rfl := Option.some.inj hstep
    have hbefore : s.cpuCnt.toNat = counted cfg s + 1 := hcnt rfl
    refine ⟨Ok.loop_succ hok.2.2.1, fun _ ↦ ?_, nofun, hs.ap⟩
    exact (toNat_sub_one (by omega)).trans (by rw [hbefore]; rfl)
  | localCallback core =>
    have hin : s.caller.inCall = true := by rw [hpc]; rfl
    have hpending : s.caller.pending = 0 := by rw [hpc]; rfl
    rw [hpc] at hstep hok
    obtain rfl := Option.some.inj hstep
    have hs' : CounterOk cfg (s.finish core) := ⟨hs.caller, hs.cpuCnt, hs.outside, hs.ap⟩
    exact hs'.callerTo (Ok.loop_succ hok.2.2.1) hin.symm hpending.symm
  | wait =>
    have hin : s.caller.inCall = true := by rw [hpc]; rfl
    have hpending : s.caller.pending = 0 := by rw [hpc]; rfl
    rw [hpc] at hstep hok
    have hbefore := hcnt hin
    dsimp only at hstep
    split at hstep
    · rename_i hzero
      obtain rfl := Option.some.inj hstep
      have hnone : counted cfg s = 0 := by
        rw [hzero, hpending] at hbefore
        exact hbefore.symm
      exact ⟨fun _ ↦ hok, nofun, fun _ ↦ hnone, hs.ap⟩
    · obtain rfl := Option.some.inj hstep
      exact hs
  | returned status =>
    rw [hpc] at hstep
    cases hstep

/-- AP `i` moves without touching the counter. -/
theorem counted_apTo (hi : i < cfg.maxCpuData) (q : ApPc) :
    counted cfg (s.apTo i q) + (s.ap i).counted.toNat = counted cfg s + q.counted.toNat :=
  tally_update hi _ _ _

theorem CounterOk.apTo (hs : CounterOk cfg s) (hi : i < cfg.maxCpuData) {q : ApPc}
    (hq : q.counted = (s.ap i).counted) : CounterOk cfg (s.apTo i q) := by
  have hmove : counted cfg (s.apTo i q) = counted cfg s := by
    have h := counted_apTo (s := s) hi q
    rw [hq] at h
    omega
  refine ⟨hs.caller, fun hcall ↦ hmove ▸ hs.cpuCnt hcall, fun hcall ↦ hmove ▸ hs.outside hcall,
    fun j hj ↦ ?_⟩
  by_cases hji : j = i
  · exact hji ▸ hi
  · have hsame : (s.apTo i q).ap j = s.ap j := Function.update_of_ne hji _ _
    exact hs.ap j (hsame ▸ hj)

/-- **One step of an AP keeps the counter right.** -/
theorem CounterOk.apStep (hs : CounterOk cfg s) (hstep : apStep cfg s i = some s') :
    CounterOk cfg s' := by
  unfold MpSync.apStep at hstep
  split at hstep
  · rename_i hi
    cases hpc : s.ap i with
    | idle =>
      rw [hpc] at hstep
      cases hstep
    | other | release =>
      rw [hpc] at hstep
      obtain rfl := Option.some.inj hstep
      exact hs.apTo hi (by rw [hpc]; rfl)
    | scheduled core =>
      rw [hpc] at hstep
      obtain rfl := Option.some.inj hstep
      have hs' : CounterOk cfg (s.enter core) := ⟨hs.caller, hs.cpuCnt, hs.outside, hs.ap⟩
      have hat : (s.enter core).ap i = .scheduled core := hpc
      exact hs'.apTo hi (by rw [hat]; rfl)
    | callback core =>
      rw [hpc] at hstep
      obtain rfl := Option.some.inj hstep
      have hs' : CounterOk cfg (s.finish core) := ⟨hs.caller, hs.cpuCnt, hs.outside, hs.ap⟩
      have hat : (s.finish core).ap i = .callback core := hpc
      exact hs'.apTo hi (by rw [hat]; rfl)
    | decrement =>
      rw [hpc] at hstep
      obtain rfl := Option.some.inj hstep
      have hmove := counted_apTo (s := s) hi .release
      rw [hpc] at hmove
      have hafter : counted cfg (s.apTo i .release) + 1 = counted cfg s := hmove
      refine ⟨hs.caller, fun hcall ↦ ?_, fun hcall ↦ ?_, fun j hj ↦ ?_⟩
      · have hbefore := hs.cpuCnt hcall
        refine (toNat_sub_one (by omega)).trans ?_
        change s.cpuCnt.toNat - 1 = counted cfg (s.apTo i .release) + s.caller.pending
        omega
      · have hbefore := hs.outside hcall
        omega
      · by_cases hji : j = i
        · exact hji ▸ hi
        · have hsame : (s.apTo i .release).ap j = s.ap j := Function.update_of_ne hji _ _
          exact hs.ap j (hsame ▸ hj)
  · cases hstep

/-! ### The runs of the callback -/

/-- The APs that are at `q`. -/
def apsAt (cfg : Config) (s : State) (q : ApPc) : ℕ :=
  tally cfg.maxCpuData (fun p ↦ (decide (p = q)).toNat) s.ap

/-- The loop is through with the cores below. -/
def passed (cfg : Config) : CallerPc → ℕ
  | .loop core | .increment core _ | .startupThisAp core _ => core.toNat
  | .blockOnAp core _ | .decrement core | .localCallback core => core.toNat + 1
  | .wait => cfg.mMaxCoreId.toNat
  | .returned status => if status = .success then cfg.mMaxCoreId.toNat else 0
  | .enter => 0

/-- The loop called the callback for the core, or started it there. -/
def Due (cfg : Config) (s : State) (core : BitVec 8) : Prop :=
  s.startSucceeded core = true ∨
    (cfg.IsLocal core ∧ cfg.HasValidThread core ∧ core.toNat < passed cfg s.caller)

instance : Decidable (Due cfg s core) := inferInstanceAs (Decidable (_ ∨ _))

/-- **The runs of the callback for one core.** -/
structure CoreOk (cfg : Config) (s : State) (core : BitVec 8) : Prop where
  entered : s.entered core + apsAt cfg s (.scheduled core) = if Due cfg s core then 1 else 0
  finished : s.entered core = s.finished core + apsAt cfg s (.callback core) +
    (decide (s.caller = .localCallback core)).toNat
  started : s.startSucceeded core = true →
    core.toNat < passed cfg s.caller ∧ ¬ cfg.IsLocal core ∧ cfg.HasValidThread core

theorem apsAt_apTo (hi : i < cfg.maxCpuData) (p q : ApPc) :
    apsAt cfg (s.apTo i p) q + (decide (s.ap i = q)).toNat =
      apsAt cfg s q + (decide (p = q)).toNat :=
  tally_update hi _ _ _

/-- **One step of an AP keeps the runs of every core right.** -/
theorem CoreOk.apStep (hs : CoreOk cfg s core) (hstep : apStep cfg s i = some s') :
    CoreOk cfg s' core := by
  obtain ⟨hentered, hfinished, hstarted⟩ := hs
  unfold MpSync.apStep at hstep
  split at hstep
  · rename_i hi
    have hmove : ∀ p q, apsAt cfg (s.apTo i p) q + (decide (s.ap i = q)).toNat =
      apsAt cfg s q + (decide (p = q)).toNat := fun p q ↦ apsAt_apTo hi p q
    cases hpc : s.ap i with
    | idle =>
      rw [hpc] at hstep
      cases hstep
    | other | release =>
      rw [hpc] at hstep hmove
      obtain rfl := Option.some.inj hstep
      have hsched := hmove .idle (.scheduled core)
      have hcall := hmove .idle (.callback core)
      simp only [reduceCtorEq, decide_false, Bool.toNat_false, Nat.add_zero] at hsched hcall
      exact ⟨hsched ▸ hentered, hcall ▸ hfinished, hstarted⟩
    | scheduled k =>
      rw [hpc] at hstep hmove
      obtain rfl := Option.some.inj hstep
      have hsched := hmove (.callback k) (.scheduled core)
      have hcall := hmove (.callback k) (.callback core)
      by_cases hk : core = k
      · subst hk
        simp only [reduceCtorEq, decide_false, decide_true, Bool.toNat_false, Bool.toNat_true,
          Nat.add_zero] at hsched hcall
        have hup : ((s.enter core).apTo i (.callback core)).entered core = s.entered core + 1 :=
          Function.update_self _ _ _
        refine ⟨?_, ?_, hstarted⟩
        · refine Eq.trans ?_ hentered
          rw [hup]
          change s.entered core + 1 + apsAt cfg (s.apTo i (.callback core)) _ = _
          omega
        · rw [hup, hfinished]
          change _ = s.finished core + apsAt cfg (s.apTo i (.callback core)) _ + _
          rw [hcall]
          change _ = _ + (decide (s.caller = .localCallback core)).toNat
          omega
      · have hk' : ¬ k = core := fun h ↦ hk h.symm
        simp only [reduceCtorEq, ApPc.scheduled.injEq, ApPc.callback.injEq, hk', decide_false,
          Bool.toNat_false, Nat.add_zero] at hsched hcall
        have hup : ((s.enter k).apTo i (.callback k)).entered core = s.entered core :=
          Function.update_of_ne hk _ _
        exact ⟨hup ▸ hsched ▸ hentered, hup ▸ hcall ▸ hfinished, hstarted⟩
    | callback k =>
      rw [hpc] at hstep hmove
      obtain rfl := Option.some.inj hstep
      have hsched := hmove .decrement (.scheduled core)
      have hcall := hmove .decrement (.callback core)
      simp only [reduceCtorEq, decide_false, Bool.toNat_false, Nat.add_zero] at hsched
      by_cases hk : core = k
      · subst hk
        simp only [reduceCtorEq, decide_false, decide_true, Bool.toNat_false, Bool.toNat_true,
          Nat.add_zero] at hcall
        have hup : ((s.finish core).apTo i .decrement).finished core = s.finished core + 1 :=
          Function.update_self _ _ _
        refine ⟨hsched ▸ hentered, ?_, hstarted⟩
        rw [hup]
        change s.entered core = s.finished core + 1 + apsAt cfg (s.apTo i .decrement) _ +
          (decide (s.caller = .localCallback core)).toNat
        omega
      · have hk' : ¬ k = core := fun h ↦ hk h.symm
        simp only [reduceCtorEq, ApPc.callback.injEq, hk', decide_false, Bool.toNat_false,
          Nat.add_zero] at hcall
        have hup : ((s.finish k).apTo i .decrement).finished core = s.finished core :=
          Function.update_of_ne hk _ _
        exact ⟨hsched ▸ hentered, hup ▸ hcall ▸ hfinished, hstarted⟩
    | decrement =>
      rw [hpc] at hstep hmove
      obtain rfl := Option.some.inj hstep
      have hsched := hmove .release (.scheduled core)
      have hcall := hmove .release (.callback core)
      simp only [reduceCtorEq, decide_false, Bool.toNat_false, Nat.add_zero] at hsched hcall
      exact ⟨hsched ▸ hentered, hcall ▸ hfinished, hstarted⟩
  · cases hstep

theorem passed_loop_succ {k : BitVec 8} (hend : cfg.HasLoopEnd)
    (hk : k.toNat < cfg.mMaxCoreId.toNat) : passed cfg (.loop (k + 1)) = k.toNat + 1 :=
  toNat_succ_of_lt hend hk

/-- The caller moves without touching the shared state, and passes no core on which it is. -/
theorem CoreOk.callerTo (hs : CoreOk cfg s core) {pc : CallerPc}
    (hfrom : s.caller ≠ .localCallback core) (hto : pc ≠ .localCallback core)
    (hle : passed cfg s.caller ≤ passed cfg pc)
    (hpassed : cfg.IsLocal core → cfg.HasValidThread core → core.toNat < passed cfg pc →
      core.toNat < passed cfg s.caller) : CoreOk cfg (s.callerTo pc) core := by
  have hdue : Due cfg (s.callerTo pc) core ↔ Due cfg s core := by
    constructor
    · rintro (hstart | ⟨hlocal, hvalid, hlt⟩)
      · exact .inl hstart
      · exact .inr ⟨hlocal, hvalid, hpassed hlocal hvalid hlt⟩
    · rintro (hstart | ⟨hlocal, hvalid, hlt⟩)
      · exact .inl hstart
      · exact .inr ⟨hlocal, hvalid, hlt.trans_le hle⟩
  refine ⟨hs.entered.trans (if_congr hdue.symm rfl rfl), ?_, fun hstart ↦ ?_⟩
  · have hfin := hs.finished
    rw [decide_eq_false hfrom] at hfin
    rw [show (decide ((s.callerTo pc).caller = .localCallback core)) = false from
      decide_eq_false hto]
    exact hfin
  · obtain ⟨hlt, hrest⟩ := hs.started hstart
    exact ⟨hlt.trans_le hle, hrest⟩

/-- The caller starts AP `i` for core `k`. -/
theorem CoreOk.start (hs : CoreOk cfg s core) {k : BitVec 8} {pc : CallerPc}
    (hat : s.caller = .startupThisAp k i) (hok : s.caller.Ok cfg) (hidle : s.ap i = .idle)
    (hpassed : passed cfg pc = k.toNat + 1) (hto : pc ≠ .localCallback core) :
    CoreOk cfg ((s.start k i).callerTo pc) core := by
  rw [hat] at hok
  obtain ⟨hi, hlocal, hvalid⟩ := hok
  obtain ⟨hentered, hfinished, hstarted⟩ := hs
  rw [hat] at hfinished hstarted
  have hsched := apsAt_apTo (s := s) hi (.scheduled k) (.scheduled core)
  have hcall := apsAt_apTo (s := s) hi (.scheduled k) (.callback core)
  rw [hidle] at hsched hcall
  simp only [reduceCtorEq, decide_false, Bool.toNat_false, Nat.add_zero, ApPc.scheduled.injEq]
    at hsched hcall hfinished
  have hfinished' : ((s.start k i).callerTo pc).entered core =
      ((s.start k i).callerTo pc).finished core +
        apsAt cfg ((s.start k i).callerTo pc) (.callback core) +
        (decide (((s.start k i).callerTo pc).caller = .localCallback core)).toNat := by
    rw [show (decide (((s.start k i).callerTo pc).caller = .localCallback core)) = false from
      decide_eq_false hto]
    exact hfinished.trans (congrArg (s.finished core + ·) hcall.symm)
  by_cases hk : core = k
  · subst hk
    have hnotdue : ¬ Due cfg s core := by
      rintro (hstart | ⟨hl, -⟩)
      · exact absurd (hstarted hstart).1 (lt_irrefl _)
      · exact hlocal hl
    have hdue : Due cfg ((s.start core i).callerTo pc) core := .inl (Function.update_self _ _ _)
    refine ⟨?_, hfinished', fun _ ↦ ⟨?_, hlocal, hvalid⟩⟩
    · rw [if_neg hnotdue] at hentered
      rw [if_pos hdue]
      change s.entered core + apsAt cfg (s.apTo i (.scheduled core)) _ = 1
      simp only [decide_true, Bool.toNat_true] at hsched
      omega
    · change core.toNat < passed cfg pc
      omega
  · have hne : core.toNat ≠ k.toNat := fun h ↦ hk (BitVec.eq_of_toNat_eq h)
    have hsame : ((s.start k i).callerTo pc).startSucceeded core = s.startSucceeded core :=
      Function.update_of_ne hk _ _
    have hlt : core.toNat < passed cfg pc ↔ core.toNat < passed cfg s.caller := by
      rw [hpassed, hat]
      change _ ↔ core.toNat < k.toNat
      omega
    have hdue : Due cfg ((s.start k i).callerTo pc) core ↔ Due cfg s core := by
      unfold Due
      rw [hsame]
      exact or_congr Iff.rfl (and_congr Iff.rfl (and_congr Iff.rfl hlt))
    refine ⟨?_, hfinished', fun hstart ↦ ?_⟩
    · refine Eq.trans ?_ (hentered.trans (if_congr hdue.symm rfl rfl))
      change s.entered core + apsAt cfg (s.apTo i (.scheduled k)) _ = _
      have hk' : ¬ k = core := fun h ↦ hk h.symm
      simp only [hk', decide_false, Bool.toNat_false, Nat.add_zero] at hsched
      rw [hsched]
    · rw [hsame] at hstart
      rw [← hat] at hstarted
      exact ⟨hlt.2 (hstarted hstart).1, (hstarted hstart).2⟩

/-- The caller is on core `k` and calls the callback. -/
theorem CoreOk.enterLocal (hs : CoreOk cfg s core) {k : BitVec 8} (hat : s.caller = .loop k)
    (hlocal : cfg.IsLocal k) (hvalid : cfg.HasValidThread k) :
    CoreOk cfg ((s.enter k).callerTo (.localCallback k)) core := by
  obtain ⟨hentered, hfinished, hstarted⟩ := hs
  rw [hat] at hfinished hstarted
  simp only [reduceCtorEq, decide_false, Bool.toNat_false, Nat.add_zero] at hfinished
  by_cases hk : core = k
  · subst hk
    have hnotdue : ¬ Due cfg s core := by
      rintro (hstart | ⟨-, -, hlt⟩)
      · exact absurd (hstarted hstart).1 (lt_irrefl _)
      · rw [hat] at hlt
        exact absurd hlt (lt_irrefl _)
    have hdue : Due cfg ((s.enter core).callerTo (.localCallback core)) core :=
      .inr ⟨hlocal, hvalid, Nat.lt_succ_self _⟩
    have hup : ((s.enter core).callerTo (.localCallback core)).entered core =
      s.entered core + 1 := Function.update_self _ _ _
    refine ⟨?_, ?_, fun hstart ↦ absurd (.inl hstart) hnotdue⟩
    · rw [if_neg hnotdue] at hentered
      rw [if_pos hdue, hup]
      change s.entered core + 1 + apsAt cfg s _ = 1
      omega
    · rw [hup, show (decide (((s.enter core).callerTo (.localCallback core)).caller =
        .localCallback core)) = true from decide_eq_true rfl, hfinished]
      rfl
  · have hne : core.toNat ≠ k.toNat := fun h ↦ hk (BitVec.eq_of_toNat_eq h)
    have hup : ((s.enter k).callerTo (.localCallback k)).entered core = s.entered core :=
      Function.update_of_ne hk _ _
    have hlt : core.toNat < passed cfg (.localCallback k) ↔ core.toNat < passed cfg s.caller := by
      rw [hat]
      change core.toNat < k.toNat + 1 ↔ core.toNat < k.toNat
      omega
    have hdue : Due cfg ((s.enter k).callerTo (.localCallback k)) core ↔ Due cfg s core :=
      or_congr Iff.rfl (and_congr Iff.rfl (and_congr Iff.rfl hlt))
    refine ⟨hup ▸ hentered.trans (if_congr hdue.symm rfl rfl), ?_, fun hstart ↦ ?_⟩
    · rw [hup, show (decide (((s.enter k).callerTo (.localCallback k)).caller =
        .localCallback core)) = false from
          decide_eq_false fun h ↦ hk (CallerPc.localCallback.inj h).symm]
      exact hfinished
    · obtain ⟨hlt', hrest⟩ := hstarted hstart
      exact ⟨Nat.lt_succ_of_lt hlt', hrest⟩

/-- The callback comes to its end on the caller's own core `k`. -/
theorem CoreOk.finishLocal (hs : CoreOk cfg s core) {k : BitVec 8}
    (hat : s.caller = .localCallback k) {pc : CallerPc} (hpassed : passed cfg pc = k.toNat + 1)
    (hto : pc ≠ .localCallback core) : CoreOk cfg ((s.finish k).callerTo pc) core := by
  obtain ⟨hentered, hfinished, hstarted⟩ := hs
  have hsame : passed cfg pc = passed cfg s.caller := by
    rw [hpassed, hat]
    rfl
  have hdue : Due cfg ((s.finish k).callerTo pc) core ↔ Due cfg s core := by
    unfold Due
    rw [← hsame]
    exact Iff.rfl
  refine ⟨hentered.trans (if_congr hdue.symm rfl rfl), ?_, fun hstart ↦ ?_⟩
  · rw [show (decide (((s.finish k).callerTo pc).caller = .localCallback core)) = false from
      decide_eq_false hto]
    rw [hat] at hfinished
    refine hfinished.trans ?_
    change _ = Function.update s.finished k (s.finished k + 1) core + apsAt cfg s _ + 0
    by_cases hk : core = k
    · subst hk
      rw [Function.update_self, decide_eq_true rfl]
      simp only [Bool.toNat_true]
      omega
    · rw [Function.update_of_ne hk,
        decide_eq_false fun h ↦ hk (CallerPc.localCallback.inj h).symm]
      rfl
  · obtain ⟨hlt, hrest⟩ := hstarted hstart
    refine ⟨?_, hrest⟩
    rw [← hsame] at hlt
    exact hlt

/-- **One step of the caller keeps the runs of every core right**, if its loop can end. -/
theorem CoreOk.callerStep (hs : CoreOk cfg s core) (hok : s.caller.Ok cfg) (hend : cfg.HasLoopEnd)
    {succeeds : Bool} (hstep : callerStep cfg s succeeds = some s') : CoreOk cfg s' core := by
  unfold MpSync.callerStep at hstep
  cases hpc : s.caller with
  | enter =>
    have hfrom : s.caller ≠ .localCallback core := by rw [hpc]; nofun
    rw [hpc] at hstep
    dsimp only at hstep
    split at hstep
    · obtain rfl := Option.some.inj hstep
      exact hs.callerTo hfrom nofun (by rw [hpc]; exact Nat.zero_le _)
        fun _ _ hlt ↦ absurd hlt (Nat.not_lt_zero _)
    · obtain rfl := Option.some.inj hstep
      have hs' : CoreOk cfg { s with cpuCnt := 0 } core := ⟨hs.entered, hs.finished, hs.started⟩
      exact hs'.callerTo hfrom nofun (by
        change passed cfg s.caller ≤ _
        rw [hpc]
        exact Nat.zero_le _) fun _ _ hlt ↦ absurd hlt (Nat.not_lt_zero _)
  | loop k =>
    have hfrom : s.caller ≠ .localCallback core := by rw [hpc]; nofun
    have hat : passed cfg s.caller = k.toNat := by rw [hpc]; rfl
    rw [hpc] at hstep hok
    dsimp only at hstep
    obtain ⟨hturn, hge⟩ | ⟨hturn, hlt, hskip⟩ | ⟨hturn, hlocal, hvalid⟩ |
      ⟨i, hturn, hi, hlocal, hvalid⟩ := turn_cases cfg k <;>
      rw [hturn] at hstep <;> obtain rfl := Option.some.inj hstep
    · have hbound : cfg.mMaxCoreId.toNat = k.toNat := le_antisymm hge (hok hend)
      exact hs.callerTo hfrom nofun (hat.trans hbound.symm).le
        fun _ _ hlt ↦ hat ▸ hbound ▸ hlt
    · have hnext := passed_loop_succ hend hlt
      refine hs.callerTo hfrom nofun (by omega) fun hlocal hvalid hltnext ↦ ?_
      have hne : core.toNat ≠ k.toNat := fun h ↦ by
        obtain rfl := BitVec.eq_of_toNat_eq h
        exact hskip ⟨hlocal, hvalid⟩
      omega
    · exact hs.enterLocal hpc hlocal hvalid
    · exact hs.callerTo hfrom nofun hat.le fun _ _ hlt ↦ hat ▸ hlt
  | increment k i =>
    have hfrom : s.caller ≠ .localCallback core := by rw [hpc]; nofun
    have hat : passed cfg s.caller = k.toNat := by rw [hpc]; rfl
    rw [hpc] at hstep
    obtain rfl := Option.some.inj hstep
    have hs' : CoreOk cfg s.increment core := ⟨hs.entered, hs.finished, hs.started⟩
    exact hs'.callerTo hfrom nofun hat.le fun _ _ hlt ↦ hat.symm ▸ hlt
  | startupThisAp k i =>
    have hfrom : s.caller ≠ .localCallback core := by rw [hpc]; nofun
    have hat : passed cfg s.caller = k.toNat := by rw [hpc]; rfl
    have hok' := hok
    rw [hpc] at hstep hok'
    dsimp only at hstep
    split at hstep
    · split at hstep
      · rename_i hidle
        obtain rfl := Option.some.inj hstep
        by_cases hblock : cfg.blockStartupThisAp = true
        · rw [if_pos hblock]
          exact hs.start hpc hok hidle.2 rfl nofun
        · rw [if_neg hblock]
          exact hs.start hpc hok hidle.2 (passed_loop_succ hend hok'.2.2.2.1) nofun
      · cases hstep
    · obtain rfl := Option.some.inj hstep
      refine hs.callerTo hfrom nofun (hat.le.trans (Nat.le_succ _)) fun hlocal _ hlt ↦ ?_
      have hne : core.toNat ≠ k.toNat := fun h ↦ by
        obtain rfl := BitVec.eq_of_toNat_eq h
        exact hok'.2.1 hlocal
      have hlt' : core.toNat < k.toNat + 1 := hlt
      omega
  | blockOnAp k i =>
    have hfrom : s.caller ≠ .localCallback core := by rw [hpc]; nofun
    have hat : passed cfg s.caller = k.toNat + 1 := by rw [hpc]; rfl
    rw [hpc] at hstep hok
    have hnext := passed_loop_succ hend hok.2.2.2.1
    dsimp only at hstep
    split at hstep
    · obtain rfl := Option.some.inj hstep
      exact hs.callerTo hfrom nofun (by omega) fun _ _ hlt ↦ by omega
    · cases hstep
  | decrement k =>
    have hfrom : s.caller ≠ .localCallback core := by rw [hpc]; nofun
    have hat : passed cfg s.caller = k.toNat + 1 := by rw [hpc]; rfl
    rw [hpc] at hstep hok
    have hnext := passed_loop_succ hend hok.2.2.1
    obtain rfl := Option.some.inj hstep
    have hs' : CoreOk cfg s.decrement core := ⟨hs.entered, hs.finished, hs.started⟩
    have hat' : passed cfg s.decrement.caller = k.toNat + 1 := hat
    exact hs'.callerTo hfrom nofun (by omega) fun _ _ hlt ↦ by omega
  | localCallback k =>
    rw [hpc] at hstep hok
    obtain rfl := Option.some.inj hstep
    exact hs.finishLocal hpc (passed_loop_succ hend hok.2.2.1) nofun
  | wait =>
    have hfrom : s.caller ≠ .localCallback core := by rw [hpc]; nofun
    have hat : passed cfg s.caller = cfg.mMaxCoreId.toNat := by rw [hpc]; rfl
    rw [hpc] at hstep
    dsimp only at hstep
    split at hstep
    · obtain rfl := Option.some.inj hstep
      exact hs.callerTo hfrom nofun hat.le fun _ _ hlt ↦ hat ▸ hlt
    · obtain rfl := Option.some.inj hstep
      exact hs
  | returned status =>
    rw [hpc] at hstep
    cases hstep

end PurleyFirmware.MpSync
