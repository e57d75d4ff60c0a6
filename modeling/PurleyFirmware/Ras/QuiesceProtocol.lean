import PurleyFirmware.Ras.MemoryOnline

/-!
# The quiesce buffer of a memory online request

A request of `MemoryNodeOnline` prepares a quiesce, which acquires a buffer, and later executes or
aborts it, which releases the buffer. Each of the three updates its own part of three variables, and
the request is split over several calls, between which the abort hook may be used.

When a request has ended, no pointer should be left, the quiesce should not be enabled any more, and
what was acquired should have been released, once. All of that holds, whatever the code outside
answers, but for one case: to prepare a quiesce sets `mMemQuiesceEnabled` before it acquires the
buffer, and where that fails the request ends in `MemNodeError` without the abort that would reset
it. `endsClean_iff` says that this is the only one.

The trace keeps, besides the variables of the node, the buffers that the present request has acquired
and released.
-/

namespace PurleyFirmware.Ras

/-! ### Calls and traces -/

/-- A call of `OnlineOfflineSingleMemoryNode` to bring a node online, and what is answered in it. -/
structure NodeCall where
  /-- `pSysHost` is there. -/
  pSysHost : Bool
  /-- `MEM_NODE_INIT` is asked for. -/
  nodeInit : Bool
  /-- `MEM_MAP_UPDATE` is asked for. -/
  mapUpdate : Bool
  /-- What the code outside answers. -/
  outcome : CallOutcome

/-- Its action byte. -/
def NodeCall.action (c : NodeCall) : MemAction := ⟨true, false, c.nodeInit, c.mapUpdate⟩

/-- The buffers that `CallQuiesceSupport` acquires and those that it releases. -/
def quiesceBuffers (o : CallOutcome) (action : QuiesceAction) (s : QuiesceVars) :
    List ℕ × List ℕ :=
  match action with
  | .prepareQuiesce =>
    if s.mCurrQuiescePtr.isNone ∧ o.aquireDataBuffer = .success then ([o.dataBuffer], [])
    else ([], [])
  | .abortQuiesce => ([], s.mStartQuiescePtr.toList)
  | .executeQuiesce => ([], s.mCurrQuiescePtr.toList)
  | .releaseQuiesce => ([], [])

/-- The buffers that a step of `MemoryNodeOnline` acquires and releases. -/
def nodeBuffers (o : CallOutcome) (memHpStatus : MemNodeStatus) (s : QuiesceVars) :
    List ℕ × List ℕ :=
  match memHpStatus with
  | .memNodeInstallInProgressEntry =>
    if o.hostParmValid then quiesceBuffers o .prepareQuiesce s else ([], [])
  | .memNodeInstallQuiesce => quiesceBuffers o .executeQuiesce s
  | .memNodeInstallAbortQuiesce => quiesceBuffers o .abortQuiesce s
  | _ => ([], [])

/-- The variables of the node, and the buffers of the present request. -/
structure QuiesceTrace where
  /-- The variables. -/
  node : NodeVars
  /-- The buffers acquired. -/
  acquired : List ℕ
  /-- The buffers released. -/
  released : List ℕ

namespace QuiesceTrace

/-- The variables as they are initialised. -/
def boot : QuiesceTrace := ⟨MemoryRas.boot.libCall.node, [], []⟩

/-- The variables when a call begins: the abort hook may have been used before it. -/
def hooked (t : QuiesceTrace) (c : NodeCall) : NodeVars :=
  { t.node with mAbortQuiesce := t.node.mAbortQuiesce || c.outcome.abortRequested }

/-- The state in which a call runs `MemoryNodeOnline`. -/
def entered (t : QuiesceTrace) (c : NodeCall) : MemNodeStatus :=
  let status :=
    if t.node.mrcStatus = .memNodeNop then (mrcStart c.action).1 else t.node.mrcStatus
  if status = .memNodeInstallQuiesce ∧ (t.hooked c).mAbortQuiesce then .memNodeInstallAbortQuiesce
  else status

/-- One call. The buffers of the last request are forgotten when a new one begins. -/
def next (t : QuiesceTrace) (c : NodeCall) : QuiesceTrace :=
  if !c.pSysHost then { t with node := t.hooked c }
  else
    let buffers := nodeBuffers c.outcome (t.entered c) t.node.quiesce
    let begins := t.node.mrcStatus = .memNodeNop
    { node := (onlineOfflineSingleMemoryNode c.pSysHost c.outcome c.action (t.hooked c)).2
      acquired := (if begins then [] else t.acquired) ++ buffers.1
      released := (if begins then [] else t.released) ++ buffers.2 }

/-- The call ends a request: `MemoryNodeOnline` leaves the node in one of the two last states. -/
def Ends (t : QuiesceTrace) (c : NodeCall) : Prop :=
  c.pSysHost = true ∧
    ((memoryNodeOnline c.outcome (t.entered c) t.node.quiesce).2.1 = .memNodeOnlineComplete ∨
      (memoryNodeOnline c.outcome (t.entered c) t.node.quiesce).2.1 = .memNodeError)

/-- No pointer is left, nothing is enabled, and what was acquired was released once. -/
structure Clean (t : QuiesceTrace) : Prop where
  /-- `mCurrQuiescePtr` is `NULL`. -/
  curr : t.node.quiesce.mCurrQuiescePtr = none
  /-- `mStartQuiescePtr` is `NULL`. -/
  start : t.node.quiesce.mStartQuiescePtr = none
  /-- `mMemQuiesceEnabled` is `FALSE`. -/
  disabled : t.node.quiesce.mMemQuiesceEnabled = false
  /-- Every buffer was released as often as it was acquired. -/
  balanced : ∀ b, t.released.count b = t.acquired.count b
  /-- None was acquired twice. -/
  nodup : t.acquired.Nodup

/-- If the call ends a request, it leaves everything clean. -/
def EndsClean (t : QuiesceTrace) (c : NodeCall) : Prop := t.Ends c → (t.next c).Clean

/-- If the call gets to acquire a buffer, it gets one. -/
def Acquires (t : QuiesceTrace) (c : NodeCall) : Prop :=
  c.pSysHost = true → t.entered c = .memNodeInstallInProgressEntry →
    c.outcome.hostParmValid = true → c.outcome.aquireDataBuffer = .success

/-- The invariant, by the state between two calls. -/
inductive Inv : QuiesceTrace → Prop
  /-- Between two requests, or in one that only initialises the node. -/
  | idle {t : QuiesceTrace} (clean : t.Clean)
      (mrcStatus : t.node.mrcStatus = .memNodeNop ∨
        t.node.mrcStatus = .memNodeOnline ∧
          t.node.mrcEndStatus = .memNodeInstallInProgressEntry) : Inv t
  /-- A quiesce is prepared. -/
  | prepared {t : QuiesceTrace} (b : ℕ)
      (quiesce : t.node.quiesce = ⟨true, some b, some b⟩) (acquired : t.acquired = [b])
      (released : t.released = [])
      (mrcStatus : t.node.mrcStatus = .memNodeInstallQuiesce ∨
        t.node.mrcStatus = .memNodeInstallAbortQuiesce)
      (mrcEndStatus : t.node.mrcEndStatus = .memNodeOnlineComplete) : Inv t
  /-- It was executed. -/
  | executed {t : QuiesceTrace} (clean : t.Clean)
      (mrcStatus : t.node.mrcStatus = .memNodeUpdateStructuresOnline)
      (mrcEndStatus : t.node.mrcEndStatus = .memNodeOnlineComplete) : Inv t

variable {t : QuiesceTrace} {c : NodeCall}

theorem boot_inv : boot.Inv :=
  .idle ⟨rfl, rfl, rfl, fun _ ↦ rfl, List.nodup_nil⟩ (Or.inl rfl)

/-- Without the host structure nothing happens. -/
theorem Inv.next_of_no_host (h : t.Inv) (hhost : c.pSysHost = false) :
    (t.next c).Inv ∧ t.EndsClean c ∧ t.Acquires c := by
  have hnext : t.next c = { t with node := t.hooked c } := by rw [next, hhost]; rfl
  have hends : ¬ t.Ends c := fun he ↦ absurd (he.1.symm.trans hhost) (by decide)
  refine ⟨?_, fun he ↦ absurd he hends, fun hh ↦ absurd (hh.symm.trans hhost) (by decide)⟩
  rw [hnext]
  cases h with
  | idle clean mrcStatus => exact .idle ⟨clean.1, clean.2, clean.3, clean.4, clean.5⟩ mrcStatus
  | prepared b quiesce acquired released mrcStatus mrcEndStatus =>
    exact .prepared b quiesce acquired released mrcStatus mrcEndStatus
  | executed clean mrcStatus mrcEndStatus =>
    exact .executed ⟨clean.1, clean.2, clean.3, clean.4, clean.5⟩ mrcStatus mrcEndStatus

/-! #### One call with the host structure -/

/-- The step of `MemoryNodeOnline` that a call makes. -/
def stepped (t : QuiesceTrace) (c : NodeCall) : EfiStatus × MemNodeStatus × QuiesceVars :=
  memoryNodeOnline c.outcome (t.entered c) t.node.quiesce

/-- The end state of the request. -/
def endStatus (t : QuiesceTrace) (c : NodeCall) : MemNodeStatus :=
  if t.node.mrcStatus = .memNodeNop then (mrcStart c.action).2 else t.node.mrcEndStatus

theorem quiesce_mrcFinish (n : NodeVars) : (mrcFinish n).2.quiesce = n.quiesce := by
  simp only [mrcFinish]
  split
  · rfl
  · split <;> split <;> rfl

theorem mrcEndStatus_mrcFinish (n : NodeVars) : (mrcFinish n).2.mrcEndStatus = n.mrcEndStatus := by
  simp only [mrcFinish]
  split
  · rfl
  · split <;> split <;> rfl

theorem mrcStatus_mrcFinish (n : NodeVars) :
    (mrcFinish n).2.mrcStatus =
      if n.mrcStatus = .memNodeError ∨ n.mrcStatus = n.mrcEndStatus then .memNodeNop
      else n.mrcStatus := by
  simp only [mrcFinish]
  by_cases herror : n.mrcStatus = .memNodeError
  · rw [if_pos herror, if_pos (Or.inl herror)]
  · rw [if_neg herror]
    by_cases hend : n.mrcStatus = n.mrcEndStatus
    · rw [if_pos (Or.inr hend)]
      split <;> rfl
    · rw [if_neg (not_or.mpr ⟨herror, hend⟩)]
      split <;> rfl

/-- What a call does to the node: the step of `MemoryNodeOnline`, and the node is idle again if that
was the last one. -/
theorem node_next (hhost : c.pSysHost = true) :
    (t.next c).node = (mrcFinish
      { mrcStatus := (t.stepped c).2.1
        mrcEndStatus := t.endStatus c
        mBeforeQuiesce := false
        mAbortQuiesce := (t.hooked c).mAbortQuiesce
        quiesce := (t.stepped c).2.2 }).2 := by
  rw [next, hhost, Bool.not_true, if_neg Bool.false_ne_true]
  simp only [onlineOfflineSingleMemoryNode, Bool.not_true, Bool.false_eq_true, if_false]
  have hon : c.action.nodeOn = true := rfl
  rw [if_pos hon]
  by_cases hnop : t.node.mrcStatus = .memNodeNop
  · simp only [stepped, endStatus, entered, hooked, hnop, if_true]
    split <;> rfl
  · simp only [stepped, endStatus, entered, hooked, hnop, if_false]
    split <;> rfl

theorem quiesce_next (hhost : c.pSysHost = true) :
    (t.next c).node.quiesce = (t.stepped c).2.2 := by rw [node_next hhost, quiesce_mrcFinish]

theorem mrcEndStatus_next (hhost : c.pSysHost = true) :
    (t.next c).node.mrcEndStatus = t.endStatus c := by rw [node_next hhost, mrcEndStatus_mrcFinish]

theorem mrcStatus_next (hhost : c.pSysHost = true) :
    (t.next c).node.mrcStatus =
      if (t.stepped c).2.1 = .memNodeError ∨ (t.stepped c).2.1 = t.endStatus c then .memNodeNop
      else (t.stepped c).2.1 := by rw [node_next hhost, mrcStatus_mrcFinish]

/-- The buffers after a call. -/
theorem buffers_next (hhost : c.pSysHost = true) :
    (t.next c).acquired = (if t.node.mrcStatus = .memNodeNop then [] else t.acquired) ++
        (nodeBuffers c.outcome (t.entered c) t.node.quiesce).1 ∧
      (t.next c).released = (if t.node.mrcStatus = .memNodeNop then [] else t.released) ++
        (nodeBuffers c.outcome (t.entered c) t.node.quiesce).2 := by
  rw [next, hhost, Bool.not_true, if_neg Bool.false_ne_true]
  exact ⟨rfl, rfl⟩

/-- A call that touches neither variables nor buffers leaves things clean. -/
theorem Clean.next (h : t.Clean) (hhost : c.pSysHost = true)
    (hquiesce : (t.stepped c).2.2 = t.node.quiesce)
    (hbuffers : nodeBuffers c.outcome (t.entered c) t.node.quiesce = ([], [])) :
    (t.next c).Clean := by
  obtain ⟨hacquired, hreleased⟩ := buffers_next (t := t) hhost
  rw [hbuffers, List.append_nil] at hacquired hreleased
  refine ⟨?_, ?_, ?_, ?_, ?_⟩
  · rw [quiesce_next hhost, hquiesce]
    exact h.curr
  · rw [quiesce_next hhost, hquiesce]
    exact h.start
  · rw [quiesce_next hhost, hquiesce]
    exact h.disabled
  · rw [hacquired, hreleased]
    split
    · exact fun _ ↦ rfl
    · exact h.balanced
  · rw [hacquired]
    split
    · exact List.nodup_nil
    · exact h.nodup

/-- The first call of a request that prepares a quiesce. -/
theorem Inv.next_entry (hclean : t.Clean) (hnop : t.node.mrcStatus = .memNodeNop)
    (hhost : c.pSysHost = true) (hentered : t.entered c = .memNodeInstallInProgressEntry)
    (hend : t.endStatus c = .memNodeOnlineComplete) :
    (t.Acquires c → (t.next c).Inv) ∧ (t.EndsClean c ↔ t.Acquires c) := by
  have hcurr := hclean.curr
  have hstart := hclean.start
  by_cases hvalid : c.outcome.hostParmValid = true
  · by_cases haquire : c.outcome.aquireDataBuffer = .success
    · -- the buffer is there, and the memory map decides how it goes on
      have hstep : (t.stepped c).2 = ((updateSad c.outcome).2,
          ⟨true, some c.outcome.dataBuffer, some c.outcome.dataBuffer⟩) := by
        simp [stepped, hentered, memoryNodeOnline, callQuiesceSupport, hvalid, haquire, hcurr, hstart]
      have hbuffers : nodeBuffers c.outcome (t.entered c) t.node.quiesce =
          ([c.outcome.dataBuffer], []) := by
        simp [hentered, nodeBuffers, quiesceBuffers, hvalid, haquire, hcurr]
      have hsad : (updateSad c.outcome).2 = .memNodeInstallQuiesce ∨
          (updateSad c.outcome).2 = .memNodeInstallAbortQuiesce := by
        rw [updateSad]
        split
        · exact Or.inl rfl
        · exact Or.inr rfl
      have hends : ¬ t.Ends c := by
        rintro ⟨-, he⟩
        change (t.stepped c).2.1 = _ ∨ (t.stepped c).2.1 = _ at he
        rw [hstep] at he
        rcases hsad with hsad | hsad <;> rw [hsad] at he <;> rcases he with he | he <;> cases he
      obtain ⟨hacquired, hreleased⟩ := buffers_next (t := t) hhost
      rw [hbuffers, if_pos hnop] at hacquired hreleased
      have hstatus := mrcStatus_next (t := t) hhost
      rw [hstep, hend] at hstatus
      dsimp only at hstatus
      refine ⟨fun _ ↦ .prepared c.outcome.dataBuffer ?_ hacquired hreleased ?_ ?_,
        iff_of_true (fun he ↦ absurd he hends) fun _ _ _ ↦ haquire⟩
      · rw [quiesce_next hhost, hstep]
      · rcases hsad with hsad | hsad
        · rw [hsad, if_neg (by decide)] at hstatus
          exact Or.inl hstatus
        · rw [hsad, if_neg (by decide)] at hstatus
          exact Or.inr hstatus
      · rw [mrcEndStatus_next hhost, hend]
    · -- no buffer: the flag stays set
      have hstep : (t.stepped c).2 = (.memNodeError, { t.node.quiesce with mMemQuiesceEnabled := true }) := by
        simp [stepped, hentered, memoryNodeOnline, callQuiesceSupport, hvalid, haquire, hcurr]
      have hnot : ¬ t.Acquires c := fun h ↦ haquire (h hhost hentered hvalid)
      refine ⟨fun h ↦ absurd h hnot, iff_of_false (fun h ↦ ?_) hnot⟩
      have hdisabled := (h ⟨hhost, Or.inr (congrArg Prod.fst hstep)⟩).disabled
      rw [quiesce_next hhost, hstep] at hdisabled
      cases hdisabled
  · have hstep : (t.stepped c).2 = (.memNodeError, t.node.quiesce) := by
      simp [stepped, hentered, memoryNodeOnline, hvalid]
    have hbuffers : nodeBuffers c.outcome (t.entered c) t.node.quiesce = ([], []) := by
      simp [hentered, nodeBuffers, hvalid]
    have hnext : (t.next c).Clean := hclean.next hhost (congrArg Prod.snd hstep) hbuffers
    refine ⟨fun _ ↦ .idle hnext (Or.inl ?_), iff_of_true (fun _ ↦ hnext) fun _ _ hv ↦ absurd hv hvalid⟩
    rw [mrcStatus_next hhost, hstep, if_pos (Or.inl rfl)]

/-- A call that does not prepare, and leaves things clean. -/
theorem endsClean_iff_of_clean (hnext : (t.next c).Clean)
    (hentered : t.entered c ≠ .memNodeInstallInProgressEntry) : t.EndsClean c ↔ t.Acquires c :=
  iff_of_true (fun _ ↦ hnext) fun _ h ↦ absurd h hentered

/-- The first call of a request, whatever the action. -/
theorem Inv.next_begin (hclean : t.Clean) (hnop : t.node.mrcStatus = .memNodeNop)
    (hhost : c.pSysHost = true) :
    (t.Acquires c → (t.next c).Inv) ∧ (t.EndsClean c ↔ t.Acquires c) := by
  by_cases hinit : c.nodeInit = true
  · have hentered : t.entered c = .memNodeOnline := by
      simp [entered, hnop, mrcStart, NodeCall.action, hinit]
    have hend : t.endStatus c = .memNodeInstallInProgressEntry := by
      simp [endStatus, hnop, mrcStart, NodeCall.action, hinit]
    have hstep : (t.stepped c).2 = (.memNodeOnline, t.node.quiesce) := by
      simp [stepped, hentered, memoryNodeOnline]
    have hnext : (t.next c).Clean :=
      hclean.next hhost (congrArg Prod.snd hstep) (by rw [hentered]; rfl)
    refine ⟨fun _ ↦ .idle hnext (Or.inr ⟨?_, ?_⟩), endsClean_iff_of_clean hnext ?_⟩
    · rw [mrcStatus_next hhost, hstep, hend]
      rfl
    · rw [mrcEndStatus_next hhost, hend]
    · rw [hentered]
      decide
  · by_cases hmap : c.mapUpdate = true
    · refine Inv.next_entry hclean hnop hhost ?_ ?_
      · simp [entered, hnop, mrcStart, NodeCall.action, hinit, hmap]
      · simp [endStatus, hnop, mrcStart, NodeCall.action, hinit, hmap]
    · have hentered : t.entered c = .memNodeOnlineComplete := by
        simp [entered, hnop, mrcStart, NodeCall.action, hinit, hmap]
      have hend : t.endStatus c = .memNodeOnlineComplete := by
        simp [endStatus, hnop, mrcStart, NodeCall.action, hinit, hmap]
      have hstep : (t.stepped c).2 = (.memNodeOnlineComplete, t.node.quiesce) := by
        simp [stepped, hentered, memoryNodeOnline]
      have hnext : (t.next c).Clean :=
        hclean.next hhost (congrArg Prod.snd hstep) (by rw [hentered]; rfl)
      refine ⟨fun _ ↦ .idle hnext (Or.inl ?_), endsClean_iff_of_clean hnext ?_⟩
      · rw [mrcStatus_next hhost, hstep, hend]
        rfl
      · rw [hentered]
        decide

/-- A call while the node is only being initialised. -/
theorem Inv.next_online (hclean : t.Clean) (honline : t.node.mrcStatus = .memNodeOnline)
    (hend : t.node.mrcEndStatus = .memNodeInstallInProgressEntry) (hhost : c.pSysHost = true) :
    (t.next c).Inv ∧ (t.EndsClean c ↔ t.Acquires c) := by
  have hentered : t.entered c = .memNodeOnline := by simp [entered, honline]
  have hend' : t.endStatus c = .memNodeInstallInProgressEntry := by simp [endStatus, honline, hend]
  have hstep : (t.stepped c).2 = (.memNodeOnline, t.node.quiesce) := by
    simp [stepped, hentered, memoryNodeOnline]
  have hnext : (t.next c).Clean :=
    hclean.next hhost (congrArg Prod.snd hstep) (by rw [hentered]; rfl)
  refine ⟨.idle hnext (Or.inr ⟨?_, ?_⟩), endsClean_iff_of_clean hnext ?_⟩
  · rw [mrcStatus_next hhost, hstep, hend']
    rfl
  · rw [mrcEndStatus_next hhost, hend']
  · rw [hentered]
    decide

/-- A call that releases the buffer of a prepared quiesce, to execute or to abort it. -/
theorem clean_of_released {b : ℕ} (hhost : c.pSysHost = true)
    (hstatus : t.node.mrcStatus ≠ .memNodeNop) (hacquired : t.acquired = [b])
    (hreleased : t.released = []) (hq : (t.stepped c).2.2 = ⟨false, none, none⟩)
    (hbuffers : nodeBuffers c.outcome (t.entered c) t.node.quiesce = ([], [b])) :
    (t.next c).Clean := by
  obtain ⟨hacq, hrel⟩ := buffers_next (t := t) hhost
  rw [hbuffers, if_neg hstatus, hacquired, List.append_nil] at hacq
  rw [hbuffers, if_neg hstatus, hreleased, List.nil_append] at hrel
  refine ⟨?_, ?_, ?_, ?_, ?_⟩
  · rw [quiesce_next hhost, hq]
  · rw [quiesce_next hhost, hq]
  · rw [quiesce_next hhost, hq]
  · rw [hacq, hrel]
    exact fun _ ↦ rfl
  · rw [hacq]
    exact List.nodup_singleton b

/-- A call with a quiesce prepared. -/
theorem Inv.next_prepared {b : ℕ} (hquiesce : t.node.quiesce = ⟨true, some b, some b⟩)
    (hacquired : t.acquired = [b]) (hreleased : t.released = [])
    (hstatus : t.node.mrcStatus = .memNodeInstallQuiesce ∨
      t.node.mrcStatus = .memNodeInstallAbortQuiesce)
    (hend : t.node.mrcEndStatus = .memNodeOnlineComplete) (hhost : c.pSysHost = true) :
    (t.next c).Inv ∧ (t.EndsClean c ↔ t.Acquires c) := by
  have hnop : t.node.mrcStatus ≠ .memNodeNop := by
    rcases hstatus with h | h <;> rw [h] <;> decide
  have hend' : t.endStatus c = .memNodeOnlineComplete := by rw [endStatus, if_neg hnop, hend]
  have hentered : t.entered c = .memNodeInstallQuiesce ∨
      t.entered c = .memNodeInstallAbortQuiesce := by
    simp only [entered, if_neg hnop]
    split
    · exact Or.inr rfl
    · exact hstatus
  rcases hentered with hentered | hentered
  · have hstep : (t.stepped c).2 = (.memNodeUpdateStructuresOnline, ⟨false, none, none⟩) := by
      simp [stepped, hentered, memoryNodeOnline, callQuiesceSupport, hquiesce]
    have hnext : (t.next c).Clean := by
      refine clean_of_released hhost hnop hacquired hreleased (congrArg Prod.snd hstep) ?_
      simp [hentered, nodeBuffers, quiesceBuffers, hquiesce]
    refine ⟨.executed hnext ?_ ?_, endsClean_iff_of_clean hnext ?_⟩
    · rw [mrcStatus_next hhost, hstep, hend']
      rfl
    · rw [mrcEndStatus_next hhost, hend']
    · rw [hentered]
      decide
  · have hstep : (t.stepped c).2 = (.memNodeError, ⟨false, none, none⟩) := by
      simp [stepped, hentered, memoryNodeOnline, callQuiesceSupport, hquiesce]
    have hnext : (t.next c).Clean := by
      refine clean_of_released hhost hnop hacquired hreleased (congrArg Prod.snd hstep) ?_
      simp [hentered, nodeBuffers, quiesceBuffers, hquiesce]
    refine ⟨.idle hnext (Or.inl ?_), endsClean_iff_of_clean hnext ?_⟩
    · rw [mrcStatus_next hhost, hstep, hend']
      rfl
    · rw [hentered]
      decide

/-- The last call of a request that succeeds. -/
theorem Inv.next_executed (hclean : t.Clean)
    (hstatus : t.node.mrcStatus = .memNodeUpdateStructuresOnline)
    (hend : t.node.mrcEndStatus = .memNodeOnlineComplete) (hhost : c.pSysHost = true) :
    (t.next c).Inv ∧ (t.EndsClean c ↔ t.Acquires c) := by
  have hentered : t.entered c = .memNodeUpdateStructuresOnline := by simp [entered, hstatus]
  have hend' : t.endStatus c = .memNodeOnlineComplete := by simp [endStatus, hstatus, hend]
  have hstep : (t.stepped c).2 = (.memNodeOnlineComplete, t.node.quiesce) := by
    simp [stepped, hentered, memoryNodeOnline]
  have hnext : (t.next c).Clean :=
    hclean.next hhost (congrArg Prod.snd hstep) (by rw [hentered]; rfl)
  refine ⟨.idle hnext (Or.inl ?_), endsClean_iff_of_clean hnext ?_⟩
  · rw [mrcStatus_next hhost, hstep, hend']
    rfl
  · rw [hentered]
    decide

/-- **One call.** It ends cleanly, if it ends, exactly when it gets the buffer it asks for, and then
the invariant goes on. -/
theorem Inv.next (h : t.Inv) (c : NodeCall) :
    (t.Acquires c → (t.next c).Inv) ∧ (t.EndsClean c ↔ t.Acquires c) := by
  cases hhost : c.pSysHost with
  | false =>
    obtain ⟨hnext, hends, hacquires⟩ := h.next_of_no_host hhost
    exact ⟨fun _ ↦ hnext, iff_of_true hends hacquires⟩
  | true =>
    cases h with
    | idle clean mrcStatus =>
      rcases mrcStatus with hnop | ⟨honline, hend⟩
      · exact Inv.next_begin clean hnop hhost
      · exact (Inv.next_online clean honline hend hhost).imp_left fun hnext _ ↦ hnext
    | prepared b quiesce acquired released mrcStatus mrcEndStatus =>
      exact (Inv.next_prepared quiesce acquired released mrcStatus mrcEndStatus hhost).imp_left
        fun hnext _ ↦ hnext
    | executed clean mrcStatus mrcEndStatus =>
      exact (Inv.next_executed clean mrcStatus mrcEndStatus hhost).imp_left fun hnext _ ↦ hnext

end QuiesceTrace

/-- **The quiesce protocol.** In a run from the start, every request ends clean if and only if every
buffer that is asked for is acquired. -/
theorem endsClean_iff (calls : List NodeCall) :
    Along QuiesceTrace.next QuiesceTrace.EndsClean .boot calls ↔
      Along QuiesceTrace.next QuiesceTrace.Acquires .boot calls := by
  have hstep : ∀ (t : QuiesceTrace) (c : NodeCall), t.Inv → True → t.EndsClean c → (t.next c).Inv :=
    fun t c h _ hends ↦ (h.next c).1 ((h.next c).2.mp hends)
  exact along_iff_of_invariant hstep (fun t c h _ ↦ (h.next c).2) QuiesceTrace.boot_inv
    (along_of_forall (fun _ _ ↦ trivial) _ _)

/-- The first call of a request, in which there is no buffer. -/
def noBufferCall : NodeCall where
  pSysHost := true
  nodeInit := false
  mapUpdate := true
  outcome := ⟨false, true, .outOfResources, 0, .success, .success, fun _ ↦ .success⟩

/-- It ends the request with the quiesce enabled. -/
theorem not_endsClean_noBuffer :
    ¬ Along QuiesceTrace.next QuiesceTrace.EndsClean .boot [noBufferCall] := by
  rintro ⟨h, -⟩
  have hdisabled := (h ⟨rfl, Or.inr rfl⟩).disabled
  cases hdisabled

end PurleyFirmware.Ras
