import PurleyFirmware.Foundation.Runs
import PurleyFirmware.PchSmi.TcoDispatch

/-!
# The SMI dispatcher and its callbacks

`pchSmmCoreDispatcher` walks the callback database twice: an outer walk looks for the first active
source, an inner walk dispatches every record with the same source. Three record pointers are live
while a callback runs, and a callback may unregister any record.

## Steps

The dispatcher is a labelled system. One step is one turn of a loop, cut once more after a callback
of a standard protocol, because the source reads the record again there. The label is the
**environment** of the step: the registers as the step finds them (they change under the
dispatcher, so what it writes itself is subsumed), whether the calling context matches, what the
callback does, and whether end-of-SMI could be set.

Reading a record that is not in the database any more leads to the program counter `fault`, so
"never reads a freed record" is "never reaches `fault`". The theorem at the end is about whole runs:
if no callback of the run removes a record that the dispatcher still needs, the run never faults.
Which records those are is `neededAfter`.
-/

namespace PurleyFirmware.PchSmi

open PchSmmBitDesc

section Source

variable {H : Type} (P : PchHardware H)

/-- Whether an SMI source is active. The top-level registers have been read before; a bit of theirs
that is clear decides at once, every other bit is read from the hardware. -/
def sourceIsActive (hw : H) (src : PchSmmSourceDesc) (sciEn : Bool)
    (smiEnValue smiStsValue : BitVec 32) : Bool :=
  let isReg := fun (d : PchSmmBitDesc) (offset : BitVec 16) ↦
    d.reg.type == .acpi && d.reg.raw.setWidth 16 == offset
  let isClear := fun (value : BitVec 32) (d : PchSmmBitDesc) ↦ value &&& (1#32 <<< d.bit) == 0
  let isSet := fun (d : PchSmmBitDesc) (offset : BitVec 16) (value : BitVec 32) ↦
    d.isBitDescNull || (!(isReg d offset && isClear value d) && readBitDesc P hw d)
  !(src.flags == .sciEnDependent && sciEn) &&
    (src.pmcSmiSts.isBitDescNull ||
      !(isReg src.pmcSmiSts 0x34 && isClear smiStsValue src.pmcSmiSts)) &&
    src.en.toList.all (fun d ↦ isSet d 0x30 smiEnValue) &&
    src.sts.toList.all (fun d ↦ isSet d 0x34 smiStsValue)

/-- Whether an ACPI operating system is present. -/
def pchSmmGetSciEn (hw : H) : Bool := P.read hw ⟨.acpi, 0x04⟩ 4 &&& 1 != 0

end Source

/-! ### List walks -/

/-- The first node of the list, `none` for the list head. -/
def getFirstNode (db : List DatabaseRecord) : Option Nat := db.head?.map DatabaseRecord.link

/-- The node after a given one, `none` for the list head. -/
def getNextNode : List DatabaseRecord → Nat → Option Nat
  | [], _ => none
  | r :: rs, link => if r.link = link then getFirstNode rs else getNextNode rs link

theorem exists_mem_of_getFirstNode {db : List DatabaseRecord} {link : Nat}
    (h : getFirstNode db = some link) : ∃ r ∈ db, r.link = link := by
  cases db with
  | nil => simp [getFirstNode] at h
  | cons r rs => exact ⟨r, by simp, by simpa [getFirstNode] using h⟩

/-- A next node is a node of the list. -/
theorem exists_mem_of_getNextNode {db : List DatabaseRecord} {link link' : Nat}
    (h : getNextNode db link = some link') : ∃ r ∈ db, r.link = link' := by
  induction db with
  | nil => simp [getNextNode] at h
  | cons r rs ih =>
    unfold getNextNode at h
    split at h
    · obtain ⟨r', hr', hlink⟩ := exists_mem_of_getFirstNode h
      exact ⟨r', List.mem_cons_of_mem _ hr', hlink⟩
    · obtain ⟨r', hr', hlink⟩ := ih h
      exact ⟨r', List.mem_cons_of_mem _ hr', hlink⟩

/-! ### States and environments -/

/-- What a callback may do to the database. -/
inductive CallbackOp
  /-- Unregister a handle through the core service. -/
  | unRegister (dispatchHandle : Nat)
  /-- Register a record. -/
  | register (record : DatabaseRecord)
  deriving DecidableEq, Repr

/-- The environment of one step. -/
structure DispatchEnv (H : Type) where
  /-- The registers as the step finds them. -/
  hw : H
  /-- Whether the calling context matches the context of the record. -/
  contextsMatch : Bool
  /-- What the callback does, if one is invoked. -/
  ops : List CallbackOp
  /-- Whether end-of-SMI could be set. -/
  eosSet : Bool

/-- Where the dispatcher is, with the pointers that are live there. -/
inductive DispatchPc
  /-- At the entry. -/
  | start
  /-- At the test of the outermost loop. -/
  | outer
  /-- At the test of the search for an active source. -/
  | search (sciEn : Bool) (smiEnValue smiStsValue : BitVec 32) (linkInDb : Option Nat)
  /-- At the test of the loop that exhausts the records of the active source. -/
  | exhaust (recordInDb : Nat) (activeSource : PchSmmSourceDesc) (linkToExhaust : Option Nat)
  /-- After the callback of a standard protocol. -/
  | afterCallback (recordInDb : Nat) (activeSource : PchSmmSourceDesc) (recordToExhaust : Nat)
    (linkToExhaust : Option Nat)
  /-- At the exit. -/
  | done
  /-- After reading a record that is not in the database. -/
  | fault
  deriving DecidableEq, Repr

/-- The state of the dispatcher during one SMI. -/
structure DispatchState (H : Type) where
  /-- The callback database and the registers. -/
  pch : PchSmiDispatcher H
  /-- Whether end-of-SMI has been set. -/
  eosSet : Bool
  /-- Used to prevent infinite loops. -/
  escapeCount : Nat
  /-- Whether the system has to be put to sleep. -/
  sxChildWasDispatched : Bool
  /-- Where the dispatcher is. -/
  pc : DispatchPc

variable {H : Type} (P : PchHardware H)

/-- The database after one operation of a callback. -/
def CallbackOp.run (d : PchSmiDispatcher H) : CallbackOp → PchSmiDispatcher H
  | .unRegister dispatchHandle => (pchSmmCoreUnRegister P d (some dispatchHandle)).2
  | .register record => d.insertTailList (fun link ↦ { record with link }) fun _ ↦ rfl

/-- The database after a callback. -/
def runCallback (d : PchSmiDispatcher H) (ops : List CallbackOp) : PchSmiDispatcher H :=
  ops.foldl (CallbackOp.run P) d

/-- Look a pointer up in the database; a pointer to a freed record finds nothing. -/
def PchSmiDispatcher.record? (d : PchSmiDispatcher H) (link : Nat) : Option DatabaseRecord :=
  d.callbackDataBase.find? fun r ↦ r.link == link

/-- Whether a record is dispatched: it has the active source, and its context matches if it asks for
one. -/
def isDispatched (r : DatabaseRecord) (activeSource : PchSmmSourceDesc) (contextsMatch : Bool) :
    Bool :=
  compareSources r.srcDesc activeSource && (!r.contextFunctions.getContext || contextsMatch)

/-- Whether the callback of a dispatched record is invoked. Records of the standard protocols are
asked for a callback, the others are not. -/
def invokesCallback (r : DatabaseRecord) (activeSource : PchSmmSourceDesc) (contextsMatch : Bool) :
    Bool :=
  isDispatched r activeSource contextsMatch &&
    (r.protocolType == .pchSmiDispatchType || r.callback.isSome)

/-! ### The step function -/

/-- One turn of the search for an active source. -/
def searchStep (s : DispatchState H) (env : DispatchEnv H) (sciEn : Bool)
    (smiEnValue smiStsValue : BitVec 32) : Option Nat → DispatchState H
  | none => { s with pc := .outer }
  | some linkInDb =>
    match s.pch.record? linkInDb with
    | none => { s with pc := .fault }
    | some recordInDb =>
      if sourceIsActive P env.hw recordInDb.srcDesc sciEn smiEnValue smiStsValue then
        { s with
          sxChildWasDispatched := s.sxChildWasDispatched || recordInDb.protocolType == .sxType
          pc := .exhaust linkInDb recordInDb.srcDesc (some linkInDb) }
      else
        let next := getNextNode s.pch.callbackDataBase linkInDb
        { s with
          eosSet := if next.isNone then env.eosSet else s.eosSet
          pc := .search sciEn smiEnValue smiStsValue next }

/-- One turn of the loop over the records of the active source. The next node is fetched before the
callback runs. When the list is exhausted the source is cleared through the hook of the record that
was found first. -/
def exhaustStep (s : DispatchState H) (env : DispatchEnv H) (recordInDb : Nat)
    (activeSource : PchSmmSourceDesc) : Option Nat → DispatchState H
  | none =>
    match s.pch.record? recordInDb with
    | none => { s with pc := .fault }
    | some _ => { s with eosSet := env.eosSet, pc := .outer }
  | some recordToExhaust =>
    match s.pch.record? recordToExhaust with
    | none => { s with pc := .fault }
    | some r =>
      let next := getNextNode s.pch.callbackDataBase recordToExhaust
      if isDispatched r activeSource env.contextsMatch then
        if r.protocolType = .pchSmiDispatchType then
          { s with
            pch := runCallback P s.pch env.ops, pc := .exhaust recordInDb activeSource next }
        else if r.callback.isSome then
          { s with
            pch := runCallback P s.pch env.ops
            pc := .afterCallback recordInDb activeSource recordToExhaust next }
        else { s with pc := .exhaust recordInDb activeSource next }
      else { s with pc := .exhaust recordInDb activeSource next }

/-- One step of `pchSmmCoreDispatcher`. -/
def dispatchStep (s : DispatchState H) (env : DispatchEnv H) : DispatchState H :=
  match s.pc with
  | .start => { s with pc := if s.pch.callbackDataBase.isEmpty then .done else .outer }
  | .outer =>
    if !s.eosSet && 0 < s.escapeCount then
      { s with
        escapeCount := s.escapeCount - 1
        pc := .search (pchSmmGetSciEn P env.hw) ((P.read env.hw ⟨.acpi, 0x30⟩ 4).setWidth 32)
          ((P.read env.hw ⟨.acpi, 0x34⟩ 4).setWidth 32) (getFirstNode s.pch.callbackDataBase) }
    else { s with pc := .done }
  | .search sciEn smiEnValue smiStsValue linkInDb =>
    searchStep P s env sciEn smiEnValue smiStsValue linkInDb
  | .exhaust recordInDb activeSource linkToExhaust =>
    exhaustStep P s env recordInDb activeSource linkToExhaust
  | .afterCallback recordInDb activeSource recordToExhaust linkToExhaust =>
    match s.pch.record? recordToExhaust with
    | none => { s with pc := .fault }
    | some r =>
      { s with
        sxChildWasDispatched := s.sxChildWasDispatched || r.protocolType == .sxType
        pc := .exhaust recordInDb activeSource linkToExhaust }
  | .done => s
  | .fault => s

/-- The dispatcher at its entry. -/
def dispatchEntry (d : PchSmiDispatcher H) : DispatchState H where
  pch := d
  eosSet := false
  escapeCount := 3
  sxChildWasDispatched := false
  pc := .start

/-- The dispatcher as a labelled system: any database at the entry, any environment at each step. -/
def dispatchSystem : LabelledSystem (DispatchState H) (DispatchEnv H) where
  init s := ∃ d, s = dispatchEntry d
  step s env s' := s' = dispatchStep P s env

theorem reachableUnder_dispatchEntry (ok : DispatchState H → DispatchEnv H → Prop)
    (d : PchSmiDispatcher H) : (dispatchSystem P).ReachableUnder ok (dispatchEntry d) :=
  .init ⟨d, rfl⟩

/-! ### What the dispatcher still needs -/

/-- The records the dispatcher reads after the callback of `recordToExhaust` has returned: the one
whose hook clears the source, the one already fetched as the next, and, unless the record is of a
PCH specific kind, the dispatched record itself. -/
def neededAfter (d : PchSmiDispatcher H) (recordInDb recordToExhaust : Nat) : List Nat :=
  recordInDb :: ((getNextNode d.callbackDataBase recordToExhaust).toList ++
    match d.record? recordToExhaust with
    | some r => if r.protocolType = .pchSmiDispatchType then [] else [recordToExhaust]
    | none => [])

/-- A callback keeps a list of records if none of its operations unregisters one of them. -/
def Keeps (ops : List CallbackOp) (links : List Nat) : Prop :=
  ∀ link ∈ links, CallbackOp.unRegister link ∉ ops

/-- The condition on a step: a callback that is invoked keeps the records the dispatcher still
needs. Steps that invoke none are unconstrained. -/
def CallbackKeepsNeeded (s : DispatchState H) (env : DispatchEnv H) : Prop :=
  match s.pc with
  | .exhaust recordInDb activeSource (some recordToExhaust) =>
    ∀ r ∈ s.pch.record? recordToExhaust,
      invokesCallback r activeSource env.contextsMatch = true →
      Keeps env.ops (neededAfter s.pch recordInDb recordToExhaust)
  | _ => True

instance (ops : List CallbackOp) (links : List Nat) : Decidable (Keeps ops links) :=
  inferInstanceAs (Decidable (∀ link ∈ links, CallbackOp.unRegister link ∉ ops))

instance (s : DispatchState H) (env : DispatchEnv H) : Decidable (CallbackKeepsNeeded s env) := by
  unfold CallbackKeepsNeeded
  split <;> infer_instance

/-! ### Records that are kept -/

theorem record?_isSome_iff (d : PchSmiDispatcher H) (link : Nat) :
    (d.record? link).isSome ↔ d.IsLinked link := by
  simp [PchSmiDispatcher.record?, PchSmiDispatcher.IsLinked]

/-- One operation keeps every record it does not name. -/
theorem isLinked_run (d : PchSmiDispatcher H) {op : CallbackOp} {link : Nat}
    (hne : op ≠ .unRegister link) (h : d.IsLinked link) : (op.run P d).IsLinked link := by
  cases op with
  | unRegister dispatchHandle =>
    refine (isLinked_pchSmmCoreUnRegister P d dispatchHandle link).2 ⟨h, fun heq ↦ ?_⟩
    exact hne (heq ▸ rfl)
  | register record => exact (d.isLinked_insertTailList _ link).2 (Or.inl h)

/-- **A callback keeps every record it does not unregister**, by induction on its operations. -/
theorem isLinked_runCallback {ops : List CallbackOp} {link : Nat} (d : PchSmiDispatcher H)
    (hkeep : CallbackOp.unRegister link ∉ ops) (h : d.IsLinked link) :
    (runCallback P d ops).IsLinked link := by
  induction ops generalizing d with
  | nil => exact h
  | cons op ops ih =>
    rw [List.mem_cons, not_or] at hkeep
    exact ih (op.run P d) hkeep.2 (isLinked_run P d (Ne.symm hkeep.1) h)

/-! ### The invariant -/

/-- The pointers that are live at each program counter. -/
def liveLinks : DispatchPc → List Nat
  | .search _ _ _ linkInDb => linkInDb.toList
  | .exhaust recordInDb _ linkToExhaust => recordInDb :: linkToExhaust.toList
  | .afterCallback recordInDb _ recordToExhaust linkToExhaust =>
    recordInDb :: recordToExhaust :: linkToExhaust.toList
  | _ => []

/-- The invariant of dispatch: no fault so far, and every live pointer is in the database. -/
structure DispatchInv (s : DispatchState H) : Prop where
  /-- No freed record has been read. -/
  not_fault : s.pc ≠ .fault
  /-- Live pointers are linked. -/
  live : ∀ link ∈ liveLinks s.pc, s.pch.IsLinked link

/-- A next or first node that was just fetched is linked. -/
theorem isLinked_of_mem_getNextNode {d : PchSmiDispatcher H} {link link' : Nat}
    (h : link' ∈ (getNextNode d.callbackDataBase link).toList) : d.IsLinked link' :=
  exists_mem_of_getNextNode (Option.mem_toList.1 h)

theorem DispatchInv.searchStep {s : DispatchState H} {env : DispatchEnv H} {sciEn : Bool}
    {smiEnValue smiStsValue : BitVec 32} {linkInDb : Option Nat}
    (hlive : ∀ link ∈ linkInDb.toList, s.pch.IsLinked link) :
    DispatchInv (searchStep P s env sciEn smiEnValue smiStsValue linkInDb) := by
  cases linkInDb with
  | none => exact ⟨by simp [PchSmi.searchStep], by simp [PchSmi.searchStep, liveLinks]⟩
  | some linkInDb =>
    have hlinked := hlive linkInDb (by simp)
    obtain ⟨r, hr⟩ := Option.isSome_iff_exists.1 ((record?_isSome_iff s.pch linkInDb).2 hlinked)
    simp only [PchSmi.searchStep, hr]
    split
    · exact ⟨by simp, by simpa [liveLinks] using hlinked⟩
    · exact ⟨by simp, fun link h ↦ isLinked_of_mem_getNextNode h⟩

theorem DispatchInv.exhaustStep {s : DispatchState H} {env : DispatchEnv H} {recordInDb : Nat}
    {activeSource : PchSmmSourceDesc} {linkToExhaust : Option Nat}
    (hrec : s.pch.IsLinked recordInDb) (hlive : ∀ link ∈ linkToExhaust.toList, s.pch.IsLinked link)
    (hkeep : ∀ recordToExhaust r, linkToExhaust = some recordToExhaust →
      s.pch.record? recordToExhaust = some r →
      invokesCallback r activeSource env.contextsMatch = true →
      Keeps env.ops (neededAfter s.pch recordInDb recordToExhaust)) :
    DispatchInv (exhaustStep P s env recordInDb activeSource linkToExhaust) := by
  cases linkToExhaust with
  | none =>
    obtain ⟨r, hr⟩ := Option.isSome_iff_exists.1 ((record?_isSome_iff s.pch recordInDb).2 hrec)
    simp only [PchSmi.exhaustStep, hr]
    exact ⟨by simp, by simp [liveLinks]⟩
  | some recordToExhaust =>
    have hlinked := hlive recordToExhaust (by simp)
    obtain ⟨r, hr⟩ :=
      Option.isSome_iff_exists.1 ((record?_isSome_iff s.pch recordToExhaust).2 hlinked)
    have hnext : ∀ link ∈ (getNextNode s.pch.callbackDataBase recordToExhaust).toList,
        s.pch.IsLinked link := fun link h ↦ isLinked_of_mem_getNextNode h
    -- without a callback the database is the same and the next node has just been fetched
    have hskip : DispatchInv
        { s with
          pc := .exhaust recordInDb activeSource
            (getNextNode s.pch.callbackDataBase recordToExhaust) } := by
      refine ⟨by simp, fun link h ↦ ?_⟩
      rcases List.mem_cons.1 h with rfl | h
      · exact hrec
      · exact hnext link h
    simp only [PchSmi.exhaustStep, hr]
    split
    · rename_i hdispatched
      by_cases hinvokes : invokesCallback r activeSource env.contextsMatch = true
      · have hkeeps := hkeep recordToExhaust r rfl hr hinvokes
        have hafter : ∀ link, s.pch.IsLinked link →
            link ∈ neededAfter s.pch recordInDb recordToExhaust →
            (runCallback P s.pch env.ops).IsLinked link := fun link h hneeded ↦
          isLinked_runCallback P s.pch (hkeeps link hneeded) h
        have hrec' := hafter recordInDb hrec (by simp [neededAfter])
        have hnext' : ∀ link ∈ (getNextNode s.pch.callbackDataBase recordToExhaust).toList,
            (runCallback P s.pch env.ops).IsLinked link := fun link h ↦
          hafter link (hnext link h) (List.mem_cons_of_mem _ (List.mem_append_left _ h))
        split
        · refine ⟨by simp, fun link h ↦ ?_⟩
          rcases List.mem_cons.1 h with rfl | h
          · exact hrec'
          · exact hnext' link h
        · rename_i hproto
          split
          · refine ⟨by simp, fun link h ↦ ?_⟩
            rcases List.mem_cons.1 h with rfl | h
            · exact hrec'
            · rcases List.mem_cons.1 h with rfl | h
              · exact hafter _ hlinked (by simp [neededAfter, hr, hproto])
              · exact hnext' link h
          · exact hskip
      · -- a dispatched record whose callback is not invoked has none
        simp only [invokesCallback, hdispatched, Bool.true_and, Bool.or_eq_true, beq_iff_eq,
          not_or] at hinvokes
        rw [if_neg hinvokes.1, if_neg hinvokes.2]
        exact hskip
    · exact hskip

/-- **Every guarded step keeps the invariant.** -/
theorem DispatchInv.dispatchStep {s : DispatchState H} (hs : DispatchInv s) {env : DispatchEnv H}
    (hkeep : CallbackKeepsNeeded s env) : DispatchInv (dispatchStep P s env) := by
  obtain ⟨hfault, hlive⟩ := hs
  unfold PchSmi.dispatchStep
  rcases hpc : s.pc with - | - | ⟨sciEn, smiEn, smiSts, link⟩ | ⟨rec, active, link⟩ |
    ⟨rec, active, cur, link⟩ | - | -
  · -- start
    simp only
    split <;> exact ⟨by simp, by simp [liveLinks]⟩
  · -- outer
    simp only
    split
    · exact ⟨by simp, fun link h ↦ exists_mem_of_getFirstNode (Option.mem_toList.1 h)⟩
    · exact ⟨by simp, by simp [liveLinks]⟩
  · -- search
    rw [hpc] at hlive
    exact DispatchInv.searchStep P hlive
  · -- exhaust
    rw [hpc] at hlive
    refine DispatchInv.exhaustStep P (hlive rec (by simp [liveLinks]))
      (fun link' h ↦ hlive link' (List.mem_cons_of_mem _ h)) ?_
    rintro recordToExhaust r rfl hr hinvokes
    rw [CallbackKeepsNeeded, hpc] at hkeep
    exact hkeep r hr hinvokes
  · -- afterCallback
    rw [hpc] at hlive
    have hcur := hlive cur (by simp [liveLinks])
    obtain ⟨r, hr⟩ := Option.isSome_iff_exists.1 ((record?_isSome_iff s.pch cur).2 hcur)
    simp only [hr]
    refine ⟨by simp, fun link' h ↦ ?_⟩
    rcases List.mem_cons.1 h with rfl | h
    · exact hlive _ (by simp [liveLinks])
    · exact hlive link' (List.mem_cons_of_mem _ (List.mem_cons_of_mem _ h))
  · -- done
    exact ⟨by simp [hpc], by simp [hpc, liveLinks]⟩
  · exact absurd hpc hfault

/-- **Runs whose callbacks keep what the dispatcher needs never read a freed record.** -/
theorem dispatch_never_faults {s : DispatchState H}
    (hs : (dispatchSystem P).ReachableUnder CallbackKeepsNeeded s) : s.pc ≠ .fault := by
  have hinv : DispatchInv s := by
    refine hs.invariant (fun s hinit ↦ ?_) fun s env s' _ hs hkeep hstep ↦ ?_
    · obtain ⟨d, rfl⟩ := hinit
      exact ⟨by simp [dispatchEntry], by simp [dispatchEntry, liveLinks]⟩
    · subst hstep
      exact hs.dispatchStep P hkeep
  exact hinv.not_fault

/-! ### Two runs -/

/-- An environment with every register bit set, in which a callback does the given operations. -/
def busyEnv (ops : List CallbackOp) : DispatchEnv (PchSmmAddress → BitVec 64) where
  hw := fun _ ↦ BitVec.allOnes 64
  contextsMatch := true
  ops := ops
  eosSet := true

/-- The dispatcher after some TCO registrations on an empty database. -/
def tcoRegistered (services : List TcoService) : PchSmiDispatcher (PchSmmAddress → BitVec 64) :=
  (services.map fun service ↦ .register service true (some 0)).foldl
    (tcoNext PchHardware.registerFile) (initialDispatcher fun _ ↦ 0)

/-- A guarded run: the callback of the first record unregisters the third, which the dispatcher does
not need. -/
theorem dispatch_never_faults_thirdUnRegistered :
    let envs := [busyEnv [], busyEnv [], busyEnv [], busyEnv [.unRegister 2], busyEnv [],
      busyEnv []]
    let s := envs.foldl (dispatchStep PchHardware.registerFile)
      (dispatchEntry (tcoRegistered [.osTco, .mch, .nmi]))
    s.pc = .outer ∧ s.pc ≠ .fault := by
  intro envs s
  exact ⟨by decide, dispatch_never_faults PchHardware.registerFile
    ((reachableUnder_dispatchEntry _ _ _).foldl (fun _ _ ↦ rfl) (by decide))⟩

/-- **A callback that unregisters itself makes the dispatcher read its freed record**: the record
that was found first is asked for its clear hook after the callbacks. -/
theorem dispatch_faults_selfUnRegistered :
    let envs := [busyEnv [], busyEnv [], busyEnv [], busyEnv [.unRegister 0], busyEnv []]
    let s := envs.foldl (dispatchStep PchHardware.registerFile)
      (dispatchEntry (tcoRegistered [.osTco]))
    (dispatchSystem PchHardware.registerFile).Reachable s ∧ s.pc = .fault := by
  intro envs s
  refine ⟨(reachableUnder_dispatchEntry _ _ _).foldl (fun _ _ ↦ rfl) ?_, by decide⟩
  exact ⟨trivial, trivial, trivial, trivial, trivial, trivial⟩

end PurleyFirmware.PchSmi
