import PurleyFirmware.PchSmi.EnableMirror

/-!
# The input values of software SMI children

A child of the software SMI protocol is told apart by the value that is written to the APM control
port, so no two children may have the same. A child names its value, or leaves the choice to the
dispatcher; either way the database is searched for the value before the record is inserted.

`SwValuesOk` is what the records have in common in every state that registrations and
unregistrations, of any of the standard protocols, lead to. It rests on two facts: a registration
appends at most one record, whose value was free (`swSmiInputValueFor_eq_some`), and an
unregistration only takes records away.

Two bounds meet here. The choice is made below 0xFF, while a child that names its value may name
0xFF; the value 0 is for those who name it, too.
-/

namespace PurleyFirmware.PchSmi

/-! ### The values in use -/

/-- The value of a record of the software SMI protocol. -/
def DatabaseRecord.swSmiInputValue? (r : DatabaseRecord) : Option Nat :=
  if r.protocolType = .swType then
    match r.childContext with
    | .sw swSmiInputValue => some swSmiInputValue
    | _ => none
  else none

/-- The values in use, in the order of the records. -/
def swSmiInputValues (db : List DatabaseRecord) : List Nat :=
  db.filterMap DatabaseRecord.swSmiInputValue?

/-- The values of software SMI children are in order. -/
structure SwValuesOk (db : List DatabaseRecord) : Prop where
  /-- Each software SMI child has a value, which is not above the maximum. -/
  le_maximum : ∀ r ∈ db, r.protocolType = .swType → ∃ value, r.childContext = .sw value ∧
    value ≤ 0xFF
  /-- No two of them have the same. -/
  nodup : (swSmiInputValues db).Nodup

theorem swSmiInputValue?_eq_some_iff {r : DatabaseRecord} {value : Nat} :
    r.swSmiInputValue? = some value ↔ r.protocolType = .swType ∧ r.childContext = .sw value := by
  unfold DatabaseRecord.swSmiInputValue?
  split
  · cases r.childContext <;> simp_all
  · simp_all

/-- The search of the database finds the values in use. -/
theorem smiInputValueDuplicateCheck_iff {db : List DatabaseRecord} {value : Nat} :
    smiInputValueDuplicateCheck db value = true ↔ value ∉ swSmiInputValues db := by
  simp only [smiInputValueDuplicateCheck, swSmiInputValues, List.all_eq_true, List.mem_filterMap,
    swSmiInputValue?_eq_some_iff, Bool.not_eq_true', Bool.and_eq_false_iff, beq_eq_false_iff_ne,
    not_exists, not_and, ne_eq]
  exact forall₂_congr fun r _ ↦ imp_iff_not_or.symm

/-- **The value a child gets** is in range and free, and it is the one the child named, if it named
one. -/
theorem swSmiInputValueFor_eq_some {db : List DatabaseRecord} {named value : Nat}
    (h : swSmiInputValueFor db named = some value) :
    value ≤ 0xFF ∧ value ∉ swSmiInputValues db ∧ (named ≠ 0xFFFFFFFFFFFFFFFF → value = named) := by
  obtain ⟨taken, htaken⟩ : ∃ taken, taken = if named = 0xFFFFFFFFFFFFFFFF then
    ((List.range' 1 254).find? fun i ↦ smiInputValueDuplicateCheck db i).getD named
    else named := ⟨_, rfl⟩
  unfold swSmiInputValueFor at h
  dsimp only at h
  rw [← htaken] at h
  split at h
  · cases h
  · split at h
    · rename_i hle hfree
      obtain rfl := Option.some.inj h
      refine ⟨Nat.le_of_not_lt hle, smiInputValueDuplicateCheck_iff.1 hfree, fun hnamed ↦ ?_⟩
      rw [htaken, if_neg hnamed]
    · cases h

/-- **The choice fails** exactly when every value below the maximum, from 1 on, is in use. -/
theorem swSmiInputValueFor_eq_none_iff {db : List DatabaseRecord} :
    swSmiInputValueFor db 0xFFFFFFFFFFFFFFFF = none ↔
      ∀ value, 1 ≤ value → value < 0xFF → value ∈ swSmiInputValues db := by
  have hmem : ∀ {value : Nat}, value ∈ List.range' 1 254 ↔ 1 ≤ value ∧ value < 0xFF := by
    intro value
    rw [List.mem_range'_1]
  unfold swSmiInputValueFor
  rw [if_pos rfl]
  cases hfind : (List.range' 1 254).find? fun i ↦ smiInputValueDuplicateCheck db i with
  | none =>
    rw [List.find?_eq_none] at hfind
    refine iff_of_true rfl fun value hone hlt ↦ ?_
    have hused := hfind value (hmem.2 ⟨hone, hlt⟩)
    rwa [smiInputValueDuplicateCheck_iff, not_not] at hused
  | some value =>
    obtain ⟨hone, hlt⟩ := hmem.1 (List.mem_of_find?_eq_some hfind)
    have hfree : smiInputValueDuplicateCheck db value = true := List.find?_some hfind
    have hle : ¬ 0xFF < value := by omega
    refine iff_of_false ?_ fun hall ↦ ?_
    · simp only [Option.getD_some, if_neg hle, if_pos hfree]
      nofun
    · exact smiInputValueDuplicateCheck_iff.1 hfree (hall value hone hlt)

/-! ### Registrations -/

section Register

variable {H : Type} {P : PchHardware H} {s : CoreState H} {q : CoreRequest}

/-- **A registration** is refused and leaves the database alone, or appends the record it was given
a source for, and hands back its address and context. -/
theorem pchSmmCoreRegister_cases (P : PchHardware H) (s : CoreState H) (q : CoreRequest) :
    ((pchSmmCoreRegister P s q).1 ≠ .success ∧
        (pchSmmCoreRegister P s q).2.1.pch.callbackDataBase = s.pch.callbackDataBase) ∨
      ∃ childContext srcDesc clearSource s' link,
        mapToSrcDesc P s q = some (childContext, srcDesc, clearSource, s') ∧
        (pchSmmCoreRegister P s q).1 = .success ∧
        (pchSmmCoreRegister P s q).2.1.pch.callbackDataBase =
          s.pch.callbackDataBase ++ [coreRecord q childContext srcDesc clearSource link] ∧
        (pchSmmCoreRegister P s q).2.2 = some (link, childContext) := by
  rw [pchSmmCoreRegister]
  split
  · exact .inl ⟨by simp, rfl⟩
  · cases hmap : mapToSrcDesc P s q with
    | none => exact .inl ⟨by simp, rfl⟩
    | some found =>
      obtain ⟨childContext, srcDesc, clearSource, s'⟩ := found
      have hdb : s'.pch.callbackDataBase = s.pch.callbackDataBase := by
        obtain rfl | rfl := (mapToSrcDesc_cases hmap).2
        · rfl
        · exact callbackDataBase_programTimers
      dsimp only
      split
      · exact .inl ⟨by simp, hdb⟩
      · refine .inr ⟨childContext, srcDesc, clearSource, s', s'.pch.nextLink, rfl, rfl, ?_, rfl⟩
        refine (callbackDataBase_clearNewSource clearSource srcDesc).trans ?_
        rw [← hdb]
        rfl

/-- What the switch finds for a software SMI child. -/
theorem mapToSrcDesc_sw {named : Nat} (hcontext : q.dispatchContext = .sw named) :
    mapToSrcDesc P s q = (swSmiInputValueFor s.pch.callbackDataBase named).map fun value ↦
      (.sw value, swSourceDesc, none, s) := by
  rw [mapToSrcDesc, hcontext]

/-- A record that is not of the software SMI protocol has no value. -/
theorem swSmiInputValue?_coreRecord_of_ne (hne : q.dispatchContext.protocolType ≠ .swType)
    (childContext : PchSmmContext) (srcDesc : PchSmmSourceDesc)
    (clearSource : Option PchSmmClearSource) (link : Nat) :
    (coreRecord q childContext srcDesc clearSource link).swSmiInputValue? = none := if_neg hne

/-- A software SMI child registers with a value. -/
theorem exists_sw_of_protocolType (h : q.dispatchContext.protocolType = .swType) :
    ∃ named, q.dispatchContext = .sw named := by
  cases hcontext : q.dispatchContext with
  | sw named => exact ⟨named, rfl⟩
  | none | sx | periodicTimer | powerButton | usb | gpi =>
    rw [hcontext] at h
    cases h

/-- **A registration of any protocol keeps the values in order.** -/
theorem SwValuesOk.register (hs : SwValuesOk s.pch.callbackDataBase) :
    SwValuesOk (pchSmmCoreRegister P s q).2.1.pch.callbackDataBase := by
  obtain ⟨-, hdb⟩ | ⟨childContext, srcDesc, clearSource, s', link, hmap, -, hdb, -⟩ :=
    pchSmmCoreRegister_cases P s q
  · rw [hdb]
    exact hs
  · rw [hdb]
    by_cases hsw : q.dispatchContext.protocolType = .swType
    · obtain ⟨named, hcontext⟩ := exists_sw_of_protocolType hsw
      rw [mapToSrcDesc_sw hcontext] at hmap
      obtain ⟨value, hvalue, heq⟩ := Option.map_eq_some_iff.1 hmap
      obtain ⟨rfl, rfl, rfl, rfl⟩ := heq
      obtain ⟨hle, hfree, -⟩ := swSmiInputValueFor_eq_some hvalue
      refine ⟨fun r hr hr' ↦ ?_, ?_⟩
      · obtain hr | hr := List.mem_append.1 hr
        · exact hs.le_maximum r hr hr'
        · rw [List.mem_singleton.1 hr]
          exact ⟨value, rfl, hle⟩
      · have hnew : (coreRecord q (.sw value) swSourceDesc none link).swSmiInputValue? =
            some value := swSmiInputValue?_eq_some_iff.2 ⟨hsw, rfl⟩
        have happend : swSmiInputValues (s.pch.callbackDataBase ++
            [coreRecord q (.sw value) swSourceDesc none link]) =
            swSmiInputValues s.pch.callbackDataBase ++ [value] := by
          simp [swSmiInputValues, List.filterMap_append, hnew]
        rw [happend]
        exact hs.nodup.append (List.nodup_singleton value)
          (List.disjoint_singleton.2 hfree)
    · have hnone := swSmiInputValue?_coreRecord_of_ne hsw childContext srcDesc clearSource link
      refine ⟨fun r hr hr' ↦ ?_, ?_⟩
      · obtain hr | hr := List.mem_append.1 hr
        · exact hs.le_maximum r hr hr'
        · rw [List.mem_singleton.1 hr] at hr'
          exact absurd hr' hsw
      · have happend : swSmiInputValues (s.pch.callbackDataBase ++
            [coreRecord q childContext srcDesc clearSource link]) =
            swSmiInputValues s.pch.callbackDataBase := by
          simp [swSmiInputValues, List.filterMap_append, hnone]
        rw [happend]
        exact hs.nodup

/-- An unregistration keeps the values in order. -/
theorem SwValuesOk.unRegister (hs : SwValuesOk s.pch.callbackDataBase)
    (dispatchHandle : Option Nat) :
    SwValuesOk (pchSmmCoreUnRegister P s.pch dispatchHandle).2.callbackDataBase := by
  cases dispatchHandle with
  | none => exact hs
  | some link =>
    rw [callbackDataBase_pchSmmCoreUnRegister]
    exact ⟨fun r hr ↦ hs.le_maximum r (List.mem_filter.1 hr).1,
      hs.nodup.sublist (List.filter_sublist.filterMap _)⟩

/-- The values are in order after every sequence of calls. -/
theorem swValuesOk_foldl (calls : List CoreCall) (hs : SwValuesOk s.pch.callbackDataBase) :
    SwValuesOk (calls.foldl (coreNext P) s).pch.callbackDataBase := by
  induction calls generalizing s with
  | nil => exact hs
  | cons call calls ih =>
    refine ih ?_
    cases call with
    | register q => exact hs.register
    | unRegister dispatchHandle => exact hs.unRegister dispatchHandle

/-! ### What a registration tells its caller -/

/-- What a registration promises, in the state in which it is made. -/
structure RegistersSwValue (P : PchHardware H) (s : CoreState H) (q : CoreRequest) : Prop where
  /-- A rejected registration leaves the database alone. -/
  rejected : (pchSmmCoreRegister P s q).1 ≠ .success →
    (pchSmmCoreRegister P s q).2.1.pch.callbackDataBase = s.pch.callbackDataBase
  /-- A child that leaves the choice to the dispatcher is rejected, if there is memory for its
  record, only when no value is left to choose from. -/
  chosen : q.dispatchContext = .sw 0xFFFFFFFFFFFFFFFF → q.alloc = true →
    ((pchSmmCoreRegister P s q).1 ≠ .success ↔
      ∀ value, 1 ≤ value → value < 0xFF → value ∈ swSmiInputValues s.pch.callbackDataBase)
  /-- A child that registers is told the value in its record, which was not in use and is the one it
  named, if it named one. -/
  written_back : ∀ named, q.dispatchContext = .sw named →
    (pchSmmCoreRegister P s q).1 = .success → ∃ record value,
      (pchSmmCoreRegister P s q).2.1.pch.callbackDataBase =
        s.pch.callbackDataBase ++ [record] ∧
      record.protocolType = .swType ∧ record.childContext = .sw value ∧
      (pchSmmCoreRegister P s q).2.2 = some (record.link, .sw value) ∧
      value ∉ swSmiInputValues s.pch.callbackDataBase ∧
      (named ≠ 0xFFFFFFFFFFFFFFFF → value = named)

theorem registersSwValue (P : PchHardware H) (s : CoreState H) (q : CoreRequest) :
    RegistersSwValue P s q := by
  refine ⟨fun hstatus ↦ ?_, fun hcontext halloc ↦ ?_, fun named hcontext hstatus ↦ ?_⟩
  · obtain ⟨-, hdb⟩ | ⟨_, _, _, _, _, -, hsuccess, -⟩ := pchSmmCoreRegister_cases P s q
    · exact hdb
    · exact absurd hsuccess hstatus
  · rw [← swSmiInputValueFor_eq_none_iff, pchSmmCoreRegister, halloc, mapToSrcDesc_sw hcontext]
    cases hvalue : swSmiInputValueFor s.pch.callbackDataBase 0xFFFFFFFFFFFFFFFF with
    | none => exact iff_of_true (by simp) rfl
    | some value =>
      have hsrc : compareSources swSourceDesc nullSourceDesc = false := by decide
      refine iff_of_false (fun hne ↦ hne ?_) (Option.some_ne_none value)
      simp only [Bool.not_true, Bool.false_eq_true, if_false, Option.map_some, hsrc]
  · obtain ⟨hne, -⟩ | ⟨childContext, srcDesc, clearSource, s', link, hmap, -, hdb, hout⟩ :=
      pchSmmCoreRegister_cases P s q
    · exact absurd hstatus hne
    · rw [mapToSrcDesc_sw hcontext] at hmap
      obtain ⟨value, hvalue, heq⟩ := Option.map_eq_some_iff.1 hmap
      obtain ⟨rfl, rfl, rfl, rfl⟩ := heq
      obtain ⟨-, hfree, hnamed⟩ := swSmiInputValueFor_eq_some hvalue
      refine ⟨_, value, hdb, ?_, rfl, hout, hfree, hnamed⟩
      change q.dispatchContext.protocolType = .swType
      rw [hcontext]
      rfl

/-- **Software SMI values are unique.** After every sequence of registrations and unregistrations
the values are in order, and the next registration keeps its promises. -/
theorem swValuesOk_and_registersSwValue (P : PchHardware H) (hw : H) (calls : List CoreCall)
    (q : CoreRequest) :
    SwValuesOk (calls.foldl (coreNext P) (initialCore hw)).pch.callbackDataBase ∧
      RegistersSwValue P (calls.foldl (coreNext P) (initialCore hw)) q := by
  have hinit : SwValuesOk (initialCore hw).pch.callbackDataBase := by
    change SwValuesOk []
    exact ⟨fun r hr ↦ absurd hr List.not_mem_nil, List.nodup_nil⟩
  exact ⟨swValuesOk_foldl (P := P) (s := initialCore hw) calls hinit,
    registersSwValue P (calls.foldl (coreNext P) (initialCore hw)) q⟩

end Register

end PurleyFirmware.PchSmi
