import Mathlib.Data.List.Perm.Basic
import Mathlib.Logic.Function.Basic
import PurleyFirmware.Foundation.Loops

/-!
# The system memory map when a socket comes online

The memory map that the firmware hands on is a list of elements, ranges of memory with the socket and
the node they belong to. When a socket comes online, `UpdateSystemMemoryMapStruct` walks the address
decoder rules of that socket and writes an element for every rule that maps memory.

It writes them from the start of the list and takes their number for the length of the whole. Ranges
and order of the new elements are right (`newElements_pairwise`), but whatever the list held of other
sockets is overwritten or cut off. So the update does what it should for a list without such elements,
and where it is skipped, for a list that has the new ones already (`updatesMap_iff`).

Of the memory map only what this code and the tables made from it use is here.
-/

namespace PurleyFirmware.Ras

/-! ### The map and the rules -/

/-- `SYSTEM_MEMORY_MAP_ELEMENT`. Addresses and sizes are in units of 64 MB. -/
structure MemoryMapElement where
  /-- The socket. -/
  socketId : ℕ
  /-- The node. -/
  nodeId : ℕ
  /-- Where it starts. -/
  baseAddress : ℕ
  /-- Its size. -/
  elementSize : ℕ
  /-- Type and interleave bitmaps, which the update does not write. -/
  attributes : ℕ
  deriving DecidableEq

/-- `SystemMemoryMapHob`: the array of elements, of which the first `numberEntries` are the list. -/
structure SystemMemoryMap where
  /-- The number of elements in the list. -/
  numberEntries : ℕ
  /-- The array. -/
  element : ℕ → MemoryMapElement

/-- The list of elements. -/
def SystemMemoryMap.elements (m : SystemMemoryMap) : List MemoryMapElement :=
  (List.range m.numberEntries).map m.element

/-- Types of memory that a rule can map to. -/
inductive SadType
  /-- `MEM_TYPE_CTRL`, the control region of a memory module. -/
  | memTypeCtrl
  /-- Any other. -/
  | memory
  deriving DecidableEq

/-- A rule of the source address decoder. -/
structure SadRule where
  /-- It is in use. -/
  enable : Bool
  /-- It is for I/O. -/
  iotEnabled : Bool
  /-- What it maps to. -/
  type : SadType
  /-- Where it ends. -/
  limit : ℕ
  /-- The first node of its interleave list. -/
  node : ℕ
  deriving DecidableEq

/-- What the update reads of the host structure. -/
structure SocketHost where
  /-- `inComingSktId`. -/
  inComingSktId : ℕ
  /-- The socket is present. -/
  present : Bool
  /-- Its memory is enabled and has a module. -/
  populated : Bool
  /-- `NUMA_AWARE`. -/
  numaAware : Bool
  /-- The decoder rules of the socket. -/
  sad : List SadRule

/-- The limit of the rule before, 0 for the first. -/
def previousLimit (sad : List SadRule) (i : ℕ) : ℕ :=
  if i = 0 then 0 else ((sad[i - 1]?).map (·.limit)).getD 0

/-- A rule is reported: in use, not for I/O and not for a control region. -/
def SadRule.reported (r : SadRule) : Bool :=
  r.enable && !r.iotEnabled && r.type != .memTypeCtrl

/-! ### `UpdateSystemMemoryMapStruct` -/

/-- The element written for rule `i`. -/
def writeElement (socket : ℕ) (sad : List SadRule) (i : ℕ) (r : SadRule) (e : MemoryMapElement) :
    MemoryMapElement :=
  { e with
    socketId := socket
    nodeId := r.node
    baseAddress := previousLimit sad i
    elementSize := r.limit - previousLimit sad i }

/-- One round of the loop over the rules. Its state is the array and `ScratchCounter`. -/
def updateElement (socket : ℕ) (sad : List SadRule) (s : (ℕ → MemoryMapElement) × ℕ)
    (p : SadRule × ℕ) : (ℕ → MemoryMapElement) × ℕ :=
  if p.1.reported then
    (Function.update s.1 s.2 (writeElement socket sad p.2 p.1 (s.1 s.2)), s.2 + 1)
  else s

/-- The loop. -/
def updateElements (socket : ℕ) (sad : List SadRule) (element : ℕ → MemoryMapElement) :
    (ℕ → MemoryMapElement) × ℕ :=
  sad.zipIdx.foldl (updateElement socket sad) (element, 0)

/-- The update gets to the elements. -/
def SocketHost.updates (host : SocketHost) : Bool := host.present && host.populated && host.numaAware

/-- `UpdateSystemMemoryMapStruct`. -/
def updateSystemMemoryMapStruct (host : SocketHost) (m : SystemMemoryMap) : SystemMemoryMap :=
  if host.updates then
    let s := updateElements host.inComingSktId host.sad m.element
    { numberEntries := s.2, element := s.1 }
  else m

/-! ### What it should do -/

/-- The ranges that the rules of the socket should add, as socket, start and size. -/
def newRanges (host : SocketHost) : List (ℕ × ℕ × ℕ) :=
  (host.sad.zipIdx.filter (·.1.reported)).map fun p ↦
    (host.inComingSktId, previousLimit host.sad p.2, p.1.limit - previousLimit host.sad p.2)

/-- Socket, start and size of an element. -/
def MemoryMapElement.range (e : MemoryMapElement) : ℕ × ℕ × ℕ :=
  (e.socketId, e.baseAddress, e.elementSize)

/-- The elements of other sockets. -/
def otherElements (host : SocketHost) (m : SystemMemoryMap) : List MemoryMapElement :=
  m.elements.filter (·.socketId ≠ host.inComingSktId)

/-- After the update the list holds the elements of other sockets, unchanged, and one element for
each range that the rules add; these are apart and ascending; and their number is right. -/
structure UpdatesMap (host : SocketHost) (m m' : SystemMemoryMap) : Prop where
  /-- The elements. -/
  elements : ∃ new, m'.elements.Perm (otherElements host m ++ new) ∧
    new.map MemoryMapElement.range = newRanges host ∧
    new.Pairwise fun a b ↦ a.baseAddress + a.elementSize ≤ b.baseAddress
  /-- The number. -/
  numberEntries : m'.numberEntries = m'.elements.length

/-! ### What it does -/

section Update

variable {host : SocketHost} {m : SystemMemoryMap} {socket : ℕ} {sad : List SadRule}

@[simp] theorem SystemMemoryMap.length_elements (m : SystemMemoryMap) :
    m.elements.length = m.numberEntries := by
  rw [SystemMemoryMap.elements, List.length_map, List.length_range]

/-- The loop over some of the rules: it goes on behind the elements written before, and leaves those
as they are. -/
theorem updateElements_from (socket : ℕ) (sad : List SadRule) (rules : List (SadRule × ℕ)) :
    ∀ s : (ℕ → MemoryMapElement) × ℕ,
      (rules.foldl (updateElement socket sad) s).2 =
          s.2 + (rules.filter (·.1.reported)).length ∧
        (∀ j < s.2, (rules.foldl (updateElement socket sad) s).1 j = s.1 j) ∧
        (List.range' s.2 (rules.filter (·.1.reported)).length).map
            (fun j ↦ ((rules.foldl (updateElement socket sad) s).1 j).range) =
          (rules.filter (·.1.reported)).map fun p ↦
            (socket, previousLimit sad p.2, p.1.limit - previousLimit sad p.2) := by
  induction rules with
  | nil => exact fun s ↦ ⟨rfl, fun _ _ ↦ rfl, rfl⟩
  | cons p rules ih =>
    intro s
    rw [List.foldl_cons]
    by_cases hp : p.1.reported = true
    · have hstep : updateElement socket sad s p =
          (Function.update s.1 s.2 (writeElement socket sad p.2 p.1 (s.1 s.2)), s.2 + 1) :=
        if_pos hp
      have hfilter : (p :: rules).filter (·.1.reported) = p :: rules.filter (·.1.reported) :=
        List.filter_cons_of_pos hp
      rw [hstep, hfilter]
      obtain ⟨hcount, hbefore, hranges⟩ := ih
        (Function.update s.1 s.2 (writeElement socket sad p.2 p.1 (s.1 s.2)), s.2 + 1)
      dsimp only at hcount hbefore hranges
      refine ⟨by rw [hcount, List.length_cons]; omega, fun j hj ↦ ?_, ?_⟩
      · rw [hbefore j (by omega)]
        exact Function.update_of_ne (Nat.ne_of_lt hj) _ _
      · rw [List.length_cons, List.range'_succ, List.map_cons, List.map_cons, hranges,
          hbefore s.2 (Nat.lt_succ_self _), Function.update_self]
        rfl
    · have hstep : updateElement socket sad s p = s := if_neg hp
      have hfilter : (p :: rules).filter (·.1.reported) = rules.filter (·.1.reported) :=
        List.filter_cons_of_neg hp
      rw [hstep, hfilter]
      exact ih s

/-- The new list is the list of the new ranges. -/
theorem elements_update (hupdates : host.updates = true) :
    (updateSystemMemoryMapStruct host m).elements.map MemoryMapElement.range = newRanges host := by
  obtain ⟨hcount, -, hranges⟩ := updateElements_from host.inComingSktId host.sad
    host.sad.zipIdx (m.element, 0)
  simp only [Nat.zero_add] at hcount
  rw [updateSystemMemoryMapStruct, if_pos hupdates, SystemMemoryMap.elements, List.map_map]
  simp only [updateElements] at hcount hranges ⊢
  rw [hcount, List.range_eq_range']
  exact hranges

/-- Every new range is of the socket. -/
theorem socket_of_mem_newRanges {r : ℕ × ℕ × ℕ} (h : r ∈ newRanges host) :
    r.1 = host.inComingSktId := by
  obtain ⟨p, -, rfl⟩ := List.mem_map.mp h
  rfl

/-- If no limit is below the one before, the new ranges are apart and ascending. -/
theorem newRanges_pairwise
    (hsorted : host.sad.Pairwise fun a b ↦ a.limit ≤ b.limit) :
    (newRanges host).Pairwise fun a b ↦ a.2.1 + a.2.2 ≤ b.2.1 := by
  have hlimit : ∀ i j (hi : i < host.sad.length) (hj : j < host.sad.length), i ≤ j →
      host.sad[i].limit ≤ host.sad[j].limit := by
    intro i j hi hj hij
    rcases Nat.eq_or_lt_of_le hij with rfl | hlt
    · exact le_rfl
    · exact List.pairwise_iff_getElem.mp hsorted i j hi hj hlt
  have hprev : ∀ j (hj : j - 1 < host.sad.length), 0 < j →
      previousLimit host.sad j = host.sad[j - 1].limit := by
    intro j hj hpos
    rw [previousLimit, if_neg (Nat.ne_of_gt hpos), List.getElem?_eq_getElem hj]
    rfl
  have hle : ∀ i (hi : i < host.sad.length), previousLimit host.sad i ≤ host.sad[i].limit := by
    intro i hi
    rcases Nat.eq_zero_or_pos i with rfl | hpos
    · exact Nat.zero_le _
    · rw [hprev i (by omega) hpos]
      exact hlimit _ _ _ _ (by omega)
  rw [newRanges, List.pairwise_map]
  refine List.Pairwise.filter _ (List.pairwise_iff_getElem.mpr fun i j hi hj hij ↦ ?_)
  rw [List.length_zipIdx] at hi hj
  simp only [List.getElem_zipIdx, Nat.zero_add]
  rw [Nat.add_sub_cancel' (hle i hi), hprev j (by omega) (by omega)]
  exact hlimit _ _ _ _ (by omega)

/-- **When the update does what it should.** Where it gets to the elements, exactly if none of them
was of another socket; where it does not, exactly if those of the socket are the new ones already. -/
theorem updatesMap_iff (host : SocketHost) (m : SystemMemoryMap)
    (hsorted : host.sad.Pairwise fun a b ↦ a.limit ≤ b.limit) :
    UpdatesMap host m (updateSystemMemoryMapStruct host m) ↔
      if host.updates then otherElements host m = []
      else ((m.elements.filter (·.socketId = host.inComingSktId)).map
        MemoryMapElement.range).Perm (newRanges host) := by
  have hpairwise : ∀ new : List MemoryMapElement, new.map MemoryMapElement.range = newRanges host →
      new.Pairwise fun a b ↦ a.baseAddress + a.elementSize ≤ b.baseAddress := by
    intro new hnew
    have hranges := newRanges_pairwise hsorted
    rw [← hnew, List.pairwise_map] at hranges
    exact hranges
  split
  · rename_i hupdates
    have hnew := elements_update (m := m) hupdates
    constructor
    · intro h
      obtain ⟨new, hperm, hranges, -⟩ := h.elements
      have hlength := hperm.length_eq
      have hsame := congrArg List.length (hnew.trans hranges.symm)
      rw [List.length_append] at hlength
      rw [List.length_map, List.length_map] at hsame
      exact List.length_eq_zero_iff.mp (by omega)
    · intro hother
      refine ⟨⟨_, ?_, hnew, hpairwise _ hnew⟩, (SystemMemoryMap.length_elements _).symm⟩
      rw [hother, List.nil_append]
  · rename_i hupdates
    rw [updateSystemMemoryMapStruct, if_neg hupdates]
    constructor
    · intro h
      obtain ⟨new, hperm, hranges, -⟩ := h.elements
      have hown := hperm.filter (·.socketId = host.inComingSktId)
      have hnone : (otherElements host m).filter (·.socketId = host.inComingSktId) = [] := by
        rw [otherElements, List.filter_filter]
        simp
      have hall : new.filter (·.socketId = host.inComingSktId) = new := by
        refine List.filter_eq_self.mpr fun e he ↦ ?_
        have hmem : e.range ∈ newRanges host := hranges ▸ List.mem_map_of_mem he
        exact decide_eq_true (socket_of_mem_newRanges hmem)
      rw [List.filter_append, hnone, List.nil_append, hall] at hown
      rw [← hranges]
      exact hown.map _
    · intro h
      have hlift := congrFun (congrFun (List.eq_map_comp_perm MemoryMapElement.range)
        (newRanges host)) (m.elements.filter (·.socketId = host.inComingSktId))
      obtain ⟨new, hranges, hperm⟩ := hlift.mpr h.symm
      refine ⟨⟨new, ?_, hranges.symm, hpairwise new hranges.symm⟩,
        (SystemMemoryMap.length_elements _).symm⟩
      have hsplit := (List.filter_append_perm (·.socketId = host.inComingSktId) m.elements).symm
      refine (hsplit.trans List.perm_append_comm).trans (List.Perm.append ?_ hperm.symm)
      simp [otherElements]

/-- Two sockets, the second of which comes online with one rule of 1 GB behind 4 GB. -/
def secondSocket : SocketHost where
  inComingSktId := 1
  present := true
  populated := true
  numaAware := true
  sad := [⟨false, false, .memory, 64, 2⟩, ⟨true, false, .memory, 80, 2⟩]

/-- The map has one element, of the first socket: it is lost. -/
theorem not_updatesMap_secondSocket :
    ¬ UpdatesMap secondSocket ⟨1, fun _ ↦ ⟨0, 0, 0, 64, 1⟩⟩
      (updateSystemMemoryMapStruct secondSocket ⟨1, fun _ ↦ ⟨0, 0, 0, 64, 1⟩⟩) := by
  intro h
  obtain ⟨new, hperm, -⟩ := h.elements
  have hmem : (⟨0, 0, 0, 64, 1⟩ : MemoryMapElement) ∈
      (updateSystemMemoryMapStruct secondSocket ⟨1, fun _ ↦ ⟨0, 0, 0, 64, 1⟩⟩).elements :=
    hperm.mem_iff.mpr (List.mem_append_left _ (by decide))
  revert hmem
  decide

/-- With the list empty, the socket's element is what comes out. -/
theorem updatesMap_iff_firstSocket :
    UpdatesMap secondSocket ⟨0, fun _ ↦ ⟨0, 0, 0, 0, 0⟩⟩
        (updateSystemMemoryMapStruct secondSocket ⟨0, fun _ ↦ ⟨0, 0, 0, 0, 0⟩⟩) ↔
      if secondSocket.updates then
        otherElements secondSocket ⟨0, fun _ ↦ ⟨0, 0, 0, 0, 0⟩⟩ = []
      else (((⟨0, fun _ ↦ ⟨0, 0, 0, 0, 0⟩⟩ : SystemMemoryMap).elements.filter
        (·.socketId = secondSocket.inComingSktId)).map MemoryMapElement.range).Perm
          (newRanges secondSocket) :=
  updatesMap_iff secondSocket _ (by decide)

end Update

end PurleyFirmware.Ras
