import PurleyFirmware.Pci.Degradation
import PurleyFirmware.Uefi.ListEntry

/-!
# Resource lists in memory

`InsertResourceNode` and `MergeResourceTree` on the links of the nodes. A new node is put at the
head of the child list and swapped with the one behind it until it is where it belongs, so that
during the loop the list is always a ring with all of the nodes (`insertionLoop_spec`).

On the nodes alone this is the insertion into a list of `Pci.insertResourceNode`, for any trees that
have the requests in memory at their roots (`map_orderedInsert_endsInsertion`). What is known there
of the order of the lists is used here.
-/

namespace PurleyFirmware.Pci

open Uefi

universe u

/-- The `LIST_ENTRY`s of resource nodes: `Link` and `ChildList`. -/
inductive NodeEntry (ι : Type u)
  | link (node : ι)
  | childList (node : ι)
  deriving DecidableEq

/-- Resource nodes in memory. -/
structure ResourceHeap (ι : Type u) where
  entries : RingLinks (NodeEntry ι)
  request : ι → ResourceRequest

/-- Where the loop of `InsertResourceNode` breaks off. -/
def EndsInsertion (resNode temp : ResourceRequest) : Prop :=
  temp.alignment < resNode.alignment ∨
    resNode.alignment = temp.alignment ∧
      (resNode.length &&& resNode.alignment = 0 ∨
        temp.length &&& temp.alignment ≤ resNode.length &&& resNode.alignment)

instance : DecidableRel EndsInsertion := fun _ _ ↦ inferInstanceAs (Decidable (_ ∨ _ ∧ (_ ∨ _)))

namespace ResourceHeap

variable {ι : Type u}

/-! ### Child lists -/

/-- The entries of a child list, with its head. -/
def entriesOf (bridge : ι) (nodes : List ι) : List (NodeEntry ι) :=
  .childList bridge :: nodes.map .link

/-- The nodes are the child list of the bridge, in this order. -/
def IsChildList (heap : ResourceHeap ι) (bridge : ι) (nodes : List ι) : Prop :=
  IsRing heap.entries (entriesOf bridge nodes : Cycle (NodeEntry ι))

/-- The list is sorted by alignment, in descending order. -/
def IsSorted (heap : ResourceHeap ι) (nodes : List ι) : Prop :=
  nodes.Pairwise fun a b ↦ (heap.request b).alignment ≤ (heap.request a).alignment

variable {heap : ResourceHeap ι} {bridge node : ι} {nodes : List ι}

theorem mem_entriesOf_link : NodeEntry.link node ∈ entriesOf bridge nodes ↔ node ∈ nodes := by
  simp [entriesOf]

theorem entriesOf_append (l l' : List ι) :
    entriesOf bridge (l ++ l') = .childList bridge :: (l.map .link ++ l'.map .link) := by
  rw [entriesOf, List.map_append]

/-- A child list is kept by what is done to another one. -/
theorem IsChildList.of_keepsOutside {heap' : ResourceHeap ι} {bridge' : ι} {nodes' : List ι}
    (h : heap.IsChildList bridge nodes)
    (hkeeps : KeepsOutside heap.entries heap'.entries (entriesOf bridge' nodes'))
    (hne : bridge ≠ bridge') (hdisjoint : nodes.Disjoint nodes') :
    heap'.IsChildList bridge nodes := by
  refine hkeeps.isRing h fun x hx hmem ↦ ?_
  rw [Cycle.mem_coe_iff] at hmem
  cases x with
  | link i =>
    have hi : i ∈ nodes := mem_entriesOf_link.1 hx
    exact hdisjoint hi (mem_entriesOf_link.1 hmem)
  | childList b =>
    obtain rfl : b = bridge := by simpa [entriesOf] using hx
    exact hne (by simpa [entriesOf] using hmem)

theorem IsChildList.nodup (h : heap.IsChildList bridge nodes) : nodes.Nodup :=
  (List.nodup_cons.1 (Cycle.nodup_coe_iff.1 (IsRing.nodup h))).2.of_map _

/-! ### The order of the nodes -/

variable {heap' : ResourceHeap ι}

/-- Where the new node belongs in a list. -/
def insertNode (heap : ResourceHeap ι) (nodes : List ι) (node : ι) : List ι :=
  nodes.orderedInsert (fun a b ↦ EndsInsertion (heap.request a) (heap.request b)) node

/-- On trees with the requests in memory this is the insertion into a list of nodes. -/
theorem map_insertNode {tree : ι → PciResourceNode} (htree : ∀ i, (tree i).value = heap.request i)
    (nodes : List ι) (node : ι) :
    (heap.insertNode nodes node).map tree
      = Pci.insertResourceNode (tree node) (nodes.map tree) := by
  have hends : ∀ a b, EndsInsertion (heap.request a) (heap.request b) ↔
      StopsBefore (tree a) (tree b) := by
    intro a b
    rw [← htree a, ← htree b]
    rfl
  exact List.map_orderedInsert _ _ tree nodes node (fun a _ ↦ hends a node) fun a _ ↦ hends node a

theorem isSorted_iff {tree : ι → PciResourceNode} (htree : ∀ i, (tree i).value = heap.request i) :
    heap.IsSorted nodes ↔ SortedByAlignment (nodes.map tree) := by
  simp only [IsSorted, SortedByAlignment, List.pairwise_map, htree]

theorem insertNode_perm (heap : ResourceHeap ι) (nodes : List ι) (node : ι) :
    (heap.insertNode nodes node).Perm (node :: nodes) :=
  List.perm_orderedInsert _ _ _

/-- The nodes that were there keep their order. -/
theorem sublist_insertNode (heap : ResourceHeap ι) (nodes : List ι) (node : ι) :
    nodes.Sublist (heap.insertNode nodes node) :=
  List.sublist_orderedInsert _ _

theorem IsSorted.insertNode (h : heap.IsSorted nodes) (node : ι) :
    heap.IsSorted (heap.insertNode nodes node) := by
  have htree : ∀ i, (RoseTree.node (heap.request i) [] : PciResourceNode).value = heap.request i :=
    fun _ ↦ rfl
  rw [isSorted_iff htree] at h ⊢
  rw [map_insertNode htree]
  exact h.insertResourceNode _

/-- Where several nodes belong, one after the other. -/
def insertNodes (heap : ResourceHeap ι) (nodes new : List ι) : List ι :=
  new.foldl heap.insertNode nodes

theorem insertNodes_cons (nodes new : List ι) (node : ι) :
    heap.insertNodes nodes (node :: new) = heap.insertNodes (heap.insertNode nodes node) new := rfl

theorem insertNodes_append (nodes new new' : List ι) :
    heap.insertNodes nodes (new ++ new') = heap.insertNodes (heap.insertNodes nodes new) new' :=
  List.foldl_append

theorem insertNodes_perm (heap : ResourceHeap ι) (nodes new : List ι) :
    (heap.insertNodes nodes new).Perm (new ++ nodes) := by
  induction new generalizing nodes with
  | nil => exact .refl _
  | cons node new ih =>
    have hinsert := (heap.insertNode_perm nodes node).append_left new
    exact (ih _).trans (hinsert.trans List.perm_middle)

theorem sublist_insertNodes (heap : ResourceHeap ι) (nodes new : List ι) :
    nodes.Sublist (heap.insertNodes nodes new) := by
  induction new generalizing nodes with
  | nil => exact .refl _
  | cons node new ih => exact (heap.sublist_insertNode nodes node).trans (ih _)

theorem IsSorted.insertNodes (h : heap.IsSorted nodes) (new : List ι) :
    heap.IsSorted (heap.insertNodes nodes new) :=
  List.foldlRecOn new _ h fun _ h node _ ↦ h.insertNode node

/-- The order of the nodes is a matter of their alignments and lengths. -/
structure SameSizes (heap heap' : ResourceHeap ι) : Prop where
  alignment : ∀ i, (heap'.request i).alignment = (heap.request i).alignment
  length : ∀ i, (heap'.request i).length = (heap.request i).length

theorem SameSizes.of_request (h : heap'.request = heap.request) : SameSizes heap heap' :=
  ⟨fun i ↦ by rw [h], fun i ↦ by rw [h]⟩

theorem SameSizes.isSorted_iff (h : SameSizes heap heap') :
    heap'.IsSorted nodes ↔ heap.IsSorted nodes := by
  simp only [IsSorted, h.alignment]

theorem SameSizes.insertNodes (h : SameSizes heap heap') (nodes new : List ι) :
    heap'.insertNodes nodes new = heap.insertNodes nodes new := by
  have hinsert : heap'.insertNode = heap.insertNode := by
    have hends : ∀ a b, EndsInsertion (heap'.request a) (heap'.request b) ↔
        EndsInsertion (heap.request a) (heap.request b) := by
      simp only [EndsInsertion, h.alignment, h.length, implies_true]
    funext nodes node
    have hmap := List.map_orderedInsert
      (fun a b ↦ EndsInsertion (heap'.request a) (heap'.request b))
      (fun a b ↦ EndsInsertion (heap.request a) (heap.request b)) id nodes node
      (fun a _ ↦ hends a node) fun a _ ↦ hends node a
    rw [List.map_id, List.map_id] at hmap
    exact hmap
  rw [ResourceHeap.insertNodes, hinsert, ResourceHeap.insertNodes]

/-! ### The functions -/

variable [DecidableEq ι]

/-- The loop of `InsertResourceNode`, with a bound on its rounds. It has no result if it comes upon
an entry that is not the link of a node. -/
def insertionLoop (bridge resNode : ι) :
    ℕ → ResourceHeap ι → NodeEntry ι → Option (ResourceHeap ι)
  | 0, _, _ => none
  | fuel + 1, heap, currentLink =>
    if currentLink = .childList bridge then some heap
    else match currentLink with
      | .childList _ => none
      | .link temp =>
        if EndsInsertion (heap.request resNode) (heap.request temp) then some heap
        else
          let entries := swapListEntries heap.entries (.link resNode) (.link temp)
          insertionLoop bridge resNode fuel { heap with entries := entries }
            (entries.next (.link resNode))

/-- `InsertResourceNode`. -/
def insertResourceNode (fuel : ℕ) (bridge : ι) (heap : ResourceHeap ι) (resNode : ι) :
    Option (ResourceHeap ι) :=
  let entries := insertHeadList heap.entries (.childList bridge) (.link resNode)
  insertionLoop bridge resNode fuel { heap with entries := entries }
    (entries.next (entries.next (.childList bridge)))

/-- `InsertResourceNode` for one node after the other. -/
def insertResourceNodes (fuel : ℕ) (bridge : ι) (heap : ResourceHeap ι) (nodes : List ι) :
    Option (ResourceHeap ι) :=
  nodes.foldlM (insertResourceNode fuel bridge) heap

/-- `Temp->ResType = Dst->ResType`, if the types are merged. -/
def retypeNode (heap : ResourceHeap ι) (dst temp : ι) (typeMerge : Bool) : ResourceHeap ι :=
  if typeMerge then
    { heap with
      request := Function.update heap.request temp
        { heap.request temp with resType := (heap.request dst).resType } }
  else heap

/-- The loop of `MergeResourceTree`, with a bound on its rounds. -/
def mergeLoop (fuel : ℕ) (dst res : ι) (typeMerge : Bool) :
    ℕ → ResourceHeap ι → Option (ResourceHeap ι)
  | 0, _ => none
  | rounds + 1, heap =>
    if isListEmpty heap.entries (.childList res) then some heap
    else match heap.entries.next (.childList res) with
      | .childList _ => none
      | .link temp =>
        let heap := heap.retypeNode dst temp typeMerge
        let heap := { heap with entries := removeEntryList heap.entries (.link temp) }
        (insertResourceNode fuel dst heap temp).bind (mergeLoop fuel dst res typeMerge rounds)

/-- `MergeResourceTree`. -/
def mergeResourceTree (fuel : ℕ) (heap : ResourceHeap ι) (dst res : ι) (typeMerge : Bool) :
    Option (ResourceHeap ι) :=
  mergeLoop fuel dst res typeMerge fuel heap

/-! ### The loop of an insertion -/

variable {dst res temp : ι} {front back : List ι}

/-- **The loop of `InsertResourceNode`.** The nodes in front of the new one stay there. -/
theorem insertionLoop_spec {fuel : ℕ} (hfuel : back.length < fuel)
    (hlist : heap.IsChildList bridge (front ++ node :: back)) :
    ∃ heap', insertionLoop bridge node fuel heap
        ((back.map NodeEntry.link).headD (.childList bridge)) = some heap' ∧
      heap'.request = heap.request ∧
      heap'.IsChildList bridge (front ++ heap.insertNode back node) ∧
      KeepsOutside heap.entries heap'.entries (entriesOf bridge (front ++ node :: back)) := by
  induction back generalizing front heap fuel with
  | nil =>
    obtain ⟨fuel, rfl⟩ : ∃ k, fuel = k + 1 := ⟨fuel - 1, by omega⟩
    refine ⟨heap, ?_, rfl, hlist, fun _ _ ↦ ⟨rfl, rfl⟩⟩
    simp [insertionLoop]
  | cons temp back ih =>
    obtain ⟨fuel, rfl⟩ : ∃ k, fuel = k + 1 := ⟨fuel - 1, by omega⟩
    by_cases hends : EndsInsertion (heap.request node) (heap.request temp)
    · refine ⟨heap, ?_, rfl, ?_, fun _ _ ↦ ⟨rfl, rfl⟩⟩
      · simp [insertionLoop, hends]
      · rw [insertNode, List.orderedInsert_cons, if_pos hends]
        exact hlist
    · -- the node changes places with the one behind it
      have hring := hlist
      rw [IsChildList, entriesOf_append, List.map_cons, List.map_cons] at hring
      obtain ⟨hswapped, houtside⟩ := hring.swapListEntries
      set heap₁ : ResourceHeap ι :=
        { heap with entries := swapListEntries heap.entries (.link node) (.link temp) } with hheap₁
      have hlist₁ : heap₁.IsChildList bridge ((front ++ [temp]) ++ node :: back) := by
        rw [IsChildList, entriesOf_append]
        simpa using hswapped
      have hnext : heap₁.entries.next (.link node) =
          (back.map NodeEntry.link).headD (.childList bridge) := by
        rw [IsChildList, entriesOf_append, List.map_cons] at hlist₁
        exact hlist₁.next_eq_headD
      have hfuel' : back.length < fuel := by
        rw [List.length_cons] at hfuel
        omega
      obtain ⟨heap', hrun, hrequest, hdone, hkeeps⟩ := ih hfuel' hlist₁
      refine ⟨heap', ?_, hrequest, ?_, ?_⟩
      · rw [← hnext] at hrun
        simpa [insertionLoop, hends] using hrun
      · rw [insertNode, List.orderedInsert_cons, if_neg hends]
        rw [List.append_assoc] at hdone
        exact hdone
      · have hsame : ∀ x ∈ (entriesOf bridge ((front ++ [temp]) ++ node :: back) :
            Cycle (NodeEntry ι)), x ∈ (entriesOf bridge (front ++ node :: temp :: back) :
            Cycle (NodeEntry ι)) := by
          intro x hx
          simp only [entriesOf, Cycle.mem_coe_iff, List.mem_cons, List.map_append, List.map_cons,
            List.mem_append] at hx ⊢
          grind
        have hfirst : KeepsOutside heap.entries heap₁.entries
            (entriesOf bridge (front ++ node :: temp :: back)) := by
          rw [entriesOf_append]
          exact houtside
        exact hfirst.trans (hkeeps.mono hsame)

/-! ### Insertions -/

/-- What an insertion does: the new node is where it belongs, and nothing but the links of the list
and of the node is different. -/
structure Inserts (heap heap' : ResourceHeap ι) (bridge : ι) (nodes : List ι) (node : ι) :
    Prop where
  request : heap'.request = heap.request
  list : heap'.IsChildList bridge (heap.insertNode nodes node)
  outside : KeepsOutside heap.entries heap'.entries (entriesOf bridge (node :: nodes))

/-- **`InsertResourceNode`** of a node that is not in the list. -/
theorem insertResourceNode_spec {fuel : ℕ} (hfuel : nodes.length < fuel)
    (hlist : heap.IsChildList bridge nodes) (hnew : node ∉ nodes) :
    ∃ heap', insertResourceNode fuel bridge heap node = some heap' ∧
      Inserts heap heap' bridge nodes node := by
  have hfresh : NodeEntry.link node ∉ entriesOf bridge nodes := fun h ↦
    hnew (mem_entriesOf_link.1 h)
  set heap₁ : ResourceHeap ι :=
    { heap with entries := insertHeadList heap.entries (.childList bridge) (.link node) }
  have hlist₁ : heap₁.IsChildList bridge ([] ++ node :: nodes) := IsRing.insertHeadList hlist hfresh
  have hfirst : heap₁.entries.next (.childList bridge) = .link node := (IsRing.linked hlist₁).1
  have hsecond : heap₁.entries.next (.link node) =
      (nodes.map NodeEntry.link).headD (.childList bridge) := by
    rw [IsChildList, entriesOf_append] at hlist₁
    exact hlist₁.next_eq_headD
  obtain ⟨heap', hrun, hrequest, hdone, hkeeps⟩ := insertionLoop_spec hfuel hlist₁
  refine ⟨heap', ?_, hrequest, hdone, ?_⟩
  · rw [insertResourceNode, hfirst, hsecond]
    exact hrun
  · have hins := hlist.insertedAfter (Cycle.mem_coe_iff.2 List.mem_cons_self)
      fun h ↦ hfresh (Cycle.mem_coe_iff.1 h)
    refine KeepsOutside.trans (hins.keepsOutside hlist ?_ (fun x hx ↦ ?_) ?_) hkeeps
    · simp [entriesOf]
    · simp only [entriesOf, Cycle.mem_coe_iff, List.map_cons, List.mem_cons] at hx ⊢
      grind
    · simp [entriesOf]

/-- **Insertions one after the other**, of different nodes that are not in the list. -/
theorem insertResourceNodes_spec {fuel : ℕ} {new : List ι}
    (hfuel : new.length + nodes.length < fuel) (hlist : heap.IsChildList bridge nodes)
    (hnodup : (new ++ nodes).Nodup) :
    ∃ heap', insertResourceNodes fuel bridge heap new = some heap' ∧
      heap'.request = heap.request ∧ heap'.IsChildList bridge (heap.insertNodes nodes new) := by
  induction new generalizing heap nodes with
  | nil => exact ⟨heap, rfl, rfl, hlist⟩
  | cons node new ih =>
    rw [List.cons_append, List.nodup_cons, List.mem_append, not_or] at hnodup
    obtain ⟨⟨hnew, hnode⟩, hrest⟩ := hnodup
    rw [List.length_cons] at hfuel
    have hfuel₁ : nodes.length < fuel := by omega
    obtain ⟨heap₁, hrun₁, hins⟩ := insertResourceNode_spec hfuel₁ hlist hnode
    have hperm := heap.insertNode_perm nodes node
    have hlength : new.length + (heap.insertNode nodes node).length < fuel := by
      rw [hperm.length_eq, List.length_cons]
      omega
    have hnodup₁ : (new ++ heap.insertNode nodes node).Nodup := by
      have hmiddle : (new ++ heap.insertNode nodes node).Perm (node :: (new ++ nodes)) :=
        (hperm.append_left new).trans List.perm_middle
      exact hmiddle.nodup_iff.2 (List.nodup_cons.2 ⟨by simp [hnew, hnode], hrest⟩)
    obtain ⟨heap', hrun, hrequest, hdone⟩ := ih hlength hins.list hnodup₁
    refine ⟨heap', ?_, hrequest.trans hins.request, ?_⟩
    · rw [insertResourceNodes, List.foldlM_cons, hrun₁]
      exact hrun
    · rw [insertNodes_cons, ← (SameSizes.of_request hins.request).insertNodes]
      exact hdone

/-! ### Merges -/

/-- The requests after the nodes moved have got the type of the destination, if types are merged. -/
def mergedRequest (heap : ResourceHeap ι) (dst : ι) (moved : List ι) (typeMerge : Bool) (i : ι) :
    ResourceRequest :=
  if typeMerge = true ∧ i ∈ moved then
    { heap.request i with resType := (heap.request dst).resType }
  else heap.request i

theorem request_retypeNode (typeMerge : Bool) :
    (heap.retypeNode dst temp typeMerge).request = heap.mergedRequest dst [temp] typeMerge := by
  funext i
  cases typeMerge with
  | false => simp [retypeNode, mergedRequest]
  | true =>
    by_cases hi : i = temp
    · simp [retypeNode, mergedRequest, hi]
    · simp [retypeNode, mergedRequest, hi]

theorem mergedRequest_cons {rest : List ι} {typeMerge : Bool}
    (h : heap'.request = heap.mergedRequest dst [temp] typeMerge) :
    heap'.mergedRequest dst rest typeMerge = heap.mergedRequest dst (temp :: rest) typeMerge := by
  funext i
  cases typeMerge with
  | false => simp [mergedRequest, h]
  | true =>
    by_cases hi : i = temp
    · by_cases hdst : dst = temp <;> simp [mergedRequest, h, hi, hdst]
    · by_cases hdst : dst = temp <;> simp [mergedRequest, h, hi, hdst]

theorem sameSizes_of_mergedRequest {moved : List ι} {typeMerge : Bool}
    (h : heap'.request = heap.mergedRequest dst moved typeMerge) : SameSizes heap heap' := by
  constructor
  · intro i
    rw [h, mergedRequest]
    split <;> rfl
  · intro i
    rw [h, mergedRequest]
    split <;> rfl

/-- What a merge does: the moved nodes are where they belong, their list is empty, and their
requests have the type of the destination if types are merged. -/
structure Merges (heap heap' : ResourceHeap ι) (dst res : ι) (nodes moved : List ι)
    (typeMerge : Bool) : Prop where
  request : heap'.request = heap.mergedRequest dst moved typeMerge
  list : heap'.IsChildList dst (heap.insertNodes nodes moved)
  emptied : heap'.IsChildList res []

/-- **`MergeResourceTree`** of two lists without a common node. -/
theorem mergeLoop_spec {fuel rounds : ℕ} {typeMerge : Bool} {moved : List ι}
    (hrounds : moved.length < rounds) (hfuel : moved.length + nodes.length < fuel)
    (hdst : heap.IsChildList dst nodes) (hres : heap.IsChildList res moved) (hne : dst ≠ res)
    (hnodup : (moved ++ nodes).Nodup) :
    ∃ heap', mergeLoop fuel dst res typeMerge rounds heap = some heap' ∧
      Merges heap heap' dst res nodes moved typeMerge := by
  induction moved generalizing heap nodes rounds with
  | nil =>
    obtain ⟨rounds, rfl⟩ : ∃ k, rounds = k + 1 := ⟨rounds - 1, by omega⟩
    refine ⟨heap, ?_, ?_, hdst, hres⟩
    · have hself := (IsRing.next_eq_self_iff hres).2 rfl
      simp [mergeLoop, isListEmpty, hself]
    · funext i
      simp [mergedRequest]
  | cons temp moved ih =>
    obtain ⟨rounds, rfl⟩ : ∃ k, rounds = k + 1 := ⟨rounds - 1, by omega⟩
    rw [List.cons_append, List.nodup_cons, List.mem_append, not_or] at hnodup
    obtain ⟨⟨htemp, hnode⟩, hrest⟩ := hnodup
    rw [List.length_cons] at hrounds hfuel
    have hfirst : heap.entries.next (.childList res) = .link temp := (IsRing.linked hres).1
    -- the first node is taken out of its list
    set heap₁ : ResourceHeap ι :=
      { heap.retypeNode dst temp typeMerge with
        entries := removeEntryList heap.entries (.link temp) } with hheap₁
    have hrequest₁ : heap₁.request = heap.mergedRequest dst [temp] typeMerge :=
      request_retypeNode typeMerge
    have hsizes₁ := sameSizes_of_mergedRequest hrequest₁
    have hres₁ : heap₁.IsChildList res moved := IsRing.removeEntryList (l := []) hres
    have hdst₁ : heap₁.IsChildList dst nodes := by
      have hkeeps : KeepsOutside heap.entries heap₁.entries (entriesOf res (temp :: moved)) :=
        removeEntryList_takenOut.keepsOutside (l := []) hres
      refine hdst.of_keepsOutside hkeeps hne ?_
      rw [List.disjoint_cons_right]
      exact ⟨hnode, (List.disjoint_of_nodup_append hrest).symm⟩
    -- and inserted into the other one
    have hfuel₁ : nodes.length < fuel := by omega
    obtain ⟨heap₂, hrun₂, hins⟩ := insertResourceNode_spec hfuel₁ hdst₁ hnode
    have hres₂ : heap₂.IsChildList res moved := by
      refine hres₁.of_keepsOutside hins.outside hne.symm ?_
      rw [List.disjoint_cons_right]
      exact ⟨htemp, List.disjoint_of_nodup_append hrest⟩
    have hrequest₂ : heap₂.request = heap.mergedRequest dst [temp] typeMerge :=
      hins.request.trans hrequest₁
    have hsizes₂ := sameSizes_of_mergedRequest hrequest₂
    have hinsert : heap₁.insertNode nodes temp = heap.insertNode nodes temp :=
      hsizes₁.insertNodes nodes [temp]
    have hdst₂ : heap₂.IsChildList dst (heap.insertNode nodes temp) := hinsert ▸ hins.list
    have hperm := heap.insertNode_perm nodes temp
    have hlength : moved.length + (heap.insertNode nodes temp).length < fuel := by
      rw [hperm.length_eq, List.length_cons]
      omega
    have hnodup₂ : (moved ++ heap.insertNode nodes temp).Nodup := by
      have hmiddle := (hperm.append_left moved).trans List.perm_middle
      exact hmiddle.nodup_iff.2 (List.nodup_cons.2 ⟨by simp [htemp, hnode], hrest⟩)
    have hrounds₁ : moved.length < rounds := by omega
    obtain ⟨heap', hrun, hmerges⟩ := ih hrounds₁ hlength hdst₂ hres₂ hnodup₂
    refine ⟨heap', ?_, ?_, ?_, hmerges.emptied⟩
    · have hempty : isListEmpty heap.entries (.childList res) = false := by
        simp [isListEmpty, hfirst]
      rw [mergeLoop, hempty, hfirst]
      simp only [Bool.false_eq_true, if_false]
      have hentries : (heap.retypeNode dst temp typeMerge).entries = heap.entries := by
        rw [retypeNode]
        split <;> rfl
      rw [hentries, ← hheap₁, hrun₂]
      exact hrun
    · rw [hmerges.request, mergedRequest_cons hrequest₂]
    · rw [insertNodes_cons, ← hsizes₂.insertNodes]
      exact hmerges.list


/-! ### What the lists owe their readers -/

/-- What insertions one by one owe: a sorted list of the nodes, old and new, in which those that
were there before an insertion are in the order they were in. -/
structure InsertionOutcome (fuel : ℕ) (heap : ResourceHeap ι) (bridge : ι) (present new : List ι)
    (heap' : ResourceHeap ι) (nodes : List ι) : Prop where
  run : insertResourceNodes fuel bridge heap new = some heap'
  request : heap'.request = heap.request
  list : heap'.IsChildList bridge nodes
  perm : nodes.Perm (new ++ present)
  sorted : heap'.IsSorted nodes
  stable : ∀ first rest, new = first ++ rest →
    ∃ heap₁ nodes₁, insertResourceNodes fuel bridge heap first = some heap₁ ∧
      heap₁.IsChildList bridge nodes₁ ∧ nodes₁.Sublist nodes

/-- What a merge owes: a sorted list of the nodes of both lists, and an empty one. -/
structure MergeOutcome (fuel : ℕ) (heap : ResourceHeap ι) (dst res : ι) (typeMerge : Bool)
    (nodes moved : List ι) (heap' : ResourceHeap ι) (nodes' : List ι) : Prop where
  run : heap.mergeResourceTree fuel dst res typeMerge = some heap'
  request : heap'.request = heap.mergedRequest dst moved typeMerge
  list : heap'.IsChildList dst nodes'
  perm : nodes'.Perm (nodes ++ moved)
  sorted : heap'.IsSorted nodes'
  stable : nodes.Sublist nodes'
  emptied : heap'.IsChildList res []

theorem exists_insertionOutcome {fuel : ℕ} {present new : List ι}
    (hlist : heap.IsChildList bridge present) (hsorted : heap.IsSorted present)
    (hnodup : (new ++ present).Nodup) (hfuel : new.length + present.length < fuel) :
    ∃ heap' nodes, InsertionOutcome fuel heap bridge present new heap' nodes := by
  obtain ⟨heap', hrun, hrequest, hdone⟩ := insertResourceNodes_spec hfuel hlist hnodup
  refine ⟨heap', heap.insertNodes present new, hrun, hrequest, hdone,
    heap.insertNodes_perm present new, ?_, ?_⟩
  · exact (SameSizes.of_request hrequest).isSorted_iff.2 (hsorted.insertNodes new)
  · rintro first rest rfl
    rw [List.append_assoc] at hnodup
    have hfirst : (first ++ present).Nodup :=
      hnodup.sublist ((List.sublist_append_right rest present).append_left first)
    rw [List.length_append] at hfuel
    have hfuel₁ : first.length + present.length < fuel := by omega
    obtain ⟨heap₁, hrun₁, -, hlist₁⟩ := insertResourceNodes_spec hfuel₁ hlist hfirst
    refine ⟨heap₁, _, hrun₁, hlist₁, ?_⟩
    rw [insertNodes_append]
    exact heap.sublist_insertNodes _ rest

theorem exists_mergeOutcome {fuel : ℕ} {typeMerge : Bool} {moved : List ι}
    (hdst : heap.IsChildList dst nodes) (hsorted : heap.IsSorted nodes)
    (hres : heap.IsChildList res moved) (hne : dst ≠ res) (hnodup : (moved ++ nodes).Nodup)
    (hfuel : moved.length + nodes.length < fuel) :
    ∃ heap' nodes', MergeOutcome fuel heap dst res typeMerge nodes moved heap' nodes' := by
  have hmerge : ∃ heap', heap.mergeResourceTree fuel dst res typeMerge = some heap' ∧
      Merges heap heap' dst res nodes moved typeMerge :=
    mergeLoop_spec (by omega) hfuel hdst hres hne hnodup
  obtain ⟨heap', hrun, hmerges⟩ := hmerge
  refine ⟨heap', _, hrun, hmerges.request, hmerges.list, ?_, ?_, ?_, hmerges.emptied⟩
  · exact (heap.insertNodes_perm nodes moved).trans List.perm_append_comm
  · exact (sameSizes_of_mergedRequest hmerges.request).isSorted_iff.2 (hsorted.insertNodes moved)
  · exact heap.sublist_insertNodes nodes moved

/-- **Resource lists are sorted lists of their nodes**, however they were made: by insertions into a
sorted list, or by a merge of two. -/
theorem resourceLists_sorted {heap₁ heap₂ : ResourceHeap ι} {bridge dst res : ι} {fuel : ℕ}
    {present new nodes moved : List ι} {typeMerge : Bool}
    (hlist : heap₁.IsChildList bridge present) (hpresent : heap₁.IsSorted present)
    (hnew : (new ++ present).Nodup) (hfuel₁ : new.length + present.length < fuel)
    (hdst : heap₂.IsChildList dst nodes) (hnodes : heap₂.IsSorted nodes)
    (hres : heap₂.IsChildList res moved) (hne : dst ≠ res)
    (hnodup : (moved ++ nodes).Nodup) (hfuel₂ : moved.length + nodes.length < fuel) :
    (∃ heap' nodes', InsertionOutcome fuel heap₁ bridge present new heap' nodes') ∧
      ∃ heap' nodes', MergeOutcome fuel heap₂ dst res typeMerge nodes moved heap' nodes' :=
  ⟨exists_insertionOutcome hlist hpresent hnew hfuel₁,
    exists_mergeOutcome hdst hnodes hres hne hnodup hfuel₂⟩

/-- Two bridges, 10 and 11, each with a node in its list. -/
def twoLists : ResourceHeap ℕ where
  entries :=
    { next := fun
        | .childList 10 => .link 0
        | .childList 11 => .link 1
        | .link 0 => .childList 10
        | .link 1 => .childList 11
        | x => x
      prev := fun
        | .childList 10 => .link 0
        | .childList 11 => .link 1
        | .link 0 => .childList 10
        | .link 1 => .childList 11
        | x => x }
  request i := (createResourceNode paddedBridge 0x1000 (BitVec.ofNat 64 i) 0 .mem32 .typical).value

theorem resourceLists_sorted_twoLists :
    (∃ heap' nodes', InsertionOutcome 4 twoLists 10 [0] [2, 3] heap' nodes') ∧
      ∃ heap' nodes', MergeOutcome 4 twoLists 10 11 true [0] [1] heap' nodes' := by
  have hfirst : twoLists.IsChildList 10 [0] := by
    refine isRing_cons_iff.2 ⟨by decide, ?_⟩
    simp [twoLists, RingLinks.Linked]
  have hsecond : twoLists.IsChildList 11 [1] := by
    refine isRing_cons_iff.2 ⟨by decide, ?_⟩
    simp [twoLists, RingLinks.Linked]
  have hsorted : ∀ i, twoLists.IsSorted [i] := fun i ↦ List.pairwise_singleton _ i
  exact resourceLists_sorted hfirst (hsorted 0) (by decide) (by decide) hfirst (hsorted 0) hsecond
    (by decide) (by decide) (by decide)

end ResourceHeap

end PurleyFirmware.Pci
