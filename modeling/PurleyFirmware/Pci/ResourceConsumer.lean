import Mathlib.Data.List.Induction
import PurleyFirmware.Pci.HostBridge

/-!
# The largest consumer

`GetMaxResourceConsumerDevice` chooses what is given up for a type of resource that is short. It
goes through the windows of bridges to what is below them; a window itself is never given up, and
neither is the node of a device that `IsRejectiveDevice` refuses, padding or not. Of all the other
nodes, wherever they are, it returns one with the greatest length: `getMaxResourceConsumerDevice_spec`.
-/

namespace PurleyFirmware.Pci

/-! ### Nodes that may be given up -/

namespace ResourceRequest

variable (r : ResourceRequest)

/-- The node is the window of a bridge. -/
def isWindow : Bool := r.ofBridge && !r.isPadding

/-- The node may be given up: `IsRejectiveDevice` accepts it, and it is not the window of a bridge. -/
def isRejectable : Bool := isRejectiveDevice r && !r.isWindow

end ResourceRequest

/-- A node with the nodes below it, as far as windows of bridges lead. -/
def nodesOf : PciResourceNode → List ResourceRequest :=
  RoseTree.fold fun r below ↦ r :: if r.isWindow then below.flatten else []

/-- The nodes of a resource pool. -/
def nodesBelow (resPool : List PciResourceNode) : List ResourceRequest := resPool.flatMap nodesOf

/-- Only windows of bridges have nodes below them. -/
inductive OnlyWindowsLead : PciResourceNode → Prop
  | node (r : ResourceRequest) (childList : List PciResourceNode)
      (window : childList ≠ [] → r.isWindow = true)
      (below : ∀ t ∈ childList, OnlyWindowsLead t) : OnlyWindowsLead (.node r childList)

/-- A largest node that may be given up, if there is one. -/
structure IsMaxConsumer (nodes : List ResourceRequest) (node : Option ResourceRequest) : Prop where
  none_iff : node = none ↔ ∀ r ∈ nodes, r.isRejectable = false
  mem : ∀ r, node = some r → r ∈ nodes ∧ r.isRejectable = true
  le : ∀ r, node = some r → ∀ r' ∈ nodes, r'.isRejectable = true → r'.length ≤ r.length

variable {r : ResourceRequest} {nodes nodes' : List ResourceRequest}
  {node node' : Option ResourceRequest}

theorem nodesOf_node (r : ResourceRequest) (childList : List PciResourceNode) :
    nodesOf (.node r childList) = r :: if r.isWindow then nodesBelow childList else [] := by
  rw [nodesOf, RoseTree.fold_node, nodesBelow, List.flatMap_def, nodesOf]

/-- Where only windows lead on, these are all nodes, at any depth. -/
theorem OnlyWindowsLead.nodesOf_eq {t : PciResourceNode} (h : OnlyWindowsLead t) :
    nodesOf t = t.values := by
  induction h with
  | node r childList window below ih =>
    rw [nodesOf_node, RoseTree.values_eq, RoseTree.descendants, nodesBelow]
    congr 1
    cases childList with
    | nil => exact ite_self _
    | cons t ts =>
      rw [if_pos (window (List.cons_ne_nil t ts))]
      exact List.flatMap_congr ih

/-! ### The larger of two -/

theorem isMaxConsumer_nil : IsMaxConsumer [] none :=
  ⟨iff_of_true rfl fun _ hr ↦ absurd hr List.not_mem_nil, (fun _ h ↦ nomatch h),
    fun _ h ↦ nomatch h⟩

/-- A node that may be given up is not the window of a bridge. -/
theorem not_window_of_isRejectable (hr : r.isRejectable = true) :
    ¬ (r.ofBridge = true ∧ (!r.isPadding) = true) := by
  rintro ⟨hbridge, hpadding⟩
  rw [ResourceRequest.isRejectable, ResourceRequest.isWindow, hbridge, hpadding] at hr
  simp at hr

/-- The second node counts where it may be given up. -/
theorem getLargerConsumerDevice_some (node : Option ResourceRequest) (hr : r.isRejectable = true) :
    getLargerConsumerDevice node (some r) =
      match node with
      | none => some r
      | some r₁ => if r.length < r₁.length then some r₁ else some r := by
  have hwindow := not_window_of_isRejectable hr
  cases node <;> exact if_neg hwindow

/-- A node that is not given up does not count. -/
theorem IsMaxConsumer.append_of_not (h : IsMaxConsumer nodes node) (hr : r.isRejectable = false) :
    IsMaxConsumer (nodes ++ [r]) node := by
  refine ⟨h.none_iff.trans ⟨fun hall r' hr' ↦ ?_, fun hall r' hr' ↦
    hall r' (List.mem_append_left _ hr')⟩, fun r' hr' ↦ ?_, fun r' hr' s hs hrej ↦ ?_⟩
  · rcases List.mem_append.1 hr' with hr' | hr'
    · exact hall r' hr'
    · exact List.mem_singleton.1 hr' ▸ hr
  · exact ⟨List.mem_append_left _ (h.mem r' hr').1, (h.mem r' hr').2⟩
  · rcases List.mem_append.1 hs with hs | hs
    · exact h.le r' hr' s hs hrej
    · rw [List.mem_singleton.1 hs, hr] at hrej
      cases hrej

/-- A window in front does not count. -/
theorem IsMaxConsumer.cons_of_not (h : IsMaxConsumer nodes node) (hr : r.isRejectable = false) :
    IsMaxConsumer (r :: nodes) node := by
  refine ⟨h.none_iff.trans ⟨fun hall ↦ List.forall_mem_cons.2 ⟨hr, hall⟩, fun hall r' hr' ↦
    hall r' (List.mem_cons_of_mem _ hr')⟩, fun r' hr' ↦ ?_, fun r' hr' s hs hrej ↦ ?_⟩
  · exact ⟨List.mem_cons_of_mem _ (h.mem r' hr').1, (h.mem r' hr').2⟩
  · rcases List.mem_cons.1 hs with rfl | hs
    · rw [hr] at hrej
      cases hrej
    · exact h.le r' hr' s hs hrej

theorem isMaxConsumer_singleton (hr : r.isRejectable = true) : IsMaxConsumer [r] (some r) := by
  refine ⟨iff_of_false (fun h ↦ nomatch h) fun hall ↦ ?_, fun r' hr' ↦ ?_, fun r' hr' s hs _ ↦ ?_⟩
  · rw [hall r List.mem_cons_self] at hr
    cases hr
  · cases hr'
    exact ⟨List.mem_cons_self, hr⟩
  · cases hr'
    rw [List.mem_singleton.1 hs]
    exact BitVec.le_refl _

/-- `GetLargerConsumerDevice` chooses from both. -/
theorem IsMaxConsumer.larger (h : IsMaxConsumer nodes node) (h' : IsMaxConsumer nodes' node') :
    IsMaxConsumer (nodes ++ nodes') (getLargerConsumerDevice node node') := by
  cases node' with
  | none =>
    have hnone := h'.none_iff.1 rfl
    refine ⟨h.none_iff.trans ⟨fun hall r hr ↦ ?_, fun hall r hr ↦
      hall r (List.mem_append_left _ hr)⟩, fun r hr ↦ ?_, fun r hr s hs hrej ↦ ?_⟩
    · exact (List.mem_append.1 hr).elim (hall r) (hnone r)
    · exact ⟨List.mem_append_left _ (h.mem r hr).1, (h.mem r hr).2⟩
    · rcases List.mem_append.1 hs with hs | hs
      · exact h.le r hr s hs hrej
      · rw [hnone s hs] at hrej
        cases hrej
  | some r₂ =>
    obtain ⟨hmem₂, hrej₂⟩ := h'.mem r₂ rfl
    have hle₂ := h'.le r₂ rfl
    have hany : ¬ ∀ r ∈ nodes ++ nodes', r.isRejectable = false := by
      intro hall
      rw [hall r₂ (List.mem_append_right _ hmem₂)] at hrej₂
      cases hrej₂
    rw [getLargerConsumerDevice_some node hrej₂]
    cases node with
    | none =>
      have hnone := h.none_iff.1 rfl
      refine ⟨iff_of_false (fun h ↦ nomatch h) hany, fun r hr ↦ ?_, fun r hr s hs hrej ↦ ?_⟩
      · cases hr
        exact ⟨List.mem_append_right _ hmem₂, hrej₂⟩
      · cases hr
        rcases List.mem_append.1 hs with hs | hs
        · rw [hnone s hs] at hrej
          cases hrej
        · exact hle₂ s hs hrej
    | some r₁ =>
      obtain ⟨hmem₁, hrej₁⟩ := h.mem r₁ rfl
      have hle₁ := h.le r₁ rfl
      dsimp only
      split
      · rename_i hlt
        refine ⟨iff_of_false (fun h ↦ nomatch h) hany, fun r hr ↦ ?_, fun r hr s hs hrej ↦ ?_⟩
        · cases hr
          exact ⟨List.mem_append_left _ hmem₁, hrej₁⟩
        · cases hr
          rcases List.mem_append.1 hs with hs | hs
          · exact hle₁ s hs hrej
          · exact BitVec.le_trans (hle₂ s hs hrej) (BitVec.le_of_lt hlt)
      · rename_i hge
        refine ⟨iff_of_false (fun h ↦ nomatch h) hany, fun r hr ↦ ?_, fun r hr s hs hrej ↦ ?_⟩
        · cases hr
          exact ⟨List.mem_append_right _ hmem₂, hrej₂⟩
        · cases hr
          rcases List.mem_append.1 hs with hs | hs
          · exact BitVec.le_trans (hle₁ s hs hrej) (BitVec.not_lt.1 hge)
          · exact hle₂ s hs hrej

/-! ### The recursion -/

/-- One round of the loop. -/
theorem largestConsumer_concat (nodes : List (ResourceRequest × Option ResourceRequest))
    (temp : ResourceRequest) (ppbResNode : Option ResourceRequest) :
    largestConsumer (nodes ++ [(temp, ppbResNode)]) =
      if isRejectiveDevice temp = false then largestConsumer nodes
      else if temp.isWindow then getLargerConsumerDevice (largestConsumer nodes) ppbResNode
      else getLargerConsumerDevice (largestConsumer nodes) (some temp) := by
  rw [largestConsumer, List.foldl_append, ← largestConsumer, List.foldl_cons, List.foldl_nil]
  simp only [ResourceRequest.isWindow, Bool.and_eq_true]

/-- A window belongs to a bridge, which is accepted. -/
theorem isRejectiveDevice_of_isWindow (h : r.isWindow = true) : isRejectiveDevice r = true :=
  if_pos (Bool.and_eq_true_iff.1 h).1

/-- The loop over the nodes of a list, where the recursion is right for each of them. -/
theorem isMaxConsumer_largestConsumer {resPool : List PciResourceNode}
    (h : ∀ t ∈ resPool, IsMaxConsumer (nodesBelow t.children) (consumer t).2) :
    IsMaxConsumer (nodesBelow resPool) (largestConsumer (resPool.map consumer)) := by
  induction resPool using List.reverseRecOn with
  | nil => exact isMaxConsumer_nil
  | append_singleton resPool t ih =>
    have hbefore := ih fun t ht ↦ h t (List.mem_append_left _ ht)
    have hbelow := h t (List.mem_append_right _ List.mem_cons_self)
    cases t with
    | node r childList =>
      have hvalue : consumer (.node r childList) = (r, (consumer (.node r childList)).2) := by
        rw [consumer, RoseTree.fold_node]
      rw [nodesBelow, List.flatMap_append, List.flatMap_singleton, ← nodesBelow, nodesOf_node,
        List.map_append, List.map_singleton, hvalue, largestConsumer_concat]
      cases hwindow : r.isWindow with
      | true =>
        rw [isRejectiveDevice_of_isWindow hwindow]
        simp only [if_true, Bool.true_eq_false, if_false]
        refine hbefore.larger (hbelow.cons_of_not ?_)
        rw [ResourceRequest.isRejectable, hwindow, Bool.not_true, Bool.and_false]
      | false =>
        simp only [Bool.false_eq_true, if_false]
        cases hrejective : isRejectiveDevice r with
        | false =>
          rw [if_pos rfl]
          exact hbefore.append_of_not (by rw [ResourceRequest.isRejectable, hrejective]; rfl)
        | true =>
          rw [if_neg (by decide)]
          refine hbefore.larger (isMaxConsumer_singleton ?_)
          rw [ResourceRequest.isRejectable, hrejective, hwindow]
          rfl

theorem isMaxConsumer_consumer (t : PciResourceNode) :
    IsMaxConsumer (nodesBelow t.children) (consumer t).2 := by
  induction t using RoseTree.ind with
  | hnode r childList ih =>
    have hconsumer : (consumer (.node r childList)).2 = largestConsumer (childList.map consumer) := by
      rw [consumer, RoseTree.fold_node]
    rw [hconsumer]
    exact isMaxConsumer_largestConsumer ih

/-- **The largest consumer**: nothing is returned if and only if no node may be given up, and
otherwise a node of the greatest length among those that may be. -/
theorem getMaxResourceConsumerDevice_spec (resPool : List PciResourceNode) :
    IsMaxConsumer (nodesBelow resPool) (getMaxResourceConsumerDevice resPool) ∧
      ((∀ t ∈ resPool, OnlyWindowsLead t) →
        nodesBelow resPool = resPool.flatMap RoseTree.values) :=
  ⟨isMaxConsumer_largestConsumer fun t _ ↦ isMaxConsumer_consumer t,
    fun h ↦ List.flatMap_congr fun t ht ↦ (h t ht).nodesOf_eq⟩

/-- A PCI-PCI bridge with nothing behind it. -/
def emptyBridge : PciIoDevice where
  id := 3
  headerLayout := .pciBridge
  vendorId := 0x8086
  deviceId := 0xA190
  isPciVga := false
  busNumber := 0
  deviceNumber := 0x1C
  functionNumber := 0
  pciBar := fun _ ↦ ⟨0, 0, .unknown, false⟩
  vfPciBar := fun _ ↦ ⟨0, 0, .unknown, false⟩
  parent := some 2
  decodes := 0x4E
  romSize := 0
  resourcePaddingDescriptors := none
  bridgeIoAlignment := 0xFFF

/-- `IsRejectiveDevice` accepts the bridge, and the pool has nothing but its window: nothing is
returned. -/
theorem getMaxResourceConsumerDevice_window :
    ¬ ∀ resPool : List PciResourceNode,
      getMaxResourceConsumerDevice resPool = none ↔
        ∀ r ∈ resPool.flatMap RoseTree.values, ¬ (r.isPadding = true ∨ isRejectiveDevice r = true) := by
  intro hall
  have hnone := (hall [createResourceNode emptyBridge 0 0xFFFFF 0 .mem32 .typical]).1 rfl
  exact hnone _ List.mem_cons_self (Or.inr rfl)

end PurleyFirmware.Pci
