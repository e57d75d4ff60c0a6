import PurleyFirmware.Pci.PaddingAperture
import Mathlib.Algebra.Order.Group.Multiset
import Mathlib.Tactic.Abel

/-!
# What degradation preserves

`DegradeResource` moves nodes between the five lists of a bridge, and each move takes nodes out of one
list and inserts them into another. So no node is lost or made, and a list that was sorted by
alignment stays sorted. A move may change the type that a node says it has, and nothing else of it.

Which lists are empty at the end follows the cascade of merges: what is merged away stays away,
unless a later merge has that list as its destination.
-/

namespace PurleyFirmware.Pci

open Finset

variable (cfg : ResourceConfig)

/-! ### What a bridge decodes -/

/-- `EFI_BRIDGE_IO32_DECODE_SUPPORTED`. -/
def efiBridgeIo32DecodeSupported : BitVec 32 := 0x0001

/-- `EFI_BRIDGE_IO16_DECODE_SUPPORTED`. -/
def efiBridgeIo16DecodeSupported : BitVec 32 := 0x0008

/-- `EFI_BRIDGE_MEM32_DECODE_SUPPORTED`. -/
def efiBridgeMem32DecodeSupported : BitVec 32 := 0x0040

/-- The flags of the type of resource. A bridge for I/O has either of two. -/
def ResourceType.decodeSupported : ResourceType → BitVec 32
  | io16 => efiBridgeIo16DecodeSupported ||| efiBridgeIo32DecodeSupported
  | mem32 => efiBridgeMem32DecodeSupported
  | pmem32 => efiBridgePmem32DecodeSupported
  | mem64 => efiBridgeMem64DecodeSupported
  | pmem64 => efiBridgePmem64DecodeSupported

/-- The bridge decodes the type of resource. -/
def decodesType (bridge : PciIoDevice) (t : ResourceType) : Bool :=
  bridgeSupportResourceDecode bridge t.decodeSupported

/-- The bridge combines prefetchable memory with other memory. -/
def combinesPmem (bridge : PciIoDevice) : Bool :=
  bridgeSupportResourceDecode bridge efiBridgePmemMemCombineSupported

/-! ### The nodes of the lists -/

/-- The node says that it is of a type. -/
def retype (t : ResourceType) (n : PciResourceNode) : PciResourceNode :=
  .node { n.value with resType := t } n.children

@[simp] theorem value_retype (t : ResourceType) (n : PciResourceNode) :
    (retype t n).value = { n.value with resType := t } := rfl

@[simp] theorem retype_retype (t u : ResourceType) (n : PciResourceNode) :
    retype t (retype u n) = retype t n := rfl

/-- All the nodes of the five lists, whatever type they say they are of. -/
def ResourceWindows.nodes (w : ResourceWindows) : Multiset PciResourceNode :=
  ∑ t, (((w t).childList.map (retype .io16) : List PciResourceNode) : Multiset PciResourceNode)

/-- A list is sorted by alignment, in descending order. -/
def SortedByAlignment (nodes : List PciResourceNode) : Prop :=
  nodes.Pairwise fun a b ↦ b.value.alignment ≤ a.value.alignment

instance (nodes : List PciResourceNode) : Decidable (SortedByAlignment nodes) :=
  inferInstanceAs (Decidable (nodes.Pairwise _))

/-- All five lists are sorted. -/
def ResourceWindows.Sorted (w : ResourceWindows) : Prop := ∀ t, SortedByAlignment (w t).childList

/-- The same nodes are in sorted lists, and nothing else of the windows is different. -/
structure Rearranges (w w' : ResourceWindows) : Prop where
  nodes : w'.nodes = w.nodes
  sorted : w'.Sorted
  frame : ∀ t, w' t = { w t with childList := (w' t).childList }

/-- **What degradation does for a bridge**, from the windows before to the windows after. A bridge
that combines may hold its 64-bit prefetchable memory among its other 64-bit memory. -/
structure Degrades (bridge : PciIoDevice) (w w' : ResourceWindows) : Prop extends
    Rearranges w w' where
  pmem64 : decodesType bridge .pmem64 = false → (w' .pmem64).childList = []
  pmem32 : decodesType bridge .pmem32 = false → (w' .pmem32).childList = []
  mem64 : decodesType bridge .mem64 = false →
    ¬ (combinesPmem bridge = true ∧ decodesType bridge .pmem64 = true) →
      (w' .mem64).childList = []
  exclusive : bridge.parent ≠ none → (w' .pmem64).childList ≠ [] → (w' .pmem32).childList = []

/-! ### Sorted lists -/

variable {t u : ResourceType} {w : ResourceWindows}

/-- **Insertion keeps the order.** What the loop passes is aligned no less than the new node, what it
stops before is aligned no more. -/
theorem SortedByAlignment.insertResourceNode {childList : List PciResourceNode}
    (h : SortedByAlignment childList) (n : PciResourceNode) :
    SortedByAlignment (insertResourceNode n childList) := by
  induction childList with
  | nil => exact List.pairwise_singleton _ _
  | cons temp rest ih =>
    obtain ⟨htemp, hrest⟩ := List.pairwise_cons.1 h
    rw [Pci.insertResourceNode, List.orderedInsert_cons]
    split
    · rename_i hstops
      have hle : temp.value.alignment ≤ n.value.alignment := by
        rcases hstops with hlt | ⟨heq, -⟩
        · exact BitVec.le_of_lt hlt
        · exact BitVec.le_of_eq heq.symm
      refine List.pairwise_cons.2 ⟨fun m hm ↦ ?_, h⟩
      rcases List.mem_cons.1 hm with rfl | hm
      · exact hle
      · exact BitVec.le_trans (htemp m hm) hle
    · rename_i hpasses
      have hle : n.value.alignment ≤ temp.value.alignment :=
        BitVec.not_lt.1 fun hlt ↦ hpasses (.inl hlt)
      refine List.pairwise_cons.2 ⟨fun m hm ↦ ?_, ih hrest⟩
      rcases mem_insertResourceNode.1 hm with rfl | hm
      · exact hle
      · exact htemp m hm

theorem SortedByAlignment.insertResourceNodes {childList : List PciResourceNode}
    (h : SortedByAlignment childList) (nodes : List PciResourceNode) :
    SortedByAlignment (insertResourceNodes nodes childList) :=
  List.foldlRecOn nodes _ h fun _ h n _ ↦ h.insertResourceNode n

/-! ### Replacing a list -/

@[simp] theorem childList_setChildList_self (w : ResourceWindows) (t : ResourceType)
    (l : List PciResourceNode) : (w.setChildList t l t).childList = l := by
  rw [ResourceWindows.setChildList, Function.update_self]

theorem setChildList_of_ne (w : ResourceWindows) (l : List PciResourceNode) (h : u ≠ t) :
    w.setChildList t l u = w u := by
  rw [ResourceWindows.setChildList, Function.update_of_ne h]

/-- Only the list is different. -/
theorem setChildList_frame (w : ResourceWindows) (t : ResourceType) (l : List PciResourceNode)
    (u : ResourceType) :
    w.setChildList t l u = { w u with childList := (w.setChildList t l u).childList } := by
  by_cases hu : u = t
  · subst hu
    rw [ResourceWindows.setChildList, Function.update_self]
  · rw [setChildList_of_ne w l hu]

theorem ResourceWindows.Sorted.setChildList (h : w.Sorted) {l : List PciResourceNode}
    (hl : SortedByAlignment l) : (w.setChildList t l).Sorted := by
  intro u
  by_cases hu : u = t
  · subst hu
    rwa [childList_setChildList_self]
  · rw [setChildList_of_ne w l hu]
    exact h u

/-- What a replaced list adds to the nodes, against what it took away. -/
theorem nodes_setChildList (w : ResourceWindows) (t : ResourceType) (l : List PciResourceNode) :
    (w.setChildList t l).nodes + ((w t).childList.map (retype .io16) : List PciResourceNode) =
      w.nodes + (l.map (retype .io16) : List PciResourceNode) := by
  have hrest : ∑ u ∈ univ.erase t,
      (((w.setChildList t l u).childList.map (retype .io16) : List PciResourceNode) :
        Multiset PciResourceNode) =
      ∑ u ∈ univ.erase t, (((w u).childList.map (retype .io16) : List PciResourceNode) :
        Multiset PciResourceNode) := by
    refine sum_congr rfl fun u hu ↦ ?_
    rw [setChildList_of_ne w l (ne_of_mem_erase hu)]
  rw [ResourceWindows.nodes, ResourceWindows.nodes, ← add_sum_erase univ _ (mem_univ t),
    ← add_sum_erase univ _ (mem_univ t), hrest, childList_setChildList_self]
  abel

/-! ### Moves -/

/-- Nodes move from one list to another: those of `moved` are inserted, those of `kept` are left.
Both kinds of moves in the source are instances. -/
def moveNodes (w : ResourceWindows) (src dst : ResourceType) (moved kept : List PciResourceNode) :
    ResourceWindows :=
  (w.setChildList dst (insertResourceNodes moved (w dst).childList)).setChildList src kept

variable {src dst : ResourceType} {moved kept : List PciResourceNode}

theorem degradeNodes_eq (d : PciIoDevice) (src dst : ResourceType) (w : ResourceWindows) :
    degradeNodes d src dst w = moveNodes w src dst ((w src).childList.filter (degradesNode d))
      ((w src).childList.filter fun n ↦ !degradesNode d n) := rfl

theorem mergeResourceTree_eq (w : ResourceWindows) (dst res : ResourceType) (typeMerge : Bool) :
    w.mergeResourceTree dst res typeMerge =
      moveNodes w res dst
        ((w res).childList.map fun n ↦ if typeMerge then retype dst n else n) [] := rfl

/-- **A move conserves nodes** that takes out of the list what it does not keep. -/
theorem nodes_moveNodes (hne : src ≠ dst)
    (hperm : ((moved ++ kept).map (retype .io16)).Perm ((w src).childList.map (retype .io16))) :
    (moveNodes w src dst moved kept).nodes = w.nodes := by
  have hdst := nodes_setChildList w dst (insertResourceNodes moved (w dst).childList)
  have hsrc := nodes_setChildList
    (w.setChildList dst (insertResourceNodes moved (w dst).childList)) src kept
  have hins := Multiset.coe_eq_coe.2
    ((insertResourceNodes_perm moved (w dst).childList).map (retype .io16))
  have hlist := Multiset.coe_eq_coe.2 hperm
  rw [setChildList_of_ne _ _ hne, ← hlist] at hsrc
  rw [hins] at hdst
  rw [List.map_append, ← Multiset.coe_add] at hdst hsrc
  have hmoved := add_right_cancel (hdst.trans (add_assoc _ _ _).symm)
  refine add_right_cancel (b := ((moved.map (retype .io16) : List PciResourceNode) :
    Multiset PciResourceNode) + (kept.map (retype .io16) : List PciResourceNode)) ?_
  rw [moveNodes, hsrc, hmoved]
  exact add_assoc _ _ _

variable {w₀ : ResourceWindows}

theorem Rearranges.moveNodes (h : Rearranges w₀ w) (hne : src ≠ dst)
    (hkept : kept.Sublist (w src).childList)
    (hperm : ((moved ++ kept).map (retype .io16)).Perm ((w src).childList.map (retype .io16))) :
    Rearranges w₀ (moveNodes w src dst moved kept) where
  nodes := (nodes_moveNodes hne hperm).trans h.nodes
  sorted := (h.sorted.setChildList ((h.sorted dst).insertResourceNodes moved)).setChildList
    ((h.sorted src).sublist hkept)
  frame := fun t ↦ by rw [Pci.moveNodes, setChildList_frame, setChildList_frame, h.frame]

theorem Rearranges.degradeNodes (h : Rearranges w₀ w) (d : PciIoDevice) (hne : src ≠ dst) :
    Rearranges w₀ (degradeNodes d src dst w) := by
  rw [degradeNodes_eq]
  exact h.moveNodes hne List.filter_sublist ((List.filter_append_perm (degradesNode d) _).map _)

theorem Rearranges.mergeResourceTree (h : Rearranges w₀ w) (hne : src ≠ dst) (typeMerge : Bool) :
    Rearranges w₀ (w.mergeResourceTree dst src typeMerge) := by
  rw [mergeResourceTree_eq]
  refine h.moveNodes hne (List.nil_sublist _) ?_
  rw [List.append_nil, List.map_map]
  refine List.Perm.of_eq (List.map_congr_left fun n _ ↦ ?_)
  cases typeMerge <;> rfl

theorem Rearranges.degradeUnless (h : Rearranges w₀ w) (supported : Bool) (hne : src ≠ dst) :
    Rearranges w₀ (degradeUnless supported dst src w) := by
  unfold Pci.degradeUnless
  split
  · exact h
  · exact h.mergeResourceTree hne true

theorem Rearranges.degradeForOptionRom (h : Rearranges w₀ w) (children : List PciIoDevice) :
    Rearranges w₀ (degradeForOptionRom cfg children w) := by
  unfold Pci.degradeForOptionRom
  split
  · refine List.foldlRecOn children _ h fun w h d _ ↦ ?_
    split
    · exact (h.degradeNodes d (by decide)).degradeNodes d (by decide)
    · exact h
  · exact h

/-! ### The cascade -/

theorem degradeUnless_of_ne (w : ResourceWindows) (supported : Bool) (hdst : t ≠ dst)
    (hsrc : t ≠ src) : degradeUnless supported dst src w t = w t := by
  unfold degradeUnless
  split
  · rfl
  · exact mergeResourceTree_of_ne w true hdst hsrc

/-- A type that is not decoded is merged away. -/
theorem degradeUnless_src (w : ResourceWindows) (dst src : ResourceType) {supported : Bool}
    (h : supported = false) : (degradeUnless supported dst src w src).childList = [] := by
  rw [degradeUnless, if_neg (by rw [h]; decide), mergeResourceTree_res]

/-- A list that was empty stays so when its own type is merged. -/
theorem degradeUnless_src_of_nil (w : ResourceWindows) (supported : Bool)
    (h : (w src).childList = []) : (degradeUnless supported dst src w src).childList = [] := by
  unfold degradeUnless
  split
  · exact h
  · exact mergeResourceTree_res w dst src true

/-- An empty list adds nothing to the list that it is merged into. -/
theorem mergeResourceTree_dst_of_nil (w : ResourceWindows) (hne : dst ≠ src) (typeMerge : Bool)
    (h : (w src).childList = []) :
    (w.mergeResourceTree dst src typeMerge dst).childList = (w dst).childList := by
  rw [mergeResourceTree_eq, h, moveNodes, setChildList_of_ne _ _ hne, childList_setChildList_self]
  rfl

/-- What the merges for 64-bit resources leave. -/
structure Degraded64 (bridge : PciIoDevice) (w₀ w : ResourceWindows) : Prop extends
    Rearranges w₀ w where
  pmem64 : decodesType bridge .pmem64 = false → (w .pmem64).childList = []
  mem64 : decodesType bridge .mem64 = false → (w .mem64).childList = []
  exclusive : bridge.parent ≠ none → (w .pmem64).childList ≠ [] → (w .pmem32).childList = []

theorem degraded64_degradeMem64 (bridge : PciIoDevice) (h : Rearranges w₀ w) :
    Degraded64 bridge w₀ (degradeMem64 cfg bridge w) := by
  unfold degradeMem64
  split
  · -- 32-bit firmware keeps nothing in the 64-bit lists.
    have hpmem64 := mergeResourceTree_res (w.mergeResourceTree .mem32 .mem64 true) .pmem32 .pmem64
      true
    refine ⟨(h.mergeResourceTree (by decide) true).mergeResourceTree (by decide) true,
      fun _ ↦ hpmem64, fun _ ↦ ?_, fun _ hne ↦ absurd hpmem64 hne⟩
    rw [mergeResourceTree_of_ne _ _ (by decide) (by decide), mergeResourceTree_res]
  · have hmoved := (h.degradeUnless (decodesType bridge .mem64)
      (show ResourceType.mem64 ≠ .mem32 by decide)).degradeUnless (decodesType bridge .pmem64)
      (show ResourceType.pmem64 ≠ .pmem32 by decide)
    have hpmem64 := fun hno : decodesType bridge .pmem64 = false ↦ degradeUnless_src
      (degradeUnless (decodesType bridge .mem64) .mem32 .mem64 w) .pmem32 .pmem64 hno
    have hmem64 : decodesType bridge .mem64 = false →
        (degradeUnless (decodesType bridge .pmem64) .pmem32 .pmem64
          (degradeUnless (decodesType bridge .mem64) .mem32 .mem64 w) .mem64).childList = [] := by
      intro hno
      rw [degradeUnless_of_ne _ _ (by decide) (by decide), degradeUnless_src w _ _ hno]
    dsimp only
    split
    · refine ⟨hmoved.mergeResourceTree (by decide) true, fun hno ↦ ?_, fun hno ↦ ?_,
        fun _ _ ↦ mergeResourceTree_res _ _ _ _⟩
      · rw [mergeResourceTree_of_ne _ _ (by decide) (by decide)]
        exact hpmem64 hno
      · rw [mergeResourceTree_of_ne _ _ (by decide) (by decide)]
        exact hmem64 hno
    · rename_i hnot
      exact ⟨hmoved, hpmem64, hmem64, fun hparent hne ↦ absurd ⟨hne, hparent⟩ hnot⟩

/-- **Degradation conserves the nodes** and empties the lists that it is for. -/
theorem degrades_degradeResource (bridge : PciIoDevice) (children : List PciIoDevice)
    (h : w.Sorted) : Degrades bridge w (degradeResource cfg bridge children w) := by
  have h64 := degraded64_degradeMem64 cfg bridge
    (Rearranges.degradeForOptionRom cfg ⟨rfl, h, fun _ ↦ rfl⟩ children)
  unfold degradeResource
  dsimp only
  generalize degradeMem64 cfg bridge (degradeForOptionRom cfg children w) = w₁ at h64
  have hmoved := h64.degradeUnless (decodesType bridge .pmem32)
    (show ResourceType.pmem32 ≠ .mem32 by decide)
  have hpmem32 := fun hno : decodesType bridge .pmem32 = false ↦
    degradeUnless_src w₁ .mem32 .pmem32 hno
  split
  · rename_i hcombine
    refine ⟨(hmoved.mergeResourceTree (by decide) false).mergeResourceTree (by decide) false,
      fun _ ↦ mergeResourceTree_res _ _ _ _, fun _ ↦ ?_, fun hno hnot ↦ ?_, fun _ _ ↦ ?_⟩
    · rw [mergeResourceTree_of_ne _ _ (by decide) (by decide), mergeResourceTree_res]
    · have hpmem64 := h64.pmem64 (Bool.eq_false_iff.2 fun hyes ↦ hnot ⟨hcombine, hyes⟩)
      rw [mergeResourceTree_dst_of_nil _ (by decide), mergeResourceTree_of_ne _ _ (by decide)
        (by decide), degradeUnless_of_ne _ _ (by decide) (by decide)]
      · exact h64.mem64 hno
      · rwa [mergeResourceTree_of_ne _ _ (by decide) (by decide),
          degradeUnless_of_ne _ _ (by decide) (by decide)]
    · rw [mergeResourceTree_of_ne _ _ (by decide) (by decide), mergeResourceTree_res]
  · refine ⟨hmoved, fun hno ↦ ?_, hpmem32, fun hno _ ↦ ?_, fun hparent hne ↦ ?_⟩
    · rw [degradeUnless_of_ne _ _ (by decide) (by decide)]
      exact h64.pmem64 hno
    · rw [degradeUnless_of_ne _ _ (by decide) (by decide)]
      exact h64.mem64 hno
    · rw [degradeUnless_of_ne _ _ (by decide) (by decide)] at hne
      exact degradeUnless_src_of_nil _ _ (h64.exclusive hparent hne)

end PurleyFirmware.Pci
