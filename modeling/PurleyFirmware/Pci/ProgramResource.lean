import PurleyFirmware.Pci.Degradation
import PurleyFirmware.Uefi.Status

/-!
# Programming the resource map

`ProgramResource` walks down the lists that `CreateResourceMap` made and programs the BARs of the
devices and the apertures of the bridges. A PCI-to-PCI bridge has no aperture for 64-bit memory that
is not prefetchable: the node of that window has an index that is no BAR, and `ProgramPpbApperture`
does nothing for it. Nothing is lost, because `GatherPpbInfo` does not give a bridge the decode, so
the degradation empties the list and no such node is made.
-/

namespace PurleyFirmware.Pci

variable (cfg : ResourceConfig)

/-! ### The decodes of a PCI-to-PCI bridge -/

/-- What `GatherPpbInfo` reads from a bridge after it wrote ones. -/
structure PpbProbe where
  /-- The I/O base register. -/
  ioBase : BitVec 8
  /-- The base and limit registers of prefetchable memory. -/
  pMemBaseLimit : BitVec 32
  /-- The upper half of the base of prefetchable memory. -/
  pMemBaseUpper : BitVec 32

/-- The decodes for I/O. -/
def PpbProbe.ioDecodes (p : PpbProbe) : BitVec 32 :=
  if p.ioBase ≠ 0 then
    if p.ioBase &&& 0x01 ≠ 0 then efiBridgeIo32DecodeSupported else efiBridgeIo16DecodeSupported
  else 0

/-- The decodes for prefetchable memory. -/
def PpbProbe.pmemDecodes (p : PpbProbe) : BitVec 32 :=
  let prefetchableMemoryBase := p.pMemBaseLimit.setWidth 16
  let prefetchableMemoryLimit := (p.pMemBaseLimit >>> 16).setWidth 16
  if p.pMemBaseLimit ≠ 0 ∧ prefetchableMemoryBase &&& 0x000f = 0x0001 ∧
      prefetchableMemoryLimit &&& 0x000f = 0x0001 then
    if p.pMemBaseUpper ≠ 0 then efiBridgePmem32DecodeSupported ||| efiBridgePmem64DecodeSupported
    else efiBridgePmem32DecodeSupported
  else 0

/-- The decodes that `GatherPpbInfo` gives a bridge. -/
def gatherPpbInfo (p : PpbProbe) : BitVec 32 :=
  p.ioDecodes ||| p.pmemDecodes ||| efiBridgeMem32DecodeSupported

/-- The decodes of every PCI-to-PCI bridge of a list of devices are those that were gathered. -/
def PpbsGathered (devices : List PciIoDevice) : Prop :=
  ∀ d ∈ devices, d.isPciBridge = true → ∃ p : PpbProbe, d.decodes = gatherPpbInfo p

/-! ### Programming a bridge -/

/-- What the programming of a bridge reads and writes. -/
inductive PpbEffect
  /-- `PciBar[index].BarType` is read. -/
  | readBarType (index : ℕ)
  /-- The register of the BAR is written, or the one that is `delta` bytes behind. -/
  | writeBar (index delta : ℕ) (value : BitVec 32)
  /-- A register of the configuration space is written. -/
  | write (offset : ℕ) {width : ℕ} (value : BitVec width)
  /-- `PciBar[index]` gets an address and a length. -/
  | record (index : ℕ) (baseAddress length : BitVec 64)

/-- The index into `PciBar`. -/
def PpbEffect.barIndex : PpbEffect → Option ℕ
  | readBarType index => some index
  | writeBar index _ _ => some index
  | write _ _ => none
  | record index _ _ => some index

/-- The BARs of a bridge itself, by type. -/
def programPpbBar (bar : ℕ) (barType : PciBarType) (address length : BitVec 64) :
    List PpbEffect :=
  match barType with
  | .io16 | .io32 | .mem32 | .pmem32 =>
    [.writeBar bar 0 (address.setWidth 32), .record bar address length]
  | .mem64 | .pmem64 =>
    [.writeBar bar 0 (address.setWidth 32), .writeBar bar 4 ((address >>> 32).setWidth 32),
      .record bar address length]
  | _ => []

/-- `ProgramPpbApperture`. -/
def programPpbApperture (base : BitVec 64) (node : ResourceRequest) : List PpbEffect :=
  if node.length = 0 ∨ node.isPadding = true then []
  else
    let address := base + node.offset
    let limit := address + node.length - 1
    match node.bar with
    | 0 =>
      .readBarType 0 :: programPpbBar 0 (node.pciDev.pciBar 0).barType address node.length
    | 1 =>
      .readBarType 1 :: programPpbBar 1 (node.pciDev.pciBar 1).barType address node.length
    | 2 =>
      [.write 0x1C ((address >>> 8).setWidth 8), .write 0x30 ((address >>> 16).setWidth 16),
        .write 0x1D ((limit >>> 8).setWidth 8), .write 0x32 ((limit >>> 16).setWidth 16),
        .record 2 address node.length]
    | 3 =>
      [.write 0x20 ((address >>> 16).setWidth 16), .write 0x22 ((limit >>> 16).setWidth 16),
        .record 3 address node.length]
    | 4 => programPmem 4 address limit node.length
    | 5 => programPmem 5 address limit node.length
    | _ => []
where
  /-- The aperture of prefetchable memory. -/
  programPmem (bar : ℕ) (address limit length : BitVec 64) : List PpbEffect :=
    [.write 0x24 ((address >>> 16).setWidth 16), .write 0x26 ((limit >>> 16).setWidth 16),
      .write 0x28 ((address >>> 32).setWidth 32), .write 0x2C ((limit >>> 32).setWidth 32),
      .record bar address length]

/-- The node with which `ProgrameUpstreamBridgeForRom` opens an aperture. -/
def romNode (parent : PciIoDevice) (romSize : BitVec 64) : ResourceRequest :=
  (createResourceNode parent romSize 0 (ppbRange .mem32) .mem32 .typical).value

/-! ### Programming the tree -/

/-- `gAllOne`. -/
def gAllOne : BitVec 64 := 0xFFFFFFFFFFFFFFFF

/-- The functions that program a node. -/
inductive ProgramFunction
  | programBar
  | programP2C
  | programPpbApperture
  deriving DecidableEq

/-- A call of one of them. -/
structure ProgramCall where
  function : ProgramFunction
  base : BitVec 64
  node : ResourceRequest

/-- What the programming from a base address returns, and the calls that it makes. -/
abbrev Programming := BitVec 64 → EfiStatus × List ProgramCall

/-- The loop of `ProgramResource`, over nodes with the programming of what is below them. -/
def programNodes (base : BitVec 64) :
    List (ResourceRequest × Programming) → EfiStatus × List ProgramCall
  | [] => (.success, [])
  | (node, below) :: rest =>
    if node.pciDev.isPciBridge = false then
      let function := if node.pciDev.isCardBusBridge then .programP2C else .programBar
      let (status, calls) := programNodes base rest
      (status, ⟨function, base, node⟩ :: calls)
    else
      let (status, calls) := below (base + node.offset)
      if status.isError then (status, calls)
      else
        let (status, more) := programNodes base rest
        (status, calls ++ ⟨.programPpbApperture, base, node⟩ :: more)

/-- A node with the programming of what is below it. -/
def programBelow (node : ResourceRequest) (children : List (ResourceRequest × Programming)) :
    ResourceRequest × Programming :=
  (node, fun base ↦
    if base = gAllOne then (.outOfResources, []) else programNodes base children)

/-- `ProgramResource`. -/
def programResource (bridge : PciResourceNode) : Programming := (bridge.fold programBelow).2

theorem fold_programBelow (t : PciResourceNode) :
    t.fold programBelow = (t.value, programResource t) := by
  cases t with
  | node a ts => rw [programResource, RoseTree.fold_node]; rfl

theorem programResource_node (node : ResourceRequest) (children : List PciResourceNode)
    (base : BitVec 64) :
    programResource (.node node children) base =
      if base = gAllOne then (.outOfResources, [])
      else programNodes base (children.map fun c ↦ (c.value, programResource c)) := by
  rw [programResource, RoseTree.fold_node, programBelow,
    List.map_congr_left fun t _ ↦ fold_programBelow t]

/-- The calls of the loop are for its nodes, and for those below. -/
theorem programNodes_node {p : ResourceRequest → Prop}
    {nodes : List (ResourceRequest × Programming)} (base : BitVec 64)
    (hnode : ∀ c ∈ nodes, p c.1) (hbelow : ∀ c ∈ nodes, ∀ b, ∀ call ∈ (c.2 b).2, p call.node) :
    ∀ call ∈ (programNodes base nodes).2, p call.node := by
  induction nodes with
  | nil => exact fun call hcall ↦ absurd hcall List.not_mem_nil
  | cons c rest ih =>
    obtain ⟨node, below⟩ := c
    have hrest := ih (fun c hc ↦ hnode c (List.mem_cons_of_mem _ hc))
      fun c hc ↦ hbelow c (List.mem_cons_of_mem _ hc)
    have hfirst := hbelow (node, below) List.mem_cons_self (base + node.offset)
    have hself : p node := hnode (node, below) List.mem_cons_self
    intro call hcall
    unfold programNodes at hcall
    dsimp only at hcall
    split at hcall
    · rcases List.mem_cons.1 hcall with rfl | hcall
      · exact hself
      · exact hrest call hcall
    · split at hcall
      · exact hfirst call hcall
      · rcases List.mem_append.1 hcall with hcall | hcall
        · exact hfirst call hcall
        · rcases List.mem_cons.1 hcall with rfl | hcall
          · exact hself
          · exact hrest call hcall

/-- **Only what is in the tree is programmed.** -/
theorem programResource_mem (bridge : PciResourceNode) (base : BitVec 64) :
    ∀ call ∈ (programResource bridge base).2, call.node ∈ bridge.descendants := by
  induction bridge using RoseTree.ind generalizing base with
  | hnode a ts ih =>
    rw [programResource_node]
    split
    · exact fun call hcall ↦ absurd hcall List.not_mem_nil
    · have hchild : ∀ t ∈ ts, ∀ r ∈ t.values, r ∈ (RoseTree.node a ts).descendants :=
        fun t ht r hr ↦ List.mem_flatMap.2 ⟨t, ht, hr⟩
      refine programNodes_node base (fun c hc ↦ ?_) fun c hc b call hcall ↦ ?_
      · obtain ⟨t, ht, rfl⟩ := List.mem_map.1 hc
        exact hchild t ht _ t.value_mem_values
      · obtain ⟨t, ht, rfl⟩ := List.mem_map.1 hc
        exact hchild t ht _ (t.descendants_sublist_values.mem (ih t ht b call hcall))

/-! ### The indices of the nodes -/

/-- Every index in the tree of a node is that of a BAR. -/
def BarsBelow (n : PciResourceNode) : Prop := ∀ r ∈ n.values, r.bar < pciMaxBar

/-- What holds of the windows while their map is made. -/
structure Collects (w : ResourceWindows) : Prop where
  sorted : w.Sorted
  bars : ∀ t, ∀ n ∈ (w t).childList, BarsBelow n
  length : ∀ t, (w t).length = 0

variable {w : ResourceWindows} {t : ResourceType}

theorem BarsBelow.of_value {n m : PciResourceNode} (h : BarsBelow n)
    (hbar : m.value.bar = n.value.bar) (hchildren : m.children = n.children) : BarsBelow m := by
  intro r hr
  rw [RoseTree.values_eq] at hr
  rcases List.mem_cons.1 hr with rfl | hr
  · rw [hbar]
    exact h _ n.value_mem_values
  · rw [RoseTree.descendants, hchildren] at hr
    exact h r (n.descendants_sublist_values.mem hr)

theorem barsBelow_leaf {r : ResourceRequest} (h : r.bar < pciMaxBar) : BarsBelow (.node r []) := by
  intro s hs
  rw [RoseTree.values_eq] at hs
  rcases List.mem_cons.1 hs with rfl | hs
  · exact h
  · exact absurd hs List.not_mem_nil

theorem Collects.insert (h : Collects w) (t : ResourceType) {n : PciResourceNode}
    (hn : BarsBelow n) : Collects (w.insert t n) where
  sorted := h.sorted.setChildList ((h.sorted t).insertResourceNode n)
  bars := by
    intro u m hm
    by_cases hu : u = t
    · subst hu
      rw [ResourceWindows.insert, childList_setChildList_self] at hm
      rcases mem_insertResourceNode.1 hm with rfl | hm
      · exact hn
      · exact h.bars u m hm
    · rw [ResourceWindows.insert, setChildList_of_ne _ _ hu] at hm
      exact h.bars u m hm
  length := fun u ↦ by rw [ResourceWindows.insert, setChildList_frame]; exact h.length u

theorem collects_emptyWindows (alignment : ResourceType → BitVec 64) :
    Collects (emptyWindows alignment) :=
  ⟨fun _ ↦ List.Pairwise.nil, fun _ _ hn ↦ absurd hn List.not_mem_nil, fun _ ↦ rfl⟩

theorem Collects.getResourceFromDevice (h : Collects w) (d : PciIoDevice) :
    Collects (getResourceFromDevice d w) := by
  refine List.foldlRecOn _ _ (List.foldlRecOn _ _ h fun w h i hi ↦ ?_) fun w h i hi ↦ ?_
  · split
    · exact h.insert _ (barsBelow_leaf (List.mem_range.1 hi))
    · exact h
  · split
    · exact h.insert _ (barsBelow_leaf (List.mem_range.1 hi))
    · exact h

/-- The windows of a bridge are inserted: the one whose index is no BAR is not requested. -/
theorem Collects.insertWindows (h : Collects w) (d : PciIoDevice) {windows : ResourceWindows}
    (hbars : ∀ t, ∀ n ∈ (windows t).childList, BarsBelow n)
    (hmem64 : (windows .mem64).resourceRequestExisted = false) :
    Collects (insertWindows d windows w) := by
  refine List.foldlRecOn _ _ h fun w h t _ ↦ ?_
  split
  · rename_i hexisted
    refine h.insert t fun r hr ↦ ?_
    rw [RoseTree.values_eq] at hr
    rcases List.mem_cons.1 hr with rfl | hr
    · cases t with
      | mem64 => exact absurd hexisted (by rw [hmem64]; decide)
      | io16 => exact (by decide : 2 < pciMaxBar)
      | mem32 => exact (by decide : 3 < pciMaxBar)
      | pmem32 => exact (by decide : 4 < pciMaxBar)
      | pmem64 => exact (by decide : 5 < pciMaxBar)
    · obtain ⟨n, hn, hr⟩ := List.mem_flatMap.1 hr
      exact hbars t n hn r hr
  · exact h

theorem Collects.resourcePaddingForCardBusBridge (h : Collects w) (d : PciIoDevice) :
    Collects (resourcePaddingForCardBusBridge d w) :=
  (((h.insert _ (barsBelow_leaf (by decide : 1 < pciMaxBar))).insert _
    (barsBelow_leaf (by decide : 2 < pciMaxBar))).insert _
    (barsBelow_leaf (by decide : 3 < pciMaxBar))).insert _
    (barsBelow_leaf (by decide : 4 < pciMaxBar))

theorem Collects.resourcePaddingPolicy (h : Collects w) (d : PciIoDevice) :
    Collects (resourcePaddingPolicy d w) := by
  unfold Pci.resourcePaddingPolicy
  split
  · refine List.foldlRecOn _ _ h fun w h ptr _ ↦ ?_
    unfold applyDescriptor
    split
    · split
      · exact h.insert _ (barsBelow_leaf (by decide : 0 < pciMaxBar))
      · exact h
    · exact h
  · exact h

/-- The windows of a map that may be inserted where the bridge itself is. -/
structure Inserts (d : PciIoDevice) (windows : ResourceWindows) : Prop where
  bars : ∀ t, ∀ n ∈ (windows t).childList, BarsBelow n
  mem64 : d.isPciBridge = true → (windows .mem64).resourceRequestExisted = false

theorem Collects.mapDevice (h : Collects w) {c : PciIoDevice × ResourceWindows}
    (hc : Inserts c.1 c.2) : Collects (mapDevice w c) := by
  have hown := h.getResourceFromDevice c.1
  unfold Pci.mapDevice
  dsimp only
  have hwindows : Collects (if c.1.isPciBridge then
      Pci.insertWindows c.1 c.2 (Pci.getResourceFromDevice c.1 w)
        else Pci.getResourceFromDevice c.1 w) := by
    split
    · rename_i hppb
      exact hown.insertWindows c.1 hc.bars (hc.mem64 hppb)
    · exact hown
  split
  · exact hwindows.resourcePaddingForCardBusBridge c.1
  · exact hwindows

/-- **Degradation keeps the indices**, because it conserves the nodes. -/
theorem Collects.degradeResource (h : Collects w) (bridge : PciIoDevice)
    (children : List PciIoDevice) : Collects (degradeResource cfg bridge children w) := by
  have hdegrades := degrades_degradeResource cfg bridge children h.sorted
  refine ⟨hdegrades.sorted, fun t n hn ↦ ?_, fun t ↦ ?_⟩
  · have hmem : retype .io16 n ∈ w.nodes := by
      rw [← hdegrades.nodes]
      exact Multiset.mem_sum.2 ⟨t, Finset.mem_univ t,
        Multiset.mem_coe.2 (List.mem_map_of_mem hn)⟩
    obtain ⟨u, -, hu⟩ := Multiset.mem_sum.1 hmem
    obtain ⟨m, hm, heq⟩ := List.mem_map.1 (Multiset.mem_coe.1 hu)
    refine (h.bars u m hm).of_value ?_ ?_
    · exact (congrArg (fun n ↦ n.value.bar) heq).symm
    · exact (congrArg RoseTree.children heq).symm
  · rw [hdegrades.frame]
    exact h.length t

/-- The layout only gives offsets. -/
theorem barsBelow_layOut {nodes : List PciResourceNode} (v : ApertureVars)
    (h : ∀ n ∈ nodes, BarsBelow n) : ∀ n ∈ (layOut cfg t nodes v).1, BarsBelow n := by
  induction nodes generalizing v with
  | nil => exact fun n hn ↦ absurd hn List.not_mem_nil
  | cons node nodes ih =>
    have hnode := h node List.mem_cons_self
    have hrest := fun v ↦ ih v fun n hn ↦ h n (List.mem_cons_of_mem _ hn)
    unfold layOut
    split
    · exact List.forall_mem_cons.2 ⟨hnode, hrest _⟩
    · exact List.forall_mem_cons.2 ⟨hnode.of_value rfl rfl, hrest _⟩

/-- An aperture for nothing has no length. -/
theorem calculateResourceAperture_nil {bridge : Window} (hnil : bridge.childList = [])
    (hlength : bridge.length = 0) :
    (calculateResourceAperture cfg t bridge).1.resourceRequestExisted = false := by
  have haperture : alignAperture (0#64) bridge.alignment = 0#64 := by simp [alignAperture]
  unfold calculateResourceAperture
  dsimp only
  rw [hnil]
  simp [layOut, haperture, hlength, Window.resourceRequestExisted]

/-- A PCI-to-PCI bridge neither decodes 64-bit memory that is not prefetchable nor combines. -/
theorem gatherPpbInfo_and (p : PpbProbe) {decode : BitVec 32}
    (hdecode : decode = efiBridgeMem64DecodeSupported ∨
      decode = efiBridgePmemMemCombineSupported) : gatherPpbInfo p &&& decode = 0 := by
  unfold gatherPpbInfo PpbProbe.ioDecodes PpbProbe.pmemDecodes
  dsimp only
  split_ifs <;> rcases hdecode with rfl | rfl <;> decide

theorem not_bridgeSupportResourceDecode {d : PciIoDevice} {p : PpbProbe} {decode : BitVec 32}
    (hd : d.decodes = gatherPpbInfo p)
    (hdecode : decode = efiBridgeMem64DecodeSupported ∨
      decode = efiBridgePmemMemCombineSupported) :
    bridgeSupportResourceDecode d decode = false := by
  rw [bridgeSupportResourceDecode, hd, gatherPpbInfo_and p hdecode]
  rfl

/-! ### The map -/

/-- The lists of a bridge, before they are degraded. -/
theorem collects_requests (bridge : PciIoDevice) {behind : List (PciIoDevice × ResourceWindows)}
    (h : Collects w) (hbehind : ∀ c ∈ behind, Inserts c.1 c.2) :
    Collects (resourcePaddingPolicy bridge (behind.foldl mapDevice w)) :=
  Collects.resourcePaddingPolicy
    (List.foldlRecOn behind mapDevice h fun _ h c hc ↦ h.mapDevice (hbehind c hc)) bridge

theorem barsBelow_mapBridge (bridge : PciIoDevice)
    {behind : List (PciIoDevice × ResourceWindows)} (h : Collects w)
    (hbehind : ∀ c ∈ behind, Inserts c.1 c.2) (t : ResourceType) :
    ∀ n ∈ ((mapBridge cfg bridge w behind).windows t).childList, BarsBelow n :=
  barsBelow_layOut cfg _ (((collects_requests bridge h hbehind).degradeResource cfg bridge
    (behind.map Prod.fst)).bars t)

/-- The map of a PCI-to-PCI bridge has no request for 64-bit memory that is not prefetchable. -/
theorem inserts_mapBridge {bridge : PciIoDevice} {behind : List (PciIoDevice × ResourceWindows)}
    (h : Collects w) (hbehind : ∀ c ∈ behind, Inserts c.1 c.2)
    (hppb : bridge.isPciBridge = true → ∃ p : PpbProbe, bridge.decodes = gatherPpbInfo p) :
    Inserts bridge (mapBridge cfg bridge w behind).windows := by
  refine ⟨barsBelow_mapBridge cfg bridge h hbehind, fun hbridge ↦ ?_⟩
  obtain ⟨p, hp⟩ := hppb hbridge
  have hrequests := collects_requests bridge h hbehind
  have hdegrades := degrades_degradeResource cfg bridge (behind.map Prod.fst) hrequests.sorted
  refine calculateResourceAperture_nil cfg (hdegrades.mem64 ?_ fun hboth ↦ ?_)
    ((hrequests.degradeResource cfg bridge _).length _)
  · exact not_bridgeSupportResourceDecode hp (.inl rfl)
  · rw [combinesPmem, not_bridgeSupportResourceDecode hp (.inr rfl)] at hboth
    exact absurd hboth.1 (by decide)

theorem ppbWindows_eq (d : PciIoDevice) : ∃ alignment, ppbWindows d = emptyWindows alignment :=
  ⟨fun t ↦ (ppbWindows d t).alignment, funext fun t ↦ by cases t <;> rfl⟩

theorem PpbsGathered.of_child {a : PciIoDevice} {ts : List (RoseTree PciIoDevice)}
    (h : PpbsGathered (RoseTree.node a ts).descendants) {t : RoseTree PciIoDevice} (ht : t ∈ ts) :
    PpbsGathered t.values := fun d hd ↦ h d (List.mem_flatMap.2 ⟨t, ht, hd⟩)

theorem inserts_createResourceMap (tree : RoseTree PciIoDevice) (h : PpbsGathered tree.values)
    (alignment : ResourceType → BitVec 64) :
    Inserts tree.value (createResourceMap cfg tree (emptyWindows alignment)).windows := by
  induction tree using RoseTree.ind generalizing alignment with
  | hnode a ts ih =>
    have hbelow : PpbsGathered (RoseTree.node a ts).descendants :=
      fun d hd ↦ h d ((RoseTree.descendants_sublist_values _).mem hd)
    rw [createResourceMap_windows]
    refine inserts_mapBridge cfg (collects_emptyWindows alignment) (fun c hc ↦ ?_)
      (h a (RoseTree.value_mem_values _))
    obtain ⟨t, ht, rfl⟩ := List.mem_map.1 hc
    obtain ⟨alignment', heq⟩ := ppbWindows_eq t.value
    dsimp only
    rw [heq]
    exact ih t ht (hbelow.of_child ht) alignment'

/-- **Every index in the map is that of a BAR**, whatever the bridge at the top decodes. -/
theorem barsBelow_createResourceMap {tree : RoseTree PciIoDevice}
    (h : PpbsGathered tree.descendants) (alignment : ResourceType → BitVec 64) (t : ResourceType) :
    ∀ n ∈ ((createResourceMap cfg tree (emptyWindows alignment)).windows t).childList,
      BarsBelow n := by
  cases tree with
  | node a ts =>
    rw [createResourceMap_windows]
    refine barsBelow_mapBridge cfg a (collects_emptyWindows alignment) (fun c hc ↦ ?_) t
    obtain ⟨s, hs, rfl⟩ := List.mem_map.1 hc
    obtain ⟨alignment', heq⟩ := ppbWindows_eq s.value
    dsimp only
    rw [heq]
    exact inserts_createResourceMap cfg s (h.of_child hs) alignment'

/-! ### What is programmed -/

/-- **The programming stays within the BARs**: no call is for the window that is no BAR, each index
passes the assertion of `ProgramBar`, and no bridge's BARs are read or written behind their end. -/
structure ProgramsBars (calls : List ProgramCall) : Prop where
  mem64 : ∀ call ∈ calls, call.node.bar ≠ ppbRange .mem64
  assertion : ∀ call ∈ calls, call.node.bar < pciMaxBar
  indices : ∀ call ∈ calls, call.function = .programPpbApperture →
    ∀ e ∈ programPpbApperture call.base call.node, ∀ i ∈ e.barIndex, i < pciMaxBar

theorem barIndex_programPpbBar {bar : ℕ} (hbar : bar < pciMaxBar) (barType : PciBarType)
    (address length : BitVec 64) :
    ∀ e ∈ programPpbBar bar barType address length, ∀ i ∈ e.barIndex, i < pciMaxBar := by
  cases barType <;> simp [programPpbBar, PpbEffect.barIndex, hbar]

/-- The branches of `ProgramPpbApperture` only have indices of BARs. -/
theorem barIndex_programPpbApperture (base : BitVec 64) (node : ResourceRequest) :
    ∀ e ∈ programPpbApperture base node, ∀ i ∈ e.barIndex, i < pciMaxBar := by
  unfold programPpbApperture
  dsimp only
  split
  · exact fun e he ↦ absurd he List.not_mem_nil
  · split
    · refine List.forall_mem_cons.2 ⟨?_, barIndex_programPpbBar (by decide) _ _ _⟩
      simp [PpbEffect.barIndex, pciMaxBar]
    · refine List.forall_mem_cons.2 ⟨?_, barIndex_programPpbBar (by decide) _ _ _⟩
      simp [PpbEffect.barIndex, pciMaxBar]
    all_goals simp [programPpbApperture.programPmem, PpbEffect.barIndex, pciMaxBar]

theorem programsBars_of_lt {calls : List ProgramCall}
    (h : ∀ call ∈ calls, call.node.bar < pciMaxBar) : ProgramsBars calls where
  mem64 := fun call hcall heq ↦ absurd (h call hcall) (by rw [heq]; decide)
  assertion := h
  indices := fun call _ _ ↦ barIndex_programPpbApperture call.base call.node

/-- **Degradation conserves resources**: for any decodes and sorted lists the nodes are conserved and
the lists that cannot be decoded are emptied; and in a tree whose bridges have the decodes that were
gathered, the programming stays within the BARs, also when an aperture is opened for an option ROM. -/
theorem degradeResource_conserves :
    (∀ (bridge : PciIoDevice) (children : List PciIoDevice) (w : ResourceWindows), w.Sorted →
      Degrades bridge w (degradeResource cfg bridge children w)) ∧
    (∀ (bridge : RoseTree PciIoDevice) (alignment : ResourceType → BitVec 64) (t : ResourceType)
      (bar : ℕ) (base : BitVec 64), PpbsGathered bridge.descendants →
        ProgramsBars (programResource
          (((createResourceMap cfg bridge (emptyWindows alignment)).windows t).node
            bridge.value bar t) base).2) ∧
    ∀ (parent : PciIoDevice) (romSize base : BitVec 64),
      ProgramsBars [⟨.programPpbApperture, base, romNode parent romSize⟩] := by
  refine ⟨fun bridge children w h ↦ degrades_degradeResource cfg bridge children h,
    fun bridge alignment t bar base h ↦ programsBars_of_lt fun call hcall ↦ ?_,
    fun parent romSize base ↦ programsBars_of_lt fun call hcall ↦ ?_⟩
  · obtain ⟨n, hn, hr⟩ := List.mem_flatMap.1 (programResource_mem _ base call hcall)
    exact barsBelow_createResourceMap cfg h alignment t n hn _ hr
  · rw [List.mem_singleton.1 hcall]
    exact (by decide : 3 < pciMaxBar)

/-- The hot-plug bridge with other decodes. -/
def bridgeDecoding (decodes : BitVec 32) : PciIoDevice := { paddedBridge with decodes := decodes }

/-- One request of each type. -/
def oneOfEach : ResourceWindows :=
  fun t ↦ ⟨0, 0xFFFFF, [createResourceNode paddedBridge 0x1000 0xFFF 0 t .typical]⟩

theorem sorted_oneOfEach : oneOfEach.Sorted := fun _ ↦ List.pairwise_singleton _ _

theorem degradeResource_conserves_paddedBridge :
    Degrades paddedBridge oneOfEach (degradeResource plainConfig paddedBridge [] oneOfEach) ∧
      ProgramsBars (programResource (((createResourceMap plainConfig
        (.node (bridgeDecoding 0x6E) [.node paddedBridge []])
        (emptyWindows fun _ ↦ 0xFFFFF)).windows .mem32).node (bridgeDecoding 0x6E) 2 .mem32)
          0x80000000).2 := by
  obtain ⟨hdegrades, hprograms, -⟩ := degradeResource_conserves plainConfig
  refine ⟨hdegrades _ _ _ sorted_oneOfEach,
    hprograms (.node (bridgeDecoding 0x6E) [.node paddedBridge []]) _ _ _ _ fun d hd _ ↦ ?_⟩
  rw [List.mem_singleton.1 hd]
  exact ⟨⟨0xF0, 0xFFF1FFF1, 0xFFFFFFFF⟩, by decide⟩

/-- The lists of all types that are not decoded are emptied. -/
structure Conserves (bridge : PciIoDevice) (w w' : ResourceWindows) : Prop extends
    Rearranges w w' where
  undecoded : ∀ t, decodesType bridge t = false → (w' t).childList = []
  exclusive : bridge.parent ≠ none → (w' .pmem64).childList ≠ [] → (w' .pmem32).childList = []

/-- A bridge that has no I/O window keeps its I/O requests, one that does not decode 32-bit memory
keeps those, and one that combines moves 64-bit prefetchable memory into a list it does not decode. -/
theorem not_conserves : oneOfEach.Sorted ∧ ∀ decodes ∈ [0x46, 0x0E, 0x5E],
    ¬ Conserves (bridgeDecoding decodes) oneOfEach
      (degradeResource plainConfig (bridgeDecoding decodes) [] oneOfEach) := by
  refine ⟨sorted_oneOfEach, fun decodes hmem hconserves ↦ ?_⟩
  have hempty := fun t ht ↦ congrArg List.isEmpty (hconserves.undecoded t ht)
  simp only [List.mem_cons, List.not_mem_nil, or_false] at hmem
  rcases hmem with rfl | rfl | rfl
  · exact absurd (hempty .io16 (by decide)) (by decide)
  · exact absurd (hempty .mem32 (by decide)) (by decide)
  · exact absurd (hempty .mem64 (by decide)) (by decide)

end PurleyFirmware.Pci
