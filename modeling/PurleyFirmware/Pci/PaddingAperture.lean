import PurleyFirmware.Foundation.FiberSum
import PurleyFirmware.Pci.ResourceMap
import Mathlib.Algebra.Order.BigOperators.Group.Finset

/-!
# Padding in the apertures

The calculation of an aperture assumes that its list has at most one padding node: it asserts so, and
it takes the larger of the length and of the last padding. A CardBus bridge has two padding nodes for
I/O, and when `DegradeResource` merges two lists that both have padding there are two as well.

`paddingHonoured_iff` says exactly when the assumption is right. The proof follows the number of
padding nodes of each list: only padding adds to them, the degradation for option ROMs does not move
them, and the merges move them along `degradesTo`.
-/

namespace PurleyFirmware.Pci

open Finset

variable (cfg : ResourceConfig)

instance : Fintype ResourceType where
  elems := {.io16, .mem32, .pmem32, .mem64, .pmem64}
  complete := by
    intro t
    cases t <;> decide

/-! ### The property -/

/-- The number of padding nodes in a list. -/
def paddings (nodes : List PciResourceNode) : ℕ := nodes.countP fun n ↦ n.value.isPadding

/-- The sum of the padding in a list. -/
def paddingSum : List PciResourceNode → ℕ
  | [] => 0
  | node :: nodes =>
    (if node.value.isPadding = true then node.value.length.toNat else 0) + paddingSum nodes

/-- **Padding is honoured**: the assertion holds, and each window has room for its padding. -/
structure PaddingHonoured (m : ResourceMap) : Prop where
  asserted : m.asserted = false
  length : ∀ t, paddingSum (m.windows t).childList ≤ (m.windows t).length.toNat

/-- A bridge, with the devices behind it and the windows of their own maps. -/
structure BridgeLevel where
  bridge : PciIoDevice
  behind : List (PciIoDevice × ResourceWindows)
  /-- The bridge is not behind itself. -/
  id_ne : ∀ c ∈ behind, c.1.id ≠ bridge.id

/-- Windows before a map is made. -/
def emptyWindows (alignment : ResourceType → BitVec 64) : ResourceWindows :=
  fun t ↦ ⟨0, alignment t, []⟩

/-! ### The condition -/

/-- The padding nodes that a CardBus bridge asks for. -/
def cardBusPaddings : ResourceType → ℕ
  | .io16 => 2
  | .mem32 => 1
  | .pmem32 => 1
  | _ => 0

/-- The padding descriptor is for the type, and for a part of it. -/
def AcpiAddressSpaceDescriptor.pads (t : ResourceType) (ptr : AcpiAddressSpaceDescriptor) : Bool :=
  ptr.paddingType = some t ∧ ptr.addrLen ≠ 0

namespace BridgeLevel

variable (b : BridgeLevel)

/-- The padding nodes that are asked for. -/
def requestedPaddings (t : ResourceType) : ℕ :=
  (b.behind.countP fun c ↦ c.1.isCardBusBridge) * cardBusPaddings t +
    (b.bridge.resourcePaddingDescriptors.getD []).countP (·.pads t)

/-- The lists before the degradation. -/
def requests (alignment : ResourceType → BitVec 64) : ResourceWindows :=
  resourcePaddingPolicy b.bridge (b.behind.foldl mapDevice (emptyWindows alignment))

/-- A request for 64-bit prefetchable memory that is decoded, and not degraded for an option ROM. -/
def KeepsPmem64 (alignment : ResourceType → BitVec 64) : Prop :=
  4 < cfg.sizeofUintn ∧
    bridgeSupportResourceDecode b.bridge efiBridgePmem64DecodeSupported = true ∧
      ∃ n ∈ (b.requests alignment .pmem64).childList, ∀ c ∈ b.behind,
        ¬ (cfg.pcdPciDegradeResourceForOptionRom = true ∧ degradesBars cfg c.1 = true ∧
          degradesNode c.1 n = true)

instance {alignment : ResourceType → BitVec 64} : Decidable (b.KeepsPmem64 cfg alignment) :=
  inferInstanceAs (Decidable (_ ∧ _ ∧ ∃ n ∈ _, ∀ c ∈ _, ¬ _))

/-- The list in which the requests of a type end, merge by merge. -/
def degradesTo (alignment : ResourceType → BitVec 64) :
    ResourceType → ResourceType :=
  let supports := bridgeSupportResourceDecode b.bridge
  let mem64 := if 4 < cfg.sizeofUintn ∧ supports efiBridgeMem64DecodeSupported = true then id
    else redirect .mem32 .mem64
  let pmem64 := if 4 < cfg.sizeofUintn ∧ supports efiBridgePmem64DecodeSupported = true then id
    else redirect .pmem32 .pmem64
  let pmem32 := if supports efiBridgePmem32DecodeSupported = true ∧
      ¬ (b.KeepsPmem64 cfg alignment ∧ b.bridge.parent ≠ none) then id
    else redirect .mem32 .pmem32
  let combined := if supports efiBridgePmemMemCombineSupported = true then
      redirect .mem64 .pmem64 ∘ redirect .mem32 .pmem32
    else id
  combined ∘ pmem32 ∘ pmem64 ∘ mem64

/-- **The padding fits**: the types that end in one list ask for one padding node together. -/
def PaddingFits (alignment : ResourceType → BitVec 64) : Prop :=
  ∀ t, fiberSum (b.degradesTo cfg alignment) b.requestedPaddings t ≤ 1

end BridgeLevel

/-! ### The padding nodes of the lists -/

theorem paddings_append (l l' : List PciResourceNode) :
    paddings (l ++ l') = paddings l + paddings l' := List.countP_append

theorem paddings_insertResourceNodes (nodes childList : List PciResourceNode) :
    paddings (insertResourceNodes nodes childList) = paddings childList + paddings nodes := by
  rw [paddings, (insertResourceNodes_perm nodes childList).countP_eq, ← paddings, paddings_append,
    Nat.add_comm]

/-- **How many padding nodes the lists have**, all of whose nodes satisfy `p`. -/
structure Padded (p : ResourceType → ResourceRequest → Prop) (c : ResourceType → ℕ)
    (w : ResourceWindows) : Prop where
  count : ∀ t, paddings (w t).childList = c t
  nodes : ∀ t, ∀ n ∈ (w t).childList, p t n.value

/-- Padding has a length, on which the assertion rests. -/
def NonzeroPadding (_ : ResourceType) (r : ResourceRequest) : Prop :=
  r.isPadding = true → r.length ≠ 0

/-- Before the degradation, padding for 64-bit memory is the bridge's own. -/
def OwnPadding (bridgeId : ℕ) (t : ResourceType) (r : ResourceRequest) : Prop :=
  r.isPadding = true → r.length ≠ 0 ∧ (t = .mem64 ∨ t = .pmem64 → r.pciDev.id = bridgeId)

variable {p q : ResourceType → ResourceRequest → Prop} {c : ResourceType → ℕ}
  {w : ResourceWindows} {bridgeId : ℕ} {t : ResourceType}

theorem Padded.mono (h : Padded p c w) (hpq : ∀ t r, p t r → q t r) : Padded q c w :=
  ⟨h.count, fun t n hn ↦ hpq t _ (h.nodes t n hn)⟩

theorem OwnPadding.nonzero {r : ResourceRequest} (h : OwnPadding bridgeId t r) : NonzeroPadding t r :=
  fun hr ↦ (h hr).1

theorem Padded.setChildList (h : Padded p c w) {l : List PciResourceNode}
    (hl : ∀ n ∈ l, p t n.value) :
    Padded p (Function.update c t (paddings l)) (w.setChildList t l) := by
  constructor
  · intro u
    by_cases hu : u = t
    · subst hu
      rw [ResourceWindows.setChildList, Function.update_self, Function.update_self]
    · rw [ResourceWindows.setChildList, Function.update_of_ne hu, Function.update_of_ne hu]
      exact h.count u
  · intro u
    by_cases hu : u = t
    · subst hu
      rw [ResourceWindows.setChildList, Function.update_self]
      exact hl
    · rw [ResourceWindows.setChildList, Function.update_of_ne hu]
      exact h.nodes u

/-! ### What adds padding -/

/-- A node is inserted. -/
theorem Padded.insert (h : Padded p c w) {n : PciResourceNode} (hn : p t n.value) :
    Padded p (Function.update c t (c t + if n.value.isPadding = true then 1 else 0))
      (w.insert t n) := by
  have hcount : paddings (insertResourceNode n (w t).childList) =
      c t + if n.value.isPadding = true then 1 else 0 := by
    rw [← h.count t, paddings, (insertResourceNode_perm n _).countP_eq, List.countP_cons]
    rfl
  have hset := h.setChildList (t := t) (l := insertResourceNode n (w t).childList) fun m hm ↦ by
    rcases mem_insertResourceNode.1 hm with rfl | hm
    · exact hn
    · exact h.nodes t m hm
  rwa [hcount] at hset

/-- A node that is no padding is inserted. -/
theorem Padded.insert_typical (h : Padded (OwnPadding bridgeId) c w) {n : PciResourceNode}
    (hn : n.value.isPadding = false) : Padded (OwnPadding bridgeId) c (w.insert t n) := by
  have hinsert := h.insert (t := t) (n := n) fun hpad ↦ by rw [hn] at hpad; cases hpad
  rw [hn] at hinsert
  simpa using hinsert

theorem Padded.getResourceFromDevice (h : Padded (OwnPadding bridgeId) c w) (d : PciIoDevice) :
    Padded (OwnPadding bridgeId) c (getResourceFromDevice d w) := by
  refine List.foldlRecOn _ _ (List.foldlRecOn _ _ h fun w h i _ ↦ ?_) fun w h i _ ↦ ?_
  · split
    · exact h.insert_typical rfl
    · exact h
  · split
    · exact h.insert_typical rfl
    · exact h

theorem Padded.insertWindows (h : Padded (OwnPadding bridgeId) c w) (d : PciIoDevice)
    (windows : ResourceWindows) : Padded (OwnPadding bridgeId) c (insertWindows d windows w) := by
  refine List.foldlRecOn _ _ h fun w h t _ ↦ ?_
  split
  · exact h.insert_typical rfl
  · exact h

/-- A CardBus bridge adds its padding. -/
theorem Padded.resourcePaddingForCardBusBridge (h : Padded (OwnPadding bridgeId) c w)
    (d : PciIoDevice) :
    Padded (OwnPadding bridgeId) (fun t ↦ c t + cardBusPaddings t)
      (resourcePaddingForCardBusBridge d w) := by
  have hown : ∀ (length alignment : BitVec 64) (bar : ℕ) (t : ResourceType), length ≠ 0 →
      ¬ (t = .mem64 ∨ t = .pmem64) →
        OwnPadding bridgeId t (createResourceNode d length alignment bar t .padding).value :=
    fun _ _ _ _ hlength hmem64 _ ↦ ⟨hlength, fun h ↦ absurd h hmem64⟩
  have hall := (((h.insert (hown 0x2000000 0x1ffffff 1 .mem32 (by decide) (by decide))).insert
    (hown 0x2000000 0x1ffffff 2 .pmem32 (by decide) (by decide))).insert
    (hown 0x100 0xff 3 .io16 (by decide) (by decide))).insert
    (hown 0x100 0xff 4 .io16 (by decide) (by decide))
  refine ⟨fun t ↦ (hall.count t).trans ?_, hall.nodes⟩
  cases t <;> rfl

/-- A device adds padding if it is a CardBus bridge. -/
theorem Padded.mapDevice (h : Padded (OwnPadding bridgeId) c w) (d : PciIoDevice × ResourceWindows) :
    Padded (OwnPadding bridgeId)
      (fun t ↦ c t + if d.1.isCardBusBridge = true then cardBusPaddings t else 0)
      (mapDevice w d) := by
  have hown := h.getResourceFromDevice d.1
  have hwindows : Padded (OwnPadding bridgeId) c
      (if d.1.isPciBridge then Pci.insertWindows d.1 d.2 (Pci.getResourceFromDevice d.1 w)
        else Pci.getResourceFromDevice d.1 w) := by
    split
    · exact hown.insertWindows d.1 d.2
    · exact hown
  unfold Pci.mapDevice
  dsimp only
  by_cases hcard : d.1.isCardBusBridge = true
  · simp only [if_pos hcard]
    exact hwindows.resourcePaddingForCardBusBridge d.1
  · simp only [if_neg hcard]
    exact hwindows

theorem Padded.mapDevices (h : Padded (OwnPadding bridgeId) c w)
    (behind : List (PciIoDevice × ResourceWindows)) :
    Padded (OwnPadding bridgeId)
      (fun t ↦ c t + behind.countP (fun d ↦ d.1.isCardBusBridge) * cardBusPaddings t)
      (behind.foldl Pci.mapDevice w) := by
  induction behind generalizing c w with
  | nil => simpa using h
  | cons d behind ih =>
    have hrest := ih (h.mapDevice d)
    refine ⟨fun t ↦ (hrest.count t).trans ?_, hrest.nodes⟩
    rw [List.countP_cons, Nat.add_assoc]
    congr 1
    split
    · rw [Nat.succ_mul, Nat.add_comm]
    · rw [Nat.zero_add, Nat.add_zero]

/-- A descriptor adds its padding. -/
theorem Padded.applyDescriptor {bridge : PciIoDevice} (h : Padded (OwnPadding bridge.id) c w)
    (ptr : AcpiAddressSpaceDescriptor) :
    Padded (OwnPadding bridge.id) (fun t ↦ c t + if ptr.pads t = true then 1 else 0)
      (applyDescriptor bridge w ptr) := by
  unfold Pci.applyDescriptor
  cases htype : ptr.paddingType with
  | none =>
    simpa [AcpiAddressSpaceDescriptor.pads, htype] using h
  | some t =>
    dsimp only
    split
    · rename_i hlength
      have hinsert := h.insert (t := t)
        (n := createResourceNode bridge ptr.addrLen ptr.addrRangeMax 0 t .padding)
        fun _ ↦ ⟨hlength, fun _ ↦ rfl⟩
      refine ⟨fun u ↦ (hinsert.count u).trans ?_, hinsert.nodes⟩
      by_cases hu : u = t
      · subst hu
        have hpads : ptr.pads u = true := decide_eq_true ⟨htype, hlength⟩
        rw [Function.update_self, if_pos hpads]
        rfl
      · rw [Function.update_of_ne hu]
        simp [AcpiAddressSpaceDescriptor.pads, htype, Ne.symm hu]
    · rename_i hlength
      rw [Decidable.not_not] at hlength
      simpa [AcpiAddressSpaceDescriptor.pads, hlength] using h

theorem Padded.applyResourcePadding {bridge : PciIoDevice}
    (h : Padded (OwnPadding bridge.id) c w) (descriptors : List AcpiAddressSpaceDescriptor) :
    Padded (OwnPadding bridge.id) (fun t ↦ c t + descriptors.countP (·.pads t))
      (applyResourcePadding bridge descriptors w) := by
  unfold Pci.applyResourcePadding
  induction descriptors generalizing c w with
  | nil => simpa using h
  | cons ptr descriptors ih =>
    have hrest := ih (h.applyDescriptor ptr)
    refine ⟨fun t ↦ (hrest.count t).trans ?_, hrest.nodes⟩
    rw [List.countP_cons]
    omega

/-- **The lists before the degradation.** -/
theorem BridgeLevel.padded_requests (b : BridgeLevel) (alignment : ResourceType → BitVec 64) :
    Padded (OwnPadding b.bridge.id) b.requestedPaddings (b.requests alignment) := by
  have hempty : Padded (OwnPadding b.bridge.id) (fun _ ↦ 0) (emptyWindows alignment) :=
    ⟨fun _ ↦ rfl, fun _ n hn ↦ absurd hn List.not_mem_nil⟩
  have hdevices := hempty.mapDevices b.behind
  simp only [Nat.zero_add] at hdevices
  unfold BridgeLevel.requests resourcePaddingPolicy
  cases hpad : b.bridge.resourcePaddingDescriptors with
  | none =>
    refine ⟨fun t ↦ (hdevices.count t).trans ?_, hdevices.nodes⟩
    rw [BridgeLevel.requestedPaddings, hpad]
    rfl
  | some descriptors =>
    have hall := hdevices.applyResourcePadding descriptors
    refine ⟨fun t ↦ (hall.count t).trans ?_, hall.nodes⟩
    rw [BridgeLevel.requestedPaddings, hpad]
    rfl

/-! ### What moves padding -/

/-- The degradation for an option ROM moves nodes of the device, and the padding is the bridge's. -/
theorem Padded.degradeNodes {d : PciIoDevice} (h : Padded (OwnPadding bridgeId) c w) (hd : d.id ≠ bridgeId)
    {src dst : ResourceType} (hsrc : src = .mem64 ∨ src = .pmem64) (hne : src ≠ dst) :
    Padded (OwnPadding bridgeId) c (degradeNodes d src dst w) := by
  have hmoved : ∀ n ∈ (w src).childList.filter (degradesNode d), n.value.isPadding = false := by
    intro n hn
    rw [List.mem_filter, degradesNode, Bool.and_eq_true, beq_iff_eq] at hn
    by_contra hpad
    exact hd (hn.2.1.symm.trans ((h.nodes src n hn.1 (Bool.of_not_eq_false hpad)).2 hsrc))
  have hset := (h.setChildList (t := dst)
    (l := insertResourceNodes ((w src).childList.filter (degradesNode d)) (w dst).childList)
    fun n hn ↦ by
      rcases List.mem_append.1 ((insertResourceNodes_perm _ _).mem_iff.1 hn) with hn | hn
      · exact fun hpad ↦ absurd (hmoved n hn) (by rw [hpad]; decide)
      · exact h.nodes dst n hn).setChildList (t := src)
    (l := (w src).childList.filter fun n ↦ !Pci.degradesNode d n)
    fun n hn ↦ h.nodes src n (List.mem_filter.1 hn).1
  refine ⟨fun u ↦ (hset.count u).trans ?_, hset.nodes⟩
  have hnone : paddings ((w src).childList.filter (degradesNode d)) = 0 :=
    List.countP_eq_zero.2 fun n hn ↦ by rw [hmoved n hn]; decide
  have hkept : paddings ((w src).childList.filter fun n ↦ !Pci.degradesNode d n) = c src := by
    have hsplit := List.countP_eq_countP_filter_add (w src).childList
      (fun n ↦ n.value.isPadding) (degradesNode d)
    rw [← h.count src]
    unfold paddings at hnone ⊢
    omega
  by_cases hu : u = src
  · subst hu
    rw [Function.update_self, hkept]
  · rw [Function.update_of_ne hu]
    by_cases hdst : u = dst
    · subst hdst
      rw [Function.update_self, paddings_insertResourceNodes, hnone, h.count u, Nat.add_zero]
    · rw [Function.update_of_ne hdst]

theorem Padded.degradeForOptionRom (h : Padded (OwnPadding bridgeId) c w) {children : List PciIoDevice}
    (hid : ∀ d ∈ children, d.id ≠ bridgeId) :
    Padded (OwnPadding bridgeId) c (degradeForOptionRom cfg children w) := by
  unfold Pci.degradeForOptionRom
  split
  · refine List.foldlRecOn _ _ h fun w h d hd ↦ ?_
    split
    · exact (h.degradeNodes (hid d hd) (.inl rfl) (by decide)).degradeNodes (hid d hd) (.inr rfl)
        (by decide)
    · exact h
  · exact h

/-- **A merge** moves the padding along. -/
theorem Padded.mergeResourceTree (h : Padded NonzeroPadding c w) {dst res : ResourceType}
    (hne : dst ≠ res) (typeMerge : Bool) :
    Padded NonzeroPadding (fiberSum (redirect dst res) c)
      (w.mergeResourceTree dst res typeMerge) := by
  let retype : PciResourceNode → PciResourceNode := fun temp ↦
    if typeMerge then .node { temp.value with resType := dst } temp.children else temp
  have hpadding : ∀ n, (retype n).value.isPadding = n.value.isPadding ∧
      (retype n).value.length = n.value.length := by
    intro n
    dsimp only [retype]
    split
    · exact ⟨rfl, rfl⟩
    · exact ⟨rfl, rfl⟩
  have hmoved : paddings ((w res).childList.map retype) = c res := by
    rw [← h.count res, paddings, List.countP_map]
    exact List.countP_congr fun n _ ↦ by
      rw [Function.comp_apply, (hpadding n).1]
  have hset := (h.setChildList (t := dst)
    (l := insertResourceNodes ((w res).childList.map retype) (w dst).childList) fun n hn ↦ by
      rcases List.mem_append.1 ((insertResourceNodes_perm _ _).mem_iff.1 hn) with hn | hn
      · obtain ⟨m, hm, rfl⟩ := List.mem_map.1 hn
        intro hpad
        rw [(hpadding m).1] at hpad
        rw [(hpadding m).2]
        exact h.nodes res m hm hpad
      · exact h.nodes dst n hn).setChildList (t := res) (l := []) fun n hn ↦
        absurd hn List.not_mem_nil
  rw [paddings_insertResourceNodes, hmoved, h.count dst] at hset
  rw [fiberSum_redirect hne]
  exact hset

theorem Padded.degradeUnless (h : Padded NonzeroPadding c w) (dst res : ResourceType)
    (hne : dst ≠ res) (supported : Bool) :
    Padded NonzeroPadding (fiberSum (if supported = true then id else redirect dst res) c)
      (degradeUnless supported dst res w) := by
  unfold Pci.degradeUnless
  split
  · rwa [fiberSum_id]
  · exact h.mergeResourceTree hne true

/-! ### The whole degradation -/

/-- The degradation of one device leaves the other lists alone. -/
theorem degradeNodes_of_ne (d : PciIoDevice) (w : ResourceWindows) (src dst : ResourceType)
    (hsrc : t ≠ src) (hdst : t ≠ dst) : degradeNodes d src dst w t = w t := by
  unfold degradeNodes ResourceWindows.setChildList
  rw [Function.update_of_ne hsrc, Function.update_of_ne hdst]

/-- What the degradation for option ROMs leaves of the 64-bit prefetchable requests. -/
theorem degradeForOptionRom_pmem64 (children : List PciIoDevice) (w : ResourceWindows) :
    (degradeForOptionRom cfg children w .pmem64).childList =
      (w .pmem64).childList.filter fun n ↦ children.all fun d ↦
        !(cfg.pcdPciDegradeResourceForOptionRom && degradesBars cfg d && degradesNode d n) := by
  unfold Pci.degradeForOptionRom
  split
  · rename_i hopt
    induction children generalizing w with
    | nil => simp
    | cons d children ih =>
      rw [List.foldl_cons, ih]
      by_cases hd : degradesBars cfg d = true
      · have hlist : (degradeNodes d .pmem64 .pmem32 (degradeNodes d .mem64 .mem32 w)
            .pmem64).childList = (w .pmem64).childList.filter fun n ↦ !degradesNode d n := by
          rw [← degradeNodes_of_ne d w .mem64 .mem32 (t := .pmem64) (by decide)
            (by decide)]
          unfold degradeNodes ResourceWindows.setChildList
          rw [Function.update_self]
        rw [if_pos hd, hlist, List.filter_filter]
        simp [hd, hopt, Bool.and_comm]
      · rw [if_neg hd]
        simp [hd, hopt]
  · rename_i hopt
    rw [Bool.not_eq_true] at hopt
    exact (List.filter_eq_self.2 fun n _ ↦ List.all_eq_true.2 fun d _ ↦ by rw [hopt]; rfl).symm

theorem mergeResourceTree_of_ne (w : ResourceWindows) {dst res : ResourceType} (typeMerge : Bool)
    (hdst : t ≠ dst) (hres : t ≠ res) : w.mergeResourceTree dst res typeMerge t = w t := by
  unfold ResourceWindows.mergeResourceTree ResourceWindows.setChildList
  rw [Function.update_of_ne hres, Function.update_of_ne hdst]

theorem mergeResourceTree_res (w : ResourceWindows) (dst res : ResourceType) (typeMerge : Bool) :
    (w.mergeResourceTree dst res typeMerge res).childList = [] := by
  unfold ResourceWindows.mergeResourceTree ResourceWindows.setChildList
  rw [Function.update_self]

namespace BridgeLevel

variable (b : BridgeLevel) (alignment : ResourceType → BitVec 64)

/-- The lists after the degradation for option ROMs. -/
theorem padded_degradeForOptionRom :
    Padded NonzeroPadding b.requestedPaddings
      (degradeForOptionRom cfg (b.behind.map Prod.fst) (b.requests alignment)) := by
  have hid : ∀ d ∈ b.behind.map Prod.fst, d.id ≠ b.bridge.id := by
    intro d hd
    obtain ⟨c, hc, rfl⟩ := List.mem_map.1 hd
    exact b.id_ne c hc
  exact ((b.padded_requests alignment).degradeForOptionRom cfg hid).mono fun _ _ ↦
    OwnPadding.nonzero

theorem keepsPmem64_iff (hsize : 4 < cfg.sizeofUintn)
    (hdecode : bridgeSupportResourceDecode b.bridge efiBridgePmem64DecodeSupported = true) :
    b.KeepsPmem64 cfg alignment ↔
      (degradeForOptionRom cfg (b.behind.map Prod.fst) (b.requests alignment)
        .pmem64).childList ≠ [] := by
  rw [degradeForOptionRom_pmem64, ne_eq, List.filter_eq_nil_iff]
  simp [KeepsPmem64, hsize, hdecode]

/-- Whether the list is empty when the merge of 32-bit prefetchable memory depends on it. -/
theorem degradeMem64_pmem64 (hsize : 4 < cfg.sizeofUintn) :
    (degradeUnless (bridgeSupportResourceDecode b.bridge efiBridgePmem64DecodeSupported)
      .pmem32 .pmem64
      (degradeUnless (bridgeSupportResourceDecode b.bridge efiBridgeMem64DecodeSupported)
        .mem32 .mem64
        (degradeForOptionRom cfg (b.behind.map Prod.fst) (b.requests alignment)))
      .pmem64).childList ≠ [] ↔ b.KeepsPmem64 cfg alignment := by
  by_cases hdecode : bridgeSupportResourceDecode b.bridge efiBridgePmem64DecodeSupported = true
  · rw [degradeUnless, if_pos hdecode, b.keepsPmem64_iff cfg alignment hsize hdecode, degradeUnless]
    split
    · exact Iff.rfl
    · rw [mergeResourceTree_of_ne _ _ (by decide) (by decide)]
  · rw [degradeUnless, if_neg hdecode, mergeResourceTree_res]
    exact iff_of_false (fun h ↦ h rfl) fun hk ↦ hdecode hk.2.1

/-- The merges for 64-bit resources. -/
theorem padded_degradeMem64 :
    Padded NonzeroPadding
      (fiberSum ((if b.KeepsPmem64 cfg alignment ∧ b.bridge.parent ≠ none then
          redirect .mem32 .pmem32 else id) ∘
        (if 4 < cfg.sizeofUintn ∧
            bridgeSupportResourceDecode b.bridge efiBridgePmem64DecodeSupported = true then id
          else redirect .pmem32 .pmem64) ∘
        (if 4 < cfg.sizeofUintn ∧
            bridgeSupportResourceDecode b.bridge efiBridgeMem64DecodeSupported = true then id
          else redirect .mem32 .mem64)) b.requestedPaddings)
      (degradeMem64 cfg b.bridge
        (degradeForOptionRom cfg (b.behind.map Prod.fst) (b.requests alignment))) := by
  have h := b.padded_degradeForOptionRom cfg alignment
  rw [← fiberSum_fiberSum, ← fiberSum_fiberSum]
  unfold degradeMem64
  by_cases hsize : cfg.sizeofUintn ≤ 4
  · have hsize' : ¬ 4 < cfg.sizeofUintn := Nat.not_lt.2 hsize
    rw [if_pos hsize, if_neg fun hk ↦ hsize' hk.1.1, if_neg fun hs ↦ hsize' hs.1,
      if_neg fun hs ↦ hsize' hs.1, fiberSum_id]
    exact (h.mergeResourceTree (by decide) true).mergeResourceTree (by decide) true
  · have hsize' : 4 < cfg.sizeofUintn := Nat.not_le.1 hsize
    rw [if_neg hsize]
    simp only [hsize', true_and]
    have hpmem64 := (h.degradeUnless .mem32 .mem64 (by decide)
      (bridgeSupportResourceDecode b.bridge efiBridgeMem64DecodeSupported)).degradeUnless
        .pmem32 .pmem64 (by decide)
        (bridgeSupportResourceDecode b.bridge efiBridgePmem64DecodeSupported)
    simp only [b.degradeMem64_pmem64 cfg alignment hsize']
    by_cases hkeeps : b.KeepsPmem64 cfg alignment ∧ b.bridge.parent ≠ none
    · rw [if_pos hkeeps, if_pos hkeeps]
      exact hpmem64.mergeResourceTree (by decide) true
    · rw [if_neg hkeeps, if_neg hkeeps, fiberSum_id]
      exact hpmem64

/-- **All the merges.** -/
theorem padded_degradeResource :
    Padded NonzeroPadding (fiberSum (b.degradesTo cfg alignment) b.requestedPaddings)
      (degradeResource cfg b.bridge (b.behind.map Prod.fst) (b.requests alignment)) := by
  have h := b.padded_degradeMem64 cfg alignment
  have hpmem32 := h.degradeUnless .mem32 .pmem32 (by decide)
    (bridgeSupportResourceDecode b.bridge efiBridgePmem32DecodeSupported)
  rw [fiberSum_fiberSum, ← Function.comp_assoc, redirect_comp_redirect] at hpmem32
  unfold degradesTo degradeResource
  dsimp only
  by_cases hcombine : bridgeSupportResourceDecode b.bridge efiBridgePmemMemCombineSupported = true
  · rw [if_pos hcombine, if_pos hcombine, ← fiberSum_fiberSum, ← fiberSum_fiberSum]
    exact (hpmem32.mergeResourceTree (by decide) false).mergeResourceTree (by decide) false
  · rw [if_neg hcombine, if_neg hcombine, Function.id_comp]
    exact hpmem32

end BridgeLevel

/-! ### The layout -/

theorem layOut_padding {node : PciResourceNode} {nodes : List PciResourceNode} {v : ApertureVars}
    (h : node.value.isPadding = true) :
    layOut cfg t (node :: nodes) v =
      (node :: (layOut cfg t nodes ⟨v.aperture, node.value.length,
          v.asserted || v.paddingAperture != 0⟩).1,
        (layOut cfg t nodes ⟨v.aperture, node.value.length,
          v.asserted || v.paddingAperture != 0⟩).2) := by
  rw [layOut, if_pos h]

theorem layOut_typical {node : PciResourceNode} (nodes : List PciResourceNode) (v : ApertureVars)
    (h : ¬ node.value.isPadding = true) :
    ∃ offset, layOut cfg t (node :: nodes) v =
      (.node { node.value with offset := offset } node.children ::
          (layOut cfg t nodes { v with aperture := offset + node.value.length }).1,
        (layOut cfg t nodes { v with aperture := offset + node.value.length }).2) := by
  refine ⟨nodeOffset cfg t v.aperture node.value, ?_⟩
  rw [layOut, if_neg h]

theorem paddings_cons (node : PciResourceNode) (nodes : List PciResourceNode) :
    paddings (node :: nodes) = paddings nodes + if node.value.isPadding = true then 1 else 0 :=
  List.countP_cons

/-- **The assertion** fails when there is a padding node after another. -/
theorem layOut_asserted {nodes : List PciResourceNode} (v : ApertureVars)
    (hlength : ∀ n ∈ nodes, NonzeroPadding t n.value) :
    (layOut cfg t nodes v).2.asserted =
      (v.asserted || decide (2 ≤ paddings nodes + if v.paddingAperture = 0 then 0 else 1)) := by
  induction nodes generalizing v with
  | nil =>
    have hfew : ¬ 2 ≤ paddings [] + if v.paddingAperture = 0 then 0 else 1 := by
      split <;> decide
    rw [decide_eq_false hfew, Bool.or_false]
    rfl
  | cons node nodes ih =>
    have ih := fun v ↦ ih v fun n hn ↦ hlength n (List.mem_cons_of_mem _ hn)
    rw [paddings_cons]
    by_cases hpad : node.value.isPadding = true
    · have hnonzero : node.value.length ≠ 0 := hlength node List.mem_cons_self hpad
      rw [layOut_padding cfg hpad, ih, if_pos hpad]
      dsimp only
      rw [if_neg hnonzero]
      by_cases hzero : v.paddingAperture = 0
      · rw [if_pos hzero, hzero]
        simp
      · have hasserts : (v.paddingAperture != 0) = true := bne_iff_ne.2 hzero
        rw [if_neg hzero, hasserts]
        simp
    · obtain ⟨offset, hlay⟩ := layOut_typical cfg (t := t) nodes v hpad
      rw [hlay, ih, if_neg hpad, Nat.add_zero]

/-- With one padding node at most, the last padding is all of it. -/
theorem layOut_paddingAperture (nodes : List PciResourceNode) (v : ApertureVars)
    (hfew : paddings nodes + (if v.paddingAperture = 0 then 0 else 1) ≤ 1) :
    (layOut cfg t nodes v).2.paddingAperture.toNat =
      v.paddingAperture.toNat + paddingSum nodes := by
  induction nodes generalizing v with
  | nil => rfl
  | cons node nodes ih =>
    rw [paddings_cons] at hfew
    rw [paddingSum]
    by_cases hpad : node.value.isPadding = true
    · rw [if_pos hpad] at hfew
      have hzero : v.paddingAperture = 0 := by
        by_contra hne
        rw [if_neg hne] at hfew
        omega
      rw [layOut_padding cfg hpad, ih, if_pos hpad, hzero]
      · exact (Nat.zero_add _).symm
      · dsimp only
        split <;> omega
    · obtain ⟨offset, hlay⟩ := layOut_typical cfg (t := t) nodes v hpad
      rw [if_neg hpad, Nat.add_zero] at hfew
      have hrest := ih { v with aperture := offset + node.value.length } hfew
      rw [hlay, if_neg hpad, Nat.zero_add]
      exact hrest

/-- The layout sets offsets only. -/
theorem paddingSum_layOut (nodes : List PciResourceNode) (v : ApertureVars) :
    paddingSum (layOut cfg t nodes v).1 = paddingSum nodes := by
  induction nodes generalizing v with
  | nil => rfl
  | cons node nodes ih =>
    by_cases hpad : node.value.isPadding = true
    · rw [layOut_padding cfg hpad, paddingSum, paddingSum, ih]
    · obtain ⟨offset, hlay⟩ := layOut_typical cfg (t := t) nodes v hpad
      rw [hlay, paddingSum, paddingSum, ih]
      rfl

theorem toNat_le_toNat_larger (length padding : BitVec 64) :
    padding.toNat ≤ (if length < padding then padding else length).toNat := by
  split
  · exact Nat.le_refl _
  · rename_i hlarge
    exact Nat.not_lt.1 hlarge

theorem calculateResourceAperture_asserted {bridge : Window}
    (hlength : ∀ n ∈ bridge.childList, NonzeroPadding t n.value) :
    (calculateResourceAperture cfg t bridge).2 = decide (2 ≤ paddings bridge.childList) :=
  (layOut_asserted cfg ⟨0, 0, false⟩ hlength).trans (by simp)

theorem calculateResourceAperture_length {bridge : Window} (hfew : paddings bridge.childList ≤ 1) :
    paddingSum (calculateResourceAperture cfg t bridge).1.childList ≤
      (calculateResourceAperture cfg t bridge).1.length.toNat := by
  have hlast := layOut_paddingAperture cfg (t := t) bridge.childList ⟨0, 0, false⟩ hfew
  have hsum := paddingSum_layOut cfg (t := t) bridge.childList ⟨0, 0, false⟩
  unfold calculateResourceAperture
  dsimp only
  rw [hsum]
  have hpadding : paddingSum bridge.childList =
      (layOut cfg t bridge.childList ⟨0, 0, false⟩).2.paddingAperture.toNat :=
    (Nat.zero_add _).symm.trans hlast.symm
  rw [hpadding]
  exact toNat_le_toNat_larger _ _

/-! ### CardBus bridges -/

/-- I/O requests are not degraded. -/
theorem BridgeLevel.degradesTo_io16 (b : BridgeLevel) (alignment : ResourceType → BitVec 64) :
    b.degradesTo cfg alignment .io16 = .io16 := by
  have hkeep : ∀ {P : Prop} [Decidable P] {f g : ResourceType → ResourceType}, f .io16 = .io16 →
      g .io16 = .io16 → (if P then f else g) .io16 = .io16 := by
    intro P _ f g hf hg
    split
    · exact hf
    · exact hg
  unfold BridgeLevel.degradesTo
  dsimp only [Function.comp_apply]
  rw [hkeep rfl rfl, hkeep rfl rfl, hkeep rfl rfl]
  exact hkeep rfl rfl

/-- **The padding of a CardBus bridge** never fits: its two nodes for I/O end in one list. -/
theorem BridgeLevel.not_paddingFits_cardBus (b : BridgeLevel)
    (alignment : ResourceType → BitVec 64) {d : PciIoDevice × ResourceWindows} (hd : d ∈ b.behind)
    (hcard : d.1.isCardBusBridge = true) : ¬ b.PaddingFits cfg alignment := by
  intro hfits
  have hbehind : 0 < b.behind.countP fun c ↦ c.1.isCardBusBridge :=
    List.countP_pos_iff.2 ⟨d, hd, hcard⟩
  have hrequested : 2 ≤ b.requestedPaddings .io16 :=
    Nat.le_add_right_of_le (Nat.le_mul_of_pos_left 2 hbehind)
  have hio : b.requestedPaddings .io16 ≤
      fiberSum (b.degradesTo cfg alignment) b.requestedPaddings .io16 :=
    single_le_sum (fun _ _ ↦ Nat.zero_le _)
      (mem_filter.2 ⟨mem_univ _, b.degradesTo_io16 cfg alignment⟩)
  exact absurd (hfits .io16) (Nat.not_le.2 (hrequested.trans hio))

/-! ### The theorem -/

/-- **Padding is honoured exactly if it fits.** -/
theorem paddingHonoured_iff (b : BridgeLevel) (alignment : ResourceType → BitVec 64) :
    PaddingHonoured (mapBridge cfg b.bridge (emptyWindows alignment) b.behind) ↔
      b.PaddingFits cfg alignment := by
  have h := b.padded_degradeResource cfg alignment
  have hasserted := fun t ↦ calculateResourceAperture_asserted cfg (t := t) (h.nodes t)
  simp only [h.count] at hasserted
  constructor
  · intro hhonoured t
    have hnone := List.any_eq_false.1 hhonoured.asserted t (by cases t <;> decide)
    by_contra hmany
    exact hnone ((hasserted t).trans (decide_eq_true (Nat.not_le.1 hmany)))
  · intro hfits
    refine ⟨List.any_eq_false.2 fun t _ hfails ↦ ?_,
      fun t ↦ calculateResourceAperture_length cfg ((h.count t).trans_le (hfits t))⟩
    have hmany := of_decide_eq_true ((hasserted t).symm.trans hfails)
    exact absurd (hfits t) (Nat.not_le.2 hmany)

/-- A 64-bit platform. -/
def plainConfig : ResourceConfig := ⟨false, 0, 8, false, false⟩

/-- A hot-plug bridge that asks for 1 MB of 32-bit memory and for 1 MB of 64-bit memory. Like every
PCI-to-PCI bridge, it does not decode 64-bit memory that is not prefetchable. -/
def paddedBridge : PciIoDevice where
  id := 1
  headerLayout := .pciBridge
  vendorId := 0x8086
  deviceId := 0x2030
  isPciVga := false
  busNumber := 0x16
  deviceNumber := 0
  functionNumber := 0
  pciBar := fun _ ↦ ⟨0, 0, .unknown, false⟩
  vfPciBar := fun _ ↦ ⟨0, 0, .unknown, false⟩
  parent := some 0
  decodes := 0x4E
  romSize := 0
  resourcePaddingDescriptors :=
    some [⟨0x8A, 0, 0, 32, 0xFFFFF, 0x100000⟩, ⟨0x8A, 0, 0, 64, 0xFFFFF, 0x100000⟩]
  bridgeIoAlignment := 0xFFF

/-- The 64-bit padding is degraded into the list that has the 32-bit padding. -/
theorem not_paddingHonoured_mem64 :
    ¬ ∀ (cfg : ResourceConfig) (b : BridgeLevel) (alignment : ResourceType → BitVec 64),
      (∀ c ∈ b.behind, c.1.isCardBusBridge = false) →
        (∀ t, (b.bridge.resourcePaddingDescriptors.getD []).countP (·.pads t) ≤ 1) →
          PaddingHonoured (mapBridge cfg b.bridge (emptyWindows alignment) b.behind) := by
  intro hall
  have hasserted := (hall plainConfig ⟨paddedBridge, [], by simp⟩ (fun _ ↦ 0xFFFFF) (by simp)
    (by intro t; cases t <;> decide)).asserted
  revert hasserted
  decide

end PurleyFirmware.Pci
