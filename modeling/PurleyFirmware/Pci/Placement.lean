import PurleyFirmware.Foundation.NestedRanges
import PurleyFirmware.Pci.ProgramResource
import Mathlib.Tactic.SplitIfs

/-!
# Where the resources are placed

`CreateResourceMap` gives each node an offset in the window of its bridge, and `ProgramResource` adds
the offsets up on its way down. If alignments are masks and the sizes do not add up to more than an
address can be, every BAR and window gets an aligned address inside the window of its bridge, apart
from the others of the same list.

In I/O space a BAR may have to be moved behind addresses that have an alias. It is moved up for the
aliases of ISA, but `SkipVGAAperture` may move it down, so reserving only those of VGA is left out.
-/

namespace PurleyFirmware.Pci

variable (cfg : ResourceConfig)

/-! ### Alignments -/

/-- The alignment is one less than a power of two. -/
def IsMask (a : BitVec 64) : Prop := ∃ k < 64, a.toNat + 1 = 2 ^ k

instance IsMask.decidable (a : BitVec 64) : Decidable (IsMask a) :=
  inferInstanceAs (Decidable (∃ k < 64, _))

/-- The extents of a node. Padding has no place. -/
def extents : Extents ResourceRequest where
  offset r := r.offset.toNat
  length r := r.length.toNat
  alignment r := r.alignment.toNat + 1
  counts r := !r.isPadding

variable {cfg} {aperture alignment : BitVec 64}

theorem IsMask.dvd {a b : BitVec 64} (ha : IsMask a) (hb : IsMask b) (hle : a ≤ b) :
    a.toNat + 1 ∣ b.toNat + 1 := by
  obtain ⟨k, -, hk⟩ := ha
  obtain ⟨l, -, hl⟩ := hb
  rw [hk, hl]
  refine Nat.pow_dvd_pow 2 ((Nat.pow_le_pow_iff_right Nat.one_lt_two).1 ?_)
  rw [← hk, ← hl]
  exact Nat.succ_le_succ (BitVec.le_def.1 hle)

/-- **The aperture is moved up to a multiple.** -/
theorem alignAperture_spec (hmask : IsMask alignment)
    (hwrap : aperture.toNat + alignment.toNat < 2 ^ 64) :
    aperture.toNat ≤ (alignAperture aperture alignment).toNat ∧
      (alignAperture aperture alignment).toNat ≤ aperture.toNat + alignment.toNat ∧
      alignment.toNat + 1 ∣ (alignAperture aperture alignment).toNat := by
  obtain ⟨k, hk, heq⟩ := hmask
  have hoffset : (aperture &&& alignment).toNat = aperture.toNat % 2 ^ k := by
    have halignment : alignment.toNat = 2 ^ k - 1 := by omega
    rw [BitVec.toNat_and, halignment, Nat.and_two_pow_sub_one_eq_mod]
  have hdiv := Nat.div_add_mod aperture.toNat (2 ^ k)
  have hmod : aperture.toNat % 2 ^ k < 2 ^ k := Nat.mod_lt _ (Nat.two_pow_pos k)
  rw [alignAperture]
  split
  next hne =>
    have hpos : 0 < aperture.toNat % 2 ^ k := by
      rw [← hoffset]
      exact Nat.pos_of_ne_zero fun hzero ↦ hne (BitVec.eq_of_toNat_eq hzero)
    have hup : (aperture + (alignment + 1) - (aperture &&& alignment)).toNat
        = aperture.toNat + 2 ^ k - aperture.toNat % 2 ^ k := by
      rw [BitVec.toNat_sub, BitVec.toNat_add, BitVec.toNat_add, hoffset]
      have hone : (1 : BitVec 64).toNat = 1 := rfl
      rw [hone]
      omega
    rw [hup]
    refine ⟨by omega, by omega, ?_⟩
    have hmul : aperture.toNat + 2 ^ k - aperture.toNat % 2 ^ k
        = 2 ^ k * (aperture.toNat / 2 ^ k) + 2 ^ k := by omega
    rw [hmul, heq]
    exact Nat.dvd_add (Nat.dvd_mul_right _ _) (Nat.dvd_refl _)
  next hzero =>
    rw [not_not] at hzero
    refine ⟨Nat.le_refl _, Nat.le_add_right _ _, ?_⟩
    rw [hzero] at hoffset
    rw [heq]
    exact Nat.dvd_of_mod_eq_zero hoffset.symm

/-- The room that a node takes at most. -/
def ResourceRequest.room (r : ResourceRequest) : ℕ :=
  if r.isPadding then 0 else r.length.toNat + 2 * r.alignment.toNat + 0x400

/-- Moving a BAR behind the aliases of ISA moves it up. -/
theorem skipIsaAliasAperture_spec {start : BitVec 64} (length : BitVec 64)
    (hwrap : start.toNat + 0x400 < 2 ^ 64) :
    start.toNat ≤ (skipIsaAliasAperture start length).toNat ∧
      (skipIsaAliasAperture start length).toNat ≤ start.toNat + 0x400 := by
  have hoffset : (start &&& 0x3FF).toNat = start.toNat % 0x400 := by
    have hmask : (0x3FF : BitVec 64).toNat = 2 ^ 10 - 1 := rfl
    rw [BitVec.toNat_and, hmask, Nat.and_two_pow_sub_one_eq_mod]
  rw [skipIsaAliasAperture]
  split
  · have hup : (start - (start &&& 0x3FF) + 0x3FF + 1).toNat
        = start.toNat - start.toNat % 0x400 + 0x400 := by
      rw [BitVec.toNat_add, BitVec.toNat_add, BitVec.toNat_sub, hoffset]
      have hone : (1 : BitVec 64).toNat = 1 := rfl
      have hmask : (0x3FF : BitVec 64).toNat = 0x3FF := rfl
      rw [hone, hmask]
      omega
    rw [hup]
    omega
  · omega

/-- Only the aliases of VGA move a BAR down. -/
def NoVgaAliases (cfg : ResourceConfig) (t : ResourceType) : Prop :=
  t = .io16 → cfg.reserveIsaAliases = true ∨ cfg.reserveVgaAliases = false

/-- **The offset of a node.** -/
theorem nodeOffset_spec {t : ResourceType} (halias : NoVgaAliases cfg t) {r : ResourceRequest}
    (hmask : IsMask r.alignment)
    (hwrap : aperture.toNat + 2 * r.alignment.toNat + 0x400 < 2 ^ 64) :
    aperture.toNat ≤ (nodeOffset cfg t aperture r).toNat ∧
      (nodeOffset cfg t aperture r).toNat ≤ aperture.toNat + 2 * r.alignment.toNat + 0x400 ∧
      r.alignment.toNat + 1 ∣ (nodeOffset cfg t aperture r).toNat := by
  have hroom : aperture.toNat + r.alignment.toNat < 2 ^ 64 := by omega
  obtain ⟨hge, hle, hdvd⟩ := alignAperture_spec hmask hroom
  rw [nodeOffset]
  split
  next hio =>
    split
    · have hskip : (alignAperture aperture r.alignment).toNat + 0x400 < 2 ^ 64 := by omega
      obtain ⟨hge', hle'⟩ := skipIsaAliasAperture_spec r.length hskip
      have hroom' : (skipIsaAliasAperture (alignAperture aperture r.alignment) r.length).toNat
          + r.alignment.toNat < 2 ^ 64 := by omega
      obtain ⟨hge'', hle'', hdvd''⟩ := alignAperture_spec hmask hroom'
      exact ⟨by omega, by omega, hdvd''⟩
    next hisa =>
      rw [if_neg]
      · exact ⟨hge, by omega, hdvd⟩
      · have hvga := (halias hio.1).resolve_left hisa
        rw [hvga]
        exact nofun
  · exact ⟨hge, by omega, hdvd⟩

/-! ### Laying out a list -/

/-- The room that a list takes at most. -/
def roomOf (nodes : List PciResourceNode) : ℕ := (nodes.map fun n ↦ n.value.room).sum

theorem roomOf_cons (node : PciResourceNode) (nodes : List PciResourceNode) :
    roomOf (node :: nodes) = node.value.room + roomOf nodes := by
  rw [roomOf, List.map_cons, List.sum_cons]
  rfl

/-- A node that has got an offset. Padding gets none. -/
structure Offsets (n m : PciResourceNode) : Prop where
  value : ∃ offset, m.value = { n.value with offset := offset } ∧
    (n.value.isPadding = true → offset = n.value.offset)
  children : m.children = n.children

/-- **What the loop makes of a list.** -/
structure LaysOut (nodes laid : List PciResourceNode) (start stop : ℕ) : Prop where
  le : start ≤ stop
  stop_le : stop ≤ start + roomOf nodes
  aligned : ∀ c ∈ laid, extents.counts c.value = true →
    extents.alignment c.value ∣ extents.offset c.value
  start_le : ∀ c ∈ laid, extents.counts c.value = true → start ≤ extents.offset c.value
  inside : ∀ c ∈ laid, extents.counts c.value = true →
    extents.offset c.value + extents.length c.value ≤ stop
  apart : laid.Pairwise extents.Before

/-- The loop gives offsets, and nothing else. -/
theorem forall₂_layOut (cfg : ResourceConfig) (t : ResourceType) (nodes : List PciResourceNode) (v : ApertureVars) :
    List.Forall₂ Offsets nodes (layOut cfg t nodes v).1 := by
  induction nodes generalizing v with
  | nil => exact .nil
  | cons node nodes ih =>
    rw [layOut]
    split
    · exact .cons ⟨⟨node.value.offset, rfl, fun _ ↦ rfl⟩, rfl⟩ (ih _)
    next hpadding => exact .cons ⟨⟨_, rfl, fun h ↦ absurd h hpadding⟩, rfl⟩ (ih _)

/-- The nodes are as aligned as before. -/
theorem map_alignment_of_offsets {nodes laid : List PciResourceNode}
    (h : List.Forall₂ Offsets nodes laid) :
    laid.map (·.value.alignment) = nodes.map (·.value.alignment) := by
  induction h with
  | nil => rfl
  | cons hnode _ ih =>
    obtain ⟨offset, hvalue, -⟩ := hnode.value
    rw [List.map_cons, List.map_cons, ih, hvalue]

theorem roomOf_of_offsets {nodes laid : List PciResourceNode} (h : List.Forall₂ Offsets nodes laid) :
    roomOf laid = roomOf nodes := by
  induction h with
  | nil => rfl
  | cons hnode _ ih =>
    obtain ⟨offset, hvalue, -⟩ := hnode.value
    rw [roomOf_cons, roomOf_cons, ih, hvalue]
    rfl

theorem sorted_of_offsets {nodes laid : List PciResourceNode} (h : List.Forall₂ Offsets nodes laid)
    (hsorted : SortedByAlignment nodes) : SortedByAlignment laid := by
  have hmap : (nodes.map (·.value.alignment)).Pairwise fun a b ↦ b ≤ a := List.pairwise_map.2 hsorted
  rw [← map_alignment_of_offsets h] at hmap
  exact List.pairwise_map.1 hmap

/-- **The loop lays out a list** that fits. -/
theorem layOut_spec {t : ResourceType} (halias : NoVgaAliases cfg t) {nodes : List PciResourceNode}
    (hmasks : ∀ n ∈ nodes, IsMask n.value.alignment) (v : ApertureVars)
    (hwrap : v.aperture.toNat + roomOf nodes < 2 ^ 64) :
    LaysOut nodes (layOut cfg t nodes v).1 v.aperture.toNat
      (layOut cfg t nodes v).2.aperture.toNat := by
  induction nodes generalizing v with
  | nil =>
    rw [layOut]
    have hno {p : PciResourceNode → Prop} : ∀ c ∈ ([] : List PciResourceNode), p c :=
      fun _ h ↦ absurd h List.not_mem_nil
    exact ⟨Nat.le_refl _, Nat.le_add_right _ _, hno, hno, hno, List.Pairwise.nil⟩
  | cons node nodes ih =>
    obtain ⟨hmask, hmasks⟩ := List.forall_mem_cons.1 hmasks
    rw [roomOf_cons, ResourceRequest.room] at hwrap
    rw [layOut]
    split
    next hpadding =>
      rw [if_pos hpadding] at hwrap
      have hrest := ih hmasks { v with
        paddingAperture := node.value.length
        asserted := v.asserted || v.paddingAperture != 0 } (by dsimp only; omega)
      have hnot : extents.counts node.value = true → False := by
        intro hcounts
        have hnot : (!node.value.isPadding) = true := hcounts
        rw [hpadding] at hnot
        cases hnot
      refine ⟨hrest.le, ?_, ?_, ?_, ?_, ?_⟩
      · rw [roomOf_cons, ResourceRequest.room, if_pos hpadding]
        have hle := hrest.stop_le
        dsimp only at hle ⊢
        omega
      · exact List.forall_mem_cons.2 ⟨fun hc ↦ (hnot hc).elim, hrest.aligned⟩
      · exact List.forall_mem_cons.2 ⟨fun hc ↦ (hnot hc).elim, hrest.start_le⟩
      · exact List.forall_mem_cons.2 ⟨fun hc ↦ (hnot hc).elim, hrest.inside⟩
      · exact List.pairwise_cons.2 ⟨fun _ _ hc ↦ (hnot hc).elim, hrest.apart⟩
    next hpadding =>
      rw [if_neg hpadding] at hwrap
      have hroom : v.aperture.toNat + 2 * node.value.alignment.toNat + 0x400 < 2 ^ 64 := by omega
      obtain ⟨hge, hle, hdvd⟩ := nodeOffset_spec halias hmask hroom
      have hend : (nodeOffset cfg t v.aperture node.value + node.value.length).toNat
          = (nodeOffset cfg t v.aperture node.value).toNat + node.value.length.toNat := by
        rw [BitVec.toNat_add]
        omega
      have hrest := ih hmasks { v with
        aperture := nodeOffset cfg t v.aperture node.value + node.value.length }
        (by dsimp only; omega)
      dsimp only at hrest
      rw [hend] at hrest
      refine ⟨?_, ?_, ?_, ?_, ?_, ?_⟩
      · have hle' := hrest.le
        dsimp only
        omega
      · rw [roomOf_cons, ResourceRequest.room, if_neg hpadding]
        have hle' := hrest.stop_le
        dsimp only
        omega
      · exact List.forall_mem_cons.2 ⟨fun _ ↦ hdvd, hrest.aligned⟩
      · refine List.forall_mem_cons.2 ⟨fun _ ↦ hge, fun c hc hcounts ↦ ?_⟩
        have hstart := hrest.start_le c hc hcounts
        omega
      · exact List.forall_mem_cons.2 ⟨fun _ ↦ hrest.le, hrest.inside⟩
      · exact List.pairwise_cons.2 ⟨fun c hc _ hcounts ↦ hrest.start_le c hc hcounts, hrest.apart⟩

/-! ### The windows of a bridge -/

/-- A node, and whether what is below it fits, from those of its children. -/
def fitsBelow (r : ResourceRequest) (children : List (ResourceRequest × Bool)) :
    ResourceRequest × Bool :=
  (r, children.all (·.2) &&
    decide ((children.map fun c ↦ c.1.room).sum + r.alignment.toNat < 2 ^ 64))

/-- **The sizes fit**: in no list they add up to more than an address can be. -/
def Fits (n : PciResourceNode) : Prop := (n.fold fitsBelow).2 = true

instance Fits.decidable (n : PciResourceNode) : Decidable (Fits n) :=
  inferInstanceAs (Decidable (_ = true))

theorem fold_fitsBelow (n : PciResourceNode) : (n.fold fitsBelow).1 = n.value := by
  cases n with
  | node r children => rw [RoseTree.fold_node]; rfl

theorem fits_node (r : ResourceRequest) (children : List PciResourceNode) :
    Fits (.node r children) ↔
      (∀ c ∈ children, Fits c) ∧ roomOf children + r.alignment.toNat < 2 ^ 64 := by
  have hrooms : ((children.map (RoseTree.fold fitsBelow)).map fun c ↦ c.1.room).sum
      = roomOf children := by
    rw [List.map_map, roomOf]
    refine congrArg List.sum (List.map_congr_left fun c _ ↦ ?_)
    rw [Function.comp_apply, fold_fitsBelow]
  rw [Fits, RoseTree.fold_node, fitsBelow]
  dsimp only
  rw [Bool.and_eq_true, decide_eq_true_iff, hrooms, List.all_map, List.all_eq_true]
  rfl

/-- Padding and BARs have nothing behind them, and padding is nowhere. -/
structure Leafy (n : PciResourceNode) : Prop where
  children : n.value.isPadding = true ∨ n.value.bar < 2 → n.children = []
  offset : n.value.isPadding = true → n.value.offset = 0

/-- So it is everywhere below a node. -/
inductive LeafyBelow : PciResourceNode → Prop
  | node {r : ResourceRequest} {children : List PciResourceNode} (leafy : ∀ c ∈ children, Leafy c)
    (below : ∀ c ∈ children, LeafyBelow c) : LeafyBelow (.node r children)

/-- A window that may be put anywhere. -/
structure PlaceableWindow (n : PciResourceNode) : Prop where
  mask : IsMask n.value.alignment
  laidOut : Fits n → extents.LaidOut n
  below : LeafyBelow n

/-- A node that may be put into a list. -/
structure Placeable (n : PciResourceNode) : Prop extends PlaceableWindow n where
  leafy : Leafy n

theorem LeafyBelow.of_children {n m : PciResourceNode} (h : LeafyBelow n)
    (hchildren : m.children = n.children) : LeafyBelow m := by
  cases h with
  | node leafy below =>
    cases m with
    | node r children =>
      obtain rfl := hchildren
      exact .node leafy below

/-- What the node says of its type, or of its place, does not matter. -/
theorem PlaceableWindow.of_children {n m : PciResourceNode} (h : PlaceableWindow n)
    (hchildren : m.children = n.children) (hlength : m.value.length = n.value.length)
    (halignment : m.value.alignment = n.value.alignment) : PlaceableWindow m := by
  refine ⟨by rw [halignment]; exact h.mask, fun hfits ↦ (h.laidOut ?_).of_children hchildren
    (congrArg BitVec.toNat hlength) (congrArg (·.toNat + 1) halignment),
    h.below.of_children hchildren⟩
  cases n with
  | node r children =>
    cases m with
    | node r' children' =>
      obtain rfl := hchildren
      rw [fits_node] at hfits ⊢
      exact ⟨hfits.1, by rw [← show r'.alignment = r.alignment from halignment]; exact hfits.2⟩

theorem placeable_leaf {r : ResourceRequest} (h : IsMask r.alignment) (hoffset : r.offset = 0) :
    Placeable (.node r []) :=
  ⟨⟨h, fun _ ↦ .leaf r, .node nofun nofun⟩, fun _ ↦ rfl, fun _ ↦ hoffset⟩

theorem Placeable.retype {n m : PciResourceNode} (h : Placeable n) (heq : retype .io16 n = retype .io16 m) :
    Placeable m := by
  cases n with
  | node r children =>
    cases m with
    | node r' children' =>
      obtain ⟨hvalue, rfl⟩ := RoseTree.node.inj heq
      obtain ⟨d, alignment, offset, bar, t, length, usage, virtual⟩ := r
      cases r'
      cases hvalue
      exact ⟨h.toPlaceableWindow.of_children rfl rfl rfl, h.leafy.children, h.leafy.offset⟩

theorem Offsets.placeable {n m : PciResourceNode} (h : Offsets n m) (hn : Placeable n) :
    Placeable m := by
  obtain ⟨offset, hvalue, hpadding⟩ := h.value
  refine ⟨hn.toPlaceableWindow.of_children h.children ?_ ?_, ?_, ?_⟩
  · rw [hvalue]
  · rw [hvalue]
  · rw [hvalue, h.children]
    exact hn.leafy.children
  · rw [hvalue]
    exact fun hp ↦ (hpadding hp).trans (hn.leafy.offset hp)

/-- **The lists of a bridge**, all of whose nodes may be placed. -/
structure Gathers (w : ResourceWindows) : Prop where
  sorted : w.Sorted
  alignment : ∀ t, IsMask (w t).alignment
  nodes : ∀ t, ∀ n ∈ (w t).childList, Placeable n

theorem exists_of_forall₂ {nodes laid : List PciResourceNode} (h : List.Forall₂ Offsets nodes laid)
    {c : PciResourceNode} (hc : c ∈ laid) : ∃ n ∈ nodes, Offsets n c := by
  induction h with
  | nil => exact absurd hc List.not_mem_nil
  | @cons n m _ _ hnode _ ih =>
    rcases List.mem_cons.1 hc with rfl | hc
    · exact ⟨n, List.mem_cons_self, hnode⟩
    · obtain ⟨n, hn, hoffset⟩ := ih hc
      exact ⟨n, List.mem_cons_of_mem _ hn, hoffset⟩

/-- The alignment that `calculateResourceAperture` gives a window: that of the first node, or its
own. -/
def windowAlignment (own : BitVec 64) : List PciResourceNode → BitVec 64
  | [] => own
  | first :: _ => if own < first.value.alignment then first.value.alignment else own

theorem alignment_calculateResourceAperture (t : ResourceType) (bridge : Window) :
    (calculateResourceAperture cfg t bridge).1.alignment
      = windowAlignment bridge.alignment (layOut cfg t bridge.childList ⟨0, 0, false⟩).1 := by
  rw [calculateResourceAperture]
  dsimp only
  cases (layOut cfg t bridge.childList ⟨0, 0, false⟩).1 with
  | nil => rfl
  | cons first rest => rfl

/-- The first node is the largest. -/
theorem windowAlignment_spec {laid : List PciResourceNode} (hsorted : SortedByAlignment laid)
    (hmasks : ∀ c ∈ laid, IsMask c.value.alignment) {own : BitVec 64} (hown : IsMask own) :
    IsMask (windowAlignment own laid) ∧ own ≤ windowAlignment own laid ∧
      ∀ c ∈ laid, c.value.alignment ≤ windowAlignment own laid := by
  cases laid with
  | nil => exact ⟨hown, BitVec.le_refl _, nofun⟩
  | cons first rest =>
    obtain ⟨hfirst, -⟩ := List.pairwise_cons.1 hsorted
    rw [windowAlignment]
    split
    next hlt =>
      refine ⟨hmasks first List.mem_cons_self, BitVec.le_of_lt hlt, ?_⟩
      exact List.forall_mem_cons.2 ⟨BitVec.le_refl _, hfirst⟩
    next hge =>
      have hle : first.value.alignment ≤ own := BitVec.not_lt.1 hge
      refine ⟨hown, BitVec.le_refl _, ?_⟩
      exact List.forall_mem_cons.2 ⟨hle, fun c hc ↦ BitVec.le_trans (hfirst c hc) hle⟩

/-- The window ends behind the last node. -/
theorem le_length_calculateResourceAperture (t : ResourceType) {bridge : Window}
    (hmask : IsMask bridge.alignment)
    (hroom : (layOut cfg t bridge.childList ⟨0, 0, false⟩).2.aperture.toNat
      + bridge.alignment.toNat < 2 ^ 64) :
    (layOut cfg t bridge.childList ⟨0, 0, false⟩).2.aperture.toNat
      ≤ (calculateResourceAperture cfg t bridge).1.length.toNat := by
  obtain ⟨hle, -, -⟩ := alignAperture_spec hmask hroom
  have hmax : ∀ length padding : BitVec 64, length ≤ if length < padding then padding else length := by
    intro length padding
    split
    next hlt => exact BitVec.le_of_lt hlt
    · exact BitVec.le_refl _
  rw [calculateResourceAperture]
  dsimp only
  refine hle.trans (BitVec.le_def.1 (BitVec.le_trans ?_ (hmax _ _)))
  split
  next hboth => exact hboth.2
  · exact BitVec.le_refl _

/-- **The aperture of a list** makes a window that is laid out. -/
theorem calculateResourceAperture_spec {t : ResourceType} (halias : NoVgaAliases cfg t)
    {bridge : Window} (hsorted : SortedByAlignment bridge.childList) (hmask : IsMask bridge.alignment)
    (hnodes : ∀ n ∈ bridge.childList, Placeable n) (d : PciIoDevice) (bar : ℕ) :
    PlaceableWindow ((calculateResourceAperture cfg t bridge).1.node d bar t) := by
  have hoffsets := forall₂_layOut cfg t bridge.childList ⟨0, 0, false⟩
  have hlaid : ∀ c ∈ (layOut cfg t bridge.childList ⟨0, 0, false⟩).1, Placeable c := by
    intro c hc
    obtain ⟨n, hn, hoffset⟩ := exists_of_forall₂ hoffsets hc
    exact hoffset.placeable (hnodes n hn)
  obtain ⟨hwindow, hown, hlargest⟩ := windowAlignment_spec (sorted_of_offsets hoffsets hsorted)
    (fun c hc ↦ (hlaid c hc).mask) hmask
  rw [← alignment_calculateResourceAperture t bridge] at hwindow hown hlargest
  refine ⟨hwindow, fun hfits ↦ ?_, .node (fun c hc ↦ (hlaid c hc).leafy) fun c hc ↦
    (hlaid c hc).below⟩
  obtain ⟨hbelow, hroom⟩ := (fits_node _ _).1 hfits
  have hroom : roomOf bridge.childList
      + (calculateResourceAperture cfg t bridge).1.alignment.toNat < 2 ^ 64 := by
    rw [← roomOf_of_offsets hoffsets]
    exact hroom
  have hstart : (0 : BitVec 64).toNat = 0 := rfl
  have hlays := layOut_spec halias (fun n hn ↦ (hnodes n hn).mask) ⟨0, 0, false⟩
    (Nat.lt_of_le_of_lt (by dsimp only; omega) hroom)
  have hstop := hlays.stop_le
  have hown := BitVec.le_def.1 hown
  dsimp only at hstop
  have hend : (layOut cfg t bridge.childList ⟨0, 0, false⟩).2.aperture.toNat
      + bridge.alignment.toNat < 2 ^ 64 := by omega
  have hlength := le_length_calculateResourceAperture t hmask hend
  exact .node hlays.aligned (fun c hc _ ↦ (hlaid c hc).mask.dvd hwindow (hlargest c hc))
    (fun c hc hcounts ↦ (hlays.inside c hc hcounts).trans hlength) hlays.apart
    fun c hc ↦ (hlaid c hc).laidOut (hbelow c hc)

/-! ### Gathering the nodes -/

variable {w : ResourceWindows}

theorem Gathers.insert (h : Gathers w) (t : ResourceType) {n : PciResourceNode} (hn : Placeable n) :
    Gathers (w.insert t n) where
  sorted := h.sorted.setChildList ((h.sorted t).insertResourceNode n)
  alignment u := by
    rw [ResourceWindows.insert, setChildList_frame]
    exact h.alignment u
  nodes := by
    intro u m hm
    by_cases hu : u = t
    · subst hu
      rw [ResourceWindows.insert, childList_setChildList_self] at hm
      rcases mem_insertResourceNode.1 hm with rfl | hm
      · exact hn
      · exact h.nodes u m hm
    · rw [ResourceWindows.insert, setChildList_of_ne _ _ hu] at hm
      exact h.nodes u m hm

/-- The alignments of a device are masks. -/
structure MaskedDevice (d : PciIoDevice) : Prop where
  pciBar : ∀ i < pciMaxBar, IsMask (d.pciBar i).alignment
  vfPciBar : ∀ i < pciMaxBar, IsMask (d.vfPciBar i).alignment
  bridgeIoAlignment : IsMask (d.bridgeIoAlignment.setWidth 64)
  padding : ∀ ptr ∈ d.resourcePaddingDescriptors.getD [], IsMask ptr.addrRangeMax
  /-- CardBus bridges place their padding themselves. -/
  isCardBusBridge : d.isCardBusBridge = false

theorem Gathers.getResourceFromDevice (h : Gathers w) {d : PciIoDevice} (hd : MaskedDevice d) :
    Gathers (getResourceFromDevice d w) := by
  refine List.foldlRecOn _ _ (List.foldlRecOn _ _ h fun w h i hi ↦ ?_) fun w h i hi ↦ ?_
  · split
    · exact h.insert _ (placeable_leaf (hd.pciBar i (List.mem_range.1 hi)) rfl)
    · exact h
  · split
    · exact h.insert _ (placeable_leaf (hd.vfPciBar i (List.mem_range.1 hi)) rfl)
    · exact h

/-- The windows of a bridge may be placed. -/
def PlaceableWindows (d : PciIoDevice) (windows : ResourceWindows) : Prop :=
  ∀ t bar, PlaceableWindow ((windows t).node d bar t)

theorem Gathers.insertWindows (h : Gathers w) {d : PciIoDevice} {windows : ResourceWindows}
    (hwindows : PlaceableWindows d windows) : Gathers (insertWindows d windows w) := by
  refine List.foldlRecOn _ _ h fun w h t _ ↦ ?_
  have hleafy : Leafy ((windows t).node d (ppbRange t) t) := by
    refine ⟨fun hbar ↦ ?_, fun _ ↦ rfl⟩
    rcases hbar with hpadding | hbar
    · cases hpadding
    · have hwindow : 2 ≤ ppbRange t := by cases t <;> decide
      exact absurd hbar (Nat.not_lt.2 hwindow)
  split
  · exact h.insert t ⟨hwindows t _, hleafy⟩
  · exact h

theorem Gathers.resourcePaddingPolicy (h : Gathers w) {d : PciIoDevice} (hd : MaskedDevice d) :
    Gathers (resourcePaddingPolicy d w) := by
  have hpadding := hd.padding
  rw [Pci.resourcePaddingPolicy]
  split
  next descriptors hsome =>
    rw [hsome] at hpadding
    refine List.foldlRecOn _ _ h fun w h ptr hptr ↦ ?_
    rw [applyDescriptor]
    split
    · split
      · exact h.insert _ (placeable_leaf (hpadding ptr hptr) rfl)
      · exact h
    · exact h
  · exact h

theorem Gathers.mapDevice (h : Gathers w) {c : PciIoDevice × ResourceWindows}
    (hc : MaskedDevice c.1) (hwindows : c.1.isPciBridge = true → PlaceableWindows c.1 c.2) :
    Gathers (mapDevice w c) := by
  have hown := h.getResourceFromDevice hc
  rw [Pci.mapDevice, hc.isCardBusBridge, if_neg nofun]
  split
  next hbridge => exact hown.insertWindows (hwindows hbridge)
  · exact hown

/-- **Degradation keeps the nodes**, whatever it says of their types. -/
theorem Gathers.degradeResource (h : Gathers w) (cfg : ResourceConfig) (bridge : PciIoDevice) (children : List PciIoDevice) :
    Gathers (degradeResource cfg bridge children w) := by
  have hdegrades := degrades_degradeResource cfg bridge children h.sorted
  refine ⟨hdegrades.sorted, fun t ↦ ?_, fun t n hn ↦ ?_⟩
  · rw [hdegrades.frame]
    exact h.alignment t
  · have hmem : retype .io16 n ∈ w.nodes := by
      rw [← hdegrades.nodes]
      exact Multiset.mem_sum.2 ⟨t, Finset.mem_univ t,
        Multiset.mem_coe.2 (List.mem_map_of_mem hn)⟩
    obtain ⟨u, -, hu⟩ := Multiset.mem_sum.1 hmem
    obtain ⟨m, hm, heq⟩ := List.mem_map.1 (Multiset.mem_coe.1 hu)
    exact (h.nodes u m hm).retype heq

/-! ### The map -/

/-- No type of resource has a BAR moved down. -/
def NoVgaOnly (cfg : ResourceConfig) : Prop := ∀ t, NoVgaAliases cfg t

theorem placeableWindows_mapBridge (halias : NoVgaOnly cfg) {bridge : PciIoDevice}
    (hbridge : MaskedDevice bridge) {behind : List (PciIoDevice × ResourceWindows)} (h : Gathers w)
    (hbehind : ∀ c ∈ behind, MaskedDevice c.1 ∧
      (c.1.isPciBridge = true → PlaceableWindows c.1 c.2)) :
    PlaceableWindows bridge (mapBridge cfg bridge w behind).windows := by
  have hmapped : Gathers (behind.foldl mapDevice w) :=
    List.foldlRecOn _ _ h fun w h c hc ↦ h.mapDevice (hbehind c hc).1 (hbehind c hc).2
  have hall := (hmapped.resourcePaddingPolicy hbridge).degradeResource cfg bridge
    (behind.map Prod.fst)
  exact fun t bar ↦
    calculateResourceAperture_spec (halias t) (hall.sorted t) (hall.alignment t) (hall.nodes t) bridge bar

theorem gathers_emptyWindows {own : ResourceType → BitVec 64} (h : ∀ t, IsMask (own t)) :
    Gathers (emptyWindows own) :=
  ⟨fun _ ↦ List.Pairwise.nil, h, fun _ _ hn ↦ absurd hn List.not_mem_nil⟩

theorem gathers_ppbWindows {d : PciIoDevice} (hd : MaskedDevice d) : Gathers (ppbWindows d) := by
  have hmask : IsMask 0xFFFFF := ⟨20, by decide, rfl⟩
  refine ⟨fun t ↦ ?_, fun t ↦ ?_, fun t n hn ↦ ?_⟩
  · cases t <;> exact List.Pairwise.nil
  · cases t <;> first | exact hd.bridgeIoAlignment | exact hmask
  · cases t <;> exact absurd hn List.not_mem_nil

/-- **The windows of every bridge may be placed.** -/
theorem placeableWindows_createResourceMap (halias : NoVgaOnly cfg) (tree : RoseTree PciIoDevice)
    (hmasks : ∀ d ∈ tree.values, MaskedDevice d) (hw : Gathers w) :
    PlaceableWindows tree.value (createResourceMap cfg tree w).windows := by
  induction tree using RoseTree.ind generalizing w with
  | hnode a ts ih =>
    rw [createResourceMap_windows]
    refine placeableWindows_mapBridge halias (hmasks a (RoseTree.value_mem_values _)) hw
      fun c hc ↦ ?_
    obtain ⟨t, ht, rfl⟩ := List.mem_map.1 hc
    have hbelow : ∀ d ∈ t.values, MaskedDevice d := by
      intro d hd
      have hmem : d ∈ (RoseTree.node a ts).descendants := List.mem_flatMap.2 ⟨t, ht, hd⟩
      exact hmasks d ((RoseTree.descendants_sublist_values _).mem hmem)
    have hself := hbelow t.value t.value_mem_values
    exact ⟨hself, fun _ ↦ ih t ht hbelow (gathers_ppbWindows hself)⟩

/-! ### The addresses that are programmed -/

/-- The address of a node. -/
def ProgramCall.address (call : ProgramCall) : ℕ := (call.base + call.node.offset).toNat

/-- A BAR is programmed, not the window of a bridge. -/
def ProgramCall.isBar (call : ProgramCall) : Bool :=
  !call.node.isPadding && (call.function != .programPpbApperture || decide (call.node.bar < 2))

/-- The first range ends where the second begins, or before, or the other way round. -/
def ProgramCall.Apart (a b : ProgramCall) : Prop :=
  a.address + a.node.length.toNat ≤ b.address ∨ b.address + b.node.length.toNat ≤ a.address

/-- **The calls are sound**: what is programmed is aligned and in the range, and no two BARs
overlap. -/
structure SoundCalls (start stop : ℕ) (calls : List ProgramCall) : Prop where
  aligned : ∀ call ∈ calls, call.node.isPadding = false →
    call.node.alignment.toNat + 1 ∣ call.address
  inside : ∀ call ∈ calls, call.node.isPadding = false →
    start ≤ call.address ∧ call.address + call.node.length.toNat ≤ stop
  apart : calls.Pairwise fun a b ↦ a.isBar = true → b.isBar = true → a.Apart b

theorem SoundCalls.nil (start stop : ℕ) : SoundCalls start stop [] :=
  ⟨fun _ h ↦ absurd h List.not_mem_nil, fun _ h ↦ absurd h List.not_mem_nil, List.Pairwise.nil⟩

theorem SoundCalls.mono {start start' stop stop' : ℕ} {calls : List ProgramCall}
    (h : SoundCalls start stop calls) (hstart : start' ≤ start) (hstop : stop ≤ stop') :
    SoundCalls start' stop' calls :=
  ⟨h.aligned, fun call hcall hcounts ↦ ⟨hstart.trans (h.inside call hcall hcounts).1,
    (h.inside call hcall hcounts).2.trans hstop⟩, h.apart⟩

/-- Calls for ranges one behind the other. -/
theorem SoundCalls.append {start middle stop : ℕ} {calls calls' : List ProgramCall}
    (h : SoundCalls start middle calls) (h' : SoundCalls middle stop calls')
    (hstart : start ≤ middle) (hstop : middle ≤ stop) : SoundCalls start stop (calls ++ calls') := by
  refine ⟨List.forall_mem_append.2 ⟨h.aligned, h'.aligned⟩,
    List.forall_mem_append.2 ⟨(h.mono (Nat.le_refl _) hstop).inside,
      (h'.mono hstart (Nat.le_refl _)).inside⟩, ?_⟩
  refine List.pairwise_append.2 ⟨h.apart, h'.apart, fun a ha b hb habar hbbar ↦ .inl ?_⟩
  have hpadding : ∀ call : ProgramCall, call.isBar = true → call.node.isPadding = false := by
    intro call hcall
    have hnot := (Bool.and_eq_true_iff.1 hcall).1
    rwa [Bool.not_eq_true'] at hnot
  exact (h.inside a ha (hpadding a habar)).2.trans (h'.inside b hb (hpadding b hbbar)).1

/-- What the programming from a base has to do. -/
def Programs (n : PciResourceNode) (base : BitVec 64) : Prop :=
  (programResource n base).1 = .success ∧
    SoundCalls base.toNat (base.toNat + n.value.length.toNat) (programResource n base).2

theorem ne_gAllOne {base : BitVec 64} (h : base.toNat + 1 < 2 ^ 64) : base ≠ gAllOne := by
  rintro rfl
  exact absurd h (by decide)

theorem programResource_leaf {c : PciResourceNode} (h : c.children = []) (base : BitVec 64) :
    programResource c base = (if base = gAllOne then .outOfResources else .success, []) := by
  cases c with
  | node r children =>
    obtain rfl := h
    rw [programResource_node]
    split
    · rfl
    · rfl

/-- The calls for a node that has a place, with those below it. -/
theorem soundCalls_node {base : BitVec 64} {c : PciResourceNode} (hleafy : Leafy c) {calls : List ProgramCall} {address : ℕ}
    (haddress : (base + c.value.offset).toNat = address)
    (haligned : c.value.alignment.toNat + 1 ∣ address)
    (hcalls : SoundCalls address (address + c.value.length.toNat) calls)
    (hleaf : c.children = [] → calls = []) (function : ProgramFunction)
    (hfunction : function ≠ .programPpbApperture → calls = []) :
    SoundCalls address (address + c.value.length.toNat) (calls ++ [⟨function, base, c.value⟩]) := by
  refine ⟨List.forall_mem_append.2 ⟨hcalls.aligned, ?_⟩,
    List.forall_mem_append.2 ⟨hcalls.inside, ?_⟩,
    List.pairwise_append.2 ⟨hcalls.apart, List.pairwise_singleton _ _, fun a ha b hb _ hbar ↦ ?_⟩⟩
  · rintro call hcall -
    rw [List.mem_singleton.1 hcall, ProgramCall.address, haddress]
    exact haligned
  · rintro call hcall -
    rw [List.mem_singleton.1 hcall, ProgramCall.address, haddress]
    exact ⟨Nat.le_refl _, Nat.le_refl _⟩
  · -- a BAR has nothing below it
    have hnil : calls = [] := by
      rw [List.mem_singleton.1 hb, ProgramCall.isBar, Bool.and_eq_true_iff, Bool.or_eq_true_iff,
        bne_iff_ne, decide_eq_true_iff] at hbar
      rcases hbar.2 with hne | hlt
      · exact hfunction hne
      · exact hleaf (hleafy.children (.inr hlt))
    rw [hnil] at ha
    exact absurd ha List.not_mem_nil

/-- A call for padding places nothing. -/
theorem soundCalls_padding {base : BitVec 64} {c : PciResourceNode}
    (hpadding : c.value.isPadding = true) (function : ProgramFunction) (address : ℕ) :
    SoundCalls address address [⟨function, base, c.value⟩] := by
  have hno : ∀ call ∈ [(⟨function, base, c.value⟩ : ProgramCall)], call.node.isPadding ≠ false := by
    intro call hcall
    rw [List.mem_singleton.1 hcall]
    dsimp only
    rw [hpadding]
    exact nofun
  exact ⟨fun call hcall h ↦ absurd h (hno call hcall), fun call hcall h ↦ absurd h (hno call hcall),
    List.pairwise_singleton _ _⟩

/-- One turn of the loop: the calls for a node, and those for the rest. -/
theorem programNodes_cons (base : BitVec 64) (c : PciResourceNode)
    (rest : List (ResourceRequest × Programming)) (hbelow : c.value.pciDev.isPciBridge = true →
      (programResource c (base + c.value.offset)).1 = .success) :
    ∃ function, (function ≠ .programPpbApperture → c.value.pciDev.isPciBridge = false) ∧
      programNodes base ((c.value, programResource c) :: rest)
        = ((programNodes base rest).1,
          ((if c.value.pciDev.isPciBridge = true then
            (programResource c (base + c.value.offset)).2 else []) ++ [⟨function, base, c.value⟩])
              ++ (programNodes base rest).2) := by
  rw [programNodes]
  split
  next hdevice =>
    refine ⟨if c.value.pciDev.isCardBusBridge then .programP2C else .programBar, fun _ ↦ hdevice, ?_⟩
    have hno : ¬ c.value.pciDev.isPciBridge = true := by
      rw [hdevice]
      exact nofun
    rw [if_neg hno, List.nil_append]
    rfl
  next hbridge =>
    rw [Bool.not_eq_false] at hbridge
    refine ⟨.programPpbApperture, fun h ↦ absurd rfl h, ?_⟩
    have hsuccess := hbelow hbridge
    rw [if_pos hbridge, List.append_assoc]
    dsimp only
    rw [hsuccess, if_neg (by decide)]
    rfl

theorem sound_programNodes {base : BitVec 64} {start stop : ℕ} {children : List PciResourceNode}
    (hbase : base.toNat + 1 < 2 ^ 64) (hle : start ≤ stop)
    (hleafy : ∀ c ∈ children, Leafy c)
    (hchildren : ∀ c ∈ children, c.value.isPadding = false →
      c.value.alignment.toNat + 1 ∣ (base + c.value.offset).toNat ∧
        start ≤ (base + c.value.offset).toNat ∧
        (base + c.value.offset).toNat + c.value.length.toNat ≤ stop ∧
        Programs c (base + c.value.offset))
    (hapart : children.Pairwise fun a b ↦ a.value.isPadding = false → b.value.isPadding = false →
      (base + a.value.offset).toNat + a.value.length.toNat ≤ (base + b.value.offset).toNat) :
    (programNodes base (children.map fun c ↦ (c.value, programResource c))).1 = .success ∧
      SoundCalls start stop
        (programNodes base (children.map fun c ↦ (c.value, programResource c))).2 := by
  induction children generalizing start with
  | nil => exact ⟨rfl, .nil _ _⟩
  | cons c rest ih =>
    obtain ⟨hself, hchildren⟩ := List.forall_mem_cons.1 hchildren
    obtain ⟨hleaf, hleafy⟩ := List.forall_mem_cons.1 hleafy
    obtain ⟨hbefore, hapart⟩ := List.pairwise_cons.1 hapart
    rw [List.map_cons]
    cases hpadding : c.value.isPadding with
    | true =>
      have hnil : programResource c (base + c.value.offset) = (.success, []) := by
        have hzero : base + 0 = base := BitVec.add_zero base
        rw [hleaf.offset hpadding, hzero, programResource_leaf (hleaf.children (.inl hpadding)),
          if_neg (ne_gAllOne hbase)]
      obtain ⟨function, -, heq⟩ := programNodes_cons base c
        (rest.map fun c ↦ (c.value, programResource c)) fun _ ↦ by rw [hnil]
      obtain ⟨hsuccess, hrest⟩ := ih hle hleafy hchildren hapart
      rw [heq, hnil, ite_self, List.nil_append]
      exact ⟨hsuccess, (soundCalls_padding hpadding function start).append hrest (Nat.le_refl _) hle⟩
    | false =>
      obtain ⟨haligned, hstart, hstop, hsuccess, hcalls⟩ := hself hpadding
      obtain ⟨function, hfunction, heq⟩ := programNodes_cons base c
        (rest.map fun c ↦ (c.value, programResource c)) fun _ ↦ hsuccess
      have hlater : ∀ d ∈ rest, d.value.isPadding = false →
          d.value.alignment.toNat + 1 ∣ (base + d.value.offset).toNat ∧
            (base + c.value.offset).toNat + c.value.length.toNat ≤ (base + d.value.offset).toNat ∧
            (base + d.value.offset).toNat + d.value.length.toNat ≤ stop ∧
            Programs d (base + d.value.offset) := by
        intro d hd hd'
        obtain ⟨haligned', -, hstop', hprograms⟩ := hchildren d hd hd'
        exact ⟨haligned', hbefore d hd hpadding hd', hstop', hprograms⟩
      obtain ⟨hsuccess', hrest⟩ := ih hstop hleafy hlater hapart
      rw [heq]
      refine ⟨hsuccess', SoundCalls.append (.mono (soundCalls_node hleaf rfl haligned ?_ ?_ _ ?_)
        hstart (Nat.le_refl _)) hrest (by omega) hstop⟩
      · split
        · exact hcalls
        · exact .nil _ _
      · intro hnil
        rw [programResource_leaf hnil, ite_self]
      · intro hne
        rw [if_neg (by rw [hfunction hne]; exact nofun)]

/-- **What is placed is programmed soundly.** -/
theorem programs_of_placed {n : PciResourceNode} {base : BitVec 64}
    (hplaced : extents.Placed base.toNat n) (hleafy : LeafyBelow n)
    (hwrap : base.toNat + n.value.length.toNat + 1 < 2 ^ 64) : Programs n base := by
  induction n using RoseTree.ind generalizing base with
  | hnode r children ih =>
    cases hplaced with
    | node aligned inside apart below =>
      cases hleafy with
      | node leafy leafyBelow =>
        have hbase : base.toNat + 1 < 2 ^ 64 := by omega
        -- the addresses do not wrap, because they are inside
        have hcounts : ∀ c : PciResourceNode, c.value.isPadding = false →
            extents.counts c.value = true := by
          intro c hc
          change (!c.value.isPadding) = true
          rw [hc]
          rfl
        have haddress : ∀ c ∈ children, c.value.isPadding = false →
            (base + c.value.offset).toNat = base.toNat + extents.offset c.value := by
          intro c hc hpadding
          have hinside := inside c hc (hcounts c hpadding)
          have hwrap' : base.toNat + extents.offset c.value < 2 ^ 64 := by
            change base.toNat + r.length.toNat + 1 < 2 ^ 64 at hwrap
            change _ ≤ base.toNat + r.length.toNat at hinside
            omega
          rw [BitVec.toNat_add]
          exact Nat.mod_eq_of_lt hwrap'
        rw [Programs, programResource_node, if_neg (ne_gAllOne hbase)]
        refine sound_programNodes hbase (Nat.le_add_right _ _) leafy (fun c hc hpadding ↦ ?_) ?_
        · have hinside := inside c hc (hcounts c hpadding)
          have hbelow := below c hc (hcounts c hpadding)
          rw [haddress c hc hpadding]
          refine ⟨aligned c hc (hcounts c hpadding), Nat.le_add_right _ _, hinside, ?_⟩
          rw [← haddress c hc hpadding] at hbelow
          refine ih c hc hbelow (leafyBelow c hc) ?_
          rw [haddress c hc hpadding]
          exact Nat.lt_of_le_of_lt (Nat.succ_le_succ hinside) hwrap
        · refine apart.imp_of_mem fun {a b} ha hb hab hpa hpb ↦ ?_
          rw [haddress a ha hpa, haddress b hb hpb]
          exact hab (hcounts a hpa) (hcounts b hpb)

/-- **The placement is sound.** -/
structure PlacementSound (root : PciResourceNode) (base : BitVec 64) : Prop where
  placed : extents.Placed base.toNat root
  programs : Programs root base

/-- **Resource placement is sound**: in the window of every bridge, at any depth, each BAR and each
window gets an aligned address inside, apart from its siblings; programming succeeds, and no two BARs
of the whole tree overlap. -/
theorem placement_sound (halias : NoVgaOnly cfg) (tree : RoseTree PciIoDevice)
    (hmasks : ∀ d ∈ tree.values, MaskedDevice d) (own : ResourceType → BitVec 64)
    (hown : ∀ t, IsMask (own t)) (t : ResourceType) (bar : ℕ) (base : BitVec 64)
    (hfits : Fits (((createResourceMap cfg tree (emptyWindows own)).windows t).node tree.value bar t))
    (hbase : ((createResourceMap cfg tree (emptyWindows own)).windows t).alignment.toNat + 1
      ∣ base.toNat)
    (hwrap : base.toNat + ((createResourceMap cfg tree (emptyWindows own)).windows t).length.toNat + 1
      < 2 ^ 64) :
    PlacementSound (((createResourceMap cfg tree (emptyWindows own)).windows t).node tree.value bar t)
      base := by
  have hwindow := placeableWindows_createResourceMap halias tree hmasks (gathers_emptyWindows hown) t bar
  have hplaced := (hwindow.laidOut hfits).placed hbase
  exact ⟨hplaced, programs_of_placed hplaced hwindow.below hwrap⟩

/-- A device with a BAR for 4 KB and one for 1 MB. -/
def twoBars : PciIoDevice :=
  { paddedBridge with
    id := 2
    headerLayout := .device
    pciBar := fun i ↦
      if i = 0 then ⟨0x1000, 0xFFF, .mem32, false⟩
      else if i = 1 then ⟨0x100000, 0xFFFFF, .mem32, false⟩
      else ⟨0, 0, .unknown, false⟩
    parent := some 1
    resourcePaddingDescriptors := none }

/-- The root bridge above the hot-plug bridge. -/
def bridgeAtTop : PciIoDevice :=
  { paddedBridge with id := 0, parent := none, resourcePaddingDescriptors := none }

theorem placement_sound_twoBars :
    PlacementSound (((createResourceMap plainConfig
      (.node bridgeAtTop [.node paddedBridge [.node twoBars []]])
      (emptyWindows fun _ ↦ 0xFFFFF)).windows .mem32).node bridgeAtTop 1 .mem32) 0x80000000 := by
  have hzero : IsMask 0 := ⟨0, by decide, rfl⟩
  have hpage : IsMask 0xFFF := ⟨12, by decide, rfl⟩
  have hmega : IsMask 0xFFFFF := ⟨20, by decide, rfl⟩
  refine placement_sound (fun _ _ ↦ .inr rfl) (.node bridgeAtTop [.node paddedBridge [.node twoBars []]])
    (fun d hd ↦ ?_) _ (fun _ ↦ hmega) .mem32 1 0x80000000 (by decide +kernel) (by decide +kernel)
    (by decide +kernel)
  change d ∈ [bridgeAtTop, paddedBridge, twoBars] at hd
  simp only [List.mem_cons, List.not_mem_nil, or_false] at hd
  rcases hd with rfl | rfl | rfl
  · exact ⟨fun _ _ ↦ hzero, fun _ _ ↦ hzero, hpage, nofun, rfl⟩
  · refine ⟨fun _ _ ↦ hzero, fun _ _ ↦ hzero, hpage, fun ptr hptr ↦ ?_, rfl⟩
    change ptr ∈ [_, _] at hptr
    simp only [List.mem_cons, List.not_mem_nil, or_false] at hptr
    rcases hptr with rfl | rfl
    · exact hmega
    · exact hmega
  · refine ⟨fun i _ ↦ ?_, fun _ _ ↦ hzero, hpage, nofun, rfl⟩
    rw [twoBars]
    dsimp only
    split_ifs
    · exact hpage
    · exact hmega
    · exact hzero

end PurleyFirmware.Pci
