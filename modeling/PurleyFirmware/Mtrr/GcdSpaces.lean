import PurleyFirmware.Foundation.Painting
import Mathlib.Data.List.Basic
import Mathlib.Data.Nat.Notation

/-!
# Attributes of GCD memory spaces

`MemoryAttribute.c` of the CPU driver tells the GCD services which cache type a range of addresses
has. It works on a copy of the memory space map: for each descriptor that the range meets, the
service is called with what the descriptor and the range have in common.

The services themselves are a parameter (`GcdServices`), with what is documented of them
(`GcdServices.Sets`). The map is sorted and has no gaps, so the descriptors between the one with the
first address and the one with the last are those that meet the range (`mem_gcdWindow`), and the
calls give every address of the range that exists the new cache type, in the attributes that its
descriptor has in the copy (`paint_setGcdMemorySpaceAttributes`).
-/

namespace PurleyFirmware.Mtrr

/-! ### The services -/

/-- `EFI_GCD_MEMORY_TYPE`. -/
inductive EfiGcdMemoryType
  | nonExistent
  | reserved
  | systemMemory
  | memoryMappedIo
  deriving DecidableEq

/-- What a descriptor says of its addresses. -/
structure GcdMemorySpace where
  capabilities : BitVec 64
  attributes : BitVec 64
  gcdMemoryType : EfiGcdMemoryType
  deriving DecidableEq

/-- `EFI_GCD_MEMORY_SPACE_DESCRIPTOR`. -/
structure GcdMemorySpaceDescriptor extends GcdMemorySpace where
  baseAddress : ℕ
  length : ℕ
  deriving DecidableEq

/-- The addresses of a descriptor. -/
def GcdMemorySpaceDescriptor.toStroke (d : GcdMemorySpaceDescriptor) :
    Stroke GcdMemorySpaceDescriptor :=
  ⟨d.baseAddress, d.baseAddress + d.length, d⟩

/-- The address is one of the descriptor. -/
def GcdMemorySpaceDescriptor.Covers (d : GcdMemorySpaceDescriptor) (a : ℕ) : Prop :=
  d.toStroke.Covers a

instance GcdMemorySpaceDescriptor.decidableCovers {d : GcdMemorySpaceDescriptor} {a : ℕ} :
    Decidable (d.Covers a) :=
  inferInstanceAs (Decidable (d.toStroke.Covers a))

theorem GcdMemorySpaceDescriptor.covers_iff {d : GcdMemorySpaceDescriptor} {a : ℕ} :
    d.Covers a ↔ d.baseAddress ≤ a ∧ a < d.baseAddress + d.length := Iff.rfl

/-- What a map says of an address. -/
def spaceAt (map : List GcdMemorySpaceDescriptor) (a : ℕ) : Option GcdMemorySpace :=
  (map.find? fun d ↦ d.Covers a).map GcdMemorySpaceDescriptor.toGcdMemorySpace

/-- What `gDS->SetMemorySpaceAttributes` is called with. -/
structure SetRequest where
  baseAddress : ℕ
  length : ℕ
  attributes : BitVec 64
  deriving DecidableEq

/-- The addresses of a request. -/
def SetRequest.toStroke (r : SetRequest) : Stroke (BitVec 64) :=
  ⟨r.baseAddress, r.baseAddress + r.length, r.attributes⟩

/-- The GCD services that the driver calls. -/
structure GcdServices where
  State : Type
  /-- `GetMemorySpaceMap`. -/
  getMemorySpaceMap : State → List GcdMemorySpaceDescriptor
  /-- `SetMemorySpaceAttributes`. -/
  setMemorySpaceAttributes : SetRequest → State → State

/-- The request is one that the service fulfils: it is not empty, all its addresses exist, and they
are capable of the attributes. -/
structure Supported (map : List GcdMemorySpaceDescriptor) (r : SetRequest) : Prop where
  pos : 0 < r.length
  capable : ∀ a, r.toStroke.Covers a → ∃ m, spaceAt map a = some m ∧
    m.gcdMemoryType ≠ .nonExistent ∧ r.attributes &&& m.capabilities = r.attributes

/-- The service sets the attributes of the addresses in the request, and nothing else. -/
def GcdServices.Sets (G : GcdServices) : Prop :=
  ∀ r σ, Supported (G.getMemorySpaceMap σ) r → ∀ a,
    spaceAt (G.getMemorySpaceMap (G.setMemorySpaceAttributes r σ)) a
      = if r.toStroke.Covers a then
          (spaceAt (G.getMemorySpaceMap σ) a).map fun m ↦ { m with attributes := r.attributes }
        else spaceAt (G.getMemorySpaceMap σ) a

/-- A map is sorted and has no gaps below its end. Each descriptor is capable of the attributes that
it has. -/
structure IsGcdMap (map : List GcdMemorySpaceDescriptor) (top : ℕ) : Prop where
  contiguous : Contiguous 0 (map.map GcdMemorySpaceDescriptor.toStroke) top
  capable : ∀ d ∈ map, d.attributes &&& d.capabilities = d.attributes

namespace IsGcdMap

variable {map : List GcdMemorySpaceDescriptor} {d d' : GcdMemorySpaceDescriptor} {top a : ℕ}

theorem exists_covers (h : IsGcdMap map top) (ha : a < top) : ∃ d ∈ map, d.Covers a := by
  obtain ⟨s, hs, hcovers⟩ := h.contiguous.exists_covers (Nat.zero_le a) ha
  obtain ⟨d, hd, rfl⟩ := List.mem_map.1 hs
  exact ⟨d, hd, hcovers⟩

theorem eq_of_covers (h : IsGcdMap map top) (hd : d ∈ map) (hd' : d' ∈ map) (ha : d.Covers a)
    (ha' : d'.Covers a) : d = d' := by
  have hpaint (d : GcdMemorySpaceDescriptor) (hd : d ∈ map) (ha : d.Covers a) :
      paint (map.map GcdMemorySpaceDescriptor.toStroke) (fun _ ↦ d') a = d :=
    h.contiguous.paint_eq (List.mem_map_of_mem hd) ha
  rw [← hpaint d hd ha, hpaint d' hd' ha']

theorem bounds (h : IsGcdMap map top) (hd : d ∈ map) :
    0 < d.length ∧ d.baseAddress + d.length ≤ top := by
  have hbounds := h.contiguous.bounds (List.mem_map_of_mem hd)
  exact ⟨Nat.pos_of_lt_add_right hbounds.2.1, hbounds.2.2⟩

theorem spaceAt_eq (h : IsGcdMap map top) (hd : d ∈ map) (ha : d.Covers a) :
    spaceAt map a = some d.toGcdMemorySpace := by
  obtain ⟨d', hd'⟩ : ∃ d', map.find? (fun d ↦ d.Covers a) = some d' := by
    rw [← Option.isSome_iff_exists, List.find?_isSome]
    exact ⟨d, hd, decide_eq_true ha⟩
  have hfound := List.find?_some hd'
  have ha' : d'.Covers a := of_decide_eq_true hfound
  rw [spaceAt, hd', h.eq_of_covers hd (List.mem_of_find?_eq_some hd') ha ha']
  rfl

end IsGcdMap

/-! ### One range -/

/-- `EFI_MEMORY_UC`, `EFI_MEMORY_WC`, `EFI_MEMORY_WT`, `EFI_MEMORY_WB`, `EFI_MEMORY_UCE` and
`EFI_MEMORY_WP`. -/
def efiMemoryUc : BitVec 64 := 0x1
def efiMemoryWc : BitVec 64 := 0x2
def efiMemoryWt : BitVec 64 := 0x4
def efiMemoryWb : BitVec 64 := 0x8
def efiMemoryUce : BitVec 64 := 0x10
def efiMemoryWp : BitVec 64 := 0x1000

/-- `EFI_MEMORY_CACHETYPE_MASK`. It has no `EFI_MEMORY_WP`. -/
def efiMemoryCachetypeMask : BitVec 64 :=
  efiMemoryUc ||| efiMemoryWc ||| efiMemoryWt ||| efiMemoryWb ||| efiMemoryUce

/-- The attributes of a descriptor, with another cache type as far as the descriptor is capable of
it. -/
def GcdMemorySpaceDescriptor.withCacheType (d : GcdMemorySpaceDescriptor) (attributes : BitVec 64) :
    BitVec 64 :=
  d.attributes &&& ~~~efiMemoryCachetypeMask ||| d.capabilities &&& attributes

theorem GcdMemorySpaceDescriptor.withCacheType_and_capabilities (d : GcdMemorySpaceDescriptor)
    (h : d.attributes &&& d.capabilities = d.attributes) (attributes : BitVec 64) :
    d.withCacheType attributes &&& d.capabilities = d.withCacheType attributes := by
  refine BitVec.eq_of_getLsbD_eq fun i hi ↦ ?_
  have hbit := congrArg (BitVec.getLsbD · i) h
  simp only [BitVec.getLsbD_and] at hbit
  simp only [withCacheType, BitVec.getLsbD_and, BitVec.getLsbD_or]
  cases hattributes : d.attributes.getLsbD i <;> cases hcapable : d.capabilities.getLsbD i <;>
    simp_all

/-- The loop of `SearchGcdMemorySpaces`, from the descriptor `index` on. -/
def searchFrom (baseAddress length : ℕ) :
    ℕ → ℕ → List GcdMemorySpaceDescriptor → Option (ℕ × ℕ)
  | _, _, [] => none
  | startIndex, index, d :: ds =>
    let startIndex := if d.Covers baseAddress then index else startIndex
    if d.Covers (baseAddress + length - 1) then some (startIndex, index)
    else searchFrom baseAddress length startIndex (index + 1) ds

/-- `SearchGcdMemorySpaces`: the descriptors with the first and the last address of the range. -/
def searchGcdMemorySpaces (map : List GcdMemorySpaceDescriptor) (baseAddress length : ℕ) :
    Option (ℕ × ℕ) :=
  searchFrom baseAddress length 0 0 map

/-- The descriptors that the loop of `SetGcdMemorySpaceAttributes` goes through. -/
def gcdWindow (map : List GcdMemorySpaceDescriptor) (baseAddress length : ℕ) :
    List GcdMemorySpaceDescriptor :=
  match searchGcdMemorySpaces map baseAddress length with
  | none => []
  | some (startIndex, endIndex) => (map.drop startIndex).take (endIndex + 1 - startIndex)

/-- The request for what a descriptor and the range have in common. -/
def regionRequest (baseAddress length : ℕ) (attributes : BitVec 64) (d : GcdMemorySpaceDescriptor) :
    SetRequest :=
  let regionStart := if d.baseAddress ≤ baseAddress then baseAddress else d.baseAddress
  { baseAddress := regionStart
    length :=
      if baseAddress + length - 1 < d.baseAddress + d.length then baseAddress + length - regionStart
      else d.baseAddress + d.length - regionStart
    attributes := d.withCacheType attributes }

/-- `SetGcdMemorySpaceAttributes`: the calls of the service, in order. Its status is not used. -/
def setGcdMemorySpaceAttributes (map : List GcdMemorySpaceDescriptor) (baseAddress length : ℕ)
    (attributes : BitVec 64) : List SetRequest :=
  ((gcdWindow map baseAddress length).filter fun d ↦ d.gcdMemoryType ≠ .nonExistent).map
    (regionRequest baseAddress length attributes)

/-! ### The descriptors that meet the range -/

section

variable {map : List GcdMemorySpaceDescriptor} {d : GcdMemorySpaceDescriptor}
  {baseAddress length top a : ℕ} {attributes : BitVec 64}

/-- What the search finds: the first descriptor with the last address, and one with the first
address that is not after it, if there is one. -/
theorem searchFrom_eq_some {startIndex index i j : ℕ}
    (h : searchFrom baseAddress length startIndex index map = some (i, j)) :
    ∃ k d, map[k]? = some d ∧ j = index + k ∧ d.Covers (baseAddress + length - 1) ∧
      ((∃ k' d', k' ≤ k ∧ map[k']? = some d' ∧ i = index + k' ∧ d'.Covers baseAddress) ∨
        i = startIndex ∧ ∀ k' d', k' ≤ k → map[k']? = some d' → ¬ d'.Covers baseAddress) := by
  induction map generalizing startIndex index with
  | nil => cases h
  | cons d ds ih =>
    rw [searchFrom] at h
    split_ifs at h with hlast hbase hbase
    · obtain ⟨rfl, rfl⟩ := Prod.mk.inj (Option.some.inj h)
      exact ⟨0, d, rfl, rfl, hlast, .inl ⟨0, d, Nat.le_refl 0, rfl, rfl, hbase⟩⟩
    · obtain ⟨rfl, rfl⟩ := Prod.mk.inj (Option.some.inj h)
      refine ⟨0, d, rfl, rfl, hlast, .inr ⟨rfl, fun k' d' hle hk' ↦ ?_⟩⟩
      obtain rfl := Nat.le_zero.1 hle
      obtain rfl : d = d' := Option.some.inj hk'
      exact hbase
    · obtain ⟨k, e, hk, rfl, he, hi⟩ := ih h
      refine ⟨k + 1, e, hk, by omega, he, .inl ?_⟩
      rcases hi with ⟨k', d', hle, hk', rfl, hd'⟩ | ⟨rfl, -⟩
      · exact ⟨k' + 1, d', by omega, hk', by omega, hd'⟩
      · exact ⟨0, d, Nat.zero_le _, rfl, rfl, hbase⟩
    · obtain ⟨k, e, hk, rfl, he, hi⟩ := ih h
      refine ⟨k + 1, e, hk, by omega, he, ?_⟩
      rcases hi with ⟨k', d', hle, hk', rfl, hd'⟩ | ⟨rfl, hnot⟩
      · exact .inl ⟨k' + 1, d', by omega, hk', by omega, hd'⟩
      · refine .inr ⟨rfl, fun k' d' hle hk' ↦ ?_⟩
        cases k' with
        | zero =>
          obtain rfl : d = d' := Option.some.inj hk'
          exact hbase
        | succ k' => exact hnot k' d' (Nat.le_of_succ_le_succ hle) hk'

/-- The search finds something where a descriptor has the last address. -/
theorem searchFrom_ne_none {startIndex index : ℕ} (hd : d ∈ map)
    (hlast : d.Covers (baseAddress + length - 1)) :
    searchFrom baseAddress length startIndex index map ≠ none := by
  induction map generalizing startIndex index with
  | nil => exact absurd hd List.not_mem_nil
  | cons d' ds ih =>
    rw [searchFrom]
    split
    · exact Option.some_ne_none _
    · rcases List.mem_cons.1 hd with rfl | hd
      · exact absurd hlast ‹_›
      · exact ih hd

/-- The later a descriptor comes in the map, the higher its addresses. -/
theorem IsGcdMap.ordered (h : IsGcdMap map top) {i j : ℕ} {d d' : GcdMemorySpaceDescriptor}
    (hi : map[i]? = some d) (hj : map[j]? = some d') (hij : i < j) :
    d.baseAddress + d.length ≤ d'.baseAddress := by
  have hmap {k : ℕ} {e : GcdMemorySpaceDescriptor} (hk : map[k]? = some e) :
      (map.map GcdMemorySpaceDescriptor.toStroke)[k]? = some e.toStroke := by
    rw [List.getElem?_map, hk, Option.map_some]
  exact h.contiguous.stop_le_start (hmap hi) (hmap hj) hij

theorem searchGcdMemorySpaces_ne_none (hd : d ∈ map)
    (hlast : d.Covers (baseAddress + length - 1)) :
    searchGcdMemorySpaces map baseAddress length ≠ none :=
  searchFrom_ne_none hd hlast

theorem mem_drop_take {i j : ℕ} :
    d ∈ (map.drop i).take (j + 1 - i) ↔ ∃ m, i ≤ m ∧ m ≤ j ∧ map[m]? = some d := by
  rw [List.mem_iff_getElem?]
  constructor
  · rintro ⟨n, hn⟩
    rw [List.getElem?_take] at hn
    split_ifs at hn with hlt
    rw [List.getElem?_drop] at hn
    exact ⟨i + n, by omega, by omega, hn⟩
  · rintro ⟨m, him, hmj, hm⟩
    refine ⟨m - i, ?_⟩
    rw [List.getElem?_take, if_pos (by omega), List.getElem?_drop, Nat.add_sub_cancel' him]
    exact hm

/-- **The descriptors that meet the range.** -/
theorem mem_gcdWindow (h : IsGcdMap map top) (hlength : 0 < length)
    (htop : baseAddress + length ≤ top) :
    d ∈ gcdWindow map baseAddress length ↔
      d ∈ map ∧ d.baseAddress < baseAddress + length ∧ baseAddress < d.baseAddress + d.length := by
  have hfirst : baseAddress < top := by omega
  have hend : baseAddress + length - 1 < top := by omega
  obtain ⟨dl, hdl, hlast⟩ := h.exists_covers hend
  obtain ⟨db, hdb, hbase⟩ := h.exists_covers hfirst
  obtain ⟨⟨i, j⟩, hsearch⟩ := Option.ne_none_iff_exists'.1 (searchGcdMemorySpaces_ne_none hdl hlast)
  obtain ⟨k, e, hk, hj, he, hi⟩ := searchFrom_eq_some hsearch
  rw [Nat.zero_add] at hj
  subst hj
  -- a descriptor with the first address does not come after one with the last
  obtain ⟨s, hs, hsbase⟩ : ∃ s, map[i]? = some s ∧ s.Covers baseAddress := by
    rcases hi with ⟨k', s, -, hs, hi, hsbase⟩ | ⟨-, hnot⟩
    · rw [Nat.zero_add] at hi
      exact ⟨s, hi ▸ hs, hsbase⟩
    · obtain ⟨kb, hkb⟩ := List.mem_iff_getElem?.1 hdb
      rcases Nat.lt_or_ge j kb with hlt | hle
      · have := h.ordered hk hkb hlt
        have := he.2
        have := hbase.1
        simp only [GcdMemorySpaceDescriptor.toStroke] at *
        omega
      · exact absurd hbase (hnot kb db hle hkb)
  rw [gcdWindow, hsearch]
  simp only [mem_drop_take]
  rw [GcdMemorySpaceDescriptor.covers_iff] at he hsbase
  constructor
  · rintro ⟨m, him, hmj, hm⟩
    refine ⟨List.mem_of_getElem? hm, ?_, ?_⟩
    · rcases Nat.eq_or_lt_of_le hmj with rfl | hlt
      · obtain rfl : d = e := Option.some.inj (hm.symm.trans hk)
        omega
      · have := h.ordered hm hk hlt
        omega
    · rcases Nat.eq_or_lt_of_le him with rfl | hlt
      · obtain rfl : d = s := Option.some.inj (hm.symm.trans hs)
        omega
      · have := h.ordered hs hm hlt
        omega
  · rintro ⟨hd, hbelow, habove⟩
    obtain ⟨m, hm⟩ := List.mem_iff_getElem?.1 hd
    refine ⟨m, Nat.not_lt.1 fun hlt ↦ ?_, Nat.not_lt.1 fun hlt ↦ ?_, hm⟩
    · have := h.ordered hm hs hlt
      omega
    · have := h.ordered hk hm hlt
      omega

/-! ### What the calls do -/

theorem covers_regionRequest (hbelow : d.baseAddress < baseAddress + length)
    (habove : baseAddress < d.baseAddress + d.length) :
    (regionRequest baseAddress length attributes d).toStroke.Covers a ↔
      d.Covers a ∧ baseAddress ≤ a ∧ a < baseAddress + length := by
  rw [GcdMemorySpaceDescriptor.covers_iff]
  simp only [Stroke.Covers, SetRequest.toStroke, regionRequest]
  split_ifs <;> omega

/-- Each call is one that the service fulfils, with the map as it was. -/
theorem supported_setGcdMemorySpaceAttributes (h : IsGcdMap map top) (hlength : 0 < length)
    (htop : baseAddress + length ≤ top) {r : SetRequest}
    (hr : r ∈ setGcdMemorySpaceAttributes map baseAddress length attributes) : Supported map r := by
  obtain ⟨d, hd, rfl⟩ := List.mem_map.1 hr
  obtain ⟨hwindow, hexists⟩ := List.mem_filter.1 hd
  obtain ⟨hd, hbelow, habove⟩ := (mem_gcdWindow h hlength htop).1 hwindow
  refine ⟨?_, fun a ha ↦ ?_⟩
  · have hpos := (h.bounds hd).1
    simp only [regionRequest]
    split_ifs <;> omega
  · rw [covers_regionRequest hbelow habove] at ha
    exact ⟨_, h.spaceAt_eq hd ha.1, of_decide_eq_true hexists,
      d.withCacheType_and_capabilities (h.capable d hd) attributes⟩

theorem covers_setGcdMemorySpaceAttributes (h : IsGcdMap map top) (hlength : 0 < length)
    (htop : baseAddress + length ≤ top) {s : Stroke (BitVec 64)} (hs : s ∈
      (setGcdMemorySpaceAttributes map baseAddress length attributes).map SetRequest.toStroke)
    (ha : s.Covers a) : (baseAddress ≤ a ∧ a < baseAddress + length) ∧
      ∃ d ∈ map, d.Covers a ∧ s.value = d.withCacheType attributes := by
  obtain ⟨r, hr, rfl⟩ := List.mem_map.1 hs
  obtain ⟨d, hd, rfl⟩ := List.mem_map.1 hr
  obtain ⟨hmem, hbelow, habove⟩ :=
    (mem_gcdWindow h hlength htop).1 (List.mem_of_mem_filter hd)
  obtain ⟨hcovers, hrange⟩ := (covers_regionRequest hbelow habove).1 ha
  exact ⟨hrange, d, hmem, hcovers, rfl⟩

/-- **An address of the range gets the new cache type**, in the attributes of its descriptor. -/
theorem paint_setGcdMemorySpaceAttributes (h : IsGcdMap map top) (hlength : 0 < length)
    (htop : baseAddress + length ≤ top) (hd : d ∈ map) (hexists : d.gcdMemoryType ≠ .nonExistent)
    (ha : d.Covers a) (x : ℕ → BitVec 64) :
    paint ((setGcdMemorySpaceAttributes map baseAddress length attributes).map
        SetRequest.toStroke) x a
      = if baseAddress ≤ a ∧ a < baseAddress + length then d.withCacheType attributes else x a := by
  split_ifs with hrange
  · rw [GcdMemorySpaceDescriptor.covers_iff] at ha
    have hbelow : d.baseAddress < baseAddress + length := by omega
    have habove : baseAddress < d.baseAddress + d.length := by omega
    have hwindow := (mem_gcdWindow h hlength htop).2 ⟨hd, hbelow, habove⟩
    have hr : regionRequest baseAddress length attributes d
        ∈ setGcdMemorySpaceAttributes map baseAddress length attributes :=
      List.mem_map_of_mem (List.mem_filter.2 ⟨hwindow, decide_eq_true hexists⟩)
    refine paint_eq_of_forall (List.mem_map_of_mem hr)
      ((covers_regionRequest hbelow habove).2 ⟨ha, hrange⟩) fun s hs hsa ↦ ?_
    obtain ⟨-, d', hd', ha', hvalue⟩ := covers_setGcdMemorySpaceAttributes h hlength htop hs hsa
    rw [hvalue, h.eq_of_covers hd hd' ha ha']
  · refine paint_of_forall_not fun s hs hsa ↦ hrange ?_
    exact (covers_setGcdMemorySpaceAttributes h hlength htop hs hsa).1

end

/-! ### Calls one after the other -/

/-- **The requests are painted**, as long as the service fulfils them with the map as it was. -/
theorem GcdServices.Sets.foldl {G : GcdServices} (h : G.Sets) {map : List GcdMemorySpaceDescriptor}
    {requests : List SetRequest} {σ : G.State} (hrequests : ∀ r ∈ requests, Supported map r)
    {x : ℕ → BitVec 64} (hσ : ∀ a, spaceAt (G.getMemorySpaceMap σ) a
      = (spaceAt map a).map fun m ↦ { m with attributes := x a }) (a : ℕ) :
    spaceAt (G.getMemorySpaceMap
        (requests.foldl (fun σ r ↦ G.setMemorySpaceAttributes r σ) σ)) a
      = (spaceAt map a).map fun m ↦
          { m with attributes := paint (requests.map SetRequest.toStroke) x a } := by
  induction requests generalizing σ x with
  | nil => exact hσ a
  | cons r requests ih =>
    rw [List.forall_mem_cons] at hrequests
    have hsupported : Supported (G.getMemorySpaceMap σ) r := by
      refine ⟨hrequests.1.pos, fun a ha ↦ ?_⟩
      obtain ⟨m, hm, hexists, hcapable⟩ := hrequests.1.capable a ha
      exact ⟨{ m with attributes := x a }, by rw [hσ a, hm, Option.map_some], hexists, hcapable⟩
    rw [List.foldl_cons, List.map_cons, paint_cons]
    refine ih hrequests.2 fun a ↦ ?_
    rw [h r σ hsupported a, hσ a, Option.map_map, Stroke.apply]
    split_ifs <;> rfl

/-! ### Services that work on the map itself -/

/-- A descriptor, cut where a request starts and ends. -/
def SetRequest.split (r : SetRequest) (d : GcdMemorySpaceDescriptor) :
    List GcdMemorySpaceDescriptor :=
  let dEnd := d.baseAddress + d.length
  let start := max d.baseAddress (min r.baseAddress dEnd)
  let stop := max start (min (r.baseAddress + r.length) dEnd)
  [{ d with length := start - d.baseAddress },
    { d with attributes := r.attributes, baseAddress := start, length := stop - start },
    { d with baseAddress := stop, length := dEnd - stop }].filter fun d ↦ d.length ≠ 0

/-- Services whose state is the map. -/
def mapServices : GcdServices where
  State := List GcdMemorySpaceDescriptor
  getMemorySpaceMap := id
  setMemorySpaceAttributes r map := map.flatMap r.split

theorem spaceAt_cons (d : GcdMemorySpaceDescriptor) (map : List GcdMemorySpaceDescriptor) (a : ℕ) :
    spaceAt (d :: map) a = if d.Covers a then some d.toGcdMemorySpace else spaceAt map a := by
  rw [spaceAt, List.find?_cons]
  by_cases ha : d.Covers a
  · rw [decide_eq_true ha, if_pos ha]
    rfl
  · rw [decide_eq_false ha, if_neg ha]
    rfl

theorem spaceAt_append (map map' : List GcdMemorySpaceDescriptor) (a : ℕ) :
    spaceAt (map ++ map') a = (spaceAt map a).or (spaceAt map' a) := by
  rw [spaceAt, List.find?_append, Option.map_or]
  rfl

/-- Descriptors without addresses make no difference. -/
theorem spaceAt_filter (map : List GcdMemorySpaceDescriptor) (a : ℕ) :
    spaceAt (map.filter fun d ↦ d.length ≠ 0) a = spaceAt map a := by
  induction map with
  | nil => rfl
  | cons d map ih =>
    by_cases hlength : d.length = 0
    · have hnot : ¬ d.Covers a := by
        rw [GcdMemorySpaceDescriptor.covers_iff]
        omega
      rw [List.filter_cons_of_neg (by simpa using hlength), ih, spaceAt_cons, if_neg hnot]
    · rw [List.filter_cons_of_pos (by simpa using hlength), spaceAt_cons, spaceAt_cons, ih]

theorem spaceAt_split (r : SetRequest) (d : GcdMemorySpaceDescriptor) (a : ℕ) :
    spaceAt (r.split d) a = if r.toStroke.Covers a then
        (spaceAt [d] a).map fun m ↦ { m with attributes := r.attributes }
      else spaceAt [d] a := by
  rw [SetRequest.split, spaceAt_filter]
  simp only [spaceAt_cons]
  split_ifs <;> first
    | rfl
    | (simp only [GcdMemorySpaceDescriptor.covers_iff, Stroke.Covers, SetRequest.toStroke] at *
       omega)

/-- They set what is requested. -/
theorem sets_mapServices : mapServices.Sets := by
  intro r map _ a
  change spaceAt (List.flatMap r.split map) a = if r.toStroke.Covers a then
    (spaceAt map a).map fun m ↦ { m with attributes := r.attributes } else spaceAt map a
  clear * -
  induction map with
  | nil => split_ifs <;> rfl
  | cons d map ih =>
    have hcons : spaceAt (d :: map) a = (spaceAt [d] a).or (spaceAt map a) :=
      spaceAt_append [d] map a
    rw [List.flatMap_cons, spaceAt_append, ih, spaceAt_split, hcons]
    split_ifs
    · rw [Option.map_or]
    · rfl

end PurleyFirmware.Mtrr
