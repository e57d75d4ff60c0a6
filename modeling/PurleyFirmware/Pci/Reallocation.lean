import PurleyFirmware.Pci.HostBridge

/-!
# The retry loop ends

A round of the allocator is repeated when `PciHostBridgeAdjustAllocation` returns success, so some
device was rejected. Rejecting a bridge takes its padding, and rejecting another device takes it out
of the child list of its bridge, with what is behind it. `DevicePool.weight` counts both, and
`rejectPciDevice_weight` is the one fact about the two that the rest uses.
-/

namespace PurleyFirmware.Pci

variable {pool : DevicePool} {id : ℕ}

/-! ### The measure -/

/-- The bridge still has padding. -/
def PciIoDevice.carriesPadding (d : PciIoDevice) : Bool :=
  d.isPciBridge && d.resourcePaddingDescriptors.isSome

/-- **The measure**: the devices in child lists, and the bridges that carry padding. -/
def DevicePool.weight (pool : DevicePool) : ℕ :=
  pool.childDevices.length + pool.devices.countP PciIoDevice.carriesPadding

/-- One element less is counted. -/
theorem countP_lt_countP {α : Type} {p q : α → Bool} {l : List α}
    (h : ∀ a ∈ l, p a = true → q a = true) {a : α} (ha : a ∈ l) (hp : p a = false)
    (hq : q a = true) : l.countP p < l.countP q := by
  induction l with
  | nil => cases ha
  | cons b l ih =>
    have hrest : l.countP p ≤ l.countP q :=
      List.countP_mono_left fun c hc ↦ h c (List.mem_cons_of_mem b hc)
    rw [List.countP_cons, List.countP_cons]
    rcases List.mem_cons.1 ha with rfl | ha
    · rw [if_neg (by rw [hp]; decide), if_pos hq]
      omega
    · have hlt := ih (fun c hc ↦ h c (List.mem_cons_of_mem b hc)) ha
      by_cases hb : p b = true
      · rw [if_pos hb, if_pos (h b List.mem_cons_self hb)]
        omega
      · rw [if_neg hb]
        omega

/-! ### Taking devices away -/

theorem DevicePool.devices_map (f : RoseTree PciIoDevice → RoseTree PciIoDevice) :
    DevicePool.devices (pool.map f) = pool.flatMap fun t ↦ (f t).values :=
  List.flatMap_map f RoseTree.values pool

theorem DevicePool.childDevices_map (f : RoseTree PciIoDevice → RoseTree PciIoDevice) :
    DevicePool.childDevices (pool.map f) = pool.flatMap fun t ↦ (f t).descendants :=
  List.flatMap_map f RoseTree.descendants pool

/-- What is left of a pool when devices are only taken away. -/
structure DevicePool.Shrinks (pool pool' : DevicePool) : Prop where
  devices : pool'.devices.Sublist pool.devices
  childDevices : pool'.childDevices.Sublist pool.childDevices

theorem DevicePool.Shrinks.weight_le {pool' : DevicePool} (h : pool.Shrinks pool') :
    pool'.weight ≤ pool.weight :=
  Nat.add_le_add h.childDevices.length_le h.devices.countP_le

theorem DevicePool.shrinks_prune (p : PciIoDevice → Bool) :
    pool.Shrinks (pool.map (RoseTree.prune p)) where
  devices := by
    rw [DevicePool.devices_map]
    exact List.Sublist.flatMap_right pool fun t _ ↦ t.values_prune_sublist
  childDevices := by
    rw [DevicePool.childDevices_map]
    exact List.Sublist.flatMap_right pool fun t _ ↦ t.descendants_prune_sublist

theorem DevicePool.shrinks_cutBelow (p : PciIoDevice → Bool) :
    pool.Shrinks (pool.map (RoseTree.cutBelow p)) where
  devices := by
    rw [DevicePool.devices_map]
    exact List.Sublist.flatMap_right pool fun t _ ↦ t.values_cutBelow_sublist
  childDevices := by
    rw [DevicePool.childDevices_map]
    exact List.Sublist.flatMap_right pool fun t _ ↦ t.descendants_cutBelow_sublist

/-- A device that is in a child list is taken away. -/
theorem DevicePool.weight_prune {p : PciIoDevice → Bool} {d : PciIoDevice}
    (hd : d ∈ pool.childDevices) (hp : p d = true) :
    DevicePool.weight (pool.map (RoseTree.prune p)) < pool.weight := by
  have hshrinks := pool.shrinks_prune p
  have hlength : (DevicePool.childDevices (pool.map (RoseTree.prune p))).length <
      pool.childDevices.length := by
    refine Nat.lt_of_le_of_ne hshrinks.childDevices.length_le fun heq ↦ ?_
    have hsame := hshrinks.childDevices.eq_of_length heq
    rw [← hsame, DevicePool.childDevices_map, List.mem_flatMap] at hd
    obtain ⟨t, -, hd⟩ := hd
    rw [RoseTree.not_of_mem_descendants_prune hd] at hp
    cases hp
  exact Nat.add_lt_add_of_lt_of_le hlength hshrinks.devices.countP_le

theorem PciIoDevice.carriesPadding_freePadding (d : PciIoDevice) :
    (d.freePadding id).carriesPadding = (d.carriesPadding && d.id != id) := by
  unfold PciIoDevice.freePadding
  split
  · rename_i hid
    simp [PciIoDevice.carriesPadding, hid]
  · rename_i hid
    rw [bne_iff_ne.2 hid, Bool.and_true]

/-- A bridge loses its padding. -/
theorem DevicePool.weight_freePadding {d : PciIoDevice} (hd : d ∈ pool.devices) (hid : d.id = id)
    (hpadding : d.carriesPadding = true) :
    DevicePool.weight (pool.map (RoseTree.mapValues (PciIoDevice.freePadding id))) <
      pool.weight := by
  have hdevices : DevicePool.devices (pool.map (RoseTree.mapValues (PciIoDevice.freePadding id))) =
      pool.devices.map (PciIoDevice.freePadding id) := by
    rw [DevicePool.devices_map, DevicePool.devices, List.map_flatMap]
    simp only [RoseTree.values_mapValues]
  have hchildren :
      DevicePool.childDevices (pool.map (RoseTree.mapValues (PciIoDevice.freePadding id))) =
        pool.childDevices.map (PciIoDevice.freePadding id) := by
    rw [DevicePool.childDevices_map, DevicePool.childDevices, List.map_flatMap]
    simp only [RoseTree.descendants_mapValues]
  unfold DevicePool.weight
  rw [hdevices, hchildren, List.length_map, List.countP_map]
  refine Nat.add_lt_add_left (countP_lt_countP (fun c _ hc ↦ ?_) hd ?_ hpadding) _
  · rw [Function.comp_apply, PciIoDevice.carriesPadding_freePadding, Bool.and_eq_true] at hc
    exact hc.1
  · rw [Function.comp_apply, PciIoDevice.carriesPadding_freePadding, hid, bne_self_eq_false,
      Bool.and_false]

/-- **A rejection** takes something away. -/
theorem rejectPciDevice_weight (id : ℕ) (pool : DevicePool) :
    (rejectPciDevice id pool).2.weight ≤ pool.weight ∧
      ((rejectPciDevice id pool).1 = .success →
        (rejectPciDevice id pool).2.weight < pool.weight) := by
  unfold rejectPciDevice
  split
  · exact ⟨Nat.le_refl _, nofun⟩
  · rename_i d hfind
    have hid := List.find?_some hfind
    rw [decide_eq_true_iff] at hid
    have hmem : d ∈ pool.devices := List.mem_of_find?_eq_some hfind
    split
    · -- a bridge with padding
      rename_i hbridge
      have hlt := DevicePool.weight_freePadding hmem hid
        (by rw [PciIoDevice.carriesPadding, hbridge.1, hbridge.2]; rfl)
      exact ⟨Nat.le_of_lt hlt, fun _ ↦ hlt⟩
    split
    · exact ⟨Nat.le_refl _, nofun⟩
    · -- a device, with what is behind it
      dsimp only
      generalize hcut : (if d.isCardBusBridge = true then
        pool.map (RoseTree.cutBelow fun d ↦ d.id = id) else pool) = cut
      have hle : DevicePool.weight cut ≤ pool.weight := by
        rw [← hcut]
        split
        · exact (pool.shrinks_cutBelow _).weight_le
        · exact Nat.le_refl _
      split
      · rename_i hany
        obtain ⟨c, hc, hcid⟩ := List.any_eq_true.1 hany
        have hlt := Nat.lt_of_lt_of_le
          (DevicePool.weight_prune (p := fun d ↦ decide (d.id = id)) hc hcid) hle
        exact ⟨Nat.le_of_lt hlt, fun _ ↦ hlt⟩
      · exact ⟨hle, nofun⟩

/-! ### One adjustment -/

/-- **In the loop over the types**, with the measure `n` before it. -/
structure Adjusting (n : ℕ) (v : AdjustVars) : Prop where
  /-- No device was rejected twice. -/
  nodup : v.removedPciDev.Nodup
  le : v.pool.weight ≤ n
  lt : v.allocationAdjusted = true → v.pool.weight < n

theorem Adjusting.adjustTypes {resPool : ResourcePools} {resStatus : ResourceType → BitVec 64}
    {n : ℕ} {v : AdjustVars} (h : Adjusting n v) (ts : List ResourceType) :
    Adjusting n (adjustTypes resPool resStatus ts v).2 ∧
      ((adjustTypes resPool resStatus ts v).1 = .success →
        (adjustTypes resPool resStatus ts v).2.pool.weight < n) := by
  induction ts generalizing v with
  | nil =>
    refine ⟨h, fun hsuccess ↦ h.lt ?_⟩
    by_contra hnot
    rw [Pci.adjustTypes, if_neg hnot] at hsuccess
    cases hsuccess
  | cons t ts ih =>
    rw [Pci.adjustTypes]
    split
    · exact ih h
    split
    · exact ⟨h, nofun⟩
    split
    · exact ih h
    rename_i pciResNode _
    dsimp only
    split
    · exact ih h
    rename_i hnew
    have hreject := rejectPciDevice_weight pciResNode.pciDev.id v.pool
    split
    · rename_i hsuccess
      have hlt := Nat.lt_of_lt_of_le (hreject.2 hsuccess) h.le
      refine ih ⟨List.nodup_append.2 ⟨h.nodup, List.nodup_singleton _, fun a ha b hb hab ↦ ?_⟩,
        Nat.le_of_lt hlt, fun _ ↦ hlt⟩
      rw [List.mem_singleton] at hb
      exact hnew (hb ▸ hab ▸ ha)
    · refine ih ⟨h.nodup, hreject.1.trans h.le, fun hadjusted ↦ ?_⟩
      exact Nat.lt_of_le_of_lt hreject.1 (h.lt hadjusted)

/-- **One adjustment**: no device is rejected twice, and success takes something away. -/
theorem pciHostBridgeAdjustAllocation_spec (resPool : ResourcePools)
    (resStatus : ResourceType → BitVec 64) (pool : DevicePool) :
    (pciHostBridgeAdjustAllocation resPool resStatus pool).2.removedPciDev.Nodup ∧
      ((pciHostBridgeAdjustAllocation resPool resStatus pool).1 = .success →
        (pciHostBridgeAdjustAllocation resPool resStatus pool).2.pool.weight < pool.weight) := by
  have hstart : Adjusting pool.weight ⟨pool, [], false⟩ := ⟨List.nodup_nil, Nat.le_refl _, nofun⟩
  obtain ⟨hend, hlt⟩ : Adjusting pool.weight
      (adjustTypes resPool resStatus windowOrder ⟨pool, [], false⟩).2 ∧ _ :=
    hstart.adjustTypes windowOrder
  exact ⟨hend.nodup, hlt⟩

/-! ### The loop -/

theorem allocatorRound_again {cfg : HostBridgeConfig} {reAllocate : Bool}
    {answers : HostBridgeRound} {pool' : DevicePool}
    (h : allocatorRound cfg reAllocate answers pool = .again pool') :
    pool'.weight < pool.weight := by
  unfold allocatorRound at h
  split at h
  · cases h
  rename_i resPool _
  split at h
  · cases h
  split at h
  · cases h
  split at h
  · cases h
  rename_i resStatus _
  dsimp only at h
  split at h
  · cases h
  rename_i hsuccess
  cases h
  rw [Bool.not_eq_true, EfiStatus.isError_eq_false_iff] at hsuccess
  exact (pciHostBridgeAdjustAllocation_spec resPool resStatus pool).2 hsuccess

/-- A bound for the number of rounds, from any round on. -/
theorem exists_pciHostBridgeResourceAllocator {cfg : HostBridgeConfig}
    {answers : ℕ → HostBridgeRound} {rounds : ℕ} (n : ℕ) (h : pool.weight < rounds) :
    ∃ roundEnd, pciHostBridgeResourceAllocator cfg answers rounds n pool = some roundEnd := by
  induction rounds generalizing n pool with
  | zero => cases h
  | succ rounds ih =>
    rw [pciHostBridgeResourceAllocator]
    split
    · rename_i pool' hagain
      exact ih (n + 1) (Nat.lt_of_lt_of_le (allocatorRound_again hagain) (Nat.le_of_lt_succ h))
    · exact ⟨_, rfl⟩

/-- **The retry loop ends**, after as many rounds as there is to take away, and one. -/
theorem pciHostBridgeResourceAllocator_ends (cfg : HostBridgeConfig)
    (answers : ℕ → HostBridgeRound) (pool : DevicePool) :
    (∃ roundEnd,
        pciHostBridgeResourceAllocator cfg answers (pool.weight + 1) 0 pool = some roundEnd) ∧
      ∀ (resPool : ResourcePools) (resStatus : ResourceType → BitVec 64) (pool : DevicePool),
        (pciHostBridgeAdjustAllocation resPool resStatus pool).2.removedPciDev.Nodup ∧
          ((pciHostBridgeAdjustAllocation resPool resStatus pool).1 = .success →
            (pciHostBridgeAdjustAllocation resPool resStatus pool).2.pool.weight < pool.weight) :=
  ⟨exists_pciHostBridgeResourceAllocator 0 (Nat.lt_succ_self _),
    pciHostBridgeAdjustAllocation_spec⟩

end PurleyFirmware.Pci
