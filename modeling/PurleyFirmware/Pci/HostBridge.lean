import PurleyFirmware.Pci.ResourceMap
import PurleyFirmware.Uefi.Status

/-!
# The host bridge resource allocator

`PciHostBridgeResourceAllocator`: the resource map of every root bridge is submitted to the host
bridge, and when that cannot allocate the resources, `PciHostBridgeAdjustAllocation` takes away a
device or the padding of a bridge for each type of resource that is short, and all is done again.

The devices are a list of trees, one for each root bridge. A root bridge is known to the host bridge
by its `id`. What the host bridge answers in a round is a parameter.
-/

namespace PurleyFirmware.Pci

/-- The settings of the allocator. -/
structure HostBridgeConfig extends ResourceConfig where
  /-- `PcdPciBusHotplugDeviceSupport`. -/
  pcdPciBusHotplugDeviceSupport : Bool
  /-- `PcdPciBridgeIoAlignmentProbe`. -/
  pcdPciBridgeIoAlignmentProbe : Bool

/-- The devices below the root bridges, and the root bridges. -/
abbrev DevicePool := List (RoseTree PciIoDevice)

namespace DevicePool

variable (pool : DevicePool)

/-- All devices. -/
def devices : List PciIoDevice := pool.flatMap RoseTree.values

/-- The devices that are in the child list of a bridge. -/
def childDevices : List PciIoDevice := pool.flatMap RoseTree.descendants

/-- `GetRootBridgeByHandle`. -/
def getRootBridgeByHandle (handle : ℕ) : Option (RoseTree PciIoDevice) :=
  pool.find? fun root ↦ root.value.id = handle

end DevicePool

/-! ### Rejecting a device -/

/-- The device loses its padding descriptors if it has the given address. -/
def PciIoDevice.freePadding (id : ℕ) (d : PciIoDevice) : PciIoDevice :=
  if d.id = id then { d with resourcePaddingDescriptors := none } else d

/-- `RejectPciDevice`. Nothing has to be rejected when the device is not there. -/
def rejectPciDevice (id : ℕ) (pool : DevicePool) : EfiStatus × DevicePool :=
  match pool.devices.find? fun d ↦ d.id = id with
  | none => (.aborted, pool)
  | some d =>
    if d.isPciBridge ∧ d.resourcePaddingDescriptors.isSome then
      (.success, pool.map (RoseTree.mapValues (PciIoDevice.freePadding id)))
    else if d.isPciBridge ∨ d.parent = none then (.aborted, pool)
    else
      -- what is behind a CardBus bridge goes first
      let pool : DevicePool :=
        if d.isCardBusBridge then pool.map (RoseTree.cutBelow fun d ↦ d.id = id) else pool
      if pool.childDevices.any fun d ↦ d.id = id then
        (.success, pool.map (RoseTree.prune fun d ↦ d.id = id))
      else (.aborted, pool)

/-! ### Choosing a device -/

/-- The node is one of a bridge or root bridge. -/
def ResourceRequest.ofBridge (r : ResourceRequest) : Bool :=
  r.pciDev.isPciBridge || r.pciDev.parent.isNone

/-- `IsRejectiveDevice`. -/
def isRejectiveDevice (pciResNode : ResourceRequest) : Bool :=
  if pciResNode.ofBridge then true
  else if pciResNode.pciDev.busNumber = 0 then false
  else !pciResNode.pciDev.isPciVga

/-- `GetLargerConsumerDevice`. -/
def getLargerConsumerDevice : Option ResourceRequest → Option ResourceRequest →
    Option ResourceRequest
  | node₁, none => node₁
  | node₁, some r₂ =>
    if r₂.ofBridge ∧ !r₂.isPadding then node₁
    else
      match node₁ with
      | none => some r₂
      | some r₁ => if r₂.length < r₁.length then some r₁ else some r₂

/-- The loop of `GetMaxResourceConsumerDevice`, over nodes with the result for what is in them. -/
def largestConsumer (nodes : List (ResourceRequest × Option ResourceRequest)) :
    Option ResourceRequest :=
  nodes.foldl
    (fun pciResNode (temp, ppbResNode) ↦
      if isRejectiveDevice temp = false then pciResNode
      else if temp.ofBridge ∧ !temp.isPadding then getLargerConsumerDevice pciResNode ppbResNode
      else getLargerConsumerDevice pciResNode (some temp))
    none

/-- A node with its largest consumer. -/
def consumer : PciResourceNode → ResourceRequest × Option ResourceRequest :=
  RoseTree.fold fun r nodes ↦ (r, largestConsumer nodes)

/-- `GetMaxResourceConsumerDevice`, on the child list. -/
def getMaxResourceConsumerDevice (resPool : List PciResourceNode) : Option ResourceRequest :=
  largestConsumer (resPool.map consumer)

/-! ### Adjusting the allocation -/

/-- `EFI_RESOURCE_SATISFIED`. -/
def efiResourceSatisfied : BitVec 64 := 0

/-- `EFI_RESOURCE_NOT_SATISFIED`. -/
def efiResourceNotSatisfied : BitVec 64 := 0xFFFFFFFFFFFFFFFF

/-- The five resource pools. -/
abbrev ResourcePools := ResourceType → List PciResourceNode

/-- The variables of `PciHostBridgeAdjustAllocation`, with the devices. -/
structure AdjustVars where
  pool : DevicePool
  removedPciDev : List ℕ
  allocationAdjusted : Bool

/-- The loop of `PciHostBridgeAdjustAllocation`, over the types that are left. -/
def adjustTypes (resPool : ResourcePools) (resStatus : ResourceType → BitVec 64) :
    List ResourceType → AdjustVars → EfiStatus × AdjustVars
  | [], v => (if v.allocationAdjusted then .success else .aborted, v)
  | t :: ts, v =>
    if resStatus t = efiResourceSatisfied then adjustTypes resPool resStatus ts v
    else if resStatus t = efiResourceNotSatisfied then (.aborted, v)
    else
      match getMaxResourceConsumerDevice (resPool t) with
      | none => adjustTypes resPool resStatus ts v
      | some pciResNode =>
        let id := pciResNode.pciDev.id
        if id ∈ v.removedPciDev then adjustTypes resPool resStatus ts v
        else
          let (status, pool) := rejectPciDevice id v.pool
          adjustTypes resPool resStatus ts
            (if status = .success then ⟨pool, v.removedPciDev ++ [id], true⟩
              else { v with pool := pool })

/-- `PciHostBridgeAdjustAllocation`. -/
def pciHostBridgeAdjustAllocation (resPool : ResourcePools)
    (resStatus : ResourceType → BitVec 64) (pool : DevicePool) : EfiStatus × AdjustVars :=
  adjustTypes resPool resStatus windowOrder ⟨pool, [], false⟩

/-! ### The host bridge -/

/-- What a descriptor of the proposed resources says. -/
structure ProposedResource where
  resType : BitVec 8
  specificFlag : BitVec 8
  addrSpaceGranularity : BitVec 64
  addrTranslationOffset : BitVec 64

/-- The type of resource that the descriptor is about. -/
def ProposedResource.resourceType (r : ProposedResource) : Option ResourceType :=
  if r.resType = 0 then
    if r.addrSpaceGranularity = 32 then
      if r.specificFlag = 6 then some .pmem32 else some .mem32
    else if r.addrSpaceGranularity = 64 then
      if r.specificFlag = 6 then some .pmem64 else some .mem64
    else none
  else if r.resType = 1 then some .io16
  else none

/-- `GetResourceAllocationStatus`. -/
def getResourceAllocationStatus (acpiConfig : List ProposedResource)
    (resStatus : ResourceType → BitVec 64) : ResourceType → BitVec 64 :=
  acpiConfig.foldl
    (fun resStatus r ↦
      match r.resourceType with
      | some t => Function.update resStatus t r.addrTranslationOffset
      | none => resStatus) resStatus

/-- What happens outside in one round: the root bridges that `GetNextRootBridge` hands out, what
`ConstructAcpiResourceRequestor` and the calls of the host bridge return. -/
structure HostBridgeRound where
  rootBridges : List ℕ
  construct : ℕ → EfiStatus
  submitResources : ℕ → EfiStatus
  allocateResources : EfiStatus
  /-- The root bridges once more, after the allocation has failed. -/
  rootBridgesAgain : List ℕ
  getProposedResources : ℕ → Except EfiStatus (List ProposedResource)

/-! ### The allocator -/

/-- `GetMaxOptionRomSize`. -/
def getMaxOptionRomSize (bridge : RoseTree PciIoDevice) : BitVec 64 :=
  (bridge.fold fun d (below : List (BitVec 64 × BitVec 64)) ↦
    (d.romSize, below.foldl
      (fun maxOptionRomSize (romSize, under) ↦
        let temp := if under < romSize then romSize else under
        if maxOptionRomSize < temp then temp else maxOptionRomSize) 0)).2

/-- `RB_IO_RANGE` and its like. -/
def rbRange : ResourceType → ℕ
  | .io16 => 1
  | .mem32 => 2
  | .pmem32 => 3
  | .mem64 => 4
  | .pmem64 => 5

/-- The windows of a root bridge before its map is made. -/
def rbWindows (cfg : HostBridgeConfig) : ResourceWindows
  | .io16 => ⟨0, if cfg.pcdPciBridgeIoAlignmentProbe then 0x1FF else 0xFFF, []⟩
  | _ => ⟨0, 0xFFFFF, []⟩

/-- The window is enlarged for an option ROM. -/
def Window.enlarge (w : Window) (maxOptionRomSize : BitVec 64) : Window :=
  if w.length < maxOptionRomSize then
    { w with
      length := maxOptionRomSize
      alignment := if w.alignment < maxOptionRomSize - 1 then maxOptionRomSize - 1 else w.alignment }
  else w

/-- The windows of a root bridge. -/
def rootWindows (cfg : HostBridgeConfig) (reAllocate : Bool) (root : RoseTree PciIoDevice) :
    ResourceWindows :=
  let w := (createResourceMap cfg.toResourceConfig root (rbWindows cfg)).windows
  if reAllocate then w
  else Function.update w .mem32 ((w .mem32).enlarge (getMaxOptionRomSize root))

/-- The loop that submits the resources of each root bridge. -/
def submitRootBridges (cfg : HostBridgeConfig) (reAllocate : Bool) (answers : HostBridgeRound)
    (pool : DevicePool) : List ℕ → ResourcePools → Except EfiStatus ResourcePools
  | [], resPool => .ok resPool
  | handle :: handles, resPool =>
    match pool.getRootBridgeByHandle handle with
    | none => .error .notFound
    | some root =>
      let w := rootWindows cfg reAllocate root
      let status := if answers.construct handle = .success then answers.submitResources handle
        else answers.construct handle
      if status.isError then .error status
      else submitRootBridges cfg reAllocate answers pool handles fun t ↦
        insertResourceNode ((w t).node root.value (rbRange t) t) (resPool t)

/-- The loop that asks for the allocation status of each root bridge. -/
def allocationStatus (answers : HostBridgeRound) (pool : DevicePool) :
    List ℕ → (ResourceType → BitVec 64) → Except EfiStatus (ResourceType → BitVec 64)
  | [], resStatus => .ok resStatus
  | handle :: handles, resStatus =>
    match pool.getRootBridgeByHandle handle with
    | none => .error .notFound
    | some _ =>
      match answers.getProposedResources handle with
      | .error status => .error status
      | .ok acpiConfig => allocationStatus answers pool handles
          (getResourceAllocationStatus acpiConfig resStatus)

/-- How a round of the retry loop ends. -/
inductive RoundEnd
  | returns (status : EfiStatus)
  | allocated
  | again (pool : DevicePool)

/-- A round of the retry loop. -/
def allocatorRound (cfg : HostBridgeConfig) (reAllocate : Bool) (answers : HostBridgeRound)
    (pool : DevicePool) : RoundEnd :=
  match submitRootBridges cfg reAllocate answers pool answers.rootBridges fun _ ↦ [] with
  | .error status => .returns status
  | .ok resPool =>
    if answers.allocateResources.isError = false then .allocated
    else if cfg.pcdPciBusHotplugDeviceSupport = false then .returns .outOfResources
    else
      match allocationStatus answers pool answers.rootBridgesAgain fun _ ↦ efiResourceSatisfied with
      | .error status => .returns status
      | .ok resStatus =>
        let (status, v) := pciHostBridgeAdjustAllocation resPool resStatus pool
        if status.isError then .returns status else .again v.pool

/-- The retry loop of `PciHostBridgeResourceAllocator`, from the given round on and with an upper
bound for the number of rounds. -/
def pciHostBridgeResourceAllocator (cfg : HostBridgeConfig) (answers : ℕ → HostBridgeRound) :
    ℕ → ℕ → DevicePool → Option RoundEnd
  | 0, _, _ => none
  | rounds + 1, n, pool =>
    match allocatorRound cfg (n != 0) (answers n) pool with
    | .again pool => pciHostBridgeResourceAllocator cfg answers rounds (n + 1) pool
    | roundEnd => some roundEnd

end PurleyFirmware.Pci
