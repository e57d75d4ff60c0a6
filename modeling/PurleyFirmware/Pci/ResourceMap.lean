import PurleyFirmware.Pci.ResourceNode

/-!
# The resource map of a bridge

`CreateResourceMap`: the BARs of the devices behind a bridge and the windows of the bridges behind it
become nodes of five lists, one for each type of resource. Padding is added, the types that the
bridge cannot decode are merged into others, and each list is laid out, which gives the bridge's own
five windows.

`ASSERT (PaddingAperture == 0)` does not stop the calculation here; `asserted` says that it failed.
-/

namespace PurleyFirmware.Pci

/-- The settings that the calculation reads. -/
structure ResourceConfig where
  /-- `PcdPciDegradeResourceForOptionRom`. -/
  pcdPciDegradeResourceForOptionRom : Bool
  /-- The setup option `PchUsbDegradeBar`. -/
  pchUsbDegradeBar : BitVec 8
  /-- `sizeof (UINTN)`. -/
  sizeofUintn : ℕ
  /-- `mReserveIsaAliases`, once the policy is determined. -/
  reserveIsaAliases : Bool
  /-- `mReserveVgaAliases`. -/
  reserveVgaAliases : Bool

variable (cfg : ResourceConfig)

/-! ### The nodes of a device -/

/-- The list that the node of a BAR goes into. -/
def PciBarType.resourceType : PciBarType → Option ResourceType
  | mem32 => some .mem32
  | mem64 => some .mem64
  | pmem64 => some .pmem64
  | pmem32 => some .pmem32
  | io16 => some .io16
  | io32 => some .io16
  | _ => none

/-- The list that the node of a virtual function's BAR goes into. -/
def PciBarType.vfResourceType : PciBarType → Option ResourceType
  | io16 => none
  | io32 => none
  | barType => barType.resourceType

/-- `GetResourceFromDevice`. -/
def getResourceFromDevice (pciDev : PciIoDevice) (w : ResourceWindows) : ResourceWindows :=
  let w := (List.range pciMaxBar).foldl
    (fun w index ↦
      match (pciDev.pciBar index).barType.resourceType with
      | some t => w.insert t (createResourceNode pciDev (pciDev.pciBar index).length
          (pciDev.pciBar index).alignment index t .typical)
      | none => w) w
  (List.range pciMaxBar).foldl
    (fun w index ↦
      match (pciDev.vfPciBar index).barType.vfResourceType with
      | some t => w.insert t (createVfResourceNode pciDev (pciDev.vfPciBar index).length
          (pciDev.vfPciBar index).alignment index t .typical)
      | none => w) w

/-- `PPB_IO_RANGE` and its like. -/
def ppbRange : ResourceType → ℕ
  | .io16 => 2
  | .mem32 => 3
  | .pmem32 => 4
  | .mem64 => 0xFF
  | .pmem64 => 5

/-- The windows of a PCI-to-PCI bridge before its map is made. -/
def ppbWindows (bridge : PciIoDevice) : ResourceWindows
  | .io16 => ⟨0, bridge.bridgeIoAlignment.setWidth 64, []⟩
  | _ => ⟨0, 0xFFFFF, []⟩

/-- The node of a window. -/
def Window.node (w : Window) (bridge : PciIoDevice) (bar : ℕ) (t : ResourceType) :
    PciResourceNode :=
  .node (createResourceNode bridge w.length w.alignment bar t .typical).value w.childList

/-- The order in which the windows of a bridge are inserted. -/
def windowOrder : List ResourceType := [.io16, .mem32, .pmem32, .mem64, .pmem64]

/-- The windows of a bridge are inserted where a resource is requested. -/
def insertWindows (bridge : PciIoDevice) (windows w : ResourceWindows) : ResourceWindows :=
  windowOrder.foldl
    (fun w t ↦
      if (windows t).resourceRequestExisted then
        w.insert t ((windows t).node bridge (ppbRange t) t)
      else w) w

/-! ### Padding -/

/-- `ResourcePaddingForCardBusBridge`. -/
def resourcePaddingForCardBusBridge (pciDev : PciIoDevice) (w : ResourceWindows) :
    ResourceWindows :=
  let w := w.insert .mem32 (createResourceNode pciDev 0x2000000 0x1ffffff 1 .mem32 .padding)
  let w := w.insert .pmem32 (createResourceNode pciDev 0x2000000 0x1ffffff 2 .pmem32 .padding)
  let w := w.insert .io16 (createResourceNode pciDev 0x100 0xff 3 .io16 .padding)
  w.insert .io16 (createResourceNode pciDev 0x100 0xff 4 .io16 .padding)

/-- `ACPI_ADDRESS_SPACE_DESCRIPTOR`. -/
def acpiAddressSpaceDescriptor : BitVec 8 := 0x8A

/-- The type of resource that a padding descriptor is for. -/
def AcpiAddressSpaceDescriptor.paddingType (ptr : AcpiAddressSpaceDescriptor) :
    Option ResourceType :=
  if ptr.desc = acpiAddressSpaceDescriptor ∧ ptr.resType = 1 then some .io16
  else if ptr.desc = acpiAddressSpaceDescriptor ∧ ptr.resType = 0 then
    if ptr.addrSpaceGranularity = 32 then
      if ptr.specificFlag = 6 then some .pmem32
      else if ptr.specificFlag = 0 then some .mem32
      else none
    else if ptr.addrSpaceGranularity = 64 then
      if ptr.specificFlag = 6 then some .pmem64
      else if ptr.specificFlag = 0 then some .mem64
      else none
    else none
  else none

/-- One turn of the loop of `ApplyResourcePadding`. -/
def applyDescriptor (pciDev : PciIoDevice) (w : ResourceWindows)
    (ptr : AcpiAddressSpaceDescriptor) : ResourceWindows :=
  match ptr.paddingType with
  | some t =>
    if ptr.addrLen ≠ 0 then
      w.insert t (createResourceNode pciDev ptr.addrLen ptr.addrRangeMax 0 t .padding)
    else w
  | none => w

/-- `ApplyResourcePadding`, on the descriptors before the end tag. -/
def applyResourcePadding (pciDev : PciIoDevice) (descriptors : List AcpiAddressSpaceDescriptor)
    (w : ResourceWindows) : ResourceWindows :=
  descriptors.foldl (applyDescriptor pciDev) w

/-- `ResourcePaddingPolicy`. -/
def resourcePaddingPolicy (pciDev : PciIoDevice) (w : ResourceWindows) : ResourceWindows :=
  match pciDev.resourcePaddingDescriptors with
  | some descriptors => applyResourcePadding pciDev descriptors w
  | none => w

/-! ### Degradation -/

/-- `PCI32BitBarDevicesTable`. -/
def pci32BitBarDevicesTable : List (BitVec 16 × BitVec 16) := [(0x8086, 0x2260)]

/-- The 64-bit BARs of the device are degraded. -/
def degradesBars (d : PciIoDevice) : Bool :=
  let barFlag := !pci32BitBarDevicesTable.contains (d.vendorId, d.deviceId)
  let degradeUsbBar :=
    if d.busNumber = 0 ∧ d.deviceNumber = 20 ∧ d.functionNumber = 0 then cfg.pchUsbDegradeBar else 0
  (d.romSize != 0 && barFlag) || degradeUsbBar != 0

/-- The node is one of the device's that may be degraded. -/
def degradesNode (d : PciIoDevice) (resourceNode : PciResourceNode) : Bool :=
  resourceNode.value.pciDev.id == d.id &&
    (resourceNode.value.virtual || !(d.pciBar resourceNode.value.bar).barTypeFixed)

/-- The nodes of one device move from one list to another. -/
def degradeNodes (d : PciIoDevice) (src dst : ResourceType) (w : ResourceWindows) :
    ResourceWindows :=
  let moved := (w src).childList.filter (degradesNode d)
  let kept := (w src).childList.filter fun node ↦ !degradesNode d node
  (w.setChildList dst (insertResourceNodes moved (w dst).childList)).setChildList src kept

/-- The degradation of 64-bit BARs for option ROMs. -/
def degradeForOptionRom (children : List PciIoDevice) (w : ResourceWindows) : ResourceWindows :=
  if cfg.pcdPciDegradeResourceForOptionRom then
    children.foldl
      (fun w d ↦
        if degradesBars cfg d then degradeNodes d .pmem64 .pmem32 (degradeNodes d .mem64 .mem32 w)
        else w) w
  else w

/-- `EFI_BRIDGE_PMEM32_DECODE_SUPPORTED`. -/
def efiBridgePmem32DecodeSupported : BitVec 32 := 0x0002

/-- `EFI_BRIDGE_PMEM64_DECODE_SUPPORTED`. -/
def efiBridgePmem64DecodeSupported : BitVec 32 := 0x0004

/-- `EFI_BRIDGE_PMEM_MEM_COMBINE_SUPPORTED`. -/
def efiBridgePmemMemCombineSupported : BitVec 32 := 0x0010

/-- `EFI_BRIDGE_MEM64_DECODE_SUPPORTED`. -/
def efiBridgeMem64DecodeSupported : BitVec 32 := 0x0020

/-- `BridgeSupportResourceDecode`. -/
def bridgeSupportResourceDecode (bridge : PciIoDevice) (decode : BitVec 32) : Bool :=
  bridge.decodes &&& decode != 0

/-- A type that is not decoded is merged into another. -/
def degradeUnless (supported : Bool) (dst res : ResourceType) (w : ResourceWindows) :
    ResourceWindows :=
  if supported = true then w else w.mergeResourceTree dst res true

/-- The merges for 64-bit resources. -/
def degradeMem64 (bridge : PciIoDevice) (w : ResourceWindows) : ResourceWindows :=
  if cfg.sizeofUintn ≤ 4 then
    (w.mergeResourceTree .mem32 .mem64 true).mergeResourceTree .pmem32 .pmem64 true
  else
    let w := degradeUnless (bridgeSupportResourceDecode bridge efiBridgeMem64DecodeSupported)
      .mem32 .mem64 w
    let w := degradeUnless (bridgeSupportResourceDecode bridge efiBridgePmem64DecodeSupported)
      .pmem32 .pmem64 w
    if (w .pmem64).childList ≠ [] ∧ bridge.parent ≠ none then
      w.mergeResourceTree .mem32 .pmem32 true
    else w

/-- `DegradeResource`. -/
def degradeResource (bridge : PciIoDevice) (children : List PciIoDevice) (w : ResourceWindows) :
    ResourceWindows :=
  let w := degradeMem64 cfg bridge (degradeForOptionRom cfg children w)
  let w := degradeUnless (bridgeSupportResourceDecode bridge efiBridgePmem32DecodeSupported)
    .mem32 .pmem32 w
  if bridgeSupportResourceDecode bridge efiBridgePmemMemCombineSupported = true then
    (w.mergeResourceTree .mem32 .pmem32 false).mergeResourceTree .mem64 .pmem64 false
  else w

/-! ### Apertures -/

/-- The aperture is moved up to the alignment. -/
def alignAperture (aperture alignment : BitVec 64) : BitVec 64 :=
  let offset := aperture &&& alignment
  if offset ≠ 0 then aperture + (alignment + 1) - offset else aperture

/-- `SkipVGAAperture`. -/
def skipVgaAperture (start length : BitVec 64) : BitVec 64 :=
  let startOffset := start &&& 0x3FF
  let limitOffset := (start + length - 1) &&& 0x3FF
  if 0x3B0 ≤ limitOffset then start - startOffset + 0x3DF + 1 else start

/-- `SkipIsaAliasAperture`. -/
def skipIsaAliasAperture (start length : BitVec 64) : BitVec 64 :=
  let startOffset := start &&& 0x3FF
  let limitOffset := (start + length - 1) &&& 0x3FF
  if 0x100 ≤ limitOffset then start - startOffset + 0x3FF + 1 else start

/-- The offset of a node: the aperture, aligned, and in I/O space behind what has an alias. -/
def nodeOffset (t : ResourceType) (aperture : BitVec 64) (r : ResourceRequest) : BitVec 64 :=
  let aligned := alignAperture aperture r.alignment
  if t = .io16 ∧ !r.pciDev.isPciBridge ∧ !r.pciDev.isCardBusBridge then
    if cfg.reserveIsaAliases then alignAperture (skipIsaAliasAperture aligned r.length) r.alignment
    else if cfg.reserveVgaAliases then
      alignAperture (skipVgaAperture aligned r.length) r.alignment
    else aligned
  else aligned

/-- The variables of the loop that lays out a list. -/
structure ApertureVars where
  aperture : BitVec 64
  paddingAperture : BitVec 64
  /-- `ASSERT (PaddingAperture == 0)` failed. -/
  asserted : Bool

/-- The loop: the nodes with their offsets, and the variables at its end. -/
def layOut (t : ResourceType) :
    List PciResourceNode → ApertureVars → List PciResourceNode × ApertureVars
  | [], v => ([], v)
  | node :: nodes, v =>
    if node.value.isPadding then
      let (rest, last) := layOut t nodes
        { v with
          paddingAperture := node.value.length
          asserted := v.asserted || v.paddingAperture != 0 }
      (node :: rest, last)
    else
      let offset := nodeOffset cfg t v.aperture node.value
      let (rest, last) := layOut t nodes { v with aperture := offset + node.value.length }
      (.node { node.value with offset := offset } node.children :: rest, last)

/-- `CalculateResourceAperture`, and `CalculateApertureIo16` for I/O: the window, and whether the
assertion failed. -/
def calculateResourceAperture (t : ResourceType) (bridge : Window) : Window × Bool :=
  let (childList, v) := layOut cfg t bridge.childList ⟨0, 0, false⟩
  let aperture := alignAperture v.aperture bridge.alignment
  let length := if t ≠ .io16 ∧ aperture ≤ bridge.length then bridge.length else aperture
  let alignment :=
    match childList with
    | [] => bridge.alignment
    | first :: _ =>
      if bridge.alignment < first.value.alignment then first.value.alignment else bridge.alignment
  ({ length := if length < v.paddingAperture then v.paddingAperture else length
     alignment := alignment
     childList := childList }, v.asserted)

/-! ### The map -/

/-- What `CreateResourceMap` makes: the windows, and whether an assertion failed. -/
structure ResourceMap where
  windows : ResourceWindows
  asserted : Bool

/-- One turn of the loop of `CreateResourceMap`, for a device and the windows of its own map. -/
def mapDevice (w : ResourceWindows) (c : PciIoDevice × ResourceWindows) : ResourceWindows :=
  let w := getResourceFromDevice c.1 w
  let w := if c.1.isPciBridge then insertWindows c.1 c.2 w else w
  if c.1.isCardBusBridge then resourcePaddingForCardBusBridge c.1 w else w

/-- The map of one bridge, from the devices behind it with the windows of their own maps. -/
def mapBridge (bridge : PciIoDevice) (w : ResourceWindows)
    (behind : List (PciIoDevice × ResourceWindows)) : ResourceMap :=
  let w := resourcePaddingPolicy bridge (behind.foldl mapDevice w)
  let w := degradeResource cfg bridge (behind.map Prod.fst) w
  { windows := fun t ↦ (calculateResourceAperture cfg t (w t)).1
    asserted := windowOrder.any fun t ↦ (calculateResourceAperture cfg t (w t)).2 }

/-- The map of a device, from the devices behind it with their maps. The maps of the PCI-to-PCI
bridges behind it are made from their windows, the others are not used. -/
def mapTree (bridge : PciIoDevice)
    (behind : List (PciIoDevice × (ResourceWindows → ResourceMap))) :
    PciIoDevice × (ResourceWindows → ResourceMap) :=
  (bridge, fun w ↦
    let behind := behind.map fun c ↦ (c.1, c.2 (ppbWindows c.1))
    let map := mapBridge cfg bridge w (behind.map fun c ↦ (c.1, c.2.windows))
    { map with asserted := behind.any (fun c ↦ c.1.isPciBridge && c.2.asserted) || map.asserted })

/-- `CreateResourceMap`. -/
def createResourceMap (bridge : RoseTree PciIoDevice) (w : ResourceWindows) : ResourceMap :=
  (bridge.fold (mapTree cfg)).2 w

theorem fold_mapTree_fst (t : RoseTree PciIoDevice) : (t.fold (mapTree cfg)).1 = t.value := by
  cases t with
  | node a ts => rw [RoseTree.fold_node]; rfl

/-- The windows of a bridge are those that `mapBridge` makes from the windows of the bridges behind
it. -/
theorem createResourceMap_windows (a : PciIoDevice) (ts : List (RoseTree PciIoDevice))
    (w : ResourceWindows) :
    (createResourceMap cfg (.node a ts) w).windows =
      (mapBridge cfg a w (ts.map fun t ↦
        (t.value, (createResourceMap cfg t (ppbWindows t.value)).windows))).windows := by
  rw [createResourceMap, RoseTree.fold_node, mapTree]
  dsimp only
  rw [List.map_map, List.map_map]
  congr 3
  funext t
  dsimp only [Function.comp_apply]
  rw [fold_mapTree_fst]
  rfl

end PurleyFirmware.Pci
