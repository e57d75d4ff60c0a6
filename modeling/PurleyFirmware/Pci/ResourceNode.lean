import PurleyFirmware.Foundation.RoseTree
import Mathlib.Data.List.Sort
import Mathlib.Logic.Function.Basic

/-!
# PCI resource nodes

`PCI_RESOURCE_NODE`: a request for a piece of I/O or memory space, by a BAR of a device, by a bridge
for what is behind it, or as padding for what may be plugged in. The requests behind a bridge are in
its child list, sorted by alignment, which `InsertResourceNode` and `MergeResourceTree` maintain.

A device is known by its address in memory, its `id`. Its BARs are a function of the index, because
the source also reads behind the end of the array: what is there is not known.
-/

namespace PurleyFirmware.Pci

/-! ### Devices -/

/-- The five types of resources that are allocated. -/
inductive ResourceType
  | io16
  | mem32
  | pmem32
  | mem64
  | pmem64
  deriving DecidableEq, Repr

/-- `PCI_BAR_TYPE`, for a BAR. -/
inductive PciBarType
  | unknown
  | io16
  | io32
  | mem32
  | pmem32
  | mem64
  | pmem64
  | io
  | mem
  deriving DecidableEq, Repr

/-- `PCI_BAR`. -/
structure PciBar where
  length : BitVec 64
  alignment : BitVec 64
  barType : PciBarType
  barTypeFixed : Bool

/-- `EFI_ACPI_ADDRESS_SPACE_DESCRIPTOR`. -/
structure AcpiAddressSpaceDescriptor where
  desc : BitVec 8
  resType : BitVec 8
  specificFlag : BitVec 8
  addrSpaceGranularity : BitVec 64
  addrRangeMax : BitVec 64
  addrLen : BitVec 64
  deriving DecidableEq

/-- The layout of the configuration header. -/
inductive HeaderLayout
  | device
  | pciBridge
  | cardBusBridge
  deriving DecidableEq

/-- `PCI_IO_DEVICE`. -/
structure PciIoDevice where
  id : ℕ
  headerLayout : HeaderLayout
  vendorId : BitVec 16
  deviceId : BitVec 16
  /-- `IS_PCI_VGA`. -/
  isPciVga : Bool
  busNumber : BitVec 8
  deviceNumber : BitVec 8
  functionNumber : BitVec 8
  pciBar : ℕ → PciBar
  vfPciBar : ℕ → PciBar
  /-- `Parent`, `none` for a root bridge. -/
  parent : Option ℕ
  decodes : BitVec 32
  romSize : BitVec 64
  resourcePaddingDescriptors : Option (List AcpiAddressSpaceDescriptor)
  bridgeIoAlignment : BitVec 16

namespace PciIoDevice

/-- `IS_PCI_BRIDGE`. -/
def isPciBridge (d : PciIoDevice) : Bool := d.headerLayout = .pciBridge

/-- `IS_CARDBUS_BRIDGE`. -/
def isCardBusBridge (d : PciIoDevice) : Bool := d.headerLayout = .cardBusBridge

end PciIoDevice

/-- `PCI_MAX_BAR`. -/
def pciMaxBar : ℕ := 6

/-! ### Resource nodes -/

/-- `PCI_RESOURCE_USAGE`. -/
inductive PciResourceUsage
  | typical
  | padding
  deriving DecidableEq

/-- What a resource node says of itself. -/
structure ResourceRequest where
  pciDev : PciIoDevice
  alignment : BitVec 64
  offset : BitVec 64
  bar : ℕ
  resType : ResourceType
  length : BitVec 64
  resourceUsage : PciResourceUsage
  virtual : Bool

/-- `PCI_RESOURCE_NODE`. -/
abbrev PciResourceNode := RoseTree ResourceRequest

/-- A node is padding. -/
def ResourceRequest.isPadding (r : ResourceRequest) : Bool := r.resourceUsage = .padding

/-- `CreateResourceNode`. -/
def createResourceNode (pciDev : PciIoDevice) (length alignment : BitVec 64) (bar : ℕ)
    (resType : ResourceType) (resUsage : PciResourceUsage) : PciResourceNode :=
  .node
    { pciDev := pciDev
      alignment := alignment
      offset := 0
      bar := bar
      resType := resType
      length := length
      resourceUsage := resUsage
      virtual := false } []

/-- `CreateVfResourceNode`. -/
def createVfResourceNode (pciDev : PciIoDevice) (length alignment : BitVec 64) (bar : ℕ)
    (resType : ResourceType) (resUsage : PciResourceUsage) : PciResourceNode :=
  let node := createResourceNode pciDev length alignment bar resType resUsage
  .node { node.value with virtual := true } node.children

/-! ### Sorted lists of nodes -/

/-- Where the loop of `InsertResourceNode` ends. -/
def StopsBefore (resNode temp : PciResourceNode) : Prop :=
  temp.value.alignment < resNode.value.alignment ∨
    resNode.value.alignment = temp.value.alignment ∧
      (resNode.value.length &&& resNode.value.alignment = 0 ∨
        temp.value.length &&& temp.value.alignment ≤
          resNode.value.length &&& resNode.value.alignment)

instance : DecidableRel StopsBefore := fun _ _ ↦ inferInstanceAs (Decidable (_ ∨ _ ∧ (_ ∨ _)))

/-- `InsertResourceNode`, on the child list. -/
def insertResourceNode (resNode : PciResourceNode) (childList : List PciResourceNode) :
    List PciResourceNode :=
  childList.orderedInsert StopsBefore resNode

theorem insertResourceNode_perm (resNode : PciResourceNode) (childList : List PciResourceNode) :
    (insertResourceNode resNode childList).Perm (resNode :: childList) :=
  List.perm_orderedInsert _ _ _

@[simp] theorem mem_insertResourceNode {n resNode : PciResourceNode}
    {childList : List PciResourceNode} :
    n ∈ insertResourceNode resNode childList ↔ n = resNode ∨ n ∈ childList :=
  List.mem_orderedInsert _

/-- Several nodes are inserted one after the other. -/
def insertResourceNodes (nodes childList : List PciResourceNode) : List PciResourceNode :=
  nodes.foldl (fun childList node ↦ insertResourceNode node childList) childList

theorem insertResourceNodes_perm (nodes childList : List PciResourceNode) :
    (insertResourceNodes nodes childList).Perm (nodes ++ childList) := by
  induction nodes generalizing childList with
  | nil => exact .refl _
  | cons node nodes ih =>
    have hinsert := (insertResourceNode_perm node childList).append_left nodes
    exact (ih _).trans (hinsert.trans List.perm_middle)

/-! ### What a bridge asks for -/

/-- The part of a bridge's resource node that `CreateResourceMap` fills in. -/
structure Window where
  length : BitVec 64
  alignment : BitVec 64
  childList : List PciResourceNode

/-- The five resource nodes of a bridge. -/
abbrev ResourceWindows := ResourceType → Window

namespace ResourceWindows

variable (w : ResourceWindows) (t : ResourceType)

/-- The child list of one type is replaced. -/
def setChildList (childList : List PciResourceNode) : ResourceWindows :=
  Function.update w t { w t with childList := childList }

/-- A node is inserted. -/
def insert (resNode : PciResourceNode) : ResourceWindows :=
  w.setChildList t (insertResourceNode resNode (w t).childList)

/-- `MergeResourceTree`. -/
def mergeResourceTree (dst res : ResourceType) (typeMerge : Bool) : ResourceWindows :=
  let moved := (w res).childList.map fun temp ↦
    if typeMerge then .node { temp.value with resType := dst } temp.children else temp
  (w.setChildList dst (insertResourceNodes moved (w dst).childList)).setChildList res []

end ResourceWindows

/-- `ResourceRequestExisted`. -/
def Window.resourceRequestExisted (w : Window) : Bool := !w.childList.isEmpty || w.length != 0

end PurleyFirmware.Pci
