import Mathlib.Data.List.Nodup
import Mathlib.Data.List.Range
import Mathlib.Data.List.TakeWhile
import Mathlib.Data.Nat.Bitwise

/-!
# The DMA remapping units of the DMAR table

`ReportDmar` and `BuildDRHDForStack` of `AcpiPlatformVTDHooks.c`. A DRHD structure is inserted for
each stack of each socket, with the devices on it: IOAPIC, the eight CBDMA functions on the C-stack,
the root ports that answer, a VMD. That of the C-stack of socket 0 covers all other devices and has
to be the last one, so socket 0 comes after the others.

The loop has as many rounds as there are sockets and takes the round for the socket's number. When
the sockets are not the first ones, that is, when there is a hole in their numbers, the sockets
behind are left out (`dmarCovers_iff`). The other way to leave out a root port is to have it on a
stack without a unit of the usual kind: one that is not present, or that of an FPGA.

The device scopes are built in two arrays, and a unit takes a copy of them. `origin`, and `socket`
and `stack` of a unit, are not in the code; they say what an element was made for.
-/

namespace PurleyFirmware.Acpi

/-! ### The platform -/

/-- `PCI_NODE`. -/
structure PciNode where
  device : BitVec 8
  function : BitVec 8
  deriving DecidableEq, Repr

/-- What the hooks take from headers. Those of the socket packages are not in the repository. -/
structure DmarConstants where
  maxSocket : ℕ
  maxIioStack : ℕ
  numberPortsPerSocket : ℕ
  /-- There are as many elements in `mDevScopeATSR`, which is indexed by the port. -/
  ports_le : numberPortsPerSocket ≤ 21
  iioPstack0 : ℕ
  iioPstack2 : ℕ
  iioPstack3 : ℕ
  /-- `TOTAL_SYSTEM_IIO_STACKS / MAX_SOCKET`, or `MAX_IIO_STACK` with up to four sockets. -/
  ioApicsPerSocket : ℕ
  vmdStackPerSocket : ℕ
  fpgaPreallocateBusNum : BitVec 8
  /-- `APIC_DEV_NUM` and `APIC_FUNC_NUM`. -/
  ioApicNode : PciNode
  /-- `PCI_BUS_NUMBER_PCH_IOAPIC`. -/
  pchIoApicBus : BitVec 8
  pchIoApicNode : PciNode
  /-- `PCI_BUS_NUMBER_PCH_HPET`. -/
  pchHpetBus : BitVec 8
  pchHpetNode : PciNode
  /-- `mDevScopeATSR[PortIndex].PciNode`. -/
  portNode : ℕ → PciNode
  /-- `IoApicEnable`. -/
  ioApicEnable : ℕ → BitVec 32
  /-- `IoApicID`. -/
  ioApicId : ℕ → BitVec 8

/-- What is found in the system. -/
structure DmarPlatform extends DmarConstants where
  /-- `SocketPresent[Socket] == 1`. -/
  socketPresent : ℕ → Bool
  socketPresent_zero : socketPresent 0 = true
  maxSocket_pos : 0 < maxSocket
  stackPresentBitmap : ℕ → ℕ
  pcieSegment : ℕ → BitVec 16
  /-- `(UINT32)VtdBarAddress[Socket][Stack]`. -/
  vtdBarAddress : ℕ → ℕ → BitVec 32
  /-- The extended capability register at a VT-d base. -/
  vtdExtCap : BitVec 32 → BitVec 64
  /-- `DmaRemap->InterruptRemap`. -/
  interruptRemap : Bool
  sysIoApicEnable : BitVec 32
  stackBus : ℕ → ℕ → BitVec 8
  stackPerPort : ℕ → ℕ → ℕ
  socketPortBusNumber : ℕ → ℕ → BitVec 8
  socketStackLimitBusNumber : ℕ → ℕ → BitVec 8
  /-- `Pci.Read` of the vendor and device identifiers, `none` for an error. -/
  pciRead : BitVec 16 → BitVec 8 → PciNode → Option (BitVec 32)
  /-- `CurrentPXPMap`. -/
  currentPxpMap : ℕ → Bool
  /-- `PciePortOwnership` is `NTB_PORT_DEF_NTB_NTB` or `NTB_PORT_DEF_NTB_RP`. -/
  ntbPort : ℕ → Bool
  vmdEnabled : ℕ → Bool
  /-- `FpgaSktActive`, `none` when `FpgaConfigurationGetValues` fails. -/
  fpgaSktActive : Option ℕ
  /-- The word at `HPET_BLOCK_ADDRESS`. -/
  hpetCapIdValue : BitVec 16
  /-- The dword at `HPET_BLOCK_ADDRESS + 0x100`. -/
  hpetTimer0 : BitVec 32

/-! ### Device scopes -/

/-- `EFI_ACPI_DEVICE_SCOPE_ENTRY_TYPE_*`. -/
inductive ScopeType
  | endpoint
  | bridge
  | ioApic
  | msiCapableHpet
  deriving DecidableEq, Repr

/-- The device that a scope was made for. -/
inductive ScopeOrigin
  | pchIoApic
  | ioApic
  | cbdma (cbIndex : ℕ)
  | port (portIndex : ℕ)
  | vmd
  | fpga (function : ℕ)
  | hpet
  deriving DecidableEq, Repr

/-- The root port that a scope was made for. -/
def ScopeOrigin.port? : ScopeOrigin → Option ℕ
  | .port portIndex => some portIndex
  | _ => none

/-- `DEVICE_SCOPE`, with its path of one node. -/
structure DeviceScope where
  deviceType : ScopeType
  enumerationId : BitVec 8
  startBusNumber : BitVec 8
  pciNode : PciNode
  origin : ScopeOrigin

/-- `DevScope` and `PciNode`, and `DeviceScopeNumber` elements of them. -/
structure ScopeBuffers where
  devIndex : ℕ
  pciNodeIndex : ℕ
  devScope : List DeviceScope
  /-- The indices at which the two arrays were written. -/
  written : List ℕ

def ScopeBuffers.empty : ScopeBuffers := ⟨0, 0, [], []⟩

/-- A scope is put into the arrays: its element, the node of its path, and the end of the path. -/
def ScopeBuffers.add (b : ScopeBuffers) (scope : DeviceScope) : ScopeBuffers where
  devIndex := b.devIndex + 1
  pciNodeIndex := b.pciNodeIndex + 1 + 1
  devScope := b.devScope ++ [scope]
  written := b.written ++ [b.devIndex, b.pciNodeIndex, b.pciNodeIndex + 1]

/-- `DMAR_DRHD`, as it was inserted. -/
structure Drhd where
  includeAll : Bool
  segmentNumber : BitVec 16
  registerBase : BitVec 32
  scopes : ScopeBuffers
  socket : ℕ
  stack : ℕ

/-- The root ports in the device scopes of a unit, with their socket. -/
def Drhd.ports (d : Drhd) : List (ℕ × ℕ) :=
  (d.scopes.devScope.filterMap (·.origin.port?)).map (d.socket, ·)

namespace DmarPlatform

variable (P : DmarPlatform)

/-- `(VtdMmioExtCap) & INTRREMAP`. -/
def intrRemapSupport (socket stack : ℕ) : Bool :=
  (P.vtdExtCap (P.vtdBarAddress socket stack)).getLsbD 3

/-- `FpgaSktActive & (1 << IioIndex)`. -/
def fpgaActive (socket : ℕ) : Bool := (P.fpgaSktActive.getD 0).testBit socket

/-- `StackPresentBitmap & (1 << Stack)`. -/
def stackPresent (socket stack : ℕ) : Bool := (P.stackPresentBitmap socket).testBit stack

/-- The root port answers a configuration read. -/
def answers (socket port : ℕ) : Bool :=
  match P.pciRead (P.pcieSegment socket) (P.socketPortBusNumber socket port) (P.portNode port) with
  | some vidDid => vidDid ≠ 0xFFFFFFFF#32
  | none => false

/-- `IioIndex * NUMBER_PORTS_PER_SOCKET + PortIndex`. -/
def portSlot (socket port : ℕ) : ℕ := socket * P.numberPortsPerSocket + port

/-! ### `BuildDRHDForStack` -/

/-- The two scopes of an FPGA. -/
def fpgaScopes (socket stack : ℕ) : List DeviceScope :=
  let bus := P.socketStackLimitBusNumber socket stack - P.fpgaPreallocateBusNum + 1#8
  [⟨.endpoint, 0#8, bus, ⟨0#8, 0#8⟩, .fpga 0⟩, ⟨.endpoint, 0#8, bus, ⟨0#8, 1#8⟩, .fpga 1⟩]

def ioApicScopes (socket stack : ℕ) : List DeviceScope :=
  let index := socket * P.ioApicsPerSocket + stack
  if P.sysIoApicEnable &&& P.ioApicEnable index ≠ 0#32 ∧ P.interruptRemap ∧
      P.intrRemapSupport socket stack then
    [⟨.ioApic, P.ioApicId index, P.stackBus socket stack, P.ioApicNode, .ioApic⟩]
  else []

def cbdmaScopes (socket stack : ℕ) : List DeviceScope :=
  if stack = 0 then
    (List.range 8).map fun cbIndex ↦
      ⟨.endpoint, 0#8, P.stackBus socket 0, ⟨4#8, BitVec.ofNat 8 cbIndex⟩, .cbdma cbIndex⟩
  else []

/-- The root port is put into the unit of the stack. -/
def takesPort (socket stack port : ℕ) : Bool :=
  P.stackPerPort socket port = stack && P.answers socket port &&
    P.currentPxpMap (P.portSlot socket port)

def portScopes (socket stack : ℕ) : List DeviceScope :=
  ((List.range P.numberPortsPerSocket).filter (P.takesPort socket stack)).map fun port ↦
    ⟨if P.ntbPort (P.portSlot socket port) then .endpoint else .bridge, 0#8,
      P.socketPortBusNumber socket port, P.portNode port, .port port⟩

def vmdScopes (socket stack : ℕ) : List DeviceScope :=
  if P.iioPstack0 ≤ stack ∧ stack ≤ P.iioPstack2 ∧
      P.vmdEnabled (socket * P.vmdStackPerSocket + (stack - 1)) then
    [⟨.endpoint, 0#8, P.stackBus socket stack, ⟨5#8, 5#8⟩, .vmd⟩]
  else []

/-- The scopes of the unit of a stack, in the order in which they are made. -/
def stackScopes (socket stack : ℕ) : List DeviceScope :=
  if P.fpgaActive socket ∧ stack = P.iioPstack3 then P.fpgaScopes socket stack
  else
    P.ioApicScopes socket stack ++ P.cbdmaScopes socket stack ++ P.portScopes socket stack ++
      P.vmdScopes socket stack

def buildDrhdForStack (socket stack : ℕ) : Drhd where
  includeAll := false
  segmentNumber := P.pcieSegment socket
  registerBase := P.vtdBarAddress socket stack
  scopes := (P.stackScopes socket stack).foldl .add .empty
  socket := socket
  stack := stack

/-! ### `ReportDmar` -/

/-- `NumberOfHpets`. -/
def numberOfHpets : ℕ := (P.hpetCapIdValue.toNat >>> 8) &&& 0x1F

/-- The scopes of the unit that includes all other devices. -/
def includeAllScopes : List DeviceScope :=
  if P.interruptRemap ∧ P.intrRemapSupport 0 0 then
    [⟨.ioApic, 8#8, P.pchIoApicBus, P.pchIoApicNode, .pchIoApic⟩] ++
      (if P.sysIoApicEnable &&& P.ioApicEnable 0 ≠ 0#32 then
        [⟨.ioApic, 9#8, P.stackBus 0 0, P.ioApicNode, .ioApic⟩] else []) ++
      (if P.numberOfHpets ≠ 0 ∧ P.numberOfHpets ≠ 0x1F ∧ P.hpetTimer0.getLsbD 15 then
        [⟨.msiCapableHpet, 0#8, P.pchHpetBus, P.pchHpetNode, .hpet⟩] else [])
  else []

def includeAllDrhd : Drhd where
  includeAll := true
  segmentNumber := P.pcieSegment 0
  registerBase := P.vtdBarAddress 0 0
  scopes := P.includeAllScopes.foldl .add .empty
  socket := 0
  stack := 0

/-- The units of a socket. -/
def reportSocket (socket : ℕ) : List Drhd :=
  if socket = 0 then
    ((List.range' 1 (P.maxIioStack - 1)).filter (P.stackPresent 0)).map (P.buildDrhdForStack 0) ++
      [P.includeAllDrhd]
  else
    ((List.range P.maxIioStack).filter (P.stackPresent socket)).map (P.buildDrhdForStack socket)

/-- `numCpus`, the number of sockets. -/
def numCpus : ℕ := ((List.range P.maxSocket).filter P.socketPresent).length

/-- `SocketIndex`, for `Index` from 1 to `numCpus`. -/
def socketOrder : List ℕ :=
  (List.range' 1 P.numCpus).map fun index ↦ if index = P.numCpus then 0 else index

/-- The units that `ReportDmar` inserts. A socket number that is too large makes it return. -/
def reportDmar : List Drhd :=
  ((P.socketOrder.takeWhile fun socket ↦ decide (socket < P.maxSocket)).filter
    P.socketPresent).flatMap P.reportSocket

/-! ### What is asked of the table -/

/-- The root port answers, and it is enabled in `CurrentPXPMap`. -/
def portEnabled (socket port : ℕ) : Bool :=
  P.answers socket port && P.currentPxpMap (P.portSlot socket port)

/-- How many units were inserted for a stack. -/
def unitCount (socket stack : ℕ) : ℕ :=
  (P.reportDmar.map fun d ↦ (d.socket, d.stack)).count (socket, stack)

/-- The units cover the system. -/
structure DmarCovers : Prop where
  unit_per_stack : ∀ s < P.maxSocket, P.socketPresent s → ∀ k < P.maxIioStack,
    P.stackPresent s k → P.unitCount s k = 1
  include_all_last : ∃ units, P.reportDmar = units ++ [P.includeAllDrhd] ∧
    ∀ d ∈ units, d.includeAll = false
  port_once : ∀ s < P.maxSocket, P.socketPresent s → ∀ p < P.numberPortsPerSocket,
    P.portEnabled s p → ¬ (s = 0 ∧ P.stackPerPort s p = 0) →
      (P.reportDmar.flatMap Drhd.ports).count (s, p) = 1
  indices_lt : ∀ d ∈ P.reportDmar, ∀ n ∈ d.scopes.written, n < 100

/-- What the loops need to come to everything: the numbers of the sockets are below their count, and
the root ports are on stacks that have a unit of the usual kind. -/
structure UnitsReached : Prop where
  stack : ∀ s < P.maxSocket, P.socketPresent s → ∀ k < P.maxIioStack,
    P.stackPresent s k → s < P.numCpus
  port : ∀ s < P.maxSocket, P.socketPresent s → ∀ p < P.numberPortsPerSocket,
    P.portEnabled s p → ¬ (s = 0 ∧ P.stackPerPort s p = 0) →
      s < P.numCpus ∧ P.stackPerPort s p < P.maxIioStack ∧ P.stackPresent s (P.stackPerPort s p) ∧
        ¬ (P.fpgaActive s ∧ P.stackPerPort s p = P.iioPstack3)

end DmarPlatform

/-! ### The arrays -/

/-- The indices go in step with the scopes. -/
structure ScopeBuffers.InStep (b : ScopeBuffers) : Prop where
  devIndex_eq : b.devIndex = b.devScope.length
  pciNodeIndex_eq : b.pciNodeIndex = 2 * b.devScope.length
  written_lt : ∀ n ∈ b.written, n < 2 * b.devScope.length

namespace ScopeBuffers

theorem inStep_empty : empty.InStep := ⟨rfl, rfl, fun _ hn ↦ absurd hn List.not_mem_nil⟩

theorem InStep.add {b : ScopeBuffers} (h : b.InStep) (scope : DeviceScope) :
    (b.add scope).InStep := by
  have hlength : (b.add scope).devScope.length = b.devScope.length + 1 := by
    rw [ScopeBuffers.add, List.length_append, List.length_singleton]
  have hdev := h.devIndex_eq
  have hnode := h.pciNodeIndex_eq
  refine ⟨?_, ?_, fun n hn ↦ ?_⟩
  · rw [hlength]
    exact congrArg (· + 1) hdev
  · rw [hlength]
    simp only [ScopeBuffers.add]
    omega
  · rw [hlength]
    simp only [ScopeBuffers.add, List.mem_append, List.mem_cons, List.not_mem_nil, or_false] at hn
    rcases hn with hn | rfl | rfl | rfl
    · exact (h.written_lt n hn).trans (by omega)
    all_goals omega

theorem inStep_foldl (scopes : List DeviceScope) {b : ScopeBuffers} (h : b.InStep) :
    (scopes.foldl .add b).InStep := by
  induction scopes generalizing b with
  | nil => exact h
  | cons scope scopes ih => exact ih (h.add scope)

theorem devScope_foldl (scopes : List DeviceScope) (b : ScopeBuffers) :
    (scopes.foldl .add b).devScope = b.devScope ++ scopes := by
  induction scopes generalizing b with
  | nil => exact (List.append_nil _).symm
  | cons scope scopes ih =>
    rw [List.foldl_cons, ih, ScopeBuffers.add, List.append_assoc, List.singleton_append]

@[simp] theorem devScope_foldl_empty (scopes : List DeviceScope) :
    (scopes.foldl .add empty).devScope = scopes := devScope_foldl scopes empty

/-- The last index is that of the end of the last path. -/
theorem written_foldl_empty {scopes : List DeviceScope} {n : ℕ}
    (hn : n ∈ (scopes.foldl .add empty).written) : n < 2 * scopes.length := by
  have h := (inStep_foldl scopes inStep_empty).written_lt n hn
  rwa [devScope_foldl_empty] at h

end ScopeBuffers

namespace DmarPlatform

variable {P : DmarPlatform} {s k p : ℕ} {d : Drhd}

/-! ### One unit -/

theorem length_stackScopes_le : (P.stackScopes s k).length ≤ 31 := by
  have hports : ((List.range P.numberPortsPerSocket).filter (P.takesPort s k)).length ≤ 21 :=
    (List.length_filter_le _ _).trans (by rw [List.length_range]; exact P.ports_le)
  rw [stackScopes]
  split
  · exact Nat.le_add_right 2 29
  · have hio : (P.ioApicScopes s k).length ≤ 1 := by
      simp only [ioApicScopes]
      split <;> simp
    have hcb : (P.cbdmaScopes s k).length ≤ 8 := by
      rw [cbdmaScopes]
      split <;> simp
    have hvmd : (P.vmdScopes s k).length ≤ 1 := by
      rw [vmdScopes]
      split <;> simp
    rw [List.length_append, List.length_append, List.length_append, portScopes, List.length_map]
    omega

theorem length_includeAllScopes_le : P.includeAllScopes.length ≤ 3 := by
  rw [includeAllScopes]
  split
  · split <;> split <;> simp
  · simp

/-- The root ports of a unit are those that it takes, but an FPGA takes none. -/
theorem ports_buildDrhdForStack : (P.buildDrhdForStack s k).ports =
    if P.fpgaActive s ∧ k = P.iioPstack3 then []
    else ((List.range P.numberPortsPerSocket).filter (P.takesPort s k)).map (s, ·) := by
  have hio : (P.ioApicScopes s k).filterMap (·.origin.port?) = [] := by
    simp only [ioApicScopes]
    split <;> rfl
  have hcb : (P.cbdmaScopes s k).filterMap (·.origin.port?) = [] := by
    rw [cbdmaScopes]
    split <;> rfl
  have hvmd : (P.vmdScopes s k).filterMap (·.origin.port?) = [] := by
    rw [vmdScopes]
    split <;> rfl
  have hports : (P.portScopes s k).filterMap (·.origin.port?) =
      (List.range P.numberPortsPerSocket).filter (P.takesPort s k) := by
    rw [portScopes, List.filterMap_map]
    exact List.filterMap_some
  rw [Drhd.ports, buildDrhdForStack, ScopeBuffers.devScope_foldl_empty, stackScopes]
  split
  · rfl
  · rw [List.filterMap_append, List.filterMap_append, List.filterMap_append, hio, hcb, hvmd, hports,
      List.nil_append, List.nil_append, List.append_nil]

theorem ports_includeAllDrhd : P.includeAllDrhd.ports = [] := by
  rw [Drhd.ports, includeAllDrhd, ScopeBuffers.devScope_foldl_empty, includeAllScopes]
  split
  · split <;> split <;> rfl
  · rfl

/-! ### The order of the sockets -/

theorem numCpus_pos : 0 < P.numCpus :=
  List.length_pos_of_mem (List.mem_filter.2
    ⟨List.mem_range.2 P.maxSocket_pos, P.socketPresent_zero⟩)

theorem numCpus_le : P.numCpus ≤ P.maxSocket :=
  (List.length_filter_le _ _).trans_eq List.length_range

/-- Socket 0 is the last. -/
theorem socketOrder_eq : P.socketOrder = List.range' 1 (P.numCpus - 1) ++ [0] := by
  obtain ⟨n, hn⟩ := Nat.exists_eq_succ_of_ne_zero P.numCpus_pos.ne'
  have hmap : (List.range' 1 n).map (fun index ↦ if index = n + 1 then 0 else index) =
      (List.range' 1 n).map id :=
    List.map_congr_left fun index hindex ↦ if_neg (by rw [List.mem_range'_1] at hindex; omega)
  rw [socketOrder, hn, Nat.succ_eq_add_one, List.range'_concat, List.map_append, hmap, List.map_id,
    List.map_singleton, if_pos (by omega), Nat.add_sub_cancel]

theorem takeWhile_socketOrder :
    (P.socketOrder.takeWhile fun socket ↦ decide (socket < P.maxSocket)) = P.socketOrder := by
  refine List.takeWhile_eq_self_iff.2 fun socket hsocket ↦ ?_
  have hle := P.numCpus_le
  have hmax := P.maxSocket_pos
  rw [socketOrder_eq, List.mem_append, List.mem_range'_1, List.mem_singleton] at hsocket
  exact decide_eq_true (by omega)

/-- The sockets that are reported before socket 0. -/
def otherSockets (P : DmarPlatform) : List ℕ :=
  (List.range' 1 (P.numCpus - 1)).filter P.socketPresent

theorem mem_otherSockets : s ∈ P.otherSockets ↔ (s ≠ 0 ∧ s < P.numCpus) ∧ P.socketPresent s := by
  have hpos := P.numCpus_pos
  rw [otherSockets, List.mem_filter, List.mem_range'_1]
  exact and_congr_left' (by omega)

/-! ### The stacks that have a unit -/

/-- The stacks whose units are inserted before the last one. -/
def unitStacks (P : DmarPlatform) : List (ℕ × ℕ) :=
  (P.otherSockets.flatMap fun s ↦
    ((List.range P.maxIioStack).filter (P.stackPresent s)).map (s, ·)) ++
      ((List.range' 1 (P.maxIioStack - 1)).filter (P.stackPresent 0)).map (0, ·)

theorem reportDmar_eq : P.reportDmar =
    P.unitStacks.map (fun u ↦ P.buildDrhdForStack u.1 u.2) ++ [P.includeAllDrhd] := by
  have hother : P.otherSockets.flatMap P.reportSocket = P.otherSockets.flatMap fun s ↦
      ((List.range P.maxIioStack).filter (P.stackPresent s)).map (P.buildDrhdForStack s) :=
    List.flatMap_congr fun s hs ↦ if_neg (mem_otherSockets.1 hs).1.1
  have hzero : [0].filter P.socketPresent = [0] := by
    rw [List.filter_singleton, P.socketPresent_zero]
    rfl
  rw [reportDmar, takeWhile_socketOrder, socketOrder_eq, List.filter_append, hzero,
    List.flatMap_append, ← otherSockets, hother, List.flatMap_singleton, reportSocket, if_pos rfl,
    unitStacks, List.map_append, List.map_flatMap]
  simp only [List.map_map, Function.comp_def, List.append_assoc]

theorem mem_unitStacks {u : ℕ × ℕ} : u ∈ P.unitStacks ↔
    (u.1 < P.numCpus ∧ P.socketPresent u.1 ∧ u.2 < P.maxIioStack ∧ P.stackPresent u.1 u.2) ∧
      ¬ (u.1 = 0 ∧ u.2 = 0) := by
  obtain ⟨s, k⟩ := u
  have hpos := P.numCpus_pos
  have hzero := P.socketPresent_zero
  simp only [unitStacks, List.mem_append, List.mem_flatMap, List.mem_map, List.mem_filter,
    List.mem_range, List.mem_range'_1, mem_otherSockets, Prod.mk.injEq]
  constructor
  · rintro (⟨s', ⟨⟨hne, hlt⟩, hs⟩, k', ⟨hk, hbit⟩, rfl, rfl⟩ | ⟨k', ⟨⟨hone, hk⟩, hbit⟩, rfl, rfl⟩)
    · exact ⟨⟨hlt, hs, hk, hbit⟩, fun h ↦ hne h.1⟩
    · exact ⟨⟨hpos, hzero, by omega, hbit⟩, by omega⟩
  · rintro ⟨⟨hlt, hs, hk, hbit⟩, hnot⟩
    by_cases hs0 : s = 0
    · subst hs0
      exact Or.inr ⟨k, ⟨⟨by omega, by omega⟩, hbit⟩, rfl, rfl⟩
    · exact Or.inl ⟨s, ⟨⟨hs0, hlt⟩, hs⟩, k, ⟨hk, hbit⟩, rfl, rfl⟩

/-- No stack comes twice. -/
theorem nodup_unitStacks : P.unitStacks.Nodup := by
  have hinj (s : ℕ) : Function.Injective (Prod.mk s : ℕ → ℕ × ℕ) := Prod.mk_right_injective s
  have hrange (n : ℕ) : (List.range' 1 n).Nodup := List.nodup_range'
  refine List.Nodup.append ?_ ?_ fun u hother hzero ↦ ?_
  · refine List.nodup_flatMap.2 ⟨fun s _ ↦ ((List.nodup_range).filter _).map (hinj s), ?_⟩
    refine ((hrange _).filter _).imp fun {s s'} hne u hu hu' ↦ ?_
    obtain ⟨k, -, rfl⟩ := List.mem_map.1 hu
    obtain ⟨k', -, heq⟩ := List.mem_map.1 hu'
    exact hne (Prod.mk.inj heq).1.symm
  · exact ((hrange _).filter _).map (hinj 0)
  · obtain ⟨s, hs, hu⟩ := List.mem_flatMap.1 hother
    obtain ⟨k, -, rfl⟩ := List.mem_map.1 hu
    obtain ⟨k', -, heq⟩ := List.mem_map.1 hzero
    exact (mem_otherSockets.1 hs).1.1 (Prod.mk.inj heq).1.symm

/-! ### Units and root ports -/

theorem stacks_reportDmar :
    P.reportDmar.map (fun d ↦ (d.socket, d.stack)) = P.unitStacks ++ [(0, 0)] := by
  rw [reportDmar_eq, List.map_append, List.map_map]
  exact congrArg (· ++ [(0, 0)]) (List.map_id _)

theorem count_eq_one_iff {l : List (ℕ × ℕ)} (hl : l.Nodup) {x : ℕ × ℕ} : l.count x = 1 ↔ x ∈ l :=
  ⟨fun h ↦ List.count_pos_iff.1 (by omega), List.count_eq_one_of_mem hl⟩

/-- A stack has one unit if the loops come to it. -/
theorem unitCount_eq_one_iff :
    P.unitCount s k = 1 ↔ (s, k) ∈ P.unitStacks ∨ (s = 0 ∧ k = 0) := by
  have hnodup : (P.unitStacks ++ [(0, 0)]).Nodup := by
    refine nodup_unitStacks.append (List.nodup_singleton _) fun u hu hzero ↦ ?_
    obtain rfl := List.mem_singleton.1 hzero
    exact (mem_unitStacks.1 hu).2 ⟨rfl, rfl⟩
  rw [unitCount, stacks_reportDmar, count_eq_one_iff hnodup, List.mem_append, List.mem_singleton,
    Prod.mk.injEq]

theorem ports_reportDmar : P.reportDmar.flatMap Drhd.ports =
    P.unitStacks.flatMap fun u ↦ (P.buildDrhdForStack u.1 u.2).ports := by
  rw [reportDmar_eq, List.flatMap_append, List.flatMap_singleton, ports_includeAllDrhd,
    List.append_nil, List.flatMap_map]

theorem mem_ports {x : ℕ × ℕ} : x ∈ (P.buildDrhdForStack s k).ports ↔
    ¬ (P.fpgaActive s ∧ k = P.iioPstack3) ∧ x.1 = s ∧ x.2 < P.numberPortsPerSocket ∧
      P.takesPort s k x.2 := by
  obtain ⟨s', p⟩ := x
  rw [ports_buildDrhdForStack]
  split
  · simp [*]
  · simp only [List.mem_map, List.mem_filter, List.mem_range, Prod.mk.injEq]
    constructor
    · rintro ⟨q, ⟨hq, htakes⟩, rfl, rfl⟩
      exact ⟨‹_›, rfl, hq, htakes⟩
    · rintro ⟨-, rfl, hp, htakes⟩
      exact ⟨p, ⟨hp, htakes⟩, rfl, rfl⟩

theorem takesPort_iff :
    P.takesPort s k p = true ↔ P.stackPerPort s p = k ∧ P.portEnabled s p = true := by
  rw [takesPort, portEnabled, Bool.and_assoc, Bool.and_eq_true, decide_eq_true_iff]

/-- No root port is in two units, or in one of them twice. -/
theorem nodup_ports : (P.reportDmar.flatMap Drhd.ports).Nodup := by
  rw [ports_reportDmar]
  refine List.nodup_flatMap.2 ⟨fun u _ ↦ ?_, nodup_unitStacks.imp fun {u u'} hne x hx hx' ↦ ?_⟩
  · rw [ports_buildDrhdForStack]
    split
    · exact List.nodup_nil
    · exact (List.nodup_range.filter _).map (Prod.mk_right_injective _)
  · obtain ⟨-, hsocket, -, htakes⟩ := mem_ports.1 hx
    obtain ⟨-, hsocket', -, htakes'⟩ := mem_ports.1 hx'
    have hsame : u.1 = u'.1 := hsocket.symm.trans hsocket'
    rw [← hsame] at htakes'
    exact hne (Prod.ext hsame ((takesPort_iff.1 htakes).1.symm.trans (takesPort_iff.1 htakes').1))

/-- A root port is in one unit if its stack has a unit that takes ports. -/
theorem count_ports_eq_one_iff (hp : p < P.numberPortsPerSocket) (henabled : P.portEnabled s p) :
    (P.reportDmar.flatMap Drhd.ports).count (s, p) = 1 ↔
      (s, P.stackPerPort s p) ∈ P.unitStacks ∧
        ¬ (P.fpgaActive s ∧ P.stackPerPort s p = P.iioPstack3) := by
  rw [count_eq_one_iff nodup_ports, ports_reportDmar, List.mem_flatMap]
  constructor
  · rintro ⟨⟨s', k⟩, hu, hx⟩
    obtain ⟨hfpga, rfl, -, htakes⟩ := mem_ports.1 hx
    rw [(takesPort_iff.1 htakes).1]
    exact ⟨hu, hfpga⟩
  · rintro ⟨hu, hfpga⟩
    exact ⟨_, hu, mem_ports.2 ⟨hfpga, rfl, hp, takesPort_iff.2 ⟨rfl, henabled⟩⟩⟩

theorem indices_lt (hd : d ∈ P.reportDmar) {n : ℕ} (hn : n ∈ d.scopes.written) : n < 100 := by
  rw [reportDmar_eq, List.mem_append, List.mem_map, List.mem_singleton] at hd
  rcases hd with ⟨u, -, rfl⟩ | rfl
  · have hlt := ScopeBuffers.written_foldl_empty hn
    have hle := length_stackScopes_le (P := P) (s := u.1) (k := u.2)
    omega
  · have hlt := ScopeBuffers.written_foldl_empty hn
    have hle := length_includeAllScopes_le (P := P)
    omega

/-- The table covers the system, exactly if the numbers of the sockets are below their count and
every root port is on a stack that has a unit of the usual kind. -/
theorem dmarCovers_iff (P : DmarPlatform) : P.DmarCovers ↔ P.UnitsReached := by
  have hpos := P.numCpus_pos
  constructor
  · intro h
    refine ⟨fun s hs hpresent k hk hbit ↦ ?_, fun s hs hpresent p hp henabled hother ↦ ?_⟩
    · rcases unitCount_eq_one_iff.1 (h.unit_per_stack s hs hpresent k hk hbit) with hu | ⟨rfl, -⟩
      · exact (mem_unitStacks.1 hu).1.1
      · exact hpos
    · have hcount := h.port_once s hs hpresent p hp henabled hother
      obtain ⟨hu, hfpga⟩ := (count_ports_eq_one_iff hp henabled).1 hcount
      obtain ⟨⟨hlt, -, hk, hbit⟩, -⟩ := mem_unitStacks.1 hu
      exact ⟨hlt, hk, hbit, hfpga⟩
  · intro h
    refine ⟨fun s hs hpresent k hk hbit ↦ ?_, ?_, fun s hs hpresent p hp henabled hother ↦ ?_,
      fun d hd n hn ↦ indices_lt hd hn⟩
    · rw [unitCount_eq_one_iff, mem_unitStacks]
      have hlt := h.stack s hs hpresent k hk hbit
      by_cases hzero : s = 0 ∧ k = 0
      · exact Or.inr hzero
      · exact Or.inl ⟨⟨hlt, hpresent, hk, hbit⟩, hzero⟩
    · refine ⟨_, reportDmar_eq, fun d hd ↦ ?_⟩
      obtain ⟨u, -, rfl⟩ := List.mem_map.1 hd
      rfl
    · obtain ⟨hlt, hk, hbit, hfpga⟩ := h.port s hs hpresent p hp henabled hother
      exact (count_ports_eq_one_iff hp henabled).2
        ⟨mem_unitStacks.2 ⟨⟨hlt, hpresent, hk, hbit⟩, hother⟩, hfpga⟩

end DmarPlatform

/-! ### Two sockets with a hole between them -/

/-- Sockets 0 and 2 are present, with a C-stack each, and no root port answers. -/
def socketHole : DmarPlatform where
  maxSocket := 4
  maxIioStack := 6
  numberPortsPerSocket := 21
  ports_le := le_refl 21
  iioPstack0 := 1
  iioPstack2 := 3
  iioPstack3 := 4
  ioApicsPerSocket := 6
  vmdStackPerSocket := 3
  fpgaPreallocateBusNum := 0#8
  ioApicNode := ⟨5#8, 4#8⟩
  pchIoApicBus := 0xF0#8
  pchIoApicNode := ⟨0x1F#8, 0#8⟩
  pchHpetBus := 0xF0#8
  pchHpetNode := ⟨0xF#8, 0#8⟩
  portNode := fun _ ↦ ⟨0#8, 0#8⟩
  ioApicEnable := fun _ ↦ 0#32
  ioApicId := fun _ ↦ 0#8
  socketPresent := fun socket ↦ socket = 0 || socket = 2
  socketPresent_zero := rfl
  maxSocket_pos := by decide
  stackPresentBitmap := fun _ ↦ 1
  pcieSegment := fun _ ↦ 0#16
  vtdBarAddress := fun _ _ ↦ 0#32
  vtdExtCap := fun _ ↦ 0#64
  interruptRemap := false
  sysIoApicEnable := 0#32
  stackBus := fun _ _ ↦ 0#8
  stackPerPort := fun _ _ ↦ 0
  socketPortBusNumber := fun _ _ ↦ 0#8
  socketStackLimitBusNumber := fun _ _ ↦ 0#8
  pciRead := fun _ _ _ ↦ none
  currentPxpMap := fun _ ↦ false
  ntbPort := fun _ ↦ false
  vmdEnabled := fun _ ↦ false
  fpgaSktActive := none
  hpetCapIdValue := 0#16
  hpetTimer0 := 0#32

/-- Socket 2 gets no unit: the rounds are those for the sockets 1 and 0. -/
theorem not_dmarCovers_socketHole : socketHole.socketOrder = [1, 0] ∧ ¬ socketHole.DmarCovers := by
  refine ⟨by decide, fun h ↦ ?_⟩
  have hcount := h.unit_per_stack 2 (by decide) rfl 0 (by decide) rfl
  exact absurd hcount (by decide)

end PurleyFirmware.Acpi
