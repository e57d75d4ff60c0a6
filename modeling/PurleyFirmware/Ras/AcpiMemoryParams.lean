import Mathlib.Data.BitVec
import PurleyFirmware.Foundation.Runs
import PurleyFirmware.Ras.SystemMemoryMap

/-!
# The memory boards that ACPI sees

`UpdateAcpiMemoryParams` turns the system memory map into the table of memory boards, one for each
node: a bit that says whether there is memory, where it starts and where it ends. It is called once
at boot, for everything, and then whenever memory comes online.

What is wrong with it:

* The start of a board is shifted by 30 bits where its end and its size are shifted by 26.
* The totals are accumulated in the table itself. Only the boot call clears it, so every later call
  adds the elements once more.
* Boards without memory are removed in a loop that goes on from the node of the last element, not
  from the node it was started for.
* With inter-socket interleaving only the bits are cleared.
* A call for one branch uses the number of the node as an index of the memory controllers of its
  socket.

`update_correct_iff` puts these together to the exact condition under which one call leaves the table
right, and `along_correct_iff` does so for a whole run.
-/

namespace PurleyFirmware.Ras

/-! ### The table and the map -/

/-- What the function reads and does not write. -/
structure AcpiMemoryMap where
  /-- `MAX_SOCKET`. -/
  maxSocket : ℕ
  /-- The nodes of all sockets have a bit. -/
  maxSocket_le : 2 * maxSocket ≤ 16
  /-- The elements of the system memory map. -/
  elements : List MemoryMapElement
  /-- Their nodes exist. -/
  nodeId_lt : ∀ e ∈ elements, e.nodeId < 2 * maxSocket
  /-- Addresses have 32 bits. -/
  baseAddress_lt : ∀ e ∈ elements, e.baseAddress < 2 ^ 32
  /-- So have sizes. -/
  elementSize_lt : ∀ e ∈ elements, e.elementSize < 2 ^ 32
  /-- `socketInter` is neither `SOCKET_1WAY` nor `SOCKET_2WAY`. -/
  interleaved : Bool

/-- `MC_MAX_NODE`. -/
def AcpiMemoryMap.mcMaxNode (M : AcpiMemoryMap) : ℕ := 2 * M.maxSocket

/-- `NODE_TO_SKT`. -/
def nodeToSkt (node : ℕ) : ℕ := node / 2

/-- `NODE_TO_MC`. -/
def nodeToMc (node : ℕ) : ℕ := node % 2

/-- `MAX_IMC`. -/
def maxImc : ℕ := 2

/-- `LShiftU64`. -/
def lShiftU64 (operand count : ℕ) : BitVec 64 := BitVec.ofNat 64 (operand * 2 ^ count)

/-- `MEM_ADDR_SHFT_VAL`, the shift for units of 64 MB. -/
def memAddrShftVal : ℕ := 26

/-- What the function writes: the ACPI parameters, masks bit by bit, and the memory controllers of
the system memory map. -/
structure AcpiMemory where
  /-- `MemoryBoardBitMask`. -/
  bitMask : ℕ → Bool
  /-- `MemoryBoardBase`. -/
  base : ℕ → BitVec 64
  /-- `MemoryBoardRange`. -/
  range : ℕ → BitVec 64
  /-- `MemoryBoardChgEvent`. -/
  chgEvent : ℕ
  /-- `SciRequestParam[1]` of an ejection, `none` for a check. -/
  ejection : Option ℕ
  /-- `MemSpareMask`. -/
  memSpareMask : ℕ → Bool
  /-- `Socket[].imcEnabled[]`. -/
  imcEnabled : ℕ → ℕ → Bool
  /-- `Socket[].imc[].MemSize`. -/
  memSize : ℕ → ℕ → ℕ

/-- `Socket` and `Branch`: both `ALL_…`, only the branch, or neither. -/
inductive AcpiTarget
  /-- The call at boot time. -/
  | boot
  /-- Both branches of a socket. -/
  | socket (socket : ℕ)
  /-- One branch. -/
  | branch (socket branch : ℕ)

/-- A call, with what it reads elsewhere. -/
structure AcpiCall where
  /-- What it is for. -/
  target : AcpiTarget
  /-- The memory sizes in the host structure. -/
  hostMemSize : ℕ → ℕ → ℕ
  /-- `mHpRequest[5]`. -/
  hpRequest : ℕ → Bool

variable (M : AcpiMemoryMap)

/-! ### `UpdateAcpiMemoryParams` -/

/-- There is memory behind a node. -/
def AcpiMemory.active (s : AcpiMemory) (node : ℕ) : Bool :=
  s.imcEnabled (nodeToSkt node) (nodeToMc node) && s.memSize (nodeToSkt node) (nodeToMc node) != 0

/-- One round of the loop over the elements. -/
def AcpiMemory.addElement (s : AcpiMemory) (e : MemoryMapElement) : AcpiMemory :=
  if s.bitMask e.nodeId then
    { s with
      range := Function.update s.range e.nodeId
        (s.range e.nodeId + lShiftU64 e.elementSize memAddrShftVal) }
  else
    { s with
      bitMask := Function.update s.bitMask e.nodeId true
      base := Function.update s.base e.nodeId (lShiftU64 e.baseAddress 30)
      range := Function.update s.range e.nodeId
        (lShiftU64 ((e.baseAddress + e.elementSize) % 2 ^ 32) memAddrShftVal) }

/-- One round of the loop that skips nodes without memory. -/
def AcpiMemory.skip (s : AcpiMemory) (node : ℕ) : AcpiMemory :=
  if s.active node then s
  else
    { s with
      bitMask := Function.update s.bitMask node false
      base := Function.update s.base node 0
      range := Function.update s.range node 0 }

/-- `NodeIndex` and `EndIndex`. -/
def AcpiTarget.nodes : AcpiTarget → ℕ × ℕ
  | .boot => (0, M.mcMaxNode)
  | .socket skt => (skt * 2, skt * 2 + 2)
  | .branch skt br => (skt * 2 + br, skt * 2 + br + 1)

/-- `RequestedEvent`. -/
def AcpiTarget.requestedEvent : AcpiTarget → ℕ
  | .boot => 0
  | .socket skt => 3 * 2 ^ (skt * 2)
  | .branch skt br => 2 ^ (skt * 2 + br)

/-- What happens before the loops: the table is cleared, or the memory controllers are updated. A
call for one branch enables controller 0, whatever the branch, and uses node numbers for the
controllers. -/
def AcpiCall.prepare (c : AcpiCall) (s : AcpiMemory) : AcpiMemory :=
  match c.target with
  | .boot =>
    { s with
      base := fun node ↦ if node < M.mcMaxNode then 0 else s.base node
      range := fun node ↦ if node < M.mcMaxNode then 0 else s.range node
      bitMask := fun _ ↦ false
      chgEvent := 0 }
  | .socket socket =>
    { s with
      imcEnabled := fun skt mc ↦
        if skt = socket ∧ skt < M.maxSocket ∧ mc < maxImc then true else s.imcEnabled skt mc
      memSize := fun skt mc ↦
        if skt = socket ∧ skt < M.maxSocket ∧ mc < maxImc then c.hostMemSize skt mc
        else s.memSize skt mc }
  | .branch socket branch =>
    { s with
      imcEnabled := fun skt mc ↦ if skt = socket ∧ mc = 0 then true else s.imcEnabled skt mc
      memSize := fun skt mc ↦
        if skt = socket ∧ (mc = socket * 2 + branch ∨ mc = socket * 2 + branch + 1) then
          c.hostMemSize skt mc
        else s.memSize skt mc }

/-- Where the loop that skips nodes begins: at the node of the last element, if there is one. -/
def AcpiCall.skipFrom (c : AcpiCall) : ℕ :=
  (M.elements.getLast?.map (·.nodeId)).getD (c.target.nodes M).1

/-- The two loops. -/
def AcpiCall.loops (c : AcpiCall) (s : AcpiMemory) : AcpiMemory :=
  let s := M.elements.foldl AcpiMemory.addElement s
  (List.range' (c.skipFrom M) ((c.target.nodes M).2 - c.skipFrom M)).foldl AcpiMemory.skip s

/-- `UpdateAcpiMemoryParams`. -/
def updateAcpiMemoryParams (c : AcpiCall) (ejection : Bool) (s : AcpiMemory) : AcpiMemory :=
  if M.interleaved then { s with chgEvent := 0, bitMask := fun _ ↦ false }
  else
    let s := c.prepare M s
    let event := c.target.requestedEvent
    let s :=
      if ejection then { s with ejection := some event }
      else c.loops M { s with ejection := none, chgEvent := event }
    match c.target with
    | .boot => s
    | .socket _ | .branch _ _ =>
      { s with memSpareMask := fun node ↦ s.bitMask node ^^ c.hpRequest node }

/-- The indices of `imc[]` that a call uses. -/
def AcpiCall.imcIndices (c : AcpiCall) : List ℕ :=
  if M.interleaved then []
  else
    let loop := (List.range' (c.skipFrom M) ((c.target.nodes M).2 - c.skipFrom M)).map nodeToMc
    match c.target with
    | .boot => (List.range M.mcMaxNode).map nodeToMc ++ loop
    | .socket socket => [nodeToMc (socket * 2), nodeToMc (socket * 2 + 1)] ++ loop
    | .branch socket branch => [socket * 2 + branch, socket * 2 + branch + 1] ++ loop

/-! ### What the table should say -/

/-- The elements of a node. -/
def AcpiMemoryMap.boardElements (node : ℕ) : List MemoryMapElement :=
  M.elements.filter (·.nodeId = node)

/-- The size of elements in bytes. -/
def totalSize (es : List MemoryMapElement) : BitVec 64 :=
  es.foldr (fun e total ↦ lShiftU64 e.elementSize memAddrShftVal + total) 0

/-- The board of a node is right: if there is memory, the bit is set, the board starts where the
first element of the node does, and it is as long as all of them; if not, there is nothing. -/
def BoardRight (s : AcpiMemory) (node : ℕ) : Prop :=
  if s.active node then
    ∃ first rest, M.boardElements node = first :: rest ∧ s.bitMask node = true ∧
      s.base node = lShiftU64 first.baseAddress memAddrShftVal ∧
      s.range node - s.base node = totalSize (first :: rest)
  else s.bitMask node = false ∧ s.base node = 0 ∧ s.range node = 0

/-- All boards are right. -/
def TableRight (s : AcpiMemory) : Prop := ∀ node < M.mcMaxNode, BoardRight M s node

/-- One call, without ejection. -/
def AcpiMemory.next (s : AcpiMemory) (c : AcpiCall) : AcpiMemory :=
  updateAcpiMemoryParams M c false s

/-- A call leaves the table right and keeps its indices in bounds. -/
def CallRight (s : AcpiMemory) (c : AcpiCall) : Prop :=
  (∀ i ∈ c.imcIndices M, i < maxImc) ∧ TableRight M (s.next M c)

/-- What the loops make right of one node. A node with memory needs an element: the first one must
start at 0 if the board is new, and they must be empty if it is there already. A node without memory
must have neither elements nor board, or be among those that are looked at. -/
def BoardFits (c : AcpiCall) (s : AcpiMemory) (node : ℕ) : Prop :=
  if s.active node then
    ∃ first rest, M.boardElements node = first :: rest ∧
      if s.bitMask node then totalSize (first :: rest) = 0 else first.baseAddress = 0
  else
    (M.boardElements node = [] ∧ s.bitMask node = false) ∨
      c.skipFrom M ≤ node ∧ node < (c.target.nodes M).2

/-- The index condition: a call for one branch can only be for node 0. -/
def AcpiTarget.InBounds : AcpiTarget → Prop
  | .branch skt br => skt * 2 + br = 0
  | .boot | .socket _ => True

/-- The condition under which a call leaves the table right. -/
def CallFits (s : AcpiMemory) (c : AcpiCall) : Prop :=
  if M.interleaved then
    ∀ node < M.mcMaxNode, s.active node = false ∧ s.base node = 0 ∧ s.range node = 0
  else c.target.InBounds ∧ ∀ node < M.mcMaxNode, BoardFits M c (c.prepare M s) node

/-! ### The loops, node by node -/

section Loops

variable {M} {s : AcpiMemory} {node : ℕ}

/-- The three entries of a board. -/
def AcpiMemory.board (s : AcpiMemory) (node : ℕ) : Bool × BitVec 64 × BitVec 64 :=
  (s.bitMask node, s.base node, s.range node)

/-- What elements make of a board. -/
def addedBoard (board : Bool × BitVec 64 × BitVec 64) (es : List MemoryMapElement) :
    Bool × BitVec 64 × BitVec 64 :=
  if board.1 then (true, board.2.1, board.2.2 + totalSize es)
  else
    match es with
    | [] => board
    | first :: rest =>
      (true, lShiftU64 first.baseAddress 30,
        lShiftU64 ((first.baseAddress + first.elementSize) % 2 ^ 32) memAddrShftVal + totalSize rest)

@[simp] theorem active_addElement (e : MemoryMapElement) :
    (s.addElement e).active node = s.active node := by
  rw [AcpiMemory.addElement]
  split <;> rfl

@[simp] theorem active_skip (n : ℕ) : (s.skip n).active node = s.active node := by
  rw [AcpiMemory.skip]
  split <;> rfl

theorem active_foldl_addElement (es : List MemoryMapElement) :
    (es.foldl AcpiMemory.addElement s).active node = s.active node := by
  induction es generalizing s with
  | nil => rfl
  | cons e es ih => rw [List.foldl_cons, ih, active_addElement]

theorem active_foldl_skip (ns : List ℕ) :
    (ns.foldl AcpiMemory.skip s).active node = s.active node := by
  induction ns generalizing s with
  | nil => rfl
  | cons n ns ih => rw [List.foldl_cons, ih, active_skip]

theorem board_addElement_of_ne {e : MemoryMapElement} (h : e.nodeId ≠ node) :
    (s.addElement e).board node = s.board node := by
  rw [AcpiMemory.addElement]
  split <;> simp [AcpiMemory.board, Function.update_of_ne h.symm]

theorem board_addElement_self (e : MemoryMapElement) :
    (s.addElement e).board e.nodeId = addedBoard (s.board e.nodeId) [e] := by
  rw [AcpiMemory.addElement]
  by_cases hbit : s.bitMask e.nodeId = true
  · simp [addedBoard, AcpiMemory.board, totalSize, hbit]
  · simp [addedBoard, AcpiMemory.board, totalSize, hbit]

theorem totalSize_cons (e : MemoryMapElement) (es : List MemoryMapElement) :
    totalSize (e :: es) = lShiftU64 e.elementSize memAddrShftVal + totalSize es := rfl

/-- Elements one after the other. -/
theorem addedBoard_cons (board : Bool × BitVec 64 × BitVec 64) (e : MemoryMapElement)
    (es : List MemoryMapElement) :
    addedBoard (addedBoard board [e]) es = addedBoard board (e :: es) := by
  obtain ⟨bit, base, range⟩ := board
  cases bit with
  | true => simp [addedBoard, totalSize, add_assoc]
  | false => simp [addedBoard, totalSize]

/-- The loop over the elements. -/
theorem board_foldl_addElement (es : List MemoryMapElement) :
    (es.foldl AcpiMemory.addElement s).board node =
      addedBoard (s.board node) (es.filter (·.nodeId = node)) := by
  induction es generalizing s with
  | nil =>
    simp only [List.foldl_nil, List.filter_nil, addedBoard, totalSize, List.foldr_nil, add_zero]
    split
    · rename_i hbit
      exact Prod.ext hbit rfl
    · rfl
  | cons e es ih =>
    rw [List.foldl_cons, ih]
    by_cases he : e.nodeId = node
    · subst he
      rw [board_addElement_self, addedBoard_cons, List.filter_cons_of_pos (by simp)]
    · rw [board_addElement_of_ne he, List.filter_cons_of_neg (by simpa using he)]

/-- The loop that skips nodes without memory. -/
theorem board_foldl_skip (ns : List ℕ) :
    (ns.foldl AcpiMemory.skip s).board node =
      if node ∈ ns ∧ s.active node = false then (false, 0, 0) else s.board node := by
  induction ns generalizing s with
  | nil => rw [if_neg fun h ↦ absurd h.1 List.not_mem_nil]; rfl
  | cons n ns ih =>
    rw [List.foldl_cons, ih, active_skip]
    have hskip : (s.skip n).board node =
        if node = n ∧ s.active node = false then (false, 0, 0) else s.board node := by
      rw [AcpiMemory.skip]
      by_cases hactive : s.active n = true
      · rw [if_pos hactive, if_neg]
        rintro ⟨rfl, hinactive⟩
        exact absurd (hactive.symm.trans hinactive) (by decide)
      · rw [if_neg hactive]
        by_cases hn : node = n
        · subst hn
          rw [if_pos ⟨rfl, by simpa using hactive⟩]
          simp [AcpiMemory.board]
        · rw [if_neg fun h ↦ hn h.1]
          simp [AcpiMemory.board, Function.update_of_ne hn]
    rw [hskip]
    by_cases hinactive : s.active node = false
    · by_cases hns : node ∈ ns
      · rw [if_pos ⟨hns, hinactive⟩, if_pos ⟨List.mem_cons_of_mem n hns, hinactive⟩]
      · rw [if_neg fun h ↦ hns h.1]
        by_cases hn : node = n
        · rw [if_pos ⟨hn, hinactive⟩, if_pos ⟨hn ▸ List.mem_cons_self, hinactive⟩]
        · rw [if_neg fun h ↦ hn h.1, if_neg]
          rintro ⟨hmem, -⟩
          exact (List.mem_cons.mp hmem).elim hn hns
    · rw [if_neg fun h ↦ hinactive h.2, if_neg fun h ↦ hinactive h.2,
        if_neg fun h ↦ hinactive h.2]

/-- Both loops. -/
theorem board_loops (node : ℕ) (c : AcpiCall) :
    (c.loops M s).active node = s.active node ∧
      (c.loops M s).board node =
        if (c.skipFrom M ≤ node ∧ node < (c.target.nodes M).2) ∧ s.active node = false then
          (false, 0, 0)
        else addedBoard (s.board node) (M.boardElements node) := by
  refine ⟨?_, ?_⟩
  · rw [AcpiCall.loops, active_foldl_skip, active_foldl_addElement]
  · rw [AcpiCall.loops, board_foldl_skip, active_foldl_addElement, board_foldl_addElement]
    refine if_congr (and_congr_left' ?_) rfl rfl
    rw [List.mem_range'_1]
    constructor
    · rintro ⟨hle, hlt⟩
      exact ⟨hle, by omega⟩
    · rintro ⟨hle, hlt⟩
      exact ⟨hle, by omega⟩

end Loops

/-! ### One call -/

section Call

variable {M} {s : AcpiMemory} {node : ℕ} {c : AcpiCall}

/-- The state that the loops start from, for one node: a board that is there is right, and one that
is not is empty. -/
def BoardStarts (M : AcpiMemoryMap) (s : AcpiMemory) (node : ℕ) : Prop :=
  if s.bitMask node then
    ∃ first rest, M.boardElements node = first :: rest ∧
      s.base node = lShiftU64 first.baseAddress memAddrShftVal ∧
      s.range node - s.base node = totalSize (first :: rest)
  else s.base node = 0 ∧ s.range node = 0

/-- A shift that stays within 64 bits. -/
theorem toNat_lShiftU64 {n count : ℕ} (h : n < 2 ^ 32) (hcount : count ≤ 32) :
    (lShiftU64 n count).toNat = n * 2 ^ count := by
  have hlt : n * 2 ^ count < 2 ^ 32 * 2 ^ 32 :=
    calc n * 2 ^ count ≤ n * 2 ^ 32 :=
          Nat.mul_le_mul_left n (Nat.pow_le_pow_right Nat.two_pos hcount)
      _ < 2 ^ 32 * 2 ^ 32 := Nat.mul_lt_mul_of_pos_right h (Nat.two_pow_pos 32)
  rw [← Nat.pow_add] at hlt
  rw [lShiftU64, BitVec.toNat_ofNat, Nat.mod_eq_of_lt hlt]

/-- The two shifts of a start agree for 0 only. -/
theorem lShiftU64_eq_iff {n : ℕ} (h : n < 2 ^ 32) :
    lShiftU64 n 30 = lShiftU64 n memAddrShftVal ↔ n = 0 := by
  constructor
  · intro heq
    have hnat := congrArg BitVec.toNat heq
    rw [toNat_lShiftU64 h (by decide), toNat_lShiftU64 h (by decide)] at hnat
    by_contra hne
    have hlt : n * 2 ^ memAddrShftVal < n * 2 ^ 30 :=
      Nat.mul_lt_mul_of_pos_left (Nat.pow_lt_pow_right Nat.one_lt_two (by decide))
        (Nat.pos_of_ne_zero hne)
    exact Nat.ne_of_lt hlt hnat.symm
  · rintro rfl
    rw [lShiftU64, lShiftU64, Nat.zero_mul, Nat.zero_mul]

theorem mem_elements_of_boardElements {e : MemoryMapElement} (h : e ∈ M.boardElements node) :
    e ∈ M.elements := (List.mem_filter.mp h).1

/-- A board is right according to what the three entries say. -/
theorem boardRight_iff :
    BoardRight M s node ↔
      if s.active node then
        ∃ first rest, M.boardElements node = first :: rest ∧ (s.board node).1 = true ∧
          (s.board node).2.1 = lShiftU64 first.baseAddress memAddrShftVal ∧
          (s.board node).2.2 - (s.board node).2.1 = totalSize (first :: rest)
      else s.board node = (false, 0, 0) := by
  rw [BoardRight]
  split
  · exact Iff.rfl
  · simp only [AcpiMemory.board, Prod.mk.injEq]

/-- A board with memory, after the loops. -/
theorem addedBoard_right_iff {first : MemoryMapElement} {rest : List MemoryMapElement}
    (hes : M.boardElements node = first :: rest) (hstarts : BoardStarts M s node) :
    ((addedBoard (s.board node) (first :: rest)).1 = true ∧
      (addedBoard (s.board node) (first :: rest)).2.1 =
        lShiftU64 first.baseAddress memAddrShftVal ∧
      (addedBoard (s.board node) (first :: rest)).2.2 -
        (addedBoard (s.board node) (first :: rest)).2.1 = totalSize (first :: rest)) ↔
      if s.bitMask node then totalSize (first :: rest) = 0 else first.baseAddress = 0 := by
  have hmem : first ∈ M.elements :=
    mem_elements_of_boardElements (hes ▸ List.mem_cons_self)
  rw [BoardStarts] at hstarts
  cases hbit : s.bitMask node with
  | true =>
    rw [hbit, if_pos rfl] at hstarts
    obtain ⟨first', rest', heq, hbase, hrange⟩ := hstarts
    rw [hes] at heq
    obtain ⟨rfl, rfl⟩ := List.cons.inj heq
    simp only [addedBoard, AcpiMemory.board, hbit, if_true, true_and]
    rw [and_iff_right hbase, ← hrange]
    rw [add_sub_right_comm]
    exact add_eq_left
  | false =>
    simp only [addedBoard, AcpiMemory.board, hbit, Bool.false_eq_true, if_false, true_and]
    rw [lShiftU64_eq_iff (M.baseAddress_lt first hmem)]
    refine and_iff_left_of_imp fun hzero ↦ ?_
    have hsize := M.elementSize_lt first hmem
    have hstart : lShiftU64 0 30 = 0 := rfl
    rw [hzero, Nat.zero_add, Nat.mod_eq_of_lt hsize, hstart, sub_zero]
    rfl

/-- **One board.** Started from a board that is right or empty, the loops leave it right exactly if it
fits. -/
theorem boardRight_loops_iff (hstarts : BoardStarts M s node) :
    BoardRight M (c.loops M s) node ↔ BoardFits M c s node := by
  obtain ⟨hactive, hboard⟩ := board_loops (M := M) (s := s) node c
  rw [boardRight_iff, hactive, hboard, BoardFits]
  cases hact : s.active node with
  | true =>
    rw [if_pos rfl, if_pos rfl, if_neg (by simp)]
    refine exists_congr fun first ↦ exists_congr fun rest ↦ and_congr_right fun hes ↦ ?_
    rw [hes]
    exact addedBoard_right_iff hes hstarts
  | false =>
    rw [if_neg Bool.false_ne_true, if_neg Bool.false_ne_true]
    by_cases hskip : c.skipFrom M ≤ node ∧ node < (c.target.nodes M).2
    · rw [if_pos ⟨hskip, rfl⟩]
      exact iff_of_true rfl (Or.inr hskip)
    · rw [if_neg fun h ↦ hskip h.1, or_iff_left hskip]
      rw [BoardStarts] at hstarts
      cases hbit : s.bitMask node with
      | true =>
        refine iff_of_false (fun h ↦ ?_) fun h ↦ absurd h.2 (by decide)
        have hfirst := congrArg Prod.fst h
        simp [addedBoard, AcpiMemory.board, hbit] at hfirst
      | false =>
        rw [hbit, if_neg Bool.false_ne_true] at hstarts
        have hempty : s.board node = (false, 0, 0) := by
          simp [AcpiMemory.board, hbit, hstarts.1, hstarts.2]
        rw [hempty]
        cases hes : M.boardElements node with
        | nil => exact iff_of_true rfl ⟨rfl, rfl⟩
        | cons first rest =>
          refine iff_of_false (fun h ↦ ?_) fun h ↦ absurd h.1 (List.cons_ne_nil _ _)
          exact absurd (congrArg Prod.fst h) (by simp [addedBoard])

/-- The indices are in bounds exactly as the target says. -/
theorem imcIndices_lt_iff (hinter : M.interleaved = false) :
    (∀ i ∈ c.imcIndices M, i < maxImc) ↔ c.target.InBounds := by
  have hloop : ∀ ns : List ℕ, ∀ i ∈ ns.map nodeToMc, i < maxImc := by
    intro ns i hi
    obtain ⟨n, -, rfl⟩ := List.mem_map.mp hi
    exact Nat.mod_lt n (by decide)
  rw [AcpiCall.imcIndices, hinter, if_neg Bool.false_ne_true]
  cases htarget : c.target with
  | boot =>
    refine iff_of_true (fun i hi ↦ ?_) trivial
    exact (List.mem_append.mp hi).elim (hloop _ i) (hloop _ i)
  | socket skt =>
    refine iff_of_true (fun i hi ↦ ?_) trivial
    rcases List.mem_append.mp hi with hi | hi
    · exact hloop [skt * 2, skt * 2 + 1] i hi
    · exact hloop _ i hi
  | branch skt br =>
    rw [AcpiTarget.InBounds]
    constructor
    · intro h
      have hlast : skt * 2 + br + 1 < maxImc := h _ (by simp)
      rw [maxImc] at hlast
      omega
    · intro hzero i hi
      rcases List.mem_append.mp hi with hi | hi
      · rw [hzero] at hi
        rcases List.mem_pair.mp hi with rfl | rfl <;> decide
      · exact hloop _ i hi

/-- The board after a call is that after the loops. -/
theorem boardRight_next_iff (hinter : M.interleaved = false) :
    BoardRight M (s.next M c) node ↔ BoardRight M (c.loops M (c.prepare M s)) node := by
  have hstarted : ∀ t : AcpiMemory, t.active node = (c.prepare M s).active node →
      t.board node = (c.prepare M s).board node →
      (BoardRight M (c.loops M t) node ↔ BoardRight M (c.loops M (c.prepare M s)) node) := by
    intro t hactive hboard
    rw [boardRight_iff, boardRight_iff, (board_loops _ c).1, (board_loops _ c).2, (board_loops _ c).1,
      (board_loops _ c).2, hactive, hboard]
  rw [← hstarted { c.prepare M s with ejection := none, chgEvent := c.target.requestedEvent } rfl rfl,
    AcpiMemory.next, updateAcpiMemoryParams, hinter, if_neg Bool.false_ne_true]
  rw [boardRight_iff, boardRight_iff]
  cases c.target <;> rfl

/-- Before the loops of a call every board is right or empty: the boot call clears them, and the
others begin with a table that is right. -/
theorem boardStarts_prepare (h : c.target = .boot ∨ TableRight M s) (hnode : node < M.mcMaxNode) :
    BoardStarts M (c.prepare M s) node := by
  by_cases hboot : c.target = .boot
  · simp only [BoardStarts, AcpiCall.prepare, hboot]
    rw [if_neg Bool.false_ne_true, if_pos hnode, if_pos hnode]
    exact ⟨rfl, rfl⟩
  · have hright := (h.resolve_left hboot) node hnode
    have hsame : (c.prepare M s).board node = s.board node := by
      rw [AcpiCall.prepare]
      cases htarget : c.target with
      | boot => exact absurd htarget hboot
      | socket skt => rfl
      | branch skt br => rfl
    obtain ⟨hbit, hbase, hrange⟩ : (c.prepare M s).bitMask node = s.bitMask node ∧
        (c.prepare M s).base node = s.base node ∧
        (c.prepare M s).range node = s.range node := by
      simpa [AcpiMemory.board] using hsame
    rw [BoardStarts, hbit, hbase, hrange]
    rw [BoardRight] at hright
    cases hactive : s.active node with
    | true =>
      rw [hactive, if_pos rfl] at hright
      obtain ⟨first, rest, hes, hset, hb, hr⟩ := hright
      rw [hset, if_pos rfl]
      exact ⟨first, rest, hes, hb, hr⟩
    | false =>
      rw [hactive, if_neg Bool.false_ne_true] at hright
      rw [hright.1, if_neg Bool.false_ne_true]
      exact hright.2

/-- **One call.** From a table that is right, or at boot, a call leaves the table right and its
indices in bounds exactly if it fits. -/
theorem callRight_iff (h : c.target = .boot ∨ TableRight M s) :
    CallRight M s c ↔ CallFits M s c := by
  rw [CallRight, CallFits]
  cases hinter : M.interleaved with
  | true =>
    rw [if_pos rfl]
    have hindices : ∀ i ∈ c.imcIndices M, i < maxImc := by
      rw [AcpiCall.imcIndices, hinter, if_pos rfl]
      exact fun i hi ↦ absurd hi List.not_mem_nil
    rw [and_iff_right hindices, TableRight]
    refine forall₂_congr fun node _ ↦ ?_
    rw [AcpiMemory.next, updateAcpiMemoryParams, hinter, if_pos rfl, BoardRight]
    change (if s.active node = true then _ else _) ↔ _
    cases hactive : s.active node with
    | true =>
      rw [if_pos rfl]
      refine iff_of_false ?_ fun h ↦ absurd h.1 (by decide)
      rintro ⟨first, rest, -, hset, -⟩
      cases hset
    | false => rw [if_neg Bool.false_ne_true]
  | false =>
    rw [if_neg Bool.false_ne_true, imcIndices_lt_iff hinter, TableRight]
    refine and_congr_right' (forall₂_congr fun node hnode ↦ ?_)
    rw [boardRight_next_iff hinter]
    exact boardRight_loops_iff (boardStarts_prepare h hnode)

end Call

/-! ### Runs -/

/-- **Runs.** After the boot call and then after every further call the table is right and all
indices are in bounds, if and only if each call fits the state in which it is made. -/
theorem along_correct_iff (M : AcpiMemoryMap) (s : AcpiMemory) (hostMemSize : ℕ → ℕ → ℕ)
    (hpRequest : ℕ → Bool) (calls : List AcpiCall) :
    Along (AcpiMemory.next M) (CallRight M) s (⟨.boot, hostMemSize, hpRequest⟩ :: calls) ↔
      Along (AcpiMemory.next M) (CallFits M) s (⟨.boot, hostMemSize, hpRequest⟩ :: calls) := by
  rw [along_cons, along_cons, callRight_iff (Or.inl rfl)]
  refine and_congr_right fun hboot ↦ ?_
  have hright : TableRight M (s.next M ⟨.boot, hostMemSize, hpRequest⟩) :=
    ((callRight_iff (Or.inl rfl)).mpr hboot).2
  have hstep : ∀ (t : AcpiMemory) (c : AcpiCall), TableRight M t → True → CallRight M t c →
      TableRight M (t.next M c) := fun _ _ _ _ h ↦ h.2
  exact along_iff_of_invariant hstep (fun t c ht _ ↦ callRight_iff (Or.inr ht)) hright
    (along_of_forall (fun _ _ ↦ trivial) _ _)

/-- One socket, with one element of 1 GB behind 4 GB at its first node. -/
def highMemory : AcpiMemoryMap where
  maxSocket := 1
  maxSocket_le := by decide
  elements := [⟨0, 0, 64, 16, 0⟩]
  nodeId_lt := by decide
  baseAddress_lt := by decide
  elementSize_lt := by decide
  interleaved := false

/-- Its memory controller is enabled. -/
def highMemoryStart : AcpiMemory where
  bitMask _ := false
  base _ := 0
  range _ := 0
  chgEvent := 0
  ejection := none
  memSpareMask _ := false
  imcEnabled _ mc := mc == 0
  memSize _ mc := if mc = 0 then 16 else 0

/-- The boot call puts the start of the board at 64 GB. -/
theorem not_along_correct_highMemory :
    ¬ Along (AcpiMemory.next highMemory) (CallRight highMemory) highMemoryStart
      [⟨.boot, fun _ _ ↦ 0, fun _ ↦ false⟩] := by
  rintro ⟨⟨-, htable⟩, -⟩
  obtain ⟨first, rest, hes, -, hbase, -⟩ := htable 0 (by decide)
  have hfirst : first = ⟨0, 0, 64, 16, 0⟩ := (List.cons.inj hes).1.symm
  rw [hfirst] at hbase
  have hstart : lShiftU64 64 30 = lShiftU64 64 memAddrShftVal := hbase
  exact absurd ((lShiftU64_eq_iff (by decide)).mp hstart) (by decide)

end PurleyFirmware.Ras
