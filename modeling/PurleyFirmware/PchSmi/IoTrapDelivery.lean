import PurleyFirmware.PchSmi.IoTrap

/-!
# Delivering a trapped access

When an access is trapped, the hardware latches its dword address, the bytes it touches and its
direction. `ioTrapCallback` looks for the child to call: it walks the children in list order and
stops at the first one whose range covers the access, and only then looks at the direction.

`delivers_iff` says when that finds a child that takes the access, given that the trap has one: when
the first child that covers the access also accepts its direction.
-/

namespace PurleyFirmware.PchSmi

/-! ### The callback -/

/-- The position of the lowest bit set, or -1. -/
def lowBitSet32 (operand : BitVec 32) : ℤ :=
  match (List.range 32).find? operand.getLsbD with
  | some i => i
  | none => -1

/-- The position of the highest bit set, or -1. -/
def highBitSet32 (operand : BitVec 32) : ℤ :=
  match (List.range 32).reverse.find? operand.getLsbD with
  | some i => i
  | none => -1

/-- The dword address of the trapped access. -/
def trpcBaseAddress (trpc : BitVec 32) : BitVec 16 := (trpc &&& 0xFFFC).setWidth 16

/-- The bytes of the dword that the access touches. -/
def trpcByteEnables (trpc : BitVec 32) : BitVec 32 := (trpc &&& 0xF0000) >>> 16

/-- The direction of the trapped access. -/
def trpcType (trpc : BitVec 32) : IoTrapType :=
  if trpc &&& (1#32 <<< 24) ≠ 0 then .readTrap else .writeTrap

/-- The child whose callback `IoTrapCallback` invokes, if it invokes one. -/
def ioTrapCallback (records : List IoTrapRecord) (trpc : BitVec 32) : Option IoTrapRecord :=
  let endAddress := BitVec.ofInt 16 (highBitSet32 (trpcByteEnables trpc)) + trpcBaseAddress trpc
  let startAddress := BitVec.ofInt 16 (lowBitSet32 (trpcByteEnables trpc)) + trpcBaseAddress trpc
  let found := records.find? fun r ↦ r.context.address ≤ startAddress ∧
    endAddress.toNat < r.context.address.toNat + r.context.length.toNat
  found.filter fun r ↦ r.context.type = .readWriteTrap ∨ r.context.type = trpcType trpc

/-! ### Covering an access -/

namespace IoTrapRecord

variable (r : IoTrapRecord) (trpc : BitVec 32)

/-- Every port that the access touches is in the child's range. -/
def Covers : Prop :=
  ∀ i < 4, trpc.getLsbD (16 + i) = true →
    r.context.address.toNat ≤ (trpcBaseAddress trpc).toNat + i ∧
      (trpcBaseAddress trpc).toNat + i < r.context.address.toNat + r.context.length.toNat

/-- The child takes accesses of this direction. -/
def Accepts : Prop := r.context.type = .readWriteTrap ∨ r.context.type = trpcType trpc

instance : Decidable (r.Covers trpc) := inferInstanceAs (Decidable (∀ i < 4, _ → _))

instance : Decidable (r.Accepts trpc) := inferInstanceAs (Decidable (_ ∨ _))

end IoTrapRecord

/-- A trapped access, as the hardware latches it: it touches at least one byte. -/
structure TrappedAccess where
  /-- The trapped cycle register. -/
  trpc : BitVec 32
  /-- Some byte is enabled. -/
  byteEnable : trpc.extractLsb' 16 4 ≠ 0

theorem trpcByteEnables_eq (trpc : BitVec 32) :
    trpcByteEnables trpc = (trpc.extractLsb' 16 4).setWidth 32 := by
  have hmask : ∀ i < 32, (0xF0000 : BitVec 32).getLsbD (16 + i) = decide (i < 4) := by decide
  refine BitVec.eq_of_getLsbD_eq fun i hi ↦ ?_
  rw [trpcByteEnables, BitVec.getLsbD_ushiftRight, BitVec.getLsbD_and, hmask i hi,
    BitVec.getLsbD_setWidth, BitVec.getLsbD_extractLsb']
  simp [hi, Bool.and_comm]

/-- The two bit searches find the ends of the enabled bytes. -/
theorem bitSet32_byteEnables (be : BitVec 4) (hbe : be ≠ 0) :
    ∃ l < 4, ∃ h < 4, lowBitSet32 (be.setWidth 32) = (l : ℕ) ∧
      highBitSet32 (be.setWidth 32) = (h : ℕ) ∧ be.getLsbD l = true ∧ be.getLsbD h = true ∧
      ∀ i < 4, be.getLsbD i = true → l ≤ i ∧ i ≤ h := by
  revert be
  decide

/-- The dword address leaves room for its four bytes. -/
theorem trpcBaseAddress_le (trpc : BitVec 32) : (trpcBaseAddress trpc).toNat ≤ 0xFFFC := by
  have hle : trpc.toNat % 2 ^ 16 &&& 0xFFFC ≤ 0xFFFC := Nat.and_le_right
  simpa [trpcBaseAddress] using hle

/-- **The comparison of the source is covering.** No sum in it wraps around. -/
theorem ioTrapCallback_eq (records : List IoTrapRecord) (a : TrappedAccess) :
    ioTrapCallback records a.trpc =
      (records.find? fun r ↦ r.Covers a.trpc).filter fun r ↦ r.Accepts a.trpc := by
  obtain ⟨l, hl, h, hh, hlow, hhigh, hlbit, hhbit, hbetween⟩ :=
    bitSet32_byteEnables (a.trpc.extractLsb' 16 4) a.byteEnable
  have hbase := trpcBaseAddress_le a.trpc
  have hbit : ∀ i < 4, (a.trpc.extractLsb' 16 4).getLsbD i = a.trpc.getLsbD (16 + i) := by
    intro i hi
    simp [hi]
  have hsum : ∀ i < 4, (BitVec.ofInt 16 (i : ℕ) + trpcBaseAddress a.trpc).toNat =
      (trpcBaseAddress a.trpc).toNat + i := by
    intro i hi
    rw [BitVec.ofInt_natCast, BitVec.toNat_add, BitVec.toNat_ofNat]
    omega
  have hcovers : ∀ r : IoTrapRecord,
      (r.context.address ≤ BitVec.ofInt 16 (l : ℕ) + trpcBaseAddress a.trpc ∧
        (BitVec.ofInt 16 (h : ℕ) + trpcBaseAddress a.trpc).toNat <
          r.context.address.toNat + r.context.length.toNat) ↔ r.Covers a.trpc := by
    intro r
    rw [BitVec.le_def, hsum l hl, hsum h hh]
    constructor
    · rintro ⟨hfst, hlst⟩ i hi hset
      obtain ⟨hli, hih⟩ := hbetween i hi ((hbit i hi).trans hset)
      omega
    · intro hcov
      have hfst := hcov l hl ((hbit l hl).symm.trans hlbit)
      have hlst := hcov h hh ((hbit h hh).symm.trans hhbit)
      exact ⟨hfst.1, hlst.2⟩
  simp only [ioTrapCallback, trpcByteEnables_eq, hlow, hhigh, hcovers]
  rfl

/-! ### Delivery -/

/-- What is expected of the callback for an access that the trap `n` latched: if a child of that
trap covers the access and accepts its direction, the callback of some child that does both is
invoked. -/
def Delivers (s : IoTrapInstance) (n : Fin ioTrapHandlerNum) (a : TrappedAccess) : Prop :=
  (∃ r ∈ s.callbackDataBase, r.trap = n ∧ r.Covers a.trpc ∧ r.Accepts a.trpc) →
    ∃ r ∈ s.callbackDataBase, ioTrapCallback s.callbackDataBase a.trpc = some r ∧
      r.Covers a.trpc ∧ r.Accepts a.trpc

/-- The first child in list order that covers the access accepts its direction. -/
def FirstCoveringAccepts (s : IoTrapInstance) (a : TrappedAccess) : Prop :=
  ∃ r, (s.callbackDataBase.find? fun r ↦ r.Covers a.trpc) = some r ∧ r.Accepts a.trpc

/-- A callback is invoked exactly when the first child that covers the access accepts it, and then
it is that child's. -/
theorem ioTrapCallback_eq_some_iff {s : IoTrapInstance} {a : TrappedAccess} {r : IoTrapRecord} :
    ioTrapCallback s.callbackDataBase a.trpc = some r ↔
      (s.callbackDataBase.find? fun r ↦ r.Covers a.trpc) = some r ∧ r.Accepts a.trpc := by
  rw [ioTrapCallback_eq, Option.filter_eq_some_iff]
  simp

/-- **When a trapped access is delivered.** Either no child of the trap takes the access, or the
first child in list order that covers it, of this trap or of another, accepts its direction. -/
theorem delivers_iff (s : IoTrapInstance) (n : Fin ioTrapHandlerNum) (a : TrappedAccess) :
    Delivers s n a ↔
      (∀ r ∈ s.callbackDataBase, r.trap = n → r.Covers a.trpc → ¬ r.Accepts a.trpc) ∨
        FirstCoveringAccepts s a := by
  constructor
  · intro h
    by_cases hnone : ∀ r ∈ s.callbackDataBase, r.trap = n → r.Covers a.trpc → ¬ r.Accepts a.trpc
    · exact Or.inl hnone
    · push Not at hnone
      obtain ⟨r, hr, htrap, hcov, hacc⟩ := hnone
      obtain ⟨r', -, hcall, -⟩ := h ⟨r, hr, htrap, hcov, hacc⟩
      exact Or.inr ⟨r', ioTrapCallback_eq_some_iff.1 hcall⟩
  · rintro (hnone | ⟨r, hfind, hacc⟩) ⟨r₀, hr₀, htrap, hcov, hacc₀⟩
    · exact absurd hacc₀ (hnone r₀ hr₀ htrap hcov)
    · have hcovers : r.Covers a.trpc := by simpa using List.find?_some hfind
      exact ⟨r, List.mem_of_find?_eq_some hfind, ioTrapCallback_eq_some_iff.2 ⟨hfind, hacc⟩,
        hcovers, hacc⟩

/-- Both records are allocated; no I/O range is asked for. -/
def recordsAllocated : IoTrapAllocation := ⟨none, true, true⟩

/-- Two children for the four ports at 0x100, the first for writes, the second for reads. -/
def writeThenRead : List IoTrapCall :=
  [.register recordsAllocated 1 ⟨0x100, 4, .writeTrap⟩, .register recordsAllocated 2 ⟨0x100, 4, .readTrap⟩]

/-- A one-byte read of port 0x100. -/
def readAt100 : TrappedAccess := ⟨0x1010100, by decide⟩

/-- The read that the second child's trap latches is not delivered: the walk stops at the first
child, which covers it and does not take reads. -/
theorem not_delivers_writeThenRead :
    ¬ ∀ (calls : List IoTrapCall) (n : Fin ioTrapHandlerNum) (a : TrappedAccess),
      Delivers (calls.foldl ioTrapNext .initial) n a := by
  intro h
  have hdelivers := h writeThenRead ⟨1, by decide⟩ readAt100
  have hchild : ∃ r ∈ (writeThenRead.foldl ioTrapNext .initial).callbackDataBase,
      r.trap = ⟨1, by decide⟩ ∧ r.Covers readAt100.trpc ∧ r.Accepts readAt100.trpc := by
    decide
  obtain ⟨r, -, hcall, -⟩ := hdelivers hchild
  have hnone : ioTrapCallback (writeThenRead.foldl ioTrapNext .initial).callbackDataBase
      readAt100.trpc = none := by
    decide
  rw [hnone] at hcall
  cases hcall

end PurleyFirmware.PchSmi
