import Mathlib.Data.List.Basic
import Mathlib.Data.Nat.Notation

/-!
# Setting up interrupt remapping

`EnableVtdIntRemapping` of `AcpiPlatformVTDHooks.c`, as the list of what it stores and programs: the
interrupt-remap table, an invalidation queue for each VT-d unit, and a status word for each socket
that the unit is told to write.

The table and the queues are to be page aligned, and the pool gives no such promise. The code asks
for more than it needs and then rounds the address *down* (`pageBase`), so that the slack is at the
wrong end: whatever lies below an unaligned buffer is overwritten. The status words are two, one
each for the first two sockets. `respects_iff` says that the buffers are respected exactly if the
pool happened to be aligned and no unit is in a third socket.

What the units answer (`GSTS`, the status word) is a parameter; a unit that does not answer stops the
processor, so only the units up to that one count.
-/

namespace PurleyFirmware.Acpi

/-! ### Objects in memory -/

/-- An object: where it is, and its size in bytes. -/
structure MemObject where
  base : BitVec 64
  size : ℕ

/-- The bytes lie inside the object. -/
def MemObject.Covers (object : MemObject) (address : BitVec 64) (length : ℕ) : Prop :=
  object.base.toNat ≤ address.toNat ∧ address.toNat + length ≤ object.base.toNat + object.size

/-- `Address & (~0xFFF)`. -/
def pageBase (address : BitVec 64) : BitVec 64 := address &&& ~~~0xFFF

theorem toNat_pageBase (address : BitVec 64) :
    (pageBase address).toNat = address.toNat / 4096 * 4096 := by
  have hlow : ∀ i : Fin 64, (0xFFF : BitVec 64).getLsbD i = decide (i.1 < 12) := by decide
  have hshift : pageBase address = address >>> 12 <<< 12 := by
    refine BitVec.eq_of_getLsbD_eq fun i hi ↦ ?_
    rw [pageBase, BitVec.getLsbD_and, BitVec.getLsbD_not, hlow ⟨i, hi⟩, BitVec.getLsbD_shiftLeft,
      BitVec.getLsbD_ushiftRight]
    by_cases h12 : i < 12
    · simp [hi, h12]
    · simp [hi, h12, Nat.add_sub_cancel' (Nat.not_lt.1 h12)]
  have hlt := address.isLt
  rw [hshift, BitVec.toNat_shiftLeft, BitVec.toNat_ushiftRight, Nat.shiftRight_eq_div_pow,
    Nat.shiftLeft_eq]
  omega

theorem pageBase_le (address : BitVec 64) : (pageBase address).toNat ≤ address.toNat := by
  rw [toNat_pageBase]
  omega

theorem dvd_pageBase (address : BitVec 64) : 4096 ∣ (pageBase address).toNat :=
  ⟨address.toNat / 4096, by rw [toNat_pageBase, Nat.mul_comm]⟩

/-- Inside a page there is no wrap. -/
theorem toNat_pageBase_add (address : BitVec 64) {k : ℕ} (hk : k < 4096) :
    (pageBase address + BitVec.ofNat 64 k).toNat = (pageBase address).toNat + k := by
  have hlt := (pageBase address).isLt
  rw [toNat_pageBase] at hlt
  rw [BitVec.toNat_add, BitVec.toNat_ofNat, toNat_pageBase]
  omega

/-- What starts at the page of an object is inside it exactly if the object starts its page. -/
theorem covers_pageBase_iff {address : BitVec 64} {size length : ℕ} (hlength : length ≤ size) :
    (MemObject.mk address size).Covers (pageBase address) length ↔ 4096 ∣ address.toNat := by
  have hle := pageBase_le address
  have hval := toNat_pageBase address
  rw [MemObject.Covers]
  dsimp only
  constructor
  · rintro ⟨h, -⟩
    exact ⟨address.toNat / 4096, by omega⟩
  · rintro ⟨q, hq⟩
    have heq : (pageBase address).toNat = address.toNat := by omega
    rw [heq]
    omega

/-- In an object that starts its page, so is what comes later in the page. -/
theorem covers_pageBase_add {address : BitVec 64} {size length k : ℕ} (hk : k < 4096)
    (hlength : k + length ≤ size) (haligned : 4096 ∣ address.toNat) :
    (MemObject.mk address size).Covers (pageBase address + BitVec.ofNat 64 k) length := by
  obtain ⟨q, hq⟩ := haligned
  have hval := toNat_pageBase address
  have heq : (pageBase address).toNat = address.toNat := by omega
  rw [MemObject.Covers, toNat_pageBase_add address hk, heq]
  dsimp only
  omega

/-! ### The platform -/

/-- A VT-d unit: its socket and its stack. -/
structure VtdUnit where
  socket : ℕ
  stack : ℕ
  deriving DecidableEq

/-- What the function reads, is given by `AllocatePool`, and is answered by the hardware. -/
structure RemapPlatform where
  /-- `PlatformData.numofIIO`, in `RemapEngCount`. -/
  numofIIO : BitVec 8
  /-- `MAX_IIO_STACK`. -/
  maxIioStack : ℕ
  /-- `CpuQpiInfo[].stackPresentBitmap`. -/
  stackPresentBitmap : ℕ → ℕ
  /-- `IioVData.VtdBarAddress[][]`. -/
  vtdBarAddress : ℕ → ℕ → BitVec 32
  /-- `CPUID(0xB).EDX`. -/
  apicId : BitVec 32
  /-- The pool address of the table. -/
  xApicAddr : BitVec 64
  /-- The pool address of a unit's queue. -/
  queueAddr : VtdUnit → BitVec 64
  /-- The address of `TempDWord`. -/
  tempDWord : BitVec 64
  /-- `TempDWord` is an object of two words. -/
  tempDWord_fits : tempDWord.toNat + 16 ≤ 0x10000000000000000
  /-- What successive reads of a unit's `GSTS` give while the table is set. -/
  gstsTable : VtdUnit → ℕ → BitVec 32
  /-- What they give while the queue is enabled. -/
  gstsQueue : VtdUnit → ℕ → BitVec 32
  /-- What successive reads of a unit's status word give. -/
  statusWord : VtdUnit → ℕ → BitVec 64

/-- What the function does to memory and to the devices. -/
inductive RemapEvent
  /-- A store that belongs to `object`; `ZeroMem` is one of its whole length. -/
  | store (object : MemObject) (address : BitVec 64) (length : ℕ) (value : BitVec 64)
  /-- The hardware is told to store at `address`, which belongs to `object`. -/
  | handed (object : MemObject) (address : BitVec 64) (length : ℕ)
  /-- `IRTA` of a unit. -/
  | irta (unit : VtdUnit) (value : BitVec 64)
  /-- `GCMD` of a unit. -/
  | gcmd (unit : VtdUnit) (value : BitVec 32)
  /-- `IQA` of a unit. -/
  | iqa (unit : VtdUnit) (value : BitVec 64)
  /-- `IQT` of a unit. -/
  | iqt (unit : VtdUnit) (value : BitVec 64)
  /-- A register of the I/O APIC. -/
  | ioApic (address : BitVec 64) (value : BitVec 32)

/-- The event respects the buffers: a store is inside the object it is for, and a base that is
programmed is page aligned. -/
def RemapEvent.Respects : RemapEvent → Prop
  | store object address length _ => object.Covers address length
  | handed object address length => object.Covers address length
  | irta _ value => ∃ base : BitVec 64, value = 7 + 0x800 + base ∧ 4096 ∣ base.toNat
  | iqa _ value => 4096 ∣ value.toNat
  | gcmd _ _ => True
  | iqt _ _ => True
  | ioApic _ _ => True

/-! ### Loops over the units -/

section

variable (before after : VtdUnit → List RemapEvent) (answers : VtdUnit → Bool)

/-- A loop over the units that polls each and stops for good at one that does not answer; whether it
came to its end. -/
def forUnits : List VtdUnit → List RemapEvent × Bool
  | [] => ([], true)
  | unit :: units =>
    if answers unit then
      (before unit ++ after unit ++ (forUnits units).1, (forUnits units).2)
    else (before unit, false)

/-- The units a loop comes to. -/
def reached : List VtdUnit → List VtdUnit
  | [] => []
  | unit :: units => unit :: if answers unit then reached units else []

/-- A poll of no more than `count` reads; what is left of the count. -/
def pollLoop (isSet : ℕ → Bool) : ℕ → ℕ → ℕ
  | 0, _ => 0
  | count + 1, read => if isSet read then count else pollLoop isSet count (read + 1)

variable {before after answers}

/-- What a loop over the units does. -/
theorem mem_forUnits {event : RemapEvent} {units : List VtdUnit} :
    event ∈ (forUnits before after answers units).1 ↔
      ∃ unit ∈ reached answers units,
        event ∈ before unit ∨ (answers unit = true ∧ event ∈ after unit) := by
  induction units with
  | nil => simp [forUnits, reached]
  | cons unit units ih =>
    rw [forUnits, reached]
    by_cases hunit : answers unit = true
    · rw [if_pos hunit, if_pos hunit]
      simp only [List.mem_append, List.mem_cons, ih, exists_eq_or_imp, hunit, true_and]
    · rw [if_neg hunit, if_neg hunit]
      simp only [List.mem_cons, List.not_mem_nil, or_false, exists_eq_left, hunit, Bool.false_eq_true,
        false_and]

end

/-! ### The function -/

namespace RemapPlatform

variable (P : RemapPlatform)

/-- The units that are present and have a base address, in the order of the loops. -/
def units : List VtdUnit :=
  (List.range P.numofIIO.toNat).flatMap fun socket ↦
    ((List.range P.maxIioStack).filter fun stack ↦
      (P.stackPresentBitmap socket).testBit stack && P.vtdBarAddress socket stack != 0).map
        (VtdUnit.mk socket)

/-- `IRTECount`: 24 entries of 16 bytes. -/
def irteCount : ℕ := 16 * 24

/-- The object allocated for the table. -/
def tableObject : MemObject := ⟨P.xApicAddr, irteCount + 0x1500⟩

/-- The object allocated for a unit's queue. -/
def queueObject (unit : VtdUnit) : MemObject := ⟨P.queueAddr unit, 0x1000 + 0x1000⟩

/-- `TempDWord`, two words of eight bytes. -/
def tempObject : MemObject := ⟨P.tempDWord, 16⟩

/-- `&TempDWord[RemapEng]`. -/
def statusAddress (unit : VtdUnit) : BitVec 64 := P.tempDWord + BitVec.ofNat 64 (unit.socket * 8)

/-- An entry of the table. -/
def irteValue (count : ℕ) : BitVec 64 :=
  (if count = 0 then (7 <<< 5) + 3 else 0) ||| (P.apicId.setWidth 64 <<< 32)

/-- The table: cleared, then its entries. -/
def tableEvents : List RemapEvent :=
  .store P.tableObject (pageBase P.xApicAddr) (irteCount + 0x1500) 0 ::
    (List.range 24).map fun count ↦
      .store P.tableObject (pageBase P.xApicAddr + BitVec.ofNat 64 (count * 16)) 8
        (P.irteValue count)

/-- A unit's queue and its registers, up to the poll. -/
def unitEvents (unit : VtdUnit) : List RemapEvent :=
  [.store (P.queueObject unit) (P.queueAddr unit) (0x1000 + 0x1000) 0,
    .store (P.queueObject unit) (pageBase (P.queueAddr unit)) 8 0x04,
    .store (P.queueObject unit) (pageBase (P.queueAddr unit) + 8) 8 0x00,
    .store (P.queueObject unit) (pageBase (P.queueAddr unit) + 16) 8
      ((1 <<< 32) + (6 <<< 4) + 5),
    .store P.tempObject (P.statusAddress unit) 8 0,
    .store (P.queueObject unit) (pageBase (P.queueAddr unit) + 24) 8 (P.statusAddress unit),
    .handed P.tempObject (P.statusAddress unit) 4,
    .irta unit (7 + 0x800 + pageBase P.xApicAddr),
    .gcmd unit (P.gstsTable unit 0 ||| 1 <<< 24)]

/-- The unit takes the table. -/
def tableAnswers (unit : VtdUnit) : Bool :=
  pollLoop (fun read ↦ (P.gstsTable unit (read + 1)).getLsbD 24) 0x1000 0 != 0

/-- The unit enables its queue. -/
def queueAnswers (unit : VtdUnit) : Bool :=
  pollLoop (fun read ↦ (P.gstsQueue unit (read + 1)).getLsbD 26) 0x1000 0 != 0

/-- The unit completes the descriptors. -/
def waitAnswers (unit : VtdUnit) : Bool :=
  pollLoop (fun read ↦ (P.statusWord unit read).getLsbD 0) 0x1000 0 != 0

/-- The loop that sets the table and the queue of each unit. -/
def setupLoop : List RemapEvent × Bool :=
  forUnits P.unitEvents (fun unit ↦ [.iqa unit (pageBase (P.queueAddr unit))]) P.tableAnswers
    P.units

/-- The loop that submits the two descriptors of each unit. -/
def submitLoop : List RemapEvent × Bool :=
  forUnits (fun unit ↦ [.gcmd unit (P.gstsQueue unit 0 ||| 1 <<< 26)])
    (fun unit ↦ [.iqt unit (2 <<< 4)]) P.queueAnswers P.units

/-- The loop that waits for each unit. -/
def waitLoop : List RemapEvent × Bool :=
  forUnits (fun _ ↦ []) (fun _ ↦ []) P.waitAnswers P.units

/-- The redirection entry of the external interrupts. -/
def ioApicEvents : List RemapEvent :=
  [.ioApic 0xFEC00000 0x10, .ioApic 0xFEC00010 0x00, .ioApic 0xFEC00000 (0x10 + 1),
    .ioApic 0xFEC00010 0x10000]

/-- `EnableVtdIntRemapping`. -/
def enableVtdIntRemapping : List RemapEvent :=
  P.tableEvents ++ P.setupLoop.1 ++
    if P.setupLoop.2 then
      P.submitLoop.1 ++
        if P.submitLoop.2 then P.waitLoop.1 ++ if P.waitLoop.2 then ioApicEvents else []
        else []
    else []

/-! ### What is respected -/

/-- The status word of a unit is one of the two exactly for the first two sockets. -/
theorem covers_statusAddress_iff {unit : VtdUnit} (hsocket : unit.socket < 256) {length : ℕ}
    (hpos : 0 < length) (hlength : length ≤ 8) :
    P.tempObject.Covers (P.statusAddress unit) length ↔ unit.socket < 2 := by
  have hfits := P.tempDWord_fits
  have hval : (P.statusAddress unit).toNat
      = (P.tempDWord.toNat + unit.socket * 8) % 0x10000000000000000 := by
    rw [statusAddress, BitVec.toNat_add, BitVec.toNat_ofNat]
    omega
  rw [MemObject.Covers, tempObject, hval]
  dsimp only
  constructor
  · intro h
    -- an address that wrapped around is below the object
    by_cases hwrap : P.tempDWord.toNat + unit.socket * 8 < 0x10000000000000000
    · omega
    · omega
  · intro h
    omega

/-- The sockets of the units are counted in a byte. -/
theorem socket_lt_of_mem_units {unit : VtdUnit} (h : unit ∈ P.units) : unit.socket < 256 := by
  obtain ⟨socket, hsocket, hunit⟩ := List.mem_flatMap.1 h
  obtain ⟨stack, -, rfl⟩ := List.mem_map.1 hunit
  have hlt := P.numofIIO.isLt
  have hle := List.mem_range.1 hsocket
  dsimp only
  omega

end RemapPlatform

/-- A loop comes to units of its list. -/
theorem mem_of_mem_reached {answers : VtdUnit → Bool} {unit : VtdUnit} {units : List VtdUnit}
    (h : unit ∈ reached answers units) : unit ∈ units := by
  induction units with
  | nil => exact h
  | cons first units ih =>
    rw [reached, List.mem_cons] at h
    rcases h with rfl | h
    · exact List.mem_cons_self
    · split at h
      · exact List.mem_cons_of_mem _ (ih h)
      · cases h

namespace RemapPlatform

variable (P : RemapPlatform)

/-- The table is respected exactly if the pool address of it is page aligned. -/
theorem tableEvents_respects_iff :
    (∀ event ∈ P.tableEvents, event.Respects) ↔ 4096 ∣ P.xApicAddr.toNat := by
  rw [tableEvents, List.forall_mem_cons]
  constructor
  · rintro ⟨hzero, -⟩
    exact (covers_pageBase_iff (Nat.le_refl _)).1 hzero
  · intro haligned
    refine ⟨(covers_pageBase_iff (Nat.le_refl _)).2 haligned, fun event hevent ↦ ?_⟩
    obtain ⟨count, hcount, rfl⟩ := List.mem_map.1 hevent
    have hlt := List.mem_range.1 hcount
    exact covers_pageBase_add (by omega) (by rw [irteCount]; omega) haligned

/-- A unit's queue and status word are respected exactly if the pool address of the queue is page
aligned and the unit is in one of the first two sockets. -/
theorem unitEvents_respects_iff {unit : VtdUnit} (hsocket : unit.socket < 256) :
    (∀ event ∈ P.unitEvents unit, event.Respects) ↔
      4096 ∣ (P.queueAddr unit).toNat ∧ unit.socket < 2 := by
  have hstatus := P.covers_statusAddress_iff hsocket (show 0 < 8 by omega) (by omega)
  have hhanded := P.covers_statusAddress_iff hsocket (show 0 < 4 by omega) (by omega)
  have hfirst : (P.queueObject unit).Covers (pageBase (P.queueAddr unit)) 8 ↔ _ :=
    covers_pageBase_iff (by omega)
  simp only [unitEvents, List.forall_mem_cons, List.not_mem_nil, false_implies, implies_true,
    and_true, RemapEvent.Respects, hstatus, hhanded, hfirst]
  constructor
  · rintro ⟨-, haligned, -, -, hlt, -⟩
    exact ⟨haligned, hlt⟩
  · rintro ⟨haligned, hlt⟩
    refine ⟨⟨Nat.le_refl _, Nat.le_refl _⟩, haligned, ?_, ?_, hlt, ?_, hlt, ?_⟩
    · exact covers_pageBase_add (k := 8) (by omega) (by omega) haligned
    · exact covers_pageBase_add (k := 16) (by omega) (by omega) haligned
    · exact covers_pageBase_add (k := 24) (by omega) (by omega) haligned
    · exact ⟨_, rfl, dvd_pageBase _⟩

/-- The first loop respects the buffers exactly if every unit it comes to does. -/
theorem setupLoop_respects_iff :
    (∀ event ∈ P.setupLoop.1, event.Respects) ↔
      ∀ unit ∈ reached P.tableAnswers P.units,
        4096 ∣ (P.queueAddr unit).toNat ∧ unit.socket < 2 := by
  simp only [setupLoop, mem_forUnits]
  constructor
  · intro h unit hunit
    have hsocket := P.socket_lt_of_mem_units (mem_of_mem_reached hunit)
    exact (P.unitEvents_respects_iff hsocket).1 fun event hevent ↦
      h event ⟨unit, hunit, .inl hevent⟩
  · rintro h event ⟨unit, hunit, hevent | ⟨-, hevent⟩⟩
    · have hsocket := P.socket_lt_of_mem_units (mem_of_mem_reached hunit)
      exact (P.unitEvents_respects_iff hsocket).2 (h unit hunit) event hevent
    · obtain rfl := List.mem_singleton.1 hevent
      exact dvd_pageBase _

/-- After the first loop nothing is stored in the buffers. -/
theorem respects_of_mem_later {event : RemapEvent}
    (h : event ∈ P.submitLoop.1 ∨ event ∈ P.waitLoop.1 ∨ event ∈ ioApicEvents) :
    event.Respects := by
  rcases h with h | h | h
  · obtain ⟨unit, -, hevent | ⟨-, hevent⟩⟩ := mem_forUnits.1 h
    · obtain rfl := List.mem_singleton.1 hevent
      trivial
    · obtain rfl := List.mem_singleton.1 hevent
      trivial
  · obtain ⟨unit, -, hevent | ⟨-, hevent⟩⟩ := mem_forUnits.1 h
    · cases hevent
    · cases hevent
  · simp only [ioApicEvents, List.mem_cons, List.not_mem_nil, or_false] at h
    rcases h with rfl | rfl | rfl | rfl <;> trivial

/-- **The buffers of interrupt remapping.** They are respected exactly if the pool addresses of the
table and of the queues of all units that the first loop comes to are page aligned already, and none
of these units is in a third socket. -/
theorem respects_iff :
    (∀ event ∈ P.enableVtdIntRemapping, event.Respects) ↔
      4096 ∣ P.xApicAddr.toNat ∧ ∀ unit ∈ reached P.tableAnswers P.units,
        4096 ∣ (P.queueAddr unit).toNat ∧ unit.socket < 2 := by
  rw [← P.tableEvents_respects_iff, ← P.setupLoop_respects_iff]
  constructor
  · intro h
    refine ⟨fun event hevent ↦ h event ?_, fun event hevent ↦ h event ?_⟩
    · exact List.mem_append_left _ (List.mem_append_left _ hevent)
    · exact List.mem_append_left _ (List.mem_append_right _ hevent)
  · rintro ⟨htable, hsetup⟩ event hevent
    rw [enableVtdIntRemapping, List.mem_append, List.mem_append] at hevent
    rcases hevent with (hevent | hevent) | hevent
    · exact htable event hevent
    · exact hsetup event hevent
    · split at hevent
      · rcases List.mem_append.1 hevent with hevent | hevent
        · exact P.respects_of_mem_later (.inl hevent)
        · split at hevent
          · rcases List.mem_append.1 hevent with hevent | hevent
            · exact P.respects_of_mem_later (.inr (.inl hevent))
            · split at hevent
              · exact P.respects_of_mem_later (.inr (.inr hevent))
              · cases hevent
          · cases hevent
      · cases hevent

/-! ### A pool address in the middle of a page -/

/-- Two sockets with all their units, which answer, and a pool that gives for the table an address
that is aligned to eight bytes and no more. -/
def unalignedPool : RemapPlatform where
  numofIIO := 2
  maxIioStack := 6
  stackPresentBitmap := fun _ ↦ 0x3F
  vtdBarAddress := fun _ _ ↦ 0xD37FC000
  apicId := 0
  xApicAddr := 0x7A000018
  queueAddr := fun _ ↦ 0x7A010000
  tempDWord := 0x7FFF0000
  tempDWord_fits := by decide
  gstsTable := fun _ _ ↦ 0x5000000
  gstsQueue := fun _ _ ↦ 0x5000000
  statusWord := fun _ _ ↦ 1

/-- The table is then cleared from below the buffer on. -/
theorem not_respects_unalignedPool :
    ¬ ∀ event ∈ unalignedPool.enableVtdIntRemapping, event.Respects := by
  intro h
  have hzero : (unalignedPool.tableObject).Covers (pageBase unalignedPool.xApicAddr)
      (irteCount + 0x1500) :=
    h (.store unalignedPool.tableObject (pageBase unalignedPool.xApicAddr) (irteCount + 0x1500) 0)
      (List.mem_append_left _ (List.mem_append_left _ List.mem_cons_self))
  exact absurd hzero.1 (by decide)

end RemapPlatform
end PurleyFirmware.Acpi
