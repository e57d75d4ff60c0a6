import PurleyFirmware.Foundation.Loops
import PurleyFirmware.Foundation.MaskMatch
import PurleyFirmware.Foundation.Runs
import PurleyFirmware.PchSmi.IoTrap

/-!
# Releasing I/O traps

A trap should be enabled exactly while some child uses it, and everything that was reserved for it
should be given back with its last child. `TrapsReleased` says so of one state, and
`trapsReleased_of_reachable` proves it of every state that a run reaches in which no call falls
outside `ReleaseSafe`.

## What goes wrong outside it

The unregistration does not know which trap a child uses. It guesses the first trap that ends where
the child's range ends, and disables it if it also starts there. A child of a pool, or of less than
a dword, does not end where its trap ends, so its trap is never disabled; and a trap that belongs to
somebody else may end there. A range from the I/O space map is never freed at all, because the flag
that says so is cleared right before it is tested.

## The invariant

`TrapInvariant` ties four things together for each trap: the address field of its register, its SMI
enable, its record in the dispatcher, and the children that use it.
-/

namespace PurleyFirmware.PchSmi

open PchSmmBitDesc

/-! ### Registers that an operation leaves alone -/

section Frame

variable {hw : PchRegisters} {addr : PchSmmAddress}

theorem writeBitDesc_pcr_of_ne {bitDesc : PchSmmBitDesc} (hpcr : bitDesc.reg.type = .pcr)
    (hne : addr ≠ bitDesc.reg) (value writeClear : Bool) :
    writeBitDesc PchHardware.registerFile hw bitDesc value writeClear addr = hw addr := by
  simp only [writeBitDesc, hpcr]
  split
  · simp [andThenOr, PchHardware.registerFile, hne]
  · rfl

theorem pchPcrRead32_write32_of_ne {addr' : PchSmmAddress} (hne : addr ≠ addr')
    (value : BitVec 32) : pchPcrRead32 (pchPcrWrite32 hw addr' value) addr = pchPcrRead32 hw addr := by
  simp [pchPcrRead32, pchPcrWrite32, PchHardware.registerFile, hne]

theorem pchPcrRead32_write32_self (value : BitVec 32) :
    pchPcrRead32 (pchPcrWrite32 hw addr value) addr = value := by
  simp [pchPcrRead32, pchPcrWrite32, PchHardware.registerFile]

variable {n m : Fin ioTrapHandlerNum}

theorem trpreg_ne_of_ne : ∀ {n m : Fin ioTrapHandlerNum}, m ≠ n → trpreg m ≠ trpreg n := by decide

theorem trpreg_ne_dmiIot : ∀ {n m : Fin ioTrapHandlerNum}, trpreg m ≠ dmiIot n := by decide

theorem trpreg_ne_trpregHigh : ∀ {n m : Fin ioTrapHandlerNum}, trpreg m ≠ trpregHigh n := by decide

theorem trpreg_ne_dmiIotHigh : ∀ {n m : Fin ioTrapHandlerNum}, trpreg m ≠ dmiIotHigh n := by decide

theorem trpreg_ne_trpst : ∀ {m : Fin ioTrapHandlerNum}, trpreg m ≠ psthPcr 0x1E00 := by decide

/-- The low dword of a trap after writing the low dword of a trap. -/
theorem trpreg_setIoTrapLowDword (value : BitVec 32) :
    pchPcrRead32 (setIoTrapLowDword hw n value) (trpreg m) =
      if m = n then value else pchPcrRead32 hw (trpreg m) := by
  rw [setIoTrapLowDword, pchPcrRead32_write32_of_ne trpreg_ne_dmiIot]
  split
  · rw [‹m = n›, pchPcrRead32_write32_self]
  · exact pchPcrRead32_write32_of_ne (trpreg_ne_of_ne ‹_›) value

/-- Writing a high dword leaves every low dword alone. -/
theorem trpreg_setIoTrapHighDword (value : BitVec 32) :
    pchPcrRead32 (setIoTrapHighDword hw n value) (trpreg m) = pchPcrRead32 hw (trpreg m) := by
  rw [setIoTrapHighDword, pchPcrRead32_write32_of_ne trpreg_ne_dmiIotHigh,
    pchPcrRead32_write32_of_ne trpreg_ne_trpregHigh]

/-- Writing bits of one trap's source leaves the low dwords of the others alone. -/
theorem trpreg_writeBitDescs {bitDescs : List PchSmmBitDesc}
    (hdescs : ∀ d ∈ bitDescs, d.isBitDescNull = false → d.reg.type = .pcr ∧ trpreg m ≠ d.reg)
    (value writeClear : Bool) :
    writeBitDescs PchHardware.registerFile hw bitDescs value writeClear (trpreg m) =
      hw (trpreg m) := by
  unfold writeBitDescs
  induction bitDescs generalizing hw with
  | nil => rfl
  | cons d ds ih =>
    rw [List.foldl_cons, ih fun d' hd' ↦ hdescs d' (List.mem_cons_of_mem d hd')]
    split
    · rfl
    · obtain ⟨hpcr, hne⟩ := hdescs d List.mem_cons_self (by simpa using ‹¬ d.isBitDescNull = true›)
      exact writeBitDesc_pcr_of_ne hpcr hne value writeClear

theorem mSrcDescIoTrap_en (hmn : m ≠ n) : ∀ d ∈ (mSrcDescIoTrap n).en.toList,
    d.isBitDescNull = false → d.reg.type = .pcr ∧ trpreg m ≠ d.reg := by
  intro d hd hnull
  have hmem : d = ⟨trpreg n, 4, 0⟩ ∨ d = nullBitDesc := by
    simpa [mSrcDescIoTrap, enBits] using hd
  obtain rfl | rfl := hmem
  · exact ⟨rfl, trpreg_ne_of_ne hmn⟩
  · exact absurd hnull (by decide)

theorem mSrcDescIoTrap_sts : ∀ d ∈ (mSrcDescIoTrap n).sts.toList,
    d.isBitDescNull = false → d.reg.type = .pcr ∧ trpreg m ≠ d.reg := by
  intro d hd _
  have hmem : d = ⟨psthPcr 0x1E00, 1, n.val⟩ := by simpa [mSrcDescIoTrap, stsBits] using hd
  rw [hmem]
  exact ⟨rfl, trpreg_ne_trpst⟩

theorem trpreg_enableSource (hmn : m ≠ n) :
    pchSmmEnableSource PchHardware.registerFile hw (mSrcDescIoTrap n) (trpreg m) =
      hw (trpreg m) := by
  rw [pchSmmEnableSource, trpreg_writeBitDescs mSrcDescIoTrap_sts,
    trpreg_writeBitDescs (mSrcDescIoTrap_en hmn)]

theorem trpreg_clearSource :
    pchSmmClearSource PchHardware.registerFile hw (mSrcDescIoTrap n) (trpreg m) =
      hw (trpreg m) := by
  rw [pchSmmClearSource, trpreg_writeBitDescs mSrcDescIoTrap_sts]

/-- Removing the dispatcher's record of a trap touches the register of that trap only. -/
theorem trpreg_clearUnsharedEnables (d : PchSmiDispatcher PchRegisters) {ρ : DatabaseRecord}
    (hρ : ρ.srcDesc = mSrcDescIoTrap n) (hmn : m ≠ n) :
    clearUnsharedEnables PchHardware.registerFile d ρ (trpreg m) = d.hw (trpreg m) := by
  have hen := mSrcDescIoTrap_en hmn
  rw [clearUnsharedEnables, hρ]
  generalize d.hw = hw
  generalize (mSrcDescIoTrap n).en.toList = bitDescs at hen ⊢
  induction bitDescs generalizing hw with
  | nil => rfl
  | cons b bs ih =>
    rw [List.foldl_cons, ih _ fun b' hb' ↦ hen b' (List.mem_cons_of_mem b hb')]
    split
    · rfl
    · split
      · rfl
      · obtain ⟨hpcr, hne⟩ := hen b List.mem_cons_self (by simpa using ‹¬ b.isBitDescNull = true›)
        exact writeBitDesc_pcr_of_ne hpcr hne false false

end Frame

/-! ### What the fields of a programmed register say -/

section Fields

variable {usedLength : BitVec 32} {baseAddress : BitVec 16}

/-- The address field reads back, whatever the length. -/
theorem trpregAd_lowDword (h : baseAddress &&& 3 = 0) :
    trpregAd (trpregLowDword usedLength baseAddress) = baseAddress.setWidth 32 := by
  refine and_portMask_eq h fun i hlow hhigh ↦ ?_
  have hshift : ((((usedLength - 1) &&& ~~~3) <<< 16)).getLsbD i = false := by
    rw [BitVec.getLsbD_shiftLeft]
    simp [hhigh]
  have hone : (1 : BitVec 32).getLsbD i = false := by
    simp [show i ≠ 0 by omega]
  rw [trpregLowDword, BitVec.getLsbD_or, BitVec.getLsbD_or, hshift, hone, BitVec.getLsbD_setWidth,
    Bool.false_or, Bool.or_false, decide_eq_true (by omega), Bool.true_and]

/-- The SMI of a programmed trap is enabled. -/
theorem trpregLowDword_getLsbD_zero :
    (trpregLowDword usedLength baseAddress).getLsbD 0 = true := by
  simp [trpregLowDword]

theorem setWidth_trpregAd_and_three (low : BitVec 32) :
    ((trpregAd low).setWidth 16) &&& 3 = 0 := by
  have hmask : ∀ i < 16, ((0xFFFC : BitVec 32).getLsbD i && (3 : BitVec 16).getLsbD i) = false := by
    decide
  refine BitVec.eq_of_getLsbD_eq fun i hi ↦ ?_
  rw [trpregAd, BitVec.getLsbD_and, BitVec.getLsbD_setWidth, BitVec.getLsbD_and, Bool.and_assoc,
    Bool.and_assoc, hmask i hi]
  simp

theorem setWidth_trpregAd (low : BitVec 32) :
    ((trpregAd low).setWidth 16).setWidth 32 = trpregAd low := by
  refine BitVec.eq_of_getLsbD_eq fun i hi ↦ ?_
  simp only [trpregAd, BitVec.getLsbD_and, BitVec.getLsbD_setWidth, getLsbD_portMask i hi, hi,
    decide_true, Bool.true_and]
  rcases lt_or_ge i 16 with h | h
  · simp [h]
  · simp [show ¬ i < 16 by omega]

end Fields

/-! ### The invariant -/

namespace IoTrapInstance

variable (s : IoTrapInstance)

/-- The SMI of a trap is enabled. -/
def Enabled (n : Fin ioTrapHandlerNum) : Prop := (s.low n).getLsbD 0 = true

/-- Some child uses the trap. -/
def InUse (n : Fin ioTrapHandlerNum) : Prop := ∃ r ∈ s.callbackDataBase, r.trap = n

/-- The first port of a trap. -/
def trapBase (n : Fin ioTrapHandlerNum) : BitVec 16 := (trpregAd (s.low n)).setWidth 16

instance (n : Fin ioTrapHandlerNum) : Decidable (s.Enabled n) := inferInstanceAs (Decidable (_ = _))

instance (n : Fin ioTrapHandlerNum) : Decidable (s.InUse n) :=
  inferInstanceAs (Decidable (∃ r ∈ s.callbackDataBase, r.trap = n))

end IoTrapInstance

/-- What is expected between two calls: a trap is enabled exactly while some child uses it, a trap
that none uses can be taken again, and every range of the I/O space map and every range reported to
ACPI belongs to a trap in use. -/
structure TrapsReleased (s : IoTrapInstance) : Prop where
  /-- Enabled exactly while used. -/
  enabled_iff : ∀ n, s.Enabled n ↔ s.InUse n
  /-- Free again when no longer used. -/
  isFree : ∀ n, ¬ s.InUse n → s.IsFree n
  /-- No range is kept without a user. -/
  ioSpace : ∀ b ∈ s.ioSpace, ∃ n, s.InUse n ∧ s.trapBase n = b
  /-- No range is reported without a user. -/
  acpi : ∀ n, s.nvsIoTrapStatus n = true → s.InUse n

/-- The invariant of safe runs. -/
structure TrapInvariant (s : IoTrapInstance) : Prop where
  /-- A trap is taken exactly while a child uses it. -/
  not_isFree_iff : ∀ n, ¬ s.IsFree n ↔ s.InUse n
  /-- A trap is enabled exactly while it is taken. -/
  enabled_iff : ∀ n, s.Enabled n ↔ ¬ s.IsFree n
  /-- The handle of a taken trap is that of a record of its source. -/
  handle : ∀ n, ¬ s.IsFree n → ∃ ρ ∈ s.smi.callbackDataBase,
    s.ioTrapHandle n = some ρ.link ∧ ρ.srcDesc = mSrcDescIoTrap n
  /-- Children have addresses that were handed out. -/
  link_lt : ∀ r ∈ s.callbackDataBase, r.link < s.smi.nextLink
  /-- A handle names one child. -/
  nodup_link : (s.callbackDataBase.map IoTrapRecord.link).Nodup
  /-- A trap with a range of the I/O space map is taken. -/
  tracked : ∀ n, s.trackIoResource n = true → ¬ s.IsFree n
  /-- Every range allocated is that of such a trap. -/
  ioSpace : ∀ b ∈ s.ioSpace, ∃ n, s.trackIoResource n = true ∧ s.trapBase n = b
  /-- Every range reported is that of such a trap. -/
  acpi : ∀ n, s.nvsIoTrapStatus n = true → s.trackIoResource n = true

/-- The invariant says what is expected. -/
theorem TrapInvariant.trapsReleased {s : IoTrapInstance} (hs : TrapInvariant s) :
    TrapsReleased s where
  enabled_iff n := (hs.enabled_iff n).trans (hs.not_isFree_iff n)
  isFree n hn := by
    by_contra hfree
    exact hn ((hs.not_isFree_iff n).1 hfree)
  ioSpace b hb := by
    obtain ⟨n, htrack, hbase⟩ := hs.ioSpace b hb
    exact ⟨n, (hs.not_isFree_iff n).1 (hs.tracked n htrack), hbase⟩
  acpi n hn := (hs.not_isFree_iff n).1 (hs.tracked n (hs.acpi n hn))

/-! ### Taking a free trap -/

section Take

variable {s s' : IoTrapInstance} {n : Fin ioTrapHandlerNum} {L : BitVec 32} {r : IoTrapRecord}

theorem inUse_insertIoTrapRecord (hdb : s'.callbackDataBase = s.callbackDataBase)
    (context : IoTrapContext) (callback : ℕ) (n m : Fin ioTrapHandlerNum) :
    (insertIoTrapRecord s' context callback n).InUse m ↔ s.InUse m ∨ m = n := by
  simp [IoTrapInstance.InUse, insertIoTrapRecord, hdb, or_and_right, exists_or, eq_comm]

/-- A new child gets an address of its own. -/
theorem TrapInvariant.link_insertIoTrapRecord (hs : TrapInvariant s)
    (hdb : s'.callbackDataBase = s.callbackDataBase) (hnext : s.smi.nextLink ≤ s'.smi.nextLink)
    (context : IoTrapContext) (callback : ℕ) (n : Fin ioTrapHandlerNum) :
    (∀ r ∈ (insertIoTrapRecord s' context callback n).callbackDataBase,
      r.link < (insertIoTrapRecord s' context callback n).smi.nextLink) ∧
      ((insertIoTrapRecord s' context callback n).callbackDataBase.map IoTrapRecord.link).Nodup := by
  constructor
  · intro r hr
    show r.link < s'.smi.nextLink + 1
    obtain hold | hnew := List.mem_append.1 hr
    · have hlt := hs.link_lt r (hdb ▸ hold)
      omega
    · rw [List.mem_singleton.1 hnew]
      exact Nat.lt_succ_self _
  · show ((s'.callbackDataBase ++ [_]).map IoTrapRecord.link).Nodup
    rw [hdb, List.map_append, List.nodup_append]
    refine ⟨hs.nodup_link, List.nodup_singleton _, ?_⟩
    rintro l hl l' hl' rfl
    obtain ⟨r, hr, rfl⟩ := List.mem_map.1 hl
    have hlt := hs.link_lt r hr
    have hlink : r.link = s'.smi.nextLink := List.mem_singleton.1 hl'
    omega

/-- What a registration that takes a free trap leaves behind, whichever way the range was found. -/
structure Programs (s : IoTrapInstance) (n : Fin ioTrapHandlerNum) (L : BitVec 32)
    (s' : IoTrapInstance) : Prop where
  /-- The trap's register holds `L`, the others are as they were. -/
  low : ∀ m, s'.low m = if m = n then L else s.low m
  /-- `L` names a range. -/
  ad_ne_zero : trpregAd L ≠ 0
  /-- `L` enables the SMI. -/
  enabled : L.getLsbD 0 = true
  /-- The dispatcher has one more record, that of the trap. -/
  smi : ∃ ρ : DatabaseRecord, ρ.srcDesc = mSrcDescIoTrap n ∧
    s'.smi.callbackDataBase = s.smi.callbackDataBase ++ [ρ] ∧
    s'.ioTrapHandle = Function.update s.ioTrapHandle n (some ρ.link)
  /-- Addresses are handed out in increasing order. -/
  nextLink : s.smi.nextLink ≤ s'.smi.nextLink
  /-- No child yet. -/
  callbackDataBase : s'.callbackDataBase = s.callbackDataBase
  /-- Either nothing is reserved, or the trap's range is, and it is reported. -/
  reserved : (s'.trackIoResource = s.trackIoResource ∧ s'.ioSpace = s.ioSpace ∧
      s'.nvsIoTrapStatus = s.nvsIoTrapStatus) ∨
    (s'.trackIoResource = Function.update s.trackIoResource n true ∧
      s'.ioSpace = (trpregAd L).setWidth 16 :: s.ioSpace ∧
      s'.nvsIoTrapStatus = Function.update s.nvsIoTrapStatus n true)

/-- A trap that is programmed and gets its first child. -/
theorem TrapInvariant.insert_of_programs (hs : TrapInvariant s) (hfree : s.IsFree n)
    (h : Programs s n L s') (context : IoTrapContext) (callback : ℕ) :
    TrapInvariant (insertIoTrapRecord s' context callback n) := by
  have hlow : ∀ m, (insertIoTrapRecord s' context callback n).low m =
      if m = n then L else s.low m := h.low
  have hself : ¬ (insertIoTrapRecord s' context callback n).IsFree n := by
    rw [IoTrapInstance.IsFree, hlow n, if_pos rfl]
    exact h.ad_ne_zero
  have hother : ∀ {m}, m ≠ n →
      ((insertIoTrapRecord s' context callback n).IsFree m ↔ s.IsFree m) := by
    intro m hm
    rw [IoTrapInstance.IsFree, IoTrapInstance.IsFree, hlow m, if_neg hm]
  have hlink := hs.link_insertIoTrapRecord h.callbackDataBase h.nextLink context callback n
  have hne : ∀ {k}, s.trackIoResource k = true → k ≠ n := by
    rintro k hk rfl
    exact hs.tracked k hk hfree
  have htrapBase : ∀ {k}, k ≠ n →
      (insertIoTrapRecord s' context callback n).trapBase k = s.trapBase k := by
    intro k hk
    rw [IoTrapInstance.trapBase, hlow, if_neg hk, IoTrapInstance.trapBase]
  obtain ⟨ρ, hρ, hsmi, hhandle⟩ := h.smi
  refine ⟨fun m ↦ ?_, fun m ↦ ?_, fun m hm ↦ ?_, hlink.1, hlink.2, fun m hm ↦ ?_, fun b hb ↦ ?_,
    fun m hm ↦ ?_⟩
  · rw [inUse_insertIoTrapRecord h.callbackDataBase]
    by_cases hmn : m = n
    · simpa [hmn] using hself
    · rw [hother hmn, hs.not_isFree_iff]
      simp [hmn]
  · rw [IoTrapInstance.Enabled, hlow]
    by_cases hmn : m = n
    · rw [if_pos hmn, hmn]
      exact iff_of_true h.enabled hself
    · rw [if_neg hmn, hother hmn]
      exact hs.enabled_iff m
  · by_cases hmn : m = n
    · refine ⟨ρ, ?_, ?_, by rw [hρ, hmn]⟩
      · exact hsmi ▸ List.mem_append_right _ List.mem_cons_self
      · show s'.ioTrapHandle m = some ρ.link
        rw [hhandle, hmn, Function.update_self]
    · obtain ⟨ρ', hρ', hlink, hsrc⟩ := hs.handle m (mt (hother hmn).2 hm)
      refine ⟨ρ', ?_, ?_, hsrc⟩
      · exact hsmi ▸ List.mem_append_left _ hρ'
      · show s'.ioTrapHandle m = some ρ'.link
        rw [hhandle, Function.update_of_ne hmn, hlink]
  · by_cases hmn : m = n
    · exact hmn ▸ hself
    · refine (hother hmn).not.2 (hs.tracked m ?_)
      obtain ⟨htrack, -, -⟩ | ⟨htrack, -, -⟩ := h.reserved
      · exact htrack ▸ hm
      · have hm' : s'.trackIoResource m = true := hm
        rwa [htrack, Function.update_of_ne hmn] at hm'
  · obtain ⟨htrack, hspace, -⟩ | ⟨htrack, hspace, -⟩ := h.reserved
    · obtain ⟨k, hk, hbase⟩ := hs.ioSpace b (hspace ▸ hb)
      exact ⟨k, (congrFun htrack k).trans hk, (htrapBase (hne hk)).trans hbase⟩
    · obtain rfl | hold := List.mem_cons.1 (hspace ▸ hb)
      · refine ⟨n, (congrFun htrack n).trans (Function.update_self ..), ?_⟩
        rw [IoTrapInstance.trapBase, hlow, if_pos rfl]
      · obtain ⟨k, hk, hbase⟩ := hs.ioSpace b hold
        exact ⟨k, (congrFun htrack k).trans ((Function.update_of_ne (hne hk) ..).trans hk),
          (htrapBase (hne hk)).trans hbase⟩
  · obtain ⟨htrack, -, hacpi⟩ | ⟨htrack, -, hacpi⟩ := h.reserved
    · exact (congrFun htrack m).trans (hs.acpi m ((congrFun hacpi m).symm.trans hm))
    · refine (congrFun htrack m).trans ?_
      by_cases hmn : m = n
      · rw [hmn, Function.update_self]
      · have hm' := (congrFun hacpi m).symm.trans hm
        rw [Function.update_of_ne hmn] at hm' ⊢
        exact hs.acpi m hm'

/-- The dispatcher once the record of a trap is in it and the trap's SMI is enabled. -/
def smiWithTrap (smi : PchSmiDispatcher PchRegisters) (n : Fin ioTrapHandlerNum) :
    PchSmiDispatcher PchRegisters :=
  let P := PchHardware.registerFile
  (smi.insertTailList (pchSmiRecord (mSrcDescIoTrap n) (some ioTrapCallbackName) .pchIoTrapSmiType)
    fun _ ↦ rfl).setHw
      (pchSmmEnableSource P (pchSmmClearSource P smi.hw (mSrcDescIoTrap n)) (mSrcDescIoTrap n))

/-- The internal registration, when its record is allocated. -/
theorem pchInternalIoTrapSmiRegister_eq (s : IoTrapInstance) (n : Fin ioTrapHandlerNum) :
    pchInternalIoTrapSmiRegister s true n =
      (.success, { s with smi := smiWithTrap s.smi n, mIoTrapHandle := some s.smi.nextLink }) := by
  have hsource : ∀ n, compareSources (mSrcDescIoTrap n) nullSourceDesc = false := by decide
  simp only [pchInternalIoTrapSmiRegister, pchSmiRecordInsert, hsource, Bool.false_eq_true,
    if_false, Bool.not_true]
  rfl

theorem smiWithTrap_trpreg (smi : PchSmiDispatcher PchRegisters) {m : Fin ioTrapHandlerNum}
    (hm : m ≠ n) : (smiWithTrap smi n).hw (trpreg m) = smi.hw (trpreg m) :=
  (trpreg_enableSource hm).trans trpreg_clearSource

/-- Programming a trap, after the bookkeeping `s` of its range. -/
theorem programTrap_programs {s₀ s : IoTrapInstance} {alloc : IoTrapAllocation}
    (context : IoTrapContext) {baseAddress : BitVec 16} (usedLength : BitVec 32) (flag : Bool)
    (hrecord : alloc.smiRecord = true) (hbase : baseAddress ≠ 0)
    (hdword : baseAddress &&& 3 = 0) (hsmi : s.smi = s₀.smi)
    (hhandle : s.ioTrapHandle = s₀.ioTrapHandle)
    (hdb : s.callbackDataBase = s₀.callbackDataBase)
    (hreserved : (s.trackIoResource = s₀.trackIoResource ∧ s.ioSpace = s₀.ioSpace ∧
        s.nvsIoTrapStatus = s₀.nvsIoTrapStatus) ∨
      (s.trackIoResource = Function.update s₀.trackIoResource n true ∧
        s.ioSpace = baseAddress :: s₀.ioSpace ∧
        s.nvsIoTrapStatus = Function.update s₀.nvsIoTrapStatus n true)) :
    Programs s₀ n (trpregLowDword usedLength baseAddress)
      (programTrap s alloc n context baseAddress usedLength flag) := by
  have had : trpregAd (trpregLowDword usedLength baseAddress) = baseAddress.setWidth 32 :=
    trpregAd_lowDword hdword
  have hwidth : (baseAddress.setWidth 32).setWidth 16 = baseAddress := by simp
  rw [programTrap, hrecord, pchInternalIoTrapSmiRegister_eq]
  constructor
  · intro m
    show pchPcrRead32 (setIoTrapHighDword (setIoTrapLowDword (smiWithTrap s.smi n).hw n _) n _)
      (trpreg m) = _
    rw [trpreg_setIoTrapHighDword, trpreg_setIoTrapLowDword]
    split
    · rfl
    · rw [IoTrapInstance.low, ← hsmi, pchPcrRead32, pchPcrRead32]
      exact congrArg _ (smiWithTrap_trpreg s.smi ‹_›)
  · rw [had]
    intro h
    exact hbase (hwidth.symm.trans (congrArg (BitVec.setWidth 16) h))
  · exact trpregLowDword_getLsbD_zero
  · rw [← hsmi, ← hhandle]
    exact ⟨_, rfl, rfl, rfl⟩
  · rw [← hsmi]
    exact Nat.le_succ _
  · exact hdb
  · rw [had, hwidth]
    exact hreserved

end Take

/-! ### Registration keeps the invariant -/

section Register

variable {s s' : IoTrapInstance} {n : Fin ioTrapHandlerNum} {alloc : IoTrapAllocation}
  {context context' : IoTrapContext} {callback : ℕ}

/-- A registration that keeps trap and child together: the trap's address field cannot be zero, and
both records are allocated. -/
def RegisterSafe (alloc : IoTrapAllocation) (context : IoTrapContext) : Prop :=
  (context.address = 0 ∨ 4 ≤ context.address.toNat) ∧
    (∀ range ∈ alloc.ioSpace, range.base ≠ 0) ∧ alloc.smiRecord = true ∧ alloc.record = true

instance : Decidable (RegisterSafe alloc context) := by
  unfold RegisterSafe
  infer_instance

theorem takeFreeTrap_programs (hsafe : RegisterSafe alloc context)
    (h : takeFreeTrap s alloc context n = .take s' context') : ∃ L, Programs s n L s' := by
  obtain ⟨haddr, hrange, hrecord, -⟩ := hsafe
  rw [takeFreeTrap] at h
  split at h
  · split at h
    · cases h
    · rename_i range hspace
      obtain ⟨rfl, -⟩ := TrapAnswer.take.inj h
      have hdword : range.base &&& 3 = 0 := by
        have hmask : (0xFF : BitVec 16) &&& 3 = 3 := by decide
        rw [← hmask, ← BitVec.and_assoc, range.aligned]
        exact BitVec.zero_and
      exact ⟨_, programTrap_programs _ _ _ hrecord (hrange range hspace) hdword rfl rfl rfl
        (Or.inr ⟨rfl, rfl, rfl⟩)⟩
  · obtain ⟨rfl, -⟩ := TrapAnswer.take.inj h
    refine ⟨_, programTrap_programs _ _ _ hrecord ?_ ?_ rfl rfl rfl (Or.inl ⟨rfl, rfl, rfl⟩)⟩
    · intro hzero
      have haddress : context.address = context.address &&& 3 := by
        have hmask : (0xFFFC : BitVec 16) ||| 3 = BitVec.allOnes 16 := by decide
        calc context.address = context.address &&& ((0xFFFC : BitVec 16) ||| 3) := by
              rw [hmask, BitVec.and_allOnes]
          _ = context.address &&& 3 := by
              rw [BitVec.and_or_distrib_left, hzero]
              exact BitVec.zero_or
      have hle : context.address.toNat ≤ 3 := by
        rw [haddress, BitVec.toNat_and]
        exact Nat.and_le_right
      have hne : context.address ≠ 0 := ‹_›
      have hfour := haddr.resolve_left hne
      omega
    · have hmask : (0xFFFC : BitVec 16) &&& 3 = 0 := by decide
      rw [BitVec.and_assoc, hmask]
      exact BitVec.and_zero

/-- Sharing a pool only changes the bookkeeping of the pool and the direction of the trap. -/
theorem shareUsedTrap_take (h : shareUsedTrap s context n = .take s' context') :
    (∀ m, s'.low m = s.low m) ∧ s'.smi.callbackDataBase = s.smi.callbackDataBase ∧
      s'.smi.nextLink = s.smi.nextLink ∧ s'.ioTrapHandle = s.ioTrapHandle ∧
      s'.callbackDataBase = s.callbackDataBase ∧ s'.trackIoResource = s.trackIoResource ∧
      s'.ioSpace = s.ioSpace ∧ s'.nvsIoTrapStatus = s.nvsIoTrapStatus := by
  rw [shareUsedTrap] at h
  iterate 4
    split at h
    · cases h
  obtain ⟨rfl, -⟩ := TrapAnswer.take.inj h
  split
  · exact ⟨fun _ ↦ rfl, rfl, rfl, rfl, rfl, rfl, rfl, rfl⟩
  · exact ⟨fun _ ↦ trpreg_setIoTrapHighDword _, rfl, rfl, rfl, rfl, rfl, rfl, rfl⟩

/-- The trap that answers a registration, free or shared. -/
theorem searchTrap_take {ns : List (Fin ioTrapHandlerNum)}
    (h : searchTrap s alloc context ns = (.take s' context', some n)) :
    (s.IsFree n ∧ takeFreeTrap s alloc context n = .take s' context') ∨
      (¬ s.IsFree n ∧ shareUsedTrap s context n = .take s' context') := by
  induction ns with
  | nil => cases h
  | cons m ns ih =>
    rw [searchTrap] at h
    generalize hanswer : (if s.IsFree m then takeFreeTrap s alloc context m
      else shareUsedTrap s context m) = answer at h
    cases answer with
    | next => exact ih h
    | refuse status => cases (Prod.mk.inj h).1
    | take t c =>
      obtain ⟨htake, hm⟩ := Prod.mk.inj h
      obtain rfl := Option.some.inj hm
      rw [htake] at hanswer
      split at hanswer
      · exact Or.inl ⟨‹_›, hanswer⟩
      · exact Or.inr ⟨‹_›, hanswer⟩

/-- A further child of a pool. -/
theorem TrapInvariant.insert_of_share (hs : TrapInvariant s) (hused : ¬ s.IsFree n)
    (h : shareUsedTrap s context n = .take s' context') :
    TrapInvariant (insertIoTrapRecord s' context' callback n) := by
  obtain ⟨hlow, hsmi, hnext, hhandle, hdb, htrack, hspace, hacpi⟩ := shareUsedTrap_take h
  have hlow' : ∀ m, (insertIoTrapRecord s' context' callback n).low m = s.low m := hlow
  have hfree : ∀ m, (insertIoTrapRecord s' context' callback n).IsFree m ↔ s.IsFree m := by
    intro m
    rw [IoTrapInstance.IsFree, IoTrapInstance.IsFree, hlow']
  have hinUse := inUse_insertIoTrapRecord hdb context' callback n
  have hlink := hs.link_insertIoTrapRecord hdb hnext.ge context' callback n
  refine ⟨fun m ↦ ?_, fun m ↦ ?_, fun m hm ↦ ?_, hlink.1, hlink.2, fun m hm ↦ ?_, fun b hb ↦ ?_,
    fun m hm ↦ ?_⟩
  · rw [hfree, hs.not_isFree_iff, hinUse]
    refine ⟨Or.inl, fun h ↦ h.elim id ?_⟩
    rintro rfl
    exact (hs.not_isFree_iff _).1 hused
  · rw [IoTrapInstance.Enabled, hlow', hfree]
    exact hs.enabled_iff m
  · obtain ⟨ρ, hρ, hlink, hsrc⟩ := hs.handle m (mt (hfree m).2 hm)
    exact ⟨ρ, hsmi ▸ hρ, (congrFun hhandle m).trans hlink, hsrc⟩
  · exact (hfree m).not.2 (hs.tracked m ((congrFun htrack m).symm.trans hm))
  · obtain ⟨k, hk, hbase⟩ := hs.ioSpace b (hspace ▸ hb)
    refine ⟨k, (congrFun htrack k).trans hk, ?_⟩
    rw [IoTrapInstance.trapBase, hlow']
    exact hbase
  · exact (congrFun htrack m).trans (hs.acpi m ((congrFun hacpi m).symm.trans hm))

/-- **A safe registration keeps the invariant.** -/
theorem TrapInvariant.ioTrapRegister (hs : TrapInvariant s)
    (hsafe : ioTrapCheck context = true → s.smi.readyToLock = false → RegisterSafe alloc context) :
    TrapInvariant (ioTrapRegister s alloc callback context).2.1 := by
  rw [PchSmi.ioTrapRegister]
  split
  · exact hs
  · split
    · exact hs
    · obtain hsafe := hsafe (by simpa using ‹¬ (!ioTrapCheck context) = true›)
        (by simpa using ‹¬ s.smi.readyToLock = true›)
      split
      · rename_i t c n hsearch
        rw [hsafe.2.2.2]
        obtain ⟨hfree, htake⟩ | ⟨hused, hshare⟩ := searchTrap_take hsearch
        · obtain ⟨L, hL⟩ := takeFreeTrap_programs hsafe htake
          exact hs.insert_of_programs hfree hL c callback
        · exact hs.insert_of_share hused hshare
      · exact hs
      · exact hs

end Register

/-! ### Unregistration -/

section UnRegister

variable {s s' : IoTrapInstance} {n : Fin ioTrapHandlerNum} {r : IoTrapRecord}
  {context : IoTrapContext}

/-- The lowest-numbered trap in use that ends where the range ends. -/
def FirstEnding (s : IoTrapInstance) (context : IoTrapContext) (n : Fin ioTrapHandlerNum) : Prop :=
  (¬ s.IsFree n ∧ EndsWith (s.low n) context) ∧
    ∀ m < n, ¬ (¬ s.IsFree m ∧ EndsWith (s.low m) context)

instance : Decidable (FirstEnding s context n) := inferInstanceAs (Decidable (_ ∧ _))

/-- Another child uses the record's trap. -/
def Shared (s : IoTrapInstance) (r : IoTrapRecord) : Prop :=
  ∃ r' ∈ s.callbackDataBase, r'.trap = r.trap ∧ r'.link ≠ r.link

instance : Decidable (Shared s r) :=
  inferInstanceAs (Decidable (∃ r' ∈ s.callbackDataBase, r'.trap = r.trap ∧ r'.link ≠ r.link))

/-- An unregistration that finds the right trap. While other children use the trap, no trap may
have exactly the record's start and be the first that ends with it; the last child of a trap has to
have the range of its own trap, no earlier trap may end there, and the range must not come from the
I/O space map. -/
def UnRegisterSafe (s : IoTrapInstance) (r : IoTrapRecord) : Prop :=
  if Shared s r then ∀ n, FirstEnding s r.context n → s.trapBase n ≠ r.context.address
  else FirstEnding s r.context r.trap ∧ s.trapBase r.trap = r.context.address ∧
    s.trackIoResource r.trap = false

instance : Decidable (UnRegisterSafe s r) := by
  unfold UnRegisterSafe
  infer_instance

theorem ownerGuess_eq_some_iff : ownerGuess s context = some n ↔ FirstEnding s context n := by
  rw [ownerGuess, find?_finRange_eq_some_iff, FirstEnding]
  simp only [decide_eq_true_eq, decide_eq_false_iff_not]

theorem trpregAd_eq_iff : trpregAd (s.low n) = context.address.setWidth 32 ↔
    s.trapBase n = context.address := by
  constructor
  · intro h
    rw [IoTrapInstance.trapBase, h]
    simp
  · intro h
    rw [← h, IoTrapInstance.trapBase, setWidth_trpregAd]

/-- Cutting a trap down keeps its start and leaves its SMI enabled. -/
theorem cutTrap_low (s : IoTrapInstance) (context : IoTrapContext) (n m : Fin ioTrapHandlerNum) :
    (cutTrap s n context).low m = s.low m ∨
      m = n ∧ trpregAd ((cutTrap s n context).low m) = trpregAd (s.low m) ∧
        (cutTrap s n context).Enabled m := by
  rw [cutTrap]
  split
  · by_cases hmn : m = n
    · right
      refine ⟨hmn, ?_, ?_⟩
      · show trpregAd (pchPcrRead32 (setIoTrapLowDword s.smi.hw n _) (trpreg m)) = _
        rw [trpreg_setIoTrapLowDword, if_pos hmn, trpregAd_lowDword (setWidth_trpregAd_and_three _),
          setWidth_trpregAd, hmn]
      · show (pchPcrRead32 (setIoTrapLowDword s.smi.hw n _) (trpreg m)).getLsbD 0 = true
        rw [trpreg_setIoTrapLowDword, if_pos hmn]
        exact trpregLowDword_getLsbD_zero
    · left
      show pchPcrRead32 (setIoTrapLowDword s.smi.hw n _) (trpreg m) = _
      rw [trpreg_setIoTrapLowDword, if_neg hmn]
      rfl
  · exact Or.inl rfl

/-- The record is taken out of the list. -/
def removeIoTrapRecord (s : IoTrapInstance) (link : ℕ) : IoTrapInstance :=
  { s with callbackDataBase := s.callbackDataBase.filter fun r ↦ r.link != link }

/-- The traps in use after a record is removed: all but its own, and that one if it is shared. -/
theorem inUse_removeIoTrapRecord (hs : TrapInvariant s) (hr : r ∈ s.callbackDataBase)
    (hdb : s'.callbackDataBase = s.callbackDataBase) (m : Fin ioTrapHandlerNum) :
    (removeIoTrapRecord s' r.link).InUse m ↔ s.InUse m ∧ (m = r.trap → Shared s r) := by
  have hmem : ∀ r', r' ∈ (removeIoTrapRecord s' r.link).callbackDataBase ↔
      r' ∈ s.callbackDataBase ∧ r'.link ≠ r.link := by
    intro r'
    simp [removeIoTrapRecord, hdb]
  constructor
  · rintro ⟨r', hr', rfl⟩
    obtain ⟨hold, hne⟩ := (hmem r').1 hr'
    exact ⟨⟨r', hold, rfl⟩, fun htrap ↦ ⟨r', hold, htrap, hne⟩⟩
  · rintro ⟨⟨r', hr', rfl⟩, hshared⟩
    by_cases htrap : r'.trap = r.trap
    · obtain ⟨r'', hr'', htrap'', hne⟩ := hshared htrap
      exact ⟨r'', (hmem r'').2 ⟨hr'', hne⟩, htrap''.trans htrap.symm⟩
    · refine ⟨r', (hmem r').2 ⟨hr', fun hlink ↦ htrap ?_⟩, rfl⟩
      rw [List.inj_on_of_nodup_map hs.nodup_link hr' hr hlink]

/-- The addresses of the children that remain. -/
theorem TrapInvariant.link_removeIoTrapRecord (hs : TrapInvariant s) (link : ℕ)
    (hdb : s'.callbackDataBase = s.callbackDataBase) (hnext : s'.smi.nextLink = s.smi.nextLink) :
    (∀ r ∈ (removeIoTrapRecord s' link).callbackDataBase,
      r.link < (removeIoTrapRecord s' link).smi.nextLink) ∧
      ((removeIoTrapRecord s' link).callbackDataBase.map IoTrapRecord.link).Nodup := by
  constructor
  · intro r hr
    show r.link < s'.smi.nextLink
    rw [hnext]
    exact hs.link_lt r (hdb ▸ List.mem_of_mem_filter hr)
  · show ((s'.callbackDataBase.filter _).map IoTrapRecord.link).Nodup
    rw [hdb]
    exact hs.nodup_link.sublist (List.filter_sublist.map _)

/-- What an unregistration that disables no trap may change: the length of a trap. -/
structure SameTraps (s s' : IoTrapInstance) : Prop where
  /-- Every trap starts where it did. -/
  ad : ∀ m, trpregAd (s'.low m) = trpregAd (s.low m)
  /-- Every trap is enabled or not as it was. -/
  enabled : ∀ m, s'.Enabled m ↔ s.Enabled m
  /-- The rest of the data is the same. -/
  eq : ∃ hw, s' = s.setHw hw

theorem sameTraps_cutTrap (hs : TrapInvariant s) (hused : ¬ s.IsFree n) :
    SameTraps s (cutTrap s n context) where
  ad m := by
    obtain h | ⟨-, h, -⟩ := cutTrap_low s context n m
    · rw [h]
    · exact h
  enabled m := by
    obtain h | ⟨rfl, -, h⟩ := cutTrap_low s context n m
    · rw [IoTrapInstance.Enabled, h, IoTrapInstance.Enabled]
    · exact iff_of_true h ((hs.enabled_iff _).2 hused)
  eq := by
    rw [cutTrap]
    split
    · exact ⟨_, rfl⟩
    · exact ⟨s.smi.hw, rfl⟩

/-- Removing a child whose trap has others, when no trap is disabled. -/
theorem TrapInvariant.remove_of_shared (hs : TrapInvariant s) (hr : r ∈ s.callbackDataBase)
    (hshared : Shared s r) (h : SameTraps s s') :
    TrapInvariant (removeIoTrapRecord s' r.link) := by
  obtain ⟨hw, heq⟩ := h.eq
  have hdb : s'.callbackDataBase = s.callbackDataBase := by rw [heq]; rfl
  have hfree : ∀ m, (removeIoTrapRecord s' r.link).IsFree m ↔ s.IsFree m := by
    intro m
    show trpregAd (s'.low m) = 0 ↔ trpregAd (s.low m) = 0
    rw [h.ad]
  have hlink := hs.link_removeIoTrapRecord r.link hdb (by rw [heq]; rfl)
  refine ⟨fun m ↦ ?_, fun m ↦ ?_, fun m hm ↦ ?_, hlink.1, hlink.2, fun m hm ↦ ?_, fun b hb ↦ ?_,
    fun m hm ↦ ?_⟩
  · rw [hfree, hs.not_isFree_iff, inUse_removeIoTrapRecord hs hr hdb]
    simp [hshared]
  · rw [hfree]
    exact (h.enabled m).trans (hs.enabled_iff m)
  · obtain ⟨ρ, hρ, hhandle, hsrc⟩ := hs.handle m ((hfree m).not.1 hm)
    refine ⟨ρ, ?_, ?_, hsrc⟩
    · rw [heq]
      exact hρ
    · rw [heq]
      exact hhandle
  · rw [heq] at hm
    exact (hfree m).not.2 (hs.tracked m hm)
  · have hb' : b ∈ s.ioSpace := by
      rw [heq] at hb
      exact hb
    obtain ⟨k, hk, hbase⟩ := hs.ioSpace b hb'
    refine ⟨k, ?_, ?_⟩
    · rw [heq]
      exact hk
    · show (trpregAd (s'.low k)).setWidth 16 = b
      rw [h.ad]
      exact hbase
  · rw [heq] at hm ⊢
    exact hs.acpi m hm

/-- Disabling a trap. Nothing is freed: the flag is cleared before it is tested. -/
theorem disableTrap_eq {ρ : DatabaseRecord} (hρ : ρ ∈ s.smi.callbackDataBase)
    (hhandle : s.ioTrapHandle n = some ρ.link) :
    disableTrap s n = { s with
      smi := (s.smi.removeEntryList ρ.link).setHw
        (setIoTrapLowDword (setIoTrapHighDword (clearUnsharedEnables PchHardware.registerFile
          (s.smi.removeEntryList ρ.link) ρ) n 0) n 0)
      mIoTrapHandle := some ρ.link
      trackIoResource := Function.update s.trackIoResource n false } := by
  simp only [disableTrap, pchInternalIoTrapSmiUnRegister, hhandle,
    pchSmmCoreUnRegister_of_mem _ s.smi hρ]
  simp [IoTrapInstance.setHw]
  rfl

theorem mSrcDescIoTrap_injective :
    ∀ {m n : Fin ioTrapHandlerNum}, mSrcDescIoTrap m = mSrcDescIoTrap n → m = n := by decide

/-- The register of a disabled trap is clear, and the others are as they were. -/
theorem disableTrap_low {ρ : DatabaseRecord} (hρ : ρ ∈ s.smi.callbackDataBase)
    (hhandle : s.ioTrapHandle n = some ρ.link) (hsrc : ρ.srcDesc = mSrcDescIoTrap n)
    (m : Fin ioTrapHandlerNum) : (disableTrap s n).low m = if m = n then 0 else s.low m := by
  rw [disableTrap_eq hρ hhandle]
  show pchPcrRead32 (setIoTrapLowDword (setIoTrapHighDword _ n 0) n 0) (trpreg m) = _
  rw [trpreg_setIoTrapLowDword, trpreg_setIoTrapHighDword]
  split
  · rfl
  · rw [pchPcrRead32, IoTrapInstance.low, pchPcrRead32]
    exact congrArg _ (trpreg_clearUnsharedEnables (s.smi.removeEntryList ρ.link) hsrc ‹_›)

/-- Removing the last child of a trap that is disabled with it. -/
theorem TrapInvariant.remove_of_disable (hs : TrapInvariant s) (hr : r ∈ s.callbackDataBase)
    (hlast : ¬ Shared s r) (htrack : s.trackIoResource r.trap = false) :
    TrapInvariant (removeIoTrapRecord (disableTrap s r.trap) r.link) := by
  obtain ⟨ρ, hρ, hhandle, hsrc⟩ := hs.handle r.trap ((hs.not_isFree_iff _).2 ⟨r, hr, rfl⟩)
  have hlow := disableTrap_low hρ hhandle hsrc
  have heq := disableTrap_eq hρ hhandle
  have hdb : (disableTrap s r.trap).callbackDataBase = s.callbackDataBase := by rw [heq]
  have hfree : ∀ m, (removeIoTrapRecord (disableTrap s r.trap) r.link).IsFree m ↔
      m = r.trap ∨ s.IsFree m := by
    intro m
    show trpregAd ((disableTrap s r.trap).low m) = 0 ↔ _
    rw [hlow]
    by_cases hm : m = r.trap
    · rw [if_pos hm]
      exact iff_of_true (by decide) (Or.inl hm)
    · rw [if_neg hm]
      exact (or_iff_right hm).symm
  have hother : ∀ {m}, s.trackIoResource m = true → m ≠ r.trap := by
    rintro m hm rfl
    rw [htrack] at hm
    cases hm
  have hlink := hs.link_removeIoTrapRecord r.link hdb (by rw [heq]; rfl)
  have hupdate : Function.update s.trackIoResource r.trap false = s.trackIoResource := by
    rw [← htrack, Function.update_eq_self]
  rw [hupdate] at heq
  refine ⟨fun m ↦ ?_, fun m ↦ ?_, fun m hm ↦ ?_, hlink.1, hlink.2, fun m hm ↦ ?_, fun b hb ↦ ?_,
    fun m hm ↦ ?_⟩
  · rw [hfree, inUse_removeIoTrapRecord hs hr hdb, ← hs.not_isFree_iff]
    tauto
  · rw [hfree, removeIoTrapRecord, IoTrapInstance.Enabled]
    show ((disableTrap s r.trap).low m).getLsbD 0 = true ↔ _
    rw [hlow]
    by_cases hm : m = r.trap
    · rw [if_pos hm]
      exact iff_of_false (by decide) (not_not_intro (Or.inl hm))
    · rw [if_neg hm, or_iff_right hm]
      exact hs.enabled_iff m
  · have hm' := (hfree m).not.1 hm
    push Not at hm'
    obtain ⟨ρ', hρ', hhandle', hsrc'⟩ := hs.handle m hm'.2
    -- the records of two traps are different, because their sources are
    have hne : ρ'.link ≠ ρ.link := by
      intro hlinks
      obtain rfl := s.smi.eq_of_link_eq hρ' hρ hlinks
      exact hm'.1 (mSrcDescIoTrap_injective (hsrc'.symm.trans hsrc))
    refine ⟨ρ', ?_, ?_, hsrc'⟩
    · rw [heq]
      exact (s.smi.mem_removeEntryList).2 ⟨hρ', hne⟩
    · rw [heq]
      exact hhandle'
  · rw [heq] at hm
    rw [hfree]
    push Not
    exact ⟨hother hm, hs.tracked m hm⟩
  · have hb' : b ∈ s.ioSpace := by
      rw [heq] at hb
      exact hb
    obtain ⟨k, hk, hbase⟩ := hs.ioSpace b hb'
    refine ⟨k, ?_, ?_⟩
    · rw [heq]
      exact hk
    · show (trpregAd ((disableTrap s r.trap).low k)).setWidth 16 = b
      rw [hlow, if_neg (hother hk)]
      exact hbase
  · rw [heq] at hm ⊢
    exact hs.acpi m hm

/-- **A safe removal keeps the invariant.** -/
theorem TrapInvariant.releaseTrap (hs : TrapInvariant s) (hr : r ∈ s.callbackDataBase)
    (hsafe : UnRegisterSafe s r) :
    TrapInvariant (removeIoTrapRecord (releaseTrap s r.context) r.link) := by
  rw [PchSmi.releaseTrap]
  rw [UnRegisterSafe] at hsafe
  by_cases hshared : Shared s r
  · rw [if_pos hshared] at hsafe
    cases hguess : ownerGuess s r.context with
    | none => exact hs.remove_of_shared hr hshared ⟨fun _ ↦ rfl, fun _ ↦ Iff.rfl, s.smi.hw, rfl⟩
    | some n =>
      have hfirst := ownerGuess_eq_some_iff.1 hguess
      show TrapInvariant (removeIoTrapRecord (if _ then _ else _) _)
      rw [if_neg (mt trpregAd_eq_iff.1 (hsafe n hfirst))]
      exact hs.remove_of_shared hr hshared (sameTraps_cutTrap hs hfirst.1.1)
  · rw [if_neg hshared] at hsafe
    obtain ⟨hfirst, hbase, htrack⟩ := hsafe
    rw [ownerGuess_eq_some_iff.2 hfirst]
    show TrapInvariant (removeIoTrapRecord (if _ then _ else _) _)
    rw [if_pos (trpregAd_eq_iff.2 hbase)]
    exact hs.remove_of_disable hr hshared htrack

end UnRegister

/-! ### Runs -/

/-- The condition on a call, on its arguments and the state before it. A call that is refused by the
argument checks, by the ready-to-lock event or for its handle is always safe. -/
def ReleaseSafe (s : IoTrapInstance) : IoTrapCall → Prop
  | .register alloc _ context =>
    ioTrapCheck context = true → s.smi.readyToLock = false → RegisterSafe alloc context
  | .unRegister dispatchHandle => s.smi.readyToLock = false →
    ∀ r ∈ s.callbackDataBase, dispatchHandle = some r.link → UnRegisterSafe s r

instance (s : IoTrapInstance) (call : IoTrapCall) : Decidable (ReleaseSafe s call) := by
  cases call <;> unfold ReleaseSafe <;> infer_instance

/-- The driver, call by call, from a state without children in which every trap register is clear.
The rest of the platform's registers and the other records of the dispatcher may be anything. -/
def ioTrapSystem : LabelledSystem IoTrapInstance IoTrapCall where
  init s := s.callbackDataBase = [] ∧ (∀ n, s.low n = 0) ∧ (∀ n, s.trackIoResource n = false) ∧
    s.ioSpace = [] ∧ ∀ n, s.nvsIoTrapStatus n = false
  step s call s' := s' = ioTrapNext s call

theorem trapInvariant_of_init {s : IoTrapInstance} (h : ioTrapSystem.init s) :
    TrapInvariant s := by
  obtain ⟨hdb, hlow, htrack, hspace, hacpi⟩ := h
  have hfree : ∀ n, s.IsFree n := by
    intro n
    rw [IoTrapInstance.IsFree, hlow]
    decide
  have hinUse : ∀ n, ¬ s.InUse n := by
    intro n
    simp [IoTrapInstance.InUse, hdb]
  refine ⟨fun n ↦ ?_, fun n ↦ ?_, fun n hn ↦ absurd (hfree n) hn, ?_, ?_, fun n hn ↦ ?_, ?_,
    fun n hn ↦ ?_⟩
  · exact iff_of_false (not_not_intro (hfree n)) (hinUse n)
  · rw [IoTrapInstance.Enabled, hlow]
    exact iff_of_false (by decide) (not_not_intro (hfree n))
  · simp [hdb]
  · simp [hdb]
  · simp [htrack] at hn
  · simp [hspace]
  · simp [hacpi] at hn

/-- **A safe call keeps the invariant.** -/
theorem TrapInvariant.next {s : IoTrapInstance} (hs : TrapInvariant s) {call : IoTrapCall}
    (hsafe : ReleaseSafe s call) : TrapInvariant (ioTrapNext s call) := by
  cases call with
  | register alloc dispatchFunction context => exact hs.ioTrapRegister hsafe
  | unRegister dispatchHandle =>
    cases dispatchHandle with
    | none => exact hs
    | some link =>
      simp only [ioTrapNext, ioTrapUnRegister]
      split
      · exact hs
      · split
        · exact hs
        · rename_i hlock _ r hfind
          have hr := List.mem_of_find?_eq_some hfind
          have hlink : r.link = link := by simpa using List.find?_some hfind
          subst hlink
          exact hs.releaseTrap hr (hsafe (by simpa using hlock) r hr rfl)

/-- **Traps are released with their last child**, after every call of every run whose calls are all
safe. -/
theorem trapsReleased_of_reachable {s : IoTrapInstance}
    (h : ioTrapSystem.ReachableUnder ReleaseSafe s) : TrapsReleased s :=
  (LabelledSystem.ReachableUnder.invariant (fun _ hinit ↦ trapInvariant_of_init hinit)
    (fun _ _ _ _ hs hsafe hstep ↦ hstep ▸ hs.next hsafe) h).trapsReleased

/-- Both records are allocated, and the I/O space map has room at port 0x2000. -/
def pageAllocated : IoTrapAllocation := ⟨some ⟨0x2000, by decide⟩, true, true⟩

theorem initial_reachable (ok : IoTrapInstance → IoTrapCall → Prop) :
    ioTrapSystem.ReachableUnder ok .initial :=
  .init ⟨rfl, by decide, fun _ ↦ rfl, rfl, fun _ ↦ rfl⟩

/-- A run of safe calls: an explicit range, two children of a pool, then the second child and the
explicit range are given back. -/
theorem trapsReleased_explicitAndPool :
    TrapsReleased ([.register pageAllocated 1 ⟨0x100, 8, .readWriteTrap⟩,
      .register pageAllocated 2 ⟨0, 16, .writeTrap⟩, .register pageAllocated 3 ⟨0, 32, .readTrap⟩,
      .unRegister (some 4), .unRegister (some 1)].foldl ioTrapNext .initial) :=
  trapsReleased_of_reachable
    (LabelledSystem.ReachableUnder.foldl (fun _ _ ↦ rfl) (initial_reachable _) (by decide))

/-- A child of a pool is registered and unregistered: its trap stays enabled, with no child
left. -/
theorem not_trapsReleased_pool :
    ¬ ∀ calls : List IoTrapCall, TrapsReleased (calls.foldl ioTrapNext .initial) := by
  intro h
  have hreleased := h [.register pageAllocated 1 ⟨0, 16, .readWriteTrap⟩, .unRegister (some 1)]
  exact absurd ((hreleased.enabled_iff ⟨0, by decide⟩).1 (by decide)) (by decide)

end PurleyFirmware.PchSmi
