import Mathlib.Data.List.Pairwise
import PurleyFirmware.PchSmi.IoTrapRelease

/-!
# The common pool of I/O ports

A child that asks for address zero gets ports from a pool: a trap of 256 bytes in a range of the I/O
space map. The first child of a pool gets its start, each further one what follows, for as long as
the pool has more room than is asked for. Nothing rounds the offset, so a child may get an address
that the same function would refuse if it were asked for it: `along_poolLaw_iff` says on which
sequences of requests that does not happen.
-/

namespace PurleyFirmware.PchSmi

/-! ### The address check -/

/-- A range of `length` ports at `address` keeps to the alignment that the traps need. -/
def KeepsAlignment (address length : ℕ) : Prop :=
  (4 ≤ length → length ∣ address) ∧ (length < 4 → address % 4 + length ≤ 4)

instance (address length : ℕ) : Decidable (KeepsAlignment address length) :=
  inferInstanceAs (Decidable (_ ∧ _))

/-- The lengths that are a power of two, or three. -/
theorem mem_mLengthTable_of_and :
    ∀ length < 257, 1 ≤ length → length &&& (length - 1) = 0 → length ∈ mLengthTable := by
  decide +kernel

theorem and_of_mem_mLengthTable :
    ∀ length ∈ mLengthTable, 1 ≤ length ∧ length ≤ 256 ∧
      (length &&& (length - 1) = 0 ∨ length = 3) := by
  decide

/-- A length of the table from four on is a power of two. -/
theorem exists_two_pow : ∀ length ∈ mLengthTable, 4 ≤ length → ∃ k < 9, length = 2 ^ k := by
  decide

theorem and_eq_zero_iff {x y : BitVec 16} : x &&& y = 0 ↔ x.toNat &&& y.toNat = 0 := by
  rw [← BitVec.toNat_inj, BitVec.toNat_and]
  rfl

theorem toNat_sub_one {x : BitVec 16} (h : 1 ≤ x.toNat) : (x - 1).toNat = x.toNat - 1 :=
  BitVec.toNat_sub_of_le (BitVec.le_def.2 h)

/-- The low bits of an address are zero where the length divides it. -/
theorem and_sub_one_eq_zero_iff {address length : ℕ} (hlength : length ∈ mLengthTable)
    (hfour : 4 ≤ length) : address &&& (length - 1) = 0 ↔ length ∣ address := by
  obtain ⟨k, -, rfl⟩ := exists_two_pow length hlength hfour
  rw [Nat.and_two_pow_sub_one_eq_mod, Nat.dvd_iff_mod_eq_zero]

/-- What the argument checks ask for. -/
theorem ioTrapCheck_iff (context : IoTrapContext) :
    ioTrapCheck context = true ↔
      context.type ≠ .ioTrapTypeMaximum ∧ context.length.toNat ∈ mLengthTable ∧
        KeepsAlignment context.address.toNat context.length.toNat := by
  have hmod : context.address &&& 3 = 0 ↔ context.address.toNat % 4 = 0 := by
    rw [and_eq_zero_iff, ← Nat.and_two_pow_sub_one_eq_mod context.address.toNat 2]
    rfl
  by_cases hone : 1 ≤ context.length.toNat
  · have hpower : context.length &&& (context.length - 1) = 0 ↔
        context.length.toNat &&& (context.length.toNat - 1) = 0 := by
      rw [and_eq_zero_iff, toNat_sub_one hone]
    have hlow : context.address &&& (context.length - 1) = 0 ↔
        context.address.toNat &&& (context.length.toNat - 1) = 0 := by
      rw [and_eq_zero_iff, toNat_sub_one hone]
    simp only [ioTrapCheck, KeepsAlignment, Bool.and_eq_true, Bool.or_eq_true, Bool.not_eq_true',
      Bool.and_eq_false_iff, Bool.or_eq_false_iff, bne_iff_ne, beq_iff_eq, decide_eq_true_eq,
      decide_eq_false_iff_not, bne_eq_false_iff_eq, hmod, hpower, hlow]
    constructor
    · rintro ⟨⟨⟨⟨htype, -, hmax⟩, hkind⟩, hdword, hshort⟩, hlong⟩
      have hlength : context.length.toNat ∈ mLengthTable := by
        rcases hkind with hkind | hkind
        · exact mem_mLengthTable_of_and _ (by omega) hone hkind
        · rw [hkind]
          decide
      refine ⟨htype, hlength, fun hfour ↦ ?_, fun hfour ↦ ?_⟩
      · exact (and_sub_one_eq_zero_iff hlength hfour).1 (hlong.resolve_left (not_not_intro hfour))
      · exact not_lt.1 (hshort.resolve_left (not_not_intro hfour))
    · rintro ⟨htype, hlength, hlong, hshort⟩
      obtain ⟨-, hmax, hkind⟩ := and_of_mem_mLengthTable _ hlength
      refine ⟨⟨⟨⟨htype, hone, hmax⟩, hkind⟩, ?_, ?_⟩, ?_⟩
      · rcases lt_or_ge context.length.toNat 4 with hfour | hfour
        · exact Or.inl (not_le.2 hfour)
        · have hdvd : 4 ∣ context.length.toNat := by
            obtain ⟨k, -, hk⟩ := exists_two_pow _ hlength hfour
            have htwo : 2 ≤ k := by
              by_contra hlt
              have hle : 2 ^ k ≤ 2 ^ 1 := Nat.pow_le_pow_right (by decide) (by omega)
              omega
            rw [hk]
            exact pow_dvd_pow 2 htwo
          exact Or.inr (Nat.dvd_iff_mod_eq_zero.1 (hdvd.trans (hlong hfour)))
      · rcases lt_or_ge context.length.toNat 4 with hfour | hfour
        · exact Or.inr (not_lt.2 (hshort hfour))
        · exact Or.inl (not_lt.2 hfour)
      · rcases lt_or_ge context.length.toNat 4 with hfour | hfour
        · exact Or.inl (not_le.2 hfour)
        · exact Or.inr ((and_sub_one_eq_zero_iff hlength hfour).2 (hlong hfour))
  · refine iff_of_false (fun hcheck ↦ ?_) fun h ↦ hone (and_of_mem_mLengthTable _ h.2.1).1
    simp only [ioTrapCheck, Bool.and_eq_true, decide_eq_true_eq] at hcheck
    exact hone hcheck.1.1.1.2.1

/-! ### The trap that serves a request -/

namespace IoTrapInstance

variable (s : IoTrapInstance)

/-- The trap is a pool with more than `length` ports left. -/
def HasRoom (length : ℕ) (n : Fin ioTrapHandlerNum) : Prop :=
  s.mergeDisable n = false ∧ s.trapUsedLength n < 256 ∧ 256#32 ≤ trpregUsedLength (s.low n) ∧
    length < 256 - s.trapUsedLength n

instance (length : ℕ) (n : Fin ioTrapHandlerNum) : Decidable (s.HasRoom length n) :=
  inferInstanceAs (Decidable (_ ∧ _))

/-- The trap that serves a request for `length` ports of the pool: the first one that is free or has
room. -/
def poolTrap (length : ℕ) : Option (Fin ioTrapHandlerNum) :=
  (List.finRange ioTrapHandlerNum).find? fun n ↦ s.IsFree n ∨ s.HasRoom length n

end IoTrapInstance

section Search

variable {s s' : IoTrapInstance} {n : Fin ioTrapHandlerNum} {alloc : IoTrapAllocation}
  {context context' : IoTrapContext}

/-- What a pool gives a child: the ports from `address` on. -/
def IoTrapContext.at (context : IoTrapContext) (address : BitVec 16) : IoTrapContext :=
  { context with address := address }

/-- A used trap has no answer to a request for the pool exactly where it has no room. -/
theorem shareUsedTrap_of_not_hasRoom (h : ¬ s.HasRoom context.length.toNat n) :
    shareUsedTrap s context n = .next := by
  rw [shareUsedTrap]
  split
  · rfl
  split
  · rfl
  split
  · rfl
  split
  · rfl
  · rename_i hmerge hused hlength hroom
    refine absurd ⟨?_, not_le.1 hused, BitVec.not_lt.1 hlength, not_le.1 hroom⟩ h
    exact Bool.eq_false_iff.2 fun hdisable ↦ hmerge (Or.inr hdisable)

/-- A pool with room gives what follows the ports in use. -/
theorem shareUsedTrap_of_hasRoom (haddress : context.address = 0)
    (h : s.HasRoom context.length.toNat n) :
    ∃ s', shareUsedTrap s context n = .take s'
        (context.at (s.trapBase n + BitVec.ofNat 16 (s.trapUsedLength n))) ∧
      s'.trapUsedLength = Function.update s.trapUsedLength n
        (s.trapUsedLength n + context.length.toNat) := by
  obtain ⟨hmerge, hused, hlength, hroom⟩ := h
  have hnext : ¬ (context.address ≠ 0 ∨ s.mergeDisable n = true) := by
    rw [haddress, hmerge]
    decide
  rw [shareUsedTrap, if_neg hnext, if_neg (not_le.2 hused), if_neg (BitVec.not_lt.2 hlength),
    if_neg (not_le.2 hroom)]
  refine ⟨_, rfl, ?_⟩
  split <;> rfl

/-- A free trap always has an answer. -/
theorem takeFreeTrap_ne_next : takeFreeTrap s alloc context n ≠ .next := by
  rw [takeFreeTrap]
  split
  · split
    · intro h
      cases h
    · intro h
      cases h
  · intro h
    cases h

theorem searchTrap_cons_of_ne {ns : List (Fin ioTrapHandlerNum)}
    (h : (if s.IsFree n then takeFreeTrap s alloc context n else shareUsedTrap s context n) ≠
      .next) :
    searchTrap s alloc context (n :: ns) =
      (if s.IsFree n then takeFreeTrap s alloc context n else shareUsedTrap s context n,
        some n) := by
  rw [searchTrap]
  split
  · exact absurd ‹_› h
  · rfl

/-- The loop stops at the trap that serves the request. -/
theorem searchTrap_eq_find? (haddress : context.address = 0) (ns : List (Fin ioTrapHandlerNum)) :
    searchTrap s alloc context ns =
      match ns.find? fun n ↦ s.IsFree n ∨ s.HasRoom context.length.toNat n with
      | none => (.refuse .outOfResources, none)
      | some n =>
        (if s.IsFree n then takeFreeTrap s alloc context n else shareUsedTrap s context n,
          some n) := by
  induction ns with
  | nil => rfl
  | cons m ns ih =>
    rw [List.find?_cons]
    by_cases hserves : s.IsFree m ∨ s.HasRoom context.length.toNat m
    · rw [decide_eq_true hserves]
      refine searchTrap_cons_of_ne ?_
      split
      · exact takeFreeTrap_ne_next
      · obtain ⟨t, ht, -⟩ := shareUsedTrap_of_hasRoom haddress (hserves.resolve_left ‹_›)
        rw [ht]
        exact fun h ↦ nomatch h
    · rw [decide_eq_false hserves, searchTrap, if_neg fun h ↦ hserves (Or.inl h),
        shareUsedTrap_of_not_hasRoom fun h ↦ hserves (Or.inr h)]
      exact ih

/-- The internal registration touches the trap's register only, whether its record is allocated or
not. -/
theorem trpreg_pchInternalIoTrapSmiRegister {m : Fin ioTrapHandlerNum} (hm : m ≠ n) (b : Bool) :
    (pchInternalIoTrapSmiRegister s b n).2.smi.hw (trpreg m) = s.smi.hw (trpreg m) := by
  have hhw : (pchSmiRecordInsert s.smi b (mSrcDescIoTrap n) (some ioTrapCallbackName)
      .pchIoTrapSmiType).2.1.hw = s.smi.hw := by
    obtain ⟨status, -, h⟩ | h := pchSmiRecordInsert_cases s.smi b (mSrcDescIoTrap n)
      (some ioTrapCallbackName) .pchIoTrapSmiType
    · exact congrArg (fun result ↦ result.2.1.hw) h
    · exact congrArg (fun result ↦ result.2.1.hw) h
  calc (pchInternalIoTrapSmiRegister s b n).2.smi.hw (trpreg m)
      = (pchSmiRecordInsert s.smi b (mSrcDescIoTrap n) (some ioTrapCallbackName)
          .pchIoTrapSmiType).2.1.hw (trpreg m) :=
        (trpreg_enableSource hm).trans trpreg_clearSource
    _ = s.smi.hw (trpreg m) := by rw [hhw]

/-- A free trap becomes a pool in the range that `AllocateIoSpace` returns. -/
structure BecomesPool (s : IoTrapInstance) (n : Fin ioTrapHandlerNum) (base : BitVec 16)
    (length : ℕ) (s' : IoTrapInstance) : Prop where
  low : ∀ m, s'.low m = if m = n then trpregLowDword 256 base else s.low m
  trapUsedLength : s'.trapUsedLength = Function.update s.trapUsedLength n length
  ioSpace : s'.ioSpace = base :: s.ioSpace
  callbackDataBase : s'.callbackDataBase = s.callbackDataBase

theorem takeFreeTrap_becomesPool {range : IoRange} (haddress : context.address = 0)
    (hspace : alloc.ioSpace = some range) :
    ∃ s', takeFreeTrap s alloc context n = .take s' (context.at range.base) ∧
      BecomesPool s n range.base context.length.toNat s' := by
  rw [takeFreeTrap, if_pos haddress, hspace]
  refine ⟨_, rfl, fun m ↦ ?_, rfl, rfl, rfl⟩
  show pchPcrRead32 (setIoTrapHighDword (setIoTrapLowDword _ n _) n _) (trpreg m) = _
  rw [trpreg_setIoTrapHighDword, trpreg_setIoTrapLowDword]
  split
  · rfl
  · exact congrArg (BitVec.setWidth 32) (trpreg_pchInternalIoTrapSmiRegister ‹_› _)

end Search

/-! ### What the pools owe their children -/

/-- The ports lie in the pool that starts at `base`. -/
def InPool (base : BitVec 16) (c : IoTrapContext) : Prop :=
  base.toNat ≤ c.address.toNat ∧ c.address.toNat + c.length.toNat ≤ base.toNat + 256

/-- No port belongs to both. -/
def PortsApart (c c' : IoTrapContext) : Prop :=
  c.address.toNat + c.length.toNat ≤ c'.address.toNat ∨
    c'.address.toNat + c'.length.toNat ≤ c.address.toNat

instance (base : BitVec 16) (c : IoTrapContext) : Decidable (InPool base c) :=
  inferInstanceAs (Decidable (_ ∧ _))

instance (c c' : IoTrapContext) : Decidable (PortsApart c c') := inferInstanceAs (Decidable (_ ∨ _))

/-- What is expected of the ranges handed out. -/
structure PoolLaw (s : IoTrapInstance) : Prop where
  /-- Each lies in a range of 256 ports from the I/O space map. -/
  inside : ∀ r ∈ s.callbackDataBase, ∃ base ∈ s.ioSpace, InPool base r.context
  /-- No two share a port. -/
  apart : s.callbackDataBase.Pairwise fun r r' ↦ PortsApart r.context r'.context
  /-- Each would pass the checks as an explicit address. -/
  aligned : ∀ r ∈ s.callbackDataBase, ioTrapCheck r.context = true

/-- The invariant of runs in which the law holds. -/
structure PoolInvariant (s : IoTrapInstance) : Prop where
  law : PoolLaw s
  /-- Pools start at multiples of their size. -/
  mod_base : ∀ base ∈ s.ioSpace, base.toNat % 256 = 0
  /-- A trap in use is a pool. -/
  trapBase_mem : ∀ n, ¬ s.IsFree n → s.trapBase n ∈ s.ioSpace
  /-- No two traps are the same pool. -/
  trapBase_injective : ∀ n m, ¬ s.IsFree n → ¬ s.IsFree m → s.trapBase n = s.trapBase m → n = m
  /-- The children of a pool are below its offset. -/
  bound : ∀ n, ¬ s.IsFree n → ∀ r ∈ s.callbackDataBase, InPool (s.trapBase n) r.context →
    r.context.address.toNat + r.context.length.toNat ≤
      (s.trapBase n).toNat + s.trapUsedLength n

/-- The data that a request leaves behind, before the child's record is inserted: the child's ports
are its own, but perhaps not aligned. -/
structure Serves (s : IoTrapInstance) (c : IoTrapContext) : Prop where
  pool : PoolInvariant s
  inside : ∃ base ∈ s.ioSpace, InPool base c
  apart : ∀ r ∈ s.callbackDataBase, PortsApart r.context c
  bound : ∀ n, ¬ s.IsFree n → InPool (s.trapBase n) c →
    c.address.toNat + c.length.toNat ≤ (s.trapBase n).toNat + s.trapUsedLength n

section Pools

variable {s s' : IoTrapInstance} {n : Fin ioTrapHandlerNum} {base base' : BitVec 16}
  {c c' : IoTrapContext}

/-- Pools are blocks, so the ports of different pools are apart. -/
theorem portsApart_of_ne (hbase : base.toNat % 256 = 0) (hbase' : base'.toNat % 256 = 0)
    (hne : base ≠ base') (hc : InPool base c) (hc' : InPool base' c') : PortsApart c c' := by
  have hne' : base.toNat ≠ base'.toNat := fun h ↦ hne (BitVec.eq_of_toNat_eq h)
  obtain ⟨hlow, hhigh⟩ := hc
  obtain ⟨hlow', hhigh'⟩ := hc'
  rw [PortsApart]
  omega

/-- Ports lie in one pool only. -/
theorem InPool.unique (hbase : base.toNat % 256 = 0) (hbase' : base'.toNat % 256 = 0)
    (hlength : 1 ≤ c.length.toNat) (hc : InPool base c) (hc' : InPool base' c) : base = base' := by
  by_contra hne
  have happart := portsApart_of_ne hbase hbase' hne hc hc'
  rw [PortsApart] at happart
  omega

theorem one_le_of_ioTrapCheck (h : ioTrapCheck c = true) : 1 ≤ c.length.toNat :=
  (and_of_mem_mLengthTable _ ((ioTrapCheck_iff c).1 h).2.1).1

/-- The law with one more child: only the alignment is open. -/
theorem Serves.poolLaw_iff (h : Serves s c) (callback : ℕ) (n : Fin ioTrapHandlerNum) :
    PoolLaw (insertIoTrapRecord s c callback n) ↔ ioTrapCheck c = true := by
  refine ⟨fun hlaw ↦ hlaw.aligned _ (List.mem_append_right _ List.mem_cons_self), fun hcheck ↦
    ⟨fun r hr ↦ ?_, ?_, fun r hr ↦ ?_⟩⟩
  · obtain hold | hnew := List.mem_append.1 hr
    · exact h.pool.law.inside r hold
    · rw [List.mem_singleton.1 hnew]
      exact h.inside
  · refine List.pairwise_append.2 ⟨h.pool.law.apart, List.pairwise_singleton _ _, ?_⟩
    intro r hr r' hr'
    rw [List.mem_singleton.1 hr']
    exact h.apart r hr
  · obtain hold | hnew := List.mem_append.1 hr
    · exact h.pool.law.aligned r hold
    · rw [List.mem_singleton.1 hnew]
      exact hcheck

theorem Serves.insert (h : Serves s c) (hcheck : ioTrapCheck c = true) (callback : ℕ)
    (n : Fin ioTrapHandlerNum) : PoolInvariant (insertIoTrapRecord s c callback n) := by
  refine ⟨(h.poolLaw_iff callback n).2 hcheck, h.pool.mod_base, h.pool.trapBase_mem,
    h.pool.trapBase_injective, fun m hm r hr hin ↦ ?_⟩
  obtain hold | hnew := List.mem_append.1 hr
  · exact h.pool.bound m hm r hold hin
  · rw [List.mem_singleton.1 hnew] at hin ⊢
    exact h.bound m hm hin

/-- Writing nothing but another trap's register leaves a trap as it was. -/
theorem isFree_congr {m : Fin ioTrapHandlerNum} (h : s'.low m = s.low m) :
    s'.IsFree m ↔ s.IsFree m := by
  rw [IoTrapInstance.IsFree, IoTrapInstance.IsFree, h]

theorem trapBase_congr {m : Fin ioTrapHandlerNum} (h : s'.low m = s.low m) :
    s'.trapBase m = s.trapBase m := by
  rw [IoTrapInstance.trapBase, IoTrapInstance.trapBase, h]

theorem BecomesPool.trapBase {length : ℕ} (h : BecomesPool s n base length s')
    (hbase : base.toNat % 256 = 0) : s'.trapBase n = base := by
  have hdword : base &&& 3 = 0 := by
    have hmask : (3 : BitVec 16).toNat = 2 ^ 2 - 1 := rfl
    rw [and_eq_zero_iff, hmask, Nat.and_two_pow_sub_one_eq_mod]
    omega
  rw [IoTrapInstance.trapBase, h.low, if_pos rfl, trpregAd_lowDword hdword]
  exact BitVec.setWidth_setWidth_of_le _ (by decide)

/-- A new pool serves its first child. -/
theorem PoolInvariant.becomesPool (hs : PoolInvariant s)
    (h : BecomesPool s n base c.length.toNat s') (hbase : base.toNat % 256 = 0)
    (hfresh : base ∉ s.ioSpace) (hlength : c.length.toNat ∈ mLengthTable) :
    Serves s' (c.at base) := by
  obtain ⟨hmin, hmax, -⟩ := and_of_mem_mLengthTable _ hlength
  have htrapBase := h.trapBase hbase
  have hlow : ∀ m, m ≠ n → s'.low m = s.low m := fun m hm ↦ (h.low m).trans (if_neg hm)
  have hused : ∀ m, m ≠ n → s'.trapUsedLength m = s.trapUsedLength m := fun m hm ↦ by
    rw [h.trapUsedLength, Function.update_of_ne hm]
  have hold : ∀ m, m ≠ n → ¬ s'.IsFree m → ¬ s.IsFree m ∧ s'.trapBase m = s.trapBase m :=
    fun m hm hfree ↦ ⟨mt (isFree_congr (hlow m hm)).2 hfree, trapBase_congr (hlow m hm)⟩
  have hnew : InPool base (c.at base) := ⟨le_refl _, Nat.add_le_add_left hmax _⟩
  -- the children of the other pools are none of the new one
  have hother : ∀ r ∈ s.callbackDataBase, ∃ base' ∈ s.ioSpace, base' ≠ base ∧
      InPool base' r.context := by
    intro r hr
    obtain ⟨base', hmem, hin⟩ := hs.law.inside r hr
    exact ⟨base', hmem, fun heq ↦ hfresh (heq ▸ hmem), hin⟩
  have hmod : ∀ base' ∈ s'.ioSpace, base'.toNat % 256 = 0 := by
    rw [h.ioSpace]
    exact List.forall_mem_cons.2 ⟨hbase, hs.mod_base⟩
  refine ⟨⟨⟨fun r hr ↦ ?_, ?_, ?_⟩, hmod, fun m hm ↦ ?_, fun m k hm hk heq ↦ ?_,
    fun m hm r hr hin ↦ ?_⟩, ⟨base, ?_, hnew⟩, fun r hr ↦ ?_, fun m hm hin ↦ ?_⟩
  · rw [h.callbackDataBase] at hr
    rw [h.ioSpace]
    obtain ⟨base', hmem, -, hin⟩ := hother r hr
    exact ⟨base', List.mem_cons_of_mem _ hmem, hin⟩
  · rw [h.callbackDataBase]
    exact hs.law.apart
  · rw [h.callbackDataBase]
    exact hs.law.aligned
  · rw [h.ioSpace]
    by_cases hmn : m = n
    · rw [hmn, htrapBase]
      exact List.mem_cons_self
    · obtain ⟨hfree, heq⟩ := hold m hmn hm
      rw [heq]
      exact List.mem_cons_of_mem _ (hs.trapBase_mem m hfree)
  · by_cases hmn : m = n
    · by_cases hkn : k = n
      · rw [hmn, hkn]
      · obtain ⟨hfree, hk'⟩ := hold k hkn hk
        rw [hmn, htrapBase, hk'] at heq
        exact absurd (heq ▸ hs.trapBase_mem k hfree) hfresh
    · obtain ⟨hfree, hm'⟩ := hold m hmn hm
      by_cases hkn : k = n
      · rw [hkn, htrapBase, hm'] at heq
        exact absurd (heq ▸ hs.trapBase_mem m hfree) hfresh
      · obtain ⟨hfree', hk'⟩ := hold k hkn hk
        rw [hm', hk'] at heq
        exact hs.trapBase_injective m k hfree hfree' heq
  · rw [h.callbackDataBase] at hr
    by_cases hmn : m = n
    · rw [hmn, htrapBase] at hin
      obtain ⟨base', hmem, hne, hin'⟩ := hother r hr
      exact absurd (hin'.unique (hs.mod_base base' hmem) hbase
        (one_le_of_ioTrapCheck (hs.law.aligned r hr)) hin) hne
    · obtain ⟨hfree, heq⟩ := hold m hmn hm
      rw [heq] at hin ⊢
      rw [hused m hmn]
      exact hs.bound m hfree r hr hin
  · rw [h.ioSpace]
    exact List.mem_cons_self
  · rw [h.callbackDataBase] at hr
    obtain ⟨base', hmem, hne, hin⟩ := hother r hr
    exact portsApart_of_ne (hs.mod_base base' hmem) hbase hne hin hnew
  · by_cases hmn : m = n
    · rw [hmn, htrapBase, h.trapUsedLength, Function.update_self]
      exact le_refl _
    · obtain ⟨hfree, heq⟩ := hold m hmn hm
      rw [heq] at hin
      have hmem := hs.trapBase_mem m hfree
      rw [InPool.unique (c := c.at base) (hs.mod_base _ hmem) hbase hmin hin hnew] at hmem
      exact absurd hmem hfresh

/-- The ports of a pool do not wrap around. -/
theorem toNat_trapBase_add (hmod : (s.trapBase n).toNat % 256 = 0)
    (hlt : s.trapUsedLength n < 256) :
    (s.trapBase n + BitVec.ofNat 16 (s.trapUsedLength n)).toNat =
      (s.trapBase n).toNat + s.trapUsedLength n := by
  have hbound := (s.trapBase n).isLt
  rw [BitVec.toNat_add, BitVec.toNat_ofNat, Nat.add_mod_mod]
  exact Nat.mod_eq_of_lt (by omega)

/-- A pool with room serves a further child. -/
theorem PoolInvariant.shares (hs : PoolInvariant s) (hfree : ¬ s.IsFree n)
    (hroom : s.HasRoom c.length.toNat n) (hlength : 1 ≤ c.length.toNat)
    (hlow : ∀ m, s'.low m = s.low m) (hspace : s'.ioSpace = s.ioSpace)
    (hdb : s'.callbackDataBase = s.callbackDataBase)
    (hused : s'.trapUsedLength = Function.update s.trapUsedLength n
      (s.trapUsedLength n + c.length.toNat)) :
    Serves s' (c.at (s.trapBase n + BitVec.ofNat 16 (s.trapUsedLength n))) := by
  obtain ⟨-, hlt, -, hless⟩ := hroom
  have hmem := hs.trapBase_mem n hfree
  have hmod := hs.mod_base _ hmem
  have haddress := toNat_trapBase_add hmod hlt
  have hnew : InPool (s.trapBase n)
      (c.at (s.trapBase n + BitVec.ofNat 16 (s.trapUsedLength n))) := by
    constructor
    · exact le_of_le_of_eq (Nat.le_add_right _ _) haddress.symm
    · exact le_of_eq_of_le (congrArg (· + c.length.toNat) haddress) (by omega)
  have hle : ∀ m, s.trapUsedLength m ≤ s'.trapUsedLength m := by
    intro m
    rw [hused, Function.update_apply]
    split
    · rw [‹m = n›]
      exact Nat.le_add_right _ _
    · exact le_refl _
  have hfree' : ∀ m, ¬ s'.IsFree m → ¬ s.IsFree m := fun m ↦ mt (isFree_congr (hlow m)).2
  have hbase' : ∀ m, s'.trapBase m = s.trapBase m := fun m ↦ trapBase_congr (hlow m)
  refine ⟨⟨⟨?_, ?_, ?_⟩, ?_, fun m hm ↦ ?_, fun m k hm hk heq ↦ ?_, fun m hm r hr hin ↦ ?_⟩,
    ⟨s.trapBase n, hspace ▸ hmem, hnew⟩, fun r hr ↦ ?_, fun m hm hin ↦ ?_⟩
  · rw [hdb, hspace]
    exact hs.law.inside
  · rw [hdb]
    exact hs.law.apart
  · rw [hdb]
    exact hs.law.aligned
  · rw [hspace]
    exact hs.mod_base
  · rw [hspace, hbase']
    exact hs.trapBase_mem m (hfree' m hm)
  · rw [hbase', hbase'] at heq
    exact hs.trapBase_injective m k (hfree' m hm) (hfree' k hk) heq
  · rw [hbase'] at hin ⊢
    exact (hs.bound m (hfree' m hm) r (hdb ▸ hr) hin).trans (Nat.add_le_add_left (hle m) _)
  · -- what the pool gave before is below its offset
    rw [hdb] at hr
    obtain ⟨base', hmem', hin⟩ := hs.law.inside r hr
    by_cases hne : base' = s.trapBase n
    · rw [hne] at hin
      exact Or.inl ((hs.bound n hfree r hr hin).trans haddress.ge)
    · exact portsApart_of_ne (hs.mod_base base' hmem') hmod hne hin hnew
  · rw [hbase'] at hin ⊢
    have hsame := InPool.unique (c := c.at (s.trapBase n + BitVec.ofNat 16 (s.trapUsedLength n)))
      (hs.mod_base _ (hs.trapBase_mem m (hfree' m hm))) hmod hlength hin hnew
    obtain rfl := hs.trapBase_injective m n (hfree' m hm) hfree hsame
    rw [hused, Function.update_self, ← Nat.add_assoc, ← haddress]
    exact le_refl _

end Pools

/-! ### Sequences of requests -/

/-- The call asks for ports of the pool, and `AllocateIoSpace` does not return a range twice. -/
def PoolRequest (s : IoTrapInstance) : IoTrapCall → Prop
  | .register alloc _ context =>
    context.address = 0 ∧ ∀ range ∈ alloc.ioSpace, range.base ∉ s.ioSpace
  | .unRegister _ => False

/-- If a pool in use serves the request, the pool's offset suits the length. A request that is
refused, or served by a new pool, always fits. -/
def FitsPool (s : IoTrapInstance) : IoTrapCall → Prop
  | .register alloc _ context =>
    ioTrapCheck context = true → s.smi.readyToLock = false → alloc.record = true →
      ∀ n ∈ s.poolTrap context.length.toNat, ¬ s.IsFree n →
        KeepsAlignment (s.trapUsedLength n) context.length.toNat
  | .unRegister _ => True

theorem poolRequest_register_iff {s : IoTrapInstance} {alloc : IoTrapAllocation} {callback : ℕ}
    {context : IoTrapContext} :
    PoolRequest s (.register alloc callback context) ↔
      context.address = 0 ∧ ∀ range ∈ alloc.ioSpace, range.base ∉ s.ioSpace := Iff.rfl

theorem not_poolRequest_unRegister {s : IoTrapInstance} {handle : Option ℕ} :
    ¬ PoolRequest s (.unRegister handle) := id

theorem fitsPool_register_iff {s : IoTrapInstance} {alloc : IoTrapAllocation} {callback : ℕ}
    {context : IoTrapContext} :
    FitsPool s (.register alloc callback context) ↔
      (ioTrapCheck context = true → s.smi.readyToLock = false → alloc.record = true →
        ∀ n ∈ s.poolTrap context.length.toNat, ¬ s.IsFree n →
          KeepsAlignment (s.trapUsedLength n) context.length.toNat) := Iff.rfl

theorem fitsPool_unRegister {s : IoTrapInstance} {handle : Option ℕ} :
    FitsPool s (.unRegister handle) := trivial

instance (s : IoTrapInstance) (call : IoTrapCall) : Decidable (PoolRequest s call) :=
  match call with
  | .register _ _ _ => decidable_of_iff _ poolRequest_register_iff.symm
  | .unRegister _ => isFalse not_poolRequest_unRegister

instance (s : IoTrapInstance) (call : IoTrapCall) : Decidable (FitsPool s call) :=
  match call with
  | .register _ _ _ => decidable_of_iff _ fitsPool_register_iff.symm
  | .unRegister _ => isTrue fitsPool_unRegister

section Runs

variable {s : IoTrapInstance} {call : IoTrapCall}

/-- The start of a pool suits every length. -/
theorem keepsAlignment_add {base used length : ℕ} (hbase : base % 256 = 0)
    (hlength : length ∈ mLengthTable) :
    KeepsAlignment (base + used) length ↔ KeepsAlignment used length := by
  have hdvd : ∀ length ∈ mLengthTable, 4 ≤ length → length ∣ 256 := by decide
  refine and_congr (imp_congr_right fun hfour ↦ ?_) (imp_congr_right fun _ ↦ ?_)
  · exact Nat.dvd_add_right ((hdvd length hlength hfour).trans (Nat.dvd_of_mod_eq_zero hbase))
  · rw [show (base + used) % 4 = used % 4 by omega]

theorem IoRange.toNat_mod (range : IoRange) : range.base.toNat % 256 = 0 := by
  have hmask : (0xFF : BitVec 16).toNat = 2 ^ 8 - 1 := rfl
  have haligned := and_eq_zero_iff.1 range.aligned
  rw [hmask, Nat.and_two_pow_sub_one_eq_mod] at haligned
  exact haligned

theorem keepsAlignment_zero (length : ℕ) : KeepsAlignment 0 length :=
  ⟨fun _ ↦ dvd_zero length, fun hfour ↦ by omega⟩

/-- The answer to a request for the pool. -/
theorem PoolInvariant.search {alloc : IoTrapAllocation} {context : IoTrapContext}
    (hs : PoolInvariant s) (haddress : context.address = 0)
    (hlength : context.length.toNat ∈ mLengthTable)
    (hfresh : ∀ range ∈ alloc.ioSpace, range.base ∉ s.ioSpace) :
    (∃ status o,
      searchTrap s alloc context (List.finRange ioTrapHandlerNum) = (.refuse status, o) ∧
        ∀ n ∈ s.poolTrap context.length.toNat, s.IsFree n) ∨
      ∃ n s' address, Serves s' (context.at address) ∧
        searchTrap s alloc context (List.finRange ioTrapHandlerNum) =
          (.take s' (context.at address), some n) ∧
        (KeepsAlignment address.toNat context.length.toNat ↔
          ∀ n ∈ s.poolTrap context.length.toNat, ¬ s.IsFree n →
            KeepsAlignment (s.trapUsedLength n) context.length.toNat) := by
  rw [searchTrap_eq_find? haddress, ← IoTrapInstance.poolTrap]
  cases htrap : s.poolTrap context.length.toNat with
  | none => exact Or.inl ⟨_, _, rfl, fun n hn ↦ nomatch hn⟩
  | some n =>
    dsimp only
    simp only [Option.mem_some_iff, forall_eq']
    by_cases hfree : s.IsFree n
    · rw [if_pos hfree]
      cases hspace : alloc.ioSpace with
      | none =>
        refine Or.inl ⟨.outOfResources, some n, ?_, hfree⟩
        rw [takeFreeTrap, if_pos haddress, hspace]
      | some range =>
        obtain ⟨s', htake, hpool⟩ := takeFreeTrap_becomesPool (s := s) (n := n) haddress hspace
        refine Or.inr ⟨n, s', range.base,
          hs.becomesPool hpool range.toNat_mod (hfresh range hspace) hlength, by rw [htake], ?_⟩
        refine iff_of_true ?_ fun hused ↦ absurd hfree hused
        exact (keepsAlignment_add range.toNat_mod hlength).2 (keepsAlignment_zero _)
    · rw [if_neg hfree]
      have hroom : s.HasRoom context.length.toNat n := by
        rw [IoTrapInstance.poolTrap] at htrap
        have hserves := List.find?_some htrap
        exact (of_decide_eq_true hserves).resolve_left hfree
      obtain ⟨s', htake, hused⟩ := shareUsedTrap_of_hasRoom haddress hroom
      obtain ⟨hlow, -, -, -, hdb, -, hspace, -⟩ := shareUsedTrap_take htake
      refine Or.inr ⟨n, s', _, hs.shares hfree hroom (and_of_mem_mLengthTable _ hlength).1 hlow
        hspace hdb hused, by rw [htake], ?_⟩
      have hmod := hs.mod_base _ (hs.trapBase_mem n hfree)
      rw [toNat_trapBase_add hmod hroom.2.1, keepsAlignment_add hmod hlength]
      exact ⟨fun h _ ↦ h, fun h ↦ h hfree⟩

/-- What a request for the pool comes to: nothing, or a trap that serves it, with or without a
record for the child. -/
theorem PoolInvariant.request (hs : PoolInvariant s) (hcall : PoolRequest s call) :
    (PoolInvariant (ioTrapNext s call) ∧ FitsPool s call) ∨
      ∃ s' c callback n, Serves s' c ∧
        ioTrapNext s call = insertIoTrapRecord s' c callback n ∧
          (ioTrapCheck c = true ↔ FitsPool s call) := by
  cases call with
  | unRegister handle => exact hcall.elim
  | register alloc callback context =>
    obtain ⟨haddress, hfresh⟩ := hcall
    rw [ioTrapNext, ioTrapRegister]
    cases hcheck : ioTrapCheck context with
    | false => exact Or.inl ⟨hs, fun h ↦ absurd (hcheck.symm.trans h) (by decide)⟩
    | true =>
    cases hlock : s.smi.readyToLock with
    | true => exact Or.inl ⟨hs, fun _ h ↦ absurd (hlock.symm.trans h) (by decide)⟩
    | false =>
    obtain ⟨htype, hlength, -⟩ := (ioTrapCheck_iff context).1 hcheck
    obtain ⟨status, o, hsearch, hfree⟩ | ⟨n, s', address, hserves, hsearch, hiff⟩ :=
      hs.search haddress hlength hfresh
    · rw [hsearch]
      exact Or.inl ⟨hs, fun _ _ _ n hn hused ↦ absurd (hfree n hn) hused⟩
    · rw [hsearch]
      cases hrecord : alloc.record with
      | false => exact Or.inl ⟨hserves.pool, fun _ _ h ↦ absurd (hrecord.symm.trans h) (by decide)⟩
      | true =>
        refine Or.inr ⟨s', context.at address, callback, n, hserves, rfl, ?_⟩
        rw [ioTrapCheck_iff]
        exact ⟨fun h _ _ _ ↦ hiff.1 h.2.2,
          fun h ↦ ⟨htype, hlength, hiff.2 (h hcheck hlock hrecord)⟩⟩

/-- The law holds after the call exactly where the request fits. -/
theorem PoolInvariant.poolLaw_iff (hs : PoolInvariant s) (hcall : PoolRequest s call) :
    PoolLaw (ioTrapNext s call) ↔ FitsPool s call := by
  obtain ⟨hpool, hfits⟩ | ⟨s', c, callback, n, hserves, hnext, hiff⟩ := hs.request hcall
  · exact iff_of_true hpool.law hfits
  · rw [hnext, hserves.poolLaw_iff, hiff]

/-- **A request that fits keeps the invariant.** -/
theorem PoolInvariant.next (hs : PoolInvariant s) (hcall : PoolRequest s call)
    (hlaw : PoolLaw (ioTrapNext s call)) : PoolInvariant (ioTrapNext s call) := by
  obtain ⟨hpool, -⟩ | ⟨s', c, callback, n, hserves, hnext, -⟩ := hs.request hcall
  · exact hpool
  · rw [hnext] at hlaw ⊢
    exact hserves.insert ((hserves.poolLaw_iff callback n).1 hlaw) callback n

theorem poolInvariant_of_init (h : ioTrapSystem.init s) : PoolInvariant s := by
  obtain ⟨hdb, hlow, -, hspace, -⟩ := h
  have hfree : ∀ n, s.IsFree n := by
    intro n
    rw [IoTrapInstance.IsFree, hlow]
    decide
  refine ⟨⟨?_, ?_, ?_⟩, ?_, fun n hn ↦ absurd (hfree n) hn, fun n _ hn ↦ absurd (hfree n) hn,
    fun n hn ↦ absurd (hfree n) hn⟩
  all_goals simp [hdb, hspace]

/-- **The pool gives out ports that are its own, of one child each, and aligned**, after every call
of a sequence of requests, if and only if every request that a used pool serves fits its offset. -/
theorem along_poolLaw_iff (hinit : ioTrapSystem.init s) {calls : List IoTrapCall}
    (hcalls : Along ioTrapNext PoolRequest s calls) :
    Along ioTrapNext (fun s call ↦ PoolLaw (ioTrapNext s call)) s calls ↔
      Along ioTrapNext FitsPool s calls :=
  along_iff_of_invariant (fun _ _ hs hcall hlaw ↦ hs.next hcall hlaw)
    (fun _ _ hs hcall ↦ hs.poolLaw_iff hcall) (poolInvariant_of_init hinit) hcalls

end Runs

/-- One pool, from which children get ports of the given lengths. -/
def onePool (first : BitVec 16) (others : List (BitVec 16)) : List IoTrapCall :=
  .register pageAllocated 1 ⟨0, first, .readWriteTrap⟩ ::
    others.map fun length ↦ .register ⟨none, true, true⟩ 1 ⟨0, length, .readWriteTrap⟩

/-- Longest first, the offset suits every length. -/
theorem along_poolLaw_longestFirst :
    Along ioTrapNext (fun s call ↦ PoolLaw (ioTrapNext s call)) .initial (onePool 16 [4, 2, 1]) :=
  (along_poolLaw_iff ⟨rfl, by decide, fun _ ↦ rfl, rfl, fun _ ↦ rfl⟩ (by decide)).2 (by decide)

/-- A byte and then a dword: the dword gets the second port of the pool. -/
theorem not_poolLaw_byteThenDword :
    ¬ ∀ calls, Along ioTrapNext PoolRequest .initial calls →
      PoolLaw (calls.foldl ioTrapNext .initial) := by
  intro hall
  have haligned := (hall (onePool 1 [4]) (by decide)).aligned
  exact absurd haligned (by decide)

end PurleyFirmware.PchSmi
