import PurleyFirmware.Mtrr.Decomposition
import PurleyFirmware.Mtrr.Precedence

/-!
# The request and the registers that it overlaps

`CombineMemoryAttribute` goes through the shadow once. A register with the type of the request is
put together with it, and taken away; one with another type is taken away if it has just this range,
and stays if the types may lie over each other. `Combining` is what the loop keeps. At its end
(`combineRequest_spec`) every register that still covers an address of the request has a type that
may lie over that of the request, or the request is covered by a register that has its type.

The range grows on the way, so a register that was passed may overlap it after all. It does not
overlap the request.
-/

namespace PurleyFirmware.Mtrr

variable {P : MtrrPlatform}

/-! ### Registers as they may be set -/

/-- An entry that a register may hold: a memory type for an aligned block of the address space. -/
structure VariableMtrr.WellFormed (P : MtrrPlatform) (v : VariableMtrr) : Prop where
  memoryType : IsMemoryType v.type
  block : IsBlock 12 v.baseAddress.toNat v.length.toNat
  inside : v.baseAddress.toNat + v.length.toNat ≤ 2 ^ addressBits P

/-- All registers of the firmware that are enabled hold such entries. -/
def WellFormedMtrrs (P : MtrrPlatform) (s : MtrrSettings) : Prop :=
  ∀ i, ((shadowMtrrs P s).1 i).valid = true → ((shadowMtrrs P s).1 i).WellFormed P

namespace VariableMtrr.WellFormed

variable {v : VariableMtrr}

theorem length_pos (h : v.WellFormed P) : 0 < v.length.toNat := by
  obtain ⟨k, -, hlength, -⟩ := h.block
  rw [hlength]
  exact Nat.two_pow_pos k

theorem pages (h : v.WellFormed P) :
    2 ^ 12 ∣ v.baseAddress.toNat ∧ 2 ^ 12 ∣ v.length.toNat := by
  obtain ⟨k, hk, hlength, hbase⟩ := h.block
  refine ⟨(Nat.pow_dvd_pow 2 hk).trans hbase, ?_⟩
  rw [hlength]
  exact Nat.pow_dvd_pow 2 hk

theorem lt (h : v.WellFormed P) : v.baseAddress.toNat + v.length.toNat ≤ 2 ^ 52 :=
  h.inside.trans (Nat.pow_le_pow_right (Nat.succ_pos 1) addressBits_le)

/-- The last address of the entry. -/
theorem toNat_last (h : v.WellFormed P) :
    v.last.toNat + 1 = v.baseAddress.toNat + v.length.toNat := by
  have hpos := h.length_pos
  have hlt := h.lt
  have hsane : v.Sane := ⟨hpos, by omega⟩
  have hlast := hsane.toNat_last
  omega

end VariableMtrr.WellFormed

/-! ### One turn -/

/-- The address is in the range. -/
def InRange (base length : BitVec 64) (a : ℕ) : Prop :=
  base.toNat ≤ a ∧ a < base.toNat + length.toNat

/-- The last address of a range. -/
theorem toNat_rangeLast {base length : BitVec 64} (hlength : length ≠ 0)
    (hends : base.toNat + length.toNat ≤ 2 ^ addressBits P) :
    (base + length - 1).toNat + 1 = base.toNat + length.toNat := by
  have hpos : 0 < length.toNat := Nat.pos_of_ne_zero fun h ↦ hlength (BitVec.eq_of_toNat_eq h)
  have hlimit : 2 ^ addressBits P ≤ 2 ^ 52 := Nat.pow_le_pow_right (Nat.succ_pos 1) addressBits_le
  have hone : (1 : BitVec 64).toNat = 1 := rfl
  rw [BitVec.toNat_sub, BitVec.toNat_add, hone]
  omega

/-- The turn passes over the entry. -/
def CombineVars.Passes (c : CombineVars) (i : ℕ) : Prop :=
  (c.shadow i).valid = false ∨ (c.shadow i).last < c.base ∨ c.endAddress < (c.shadow i).baseAddress

/-- The variables after an entry of the same type has been put together with the range. -/
def CombineVars.merge (c : CombineVars) (i : ℕ) : CombineVars :=
  let combineStart :=
    if c.base < (c.shadow i).baseAddress then c.base else (c.shadow i).baseAddress
  let combineEnd := if (c.shadow i).last < c.endAddress then c.endAddress else (c.shadow i).last
  { c.invalidateShadowMtrr i with
    base := combineStart
    length := combineEnd - combineStart + 1
    endAddress := combineEnd
    overwriteExistingMtrr := true }

/-- **What a turn does.** -/
inductive CombineTurn (attributes : BitVec 64) (c : CombineVars) (i : ℕ) : CombineVars → Prop
  | pass (h : c.Passes i) : CombineTurn attributes c i c
  | cover (hmeets : ¬ c.Passes i) (htype : (c.shadow i).type = attributes)
      (hbase : (c.shadow i).baseAddress ≤ c.base) (hlast : c.endAddress ≤ (c.shadow i).last) :
      CombineTurn attributes c i { c with coveredByExistingMtrr := true }
  | merge (hmeets : ¬ c.Passes i) (htype : (c.shadow i).type = attributes) :
      CombineTurn attributes c i (c.merge i)
  | replace (hmeets : ¬ c.Passes i) (htype : (c.shadow i).type ≠ attributes)
      (hbase : (c.shadow i).baseAddress = c.base) (hlast : (c.shadow i).last = c.endAddress) :
      CombineTurn attributes c i (c.invalidateShadowMtrr i)
  | keep (hmeets : ¬ c.Passes i) (htype : (c.shadow i).type ≠ attributes)
      (hmay : MayOverlap attributes (c.shadow i).type) :
      CombineTurn attributes c i { c with overwriteExistingMtrr := true }

theorem combineTurn {attributes : BitVec 64} {c c' : CombineVars} {i : ℕ}
    (h : combineStep attributes c i = .ok c') : CombineTurn attributes c i c' := by
  rw [combineStep] at h
  dsimp only at h
  split at h
  next hpass =>
    cases h
    exact .pass hpass
  next hmeets =>
    split at h
    next htype =>
      split at h
      next hcovers =>
        cases h
        exact .cover hmeets htype.symm hcovers.1 hcovers.2
      next =>
        cases h
        exact .merge hmeets htype.symm
    next htype =>
      split at h
      next hexact =>
        cases h
        exact .replace hmeets (Ne.symm htype) hexact.1 hexact.2
      next =>
        split at h
        next hmay =>
          cases h
          exact .keep hmeets (Ne.symm htype) hmay
        next => cases h

/-! ### The loop -/

/-- **What the loop keeps**, after `k` turns: the range has grown by entries that were taken away,
and the entries that stay may lie over the request. -/
structure Combining (P : MtrrPlatform) (shadow : ℕ → VariableMtrr)
    (attributes base length : BitVec 64) (k : ℕ) (c : CombineVars) : Prop where
  range : c.base.toNat + c.length.toNat = c.endAddress.toNat + 1
  base_le : c.base.toNat ≤ base.toNat
  le_end : base.toNat + length.toNat ≤ c.base.toNat + c.length.toNat
  ends : c.base.toNat + c.length.toNat ≤ 2 ^ addressBits P
  pages : 2 ^ 12 ∣ c.base.toNat ∧ 2 ^ 12 ∣ c.length.toNat
  ahead : ∀ i, k ≤ i → c.shadow i = shadow i
  entry : ∀ i, c.shadow i = shadow i ∨ c.shadow i = { shadow i with valid := false }
  kept : ∀ i < k, (c.shadow i).valid = true → ∀ a, InRange base length a → (shadow i).Contains a →
    ((shadow i).type = attributes ∧ c.coveredByExistingMtrr = true) ∨
      (MayOverlap attributes (shadow i).type ∧ c.overwriteExistingMtrr = true)
  covered : c.coveredByExistingMtrr = true → ∃ i < k, (c.shadow i).valid = true ∧
    (shadow i).type = attributes ∧ ∀ a, InRange base length a → (shadow i).Contains a
  removed : ∀ i, (shadow i).valid = true → (c.shadow i).valid = false → ∀ a,
    (shadow i).Contains a → InRange c.base c.length a
  alone : c.overwriteExistingMtrr = false → c.base = base ∧ c.length = length

section

variable {shadow : ℕ → VariableMtrr} {attributes base length : BitVec 64} {k : ℕ}
  {c c' : CombineVars}

theorem combining_start {usedMtrr : ℕ} (hlength : length ≠ 0)
    (hpages : 2 ^ 12 ∣ base.toNat ∧ 2 ^ 12 ∣ length.toNat)
    (hends : base.toNat + length.toNat ≤ 2 ^ addressBits P) :
    Combining P shadow attributes base length 0
      ⟨base, length, base + length - 1, shadow, usedMtrr, false, false⟩ := by
  exact ⟨(toNat_rangeLast hlength hends).symm, Nat.le_refl _, Nat.le_refl _, hends, hpages,
    fun _ _ ↦ rfl, fun _ ↦ .inl rfl, fun i hi ↦ absurd hi i.not_lt_zero, by rintro ⟨⟩,
    fun i hvalid hgone ↦ (by cases hvalid.symm.trans hgone), fun _ ↦ ⟨rfl, rfl⟩⟩

/-- An entry that is passed over has no address of the request. -/
theorem Combining.not_contains_of_passes (h : Combining P shadow attributes base length k c)
    {i : ℕ} (hwf : (shadow i).WellFormed P) (hsame : c.shadow i = shadow i)
    (hvalid : (shadow i).valid = true) (hpass : c.Passes i) {a : ℕ} (ha : InRange base length a) :
    ¬ (shadow i).Contains a := by
  intro hcontains
  have hlast := hwf.toNat_last
  have hrange := h.range
  have hbase := h.base_le
  have hend := h.le_end
  obtain ⟨hlow, hhigh⟩ := ha
  obtain ⟨hlow', hhigh'⟩ := hcontains
  rw [CombineVars.Passes, hsame, hvalid, BitVec.lt_def, BitVec.lt_def] at hpass
  rcases hpass with hfalse | hbelow | habove
  · cases hfalse
  · omega
  · omega

/-- The range after an entry has been put together with it. -/
theorem Combining.merge_range (h : Combining P shadow attributes base length k c) {i : ℕ}
    (hwf : (c.shadow i).WellFormed P) (hmeets : ¬ c.Passes i) :
    (c.merge i).base.toNat = min c.base.toNat (c.shadow i).baseAddress.toNat ∧
      (c.merge i).endAddress.toNat = max c.endAddress.toNat (c.shadow i).last.toNat ∧
      (c.merge i).base.toNat + (c.merge i).length.toNat = (c.merge i).endAddress.toNat + 1 := by
  have hlast := hwf.toNat_last
  have hinside := hwf.lt
  have hends := h.ends
  have hrange := h.range
  have hpos := hwf.length_pos
  have hlimit : 2 ^ addressBits P ≤ 2 ^ 52 := Nat.pow_le_pow_right (Nat.succ_pos 1) addressBits_le
  rw [CombineVars.Passes, not_or, not_or, BitVec.lt_def, BitVec.lt_def] at hmeets
  have hbase : (c.merge i).base.toNat = min c.base.toNat (c.shadow i).baseAddress.toNat := by
    show (if c.base < (c.shadow i).baseAddress then c.base
      else (c.shadow i).baseAddress).toNat = _
    split
    next hlt =>
      rw [BitVec.lt_def] at hlt
      omega
    next hge =>
      rw [BitVec.lt_def] at hge
      omega
  have hend : (c.merge i).endAddress.toNat = max c.endAddress.toNat (c.shadow i).last.toNat := by
    show (if (c.shadow i).last < c.endAddress then c.endAddress else (c.shadow i).last).toNat = _
    split
    next hlt =>
      rw [BitVec.lt_def] at hlt
      omega
    next hge =>
      rw [BitVec.lt_def] at hge
      omega
  refine ⟨hbase, hend, ?_⟩
  have hlength : (c.merge i).length = (c.merge i).endAddress - (c.merge i).base + 1 := rfl
  have hone : (1 : BitVec 64).toNat = 1 := rfl
  rw [hlength, BitVec.toNat_add, BitVec.toNat_sub, hone]
  omega

/-- Invalidating an entry changes no other one, and nothing but its validity. -/
theorem Combining.entry_invalidate (h : Combining P shadow attributes base length k c) (j i : ℕ) :
    (c.invalidateShadowMtrr j).shadow i = shadow i ∨
      (c.invalidateShadowMtrr j).shadow i = { shadow i with valid := false } := by
  by_cases hij : i = j
  · subst hij
    have hself : (c.invalidateShadowMtrr i).shadow i = { c.shadow i with valid := false } :=
      Function.update_self _ _ _
    right
    rcases h.entry i with heq | heq
    · rw [hself, heq]
    · rw [hself, heq]
  · have hother : (c.invalidateShadowMtrr j).shadow i = c.shadow i := Function.update_of_ne hij _ _
    rw [hother]
    exact h.entry i

theorem valid_invalidate {j i : ℕ}
    (h : ((c.invalidateShadowMtrr j).shadow i).valid = true) :
    i ≠ j ∧ (c.shadow i).valid = true := by
  have hij : i ≠ j := by
    rintro rfl
    have hself : (c.invalidateShadowMtrr i).shadow i = { c.shadow i with valid := false } :=
      Function.update_self _ _ _
    rw [hself] at h
    cases h
  have hother : (c.invalidateShadowMtrr j).shadow i = c.shadow i := Function.update_of_ne hij _ _
  exact ⟨hij, hother ▸ h⟩

/-- What has been taken away is in the range, if the entry at hand is in it. -/
theorem Combining.removed_invalidate (h : Combining P shadow attributes base length k c)
    {j : ℕ} {base' length' : BitVec 64}
    (hgrows : ∀ a, InRange c.base c.length a → InRange base' length' a)
    (hentry : ∀ a, (shadow j).Contains a → InRange base' length' a) (i : ℕ)
    (hvalid : (shadow i).valid = true)
    (hgone : ((c.invalidateShadowMtrr j).shadow i).valid = false) (a : ℕ)
    (ha : (shadow i).Contains a) : InRange base' length' a := by
  by_cases hij : i = j
  · rw [hij] at ha
    exact hentry a ha
  · have hother : (c.invalidateShadowMtrr j).shadow i = c.shadow i := Function.update_of_ne hij _ _
    rw [hother] at hgone
    exact hgrows a (h.removed i hvalid hgone a ha)

/-- The entry that covers the request stays: another one is at hand. -/
theorem Combining.covered_invalidate (h : Combining P shadow attributes base length k c)
    (hcovered : c.coveredByExistingMtrr = true) :
    ∃ i < k + 1, ((c.invalidateShadowMtrr k).shadow i).valid = true ∧
      (shadow i).type = attributes ∧ ∀ a, InRange base length a → (shadow i).Contains a := by
  obtain ⟨i, hi, hvalid, htype, hall⟩ := h.covered hcovered
  have hother : (c.invalidateShadowMtrr k).shadow i = c.shadow i :=
    Function.update_of_ne (Nat.ne_of_lt hi) _ _
  exact ⟨i, Nat.lt_succ_of_lt hi, hother ▸ hvalid, htype, hall⟩

/-- **A turn of the loop.** -/
theorem Combining.step (h : Combining P shadow attributes base length k c)
    (hwf : (shadow k).valid = true → (shadow k).WellFormed P)
    (hturn : CombineTurn attributes c k c') :
    Combining P shadow attributes base length (k + 1) c' := by
  have hsame : c.shadow k = shadow k := h.ahead k (Nat.le_refl k)
  have hahead : ∀ i, k + 1 ≤ i → c.shadow i = shadow i := fun i hi ↦
    h.ahead i (Nat.le_of_succ_le hi)
  have hmeeting (hmeets : ¬ c.Passes k) : (c.shadow k).valid = true :=
    Bool.of_not_eq_false fun hf ↦ hmeets (.inl hf)
  cases hturn with
  | pass hpass =>
    refine { h with ahead := hahead, kept := fun i hi hvalid a ha hcontains ↦ ?_, covered := ?_ }
    · rcases Nat.lt_or_eq_of_le (Nat.le_of_lt_succ hi) with hlt | rfl
      · exact h.kept i hlt hvalid a ha hcontains
      · rw [hsame] at hvalid
        exact absurd hcontains
          (h.not_contains_of_passes (hwf hvalid) hsame hvalid hpass ha)
    · intro hcovered
      obtain ⟨i, hi, hrest⟩ := h.covered hcovered
      exact ⟨i, Nat.lt_succ_of_lt hi, hrest⟩
  | cover hmeets htype hbase hlast =>
    have hvalid := hmeeting hmeets
    rw [hsame] at hvalid htype hbase hlast
    have hlast' := (hwf hvalid).toNat_last
    have hall : ∀ a, InRange base length a → (shadow k).Contains a := by
      intro a ha
      rw [BitVec.le_def] at hbase hlast
      have hrange := h.range
      have hlow := h.base_le
      have hhigh := h.le_end
      rw [InRange] at ha
      exact ⟨by omega, by omega⟩
    refine { h with
      ahead := hahead
      kept := fun i hi hvalid' a ha hcontains ↦ ?_
      covered := fun _ ↦ ⟨k, Nat.lt_succ_self k, hsame ▸ hvalid, htype, hall⟩ }
    rcases Nat.lt_or_eq_of_le (Nat.le_of_lt_succ hi) with hlt | rfl
    · exact (h.kept i hlt hvalid' a ha hcontains).imp_left fun hsame' ↦ ⟨hsame'.1, rfl⟩
    · exact .inl ⟨htype, rfl⟩
  | merge hmeets htype =>
    have hvalid := hmeeting hmeets
    have hwf' := hwf (hsame ▸ hvalid)
    obtain ⟨hbase, hend, hrange⟩ := h.merge_range (hsame.symm ▸ hwf') hmeets
    have hlast := hwf'.toNat_last
    have hpages := hwf'.pages
    have hinside := hwf'.inside
    have hrange' := h.range
    have hlow := h.base_le
    have hhigh := h.le_end
    have hends := h.ends
    have hcpages := h.pages
    rw [hsame] at hbase hend
    have hgrows : ∀ a, InRange c.base c.length a →
        InRange (c.merge k).base (c.merge k).length a := by
      intro a ha
      rw [InRange] at ha ⊢
      omega
    have hentry : ∀ a, (shadow k).Contains a → InRange (c.merge k).base (c.merge k).length a := by
      intro a ha
      rw [VariableMtrr.Contains] at ha
      rw [InRange]
      omega
    refine ⟨hrange, by omega, by omega, by omega, ⟨?_, ?_⟩, fun i hi ↦ ?_, h.entry_invalidate k,
      fun i hi hvalid' a ha hcontains ↦ ?_, h.covered_invalidate,
      h.removed_invalidate hgrows hentry, by rintro ⟨⟩⟩
    · rw [hbase]
      omega
    · omega
    · have hother : (c.merge k).shadow i = c.shadow i :=
        Function.update_of_ne (by omega : i ≠ k) _ _
      rw [hother, hahead i hi]
    · obtain ⟨hik, hvalid'⟩ := valid_invalidate hvalid'
      exact (h.kept i (by omega) hvalid' a ha hcontains).imp_right fun hmay ↦ ⟨hmay.1, rfl⟩
  | replace hmeets htype hbase hlast =>
    have hvalid := hmeeting hmeets
    have hwf' := hwf (hsame ▸ hvalid)
    have hlast' := hwf'.toNat_last
    have hrange := h.range
    rw [hsame] at hbase hlast
    have hentry : ∀ a, (shadow k).Contains a → InRange c.base c.length a := by
      intro a ha
      rw [VariableMtrr.Contains] at ha
      rw [InRange, ← hbase]
      rw [← hbase, ← hlast] at hrange
      omega
    refine { h with
      ahead := fun i hi ↦ ?_
      entry := h.entry_invalidate k
      kept := fun i hi hvalid' a ha hcontains ↦ ?_
      covered := h.covered_invalidate
      removed := h.removed_invalidate (fun _ ha ↦ ha) hentry }
    · have hother : (c.invalidateShadowMtrr k).shadow i = c.shadow i :=
        Function.update_of_ne (by omega : i ≠ k) _ _
      rw [hother, hahead i hi]
    · obtain ⟨hik, hvalid'⟩ := valid_invalidate hvalid'
      exact h.kept i (by omega) hvalid' a ha hcontains
  | keep hmeets htype hmay =>
    rw [hsame] at hmay
    refine { h with
      ahead := hahead
      kept := fun i hi hvalid' a ha hcontains ↦ ?_
      covered := fun hcovered ↦ ?_
      alone := by rintro ⟨⟩ }
    · rcases Nat.lt_or_eq_of_le (Nat.le_of_lt_succ hi) with hlt | rfl
      · exact (h.kept i hlt hvalid' a ha hcontains).imp_right fun hmay' ↦ ⟨hmay'.1, rfl⟩
      · exact .inr ⟨hmay, rfl⟩
    · obtain ⟨i, hi, hrest⟩ := h.covered hcovered
      exact ⟨i, Nat.lt_succ_of_lt hi, hrest⟩

end

/-! ### What it leaves -/

/-- **The request, combined with the registers.** -/
structure Combined (P : MtrrPlatform) (shadow : ℕ → VariableMtrr)
    (attributes base length : BitVec 64) (c : CombineVars) : Prop where
  entry : ∀ i, c.shadow i = shadow i ∨ c.shadow i = { shadow i with valid := false }
  /-- A register that stays where it meets the request. -/
  kept : ∀ i, (c.shadow i).valid = true → ∀ a, InRange base length a → (shadow i).Contains a →
    ((shadow i).type = attributes ∧ c.length = 0) ∨
      (MayOverlap attributes (shadow i).type ∧ c.overwriteExistingMtrr = true)
  /-- Nothing is left to be programmed if a register has the type for the request. -/
  covered : c.length = 0 → ∃ i, (c.shadow i).valid = true ∧ (shadow i).type = attributes ∧
    ∀ a, InRange base length a → (shadow i).Contains a
  /-- Otherwise the range to be programmed has the request in it. -/
  range : c.length ≠ 0 → c.base.toNat ≤ base.toNat ∧
    base.toNat + length.toNat ≤ c.base.toNat + c.length.toNat ∧
      c.base.toNat + c.length.toNat ≤ 2 ^ addressBits P
  pages : c.length ≠ 0 → 2 ^ 12 ∣ c.base.toNat ∧ 2 ^ 12 ∣ c.length.toNat
  /-- What is taken away is programmed again. -/
  removed : c.length ≠ 0 → ∀ i, (shadow i).valid = true → (c.shadow i).valid = false → ∀ a,
    (shadow i).Contains a → InRange c.base c.length a
  alone : c.length ≠ 0 → c.overwriteExistingMtrr = false → c.base = base ∧ c.length = length

section

variable {s : MtrrSettings} {attributes base length : BitVec 64} {c : CombineVars}

theorem lt_of_valid {i : ℕ} (h : ((shadowMtrrs P s).1 i).valid = true) :
    i < getFirmwareVariableMtrrCountWorker P := (valid_shadowMtrrs.1 h).1

theorem Combining.combined
    (h : Combining P (shadowMtrrs P s).1 attributes base length
      (getFirmwareVariableMtrrCountWorker P) c) (hpos : 0 < length.toNat) :
    Combined P (shadowMtrrs P s).1 attributes base length
      (if c.coveredByExistingMtrr then { c with length := 0 } else c) := by
  have hlt {i : ℕ} (hvalid : (c.shadow i).valid = true) :
      i < getFirmwareVariableMtrrCountWorker P := by
    rcases h.entry i with heq | heq
    · exact lt_of_valid (heq ▸ hvalid)
    · rw [heq] at hvalid
      cases hvalid
  split
  next hcovered =>
    obtain ⟨i, -, hi⟩ := h.covered hcovered
    exact ⟨h.entry, fun j hj a ha hcontains ↦ (h.kept j (hlt hj) hj a ha hcontains).imp_left
      fun hsame ↦ ⟨hsame.1, rfl⟩, fun _ ↦ ⟨i, hi⟩, fun hne ↦ absurd rfl hne,
      fun hne ↦ absurd rfl hne, fun hne ↦ absurd rfl hne, fun hne ↦ absurd rfl hne⟩
  next hcovered =>
    have hlow := h.base_le
    have hhigh := h.le_end
    refine ⟨h.entry, fun j hj a ha hcontains ↦ ?_, fun hzero ↦ ?_,
      fun _ ↦ ⟨h.base_le, h.le_end, h.ends⟩, fun _ ↦ h.pages, fun _ ↦ h.removed, fun _ ↦ h.alone⟩
    · exact (h.kept j (hlt hj) hj a ha hcontains).imp_left fun hsame ↦ absurd hsame.2 hcovered
    · have hnone : c.length.toNat = 0 := congrArg BitVec.toNat hzero
      omega

/-- **The request of the worker, combined.** -/
theorem combineRequest_spec {attributes : MtrrMemoryCacheType} {p : SetProgress}
    (hwf : WellFormedMtrrs P p.settings) (hlength : variableLength p ≠ 0)
    (hpages : 2 ^ 12 ∣ (variableBase p).toNat ∧ 2 ^ 12 ∣ (variableLength p).toNat)
    (hends : (variableBase p).toNat + (variableLength p).toNat ≤ 2 ^ addressBits P)
    (h : combineRequest P attributes p = .ok c) :
    Combined P (shadowMtrrs P p.settings).1 attributes.value (variableBase p) (variableLength p)
      c := by
  have hpos : 0 < (variableLength p).toNat :=
    Nat.pos_of_ne_zero fun hzero ↦ hlength (BitVec.eq_of_toNat_eq hzero)
  have hstart {usedMtrr : ℕ} : Combining P (shadowMtrrs P p.settings).1 attributes.value
      (variableBase p) (variableLength p) 0 ⟨variableBase p, variableLength p,
        variableBase p + variableLength p - 1, (shadowMtrrs P p.settings).1, usedMtrr, false,
        false⟩ :=
    combining_start hlength hpages hends
  rw [combineRequest] at h
  split at h
  next =>
    rw [combineMemoryAttribute, bind_eq_ok] at h
    obtain ⟨c', hloop, hend⟩ := h
    cases hend
    exact (foldlM_range_ok hstart
      (fun k _ b b' hb hturn ↦ hb.step (hwf k) (combineTurn hturn)) hloop).combined hpos
  next hoverlap =>
    cases h
    have hmeets (i : ℕ) (hvalid : ((shadowMtrrs P p.settings).1 i).valid = true) (a : ℕ)
        (ha : InRange (variableBase p) (variableLength p) a) :
        ¬ ((shadowMtrrs P p.settings).1 i).Contains a := by
      intro hcontains
      refine hoverlap (List.any_eq_true.2
        ⟨i, List.mem_range.2 (lt_of_valid hvalid), decide_eq_true ⟨hvalid, ?_⟩⟩)
      have hlast := toNat_rangeLast hlength hends
      have hlast' := (hwf i hvalid).toNat_last
      rw [InRange] at ha
      rw [VariableMtrr.Contains] at hcontains
      rw [BitVec.lt_def, BitVec.lt_def]
      omega
    refine ⟨fun _ ↦ .inl rfl, fun i hvalid a ha hcontains ↦ absurd hcontains (hmeets i hvalid a ha),
      fun hzero ↦ absurd hzero hlength, fun _ ↦ ⟨Nat.le_refl _, Nat.le_refl _, hends⟩,
      fun _ ↦ hpages, fun _ i hvalid hgone ↦ (by cases hvalid.symm.trans hgone),
      fun _ _ ↦ ⟨rfl, rfl⟩⟩

end

end PurleyFirmware.Mtrr
