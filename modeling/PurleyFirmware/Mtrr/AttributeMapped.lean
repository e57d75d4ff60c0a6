import PurleyFirmware.Foundation.Loops
import PurleyFirmware.Mtrr.Precedence
import PurleyFirmware.Mtrr.SetAttribute
import Mathlib.Algebra.Order.Ring.Nat
import Mathlib.Data.Nat.Log

/-!
# Whether a range is mapped already

`CheckMemoryAttributeMapped` looks at one address only. Before that it goes through the shadow
entries: what of the range lies below or above an entry is checked by itself, and the range is cut
down to the rest. So what is left is inside or outside of every entry that has been passed
(`Uncut`), all its addresses are covered by the same ones, and one address answers for all.

A part that is checked by itself leaves out an address of the range at hand. The recursion therefore
ends, within as many levels as the range has addresses.
-/

namespace PurleyFirmware.Mtrr

variable {P : MtrrPlatform} {s : MtrrSettings} {attributes first last : BitVec 64}

/-! ### Shadow entries -/

/-- The entry has an address, and its addresses do not wrap around. -/
structure VariableMtrr.Sane (v : VariableMtrr) : Prop where
  pos : 0 < v.length.toNat
  lt : v.baseAddress.toNat + v.length.toNat < 2 ^ 64

namespace VariableMtrr.Sane

variable {v : VariableMtrr}

theorem toNat_end (h : v.Sane) :
    (v.baseAddress + v.length).toNat = v.baseAddress.toNat + v.length.toNat := by
  rw [BitVec.toNat_add, Nat.mod_eq_of_lt h.lt]

theorem toNat_last (h : v.Sane) : v.last.toNat = v.baseAddress.toNat + v.length.toNat - 1 := by
  have hpos := h.pos
  have hlt := h.lt
  rw [VariableMtrr.last, BitVec.toNat_sub_of_le, h.toNat_end]
  · rfl
  · rw [BitVec.le_def, h.toNat_end]
    exact Nat.le_trans hpos (Nat.le_add_left _ _)

end VariableMtrr.Sane

theorem toNat_mtrrValidBitsMask_lt : (mtrrValidBitsMask P).toNat < 2 ^ 52 := by
  rw [mtrrValidBitsMask]
  split
  · have hbits := P.physicalAddressBits_le
    have hle : 2 ^ P.physicalAddressBits.toNat ≤ 2 ^ 52 := Nat.pow_le_pow_right (by decide) hbits
    have hpos : 0 < 2 ^ P.physicalAddressBits.toNat := Nat.two_pow_pos _
    have hshift : (1#64 <<< P.physicalAddressBits.toNat).toNat
        = 2 ^ P.physicalAddressBits.toNat := by
      rw [BitVec.toNat_shiftLeft, Nat.shiftLeft_eq, Nat.mod_eq_of_lt]
      · exact Nat.one_mul _
      · change 1 * 2 ^ P.physicalAddressBits.toNat < 2 ^ 64
        omega
    rw [BitVec.toNat_sub_of_le, hshift]
    · change 2 ^ P.physicalAddressBits.toNat - 1 < 2 ^ 52
      omega
    · rw [BitVec.le_def, hshift]
      exact hpos
  · decide

theorem toNat_mtrrValidAddressMask_lt : (mtrrValidAddressMask P).toNat < 2 ^ 52 := by
  rw [mtrrValidAddressMask]
  split
  · rw [BitVec.toNat_and]
    exact Nat.lt_of_le_of_lt Nat.and_le_left toNat_mtrrValidBitsMask_lt
  · decide

theorem sane_shadowMtrr {v : MtrrVariableSetting} (h : (shadowMtrr P v).valid = true) :
    (shadowMtrr P v).Sane := by
  by_cases henabled : v.Enabled
  · rw [shadowMtrr, if_pos henabled]
    have hbase : (v.base &&& mtrrValidAddressMask P).toNat < 2 ^ 52 := by
      rw [BitVec.toNat_and]
      exact Nat.lt_of_le_of_lt Nat.and_le_right toNat_mtrrValidAddressMask_lt
    have hlength : (~~~(v.mask &&& mtrrValidAddressMask P) &&& mtrrValidBitsMask P).toNat
        < 2 ^ 52 := by
      rw [BitVec.toNat_and]
      exact Nat.lt_of_le_of_lt Nat.and_le_right toNat_mtrrValidBitsMask_lt
    constructor
    · dsimp only
      rw [BitVec.toNat_add]
      change 0 < (_ + 1) % 2 ^ 64
      omega
    · dsimp only
      rw [BitVec.toNat_add]
      change _ + (_ + 1) % 2 ^ 64 < 2 ^ 64
      omega
  · rw [shadowMtrr, if_neg henabled] at h
    cases h

/-! ### Ranges without cuts -/

/-- All addresses of the range are covered by the entry, or none. -/
def Uncut (first last : BitVec 64) (v : VariableMtrr) : Prop :=
  (v.baseAddress ≤ first ∧ last ≤ v.last) ∨ ¬ Overlaps first last v

/-- A part of a range without cuts has none. -/
theorem Uncut.mono {first' last' : BitVec 64} {v : VariableMtrr} (h : Uncut first last v)
    (hfirst : first ≤ first') (hlast : last' ≤ last) : Uncut first' last' v := by
  rcases h with ⟨hbase, hend⟩ | hout
  · exact .inl ⟨BitVec.le_trans hbase hfirst, BitVec.le_trans hlast hend⟩
  · refine .inr fun ⟨hvalid, hoverlap⟩ ↦ hout ⟨hvalid, fun hor ↦ hoverlap ?_⟩
    rcases hor with hlt | hlt
    · rw [BitVec.le_def] at hfirst
      rw [BitVec.lt_def] at hlt
      exact .inl (BitVec.lt_def.2 (Nat.lt_of_lt_of_le hlt hfirst))
    · rw [BitVec.le_def] at hlast
      rw [BitVec.lt_def] at hlt
      exact .inr (BitVec.lt_def.2 (Nat.lt_of_le_of_lt hlast hlt))

/-- Two addresses of a range without cuts are covered alike. -/
theorem Uncut.covers_iff {v : VariableMtrr} (h : Uncut first last v)
    (hsane : v.valid = true → v.Sane) {a b : BitVec 64} (ha : first ≤ a ∧ a ≤ last)
    (hb : first ≤ b ∧ b ≤ last) : v.Covers a ↔ v.Covers b := by
  refine and_congr_right fun hvalid ↦ ?_
  have hpos := (hsane hvalid).pos
  have hend := (hsane hvalid).toNat_end
  have htop := (hsane hvalid).toNat_last
  simp only [BitVec.le_def, BitVec.lt_def] at ha hb ⊢
  rcases h with ⟨hbase, hlast⟩ | hout
  · rw [BitVec.le_def] at hbase hlast
    omega
  · have hor : v.last < first ∨ last < v.baseAddress := by
      by_contra hboth
      exact hout ⟨hvalid, hboth⟩
    simp only [BitVec.lt_def] at hor
    omega

/-- Two addresses of a range without cuts have the same type. -/
theorem mtrrGetMemoryAttributeByAddressWorker_congr
    (h : ∀ i < getFirmwareVariableMtrrCountWorker P,
      Uncut first last (shadowMtrr P (s.variableMtrr i)))
    (hfirst : base1Mb ≤ first) {a b : BitVec 64} (ha : first ≤ a ∧ a ≤ last)
    (hb : first ≤ b ∧ b ≤ last) :
    mtrrGetMemoryAttributeByAddressWorker P s a = mtrrGetMemoryAttributeByAddressWorker P s b := by
  by_cases henabled : s.mtrrDefType &&& mtrrLibCacheMtrrEnabled = 0
  · rw [mtrrGetMemoryAttributeByAddressWorker, mtrrGetMemoryAttributeByAddressWorker,
      if_pos henabled, if_pos henabled]
  · rw [mtrrGetMemoryAttributeByAddressWorker_eq henabled (BitVec.le_trans hfirst ha.1),
      mtrrGetMemoryAttributeByAddressWorker_eq henabled (BitVec.le_trans hfirst hb.1),
      variableType_eq, variableType_eq, coveringTypes_eq, coveringTypes_eq]
    congr 3
    refine List.filter_congr fun i hi ↦ ?_
    have hcovers := (h i (List.mem_range.1 hi)).covers_iff sane_shadowMtrr ha hb
    exact decide_eq_decide.2 hcovers

/-! ### The loop -/

/-- All addresses of the range have the type. -/
def Mapped (P : MtrrPlatform) (s : MtrrSettings) (attributes first last : BitVec 64) : Prop :=
  ∀ address, first ≤ address → address ≤ last →
    mtrrGetMemoryAttributeByAddressWorker P s address = attributes

/-- A turn of the loop of `CheckMemoryAttributeMapped`, with the check of a part. -/
def mappedStep (check : BitVec 64 → BitVec 64 → Option Bool) (v : VariableMtrr)
    (r : BitVec 64 × BitVec 64 × Bool) : Option (BitVec 64 × BitVec 64 × Bool) :=
  if r.2.2 = false ∧ Overlaps r.1 r.2.1 v then
    (if r.1 < v.baseAddress then check r.1 (v.baseAddress - 1) else some true).bind fun below ↦
      if below = false then some (r.1, r.2.1, true)
      else
        let first := if r.1 < v.baseAddress then v.baseAddress else r.1
        (if v.last < r.2.1 then check (v.baseAddress + v.length) r.2.1 else some true).bind
          fun above ↦
            if above = false then some (first, r.2.1, true)
            else some (first, if v.last < r.2.1 then v.last else r.2.1, false)
  else some r

theorem checkMemoryAttributeMapped_succ (shadow : ℕ → VariableMtrr) (n rounds : ℕ) :
    checkMemoryAttributeMapped P s attributes shadow n (rounds + 1) first last
      = ((List.range n).foldlM
          (fun r i ↦ mappedStep (checkMemoryAttributeMapped P s attributes shadow n rounds)
            (shadow i) r)
          (if first < base1Mb then base1Mb else first, last, false)).bind fun r ↦
        some (!r.2.2 && attributes == mtrrGetMemoryAttributeByAddressWorker P s r.1) := by
  rw [checkMemoryAttributeMapped]
  refine congrArg₂ Option.bind (congrArg (fun f ↦ List.foldlM f _ _) ?_) rfl
  funext r i
  rw [mappedStep]
  dsimp only
  by_cases hoverlap : r.2.2 = false ∧ Overlaps r.1 r.2.1 (shadow i)
  · rw [if_pos hoverlap, if_pos hoverlap]
    by_cases hbelow : r.1 < (shadow i).baseAddress
    · simp only [if_pos hbelow]
      refine congrArg (Option.bind _) (funext fun below ↦ ?_)
      by_cases habove : (shadow i).last < r.2.1
      · simp only [if_pos habove]
        rfl
      · simp only [if_neg habove]
        rfl
    · simp only [if_neg hbelow]
      refine congrArg (Option.bind _) (funext fun below ↦ ?_)
      by_cases habove : (shadow i).last < r.2.1
      · simp only [if_pos habove]
        rfl
      · simp only [if_neg habove]
        rfl
  · rw [if_neg hoverlap, if_neg hoverlap]

/-- The check answers for all ranges above the first megabyte with fewer addresses behind the first
than `size`. -/
def Checks (P : MtrrPlatform) (s : MtrrSettings) (attributes : BitVec 64)
    (check : BitVec 64 → BitVec 64 → Option Bool) (size : ℕ) : Prop :=
  ∀ first last, base1Mb ≤ first → first ≤ last → last.toNat - first.toNat < size →
    ∃ b, check first last = some b ∧ (b = true ↔ Mapped P s attributes first last)

/-- What the loop keeps: the range that is left has no cut by the entries passed, and what has been
taken off it has the type. -/
structure Narrowed (P : MtrrPlatform) (s : MtrrSettings) (attributes first last : BitVec 64)
    (shadow : ℕ → VariableMtrr) (k : ℕ) (r : BitVec 64 × BitVec 64 × Bool) : Prop where
  first_le : first ≤ r.1
  le : r.1 ≤ r.2.1
  le_last : r.2.1 ≤ last
  conflict : r.2.2 = true → ¬ Mapped P s attributes first last
  outside : r.2.2 = false → ∀ address, first ≤ address → address ≤ last →
    ¬ (r.1 ≤ address ∧ address ≤ r.2.1) →
      mtrrGetMemoryAttributeByAddressWorker P s address = attributes
  uncut : r.2.2 = false → ∀ i < k, Uncut r.1 r.2.1 (shadow i)

section

variable {shadow : ℕ → VariableMtrr} {k : ℕ} {r : BitVec 64 × BitVec 64 × Bool}
  {check : BitVec 64 → BitVec 64 → Option Bool}

/-- The part of the range below the entry. -/
theorem Narrowed.below (h : Narrowed P s attributes first last shadow k r)
    (hcheck : Checks P s attributes check (last.toNat - first.toNat)) (hfirst : base1Mb ≤ first)
    {v : VariableMtrr} (hbase : v.baseAddress ≤ r.2.1) :
    ∃ b, (if r.1 < v.baseAddress then check r.1 (v.baseAddress - 1) else some true) = some b ∧
      (b = true ↔ ∀ address, r.1 ≤ address → address < v.baseAddress →
        mtrrGetMemoryAttributeByAddressWorker P s address = attributes) := by
  have h₁ := BitVec.le_def.1 h.first_le
  have h₂ := BitVec.le_def.1 h.le_last
  rw [BitVec.le_def] at hbase
  split
  next hlt =>
    rw [BitVec.lt_def] at hlt
    have hone : (1 : BitVec 64).toNat = 1 := rfl
    have hpred : (v.baseAddress - 1).toNat = v.baseAddress.toNat - 1 :=
      BitVec.toNat_sub_of_le (BitVec.le_def.2 (by omega))
    obtain ⟨b, hb, hiff⟩ := hcheck r.1 (v.baseAddress - 1) (BitVec.le_trans hfirst h.first_le)
      (BitVec.le_def.2 (by omega)) (by omega)
    refine ⟨b, hb, hiff.trans (forall₂_congr fun address haddress ↦ ?_)⟩
    have hlast : address ≤ v.baseAddress - 1 ↔ address < v.baseAddress := by
      rw [BitVec.le_def, BitVec.lt_def]
      omega
    rw [hlast]
  next hge =>
    refine ⟨true, rfl, iff_of_true rfl fun address hle hlt ↦ absurd ?_ hge⟩
    rw [BitVec.le_def] at hle
    rw [BitVec.lt_def] at hlt ⊢
    omega

/-- The part of the range above the entry. -/
theorem Narrowed.above (h : Narrowed P s attributes first last shadow k r)
    (hcheck : Checks P s attributes check (last.toNat - first.toNat)) (hfirst : base1Mb ≤ first)
    {v : VariableMtrr} (hsane : v.Sane) (hlast : r.1 ≤ v.last) :
    ∃ b, (if v.last < r.2.1 then check (v.baseAddress + v.length) r.2.1 else some true) = some b ∧
      (b = true ↔ ∀ address, v.last < address → address ≤ r.2.1 →
        mtrrGetMemoryAttributeByAddressWorker P s address = attributes) := by
  have h₁ := BitVec.le_def.1 h.first_le
  have h₂ := BitVec.le_def.1 h.le_last
  have hend := hsane.toNat_end
  have htop := hsane.toNat_last
  have hpos := hsane.pos
  have hmb := BitVec.le_def.1 hfirst
  rw [BitVec.le_def] at hlast
  split
  next hlt =>
    rw [BitVec.lt_def] at hlt
    obtain ⟨b, hb, hiff⟩ := hcheck (v.baseAddress + v.length) r.2.1 (BitVec.le_def.2 (by omega))
      (BitVec.le_def.2 (by omega)) (by omega)
    refine ⟨b, hb, hiff.trans (forall_congr' fun address ↦ ?_)⟩
    have hbase : v.baseAddress + v.length ≤ address ↔ v.last < address := by
      rw [BitVec.le_def, BitVec.lt_def]
      omega
    rw [hbase]
  next hge =>
    refine ⟨true, rfl, iff_of_true rfl fun address hlt hle ↦ absurd ?_ hge⟩
    rw [BitVec.le_def] at hle
    rw [BitVec.lt_def] at hlt ⊢
    omega

/-- The start of the range, raised to the start of an entry. -/
theorem raised_spec (first base : BitVec 64) :
    first ≤ (if first < base then base else first) ∧ base ≤ (if first < base then base else first) ∧
      (∀ address, first ≤ address → ¬ (if first < base then base else first) ≤ address →
        address < base) ∧
      ∀ bound, first ≤ bound → base ≤ bound → (if first < base then base else first) ≤ bound := by
  split
  next hlt =>
    exact ⟨BitVec.le_of_lt hlt, BitVec.le_refl _, fun _ _ hnot ↦ BitVec.not_le.1 hnot,
      fun _ _ hbase ↦ hbase⟩
  next hge =>
    exact ⟨BitVec.le_refl _, BitVec.not_lt.1 hge, fun _ hle hnot ↦ absurd hle hnot,
      fun _ hfirst _ ↦ hfirst⟩

/-- The end of the range, lowered to the end of an entry. -/
theorem lowered_spec (last top : BitVec 64) :
    (if top < last then top else last) ≤ last ∧ (if top < last then top else last) ≤ top ∧
      (∀ address, address ≤ last → ¬ address ≤ (if top < last then top else last) →
        top < address) ∧
      ∀ bound, bound ≤ last → bound ≤ top → bound ≤ (if top < last then top else last) := by
  split
  next hlt =>
    exact ⟨BitVec.le_of_lt hlt, BitVec.le_refl _, fun _ _ hnot ↦ BitVec.not_le.1 hnot,
      fun _ _ htop ↦ htop⟩
  next hge =>
    exact ⟨BitVec.le_refl _, BitVec.not_lt.1 hge, fun _ hle hnot ↦ absurd hle hnot,
      fun _ hlast _ ↦ hlast⟩

/-- A turn of the loop that finds part of the range with another type. -/
theorem Narrowed.of_conflict {first' : BitVec 64} (h : Narrowed P s attributes first last shadow k r)
    (hfirst : r.1 ≤ first') (hle : first' ≤ r.2.1) {address : BitVec 64} (hmin : r.1 ≤ address)
    (hmax : address ≤ r.2.1)
    (hne : mtrrGetMemoryAttributeByAddressWorker P s address ≠ attributes) :
    Narrowed P s attributes first last shadow (k + 1) (first', r.2.1, true) :=
  ⟨BitVec.le_trans h.first_le hfirst, hle, h.le_last,
    fun _ hmapped ↦ hne (hmapped address (BitVec.le_trans h.first_le hmin)
      (BitVec.le_trans hmax h.le_last)), nofun, nofun⟩

/-- **A turn of the loop.** -/
theorem Narrowed.step (h : Narrowed P s attributes first last shadow k r)
    (hcheck : Checks P s attributes check (last.toNat - first.toNat)) (hfirst : base1Mb ≤ first)
    (hsane : (shadow k).valid = true → (shadow k).Sane) :
    ∃ r', mappedStep check (shadow k) r = some r' ∧
      Narrowed P s attributes first last shadow (k + 1) r' := by
  by_cases hoverlap : r.2.2 = false ∧ Overlaps r.1 r.2.1 (shadow k)
  · obtain ⟨hok, hvalid, hboth⟩ := hoverlap
    have hlast : r.1 ≤ (shadow k).last := BitVec.not_lt.1 fun hlt ↦ hboth (.inl hlt)
    have hbase : (shadow k).baseAddress ≤ r.2.1 := BitVec.not_lt.1 fun hlt ↦ hboth (.inr hlt)
    obtain ⟨below, hbelow, hbelowIff⟩ := h.below hcheck hfirst hbase
    obtain ⟨above, habove, haboveIff⟩ := h.above hcheck hfirst (hsane hvalid) hlast
    rw [mappedStep, if_pos ⟨hok, hvalid, hboth⟩, hbelow, habove]
    dsimp only [Option.bind_some]
    cases below with
    | false =>
      obtain ⟨address, hmin, hlt, hne⟩ : ∃ address, r.1 ≤ address ∧
          address < (shadow k).baseAddress ∧
            mtrrGetMemoryAttributeByAddressWorker P s address ≠ attributes := by
        by_contra hnone
        push Not at hnone
        exact Bool.noConfusion (hbelowIff.2 hnone)
      have hmax : address ≤ r.2.1 := by
        rw [BitVec.le_def] at hbase ⊢
        rw [BitVec.lt_def] at hlt
        omega
      exact ⟨_, rfl, h.of_conflict (BitVec.le_refl _) h.le hmin hmax hne⟩
    | true =>
      have hlow := hbelowIff.1 rfl
      have hrange : (shadow k).baseAddress ≤ (shadow k).last := by
        have hpos := (hsane hvalid).pos
        rw [BitVec.le_def, (hsane hvalid).toNat_last]
        omega
      obtain ⟨hfirst', hbase', hcut, hmax⟩ := raised_spec r.1 (shadow k).baseAddress
      have hle' := hmax r.2.1 h.le hbase
      have htop' := hmax (shadow k).last hlast hrange
      generalize (if r.1 < (shadow k).baseAddress then (shadow k).baseAddress else r.1) = first'
        at hfirst' hcut hbase' hle' htop'
      cases above with
      | false =>
        obtain ⟨address, hlt, hmax, hne⟩ : ∃ address, (shadow k).last < address ∧
            address ≤ r.2.1 ∧ mtrrGetMemoryAttributeByAddressWorker P s address ≠ attributes := by
          by_contra hnone
          push Not at hnone
          exact Bool.noConfusion (haboveIff.2 hnone)
        have hmin : r.1 ≤ address := BitVec.le_trans hlast (BitVec.le_of_lt hlt)
        exact ⟨_, rfl, h.of_conflict hfirst' hle' hmin hmax hne⟩
      | true =>
        have hhigh := haboveIff.1 rfl
        obtain ⟨hlast', hend', hcut', hmin⟩ := lowered_spec r.2.1 (shadow k).last
        have hle'' := hmin first' hle' htop'
        generalize (if (shadow k).last < r.2.1 then (shadow k).last else r.2.1) = last'
          at hlast' hend' hcut' hle''
        refine ⟨_, rfl, BitVec.le_trans h.first_le hfirst', hle'',
          BitVec.le_trans hlast' h.le_last, nofun, fun _ address hge hle hout ↦ ?_,
          fun _ i hi ↦ ?_⟩
        · by_cases hin : r.1 ≤ address ∧ address ≤ r.2.1
          · -- the address has been cut off just now
            by_cases hlow' : first' ≤ address
            · exact hhigh address (hcut' address hin.2 fun hle ↦ hout ⟨hlow', hle⟩) hin.2
            · exact hlow address hin.1 (hcut address hin.1 hlow')
          · exact h.outside hok address hge hle hin
        · rcases Nat.lt_or_eq_of_le (Nat.le_of_lt_succ hi) with hlt | rfl
          · exact (h.uncut hok i hlt).mono hfirst' hlast'
          · exact .inl ⟨hbase', hend'⟩
  · refine ⟨r, if_neg hoverlap, h.first_le, h.le, h.le_last, h.conflict, h.outside, ?_⟩
    intro hok i hi
    rcases Nat.lt_or_eq_of_le (Nat.le_of_lt_succ hi) with hlt | rfl
    · exact h.uncut hok i hlt
    · exact .inr fun hov ↦ hoverlap ⟨hok, hov⟩

end

/-! ### The recursion -/

/-- The shadow of the firmware's registers. -/
def firmwareShadow (P : MtrrPlatform) (s : MtrrSettings) : ℕ → VariableMtrr :=
  (mtrrGetMemoryAttributeInVariableMtrrWorker P s.variableMtrr
    (getFirmwareVariableMtrrCountWorker P)).1

theorem firmwareShadow_of_lt {i : ℕ} (hi : i < getFirmwareVariableMtrrCountWorker P) :
    firmwareShadow P s i = shadowMtrr P (s.variableMtrr i) := if_pos hi

/-- `CheckMemoryAttributeMapped` with the shadow of the settings. -/
def checkMapped (P : MtrrPlatform) (s : MtrrSettings) (attributes : BitVec 64) (rounds : ℕ)
    (first last : BitVec 64) : Option Bool :=
  checkMemoryAttributeMapped P s attributes (firmwareShadow P s)
    (getFirmwareVariableMtrrCountWorker P) rounds first last

/-- One level, if the parts are answered for. -/
theorem checks_succ {rounds : ℕ}
    (hcheck : Checks P s attributes (checkMapped P s attributes rounds) rounds) :
    Checks P s attributes (checkMapped P s attributes (rounds + 1)) (rounds + 1) := by
  intro first last hfirst hle hsize
  have hparts : Checks P s attributes (checkMapped P s attributes rounds)
      (last.toNat - first.toNat) :=
    fun first' last' hfirst' hle' hlt ↦ hcheck first' last' hfirst' hle' (by omega)
  have hlow : ¬ first < base1Mb := BitVec.not_lt.2 hfirst
  rw [checkMapped, checkMemoryAttributeMapped_succ, if_neg hlow]
  have hstart : Narrowed P s attributes first last (firmwareShadow P s) 0 (first, last, false) :=
    ⟨BitVec.le_refl _, hle, BitVec.le_refl _, nofun,
      fun _ address hge hle' hout ↦ absurd ⟨hge, hle'⟩ hout, fun _ i hi ↦ absurd hi i.not_lt_zero⟩
  have hround : ∀ k < getFirmwareVariableMtrrCountWorker P, ∀ r,
      Narrowed P s attributes first last (firmwareShadow P s) k r →
        ∃ r', mappedStep (checkMapped P s attributes rounds) (firmwareShadow P s k) r = some r' ∧
          Narrowed P s attributes first last (firmwareShadow P s) (k + 1) r' := by
    intro k hk r h
    refine h.step hparts hfirst ?_
    rw [firmwareShadow_of_lt hk]
    exact sane_shadowMtrr
  obtain ⟨r, hr, hinv⟩ := foldlM_range_invariant hstart hround
  have hloop : (List.range (getFirmwareVariableMtrrCountWorker P)).foldlM
      (fun r i ↦ mappedStep (checkMemoryAttributeMapped P s attributes (firmwareShadow P s)
        (getFirmwareVariableMtrrCountWorker P) rounds) (firmwareShadow P s i) r)
      (first, last, false) = some r := hr
  rw [hloop]
  refine ⟨_, rfl, ?_⟩
  cases hconflict : r.2.2 with
  | true =>
    rw [Bool.not_true, Bool.false_and]
    exact iff_of_false Bool.false_ne_true (hinv.conflict hconflict)
  | false =>
    rw [Bool.not_false, Bool.true_and, beq_iff_eq]
    have huncut : ∀ i < getFirmwareVariableMtrrCountWorker P,
        Uncut r.1 r.2.1 (shadowMtrr P (s.variableMtrr i)) := by
      intro i hi
      rw [← firmwareShadow_of_lt hi]
      exact hinv.uncut hconflict i hi
    constructor
    · intro hsample address hge hle'
      by_cases hin : r.1 ≤ address ∧ address ≤ r.2.1
      · rw [mtrrGetMemoryAttributeByAddressWorker_congr huncut
          (BitVec.le_trans hfirst hinv.first_le) hin ⟨BitVec.le_refl _, hinv.le⟩, hsample]
      · exact hinv.outside hconflict address hge hle' hin
    · intro hmapped
      exact (hmapped r.1 hinv.first_le (BitVec.le_trans hinv.le hinv.le_last)).symm

/-- As many levels as the range has addresses suffice. -/
theorem checks_checkMapped (rounds : ℕ) :
    Checks P s attributes (checkMapped P s attributes rounds) rounds := by
  induction rounds with
  | zero => exact fun _ _ _ _ hsize ↦ absurd hsize (Nat.not_lt_zero _)
  | succ rounds ih => exact checks_succ ih

/-- The first megabyte is passed over. -/
theorem checkMapped_raised (rounds : ℕ) :
    checkMapped P s attributes (rounds + 1) first last
      = checkMapped P s attributes (rounds + 1) (if first < base1Mb then base1Mb else first) last := by
  have hidem : (if (if first < base1Mb then base1Mb else first) < base1Mb then base1Mb
      else if first < base1Mb then base1Mb else first) = if first < base1Mb then base1Mb else first :=
    if_neg (BitVec.not_lt.2 (raised_spec first base1Mb).2.1)
  rw [checkMapped, checkMapped, checkMemoryAttributeMapped_succ, checkMemoryAttributeMapped_succ,
    hidem]

/-- **Whether a range is mapped.** The recursion ends, and its answer is whether all addresses of the
range from 1 MB on have the type. -/
theorem checkMapped_iff (P : MtrrPlatform) (s : MtrrSettings) (attributes first last : BitVec 64)
    (hle : first ≤ last) (hlast : base1Mb ≤ last) :
    ∃ levels, ∀ rounds, levels ≤ rounds → ∃ b, checkMapped P s attributes rounds first last = some b ∧
      (b = true ↔ ∀ address, first ≤ address → base1Mb ≤ address → address ≤ last →
        mtrrGetMemoryAttributeByAddressWorker P s address = attributes) := by
  obtain ⟨hfirst, hmb, -, hbound⟩ := raised_spec first base1Mb
  refine ⟨last.toNat + 1, fun rounds hrounds ↦ ?_⟩
  obtain ⟨rounds, rfl⟩ : ∃ n, rounds = n + 1 := ⟨rounds - 1, by omega⟩
  obtain ⟨b, hb, hiff⟩ := checks_checkMapped (rounds + 1) _ last hmb (hbound last hle hlast)
    (by omega)
  refine ⟨b, (checkMapped_raised rounds).trans hb, hiff.trans ⟨fun h address hge hge' ↦ ?_,
    fun h address hge ↦ h address (BitVec.le_trans hfirst hge) (BitVec.le_trans hmb hge)⟩⟩
  exact h address (hbound address hge hge')

/-- The second megabyte with WT over WB, and the first one before it. -/
theorem checkMapped_iff_secondMegabyte :
    ∃ levels, ∀ rounds, levels ≤ rounds →
      ∃ b, checkMapped (twoRegisters 0) (secondMegabyte 0xC00 4 6) 4 rounds 0x80000 0x1FFFFF = some b ∧
        (b = true ↔ ∀ address : BitVec 64, 0x80000 ≤ address → base1Mb ≤ address →
          address ≤ 0x1FFFFF → mtrrGetMemoryAttributeByAddressWorker (twoRegisters 0)
            (secondMegabyte 0xC00 4 6) address = 4) :=
  checkMapped_iff (twoRegisters 0) (secondMegabyte 0xC00 4 6) 4 0x80000 0x1FFFFF (by decide)
    (by decide)

end PurleyFirmware.Mtrr
