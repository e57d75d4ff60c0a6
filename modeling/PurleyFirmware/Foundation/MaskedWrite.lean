import Mathlib.Data.List.Induction
import Mathlib.Data.Nat.Notation
import Mathlib.Tactic.TypeStar

/-!
# Masked writes

A read-modify-write of a register: the bits of a mask are cleared and a value is ORed in. When the
value stays inside the mask, the write **gives** each bit of the mask a value and leaves the others.

A sequence of writes leaves a bit as the last of them gave it, `getLsbD_foldl_apply`. Writes can also
be **merged**, by ORing their masks and their values, into one that is made at the end. A merged
write gives a bit if one of the writes does, and then gives it a one if one of the writes gives it
one, `given_merge`: the order of the writes is lost. `anyGiven_eq_lastGiven_iff` says when that makes
no difference.
-/

namespace PurleyFirmware

/-! ### What is given to a bit -/

/-- What the last that gives the bit a value gives it. -/
def lastGiven : List (Option Bool) → Option Bool
  | [] => none
  | g :: gs => (lastGiven gs).or g

/-- A one if one is given, a zero if only zeros are. -/
def anyGiven (gs : List (Option Bool)) : Option Bool :=
  if gs.any Option.isSome then some (gs.contains (some true)) else none

variable {gs : List (Option Bool)}

theorem mem_of_lastGiven {b : Bool} (h : lastGiven gs = some b) : some b ∈ gs := by
  induction gs with
  | nil => cases h
  | cons g gs ih =>
    rw [lastGiven, Option.or_eq_some_iff] at h
    rcases h with h | ⟨-, h⟩
    · exact List.mem_cons_of_mem _ (ih h)
    · exact h ▸ List.mem_cons_self

theorem lastGiven_eq_none_iff : lastGiven gs = none ↔ gs.any Option.isSome = false := by
  induction gs with
  | nil => simp [lastGiven]
  | cons g gs ih =>
    rw [lastGiven, Option.or_eq_none_iff, ih, List.any_cons, Bool.or_eq_false_iff, and_comm,
      Option.isSome_eq_false_iff, Option.isNone_iff_eq_none]

/-- **When the order makes no difference**: unless a one is given, and a zero is given last. -/
theorem anyGiven_eq_lastGiven_iff :
    anyGiven gs = lastGiven gs ↔ (some true ∈ gs → lastGiven gs = some true) := by
  rw [anyGiven]
  cases hlast : lastGiven gs with
  | none =>
    rw [lastGiven_eq_none_iff] at hlast
    have hno : some true ∉ gs := fun hmem ↦ by
      have hany : gs.any Option.isSome = true := List.any_eq_true.2 ⟨_, hmem, rfl⟩
      rw [hlast] at hany
      cases hany
    rw [hlast]
    exact iff_of_true rfl fun hmem ↦ absurd hmem hno
  | some b =>
    have hany : gs.any Option.isSome = true := List.any_eq_true.2 ⟨_, mem_of_lastGiven hlast, rfl⟩
    rw [if_pos hany, Option.some_inj, Option.some_inj]
    cases b with
    | true => exact iff_of_true (List.contains_iff_mem.2 (mem_of_lastGiven hlast)) fun _ ↦ rfl
    | false => simp

/-- What is not given makes no difference. -/
theorem anyGiven_map_ite {α : Type*} (l : List α) (p : α → Prop) [DecidablePred p]
    (f : α → Option Bool) :
    anyGiven (l.map fun a ↦ if p a then f a else none) =
      anyGiven ((l.filter fun a ↦ p a).map f) := by
  have hsome : (l.map fun a ↦ if p a then f a else none).any Option.isSome =
      ((l.filter fun a ↦ p a).map f).any Option.isSome := by
    induction l with
    | nil => rfl
    | cons a l ih => by_cases h : p a <;> simp_all
  have hone : some true ∈ (l.map fun a ↦ if p a then f a else none) ↔
      some true ∈ (l.filter fun a ↦ p a).map f := by
    simp only [List.mem_map, List.mem_filter, decide_eq_true_eq]
    constructor
    · rintro ⟨a, ha, h⟩
      by_cases hp : p a
      · exact ⟨a, ⟨ha, hp⟩, by rwa [if_pos hp] at h⟩
      · rw [if_neg hp] at h
        cases h
    · rintro ⟨a, ⟨ha, hp⟩, h⟩
      exact ⟨a, ha, by rw [if_pos hp, h]⟩
  rw [anyGiven, anyGiven, hsome, Bool.eq_iff_iff.2 (List.contains_iff_mem.trans
    (hone.trans List.contains_iff_mem.symm))]

/-! ### Masked writes -/

/-- A mask, and the value that is ORed in. -/
structure MaskedWrite (w : ℕ) where
  mask : BitVec w
  value : BitVec w
  deriving DecidableEq

namespace MaskedWrite

variable {w : ℕ}

/-- The register after the write. -/
def apply (m : MaskedWrite w) (v : BitVec w) : BitVec w := (v &&& ~~~m.mask) ||| m.value

/-- A bit of the register after the write. -/
def applyBit (m : MaskedWrite w) (i : ℕ) (b : Bool) : Bool :=
  (b && !m.mask.getLsbD i) || m.value.getLsbD i

/-- The value stays inside the mask. -/
def Inside (m : MaskedWrite w) : Prop :=
  ∀ i < w, m.value.getLsbD i = true → m.mask.getLsbD i = true

/-- What the write gives a bit. -/
def given (i : ℕ) (m : MaskedWrite w) : Option Bool :=
  if m.mask.getLsbD i = true then some (m.value.getLsbD i) else none

/-- Both writes in one. -/
def or (m m' : MaskedWrite w) : MaskedWrite w := ⟨m.mask ||| m'.mask, m.value ||| m'.value⟩

/-- The write with all the masks and all the values. -/
def merge (ms : List (MaskedWrite w)) : MaskedWrite w :=
  ms.foldl (fun acc m ↦ ⟨acc.mask ||| m.mask, acc.value ||| m.value⟩) ⟨0, 0⟩

variable {m : MaskedWrite w} {ms : List (MaskedWrite w)} {i : ℕ}

/-! ### One write -/

theorem getLsbD_apply_eq (m : MaskedWrite w) (v : BitVec w) (hi : i < w) :
    (m.apply v).getLsbD i = m.applyBit i (v.getLsbD i) := by
  rw [apply, applyBit, BitVec.getLsbD_or, BitVec.getLsbD_and, BitVec.getLsbD_not, decide_eq_true hi,
    Bool.true_and]

theorem applyBit_eq (hm : m.Inside) (hi : i < w) (b : Bool) :
    m.applyBit i b = (m.given i).getD b := by
  rw [applyBit, given]
  by_cases hmask : m.mask.getLsbD i = true
  · simp [hmask]
  · have hvalue : m.value.getLsbD i = false :=
      Bool.eq_false_iff.2 fun hvalue ↦ hmask (hm i hi hvalue)
    rw [Bool.not_eq_true] at hmask
    rw [hmask, hvalue]
    simp

/-- **A write leaves a bit as it gives it**, or as it was. -/
theorem getLsbD_apply (hm : m.Inside) (v : BitVec w) (hi : i < w) :
    (m.apply v).getLsbD i = (m.given i).getD (v.getLsbD i) := by
  rw [getLsbD_apply_eq m v hi, applyBit_eq hm hi]

/-! ### Writes in a row -/

/-- **Writes in a row leave a bit as the last gave it.** -/
theorem getLsbD_foldl_apply (hms : ∀ m ∈ ms, m.Inside) (v : BitVec w) (hi : i < w) :
    (ms.foldl (fun v m ↦ m.apply v) v).getLsbD i =
      (lastGiven (ms.map (given i))).getD (v.getLsbD i) := by
  induction ms generalizing v with
  | nil => rfl
  | cons m ms ih =>
    rw [List.foldl_cons, ih (fun m hm ↦ hms m (List.mem_cons_of_mem _ hm)),
      getLsbD_apply (hms m List.mem_cons_self) v hi, List.map_cons, lastGiven]
    cases lastGiven (ms.map (given i)) <;> rfl

/-! ### Merged writes -/

theorem merge_append (ms : List (MaskedWrite w)) (m : MaskedWrite w) :
    merge (ms ++ [m]) = (merge ms).or m := by
  rw [merge, merge, List.foldl_append]
  rfl

theorem getLsbD_mask_merge (ms : List (MaskedWrite w)) (i : ℕ) :
    (merge ms).mask.getLsbD i = ms.any (·.mask.getLsbD i) := by
  induction ms using List.reverseRecOn with
  | nil => exact BitVec.getLsbD_zero
  | append_singleton ms m ih => rw [merge_append, or, BitVec.getLsbD_or, ih, List.any_append]; simp

theorem getLsbD_value_merge (ms : List (MaskedWrite w)) (i : ℕ) :
    (merge ms).value.getLsbD i = ms.any (·.value.getLsbD i) := by
  induction ms using List.reverseRecOn with
  | nil => exact BitVec.getLsbD_zero
  | append_singleton ms m ih => rw [merge_append, or, BitVec.getLsbD_or, ih, List.any_append]; simp

theorem Inside.merge (hms : ∀ m ∈ ms, m.Inside) : (merge ms).Inside := by
  intro i hi hvalue
  rw [getLsbD_value_merge, List.any_eq_true] at hvalue
  rw [getLsbD_mask_merge, List.any_eq_true]
  obtain ⟨m, hm, hvalue⟩ := hvalue
  exact ⟨m, hm, hms m hm i hi hvalue⟩

/-- **What a merged write gives.** -/
theorem given_merge (ms : List (MaskedWrite w)) (i : ℕ) :
    (merge ms).given i =
      if ms.any (·.mask.getLsbD i) then some (ms.any (·.value.getLsbD i)) else none := by
  rw [given, getLsbD_mask_merge, getLsbD_value_merge]

/-- A bit that only one of the writes may give. -/
theorem given_merge_of_unique (hms : ∀ m ∈ ms, m.Inside) (hm : m ∈ ms) (hi : i < w)
    (hunique : ∀ m' ∈ ms, m'.mask.getLsbD i = true → m' = m) :
    (merge ms).given i = m.given i := by
  have hmask : ms.any (·.mask.getLsbD i) = m.mask.getLsbD i := by
    refine Bool.eq_iff_iff.2 ⟨fun hany ↦ ?_, fun hgives ↦ List.any_eq_true.2 ⟨m, hm, hgives⟩⟩
    obtain ⟨m', hm', hgives⟩ := List.any_eq_true.1 hany
    rwa [← hunique m' hm' hgives]
  have hvalue : ms.any (·.value.getLsbD i) = m.value.getLsbD i := by
    refine Bool.eq_iff_iff.2 ⟨fun hany ↦ ?_, fun hone ↦ List.any_eq_true.2 ⟨m, hm, hone⟩⟩
    obtain ⟨m', hm', hone⟩ := List.any_eq_true.1 hany
    rwa [← hunique m' hm' (hms m' hm' i hi hone)]
  rw [given_merge, hmask, hvalue, given]

/-- **A merged write gives a one if one of the writes does.** -/
theorem given_merge_eq_anyGiven (hms : ∀ m ∈ ms, m.Inside) (hi : i < w) :
    (merge ms).given i = anyGiven (ms.map (given i)) := by
  have hsome : (ms.map (given i)).any Option.isSome = ms.any (·.mask.getLsbD i) := by
    rw [List.any_map]
    refine List.any_congr rfl fun m ↦ ?_
    by_cases h : m.mask.getLsbD i = true <;> simp [given, h]
  have hone : (ms.map (given i)).contains (some true) = ms.any (·.value.getLsbD i) := by
    rw [Bool.eq_iff_iff, List.contains_iff_mem, List.mem_map, List.any_eq_true]
    constructor
    · rintro ⟨m, hm, h⟩
      rw [given, Option.ite_none_right_eq_some] at h
      exact ⟨m, hm, Option.some.inj h.2⟩
    · rintro ⟨m, hm, h⟩
      exact ⟨m, hm, by rw [given, if_pos (hms m hm i hi h), h]⟩
  rw [given_merge, anyGiven, hsome, hone]

/-- A write of what is there changes nothing. -/
theorem apply_of_value_eq {v : BitVec w} (h : m.value = v &&& m.mask) : m.apply v = v := by
  refine BitVec.eq_of_getLsbD_eq fun i hi ↦ ?_
  rw [getLsbD_apply_eq m v hi, applyBit, h, BitVec.getLsbD_and]
  cases m.mask.getLsbD i <;> simp

theorem value_merge_eq {v : BitVec w} (h : ∀ m ∈ ms, m.value = v &&& m.mask) :
    (merge ms).value = v &&& (merge ms).mask := by
  refine BitVec.eq_of_getLsbD_eq fun i _ ↦ ?_
  rw [BitVec.getLsbD_and, getLsbD_value_merge, getLsbD_mask_merge, Bool.eq_iff_iff,
    List.any_eq_true, Bool.and_eq_true, List.any_eq_true]
  constructor
  · rintro ⟨m, hm, hvalue⟩
    rw [h m hm, BitVec.getLsbD_and, Bool.and_eq_true] at hvalue
    exact ⟨hvalue.1, m, hm, hvalue.2⟩
  · rintro ⟨hv, m, hm, hmask⟩
    exact ⟨m, hm, by rw [h m hm, BitVec.getLsbD_and, hv, hmask]; rfl⟩

end MaskedWrite

end PurleyFirmware
