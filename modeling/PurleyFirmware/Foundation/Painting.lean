import Mathlib.Data.List.Basic
import Mathlib.Data.Nat.Notation
import Mathlib.Order.Basic
import Mathlib.Tactic.SplitIfs

/-!
# Painting ranges of numbers

A stroke gives a value to a range of numbers. Of several strokes the last one counts
(`paint_append`); where all strokes over a number have one value, that is its value
(`paint_eq_of_forall`).

Strokes that follow each other without a gap (`Contiguous`) are all left whole. Where some of them
have equal values they can be put together to longer ones, and a program that does so keeps the run
that it is in: `Run.step` ends the run when the value changes. What is painted is the same
(`mergeRuns_spec`).
-/

namespace PurleyFirmware

universe u v

/-- The numbers from `start` on, below `stop`, get a value. -/
structure Stroke (α : Type u) where
  start : ℕ
  stop : ℕ
  value : α

/-- The number is in the range of the stroke. -/
def Stroke.Covers {α : Type u} (s : Stroke α) (a : ℕ) : Prop := s.start ≤ a ∧ a < s.stop

instance Stroke.decidableCovers {α : Type u} {s : Stroke α} {a : ℕ} : Decidable (s.Covers a) :=
  inferInstanceAs (Decidable (_ ∧ _))

/-- One stroke. -/
def Stroke.apply {α : Type u} (x : ℕ → α) (s : Stroke α) : ℕ → α := fun a ↦
  if s.Covers a then s.value else x a

/-- The strokes one after the other. -/
def paint {α : Type u} (strokes : List (Stroke α)) (x : ℕ → α) : ℕ → α :=
  strokes.foldl Stroke.apply x

section

variable {α : Type u} {β : Type v} {s : Stroke α} {strokes : List (Stroke α)} {x : ℕ → α} {a : ℕ}
  {v : α}

@[simp] theorem paint_nil : paint [] x = x := rfl

@[simp] theorem paint_cons : paint (s :: strokes) x = paint strokes (s.apply x) := rfl

theorem paint_append {strokes' : List (Stroke α)} :
    paint (strokes ++ strokes') x = paint strokes' (paint strokes x) := List.foldl_append

theorem paint_of_forall_not (h : ∀ s ∈ strokes, ¬ s.Covers a) : paint strokes x a = x a := by
  induction strokes generalizing x with
  | nil => rfl
  | cons s strokes ih =>
    rw [List.forall_mem_cons] at h
    rw [paint_cons, ih h.2]
    exact if_neg h.1

/-- The strokes over a number have one value, which the number has already. -/
theorem paint_eq_of_eq (hx : x a = v) (h : ∀ s ∈ strokes, s.Covers a → s.value = v) :
    paint strokes x a = v := by
  induction strokes generalizing x with
  | nil => exact hx
  | cons s strokes ih =>
    rw [List.forall_mem_cons] at h
    refine ih ?_ h.2
    rw [Stroke.apply]
    split_ifs with hs
    · exact h.1 hs
    · exact hx

/-- The strokes over a number have one value. -/
theorem paint_eq_of_forall (hmem : s ∈ strokes) (hcovers : s.Covers a)
    (h : ∀ s ∈ strokes, s.Covers a → s.value = v) : paint strokes x a = v := by
  induction strokes generalizing x with
  | nil => exact absurd hmem List.not_mem_nil
  | cons s' strokes ih =>
    rcases List.mem_cons.1 hmem with rfl | hmem
    · rw [List.forall_mem_cons] at h
      have hs : s.apply x a = v := (if_pos hcovers).trans (h.1 hcovers)
      rw [paint_cons]
      exact paint_eq_of_eq hs h.2
    · exact ih hmem (List.forall_mem_cons.1 h).2

/-- Each stroke is painted as several ones. If at one number they give a function of its value, all
of them do. -/
theorem paint_flatMap {f : Stroke β → List (Stroke α)} {g : β → α} {calls : List (Stroke β)}
    {y : ℕ → β} (hy : x a = g (y a))
    (hf : ∀ c ∈ calls, ∀ x, paint (f c) x a = if c.Covers a then g c.value else x a) :
    paint (calls.flatMap f) x a = g (paint calls y a) := by
  induction calls generalizing x y with
  | nil => exact hy
  | cons c calls ih =>
    rw [List.forall_mem_cons] at hf
    rw [List.flatMap_cons, paint_append, paint_cons]
    refine ih ?_ hf.2
    rw [hf.1, Stroke.apply]
    split
    · rfl
    · exact hy

end

/-! ### Strokes without a gap -/

/-- Each stroke starts where the one before it stops, the first one at `a`, and the last one stops
at `b`. -/
inductive Contiguous {α : Type u} : ℕ → List (Stroke α) → ℕ → Prop
  | nil (a : ℕ) : Contiguous a [] a
  | cons {s : Stroke α} {strokes : List (Stroke α)} {b : ℕ} (hs : s.start < s.stop)
      (h : Contiguous s.stop strokes b) : Contiguous s.start (s :: strokes) b

namespace Contiguous

variable {α : Type u} {s t : Stroke α} {strokes : List (Stroke α)} {a b c : ℕ}

theorem le (h : Contiguous a strokes b) : a ≤ b := by
  induction h with
  | nil a => exact Nat.le_refl a
  | cons hs h ih => exact Nat.le_trans (Nat.le_of_lt hs) ih

theorem bounds (h : Contiguous a strokes b) (ht : t ∈ strokes) :
    a ≤ t.start ∧ t.start < t.stop ∧ t.stop ≤ b := by
  induction h with
  | nil a => exact absurd ht List.not_mem_nil
  | cons hs h ih =>
    rcases List.mem_cons.1 ht with rfl | ht
    · exact ⟨Nat.le_refl _, hs, h.le⟩
    · have := ih ht
      omega

/-- The later a stroke comes, the higher its numbers. -/
theorem stop_le_start {i j : ℕ} (h : Contiguous a strokes b) (hi : strokes[i]? = some s)
    (hj : strokes[j]? = some t) (hij : i < j) : s.stop ≤ t.start := by
  induction h generalizing i j with
  | nil a => cases hi
  | cons _ h ih =>
    cases j with
    | zero => exact absurd hij (Nat.not_lt_zero i)
    | succ j =>
      cases i with
      | zero =>
        obtain rfl := Option.some.inj hi
        exact (h.bounds (List.mem_of_getElem? hj)).1
      | succ i => exact ih hi hj (Nat.lt_of_succ_lt_succ hij)

theorem exists_covers (h : Contiguous a strokes b) (ha : a ≤ c) (hb : c < b) :
    ∃ s ∈ strokes, s.Covers c := by
  induction h with
  | nil a => omega
  | @cons s strokes b hs h ih =>
    by_cases hc : c < s.stop
    · exact ⟨s, List.mem_cons_self, ha, hc⟩
    · obtain ⟨t, ht, hcovers⟩ := ih (Nat.not_lt.1 hc) hb
      exact ⟨t, List.mem_cons_of_mem _ ht, hcovers⟩

/-- Each stroke is left whole. -/
theorem paint_eq {x : ℕ → α} (h : Contiguous a strokes b) (ht : t ∈ strokes) (hc : t.Covers c) :
    paint strokes x c = t.value := by
  induction h generalizing x with
  | nil a => exact absurd ht List.not_mem_nil
  | cons hs h ih =>
    rw [paint_cons]
    rcases List.mem_cons.1 ht with rfl | ht
    · rw [paint_of_forall_not]
      · exact if_pos hc
      · intro s hs hcovers
        exact absurd (h.bounds hs).1 (Nat.not_le.2 (Nat.lt_of_le_of_lt hcovers.1 hc.2))
    · exact ih ht

theorem append {strokes' : List (Stroke α)} (h : Contiguous a strokes b)
    (h' : Contiguous b strokes' c) : Contiguous a (strokes ++ strokes') c := by
  induction h with
  | nil a => exact h'
  | cons hs _ ih => exact cons hs (ih h')

theorem single {v : α} (h : a < b) : Contiguous a [⟨a, b, v⟩] b :=
  @cons α ⟨a, b, v⟩ [] b h (nil b)

/-- Strokes between the numbers of an increasing sequence. -/
theorem map_range {f : ℕ → ℕ} (hf : ∀ k, f k < f (k + 1)) (v : ℕ → α) (n : ℕ) :
    Contiguous (f 0) ((List.range n).map fun k ↦ ⟨f k, f (k + 1), v k⟩) (f n) := by
  induction n with
  | zero => exact nil (f 0)
  | succ n ih =>
    rw [List.range_succ, List.map_append, List.map_singleton]
    exact ih.append (single (hf n))

theorem flatMap_range {f : ℕ → ℕ} {g : ℕ → List (Stroke α)} {n : ℕ}
    (hg : ∀ k < n, Contiguous (f k) (g k) (f (k + 1))) :
    Contiguous (f 0) ((List.range n).flatMap g) (f n) := by
  induction n with
  | zero => exact nil (f 0)
  | succ n ih =>
    rw [List.range_succ, List.flatMap_append, List.flatMap_singleton]
    exact (ih fun k hk ↦ hg k (Nat.lt_succ_of_lt hk)).append (hg n (Nat.lt_succ_self n))

end Contiguous

/-! ### Putting strokes together -/

/-- The runs that have ended, and the run that the program is in. -/
structure Run (α : Type u) where
  done : List (Stroke α)
  start : ℕ
  length : ℕ
  value : α

namespace Run

variable {α : Type u}

/-- All runs, with the one that the program is in. -/
def all (r : Run α) : List (Stroke α) := r.done ++ [⟨r.start, r.start + r.length, r.value⟩]

/-- **In the loop**, which has passed the strokes from `a` to `b`. -/
structure Passed (r : Run α) (a b : ℕ) : Prop where
  done : Contiguous a r.done r.start
  pos : 0 < r.length
  stop : r.start + r.length = b

variable {r : Run α} {s : Stroke α} {strokes : List (Stroke α)} {a b c : ℕ}

theorem Passed.all (h : Passed r a b) : Contiguous a r.all b := by
  rw [← h.stop]
  exact h.done.append (Contiguous.single (Nat.lt_add_of_pos_right h.pos))

variable [DecidableEq α]

/-- A stroke is added to the run, or ends it and starts the next one. -/
def step (r : Run α) (s : Stroke α) : Run α :=
  if r.length = 0 then { r with value := s.value, length := s.stop - s.start }
  else if s.value ≠ r.value then
    { done := r.done ++ [⟨r.start, r.start + r.length, r.value⟩]
      start := s.start
      length := s.stop - s.start
      value := s.value }
  else { r with length := r.length + (s.stop - s.start) }

theorem Passed.step (h : Passed r a b) (hstart : s.start = b) (hs : s.start < s.stop) :
    Passed (r.step s) a s.stop := by
  have hlength := Nat.pos_iff_ne_zero.1 h.pos
  have hstop := h.stop
  rw [Run.step, if_neg hlength]
  split_ifs with hvalue
  · refine ⟨?_, by simp only; omega, by simp only; omega⟩
    simp only
    rw [hstart]
    exact h.all
  · exact ⟨h.done, by simp only; omega, by simp only; omega⟩

theorem paint_all_step (x : ℕ → α) (h : Passed r a b) (hstart : s.start = b)
    (hs : s.start < s.stop) : paint (r.step s).all x = paint [s] (paint r.all x) := by
  have hlength := Nat.pos_iff_ne_zero.1 h.pos
  have hstop := h.stop
  rw [Run.step, if_neg hlength]
  split_ifs with hvalue
  · have hself : (⟨s.start, s.start + (s.stop - s.start), s.value⟩ : Stroke α) = s := by
      rw [Nat.add_sub_cancel' (Nat.le_of_lt hs)]
    rw [Run.all, Run.all, hself, paint_append, paint_append]
  · funext c
    rw [Run.all, Run.all, paint_append, paint_append]
    simp only [paint_cons, paint_nil, Stroke.apply, not_not.1 hvalue]
    split_ifs <;> first | rfl | (simp only [Stroke.Covers] at *; omega)

/-- Strokes that follow the run. -/
theorem foldl_step (x : ℕ → α) (h : Passed r a b) (hstrokes : Contiguous b strokes c) :
    Passed (strokes.foldl step r) a c ∧
      paint (strokes.foldl step r).all x = paint strokes (paint r.all x) := by
  induction hstrokes generalizing r with
  | nil b => exact ⟨h, rfl⟩
  | @cons s strokes c hs _ ih =>
    obtain ⟨hpassed, hpaint⟩ := ih (h.step rfl hs)
    refine ⟨hpassed, ?_⟩
    rw [List.foldl_cons, hpaint, paint_all_step x h rfl hs]
    rfl

/-- The runs of contiguous strokes. -/
def mergeRuns (value : α) (strokes : List (Stroke α)) : List (Stroke α) :=
  (strokes.foldl step ⟨[], 0, 0, value⟩).all

/-- **The runs are contiguous, and paint what the strokes paint.** -/
theorem mergeRuns_spec {value : α} (x : ℕ → α) (h : Contiguous 0 strokes c) (hc : 0 < c) :
    Contiguous 0 (mergeRuns value strokes) c ∧
      paint (mergeRuns value strokes) x = paint strokes x := by
  generalize hzero : 0 = start at h
  cases h with
  | nil a => omega
  | @cons s strokes c hs h =>
    obtain ⟨start, stop, v⟩ := s
    dsimp only at hzero hs h
    subst hzero
    have hfirst : step ⟨[], 0, 0, value⟩ (⟨0, stop, v⟩ : Stroke α) = ⟨[], 0, stop, v⟩ := rfl
    have hpassed : Passed (⟨[], 0, stop, v⟩ : Run α) 0 stop :=
      ⟨Contiguous.nil 0, hs, Nat.zero_add _⟩
    obtain ⟨hall, hpaint⟩ := foldl_step x hpassed h
    rw [mergeRuns, List.foldl_cons, hfirst]
    refine ⟨hall.all, ?_⟩
    rw [hpaint]
    simp only [all, List.nil_append, Nat.zero_add, paint_cons, paint_nil]

end Run

end PurleyFirmware
