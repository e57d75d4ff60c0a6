import Mathlib.Data.Nat.Notation
import Mathlib.Tactic.TypeStar

/-!
# Functions that are polled

A function that waits for a device can be written in two modes. The blocking one waits on the spot.
The other one returns when it would have to wait, with its state kept for the next call, and is
called until it is done. In both modes a part of the function is a map `σ → Except σ σ`: it goes on
with `ok`, or it returns with `error`, since it would have to wait.

`Resumes` says that the two modes of a part belong together: where the polled one goes on, so does
the blocking one, and where it returns, the blocking one does from the state it leaves what it would
have done before. `Resumes.bind` puts two parts together, if the first one does nothing in a state
in which the second one returned; `Resumes.polled` concludes that polling a loop until it is done
leads to the state to which the blocking loop leads.
-/

namespace PurleyFirmware

variable {σ : Type*}

/-- The two modes of a part belong together. -/
structure Resumes (polled blocking : σ → Except σ σ) : Prop where
  ok : ∀ {s t : σ}, polled s = .ok t → blocking s = .ok t
  error : ∀ {s t : σ}, polled s = .error t → blocking t = blocking s

/-- A part that is skipped unless a condition holds. -/
def skipUnless (p : σ → Prop) [DecidablePred p] (f : σ → Except σ σ) (s : σ) : Except σ σ :=
  if p s then f s else .ok s

section Parts

variable {p : σ → Prop} [DecidablePred p] {f f' g g' : σ → Except σ σ} {s t : σ}

theorem skipUnless_of_pos (h : p s) : skipUnless p f s = f s := if_pos h

theorem skipUnless_of_neg (h : ¬ p s) : skipUnless p f s = .ok s := if_neg h

/-- A part that leaves the state alone may be skipped. -/
theorem skipUnless_eq_ok (h : p s → f s = .ok s) : skipUnless p f s = .ok s := by
  by_cases hp : p s
  · rw [skipUnless_of_pos hp, h hp]
  · exact skipUnless_of_neg hp

/-- A part that goes on was skipped, or it was not. -/
theorem of_skipUnless_ok (h : skipUnless p f s = .ok t) : (p s ∧ f s = .ok t) ∨ t = s := by
  by_cases hp : p s
  · exact Or.inl ⟨hp, by rwa [skipUnless_of_pos hp] at h⟩
  · rw [skipUnless_of_neg hp] at h
    cases h
    exact Or.inr rfl

/-- A part that returns was not skipped. -/
theorem of_skipUnless_error (h : skipUnless p f s = .error t) : p s ∧ f s = .error t := by
  by_cases hp : p s
  · exact ⟨hp, by rwa [skipUnless_of_pos hp] at h⟩
  · rw [skipUnless_of_neg hp] at h
    cases h

theorem bind_of_ok (h : f s = .ok t) : (f s >>= g) = g t := by
  rw [h]
  rfl

/-- Where two parts in a row return, one of them does. -/
theorem of_bind_error (h : f s >>= g = .error t) :
    f s = .error t ∨ ∃ u, f s = .ok u ∧ g u = .error t := by
  cases hf : f s with
  | error u =>
    rw [hf] at h
    cases h
    exact Or.inl rfl
  | ok u =>
    rw [hf] at h
    exact Or.inr ⟨u, rfl, h⟩

/-- Where two parts in a row go on, both do. -/
theorem of_bind_ok (h : f s >>= g = .ok t) : ∃ u, f s = .ok u ∧ g u = .ok t := by
  cases hf : f s with
  | error u =>
    rw [hf] at h
    cases h
  | ok u =>
    rw [hf] at h
    exact ⟨u, rfl, h⟩

/-- **A condition** does not get in the way, if it still holds when the part has returned. -/
theorem Resumes.skipUnless (h : Resumes f f') (hp : ∀ {s t : σ}, p s → f s = .error t → p t) :
    Resumes (skipUnless p f) (skipUnless p f') where
  ok {s t} heq := by
    by_cases hs : p s
    · rw [skipUnless_of_pos hs] at heq ⊢
      exact h.ok heq
    · rwa [skipUnless_of_neg hs] at heq ⊢
  error {s t} heq := by
    obtain ⟨hs, heq⟩ := of_skipUnless_error heq
    rw [skipUnless_of_pos hs, skipUnless_of_pos (hp hs heq)]
    exact h.error heq

/-- **Two parts in a row**, where the first one does nothing in a state in which the second one
returned. -/
theorem Resumes.bind (hf : Resumes f f') (hg : Resumes g g')
    (hskip : ∀ {s t : σ}, g s = .error t → f' t = .ok t) :
    Resumes (fun s ↦ f s >>= g) (fun s ↦ f' s >>= g') where
  ok {s t} heq := by
    obtain ⟨u, hu, ht⟩ := of_bind_ok heq
    rw [hf.ok hu]
    exact hg.ok ht
  error {s t} heq := by
    rcases of_bind_error heq with hwait | ⟨u, hu, hwait⟩
    · rw [hf.error hwait]
    · rw [hf.ok hu, hskip hwait]
      exact hg.error hwait

end Parts

/-! ### Loops -/

section Loop

variable (more : σ → Prop) [DecidablePred more] (exit : σ → σ)

/-- A loop, with at most `n` looks at its condition. -/
def loopWithin (body : σ → Except σ σ) : ℕ → σ → Option (Except σ σ)
  | 0, _ => none
  | n + 1, s =>
    if more s then
      match body s with
      | .ok t => loopWithin body n t
      | .error t => some (.error t)
    else some (.ok (exit s))

/-- A call of the loop returns. -/
def LoopReturns (body : σ → Except σ σ) (s : σ) (r : Except σ σ) : Prop :=
  ∃ n, loopWithin more exit body n s = some r

/-- The loop is called until it is done. -/
inductive Polled (body : σ → Except σ σ) : σ → σ → Prop
  /-- It is done. -/
  | done {s t : σ} (h : LoopReturns more exit body s (.ok t)) : Polled body s t
  /-- It has to wait, and is called again. -/
  | again {s t u : σ} (h : LoopReturns more exit body s (.error t)) (hrest : Polled body t u) :
      Polled body s u

variable {more exit} {body body' : σ → Except σ σ} {s t u : σ} {r r' : Except σ σ}

theorem loopReturns_of_not_more (h : ¬ more s) : LoopReturns more exit body s (.ok (exit s)) :=
  ⟨1, if_neg h⟩

theorem loopReturns_of_error (h : more s) (hbody : body s = .error t) :
    LoopReturns more exit body s (.error t) :=
  ⟨1, by rw [loopWithin, if_pos h, hbody]⟩

theorem loopReturns_of_ok (h : more s) (hbody : body s = .ok t)
    (hrest : LoopReturns more exit body t r) : LoopReturns more exit body s r := by
  obtain ⟨n, hn⟩ := hrest
  refine ⟨n + 1, ?_⟩
  rw [loopWithin, if_pos h, hbody]
  exact hn

/-- A loop returns in one way only. -/
theorem LoopReturns.unique (h : LoopReturns more exit body s r)
    (h' : LoopReturns more exit body s r') : r = r' := by
  obtain ⟨n, hn⟩ := h
  obtain ⟨m, hm⟩ := h'
  induction n generalizing s m with
  | zero => cases hn
  | succ n ih =>
    cases m with
    | zero => cases hm
    | succ m =>
      rw [loopWithin] at hn hm
      split at hn
      · rw [if_pos ‹_›] at hm
        cases hbody : body s with
        | error t =>
          rw [hbody] at hn hm
          exact Option.some.inj (hn.symm.trans hm)
        | ok t =>
          rw [hbody] at hn hm
          exact ih hn m hm
      · rw [if_neg ‹_›] at hm
        exact Option.some.inj (hn.symm.trans hm)

/-- **A loop that does not wait** never returns, if its condition always holds. -/
theorem not_loopReturns (hmore : ∀ s, more s) (hbody : ∀ s t, body s ≠ .error t) :
    ¬ LoopReturns more exit body s r := by
  rintro ⟨n, hn⟩
  induction n generalizing s with
  | zero => cases hn
  | succ n ih =>
    rw [loopWithin, if_pos (hmore s)] at hn
    cases hstep : body s with
    | error t => exact hbody s t hstep
    | ok t =>
      rw [hstep] at hn
      exact ih hn

/-- Where a polled loop is done, so is the blocking one. -/
theorem Resumes.loop_ok (h : Resumes body body')
    (hret : LoopReturns more exit body s (.ok t)) : LoopReturns more exit body' s (.ok t) := by
  obtain ⟨n, hn⟩ := hret
  induction n generalizing s with
  | zero => cases hn
  | succ n ih =>
    rw [loopWithin] at hn
    split at hn
    · rename_i hs
      cases hbody : body s with
      | error u =>
        rw [hbody] at hn
        cases hn
      | ok u =>
        rw [hbody] at hn
        exact loopReturns_of_ok hs (h.ok hbody) (ih hn)
    · rename_i hs
      cases hn
      exact loopReturns_of_not_more hs

/-- Where a polled loop has to wait, the blocking one does from there what it does before. -/
theorem Resumes.loop_error (h : Resumes body body')
    (hmore : ∀ {s t : σ}, more s → body s = .error t → more t)
    (hret : LoopReturns more exit body s (.error t)) (hrest : LoopReturns more exit body' t r) :
    LoopReturns more exit body' s r := by
  obtain ⟨n, hn⟩ := hret
  induction n generalizing s with
  | zero => cases hn
  | succ n ih =>
    rw [loopWithin] at hn
    split at hn
    · rename_i hs
      cases hbody : body s with
      | error u =>
        rw [hbody] at hn
        obtain rfl : u = t := Except.error.inj (Option.some.inj hn)
        obtain ⟨m, hm⟩ := hrest
        cases m with
        | zero => cases hm
        | succ m =>
          rw [loopWithin, if_pos (hmore hs hbody), h.error hbody] at hm
          exact ⟨m + 1, by rw [loopWithin, if_pos hs, hm]⟩
      | ok u =>
        rw [hbody] at hn
        exact loopReturns_of_ok hs (h.ok hbody) (ih hn)
    · cases hn

/-- **Polling** leads to the state to which the blocking loop leads. -/
theorem Resumes.polled (h : Resumes body body')
    (hmore : ∀ {s t : σ}, more s → body s = .error t → more t)
    (hpolled : Polled more exit body s t) : LoopReturns more exit body' s (.ok t) := by
  induction hpolled with
  | done hret => exact h.loop_ok hret
  | again hret _ ih => exact h.loop_error hmore hret ih

/-- **Polling ends** if each call returns, and waiting uses something up. -/
theorem exists_polled (Inv : σ → Prop) (measure : σ → ℕ)
    (hret : ∀ s, Inv s → ∃ r, LoopReturns more exit body s r)
    (hwait : ∀ {s t : σ}, Inv s → LoopReturns more exit body s (.error t) →
      Inv t ∧ measure t < measure s) (hs : Inv s) : ∃ t, Polled more exit body s t := by
  induction hn : measure s using Nat.strongRecOn generalizing s with
  | _ n ih =>
    obtain ⟨r, hr⟩ := hret s hs
    cases r with
    | ok t => exact ⟨t, .done hr⟩
    | error t =>
      obtain ⟨ht, hlt⟩ := hwait hs hr
      obtain ⟨u, hu⟩ := ih (measure t) (hn ▸ hlt) ht rfl
      exact ⟨u, .again hr hu⟩

end Loop

end PurleyFirmware
