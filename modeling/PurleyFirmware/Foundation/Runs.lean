import Mathlib.Order.Basic
import Mathlib.Tactic.TypeStar

/-!
# Guarded runs and call sequences

Two shapes of "every run" occur in this development, and both are set up here once, over arbitrary
types.

* A **labelled system** has initial states and a step *relation*. Its labels say which party moves
  and what it observes, so nondeterminism (interleavings, timer outcomes, callbacks) lives in the
  choice of label. `ReachableUnder ok` is reachability by steps that all satisfy a guard `ok`;
  plain reachability is the guard that is always true.
* A **call sequence** drives a *function* `σ → α → σ`. `Along next p s as` says that `p` holds of
  each call at the state in which the call is made.

## What the rules rest on

`ReachableUnder.invariant` is the only induction over runs: an invariant holds initially, every
guarded step keeps it, so it holds in every state a guarded run reaches.
`along_iff_of_invariant` is the same rule for call sequences, stated for an *equivalence* of two
per-call predicates, because the results about call sequences are exact: they say on which
sequences a property holds, not only that some condition suffices.
-/

namespace PurleyFirmware

universe u v

/-! ### Labelled systems -/

/-- A labelled transition system: initial states, and a step relation whose labels record which
party moves and what it observes. -/
structure LabelledSystem (σ : Type u) (α : Type v) where
  /-- The states a run may start in. -/
  init : σ → Prop
  /-- `step s a s'`: the system moves from `s` to `s'` under the label `a`. -/
  step : σ → α → σ → Prop

namespace LabelledSystem

variable {σ : Type u} {α : Type v} (S : LabelledSystem σ α)

/-- Reachability by steps that all satisfy the guard `ok`, read off the state before the step and
the label. -/
inductive ReachableUnder (ok : σ → α → Prop) : σ → Prop
  /-- Initial states are reachable. -/
  | init {s : σ} (hinit : S.init s) : ReachableUnder ok s
  /-- A guarded step leads from a reachable state to a reachable state. -/
  | step {s s' : σ} {a : α} (hs : ReachableUnder ok s) (hok : ok s a) (hstep : S.step s a s') :
      ReachableUnder ok s'

/-- Reachability without a guard. -/
def Reachable (s : σ) : Prop := S.ReachableUnder (fun _ _ ↦ True) s

variable {S} {ok ok' : σ → α → Prop} {Inv : σ → Prop}

/-- **The run rule.** An invariant that holds initially and is kept by every guarded step holds in
every state a guarded run reaches. The step premise may use that the state before the step is
itself reachable. -/
theorem ReachableUnder.invariant (hinit : ∀ s, S.init s → Inv s)
    (hstep : ∀ s a s', S.ReachableUnder ok s → Inv s → ok s a → S.step s a s' → Inv s')
    {s : σ} (hs : S.ReachableUnder ok s) : Inv s := by
  induction hs with
  | init h => exact hinit _ h
  | step hs hok hst ih => exact hstep _ _ _ hs ih hok hst

/-- A weaker guard reaches at least as much. -/
theorem ReachableUnder.mono (hle : ∀ s a, ok s a → ok' s a) {s : σ}
    (hs : S.ReachableUnder ok s) : S.ReachableUnder ok' s := by
  induction hs with
  | init h => exact .init h
  | step _ hok hst ih => exact .step ih (hle _ _ hok) hst

theorem ReachableUnder.reachable {s : σ} (hs : S.ReachableUnder ok s) : S.Reachable s :=
  hs.mono fun _ _ _ ↦ trivial

theorem Reachable.step {s s' : σ} {a : α} (hs : S.Reachable s) (hstep : S.step s a s') :
    S.Reachable s' :=
  ReachableUnder.step hs trivial hstep

/-- Runs a partial step function along a list of labels, stopping where a guard or the step
function refuses. -/
def exec (next : σ → α → Option σ) (guard : σ → α → Bool) : σ → List α → Option σ
  | s, [] => some s
  | s, a :: as => if guard s a then (next s a).bind fun s' ↦ exec next guard s' as else none

/-- **Concrete runs.** What `exec` computes is reached by a guarded run. -/
theorem ReachableUnder.exec {next : σ → α → Option σ} {guard : σ → α → Bool}
    (hguard : ∀ s a, guard s a = true → ok s a)
    (hnext : ∀ s a s', next s a = some s' → S.step s a s') {s s' : σ}
    (hs : S.ReachableUnder ok s) {as : List α}
    (h : LabelledSystem.exec next guard s as = some s') : S.ReachableUnder ok s' := by
  induction as generalizing s with
  | nil =>
    obtain rfl := Option.some.inj h
    exact hs
  | cons a as ih =>
    rw [LabelledSystem.exec] at h
    split at h
    · obtain ⟨t, ht, hrest⟩ := Option.bind_eq_some_iff.1 h
      exact ih (.step hs (hguard s a ‹_›) (hnext s a t ht)) hrest
    · cases h

end LabelledSystem

/-! ### Call sequences -/

section Along

variable {σ : Type u} {α : Type v} (next : σ → α → σ)

/-- `p` holds of every call of the sequence, at the state in which that call is made. -/
def Along (p : σ → α → Prop) : σ → List α → Prop
  | _, [] => True
  | s, a :: as => p s a ∧ Along p (next s a) as

variable {next} {p q r : σ → α → Prop}

@[simp] theorem along_nil {s : σ} : Along next p s [] := trivial

@[simp] theorem along_cons {s : σ} {a : α} {as : List α} :
    Along next p s (a :: as) ↔ p s a ∧ Along next p (next s a) as := Iff.rfl

/-- What holds of every call holds along every sequence. -/
theorem along_of_forall (h : ∀ s a, p s a) : ∀ (s : σ) (as : List α), Along next p s as
  | _, [] => trivial
  | s, a :: as => ⟨h s a, along_of_forall h (next s a) as⟩

/-- A decidable property of calls is decidable along a sequence. -/
instance decidableAlong [∀ s a, Decidable (p s a)] : ∀ s as, Decidable (Along next p s as)
  | _, [] => isTrue trivial
  | s, a :: as =>
    have := decidableAlong (next s a) as
    inferInstanceAs (Decidable (p s a ∧ Along next p (next s a) as))

/-- **The call-sequence rule.** If on states that satisfy an invariant, and on calls that satisfy
the standing assumption `r`, the predicates `p` and `q` agree, then they agree along every sequence
whose calls satisfy `r`. -/
theorem along_iff_of_invariant {Inv : σ → Prop}
    (hpres : ∀ s a, Inv s → r s a → p s a → Inv (next s a))
    (hiff : ∀ s a, Inv s → r s a → (p s a ↔ q s a)) :
    ∀ {s : σ} {as : List α}, Inv s → Along next r s as → (Along next p s as ↔ Along next q s as)
  | _, [], _, _ => Iff.rfl
  | s, a :: as, hs, hr => by
    rw [along_cons, along_cons]
    obtain ⟨hra, hrs⟩ := hr
    constructor
    · rintro ⟨hp, hps⟩
      exact ⟨(hiff s a hs hra).1 hp,
        (along_iff_of_invariant hpres hiff (hpres s a hs hra hp) hrs).1 hps⟩
    · rintro ⟨hq, hqs⟩
      have hp := (hiff s a hs hra).2 hq
      exact ⟨hp, (along_iff_of_invariant hpres hiff (hpres s a hs hra hp) hrs).2 hqs⟩

/-- **Executing a step function** along a sequence whose calls satisfy a guard leads to a state that
a guarded run reaches. -/
theorem LabelledSystem.ReachableUnder.foldl {S : LabelledSystem σ α}
    (hnext : ∀ s a, S.step s a (next s a)) {s : σ} (hs : S.ReachableUnder p s) {as : List α}
    (has : Along next p s as) : S.ReachableUnder p (as.foldl next s) := by
  induction as generalizing s with
  | nil => exact hs
  | cons a as ih => exact ih (.step hs has.1 (hnext s a)) has.2

end Along

end PurleyFirmware
