import Mathlib.Data.Fintype.Pigeonhole

/-!
# Pointer chases

A chain of nodes is given by a partial function `next`, and a chase follows it from a start until it
meets a node that is hit or the chain ends. Nothing is remembered of the nodes passed, so a chase of
a chain that comes back to itself does not end.

`chase` bounds the number of nodes looked at; `hop` says where the chain is after so many links,
hits or not. The results relate the two: a chase ends at the *first* hit of the chain, or, where the
chain has none, when the chain does. Over a finite type a chain ends if and only if it passes no node
twice (`exists_hop_eq_none_iff`): one direction is the pigeonhole principle, the other that a chain
that repeats a node is periodic from there on.
-/

namespace PurleyFirmware

universe u

variable {α : Type u} {next : α → Option α} {hit : α → Bool} {start : Option α}

/-- Where a chain is after `n` links, `none` once it has ended. -/
def hop (next : α → Option α) (start : Option α) : ℕ → Option α
  | 0 => start
  | n + 1 => (hop next start n).bind next

/-- A chase that looks at no more than `fuel` nodes: `none` if these were too few, `some none` at the
end of the chain, `some (some a)` at a hit. -/
def chase (next : α → Option α) (hit : α → Bool) : ℕ → Option α → Option (Option α)
  | _, none => some none
  | 0, some _ => none
  | fuel + 1, some a => if hit a then some (some a) else chase next hit fuel (next a)

/-- The node is on the chain. -/
def OnChain (next : α → Option α) (start : Option α) (a : α) : Prop :=
  ∃ n, hop next start n = some a

/-- The node is the first hit of the chain. -/
def FirstHit (next : α → Option α) (hit : α → Bool) (start : Option α) (a : α) : Prop :=
  ∃ n, hop next start n = some a ∧ hit a = true ∧
    ∀ m < n, ∀ b, hop next start m = some b → hit b = false

/-- The chain passes no node twice. -/
def AcyclicChain (next : α → Option α) (start : Option α) : Prop :=
  ∀ m n a, hop next start m = some a → hop next start n = some a → m = n

/-! ### Links -/

/-- The chain after its first link. -/
theorem hop_succ (n : ℕ) : hop next start (n + 1) = hop next (start.bind next) n := by
  induction n with
  | zero => rfl
  | succ n ih => rw [hop, ih, hop]

@[simp] theorem hop_none (n : ℕ) : hop next none n = none := by
  induction n with
  | zero => rfl
  | succ n ih => rw [hop, ih, Option.bind_none]

/-- The chain from a node `m` links on. -/
theorem hop_add (m n : ℕ) : hop next start (m + n) = hop next (hop next start m) n := by
  induction n with
  | zero => rfl
  | succ n ih => rw [← Nat.add_assoc, hop, ih, hop]

/-- A chain that has ended stays so. -/
theorem hop_eq_none_of_le {m n : ℕ} (hle : m ≤ n) (h : hop next start m = none) :
    hop next start n = none := by
  obtain ⟨k, rfl⟩ := Nat.exists_eq_add_of_le hle
  rw [hop_add, h, hop_none]

/-- A chain that comes back to a node does so for ever. -/
theorem hop_of_repeat {m p : ℕ} (h : hop next start (m + p) = hop next start m) (k : ℕ) :
    hop next start (m + k * p) = hop next start m := by
  induction k with
  | zero => rw [Nat.zero_mul, Nat.add_zero]
  | succ k ih =>
    have hshift : m + (k + 1) * p = m + p + k * p := by rw [Nat.succ_mul]; omega
    rw [hshift, hop_add, h, ← hop_add, ih]

/-- A chain that ends passes no node twice. -/
theorem acyclicChain_of_hop_eq_none {n : ℕ} (h : hop next start n = none) :
    AcyclicChain next start := by
  have hno : ∀ i j a, i < j → hop next start i = some a → hop next start j ≠ some a := by
    intro i j a hij hi hj
    obtain ⟨p, rfl⟩ := Nat.exists_eq_add_of_le hij.le
    have hperiodic := hop_of_repeat (hj.trans hi.symm) n
    have hn : n ≤ i + n * p := by
      have hmul := Nat.le_mul_of_pos_right n (show 0 < p by omega)
      omega
    have hend := hop_eq_none_of_le hn h
    rw [hperiodic, hi] at hend
    cases hend
  intro i j a hi hj
  rcases lt_trichotomy i j with hij | hij | hij
  · exact absurd hj (hno i j a hij hi)
  · exact hij
  · exact absurd hi (hno j i a hij hj)

/-- **The end of a chain.** Over a finite type a chain ends exactly if it passes no node twice. -/
theorem exists_hop_eq_none_iff [Finite α] :
    (∃ n, hop next start n = none) ↔ AcyclicChain next start := by
  constructor
  · rintro ⟨n, h⟩
    exact acyclicChain_of_hop_eq_none h
  · intro hacyclic
    by_contra hnever
    rw [not_exists] at hnever
    have hsome : ∀ n, ∃ a, hop next start n = some a := fun n ↦ Option.ne_none_iff_exists'.1 (hnever n)
    choose node hnode using hsome
    obtain ⟨i, j, hne, heq⟩ := Finite.exists_ne_map_eq_of_infinite node
    exact hne (hacyclic i j (node j) (heq ▸ hnode i) (hnode j))

/-! ### Chains that go on -/

section

variable {next' : α → Option α}

/-- A chain that has all the links of another is where the other is until that one ends. -/
theorem hop_of_links (hlinks : ∀ a b, next a = some b → next' a = some b) {n : ℕ} {a : α}
    (h : hop next start n = some a) : hop next' start n = some a := by
  induction n generalizing a with
  | zero => exact h
  | succ n ih =>
    rw [hop, Option.bind_eq_some_iff] at h ⊢
    obtain ⟨b, hb, hba⟩ := h
    exact ⟨b, ih hb, hlinks b a hba⟩

/-- The first hit of a chain that goes on is that of the shorter chain, where that has one. -/
theorem FirstHit.of_links (hlinks : ∀ a b, next a = some b → next' a = some b) {a b : α}
    (h : FirstHit next' hit start a) (hb : OnChain next start b) (hhit : hit b = true) :
    FirstHit next hit start a := by
  obtain ⟨n, hn, ha, hfirst⟩ := h
  obtain ⟨k, hk⟩ := hb
  have hnk : n ≤ k := by
    by_contra hlt
    have hmiss := hfirst k (by omega) b (hop_of_links hlinks hk)
    rw [hhit] at hmiss
    cases hmiss
  -- the shorter chain is still there at the hit of the longer one
  have hthere : hop next start n ≠ none := fun hend ↦ by
    rw [hop_eq_none_of_le hnk hend] at hk
    cases hk
  obtain ⟨c, hc⟩ := Option.ne_none_iff_exists'.1 hthere
  obtain rfl : c = a := Option.some.inj ((hop_of_links hlinks hc).symm.trans hn)
  exact ⟨n, hc, ha, fun m hm d hd ↦ hfirst m hm d (hop_of_links hlinks hd)⟩

end

/-! ### Chases -/

/-- More nodes to look at change nothing about a chase that has ended. -/
theorem chase_mono {fuel fuel' : ℕ} (hle : fuel ≤ fuel') {start : Option α} {r : Option α}
    (h : chase next hit fuel start = some r) : chase next hit fuel' start = some r := by
  induction fuel generalizing fuel' start with
  | zero => cases start with
    | none => cases fuel' <;> exact h
    | some a => cases h
  | succ fuel ih => cases start with
    | none => cases fuel' <;> exact h
    | some a =>
      obtain ⟨fuel', rfl⟩ : ∃ k, fuel' = k + 1 := ⟨fuel' - 1, by omega⟩
      rw [chase] at h ⊢
      split at h
      · rwa [if_pos ‹_›]
      · rw [if_neg ‹_›]
        exact ih (by omega) h

/-- A chase has one outcome. -/
theorem chase_unique {fuel fuel' : ℕ} {r r' : Option α} (h : chase next hit fuel start = some r)
    (h' : chase next hit fuel' start = some r') : r = r' := by
  have hmax := chase_mono (Nat.le_max_left fuel fuel') h
  rw [chase_mono (Nat.le_max_right fuel fuel') h'] at hmax
  exact (Option.some.inj hmax).symm

/-- What a chase that ended says of the chain. -/
theorem firstHit_or_end_of_chase {fuel : ℕ} {start r : Option α}
    (h : chase next hit fuel start = some r) :
    (∃ a, r = some a ∧ FirstHit next hit start a) ∨
      (r = none ∧ (∃ n, hop next start n = none) ∧ ∀ a, OnChain next start a → hit a = false) := by
  induction fuel generalizing start with
  | zero => cases start with
    | none =>
      obtain rfl := Option.some.inj h
      exact .inr ⟨rfl, ⟨0, rfl⟩, fun a ⟨n, hn⟩ ↦ by rw [hop_none] at hn; cases hn⟩
    | some a => cases h
  | succ fuel ih => cases start with
    | none =>
      obtain rfl := Option.some.inj h
      exact .inr ⟨rfl, ⟨0, rfl⟩, fun a ⟨n, hn⟩ ↦ by rw [hop_none] at hn; cases hn⟩
    | some a =>
      rw [chase] at h
      by_cases hhit : hit a = true
      · rw [if_pos hhit] at h
        obtain rfl := Option.some.inj h
        exact .inl ⟨a, rfl, 0, rfl, hhit, fun m hm ↦ absurd hm m.not_lt_zero⟩
      · rw [if_neg hhit] at h
        -- the chain from here is the chain from `a` without its first link
        have hshift : ∀ n, hop next (some a) (n + 1) = hop next (next a) n := fun n ↦ hop_succ n
        have hmiss : ∀ m b, (∀ i, m = i + 1 → hop next (next a) i = some b → hit b = false) →
            hop next (some a) m = some b → hit b = false := by
          intro m b hrest hm
          cases m with
          | zero => obtain rfl := Option.some.inj hm; exact Bool.eq_false_iff.2 hhit
          | succ i => exact hrest i rfl (hshift i ▸ hm)
        rcases ih h with ⟨b, rfl, n, hn, hb, hfirst⟩ | ⟨rfl, ⟨n, hn⟩, hnone⟩
        · refine .inl ⟨b, rfl, n + 1, (hshift n).trans hn, hb, fun m hm c hc ↦ ?_⟩
          exact hmiss m c (fun i hi hci ↦ hfirst i (by omega) c hci) hc
        · refine .inr ⟨rfl, ⟨n + 1, (hshift n).trans hn⟩, fun c ⟨m, hc⟩ ↦ ?_⟩
          exact hmiss m c (fun i _ hci ↦ hnone c ⟨i, hci⟩) hc

/-- A chase that looks at enough nodes finds the first hit. -/
theorem chase_of_firstHit {a : α} (h : FirstHit next hit start a) :
    ∃ fuel, chase next hit fuel start = some (some a) := by
  obtain ⟨n, hn, ha, hfirst⟩ := h
  induction n generalizing start with
  | zero =>
    refine ⟨1, ?_⟩
    rw [show start = some a from hn, chase, if_pos ha]
  | succ n ih => cases start with
    | none => rw [hop_none] at hn; cases hn
    | some b =>
      have hb : ¬ hit b = true := by
        have := hfirst 0 (by omega) b rfl
        simp [this]
      rw [hop_succ] at hn
      obtain ⟨fuel, hfuel⟩ := ih hn fun m hm c hc ↦
        hfirst (m + 1) (by omega) c ((hop_succ m).trans hc)
      exact ⟨fuel + 1, by rw [chase, if_neg hb]; exact hfuel⟩

/-- A chase that looks at enough nodes ends at the end of a chain without a hit. -/
theorem chase_of_end {n : ℕ} (hn : hop next start n = none)
    (hnone : ∀ a, OnChain next start a → hit a = false) :
    ∃ fuel, chase next hit fuel start = some none := by
  induction n generalizing start with
  | zero =>
    refine ⟨0, ?_⟩
    rw [show start = none from hn, chase]
  | succ n ih => cases start with
    | none => exact ⟨0, rfl⟩
    | some b =>
      have hb : ¬ hit b = true := by
        have := hnone b ⟨0, rfl⟩
        simp [this]
      rw [hop_succ] at hn
      obtain ⟨fuel, hfuel⟩ := ih hn fun a ⟨m, ha⟩ ↦ hnone a ⟨m + 1, (hop_succ m).trans ha⟩
      exact ⟨fuel + 1, by rw [chase, if_neg hb]; exact hfuel⟩

/-- A chain with a hit has a first one. -/
theorem exists_firstHit {a : α} (ha : OnChain next start a) (hhit : hit a = true) :
    ∃ b, FirstHit next hit start b := by
  classical
  have hex : ∃ n b, hop next start n = some b ∧ hit b = true := by
    obtain ⟨n, hn⟩ := ha
    exact ⟨n, a, hn, hhit⟩
  obtain ⟨b, hb, hbhit⟩ := Nat.find_spec hex
  refine ⟨b, Nat.find hex, hb, hbhit, fun m hm c hc ↦ ?_⟩
  have hmin := Nat.find_min hex hm
  by_contra hne
  exact hmin ⟨c, hc, Bool.eq_true_of_not_eq_false hne⟩

/-- **Chases that end.** Over a finite type, a chase ends with a bound large enough exactly if the
chain has a hit or passes no node twice. -/
theorem exists_chase_iff [Finite α] :
    (∃ fuel r, chase next hit fuel start = some r) ↔
      (∃ a, OnChain next start a ∧ hit a = true) ∨ AcyclicChain next start := by
  constructor
  · rintro ⟨fuel, r, h⟩
    rcases firstHit_or_end_of_chase h with ⟨a, -, n, hn, ha, -⟩ | ⟨-, hend, -⟩
    · exact .inl ⟨a, ⟨n, hn⟩, ha⟩
    · exact .inr (exists_hop_eq_none_iff.1 hend)
  · intro h
    by_cases hhit : ∃ a, OnChain next start a ∧ hit a = true
    · obtain ⟨a, ha, hahit⟩ := hhit
      obtain ⟨b, hb⟩ := exists_firstHit ha hahit
      obtain ⟨fuel, hfuel⟩ := chase_of_firstHit hb
      exact ⟨fuel, some b, hfuel⟩
    · obtain ⟨n, hn⟩ := exists_hop_eq_none_iff.2 (h.resolve_left hhit)
      obtain ⟨fuel, hfuel⟩ := chase_of_end hn fun a ha ↦ by
        by_contra hne
        exact hhit ⟨a, ha, Bool.eq_true_of_not_eq_false hne⟩
      exact ⟨fuel, none, hfuel⟩

end PurleyFirmware
