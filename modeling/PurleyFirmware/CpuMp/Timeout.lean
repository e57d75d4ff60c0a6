import Mathlib

/-!
# `CalculateTimeout` and `CheckTimeout`

A timeout of the MP services is a budget of ticks of the performance counter, and the polls add up the
ticks that have passed. The counter runs from its start value to its end value, up or down, and rolls
over; the difference of two readings less than one period apart is the number of ticks between them,
once the sign is turned for a counter that counts down and a period is added for one that has rolled
over (`elapsed_eq`). So the total is right for every counter (`totalTime_pollAll`).

The budget is a product of two 64-bit numbers before it is divided. When the product is not below
`2 ^ 64` it is the wrong number: the timeout comes too early, or is taken as infinite.
-/

namespace PurleyFirmware.CpuMp

/-! ### The performance counter -/

/-- What `GetPerformanceCounterProperties` returns. -/
structure PerformanceCounter where
  startValue : BitVec 64
  endValue : BitVec 64
  /-- In Hz. -/
  frequency : BitVec 64
  deriving DecidableEq, Repr

namespace PerformanceCounter

variable (c : PerformanceCounter)

/-- The distance between the start and the end value. -/
def span : ℕ := (c.endValue.toNat - c.startValue.toNat) + (c.startValue.toNat - c.endValue.toNat)

/-- The number of values that the counter takes before it rolls over. -/
def period : ℕ := c.span + 1

/-- `GetPerformanceCounter`, `ticks` ticks after the counter has rolled over. -/
def reading (ticks : ℕ) : BitVec 64 :=
  if c.startValue ≤ c.endValue then c.startValue + BitVec.ofNat 64 (ticks % c.period)
  else c.startValue - BitVec.ofNat 64 (ticks % c.period)

end PerformanceCounter

/-! ### The two functions -/

/-- `CalculateTimeout`: the budget in ticks. -/
def calculateTimeout (c : PerformanceCounter) (timeoutInMicroseconds : BitVec 64) : BitVec 64 :=
  if timeoutInMicroseconds = 0 then 0 else c.frequency * timeoutInMicroseconds / 1000000

/-- `PreviousTime` and `TotalTime`, which the caller keeps. -/
structure TimeoutState where
  previousTime : BitVec 64
  totalTime : BitVec 64
  deriving DecidableEq, Repr

/-- `Cycle`, an `INT64`. -/
def cycle (c : PerformanceCounter) : BitVec 64 :=
  let difference := c.endValue - c.startValue
  (if difference.slt 0 then -difference else difference) + 1

/-- `Delta`, an `INT64`. -/
def delta (c : PerformanceCounter) (previousTime currentTime : BitVec 64) : BitVec 64 :=
  let difference := currentTime - previousTime
  let directed := if c.endValue < c.startValue then -difference else difference
  if directed.slt 0 then directed + cycle c else directed

/-- `CheckTimeout`. -/
def checkTimeout (c : PerformanceCounter) (currentTime : BitVec 64) (s : TimeoutState)
    (timeout : BitVec 64) : Bool × TimeoutState :=
  if timeout = 0 then (false, s)
  else
    let totalTime := s.totalTime + delta c s.previousTime currentTime
    (decide (timeout < totalTime), ⟨currentTime, totalTime⟩)

/-! ### Polls -/

/-- One poll, `ticks` ticks after the last reading: where the counter is, and what the caller
keeps. -/
def poll (c : PerformanceCounter) (timeout : BitVec 64) (x : ℕ × TimeoutState) (ticks : ℕ) :
    ℕ × TimeoutState :=
  (x.1 + ticks, (checkTimeout c (c.reading (x.1 + ticks)) x.2 timeout).2)

/-- `CalculateTimeout` when the counter is at `origin`, `TotalTime` set to 0, and then polls with as
many ticks before each as the list says. -/
def pollAll (c : PerformanceCounter) (timeout : BitVec 64) (origin : ℕ) (polls : List ℕ) :
    ℕ × TimeoutState :=
  polls.foldl (poll c timeout) (origin, ⟨c.reading origin, 0⟩)

/-- What a further poll returns. -/
def expired (c : PerformanceCounter) (timeout : BitVec 64) (origin : ℕ) (polls : List ℕ)
    (ticks : ℕ) : Bool :=
  let x := pollAll c timeout origin polls
  (checkTimeout c (c.reading (x.1 + ticks)) x.2 timeout).1

/-- The callers do not poll again when the timeout has expired. -/
def UntilExpired (c : PerformanceCounter) (timeout : BitVec 64) (origin : ℕ) (polls : List ℕ) :
    Prop :=
  ∀ before ticks after, polls = before ++ ticks :: after → after ≠ [] →
    expired c timeout origin before ticks = false

/-- The total is the number of ticks that have passed (as a `UINT64`, if polls go on forever), and no
poll finds the timeout expired before its time. -/
structure HonestTimeout (c : PerformanceCounter) (timeoutInMicroseconds : BitVec 64) : Prop where
  total : ∀ origin polls, (∀ ticks ∈ polls, ticks < c.period) →
    (pollAll c (calculateTimeout c timeoutInMicroseconds) origin polls).2.totalTime =
      BitVec.ofNat 64 polls.sum
  untilExpired : ∀ origin polls, (∀ ticks ∈ polls, ticks < c.period) →
    UntilExpired c (calculateTimeout c timeoutInMicroseconds) origin polls →
    (pollAll c (calculateTimeout c timeoutInMicroseconds) origin polls).2.totalTime.toNat =
      polls.sum
  notEarly : ∀ origin polls ticks, (∀ t ∈ polls, t < c.period) → ticks < c.period →
    expired c (calculateTimeout c timeoutInMicroseconds) origin polls ticks = true →
    timeoutInMicroseconds.toNat * c.frequency.toNat ≤ (polls.sum + ticks) * 1000000

/-! ### The difference of two readings -/

variable {c : PerformanceCounter}

theorem slt_zero_iff (x : BitVec 64) : x.slt 0 = true ↔ 2 ^ 63 ≤ x.toNat := by
  change x.slt 0#64 = true ↔ _
  rw [BitVec.slt_zero_eq_msb, BitVec.msb_eq_decide, decide_eq_true_eq]

/-- `Cycle` is the period. -/
theorem cycle_eq (h : c.span < 2 ^ 63) : cycle c = BitVec.ofNat 64 c.period := by
  have hstart := c.startValue.isLt
  have hend := c.endValue.isLt
  have hspan : c.span =
    (c.endValue.toNat - c.startValue.toNat) + (c.startValue.toNat - c.endValue.toNat) := rfl
  have hdistance : (if (c.endValue - c.startValue).slt 0 then -(c.endValue - c.startValue)
      else c.endValue - c.startValue) = BitVec.ofNat 64 c.span := by
    refine BitVec.eq_of_toNat_eq ?_
    split
    · rename_i hneg
      rw [slt_zero_iff, BitVec.toNat_sub] at hneg
      rw [BitVec.toNat_neg, BitVec.toNat_sub, BitVec.toNat_ofNat]
      omega
    · rename_i hneg
      rw [slt_zero_iff, BitVec.toNat_sub] at hneg
      rw [BitVec.toNat_sub, BitVec.toNat_ofNat]
      omega
  rw [cycle, hdistance, PerformanceCounter.period, BitVec.ofNat_add]
  rfl

/-- The difference of two positions, of which at most the later has rolled over. -/
theorem elapsed_eq {p q ticks period : ℕ} (hp : p < period) (hperiod : period ≤ 2 ^ 63)
    (hticks : ticks < period) (hq : q = (p + ticks) % period) :
    (if (BitVec.ofNat 64 q - BitVec.ofNat 64 p).slt 0
      then BitVec.ofNat 64 q - BitVec.ofNat 64 p + BitVec.ofNat 64 period
      else BitVec.ofNat 64 q - BitVec.ofNat 64 p) = BitVec.ofNat 64 ticks := by
  have hrolled : q = p + ticks ∧ q < period ∨ q + period = p + ticks ∧ q < p := by
    rcases Nat.lt_or_ge (p + ticks) period with hlt | hge
    · rw [Nat.mod_eq_of_lt hlt] at hq
      exact .inl ⟨hq, hq ▸ hlt⟩
    · rw [Nat.mod_eq_sub_mod hge, Nat.mod_eq_of_lt (by omega)] at hq
      exact .inr ⟨by omega, by omega⟩
  have hdifference : (BitVec.ofNat 64 q - BitVec.ofNat 64 p).toNat = (2 ^ 64 - p + q) % 2 ^ 64 := by
    clear hq
    rw [BitVec.toNat_sub, BitVec.toNat_ofNat, BitVec.toNat_ofNat]
    omega
  refine BitVec.eq_of_toNat_eq ?_
  split
  · rename_i hneg
    rw [slt_zero_iff, hdifference] at hneg
    rw [BitVec.toNat_add, hdifference, BitVec.toNat_ofNat, BitVec.toNat_ofNat]
    omega
  · rename_i hneg
    rw [slt_zero_iff, hdifference] at hneg
    rw [hdifference, BitVec.toNat_ofNat]
    omega

/-- Whatever the direction, the difference of two readings is that of the positions. -/
theorem directed_eq (c : PerformanceCounter) (p q : ℕ) :
    (if c.endValue < c.startValue then -(c.reading q - c.reading p) else c.reading q - c.reading p) =
      BitVec.ofNat 64 (q % c.period) - BitVec.ofNat 64 (p % c.period) := by
  rw [PerformanceCounter.reading, PerformanceCounter.reading]
  by_cases hup : c.startValue ≤ c.endValue
  · rw [if_neg (BitVec.not_lt.2 hup), if_pos hup, if_pos hup]
    bv_omega
  · rw [if_pos (BitVec.not_le.1 hup), if_neg hup, if_neg hup]
    bv_omega

/-- `Delta` is the number of ticks between two readings less than a period apart. -/
theorem delta_eq (h : c.span < 2 ^ 63) (position : ℕ) {ticks : ℕ} (hticks : ticks < c.period) :
    delta c (c.reading position) (c.reading (position + ticks)) = BitVec.ofNat 64 ticks := by
  have hperiod : c.period = c.span + 1 := rfl
  rw [delta, directed_eq, cycle_eq h]
  refine elapsed_eq (Nat.mod_lt _ (by omega)) (by omega) hticks ?_
  rw [Nat.add_mod, Nat.mod_eq_of_lt hticks]

/-! ### The total -/

variable {timeout : BitVec 64} {origin : ℕ} {polls : List ℕ}

theorem pollAll_append (c : PerformanceCounter) (timeout : BitVec 64) (origin : ℕ)
    (polls : List ℕ) (ticks : ℕ) :
    pollAll c timeout origin (polls ++ [ticks]) = poll c timeout (pollAll c timeout origin polls) ticks := by
  rw [pollAll, List.foldl_append]
  rfl

/-- **The total**, for every counter: the ticks of all polls. -/
theorem pollAll_eq (h : c.span < 2 ^ 63) (htimeout : timeout ≠ 0)
    (hclose : ∀ ticks ∈ polls, ticks < c.period) :
    pollAll c timeout origin polls =
      (origin + polls.sum, ⟨c.reading (origin + polls.sum), BitVec.ofNat 64 polls.sum⟩) := by
  induction polls using List.reverseRecOn with
  | nil => rfl
  | append_singleton polls ticks ih =>
    have hticks := hclose ticks (List.mem_append_right _ List.mem_cons_self)
    rw [pollAll_append, ih fun t ht ↦ hclose t (List.mem_append_left _ ht), poll, checkTimeout,
      if_neg htimeout, delta_eq h _ hticks, List.sum_append, List.sum_singleton, Nat.add_assoc,
      BitVec.ofNat_add]

/-- A poll compares what has passed with the budget. -/
theorem expired_eq (h : c.span < 2 ^ 63) (htimeout : timeout ≠ 0)
    (hclose : ∀ ticks ∈ polls, ticks < c.period) {ticks : ℕ} (hticks : ticks < c.period) :
    expired c timeout origin polls ticks =
      decide (timeout < BitVec.ofNat 64 (polls.sum + ticks)) := by
  rw [expired, pollAll_eq h htimeout hclose]
  change (checkTimeout c (c.reading (origin + polls.sum + ticks)) _ timeout).1 = _
  rw [checkTimeout, if_neg htimeout, delta_eq h _ hticks, BitVec.ofNat_add]

/-- As long as no poll has returned `TRUE`, less than `2 ^ 64` ticks have passed. -/
theorem sum_lt_of_untilExpired (h : c.span < 2 ^ 63) (htimeout : timeout ≠ 0)
    (hbudget : timeout.toNat < 2 ^ 63) (hclose : ∀ ticks ∈ polls, ticks < c.period)
    (huntil : UntilExpired c timeout origin polls) : polls.sum < 2 ^ 64 := by
  have hperiod : c.period = c.span + 1 := rfl
  induction polls using List.reverseRecOn with
  | nil => exact Nat.two_pow_pos 64
  | append_singleton polls last ih =>
    have hlast := hclose last (List.mem_append_right _ List.mem_cons_self)
    have hbefore : ∀ ticks ∈ polls, ticks < c.period :=
      fun ticks ht ↦ hclose ticks (List.mem_append_left _ ht)
    have hsum : polls.sum < 2 ^ 64 := ih hbefore fun before ticks after heq hafter ↦
      huntil before ticks (after ++ [last]) (by rw [heq]; simp) (by simp)
    have hle : polls.sum ≤ timeout.toNat := by
      rcases List.eq_nil_or_concat' polls with rfl | ⟨before, ticks, rfl⟩
      · exact Nat.zero_le _
      · have hfalse := huntil before ticks [last] (by simp) (List.cons_ne_nil _ _)
        rw [expired_eq h htimeout (fun t ht ↦ hbefore t (List.mem_append_left _ ht))
          (hbefore ticks (List.mem_append_right _ List.mem_cons_self)), decide_eq_false_iff_not,
          BitVec.not_lt, BitVec.le_def, BitVec.toNat_ofNat] at hfalse
        rw [List.sum_append, List.sum_singleton] at hsum ⊢
        omega
    rw [List.sum_append, List.sum_singleton]
    omega

/-- Without a timeout the polls leave everything as it is. -/
theorem pollAll_of_zero : (pollAll c 0 origin polls).2.totalTime = 0 := by
  induction polls using List.reverseRecOn with
  | nil => rfl
  | append_singleton polls ticks ih => rw [pollAll_append, poll, checkTimeout, if_pos rfl, ih]

/-! ### The budget -/

theorem toNat_calculateTimeout {timeoutInMicroseconds : BitVec 64} (h : timeoutInMicroseconds ≠ 0) :
    (calculateTimeout c timeoutInMicroseconds).toNat =
      c.frequency.toNat * timeoutInMicroseconds.toNat % 2 ^ 64 / 1000000 := by
  rw [calculateTimeout, if_neg h, BitVec.toNat_udiv, BitVec.toNat_mul]
  rfl

/-- A budget that is too small is used up by polls of one tick each. -/
theorem lt_period_of_mem_replicate (hspan : 0 < c.span) (n : ℕ) :
    ∀ ticks ∈ List.replicate n 1, ticks < c.period := by
  intro ticks ht
  have hperiod : c.period = c.span + 1 := rfl
  rw [List.eq_of_mem_replicate ht]
  omega

theorem span_eq_zero_iff : c.span = 0 ↔ c.startValue = c.endValue := by
  rw [PerformanceCounter.span, ← BitVec.toNat_inj]
  omega

/-- A counter with one value: no tick passes. -/
theorem honestTimeout_of_span_eq_zero (h : c.span = 0) (timeoutInMicroseconds : BitVec 64) :
    HonestTimeout c timeoutInMicroseconds := by
  have hperiod : c.period = 1 := by rw [PerformanceCounter.period, h]
  have hsum : ∀ polls : List ℕ, (∀ ticks ∈ polls, ticks < c.period) → polls.sum = 0 := by
    intro polls hclose
    refine List.sum_eq_zero fun ticks ht ↦ ?_
    have hlt := hclose ticks ht
    omega
  have htotal : ∀ origin polls, (∀ ticks ∈ polls, ticks < c.period) →
      (pollAll c (calculateTimeout c timeoutInMicroseconds) origin polls).2.totalTime = 0 := by
    intro origin polls hclose
    by_cases hzero : calculateTimeout c timeoutInMicroseconds = 0
    · rw [hzero, pollAll_of_zero]
    · rw [pollAll_eq (by omega) hzero hclose, hsum polls hclose]
      rfl
  refine ⟨fun origin polls hclose ↦ ?_, fun origin polls hclose _ ↦ ?_,
    fun origin polls ticks hclose hticks hexpired ↦ ?_⟩
  · rw [htotal origin polls hclose, hsum polls hclose]
    rfl
  · rw [htotal origin polls hclose, hsum polls hclose]
    rfl
  · by_cases hzero : calculateTimeout c timeoutInMicroseconds = 0
    · rw [hzero, expired, checkTimeout, if_pos rfl] at hexpired
      cases hexpired
    · rw [expired_eq (by omega) hzero hclose hticks, hsum polls hclose, decide_eq_true_eq,
        BitVec.lt_def, BitVec.toNat_ofNat] at hexpired
      omega

/-- A product that fits in 64 bits. -/
theorem honestTimeout_of_lt (h : c.span < 2 ^ 63) (hfrequency : 1000000 ≤ c.frequency.toNat)
    {timeoutInMicroseconds : BitVec 64} (hpos : timeoutInMicroseconds ≠ 0)
    (hfits : c.frequency.toNat * timeoutInMicroseconds.toNat < 2 ^ 64) :
    HonestTimeout c timeoutInMicroseconds := by
  have hbudget := toNat_calculateTimeout (c := c) hpos
  rw [Nat.mod_eq_of_lt hfits] at hbudget
  have hone : 1 ≤ timeoutInMicroseconds.toNat :=
    Nat.one_le_iff_ne_zero.2 fun hzero ↦ hpos (BitVec.eq_of_toNat_eq hzero)
  have hproduct : 1000000 * 1 ≤ c.frequency.toNat * timeoutInMicroseconds.toNat :=
    Nat.mul_le_mul hfrequency hone
  have hne : calculateTimeout c timeoutInMicroseconds ≠ 0 := by
    intro hzero
    rw [hzero] at hbudget
    change 0 = _ at hbudget
    omega
  refine ⟨fun origin polls hclose ↦ ?_, fun origin polls hclose huntil ↦ ?_,
    fun origin polls ticks hclose hticks hexpired ↦ ?_⟩
  · rw [pollAll_eq h hne hclose]
  · rw [pollAll_eq h hne hclose, BitVec.toNat_ofNat]
    exact Nat.mod_eq_of_lt (sum_lt_of_untilExpired h hne (by omega) hclose huntil)
  · rw [expired_eq h hne hclose hticks, decide_eq_true_eq, BitVec.lt_def, BitVec.toNat_ofNat,
      hbudget] at hexpired
    have hle := Nat.mod_le (polls.sum + ticks) (2 ^ 64)
    rw [Nat.mul_comm]
    omega

/-- A product that does not fit: the timeout is infinite, or early. -/
theorem not_honestTimeout_of_le (h : c.span < 2 ^ 63) (hspan : 0 < c.span)
    {timeoutInMicroseconds : BitVec 64} (hpos : timeoutInMicroseconds ≠ 0)
    (hover : 2 ^ 64 ≤ c.frequency.toNat * timeoutInMicroseconds.toNat) :
    ¬ HonestTimeout c timeoutInMicroseconds := by
  intro honest
  have hperiod : c.period = c.span + 1 := rfl
  have hbudget := toNat_calculateTimeout (c := c) hpos
  by_cases hzero : calculateTimeout c timeoutInMicroseconds = 0
  · have htotal := honest.total 0 [1] (List.forall_mem_singleton.2 (by omega))
    rw [hzero, pollAll_of_zero] at htotal
    cases htotal
  · -- One tick after another, until the budget is used up.
    have hones := lt_period_of_mem_replicate hspan (calculateTimeout c timeoutInMicroseconds).toNat
    have hsum : (List.replicate (calculateTimeout c timeoutInMicroseconds).toNat 1).sum =
        (calculateTimeout c timeoutInMicroseconds).toNat := by
      rw [List.sum_replicate, smul_eq_mul, Nat.mul_one]
    have hexpired : expired c (calculateTimeout c timeoutInMicroseconds) 0
        (List.replicate (calculateTimeout c timeoutInMicroseconds).toNat 1) 1 = true := by
      rw [expired_eq h hzero hones (by omega), decide_eq_true_eq, BitVec.lt_def,
        BitVec.toNat_ofNat, hsum]
      omega
    have hlate := honest.notEarly 0 _ 1 hones (by omega) hexpired
    rw [hsum, Nat.mul_comm] at hlate
    omega

/-- **The timeouts are honest if and only if** the product of frequency and time fits in 64 bits (or
the counter has but one value, and never moves). -/
theorem honestTimeout_iff (h : c.span < 2 ^ 63) (hfrequency : 1000000 ≤ c.frequency.toNat)
    {timeoutInMicroseconds : BitVec 64} (hpos : timeoutInMicroseconds ≠ 0) :
    HonestTimeout c timeoutInMicroseconds ↔
      c.frequency.toNat * timeoutInMicroseconds.toNat < 2 ^ 64 ∨ c.startValue = c.endValue := by
  constructor
  · intro honest
    by_contra hnot
    obtain ⟨hover, hmoves⟩ := not_or.1 hnot
    have hspan : 0 < c.span := Nat.pos_of_ne_zero fun hzero ↦ hmoves (span_eq_zero_iff.1 hzero)
    exact not_honestTimeout_of_le h hspan hpos (Nat.le_of_not_lt hover) honest
  · rintro (hfits | hstill)
    · exact honestTimeout_of_lt h hfrequency hpos hfits
    · exact honestTimeout_of_span_eq_zero (span_eq_zero_iff.2 hstill) _

/-- A counter of 3 GHz that counts up to `2 ^ 48 - 1`. -/
def upCounter : PerformanceCounter := ⟨0, 0xFFFFFFFFFFFF, 3000000000⟩

theorem honestTimeout_iff_oneSecond : HonestTimeout upCounter 1000000 ↔
    upCounter.frequency.toNat * (1000000#64).toNat < 2 ^ 64 ∨
      upCounter.startValue = upCounter.endValue :=
  honestTimeout_iff (by decide) (by decide) (by decide)

/-- A timeout of 6148914692 microseconds, which is over 100 minutes, after 2291 ticks. -/
theorem not_honestTimeout_upCounter : ¬ HonestTimeout upCounter 6148914692 := by
  intro honest
  have hbudget : calculateTimeout upCounter 6148914692 = 2290 := by decide
  have hexpired : expired upCounter (calculateTimeout upCounter 6148914692) 0 [] 2291 = true := by
    rw [hbudget]
    decide
  have hlate := honest.notEarly 0 [] 2291 (List.forall_mem_nil _) (by decide) hexpired
  revert hlate
  decide

end PurleyFirmware.CpuMp
