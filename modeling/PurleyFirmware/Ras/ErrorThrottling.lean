import Mathlib.Logic.Function.Basic
import Mathlib.Tactic.IntervalCases
import PurleyFirmware.Foundation.Runs

/-!
# Throttling the SMIs of corrected memory errors

Every corrected memory error is counted, and when there are too many of them in a day, the reports
of the memory controller are disabled. The day is kept for each rank, by a time stamp that is set
when the first error arrives and again when an error arrives after the day is over. The count is
kept for each node, and `EnableElogMemory` is the only function that resets it: a day that begins
leaves it as it is.

The reports should be disabled only if more than `PLATFORM_ERROR_COUNT_THRESHOLD` errors of the node
were counted since the day of the rank began and the day is not over, and the two words that are
passed should be the socket and the controller of the node. `along_ok_of_clean` says for which runs
this is so. Four things can go wrong:

* the time stamps have an entry for each socket, and are indexed by the node;
* the day of a rank begins while the count of its node is not zero;
* the socket is stored only if the controller is enabled, and the call is made in any case, since
  the braces are missing;
* the hours are computed with months of 30 days, so after a month of 31 days one day is missing.

The trace keeps, besides the two arrays, when the day of each rank began, what the count was then,
and how many errors of the node were counted since.
-/

namespace PurleyFirmware.Ras

/-! ### The real-time clock -/

/-- The days of a month. The two digits of the year are those of a year from 2000 to 2099. -/
def daysInMonth (year month : ℕ) : ℕ :=
  if month = 2 then if year % 4 = 0 then 29 else 28
  else if month = 4 ∨ month = 6 ∨ month = 9 ∨ month = 11 then 30
  else 31

/-- A time that the clock can show. -/
structure CalendarTime where
  year : ℕ
  month : ℕ
  day : ℕ
  hour : ℕ
  minute : ℕ
  second : ℕ
  year_lt : year < 100
  month_pos : 1 ≤ month
  month_le : month ≤ 12
  day_pos : 1 ≤ day
  day_le : day ≤ daysInMonth year month
  hour_lt : hour < 24
  minute_lt : minute < 60
  second_lt : second < 60

/-- The days of a year before a month. -/
def daysBeforeMonth (year month : ℕ) : ℕ :=
  ((List.range month).drop 1).foldl (fun days m ↦ days + daysInMonth year m) 0

/-- The days from the beginning of the year 2000 to that of the month. -/
def CalendarTime.monthStart (t : CalendarTime) : ℕ :=
  365 * t.year + (t.year + 3) / 4 + daysBeforeMonth t.year t.month

/-- The hours since the beginning of the year 2000. -/
def CalendarTime.hours (t : CalendarTime) : ℕ := (t.monthStart + (t.day - 1)) * 24 + t.hour

/-- A register of the clock holds two decimal digits. -/
def rtcRead (n : ℕ) : ℕ := n / 10 * 16 + n % 10

/-- `BCD2DEC`. -/
def bcd2dec (x : ℕ) : ℕ := (x &&& 0x0F) + (x >>> 4) * 10

/-- `TIME_STAMP`. -/
structure TimeStamp where
  year : ℕ
  month : ℕ
  day : ℕ
  hour : ℕ
  minute : ℕ
  second : ℕ

/-- `EfiSmmGetTime`. The fields of the time stamp have 7, 4, 5, 5, 6 and 6 bits. -/
def efiSmmGetTime (t : CalendarTime) : TimeStamp where
  year := bcd2dec (rtcRead t.year) % 2 ^ 7
  month := bcd2dec (rtcRead t.month) % 2 ^ 4
  day := bcd2dec (rtcRead t.day) % 2 ^ 5
  hour := bcd2dec (rtcRead t.hour) % 2 ^ 5
  minute := bcd2dec (rtcRead t.minute) % 2 ^ 6
  second := bcd2dec (rtcRead t.second) % 2 ^ 6

/-- `CurHours` and `PrevHours`. -/
def TimeStamp.hours (t : TimeStamp) : ℕ :=
  t.year * 365 * 24 + t.month * 30 * 24 + t.day * 24 + t.hour

/-- `EfiSmmGetNoofHoursPast`, where the clock shows `cur`. -/
def efiSmmGetNoofHoursPast (prevTime : TimeStamp) (cur : CalendarTime) : ℕ :=
  if (efiSmmGetTime cur).hours > prevTime.hours then
    (efiSmmGetTime cur).hours - prevTime.hours
  else 0

theorem bcd2dec_rtcRead (n : ℕ) : bcd2dec (rtcRead n) = n := by
  rw [bcd2dec, rtcRead, Nat.and_two_pow_sub_one_eq_mod _ 4, Nat.shiftRight_eq_div_pow]
  omega

theorem daysInMonth_le (year month : ℕ) : daysInMonth year month ≤ 31 := by
  unfold daysInMonth
  split_ifs <;> omega

/-- What is stored is the date and the hour that the clock shows. -/
theorem hours_efiSmmGetTime (t : CalendarTime) :
    (efiSmmGetTime t).hours = t.year * 365 * 24 + t.month * 30 * 24 + t.day * 24 + t.hour := by
  obtain ⟨year, month, day, hour, minute, second, hyear, -, hmonth, -, hday, hhour, -, -⟩ := t
  have hday' := hday.trans (daysInMonth_le year month)
  simp only [efiSmmGetTime, TimeStamp.hours, bcd2dec_rtcRead]
  rw [Nat.mod_eq_of_lt (by omega), Nat.mod_eq_of_lt (by omega), Nat.mod_eq_of_lt (by omega),
    Nat.mod_eq_of_lt (by omega)]

/-- If the clock has advanced, the months and years that have passed are at least as long in the
computation as they are in the calendar. -/
def NoDayLost (prev cur : CalendarTime) : Prop :=
  prev.hours ≤ cur.hours →
    cur.monthStart + (prev.year * 365 + prev.month * 30) ≤
      prev.monthStart + (cur.year * 365 + cur.month * 30)

instance (prev cur : CalendarTime) : Decidable (NoDayLost prev cur) :=
  inferInstanceAs (Decidable (_ → _))

/-- Within a month no day is lost. -/
theorem noDayLost_of_sameMonth {prev cur : CalendarTime} (hyear : cur.year = prev.year)
    (hmonth : cur.month = prev.month) : NoDayLost prev cur := by
  intro _
  rw [CalendarTime.monthStart, CalendarTime.monthStart, hyear, hmonth]

/-- If no day is lost, not more hours have passed than are computed. -/
theorem NoDayLost.hours_le {prev cur : CalendarTime} (h : NoDayLost prev cur) {n : ℕ}
    (hpast : efiSmmGetNoofHoursPast (efiSmmGetTime prev) cur ≤ n) : cur.hours ≤ prev.hours + n := by
  rcases Nat.lt_or_ge cur.hours prev.hours with hback | hadvanced
  · omega
  · have hmonths := h hadvanced
    have hprev := prev.day_pos
    have hcur := cur.day_pos
    rw [efiSmmGetNoofHoursPast, hours_efiSmmGetTime, hours_efiSmmGetTime] at hpast
    rw [CalendarTime.hours, CalendarTime.hours]
    split at hpast <;> omega

/-! ### The code -/

/-- `PLATFORM_PER_RANK_THRESHOLD_DURATION_HOURS`. -/
def platformPerRankThresholdDurationHours : ℕ := 24

/-- `PLATFORM_ERROR_COUNT_THRESHOLD`. -/
def platformErrorCountThreshold : ℕ := 80

/-- What the platform fixes. -/
structure MemoryNodes where
  /-- `MAX_SOCKET`. -/
  maxSocket : ℕ
  /-- `MAX_IMC`. -/
  maxImc : ℕ
  /-- `MC_MAX_NODE`. -/
  mcMaxNode : ℕ
  /-- `MAX_CH`. -/
  maxCh : ℕ
  /-- `MAX_MC_CH`. -/
  maxMcCh : ℕ
  /-- `MAX_RANK_CH`. -/
  maxRankCh : ℕ
  /-- The nodes are counted with `UINT8`. -/
  mcMaxNode_le : mcMaxNode ≤ 255
  /-- `NODE_TO_SKT`. -/
  nodeToSkt : ℕ → ℕ
  /-- `NODE_TO_MC`. -/
  nodeToMc : ℕ → ℕ
  /-- `SKTMC_TO_NODE`. -/
  sktmcToNode : ℕ → ℕ → ℕ
  /-- `NODECH_TO_SKTCH`. -/
  nodechToSktch : ℕ → ℕ → ℕ

/-- What the functions read of `mRasTopology->SystemInfo.SocketInfo`. -/
structure SocketInfo where
  /-- `Valid` is not zero. -/
  valid : ℕ → Bool
  /-- `imcEnabled[Mc]` is not zero. -/
  imcEnabled : ℕ → ℕ → Bool

/-- What `CorrectedErrorSMIThrottling` reads of `MemoryErrRecord->Section`. -/
structure MemoryErrorSection (M : MemoryNodes) where
  /-- `PLATFORM_MEM_NODE_VALID` is set. -/
  nodeValid : Bool
  /-- `PLATFORM_MEM_CARD_VALID` is set. -/
  cardValid : Bool
  /-- `PLATFORM_RANK_NUMBER_VALID` is set. -/
  rankValid : Bool
  node : ℕ
  card : ℕ
  rankNumber : ℕ
  node_lt : node < M.mcMaxNode
  card_lt : card < M.maxCh
  rankNumber_lt : rankNumber < M.maxRankCh

/-- All three bits are set. -/
def MemoryErrorSection.allValid {M : MemoryNodes} (e : MemoryErrorSection M) : Bool :=
  e.nodeValid && e.cardValid && e.rankValid

/-- `ExtData`, of which the first word may not be initialised. -/
structure ReportingTarget where
  skt : Option ℕ
  mc : ℕ
  deriving DecidableEq

/-- The static arrays of `MemoryErrorHandler.c`. -/
structure ThrottleVars where
  mEccErrorSmiCount : ℕ → BitVec 32
  mCorrectedErrorRankTimeStamp : ℕ → ℕ → ℕ → TimeStamp

/-- An array that is indexed by node, channel and rank, with one entry changed. -/
def updateRank {α : Type*} (f : ℕ → ℕ → ℕ → α) (node ch rank : ℕ) (a : α) : ℕ → ℕ → ℕ → α :=
  fun n c r ↦ if n = node ∧ c = ch ∧ r = rank then a else f n c r

/-- `EnableElogMemory`. -/
def enableElogMemory (M : MemoryNodes) (memErrEn : Bool) (info : SocketInfo) (s : ThrottleVars) :
    ThrottleVars :=
  if memErrEn then
    { mEccErrorSmiCount node := if node < M.mcMaxNode then 0 else s.mEccErrorSmiCount node
      mCorrectedErrorRankTimeStamp socket ch rank :=
        let stamp := s.mCorrectedErrorRankTimeStamp socket ch rank
        let visited := (List.range M.maxImc).any fun mc ↦ info.imcEnabled socket mc &&
          (List.range M.maxMcCh).any fun nodeCh ↦
            M.nodechToSktch (M.sktmcToNode socket mc) nodeCh == ch
        if socket < M.maxSocket ∧ info.valid socket = true ∧ visited = true ∧
            rank < M.maxRankCh then
          { stamp with year := 0 }
        else stamp }
  else s

/-- A call of `CorrectedErrorSMIThrottling`. -/
structure ThrottleCall (M : MemoryNodes) where
  /-- The record. -/
  error : MemoryErrorSection M
  /-- What the clock shows first. -/
  cur : CalendarTime
  /-- What it shows when the time stamp is set again. -/
  reset : CalendarTime
  /-- The topology. -/
  info : SocketInfo

/-- How a call treats an error. -/
inductive Treatment
  /-- A bit is not set. -/
  | ignored
  /-- The year is 0, so that the time stamp is set. -/
  | first
  /-- The error is counted. -/
  | counted
  /-- The day is over, so that the time stamp is set again. -/
  | expired
  deriving DecidableEq

section Call

variable {M : MemoryNodes}

/-- The time stamp that the record selects. -/
def ThrottleCall.stamp (c : ThrottleCall M) (s : ThrottleVars) : TimeStamp :=
  s.mCorrectedErrorRankTimeStamp c.error.node c.error.card c.error.rankNumber

/-- The conditions of `CorrectedErrorSMIThrottling`. -/
def ThrottleCall.treatment (c : ThrottleCall M) (s : ThrottleVars) : Treatment :=
  if c.error.allValid then
    if (c.stamp s).year = 0 then .first
    else if efiSmmGetNoofHoursPast (c.stamp s) c.cur ≤ platformPerRankThresholdDurationHours then
      .counted
    else .expired
  else .ignored

/-- The call of `ProcMemDisableReporting`, where the count is above the threshold. The assignment of
the socket is the only statement under the condition. -/
def ThrottleCall.extData (c : ThrottleCall M) : ReportingTarget :=
  let skt := M.nodeToSkt (c.error.node % 2 ^ 8)
  let mc := M.nodeToMc c.error.node
  { skt := if c.info.imcEnabled skt mc then some skt else none
    mc := mc }

/-- `CorrectedErrorSMIThrottling`, and what it passes to `ProcMemDisableReporting` where it calls
it. -/
def correctedErrorSMIThrottling (c : ThrottleCall M) (s : ThrottleVars) :
    ThrottleVars × Option ReportingTarget :=
  let setStamp := fun t ↦ { s with
    mCorrectedErrorRankTimeStamp := updateRank s.mCorrectedErrorRankTimeStamp c.error.node
      c.error.card c.error.rankNumber (efiSmmGetTime t) }
  match c.treatment s with
  | .ignored => (s, none)
  | .first => (setStamp c.cur, none)
  | .counted =>
    let count := s.mEccErrorSmiCount c.error.node + 1
    ({ s with mEccErrorSmiCount := Function.update s.mEccErrorSmiCount c.error.node count },
      if count.toNat > platformErrorCountThreshold then some c.extData else none)
  | .expired => (setStamp c.reset, none)

end Call

/-! ### Traces -/

/-- The day of a rank. -/
structure RankWindow where
  /-- When it began. -/
  began : CalendarTime
  /-- The count of the node then. -/
  carried : ℕ
  /-- The errors of the node that were counted since. -/
  since : ℕ

/-- The variables, and the day of each rank. -/
structure Throttling where
  vars : ThrottleVars
  window : ℕ → ℕ → ℕ → RankWindow

/-- What happens in a run. -/
inductive ThrottleEvent (M : MemoryNodes)
  /-- `EnableElogMemory` is called. -/
  | enable (memErrEn : Bool) (info : SocketInfo)
  /-- An error arrives. -/
  | error (c : ThrottleCall M)

section Trace

variable {M : MemoryNodes}

/-- The days after a call. -/
def Throttling.windows (t : Throttling) (c : ThrottleCall M) : ℕ → ℕ → ℕ → RankWindow :=
  let begin := fun time ↦ updateRank t.window c.error.node c.error.card c.error.rankNumber
    ⟨time, (t.vars.mEccErrorSmiCount c.error.node).toNat, 0⟩
  match c.treatment t.vars with
  | .ignored => t.window
  | .first => begin c.cur
  | .counted => fun node ch rank ↦
    let w := t.window node ch rank
    if node = c.error.node then { w with since := w.since + 1 } else w
  | .expired => begin c.reset

/-- One step of a run. -/
def Throttling.next (t : Throttling) : ThrottleEvent M → Throttling
  | .enable memErrEn info => ⟨enableElogMemory M memErrEn info t.vars, t.window⟩
  | .error c => ⟨(correctedErrorSMIThrottling c t.vars).1, t.windows c⟩

/-- The day of the rank of an error. -/
def ThrottleCall.window (c : ThrottleCall M) (t : Throttling) : RankWindow :=
  t.window c.error.node c.error.card c.error.rankNumber

/-- The array of the time stamps and the array of the counts are indexed in bounds. -/
def ThrottleCall.InBounds (c : ThrottleCall M) : Prop :=
  c.error.allValid = true →
    (c.error.node < M.maxSocket ∧ c.error.card < M.maxCh ∧ c.error.rankNumber < M.maxRankCh) ∧
      c.error.node < M.mcMaxNode

/-- Reports are disabled for the socket and the controller of the node of the error, after more than
`PLATFORM_ERROR_COUNT_THRESHOLD` errors of the node in the day of the rank, which is not over. -/
def ThrottleCall.Justified (c : ThrottleCall M) (t : Throttling) : Prop :=
  ∀ target ∈ (correctedErrorSMIThrottling c t.vars).2,
    target = ⟨some (M.nodeToSkt c.error.node), M.nodeToMc c.error.node⟩ ∧
    platformErrorCountThreshold < (t.windows c c.error.node c.error.card c.error.rankNumber).since ∧
    c.cur.hours ≤ (c.window t).began.hours + platformPerRankThresholdDurationHours

/-- What a step should satisfy. -/
def Throttling.StepOk (t : Throttling) : ThrottleEvent M → Prop
  | .enable _ _ => True
  | .error c => c.InBounds ∧ c.Justified t

/-- The conditions under which it does: the node is the index of a socket, and where an error is
counted beyond the threshold, the day of its rank began with a count of zero, the controller is
enabled, and no day was lost since. -/
def Throttling.StepClean (t : Throttling) : ThrottleEvent M → Prop
  | .enable _ _ => True
  | .error c =>
    (c.error.allValid = true → c.error.node < M.maxSocket) ∧
    (c.treatment t.vars = .counted →
      platformErrorCountThreshold ≤ (t.vars.mEccErrorSmiCount c.error.node).toNat →
      (c.window t).carried = 0 ∧
      c.info.imcEnabled (M.nodeToSkt c.error.node) (M.nodeToMc c.error.node) = true ∧
      NoDayLost (c.window t).began c.cur)

/-- Each count is at most what it was when a day began, and the errors that were counted since. The
time stamps that are set are those of the beginnings. -/
structure Throttling.Accounted (t : Throttling) : Prop where
  count_le : ∀ node ch rank, (t.vars.mEccErrorSmiCount node).toNat ≤
    (t.window node ch rank).carried + (t.window node ch rank).since
  stamp_eq : ∀ node ch rank, (t.vars.mCorrectedErrorRankTimeStamp node ch rank).year ≠ 0 →
    t.vars.mCorrectedErrorRankTimeStamp node ch rank =
      efiSmmGetTime (t.window node ch rank).began

variable {t : Throttling} {c : ThrottleCall M}

theorem toNat_add_one_le (x : BitVec 32) : (x + 1).toNat ≤ x.toNat + 1 := by
  rw [BitVec.toNat_add]
  exact Nat.mod_le _ _

/-- A day begins, whatever the count is. -/
theorem Throttling.Accounted.begin (h : t.Accounted) (node ch rank : ℕ) (time : CalendarTime) :
    Throttling.Accounted
      { vars := { t.vars with
          mCorrectedErrorRankTimeStamp :=
            updateRank t.vars.mCorrectedErrorRankTimeStamp node ch rank (efiSmmGetTime time) }
        window := updateRank t.window node ch rank
          ⟨time, (t.vars.mEccErrorSmiCount node).toNat, 0⟩ } where
  count_le n c r := by
    dsimp only
    rw [updateRank]
    split
    · rename_i hsame
      rw [hsame.1]
      exact le_rfl
    · exact h.count_le n c r
  stamp_eq n c r := by
    dsimp only
    rw [updateRank, updateRank]
    split
    · exact fun _ ↦ rfl
    · exact h.stamp_eq n c r

/-- An error is counted in the days of all ranks of its node. -/
theorem Throttling.Accounted.count (h : t.Accounted) (node : ℕ) :
    Throttling.Accounted
      { vars := { t.vars with
          mEccErrorSmiCount := Function.update t.vars.mEccErrorSmiCount node
            (t.vars.mEccErrorSmiCount node + 1) }
        window := fun n c r ↦
          let w := t.window n c r
          if n = node then { w with since := w.since + 1 } else w } where
  count_le n c r := by
    dsimp only
    by_cases hn : n = node
    · have hone := toNat_add_one_le (t.vars.mEccErrorSmiCount node)
      have hbefore := h.count_le node c r
      rw [if_pos hn, hn, Function.update_self]
      dsimp only
      omega
    · rw [if_neg hn, Function.update_of_ne hn]
      exact h.count_le n c r
  stamp_eq n c r := by
    dsimp only
    intro hyear
    rw [h.stamp_eq n c r hyear]
    split <;> rfl

/-- The counts and the years become zero. -/
theorem Throttling.Accounted.enable (h : t.Accounted) (memErrEn : Bool) (info : SocketInfo) :
    Throttling.Accounted ⟨enableElogMemory M memErrEn info t.vars, t.window⟩ := by
  rw [enableElogMemory]
  split
  · constructor
    · intro n c r
      dsimp only
      split
      · exact Nat.zero_le _
      · exact h.count_le n c r
    · intro n c r
      dsimp only
      split
      · exact fun hyear ↦ absurd rfl hyear
      · exact h.stamp_eq n c r
  · exact h

/-- **One step.** Whatever happens, the counts stay accounted for. -/
theorem Throttling.Accounted.next (h : t.Accounted) (e : ThrottleEvent M) :
    (t.next e).Accounted := by
  cases e with
  | enable memErrEn info => exact h.enable memErrEn info
  | error c =>
    rw [Throttling.next, Throttling.windows, correctedErrorSMIThrottling]
    cases c.treatment t.vars with
    | ignored => exact h
    | first => exact h.begin _ _ _ c.cur
    | counted => exact h.count c.error.node
    | expired => exact h.begin _ _ _ c.reset

theorem ThrottleCall.of_counted {s : ThrottleVars} (h : c.treatment s = .counted) :
    (c.stamp s).year ≠ 0 ∧
      efiSmmGetNoofHoursPast (c.stamp s) c.cur ≤ platformPerRankThresholdDurationHours := by
  rw [ThrottleCall.treatment] at h
  split_ifs at h with hvalid hyear hpast
  exact ⟨hyear, hpast⟩

/-- Reports are disabled only where an error is counted beyond the threshold. -/
theorem ThrottleCall.of_mem_target {s : ThrottleVars} {target : ReportingTarget}
    (h : target ∈ (correctedErrorSMIThrottling c s).2) :
    c.treatment s = .counted ∧
      platformErrorCountThreshold ≤ (s.mEccErrorSmiCount c.error.node).toNat ∧
      target = c.extData := by
  rw [correctedErrorSMIThrottling] at h
  cases htreat : c.treatment s with
  | ignored => rw [htreat] at h; cases h
  | first => rw [htreat] at h; cases h
  | expired => rw [htreat] at h; cases h
  | counted =>
    rw [htreat] at h
    dsimp only at h
    split at h
    · rename_i habove
      have hone := toNat_add_one_le (s.mEccErrorSmiCount c.error.node)
      exact ⟨rfl, by omega, (Option.some.inj h).symm⟩
    · cases h

/-- The two words, where the controller is enabled. -/
theorem ThrottleCall.extData_eq
    (h : c.info.imcEnabled (M.nodeToSkt c.error.node) (M.nodeToMc c.error.node) = true) :
    c.extData = ⟨some (M.nodeToSkt c.error.node), M.nodeToMc c.error.node⟩ := by
  have hnode : c.error.node % 2 ^ 8 = c.error.node :=
    Nat.mod_eq_of_lt (c.error.node_lt.trans_le (M.mcMaxNode_le.trans (by decide)))
  simp only [ThrottleCall.extData, hnode, if_pos h]

/-- **One call.** Where the counts are accounted for, a call that meets the conditions does what it
should. -/
theorem Throttling.StepClean.stepOk {e : ThrottleEvent M} (h : t.Accounted)
    (hclean : t.StepClean e) : t.StepOk e := by
  cases e with
  | enable memErrEn info => trivial
  | error c =>
    obtain ⟨hsocket, hcount⟩ := hclean
    refine ⟨fun hvalid ↦ ⟨⟨hsocket hvalid, c.error.card_lt, c.error.rankNumber_lt⟩,
      c.error.node_lt⟩, ?_⟩
    intro target htarget
    obtain ⟨htreat, habove, rfl⟩ := ThrottleCall.of_mem_target htarget
    obtain ⟨hcarried, himc, hday⟩ := hcount htreat habove
    obtain ⟨hyear, hpast⟩ := ThrottleCall.of_counted htreat
    refine ⟨ThrottleCall.extData_eq himc, ?_, ?_⟩
    · have hle := h.count_le c.error.node c.error.card c.error.rankNumber
      rw [ThrottleCall.window] at hcarried
      rw [Throttling.windows, htreat]
      dsimp only
      rw [if_pos rfl]
      dsimp only
      omega
    · have hstamp : c.stamp t.vars = efiSmmGetTime (c.window t).began :=
        h.stamp_eq _ _ _ hyear
      rw [hstamp] at hpast
      exact hday.hours_le hpast

instance (t : Throttling) (e : ThrottleEvent M) : Decidable (t.StepOk e) :=
  match e with
  | .enable _ _ => isTrue trivial
  | .error _ => inferInstanceAs (Decidable ((_ → _) ∧ ∀ target ∈ _, _))

instance (t : Throttling) (e : ThrottleEvent M) : Decidable (t.StepClean e) :=
  match e with
  | .enable _ _ => isTrue trivial
  | .error _ => inferInstanceAs (Decidable ((_ → _) ∧ (_ → _ → _ ∧ _ ∧ _)))

end Trace

/-! ### Runs -/

/-- The start: the static arrays are zero. -/
def throttleStart (time : CalendarTime) : Throttling where
  vars := ⟨fun _ ↦ 0, fun _ _ _ ↦ ⟨0, 0, 0, 0, 0, 0⟩⟩
  window _ _ _ := ⟨time, 0, 0⟩

theorem throttleStart_accounted (time : CalendarTime) : (throttleStart time).Accounted where
  count_le _ _ _ := Nat.zero_le _
  stamp_eq _ _ _ hyear := absurd rfl hyear

/-- **Runs.** If all steps of a run meet the conditions, then reports are disabled only where they
should be, and the arrays are indexed in bounds. -/
theorem along_ok_of_clean {M : MemoryNodes} (time : CalendarTime) (es : List (ThrottleEvent M))
    (h : Along Throttling.next Throttling.StepClean (throttleStart time) es) :
    Along Throttling.next Throttling.StepOk (throttleStart time) es := by
  have hrun : ∀ (t : Throttling), t.Accounted → Along Throttling.next Throttling.StepClean t es →
      Along Throttling.next Throttling.StepOk t es := by
    clear h
    induction es with
    | nil => exact fun _ _ _ ↦ trivial
    | cons e es ih => exact fun t ht hclean ↦ ⟨hclean.1.stepOk ht, ih _ (ht.next e) hclean.2⟩
  exact hrun _ (throttleStart_accounted time) h

/-- Four sockets with two memory controllers each. -/
def twoControllers : MemoryNodes where
  maxSocket := 4
  maxImc := 2
  mcMaxNode := 8
  maxCh := 6
  maxMcCh := 3
  maxRankCh := 8
  mcMaxNode_le := by decide
  nodeToSkt node := node / 2
  nodeToMc node := node % 2
  sktmcToNode skt mc := skt * 2 + mc
  nodechToSktch node ch := node % 2 * 3 + ch

/-- Ten o'clock of a day in January 2018. -/
def january (day : ℕ) (hpos : 1 ≤ day) (hle : day ≤ 31) : CalendarTime :=
  ⟨18, 1, day, 10, 0, 0, by decide, by decide, by decide, hpos, hle, by decide, by decide,
    by decide⟩

/-- An error of rank 0 of channel 0 of node 0. -/
def rankError (time : CalendarTime) : ThrottleEvent twoControllers :=
  .error
    { error := ⟨true, true, true, 0, 0, 0, by decide, by decide, by decide⟩
      cur := time
      reset := time
      info := ⟨fun skt ↦ skt == 0, fun skt _ ↦ skt == 0⟩ }

/-- The day of a rank: its first error, and errors that are counted. -/
def rankDay (time : CalendarTime) (n : ℕ) : List (ThrottleEvent twoControllers) :=
  List.replicate (n + 1) (rankError time)

/-- With 81 errors in a day, the last of them disables the reports as it should. -/
theorem along_ok_of_clean_oneDay :
    Along Throttling.next Throttling.StepOk
      (throttleStart (january 1 (by decide) (by decide)))
      (rankDay (january 1 (by decide) (by decide)) 81) :=
  along_ok_of_clean _ _ (by decide +kernel)

/-- With 80 errors in a day, the first error that is counted two days later disables them. -/
theorem not_along_ok_nextDay :
    ¬ Along Throttling.next Throttling.StepOk
      (throttleStart (january 1 (by decide) (by decide)))
      (rankDay (january 1 (by decide) (by decide)) 80 ++
        rankDay (january 3 (by decide) (by decide)) 1) := by
  decide +kernel

end PurleyFirmware.Ras
