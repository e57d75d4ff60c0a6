import Mathlib.Logic.Function.Basic
import PurleyFirmware.Foundation.LinkedList
import PurleyFirmware.Uefi.Status

/-!
# The lists of error handlers and of notifiers

Silicon modules register an error handler with the main error handler, notifiers register with the
platform error handler. Either list is a chain of records in pool memory, a pointer to its first
record and one to its last, and either registration walks the chain to find the place of the new
record.

The two walks are one loop with opposite comparisons (`insertLoop`): a silicon handler goes before
the first one of *smaller* priority, a notifier before the first one of *greater*. In both cases that
is insertion by rank, with the rank of a silicon handler counted from the highest priority down.
The handlers of the two lowest priorities do not walk at all, they go behind the tail, which is right
because nothing ranks after them.

The header with the priorities is outside this code. Only their order is used, so it is all that
`HandlerPriorities` holds besides the values.
-/

namespace PurleyFirmware.Ras

universe u

variable {ρ : Type u}

/-! ### Records in pool memory -/

/-- `HANDLER_LIST_ENTRY`, which has the layout of `NOTIFIER_LIST_ENTRY`. -/
structure ListEntry (ρ : Type u) where
  handler : ρ
  nextHandler : Option ℕ
  priority : UInt8

/-- The records by their addresses, and the two pointers of the module. -/
structure HandlerList (ρ : Type u) where
  entry : ℕ → ListEntry ρ
  listHead : Option ℕ
  listTail : Option ℕ

/-- What a registration puts into the list, and where. -/
structure Registration (ρ : Type u) where
  node : ℕ
  handler : ρ
  priority : UInt8
  deriving DecidableEq

namespace HandlerList

/-- The list before the first registration, whatever the memory holds. -/
def empty (entry : ℕ → ListEntry ρ) : HandlerList ρ := ⟨entry, none, none⟩

/-- The links of the chain. -/
def next (s : HandlerList ρ) (a : ℕ) : Option ℕ := (s.entry a).nextHandler

/-- The record at an address, filled in. -/
def write (s : HandlerList ρ) (a : ℕ) (e : ListEntry ρ) : HandlerList ρ :=
  { s with entry := Function.update s.entry a e }

/-- The link of one record, redirected. -/
def setNext (s : HandlerList ρ) (a : ℕ) (link : Option ℕ) : HandlerList ρ :=
  s.write a { s.entry a with nextHandler := link }

variable {s : HandlerList ρ} {a b : ℕ} {e : ListEntry ρ} {link : Option ℕ}

@[simp] theorem listHead_write : (s.write a e).listHead = s.listHead := rfl

@[simp] theorem listTail_write : (s.write a e).listTail = s.listTail := rfl

@[simp] theorem listHead_setNext : (s.setNext a link).listHead = s.listHead := rfl

@[simp] theorem listTail_setNext : (s.setNext a link).listTail = s.listTail := rfl

@[simp] theorem next_write : (s.write a e).next = Function.update s.next a e.nextHandler := by
  funext c
  simp only [next, write]
  by_cases h : c = a
  · rw [h, Function.update_self, Function.update_self]
  · rw [Function.update_of_ne h, Function.update_of_ne h, next]

@[simp] theorem next_setNext : (s.setNext a link).next = Function.update s.next a link :=
  next_write

@[simp] theorem handler_setNext : ((s.setNext a link).entry b).handler = (s.entry b).handler := by
  simp only [setNext, write]
  by_cases h : b = a
  · rw [h, Function.update_self]
  · rw [Function.update_of_ne h]

@[simp] theorem priority_setNext :
    ((s.setNext a link).entry b).priority = (s.entry b).priority := by
  simp only [setNext, write]
  by_cases h : b = a
  · rw [h, Function.update_self]
  · rw [Function.update_of_ne h]

end HandlerList

/-! ### The two registrations -/

/-- The `for` loop of both registrations, from `CurrEntry` on: `before` compares the new priority with
that of the record looked at. `none` is a NULL pointer followed, or more records than `fuel`. -/
def insertLoop (before : UInt8 → UInt8 → Bool) (newEntry : ℕ) (priority : UInt8) :
    ℕ → HandlerList ρ → Option ℕ → Option ℕ → Option (HandlerList ρ)
  | _, s, _, none => some s
  | 0, _, _, some _ => none
  | fuel + 1, s, prevEntry, some currEntry =>
    if before priority (s.entry currEntry).priority then
      if some currEntry = s.listHead then
        some { s.setNext newEntry (some currEntry) with listHead := some newEntry }
      else
        prevEntry.map fun prev ↦
          (s.setNext prev (some newEntry)).setNext newEntry (some currEntry)
    else if some currEntry = s.listTail then
      some { s.setNext currEntry (some newEntry) with listTail := some newEntry }
    else
      insertLoop before newEntry priority fuel s (some currEntry) (s.next currEntry)

/-- `ListTail->NextHandler = NewEntry; ListTail = ListTail->NextHandler`. -/
def appendEntry (newEntry : ℕ) (s : HandlerList ρ) : Option (HandlerList ρ) :=
  s.listTail.map fun tail ↦
    { s.setNext tail (some newEntry) with listTail := some newEntry }

/-- What the two registrations share: the NULL check, the record from the pool (`none` where the pool
has none left), its fields, and the empty list. `place` is what they do with a list that has a head. -/
def register (place : ℕ → HandlerList ρ → Option (HandlerList ρ)) (newEntry : Option ℕ)
    (s : HandlerList ρ) (handler : Option ρ) (priority : UInt8) :
    Option (EfiStatus × HandlerList ρ) :=
  match handler, newEntry with
  | none, _ => some (.invalidParameter, s)
  | some _, none => some (.outOfResources, s)
  | some handler, some newEntry =>
    let s := s.write newEntry ⟨handler, none, priority⟩
    if s.listHead = none then
      some (.success, { s with listHead := some newEntry, listTail := some newEntry })
    else
      (place newEntry s).map (Prod.mk .success)

/-- The priorities of silicon error handlers, in the order their names say. -/
structure HandlerPriorities where
  noPriority : UInt8
  lowPriority : UInt8
  mediumPriority : UInt8
  highPriority : UInt8
  noPriority_lt : noPriority < mediumPriority
  lowPriority_lt : lowPriority < mediumPriority
  mediumPriority_lt : mediumPriority < highPriority

/-- `RegisterSiliconErrorHandler`. -/
def registerSiliconErrorHandler (P : HandlerPriorities) (fuel : ℕ) (newEntry : Option ℕ)
    (s : HandlerList ρ) (reporter : Option ρ) (priority : UInt8) :
    Option (EfiStatus × HandlerList ρ) :=
  register
    (fun newEntry s ↦
      if priority = P.noPriority ∨ priority = P.lowPriority then
        appendEntry newEntry s
      else if priority = P.mediumPriority ∨ priority = P.highPriority then
        insertLoop (fun new curr ↦ decide (curr < new)) newEntry priority fuel s none s.listHead
      else
        some s)
    newEntry s reporter priority

/-- `RegisterNotifier`. -/
def registerNotifier (fuel : ℕ) (newEntry : Option ℕ) (s : HandlerList ρ)
    (functionPtr : Option ρ) (priority : UInt8) : Option (EfiStatus × HandlerList ρ) :=
  register
    (fun newEntry s ↦
      insertLoop (fun new curr ↦ decide (new < curr)) newEntry priority fuel s none s.listHead)
    newEntry s functionPtr priority

/-- A call of a registration: the handler, its priority and what the pool answers. -/
structure RegisterCall (ρ : Type u) where
  handler : Option ρ
  priority : UInt8
  newEntry : Option ℕ

/-- The registration that a call makes, if it makes one. -/
def RegisterCall.registration (c : RegisterCall ρ) : Option (Registration ρ) :=
  match c.handler, c.newEntry with
  | some handler, some newEntry => some ⟨newEntry, handler, c.priority⟩
  | _, _ => none

/-- The registrations that a sequence of calls makes. -/
def registrations (calls : List (RegisterCall ρ)) : List (Registration ρ) :=
  calls.filterMap RegisterCall.registration

/-- A sequence of calls of one of the two services. -/
def registerAll
    (service : Option ℕ → HandlerList ρ → Option ρ → UInt8 → Option (EfiStatus × HandlerList ρ)) :
    HandlerList ρ → List (RegisterCall ρ) → Option (HandlerList ρ)
  | s, [] => some s
  | s, c :: calls =>
    (service c.newEntry s c.handler c.priority).bind fun r ↦ registerAll service r.2 calls

/-! ### Well-formed lists -/

/-- The chain holds these registrations in this order, and the tail pointer is its last record. -/
structure HandlerList.Holds (s : HandlerList ρ) (l : List (Registration ρ)) : Prop where
  chain : Segment s.next s.listHead (l.map (·.node)) none
  tail : s.listTail = (l.map (·.node)).getLast?
  nodup : (l.map (·.node)).Nodup
  data : ∀ r ∈ l, (s.entry r.node).handler = r.handler ∧ (s.entry r.node).priority = r.priority

/-- The chain holds the registrations `rs`, each once, by ascending rank and within a rank in the
order in which they were made. -/
def HandlerList.Ordered (s : HandlerList ρ) (rank : UInt8 → ℕ) (rs : List (Registration ρ)) :
    Prop :=
  ∃ l, s.Holds l ∧ l.Perm rs ∧
    l.Pairwise (fun a b ↦ rank a.priority ≤ rank b.priority) ∧
    ∀ k, l.filter (rank ·.priority = k) = rs.filter (rank ·.priority = k)


namespace HandlerList

variable {s : HandlerList ρ} {r b c : Registration ρ} {l pre post : List (Registration ρ)}

/-- The record of a registration is filled in and no record of the chain is at its place. -/
def Pending (s : HandlerList ρ) (r : Registration ρ) (l : List (Registration ρ)) : Prop :=
  s.entry r.node = ⟨r.handler, none, r.priority⟩ ∧ ∀ a ∈ l, a.node ≠ r.node

theorem holds_empty (entry : ℕ → ListEntry ρ) : (empty entry).Holds [] where
  chain := rfl
  tail := rfl
  nodup := List.nodup_nil
  data := fun _ h ↦ absurd h List.not_mem_nil

/-- A chain without records has no head. -/
theorem Holds.listHead_eq_none (h : s.Holds l) (hhead : s.listHead = none) : l = [] := by
  cases l with
  | nil => rfl
  | cons a l => exact absurd (hhead.symm.trans h.chain.1) (by simp)

/-- The record of a registration, written beside the chain. -/
theorem Holds.write (h : s.Holds l) (hr : ∀ a ∈ l, a.node ≠ r.node) :
    (s.write r.node ⟨r.handler, none, r.priority⟩).Holds l ∧
      (s.write r.node ⟨r.handler, none, r.priority⟩).Pending r l := by
  refine ⟨⟨?_, h.tail, h.nodup, ?_⟩, Function.update_self _ _ _, hr⟩
  · refine h.chain.congr fun a ha ↦ ?_
    obtain ⟨x, hx, rfl⟩ := List.mem_map.mp ha
    rw [next_write, Function.update_of_ne (hr x hx)]
  · intro x hx
    simp only [HandlerList.write, Function.update_of_ne (hr x hx)]
    exact h.data x hx

/-- A record that has entered the chain: what is left to show about the chain and the tail. -/
theorem Holds.insert {s' : HandlerList ρ} (h : s.Holds (pre ++ post))
    (hr : s.Pending r (pre ++ post))
    (hhandler : ∀ a, (s'.entry a).handler = (s.entry a).handler)
    (hpriority : ∀ a, (s'.entry a).priority = (s.entry a).priority)
    (hchain : Segment s'.next s'.listHead ((pre ++ r :: post).map (·.node)) none)
    (htail : s'.listTail = ((pre ++ r :: post).map (·.node)).getLast?) :
    s'.Holds (pre ++ r :: post) where
  chain := hchain
  tail := htail
  nodup := by
    have hnot : r.node ∉ (pre ++ post).map (·.node) := by
      intro hmem
      obtain ⟨x, hx, heq⟩ := List.mem_map.mp hmem
      exact hr.2 x hx heq
    rw [List.map_append] at hnot
    rw [List.map_append, List.map_cons, List.nodup_middle, List.nodup_cons, ← List.map_append]
    rw [← List.map_append] at hnot
    exact ⟨hnot, h.nodup⟩
  data := by
    intro x hx
    rw [hhandler, hpriority]
    rcases List.mem_append.mp hx with hx | hx
    · exact h.data x (List.mem_append_left post hx)
    · rcases List.mem_cons.mp hx with rfl | hx
      · rw [hr.1]
        exact ⟨rfl, rfl⟩
      · exact h.data x (List.mem_append_right pre hx)

/-- In front of the head. -/
theorem Holds.insertHead (h : s.Holds (c :: post)) (hr : s.Pending r (c :: post)) :
    HandlerList.Holds { s.setNext r.node (some c.node) with listHead := some r.node }
      (r :: c :: post) := by
  have h' : s.Holds ([] ++ c :: post) := h
  refine Holds.insert h' hr (fun _ ↦ handler_setNext) (fun _ ↦ priority_setNext) ?_ ?_
  · have hhead : s.listHead = some c.node := h.chain.1
    refine ⟨rfl, ?_⟩
    change Segment (s.setNext r.node (some c.node)).next
      ((s.setNext r.node (some c.node)).next r.node) _ none
    rw [next_setNext, Function.update_self, ← hhead]
    refine h.chain.congr fun a ha ↦ ?_
    obtain ⟨x, hx, rfl⟩ := List.mem_map.mp ha
    exact Function.update_of_ne (hr.2 x hx) _ _
  · change s.listTail = _
    rw [h.tail, List.nil_append, List.map_cons, List.map_cons, List.map_cons,
      List.getLast?_cons_cons]

/-- The nodes beside one of the chain. -/
theorem Holds.node_ne (h : s.Holds (pre ++ b :: post)) :
    ∀ a ∈ pre.map (·.node) ++ post.map (·.node), a ≠ b.node := by
  intro a ha heq
  have hnodup := h.nodup
  rw [List.map_append, List.map_cons, List.nodup_middle, List.nodup_cons] at hnodup
  exact hnodup.1 (heq ▸ ha)

theorem Pending.node_ne (hr : s.Pending r l) : ∀ a ∈ l.map (·.node), a ≠ r.node := by
  intro a ha
  obtain ⟨x, hx, rfl⟩ := List.mem_map.mp ha
  exact hr.2 x hx

/-- Between two records. -/
theorem Holds.insertMiddle (h : s.Holds (pre ++ b :: c :: post))
    (hr : s.Pending r (pre ++ b :: c :: post)) :
    ((s.setNext b.node (some r.node)).setNext r.node (some c.node)).Holds
      (pre ++ b :: r :: c :: post) := by
  have hbr : b.node ≠ r.node := hr.2 b (by simp)
  have hb := h.node_ne
  have hnode := hr.node_ne
  have hchain := h.chain
  rw [List.map_append, segment_append] at hchain
  obtain ⟨_, hpre, rfl, hnext, hpost⟩ := hchain
  have hsplit : pre ++ b :: c :: post = (pre ++ [b]) ++ c :: post := by simp
  have hgoal : pre ++ b :: r :: c :: post = (pre ++ [b]) ++ r :: c :: post := by simp
  rw [hgoal]
  refine Holds.insert (hsplit ▸ h) (hsplit ▸ hr) (by simp) (by simp) ?_ ?_
  · rw [← hgoal, List.map_append, List.map_cons, List.map_cons]
    refine Segment.insert (segment_concat.mpr ⟨hpre, rfl⟩) ⟨hnext, hpost⟩ ?_ ?_ ?_
    · rw [next_setNext, Function.update_of_ne hbr, next_setNext, Function.update_self]
    · rw [next_setNext, Function.update_self, hnext]
    · intro a ha
      rw [next_setNext, Function.update_of_ne, next_setNext, Function.update_of_ne (hb a ha)]
      refine hnode a ?_
      rw [List.map_append, List.map_cons]
      rcases List.mem_append.mp ha with ha | ha
      · exact List.mem_append_left _ ha
      · exact List.mem_append_right _ (List.mem_cons_of_mem _ ha)
  · rw [listTail_setNext, listTail_setNext, h.tail]
    simp [List.getLast?_append, List.getLast?_cons]

/-- Behind the tail. -/
theorem Holds.insertTail (h : s.Holds (pre ++ [b])) (hr : s.Pending r (pre ++ [b])) :
    HandlerList.Holds { s.setNext b.node (some r.node) with listTail := some r.node }
      (pre ++ [b, r]) := by
  have hbr : b.node ≠ r.node := hr.2 b (by simp)
  have hb := h.node_ne
  have hchain := h.chain
  rw [List.map_append] at hchain
  have hgoal : pre ++ [b, r] = (pre ++ [b]) ++ r :: [] := by simp
  rw [hgoal]
  have h' : s.Holds ((pre ++ [b]) ++ []) := by rwa [List.append_nil]
  refine Holds.insert h' (by rwa [List.append_nil]) (fun _ ↦ handler_setNext) (fun _ ↦ priority_setNext) ?_ ?_
  · rw [← hgoal, List.map_append, List.map_cons, List.map_cons]
    change Segment (s.setNext b.node (some r.node)).next s.listHead _ none
    refine Segment.insert hchain (segment_nil.mpr rfl) ?_ ?_ ?_
    · rw [next_setNext, Function.update_self]
    · rw [next_setNext, Function.update_of_ne hbr.symm, next, hr.1]
    · intro a ha
      rw [next_setNext, Function.update_of_ne (hb a ha)]
  · simp

/-- The head pointer is at a record exactly where nothing precedes it. -/
theorem Holds.eq_listHead_iff (h : s.Holds (pre ++ c :: post)) :
    some c.node = s.listHead ↔ pre = [] := by
  cases pre with
  | nil => exact iff_of_true h.chain.1.symm rfl
  | cons a pre =>
    refine iff_of_false ?_ (List.cons_ne_nil a pre)
    intro heq
    have hhead : s.listHead = some a.node := h.chain.1
    exact h.node_ne a.node (by simp) (Option.some.inj (heq.trans hhead)).symm

/-- The tail pointer is at a record exactly where nothing follows it. -/
theorem Holds.eq_listTail_iff (h : s.Holds (pre ++ c :: post)) :
    some c.node = s.listTail ↔ post = [] := by
  rcases List.eq_nil_or_concat' post with rfl | ⟨post, d, rfl⟩
  · refine iff_of_true ?_ rfl
    rw [h.tail]
    simp
  · refine iff_of_false ?_ (by simp)
    intro heq
    have htail : s.listTail = some d.node := by
      rw [h.tail]
      simp [List.getLast?_cons]
    exact h.node_ne d.node (by simp) (Option.some.inj (heq.trans htail)).symm

/-- The loop at the place of the record: both ways to insert it in front of `currEntry`. -/
theorem Holds.insertLoop_here {before : UInt8 → UInt8 → Bool} {fuel : ℕ}
    (h : s.Holds (pre ++ c :: post)) (hr : s.Pending r (pre ++ c :: post))
    (hbefore : before r.priority c.priority = true) :
    ∃ s', insertLoop before r.node r.priority (fuel + 1) s (pre.map (·.node)).getLast?
        (some c.node) = some s' ∧ s'.Holds (pre ++ r :: c :: post) := by
  have hpriority : (s.entry c.node).priority = c.priority := (h.data c (by simp)).2
  rw [insertLoop, hpriority, if_pos hbefore]
  rcases List.eq_nil_or_concat' pre with rfl | ⟨pre, b, rfl⟩
  · rw [if_pos (h.eq_listHead_iff.mpr rfl)]
    exact ⟨_, rfl, h.insertHead hr⟩
  · rw [if_neg (mt h.eq_listHead_iff.mp (by simp))]
    have hprev : ((pre ++ [b]).map (·.node)).getLast? = some b.node := by simp
    have hsplit : (pre ++ [b]) ++ c :: post = pre ++ b :: c :: post := by simp
    have hgoal : (pre ++ [b]) ++ r :: c :: post = pre ++ b :: r :: c :: post := by simp
    rw [hprev, hgoal]
    rw [hsplit] at h hr
    exact ⟨_, rfl, h.insertMiddle hr⟩

/-- The loop puts a pending record where its rank belongs, once nothing before `currEntry` ranks after
it. The induction is on the records from `currEntry` on. -/
theorem Holds.insertLoop {before : UInt8 → UInt8 → Bool} {rank : Registration ρ → ℕ} {fuel : ℕ}
    (h : s.Holds (pre ++ c :: post)) (hr : s.Pending r (pre ++ c :: post))
    (hbefore : ∀ a ∈ c :: post,
      before r.priority a.priority = true ↔ rank r < rank a)
    (hfuel : post.length < fuel) :
    ∃ s', Ras.insertLoop before r.node r.priority fuel s (pre.map (·.node)).getLast?
        (some c.node) = some s' ∧
      s'.Holds (pre ++ insertByRank rank (c :: post) r) := by
  induction post generalizing pre c fuel with
  | nil =>
    obtain ⟨fuel, rfl⟩ := Nat.exists_eq_succ_of_ne_zero (Nat.ne_of_gt (Nat.zero_lt_of_lt hfuel))
    have hc := hbefore c List.mem_cons_self
    by_cases hlt : rank r < rank c
    · rw [insertByRank_cons_of_lt hlt]
      exact h.insertLoop_here hr (hc.mpr hlt)
    · have hpriority : (s.entry c.node).priority = c.priority := (h.data c (by simp)).2
      rw [insertByRank_cons_of_le (Nat.not_lt.mp hlt), insertByRank_nil, Ras.insertLoop, hpriority,
        if_neg (mt hc.mp hlt), if_pos (h.eq_listTail_iff.mpr rfl)]
      exact ⟨_, rfl, h.insertTail hr⟩
  | cons d post ih =>
    obtain ⟨fuel, rfl⟩ := Nat.exists_eq_succ_of_ne_zero (Nat.ne_of_gt (Nat.zero_lt_of_lt hfuel))
    have hc := hbefore c List.mem_cons_self
    by_cases hlt : rank r < rank c
    · rw [insertByRank_cons_of_lt hlt]
      exact h.insertLoop_here hr (hc.mpr hlt)
    · have hpriority : (s.entry c.node).priority = c.priority := (h.data c (by simp)).2
      have hnext : s.next c.node = some d.node := by
        have hchain := h.chain
        rw [List.map_append, segment_append] at hchain
        obtain ⟨_, -, -, hrest⟩ := hchain
        exact hrest.1
      have hsplit : pre ++ c :: d :: post = (pre ++ [c]) ++ d :: post := by simp
      have hprev : ((pre ++ [c]).map (·.node)).getLast? = some c.node := by simp
      rw [insertByRank_cons_of_le (Nat.not_lt.mp hlt), Ras.insertLoop, hpriority,
        if_neg (mt hc.mp hlt), if_neg (mt h.eq_listTail_iff.mp (List.cons_ne_nil d post)), hnext]
      rw [hsplit] at h hr
      obtain ⟨s', hs', hholds⟩ := ih h hr (fun a ha ↦ hbefore a (List.mem_cons_of_mem c ha))
        (Nat.lt_of_succ_lt_succ hfuel)
      rw [hprev] at hs'
      refine ⟨s', hs', ?_⟩
      rwa [List.append_assoc, List.singleton_append] at hholds

/-- The loop, started at the head. -/
theorem Holds.insertLoop_listHead {before : UInt8 → UInt8 → Bool} {rank : Registration ρ → ℕ}
    {fuel : ℕ} (h : s.Holds (c :: l)) (hr : s.Pending r (c :: l))
    (hbefore : ∀ a ∈ c :: l, before r.priority a.priority = true ↔ rank r < rank a)
    (hfuel : l.length < fuel) :
    ∃ s', Ras.insertLoop before r.node r.priority fuel s none s.listHead = some s' ∧
      s'.Holds (insertByRank rank (c :: l) r) := by
  have h' : s.Holds ([] ++ c :: l) := h
  have hhead : s.listHead = some c.node := h.chain.1
  rw [hhead]
  exact h'.insertLoop hr hbefore hfuel

/-- A record that ranks before none goes behind the tail. -/
theorem Holds.appendEntry {rank : Registration ρ → ℕ} (h : s.Holds (c :: l))
    (hr : s.Pending r (c :: l)) (hlast : ∀ a ∈ c :: l, rank a ≤ rank r) :
    ∃ s', Ras.appendEntry r.node s = some s' ∧ s'.Holds (insertByRank rank (c :: l) r) := by
  have hinsert : insertByRank rank (c :: l) r = c :: l ++ [r] := by
    have happend : insertByRank rank (c :: l ++ []) r = c :: l ++ [r] := insertByRank_append hlast
    rwa [List.append_nil] at happend
  rw [hinsert]
  rcases List.eq_nil_or_concat' (c :: l) with hnil | ⟨pre, b, hpre⟩
  · exact absurd hnil (List.cons_ne_nil c l)
  · rw [hpre] at h hr ⊢
    have htail : s.listTail = some b.node := by
      rw [h.tail]
      simp
    rw [Ras.appendEntry, htail, List.append_assoc, List.singleton_append]
    exact ⟨_, rfl, h.insertTail hr⟩

end HandlerList

/-! ### Runs of registrations -/

/-- What a registration service does to a list of at most `fuel` records: it leaves it as it is or
inserts by rank. `valid` says which priorities it is for. -/
structure Inserts
    (service : Option ℕ → HandlerList ρ → Option ρ → UInt8 → Option (EfiStatus × HandlerList ρ))
    (fuel : ℕ) (valid : UInt8 → Prop) (rank : UInt8 → ℕ) : Prop where
  idle : ∀ (s : HandlerList ρ) (c : RegisterCall ρ), c.registration = none →
    ∃ status, service c.newEntry s c.handler c.priority = some (status, s)
  insert : ∀ (s : HandlerList ρ) (l : List (Registration ρ)) (r : Registration ρ), s.Holds l →
    (∀ a ∈ l, a.node ≠ r.node ∧ valid a.priority) → valid r.priority → l.length ≤ fuel →
      ∃ status s', service (some r.node) s (some r.handler) r.priority = some (status, s') ∧
        s'.Holds (insertByRank (fun a ↦ rank a.priority) l r)

section Runs

variable {fuel : ℕ} {valid : UInt8 → Prop} {rank : UInt8 → ℕ}
  {service : Option ℕ → HandlerList ρ → Option ρ → UInt8 → Option (EfiStatus × HandlerList ρ)}

/-- A call that registers is a call for its registration. -/
theorem RegisterCall.eq_of_registration {c : RegisterCall ρ} {r : Registration ρ}
    (h : c.registration = some r) :
    c.newEntry = some r.node ∧ c.handler = some r.handler ∧ c.priority = r.priority := by
  obtain ⟨handler, priority, newEntry⟩ := c
  cases handler <;> cases newEntry <;> cases h
  exact ⟨rfl, rfl, rfl⟩

/-- Both services follow `register`, so they insert by rank if `place` does for a list with a head. -/
theorem inserts_register (place : UInt8 → ℕ → HandlerList ρ → Option (HandlerList ρ))
    (hplace : ∀ (s : HandlerList ρ) (c : Registration ρ) (l : List (Registration ρ))
      (r : Registration ρ), s.Holds (c :: l) → s.Pending r (c :: l) →
      (∀ a ∈ c :: l, valid a.priority) → valid r.priority → l.length < fuel →
        ∃ s', place r.priority r.node s = some s' ∧
          s'.Holds (insertByRank (fun a ↦ rank a.priority) (c :: l) r)) :
    Inserts (fun newEntry s handler priority ↦ register (place priority) newEntry s handler priority)
      fuel valid rank where
  idle s c h := by
    obtain ⟨handler, priority, newEntry⟩ := c
    cases handler with
    | none => exact ⟨_, rfl⟩
    | some handler =>
      cases newEntry with
      | none => exact ⟨_, rfl⟩
      | some newEntry => cases h
  insert s l r h hl hr hfuel := by
    obtain ⟨hw, hpending⟩ := h.write (r := r) fun a ha ↦ (hl a ha).1
    simp only [register]
    cases l with
    | nil =>
      have hhead : s.listHead = none := h.chain
      rw [HandlerList.listHead_write, if_pos hhead]
      refine ⟨_, _, rfl, ?_, rfl, List.nodup_singleton _, ?_⟩
      · refine ⟨rfl, ?_⟩
        change (s.write r.node _).next r.node = none
        rw [HandlerList.next_write, Function.update_self]
      · intro a ha
        rw [List.mem_singleton.mp ha]
        change ((s.write r.node _).entry r.node).handler = _ ∧ _
        rw [hpending.1]
        exact ⟨rfl, rfl⟩
    | cons c l =>
      have hhead : s.listHead ≠ none := by
        rw [h.chain.1]
        exact Option.some_ne_none _
      rw [HandlerList.listHead_write, if_neg hhead]
      obtain ⟨s', hs', hholds⟩ := hplace _ c l r hw hpending (fun a ha ↦ (hl a ha).2) hr hfuel
      exact ⟨_, s', by rw [hs']; rfl, hholds⟩

/-- A run of calls inserts its registrations one after the other. The induction is on the calls, with
the registrations `rs` already made. -/
theorem Inserts.run (hservice : Inserts service fuel valid rank) (calls : List (RegisterCall ρ)) :
    ∀ (rs : List (Registration ρ)) (s : HandlerList ρ),
      s.Holds (insertAll (fun a ↦ rank a.priority) rs) →
      (∀ r ∈ rs ++ registrations calls, valid r.priority) →
      ((rs ++ registrations calls).map (·.node)).Nodup →
      (rs ++ registrations calls).length ≤ fuel →
        ∃ s', registerAll service s calls = some s' ∧
          s'.Holds (insertAll (fun a ↦ rank a.priority) (rs ++ registrations calls)) := by
  induction calls with
  | nil =>
    intro rs s h _ _ _
    refine ⟨s, rfl, ?_⟩
    rwa [registrations, List.filterMap_nil, List.append_nil]
  | cons c calls ih =>
    intro rs s h hvalid hnodup hfuel
    cases hreg : c.registration with
    | none =>
      have hcalls : registrations (c :: calls) = registrations calls :=
        List.filterMap_cons_none hreg
      rw [hcalls] at hvalid hnodup hfuel ⊢
      obtain ⟨status, hc⟩ := hservice.idle s c hreg
      obtain ⟨s', hs', hholds⟩ := ih rs s h hvalid hnodup hfuel
      exact ⟨s', by rw [registerAll, hc]; exact hs', hholds⟩
    | some r =>
      obtain ⟨hnode, hhandler, hpriority⟩ := RegisterCall.eq_of_registration hreg
      have hcalls : rs ++ registrations (c :: calls) = (rs ++ [r]) ++ registrations calls := by
        rw [registrations, List.filterMap_cons_some hreg, List.append_assoc, List.singleton_append]
        rfl
      rw [hcalls] at hvalid hnodup hfuel ⊢
      have hmem : ∀ a ∈ insertAll (fun a ↦ rank a.priority) rs, a ∈ rs :=
        fun a ha ↦ (insertAll_perm rs).mem_iff.mp ha
      have hfresh : ∀ a ∈ rs, a.node ≠ r.node := by
        intro a ha heq
        rw [List.map_append, List.map_append, List.append_assoc] at hnodup
        refine List.disjoint_of_nodup_append hnodup (List.mem_map_of_mem ha) ?_
        rw [heq]
        simp
      have hlength : (insertAll (fun a ↦ rank a.priority) rs).length ≤ fuel := by
        rw [(insertAll_perm rs).length_eq]
        rw [List.length_append, List.length_append] at hfuel
        omega
      obtain ⟨status, s₁, hs₁, hholds₁⟩ := hservice.insert s _ r h
        (fun a ha ↦ ⟨hfresh a (hmem a ha), hvalid a (by simp [hmem a ha])⟩) (hvalid r (by simp))
        hlength
      rw [← insertAll_concat] at hholds₁
      obtain ⟨s', hs', hholds⟩ := ih _ s₁ hholds₁ hvalid hnodup hfuel
      refine ⟨s', ?_, hholds⟩
      rw [registerAll, hnode, hhandler, hpriority, hs₁]
      exact hs'

/-- From the empty list, a run leaves a well-formed list in order of rank. -/
theorem Inserts.run_ordered (hservice : Inserts service fuel valid rank)
    (calls : List (RegisterCall ρ)) (entry : ℕ → ListEntry ρ)
    (hvalid : ∀ r ∈ registrations calls, valid r.priority)
    (hpool : ((registrations calls).map (·.node)).Nodup)
    (hfuel : (registrations calls).length ≤ fuel) :
    ∃ s, registerAll service (.empty entry) calls = some s ∧
      s.Ordered rank (registrations calls) := by
  obtain ⟨s, hs, hholds⟩ :=
    hservice.run calls [] _ (HandlerList.holds_empty entry) hvalid hpool hfuel
  rw [List.nil_append] at hholds
  exact ⟨s, hs, _, hholds, insertAll_perm _, insertAll_sorted _, filter_insertAll _⟩

end Runs

/-! ### The two lists -/

/-- `Priority` is one of the four that a silicon handler may have. -/
def HandlerPriorities.IsPriority (P : HandlerPriorities) (priority : UInt8) : Prop :=
  priority = P.noPriority ∨ priority = P.lowPriority ∨ priority = P.mediumPriority ∨
    priority = P.highPriority

instance (P : HandlerPriorities) (priority : UInt8) : Decidable (P.IsPriority priority) :=
  inferInstanceAs (Decidable (_ ∨ _ ∨ _ ∨ _))

/-- High before medium before the two others, which share a rank. -/
def HandlerPriorities.rank (P : HandlerPriorities) (priority : UInt8) : ℕ :=
  if priority = P.highPriority then 0 else if priority = P.mediumPriority then 1 else 2

theorem inserts_registerNotifier (fuel : ℕ) :
    Inserts (registerNotifier (ρ := ρ) fuel) fuel (fun _ ↦ True) UInt8.toNat := by
  refine inserts_register _ fun s c l r h hr _ _ hfuel ↦ h.insertLoop_listHead hr ?_ hfuel
  intro a _
  rw [decide_eq_true_eq, UInt8.lt_iff_toNat_lt]

/-- For the four priorities, to be greater is to have the smaller rank. -/
theorem HandlerPriorities.lt_iff_rank_lt (P : HandlerPriorities) {p q : UInt8}
    (hp : p = P.mediumPriority ∨ p = P.highPriority) (hq : P.IsPriority q) :
    q < p ↔ P.rank p < P.rank q := by
  have hno := UInt8.lt_iff_toNat_lt.mp P.noPriority_lt
  have hlow := UInt8.lt_iff_toNat_lt.mp P.lowPriority_lt
  have hmedium := UInt8.lt_iff_toNat_lt.mp P.mediumPriority_lt
  simp only [rank, UInt8.lt_iff_toNat_lt, ← UInt8.toNat_inj]
  rcases hp with rfl | rfl <;> rcases hq with rfl | rfl | rfl | rfl <;> split_ifs <;> omega

/-- The two lowest priorities have the last rank. -/
theorem HandlerPriorities.rank_le (P : HandlerPriorities) {p q : UInt8}
    (hp : p = P.noPriority ∨ p = P.lowPriority) : P.rank q ≤ P.rank p := by
  have hno := UInt8.lt_iff_toNat_lt.mp P.noPriority_lt
  have hlow := UInt8.lt_iff_toNat_lt.mp P.lowPriority_lt
  have hmedium := UInt8.lt_iff_toNat_lt.mp P.mediumPriority_lt
  simp only [rank, ← UInt8.toNat_inj]
  rcases hp with rfl | rfl <;> split_ifs <;> omega

theorem inserts_registerSiliconErrorHandler (P : HandlerPriorities) (fuel : ℕ) :
    Inserts (registerSiliconErrorHandler (ρ := ρ) P fuel) fuel P.IsPriority P.rank := by
  refine inserts_register _ fun s c l r h hr hl hvalid hfuel ↦ ?_
  by_cases hlast : r.priority = P.noPriority ∨ r.priority = P.lowPriority
  · rw [if_pos hlast]
    exact h.appendEntry hr fun a _ ↦ P.rank_le hlast
  · have hfirst : r.priority = P.mediumPriority ∨ r.priority = P.highPriority := by
      rcases hvalid with hp | hp | hp
      · exact absurd (Or.inl hp) hlast
      · exact absurd (Or.inr hp) hlast
      · exact hp
    rw [if_neg hlast, if_pos hfirst]
    refine h.insertLoop_listHead hr ?_ hfuel
    intro a ha
    rw [decide_eq_true_eq]
    exact P.lt_iff_rank_lt hfirst (hl a ha)

/-- **The lists stay ordered.** Whatever calls are made, in whatever order, both lists hold every
registration once, end at their tail pointers, are in order of priority and among equals in order of
registration. The pool hands out each record once. -/
theorem handlerLists_ordered (P : HandlerPriorities) (fuel : ℕ)
    (entry : ℕ → ListEntry ρ) (calls : List (RegisterCall ρ))
    (hpriority : ∀ c ∈ calls, P.IsPriority c.priority)
    (hpool : ((registrations calls).map (·.node)).Nodup) (hfuel : calls.length ≤ fuel)
    (notifiers : ℕ → ListEntry ρ) (notifierCalls : List (RegisterCall ρ))
    (hnotifierPool : ((registrations notifierCalls).map (·.node)).Nodup)
    (hnotifierFuel : notifierCalls.length ≤ fuel) :
    (∃ s, registerAll (registerSiliconErrorHandler P fuel) (.empty entry) calls = some s ∧
      s.Ordered P.rank (registrations calls)) ∧
    ∃ s, registerAll (registerNotifier fuel) (.empty notifiers) notifierCalls = some s ∧
      s.Ordered UInt8.toNat (registrations notifierCalls) := by
  have hlength : ∀ cs : List (RegisterCall ρ), (registrations cs).length ≤ cs.length :=
    fun cs ↦ List.length_filterMap_le _ cs
  constructor
  · refine (inserts_registerSiliconErrorHandler P fuel).run_ordered calls entry ?_ hpool
      ((hlength calls).trans hfuel)
    intro r hr
    obtain ⟨c, hc, hreg⟩ := List.mem_filterMap.mp hr
    rw [← (RegisterCall.eq_of_registration hreg).2.2]
    exact hpriority c hc
  · exact (inserts_registerNotifier fuel).run_ordered notifierCalls notifiers
      (fun _ _ ↦ trivial) hnotifierPool ((hlength notifierCalls).trans hnotifierFuel)

/-- The priorities by their places, and calls that insert at the head, in the middle and at the tail,
with one refused for want of memory. -/
theorem handlerLists_ordered_example :
    (∃ s, registerAll (registerSiliconErrorHandler
        ⟨0, 1, 2, 3, by decide, by decide, by decide⟩ 4) (.empty fun _ ↦ ⟨0, none, 0⟩)
        [⟨some 5, 1, some 10⟩, ⟨some 6, 3, some 20⟩, ⟨some 9, 3, none⟩, ⟨some 7, 2, some 30⟩] =
          some s ∧
      s.Ordered (HandlerPriorities.rank ⟨0, 1, 2, 3, by decide, by decide, by decide⟩)
        (registrations [⟨some 5, 1, some 10⟩, ⟨some 6, 3, some 20⟩, ⟨some 9, 3, none⟩,
          ⟨some 7, 2, some 30⟩])) ∧
    ∃ s, registerAll (registerNotifier 4) (.empty fun _ ↦ ⟨0, none, 0⟩)
        [⟨some 1, 0, some 10⟩, ⟨some 2, 255, some 20⟩, ⟨some 3, 1, some 30⟩] = some s ∧
      s.Ordered UInt8.toNat
        (registrations [⟨some 1, 0, some 10⟩, ⟨some 2, 255, some 20⟩, ⟨some 3, 1, some 30⟩]) :=
  handlerLists_ordered (ρ := ℕ) ⟨0, 1, 2, 3, by decide, by decide, by decide⟩ 4
    (fun _ ↦ ⟨0, none, 0⟩) _ (by decide) (by decide) (by decide) (fun _ ↦ ⟨0, none, 0⟩) _
    (by decide) (by decide)

end PurleyFirmware.Ras
