import Mathlib.Logic.Function.Basic

/-!
# Programs that stay on one device

A bank of devices, each with its registers, and programs that read and write them and leave a record
of what they do. A program **stays** on a device if its result, what it does to the device and its
record depend on the registers of that device only, the other devices are left as they are, and each
new entry of the record is of the kind that belongs to the device.

What a write does to the registers is up to the device: a status bit may be cleared by writing a one
to it. Staying on a device is compositional (`StaysOn.bind`, `StaysOn.ite`).
-/

namespace PurleyFirmware

universe u v w x

/-- The registers of the devices, and the record. -/
structure DeviceBank (ι : Type u) (ρ : Type v) (ε : Type w) where
  devices : ι → ρ
  record : List ε

/-- A program on a bank of devices. -/
def DeviceProgram (ι : Type u) (ρ : Type v) (ε : Type w) (α : Type x) : Type (max u v w x) :=
  DeviceBank ι ρ ε → α × DeviceBank ι ρ ε

namespace DeviceProgram

variable {ι : Type u} {ρ : Type v} {ε : Type w} {α β : Type x}

instance : Monad (DeviceProgram.{u, v, w, x} ι ρ ε) where
  pure a := fun s ↦ (a, s)
  bind p g := fun s ↦ g (p s).1 (p s).2

/-- Reads of registers, put together. -/
def query (q : (ι → ρ) → α) : DeviceProgram ι ρ ε α := fun s ↦ (q s.devices, s)

/-- A write to a device, which is recorded. -/
def write [DecidableEq ι] (i : ι) (respond : ρ → ρ) (e : ε) : DeviceProgram ι ρ ε PUnit := fun s ↦
  (⟨⟩, ⟨Function.update s.devices i (respond (s.devices i)), s.record ++ [e]⟩)

/-- An entry is recorded. -/
def note (e : ε) : DeviceProgram ι ρ ε PUnit := fun s ↦ (⟨⟩, { s with record := s.record ++ [e] })

section Run

variable {p : DeviceProgram ι ρ ε α} {g : α → DeviceProgram ι ρ ε β} (s : DeviceBank ι ρ ε)

theorem run_bind : (p >>= g) s = g (p s).1 (p s).2 := rfl

theorem run_query (q : (ι → ρ) → α) :
    (query q : DeviceProgram ι ρ ε α) s = (q s.devices, s) := rfl

theorem run_write [DecidableEq ι] (i : ι) (respond : ρ → ρ) (e : ε) :
    write i respond e s =
      (⟨⟩, ⟨Function.update s.devices i (respond (s.devices i)), s.record ++ [e]⟩) := rfl

theorem run_note (e : ε) :
    (note e : DeviceProgram ι ρ ε PUnit) s = (⟨⟩, { s with record := s.record ++ [e] }) := rfl

end Run

/-- Two banks are alike in a device and in their record. -/
structure AlikeOn (i : ι) (s s' : DeviceBank ι ρ ε) : Prop where
  device : s.devices i = s'.devices i
  record : s.record = s'.record

/-- The program stays on the device `i`, whose entries are those of the kind `own`. -/
structure StaysOn (i : ι) (own : ε → Prop) (p : DeviceProgram ι ρ ε α) : Prop where
  result : ∀ s s', AlikeOn i s s' → (p s).1 = (p s').1
  state : ∀ s s', AlikeOn i s s' → AlikeOn i (p s).2 (p s').2
  others : ∀ s j, j ≠ i → (p s).2.devices j = s.devices j
  entries : ∀ s, ∃ new, (p s).2.record = s.record ++ new ∧ ∀ e ∈ new, own e

variable {i : ι} {own : ε → Prop} {p p' : DeviceProgram ι ρ ε α} {g : α → DeviceProgram ι ρ ε β}

/-- The record is only added to. -/
theorem StaysOn.mem_record (h : StaysOn i own p) {s : DeviceBank ι ρ ε} {e : ε}
    (he : e ∈ s.record) : e ∈ (p s).2.record := by
  obtain ⟨new, hnew, -⟩ := h.entries s
  rw [hnew]
  exact List.mem_append_left new he

theorem StaysOn.pure (a : α) : StaysOn i own (Pure.pure a : DeviceProgram ι ρ ε α) where
  result _ _ _ := rfl
  state _ _ h := h
  others _ _ _ := rfl
  entries s := ⟨[], (List.append_nil _).symm, by simp⟩

/-- One program after the other. -/
theorem StaysOn.bind (hp : StaysOn i own p) (hg : ∀ a, StaysOn i own (g a)) :
    StaysOn i own (p >>= g) where
  result s s' h := by
    have hstate := hp.state s s' h
    have hresult := hp.result s s' h
    change (g (p s).1 (p s).2).1 = (g (p s').1 (p s').2).1
    rw [hresult]
    exact (hg _).result _ _ hstate
  state s s' h := by
    have hstate := hp.state s s' h
    have hresult := hp.result s s' h
    change AlikeOn i (g (p s).1 (p s).2).2 (g (p s').1 (p s').2).2
    rw [hresult]
    exact (hg _).state _ _ hstate
  others s j hj := ((hg _).others _ j hj).trans (hp.others s j hj)
  entries s := by
    obtain ⟨new, hnew, hown⟩ := hp.entries s
    obtain ⟨new', hnew', hown'⟩ := (hg (p s).1).entries (p s).2
    refine ⟨new ++ new', ?_, fun e he ↦ (List.mem_append.1 he).elim (hown e) (hown' e)⟩
    rw [← List.append_assoc, ← hnew]
    exact hnew'

theorem StaysOn.ite {c : Prop} [Decidable c] (hp : StaysOn i own p) (hp' : StaysOn i own p') :
    StaysOn i own (if c then p else p') := by
  split
  · exact hp
  · exact hp'

/-- Reads that depend on the device only. -/
theorem StaysOn.query {q : (ι → ρ) → α} (h : ∀ d d', d i = d' i → q d = q d') :
    StaysOn i own (DeviceProgram.query q : DeviceProgram ι ρ ε α) where
  result s s' halike := h s.devices s'.devices halike.device
  state _ _ halike := halike
  others _ _ _ := rfl
  entries s := ⟨[], (List.append_nil _).symm, by simp⟩

/-- A write to the device. -/
theorem StaysOn.write [DecidableEq ι] {respond : ρ → ρ} {e : ε} (he : own e) :
    StaysOn i own (DeviceProgram.write i respond e) where
  result _ _ _ := rfl
  state s s' h := by
    refine ⟨?_, ?_⟩
    · change Function.update s.devices i _ i = Function.update s'.devices i _ i
      rw [Function.update_self, Function.update_self, h.device]
    · change s.record ++ [e] = s'.record ++ [e]
      rw [h.record]
  others s j hj := Function.update_of_ne hj _ _
  entries s := ⟨[e], rfl, by simpa using he⟩

theorem StaysOn.note {e : ε} (he : own e) :
    StaysOn i own (DeviceProgram.note e : DeviceProgram ι ρ ε PUnit) where
  result _ _ _ := rfl
  state s s' h := ⟨h.device, congrArg (· ++ [e]) h.record⟩
  others _ _ _ := rfl
  entries s := ⟨[e], rfl, by simpa using he⟩

end DeviceProgram

end PurleyFirmware
