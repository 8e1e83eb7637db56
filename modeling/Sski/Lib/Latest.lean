import Mathlib.Data.Nat.Notation
import Mathlib.Tactic.Lemma
import Mathlib.Tactic.TypeStar
import Mathlib.Tactic.Common

/-!
The words that were written last.

Each key has its own addresses, and a write covers `n` of them. A word is known from the
moment it is written at its address until a write at another address overlaps it.
-/

namespace Sski.Lib.Latest

variable {κ α : Type*}

abbrev Words (κ α : Type*) := κ → ℕ → Option α

def unwritten : Words κ α := fun _ _ => none

variable [DecidableEq κ]

def write (n : ℕ) (s : Words κ α) (k : κ) (a : ℕ) (v : α) : Words κ α := fun k' b =>
  if k' = k then
    if b = a then some v
    else if a < b + n ∧ b < a + n then none
    else s k' b
  else s k' b

def forget (s : Words κ α) (k : κ) : Words κ α := fun k' b => if k' = k then none else s k' b

/-- A word is known after a write: it is the one that was written, or the write did not touch
it. -/
lemma write_eq_some {n : ℕ} {s : Words κ α} {k k' : κ} {a b : ℕ} {v u : α}
    (h : write n s k a v k' b = some u) :
    (k' = k ∧ b = a ∧ u = v) ∨ (s k' b = some u ∧ (k' = k → b + n ≤ a ∨ a + n ≤ b)) := by
  unfold write at h
  split at h
  · rename_i hk
    split at h
    · exact .inl ⟨hk, ‹_›, (Option.some.inj h).symm⟩
    · split at h
      · cases h
      · exact .inr ⟨h, fun _ => by omega⟩
  · rename_i hk
    exact .inr ⟨h, fun heq => absurd heq hk⟩

lemma forget_eq_some {s : Words κ α} {k k' : κ} {b : ℕ} {u : α}
    (h : forget s k k' b = some u) : k' ≠ k ∧ s k' b = some u := by
  unfold forget at h
  split at h
  · cases h
  · exact ⟨‹_›, h⟩

end Sski.Lib.Latest
