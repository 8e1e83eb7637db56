import Sski.Lib.Block

/-!
A block that is written or read front to back, through an offset that every copy moves on.

The offset is a number of `bits` bits, so it goes round; the lemmas are about blocks that are
short enough for it. `Filled` says what a writer has put down so far, `Ahead` what a reader has
still in front of it.
-/

namespace Sski.Lib.Cursor

open Sski.Lib.Block

/-- A block, and where the next copy goes. -/
structure Cursor (α : Type*) where
  block : List α
  offset : ℕ

variable {α : Type*} {w n : ℕ} {k k' : Cursor α} {d e rest : List α}

def start (block : List α) : Cursor α := ⟨block, 0⟩

def put (bits : ℕ) (k : Cursor α) (d : List α) : Option (Cursor α) := do
  let block ← poke k.block k.offset d
  return ⟨block, (k.offset + d.length) % 2 ^ bits⟩

def get (bits : ℕ) (k : Cursor α) (n : ℕ) : Option (List α × Cursor α) := do
  let d ← peek k.block k.offset n
  return (d, ⟨k.block, (k.offset + n) % 2 ^ bits⟩)

/-! ### Writing -/

/-- The block has `n` cells, and what was written so far is `d`. -/
structure Filled (n : ℕ) (d : List α) (k : Cursor α) : Prop where
  length : k.block.length = n
  offset : k.offset = d.length
  cells : k.block.take d.length = d

lemma filled_start (block : List α) : Filled block.length [] (start block) := ⟨rfl, rfl, rfl⟩

lemma Filled.put (h : Filled n d k) (hroom : d.length + e.length ≤ n) (hbits : n < 2 ^ w) :
    ∃ k', put w k e = some k' ∧ Filled n (d ++ e) k' := by
  have hle : k.offset + e.length ≤ k.block.length := by rw [h.offset, h.length]; exact hroom
  have hoff : (k.offset + e.length) % 2 ^ w = (d ++ e).length := by
    rw [h.offset, List.length_append]
    exact Nat.mod_eq_of_lt (by omega)
  obtain ⟨block, hb⟩ := exists_poke hle
  refine ⟨⟨block, (d ++ e).length⟩, by rw [Cursor.put, hb, ← hoff]; rfl, ?_, rfl, ?_⟩
  · exact (length_of_poke hb).trans h.length
  · -- the front is the old one with `e` behind it
    obtain ⟨-, rfl⟩ := poke_eq_some_iff.mp hb
    rw [h.offset, h.cells]
    exact List.take_left

lemma of_put (h : put w k e = some k') :
    k.offset + e.length ≤ k.block.length ∧ k'.block.length = k.block.length ∧
      k'.offset = (k.offset + e.length) % 2 ^ w := by
  rw [Cursor.put, Option.bind_eq_bind, Option.bind_eq_some_iff] at h
  obtain ⟨block, hb, h⟩ := h
  cases h
  exact ⟨(poke_eq_some_iff.mp hb).1, length_of_poke hb, rfl⟩

/-- A block that is full holds what was written, whatever it held before. -/
lemma Filled.block_eq (h : Filled n d k) (hn : d.length = n) : k.block = d := by
  have hcells := h.cells
  rwa [List.take_of_length_le (by rw [h.length, hn])] at hcells

/-! ### Reading -/

/-- What the cursor has in front of it is `d`, and the offset does not go round. -/
structure Ahead (bits : ℕ) (d : List α) (k : Cursor α) : Prop where
  cells : k.block.drop k.offset = d
  inside : k.offset ≤ k.block.length
  small : k.block.length < 2 ^ bits

lemma ahead_start {block : List α} (h : block.length < 2 ^ w) :
    Ahead w block (start block) := ⟨rfl, Nat.zero_le _, h⟩

lemma Ahead.get (h : Ahead w (d ++ rest) k) (hn : d.length = n) :
    ∃ k', get w k n = some (d, k') ∧ Ahead w rest k' := by
  have hsmall := h.small
  have hlen : k.block.length = k.offset + (d.length + rest.length) := by
    have hcells := congrArg List.length h.cells
    rw [List.length_drop, List.length_append] at hcells
    have hin := h.inside
    omega
  have hoff : (k.offset + n) % 2 ^ w = k.offset + n := Nat.mod_eq_of_lt (by omega)
  have hpeek : peek k.block k.offset n = some d := by
    rw [peek_eq_some_iff, h.cells, ← hn, List.take_left]
    exact ⟨by omega, rfl⟩
  refine ⟨⟨k.block, k.offset + n⟩, by simp [Cursor.get, hpeek, hoff], ?_, ?_, hsmall⟩
  · simp only
    rw [← List.drop_drop, h.cells, ← hn, List.drop_left]
  · simp only
    omega

lemma get_of_le {block : List α} {o : ℕ} (hle : o + n ≤ block.length) (hsmall : o + n < 2 ^ w) :
    get w ⟨block, o⟩ n = some ((block.drop o).take n, ⟨block, o + n⟩) := by
  simp only [Cursor.get, peek_isSome hle, Option.bind_eq_bind, Option.bind_some,
    Nat.mod_eq_of_lt hsmall, Option.pure_def]

lemma of_get (h : get w k n = some (d, k')) :
    k.offset + n ≤ k.block.length ∧ d = (k.block.drop k.offset).take n ∧
      k' = ⟨k.block, (k.offset + n) % 2 ^ w⟩ := by
  rw [Cursor.get, Option.bind_eq_bind, Option.bind_eq_some_iff] at h
  obtain ⟨d', hd, h⟩ := h
  obtain ⟨hle, rfl⟩ := peek_eq_some_iff.mp hd
  cases h
  exact ⟨hle, rfl, rfl⟩

end Sski.Lib.Cursor
