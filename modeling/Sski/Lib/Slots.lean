import Mathlib.Data.Nat.Notation
import Mathlib.Tactic.Lemma
import Mathlib.Tactic.TypeStar
import Mathlib.Data.List.Basic
import Mathlib.Algebra.Group.Nat.Defs

/-!
Lists of pointers, as a C list library keeps them: an index is an `int`, a slot may hold
`NULL`, and a read outside the list is `NULL` too.

The indices below are the unsigned values the callers pass. One from `2 ^ 31` on is negative
once it is an `int`, so it names no slot.
-/

namespace Sski.Lib.Slots

variable {α : Type*}

/-- One more than the largest `int`. -/
def intBound : ℕ := 2 ^ 31

abbrev PtrList (α : Type*) := List (Option α)

/-- The pointer at an index, `none` for `NULL`. -/
def slotGet (l : PtrList α) (i : ℕ) : Option α :=
  if i < intBound then l[i]?.join else none

/-- Overwrites a slot of the list; an index outside it is ignored. -/
def slotReplace (l : PtrList α) (i : ℕ) (x : Option α) : PtrList α :=
  if i < intBound then l.set i x else l

/-- Inserts a pointer; `none` is the overflow of the `int` that counts the elements. -/
def slotAddInIndex (l : PtrList α) (i : ℕ) (x : Option α) : Option (PtrList α) :=
  if i < intBound ∧ i ≤ l.length then
    if l.length + 1 < intBound then some (l.insertIdx i x) else none
  else some l

lemma slotGet_eq_some_iff {l : PtrList α} {i : ℕ} {a : α} :
    slotGet l i = some a ↔ i < intBound ∧ l[i]? = some (some a) := by
  unfold slotGet
  split
  · simp_all [Option.join_eq_some_iff]
  · rename_i hge
    constructor
    · intro h
      cases h
    · intro h
      exact absurd h.1 hge

lemma slotGet_lt {l : PtrList α} {i : ℕ} {a : α} (h : slotGet l i = some a) : i < l.length :=
  (List.getElem?_eq_some_iff.mp (slotGet_eq_some_iff.mp h).2).1

lemma slotGet_eq_getElem {l : PtrList α} {i : ℕ} (hl : l.length < intBound) (hi : i < l.length) :
    slotGet l i = l[i] := by
  have hb : i < intBound := Nat.lt_trans hi hl
  simp [slotGet, hb, hi]

lemma slotGet_replace_self {l : PtrList α} {i : ℕ} {a : α} (h : slotGet l i = some a)
    (x : Option α) : slotGet (slotReplace l i x) i = x := by
  have hlt := slotGet_lt h
  have hi := (slotGet_eq_some_iff.mp h).1
  simp [slotGet, slotReplace, hi, hlt]

lemma slotGet_replace_of_ne {l : PtrList α} {i j : ℕ} (h : i ≠ j) (x : Option α) :
    slotGet (slotReplace l i x) j = slotGet l j := by
  unfold slotGet slotReplace
  split
  · split
    · rw [List.getElem?_set_ne h]
    · rfl
  · rfl

lemma slotGet_replace_of_lt {l : PtrList α} {i : ℕ} (hi : i < intBound) (hl : i < l.length)
    (x : Option α) (j : ℕ) :
    slotGet (slotReplace l i x) j = if j = i then x else slotGet l j := by
  by_cases h : j = i
  · subst h; simp [slotGet, slotReplace, hi, hl]
  · rw [if_neg h, slotGet_replace_of_ne (Ne.symm h)]

lemma slotReplace_self {l : PtrList α} {i : ℕ} {a : α} (h : slotGet l i = some a) :
    slotReplace l i (some a) = l := by
  obtain ⟨hi, hget⟩ := slotGet_eq_some_iff.mp h
  obtain ⟨hlt, hget⟩ := List.getElem?_eq_some_iff.mp hget
  rw [slotReplace, if_pos hi, ← hget, List.set_getElem_self]

@[simp] lemma length_slotReplace (l : PtrList α) (i : ℕ) (x : Option α) :
    (slotReplace l i x).length = l.length := by
  unfold slotReplace
  split <;> simp

lemma slotAddInIndex_length {l l' : PtrList α} {x : Option α} (hl : l.length < intBound)
    (h : slotAddInIndex l l.length x = some l') :
    l' = l ++ [x] ∧ l'.length < intBound := by
  unfold slotAddInIndex at h
  rw [if_pos ⟨hl, Nat.le_refl _⟩] at h
  split at h
  · rename_i hc
    obtain rfl := Option.some.inj h
    rw [List.insertIdx_length_self]
    exact ⟨rfl, by simpa using hc⟩
  · cases h

lemma slotGet_append_singleton {l : PtrList α} (hl : l.length < intBound) (x : Option α) (j : ℕ) :
    slotGet (l ++ [x]) j = if j = l.length then x else slotGet l j := by
  unfold slotGet
  by_cases h : j = l.length
  · subst h; simp [hl]
  · rw [if_neg h]
    split
    · rcases Nat.lt_or_ge j l.length with hlt | hge
      · rw [List.getElem?_append_left hlt]
      · rw [List.getElem?_eq_none (by simp; omega), List.getElem?_eq_none hge]
    · rfl

end Sski.Lib.Slots
