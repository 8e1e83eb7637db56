import Mathlib.Data.Nat.Notation
import Mathlib.Tactic.Lemma
import Mathlib.Tactic.TypeStar
import Mathlib.Data.List.Nodup

/-!
A table whose cells are overwritten in turn.

Beside the table stands the history of what was written, the last first. The table is laid out
along it: what was written `j` writes ago is `j + 1` cells behind the cursor, wherever the cursor
was when the table was cleared.
-/

namespace Sski.Lib.Fifo

variable {α : Type*} {n i j k : ℕ} {v : α} {h : List α} {cells : List (Option α)}

def advance (n i : ℕ) : ℕ := if i + 1 < n then i + 1 else 0

/-- The cell `j + 1` behind the cursor. -/
def behind (n i j : ℕ) : ℕ := if j < i then i - (j + 1) else i + n - (j + 1)

lemma advance_lt (hi : i < n) : advance n i < n := by
  unfold advance
  split <;> omega

lemma behind_lt (hi : i < n) (hj : j < n) : behind n i j < n := by
  unfold behind
  split <;> omega

lemma behind_last (hi : i < n) : behind n i (n - 1) = i := by
  unfold behind
  split <;> omega

lemma behind_advance_zero (hi : i < n) : behind n (advance n i) 0 = i := by
  unfold behind advance
  split <;> split <;> omega

lemma behind_advance_succ (hi : i < n) (hj : j + 1 < n) :
    behind n (advance n i) (j + 1) = behind n i j := by
  unfold behind advance
  split <;> split <;> split <;> omega

lemma behind_ne (hj : j + 1 < n) : behind n i j ≠ i := by
  unfold behind
  split <;> omega

lemma exists_behind (hi : i < n) (hk : k < n) : ∃ j, j < n ∧ behind n i j = k := by
  unfold behind
  by_cases hlt : k < i
  · exact ⟨i - (k + 1), by omega, by rw [if_pos (by omega)]; omega⟩
  · exact ⟨i + n - (k + 1), by omega, by rw [if_neg (by omega)]; omega⟩

/-- The table of `n` cells is laid out along the history behind the cursor. -/
structure Laid (n i : ℕ) (h : List α) (cells : List (Option α)) : Prop where
  length : cells.length = n
  cursor_lt : i < n
  cell : ∀ j, j < n → cells[behind n i j]? = some h[j]?

lemma laid_empty (hi : i < n) : Laid n i ([] : List α) (List.replicate n none) := by
  refine ⟨List.length_replicate, hi, fun j hj => ?_⟩
  rw [List.getElem?_replicate, if_pos (behind_lt hi hj)]
  rfl

lemma Laid.put (hl : Laid n i h cells) (v : α) :
    Laid n (advance n i) (v :: h) (cells.set i (some v)) := by
  have hi := hl.cursor_lt
  refine ⟨by rw [List.length_set, hl.length], advance_lt hi, fun j hj => ?_⟩
  cases j with
  | zero =>
    rw [behind_advance_zero hi, List.getElem?_set_self (by rw [hl.length]; exact hi)]
    rfl
  | succ j =>
    rw [behind_advance_succ hi hj, List.getElem?_set_ne (behind_ne hj).symm,
      hl.cell j (by omega)]
    rfl

/-- What the next write overwrites: what was written `n` writes ago, if there were so many. -/
lemma Laid.next (hl : Laid n i h cells) : cells[i]? = some h[n - 1]? := by
  have hi := hl.cursor_lt
  have hcell := hl.cell (n - 1) (by omega)
  rwa [behind_last hi] at hcell

lemma Laid.exists_age (hl : Laid n i h cells) (hk : k < n) :
    ∃ j, j < n ∧ behind n i j = k ∧ cells[k]? = some h[j]? := by
  obtain ⟨j, hj, rfl⟩ := exists_behind hl.cursor_lt hk
  exact ⟨j, hj, rfl, hl.cell j hj⟩

/-- The table holds the last `n` writes. -/
lemma Laid.mem_iff (hl : Laid n i h cells) : some v ∈ cells ↔ v ∈ h.take n := by
  constructor
  · intro hv
    obtain ⟨k, hk⟩ := List.mem_iff_getElem?.mp hv
    have hlt := (List.getElem?_eq_some_iff.mp hk).1
    obtain ⟨j, hj, -, hcell⟩ := hl.exists_age (hl.length ▸ hlt)
    rw [hk, Option.some.injEq] at hcell
    refine List.mem_of_getElem? (i := j) ?_
    rw [List.getElem?_take_of_lt hj, ← hcell]
  · intro hv
    obtain ⟨j, hj⟩ := List.mem_iff_getElem?.mp hv
    have hlt : j < n := by
      have := (List.getElem?_eq_some_iff.mp hj).1
      rw [List.length_take] at this
      omega
    rw [List.getElem?_take_of_lt hlt] at hj
    have hcell := hl.cell j hlt
    rw [hj] at hcell
    exact List.mem_of_getElem? hcell

/-- A cell that is in use is overwritten only when all are. -/
lemma Laid.full (hl : Laid n i h cells) (hnext : cells[i]? ≠ some none) : none ∉ cells := by
  intro hnone
  rw [hl.next] at hnext
  have hlen : n - 1 < h.length := by
    by_contra hshort
    exact hnext (congrArg some (List.getElem?_eq_none (by omega)))
  obtain ⟨k, hk⟩ := List.mem_iff_getElem?.mp hnone
  have hlt := (List.getElem?_eq_some_iff.mp hk).1
  obtain ⟨j, hj, -, hcell⟩ := hl.exists_age (hl.length ▸ hlt)
  rw [hk, Option.some.injEq] at hcell
  have := List.getElem?_eq_none_iff.mp hcell.symm
  omega

/-- What is overwritten is the oldest of the last `n` writes. -/
lemma Laid.oldest (hl : Laid n i h cells) (hnext : cells[i]? = some (some v)) :
    ∃ newer, h.take n = newer ++ [v] := by
  have hi := hl.cursor_lt
  rw [hl.next, Option.some.injEq] at hnext
  refine ⟨h.take (n - 1), ?_⟩
  have hsucc : n = n - 1 + 1 := by omega
  rw [hsucc, List.take_add_one, hnext]
  simp

lemma Laid.unique {β : Type*} {f : α → β} (hl : Laid n i h cells)
    (hnodup : ((h.take n).map f).Nodup) {k' : ℕ} {v' : α} (hk : cells[k]? = some (some v))
    (hk' : cells[k']? = some (some v')) (heq : f v = f v') : k = k' := by
  obtain ⟨j, hj, rfl, hcell⟩ := hl.exists_age (hl.length ▸ (List.getElem?_eq_some_iff.mp hk).1)
  obtain ⟨j', hj', rfl, hcell'⟩ :=
    hl.exists_age (hl.length ▸ (List.getElem?_eq_some_iff.mp hk').1)
  rw [hk, Option.some.injEq] at hcell
  rw [hk', Option.some.injEq] at hcell'
  have hget : ((h.take n).map f)[j]? = some (f v) := by
    rw [List.getElem?_map, List.getElem?_take_of_lt hj, ← hcell]
    rfl
  have hget' : ((h.take n).map f)[j']? = some (f v) := by
    rw [List.getElem?_map, List.getElem?_take_of_lt hj', ← hcell', heq]
    rfl
  have hlt := (List.getElem?_eq_some_iff.mp hget).1
  obtain rfl : j = j' := (List.getElem?_inj hlt hnodup).mp (hget.trans hget'.symm)
  rfl

lemma nodup_put {β : Type*} {f : α → β} (hnodup : ((h.take n).map f).Nodup)
    (hnew : ∀ x ∈ h.take n, f x ≠ f v) : (((v :: h).take n).map f).Nodup := by
  cases n with
  | zero => exact List.nodup_nil
  | succ n =>
    have hsub : (h.take n).Sublist (h.take (n + 1)) := List.take_sublist_take_left (Nat.le_succ n)
    rw [List.take_succ_cons, List.map_cons, List.nodup_cons]
    refine ⟨fun hmem => ?_, hnodup.sublist (hsub.map f)⟩
    obtain ⟨x, hx, heq⟩ := List.mem_map.mp hmem
    exact hnew x (hsub.subset hx) heq

end Sski.Lib.Fifo
