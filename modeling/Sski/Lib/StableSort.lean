import Mathlib.Data.List.Sort
import Mathlib.Order.Basic
import Mathlib.Tactic.Common

/-!
Lists that have the elements of each key in the same order, as a list and its stable sort, and
the first element of least key.
-/

namespace Sski.Lib.StableSort

variable {α β : Type*} [LinearOrder β] (key : α → β)

/-- The elements of each key come in the same order. -/
def SameOrder (l l' : List α) : Prop :=
  ∀ k, (l.filter fun a => key a = k) = l'.filter fun a => key a = k

def firstMin (l : List α) : Option α := l.find? fun a => ∀ b ∈ l, key a ≤ key b

variable {key} {l l' l'' : List α} {a : α}

namespace SameOrder

lemma refl (l : List α) : SameOrder key l l := fun _ => rfl

lemma trans (h : SameOrder key l l') (h' : SameOrder key l' l'') : SameOrder key l l'' :=
  fun k => (h k).trans (h' k)

lemma mem_iff (h : SameOrder key l l') : a ∈ l ↔ a ∈ l' := by
  have hk : ∀ l : List α, a ∈ l ↔ a ∈ l.filter fun b => key b = key a := by simp
  rw [hk l, h (key a), ← hk l']

lemma append (h : SameOrder key l l') (as : List α) : SameOrder key (l ++ as) (l' ++ as) := by
  intro k
  rw [List.filter_append, List.filter_append, h k]

/-- The order among equals does not depend on the key, only on which elements have equal ones. -/
lemma congr_key {key' : α → β} (h : SameOrder key l l') (hkey : ∀ a ∈ l, key' a = key a) :
    SameOrder key' l l' := by
  have hf : ∀ {m : List α}, (∀ a ∈ m, key' a = key a) → ∀ k,
      (m.filter fun a => key' a = k) = m.filter fun a => key a = k := by
    intro m hm k
    refine List.filter_congr fun a ha => ?_
    rw [hm a ha]
  intro k
  rw [hf hkey, hf fun a ha => hkey a (h.mem_iff.mpr ha)]
  exact h k

lemma tail [DecidableEq α] (h : SameOrder key (a :: l) l') : SameOrder key l (l'.erase a) := by
  intro k
  rw [← List.erase_filter, ← h k]
  by_cases hk : key a = k
  · simp [hk]
  · rw [List.filter_cons_of_neg (by simpa using hk), List.erase_of_not_mem]
    simp [hk]

end SameOrder

/-- The list's sort is stable. -/
lemma sameOrder_insertionSort {r : α → α → Prop} [DecidableRel r]
    (hr : ∀ a b, r a b ↔ key a ≤ key b) (l : List α) :
    SameOrder key (l.insertionSort r) l := by
  intro k
  -- the elements of one key are a sorted sublist, which the sort leaves as it is
  have hsorted : (l.filter fun a => key a = k).Pairwise r := by
    refine List.pairwise_of_forall_mem_list fun a ha b hb => (hr a b).mpr ?_
    rw [of_decide_eq_true (List.mem_filter.mp ha).2, of_decide_eq_true (List.mem_filter.mp hb).2]
  have hsub := (List.sublist_insertionSort hsorted List.filter_sublist).filter fun a => key a = k
  rw [List.filter_filter] at hsub
  simp only [Bool.and_self] at hsub
  refine (hsub.eq_of_length ?_).symm
  exact ((List.perm_insertionSort r l).symm.filter _).length_eq

lemma exists_forall_le (key : α → β) (hl : l ≠ []) : ∃ a ∈ l, ∀ b ∈ l, key a ≤ key b := by
  induction l with
  | nil => exact absurd rfl hl
  | cons c l ih =>
    rcases eq_or_ne l [] with rfl | hl
    · exact ⟨c, by simp, by simp⟩
    obtain ⟨a, ha, hle⟩ := ih hl
    rcases le_total (key c) (key a) with hca | hac
    · refine ⟨c, by simp, ?_⟩
      simpa using fun b hb => hca.trans (hle b hb)
    · refine ⟨a, by simp [ha], ?_⟩
      simpa [hac] using hle

lemma firstMin_eq (ha : a ∈ l) (hle : ∀ b ∈ l, key a ≤ key b) :
    firstMin key l = (l.filter fun b => key b = key a).head? := by
  rw [firstMin, ← List.head?_filter]
  congr 1
  refine List.filter_congr fun b hb => ?_
  simp only [decide_eq_decide]
  exact ⟨fun h => le_antisymm (h a ha) (hle b hb), fun h c hc => h.le.trans (hle c hc)⟩

@[simp] lemma firstMin_nil : firstMin key [] = none := rfl

/-- The first element of least key does not depend on how elements of other keys are placed. -/
lemma SameOrder.firstMin_eq (h : SameOrder key l l') : firstMin key l = firstMin key l' := by
  rcases eq_or_ne l [] with rfl | hl
  · obtain rfl : l' = [] := List.eq_nil_iff_forall_not_mem.mpr fun a ha => by
      simpa using h.mem_iff.mpr ha
    rfl
  obtain ⟨a, ha, hle⟩ := exists_forall_le key hl
  rw [StableSort.firstMin_eq ha hle, h (key a), StableSort.firstMin_eq (h.mem_iff.mp ha)]
  exact fun b hb => hle b (h.mem_iff.mpr hb)

lemma firstMin_eq_head? :
    firstMin key l = l.head? ↔ ∀ a ∈ l.head?, ∀ b ∈ l, key a ≤ key b := by
  cases l with
  | nil => simp
  | cons a l =>
    rw [List.head?_cons]
    constructor
    · rintro h b ⟨⟩
      simpa using List.find?_some (show List.find? _ _ = _ from h)
    · intro h
      exact List.find?_cons_of_pos (decide_eq_true (h a rfl))

lemma head?_insertionSort {r : α → α → Prop} [DecidableRel r]
    (hr : ∀ a b, r a b ↔ key a ≤ key b) (l : List α) :
    (l.insertionSort r).head? = firstMin key l := by
  have : Std.Total r := ⟨fun a b => by simpa only [hr] using le_total (key a) (key b)⟩
  have : IsTrans α r := ⟨fun a b c => by simpa only [hr] using le_trans⟩
  have hsorted := List.pairwise_insertionSort r l
  rw [← (sameOrder_insertionSort hr l).firstMin_eq, eq_comm, firstMin_eq_head?]
  intro a ha b hb
  cases hl : l.insertionSort r with
  | nil => simp [hl] at ha
  | cons c m =>
    rw [hl] at ha hb hsorted
    obtain rfl : c = a := by simpa using ha
    rcases List.mem_cons.mp hb with rfl | hb
    · exact le_rfl
    · exact (hr _ _).mp ((List.pairwise_cons.mp hsorted).1 b hb)

end Sski.Lib.StableSort
