import Mathlib.Data.Nat.Notation
import Mathlib.Tactic.Lemma
import Mathlib.Tactic.TypeStar
import Mathlib.Data.List.Nodup
import Mathlib.Algebra.Order.BigOperators.Group.List
import Mathlib.Algebra.Order.Ring.Nat

/-!
Sums of counts over a list of places, when the count of one place changes.
-/

namespace Sski.Lib.Counting

variable {α : Type*}

lemma sum_map_add_congr {l : List α} {f f' d d' : α → ℕ}
    (h : ∀ x ∈ l, f' x + d x = f x + d' x) :
    (l.map f').sum + (l.map d).sum = (l.map f).sum + (l.map d').sum := by
  induction l with
  | nil => rfl
  | cons x xs ih =>
    have hx := h x List.mem_cons_self
    have hxs := ih fun y hy => h y (List.mem_cons_of_mem _ hy)
    simp only [List.map_cons, List.sum_cons]
    omega

lemma sum_map_single [DecidableEq α] {l : List α} (h : l.Nodup) (a : α) (n : ℕ) :
    (l.map fun x => if x = a then n else 0).sum = if a ∈ l then n else 0 := by
  induction l with
  | nil => simp
  | cons x xs ih =>
    obtain ⟨hx, hxs⟩ := List.nodup_cons.mp h
    rw [List.map_cons, List.sum_cons, ih hxs]
    by_cases hxa : x = a
    · subst hxa
      simp [hx]
    · simp [hxa, Ne.symm hxa]

lemma countP_set_add {p : α → Bool} {l : List α} {i : ℕ} {a : α} (b : α) (h : l[i]? = some a) :
    (l.set i b).countP p + (if p a then 1 else 0) = l.countP p + (if p b then 1 else 0) := by
  obtain ⟨hi, rfl⟩ := List.getElem?_eq_some_iff.mp h
  have hpos : (if p l[i] then 1 else 0) ≤ l.countP p := by
    split
    · exact List.countP_pos_iff.mpr ⟨l[i], List.getElem_mem hi, ‹_›⟩
    · exact Nat.zero_le _
  rw [List.countP_set hi]
  omega

/-! ### Counts as numbers of true tests -/

lemma countP_cons_toNat (p : α → Bool) (a : α) (l : List α) :
    (a :: l).countP p = l.countP p + (p a).toNat := by
  rw [List.countP_cons]
  cases p a <;> rfl

lemma countP_set_toNat {p : α → Bool} {l : List α} {i : ℕ} {a : α} (b : α) (h : l[i]? = some a) :
    (l.set i b).countP p + (p a).toNat = l.countP p + (p b).toNat := by
  have hset := countP_set_add (p := p) b h
  cases ha : p a <;> cases hb : p b <;> simp_all

/-- What a list holds of a kind, counted where it is held. -/
lemma countP_filterMap_any {β : Type*} (p : β → Bool) (f : α → Option β) (l : List α) :
    (l.filterMap f).countP p = l.countP fun x => (f x).any p := by
  rw [List.countP_filterMap]
  congr 1
  funext x
  cases f x <;> rfl

lemma countP_toList (p : α → Bool) (o : Option α) : o.toList.countP p = (o.any p).toNat := by
  cases o with
  | none => rfl
  | some a => rw [Option.toList_some, countP_cons_toNat, List.countP_nil, Nat.zero_add]; rfl

lemma mem_congr_of_countP {l l' : List α} [DecidableEq α] (h : ∀ p, l'.countP p = l.countP p)
    (a : α) : a ∈ l' ↔ a ∈ l := by
  rw [← List.count_pos_iff, ← List.count_pos_iff, List.count_eq_countP, List.count_eq_countP, h]

lemma countP_contains [DecidableEq α] {l m : List α} (hle : ∀ a, m.count a ≤ l.count a)
    (hone : ∀ a, l.count a ≤ 1) : l.countP (fun a => m.contains a) = m.length := by
  rw [List.countP_eq_length_filter]
  refine List.Perm.length_eq (List.perm_iff_count.mpr fun a => ?_)
  have hl := hone a
  have hm := hle a
  by_cases ha : a ∈ m
  · have hpos := List.count_pos_iff.mpr ha
    rw [List.count_filter (by simpa using ha)]
    omega
  · rw [List.count_eq_zero_of_not_mem ha, List.count_eq_zero_of_not_mem]
    simp [ha]

/-! ### Places

Things are spread over places; a place holds a list of them. -/

section Places

variable {ι : Type*} (f : ι → List α)

lemma countP_flatMap_pos {p : α → Bool} {l : List ι} {x : ι} {a : α} (hx : x ∈ l) (ha : a ∈ f x)
    (hp : p a) : 0 < (l.flatMap f).countP p :=
  List.countP_pos_iff.mpr ⟨a, List.mem_flatMap.mpr ⟨x, hx, ha⟩, hp⟩

/-- Two places hold a thing of the same kind: so there are two of the kind. -/
lemma two_le_countP_flatMap {p : α → Bool} {l : List ι} {x y : ι} {a b : α} (hxy : x ≠ y)
    (hx : x ∈ l) (hy : y ∈ l) (ha : a ∈ f x) (hb : b ∈ f y) (hpa : p a) (hpb : p b) :
    2 ≤ (l.flatMap f).countP p := by
  induction l with
  | nil => cases hx
  | cons z l ih =>
    rw [List.flatMap_cons, List.countP_append]
    rcases List.mem_cons.mp hx with rfl | hxl
    · have hyl := (List.mem_cons.mp hy).resolve_left (Ne.symm hxy)
      have hrest := countP_flatMap_pos f hyl hb hpb
      have hhere : 0 < (f x).countP p := List.countP_pos_iff.mpr ⟨a, ha, hpa⟩
      omega
    rcases List.mem_cons.mp hy with rfl | hyl
    · have hrest := countP_flatMap_pos f hxl ha hpa
      have hhere : 0 < (f y).countP p := List.countP_pos_iff.mpr ⟨b, hb, hpb⟩
      omega
    · have hrest := ih hxl hyl
      omega

end Places

lemma exists_of_sum_map_eq_one {ι : Type*} {f : ι → ℕ} {l : List ι} (h : (l.map f).sum = 1) :
    ∃ x ∈ l, f x = 1 ∧ ∀ y ∈ l, y ≠ x → f y = 0 := by
  induction l with
  | nil => simp at h
  | cons z l ih =>
    rw [List.map_cons, List.sum_cons] at h
    have hz : ∀ y ∈ l, f y ≤ (l.map f).sum := fun y hy =>
      List.le_sum_of_mem (List.mem_map_of_mem hy)
    by_cases hfz : f z = 0
    · obtain ⟨x, hx, hone, hothers⟩ := ih (by omega)
      refine ⟨x, List.mem_cons_of_mem _ hx, hone, fun y hy hne => ?_⟩
      rcases List.mem_cons.mp hy with rfl | hy
      · exact hfz
      · exact hothers y hy hne
    · refine ⟨z, List.mem_cons_self, by omega, fun y hy hne => ?_⟩
      have hle := hz y ((List.mem_cons.mp hy).resolve_left hne)
      omega

end Sski.Lib.Counting
