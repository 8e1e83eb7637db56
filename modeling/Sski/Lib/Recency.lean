import Mathlib.Data.Nat.Notation
import Mathlib.Tactic.Lemma
import Mathlib.Tactic.TypeStar
import Mathlib.Data.List.Basic
import Mathlib.Data.List.Pairwise

/-!
Counters that stand for the order of last uses.

A history lists uses, the last one first. A list of keys with counters is `Ranked` when longer
counters belong to earlier last uses, and of two equal ones the first in the list to the earlier
use: then the first of the longest counters belongs to the key that was not used for the longest
time. The lemmas say what keeps a list ranked.
-/

namespace Sski.Lib.Recency

variable {α : Type*} [DecidableEq α] {h : List α} {a b x y : α}

/-- The last use of `a` lies before that of `b`. -/
def Earlier (h : List α) (a b : α) : Prop := h.idxOf b < h.idxOf a

instance (h : List α) (a b : α) : Decidable (Earlier h a b) :=
  inferInstanceAs (Decidable (h.idxOf b < h.idxOf a))

lemma earlier_cons (hx : x ≠ a) (hy : y ≠ a) : Earlier (a :: h) x y ↔ Earlier h x y := by
  rw [Earlier, Earlier, List.idxOf_cons_ne _ hx.symm, List.idxOf_cons_ne _ hy.symm]
  exact Nat.succ_lt_succ_iff

lemma earlier_head (hx : x ≠ a) : Earlier (a :: h) x a := by
  rw [Earlier, List.idxOf_cons_self, List.idxOf_cons_ne _ hx.symm]
  exact Nat.succ_pos _

lemma not_earlier_head : ¬ Earlier (a :: h) a x := by
  rw [Earlier, List.idxOf_cons_self]
  exact Nat.not_lt_zero _

lemma earlier_or (hne : x ≠ y) (hx : x ∈ h) : Earlier h x y ∨ Earlier h y x := by
  rcases Nat.lt_trichotomy (h.idxOf x) (h.idxOf y) with hlt | heq | hgt
  · exact .inr hlt
  · exact absurd ((List.idxOf_inj hx).mp heq) hne
  · exact .inl hgt

/-- What is asked of two keys, the first before the second in the list. -/
def InOrder (h : List α) (x y : α × ℕ) : Prop :=
  (Earlier h x.1 y.1 → y.2 ≤ x.2) ∧ (Earlier h y.1 x.1 → x.2 < y.2)

def Ranked (h : List α) (l : List (α × ℕ)) : Prop := l.Pairwise (InOrder h)

def aged (k : ℕ) (x : α × ℕ) : α × ℕ := (x.1, x.2 + k)

variable {l l₁ l₂ : List (α × ℕ)} {c : ℕ}

lemma Ranked.map_aged (hr : Ranked h l) (k : ℕ) : Ranked h (l.map (aged k)) := by
  refine List.Pairwise.map _ ?_ hr
  rintro x y ⟨hle, hlt⟩
  exact ⟨fun hxy => Nat.add_le_add_right (hle hxy) k, fun hyx => Nat.add_lt_add_right (hlt hyx) k⟩

lemma ranked_cons_iff (hne : ∀ x ∈ l, x.1 ≠ a) : Ranked (a :: h) l ↔ Ranked h l := by
  refine List.Pairwise.iff_of_mem fun {x y} hx hy => ?_
  rw [InOrder, InOrder, earlier_cons (hne x hx) (hne y hy), earlier_cons (hne y hy) (hne x hx)]

/-- A key that is used now takes the place of another one. -/
lemma ranked_middle_iff (h₁ : ∀ x ∈ l₁, x.1 ≠ a) (h₂ : ∀ x ∈ l₂, x.1 ≠ a) :
    Ranked (a :: h) (l₁ ++ (a, 0) :: l₂) ↔
      Ranked h (l₁ ++ l₂) ∧ ∀ y ∈ l₂, 0 < y.2 := by
  have hall : ∀ x ∈ l₁ ++ l₂, x.1 ≠ a := fun x hx => (List.mem_append.mp hx).elim (h₁ x) (h₂ x)
  rw [← ranked_cons_iff (h := h) hall]
  simp only [Ranked, List.pairwise_append, List.pairwise_cons, List.forall_mem_cons]
  constructor
  · rintro ⟨hp₁, ⟨hnew, hp₂⟩, hboth⟩
    exact ⟨⟨hp₁, hp₂, fun x hx y hy => (hboth x hx).2 y hy⟩,
      fun y hy => (hnew y hy).2 (earlier_head (h₂ y hy))⟩
  · rintro ⟨⟨hp₁, hp₂, hboth⟩, hpos⟩
    refine ⟨hp₁, ⟨fun y hy => ⟨fun hlt => absurd hlt not_earlier_head, fun _ => hpos y hy⟩, hp₂⟩,
      fun x hx => ⟨⟨fun _ => Nat.zero_le _, fun hlt => absurd hlt not_earlier_head⟩,
        fun y hy => hboth x hx y hy⟩⟩

/-- **A use that ages only what stands before it** keeps the list ranked if and only if no key
behind it was used just now, and none is one step longer not used than a key before it. -/
theorem ranked_touch_iff (h₁ : ∀ x ∈ l₁, x.1 ≠ a) (h₂ : ∀ x ∈ l₂, x.1 ≠ a)
    (hr : Ranked h (l₁ ++ (a, c) :: l₂)) (hused : ∀ x ∈ l₁, x.1 ∈ h)
    (hdistinct : ∀ x ∈ l₁, ∀ y ∈ l₂, x.1 ≠ y.1) :
    Ranked (a :: h) (l₁.map (aged 1) ++ (a, 0) :: l₂) ↔
      ∀ y ∈ l₂, 0 < y.2 ∧ ∀ x ∈ l₁, y.2 ≠ x.2 + 1 := by
  have h₁' : ∀ x ∈ l₁.map (aged 1), x.1 ≠ a := by
    intro x' hx'
    obtain ⟨x, hx, rfl⟩ := List.mem_map.mp hx'
    exact h₁ x hx
  obtain ⟨hr₁, hr₂, hboth⟩ := List.pairwise_append.mp hr
  have hr₂' := (List.pairwise_cons.mp hr₂).2
  have hbetween : ∀ x ∈ l₁, ∀ y ∈ l₂, InOrder h x y :=
    fun x hx y hy => hboth x hx y (List.mem_cons_of_mem _ hy)
  rw [ranked_middle_iff h₁' h₂]
  constructor
  · rintro ⟨haged, hpos⟩ y hy
    refine ⟨hpos y hy, fun x hx heq => ?_⟩
    obtain ⟨hle, -⟩ := hbetween x hx y hy
    obtain ⟨-, hlt⟩ := (List.pairwise_append.mp haged).2.2 _ (List.mem_map_of_mem hx) y hy
    rcases earlier_or (hdistinct x hx y hy) (hused x hx) with hxy | hyx
    · have := hle hxy
      omega
    · have : x.2 + 1 < y.2 := hlt hyx
      omega
  · intro hcond
    refine ⟨List.pairwise_append.mpr ⟨Ranked.map_aged hr₁ 1, hr₂', ?_⟩, fun y hy => (hcond y hy).1⟩
    intro x' hx' y hy
    obtain ⟨x, hx, rfl⟩ := List.mem_map.mp hx'
    obtain ⟨hle, hlt⟩ := hbetween x hx y hy
    have hne := (hcond y hy).2 x hx
    refine ⟨fun hxy => Nat.le_succ_of_le (hle hxy), fun hyx => ?_⟩
    have hlt' : x.2 < y.2 := hlt hyx
    change x.2 + 1 < y.2
    omega

/-- **The first of the longest counters** belongs to the key that was used before all others. -/
theorem Ranked.earliest {v : α × ℕ} (hr : Ranked h (l₁ ++ v :: l₂)) (hused : v.1 ∈ h)
    (h₁ : ∀ x ∈ l₁, x.1 ≠ v.1 ∧ x.2 < v.2) (h₂ : ∀ x ∈ l₂, x.1 ≠ v.1 ∧ x.2 ≤ v.2) :
    ∀ x ∈ l₁ ++ l₂, Earlier h v.1 x.1 := by
  obtain ⟨-, hr₂, hboth⟩ := List.pairwise_append.mp hr
  intro x hx
  rcases List.mem_append.mp hx with hx | hx
  · obtain ⟨hne, hlt⟩ := h₁ x hx
    rcases earlier_or hne.symm hused with hvx | hxv
    · exact hvx
    · have := (hboth x hx v List.mem_cons_self).1 hxv
      omega
  · obtain ⟨hne, hle⟩ := h₂ x hx
    rcases earlier_or hne.symm hused with hvx | hxv
    · exact hvx
    · have := ((List.pairwise_cons.mp hr₂).1 x hx).2 hxv
      omega

end Sski.Lib.Recency
