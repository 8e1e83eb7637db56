import Mathlib.Data.List.Basic
import Mathlib.Logic.Function.Basic
import Mathlib.Data.List.Nodup

/-!
Walks over the entries of a table, and rounds over a ring of them.

A walk visits entries in a given order, takes the first that hits and changes those it passes
over. The ring of a hand is the order that starts at the hand and visits every index once. A
method of choice repeats a round until it takes an entry; it is what `Chooses` relates, and it
chooses one entry at most.
-/

namespace Sski.Lib.Ring

variable {α : Type*}

section Walk

variable (hit : α → Bool) (take : α → α) (miss : ℕ → α → α)

/-- Takes the first entry that hits, and passes over the others. -/
def walk : List ℕ → (ℕ → α) → (ℕ → α) × Option ℕ
  | [], t => (t, none)
  | j :: js, t =>
    if hit (t j) then (Function.update t j (take (t j)), some j)
    else walk js (Function.update t j (miss j (t j)))

/-- Goes on if nothing was taken. -/
def orElse (p : (ℕ → α) × Option ℕ) (k : (ℕ → α) → (ℕ → α) × Option ℕ) : (ℕ → α) × Option ℕ :=
  match p.2 with
  | some j => (p.1, some j)
  | none => k p.1

variable {hit take miss}

lemma orElse_of_none {p : (ℕ → α) × Option ℕ} {k : (ℕ → α) → (ℕ → α) × Option ℕ}
    (h : p.2 = none) : orElse p k = k p.1 := by
  simp only [orElse, h]

lemma orElse_of_some {p : (ℕ → α) × Option ℕ} {k : (ℕ → α) → (ℕ → α) × Option ℕ} {j : ℕ}
    (h : p.2 = some j) : orElse p k = p := by
  obtain ⟨t, found⟩ := p
  subst h
  rfl

lemma walk_append (js ks : List ℕ) (t : ℕ → α) :
    walk hit take miss (js ++ ks) t =
      orElse (walk hit take miss js t) (walk hit take miss ks) := by
  induction js generalizing t with
  | nil => rfl
  | cons j js ih =>
    simp only [List.cons_append, walk]
    split
    · rfl
    · exact ih _

lemma walk_of_miss {js : List ℕ} (hjs : js.Nodup) {t : ℕ → α}
    (h : ∀ j ∈ js, hit (t j) = false) :
    walk hit take miss js t = (fun i => if i ∈ js then miss i (t i) else t i, none) := by
  induction js generalizing t with
  | nil => simp [walk]
  | cons j js ih =>
    obtain ⟨hj, hjs'⟩ := List.nodup_cons.mp hjs
    have hne : ∀ i ∈ js, i ≠ j := by
      rintro i hi rfl
      exact hj hi
    rw [walk, if_neg (by simp [h j List.mem_cons_self]), ih hjs' fun i hi => by
      rw [Function.update_of_ne (hne i hi)]
      exact h i (List.mem_cons_of_mem _ hi)]
    refine Prod.ext (funext fun i => ?_) rfl
    by_cases hij : i = j
    · subst hij
      simp [hj]
    · simp [hij]

lemma walk_of_hit {pre post : List ℕ} {j : ℕ} (hnodup : (pre ++ j :: post).Nodup) {t : ℕ → α}
    (hmiss : ∀ i ∈ pre, hit (t i) = false) (hhit : hit (t j) = true) :
    walk hit take miss (pre ++ j :: post) t =
      (fun i => if i = j then take (t j) else if i ∈ pre then miss i (t i) else t i,
        some j) := by
  obtain ⟨hpre, -, hdisj⟩ := List.nodup_append.mp hnodup
  have hj : j ∉ pre := fun hj => hdisj j hj j List.mem_cons_self rfl
  rw [walk_append, walk_of_miss hpre hmiss, orElse_of_none rfl]
  simp only [walk, hj, if_false, hhit, if_true]
  refine Prod.ext (funext fun i => ?_) rfl
  by_cases hij : i = j
  · subst hij
    simp
  · simp [hij]

/-- A walk either passes over all its entries or takes the first that hits. -/
lemma exists_first (hit : α → Bool) (js : List ℕ) (t : ℕ → α) :
    (∀ j ∈ js, hit (t j) = false) ∨
      ∃ pre j post, js = pre ++ j :: post ∧ (∀ i ∈ pre, hit (t i) = false) ∧
        hit (t j) = true := by
  cases hfind : js.find? fun j => hit (t j) with
  | none => exact .inl (by simpa using List.find?_eq_none.mp hfind)
  | some j =>
    obtain ⟨hj, pre, post, hsplit, hpre⟩ := List.find?_eq_some_iff_append.mp hfind
    exact .inr ⟨pre, j, post, hsplit, by simpa using hpre, hj⟩

/-- Entries that neither hit nor change need not be visited. -/
lemma walk_filter {keep : α → Bool} (hhit : ∀ a, keep a = false → hit a = false)
    (hmiss : ∀ i a, keep a = false → miss i a = a) {js : List ℕ} (hjs : js.Nodup)
    (t : ℕ → α) :
    walk hit take miss js t = walk hit take miss (js.filter fun j => keep (t j)) t := by
  induction js generalizing t with
  | nil => rfl
  | cons j js ih =>
    obtain ⟨hj, hjs'⟩ := List.nodup_cons.mp hjs
    cases hkeep : keep (t j) with
    | true =>
      rw [List.filter_cons, if_pos hkeep]
      simp only [walk]
      split
      · rfl
      · rw [ih hjs']
        -- the rest of the table is as it was
        congr 1
        refine List.filter_congr fun i hi => ?_
        rw [Function.update_of_ne (by rintro rfl; exact hj hi)]
    | false =>
      rw [List.filter_cons, if_neg (by simp [hkeep]), ← ih hjs', walk,
        if_neg (by simp [hhit _ hkeep]), hmiss j _ hkeep, Function.update_eq_self]

lemma walk_congr {miss' : ℕ → α → α} {js : List ℕ} (h : ∀ j ∈ js, miss j = miss' j)
    (t : ℕ → α) : walk hit take miss js t = walk hit take miss' js t := by
  induction js generalizing t with
  | nil => rfl
  | cons j js ih =>
    simp only [walk, h j List.mem_cons_self]
    split
    · rfl
    · exact ih (fun i hi => h i (List.mem_cons_of_mem _ hi)) _

end Walk

/-! ### The ring of a hand -/

/-- The indices below `n`, from the hand to the end and then from the start. -/
def ring (n hand : ℕ) : List ℕ := List.range' hand (n - hand) ++ List.range hand

lemma mem_ring {n hand i : ℕ} (h : hand ≤ n) : i ∈ ring n hand ↔ i < n := by
  simp only [ring, List.mem_append, List.mem_range'_1, List.mem_range]
  omega

lemma nodup_ring (n hand : ℕ) : (ring n hand).Nodup := by
  refine List.nodup_append.mpr ⟨List.nodup_range', List.nodup_range, ?_⟩
  intro i hi j hj
  rw [List.mem_range'_1] at hi
  rw [List.mem_range] at hj
  omega

lemma ring_eq_cons {n hand : ℕ} (h : hand < n) :
    ∃ js, ring n hand = hand :: js := by
  obtain ⟨k, hk⟩ : ∃ k, n - hand = k + 1 := ⟨n - hand - 1, by omega⟩
  exact ⟨_, by rw [ring, hk, List.range'_succ, List.cons_append]⟩

/-! ### Rounds -/

def rounds (round : (ℕ → α) → (ℕ → α) × Option ℕ) : ℕ → (ℕ → α) → Option ((ℕ → α) × ℕ)
  | 0, _ => none
  | k + 1, t =>
    match round t with
    | (t', some j) => some (t', j)
    | (t', none) => rounds round k t'

/-- Repeated rounds take the entry `j` and leave the table `t'`. -/
def Chooses (round : (ℕ → α) → (ℕ → α) × Option ℕ) (t t' : ℕ → α) (j : ℕ) : Prop :=
  ∃ k, rounds round k t = some (t', j)

variable {round : (ℕ → α) → (ℕ → α) × Option ℕ} {t t' : ℕ → α} {j : ℕ}

lemma chooses_of_some (h : round t = (t', some j)) : Chooses round t t' j :=
  ⟨1, by simp only [rounds, h]⟩

lemma Chooses.of_none {t₁ : ℕ → α} (h : round t = (t₁, none)) (hc : Chooses round t₁ t' j) :
    Chooses round t t' j := by
  obtain ⟨k, hk⟩ := hc
  exact ⟨k + 1, by simp only [rounds, h, hk]⟩

lemma Chooses.unique {u' : ℕ → α} {i : ℕ} (h : Chooses round t t' j)
    (h' : Chooses round t u' i) : t' = u' ∧ j = i := by
  obtain ⟨k, hk⟩ := h
  obtain ⟨l, hl⟩ := h'
  induction k generalizing t l with
  | zero => cases hk
  | succ k ih =>
    cases l with
    | zero => cases hl
    | succ l =>
      simp only [rounds] at hk hl
      cases hr : round t with
      | mk t₁ found =>
        rw [hr] at hk hl
        cases found with
        | some v =>
          simp only [Option.some.injEq, Prod.mk.injEq] at hk hl
          exact ⟨hk.1.symm.trans hl.1, hk.2.symm.trans hl.2⟩
        | none => exact ih hk l hl

end Sski.Lib.Ring
