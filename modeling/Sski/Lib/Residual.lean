import Mathlib.Computability.Language
import Sski.Lib.Automaton

/-!
Patterns that are sequences of symbol sets, each taken once or repeated, and what is left of them
behind a word.

A state of an automaton may be labelled with what is left of each rule's pattern. If the labels
follow the steps of the automaton, and a state accepts the first rule of which nothing need come
any more, the automaton accepts what the rules do. A finite automaton is checked that way state by
state.
-/

namespace Sski.Lib.Residual

open Sski.Lib.Munch Sski.Lib.Automaton

inductive Item (κ : Type*)
  | one (k : κ)
  | many (k : κ)
  deriving DecidableEq, Repr

variable {α β κ ρ σ : Type*} (mem : κ → α → Bool)

/-- The words of one symbol of a set. -/
def symbols (k : κ) : Language α := {w | ∃ a, mem k a = true ∧ w = [a]}

def language : List (Item κ) → Language α
  | [] => 1
  | .one k :: is => symbols mem k * language is
  | .many k :: is => KStar.kstar (symbols mem k) * language is

def nullable : List (Item κ) → Bool
  | [] => true
  | .one _ :: _ => false
  | .many _ :: is => nullable is

def derive : List (Item κ) → α → Option (List (Item κ))
  | [], _ => none
  | .one k :: is, a => if mem k a then some is else none
  | .many k :: is, a => if mem k a then some (.many k :: is) else derive is a

/-- What comes behind a repetition begins with none of its symbols. -/
def Deterministic : List (Item κ) → Prop
  | [] => True
  | .one _ :: is => Deterministic is
  | .many k :: is => (∀ a, mem k a = true → derive mem is a = none) ∧ Deterministic is

variable {mem} {is is' : List (Item κ)} {k : κ} {a : α} {w : List α}

lemma derive_comp (mem : κ → β → Bool) (f : α → β) (is : List (Item κ)) (a : α) :
    derive (fun k a => mem k (f a)) is a = derive mem is (f a) := by
  induction is with
  | nil => rfl
  | cons i is ih =>
    cases i with
    | one k => rfl
    | many k => simp only [derive, ih]

lemma Deterministic.derive (h : Deterministic mem is) (hd : derive mem is a = some is') :
    Deterministic mem is' := by
  induction is with
  | nil => cases hd
  | cons i is ih =>
    cases i with
    | one k =>
      simp only [Residual.derive, Option.ite_none_right_eq_some, Option.some.injEq] at hd
      obtain ⟨-, rfl⟩ := hd
      exact h
    | many k =>
      simp only [Residual.derive] at hd
      split at hd
      · obtain rfl := Option.some.inj hd
        exact h
      · exact ih h.2 hd

/-! ### The words of a pattern -/

lemma nil_mem_symbols_mul {l : Language α} : [] ∉ symbols mem k * l := by
  rw [Language.mem_mul]
  rintro ⟨u, ⟨a, -, rfl⟩, v, -, heq⟩
  cases heq

lemma cons_mem_symbols_mul {l : Language α} :
    a :: w ∈ symbols mem k * l ↔ mem k a = true ∧ w ∈ l := by
  rw [Language.mem_mul]
  constructor
  · rintro ⟨u, ⟨b, hb, rfl⟩, v, hv, heq⟩
    obtain ⟨rfl, rfl⟩ := List.cons.inj heq
    exact ⟨hb, hv⟩
  · rintro ⟨ha, hw⟩
    exact ⟨[a], ⟨a, ha, rfl⟩, w, hw, rfl⟩

/-- A repetition is nothing, or a symbol and the repetition again. -/
lemma kstar_mul_eq (k : κ) (l : Language α) :
    KStar.kstar (symbols mem k) * l = l + symbols mem k * (KStar.kstar (symbols mem k) * l) := by
  conv_lhs => rw [← Language.one_add_self_mul_kstar_eq_kstar]
  rw [add_mul, one_mul, mul_assoc]

lemma nil_mem_language_iff : [] ∈ language mem is ↔ nullable is = true := by
  induction is with
  | nil => exact iff_of_true rfl rfl
  | cons i is ih =>
    cases i with
    | one k => exact iff_of_false nil_mem_symbols_mul (by simp [nullable])
    | many k =>
      rw [language, kstar_mul_eq, Language.mem_add, ih]
      exact or_iff_left nil_mem_symbols_mul

/-- What is left behind a symbol says which words go on from there. -/
theorem cons_mem_language_iff (h : Deterministic mem is) : a :: w ∈ language mem is ↔
    ∃ is', derive mem is a = some is' ∧ w ∈ language mem is' := by
  induction is with
  | nil => simp [language, derive, Language.mem_one]
  | cons i is ih =>
    cases i with
    | one k =>
      rw [language, cons_mem_symbols_mul]
      simp only [derive, Option.ite_none_right_eq_some, Option.some.injEq]
      constructor
      · rintro ⟨ha, hw⟩
        exact ⟨is, ⟨ha, rfl⟩, hw⟩
      · rintro ⟨_, ⟨ha, rfl⟩, hw⟩
        exact ⟨ha, hw⟩
    | many k =>
      rw [language, kstar_mul_eq, Language.mem_add, cons_mem_symbols_mul, ih h.2, derive]
      by_cases ha : mem k a = true
      · -- the repetition goes on, as nothing behind it begins so
        simp [ha, h.1 a ha, language]
      · simp [ha]

/-! ### Labels -/

def behind (mem : κ → α → Bool) (is : List (Item κ)) : List α → Option (List (Item κ))
  | [] => some is
  | a :: w =>
    match derive mem is a with
    | some is => behind mem is w
    | none => none

lemma behind_concat (w : List α) (a : α) :
    behind mem is (w ++ [a]) = (behind mem is w).bind fun is => derive mem is a := by
  induction w generalizing is with
  | nil =>
    simp only [List.nil_append, behind, Option.bind_some]
    cases derive mem is a <;> rfl
  | cons b w ih =>
    rw [List.cons_append, behind, behind]
    cases derive mem is b with
    | none => rfl
    | some is' => exact ih

/-- The labels of the states follow the steps of the automaton. -/
structure Labelled (mem : κ → α → Bool) (A : Automaton α σ ρ) (S : Scanner α ρ)
    (items : ρ → List (Item κ)) (state : σ → Prop) (label : σ → List (Option (List (Item κ)))) :
    Prop where
  deterministic : ∀ r ∈ S.rules, Deterministic mem (items r)
  language : ∀ r ∈ S.rules, ∀ w, S.accepts r w = true ↔ w ∈ language mem (items r)
  start : state A.start
  closed : ∀ s, state s → ∀ a, state (A.next s a)
  label_start : label A.start = S.rules.map fun r => some (items r)
  label_next : ∀ s, state s → ∀ a,
    label (A.next s a) = (label s).map fun l => l.bind fun is => derive mem is a
  /-- Accepted is the first rule of which nothing need come. -/
  accepts : ∀ s, state s →
    A.accepts s = ((S.rules.zip (label s)).find? fun p => p.2.any nullable).map Prod.fst

lemma mem_language_iff (h : Deterministic mem is) :
    w ∈ language mem is ↔ (behind mem is w).any nullable = true := by
  induction w generalizing is with
  | nil => simp [behind, nil_mem_language_iff]
  | cons a w ih =>
    rw [cons_mem_language_iff h, behind]
    cases hd : derive mem is a with
    | none => simp
    | some is' => simpa using ih (h.derive hd)

variable {A : Automaton α σ ρ} {S : Scanner α ρ} {items : ρ → List (Item κ)} {state : σ → Prop}
  {label : σ → List (Option (List (Item κ)))}

lemma Labelled.label_run (h : Labelled mem A S items state label) (w : List α) :
    state (A.run A.start w) ∧
      label (A.run A.start w) = S.rules.map fun r => behind mem (items r) w := by
  induction w using List.reverseRecOn with
  | nil => exact ⟨h.start, h.label_start⟩
  | append_singleton w a ih =>
    obtain ⟨hs, hl⟩ := ih
    rw [Automaton.run_append, Automaton.run_cons, Automaton.run_nil]
    refine ⟨h.closed _ hs a, ?_⟩
    rw [h.label_next _ hs a, hl, List.map_map]
    exact List.map_congr_left fun r _ => (behind_concat w a).symm

/-- **Main result.** An automaton with labels accepts the words of the rules. -/
theorem Labelled.accepts_run (h : Labelled mem A S items state label) (w : List α) :
    A.accepts (A.run A.start w) = S.ruleOf w := by
  obtain ⟨hs, hl⟩ := h.label_run w
  have hzip : S.rules.zip (S.rules.map fun r => behind mem (items r) w) =
      S.rules.map fun r => (r, behind mem (items r) w) := by
    simpa using List.zip_map' (f := id) (g := fun r => behind mem (items r) w) (l := S.rules)
  rw [h.accepts _ hs, hl, hzip, List.find?_map, Option.map_map, Scanner.ruleOf]
  -- rule by rule
  have hfind : ∀ rs : List ρ, (∀ r ∈ rs, r ∈ S.rules) →
      (rs.find? fun r => (behind mem (items r) w).any nullable) =
        rs.find? fun r => S.accepts r w := by
    intro rs hrs
    induction rs with
    | nil => rfl
    | cons r rs ih =>
      rw [List.forall_mem_cons] at hrs
      have hr : (behind mem (items r) w).any nullable = S.accepts r w := by
        rw [Bool.eq_iff_iff, h.language r hrs.1, mem_language_iff (h.deterministic r hrs.1)]
      rw [List.find?_cons, List.find?_cons, hr, ih hrs.2]
  exact Option.map_id'.trans (hfind _ fun _ hr => hr)

end Sski.Lib.Residual
