import Mathlib.Data.Nat.Notation
import Mathlib.Tactic.Lemma
import Mathlib.Tactic.TypeStar
import Mathlib.Data.List.Basic

/-!
Scanners that take the longest match.

A scanner has rules in an order. Of an input it takes the longest prefix that some rule accepts,
under the first rule that accepts it, and goes on behind. `Splits` says so, `munch` does it.
-/

namespace Sski.Lib.Munch

structure Scanner (α ρ : Type*) where
  rules : List ρ
  accepts : ρ → List α → Bool

variable {α ρ : Type*} (s : Scanner α ρ)

def Scanner.ruleOf (w : List α) : Option ρ := s.rules.find? fun r => s.accepts r w

/-- The next lexeme of an input, its rule, and what is behind it. -/
structure Next (input : List α) (r : ρ) (w rest : List α) : Prop where
  split : input = w ++ rest
  nonempty : w ≠ []
  rule : s.ruleOf w = some r
  longest : ∀ w' rest', input = w' ++ rest' → w.length < w'.length → s.ruleOf w' = none

/-- The lexemes of an input, each with its rule. -/
inductive Splits : List α → List (ρ × List α) → Prop
  | nil : Splits [] []
  | cons {input w rest : List α} {r : ρ} {ls : List (ρ × List α)} :
      Next s input r w rest → Splits rest ls → Splits input ((r, w) :: ls)

/-- The longest prefix, of at most the given length, that some rule accepts. -/
def Scanner.longest (input : List α) : ℕ → Option (ρ × ℕ)
  | 0 => none
  | n + 1 =>
    match s.ruleOf (input.take (n + 1)) with
    | some r => some (r, n + 1)
    | none => Scanner.longest input n

def Scanner.next (input : List α) : Option (ρ × List α × List α) :=
  (s.longest input input.length).map fun (r, n) => (r, input.take n, input.drop n)

def Scanner.munchUpTo : ℕ → List α → List (ρ × List α)
  | 0, _ => []
  | n + 1, input =>
    match s.next input with
    | some (r, w, rest) => (r, w) :: Scanner.munchUpTo n rest
    | none => []

def Scanner.munch (input : List α) : List (ρ × List α) := s.munchUpTo input.length input

variable {s} {input w rest : List α} {r : ρ} {ls : List (ρ × List α)}

/-! ### One lexeme -/

lemma accepts_of_ruleOf (h : s.ruleOf w = some r) : s.accepts r w = true :=
  List.find?_some (p := fun r => s.accepts r w) h

lemma longest_eq_some_iff {n k : ℕ} : s.longest input n = some (r, k) ↔
    0 < k ∧ k ≤ n ∧ s.ruleOf (input.take k) = some r ∧
      ∀ j, k < j → j ≤ n → s.ruleOf (input.take j) = none := by
  induction n with
  | zero =>
    constructor
    · intro h
      cases h
    · rintro ⟨hpos, hle, -⟩
      omega
  | succ n ih =>
    rw [Scanner.longest]
    cases hrule : s.ruleOf (input.take (n + 1)) with
    | some r' =>
      simp only [Option.some.injEq, Prod.mk.injEq]
      constructor
      · rintro ⟨rfl, rfl⟩
        exact ⟨Nat.succ_pos n, Nat.le_refl _, hrule, fun j hlt hle => by omega⟩
      · rintro ⟨hpos, hle, hk, hlonger⟩
        have hkn : k = n + 1 := by
          by_contra hne
          rw [hlonger (n + 1) (by omega) (Nat.le_refl _)] at hrule
          cases hrule
        subst hkn
        exact ⟨by simpa [hrule] using hk, rfl⟩
    | none =>
      rw [ih]
      constructor
      · rintro ⟨hpos, hle, hk, hlonger⟩
        refine ⟨hpos, by omega, hk, fun j hlt hj => ?_⟩
        rcases Nat.lt_or_ge n j with hgt | hge
        · obtain rfl : j = n + 1 := by omega
          exact hrule
        · exact hlonger j hlt hge
      · rintro ⟨hpos, hle, hk, hlonger⟩
        refine ⟨hpos, ?_, hk, fun j hlt hj => hlonger j hlt (by omega)⟩
        by_contra hgt
        obtain rfl : k = n + 1 := by omega
        rw [hrule] at hk
        cases hk

theorem next_eq_some_iff : s.next input = some (r, w, rest) ↔ Next s input r w rest := by
  constructor
  · intro h
    rw [Scanner.next, Option.map_eq_some_iff] at h
    obtain ⟨⟨r', k⟩, hk, heq⟩ := h
    obtain ⟨hpos, hle, hrule, hlonger⟩ := longest_eq_some_iff.mp hk
    simp only [Prod.mk.injEq] at heq
    obtain ⟨rfl, rfl, rfl⟩ := heq
    refine ⟨(List.take_append_drop k input).symm, ?_, hrule, fun w' rest' hinput hlt => ?_⟩
    · intro hnil
      have hlen := congrArg List.length hnil
      rw [List.length_take, List.length_nil] at hlen
      omega
    · have hw' : input.take w'.length = w' := by rw [hinput, List.take_left]
      rw [← hw']
      rw [List.length_take] at hlt
      refine hlonger _ (by omega) ?_
      rw [hinput, List.length_append]
      omega
  · rintro ⟨hinput, hne, hrule, hlonger⟩
    have htake : input.take w.length = w := by rw [hinput, List.take_left]
    have hdrop : input.drop w.length = rest := by rw [hinput, List.drop_left]
    have hlong : s.longest input input.length = some (r, w.length) := by
      rw [longest_eq_some_iff, htake]
      refine ⟨List.length_pos_iff.mpr hne, ?_, hrule, fun j hlt hle => ?_⟩
      · rw [hinput, List.length_append]
        omega
      · refine hlonger _ (input.drop j) (List.take_append_drop j input).symm ?_
        rw [List.length_take]
        omega
    simp only [Scanner.next, hlong, Option.map_some, htake, hdrop]

lemma Next.length_lt (h : Next s input r w rest) : rest.length < input.length := by
  have hpos := List.length_pos_iff.mpr h.nonempty
  rw [h.split, List.length_append]
  omega

/-! ### All lexemes -/

/-- No input makes the scanner stop: every symbol by itself is a lexeme. -/
def Covers (s : Scanner α ρ) : Prop := ∀ a, (s.ruleOf [a]).isSome

lemma Covers.exists_next (hc : Covers s) (hne : input ≠ []) :
    ∃ r w rest, Next s input r w rest := by
  have hlongest : ∀ n, (s.longest input (n + 1)).isSome := by
    intro n
    induction n with
    | zero =>
      obtain ⟨a, input, rfl⟩ := List.exists_cons_of_ne_nil hne
      obtain ⟨r, hr⟩ := Option.isSome_iff_exists.mp (hc a)
      simp [Scanner.longest, hr]
    | succ n ih =>
      rw [Scanner.longest]
      split
      · rfl
      · exact ih
  obtain ⟨n, hn⟩ : ∃ n, input.length = n + 1 :=
    Nat.exists_eq_succ_of_ne_zero (by simpa using hne)
  obtain ⟨⟨r, k⟩, hk⟩ := Option.isSome_iff_exists.mp (hn ▸ hlongest n)
  exact ⟨r, _, _, next_eq_some_iff.mp (by rw [Scanner.next, hk, Option.map_some])⟩

lemma next_nil (h : Next s [] r w rest) : False :=
  h.nonempty (List.append_eq_nil_iff.mp h.split.symm).1

lemma splits_munchUpTo (hc : Covers s) {n : ℕ} (hn : input.length ≤ n) :
    Splits s input (s.munchUpTo n input) := by
  induction n generalizing input with
  | zero =>
    obtain rfl : input = [] := List.length_eq_zero_iff.mp (by omega)
    exact .nil
  | succ n ih =>
    by_cases hne : input = []
    · subst hne
      exact .nil
    · obtain ⟨r, w, rest, hnext⟩ := hc.exists_next hne
      rw [Scanner.munchUpTo, next_eq_some_iff.mpr hnext]
      exact .cons hnext (ih (by have := hnext.length_lt; omega))

lemma Splits.unique (h : Splits s input ls) {ls' : List (ρ × List α)}
    (h' : Splits s input ls') : ls = ls' := by
  induction h generalizing ls' with
  | nil =>
    cases h' with
    | nil => rfl
    | cons hnext => exact (next_nil hnext).elim
  | cons hnext _ ih =>
    cases h' with
    | nil => exact (next_nil hnext).elim
    | cons hnext' hrest =>
      have heq := (next_eq_some_iff.mpr hnext).symm.trans (next_eq_some_iff.mpr hnext')
      simp only [Option.some.injEq, Prod.mk.injEq] at heq
      obtain ⟨rfl, rfl, rfl⟩ := heq
      rw [ih hrest]

/-- **Main result.** The scanner that covers its alphabet splits every input, in one way. -/
theorem splits_iff (hc : Covers s) : Splits s input ls ↔ s.munch input = ls := by
  have hmunch : Splits s input (s.munch input) := splits_munchUpTo hc (Nat.le_refl _)
  constructor
  · exact hmunch.unique
  · rintro rfl
    exact hmunch

lemma Splits.ruleOf (h : Splits s input ls) {l : ρ × List α} (hl : l ∈ ls) :
    s.ruleOf l.2 = some l.1 := by
  induction h with
  | nil => cases hl
  | cons hnext _ ih =>
    rcases List.mem_cons.mp hl with rfl | hl
    · exact hnext.rule
    · exact ih hl

lemma Splits.flatten (h : Splits s input ls) : (ls.map Prod.snd).flatten = input := by
  induction h with
  | nil => rfl
  | cons hnext _ ih => rw [List.map_cons, List.flatten_cons, ih, hnext.split]

end Sski.Lib.Munch
