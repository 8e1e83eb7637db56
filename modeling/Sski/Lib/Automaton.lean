import Mathlib.Data.List.Induction
import Sski.Lib.Munch

/-!
Automata that look for the longest match.

The automaton notes the last accepting state it was in, with its position. Where the input ends, or
no further symbol can help, the lexeme ends in the state the automaton is in, or else in the one
that it noted. An automaton that accepts the words of a scanner's rules finds what the scanner
takes.

What is noted before the second symbol need not be of this lexeme: where every symbol by itself is
a lexeme, it is not looked at.
-/

namespace Sski.Lib.Automaton

open Sski.Lib.Munch

structure Automaton (α σ ρ : Type*) where
  start : σ
  next : σ → α → σ
  /-- What a state accepts. -/
  accepts : σ → Option ρ
  /-- No further symbol is looked at in this state. -/
  stops : σ → Bool

variable {α σ ρ : Type*} (A : Automaton α σ ρ)

namespace Automaton

def run (s : σ) (w : List α) : σ := w.foldl A.next s

@[simp] lemma run_nil (s : σ) : A.run s [] = s := rfl
@[simp] lemma run_cons (s : σ) (a : α) (w : List α) :
    A.run s (a :: w) = A.run (A.next s a) w := rfl
lemma run_append (s : σ) (u v : List α) : A.run s (u ++ v) = A.run (A.run s u) v := by
  simp [run, List.foldl_append]
lemma run_concat (s : σ) (w : List α) (a : α) : A.run s (w ++ [a]) = A.next (A.run s w) a :=
  A.run_append s w [a]

def noted (s : σ) (last : Option (σ × ℕ)) (n : ℕ) : Option (σ × ℕ) :=
  if (A.accepts s).isSome then some (s, n) else last

def ruleAt (last : Option (σ × ℕ)) : Option (ρ × ℕ) :=
  last.bind fun p => (A.accepts p.1).map fun r => (r, p.2)

/-- All symbols from position `n` on, without a look at where the automaton stops. -/
def previous : σ → Option (σ × ℕ) → ℕ → List α → σ × Option (σ × ℕ)
  | s, last, _, [] => (s, last)
  | s, last, n, a :: w => previous (A.next s a) (A.noted s last n) (n + 1) w

end Automaton

/-! ### The longest match -/

/-- The automaton accepts what the rules accept, and where it stops no word goes on. -/
structure Recognizes (S : Scanner α ρ) : Prop where
  start : A.accepts A.start = none
  accepts : ∀ w, w ≠ [] → A.accepts (A.run A.start w) = S.ruleOf w
  stops : ∀ w, A.stops (A.run A.start w) = true →
    ∀ v, v ≠ [] → A.accepts (A.run A.start (w ++ v)) = none

/-- Noted is the longest match of what is read, but for the last symbol. -/
def Noted (S : Scanner α ρ) (done : List α) (last : Option (σ × ℕ)) : Prop :=
  1 < done.length → A.ruleAt last = S.longest done (done.length - 1)

variable {A} {S : Scanner α ρ} {done rest : List α} {last : Option (σ × ℕ)}

/-- What a scanner takes of at most the first symbols. -/
lemma longest_append (S : Scanner α ρ) (done rest : List α) (n : ℕ) (hn : n ≤ done.length) :
    S.longest (done ++ rest) n = S.longest done n := by
  induction n with
  | zero => rfl
  | succ n ih =>
    rw [Scanner.longest, Scanner.longest, List.take_append_of_le_length hn, ih (by omega)]

/-- Where no word goes on, there is no longer match. -/
lemma longest_of_dead (hdead : ∀ v, v ≠ [] → S.ruleOf (done ++ v) = none) (rest : List α) :
    S.longest (done ++ rest) (done ++ rest).length = S.longest done done.length := by
  induction rest using List.reverseRecOn with
  | nil => rw [List.append_nil]
  | append_singleton rest a ih =>
    rw [← ih, ← List.append_assoc, @List.length_append _ _ [a], List.length_singleton,
      Scanner.longest, List.take_of_length_le (by simp [Nat.add_assoc]), List.append_assoc,
      hdead _ (by simp), ← List.append_assoc, longest_append _ _ _ _ (Nat.le_refl _)]

/-- Behind a state that stops there is no longer match. -/
lemma Recognizes.longest_of_stops (h : Recognizes A S)
    (hstops : A.stops (A.run A.start done) = true) (rest : List α) :
    S.longest (done ++ rest) (done ++ rest).length = S.longest done done.length := by
  apply longest_of_dead
  intro v hv
  rw [← h.accepts _ (by simp [hv])]
  exact h.stops done hstops v hv

/-- The state, if it accepts, or else the one that is noted. -/
lemma Recognizes.ruleAt_noted (h : Recognizes A S) (hc : Covers S) (hne : done ≠ [])
    (hlast : Noted A S done last) :
    A.ruleAt (A.noted (A.run A.start done) last done.length) = S.longest done done.length := by
  obtain ⟨front, a, rfl⟩ := (List.eq_nil_or_concat' done).resolve_left hne
  have hall : (front ++ [a]).take (front.length + 1) = front ++ [a] :=
    List.take_of_length_le (by simp)
  rw [List.length_append, List.length_singleton, Scanner.longest, hall, Automaton.noted,
    h.accepts _ hne]
  cases hrule : S.ruleOf (front ++ [a]) with
  | some r =>
    rw [Option.isSome_some, if_pos rfl, Automaton.ruleAt, Option.bind_some, h.accepts _ hne, hrule]
    rfl
  | none =>
    have hlen : 1 < (front ++ [a]).length := by
      cases front with
      | nil =>
        have hone := hc a
        rw [List.nil_append] at hrule
        rw [hrule] at hone
        cases hone
      | cons b front => simp
    have hlast := hlast hlen
    rw [List.length_append, List.length_singleton, Nat.add_sub_cancel] at hlast
    rw [Option.isSome_none, if_neg (by decide), hlast]

lemma Recognizes.noted_concat (h : Recognizes A S) (hc : Covers S) (hlast : Noted A S done last)
    (a : α) : Noted A S (done ++ [a]) (A.noted (A.run A.start done) last done.length) := by
  intro hlen
  rw [List.length_append, List.length_singleton] at hlen
  have hne : done ≠ [] := List.ne_nil_of_length_pos (by omega)
  rw [h.ruleAt_noted hc hne hlast, List.length_append, List.length_singleton, Nat.add_sub_cancel,
    longest_append _ _ _ _ (Nat.le_refl _)]

/-- The automaton starts again, with whatever was noted before. -/
lemma Recognizes.previous (h : Recognizes A S) (hc : Covers S) (hlast : Noted A S done last)
    (w : List α) : ∃ last', A.previous (A.run A.start done) last done.length w =
      (A.run A.start (done ++ w), last') ∧ Noted A S (done ++ w) last' := by
  induction w generalizing done last with
  | nil => exact ⟨last, by rw [List.append_nil]; rfl, by rwa [List.append_nil]⟩
  | cons a w ih =>
    obtain ⟨last', heq, hlast'⟩ := ih (h.noted_concat hc hlast a)
    rw [List.append_assoc, List.singleton_append] at heq hlast'
    refine ⟨last', ?_, hlast'⟩
    rw [Automaton.previous, ← heq, Automaton.run_concat, List.length_append, List.length_singleton]

end Sski.Lib.Automaton
