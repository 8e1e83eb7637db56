import Sski.Console.Scanner

/-!
The console's parser: the grammar of `parser.y`, and the automaton that reads it.

A statement keeps the texts of its constants, as the semantic actions get them.
-/

namespace Sski.Console.Parser

open Sski.Console.Scanner (Token)

inductive Statement
  | exit
  | noOp (constant : List UInt8)
  | io (constant : List UInt8)
  | read (constant : List UInt8)
  | write (constantL constantR : List UInt8)
  | copy (constantL constantR : List UInt8)
  deriving DecidableEq, Repr

def Statement.constants : Statement → List (List UInt8)
  | .exit => []
  | .noOp c | .io c | .read c => [c]
  | .write l r | .copy l r => [l, r]

/-! ### The grammar -/

inductive Instruction : List Token → Statement → Prop
  | exit : Instruction [.exit] .exit
  | noOp (c : List UInt8) : Instruction [.noOp, .constant c] (.noOp c)
  | io (c : List UInt8) : Instruction [.io, .constant c] (.io c)
  | read (c : List UInt8) : Instruction [.read, .constant c] (.read c)
  | write (l r : List UInt8) : Instruction [.write, .constant l, .constant r] (.write l r)
  | copy (l r : List UInt8) : Instruction [.copy, .constant l, .constant r] (.copy l r)

inductive Instructions : List Token → List Statement → Prop
  | one {ts : List Token} {x : Statement} : Instruction ts x → Instructions ts [x]
  | snoc {ts ts' : List Token} {xs : List Statement} {x : Statement} :
      Instructions ts xs → Instruction ts' x → Instructions (ts ++ ts') (xs ++ [x])

/-! ### The automaton -/

/-- The stack of the parser: nothing yet, `instructions`, or the first symbols of an instruction
over one of these. -/
inductive Stack
  | start | instructions | noOp | io | read
  | write | writeL (l : List UInt8) | copy | copyL (l : List UInt8)
  deriving DecidableEq, Repr

/-- One token: shifted, with the instruction that is then reduced, or a syntax error. -/
def shift : Stack → Token → Option (Stack × Option Statement)
  | .start, .exit | .instructions, .exit => some (.instructions, some .exit)
  | .start, .noOp | .instructions, .noOp => some (.noOp, none)
  | .start, .io | .instructions, .io => some (.io, none)
  | .start, .read | .instructions, .read => some (.read, none)
  | .start, .write | .instructions, .write => some (.write, none)
  | .start, .copy | .instructions, .copy => some (.copy, none)
  | .noOp, .constant c => some (.instructions, some (.noOp c))
  | .io, .constant c => some (.instructions, some (.io c))
  | .read, .constant c => some (.instructions, some (.read c))
  | .write, .constant l => some (.writeL l, none)
  | .writeL l, .constant r => some (.instructions, some (.write l r))
  | .copy, .constant l => some (.copyL l, none)
  | .copyL l, .constant r => some (.instructions, some (.copy l r))
  | _, _ => none

def feed : Stack → List Token → Option (Stack × List Statement)
  | stack, [] => some (stack, [])
  | stack, t :: ts =>
    match shift stack t with
    | none => none
    | some (stack, x) => (feed stack ts).map fun (stack, xs) => (stack, x.toList ++ xs)

variable {stack stack' : Stack} {t : Token} {ts us : List Token} {x : Statement}
  {xs ys : List Statement}

@[simp] lemma feed_nil : feed stack [] = some (stack, []) := rfl

lemma feed_cons_eq_some : feed stack (t :: ts) = some (stack', xs) ↔
    ∃ next x ys, shift stack t = some (next, x) ∧ feed next ts = some (stack', ys) ∧
      xs = x.toList ++ ys := by
  rw [feed]
  cases hshift : shift stack t with
  | none => simp
  | some p =>
    obtain ⟨next, x⟩ := p
    simp only [Option.map_eq_some_iff, Prod.exists, Prod.mk.injEq, Option.some.injEq]
    constructor
    · rintro ⟨last, ys, hfeed, rfl, rfl⟩
      exact ⟨next, x, ys, ⟨rfl, rfl⟩, hfeed, rfl⟩
    · rintro ⟨_, _, ys, ⟨rfl, rfl⟩, hfeed, rfl⟩
      exact ⟨stack', ys, hfeed, rfl, rfl⟩

lemma feed_append {mid : Stack} (h : feed stack ts = some (mid, xs))
    (h' : feed mid us = some (stack', ys)) :
    feed stack (ts ++ us) = some (stack', xs ++ ys) := by
  induction ts generalizing stack xs with
  | nil =>
    simp only [feed_nil, Option.some.injEq, Prod.mk.injEq] at h
    obtain ⟨rfl, rfl⟩ := h
    exact h'
  | cons t ts ih =>
    obtain ⟨next, x, zs, hshift, hfeed, rfl⟩ := feed_cons_eq_some.mp h
    rw [List.cons_append, feed_cons_eq_some]
    exact ⟨next, x, zs ++ ys, hshift, ih hfeed, List.append_assoc _ _ _⟩

/-! ### The automaton reads the grammar -/

lemma Instruction.fed (h : Instruction ts x) (hstack : stack = .start ∨ stack = .instructions) :
    feed stack ts = some (.instructions, [x]) := by
  rcases hstack with rfl | rfl <;> cases h <;> rfl

lemma Instructions.fed (h : Instructions ts xs) :
    feed .start ts = some (.instructions, xs) := by
  induction h with
  | one hx => exact hx.fed (.inl rfl)
  | snoc _ hx ih => exact feed_append ih (hx.fed (.inr rfl))

/-- The symbols on the stack that are not part of an instruction yet. -/
def Stack.pending : Stack → List Token
  | .start | .instructions => []
  | .noOp => [.noOp]
  | .io => [.io]
  | .read => [.read]
  | .write => [.write]
  | .writeL l => [.write, .constant l]
  | .copy => [.copy]
  | .copyL l => [.copy, .constant l]

/-- The tokens so far: the instructions that are reduced, and the symbols on the stack. -/
def Reads (stack : Stack) (ts : List Token) (xs : List Statement) : Prop :=
  ∃ done, ts = done ++ stack.pending ∧ (Instructions done xs ∨ done = [] ∧ xs = []) ∧
    (stack = .instructions → Instructions done xs)

lemma Reads.reduce (h : Reads stack ts xs) (hx : Instruction (stack.pending ++ [t]) x) :
    Reads .instructions (ts ++ [t]) (xs ++ [x]) := by
  obtain ⟨done, rfl, hdone, -⟩ := h
  have hall : Instructions (done ++ stack.pending ++ [t]) (xs ++ [x]) := by
    rw [List.append_assoc]
    rcases hdone with hdone | ⟨rfl, rfl⟩
    · exact .snoc hdone hx
    · exact .one hx
  exact ⟨_, (List.append_nil _).symm, .inl hall, fun _ => hall⟩

lemma Reads.push (h : Reads stack ts xs) (hnext : stack'.pending = stack.pending ++ [t])
    (hne : stack' ≠ .instructions) : Reads stack' (ts ++ [t]) xs := by
  obtain ⟨done, rfl, hdone, -⟩ := h
  exact ⟨done, by rw [hnext, List.append_assoc], hdone, fun heq => (hne heq).elim⟩

lemma Reads.step (h : Reads stack ts xs) {y : Option Statement}
    (hshift : shift stack t = some (stack', y)) : Reads stack' (ts ++ [t]) (xs ++ y.toList) := by
  have hcases : (∃ x, y = some x ∧ stack' = .instructions ∧
        Instruction (stack.pending ++ [t]) x) ∨
      (y = none ∧ stack'.pending = stack.pending ++ [t] ∧ stack' ≠ .instructions) := by
    cases stack <;> cases t <;> cases hshift
    all_goals first
      | exact .inr ⟨rfl, rfl, by decide⟩
      | exact .inr ⟨rfl, rfl, nofun⟩
      | exact .inl ⟨_, rfl, rfl, by constructor⟩
  rcases hcases with ⟨x, rfl, rfl, hx⟩ | ⟨rfl, hnext, hne⟩
  · exact h.reduce hx
  · rw [Option.toList_none, List.append_nil]
    exact h.push hnext hne

lemma Reads.run (h : Reads stack ts xs) (hfeed : feed stack us = some (stack', ys)) :
    Reads stack' (ts ++ us) (xs ++ ys) := by
  induction us generalizing stack ts xs ys with
  | nil =>
    simp only [feed_nil, Option.some.injEq, Prod.mk.injEq] at hfeed
    obtain ⟨rfl, rfl⟩ := hfeed
    simpa using h
  | cons t us ih =>
    obtain ⟨next, y, zs, hshift, hrest, rfl⟩ := feed_cons_eq_some.mp hfeed
    have hall := ih (h.step hshift) hrest
    rwa [List.append_assoc, List.append_assoc, List.singleton_append] at hall

/-- **Main result.** The automaton accepts what derives from the grammar, and reduces its
statements in their order. -/
theorem feed_eq_some_iff :
    feed .start ts = some (.instructions, xs) ↔ Instructions ts xs := by
  constructor
  · intro h
    have hstart : Reads .start [] [] := ⟨[], rfl, .inr ⟨rfl, rfl⟩, nofun⟩
    obtain ⟨done, hts, -, hdone⟩ := hstart.run h
    rw [Stack.pending, List.append_nil, List.nil_append] at hts
    rw [hts]
    exact hdone rfl
  · exact Instructions.fed

lemma Instructions.unique (h : Instructions ts xs) (h' : Instructions ts ys) : xs = ys := by
  have heq := h.fed.symm.trans h'.fed
  simpa using heq

lemma Instruction.mem_constant (h : Instruction ts x) {c : List UInt8} (hc : c ∈ x.constants) :
    Token.constant c ∈ ts := by
  cases h <;> simp [Statement.constants] at hc ⊢ <;> exact hc

lemma Instructions.mem_constant (h : Instructions ts xs) (hx : x ∈ xs) {c : List UInt8}
    (hc : c ∈ x.constants) : Token.constant c ∈ ts := by
  induction h with
  | one hone =>
    obtain rfl := List.mem_singleton.mp hx
    exact hone.mem_constant hc
  | snoc _ hlast ih =>
    rw [List.mem_append]
    rcases List.mem_append.mp hx with hx | hx
    · exact .inl (ih hx)
    · obtain rfl := List.mem_singleton.mp hx
      exact .inr (hlast.mem_constant hc)

end Sski.Console.Parser
