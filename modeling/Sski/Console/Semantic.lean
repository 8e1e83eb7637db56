import Mathlib.Algebra.Order.BigOperators.Group.List
import Mathlib.Data.List.TakeWhile
import Mathlib.Data.Nat.Digits.Defs
import Sski.Console.Parser
import Sski.Cpu.Cycle

/-!
The semantic actions of `semantic.c`, and what the statements mean.
-/

namespace Sski.Console.Semantic

open Sski.Console.Scanner (space digit)
open Sski.Console.Parser
open Sski.Cpu.Cycle (InstructionCode)

/-! ### Constants -/

/-- The number that digits stand for in decimal. -/
def decimal (digits : List UInt8) : ℕ :=
  Nat.ofDigits 10 (digits.reverse.map fun b => b.toNat - 48)

/-- `strtol` in base ten: spaces, a sign, digits; out of range it is the nearest `long`. -/
def strtol (text : List UInt8) : ℤ :=
  match text.dropWhile (· ∈ space) with
  | 45 :: text => max (-2 ^ 63) (-decimal (text.takeWhile (· ∈ digit)))
  | 43 :: text => min (2 ^ 63 - 1) (decimal (text.takeWhile (· ∈ digit)))
  | text => min (2 ^ 63 - 1) (decimal (text.takeWhile (· ∈ digit)))

/-- `atoi`: `(int) strtol(text, NULL, 10)`. -/
def atoi (text : List UInt8) : ℤ := (strtol text).bmod (2 ^ 32)

def IsConstant (text : List UInt8) : Prop := text ≠ [] ∧ ∀ b ∈ text, b ∈ digit

/-! ### The actions -/

/-- `_request_instruction`: the parameters become `uint32_t`. -/
def requestInstruction (instcode : InstructionCode) (param0 param1 : ℤ) : Cpu.Cycle.Instruction :=
  ⟨instcode, UInt32.ofInt param0, UInt32.ofInt param1⟩

/-- `request_no_op`: one instruction for each `i` from zero below the constant. -/
def requestNoOp (constant : List UInt8) : List Cpu.Cycle.Instruction :=
  List.replicate (atoi constant).toNat (requestInstruction .noOp 0 0)

def requestExit : List Cpu.Cycle.Instruction := [requestInstruction .exit 0 0]

def requestIo (constant : List UInt8) : List Cpu.Cycle.Instruction :=
  [requestInstruction .io (atoi constant) 0]

def requestRead (constant : List UInt8) : List Cpu.Cycle.Instruction :=
  [requestInstruction .read (atoi constant) 0]

def requestWrite (constantL constantR : List UInt8) : List Cpu.Cycle.Instruction :=
  [requestInstruction .write (atoi constantL) (atoi constantR)]

def requestCopy (constantL constantR : List UInt8) : List Cpu.Cycle.Instruction :=
  [requestInstruction .copy (atoi constantL) (atoi constantR)]

def request : Statement → List Cpu.Cycle.Instruction
  | .exit => requestExit
  | .noOp c => requestNoOp c
  | .io c => requestIo c
  | .read c => requestRead c
  | .write l r => requestWrite l r
  | .copy l r => requestCopy l r

/-! ### The meaning -/

def parameter (constant : List UInt8) : UInt32 := UInt32.ofNat (decimal constant)

/-- What a statement means when its constants fit. -/
def meaning : Statement → List Cpu.Cycle.Instruction
  | .exit => [⟨.exit, 0, 0⟩]
  | .noOp c => List.replicate (decimal c) ⟨.noOp, 0, 0⟩
  | .io c => [⟨.io, parameter c, 0⟩]
  | .read c => [⟨.read, parameter c, 0⟩]
  | .write l r => [⟨.write, parameter l, parameter r⟩]
  | .copy l r => [⟨.copy, parameter l, parameter r⟩]

/-- Every constant of the statement fits in 32 bits. -/
def Fits (x : Statement) : Prop := ∀ c ∈ x.constants, decimal c < 2 ^ 32

/-- The constant of a `NO_OP` fits in the `int` that counts up to it. -/
def CountFits (x : Statement) : Prop := ∀ c, x = .noOp c → decimal c < 2 ^ 31

def MeansNothing (x : Statement) : Prop := ∃ c, x = .noOp c ∧ decimal c = 0

def AppendsNothing (x : Statement) : Prop := ∃ c, x = .noOp c ∧ atoi c ≤ 0

/-! ### Where the two agree -/

variable {c : List UInt8} {x : Statement} {xs : List Statement}

lemma strtol_eq (h : IsConstant c) : strtol c = min (2 ^ 63 - 1) (decimal c : ℤ) := by
  obtain ⟨hne, hdigit⟩ := h
  have hall : c.takeWhile (· ∈ digit) = c :=
    List.takeWhile_eq_self_iff.mpr fun b hb => decide_eq_true (hdigit b hb)
  obtain ⟨b, bs, rfl⟩ := List.exists_cons_of_ne_nil hne
  have hb : 48 ≤ b.toNat ∧ b.toNat ≤ 57 :=
    (Scanner.mem_range (by decide)).mp (hdigit b List.mem_cons_self)
  have hspace : (b :: bs).dropWhile (· ∈ space) = b :: bs := by
    rw [List.dropWhile_cons_of_neg]
    intro hmem
    have hsmall : ∀ s ∈ space, s.toNat < 48 := by simp [space]
    have := hsmall b (of_decide_eq_true hmem)
    omega
  rw [strtol, hspace]
  split
  · rename_i heq
    obtain ⟨rfl, -⟩ := List.cons.inj heq
    exact absurd hb.1 (by decide)
  · rename_i heq
    obtain ⟨rfl, -⟩ := List.cons.inj heq
    exact absurd hb.1 (by decide)
  · rw [hall]

lemma atoi_of_fits (h : IsConstant c) (hfits : decimal c < 2 ^ 32) :
    atoi c = (decimal c : ℤ).bmod (2 ^ 32) := by
  have hlong : strtol c = decimal c := by
    rw [strtol_eq h]
    omega
  rw [atoi, hlong]

/-- A constant that fits is passed on as it is, through `int` and back. -/
lemma ofInt_atoi (h : IsConstant c) (hfits : decimal c < 2 ^ 32) :
    UInt32.ofInt (atoi c) = parameter c := by
  rw [atoi_of_fits h hfits, parameter, UInt32.ofInt]
  have hmod : (((decimal c : ℤ).bmod (2 ^ 32)) % 2 ^ 32).toNat = decimal c := by
    have hemod : (decimal c : ℤ).bmod (2 ^ 32) % (2 ^ 32 : ℕ) = decimal c % (2 ^ 32 : ℕ) :=
      Int.bmod_emod
    omega
  rw [hmod]

lemma toNat_atoi (h : IsConstant c) (hfits : decimal c < 2 ^ 32) :
    (atoi c).toNat = if decimal c < 2 ^ 31 then decimal c else 0 := by
  rw [atoi_of_fits h hfits, Int.bmod_eq_emod]
  split <;> split <;> omega

/-- A count from `2 ^ 31` on is a negative `int`: the loop does not run. -/
lemma length_requestNoOp (h : IsConstant c) (hfits : decimal c < 2 ^ 32) :
    (requestNoOp c).length = if decimal c < 2 ^ 31 then decimal c else 0 := by
  rw [requestNoOp, List.length_replicate, toNat_atoi h hfits]

/-- A statement that fits, with a count that fits, is requested as it is meant. -/
lemma request_eq_meaning (hconstant : ∀ c ∈ x.constants, IsConstant c) (hfits : Fits x)
    (hcount : CountFits x) : request x = meaning x := by
  have hparam : ∀ c ∈ x.constants, UInt32.ofInt (atoi c) = parameter c :=
    fun c hc => ofInt_atoi (hconstant c hc) (hfits c hc)
  cases x with
  | exit => rfl
  | noOp c =>
    have hc : c ∈ (Statement.noOp c).constants := List.mem_singleton_self c
    have hnat : (atoi c).toNat = decimal c := by
      rw [toNat_atoi (hconstant c hc) (hfits c hc), if_pos (hcount c rfl)]
    rw [request, requestNoOp, hnat]
    rfl
  | io c =>
    rw [request, requestIo, requestInstruction, hparam c (List.mem_singleton_self c)]
    rfl
  | read c =>
    rw [request, requestRead, requestInstruction, hparam c (List.mem_singleton_self c)]
    rfl
  | write l r =>
    rw [request, requestWrite, requestInstruction, hparam l List.mem_cons_self,
      hparam r (List.mem_cons_of_mem _ (List.mem_singleton_self r))]
    rfl
  | copy l r =>
    rw [request, requestCopy, requestInstruction, hparam l List.mem_cons_self,
      hparam r (List.mem_cons_of_mem _ (List.mem_singleton_self r))]
    rfl

/-- A count that does not fit loses instructions. -/
lemma length_request_lt (hconstant : ∀ c ∈ x.constants, IsConstant c) (hfits : Fits x)
    (hcount : ¬ CountFits x) : (request x).length < (meaning x).length := by
  rw [CountFits] at hcount
  push Not at hcount
  obtain ⟨c, rfl, hlarge⟩ := hcount
  have hc : c ∈ (Statement.noOp c).constants := List.mem_singleton_self c
  rw [request, length_requestNoOp (hconstant c hc) (hfits c hc), if_neg (by omega), meaning,
    List.length_replicate]
  omega

lemma length_request_le (hconstant : ∀ c ∈ x.constants, IsConstant c) (hfits : Fits x) :
    (request x).length ≤ (meaning x).length := by
  by_cases hcount : CountFits x
  · rw [request_eq_meaning hconstant hfits hcount]
  · exact (length_request_lt hconstant hfits hcount).le

/-- **Main result.** Of statements that fit, the actions append what they mean exactly when every
count of a `NO_OP` fits in an `int`. -/
theorem flatMap_request_eq_iff (hconstant : ∀ x ∈ xs, ∀ c ∈ x.constants, IsConstant c)
    (hfits : ∀ x ∈ xs, Fits x) :
    xs.flatMap request = xs.flatMap meaning ↔ ∀ x ∈ xs, CountFits x := by
  constructor
  · intro heq
    by_contra hcount
    push Not at hcount
    obtain ⟨x, hx, hcount⟩ := hcount
    have hlt : (xs.map fun x => (request x).length).sum <
        (xs.map fun x => (meaning x).length).sum :=
      List.sum_lt_sum _ _ (fun y hy => length_request_le (hconstant y hy) (hfits y hy))
        ⟨x, hx, length_request_lt (hconstant x hx) (hfits x hx) hcount⟩
    have hlen := congrArg List.length heq
    rw [List.length_flatMap, List.length_flatMap] at hlen
    omega
  · intro hcount
    exact List.flatMap_congr fun x hx =>
      request_eq_meaning (hconstant x hx) (hfits x hx) (hcount x hx)

/-- The actions append nothing exactly when every statement is such a `NO_OP`. -/
theorem flatMap_request_eq_nil_iff :
    xs.flatMap request = [] ↔ ∀ x ∈ xs, AppendsNothing x := by
  have hone : ∀ x, request x = [] ↔ AppendsNothing x := by
    intro x
    cases x with
    | noOp c =>
      simp only [request, requestNoOp, List.replicate_eq_nil_iff, Int.toNat_eq_zero, AppendsNothing,
        Statement.noOp.injEq, exists_eq_left']
    | exit => simp [request, requestExit, AppendsNothing]
    | io c => simp [request, requestIo, AppendsNothing]
    | read c => simp [request, requestRead, AppendsNothing]
    | write l r => simp [request, requestWrite, AppendsNothing]
    | copy l r => simp [request, requestCopy, AppendsNothing]
  rw [List.flatMap_eq_nil_iff]
  exact forall₂_congr fun x _ => hone x

theorem flatMap_meaning_eq_nil_iff : xs.flatMap meaning = [] ↔ ∀ x ∈ xs, MeansNothing x := by
  have hone : ∀ x, meaning x = [] ↔ MeansNothing x := by
    intro x
    cases x with
    | noOp c =>
      simp only [meaning, List.replicate_eq_nil_iff, MeansNothing, Statement.noOp.injEq,
        exists_eq_left']
    | exit => simp [meaning, MeansNothing]
    | io c => simp [meaning, MeansNothing]
    | read c => simp [meaning, MeansNothing]
    | write l r => simp [meaning, MeansNothing]
    | copy l r => simp [meaning, MeansNothing]
  rw [List.flatMap_eq_nil_iff]
  exact forall₂_congr fun x _ => hone x

end Sski.Console.Semantic
