import Mathlib.Computability.RegularExpressions
import Sski.Lib.Munch

/-!
The console's scanner: the rules of `console.l`, without regard to case, and what each returns.
-/

namespace Sski.Console.Scanner

open Sski.Lib.Munch

/-! ### Patterns -/

def oneOf (bytes : List UInt8) : RegularExpression UInt8 :=
  bytes.foldr (fun b r => .char b + r) 0

def range (lo hi : ℕ) : List UInt8 := (List.range' lo (hi + 1 - lo)).map UInt8.ofNat

/-- `[[:space:]]`. -/
def space : List UInt8 := [9, 10, 11, 12, 13, 32]

/-- ``[~`!@#$^&\[}[\]'"?\\>]``. -/
def invalidCharacter : List UInt8 :=
  [126, 96, 33, 64, 35, 36, 94, 38, 91, 125, 91, 93, 39, 34, 63, 92, 62]

def alpha : List UInt8 := range 65 90 ++ range 97 122

def digit : List UInt8 := range 48 57

/-- A character of a keyword, in both cases. -/
def anyCase (c : Char) : RegularExpression UInt8 :=
  if c.isUpper then oneOf [UInt8.ofNat c.toNat, UInt8.ofNat (c.toNat + 32)]
  else oneOf [UInt8.ofNat c.toNat]

def keyword (word : List Char) : RegularExpression UInt8 :=
  word.foldr (fun c r => anyCase c * r) 1

def oneOrMore (p : RegularExpression UInt8) : RegularExpression UInt8 := p * p.star

def constant : RegularExpression UInt8 := oneOrMore (oneOf digit)

/-! ### Rules -/

/-- The rules in their order. `echo` is the one that `flex` adds for what no other matches. -/
inductive Rule
  | noOp | io | read | copy | write | exit | space | constant | badConstant | unknown | echo
  deriving DecidableEq, Repr

def Rule.pattern : Rule → RegularExpression UInt8
  | .noOp => keyword ['N', 'O', '_', 'O', 'P']
  | .io => keyword ['I', '/', 'O']
  | .read => keyword ['R', 'E', 'A', 'D']
  | .copy => keyword ['C', 'O', 'P', 'Y']
  | .write => keyword ['W', 'R', 'I', 'T', 'E']
  | .exit => keyword ['E', 'X', 'I', 'T']
  | .space => oneOrMore (oneOf Scanner.space)
  | .constant => Scanner.constant
  | .badConstant => Scanner.constant * oneOf (invalidCharacter ++ alpha) *
      (oneOf (invalidCharacter ++ alpha ++ digit)).star
  | .unknown => oneOf (range 0 9 ++ range 11 255)
  | .echo => oneOf (range 0 255)

def scanner : Scanner UInt8 Rule where
  rules := [.noOp, .io, .read, .copy, .write, .exit, .space, .constant, .badConstant, .unknown,
    .echo]
  accepts := fun r w => r.pattern.rmatch w

inductive Token
  | constant (text : List UInt8) | exit | noOp | read | io | write | copy
  deriving DecidableEq, Repr

/-- The action of a rule: it returns a token, it counts a lexical error, or it does nothing. -/
inductive Action
  | token (t : Token) | errorLexico | skip
  deriving DecidableEq, Repr

def action : Rule → List UInt8 → Action
  | .noOp, _ => .token .noOp
  | .io, _ => .token .io
  | .read, _ => .token .read
  | .copy, _ => .token .copy
  | .write, _ => .token .write
  | .exit, _ => .token .exit
  | .space, _ => .skip
  | .constant, text => .token (.constant text)
  | .badConstant, _ => .errorLexico
  | .unknown, _ => .errorLexico
  | .echo, _ => .skip

/-! ### What the patterns match -/

lemma rmatch_oneOf {bytes w : List UInt8} :
    (oneOf bytes).rmatch w = true ↔ ∃ b ∈ bytes, w = [b] := by
  induction bytes with
  | nil => simp [oneOf, RegularExpression.zero_rmatch]
  | cons b bytes ih =>
    have hcons : oneOf (b :: bytes) = .char b + oneOf bytes := rfl
    rw [hcons, RegularExpression.add_rmatch_iff, RegularExpression.char_rmatch_iff, ih]
    simp

lemma rmatch_oneOrMore {bytes w : List UInt8} :
    (oneOrMore (oneOf bytes)).rmatch w = true ↔ w ≠ [] ∧ ∀ b ∈ w, b ∈ bytes := by
  have hstar : ∀ v : List UInt8, (oneOf bytes).star.rmatch v = true ↔ ∀ b ∈ v, b ∈ bytes := by
    intro v
    rw [RegularExpression.star_rmatch_iff]
    constructor
    · rintro ⟨parts, rfl, hparts⟩ b hb
      obtain ⟨part, hpart, hb⟩ := List.mem_flatten.mp hb
      obtain ⟨b', hb', rfl⟩ := rmatch_oneOf.mp (hparts part hpart).2
      obtain rfl := List.mem_singleton.mp hb
      exact hb'
    · intro hv
      refine ⟨v.map fun b => [b], (List.flatMap_singleton' v).symm, fun part hpart => ?_⟩
      obtain ⟨b, hb, rfl⟩ := List.mem_map.mp hpart
      exact ⟨List.cons_ne_nil _ _, rmatch_oneOf.mpr ⟨b, hv b hb, rfl⟩⟩
  rw [oneOrMore, RegularExpression.mul_rmatch_iff]
  constructor
  · rintro ⟨u, v, rfl, hu, hv⟩
    obtain ⟨b, hb, rfl⟩ := rmatch_oneOf.mp hu
    refine ⟨List.cons_ne_nil _ _, fun b' hb' => ?_⟩
    rcases List.mem_cons.mp hb' with rfl | hb'
    · exact hb
    · exact (hstar v).mp hv b' hb'
  · rintro ⟨hne, hall⟩
    obtain ⟨b, v, rfl⟩ := List.exists_cons_of_ne_nil hne
    exact ⟨[b], v, rfl, rmatch_oneOf.mpr ⟨b, hall b List.mem_cons_self, rfl⟩,
      (hstar v).mpr fun b' hb' => hall b' (List.mem_cons_of_mem _ hb')⟩

lemma mem_range {lo hi : ℕ} (hhi : hi < 256) {b : UInt8} :
    b ∈ range lo hi ↔ lo ≤ b.toNat ∧ b.toNat ≤ hi := by
  rw [range, List.mem_map]
  constructor
  · rintro ⟨n, hn, rfl⟩
    rw [List.mem_range'_1] at hn
    rw [UInt8.toNat_ofNat_of_lt' (show n < 256 by omega)]
    omega
  · intro hb
    refine ⟨b.toNat, ?_, UInt8.ofNat_toNat⟩
    rw [List.mem_range'_1]
    omega

/-- Every byte is accepted, so the scanner never stops before the end of its input. -/
theorem covers : Covers scanner := by
  intro b
  rw [Scanner.ruleOf, List.find?_isSome]
  refine ⟨.echo, by simp [scanner], rmatch_oneOf.mpr ⟨b, ?_, rfl⟩⟩
  rw [mem_range (by decide)]
  have := b.toNat_lt
  omega

/-- Nothing of the input is lost. -/
theorem flatten_munch (file : List UInt8) :
    ((scanner.munch file).map Prod.snd).flatten = file :=
  ((splits_iff covers).mpr rfl).flatten

/-- A byte that is not a newline is accepted as unknown, and a newline is a space: nothing is left
for the rule that `flex` adds. -/
theorem ruleOf_ne_echo (w : List UInt8) : scanner.ruleOf w ≠ some .echo := by
  intro h
  rw [Scanner.ruleOf, List.find?_eq_some_iff_append] at h
  obtain ⟨haccepts, before, behind, hrules, hbefore⟩ := h
  obtain ⟨b, -, rfl⟩ := rmatch_oneOf.mp haccepts
  have hmem : ∀ r ∈ scanner.rules, r ≠ .echo → r ∈ before := by
    have hbehind : behind = [] := by
      by_contra hne
      have hlast := congrArg List.getLast? hrules
      have hnodup : scanner.rules.Nodup := by decide
      rw [hrules, List.nodup_append, List.nodup_cons] at hnodup
      have hend : (scanner.rules).getLast? = some .echo := rfl
      rw [hend, List.getLast?_append_of_ne_nil _ (List.cons_ne_nil _ _),
        List.getLast?_cons_of_ne_nil hne] at hlast
      exact hnodup.2.1.1 (List.mem_of_getLast? hlast.symm)
    intro r hr hne
    rw [hrules, hbehind, List.mem_append, List.mem_singleton] at hr
    exact hr.resolve_right hne
  by_cases hb : b = 10
  · subst hb
    have hspace := hbefore .space (hmem _ (by simp [scanner]) (by decide))
    have : scanner.accepts .space [10] = true := rmatch_oneOrMore.mpr ⟨by simp, by simp [space]⟩
    simp [this] at hspace
  · have hunknown := hbefore .unknown (hmem _ (by simp [scanner]) (by decide))
    have : scanner.accepts .unknown [b] = true := by
      refine rmatch_oneOf.mpr ⟨b, ?_, rfl⟩
      rw [List.mem_append, mem_range (by decide), mem_range (by decide)]
      have hlt := b.toNat_lt
      have hne : b.toNat ≠ 10 := fun heq => hb (UInt8.toNat_inj.mp heq)
      omega
    simp [this] at hunknown

/-- The text of a constant is a number in decimal. -/
theorem constant_iff {text : List UInt8} :
    scanner.accepts .constant text = true ↔ text ≠ [] ∧ ∀ b ∈ text, b ∈ digit :=
  rmatch_oneOrMore

end Sski.Console.Scanner
