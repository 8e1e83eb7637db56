import Sski.Console.Scanner
import Sski.Lib.Residual

/-!
The tables that `flex` made of `console.l`, as they stand in `scanner.c`, and the automaton they
are.

A row of the transition table lies in `yy_nxt` from its base on, mixed with others; `yy_chk` says
whose an entry is, and what a row does not have it takes from another row. The automaton accepts
what the patterns accept: each of its states is labelled with what is left of every pattern, and
the labels are checked state by state and class by class.
-/

namespace Sski.Console.Tables

open Sski.Lib.Munch Sski.Lib.Automaton Sski.Lib.Residual
open Sski.Console.Scanner

/-! ### The tables -/

def yyAccept : List ℕ :=
  [0, 0, 0, 12, 10, 7, 7, 8, 10, 10, 10, 10, 10, 10, 7, 9, 8, 0, 0, 0, 0, 0, 0, 9, 0, 0, 2, 0, 0,
    0, 4, 6, 0, 3, 0, 1, 5, 0]

def yyEc : List ℕ :=
  [0, 1, 1, 1, 1, 1, 1, 1, 1, 2, 3, 2, 2, 2, 1, 1, 1, 1, 1, 1, 1, 1, 1, 1, 1, 1, 1, 1, 1, 1, 1, 1,
    2, 4, 4, 4, 4, 1, 4, 4, 1, 1, 1, 1, 1, 1, 1, 5, 6, 6, 6, 6, 6, 6, 6, 6, 6, 6, 1, 1, 1, 1, 4,
    4, 4, 7, 8, 9, 10, 11, 8, 8, 8, 12, 8, 8, 8, 8, 13, 14, 15, 8, 16, 8, 17, 8, 8, 18, 19, 20, 8,
    4, 4, 4, 4, 21, 4, 22, 8, 23, 24, 25, 8, 8, 8, 26, 8, 8, 8, 8, 27, 28, 29, 8, 30, 8, 31, 8, 8,
    32, 33, 34, 8, 1, 1, 4, 4, 1, 1, 1, 1, 1, 1, 1, 1, 1, 1, 1, 1, 1, 1, 1, 1, 1, 1, 1, 1, 1, 1,
    1, 1, 1, 1, 1, 1, 1, 1, 1, 1, 1, 1, 1, 1, 1, 1, 1, 1, 1, 1, 1, 1, 1, 1, 1, 1, 1, 1, 1, 1, 1,
    1, 1, 1, 1, 1, 1, 1, 1, 1, 1, 1, 1, 1, 1, 1, 1, 1, 1, 1, 1, 1, 1, 1, 1, 1, 1, 1, 1, 1, 1, 1,
    1, 1, 1, 1, 1, 1, 1, 1, 1, 1, 1, 1, 1, 1, 1, 1, 1, 1, 1, 1, 1, 1, 1, 1, 1, 1, 1, 1, 1, 1, 1,
    1, 1, 1, 1, 1, 1, 1, 1, 1, 1, 1, 1, 1, 1]

def yyMeta : List ℕ :=
  [0, 1, 1, 1, 2, 1, 2, 2, 2, 2, 2, 2, 2, 2, 2, 2, 2, 2, 2, 2, 2, 1, 2, 2, 2, 2, 2, 2, 2, 2, 2, 2,
    2, 2, 2]

def yyBase : List ℕ :=
  [0, 0, 0, 78, 84, 33, 35, 70, 25, 21, 70, 27, 31, 27, 42, 0, 68, 31, 35, 34, 50, 42, 39, 0, 32,
    41, 84, 45, 53, 50, 84, 84, 53, 84, 58, 84, 84, 84, 68, 48]

def yyDef : List ℕ :=
  [0, 37, 1, 37, 37, 37, 37, 38, 37, 37, 37, 37, 37, 37, 37, 39, 38, 37, 37, 37, 37, 37, 37, 39,
    37, 37, 37, 37, 37, 37, 37, 37, 37, 37, 37, 37, 37, 0, 37, 37]

def yyNxt : List ℕ :=
  [0, 4, 5, 6, 4, 4, 7, 4, 4, 8, 4, 9, 10, 11, 4, 4, 12, 4, 13, 4, 4, 4, 4, 8, 4, 9, 10, 11, 4, 4,
    12, 4, 13, 4, 4, 14, 14, 14, 14, 17, 18, 20, 21, 22, 14, 14, 24, 25, 26, 28, 23, 29, 30, 17,
    18, 20, 21, 22, 31, 32, 24, 25, 26, 33, 28, 29, 30, 34, 35, 36, 15, 27, 31, 32, 16, 19, 16,
    33, 37, 37, 37, 34, 35, 36, 3, 37, 37, 37, 37, 37, 37, 37, 37, 37, 37, 37, 37, 37, 37, 37, 37,
    37, 37, 37, 37, 37, 37, 37, 37, 37, 37, 37, 37, 37, 37, 37, 37, 37, 37]

def yyChk : List ℕ :=
  [0, 1, 1, 1, 1, 1, 1, 1, 1, 1, 1, 1, 1, 1, 1, 1, 1, 1, 1, 1, 1, 1, 1, 1, 1, 1, 1, 1, 1, 1, 1, 1,
    1, 1, 1, 5, 5, 6, 6, 8, 9, 11, 12, 13, 14, 14, 17, 18, 19, 21, 39, 22, 24, 8, 9, 11, 12, 13,
    25, 27, 17, 18, 19, 28, 21, 22, 24, 29, 32, 34, 38, 20, 25, 27, 16, 10, 7, 28, 3, 0, 0, 29,
    32, 34, 37, 37, 37, 37, 37, 37, 37, 37, 37, 37, 37, 37, 37, 37, 37, 37, 37, 37, 37, 37, 37,
    37, 37, 37, 37, 37, 37, 37, 37, 37, 37, 37, 37, 37, 37]

/-- The inner loop of `yylex`, with the rows that are left to try. -/
def transition : (rows : ℕ) → (state yyC : ℕ) → Option ℕ
  | 0, _, _ => none
  | rows + 1, state, yyC => do
    let base ← yyBase[state]?
    if (← yyChk[base + yyC]?) = state then yyNxt[base + yyC]?
    else
      let state ← yyDef[state]?
      let yyC ← if 38 ≤ state then yyMeta[yyC]? else some yyC
      transition rows state yyC

def yyNext (state yyC : ℕ) : Option ℕ := transition yyDef.length state yyC

/-- The class of a byte. A byte zero has that of `yy_get_previous_state` and `yy_try_NUL_trans`. -/
def yyC (b : UInt8) : ℕ := if b = 0 then 1 else (yyEc[b.toNat]?).getD 0

/-- The base of the states that nothing leads out of. -/
def jamBase : ℕ := 84

def jamState : ℕ := 37

def ruleOfAct : ℕ → Option Rule
  | 1 => some .noOp
  | 2 => some .io
  | 3 => some .read
  | 4 => some .copy
  | 5 => some .write
  | 6 => some .exit
  | 7 => some .space
  | 8 => some .constant
  | 9 => some .badConstant
  | 10 => some .unknown
  | 11 => some .echo
  | _ => none

def accepted (state : ℕ) : Option Rule := (yyAccept[state]?).bind ruleOfAct

def automaton : Automaton UInt8 ℕ Rule where
  start := 1
  next := fun state b => (yyNext state (yyC b)).getD jamState
  accepts := accepted
  stops := fun state => yyBase[state]? == some jamBase

/-! ### The patterns -/

/-- The sets of bytes that the patterns are made of. -/
inductive Bytes
  | a | c | d | e | i | n | o | p | r | t | w | x | y | slash | underscore
  | space | digit | bad | badRest | unknown | any
  deriving DecidableEq

def letters : List Bytes :=
  [.a, .c, .d, .e, .i, .n, .o, .p, .r, .t, .w, .x, .y, .slash, .underscore]

def sets : List Bytes := letters ++ [.space, .digit, .bad, .badRest, .unknown, .any]

def Bytes.char : Bytes → Char
  | .a => 'A'
  | .c => 'C'
  | .d => 'D'
  | .e => 'E'
  | .i => 'I'
  | .n => 'N'
  | .o => 'O'
  | .p => 'P'
  | .r => 'R'
  | .t => 'T'
  | .w => 'W'
  | .x => 'X'
  | .y => 'Y'
  | .slash => '/'
  | .underscore => '_'
  | _ => ' '

def Bytes.bytes : Bytes → List UInt8
  | .a => [65, 97]
  | .c => [67, 99]
  | .d => [68, 100]
  | .e => [69, 101]
  | .i => [73, 105]
  | .n => [78, 110]
  | .o => [79, 111]
  | .p => [80, 112]
  | .r => [82, 114]
  | .t => [84, 116]
  | .w => [87, 119]
  | .x => [88, 120]
  | .y => [89, 121]
  | .slash => [47]
  | .underscore => [95]
  | .space => Scanner.space
  | .digit => Scanner.digit
  | .bad => invalidCharacter ++ alpha
  | .badRest => invalidCharacter ++ alpha ++ Scanner.digit
  | .unknown => range 0 9 ++ range 11 255
  | .any => range 0 255

def Bytes.holds (s : Bytes) (n : ℕ) : Bool :=
  match s with
  | .digit => 48 ≤ n && n ≤ 57
  | .bad => badNumber n
  | .badRest => badNumber n || 48 ≤ n && n ≤ 57
  | .unknown => n ≠ 10
  | .any => true
  | s => (s.bytes.map UInt8.toNat).elem n
where
  badNumber (n : ℕ) : Bool := (invalidCharacter.map UInt8.toNat).elem n ||
    65 ≤ n && n ≤ 90 || 97 ≤ n && n ≤ 122

def Bytes.classes : Bytes → List ℕ
  | .a => [7, 22]
  | .c => [9, 23]
  | .d => [10, 24]
  | .e => [11, 25]
  | .i => [12, 26]
  | .n => [13, 27]
  | .o => [14, 28]
  | .p => [15, 29]
  | .r => [16, 30]
  | .t => [17, 31]
  | .w => [18, 32]
  | .x => [19, 33]
  | .y => [20, 34]
  | .slash => [5]
  | .underscore => [21]
  | .space => [2, 3]
  | .digit => [6]
  | .bad => 4 :: List.range' 7 14 ++ List.range' 22 13
  | .badRest => 4 :: List.range' 6 15 ++ List.range' 22 13
  | .unknown => 1 :: 2 :: List.range' 4 31
  | .any => List.range' 1 34

def memClass (s : Bytes) (yyC : ℕ) : Bool := s.classes.elem yyC

def items : Rule → List (Item Bytes)
  | .noOp => [.one .n, .one .o, .one .underscore, .one .o, .one .p]
  | .io => [.one .i, .one .slash, .one .o]
  | .read => [.one .r, .one .e, .one .a, .one .d]
  | .copy => [.one .c, .one .o, .one .p, .one .y]
  | .write => [.one .w, .one .r, .one .i, .one .t, .one .e]
  | .exit => [.one .e, .one .x, .one .i, .one .t]
  | .space => [.one .space, .many .space]
  | .constant => [.one .digit, .many .digit]
  | .badConstant => [.one .digit, .many .digit, .one .bad, .many .badRest]
  | .unknown => [.one .unknown]
  | .echo => [.one .any]

/-! ### The labels -/

def path : ℕ → List ℕ
  | 1 => []
  | 4 => [1]
  | 5 => [2]
  | 6 => [3]
  | 7 => [6]
  | 8 => [9]
  | 9 => [11]
  | 10 => [12]
  | 11 => [13]
  | 12 => [16]
  | 13 => [18]
  | 14 => [2, 2]
  | 15 => [6, 4]
  | 16 => [6, 6]
  | 17 => [9, 14]
  | 18 => [11, 19]
  | 19 => [12, 5]
  | 20 => [13, 14]
  | 21 => [16, 11]
  | 22 => [18, 16]
  | 23 => [6, 4, 4]
  | 24 => [9, 14, 15]
  | 25 => [11, 19, 12]
  | 26 => [12, 5, 14]
  | 27 => [13, 14, 21]
  | 28 => [16, 11, 7]
  | 29 => [18, 16, 12]
  | 30 => [9, 14, 15, 20]
  | 31 => [11, 19, 12, 17]
  | 32 => [13, 14, 21, 14]
  | 33 => [16, 11, 7, 10]
  | 34 => [18, 16, 12, 17]
  | 35 => [13, 14, 21, 14, 15]
  | 36 => [18, 16, 12, 17, 11]
  | _ => [1, 1]

def label (state : ℕ) : List (Option (List (Item Bytes))) :=
  scanner.rules.map fun r => behind memClass (items r) (path state)

def states : List ℕ := 1 :: List.range' 4 34

/-- What the tables say of a state and a class, with the labels. -/
def Checked (s c : ℕ) : Prop :=
  (yyNext s c).any (fun s' => decide (s' ∈ states ∧
    label s' = (label s).map fun l => l.bind fun is => derive memClass is c)) = true

instance (s c : ℕ) : Decidable (Checked s c) := inferInstanceAs (Decidable (_ = _))

/-! ### What is checked -/

lemma checked : ∀ s ∈ states, ∀ c ∈ List.range' 1 34, Checked s c := by
  decide +kernel

lemma accepted_label : ∀ s ∈ states,
    accepted s = ((scanner.rules.zip (label s)).find? fun p => p.2.any nullable).map Prod.fst := by
  decide +kernel

/-- Nothing leads out of the states with that base. -/
lemma jams : ∀ s ∈ states, yyBase[s]? = some jamBase → ∀ c ∈ List.range' 1 34,
    yyNext s c = some jamState := by
  decide +kernel

def classes : List (ℕ × ℕ) := yyEc.zipIdx.map fun p => (p.2, if p.2 = 0 then 1 else p.1)

lemma class_mem_of_classes : ∀ p ∈ classes, p.2 ∈ List.range' 1 34 := by
  decide +kernel

lemma holds_of_classes : ∀ p ∈ classes, ∀ s ∈ sets, memClass s p.2 = s.holds p.1 := by
  decide +kernel

/-! ### The automaton recognizes the patterns -/

lemma length_yyEc : yyEc.length = 256 := by
  decide +kernel

lemma mem_classes (b : UInt8) : (b.toNat, yyC b) ∈ classes := by
  have hlt : b.toNat < yyEc.length := by
    rw [length_yyEc]
    exact b.toNat_lt
  rw [classes, List.mem_map]
  refine ⟨(yyEc[b.toNat], b.toNat), List.mem_zipIdx_iff_getElem?.mpr ?_, ?_⟩
  · exact List.getElem?_eq_getElem hlt
  · by_cases hb : b = 0
    · subst hb
      rfl
    · have hne : b.toNat ≠ 0 := fun h => hb (UInt8.toNat_inj.mp h)
      simp [yyC, hb, hne, List.getElem?_eq_getElem hlt]

lemma class_mem (b : UInt8) : yyC b ∈ List.range' 1 34 := class_mem_of_classes _ (mem_classes b)

def memByte (s : Bytes) (b : UInt8) : Bool := memClass s (yyC b)

lemma mem_sets (s : Bytes) : s ∈ sets := by
  cases s <;> decide

lemma holds_iff (s : Bytes) (b : UInt8) : s.holds b.toNat = true ↔ b ∈ s.bytes := by
  have hlt := b.toNat_lt
  have hlist : ∀ bs : List UInt8, (bs.map UInt8.toNat).elem b.toNat = true ↔ b ∈ bs := by
    intro bs
    rw [List.elem_iff, List.mem_map]
    constructor
    · rintro ⟨b', hb', heq⟩
      exact UInt8.toNat_inj.mp heq ▸ hb'
    · intro hb
      exact ⟨b, hb, rfl⟩
  have hbad : Bytes.holds.badNumber b.toNat = true ↔ b ∈ invalidCharacter ++ alpha := by
    rw [Bytes.holds.badNumber, Bool.or_assoc, Bool.or_eq_true, hlist, List.mem_append, alpha,
      List.mem_append, mem_range (by decide), mem_range (by decide)]
    simp
  have hdigit : b ∈ Scanner.digit ↔ 48 ≤ b.toNat ∧ b.toNat ≤ 57 := mem_range (by decide)
  cases s with
  | digit => simp [Bytes.holds, Bytes.bytes, hdigit]
  | bad => exact hbad
  | badRest =>
    simp only [Bytes.holds, Bytes.bytes, Bool.or_eq_true, hbad, List.mem_append, hdigit]
    simp
  | unknown =>
    have hlow : b ∈ range 0 9 ↔ 0 ≤ b.toNat ∧ b.toNat ≤ 9 := mem_range (by decide)
    have hhigh : b ∈ range 11 255 ↔ 11 ≤ b.toNat ∧ b.toNat ≤ 255 := mem_range (by decide)
    simp only [Bytes.holds, Bytes.bytes, List.mem_append, hlow, hhigh, decide_eq_true_iff]
    omega
  | any =>
    have hany : b ∈ range 0 255 ↔ 0 ≤ b.toNat ∧ b.toNat ≤ 255 := mem_range (by decide)
    simp only [Bytes.holds, Bytes.bytes, hany, true_iff]
    omega
  | _ => exact hlist _

lemma memByte_iff (s : Bytes) (b : UInt8) : memByte s b = true ↔ b ∈ s.bytes := by
  rw [memByte, holds_of_classes _ (mem_classes b) _ (mem_sets s), holds_iff]

lemma matches_oneOf (s : Bytes) : (oneOf s.bytes).matches' = symbols memByte s := by
  ext w
  rw [← RegularExpression.rmatch_iff_matches', rmatch_oneOf]
  constructor
  · rintro ⟨b, hb, rfl⟩
    exact ⟨b, (memByte_iff s b).mpr hb, rfl⟩
  · rintro ⟨b, hb, rfl⟩
    exact ⟨b, (memByte_iff s b).mp hb, rfl⟩

lemma matches_keyword (ss : List Bytes) (hss : ∀ s ∈ ss, s ∈ letters) :
    (keyword (ss.map Bytes.char)).matches' = language memByte (ss.map .one) := by
  induction ss with
  | nil => rfl
  | cons s ss ih =>
    rw [List.forall_mem_cons] at hss
    have hletter : anyCase s.char = oneOf s.bytes := by
      have hs := hss.1
      cases s <;> first | rfl | exact absurd hs (by decide)
    have hcons : keyword ((s :: ss).map Bytes.char) =
        anyCase s.char * keyword (ss.map Bytes.char) :=
      rfl
    rw [hcons, RegularExpression.matches'_mul, hletter, matches_oneOf, ih hss.2]
    rfl

lemma matches_oneOrMore (s : Bytes) :
    (oneOrMore (oneOf s.bytes)).matches' = language memByte [.one s, .many s] := by
  rw [oneOrMore, RegularExpression.matches'_mul, RegularExpression.matches'_star, matches_oneOf,
    language, language, language, mul_one]

lemma matches_pattern (r : Rule) : r.pattern.matches' = language memByte (items r) := by
  cases r with
  | noOp => exact matches_keyword [.n, .o, .underscore, .o, .p] (by decide)
  | io => exact matches_keyword [.i, .slash, .o] (by decide)
  | read => exact matches_keyword [.r, .e, .a, .d] (by decide)
  | copy => exact matches_keyword [.c, .o, .p, .y] (by decide)
  | write => exact matches_keyword [.w, .r, .i, .t, .e] (by decide)
  | exit => exact matches_keyword [.e, .x, .i, .t] (by decide)
  | space => exact matches_oneOrMore .space
  | constant => exact matches_oneOrMore .digit
  | badConstant =>
    have hconstant := matches_oneOrMore .digit
    have hbad := matches_oneOf .bad
    have hrest := matches_oneOf .badRest
    simp only [Bytes.bytes] at hconstant hbad hrest
    simp only [Rule.pattern, RegularExpression.matches'_mul, RegularExpression.matches'_star, hbad,
      hrest, Scanner.constant, hconstant, items, language, mul_one, mul_assoc]
  | unknown =>
    have h := matches_oneOf .unknown
    simpa [Rule.pattern, items, language, Bytes.bytes] using h
  | echo =>
    have h := matches_oneOf .any
    simpa [Rule.pattern, items, language, Bytes.bytes] using h

lemma deterministic (r : Rule) : Deterministic memByte (items r) := by
  have hdigit : ∀ b : UInt8, memByte .digit b = true → memByte .bad b = false := by
    intro b hb
    have hclass : yyC b = 6 := by simpa [memByte, memClass, Bytes.classes] using hb
    rw [memByte, hclass]
    decide
  cases r with
  | badConstant =>
    refine ⟨fun b hb => ?_, fun b hb => rfl, trivial⟩
    simp [derive, hdigit b hb]
  | space | constant => exact ⟨fun b hb => rfl, trivial⟩
  | _ => trivial

lemma next_eq {s : ℕ} (hs : s ∈ states) (b : UInt8) :
    automaton.next s b ∈ states ∧ yyNext s (yyC b) = some (automaton.next s b) ∧
      label (automaton.next s b) = (label s).map fun l => l.bind fun is => derive memByte is b := by
  have hchecked := checked s hs (yyC b) (class_mem b)
  rw [Checked, Option.any_eq_true] at hchecked
  obtain ⟨s', hs', hlabel⟩ := hchecked
  obtain ⟨hmem, hlabel⟩ := of_decide_eq_true hlabel
  have hnext : automaton.next s b = s' := by
    change (yyNext s (yyC b)).getD jamState = s'
    rw [hs', Option.getD_some]
  rw [hnext]
  refine ⟨hmem, hs', hlabel.trans ?_⟩
  refine List.map_congr_left fun l _ => ?_
  exact congrArg l.bind (funext fun is => (derive_comp memClass yyC is b).symm)

/-- The tables carry the labels. -/
theorem labelled : Labelled memByte automaton scanner items (· ∈ states) label where
  deterministic := fun r _ => deterministic r
  language := by
    intro r _ w
    rw [← matches_pattern, ← RegularExpression.rmatch_iff_matches']
    rfl
  start := List.mem_cons_self
  closed := fun s hs b => (next_eq hs b).1
  label_start := rfl
  label_next := fun s hs b => (next_eq hs b).2.2
  accepts := accepted_label

lemma run_jamState (w : List UInt8) : automaton.run jamState w = jamState := by
  induction w with
  | nil => rfl
  | cons b w ih =>
    have hjam := jams jamState (by decide) (by decide) (yyC b) (class_mem b)
    have hnext : automaton.next jamState b = jamState := by
      change (yyNext jamState (yyC b)).getD jamState = jamState
      rw [hjam, Option.getD_some]
    rw [Automaton.run_cons, hnext, ih]

/-- **Main result.** The automaton of the tables accepts what the patterns of `console.l` accept,
rule by rule in their order, and where its base says that it jams no word goes on. -/
theorem recognizes : Recognizes automaton scanner where
  start := by decide
  accepts := fun w _ => labelled.accepts_run w
  stops := by
    intro w hstops v hv
    obtain ⟨b, v, rfl⟩ := List.exists_cons_of_ne_nil hv
    obtain ⟨hs, -⟩ := labelled.label_run w
    have hbase : yyBase[automaton.run automaton.start w]? = some jamBase := by
      simpa [automaton] using hstops
    have hjam := jams _ hs hbase (yyC b) (class_mem b)
    have hnext : automaton.next (automaton.run automaton.start w) b = jamState := by
      change (yyNext _ (yyC b)).getD jamState = jamState
      rw [hjam, Option.getD_some]
    rw [Automaton.run_append, Automaton.run_cons, hnext, run_jamState]
    decide

/-- The state behind a word has the action of the first rule that matches the word; and where its
base is the one that ends the loop of `yylex`, no longer word matches. -/
theorem accepted_run (w : List UInt8) (hw : w ≠ []) :
    accepted (automaton.run automaton.start w) = scanner.ruleOf w ∧
      (yyBase[automaton.run automaton.start w]? = some jamBase →
        ∀ v, v ≠ [] → scanner.ruleOf (w ++ v) = none) := by
  refine ⟨recognizes.accepts w hw, fun hbase v hv => ?_⟩
  rw [← recognizes.accepts _ (List.append_ne_nil_of_left_ne_nil hw v)]
  exact recognizes.stops w (beq_iff_eq.mpr hbase) v hv

theorem accepted_run_exit : ([101, 120, 105, 116] : List UInt8) ≠ [] ∧
    accepted (automaton.run automaton.start [101, 120, 105, 116]) =
      scanner.ruleOf [101, 120, 105, 116] :=
  ⟨by decide, (accepted_run [101, 120, 105, 116] (by decide)).1⟩

end Sski.Console.Tables
