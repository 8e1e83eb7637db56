import Sski.Console.Compilation

/-!
The parser that `bison` made of `parser.y`, as it stands in `parser.c`: its tables, its stacks of
states and of values, and the loop of `yyparse`.

The text of a constant goes from `yylval` over the stack of values to the action of a reduction.
`step` is one pass from `yysetstate` on; it has no result where an action would get no text.
-/

namespace Sski.Console.Yyparse

open Sski.Console.Scanner (Token)
open Sski.Console.Parser (Stack shift)
open Sski.Console.Semantic
open Sski.Console.Compilation (Lexeme Globals Outcome YYACCEPT YYABORT)

/-! ### The tables -/

def yypact : List ℤ := [6, -5, -2, -1, 13, 14, 15, 0, -5, -5, -5, -5, 16, 17, -5, -5, -5, -5]

def yydefact : List ℕ := [0, 4, 0, 0, 0, 0, 0, 0, 2, 5, 7, 6, 0, 0, 1, 3, 8, 9]

def yypgoto : List ℤ := [-5, -5, -4]

def yydefgoto : List ℤ := [0, 7, 8]

def yytable : List ℤ := [14, 9, 10, 15, 1, 2, 3, 4, 5, 6, 1, 2, 3, 4, 5, 6, 11, 12, 13, 16, 17]

def yycheck : List ℕ := [0, 3, 3, 7, 4, 5, 6, 7, 8, 9, 4, 5, 6, 7, 8, 9, 3, 3, 3, 3, 3]

def yyr1 : List ℕ := [0, 10, 11, 11, 12, 12, 12, 12, 12, 12]

def yyr2 : List ℕ := [0, 2, 1, 2, 1, 2, 2, 2, 3, 3]

def YYFINAL : ℕ := 14

def YYLAST : ℤ := 20

def YYNTOKENS : ℕ := 10

def YYPACT_NINF : ℤ := -5

def YYMAXDEPTH : ℕ := 10000

/-- `yytokentype`. -/
def tokenType : Token → ℕ
  | .constant _ => 258
  | .exit => 259
  | .noOp => 260
  | .read => 261
  | .io => 262
  | .write => 263
  | .copy => 264

def YYEOF : ℕ := 0

def YYerror : ℕ := 256

def YYUNDEF : ℕ := 257

/-- `YYSYMBOL_YYerror`. -/
def errorSymbol : ℕ := 1

def yytranslate (yychar : ℕ) : ℕ :=
  if yychar = YYEOF then 0 else if 256 ≤ yychar ∧ yychar ≤ 264 then yychar - 255 else 2

/-- The entry of `yytable` that `yycheck` grants to a symbol or a state. -/
def entry (yyn : ℤ) (owner : ℕ) : Option ℤ :=
  if 0 ≤ yyn ∧ yyn ≤ YYLAST ∧ yycheck[yyn.toNat]? = some owner then yytable[yyn.toNat]? else none

/-! ### The parse -/

/-- A `char *`. -/
abbrev Value := Option (List UInt8)

/-- The stacks are given from their tops down; the lowest value is the one `yyparse` never sets. -/
structure Parse where
  yyss : List ℕ
  yyvs : List Value
  /-- Nothing is `YYEMPTY`. -/
  yychar : Option ℕ
  yylval : Value
  yyerrstatus : ℕ
  globals : Globals
  /-- What `yylex` has not returned yet. -/
  input : List Lexeme
  deriving DecidableEq, Repr

inductive Step
  | next (p : Parse)
  | returns (o : Outcome)
  deriving DecidableEq, Repr

/-- What a call of `yylex` leaves behind, or how it ends the program. -/
inductive Lexed
  | token (yychar : ℕ) (yylval : Value) (globals : Globals) (input : List Lexeme)
  | ends (o : Outcome)
  deriving DecidableEq, Repr

def yylex (yylval : Value) : Globals → List Lexeme → Lexed
  | g, [] => .token YYEOF yylval g []
  | g, l :: ls =>
    if l.TooLarge then .ends .exited
    else match l.action with
      | .skip => yylex yylval g ls
      | .errorLexico =>
        if g.yylexerrs + 1 < 2 ^ 31 then yylex yylval { g with yylexerrs := g.yylexerrs + 1 } ls
        else .ends .undefined
      | .token (.constant text) => .token (tokenType (.constant text)) (some text) g ls
      | .token t => .token (tokenType t) yylval g ls

def action (yyn : ℕ) (yyvs : List Value) : Option (List Cpu.Cycle.Instruction) :=
  match yyn, yyvs with
  | 4, _ => some requestExit
  | 5, some c :: _ => some (requestNoOp c)
  | 6, some c :: _ => some (requestIo c)
  | 7, some c :: _ => some (requestRead c)
  | 8, some r :: some l :: _ => some (requestWrite l r)
  | 9, some r :: some l :: _ => some (requestCopy l r)
  | 5, _ | 6, _ | 7, _ | 8, _ | 9, _ => none
  | _, _ => some []

def yyreduce (p : Parse) (yyn : ℕ) : Option Step := do
  let yylen ← yyr2[yyn]?
  let yyval ← p.yyvs[yylen - 1]?
  let commands ← action yyn p.yyvs
  let yystate ← (p.yyss.drop yylen).head?
  let yylhs ← (yyr1[yyn]?).map (· - YYNTOKENS)
  let yyi ← (yypgoto[yylhs]?).map (· + (yystate : ℤ))
  let goto ← (entry yyi yystate).or yydefgoto[yylhs]?
  some <| .next { p with
    yyss := goto.toNat :: p.yyss.drop yylen
    yyvs := yyval :: p.yyvs.drop yylen
    globals := { p.globals with inputFileCommands := p.globals.inputFileCommands ++ commands } }

/-- The state that `error` leads to. -/
def errorEntry (yystate : ℕ) : Option ℤ := do
  let yyn ← yypact[yystate]?
  if yyn = YYPACT_NINF then none
  else (entry (yyn + errorSymbol) errorSymbol).filter (0 < ·)

/-- The loop of `yyerrlab1`: the stacks with the first state that takes `error` on top. -/
def popToError : List ℕ → List Value → Option (ℤ × List ℕ × List Value)
  | [], _ => none
  | yystate :: yyss, yyvs =>
    match errorEntry yystate with
    | some yyn => some (yyn, yystate :: yyss, yyvs)
    | none => popToError yyss yyvs.tail

def yyerrlab1 (p : Parse) : Step :=
  match popToError p.yyss p.yyvs with
  | none => .returns (.returned YYABORT p.globals)
  | some (yyn, yyss, yyvs) => .next { p with
      yyss := yyn.toNat :: yyss, yyvs := p.yylval :: yyvs, yyerrstatus := 3 }

def yyerrlab (p : Parse) : Step :=
  let p := if p.yyerrstatus = 0 then
      { p with globals := { p.globals with yynerrs := p.globals.yynerrs + 1 } }
    else p
  if p.yyerrstatus = 3 then
    if p.yychar = some YYEOF then .returns (.returned YYABORT p.globals)
    else yyerrlab1 { p with yychar := none }
  else yyerrlab1 p

def yydefault (p : Parse) (yystate : ℕ) : Option Step := do
  let yyn ← yydefact[yystate]?
  if yyn = 0 then some (yyerrlab p) else yyreduce p yyn

/-- `yybackup`, with a lookahead. -/
def withLookahead (p : Parse) (yystate yychar : ℕ) (yyn : ℤ) : Option Step :=
  if yychar = YYerror then some (yyerrlab1 { p with yychar := some YYUNDEF })
  else match entry (yyn + yytranslate yychar) (yytranslate yychar) with
    | none => yydefault p yystate
    | some yyn =>
      if yyn ≤ 0 then yyreduce p (-yyn).toNat
      else some <| .next { p with
        yyss := yyn.toNat :: p.yyss, yyvs := p.yylval :: p.yyvs, yychar := none,
        yyerrstatus := p.yyerrstatus - 1 }

/-- From `yysetstate` to the next `yynewstate`. -/
def step (p : Parse) : Option Step := do
  let yystate ← p.yyss.head?
  if YYMAXDEPTH ≤ p.yyss.length then some (.returns (.returned 2 p.globals))
  else if yystate = YYFINAL then some (.returns (.returned YYACCEPT p.globals))
  else
    let yyn ← yypact[yystate]?
    if yyn = YYPACT_NINF then yydefault p yystate
    else match p.yychar with
      | some yychar => withLookahead p yystate yychar yyn
      | none =>
        match yylex p.yylval p.globals p.input with
        | .ends o => some (.returns o)
        | .token yychar yylval globals input =>
          withLookahead { p with yychar := some yychar, yylval, globals, input } yystate yychar yyn

/-- `yyparse`, for at most so many passes. -/
def yyparse : ℕ → Parse → Option Outcome
  | 0, _ => none
  | fuel + 1, p =>
    match step p with
    | none => none
    | some (.returns o) => some o
    | some (.next p) => yyparse fuel p

def initial (ls : List Lexeme) : Parse := ⟨[0], [none], none, none, 0, ⟨0, 0, []⟩, ls⟩

/-! ### The stacks -/

/-- The stacks between two instructions. -/
inductive Base : List ℕ → List Value → Prop
  | start (v : Value) : Base [0] [v]
  | instructions (v w : Value) : Base [7, 0] [v, w]

inductive Holds : Stack → List ℕ → List Value → Prop
  | start (v : Value) : Holds .start [0] [v]
  | instructions (v w : Value) : Holds .instructions [7, 0] [v, w]
  | noOp {ss : List ℕ} {vs : List Value} (h : Base ss vs) (v : Value) :
      Holds .noOp (2 :: ss) (v :: vs)
  | read {ss : List ℕ} {vs : List Value} (h : Base ss vs) (v : Value) :
      Holds .read (3 :: ss) (v :: vs)
  | io {ss : List ℕ} {vs : List Value} (h : Base ss vs) (v : Value) :
      Holds .io (4 :: ss) (v :: vs)
  | write {ss : List ℕ} {vs : List Value} (h : Base ss vs) (v : Value) :
      Holds .write (5 :: ss) (v :: vs)
  | copy {ss : List ℕ} {vs : List Value} (h : Base ss vs) (v : Value) :
      Holds .copy (6 :: ss) (v :: vs)
  | writeL {ss : List ℕ} {vs : List Value} (h : Base ss vs) (v : Value) (l : List UInt8) :
      Holds (.writeL l) (12 :: 5 :: ss) (some l :: v :: vs)
  | copyL {ss : List ℕ} {vs : List Value} (h : Base ss vs) (v : Value) (l : List UInt8) :
      Holds (.copyL l) (13 :: 6 :: ss) (some l :: v :: vs)

variable {ss ss' : List ℕ} {vs vs' : List Value} {stack stack' : Stack} {yylval : Value}
  {g : Globals} {ls : List Lexeme} {l : Lexeme} {t : Token} {x : Parser.Statement}
  {yychar fuel : ℕ}

/-- `yysymbol_kind_t` of a token. -/
def symbol : Token → ℕ
  | .constant _ => 3
  | .exit => 4
  | .noOp => 5
  | .read => 6
  | .io => 7
  | .write => 8
  | .copy => 9

/-- `yybackup` with a lookahead that is not `error`, in the state on top. -/
def backup (p : Parse) (yytoken : ℕ) : Option Step :=
  match entry (yypact.getD (p.yyss.headD 0) 0 + yytoken) yytoken with
  | none => yydefault p (p.yyss.headD 0)
  | some yyn =>
    if yyn ≤ 0 then yyreduce p (-yyn).toNat
    else some <| .next { p with
      yyss := yyn.toNat :: p.yyss, yyvs := p.yylval :: p.yyvs, yychar := none,
      yyerrstatus := p.yyerrstatus - 1 }

lemma withLookahead_tokenType (p : Parse) (t : Token) :
    withLookahead p (p.yyss.headD 0) (tokenType t) (yypact.getD (p.yyss.headD 0) 0) =
      backup p (symbol t) := by
  have hsymbol : yytranslate (tokenType t) = symbol t := by
    cases t <;> simp [yytranslate, tokenType, symbol, YYEOF]
  have hne : tokenType t ≠ YYerror := by
    cases t <;> simp [tokenType, YYerror]
  rw [withLookahead, if_neg hne, hsymbol, backup]

lemma withLookahead_eof (p : Parse) :
    withLookahead p (p.yyss.headD 0) YYEOF (yypact.getD (p.yyss.headD 0) 0) = backup p 0 := by
  rw [withLookahead, if_neg (by decide)]
  rfl

lemma Holds.step_eq (h : Holds stack ss vs) :
    step ⟨ss, vs, none, yylval, 0, g, ls⟩ =
      match yylex yylval g ls with
      | .ends o => some (.returns o)
      | .token yychar yylval g ls =>
        withLookahead ⟨ss, vs, some yychar, yylval, 0, g, ls⟩ (ss.headD 0) yychar
          (yypact.getD (ss.headD 0) 0) := by
  cases h with
  | start | instructions => rfl
  | noOp h | read h | io h | write h | copy h | writeL h | copyL h => cases h <;> rfl

def valueOf (yylval : Value) : Token → Value
  | .constant text => some text
  | _ => yylval

lemma yylex_token {n : ℕ} (hl : ¬ (⟨.token t, n⟩ : Lexeme).TooLarge) :
    yylex yylval g (⟨.token t, n⟩ :: ls) = .token (tokenType t) (valueOf yylval t) g ls := by
  rw [yylex, if_neg hl]
  cases t <;> rfl

/-- No state takes `error`: the stacks are popped to their ends. -/
lemma Holds.popToError (h : Holds stack ss vs) : popToError ss vs = none := by
  cases h with
  | start | instructions => rfl
  | noOp h | read h | io h | write h | copy h | writeL h | copyL h => cases h <;> rfl

lemma Holds.error (h : Holds stack ss vs) (hshift : shift stack t = none) :
    backup ⟨ss, vs, some yychar, valueOf yylval t, 0, g, ls⟩ (symbol t) =
      some (.returns (.returned YYABORT { g with yynerrs := g.yynerrs + 1 })) := by
  cases h with
  | start | instructions => cases t <;> first | rfl | cases hshift
  | noOp h | read h | io h | write h | copy h | writeL h | copyL h =>
    cases h <;> cases t <;> first | rfl | cases hshift

lemma Holds.eof_error (h : Holds stack ss vs) (hne : stack ≠ .instructions) :
    backup ⟨ss, vs, some yychar, yylval, 0, g, ls⟩ 0 =
      some (.returns (.returned YYABORT { g with yynerrs := g.yynerrs + 1 })) := by
  cases h with
  | start => rfl
  | instructions => exact (hne rfl).elim
  | noOp h | read h | io h | write h | copy h | writeL h | copyL h => cases h <;> rfl

lemma Holds.shifted (h : Holds stack ss vs) (hshift : shift stack t = some (stack', none)) :
    ∃ ss' vs', Holds stack' ss' vs' ∧
      backup ⟨ss, vs, some yychar, valueOf yylval t, 0, g, ls⟩ (symbol t) =
        some (.next ⟨ss', vs', none, valueOf yylval t, 0, g, ls⟩) := by
  cases h with
  | start v =>
    cases t <;> cases hshift
    all_goals exact ⟨_, _, by constructor; exact .start v, rfl⟩
  | instructions v w =>
    cases t <;> cases hshift
    all_goals exact ⟨_, _, by constructor; exact .instructions v w, rfl⟩
  | write h v | copy h v =>
    cases t <;> cases hshift
    exact ⟨_, _, by constructor; exact h, rfl⟩
  | noOp h | read h | io h | writeL h | copyL h => cases t <;> cases hshift

/-- A token that ends an instruction: it is shifted, the instruction is reduced with its action,
and then the list of instructions. -/
lemma Holds.reduced (h : Holds stack ss vs) (hshift : shift stack t = some (stack', some x)) :
    stack' = .instructions ∧ ∃ p,
      backup ⟨ss, vs, some yychar, valueOf yylval t, 0, g, ls⟩ (symbol t) = some (.next p) ∧
      ∃ v w, ∀ fuel, yyparse (fuel + 2) p =
        yyparse fuel ⟨[7, 0], [v, w], none, valueOf yylval t, 0,
          { g with inputFileCommands := g.inputFileCommands ++ request x ++ [] }, ls⟩ := by
  cases h with
  | start v | instructions v w =>
    cases t <;> cases hshift
    exact ⟨rfl, _, rfl, _, _, fun fuel => rfl⟩
  | noOp h v | read h v | io h v | writeL h v l | copyL h v l =>
    cases t <;> cases hshift
    cases h <;> exact ⟨rfl, _, rfl, _, _, fun fuel => rfl⟩
  | write h | copy h => cases t <;> cases hshift

/-! ### The parse -/

lemma yyparse_next {p p' : Parse} (h : step p = some (.next p')) :
    yyparse (fuel + 1) p = yyparse fuel p' := by
  rw [yyparse, h]

lemma yyparse_returns {p : Parse} {o : Outcome} (h : step p = some (.returns o)) :
    yyparse (fuel + 1) p = some o := by
  rw [yyparse, h]

/-- The parse does what the automaton does within three passes for a token, and two at the end. -/
def Parses (n : ℕ) (stack : Stack) (p : Parse) : Prop :=
  ∀ fuel, n ≤ fuel → yyparse fuel p = some (Compilation.yyparse stack p.globals p.input)

lemma parses_of_returns {n : ℕ} {p : Parse}
    (h : step p = some (.returns (Compilation.yyparse stack p.globals p.input))) :
    Parses (n + 1) stack p := by
  intro fuel hfuel
  obtain ⟨fuel, rfl⟩ := Nat.exists_eq_add_of_le' hfuel
  exact yyparse_returns h

lemma Parses.skip {n : ℕ} {p p' : Parse} (h : Parses n stack p') (hstep : step p = step p')
    (heq : Compilation.yyparse stack p.globals p.input =
      Compilation.yyparse stack p'.globals p'.input) : Parses n stack p := by
  intro fuel hfuel
  rw [heq, ← h fuel hfuel]
  cases fuel with
  | zero => rfl
  | succ fuel => rw [yyparse, yyparse, hstep]

lemma Holds.parses_nil (h : Holds stack ss vs) :
    Parses 2 stack ⟨ss, vs, none, yylval, 0, g, []⟩ := by
  have hstep : step ⟨ss, vs, none, yylval, 0, g, []⟩ =
      backup ⟨ss, vs, some YYEOF, yylval, 0, g, []⟩ 0 := by
    rw [h.step_eq]
    exact withLookahead_eof _
  by_cases hinstr : stack = .instructions
  · -- the end is shifted, and the parse is in its final state
    subst hinstr
    cases h with
    | instructions v w =>
      intro fuel hfuel
      obtain ⟨fuel, rfl⟩ := Nat.exists_eq_add_of_le' hfuel
      rw [yyparse_next (hstep.trans rfl)]
      exact yyparse_returns rfl
  · apply parses_of_returns
    rw [hstep, h.eof_error hinstr]
    cases stack <;> first | rfl | exact (hinstr rfl).elim

/-- The induction is on the lexemes. -/
theorem Holds.parses (h : Holds stack ss vs) :
    Parses (3 * ls.length + 2) stack ⟨ss, vs, none, yylval, 0, g, ls⟩ := by
  induction ls generalizing stack ss vs yylval g with
  | nil => exact h.parses_nil
  | cons l ls ih =>
    obtain ⟨act, n⟩ := l
    have hlen : 3 * ((⟨act, n⟩ : Lexeme) :: ls).length + 2 = 3 * ls.length + 2 + 2 + 1 := by
      rw [List.length_cons]
      omega
    rw [hlen]
    by_cases hl : (⟨act, n⟩ : Lexeme).TooLarge
    · apply parses_of_returns
      rw [h.step_eq, yylex, if_pos hl, Compilation.yyparse, if_pos hl]
    · cases act with
      | skip =>
        have hrest : Parses (3 * ls.length + 2) stack ⟨ss, vs, none, yylval, 0, g, ls⟩ := ih h
        have hskip : Parses (3 * ls.length + 2) stack
            ⟨ss, vs, none, yylval, 0, g, ⟨.skip, n⟩ :: ls⟩ := by
          apply hrest.skip
          · rw [h.step_eq, h.step_eq, yylex, if_neg hl]
          · rw [Compilation.yyparse, if_neg hl]
        exact fun fuel hfuel => hskip fuel (by omega)
      | errorLexico =>
        by_cases hlast : g.yylexerrs + 1 < 2 ^ 31
        · have hrest : Parses (3 * ls.length + 2) stack
              ⟨ss, vs, none, yylval, 0, { g with yylexerrs := g.yylexerrs + 1 }, ls⟩ := ih h
          have hskip : Parses (3 * ls.length + 2) stack
              ⟨ss, vs, none, yylval, 0, g, ⟨.errorLexico, n⟩ :: ls⟩ := by
            apply hrest.skip
            · rw [h.step_eq, h.step_eq, yylex, if_neg hl]
              simp only [if_pos hlast]
            · rw [Compilation.yyparse, if_neg hl]
              simp only [if_pos hlast]
          exact fun fuel hfuel => hskip fuel (by omega)
        · apply parses_of_returns
          rw [h.step_eq, yylex, if_neg hl, Compilation.yyparse, if_neg hl]
          simp only [if_neg hlast]
      | token t =>
        have hstep : step ⟨ss, vs, none, yylval, 0, g, ⟨.token t, n⟩ :: ls⟩ =
            backup ⟨ss, vs, some (tokenType t), valueOf yylval t, 0, g, ls⟩ (symbol t) := by
          rw [h.step_eq, yylex_token hl]
          exact withLookahead_tokenType _ t
        cases hshift : shift stack t with
        | none =>
          apply parses_of_returns
          rw [hstep, h.error hshift, Compilation.yyparse, if_neg hl]
          simp only [hshift]
        | some next =>
          obtain ⟨stack', x⟩ := next
          intro fuel hfuel
          rw [Compilation.yyparse, if_neg hl]
          simp only [hshift]
          obtain ⟨fuel, rfl⟩ := Nat.exists_eq_add_of_le' hfuel
          cases x with
          | none =>
            obtain ⟨ss', vs', h', hbackup⟩ := h.shifted hshift
            rw [← Nat.add_assoc, yyparse_next (hstep.trans hbackup),
              ih h' (fuel + (3 * ls.length + 2 + 2)) (by omega)]
            simp
          | some x =>
            obtain ⟨rfl, p, hbackup, v, w, hrun⟩ := h.reduced hshift
            rw [← Nat.add_assoc, yyparse_next (hstep.trans hbackup), ← Nat.add_assoc, hrun,
              ih (.instructions v w) (fuel + (3 * ls.length + 2)) (by omega)]
            simp

lemma yyparse_initial (ls : List Lexeme) (hfuel : 3 * ls.length + 2 ≤ fuel) :
    yyparse fuel (initial ls) = some (Compilation.yyparse .start ⟨0, 0, []⟩ ls) :=
  (Holds.start none).parses fuel hfuel

/-- **Main result.** The generated parser does with every list of lexemes what the automaton of the
grammar does. -/
theorem yyparse_eq (ls : List Lexeme) (fuel : ℕ) (hfuel : 3 * ls.length + 2 ≤ fuel) :
    yyparse fuel (initial ls) = some (Compilation.yyparse .start ⟨0, 0, []⟩ ls) :=
  yyparse_initial ls hfuel

/-- `WRITE 8 7` and `EXIT`, with the blanks between. -/
def writeExit : List Lexeme :=
  [⟨.token .write, 5⟩, ⟨.skip, 1⟩, ⟨.token (.constant [56]), 1⟩, ⟨.skip, 1⟩,
    ⟨.token (.constant [55]), 1⟩, ⟨.skip, 1⟩, ⟨.token .exit, 5⟩]

theorem yyparse_eq_writeExit : yyparse 23 (initial writeExit) =
    some (.returned YYACCEPT ⟨0, 0, [⟨.write, 8, 7⟩, ⟨.exit, 0, 0⟩]⟩) :=
  (yyparse_eq writeExit 23 (by decide)).trans (by decide)

end Sski.Console.Yyparse
