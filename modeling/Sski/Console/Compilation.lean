import Sski.Console.Semantic

/-!
The console's compilation: the scanner's buffer, the parser with its actions, and `on_run`.

What a file should transmit is stated over the lexemes and the grammar. The code differs where a
token is too large for the scanner, a constant too large for its parameter, a count too large for
the `int` that counts it, or the program too large for the `int` that a buffer has for its size.
-/

namespace Sski.Console.Compilation

open Sski.Lib.Munch
open Sski.Console.Scanner
open Sski.Console.Parser (Statement Stack Instructions shift feed feed_cons_eq_some
  feed_eq_some_iff)
open Sski.Console.Semantic

/-! ### The scanner's buffer -/

def YYLMAX : ℕ := 8192

def YY_READ_BUF_SIZE : ℕ := 8192

structure Lexeme where
  action : Action
  yyleng : ℕ
  deriving DecidableEq, Repr

/-- The largest `yyleng` while a lexeme is scanned: at a byte zero, and where the bytes read so far
end, the scanner takes one byte more before it finds out that it has to go on. -/
def yyleng (size : ℕ) (text behind : List UInt8) : ℕ :=
  if behind = [] ∨ behind.head? = some 0 ∨ (size - behind.length) % YY_READ_BUF_SIZE = 0 then
    text.length + 1
  else text.length

def lexemes (size : ℕ) : List (Rule × List UInt8) → List Lexeme
  | [] => []
  | (rule, text) :: ls =>
    ⟨action rule text, yyleng size text (ls.map Prod.snd).flatten⟩ :: lexemes size ls

def yylex (file : List UInt8) : List Lexeme := lexemes file.length (scanner.munch file)

/-- The scanner's `YY_FATAL_ERROR`. -/
def Lexeme.TooLarge (l : Lexeme) : Prop := YYLMAX ≤ l.yyleng

instance (l : Lexeme) : Decidable l.TooLarge := inferInstanceAs (Decidable (_ ≤ _))

/-! ### The parser -/

def YYACCEPT : ℕ := 0

def YYABORT : ℕ := 1

structure Globals where
  yylexerrs : ℕ
  yynerrs : ℕ
  inputFileCommands : List Cpu.Cycle.Instruction
  deriving DecidableEq, Repr

/-- How a parse ends: it returns, the scanner exits, or `yylexerrs++` overflows. -/
inductive Outcome
  | returned (code : ℕ) (globals : Globals)
  | exited
  | undefined
  deriving DecidableEq, Repr

def yyparse : Stack → Globals → List Lexeme → Outcome
  | .instructions, g, [] => .returned YYACCEPT g
  | _, g, [] => .returned YYABORT { g with yynerrs := g.yynerrs + 1 }
  | stack, g, l :: ls =>
    if l.TooLarge then .exited
    else match l.action with
      | .skip => yyparse stack g ls
      | .errorLexico =>
        if g.yylexerrs + 1 < 2 ^ 31 then yyparse stack { g with yylexerrs := g.yylexerrs + 1 } ls
        else .undefined
      | .token t =>
        match shift stack t with
        | none => .returned YYABORT { g with yynerrs := g.yynerrs + 1 }
        | some (stack, x) =>
          yyparse stack
            { g with inputFileCommands := g.inputFileCommands ++ x.toList.flatMap request } ls

/-- `on_send_instructions`: a program is sent if its bytes can be counted with an `int`; the console
does not survive `new_buffer` with more. -/
def onSendInstructions (instructions : List Cpu.Cycle.Instruction) :
    Option (List Cpu.Cycle.Instruction) :=
  if 4 + 12 * instructions.length < 2 ^ 31 then some instructions else none

/-- `on_run`: the list of instructions it sends, if it sends one; `none` is no defined run. -/
def onRun (file : List UInt8) : Option (Option (List Cpu.Cycle.Instruction)) :=
  match yyparse .start ⟨0, 0, []⟩ (yylex file) with
  | .undefined => none
  | .exited => some none
  | .returned code g =>
    if g.yynerrs = 0 ∧ g.yylexerrs = 0 then
      if code = YYACCEPT then
        if g.inputFileCommands = [] then some none
        else some (onSendInstructions g.inputFileCommands)
      else some none
    else some none

/-! ### What a file should transmit -/

def tokens (actions : List Action) : List Token :=
  actions.filterMap fun
    | .token t => some t
    | _ => none

def Compiles (file : List UInt8) (xs : List Statement) : Prop :=
  ∃ ls, Splits scanner file ls ∧ (∀ l ∈ ls, action l.1 l.2 ≠ .errorLexico) ∧
    Instructions (tokens (ls.map fun l => action l.1 l.2)) xs

def Transmits (file : List UInt8) (prog : List Cpu.Cycle.Instruction) : Prop :=
  ∃ xs, Compiles file xs ∧ (∀ x ∈ xs, Fits x) ∧ prog = xs.flatMap meaning ∧ prog ≠ []

def Exact (file : List UInt8) : Prop :=
  ∃ sent, onRun file = some sent ∧ ∀ prog, sent = some prog ↔ Transmits file prog

/-! ### The parser's result -/

variable {stack : Stack} {g : Globals} {ls : List Lexeme} {file : List UInt8}
  {xs ys : List Statement} {prog : List Cpu.Cycle.Instruction}

@[simp] lemma tokens_nil : tokens [] = [] := rfl
@[simp] lemma tokens_skip (as : List Action) : tokens (.skip :: as) = tokens as := rfl
@[simp] lemma tokens_errorLexico (as : List Action) : tokens (.errorLexico :: as) = tokens as := rfl
@[simp] lemma tokens_token (t : Token) (as : List Action) :
    tokens (.token t :: as) = t :: tokens as := rfl

def Accepts (o : Outcome) (prog : List Cpu.Cycle.Instruction) : Prop :=
  o = .returned YYACCEPT ⟨0, 0, prog⟩

lemma accepts_yyparse_nil_iff : Accepts (yyparse stack g []) prog ↔
    g.yynerrs = 0 ∧ g.yylexerrs = 0 ∧ stack = .instructions ∧ prog = g.inputFileCommands := by
  by_cases hstack : stack = .instructions
  · subst hstack
    obtain ⟨lex, syn, cmds⟩ := g
    simp only [Accepts, yyparse, Outcome.returned.injEq, Globals.mk.injEq, true_and]
    constructor
    · rintro ⟨rfl, rfl, rfl⟩
      exact ⟨rfl, rfl, rfl⟩
    · rintro ⟨rfl, rfl, rfl⟩
      exact ⟨rfl, rfl, rfl⟩
  · have habort : yyparse stack g [] =
        .returned YYABORT { g with yynerrs := g.yynerrs + 1 } := by
      cases stack <;> first | rfl | exact (hstack rfl).elim
    rw [habort, Accepts]
    constructor
    · intro h
      cases h
    · rintro ⟨-, -, heq, -⟩
      exact (hstack heq).elim

/-- The induction is on the lexemes: a lexical error stays counted, and a token is one step of the
automaton. -/
lemma accepts_yyparse_iff : Accepts (yyparse stack g ls) prog ↔
    g.yynerrs = 0 ∧ g.yylexerrs = 0 ∧ (∀ l ∈ ls, ¬ l.TooLarge) ∧
      (∀ l ∈ ls, l.action ≠ .errorLexico) ∧
      ∃ xs, feed stack (tokens (ls.map Lexeme.action)) = some (.instructions, xs) ∧
        prog = g.inputFileCommands ++ xs.flatMap request := by
  induction ls generalizing stack g with
  | nil =>
    rw [accepts_yyparse_nil_iff]
    simp only [List.not_mem_nil, false_imp_iff, implies_true, List.map_nil, tokens_nil,
      Parser.feed_nil, Option.some.injEq, Prod.mk.injEq, true_and]
    constructor
    · rintro ⟨hsyn, hlex, rfl, rfl⟩
      exact ⟨hsyn, hlex, [], ⟨rfl, rfl⟩, (List.append_nil _).symm⟩
    · rintro ⟨hsyn, hlex, xs, ⟨rfl, rfl⟩, rfl⟩
      exact ⟨hsyn, hlex, rfl, List.append_nil _⟩
  | cons l ls ih =>
    obtain ⟨act, leng⟩ := l
    simp only [List.forall_mem_cons, List.map_cons]
    by_cases hlarge : (⟨act, leng⟩ : Lexeme).TooLarge
    · -- the scanner exits
      simp [yyparse, hlarge, Accepts]
    · rw [yyparse, if_neg hlarge]
      cases act with
      | skip =>
        rw [ih]
        simp [hlarge]
      | errorLexico =>
        have hne : ¬ Accepts (if g.yylexerrs + 1 < 2 ^ 31 then
            yyparse stack { g with yylexerrs := g.yylexerrs + 1 } ls else .undefined) prog := by
          split
          · rw [ih]
            rintro ⟨-, hlex, -⟩
            exact Nat.succ_ne_zero _ hlex
          · intro h
            cases h
        constructor
        · intro h
          exact (hne h).elim
        · rintro ⟨-, -, -, ⟨hact, -⟩, -⟩
          exact (hact rfl).elim
      | token t =>
        rw [tokens_token]
        simp only [feed_cons_eq_some]
        cases hshift : shift stack t with
        | none => simp [Accepts]
        | some p =>
          obtain ⟨next, x⟩ := p
          rw [ih]
          simp [hlarge]

def errors (ls : List Lexeme) : ℕ := ls.countP (·.action = .errorLexico)

def Taken (stack : Stack) (ls : List Lexeme) : Prop :=
  (∀ l ∈ ls, ¬ l.TooLarge) ∧ (feed stack (tokens (ls.map Lexeme.action))).isSome

/-- The parse is undefined when it takes lexemes with `2 ^ 31` lexical errors among them. -/
lemma yyparse_eq_undefined_iff (hg : g.yylexerrs < 2 ^ 31) :
    yyparse stack g ls = .undefined ↔
      ∃ before behind, ls = before ++ behind ∧ Taken stack before ∧
        2 ^ 31 ≤ g.yylexerrs + errors before := by
  induction ls generalizing stack g with
  | nil =>
    constructor
    · intro h
      cases stack <;> cases h
    · rintro ⟨before, behind, heq, -, herrors⟩
      obtain ⟨rfl, rfl⟩ := List.append_eq_nil_iff.mp heq.symm
      rw [errors, List.countP_nil] at herrors
      omega
  | cons l ls ih =>
    -- no beginning without a lexeme has the errors
    have hcons : (∃ before behind, l :: ls = before ++ behind ∧ Taken stack before ∧
          2 ^ 31 ≤ g.yylexerrs + errors before) ↔
        ∃ before behind, ls = before ++ behind ∧ Taken stack (l :: before) ∧
          2 ^ 31 ≤ g.yylexerrs + errors (l :: before) := by
      constructor
      · rintro ⟨before, behind, heq, htaken, herrors⟩
        cases before with
        | nil =>
          rw [errors, List.countP_nil] at herrors
          omega
        | cons l' before =>
          obtain ⟨rfl, rfl⟩ := List.cons.inj heq
          exact ⟨before, behind, rfl, htaken, herrors⟩
      · rintro ⟨before, behind, rfl, htaken, herrors⟩
        exact ⟨l :: before, behind, rfl, htaken, herrors⟩
    rw [hcons]
    obtain ⟨act, leng⟩ := l
    simp only [Taken, List.forall_mem_cons, List.map_cons, errors, List.countP_cons]
    by_cases hlarge : (⟨act, leng⟩ : Lexeme).TooLarge
    · -- the scanner exits
      simp [yyparse, hlarge]
    · rw [yyparse, if_neg hlarge]
      cases act with
      | skip =>
        rw [ih hg]
        simp [hlarge, Taken, errors]
      | errorLexico =>
        by_cases hlast : g.yylexerrs + 1 < 2 ^ 31
        · simp only [if_pos hlast]
          rw [ih hlast]
          simp [hlarge, Taken, errors, Nat.add_assoc, Nat.add_comm]
        · simp only [if_neg hlast, true_iff]
          refine ⟨[], ls, rfl, ⟨⟨hlarge, by simp⟩, rfl⟩, ?_⟩
          simp
          omega
      | token t =>
        cases hshift : shift stack t with
        | none => simp [feed, hshift]
        | some p =>
          obtain ⟨next, x⟩ := p
          simp only [hshift]
          refine (ih ?_).trans ?_
          · exact hg
          · simp [hlarge, Taken, errors, feed, hshift]

/-! ### What the console sends -/

lemma map_action_lexemes (size : ℕ) (ls : List (Rule × List UInt8)) :
    (lexemes size ls).map Lexeme.action = ls.map fun l => action l.1 l.2 := by
  induction ls with
  | nil => rfl
  | cons l ls ih => rw [lexemes, List.map_cons, List.map_cons, ih]

lemma compiles_iff : Compiles file xs ↔ (∀ l ∈ yylex file, l.action ≠ .errorLexico) ∧
    feed .start (tokens ((yylex file).map Lexeme.action)) = some (.instructions, xs) := by
  have hmap := map_action_lexemes file.length (scanner.munch file)
  have herrors : (∀ l ∈ yylex file, l.action ≠ .errorLexico) ↔
      ∀ l ∈ scanner.munch file, action l.1 l.2 ≠ .errorLexico := by
    rw [← List.forall_mem_map (f := Lexeme.action) (P := (· ≠ Action.errorLexico)), yylex, hmap,
      List.forall_mem_map]
  rw [herrors, yylex, hmap, feed_eq_some_iff]
  constructor
  · rintro ⟨ls, hsplits, hls, hderives⟩
    rw [(splits_iff covers).mp hsplits]
    exact ⟨hls, hderives⟩
  · rintro ⟨hls, hderives⟩
    exact ⟨_, (splits_iff covers).mpr rfl, hls, hderives⟩

lemma Compiles.unique (h : Compiles file xs) (h' : Compiles file ys) : xs = ys := by
  have heq := (compiles_iff.mp h).2.symm.trans (compiles_iff.mp h').2
  simpa using heq

lemma Compiles.isConstant (h : Compiles file xs) {x : Statement} (hx : x ∈ xs) {c : List UInt8}
    (hc : c ∈ x.constants) : IsConstant c := by
  obtain ⟨ls, hsplits, -, hderives⟩ := h
  have hmem := hderives.mem_constant hx hc
  rw [tokens, List.mem_filterMap] at hmem
  obtain ⟨act, hact, htoken⟩ := hmem
  obtain ⟨⟨rule, text⟩, hl, rfl⟩ := List.mem_map.mp hact
  have hrule := hsplits.ruleOf hl
  cases rule <;> cases htoken
  exact constant_iff.mp (accepts_of_ruleOf hrule)

lemma onRun_eq_none_iff : onRun file = none ↔
    ∃ before behind, yylex file = before ++ behind ∧ Taken .start before ∧
      2 ^ 31 ≤ errors before := by
  have hundefined : yyparse .start ⟨0, 0, []⟩ (yylex file) = .undefined ↔ _ :=
    yyparse_eq_undefined_iff (by decide)
  simp only [Nat.zero_add] at hundefined
  rw [← hundefined, onRun]
  constructor
  · intro h
    split at h
    · assumption
    · cases h
    · split at h
      · split at h
        · split at h <;> cases h
        · cases h
      · cases h
  · intro h
    rw [h]

lemma onSendInstructions_eq_some_iff {l : List Cpu.Cycle.Instruction} :
    onSendInstructions l = some prog ↔ l = prog ∧ 4 + 12 * prog.length < 2 ^ 31 := by
  unfold onSendInstructions
  split
  next hsize =>
    rw [Option.some.injEq]
    exact ⟨fun h => ⟨h, h ▸ hsize⟩, And.left⟩
  next hsize =>
    refine iff_of_false (fun h => by cases h) ?_
    rintro ⟨rfl, hsmall⟩
    exact hsize hsmall

lemma onRun_eq_some_iff : onRun file = some (some prog) ↔
    Accepts (yyparse .start ⟨0, 0, []⟩ (yylex file)) prog ∧ prog ≠ [] ∧
      4 + 12 * prog.length < 2 ^ 31 := by
  rw [onRun, Accepts]
  cases yyparse .start ⟨0, 0, []⟩ (yylex file) with
  | undefined => simp
  | exited => simp
  | returned code g =>
    obtain ⟨lex, syn, cmds⟩ := g
    simp only [Outcome.returned.injEq, Globals.mk.injEq]
    constructor
    · intro h
      split at h
      next hcounts =>
        split at h
        next hcode =>
          split at h
          · cases h
          next hne =>
            obtain ⟨rfl, hsize⟩ := onSendInstructions_eq_some_iff.mp (Option.some.inj h)
            exact ⟨⟨hcode, hcounts.2, hcounts.1, rfl⟩, hne, hsize⟩
        · cases h
      · cases h
    · rintro ⟨⟨rfl, rfl, rfl, rfl⟩, hne, hsize⟩
      simpa [hne, onSendInstructions] using hsize

/-- The console sends what its actions request, of a file that compiles without a token that is
too large, and of a program that is not too large. -/
theorem onRun_sends_iff : onRun file = some (some prog) ↔
    (∀ l ∈ yylex file, ¬ l.TooLarge) ∧ 4 + 12 * prog.length < 2 ^ 31 ∧
      ∃ xs, Compiles file xs ∧ prog = xs.flatMap request ∧ prog ≠ [] := by
  rw [onRun_eq_some_iff, accepts_yyparse_iff]
  simp only [compiles_iff, List.nil_append, true_and]
  constructor
  · rintro ⟨⟨hlarge, herrors, xs, hfeed, hprog⟩, hne, hsize⟩
    exact ⟨hlarge, hsize, xs, ⟨herrors, hfeed⟩, hprog, hne⟩
  · rintro ⟨hlarge, hsize, xs, ⟨herrors, hfeed⟩, hprog, hne⟩
    exact ⟨⟨hlarge, herrors, xs, hfeed, hprog⟩, hne, hsize⟩

/-! ### When the console is exact -/

/-- No beginning of the file that the parser takes has more lexical errors than an `int` counts. -/
def ErrorsFit (file : List UInt8) : Prop :=
  ∀ before behind, yylex file = before ++ behind → Taken .start before → errors before < 2 ^ 31

structure Harmless (file : List UInt8) (xs : List Statement) : Prop where
  /-- A file with a token that is too large means nothing. -/
  tooLarge : (∃ l ∈ yylex file, l.TooLarge) → (∀ x ∈ xs, Fits x) → ∀ x ∈ xs, MeansNothing x
  /-- When the constants fit, the program does: it has 178956970 instructions at most. -/
  size : (∀ l ∈ yylex file, ¬ l.TooLarge) → (∀ x ∈ xs, Fits x) →
    4 + 12 * (xs.flatMap meaning).length < 2 ^ 31
  /-- When they do not, no action appends an instruction, or the actions append too many. -/
  unfit : (∀ l ∈ yylex file, ¬ l.TooLarge) → (¬ ∀ x ∈ xs, Fits x) →
    (∀ x ∈ xs, AppendsNothing x) ∨ 2 ^ 31 ≤ 4 + 12 * (xs.flatMap request).length

lemma countFits_of_size (hsize : 4 + 12 * (xs.flatMap meaning).length < 2 ^ 31) :
    ∀ x ∈ xs, CountFits x := by
  rintro x hx c rfl
  have hle : (meaning (.noOp c)).length ≤ (xs.flatMap meaning).length :=
    (List.sublist_flatten_of_mem (List.mem_map_of_mem hx)).length_le
  rw [meaning, List.length_replicate] at hle
  omega

lemma exact_iff_of_defined (h : onRun file ≠ none) :
    Exact file ↔ ∀ prog, onRun file = some (some prog) ↔ Transmits file prog := by
  obtain ⟨sent, hsent⟩ := Option.ne_none_iff_exists'.mp h
  constructor
  · rintro ⟨sent', hsent', hexact⟩ prog
    rw [← hexact prog, hsent', Option.some.injEq]
  · intro hall
    refine ⟨sent, hsent, fun prog => ?_⟩
    rw [← hall prog, hsent, Option.some.injEq]

lemma harmless_of_exact (h : ∀ prog, onRun file = some (some prog) ↔ Transmits file prog)
    (hxs : Compiles file xs) : Harmless file xs := by
  refine ⟨fun hlarge hfits => ?_, fun hlarge hfits => ?_, fun hlarge hfits => ?_⟩
  · rw [← flatMap_meaning_eq_nil_iff]
    by_contra hne
    obtain ⟨l, hl, hbig⟩ := hlarge
    have hsent := (h _).mpr ⟨xs, hxs, hfits, rfl, hne⟩
    exact (onRun_sends_iff.mp hsent).1 l hl hbig
  · by_cases hne : xs.flatMap meaning = []
    · rw [hne]
      decide
    · exact (onRun_sends_iff.mp ((h _).mpr ⟨xs, hxs, hfits, rfl, hne⟩)).2.1
  · rw [← flatMap_request_eq_nil_iff]
    by_contra hor
    obtain ⟨hne, hsize⟩ := not_or.mp hor
    have hsent := onRun_sends_iff.mpr ⟨hlarge, Nat.not_le.mp hsize, xs, hxs, rfl, hne⟩
    obtain ⟨ys, hys, hall, -⟩ := (h _).mp hsent
    exact hfits (hys.unique hxs ▸ hall)

lemma exact_of_harmless (h : ∀ xs, Compiles file xs → Harmless file xs) :
    onRun file = some (some prog) ↔ Transmits file prog := by
  have heq : ∀ {xs}, Compiles file xs → (∀ l ∈ yylex file, ¬ l.TooLarge) →
      (∀ x ∈ xs, Fits x) → xs.flatMap request = xs.flatMap meaning := fun hxs hlarge hfits =>
    (flatMap_request_eq_iff (fun x hx c hc => hxs.isConstant hx hc) hfits).mpr
      (countFits_of_size ((h _ hxs).size hlarge hfits))
  rw [onRun_sends_iff]
  constructor
  · rintro ⟨hlarge, hsize, xs, hxs, hprog, hne⟩
    have hfits : ∀ x ∈ xs, Fits x := by
      by_contra hfits
      rcases (h xs hxs).unfit hlarge hfits with hnothing | hmany
      · exact hne (hprog.trans (flatMap_request_eq_nil_iff.mpr hnothing))
      · rw [← hprog] at hmany
        omega
    exact ⟨xs, hxs, hfits, hprog.trans (heq hxs hlarge hfits), hne⟩
  · rintro ⟨xs, hxs, hfits, hprog, hne⟩
    have hlarge : ∀ l ∈ yylex file, ¬ l.TooLarge := by
      intro l hl hbig
      exact hne (hprog.trans
        (flatMap_meaning_eq_nil_iff.mpr ((h xs hxs).tooLarge ⟨l, hl, hbig⟩ hfits)))
    have hsize := (h xs hxs).size hlarge hfits
    rw [← hprog] at hsize
    exact ⟨hlarge, hsize, xs, hxs, hprog.trans (heq hxs hlarge hfits).symm, hne⟩

/-- **Main result.** The console is exact on a file exactly when its lexical errors can be counted
and its statements are harmless. -/
theorem exact_iff_harmless (file : List UInt8) :
    Exact file ↔ ErrorsFit file ∧ ∀ xs, Compiles file xs → Harmless file xs := by
  by_cases hdefined : onRun file = none
  · constructor
    · rintro ⟨sent, hsent, -⟩
      rw [hdefined] at hsent
      cases hsent
    · rintro ⟨herrors, -⟩
      obtain ⟨before, behind, heq, htaken, hmany⟩ := onRun_eq_none_iff.mp hdefined
      exact absurd (herrors before behind heq htaken) (by omega)
  · rw [exact_iff_of_defined hdefined]
    constructor
    · intro h
      refine ⟨fun before behind heq htaken => ?_, fun xs => harmless_of_exact h⟩
      by_contra hmany
      exact hdefined (onRun_eq_none_iff.mpr ⟨before, behind, heq, htaken, by omega⟩)
    · rintro ⟨-, h⟩ prog
      exact exact_of_harmless h

/-- `I/O 4294967296`. -/
def largeIo : List UInt8 := [73, 47, 79, 32, 52, 50, 57, 52, 57, 54, 55, 50, 57, 54]

set_option maxRecDepth 40000 in
lemma yylex_largeIo : yylex largeIo =
    [⟨.token .io, 3⟩, ⟨.skip, 1⟩,
      ⟨.token (.constant [52, 50, 57, 52, 57, 54, 55, 50, 57, 54]), 11⟩] := by
  decide +kernel

/-- The constant does not fit, and the console sends an `I/O` of zero. -/
theorem not_exact_largeIo : ¬ Exact largeIo := by
  rintro ⟨sent, hsent, hexact⟩
  have hcompiles : Compiles largeIo [.io [52, 50, 57, 52, 57, 54, 55, 50, 57, 54]] := by
    rw [compiles_iff, yylex_largeIo]
    exact ⟨by decide, rfl⟩
  have hrun : onRun largeIo = some (some [⟨.io, 0, 0⟩]) := by
    rw [onRun, yylex_largeIo]
    decide
  obtain ⟨xs, hxs, hfits, -⟩ := (hexact _).mp (Option.some.inj (hsent.symm.trans hrun))
  obtain rfl := hxs.unique hcompiles
  have hlt := hfits _ (List.mem_singleton_self _) _ (List.mem_singleton_self _)
  exact absurd hlt (by decide)

end Sski.Console.Compilation
