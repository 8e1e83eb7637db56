import Sski.Console.Yylex
import Sski.Console.Yyparse
import Sski.Wire.Packages

/-!
The console's run of a file, over the scanner and the parser as they are compiled.
-/

namespace Sski.Console.OnRun

open Sski.Console.Scanner (Action)
open Sski.Console.Parser (Stack shift)
open Sski.Console.Compilation (Lexeme Globals Outcome YYLMAX YYACCEPT onSendInstructions)

/-- What the parser gets of an action; nothing is a text that is too large. -/
def lexemeOf : Option Action → Lexeme
  | some a => ⟨a, 0⟩
  | none => ⟨.skip, YYLMAX⟩

def afterParse : Outcome → Option (Option (List Cpu.Cycle.Instruction))
  | .undefined => none
  | .exited => some none
  | .returned code g =>
    if g.yynerrs = 0 ∧ g.yylexerrs = 0 then
      if code = YYACCEPT then
        if g.inputFileCommands = [] then some none
        else some (onSendInstructions g.inputFileCommands)
      else some none
    else some none

/-- `on_run`, with as many passes as the loops may need. -/
def onRun (file : List UInt8) : Option (Option (List Cpu.Cycle.Instruction)) := do
  let actions ← Yylex.actions (4 * file.length + 4) ⟨[], file⟩ none
  let outcome ← Yyparse.yyparse (3 * actions.length + 2)
    (Yyparse.initial (actions.map lexemeOf))
  afterParse outcome

lemma onRun_compilation (file : List UInt8) : Compilation.onRun file =
    afterParse (Compilation.yyparse .start ⟨0, 0, []⟩ (Compilation.yylex file)) := by
  rw [Compilation.onRun]
  cases Compilation.yyparse .start ⟨0, 0, []⟩ (Compilation.yylex file) <;> rfl

/-- The parser does not get behind a lexeme that is too large. The induction is on the lexemes. -/
lemma yyparse_upTo (stack : Stack) (g : Globals) (ls : List Lexeme) :
    Compilation.yyparse stack g ((Yylex.upTo ls).map lexemeOf) =
      Compilation.yyparse stack g ls := by
  induction ls generalizing stack g with
  | nil => rfl
  | cons l ls ih =>
    obtain ⟨act, n⟩ := l
    rw [Yylex.upTo]
    by_cases hl : (⟨act, n⟩ : Lexeme).TooLarge
    · have hlarge : (lexemeOf none).TooLarge := Nat.le_refl _
      rw [if_pos hl, List.map_singleton, Compilation.yyparse, if_pos hlarge, Compilation.yyparse,
        if_pos hl]
    · have hpos : 0 < YYLMAX := by decide
      have hsmall : ¬ (lexemeOf (some act)).TooLarge := Nat.not_le.mpr hpos
      rw [if_neg hl, List.map_cons, Compilation.yyparse, if_neg hsmall, Compilation.yyparse,
        if_neg hl]
      cases act with
      | skip => exact ih stack g
      | errorLexico => simp only [lexemeOf, ih]
      | token t => simp only [lexemeOf, ih]

/-- **Main result.** The tables, the buffer and the stacks do with every file what the patterns, the
grammar and its actions say. -/
theorem onRun_eq (file : List UInt8) : onRun file = Compilation.onRun file := by
  have hactions : Yylex.actions (4 * file.length + 4) ⟨[], file⟩ none =
      some (Yylex.upTo (Compilation.yylex file)) :=
    (Yylex.between_start file).actions (Nat.le_refl _)
  rw [onRun, hactions]
  simp only [Option.bind_eq_bind, Option.bind_some]
  have hparse := Yyparse.yyparse_initial ((Yylex.upTo (Compilation.yylex file)).map lexemeOf)
    (Nat.le_refl _)
  rw [List.length_map] at hparse
  rw [hparse, onRun_compilation, yyparse_upTo]
  rfl

/-! ### The program as it is sent -/

/-- An instruction with the number of its code. -/
def toWire (x : Cpu.Cycle.Instruction) : Wire.Instructions.Instruction :=
  let icode := match x.icode with
    | .exit => 0
    | .read => 1
    | .write => 2
    | .noOp => 3
    | .io => 4
    | .copy => 5
    | .noInstruction => 6
  ⟨icode, x.param0, x.param1⟩

/-- The programs that are sent are those whose bytes `enviar_stream` sends. -/
theorem onSendInstructions_iff_wire (heap heap' : Wire.Instructions.Heap)
    {l : List Cpu.Cycle.Instruction} (hl : l.length < 2 ^ 31) :
    (onSendInstructions l).isSome ↔
      (Wire.Packages.onSendInstructions heap heap' (l.map toWire)).isSome := by
  rw [Wire.Packages.onSendInstructions_isSome_iff heap heap' (by rwa [List.length_map]),
    List.length_map, Wire.Instructions.instructionSize, onSendInstructions]
  split <;> simp_all

end Sski.Console.OnRun
