import Sski.Console.Compilation
import Sski.Console.Tables

/-!
The scanner that `flex` made of `console.l`, as it stands in `scanner.c`: the loop of `yylex` over
its buffer, which is filled from the file block by block.

Both characters behind the buffer's last are zero, and so may a byte of the file be. At a zero the
scanner stops as if the buffer ended there, and finds out which of the two it was.
-/

namespace Sski.Console.Yylex

open Sski.Lib.Munch Sski.Lib.Automaton
open Sski.Console.Scanner Sski.Console.Tables
open Sski.Console.Compilation (YYLMAX YY_READ_BUF_SIZE Lexeme lexemes)

/-! ### The scanner -/

/-- The buffer from `yytext_ptr` on, and the rest of the file. -/
structure Buffer where
  ahead : List UInt8
  unread : List UInt8
  deriving DecidableEq, Repr

def YY_BUF_SIZE : ℕ := 16384

def YY_END_OF_BUFFER : ℕ := 12

def nextState (state yyC : ℕ) : ℕ := (yyNext state yyC).getD jamState

/-- `yy_last_accepting_state` and `yy_last_accepting_cpos`. -/
abbrev Last := Option (ℕ × ℕ)

def noted (state : ℕ) (last : Last) (cp : ℕ) : Last :=
  if yyAccept[state]? = some 0 then last else some (state, cp)

/-- The loop at `yy_match`. -/
def yyMatch (state : ℕ) (last : Last) (cp : ℕ) : List UInt8 → ℕ × Last × ℕ
  | [] => (state, last, cp)
  | b :: buf =>
    let last := noted state last cp
    let state := nextState state ((yyEc[b.toNat]?).getD 0)
    if yyBase[state]? = some jamBase then (state, last, cp + 1)
    else yyMatch state last (cp + 1) buf

def previousState (state : ℕ) (last : Last) (cp : ℕ) : List UInt8 → ℕ × Last
  | [] => (state, last)
  | b :: text => previousState (nextState state (yyC b)) (noted state last cp) (cp + 1) text

/-- `yy_get_previous_state`, over the text that is matched. -/
def yyGetPreviousState (text : List UInt8) (last : Last) : ℕ × Last :=
  previousState 1 last 0 text

/-- Where `yylex` is: at one of its labels, or done with a lexeme, with the file or with all. -/
inductive At
  | yyMatch (b : Buffer) (state : ℕ) (last : Last) (cp : ℕ)
  | yyFindAction (b : Buffer) (state : ℕ) (last : Last) (cp : ℕ)
  | lexeme (act : ℕ) (text : List UInt8) (b : Buffer) (last : Last)
  | eof
  | exited
  deriving DecidableEq, Repr

/-- `yy_try_NUL_trans`, and what `yylex` does with its result. -/
def yyTryNulTrans (b : Buffer) (state : ℕ) (last : Last) (cp : ℕ) : At :=
  let last := noted state last cp
  let next := nextState state 1
  if next = jamState then .yyFindAction b state last cp else .yyMatch b next last (cp + 1)

/-- `yy_get_next_buffer`, and what `yylex` does with its result. It has no result where the buffer
would have to grow. -/
def yyGetNextBuffer (b : Buffer) (last : Last) (numberToMove : ℕ) : Option At :=
  if b.ahead.length < numberToMove then some .exited
  else if YY_BUF_SIZE ≤ numberToMove + 1 then none
  else
    let numToRead := min (YY_BUF_SIZE - numberToMove - 1) YY_READ_BUF_SIZE
    let moved := b.ahead.take numberToMove
    let (state, last') := yyGetPreviousState moved last
    if b.unread.take numToRead = [] then
      if numberToMove = 0 then some .eof
      else some (.yyFindAction ⟨moved, []⟩ state last' numberToMove)
    else
      some (.yyMatch ⟨moved ++ b.unread.take numToRead, b.unread.drop numToRead⟩ state last'
        numberToMove)

def endOfBuffer (b : Buffer) (last : Last) (cp : ℕ) : Option At :=
  if cp ≤ b.ahead.length then
    let (state, last) := yyGetPreviousState (b.ahead.take (cp - 1)) last
    some (yyTryNulTrans b state last (cp - 1))
  else yyGetNextBuffer b last (cp - 1)

def found (state : ℕ) (last : Last) (cp : ℕ) : Option (ℕ × ℕ) :=
  if yyAccept[state]? = some 0 then last.bind fun p => (yyAccept[p.1]?).map fun act => (act, p.2)
  else (yyAccept[state]?).map fun act => (act, cp)

/-- `yy_find_action`, with `YY_DO_BEFORE_ACTION`. -/
def yyFindAction (b : Buffer) (state : ℕ) (last : Last) (cp : ℕ) : Option At := do
  let (act, cp) ← found state last cp
  if YYLMAX ≤ cp then some .exited
  else if act = YY_END_OF_BUFFER then endOfBuffer b last cp
  else some (.lexeme act (b.ahead.take cp) { b with ahead := b.ahead.drop cp } last)

/-- One lexeme, within so many passes over the labels. -/
def scan : ℕ → At → Option At
  | 0, _ => none
  | fuel + 1, .yyMatch b state last cp =>
    let (state, last, cp) := yyMatch state last cp (b.ahead.drop cp ++ [0, 0])
    scan fuel (.yyFindAction b state last cp)
  | fuel + 1, .yyFindAction b state last cp =>
    match yyFindAction b state last cp with
    | some at' => scan fuel at'
    | none => none
  | _ + 1, at' => some at'

/-- The actions of all lexemes; nothing stands for the scanner's end of the program. What a lexeme
leaves noted, the next one finds. -/
def actions : ℕ → Buffer → Last → Option (List (Option Action))
  | 0, _, _ => none
  | fuel + 1, b, last =>
    match scan (fuel + 1) (.yyMatch b 1 last 0) with
    | some (.lexeme act text b last) =>
      match ruleOfAct act, actions fuel b last with
      | some r, some as => some (some (action r text) :: as)
      | _, _ => none
    | some .eof => some []
    | some .exited => some [none]
    | _ => none

/-! ### The tables -/

def Kept (s : ℕ) : Prop :=
  (yyAccept[s]? = some 0 ↔ accepted s = none) ∧ (yyAccept[s]?).isSome = true ∧
    yyNext s 0 = some 3

instance (s : ℕ) : Decidable (Kept s) := inferInstanceAs (Decidable (_ ∧ _))

lemma kept : ∀ s ∈ states, Kept s := by
  decide +kernel

/-- The state of the end of the buffer goes on to the one that jams. -/
lemma next_endOfBuffer : ∀ c ∈ List.range' 0 35, yyNext 3 c = some jamState := by
  decide +kernel

def level : ℕ → List ℕ
  | 0 => [1]
  | 1 => List.range' 4 10
  | 2 => 14 :: List.range' 15 8 ++ [37]
  | 3 => [14, 15, 16, 23, 24, 25, 26, 27, 28, 29, 37]
  | 4 => [14, 15, 16, 23, 30, 31, 32, 33, 34, 37]
  | 5 => [14, 15, 16, 23, 35, 36, 37]
  | _ => [14, 15, 16, 23, 37]

lemma level_next : ∀ n ∈ List.range' 0 7, ∀ s ∈ level n, ∀ c ∈ List.range' 1 34,
    nextState s c ∈ level (n + 1) := by
  decide +kernel

/-- Behind the keywords the scanner is in a space or in a constant, or it has jammed. -/
lemma level_six : ∀ s ∈ level 6, s = jamState ∨
    (accepted s).isSome = true ∧ yyBase[s]? ≠ some jamBase := by
  decide

/-! ### The loops and the automaton -/

variable {file done rest w : List UInt8} {b : Buffer} {last : Last} {s cp : ℕ} {c : UInt8}
  {buf : List UInt8}

def state (w : List UInt8) : ℕ := automaton.run automaton.start w

lemma state_mem (w : List UInt8) : state w ∈ states := (labelled.label_run w).1

lemma state_concat (w : List UInt8) (c : UInt8) :
    state (w ++ [c]) = nextState (state w) (yyC c) :=
  automaton.run_concat _ w c

lemma noted_eq (hs : s ∈ states) : noted s last cp = automaton.noted s last cp := by
  have haccept := (kept s hs).1
  rw [noted, Automaton.noted]
  cases hrule : accepted s with
  | none => simp [automaton, hrule, haccept.mpr hrule]
  | some r =>
    have hne : ¬ yyAccept[s]? = some 0 := by
      rw [haccept, hrule]
      simp
    simp [automaton, hrule, hne]

lemma previousState_eq (done w : List UInt8) :
    previousState (state done) last cp w = automaton.previous (state done) last cp w := by
  induction w generalizing done last cp with
  | nil => rfl
  | cons c w ih =>
    rw [previousState, Automaton.previous, noted_eq (state_mem done), ← state_concat, ih,
      state_concat]
    rfl

lemma yyGetPreviousState_eq (text : List UInt8) (last : Last) :
    ∃ last', yyGetPreviousState text last = (state text, last') ∧
      Noted automaton scanner text last' := by
  have hnil : Noted automaton scanner [] last := fun h => absurd h (by simp)
  obtain ⟨last', heq, hlast'⟩ := recognizes.previous covers hnil text
  exact ⟨last', (previousState_eq [] text).trans heq, hlast'⟩

lemma yyMatch_cons (hs : s ∈ states) (hc : c ≠ 0) : yyMatch s last cp (c :: buf) =
    if automaton.stops (nextState s (yyC c)) = true then
      (nextState s (yyC c), automaton.noted s last cp, cp + 1)
    else yyMatch (nextState s (yyC c)) (automaton.noted s last cp) (cp + 1) buf := by
  have hclass : (yyEc[c.toNat]?).getD 0 = yyC c := by rw [yyC, if_neg hc]
  rw [yyMatch, hclass, noted_eq hs]
  simp [automaton]

/-- The scanner at a zero: the next character, whatever it is, makes it jam. -/
lemma yyMatch_zero (hs : s ∈ states) :
    yyMatch s last cp (0 :: c :: buf) = (jamState, some (3, cp + 1), cp + 2) := by
  have hzero : nextState s ((yyEc[(0 : UInt8).toNat]?).getD 0) = 3 := by
    have hnext := (kept s hs).2.2
    change nextState s 0 = 3
    rw [nextState, hnext, Option.getD_some]
  have hjam : nextState 3 ((yyEc[c.toNat]?).getD 0) = jamState := by
    have hmem : (yyEc[c.toNat]?).getD 0 ∈ List.range' 0 35 := by
      by_cases hc : c = 0
      · subst hc
        decide
      · have hclass : (yyEc[c.toNat]?).getD 0 = yyC c := by rw [yyC, if_neg hc]
        have := List.mem_range'_1.mp (class_mem c)
        rw [hclass, List.mem_range'_1]
        omega
    rw [nextState, next_endOfBuffer _ hmem, Option.getD_some]
  rw [yyMatch, hzero]
  simp only [show ¬ yyBase[3]? = some jamBase by decide, if_false]
  rw [yyMatch, hjam]
  simp [show yyBase[jamState]? = some jamBase by decide, noted,
    show ¬ yyAccept[3]? = some 0 by decide]

/-- How the loop at `yy_match` ends: in a state that stops, or behind a zero. -/
inductive Matched (done w : List UInt8) : ℕ × Last × ℕ → Prop
  | stops (u v : List UInt8) (last : Last) (hw : w = u ++ v) (hne : u ≠ []) (hzero : 0 ∉ u)
      (hstops : automaton.stops (state (done ++ u)) = true)
      (hlast : Noted automaton scanner (done ++ u) last) :
      Matched done w (state (done ++ u), last, (done ++ u).length)
  | zero (u v : List UInt8) (hw : w = u ++ v) (hzero : 0 ∉ u) (hv : v = [] ∨ v.head? = some 0)
      (halive : state (done ++ u) ≠ jamState) :
      Matched done w (jamState, some (3, (done ++ u).length + 1), (done ++ u).length + 2)

lemma Matched.cons {x : ℕ × Last × ℕ} (hc : c ≠ 0) (h : Matched (done ++ [c]) w x) :
    Matched done (c :: w) x := by
  cases h with
  | stops u v last hw hne hzero hstops hlast =>
    rw [List.append_assoc, List.singleton_append] at hstops hlast ⊢
    exact .stops (c :: u) v last (by rw [hw]; rfl) (by simp) (by simp [hc.symm, hzero]) hstops hlast
  | zero u v hw hzero hv halive =>
    rw [List.append_assoc, List.singleton_append] at halive ⊢
    exact .zero (c :: u) v (by rw [hw]; rfl) (by simp [hc.symm, hzero]) hv halive

lemma stops_jamState : automaton.stops jamState = true := by
  decide

/-- The induction is on what is left of the buffer. -/
theorem yyMatch_matched (halive : state done ≠ jamState)
    (hlast : Noted automaton scanner done last) :
    Matched done w (yyMatch (state done) last done.length (w ++ [0, 0])) := by
  induction w generalizing done last with
  | nil =>
    rw [List.nil_append, yyMatch_zero (state_mem done)]
    have hnil : state (done ++ []) ≠ jamState := by rwa [List.append_nil]
    have h : Matched done [] _ := .zero [] [] rfl (by simp) (.inl rfl) hnil
    rwa [List.append_nil] at h
  | cons c w ih =>
    by_cases hc : c = 0
    · subst hc
      have hrest : (0 :: w) ++ [0, 0] = 0 :: (w ++ [0, 0]) := rfl
      obtain ⟨c, buf, hbuf⟩ : ∃ c buf, w ++ [0, 0] = c :: buf :=
        List.exists_cons_of_ne_nil (by simp)
      rw [hrest, hbuf, yyMatch_zero (state_mem done)]
      have hnil : state (done ++ []) ≠ jamState := by rwa [List.append_nil]
      have h : Matched done (0 :: w) _ := .zero [] (0 :: w) rfl (by simp) (.inr rfl) hnil
      rwa [List.append_nil] at h
    · have hlast' := recognizes.noted_concat covers hlast c
      have hlen : (done ++ [c]).length = done.length + 1 := by simp
      rw [List.cons_append, yyMatch_cons (state_mem done) hc, ← state_concat, ← hlen]
      split
      · rename_i hstops
        exact .stops [c] w _ rfl (by simp) (by simp [Ne.symm hc]) hstops hlast'
      · rename_i hstops
        refine (ih (fun hjam => hstops ?_) hlast').cons hc
        rw [hjam]
        exact stops_jamState

/-! ### Long words -/

lemma state_mem_level (w : List UInt8) (hw : w.length ≤ 6) : state w ∈ level w.length := by
  induction w using List.reverseRecOn with
  | nil => exact List.mem_singleton_self _
  | append_singleton w c ih =>
    rw [List.length_append, List.length_singleton] at hw ⊢
    rw [state_concat]
    exact level_next _ (by rw [List.mem_range'_1]; omega) _ (ih (by omega)) _ (class_mem c)

lemma state_mem_level_six (hw : 6 ≤ w.length) : state w ∈ level 6 := by
  induction w using List.reverseRecOn with
  | nil => simp at hw
  | append_singleton w c ih =>
    rw [List.length_append, List.length_singleton] at hw
    rcases Nat.lt_or_ge w.length 6 with hlt | hge
    · have hlen : (w ++ [c]).length = 6 := by
        rw [List.length_append, List.length_singleton]
        omega
      exact hlen ▸ state_mem_level (w ++ [c]) hlen.le
    · rw [state_concat]
      exact level_next 6 (by decide) _ (ih hge) _ (class_mem c)

/-- A word that is longer than the keywords and can go on is a match. -/
lemma isSome_ruleOf (hw : 6 ≤ w.length) (halive : state w ≠ jamState) :
    (scanner.ruleOf w).isSome := by
  have hne : w ≠ [] := List.ne_nil_of_length_pos (by omega)
  rw [← recognizes.accepts w hne]
  exact ((level_six _ (state_mem_level_six hw)).resolve_left halive).1

lemma eq_jamState_of_stops (hw : 6 ≤ w.length) (hstops : automaton.stops (state w) = true) :
    state w = jamState := by
  refine (level_six _ (state_mem_level_six hw)).resolve_right fun h => h.2 ?_
  simpa [automaton] using hstops

/-- The longest match is no shorter than such a word. -/
lemma length_le_of_longest {r : Rule} {k : ℕ} (hfront : w <+: rest) (hw : 6 ≤ w.length)
    (halive : state w ≠ jamState) (h : scanner.longest rest rest.length = some (r, k)) :
    w.length ≤ k := by
  by_contra hlt
  obtain ⟨-, -, -, hlonger⟩ := longest_eq_some_iff.mp h
  have htake : rest.take w.length = w := List.prefix_iff_eq_take.mp hfront |>.symm
  have hnone := hlonger w.length (by omega) hfront.length_le
  have hsome := isSome_ruleOf hw halive
  rw [htake] at hnone
  rw [hnone] at hsome
  cases hsome

lemma state_jam (hjam : state w = jamState) (v : List UInt8) : state (w ++ v) = jamState := by
  rw [state, Automaton.run_append]
  exact (congrArg (automaton.run · v) hjam).trans (run_jamState v)

/-! ### The buffer -/

/-- The buffer between two lexemes: it ends with a block, and what is before its last block has
been looked at. -/
structure Between (file done : List UInt8) (b : Buffer) : Prop where
  split : file = done ++ b.ahead ++ b.unread
  blocks : b.unread = [] ∨ YY_READ_BUF_SIZE ∣ (done ++ b.ahead).length
  borders : ∀ m, YY_READ_BUF_SIZE ∣ m → m < (done ++ b.ahead).length → m < done.length + 6

/-- The buffer within a lexeme of which a word is read: where a zero or the end of a block was
passed, the lexeme was not too large. -/
structure Within (file done w : List UInt8) (b : Buffer) : Prop where
  split : file = done ++ b.ahead ++ b.unread
  blocks : b.unread = [] ∨ YY_READ_BUF_SIZE ∣ (done ++ b.ahead).length
  front : w <+: b.ahead
  alive : state w ≠ jamState
  zeros : ∀ j, w[j]? = some 0 → j + 1 < YYLMAX
  borders : ∀ m, YY_READ_BUF_SIZE ∣ m → m < (done ++ b.ahead).length →
    m < done.length + 6 ∨ (m ≤ done.length + w.length ∧ m + 1 < done.length + YYLMAX)

lemma Between.within (h : Between file done b) : Within file done [] b where
  split := h.split
  blocks := h.blocks
  front := List.nil_prefix
  alive := by decide
  zeros := fun j hj => by simp at hj
  borders := fun m hm hlt => .inl (h.borders m hm hlt)

inductive Result (file done rest : List UInt8) : At → Prop
  | lexeme {act : ℕ} {r : Rule} {text : List UInt8} {b : Buffer} {last : Last}
      (hact : ruleOfAct act = some r) (hnext : Next scanner rest r text (b.ahead ++ b.unread))
      (hsmall : Compilation.yyleng file.length text (b.ahead ++ b.unread) < YYLMAX)
      (hbetween : Between file (done ++ text) b) : Result file done rest (.lexeme act text b last)
  | eof (hrest : rest = []) : Result file done rest .eof
  | exited {r : Rule} {text behind : List UInt8} (hnext : Next scanner rest r text behind)
      (hlarge : YYLMAX ≤ Compilation.yyleng file.length text behind) : Result file done rest .exited

lemma next_of_longest {r : Rule} {k : ℕ} (h : scanner.longest rest rest.length = some (r, k)) :
    Next scanner rest r (rest.take k) (rest.drop k) := by
  rw [← next_eq_some_iff, Scanner.next, h]
  rfl

/-! ### One lexeme -/

lemma found_eq {r : Rule} {k : ℕ} (hs : s ∈ states)
    (h : automaton.ruleAt (automaton.noted s last cp) = some (r, k)) :
    ∃ act, found s last cp = some (act, k) ∧ ruleOfAct act = some r := by
  have haccept := (kept s hs).1
  -- the rule of a state is that of its action
  have hact : ∀ s', accepted s' = some r → ∃ act, yyAccept[s']? = some act ∧
      ruleOfAct act = some r := fun s' hs' => Option.bind_eq_some_iff.mp hs'
  rw [Automaton.noted] at h
  split at h
  · rename_i hsome
    obtain ⟨r', hr', hp⟩ := Option.map_eq_some_iff.mp h
    obtain ⟨rfl, rfl⟩ := Prod.mk.inj hp
    obtain ⟨act, hget, hrule⟩ := hact s hr'
    refine ⟨act, ?_, hrule⟩
    have hne : ¬ yyAccept[s]? = some 0 := by
      rw [haccept, show accepted s = some r' from hr']
      simp
    rw [found, if_neg hne, hget]
    rfl
  · rename_i hnone
    have hnone : accepted s = none := by simpa [automaton] using hnone
    rw [Automaton.ruleAt, Option.bind_eq_some_iff] at h
    obtain ⟨⟨s', k'⟩, rfl, h⟩ := h
    obtain ⟨r', hr', hp⟩ := Option.map_eq_some_iff.mp h
    obtain ⟨rfl, rfl⟩ := Prod.mk.inj hp
    obtain ⟨act, hget, hrule⟩ := hact s' hr'
    refine ⟨act, ?_, hrule⟩
    rw [found, if_pos (haccept.mpr hnone), Option.bind_some, hget]
    rfl

lemma exists_longest (hne : w ≠ []) : ∃ r k, scanner.longest w w.length = some (r, k) := by
  obtain ⟨r, text, behind, hnext⟩ := covers.exists_next hne
  have h := next_eq_some_iff.mpr hnext
  rw [Scanner.next, Option.map_eq_some_iff] at h
  obtain ⟨⟨r', k⟩, hk, -⟩ := h
  exact ⟨r', k, hk⟩

lemma Within.yyFindAction {w' : List UInt8} (h : Within file done w' b)
    (hw : w <+: b.ahead) (hne : w ≠ [])
    (hlast : automaton.ruleAt (automaton.noted (state w) last w.length) =
      scanner.longest w w.length)
    (hlongest : scanner.longest (b.ahead ++ b.unread) (b.ahead ++ b.unread).length =
      scanner.longest w w.length)
    (hcalm : ∀ r k, scanner.longest w w.length = some (r, k) → k + 1 = YYLMAX →
      k < w.length ∧ w[k]? ≠ some 0 ∧ ¬ YY_READ_BUF_SIZE ∣ done.length + k) :
    ∃ at', yyFindAction b (state w) last w.length = some at' ∧
      Result file done (b.ahead ++ b.unread) at' := by
  obtain ⟨r, k, hk⟩ := exists_longest hne
  have hkw : k ≤ w.length := (longest_eq_some_iff.mp hk).2.1
  have hka : k ≤ b.ahead.length := hkw.trans hw.length_le
  obtain ⟨act, hfound, hact⟩ := found_eq (state_mem w) (hlast.trans hk)
  have hnext := next_of_longest (hlongest.trans hk)
  rw [List.take_append_of_le_length hka, List.drop_append_of_le_length hka] at hnext
  have hlen : (b.ahead.take k).length = k := List.length_take_of_le hka
  rw [Yylex.yyFindAction, hfound]
  simp only [Option.bind_eq_bind, Option.bind_some]
  by_cases hlarge : YYLMAX ≤ k
  · refine ⟨.exited, if_pos hlarge, .exited hnext ?_⟩
    rw [Compilation.yyleng, hlen]
    split <;> omega
  · have hne12 : act ≠ YY_END_OF_BUFFER := by
      rintro rfl
      cases hact
    refine ⟨_, by rw [if_neg hlarge, if_neg hne12], .lexeme hact hnext ?_ ?_⟩
    · rw [Compilation.yyleng, hlen]
      split
      · rename_i hcond
        by_contra hge
        obtain ⟨hlt, hzero, hborder⟩ := hcalm r k hk (by omega)
        have hget : b.ahead[k]? = w[k]? := by
          obtain ⟨v, hv⟩ := hw
          rw [← hv, List.getElem?_append_left hlt]
        have hhead : (b.ahead.drop k ++ b.unread).head? = w[k]? := by
          rw [List.head?_append, List.head?_drop, hget, List.getElem?_eq_getElem hlt]
          rfl
        rcases hcond with hnil | hhead' | hmod
        · rw [hnil, List.getElem?_eq_getElem hlt] at hhead
          cases hhead
        · exact hzero (hhead.symm.trans hhead')
        · refine hborder (Nat.dvd_of_mod_eq_zero ?_)
          rw [h.split] at hmod
          simp only [List.length_append, List.length_drop] at hmod
          rwa [show done.length + b.ahead.length + b.unread.length -
            (b.ahead.length - k + b.unread.length) = done.length + k by omega] at hmod
      · omega
    · have hdone : done ++ b.ahead.take k ++ b.ahead.drop k = done ++ b.ahead := by
        rw [List.append_assoc, List.take_append_drop]
      refine ⟨by rw [hdone]; exact h.split, by rw [hdone]; exact h.blocks, fun m hm hlt => ?_⟩
      rw [hdone] at hlt
      rw [List.length_append, hlen]
      rcases h.borders m hm hlt with hlow | ⟨hread, -⟩
      · omega
      · rcases Nat.lt_or_ge w'.length 6 with hshort | hlong
        · omega
        · have hfront : w' <+: b.ahead ++ b.unread := h.front.trans (List.prefix_append _ _)
          have := length_le_of_longest hfront hlong h.alive (hlongest.trans hk)
          omega

/-- What is left to be read, and what of the rest is not looked at. -/
def left (b : Buffer) (w : List UInt8) : ℕ :=
  b.unread.length + ((b.ahead ++ b.unread).length - w.length)

/-- What `yylex` does where a zero makes it stop: it is done with the lexeme, or with a word of it,
or it goes on behind it. -/
inductive Goes (file done rest : List UInt8) (n : ℕ) : At → Prop
  | ends {at' : At} (h : Result file done rest at') : Goes file done rest n at'
  | finds {b : Buffer} {s : ℕ} {last : Last} {cp : ℕ}
      (h : ∃ at', yyFindAction b s last cp = some at' ∧ Result file done rest at') :
      Goes file done rest n (.yyFindAction b s last cp)
  | goes {b : Buffer} {w : List UInt8} {last : Last} (hwithin : Within file done w b)
      (hlast : Noted automaton scanner w last) (hrest : b.ahead ++ b.unread = rest)
      (hleft : left b w < n) : Goes file done rest n (.yyMatch b (state w) last w.length)

/-- Behind a zero at which the word did not get too large. -/
lemma Within.append {u v : List UInt8} (h : Within file done w b) (hahead : b.ahead = w ++ u ++ v)
    (hzero : 0 ∉ u) (halive : state (w ++ u) ≠ jamState) : Within file done (w ++ u) b where
  split := h.split
  blocks := h.blocks
  front := ⟨v, hahead.symm⟩
  alive := halive
  zeros := by
    intro j hj
    rcases Nat.lt_or_ge j w.length with hlt | hge
    · rw [List.getElem?_append_left hlt] at hj
      exact h.zeros j hj
    · rw [List.getElem?_append_right hge] at hj
      exact (hzero (List.mem_of_getElem? hj)).elim
  borders := by
    intro m hm hlt
    rcases h.borders m hm hlt with hlow | ⟨hread, hsmall⟩
    · exact .inl hlow
    · refine .inr ⟨?_, hsmall⟩
      rw [List.length_append]
      omega

/-- The word is all that can be matched. -/
lemma Within.found_all (h : Within file done w b) (hne : w ≠ []) (hsmall : w.length + 1 < YYLMAX)
    {last : Last}
    (hlast : automaton.ruleAt (automaton.noted (state w) last w.length) =
      scanner.longest w w.length)
    (hlongest : scanner.longest (b.ahead ++ b.unread) (b.ahead ++ b.unread).length =
      scanner.longest w w.length) :
    ∃ at', Yylex.yyFindAction b (state w) last w.length = some at' ∧
      Result file done (b.ahead ++ b.unread) at' := by
  refine h.yyFindAction h.front hne hlast hlongest fun r k hk heq => ?_
  have := (longest_eq_some_iff.mp hk).2.1
  omega

lemma noted_noted (s : ℕ) (last : Last) (cp : ℕ) :
    automaton.noted s (automaton.noted s last cp) cp = automaton.noted s last cp := by
  simp only [Automaton.noted]
  split <;> rfl

lemma Within.nul {v : List UInt8} (h : Within file done w b) (hahead : b.ahead = w ++ 0 :: v)
    (hsmall : w.length + 1 < YYLMAX) (hlast : Noted automaton scanner w last) :
    Goes file done (b.ahead ++ b.unread) (left b w)
      (yyTryNulTrans b (state w) last w.length) := by
  have hnext : nextState (state w) 1 = state (w ++ [0]) := (state_concat w 0).symm
  have hrest : b.ahead ++ b.unread = w ++ [0] ++ (v ++ b.unread) := by
    rw [hahead]
    simp
  rw [yyTryNulTrans, noted_eq (state_mem w), hnext]
  by_cases hjam : state (w ++ [0]) = jamState
  · -- no match goes on over the zero
    rw [if_pos hjam]
    have hne : w ≠ [] := by
      rintro rfl
      exact absurd hjam (by decide)
    have hdead : ∀ v, scanner.ruleOf (w ++ [0] ++ v) = none := by
      intro v
      rw [← recognizes.accepts _ (by simp)]
      have hstate := state_jam hjam v
      rw [state] at hstate
      rw [hstate]
      decide
    have hlongest : scanner.longest (b.ahead ++ b.unread) (b.ahead ++ b.unread).length =
        scanner.longest w w.length := by
      rw [hrest, longest_of_dead (fun v _ => hdead v), List.length_append, List.length_singleton,
        Scanner.longest, List.take_of_length_le (by simp)]
      have hnone := hdead []
      rw [List.append_nil] at hnone
      rw [hnone]
      exact longest_append _ _ _ _ (Nat.le_refl _)
    refine .finds (h.found_all hne hsmall ?_ hlongest)
    rw [noted_noted]
    exact recognizes.ruleAt_noted covers hne hlast
  · rw [if_neg hjam]
    have hlen : (w ++ [(0 : UInt8)]).length = w.length + 1 := by simp
    rw [← hlen]
    refine .goes ⟨h.split, h.blocks, ⟨v, by rw [hahead]; simp⟩, hjam, ?_, ?_⟩
      (recognizes.noted_concat covers hlast 0) rfl ?_
    · intro j hj
      rcases Nat.lt_or_ge j w.length with hlt | hge
      · rw [List.getElem?_append_left hlt] at hj
        exact h.zeros j hj
      · have hj := (List.getElem?_eq_some_iff.mp hj).1
        rw [hlen] at hj
        omega
    · intro m hm hlt
      rcases h.borders m hm hlt with hlow | ⟨hread, hsmall'⟩
      · exact .inl hlow
      · exact .inr ⟨by omega, hsmall'⟩
    · rw [left, left, hlen, hrest]
      simp only [List.length_append, List.length_singleton]
      omega

lemma Within.yyGetNextBuffer (h : Within file done w b) (hahead : b.ahead = w)
    (hsmall : w.length + 1 < YYLMAX) (last : Last) :
    ∃ at', Yylex.yyGetNextBuffer b last w.length = some at' ∧
      Goes file done (b.ahead ++ b.unread) (left b w) at' := by
  obtain ⟨last', hprevious, hlast'⟩ := yyGetPreviousState_eq w last
  have hroom : min (YY_BUF_SIZE - w.length - 1) YY_READ_BUF_SIZE = YY_READ_BUF_SIZE := by
    rw [YYLMAX] at hsmall
    rw [YY_BUF_SIZE, YY_READ_BUF_SIZE]
    omega
  have hgrow : ¬ YY_BUF_SIZE ≤ w.length + 1 := by
    rw [YYLMAX] at hsmall
    rw [YY_BUF_SIZE]
    omega
  have hmoved : b.ahead.take w.length = w := by rw [hahead, List.take_length]
  rw [Yylex.yyGetNextBuffer, if_neg (by rw [hahead]; omega), if_neg hgrow, hroom]
  simp only [hmoved, hprevious]
  by_cases hnil : b.unread.take YY_READ_BUF_SIZE = []
  · -- the end of the file
    rw [if_pos hnil]
    have hunread : b.unread = [] := by
      rw [List.take_eq_nil_iff] at hnil
      exact hnil.resolve_left (by decide)
    have hb : b = ⟨w, []⟩ := by
      obtain ⟨ahead, unread⟩ := b
      exact congrArg₂ Buffer.mk hahead hunread
    by_cases hzero : w.length = 0
    · rw [if_pos hzero]
      refine ⟨_, rfl, .ends (.eof ?_)⟩
      rw [hahead, hunread, List.length_eq_zero_iff.mp hzero]
      rfl
    · rw [if_neg hzero, ← hb]
      have hne : w ≠ [] := fun h => hzero (List.length_eq_zero_iff.mpr h)
      refine ⟨_, rfl, .finds (h.found_all hne hsmall ?_ ?_)⟩
      · exact recognizes.ruleAt_noted covers hne hlast'
      · rw [hahead, hunread, List.append_nil]
  · rw [if_neg hnil]
    have hdvd := h.blocks.resolve_left fun h => hnil (by rw [h, List.take_nil])
    refine ⟨_, rfl, .goes ⟨?_, ?_, List.prefix_append _ _, h.alive, h.zeros, ?_⟩ hlast' ?_ ?_⟩
    · simp only [List.append_assoc, List.take_append_drop]
      rw [← hahead, ← List.append_assoc]
      exact h.split
    · rw [List.drop_eq_nil_iff]
      rcases Nat.lt_or_ge YY_READ_BUF_SIZE b.unread.length with hlt | hge
      · right
        rw [← List.append_assoc, List.length_append, List.length_take_of_le hlt.le, ← hahead]
        exact Nat.dvd_add hdvd (Nat.dvd_refl _)
      · exact .inl hge
    · intro m hm hlt
      rw [hahead] at hdvd
      rw [← List.append_assoc, List.length_append, List.length_take] at hlt
      rcases Nat.lt_trichotomy m (done ++ w).length with hin | heq | hout
      · exact h.borders m hm (by rwa [hahead])
      · rw [List.length_append] at heq
        exact .inr ⟨heq.le, by omega⟩
      · -- no block ends between the two
        have hle := Nat.le_of_dvd (by omega) (Nat.dvd_sub hm hdvd)
        omega
    · simp only [List.append_assoc, List.take_append_drop]
      rw [hahead]
    · have hpos : 0 < (b.unread.take YY_READ_BUF_SIZE).length := List.length_pos_iff.mpr hnil
      rw [List.length_take] at hpos
      rw [left, left, hahead]
      simp only [List.append_assoc, List.take_append_drop, List.length_append, List.length_drop]
      have : 0 < YY_READ_BUF_SIZE := by decide
      omega

lemma Within.zero {v : List UInt8} (h : Within file done w b) (hahead : b.ahead = w ++ v)
    (hv : v = [] ∨ v.head? = some 0) :
    ∃ at', Yylex.yyFindAction b jamState (some (3, w.length + 1)) (w.length + 2) = some at' ∧
      Goes file done (b.ahead ++ b.unread) (left b w) at' := by
  have hfound : found jamState (some (3, w.length + 1)) (w.length + 2) =
      some (YY_END_OF_BUFFER, w.length + 1) := rfl
  rw [Yylex.yyFindAction, hfound]
  simp only [Option.bind_eq_bind, Option.bind_some, if_true]
  by_cases hlarge : YYLMAX ≤ w.length + 1
  · -- the text was copied with the zero
    have hlong : 6 ≤ w.length := by
      rw [YYLMAX] at hlarge
      omega
    have hfront : w <+: b.ahead ++ b.unread := h.front.trans (List.prefix_append _ _)
    have hne : b.ahead ++ b.unread ≠ [] :=
      List.ne_nil_of_length_pos (by have := hfront.length_le; omega)
    obtain ⟨r, k, hk⟩ := exists_longest hne
    have hle := length_le_of_longest hfront hlong h.alive hk
    have hlen : ((b.ahead ++ b.unread).take k).length = k :=
      List.length_take_of_le (longest_eq_some_iff.mp hk).2.1
    refine ⟨.exited, if_pos hlarge, .ends (.exited (next_of_longest hk) ?_)⟩
    rw [Compilation.yyleng, hlen]
    split
    · omega
    · rename_i hcond
      push Not at hcond
      obtain ⟨hbehind, hhead, hmod⟩ := hcond
      by_contra hlt
      obtain rfl : w.length = k := by omega
      have hdrop : (b.ahead ++ b.unread).drop w.length = v ++ b.unread := by
        rw [hahead, List.append_assoc, List.drop_left]
      rw [hdrop] at hbehind hhead hmod
      rcases hv with rfl | hv
      · rw [List.nil_append] at hbehind
        have hdvd := h.blocks.resolve_left hbehind
        rw [hahead, List.append_nil, List.length_append] at hdvd
        refine hmod (Nat.mod_eq_zero_of_dvd ?_)
        have hsize : file.length - ([] ++ b.unread).length = done.length + w.length := by
          rw [h.split, hahead]
          simp only [List.length_append, List.append_nil, List.nil_append]
          omega
        rwa [hsize]
      · exact hhead (by rw [List.head?_append, hv]; rfl)
  · rw [if_neg hlarge, endOfBuffer]
    have hcancel : w.length + 1 - 1 = w.length := Nat.add_sub_cancel _ _
    simp only [hcancel]
    rcases hv with rfl | hv
    · rw [List.append_nil] at hahead
      rw [if_neg (by rw [hahead]; omega)]
      exact h.yyGetNextBuffer hahead (by omega) _
    · obtain ⟨v', rfl⟩ : ∃ v', v = 0 :: v' := by
        cases v with
        | nil => cases hv
        | cons c v' =>
          obtain rfl := Option.some.inj hv
          exact ⟨v', rfl⟩
      obtain ⟨last', hprevious, hlast'⟩ := yyGetPreviousState_eq w (some (3, w.length + 1))
      have hle : w.length + 1 ≤ b.ahead.length := by
        rw [hahead, List.length_append, List.length_cons]
        omega
      have htake : b.ahead.take w.length = w := by rw [hahead, List.take_left]
      rw [if_pos hle, htake, hprevious]
      exact ⟨_, rfl, h.nul hahead (by omega) hlast'⟩

/-- A word that is as large as it can be ends in the middle of the buffer, and not at a zero. -/
lemma Within.calm {u v : List UInt8} (h : Within file done w b) (hahead : b.ahead = w ++ u ++ v)
    (hzero : 0 ∉ u) (hstops : automaton.stops (state (w ++ u)) = true) {r : Rule} {k : ℕ}
    (hk : scanner.longest (w ++ u) (w ++ u).length = some (r, k)) (heq : k + 1 = YYLMAX) :
    k < (w ++ u).length ∧ (w ++ u)[k]? ≠ some 0 ∧ ¬ YY_READ_BUF_SIZE ∣ done.length + k := by
  obtain ⟨-, hle, hrule, -⟩ := longest_eq_some_iff.mp hk
  have hlong : 6 ≤ k := by
    rw [YYLMAX] at heq
    omega
  have hlt : k < (w ++ u).length := by
    refine lt_of_le_of_ne hle fun hall => ?_
    rw [hall, List.take_length, ← recognizes.accepts _ (List.ne_nil_of_length_pos (by omega))]
      at hrule
    have hjam := eq_jamState_of_stops (by omega) hstops
    rw [state] at hjam
    rw [hjam] at hrule
    cases hrule
  refine ⟨hlt, fun hget => ?_, fun hdvd => ?_⟩
  · rcases Nat.lt_or_ge k w.length with hin | hout
    · rw [List.getElem?_append_left hin] at hget
      exact absurd (h.zeros k hget) (by omega)
    · rw [List.getElem?_append_right hout] at hget
      exact hzero (List.mem_of_getElem? hget)
  · have hinside : done.length + k < (done ++ b.ahead).length := by
      rw [hahead, @List.length_append _ done, @List.length_append _ (w ++ u)]
      omega
    rcases h.borders _ hdvd hinside with hlow | ⟨-, hsmall⟩
    · omega
    · omega

lemma Result.scan {at' : At} (h : Result file done rest at') (fuel : ℕ) :
    scan (fuel + 1) at' = some at' := by
  cases h <;> rfl

/-- The scanner in the middle of a lexeme. The induction is on what is left to be looked at. -/
theorem Within.scan (n : ℕ) (h : Within file done w b) (hlast : Noted automaton scanner w last)
    (hn : left b w ≤ n) {fuel : ℕ} (hfuel : 2 * n + 4 ≤ fuel) :
    ∃ at', scan fuel (.yyMatch b (state w) last w.length) = some at' ∧
      Result file done (b.ahead ++ b.unread) at' := by
  induction n using Nat.strong_induction_on generalizing w b last fuel with
  | _ n ih =>
    obtain ⟨fuel, rfl⟩ := Nat.exists_eq_add_of_le' (show 4 ≤ fuel by omega)
    have hdrop : b.ahead = w ++ b.ahead.drop w.length := by
      obtain ⟨v, hv⟩ := h.front
      rw [← hv, List.drop_left]
    have hmatched := yyMatch_matched h.alive hlast (w := b.ahead.drop w.length)
    generalize hx : yyMatch (state w) last w.length (b.ahead.drop w.length ++ [0, 0]) = x
      at hmatched
    cases hmatched with
    | stops u v last' hw hne hzero hstops hlast' =>
      have hahead : b.ahead = w ++ u ++ v := by rw [hdrop, hw, List.append_assoc]
      have hrest : b.ahead ++ b.unread = w ++ u ++ (v ++ b.unread) := by
        rw [hahead, List.append_assoc (w ++ u)]
      have hlongest : scanner.longest (b.ahead ++ b.unread) (b.ahead ++ b.unread).length =
          scanner.longest (w ++ u) (w ++ u).length := by
        rw [hrest]
        exact recognizes.longest_of_stops hstops _
      obtain ⟨at', hat, hres⟩ := h.yyFindAction ⟨v, hahead.symm⟩
        (by simp [hne]) (recognizes.ruleAt_noted covers (by simp [hne]) hlast') hlongest
        fun r k hk heq => h.calm hahead hzero hstops hk heq
      refine ⟨at', ?_, hres⟩
      rw [Yylex.scan, hx]
      simp only
      rw [Yylex.scan, hat]
      exact hres.scan _
    | zero u v hw hzero hv halive =>
      have hahead : b.ahead = w ++ u ++ v := by rw [hdrop, hw, List.append_assoc]
      have h' := h.append hahead hzero halive
      obtain ⟨at', hat, hgoes⟩ := h'.zero hahead hv
      have hscan : Yylex.scan (fuel + 4) (.yyMatch b (state w) last w.length) =
          Yylex.scan (fuel + 2) at' := by
        rw [Yylex.scan, hx]
        simp only
        rw [Yylex.scan, hat]
      rw [hscan]
      have hleft : left b (w ++ u) ≤ left b w := by
        rw [left, left, @List.length_append _ w u]
        omega
      cases hgoes with
      | ends hres => exact ⟨_, hres.scan _, hres⟩
      | finds hfinds =>
        obtain ⟨at'', hat', hres⟩ := hfinds
        refine ⟨at'', ?_, hres⟩
        rw [Yylex.scan, hat']
        exact hres.scan _
      | goes hwithin hlast'' hrest hless =>
        obtain ⟨at'', hat', hres⟩ := ih _ (by omega) hwithin hlast'' (Nat.le_refl _)
          (show 2 * left _ _ + 4 ≤ fuel + 2 by omega)
        exact ⟨at'', hat', hrest ▸ hres⟩

/-! ### The file -/

def upTo : List Lexeme → List (Option Action)
  | [] => []
  | l :: ls => if l.TooLarge then [none] else some l.action :: upTo ls

lemma between_start (file : List UInt8) : Between file [] ⟨[], file⟩ where
  split := rfl
  blocks := .inr (Nat.dvd_zero _)
  borders := fun m _ hlt => absurd hlt (Nat.not_lt_zero m)

lemma lexemes_munch {size : ℕ} {r : Rule} {text behind : List UInt8}
    (hnext : Next scanner rest r text behind) : lexemes size (scanner.munch rest) =
      ⟨action r text, Compilation.yyleng size text behind⟩ ::
        lexemes size (scanner.munch behind) := by
  have hmunch : scanner.munch rest = (r, text) :: scanner.munch behind :=
    (splits_iff covers).mp (.cons hnext ((splits_iff covers).mpr rfl))
  rw [hmunch, lexemes, flatten_munch]

theorem Between.actions (h : Between file done b) {last : Last} {fuel : ℕ}
    (hfuel : 4 * (b.ahead ++ b.unread).length + 4 ≤ fuel) :
    actions fuel b last =
      some (upTo (lexemes file.length (scanner.munch (b.ahead ++ b.unread)))) := by
  induction fuel generalizing done b last with
  | zero => omega
  | succ fuel ih =>
    have hnil : Noted automaton scanner [] last := fun h => absurd h (by simp)
    have hleft : left b [] ≤ 2 * (b.ahead ++ b.unread).length := by
      rw [left, List.length_append, List.length_nil]
      omega
    obtain ⟨at', hscan, hres⟩ := h.within.scan _ hnil hleft
      (show 2 * (2 * (b.ahead ++ b.unread).length) + 4 ≤ fuel + 1 by omega)
    have hstart : scan (fuel + 1) (.yyMatch b 1 last 0) = some at' := hscan
    rw [Yylex.actions, hstart]
    cases hres with
    | eof hrest =>
      rw [hrest]
      rfl
    | exited hnext hlarge =>
      rw [lexemes_munch hnext, upTo, if_pos]
      exact hlarge
    | lexeme hact hnext hsmall hbetween =>
      have hlt := hnext.length_lt
      rw [lexemes_munch hnext, upTo, if_neg]
      · simp only [hact, ih hbetween (by omega)]
      · exact Nat.not_le.mpr hsmall

/-- **Main result.** The generated scanner finds in every file the lexemes of the patterns, up to
the first that does not fit in `yytext`. -/
theorem actions_eq (file : List UInt8) (fuel : ℕ) (hfuel : 4 * file.length + 4 ≤ fuel) :
    actions fuel ⟨[], file⟩ none = some (upTo (Compilation.yylex file)) :=
  (between_start file).actions hfuel

theorem actions_eq_nul : 4 * ([69, 0] : List UInt8).length + 4 ≤ 12 ∧
    actions 12 ⟨[], [69, 0]⟩ none = some (upTo (Compilation.yylex [69, 0])) :=
  ⟨by decide, actions_eq [69, 0] 12 (by decide)⟩

end Sski.Console.Yylex
