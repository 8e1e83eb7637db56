import Sski.Lib.Runs
import Sski.Mem.Sparing

/-!
The static hands of the two selectors over any sequence of calls. Between two calls anything may
have happened to the memory, so each call comes with the one it finds; only the hands are those
the calls before have left.

An access outside the big table would be `none`. The selectors count the rows in `size_t`, and
`create_big_table` multiplies in `uint32_t`, so the two agree only if the product fits.
-/

namespace Sski.Mem.Hands

open Sski.Lib.Runs Sski.Lib.Slots Sski.Mem.MemoryModule Sski.Mem.PageTable Sski.Mem.OsMemory
open Sski.Mem.Algorithms Sski.Mem.Tables Sski.Mem.Rows Sski.Mem.Frames Sski.Mem.Selection
open Sski.Mem.SecondChance Sski.Mem.Sparing Sski.Mem.Locality

structure Hands where
  clock : ℕ
  improvedClock : ℕ

/-- A call of a selector on a live table, in a memory whose rows hold anything. -/
structure Call (c : Cfg) where
  algoritmo : Algoritmo
  memory : Memory
  tableIndex : ℕ
  pt1 : List PageTableLvl1
  forest : Forest c memory
  live : memory.table1 tableIndex = some pt1

variable (c : Cfg)

def found (h : Hands) (m : Memory) : Memory :=
  { m with clock := h.clock, improvedClock := h.improvedClock }

def left (m : Memory) : Hands := ⟨m.clock, m.improvedClock⟩

def selector : Algoritmo → Memory → ℕ → Option (Memory × ℕ)
  | .clock => clockSelector c
  | .clockM => improvedClockSelector c

def step (h : Hands) (call : Call c) : Option Hands :=
  (selector c call.algoritmo (found h call.memory) call.tableIndex).map fun r => left r.1

def start : Hands := ⟨0, 0⟩

structure InTable (h : Hands) : Prop where
  clock : h.clock < totalRows c
  improvedClock : h.improvedClock < totalRows c

/-- Nothing is written but use bits of the rows of one process, and the hands. -/
structure Confined (pt1 : List PageTableLvl1) (m m' : Memory) : Prop extends UseOnly m m' where
  others : ∀ q, q ∉ rowRefs c pt1 → m'.rowAt q = m.rowAt q

/-- The call ends, follows only pointers of the big table, and writes only use bits. -/
structure Safe (h : Hands) (call : Call c) : Prop where
  before : InTable c h
  length : ∃ bigTable, bigTableOf c (found h call.memory) call.tableIndex = some bigTable ∧
    bigTable.length = totalRows c
  ends : ∃ m' frame,
    selector c call.algoritmo (found h call.memory) call.tableIndex = some (m', frame) ∧
      InTable c (left m') ∧ Confined c call.pt1 (found h call.memory) m'

variable {c} {h h' : Hands}

lemma totalRows_pos (hpos : 0 < c.maxRows) : 0 < totalRows c := Nat.mul_pos hpos hpos

lemma inTable_start (hpos : 0 < c.maxRows) : InTable c start :=
  ⟨totalRows_pos hpos, totalRows_pos hpos⟩

lemma InTable.handsIn (hin : InTable c h) (m : Memory) : HandsIn c (found h m) := by
  obtain ⟨hclock, himproved⟩ := hin
  constructor
  · exact lt_of_lt_of_le hclock (le_max_right _ _)
  · exact lt_of_lt_of_le himproved (le_max_right _ _)

lemma inTable_left {m : Memory} (hpos : 0 < c.maxRows) (hh : HandsIn c m) : InTable c (left m) := by
  have htotal := totalRows_pos hpos
  obtain ⟨hclock, himproved⟩ := hh
  unfold HandIn at hclock himproved
  rw [max_eq_right htotal] at hclock himproved
  exact ⟨hclock, himproved⟩

lemma forest_found (h : Hands) {m : Memory} (hf : Forest c m) : Forest c (found h m) :=
  forest_sameRows hf (.of_eq id rfl rfl rfl)

/-! ### One call -/

lemma selected_selector {algoritmo : Algoritmo} {m m' : Memory} {t frame : ℕ}
    (hs : selector c algoritmo m t = some (m', frame)) : Selected c m m' := by
  cases algoritmo with
  | clock => exact selected_clockSelector hs
  | clockM => exact selected_improvedClockSelector hs

lemma selector_outside {algoritmo : Algoritmo} {m m' : Memory} {t frame : ℕ}
    {bigTable : List RowRef} {q : RowRef} (hbig : bigTableOf c m t = some bigTable)
    (hq : q ∉ bigTable) (hs : selector c algoritmo m t = some (m', frame)) :
    m'.rowAt q = m.rowAt q := by
  cases algoritmo with
  | clock => exact clockSelector_outside hbig hq hs
  | clockM => exact improvedClockSelector_outside hbig hq hs

lemma selector_isSome (hin : InTable c h) (algoritmo : Algoritmo) {m : Memory} {t : ℕ}
    {bigTable : List RowRef} (hbig : bigTableOf c (found h m) t = some bigTable)
    (hw : Whole c (found h m) bigTable) :
    ∃ m' frame, selector c algoritmo (found h m) t = some (m', frame) := by
  cases algoritmo with
  | clock =>
    obtain ⟨m', frame, hs, -⟩ := clockSelector_eq hbig hw hin.clock
    exact ⟨m', frame, hs⟩
  | clockM =>
    obtain ⟨m', frame, hs, -⟩ := improvedClockSelector_eq hbig hw hin.improvedClock
    exact ⟨m', frame, hs⟩

lemma safe_of_fits (hpos : 0 < c.maxRows) (hn : c.maxRows < 2 ^ 16) (hin : InTable c h)
    (call : Call c) : Safe c h call := by
  obtain ⟨hbig, hw⟩ := bigTable_of_forest (forest_found h call.forest) hn
    (t := call.tableIndex) call.live
  refine ⟨hin, ⟨_, hbig, hw.length⟩, ?_⟩
  obtain ⟨m', frame, hs⟩ := selector_isSome hin call.algoritmo hbig hw
  have hselected := selected_selector hs
  refine ⟨m', frame, hs, inTable_left hpos (hselected.hands (hin.handsIn _)), ?_⟩
  exact ⟨hselected.toUseOnly, fun q hq => selector_outside hbig hq hs⟩

lemma Safe.inTable {call : Call c} (hsafe : Safe c h call) (hs : step c h call = some h') :
    InTable c h' := by
  obtain ⟨m', frame, hsome, hleft, -⟩ := hsafe.ends
  rw [step, hsome, Option.map_some, Option.some.injEq] at hs
  exact hs ▸ hleft

/-- With a product that wraps the big table is too short for every live table. -/
lemma not_safe_of_wraps (hn : ¬ c.maxRows < 2 ^ 16) (call : Call c) : ¬ Safe c h call := by
  rintro ⟨-, ⟨bigTable, hbig, -⟩, -⟩
  rw [bigTableOf_none (forest_found h call.forest) (t := call.tableIndex) call.live hn] at hbig
  cases hbig

/-! ### Any number of calls -/

lemma meets_of_fits (hpos : 0 < c.maxRows) (hn : c.maxRows < 2 ^ 16) (hin : InTable c h)
    (calls : List (Call c)) : Meets (step c) (Safe c) h calls := by
  induction calls generalizing h with
  | nil => trivial
  | cons call calls ih =>
    have hsafe := safe_of_fits hpos hn hin call
    exact ⟨hsafe, fun h' hs => ih (hsafe.inTable hs)⟩

/-- **Main result.** All calls of a sequence stay in bounds and write only use bits if and only
if `max_rows * max_rows` fits in 32 bits, or there is none. -/
theorem safe_iff_fits (c : Cfg) (hpos : 0 < c.maxRows) (calls : List (Call c)) :
    Meets (step c) (Safe c) start calls ↔ calls = [] ∨ c.maxRows < 2 ^ 16 := by
  constructor
  · intro h
    cases calls with
    | nil => exact .inl rfl
    | cons call calls =>
      refine .inr ?_
      by_contra hn
      exact not_safe_of_wraps hn call h.1
  · rintro (rfl | hn)
    · trivial
    · exact meets_of_fits hpos hn (inTable_start hpos) calls

lemma exists_call (c : Cfg) (algoritmo : Algoritmo) : ∃ call : Call c,
    call.algoritmo = algoritmo ∧
      createNewProcess c (onInitMemory c fun _ => 0) = some (call.memory, call.tableIndex) := by
  have hforest := forest_onInitMemory c fun _ => 0
  obtain ⟨⟨m, id⟩, hm⟩ := createNewProcess_isSome (c := c) (m := onInitMemory c fun _ => 0)
    (by simp [onInitMemory, intBound])
    (by simpa [onInitMemory, intBound, Cfg.maxRows] using c.entradasPorTabla_lt)
  have hcreated := createNewProcess_spec hforest.length1 hforest.length2 hm
  exact ⟨⟨algoritmo, m, id, _, hforest.created hcreated, by rw [hcreated.table1, if_pos rfl]⟩,
    rfl, hm⟩

theorem safe_iff_fits_small : ∃ call call' : Call smallCfg,
    call.algoritmo = .clock ∧ call'.algoritmo = .clockM ∧
      Meets (step smallCfg) (Safe smallCfg) start [call, call', call] := by
  obtain ⟨call, hclock, -⟩ := exists_call smallCfg .clock
  obtain ⟨call', hclockM, -⟩ := exists_call smallCfg .clockM
  refine ⟨call, call', hclock, hclockM, ?_⟩
  exact (safe_iff_fits smallCfg (by decide) [call, call', call]).mpr (.inr (by decide))

/-- `max_rows * max_rows` is 0 in 32 bits. -/
def wideCfg : Cfg where
  tamMemoria := 4096
  tamPagina := 128
  entradasPorTabla := 65536
  marcosPorProceso := 4
  algoritmoReemplazo := .clock
  tamMemoria_lt := by decide
  tamPagina_pos := by decide
  tamPagina_lt := by decide
  entradasPorTabla_lt := by decide
  marcosPorProceso_lt := by decide

/-- The first call for the first process reads outside of a big table that is empty. -/
theorem not_safe_wide : ∃ call : Call wideCfg,
    createNewProcess wideCfg (onInitMemory wideCfg fun _ => 0) =
        some (call.memory, call.tableIndex) ∧
      step wideCfg start call = none ∧ ¬ Meets (step wideCfg) (Safe wideCfg) start [call] := by
  obtain ⟨call, -, hcreated⟩ := exists_call wideCfg .clock
  have hwraps : ¬ wideCfg.maxRows < 2 ^ 16 := by decide
  have hbig := bigTableOf_none (forest_found start call.forest) (t := call.tableIndex) call.live
    hwraps
  refine ⟨call, hcreated, ?_, fun h => not_safe_of_wraps hwraps call h.1⟩
  cases halgoritmo : call.algoritmo <;>
  simp [step, selector, halgoritmo, clockSelector, improvedClockSelector, hbig]

end Sski.Mem.Hands
