import Sski.Lib.Slots
import Sski.Lib.Block

/-!
The memory module's state: main memory, the frame bitmap, the two levels of page tables, the
swap metadata, the swap files, and the hand each replacement algorithm keeps in a static
variable.

A function of the module is `none` where the C code has undefined behaviour: a null or a
wild pointer is dereferenced, or a copy leaves its block.
-/

namespace Sski.Mem.MemoryModule

open Sski.Lib.Slots Sski.Lib.Block

def uint32Max : ℕ := 2 ^ 32 - 1

def invalidFrame : ℕ := uint32Max

/-- `ALGORITMO_REEMPLAZO`: the string `"CLOCK"`, or any other. -/
inductive Algoritmo | clock | clockM
  deriving DecidableEq, Repr

/-- The configuration file of the module; its numbers are read as `int`. -/
structure Cfg where
  tamMemoria : ℕ
  tamPagina : ℕ
  entradasPorTabla : ℕ
  marcosPorProceso : ℕ
  algoritmoReemplazo : Algoritmo
  tamMemoria_lt : tamMemoria < 2 ^ 31
  tamPagina_pos : 0 < tamPagina
  tamPagina_lt : tamPagina < 2 ^ 31
  entradasPorTabla_lt : entradasPorTabla < 2 ^ 31
  marcosPorProceso_lt : marcosPorProceso < 2 ^ 31

namespace Cfg

/-- `memory->max_rows`, set once at start. -/
def maxRows (c : Cfg) : ℕ := c.entradasPorTabla

/-- `memory->max_frames`, set once at start. -/
def maxFrames (c : Cfg) : ℕ := c.marcosPorProceso

/-- `memory->no_of_frames`, set once at start. -/
def noOfFrames (c : Cfg) : ℕ := c.tamMemoria / c.tamPagina

lemma noOfFrames_mul_le (c : Cfg) : c.noOfFrames * c.tamPagina ≤ c.tamMemoria :=
  Nat.div_mul_le_self _ _

lemma noOfFrames_lt (c : Cfg) : c.noOfFrames < invalidFrame := by
  have h : c.noOfFrames ≤ c.tamMemoria := Nat.div_le_self _ _
  have := c.tamMemoria_lt
  unfold invalidFrame uint32Max
  omega

end Cfg

lemma one_lt_intBound : 1 < 2 ^ 31 := by decide

lemma two_lt_intBound : 2 < 2 ^ 31 := by decide

def smallCfg : Cfg where
  tamMemoria := 32
  tamPagina := 8
  entradasPorTabla := 2
  marcosPorProceso := 2
  algoritmoReemplazo := .clock
  tamMemoria_lt := by decide
  tamPagina_pos := by decide
  tamPagina_lt := by decide
  entradasPorTabla_lt := two_lt_intBound
  marcosPorProceso_lt := two_lt_intBound

def singleCfg : Cfg :=
  { smallCfg with marcosPorProceso := 1, marcosPorProceso_lt := one_lt_intBound }

structure PageTableLvl1 where
  secondPage : ℕ
  deriving DecidableEq, Repr

structure PageTableLvl2 where
  frame : ℕ
  present : Bool
  use : Bool
  modified : Bool
  deriving DecidableEq, Repr

structure SwapData where
  pid : ℕ
  offset : ℕ
  size : ℕ
  deriving DecidableEq, Repr

structure Memory where
  mainMemory : List UInt8
  frames : List Bool
  tablesLvl1 : PtrList (List PageTableLvl1)
  tablesLvl2 : PtrList (List PageTableLvl2)
  swapData : List SwapData
  /-- The bytes of the file `<pid>.swap`, for the files that exist. -/
  files : ℕ → Option (List UInt8)
  /-- The static hand of `clock_selector`. -/
  clock : ℕ
  /-- The static hand of `improved_clock_selector`. -/
  improvedClock : ℕ

/-- What the operating system answers while a swap file is used, and what a fresh block of
the heap holds. -/
structure Os where
  opens : Bool
  maps : Bool
  heap : ℕ → UInt8

/-- Files open, mappings succeed, and fresh memory is zero. -/
def goodOs : Os := ⟨true, true, fun _ => 0⟩

/-- A file that cannot be mapped keeps its size and has only zeros. -/
def unmappedOs : Os := { goodOs with maps := false }

/-- A block `malloc` returns: its bytes are whatever they were. -/
def malloc (heap : ℕ → UInt8) (n : ℕ) : List UInt8 := (List.range n).map heap

@[simp] lemma length_malloc (heap : ℕ → UInt8) (n : ℕ) : (malloc heap n).length = n := by
  simp [malloc]

def onInitMemory (c : Cfg) (heap : ℕ → UInt8) : Memory where
  mainMemory := malloc heap c.tamMemoria
  frames := List.replicate c.noOfFrames false
  tablesLvl1 := []
  tablesLvl2 := []
  swapData := []
  files := fun _ => none
  clock := 0
  improvedClock := 0

/-- A pointer to a row: the slot of its table in the list of level-2 tables, and its index. -/
abbrev RowRef := ℕ × ℕ

namespace Memory

def table1 (m : Memory) (id : ℕ) : Option (List PageTableLvl1) := slotGet m.tablesLvl1 id

def table2 (m : Memory) (id : ℕ) : Option (List PageTableLvl2) := slotGet m.tablesLvl2 id

def rowAt (m : Memory) (p : RowRef) : Option PageTableLvl2 := do
  let table ← m.table2 p.1
  table[p.2]?

def setRow (m : Memory) (p : RowRef) (r : PageTableLvl2) : Memory :=
  match m.table2 p.1 with
  | some table => { m with tablesLvl2 := slotReplace m.tablesLvl2 p.1 (some (table.set p.2 r)) }
  | none => m

def modifyRow (m : Memory) (p : RowRef) (f : PageTableLvl2 → PageTableLvl2) : Option Memory := do
  let r ← m.rowAt p
  return m.setRow p (f r)

lemma rowAt_eq_some_iff {m : Memory} {p : RowRef} {r : PageTableLvl2} :
    m.rowAt p = some r ↔ ∃ table, m.table2 p.1 = some table ∧ table[p.2]? = some r := by
  simp [rowAt, Option.bind_eq_some_iff]

variable (m : Memory) (p : RowRef) (r : PageTableLvl2)

@[simp] lemma setRow_mainMemory : (m.setRow p r).mainMemory = m.mainMemory := by
  unfold setRow; split <;> rfl

@[simp] lemma setRow_frames : (m.setRow p r).frames = m.frames := by
  unfold setRow; split <;> rfl

@[simp] lemma setRow_tablesLvl1 : (m.setRow p r).tablesLvl1 = m.tablesLvl1 := by
  unfold setRow; split <;> rfl

@[simp] lemma setRow_swapData : (m.setRow p r).swapData = m.swapData := by
  unfold setRow; split <;> rfl

@[simp] lemma setRow_files : (m.setRow p r).files = m.files := by
  unfold setRow; split <;> rfl

@[simp] lemma setRow_clock : (m.setRow p r).clock = m.clock := by
  unfold setRow; split <;> rfl

@[simp] lemma setRow_improvedClock : (m.setRow p r).improvedClock = m.improvedClock := by
  unfold setRow; split <;> rfl

@[simp] lemma setRow_length : (m.setRow p r).tablesLvl2.length = m.tablesLvl2.length := by
  unfold setRow; split <;> simp

@[simp] lemma setRow_table1 (id : ℕ) : (m.setRow p r).table1 id = m.table1 id := by
  simp [table1]

variable {m p}

lemma setRow_table2 (id : ℕ) : (m.setRow p r).table2 id =
    if id = p.1 then (m.table2 p.1).map (·.set p.2 r) else m.table2 id := by
  unfold setRow
  split
  · rename_i table ht
    by_cases h : id = p.1
    · subst h
      rw [if_pos rfl, ht]
      exact slotGet_replace_self ht _
    · rw [if_neg h]
      exact slotGet_replace_of_ne (Ne.symm h) _
  · rename_i ht
    split
    · rename_i h; simp [h, ht]
    · rfl

lemma rowAt_setRow {r₀ : PageTableLvl2} (h : m.rowAt p = some r₀) (q : RowRef) :
    (m.setRow p r).rowAt q = if q = p then some r else m.rowAt q := by
  obtain ⟨table, ht, hr⟩ := rowAt_eq_some_iff.mp h
  have hlt := (List.getElem?_eq_some_iff.mp hr).1
  simp only [rowAt, setRow_table2]
  obtain ⟨q₁, q₂⟩ := q
  obtain ⟨p₁, p₂⟩ := p
  simp only at ht hlt ⊢
  by_cases h₁ : q₁ = p₁
  · subst h₁
    simp only [ht, if_true, Option.map_some, Option.bind_eq_bind, Option.bind_some]
    by_cases h₂ : q₂ = p₂
    · subst h₂; simp [hlt]
    · rw [List.getElem?_set_ne (Ne.symm h₂)]; simp [h₂]
  · simp [h₁]

lemma setRow_self (h : m.rowAt p = some r) : m.setRow p r = m := by
  obtain ⟨table, ht, hr⟩ := rowAt_eq_some_iff.mp h
  have hset : table.set p.2 r = table := by
    obtain ⟨hlt, rfl⟩ := List.getElem?_eq_some_iff.mp hr
    exact List.set_getElem_self hlt
  unfold setRow
  rw [ht]
  simp only [hset, slotReplace_self ht]

/-- Two states that agree on everything but the page tables and the frame bitmap. -/
structure SameStores (m m' : Memory) : Prop where
  mainMemory : m'.mainMemory = m.mainMemory
  swapData : m'.swapData = m.swapData
  files : m'.files = m.files
  clock : m'.clock = m.clock
  improvedClock : m'.improvedClock = m.improvedClock

lemma SameStores.refl (m : Memory) : SameStores m m := ⟨rfl, rfl, rfl, rfl, rfl⟩

lemma SameStores.trans {m m' m'' : Memory} (h : SameStores m m') (h' : SameStores m' m'') :
    SameStores m m'' :=
  ⟨h'.mainMemory.trans h.mainMemory, h'.swapData.trans h.swapData, h'.files.trans h.files,
    h'.clock.trans h.clock, h'.improvedClock.trans h.improvedClock⟩

end Memory

end Sski.Mem.MemoryModule
