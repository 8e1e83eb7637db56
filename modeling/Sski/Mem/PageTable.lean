import Sski.Mem.MemoryModule

/-!
Page tables: new tables, the table of pointers to all rows of a process, and the printer
that walks it.
-/

namespace Sski.Mem.PageTable

open Sski.Lib.Slots Sski.Mem.MemoryModule

def newPageTableLvl2 (rows : ℕ) : List PageTableLvl2 :=
  List.replicate rows ⟨uint32Max, false, false, false⟩

/-- `max_rows * max_rows`, a product of two `uint32_t`. -/
def bigRows (c : Cfg) : ℕ := c.maxRows * c.maxRows % 2 ^ 32

/-- The pointers to the rows of a level-1 table, level-2 table after level-2 table. -/
def rowRefs (c : Cfg) (pt1 : List PageTableLvl1) : List RowRef :=
  pt1.flatMap fun row => (List.range c.maxRows).map fun j => (row.secondPage, j)

/-- The block has `bigRows` pointers and is filled a whole level-2 table at a time, so the
fill stays inside it only if it ends on a multiple of `max_rows`. -/
def createBigTable (c : Cfg) (m : Memory) (tableIndex : ℕ) : Option (Option (List RowRef)) :=
  match m.table1 tableIndex with
  | none => some none
  | some pt1 =>
    if c.maxRows ∣ bigRows c then some (some ((rowRefs c pt1).take (bigRows c))) else none

def printTable (c : Cfg) (m : Memory) (tableIndex : ℕ) : Option Unit := do
  match ← createBigTable c m tableIndex with
  | none => if bigRows c = 0 then some () else none
  | some bigTable => if bigTable.all fun p => (m.rowAt p).isSome then some () else none

def printTables (c : Cfg) (m : Memory) : Option Unit :=
  (List.range m.tablesLvl1.length).forM fun i =>
    match m.table1 i with
    | none => some ()
    | some _ => printTable c m i

@[simp] lemma length_newPageTableLvl2 (rows : ℕ) : (newPageTableLvl2 rows).length = rows := by
  simp [newPageTableLvl2]

lemma mem_newPageTableLvl2 {rows : ℕ} {r : PageTableLvl2} (h : r ∈ newPageTableLvl2 rows) :
    r = ⟨uint32Max, false, false, false⟩ := List.eq_of_mem_replicate h

lemma mem_rowRefs {c : Cfg} {pt1 : List PageTableLvl1} {p : RowRef} :
    p ∈ rowRefs c pt1 ↔ p.1 ∈ pt1.map PageTableLvl1.secondPage ∧ p.2 < c.maxRows := by
  obtain ⟨t, j⟩ := p
  simp only [rowRefs, List.mem_flatMap, List.mem_map, List.mem_range, Prod.mk.injEq]
  constructor
  · rintro ⟨row, hrow, j', hj, rfl, rfl⟩
    exact ⟨⟨row, hrow, rfl⟩, hj⟩
  · rintro ⟨⟨row, hrow, rfl⟩, hj⟩
    exact ⟨row, hrow, j, hj, rfl, rfl⟩

lemma length_rowRefs (c : Cfg) (pt1 : List PageTableLvl1) :
    (rowRefs c pt1).length = pt1.length * c.maxRows := by
  simp [rowRefs]

end Sski.Mem.PageTable
