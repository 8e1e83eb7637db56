import Sski.Mem.Algorithms
import Sski.Mem.Swap

/-!
What the memory module answers to the CPU: the two steps of a page walk, which may fault, and
reads and writes of words.
-/

namespace Sski.Mem.CpuController

open Sski.Lib.Slots Sski.Lib.Block Sski.Mem.MemoryModule Sski.Mem.PageTable Sski.Mem.OsMemory
open Sski.Mem.Swap Sski.Mem.Algorithms

variable (c : Cfg)

def getFrame (physicalAddress : ℕ) : ℕ := physicalAddress / c.tamPagina

def getTableLvl1Number (m : Memory) (tableNumber2 : ℕ) : ℕ :=
  (m.tablesLvl1.findIdx? fun table =>
    table.any fun rows => rows.any fun row => row.secondPage == tableNumber2).getD uint32Max

def framesInUse (m : Memory) (table : List PageTableLvl1) : ℕ :=
  (table.map fun row => ((m.table2 row.secondPage).getD []).countP PageTableLvl2.present).sum

def shouldReplaceFrame (m : Memory) (tableNumber2 : ℕ) : Option Bool := do
  let tableNumber := getTableLvl1Number m tableNumber2
  printTable c m tableNumber
  match m.table1 tableNumber with
  | none => if c.maxRows = 0 then some (decide (0 ≥ c.marcosPorProceso)) else none
  | some table => some (decide (framesInUse m table ≥ c.marcosPorProceso))

/-- Takes the present and use bits off the rows of a table that hold a frame. -/
def clearFrame (m : Memory) (tableNumber2 frame : ℕ) : Option Memory :=
  match m.table2 tableNumber2 with
  | none => if c.maxRows = 0 then some m else none
  | some table => some { m with
      tablesLvl2 := slotReplace m.tablesLvl2 tableNumber2 (some (table.map fun row =>
        if row.frame = frame then { row with present := false, use := false } else row)) }

def replaceFrame (m : Memory) (pid frameToReplace : ℕ) (os : Os) : Option Memory := do
  let m ← clearFrame c m (getTableLvl2Number m frameToReplace) frameToReplace
  swapFrameForPcb c m pid frameToReplace os

/-- Evicts a page of the process that owns the table if it has all its frames in use. -/
def evict (m : Memory) (idTable2 pid : ℕ) (os : Os) : Option Memory := do
  if ← shouldReplaceFrame c m idTable2 then
    let (m, frameToReplace) ← frameSelector c m (getTableLvl1Number m idTable2)
    replaceFrame c m pid frameToReplace os
  else some m

/-- Maps the new frame, or loads the page that was swapped out: the new frame is given back,
and yet it is the one that is answered. -/
def allocate (m : Memory) (idTable2 index pid newFrame : ℕ) (os : Os) : Option Memory := do
  let row ← m.rowAt (idTable2, index)
  if row.frame = invalidFrame then
    let (m, _) ← createFrameForTable c m idTable2 newFrame
    return m
  else
    let m ← deleteFrame c m newFrame
    let m ← unswapFrameForPcb c m pid row.frame os
    m.modifyRow (idTable2, index) fun row => { row with use := true }

/-- A page fault. A frame is taken first, also when the page will return to its old one. -/
def pageFault (m : Memory) (idTable2 index pid : ℕ) (os os' : Os) : Option (Memory × ℕ) := do
  let (m, newFrame) := findFreeFrame m
  let m ← evict c m idTable2 pid os
  let m ← allocate c m idTable2 index pid newFrame os'
  return (m, newFrame)

/-- `os` answers while a page is evicted, `os'` while one is loaded. -/
def obtainFrame (m : Memory) (idTable2 index pid : ℕ) (os os' : Os) : Option (Memory × ℕ) := do
  if index > c.maxRows then return (m, uint32Max)
  let row ← m.rowAt (idTable2, index)
  if row.present then return (m, row.frame)
  pageFault c m idTable2 index pid os os'

def obtainSecondPage (m : Memory) (idTable1 index : ℕ) : Option ℕ :=
  if index > c.maxRows then some uint32Max
  else do
    let table ← m.table1 idTable1
    let row ← table[index]?
    return row.secondPage

/-! ### Endpoints -/

def setModified (m : Memory) (frame : ℕ) (modified : Bool) : Option Memory :=
  match getFrameRef c m frame with
  | none => none
  | some none => some m
  | some (some p) => m.modifyRow p fun row => { row with modified }

/-- A read takes the modified bit off the page. -/
def cpuControllerRead (m : Memory) (physicalAddress : ℕ) : Option (Memory × ℕ) :=
  let frame := getFrame c physicalAddress
  if getTableLvl2Number m frame = uint32Max then some (m, uint32Max)
  else do
    let m ← setModified c m frame false
    let value ← readFromMemory m physicalAddress
    return (m, value)

def cpuControllerWrite (m : Memory) (physicalAddress value : ℕ) : Option Memory :=
  let frame := getFrame c physicalAddress
  if getTableLvl2Number m frame = uint32Max then some m
  else do
    let m ← setModified c m frame true
    writeInMemory m physicalAddress value

def cpuControllerSendFrame (m : Memory) (pid op1 op2 : ℕ) (os os' : Os) : Option (Memory × ℕ) :=
  obtainFrame c m op1 op2 pid os os'

/-- A row index from `max_rows` on is taken for the last one. -/
def cpuControllerSendPageSecondLevel (m : Memory) (op1 op2 : ℕ) : Option ℕ := do
  printTable c m op1
  let t1Sub := if op2 ≥ c.maxRows then (c.maxRows + 2 ^ 32 - 1) % 2 ^ 32 else op2
  obtainSecondPage c m op1 t1Sub

end Sski.Mem.CpuController
