import Sski.Mem.PageTable

/-!
The operations of the memory module on its tables, frames and swap metadata.
-/

namespace Sski.Mem.OsMemory

open Sski.Lib.Slots Sski.Lib.Block Sski.Mem.MemoryModule Sski.Mem.PageTable

variable (c : Cfg)

/-! ### Processes -/

/-- The next id of a list of tables: the first free slot if slots are reused, else the end. -/
def findId {α : Type} (list : PtrList α) (shouldReplace : Bool) : ℕ :=
  if list.isEmpty then 0
  else if shouldReplace then
    ((List.range list.length).find? fun i => (slotGet list i).isNone).getD list.length
  else list.length

def addTable {α : Type} (list : PtrList α) (id : ℕ) (table : α) : Option (PtrList α) :=
  if id < list.length then some (slotReplace list id (some table))
  else slotAddInIndex list id (some table)

def createLvl2Tables (m : Memory) : ℕ → Option (Memory × List ℕ)
  | 0 => some (m, [])
  | rows + 1 => do
    let (m, ids) ← createLvl2Tables m rows
    let id := findId m.tablesLvl2 false
    let list ← addTable m.tablesLvl2 id (newPageTableLvl2 c.maxRows)
    return ({ m with tablesLvl2 := list }, ids ++ [id])

/-- The level-1 table: every row is set to the id of its level-2 table. -/
def createTable (m : Memory) (ids : List ℕ) : Option (Memory × ℕ) := do
  let id := findId m.tablesLvl1 true
  let list ← addTable m.tablesLvl1 id (ids.map PageTableLvl1.mk)
  return ({ m with tablesLvl1 := list }, id)

def createNewProcess (m : Memory) : Option (Memory × ℕ) := do
  let (m, ids) ← createLvl2Tables c m c.maxRows
  createTable m ids

/-- Clears a bit of the frame bitmap; the test lets the index one past its end through. -/
def deleteFrame (m : Memory) (id : ℕ) : Option Memory :=
  if id ≤ c.noOfFrames then
    if id < m.frames.length then some { m with frames := m.frames.set id false } else none
  else some m

/-- The rows of a table that give their frame back: only the first `max_frames`. -/
def releasedRows (m : Memory) (tableId : ℕ) : Option (List PageTableLvl2) :=
  match m.table2 tableId with
  | some table => some (table.take (min c.maxRows c.maxFrames))
  | none => if min c.maxRows c.maxFrames = 0 then some [] else none

def releaseRow (m : Memory) (row : PageTableLvl2) : Option Memory :=
  if row.frame ≠ invalidFrame then deleteFrame c m row.frame else some m

def deleteLevel2Table (m : Memory) (tableId : ℕ) : Option Memory := do
  let rows ← releasedRows c m tableId
  let m ← rows.foldlM (releaseRow c) m
  return { m with tablesLvl2 := slotReplace m.tablesLvl2 tableId none }

def deleteRelatedTables (m : Memory) (tableId : ℕ) : Option Memory :=
  match m.table1 tableId with
  | none => some m
  | some table => do
    printTable c m tableId
    let m ← table.foldlM (fun m row => deleteLevel2Table c m row.secondPage) m
    return { m with tablesLvl1 := slotReplace m.tablesLvl1 tableId none }

def deleteProcess (m : Memory) (tableId : ℕ) : Option Memory := deleteRelatedTables c m tableId

/-! ### Frames -/

/-- Maps a frame on the first row of the table that never had one. -/
def createFrameForTable (m : Memory) (tableIndex frame : ℕ) : Option (Memory × ℕ) :=
  match m.table2 tableIndex with
  | none => if c.maxRows = 0 then some (m, uint32Max) else none
  | some table =>
    match table.findIdx? fun row => row.frame == invalidFrame with
    | some i => do
      let m ← m.modifyRow (tableIndex, i) fun row =>
        { row with present := true, frame := frame, use := true }
      return (m, i)
    | none => some (m, uint32Max)

def findFreeFrame (m : Memory) : Memory × ℕ :=
  match m.frames.findIdx? fun used => !used with
  | some i => ({ m with frames := m.frames.set i true }, i)
  | none => (m, uint32Max)

def writeInMemory (m : Memory) (physicalAddress value : ℕ) : Option Memory := do
  let mainMemory ← poke m.mainMemory physicalAddress (wordBytes value)
  return { m with mainMemory }

def readFromMemory (m : Memory) (physicalAddress : ℕ) : Option ℕ := do
  let bytes ← peek m.mainMemory physicalAddress 4
  return bytesWord bytes

def holdsFrame (frame : ℕ) (table : Option (List PageTableLvl2)) : Bool :=
  table.any fun rows => rows.any fun row => row.frame == frame

/-- The first table that holds the frame. -/
def getTableLvl2Number (m : Memory) (frame : ℕ) : ℕ :=
  (m.tablesLvl2.findIdx? (holdsFrame frame)).getD invalidFrame

/-- The row that holds the frame; the table that was found is not checked for `NULL`. -/
def getFrameRef (m : Memory) (frame : ℕ) : Option (Option RowRef) :=
  let id := getTableLvl2Number m frame
  match m.table2 id with
  | none => if c.maxRows = 0 then some none else none
  | some table => some ((table.findIdx? fun row => row.frame == frame).map fun i => (id, i))

/-- Offsets in main memory are products of two `uint32_t`. -/
def getFrameAddress (frame : ℕ) : ℕ := frame * c.tamPagina % 2 ^ 32

/-! ### Swap metadata -/

def getSwapDataForPcb (m : Memory) (pid : ℕ) : Option (ℕ × SwapData) := do
  let i ← m.swapData.findIdx? fun d => d.pid == pid
  let d ← m.swapData[i]?
  return (i, d)

def deleteSwapData (m : Memory) (pid : ℕ) : Memory :=
  { m with swapData := m.swapData.eraseP fun d => d.pid == pid }

end Sski.Mem.OsMemory
