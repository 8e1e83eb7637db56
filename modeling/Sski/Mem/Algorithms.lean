import Sski.Mem.OsMemory

/-!
The two replacement algorithms. Each walks the pointers to the rows of a process from a hand
that lives in a static variable, so it survives from one call, and one process, to the next.
-/

namespace Sski.Mem.Algorithms

open Sski.Mem.MemoryModule Sski.Mem.PageTable

variable (c : Cfg)

/-- One `for` loop of a selector over the indices `js` of the big table. The first present
row that matches is taken and its use bit set; the use bit of a present row that does not is
cleared where `clear` says so. The result is the index and the frame that were taken. -/
def scan (bigTable : List RowRef) (hit : PageTableLvl2 → Bool) (clear : ℕ → Bool) :
    List ℕ → Memory → Option (Memory × Option (ℕ × ℕ))
  | [], m => some (m, none)
  | j :: js, m => do
    let p ← bigTable[j]?
    let row ← m.rowAt p
    if row.present then
      if hit row then return (m.setRow p { row with use := true }, some (j, row.frame))
      else if clear j then scan bigTable hit clear js (m.setRow p { row with use := false })
      else scan bigTable hit clear js m
    else scan bigTable hit clear js m

/-- A pass: from the hand to the end, then from the start up to the hand, which is visited
again. The second loop only runs if the first took nothing. -/
def pass (bigTable : List RowRef) (hit : PageTableLvl2 → Bool) (clear clear' : ℕ → Bool)
    (totalRows hand : ℕ) (m : Memory) : Option (Memory × Option (ℕ × ℕ)) := do
  let (m, found) ← scan bigTable hit clear (List.range' hand (totalRows - hand)) m
  match found with
  | some taken => return (m, some taken)
  | none => scan bigTable hit clear' (List.range (hand + 1)) m

def totalRows : ℕ := c.maxRows * c.maxRows

def nextHand (totalRows j : ℕ) : ℕ := if j + 1 ≥ totalRows then 0 else j + 1

/-- The big table as a selector starts with it: it logs every row first. -/
def bigTableOf (m : Memory) (tableIndex : ℕ) : Option (List RowRef) := do
  let bigTable ← (← createBigTable c m tableIndex)
  if bigTable.length = totalRows c ∧ bigTable.all (fun p => (m.rowAt p).isSome) then
    some bigTable
  else none

/-- Clears every use bit, of the rows that are present and of those that are not. -/
def resetUse (bigTable : List RowRef) (m : Memory) : Option Memory :=
  bigTable.foldlM (fun m p => m.modifyRow p fun row => { row with use := false }) m

def notUsed (row : PageTableLvl2) : Bool := !row.use

def notUsedClean (row : PageTableLvl2) : Bool := !row.use && !row.modified

def notUsedDirty (row : PageTableLvl2) : Bool := !row.use && row.modified

def never (_ : ℕ) : Bool := false

def always (_ : ℕ) : Bool := true

/-- The hand is chosen, whatever its row holds, when the pass finds nothing. -/
def clockSelector (m : Memory) (tableIndex : ℕ) : Option (Memory × ℕ) := do
  let bigTable ← bigTableOf c m tableIndex
  let hand := m.clock
  let (m, found) ← pass bigTable notUsed (· == hand) never (totalRows c) hand m
  match found with
  | some (j, frame) => return ({ m with clock := nextHand (totalRows c) j }, frame)
  | none => do
    let m ← resetUse bigTable m
    let p ← bigTable[hand]?
    let row ← m.rowAt p
    let m := m.setRow p { row with use := true }
    return ({ m with clock := if hand + 1 ≤ totalRows c then 0 else hand + 1 }, row.frame)

/-- A pass for clean rows, one for dirty rows that clears use bits, and the first again. -/
def improvedClockSelector (m : Memory) (tableIndex : ℕ) : Option (Memory × ℕ) := do
  let bigTable ← bigTableOf c m tableIndex
  let hand := m.improvedClock
  let next (m : Memory) (j : ℕ) := { m with improvedClock := nextHand (totalRows c) j }
  let (m, found) ← pass bigTable notUsedClean never never (totalRows c) hand m
  match found with
  | some (j, frame) => return (next m j, frame)
  | none => do
    let (m, found) ← pass bigTable notUsedDirty always always (totalRows c) hand m
    match found with
    | some (j, frame) => return (next m j, frame)
    | none => do
      let (m, found) ← pass bigTable notUsedClean never never (totalRows c) hand m
      match found with
      | some (j, frame) => return (next m j, frame)
      | none => return (m, invalidFrame)

def frameSelector (m : Memory) (tableIndex : ℕ) : Option (Memory × ℕ) :=
  match c.algoritmoReemplazo with
  | .clock => clockSelector c m tableIndex
  | .clockM => improvedClockSelector c m tableIndex

def hand (m : Memory) : ℕ :=
  match c.algoritmoReemplazo with
  | .clock => m.clock
  | .clockM => m.improvedClock

end Sski.Mem.Algorithms
