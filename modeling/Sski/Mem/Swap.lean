import Sski.Mem.OsMemory

/-!
The swap files: their creation and removal, and the movement of single frames between main
memory and the file of a process.

A file is used through `mmap`. The mapping covers whole pages of the operating system: past
the end of the file its last page reads as zeros, what is written there is not saved, and an
access behind that page is a fault.
-/

namespace Sski.Mem.Swap

open Sski.Lib.Slots Sski.Lib.Block Sski.Mem.MemoryModule Sski.Mem.OsMemory

/-! ### Files -/

/-- The page of the operating system, the unit `mmap` maps. -/
def osPage : ℕ := 4096

def roundUp (n : ℕ) : ℕ := (n + osPage - 1) / osPage * osPage

/-- The bytes that can be reached through a mapping of `size` bytes of a file. -/
def mmap (file : List UInt8) (size : ℕ) : List UInt8 :=
  (file ++ List.replicate (roundUp file.length - file.length) 0).take (roundUp size)

/-- The file after its mapping was written back and removed. -/
def munmap (file region : List UInt8) : List UInt8 :=
  (region ++ file.drop region.length).take file.length

def ftruncate (file : List UInt8) (length : ℕ) : List UInt8 :=
  file.take length ++ List.replicate (length - file.length) 0

/-- A mapping is refused by the system, or because it is empty. -/
def mapFails (os : Os) (size : ℕ) : Bool := !os.maps || size == 0

def setFile (m : Memory) (pid : ℕ) (file : Option (List UInt8)) : Memory :=
  { m with files := Function.update m.files pid file }

def openFile (m : Memory) (pid : ℕ) (os : Os) : Option (Memory × List UInt8) :=
  if os.opens then
    let file := (m.files pid).getD []
    some (setFile m pid (some file), file)
  else none

/-- A new file of the given size that starts with the process id. -/
def createFile (m : Memory) (pid size : ℕ) (os : Os) : Option Memory :=
  let m := setFile m pid none
  match openFile m pid os with
  | none => some m
  | some (m, file) =>
    let file := ftruncate file size
    let m := setFile m pid (some file)
    if mapFails os size then some m
    else do
      let region ← poke (mmap file size) 0 (wordBytes pid)
      return setFile m pid (some (munmap file region))

def deleteSwapFile (m : Memory) (pid : ℕ) : Memory := setFile m pid none

/-! ### Frames -/

variable (c : Cfg)

/-- The size of a record: the frame's number and its bytes. -/
def swapEntry : ℕ := 4 + c.tamPagina

def frameStream (m : Memory) (frame : ℕ) : Option (List UInt8) := do
  let bytes ← peek m.mainMemory (getFrameAddress c frame) c.tamPagina
  return wordBytes frame ++ bytes

def swapFrame (m : Memory) (frame : ℕ) (region : List UInt8) (offset : ℕ) :
    Option (List UInt8 × ℕ) := do
  let stream ← frameStream c m frame
  let region ← poke region offset stream
  return (region, (offset + swapEntry c) % 2 ^ 32)

def setSwapOffset (m : Memory) (i offset : ℕ) : Memory :=
  { m with swapData := m.swapData.modify i fun d => { d with offset } }

/-- Sets the present bit of the row a lookup found; the lookup may have found none. -/
def setPresent (m : Memory) (frame : ℕ) (present : Bool) : Option Memory := do
  let p ← (← getFrameRef c m frame)
  m.modifyRow p fun row => { row with present }

def swapFrameForPcb (m : Memory) (pid frame : ℕ) (os : Os) : Option Memory :=
  match getSwapDataForPcb m pid with
  | none => some m
  | some (i, swapData) =>
    match openFile m pid os with
    | none => some m
    | some (m, file) =>
      let file := ftruncate file swapData.size
      let m := setFile m pid (some file)
      if mapFails os swapData.size then some m
      else do
        let (region, offset) ← swapFrame c m frame (mmap file swapData.size) swapData.offset
        let m := setSwapOffset (setFile m pid (some (munmap file region))) i offset
        setPresent c m frame false

/-- The first record of a frame among the records that start below the offset. -/
def findRecord (region : List UInt8) (frame : ℕ) : List ℕ → Option (Option ℕ)
  | [] => some none
  | i :: is => do
    let word ← peek region i 4
    if bytesWord word = frame then return some i else findRecord region frame is

def recordStarts (offset : ℕ) : List ℕ :=
  (List.range ((offset + swapEntry c - 1) / swapEntry c)).map (· * swapEntry c)

/-- Copies a page back: `sizeof(size_t)` bytes come from the file, the rest of the page is
what the heap block held. -/
def loadPage (m : Memory) (region : List UInt8) (i frame : ℕ) (os : Os) : Option Memory := do
  let saved ← peek region (i + 4) 8
  let frameData ← poke (malloc os.heap c.tamPagina) 0 saved
  let mainMemory ← poke m.mainMemory (c.tamPagina * frame) frameData
  return { m with mainMemory }

def loadRecord (m : Memory) (region : List UInt8) (frame : ℕ) (os : Os) :
    Option ℕ → Option Memory
  | some i => loadPage c m region i frame os
  | none => some m

/-- Fills the hole of a removed record with the last `page_size` bytes below the offset. -/
def fillHole (region : List UInt8) (replaceIndex offset : ℕ) : Option (List UInt8 × ℕ) :=
  if offset > c.tamPagina then do
    let last ← peek region (offset - c.tamPagina) c.tamPagina
    let region ← poke region replaceIndex last
    return (region, (offset + 2 ^ 32 - swapEntry c) % 2 ^ 32)
  else some (region, 0)

def unswapFrameForPcb (m : Memory) (pid frame : ℕ) (os : Os) : Option Memory :=
  match openFile m pid os with
  | none => some m
  | some (m, file) => do
    let (k, swapData) ← getSwapDataForPcb m pid
    if mapFails os swapData.size then some m
    else do
      let region := mmap file swapData.size
      let found ← findRecord region frame (recordStarts c swapData.offset)
      let m ← loadRecord c m region frame os found
      let (region, offset) ← fillHole c region (found.getD 0) swapData.offset
      let m := setSwapOffset (setFile m pid (some (munmap file region))) k offset
      setPresent c m frame true

/-! ### Whole processes -/

/-- One turn of the loop of `unswap_pcb`, at the record that starts at `i`: a page that is present
is loaded, an absent one moves the offset behind its record. -/
def unswapRecord (m : Memory) (k : ℕ) (region : List UInt8) (os : Os) (i : ℕ) : Option Memory := do
  let word ← peek region i 4
  let p ← (← getFrameRef c m (bytesWord word))
  let frameRef ← m.rowAt p
  if frameRef.present then loadPage c m region i frameRef.frame os
  else return setSwapOffset m k ((i + swapEntry c) % 2 ^ 32)

/-- `swap_data->offset`, which the loop reads at every turn. -/
def offsetAt (m : Memory) (k : ℕ) : ℕ := ((m.swapData[k]?).map SwapData.offset).getD 0

/-- The loop of `unswap_pcb`, with the index it ends at. Every turn asks for a block of its own. -/
def unswapRecords (k : ℕ) (region : List UInt8) (os : Os) (blocks : ℕ → ℕ → UInt8) :
    ℕ → Memory → ℕ → Option (Memory × ℕ)
  | 0, _, _ => none
  | fuel + 1, m, i =>
    if i < offsetAt m k then do
      let m ← unswapRecord c m k region { os with heap := blocks i } i
      unswapRecords k region os blocks fuel m (i + swapEntry c)
    else some (m, i)

def unswapPcb (m : Memory) (pid : ℕ) (os : Os) (blocks : ℕ → ℕ → UInt8) : Option Memory :=
  let swapData := getSwapDataForPcb m pid
  match openFile m pid os with
  | none => some m
  | some (m, file) => do
    let (k, swapData) ← swapData
    if mapFails os swapData.size then some m
    else do
      let region := mmap file swapData.size
      -- the offset never grows, and every turn moves on
      let (m, _) ← unswapRecords c k region os blocks (swapData.offset + 1) m 0
      return setFile m pid (some (munmap file region))

end Sski.Mem.Swap
