import Sski.Mem.CpuController

/-!
What the memory module does for the kernel, and the requests it serves.
-/

namespace Sski.Mem.KernelController

open Sski.Lib.Block Sski.Mem.MemoryModule Sski.Mem.PageTable Sski.Mem.OsMemory Sski.Mem.Swap
open Sski.Mem.CpuController

variable (c : Cfg)

def getPageTable (m : Memory) : Option (Memory × ℕ) := createNewProcess c m

def kernelControllerMemoryInit (m : Memory) (pid pcbSize : ℕ) (os : Os) :
    Option (Memory × ℕ) := do
  let m := { m with swapData := m.swapData ++ [⟨pid, 0, pcbSize⟩] }
  let m ← createFile m pid pcbSize os
  let (m, pageTable) ← getPageTable c m
  printTables c m
  return (m, pageTable)

def deleteSwappedPcb (m : Memory) (pid : ℕ) : Memory := deleteSwapData (deleteSwapFile m pid) pid

def kernelControllerDestroyProcessFile (m : Memory) (pcbId tableId : ℕ) : Option Memory := do
  let m ← deleteProcess c m tableId
  let m := deleteSwappedPcb m pcbId
  printTables c m
  return m

/-- `swap_pcb_`: the block of a suspended process takes the place of its swap file. -/
def swapPcb (m : Memory) (pid : ℕ) (pcbStream : List UInt8) (os : Os) : Memory :=
  match openFile m pid os with
  | none => m
  | some (m, file) =>
    if mapFails os pcbStream.length then setFile m pid (some (ftruncate file pcbStream.length))
    else setFile m pid (some pcbStream)

def kernelControllerReadSwap (m : Memory) (pcbId : ℕ) (os : Os) (blocks : ℕ → ℕ → UInt8) :
    Option Memory :=
  unswapPcb c m pcbId os blocks

/-! ### Requests -/

/-- A request as it arrives, with what the operating system answers while it is served. -/
inductive Request where
  | memoryInit (pid pcbSize : UInt32) (os : Os)
  | sndPage (op1 op2 : UInt32)
  | frame (pid op1 op2 : UInt32) (os os' : Os)
  | rd (physicalAddress : UInt32)
  | wt (physicalAddress value : UInt32)
  | processTerminated (pcbId tableId : UInt32)

/-- Serves a request; the number is the reply, if there is one. -/
def routine (m : Memory) : Request → Option (Memory × Option ℕ)
  | .memoryInit pid pcbSize os => do
    let (m, pageTable) ← kernelControllerMemoryInit c m pid.toNat pcbSize.toNat os
    return (m, some pageTable)
  | .sndPage op1 op2 => do
    let secondPage ← cpuControllerSendPageSecondLevel c m op1.toNat op2.toNat
    return (m, some secondPage)
  | .frame pid op1 op2 os os' => do
    let (m, frame) ← cpuControllerSendFrame c m pid.toNat op1.toNat op2.toNat os os'
    return (m, some frame)
  | .rd physicalAddress => do
    let (m, value) ← cpuControllerRead c m physicalAddress.toNat
    return (m, some value)
  | .wt physicalAddress value => do
    let m ← cpuControllerWrite c m physicalAddress.toNat value.toNat
    return (m, none)
  | .processTerminated pcbId tableId => do
    let m ← kernelControllerDestroyProcessFile c m pcbId.toNat tableId.toNat
    return (m, none)

def step (m : Memory) (r : Request) : Option Memory := (routine c m r).map Prod.fst

section Steps

variable {c : Cfg} {m m' : Memory}

lemma step_memoryInit {pid pcbSize : UInt32} {os : Os}
    (h : step c m (.memoryInit pid pcbSize os) = some m') :
    ∃ id, kernelControllerMemoryInit c m pid.toNat pcbSize.toNat os = some (m', id) := by
  simpa [step, routine, Option.map_eq_some_iff, Option.bind_eq_some_iff] using h

lemma step_sndPage {op1 op2 : UInt32} (h : step c m (.sndPage op1 op2) = some m') : m' = m := by
  simp only [step, routine, Option.map_eq_some_iff, Option.bind_eq_bind,
    Option.bind_eq_some_iff, Option.pure_def, Option.some.injEq] at h
  obtain ⟨_, ⟨_, -, rfl⟩, rfl⟩ := h
  rfl

lemma step_frame {pid op1 op2 : UInt32} {os os' : Os}
    (h : step c m (.frame pid op1 op2 os os') = some m') :
    ∃ f, obtainFrame c m op1.toNat op2.toNat pid.toNat os os' = some (m', f) := by
  simpa [step, routine, cpuControllerSendFrame, Option.map_eq_some_iff,
    Option.bind_eq_some_iff] using h

lemma step_rd {physicalAddress : UInt32} (h : step c m (.rd physicalAddress) = some m') :
    ∃ v, cpuControllerRead c m physicalAddress.toNat = some (m', v) := by
  simpa [step, routine, Option.map_eq_some_iff, Option.bind_eq_some_iff] using h

lemma step_wt {physicalAddress value : UInt32}
    (h : step c m (.wt physicalAddress value) = some m') :
    cpuControllerWrite c m physicalAddress.toNat value.toNat = some m' := by
  simpa [step, routine, Option.map_eq_some_iff, Option.bind_eq_some_iff] using h

lemma step_processTerminated {pcbId tableId : UInt32}
    (h : step c m (.processTerminated pcbId tableId) = some m') :
    kernelControllerDestroyProcessFile c m pcbId.toNat tableId.toNat = some m' := by
  simpa [step, routine, Option.map_eq_some_iff, Option.bind_eq_some_iff] using h

end Steps

end Sski.Mem.KernelController
