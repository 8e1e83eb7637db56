import Mathlib.Data.Nat.Notation
import Mathlib.Tactic.Lemma
import Mathlib.Tactic.TypeStar
import Mathlib.Data.List.Basic
import Mathlib.Algebra.Group.Nat.Defs

/-!
The CPU: instructions, the process control block it works on, and the cycle of fetching,
decoding and executing one instruction.

The cycle reaches memory through a `Port`, which stands for the MMU, the TLB and the
connection to the memory module. What a cycle does to the outside is its list of effects.
-/

namespace Sski.Cpu.Cycle

/-- `instcode_t`; `noInstruction` stands for every value that is not an operation. -/
inductive InstructionCode | exit | read | write | noOp | io | copy | noInstruction
  deriving DecidableEq, Repr

structure Instruction where
  icode : InstructionCode
  param0 : UInt32
  param1 : UInt32
  deriving DecidableEq, Repr

/-- `pcb_status_t`. -/
inductive PcbStatus
  | none | new | ready | executing | suspendedReady | blocked | suspendedBlocked | terminated
  deriving DecidableEq, Repr

structure Pcb where
  id : UInt32
  status : PcbStatus
  instructions : List Instruction
  pageTable : UInt32
  pc : UInt32
  deriving DecidableEq, Repr

inductive Effect where
  | read (logicalAddress value : UInt32)
  | write (logicalAddress value : UInt32)
  | returnPcb (id : UInt32) (status : PcbStatus) (pc time : UInt32)
  deriving DecidableEq, Repr

/-- Memory as the CPU reaches it, for the process with this id and level-1 table. -/
structure Port (σ : Type*) where
  read : σ → (pid pageTable logicalAddress : UInt32) → UInt32 × σ
  write : σ → (pid pageTable logicalAddress value : UInt32) → σ
  /-- What resetting the TLB does. -/
  reset : σ → σ

structure Cpu (σ : Type*) where
  pcb : Option Pcb
  hasInterruption : Bool
  memory : σ

variable {σ : Type*} (port : Port σ)

/-- The list takes the counter as an `int`, so from `2 ^ 31` on nothing is found. -/
def instructionFetch (pcb : Pcb) : Option Instruction :=
  if pcb.pc.toNat < 2 ^ 31 then pcb.instructions[pcb.pc.toNat]? else none

def decode (instruction : Instruction) : Bool := instruction.icode = .copy

/-- The block is sent back and given up, and the TLB starts anew. -/
def returnPcb (cpu : Cpu σ) (pcb : Pcb) (time : UInt32) : Cpu σ × List Effect :=
  ({ cpu with pcb := none, memory := port.reset cpu.memory },
    [.returnPcb pcb.id pcb.status pcb.pc time])

def executeRead (cpu : Cpu σ) (pcb : Pcb) (logicalAddress : UInt32) : UInt32 × Cpu σ :=
  let (value, memory) := port.read cpu.memory pcb.id pcb.pageTable logicalAddress
  (value, { cpu with memory })

def executeWrite (cpu : Cpu σ) (pcb : Pcb) (logicalAddress value : UInt32) : Cpu σ :=
  { cpu with memory := port.write cpu.memory pcb.id pcb.pageTable logicalAddress value }

def fetchOperands (cpu : Cpu σ) (pcb : Pcb) (logicalAddress : UInt32) : UInt32 × Cpu σ :=
  executeRead port cpu pcb logicalAddress

def executeIO (cpu : Cpu σ) (pcb : Pcb) (instruction : Instruction) : Cpu σ × List Effect :=
  returnPcb port cpu { pcb with status := .blocked } instruction.param0

def executeExit (cpu : Cpu σ) (pcb : Pcb) (instruction : Instruction) : Cpu σ × List Effect :=
  returnPcb port { cpu with memory := port.reset cpu.memory } { pcb with status := .terminated }
    instruction.param0

def executeCopy (cpu : Cpu σ) (pcb : Pcb) (param1 param2 : UInt32) : Cpu σ :=
  executeWrite port cpu pcb param1 param2

def instructionExecute (cpu : Cpu σ) (pcb : Pcb) (instruction : Instruction) :
    Cpu σ × List Effect :=
  match instruction.icode with
  | .noOp => (cpu, [])
  | .io => executeIO port cpu pcb instruction
  | .exit => executeExit port cpu pcb instruction
  | .read =>
    let (value, cpu) := executeRead port cpu pcb instruction.param0
    (cpu, [.read instruction.param0 value])
  | .write =>
    (executeWrite port cpu pcb instruction.param0 instruction.param1,
      [.write instruction.param0 instruction.param1])
  | .copy =>
    (executeCopy port cpu pcb instruction.param0 instruction.param1,
      [.write instruction.param0 instruction.param1])
  | .noInstruction => (cpu, [])

/-- The operands of a copy are fetched: its second parameter becomes the value that was read,
and its first one the first of `operandos`, which nothing has set. -/
def withOperands (cpu : Cpu σ) (pcb : Pcb) (instruction : Instruction) :
    Cpu σ × Pcb × Instruction × List Effect :=
  let operandos : UInt32 × UInt32 := (0, 0)
  let (value, cpu) := fetchOperands port cpu pcb instruction.param1
  let fetched := { instruction with param0 := operandos.1, param1 := value }
  -- the instruction is changed in the list of the block, behind the counter
  let pcb := { pcb with instructions := pcb.instructions.set (pcb.pc - 1).toNat fetched }
  ({ cpu with pcb := some pcb }, pcb, fetched, [.read instruction.param1 value])

def cycle (cpu : Cpu σ) : Cpu σ × List Effect :=
  match cpu.pcb with
  | none => (cpu, [])
  | some pcb =>
    if cpu.hasInterruption then
      let (cpu, effects) := returnPcb port { cpu with memory := port.reset cpu.memory }
        { pcb with status := .ready } 0
      ({ cpu with hasInterruption := false }, effects)
    else
      let next := { pcb with pc := pcb.pc + 1 }
      let cpu := { cpu with pcb := some next }
      match instructionFetch pcb with
      | none => (cpu, [])
      | some instruction =>
        if decode instruction then
          let (cpu, next, fetched, effects) := withOperands port cpu next instruction
          let (cpu, effects') := instructionExecute port cpu next fetched
          (cpu, effects ++ effects')
        else instructionExecute port cpu next instruction

def cycles : ℕ → Cpu σ → Cpu σ × List Effect
  | 0, cpu => (cpu, [])
  | k + 1, cpu =>
    let (cpu, effects) := cycles k cpu
    let (cpu, effects') := cycle port cpu
    (cpu, effects ++ effects')

end Sski.Cpu.Cycle
