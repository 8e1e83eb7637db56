import Sski.Cpu.Cycle
import Mathlib.Data.List.Sort
import Mathlib.Order.Basic

/-!
The kernel's scheduler as its threads see it: the process control blocks, five queues of
pointers to them, four semaphores, the id of the process that does I/O, and where each thread
is.

A thread is where its next queue operation, semaphore operation or write of a field is, with
the local variables it still needs. A block that was freed holds whatever others leave there.
-/

namespace Sski.Scheduling.Scheduler

open Sski.Cpu.Cycle (Instruction PcbStatus)

/-- A pointer to a process control block. -/
abbrev Addr := ℕ

structure Pcb where
  id : UInt32
  status : PcbStatus
  size : UInt32
  instructions : List Instruction
  pageTable : UInt32
  estimation : UInt32
  pc : UInt32
  io : UInt32
  real : UInt32
  deriving DecidableEq, Repr

def uint32Max : UInt32 := 0xffffffff

def newPcb (id size estimation : UInt32) : Pcb :=
  ⟨id, .none, size, [], uint32Max, estimation, 0, 0, 0⟩

/-! ### Configuration -/

/-- `ALGORITMO_PLANIFICACION`: the string `"FIFO"`, or any other. -/
inductive Algoritmo | fifo | srt
  deriving DecidableEq, Repr

inductive GetNext | fifo | srt
  deriving DecidableEq, Repr

structure Cfg where
  gradoMultiprogramacion : ℕ
  algoritmoPlanificacion : Algoritmo
  estimacionInicial : UInt32
  /-- The average `re_schedule` computes in floating point. -/
  nextEstimation : (real estimation : UInt32) → UInt32

/-- `scheduler->interrupt`, as `new_scheduler` sets it. -/
def Cfg.interrupt (c : Cfg) : Bool := !decide (c.algoritmoPlanificacion = .fifo)

/-- `scheduler->get_next`, as `new_scheduler` sets it. -/
def Cfg.getNext (c : Cfg) : GetNext := if c.interrupt then .fifo else .srt

def srtCfg : Cfg := ⟨2, .srt, 10, fun _ estimation => estimation⟩

/-! ### Queues -/

abbrev Heap := Addr → Pcb

def zeroHeap : Heap := fun _ => newPcb 0 0 0

def pcbExists (heap : Heap) (queue : List Addr) (id : UInt32) : Bool :=
  queue.any fun a => (heap a).id == id

def pcbRemoveById (heap : Heap) (queue : List Addr) (id : UInt32) : Option Addr × List Addr :=
  (queue.find? fun a => (heap a).id == id, queue.eraseP fun a => (heap a).id == id)

def SortByEstimation (heap : Heap) (a b : Addr) : Prop := (heap a).estimation ≤ (heap b).estimation

instance (heap : Heap) : DecidableRel (SortByEstimation heap) := fun a b =>
  inferInstanceAs (Decidable ((heap a).estimation ≤ (heap b).estimation))

/-- `safe_queue_sort` of a queue of blocks; the list's sort is stable. -/
def sortByEstimation (heap : Heap) (queue : List Addr) : List Addr :=
  queue.insertionSort (SortByEstimation heap)

/-! ### Threads -/

/-- `long_term_schedule` and `admit`. -/
inductive Lts where
  | waitReqAdmit
  | waitDom
  | resume
  | popNew
  | requestPageTable (pcb : Option Addr)
  | setReady (pcb : Option Addr)
  | checkInterruption (pcb : Addr)
  | sendInterrupt (pcb : Addr)
  | pushReady (pcb : Addr)
  | signalExecute (pcb : Option Addr)
  deriving DecidableEq, Repr

/-- `short_term_schedule`, `execute` and what it calls. In `terminate`, `sent` says that the
block came back from the CPU. -/
inductive Sts where
  | waitExecute
  | sortReady
  | popReady
  | setExecuting (pcb : Addr)
  | setCurrentEstimation (pcb : Addr)
  | sendPcb (pcb : Addr)
  | destroySent (pcb : Addr)
  | receivePcb
  | setReal (pcb : Addr) (ioTime : UInt32)
  | clearCurrentEstimation (pcb : Addr) (ioTime : UInt32)
  | switchStatus (pcb : Addr) (ioTime : UInt32)
  | setIo (pcb : Addr) (ioTime : UInt32)
  | reSchedule (pcb : Addr)
  | pushBlocked (pcb : Addr)
  | notifyMts (pcb : Addr)
  | signalIoRequest
  | exitProcess (pcb : Addr) (sent : Bool)
  | destroyPcb (pcb : Addr) (sent : Bool)
  | signalDom (sent : Bool)
  | preEmpt (pcb : Addr)
  | pushReady (pcb : Addr)
  | signalExecute
  deriving DecidableEq, Repr

/-- `io_scheduler`, `retrieve_pcb`, and `suspended_event` or `event`. -/
inductive Io where
  | waitIoRequest
  | popBlockedSus
  | popBlocked
  | setCurrentIo (pcb : Addr)
  | sleep (pcb : Addr)
  | switchStatus (pcb : Addr)
  | existsBlockedSus (pcb : Addr)
  | removeBlockedSus (pcb : Addr)
  | setSuspendedReady (pcb : Addr)
  | pushReadySus (pcb : Addr)
  | signalReqAdmit
  | setReady (pcb : Addr)
  | pushReady (pcb : Addr)
  | checkInterruption (pcb : Addr)
  | sendInterrupt (pcb : Addr)
  | signalExecute
  | clearCurrentIo
  deriving DecidableEq, Repr

/-- `track_time` and `suspend`. -/
inductive MtsPc where
  | readPid
  | existsBlocked
  | testCurrentIo
  | removeBlocked
  | signalDom
  | setSuspendedBlocked
  | pushBlockedSus
  | sendSwap
  | ended
  deriving DecidableEq, Repr

structure Tracker where
  pcb : Addr
  pid : UInt32
  removed : Option Addr
  pc : MtsPc
  deriving DecidableEq, Repr

def Tracker.target (t : Tracker) : Addr := t.removed.getD t.pcb

/-- A message of a console; `other` stands for those that no handler does anything with. -/
inductive Message where
  | newProcess (size : UInt32)
  | cmd (instructions : List Instruction)
  | other
  deriving DecidableEq, Repr

/-- `dispatch_handle_syscall` and `dispatch_handle_instruction`. -/
inductive ConsolePc where
  | receive
  | getPidLibre (size : UInt32)
  | addPcb (size : UInt32)
  | getPcbByPid (instructions : List Instruction)
  | setInstructions (pcb : Addr) (instructions : List Instruction)
  | pushNew (pcb : Addr)
  | signalReqAdmit
  deriving DecidableEq, Repr

/-- A connection: `routine`, with its variable `sender_pid`. -/
structure Console where
  senderPid : UInt32
  pc : ConsolePc
  deriving DecidableEq, Repr

/-! ### The kernel -/

def maxPids : ℕ := 1024

def undefined : UInt32 := 1025

structure Kernel where
  heap : Heap
  /-- The blocks that are allocated. -/
  inUse : Addr → Bool
  pool : List Bool
  pcbs : List Addr
  new : List Addr
  ready : List Addr
  readySus : List Addr
  blocked : List Addr
  blockedSus : List Addr
  dom : ℕ
  reqAdmit : ℕ
  ioRequest : ℕ
  execute : ℕ
  currentIo : UInt32
  currentEstimation : UInt32
  /-- The block that was sent to the CPU. -/
  cpu : Option Pcb
  consoles : List Console
  lts : Lts
  sts : Sts
  io : Io
  trackers : List Tracker

variable (c : Cfg)

/-- `on_init_kernel` and `new_scheduler`, with the threads started. -/
def initKernel (heap : Heap) : Kernel where
  heap := heap
  inUse := fun _ => false
  pool := List.replicate maxPids false
  pcbs := []
  new := []
  ready := []
  readySus := []
  blocked := []
  blockedSus := []
  dom := c.gradoMultiprogramacion
  reqAdmit := 0
  ioRequest := 0
  execute := 0
  currentIo := uint32Max
  currentEstimation := 0
  cpu := none
  consoles := []
  lts := .waitReqAdmit
  sts := .waitExecute
  io := .waitIoRequest
  trackers := []

def modify (heap : Heap) (a : Addr) (f : Pcb → Pcb) : Heap :=
  fun b => if b = a then f (heap a) else heap b

def setStatus (heap : Heap) (a : Addr) (status : PcbStatus) : Heap :=
  modify heap a fun pcb => { pcb with status }

def fill (heap : Heap) (a : Addr) (pcb : Pcb) : Heap := fun b => if b = a then pcb else heap b

/-- `malloc` and `free` of a block. -/
def setInUse (inUse : Addr → Bool) (a : Addr) (used : Bool) : Addr → Bool :=
  fun b => if b = a then used else inUse b

/-! What is not written stays as it is. -/

lemma modify_of_ne {heap : Heap} {a b : Addr} (f : Pcb → Pcb) (h : b ≠ a) :
    modify heap a f b = heap b := if_neg h

lemma modify_field {β : Type*} (g : Pcb → β) {heap : Heap} {a : Addr} {f : Pcb → Pcb}
    (hf : ∀ pcb, g (f pcb) = g pcb) (b : Addr) : g (modify heap a f b) = g (heap b) := by
  by_cases h : b = a
  · subst h
    simp [modify, hf]
  · rw [modify_of_ne f h]

@[simp] lemma setStatus_id (heap : Heap) (a b : Addr) (status : PcbStatus) :
    (setStatus heap a status b).id = (heap b).id := by
  refine modify_field Pcb.id ?_ b
  intro
  rfl

@[simp] lemma setStatus_self (heap : Heap) (a : Addr) (status : PcbStatus) :
    (setStatus heap a status a).status = status := by
  simp [setStatus, modify]

lemma setStatus_of_ne {heap : Heap} {a b : Addr} (status : PcbStatus) (h : b ≠ a) :
    (setStatus heap a status b).status = (heap b).status := by
  rw [setStatus, modify_of_ne _ h]

@[simp] lemma fill_self (heap : Heap) (a : Addr) (pcb : Pcb) : fill heap a pcb a = pcb := if_pos rfl

lemma fill_of_ne {heap : Heap} {a b : Addr} (pcb : Pcb) (h : b ≠ a) :
    fill heap a pcb b = heap b := if_neg h

@[simp] lemma setInUse_self (inUse : Addr → Bool) (a : Addr) (used : Bool) :
    setInUse inUse a used a = used := if_pos rfl

lemma setInUse_of_ne {inUse : Addr → Bool} {a b : Addr} (used : Bool) (h : b ≠ a) :
    setInUse inUse a used b = inUse b := if_neg h

def shouldInterrupt (k : Kernel) (pcb : Addr) : Bool :=
  decide (k.currentEstimation > (k.heap pcb).estimation)

/-- What `check_interruption` decides. -/
def raises (k : Kernel) (pcb : Addr) : Bool := c.interrupt && shouldInterrupt k pcb

end Sski.Scheduling.Scheduler
