import Sski.Scheduling.Scheduler

/-!
The steps of the kernel's threads: the handlers of the consoles, the long-term and the
short-term scheduler, the I/O thread, and the trackers of blocked processes.

A step is `none` if the thread has to wait, or if it dereferences a null pointer.
-/

namespace Sski.Scheduling.Threads

open Sski.Cpu.Cycle (Instruction PcbStatus)
open Sski.Scheduling.Scheduler

/-- What the outside answers to a step of the short-term scheduler: whether a block was sent,
the time it ran, and where and how it came back. -/
structure Outside where
  sent : Bool
  real : UInt32
  addr : Addr
  status : PcbStatus
  pc : UInt32
  instructions : List Instruction
  ioTime : UInt32

/-- `memory` is the answer to `MEMORY_INIT`: there is no connection, or nothing was received,
or a table. `addr` is what `malloc` returns. -/
inductive Event where
  | connect
  | message (i : ℕ) (m : Message)
  | console (i : ℕ) (addr : Addr)
  | lts (memory : Option (Option UInt32))
  | sts (o : Outside)
  | io
  | mts (i : ℕ)
  /-- Somebody else writes to a block that is not in use. -/
  | scribble (a : Addr) (pcb : Pcb)

variable (c : Cfg) (k : Kernel)

/-! ### Consoles -/

def getPidLibre (pool : List Bool) : List Bool × UInt32 :=
  match pool.findIdx? (! ·) with
  | some i => (pool.set i true, UInt32.ofNat i)
  | none => (pool, undefined)

def routineStep (i : ℕ) (m : Message) : Option Kernel :=
  match k.consoles[i]? with
  | some ⟨pid, .receive⟩ =>
    match m with
    | .newProcess size => some { k with consoles := k.consoles.set i ⟨pid, .getPidLibre size⟩ }
    | .cmd instructions =>
      some { k with consoles := k.consoles.set i ⟨pid, .getPcbByPid instructions⟩ }
    | .other => some k
  | _ => none

/-- `dispatch_handle_syscall` and `dispatch_handle_instruction`. -/
def consoleStep (i : ℕ) (addr : Addr) : Option Kernel :=
  match k.consoles[i]? with
  | none => none
  | some ⟨pid, pc⟩ =>
    match pc with
    | .receive => none
    | .getPidLibre size =>
      let (pool, pid) := getPidLibre k.pool
      if pid ≠ undefined then
        some { k with pool, consoles := k.consoles.set i ⟨pid, .addPcb size⟩ }
      else some { k with pool, consoles := k.consoles.set i ⟨pid, .receive⟩ }
    | .addPcb size =>
      if k.inUse addr then none
      else some { k with
        heap := fill k.heap addr (newPcb pid size c.estimacionInicial)
        inUse := setInUse k.inUse addr true
        pcbs := k.pcbs ++ [addr]
        consoles := k.consoles.set i ⟨pid, .receive⟩ }
    | .getPcbByPid instructions =>
      match pcbRemoveById k.heap k.pcbs pid with
      | (none, _) => some { k with consoles := k.consoles.set i ⟨pid, .receive⟩ }
      | (some a, pcbs) =>
        some { k with pcbs, consoles := k.consoles.set i ⟨pid, .setInstructions a instructions⟩ }
    | .setInstructions a instructions =>
      some { k with
        heap := modify k.heap a fun pcb => { pcb with instructions }
        consoles := k.consoles.set i ⟨pid, .pushNew a⟩ }
    | .pushNew a =>
      some { k with new := k.new ++ [a], consoles := k.consoles.set i ⟨pid, .signalReqAdmit⟩ }
    | .signalReqAdmit =>
      some { k with reqAdmit := k.reqAdmit + 1, consoles := k.consoles.set i ⟨pid, .receive⟩ }

/-! ### The long-term scheduler -/

/-- `long_term_schedule` and `admit`. -/
def ltsStep (memory : Option (Option UInt32)) : Option Kernel :=
  match k.lts with
  | .waitReqAdmit =>
    if k.reqAdmit = 0 then none else some { k with reqAdmit := k.reqAdmit - 1, lts := .waitDom }
  | .waitDom => if k.dom = 0 then none else some { k with dom := k.dom - 1, lts := .resume }
  | .resume =>
    match k.readySus with
    | a :: readySus => some { k with readySus, lts := .setReady (some a) }
    | [] => some { k with lts := .popNew }
  | .popNew =>
    match k.new with
    | a :: new => some { k with new, lts := .requestPageTable (some a) }
    | [] => some { k with lts := .requestPageTable none }
  | .requestPageTable pcb =>
    match memory, pcb with
    | none, pcb => some { k with lts := .setReady pcb }
    | some _, none => none
    | some none, some a => some { k with lts := .setReady (some a) }
    | some (some pageTable), some a =>
      some { k with
        heap := modify k.heap a fun pcb => { pcb with pageTable }
        lts := .setReady (some a) }
  | .setReady none => some { k with lts := .signalExecute none }
  | .setReady (some a) =>
    some { k with heap := setStatus k.heap a .ready, lts := .checkInterruption a }
  | .checkInterruption a =>
    if raises c k a then some { k with lts := .sendInterrupt a }
    else some { k with lts := .pushReady a }
  | .sendInterrupt a => some { k with lts := .pushReady a }
  | .pushReady a => some { k with ready := k.ready ++ [a], lts := .signalExecute (some a) }
  | .signalExecute _ => some { k with execute := k.execute + 1, lts := .waitReqAdmit }

/-! ### The short-term scheduler -/

def preEmpted (pcb : Pcb) : Pcb :=
  { pcb with estimation :=
      if pcb.real < pcb.estimation then pcb.estimation - pcb.real else pcb.real - pcb.estimation }

/-- `pcb_from_stream` of what the CPU returns: the other fields are as the block has them. -/
def received (pcb : Pcb) (o : Outside) (block : Pcb) : Pcb :=
  { pcb with status := o.status, pc := o.pc, instructions := o.instructions, io := block.io,
             real := block.real }

/-- `short_term_schedule`, `execute`, `block`, `pre_empt` and `terminate`. -/
def stsStep (o : Outside) : Option Kernel :=
  match k.sts with
  | .waitExecute =>
    if k.execute = 0 then none
    else some { k with
      execute := k.execute - 1
      sts := match c.getNext with
        | .fifo => .popReady
        | .srt => .sortReady }
  | .sortReady => some { k with ready := sortByEstimation k.heap k.ready, sts := .popReady }
  | .popReady =>
    match k.ready with
    | a :: ready => some { k with ready, sts := .setExecuting a }
    | [] => some { k with sts := .waitExecute }
  | .setExecuting a =>
    some { k with heap := setStatus k.heap a .executing, sts := .setCurrentEstimation a }
  | .setCurrentEstimation a =>
    some { k with currentEstimation := (k.heap a).estimation, sts := .sendPcb a }
  | .sendPcb a =>
    if o.sent then some { k with cpu := some (k.heap a), sts := .destroySent a }
    else some { k with sts := .exitProcess a false }
  | .destroySent a => some { k with inUse := setInUse k.inUse a false, sts := .receivePcb }
  | .receivePcb =>
    match k.cpu with
    | none => none
    | some pcb =>
      if k.inUse o.addr then none
      else some { k with
        heap := fill k.heap o.addr (received pcb o (k.heap o.addr))
        inUse := setInUse k.inUse o.addr true
        cpu := none
        sts := .setReal o.addr o.ioTime }
  | .setReal a ioTime =>
    some { k with
      heap := modify k.heap a fun pcb => { pcb with real := o.real }
      sts := .clearCurrentEstimation a ioTime }
  | .clearCurrentEstimation a ioTime =>
    some { k with currentEstimation := 0, sts := .switchStatus a ioTime }
  | .switchStatus a ioTime =>
    match (k.heap a).status with
    | .blocked => some { k with sts := .setIo a ioTime }
    | .ready => some { k with sts := .preEmpt a }
    | _ => some { k with sts := .exitProcess a true }
  | .setIo a ioTime =>
    some { k with
      heap := modify k.heap a fun pcb => { pcb with io := ioTime }, sts := .reSchedule a }
  | .reSchedule a =>
    some { k with
      heap := modify k.heap a fun pcb =>
        { pcb with estimation := c.nextEstimation pcb.real pcb.estimation }
      sts := .pushBlocked a }
  | .pushBlocked a => some { k with blocked := k.blocked ++ [a], sts := .notifyMts a }
  | .notifyMts a =>
    some { k with trackers := k.trackers ++ [⟨a, 0, none, .readPid⟩], sts := .signalIoRequest }
  | .signalIoRequest => some { k with ioRequest := k.ioRequest + 1, sts := .signalExecute }
  | .exitProcess a sent => some { k with sts := .destroyPcb a sent }
  | .destroyPcb a sent => some { k with inUse := setInUse k.inUse a false, sts := .signalDom sent }
  | .signalDom sent =>
    some { k with dom := k.dom + 1, sts := if sent then .signalExecute else .waitExecute }
  | .preEmpt a => some { k with heap := modify k.heap a preEmpted, sts := .pushReady a }
  | .pushReady a => some { k with ready := k.ready ++ [a], sts := .signalExecute }
  | .signalExecute => some { k with execute := k.execute + 1, sts := .waitExecute }

/-! ### The I/O thread -/

/-- `io_scheduler`, `retrieve_pcb`, `suspended_event` and `event`. -/
def ioStep : Option Kernel :=
  match k.io with
  | .waitIoRequest =>
    if k.ioRequest = 0 then none
    else some { k with ioRequest := k.ioRequest - 1, io := .popBlockedSus }
  | .popBlockedSus =>
    match k.blockedSus with
    | a :: blockedSus => some { k with blockedSus, io := .setCurrentIo a }
    | [] => some { k with io := .popBlocked }
  | .popBlocked =>
    match k.blocked with
    | a :: blocked => some { k with blocked, io := .setCurrentIo a }
    | [] => some { k with io := .clearCurrentIo }
  | .setCurrentIo a => some { k with currentIo := (k.heap a).id, io := .sleep a }
  | .sleep a => some { k with io := .switchStatus a }
  | .switchStatus a =>
    if (k.heap a).status = .suspendedBlocked then some { k with io := .existsBlockedSus a }
    else some { k with io := .setReady a }
  | .existsBlockedSus a =>
    if pcbExists k.heap k.blockedSus (k.heap a).id then some { k with io := .removeBlockedSus a }
    else some { k with io := .setSuspendedReady a }
  | .removeBlockedSus a =>
    match pcbRemoveById k.heap k.blockedSus (k.heap a).id with
    | (none, _) => none
    | (some b, blockedSus) => some { k with blockedSus, io := .setSuspendedReady b }
  | .setSuspendedReady a =>
    some { k with heap := setStatus k.heap a .suspendedReady, io := .pushReadySus a }
  | .pushReadySus a => some { k with readySus := k.readySus ++ [a], io := .signalReqAdmit }
  | .signalReqAdmit => some { k with reqAdmit := k.reqAdmit + 1, io := .clearCurrentIo }
  | .setReady a => some { k with heap := setStatus k.heap a .ready, io := .pushReady a }
  | .pushReady a => some { k with ready := k.ready ++ [a], io := .checkInterruption a }
  | .checkInterruption a =>
    if raises c k a then some { k with io := .sendInterrupt a }
    else some { k with io := .signalExecute }
  | .sendInterrupt _ => some { k with io := .signalExecute }
  | .signalExecute => some { k with execute := k.execute + 1, io := .clearCurrentIo }
  | .clearCurrentIo => some { k with currentIo := uint32Max, io := .waitIoRequest }

/-! ### Trackers -/

/-- `track_time` and `suspend`. -/
def mtsStep (i : ℕ) : Option Kernel :=
  match k.trackers[i]? with
  | none => none
  | some t =>
    match t.pc with
    | .readPid =>
      some { k with trackers :=
        k.trackers.set i { t with pid := (k.heap t.pcb).id, pc := .existsBlocked } }
    | .existsBlocked =>
      if pcbExists k.heap k.blocked t.pid then
        some { k with trackers := k.trackers.set i { t with pc := .removeBlocked } }
      else some { k with trackers := k.trackers.set i { t with pc := .testCurrentIo } }
    | .testCurrentIo =>
      if k.currentIo = t.pid then
        some { k with trackers := k.trackers.set i { t with pc := .removeBlocked } }
      else some { k with trackers := k.trackers.set i { t with pc := .ended } }
    | .removeBlocked =>
      let (removed, blocked) := pcbRemoveById k.heap k.blocked t.pid
      some { k with blocked, trackers := k.trackers.set i { t with removed, pc := .signalDom } }
    | .signalDom =>
      some { k with
        dom := k.dom + 1, trackers := k.trackers.set i { t with pc := .setSuspendedBlocked } }
    | .setSuspendedBlocked =>
      some { k with
        heap := setStatus k.heap t.target .suspendedBlocked
        trackers := k.trackers.set i { t with pc := .pushBlockedSus } }
    | .pushBlockedSus =>
      some { k with
        blockedSus := k.blockedSus ++ [t.target]
        trackers := k.trackers.set i { t with pc := .sendSwap } }
    | .sendSwap => some { k with trackers := k.trackers.set i { t with pc := .ended } }
    | .ended => none

/-! ### Interleavings -/

def step : Event → Option Kernel
  | .connect => some { k with consoles := k.consoles ++ [⟨0, .receive⟩] }
  | .message i m => routineStep k i m
  | .console i addr => consoleStep c k i addr
  | .lts memory => ltsStep c k memory
  | .sts o => stsStep c k o
  | .io => ioStep c k
  | .mts i => mtsStep k i
  | .scribble a pcb =>
    if k.inUse a then none else some { k with heap := fill k.heap a pcb }

/-! ### Runs -/

/-- The next console is connected, and makes a process whose block is at `addr`. -/
def spawn (i : ℕ) (addr : Addr) : List Event :=
  [.connect, .message i (.newProcess 16), .console i addr, .console i addr, .message i (.cmd []),
    .console i addr, .console i addr, .console i addr, .console i addr]

def ltsSteps (n : ℕ) : List Event := List.replicate n (.lts (some (some 0)))

/-- The short-term scheduler takes `n` steps; what it sends comes back to `addr`. -/
def stsSteps (n : ℕ) (addr : Addr) (status : PcbStatus) : List Event :=
  List.replicate n (.sts ⟨true, 5, addr, status, 1, [], 7⟩)

def ioSteps (n : ℕ) : List Event := List.replicate n .io

def mtsSteps (i n : ℕ) : List Event := List.replicate n (.mts i)

/-- Process 0 is admitted, runs and asks for I/O, and its tracker has read its id. -/
def toBlocked : List Event :=
  spawn 0 1 ++ ltsSteps 9 ++ stsSteps 16 2 .blocked ++ mtsSteps 0 1

end Sski.Scheduling.Threads
