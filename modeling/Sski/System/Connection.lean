import Sski.Lib.Duplex
import Sski.Mem.KernelController
import Sski.Wire.Packages

/-!
The connections of the CPU and the kernel to the memory module, as bytes.

A request is a bare operation code or a package, a reply a bare value or a package, and every client
function and every handler chooses for itself. They choose alike, so client and server stay in step,
as far as there is anything to serve: a buffer has an `int` for its size, and the block of a
suspended process may be longer than an `int` counts.
-/

namespace Sski.System.Connection

open Sski.Lib.Block Sski.Lib.Runs Sski.Lib.Duplex Sski.Wire.Instructions Sski.Wire.Pcbs
open Sski.Wire.Packages Sski.Mem.MemoryModule

/-- `opcode_t`. -/
inductive Opcode
  | dc | msg | pkg | sys | cmd | inOut | op | pcb | rd | wr | swapPcb | retrieveSwappedPcb
  | retrievedPcb | wt | int | sz | entries | frame | sndPage | memoryInit | processTerminated
  deriving DecidableEq, Repr

namespace Opcode

def all : List Opcode :=
  [dc, msg, pkg, sys, cmd, inOut, op, pcb, rd, wr, swapPcb, retrieveSwappedPcb, retrievedPcb, wt,
    int, sz, entries, frame, sndPage, memoryInit, processTerminated]

def code (o : Opcode) : UInt32 := .ofNat (all.idxOf o)

def ofCode (code : UInt32) : Option Opcode := all[code.toNat]?

@[simp] lemma ofCode_code (o : Opcode) : ofCode o.code = some o := by
  cases o <;> rfl

end Opcode

/-- The block of a process, with a list as `list_size` counts it. -/
structure Block where
  pcb : Pcb
  length_lt : pcb.instructions.length < 2 ^ 31

/-- The requests of the CPU and the kernel, with what their functions put into them. -/
inductive Call where
  | sz
  | entries
  | sndPage (idLvl1Table rowIndex : UInt32)
  | frame (pid tablaSegundoNivel offset : UInt32)
  | rd (pid physicalAddress : UInt32)
  | wt (pid physicalAddress value : UInt32)
  | memoryInit (pid pcbSize : UInt32)
  | processTerminated (pid pageTable : UInt32)
  | swapPcb (block : Block)

/-- What the operating system and the heap answer. -/
structure Env where
  os : Os
  os' : Os
  heap : Heap
  heap' : Heap
  block : Pcb

/-! ### The clients -/

inductive Client | cpu | kernel
  deriving DecidableEq, Repr

namespace Call

def client : Call → Client
  | .memoryInit .. | .processTerminated .. | .swapPcb .. => .kernel
  | _ => .cpu

def awaits : Call → Bool
  | .wt .. | .processTerminated .. | .swapPcb .. => false
  | _ => true

def opcode : Call → Opcode
  | .sz => .sz
  | .entries => .entries
  | .sndPage .. => .sndPage
  | .frame .. => .frame
  | .rd .. => .rd
  | .wt .. => .wt
  | .memoryInit .. => .memoryInit
  | .processTerminated .. => .processTerminated
  | .swapPcb .. => .swapPcb

end Call

def operandosToStream (op1 op2 : UInt32) : List UInt8 := bytesOf op1 ++ bytesOf op2

/-- The bytes the functions of the clients send: `handshake`, `request_table_2_entry`,
`request_frame`, `execute_READ`, `execute_WRITE`, `admit`, `swap_controller_exit` and
`swap_controller_send_pcb`, over a connection that is open. -/
def send (env : Env) : Call → Option (List UInt8)
  | .sz => some (bytesOf Opcode.sz.code)
  | .entries => some (bytesOf Opcode.entries.code)
  | .sndPage idLvl1Table rowIndex =>
    enviarStream env.heap Opcode.sndPage.code (operandosToStream idLvl1Table rowIndex) 8
  | .frame pid tablaSegundoNivel offset =>
    enviarStream env.heap Opcode.frame.code
      (bytesOf pid ++ operandosToStream tablaSegundoNivel offset) 12
  | .rd pid physicalAddress =>
    -- the second operand is the process again
    enviarStream env.heap Opcode.rd.code (bytesOf pid ++ operandosToStream physicalAddress pid) 12
  | .wt pid physicalAddress value =>
    enviarStream env.heap Opcode.wt.code (bytesOf pid ++ operandosToStream physicalAddress value) 12
  | .memoryInit pid pcbSize =>
    enviarStream env.heap Opcode.memoryInit.code (operandosToStream pid pcbSize) 8
  | .processTerminated pid pageTable =>
    enviarStream env.heap Opcode.processTerminated.code (bytesOf pid ++ bytesOf pageTable) 8
  | .swapPcb block => do
    let stream ← pcbToStream env.heap' block.pcb
    enviarStream env.heap Opcode.swapPcb.code stream (pcbBytesSize block.pcb)

/-- `recv` with `MSG_WAITALL`: it waits until all the bytes are there. -/
def recv (size : ℕ) (stream : List UInt8) : Option (List UInt8 × List UInt8) :=
  if size ≤ stream.length then some (stream.take size, stream.drop size) else none

def connectionReceiveValue (stream : List UInt8) : Option (UInt32 × List UInt8) := do
  let (value, stream) ← recv 4 stream
  return (wordOf value, stream)

/-- `conexion_recibir_stream`, on a connection that stays open. -/
def conexionRecibir (heap : ℕ → UInt8) (stream : List UInt8) :
    Option (Option (List UInt8 × ℕ) × List UInt8) := do
  let (_, rest) ← recv 4 stream
  let (size, rest) ← recv 4 rest
  let _ ← recv (bytesWord size) rest
  return conexionRecibirStream heap stream

def receive (env : Env) (call : Call) (stream : List UInt8) : Option (UInt32 × List UInt8) :=
  match call with
  | .sz | .entries | .sndPage .. | .frame .. => connectionReceiveValue stream
  | .rd .. => do
    let (received, stream) ← conexionRecibir (env.heap 0) stream
    let (buffer, _) ← received
    let value ← peek buffer 0 4
    return (wordOf value, stream)
  | .memoryInit .. => do
    let (received, stream) ← conexionRecibir (env.heap 0) stream
    match received with
    | none => return (.ofNat uint32Max, stream) -- the block keeps the table of `new_pcb`
    | some (pageRef, _) =>
      let pageTable ← peek pageRef 0 4
      return (wordOf pageTable, stream)
  | .wt .. | .processTerminated .. | .swapPcb .. => none

/-! ### The server -/

def servidorRecibirOperacion (stream : List UInt8) : Option (UInt32 × List UInt8) := do
  let (opcode, stream) ← recv 4 stream
  return (wordOf opcode, stream)

/-- `servidor_recibir_stream`: the block, and the number of bytes in it. -/
def servidorRecibirStream (heap : ℕ → UInt8) (stream : List UInt8) :
    Option ((List UInt8 × ℕ) × List UInt8) := do
  let (size, stream) ← recv 4 stream
  let size := bytesWord size
  let (data, stream) ← recv size stream
  let buffer ← poke (malloc heap size) 0 data
  return ((buffer, size), stream)

def operandosFromStream (stream : List UInt8) (offset : ℕ) : Option (UInt32 × UInt32) := do
  let op1 ← peek stream offset 4
  let op2 ← peek stream (offset + 4) 4
  return (wordOf op1, wordOf op2)

def receiveOperands (heap : ℕ → UInt8) (stream : List UInt8) :
    Option ((UInt32 × UInt32 × UInt32) × List UInt8) := do
  let ((buffer, _), stream) ← servidorRecibirStream heap stream
  let pid ← peek buffer 0 4
  let operands ← operandosFromStream buffer 4
  return ((wordOf pid, operands), stream)

/-- What a handler makes of the bytes to come: the memory, what it leaves, and what it sends. -/
abbrev Handled := Option (Memory × List UInt8 × List UInt8)

variable (c : Cfg) (env : Env)

def cpuControllerSendSize (m : Memory) (stream : List UInt8) : Handled :=
  some (m, stream, wordBytes c.tamPagina)

def cpuControllerSendEntries (m : Memory) (stream : List UInt8) : Handled :=
  some (m, stream, wordBytes c.entradasPorTabla)

def cpuControllerSendPageSecondLevel (m : Memory) (stream : List UInt8) : Handled := do
  let ((buffer, bytesRead), stream) ← servidorRecibirStream (env.heap 2) stream
  if bytesRead = 0 then return (m, stream, wordBytes uint32Max)
  let (op1, op2) ← operandosFromStream buffer 0
  let entry ← Mem.CpuController.cpuControllerSendPageSecondLevel c m op1.toNat op2.toNat
  return (m, stream, wordBytes entry)

def cpuControllerSendFrame (m : Memory) (stream : List UInt8) : Handled := do
  let ((buffer, bytesRead), stream) ← servidorRecibirStream (env.heap 2) stream
  if bytesRead = 0 then return (m, stream, wordBytes uint32Max)
  let pid ← peek buffer 0 4
  let (op1, op2) ← operandosFromStream buffer 4
  let (m, frame) ← Mem.CpuController.cpuControllerSendFrame c m (wordOf pid).toNat op1.toNat
    op2.toNat env.os env.os'
  return (m, stream, wordBytes frame)

def cpuControllerRead (m : Memory) (stream : List UInt8) : Handled := do
  let ((_, physicalAddress, _), stream) ← receiveOperands (env.heap 2) stream
  let (m, value) ← Mem.CpuController.cpuControllerRead c m physicalAddress.toNat
  let bytes ← enviarStream env.heap Opcode.rd.code (wordBytes value) 4
  return (m, stream, bytes)

def cpuControllerWrite (m : Memory) (stream : List UInt8) : Handled := do
  let ((_, physicalAddress, value), stream) ← receiveOperands (env.heap 2) stream
  let m ← Mem.CpuController.cpuControllerWrite c m physicalAddress.toNat value.toNat
  return (m, stream, [])

def kernelControllerMemoryInit (m : Memory) (stream : List UInt8) : Handled := do
  let ((ref, bytesReceived), stream) ← servidorRecibirStream (env.heap 2) stream
  if bytesReceived = 0 then return (m, stream, [])
  let (pid, pcbSize) ← operandosFromStream ref 0
  let (m, pageTable) ← Mem.KernelController.kernelControllerMemoryInit c m pid.toNat pcbSize.toNat
    env.os
  let bytes ← enviarStream env.heap Opcode.memoryInit.code (wordBytes pageTable) 4
  return (m, stream, bytes)

def kernelControllerDestroyProcessFile (m : Memory) (stream : List UInt8) : Handled := do
  let ((buffer, _), stream) ← servidorRecibirStream (env.heap 2) stream
  let (pcbId, tableId) ← operandosFromStream buffer 0
  let m ← Mem.KernelController.kernelControllerDestroyProcessFile c m pcbId.toNat tableId.toNat
  return (m, stream, [])

def kernelControllerSwap (m : Memory) (stream : List UInt8) : Handled := do
  let ((pcbStream, _), stream) ← servidorRecibirStream (env.heap 2) stream
  let pcb ← pcbFromStream env.block pcbStream
  let bytes ← peek pcbStream 0 (pcbBytesSize pcb)
  return (Mem.KernelController.swapPcb m pcb.id.toNat bytes env.os, stream, [])

def kernelControllerReadSwap (m : Memory) (stream : List UInt8) : Handled := do
  let ((buffer, _), stream) ← servidorRecibirStream (env.heap 2) stream
  let pcbId ← peek buffer 0 4
  let m ← Mem.KernelController.kernelControllerReadSwap c m (wordOf pcbId).toNat env.os env.heap'
  return (m, stream, [])

/-- `recibir_mensaje`: the message is printed. -/
def recibirMensaje (m : Memory) (stream : List UInt8) : Handled := do
  let (_, stream) ← servidorRecibirStream (env.heap 2) stream
  return (m, stream, [])

/-- The handler for an operation. -/
def dispatch (opcode : Opcode) (m : Memory) (stream : List UInt8) : Handled :=
  match opcode with
  | .memoryInit => kernelControllerMemoryInit c env m stream
  | .msg => recibirMensaje env m stream
  | .rd => cpuControllerRead c env m stream
  | .wt => cpuControllerWrite c env m stream
  | .processTerminated => kernelControllerDestroyProcessFile c env m stream
  | .swapPcb => kernelControllerSwap env m stream
  | .retrieveSwappedPcb => kernelControllerReadSwap c env m stream
  | .sz => cpuControllerSendSize c m stream
  | .entries => cpuControllerSendEntries c m stream
  | .frame => cpuControllerSendFrame c env m stream
  | .sndPage => cpuControllerSendPageSecondLevel c env m stream
  | _ => some (m, stream, [])

/-- A turn of the loop of `routine`. It ends with `DC` and with a negative code. -/
def routine (m : Memory) (stream : List UInt8) : Handled := do
  let (opcode, stream) ← servidorRecibirOperacion stream
  if opcode = 0 ∨ 2 ^ 31 ≤ opcode.toNat then none
  else
    match Opcode.ofCode opcode with
    | some opcode => dispatch c env opcode m stream
    | none => some (m, stream, [])

/-! ### The session -/

def data : Call → List UInt8
  | .sz | .entries => []
  | .sndPage idLvl1Table rowIndex => operandosToStream idLvl1Table rowIndex
  | .frame pid tablaSegundoNivel offset => bytesOf pid ++ operandosToStream tablaSegundoNivel offset
  | .rd pid physicalAddress => bytesOf pid ++ operandosToStream physicalAddress pid
  | .wt pid physicalAddress value => bytesOf pid ++ operandosToStream physicalAddress value
  | .memoryInit pid pcbSize => operandosToStream pid pcbSize
  | .processTerminated pid pageTable => operandosToStream pid pageTable
  | .swapPcb block => encodePcb block.pcb

def request (call : Call) : List UInt8 :=
  match call with
  | .sz | .entries => bytesOf call.opcode.code
  | _ => frame call.opcode.code (data call)

def reply (call : Call) (value : UInt32) : List UInt8 :=
  match call with
  | .rd .. | .memoryInit .. => frame call.opcode.code (bytesOf value)
  | _ => bytesOf value

def ofRoutine (r : Option (Memory × Option ℕ)) : Option (Memory × Option UInt32) :=
  r.map fun (m, value) => (m, value.map UInt32.ofNat)

def answer (env : Env) (m : Memory) : Call → Option (Memory × Option UInt32)
  | .sz => some (m, some (.ofNat c.tamPagina))
  | .entries => some (m, some (.ofNat c.entradasPorTabla))
  | .sndPage op1 op2 => ofRoutine (Mem.KernelController.routine c m (.sndPage op1 op2))
  | .frame pid op1 op2 =>
    ofRoutine (Mem.KernelController.routine c m (.frame pid op1 op2 env.os env.os'))
  | .rd _ physicalAddress => ofRoutine (Mem.KernelController.routine c m (.rd physicalAddress))
  | .wt _ physicalAddress value =>
    ofRoutine (Mem.KernelController.routine c m (.wt physicalAddress value))
  | .memoryInit pid pcbSize =>
    ofRoutine (Mem.KernelController.routine c m (.memoryInit pid pcbSize env.os))
  | .processTerminated pid pageTable =>
    ofRoutine (Mem.KernelController.routine c m (.processTerminated pid pageTable))
  | .swapPcb block =>
    some (Mem.KernelController.swapPcb m block.pcb.id.toNat (encodePcb block.pcb) env.os, none)

/-- The memory module, its clients, and what they mean. -/
def service : Service Memory Call UInt32 Client Env UInt8 where
  connection := Call.client
  awaits := Call.awaits
  request := request
  reply := reply
  answer := answer c
  send := send
  serve := routine c
  receive := receive

/-! ### The clients' functions -/

lemma bytesOf_ofNat (v : ℕ) : bytesOf (.ofNat v) = wordBytes v := by
  simp only [bytesOf, wordBytes, UInt32.toNat_ofNat', List.cons.injEq, and_true]
  refine ⟨?_, ?_, ?_, ?_⟩ <;>
    exact UInt8.toNat_inj.mp (by simp only [UInt8.toNat_ofNat']; omega)

lemma length_encodePcb_lt (b : Block) : (encodePcb b.pcb).length + 8 < 2 ^ 64 := by
  have hlen := b.length_lt
  simp only [length_encodePcb, instructionSize]
  omega

/-- The data of a request fit in the `int` their size is. -/
def Call.Fits (call : Call) : Prop := (data call).length < 2 ^ 31

lemma send_swapPcb (env : Env) (b : Block) : send env (.swapPcb b) =
    enviarStream env.heap Opcode.swapPcb.code (encodePcb b.pcb) (encodePcb b.pcb).length := by
  have hsize : pcbBytesSize b.pcb = (encodePcb b.pcb).length := by
    rw [pcbBytesSize_eq b.length_lt, length_encodePcb]
  simp only [send, pcbToStream_eq _ b.length_lt, Option.bind_eq_bind, Option.bind_some, hsize]

/-- The data of all other requests are short. -/
lemma length_data_le (call : Call) (hcall : ∀ b, call ≠ .swapPcb b) :
    (data call).length ≤ 12 := by
  cases call with
  | swapPcb b => exact absurd rfl (hcall b)
  | _ => simp [data, operandosToStream]

lemma send_eq (env : Env) (call : Call) (hfits : call.Fits) :
    send env call = some (request call) := by
  cases call with
  | sz => rfl
  | entries => rfl
  | swapPcb b => exact (send_swapPcb env b).trans (enviarStream_eq _ _ hfits)
  | sndPage op1 op2 => exact enviarStream_eq _ _ (d := operandosToStream op1 op2) hfits
  | frame pid op1 op2 =>
    exact enviarStream_eq _ _ (d := bytesOf pid ++ operandosToStream op1 op2) hfits
  | rd pid a => exact enviarStream_eq _ _ (d := bytesOf pid ++ operandosToStream a pid) hfits
  | wt pid a v => exact enviarStream_eq _ _ (d := bytesOf pid ++ operandosToStream a v) hfits
  | memoryInit pid size => exact enviarStream_eq _ _ (d := operandosToStream pid size) hfits
  | processTerminated pid t => exact enviarStream_eq _ _ (d := operandosToStream pid t) hfits

/-- A client survives exactly the requests whose data fit. -/
lemma send_isSome_iff (env : Env) (call : Call) : (send env call).isSome ↔ call.Fits := by
  refine ⟨fun hsome => ?_, fun hfits => by rw [send_eq env call hfits]; rfl⟩
  cases call with
  | swapPcb b =>
    rw [send_swapPcb] at hsome
    exact (enviarStream_isSome _ _ _).mp hsome
  | _ => exact lt_of_le_of_lt (length_data_le _ fun _ h => by cases h) (by decide)

lemma eq_request {env : Env} {call : Call} {d : List UInt8} (h : send env call = some d) :
    d = request call := by
  have hfits := (send_isSome_iff env call).mp (by rw [h]; rfl)
  rw [send_eq env call hfits] at h
  exact (Option.some.inj h).symm

variable {c} {env : Env} {m : Memory} {d rest : List UInt8}

lemma recv_append {n : ℕ} (hn : d.length = n) (rest : List UInt8) :
    recv n (d ++ rest) = some (d, rest) := by
  subst hn
  simp [recv]

lemma connectionReceiveValue_bytesOf (value : UInt32) :
    connectionReceiveValue (bytesOf value) = some (value, []) := by
  have h := recv_append (length_bytesOf value) []
  rw [List.append_nil] at h
  simp [connectionReceiveValue, h]

lemma conexionRecibir_frame (heap : ℕ → UInt8) (opcode : UInt32) (h0 : 0 < d.length)
    (hd : d.length < 2 ^ 32) :
    conexionRecibir heap (frame opcode d) = some (some (d, d.length + 8), []) := by
  have hbytes : bytesWord (wordBytes d.length) = d.length := by
    rw [bytesWord_wordBytes, Nat.mod_eq_of_lt hd]
  have h₁ := recv_append (length_bytesOf opcode) (wordBytes d.length ++ d)
  have h₂ := recv_append (length_wordBytes d.length) d
  have h₃ := recv_append (n := d.length) rfl ([] : List UInt8)
  have hall := conexionRecibirStream_frame heap opcode [] h0 hd
  rw [List.append_nil] at h₃ hall
  simp only [conexionRecibir, frame, List.append_assoc, h₁, h₂, hbytes, h₃, Option.bind_eq_bind,
    Option.bind_some]
  rw [← List.append_assoc, ← frame, hall]
  rfl

lemma receive_reply (env : Env) (call : Call) (value : UInt32) (hw : call.awaits) :
    receive env call (reply call value) = some (value, []) := by
  have hpackage : ∀ opcode, conexionRecibir (env.heap 0) (frame opcode (bytesOf value)) =
      some (some (bytesOf value, 12), []) := fun opcode =>
    conexionRecibir_frame _ _ (by simp) (by simp)
  have hpeek : peek (bytesOf value) 0 4 = some (bytesOf value) := peek_all (bytesOf value)
  cases call with
  | rd pid a => simp [receive, reply, hpackage, hpeek]
  | memoryInit pid size => simp [receive, reply, hpackage, hpeek]
  | wt pid a v => cases hw
  | processTerminated pid t => cases hw
  | swapPcb b => cases hw
  | _ => exact connectionReceiveValue_bytesOf value

lemma receive_nil (env : Env) (call : Call) : receive env call [] = none := by
  cases call <;> rfl

/-! ### The handlers -/

lemma servidorRecibirOperacion_bytesOf (opcode : UInt32) (rest : List UInt8) :
    servidorRecibirOperacion (bytesOf opcode ++ rest) = some (opcode, rest) := by
  simp [servidorRecibirOperacion, recv_append (length_bytesOf opcode)]

lemma servidorRecibirStream_eq (heap : ℕ → UInt8) (hd : d.length < 2 ^ 32) (rest : List UInt8) :
    servidorRecibirStream heap (wordBytes d.length ++ (d ++ rest)) =
      some ((d, d.length), rest) := by
  have hbytes : bytesWord (wordBytes d.length) = d.length := by
    rw [bytesWord_wordBytes, Nat.mod_eq_of_lt hd]
  simp only [servidorRecibirStream, recv_append (length_wordBytes _), recv_append rfl, hbytes,
    poke_all, Option.bind_eq_bind, Option.bind_some]
  rfl

lemma peek_middle (front d back : List UInt8) :
    peek (front ++ (d ++ back)) front.length d.length = some d := by
  rw [peek_isSome (by simp), List.drop_left, List.take_left]

lemma operandosFromStream_eq (front : List UInt8) (op1 op2 : UInt32) :
    operandosFromStream (front ++ operandosToStream op1 op2) front.length = some (op1, op2) := by
  have h₁ := peek_middle front (bytesOf op1) (bytesOf op2)
  have h₂ := peek_middle (front ++ bytesOf op1) (bytesOf op2) []
  rw [List.append_nil, List.append_assoc, List.length_append] at h₂
  simp only [length_bytesOf] at h₁ h₂
  simp [operandosFromStream, operandosToStream, h₁, h₂]

lemma operandosFromStream_zero (op1 op2 : UInt32) :
    operandosFromStream (operandosToStream op1 op2) 0 = some (op1, op2) :=
  operandosFromStream_eq [] op1 op2

@[simp] lemma length_operandosToStream (op1 op2 : UInt32) :
    (operandosToStream op1 op2).length = 8 := rfl

lemma length_pidAndOperandos (pid op1 op2 : UInt32) :
    (bytesOf pid ++ operandosToStream op1 op2).length = 12 := rfl

lemma recibir_operandos (heap : ℕ → UInt8) (op1 op2 : UInt32) (rest : List UInt8) :
    servidorRecibirStream heap (wordBytes 8 ++ (operandosToStream op1 op2 ++ rest)) =
      some ((operandosToStream op1 op2, 8), rest) :=
  servidorRecibirStream_eq heap (d := operandosToStream op1 op2) (by simp) rest

lemma recibir_pidAndOperandos (heap : ℕ → UInt8) (pid op1 op2 : UInt32) (rest : List UInt8) :
    servidorRecibirStream heap
        (wordBytes 12 ++ (bytesOf pid ++ operandosToStream op1 op2 ++ rest)) =
      some ((bytesOf pid ++ operandosToStream op1 op2, 12), rest) :=
  servidorRecibirStream_eq heap (d := bytesOf pid ++ operandosToStream op1 op2) (by simp) rest

lemma peek_pid (pid op1 op2 : UInt32) :
    peek (bytesOf pid ++ operandosToStream op1 op2) 0 4 = some (bytesOf pid) :=
  peek_middle [] (bytesOf pid) (operandosToStream op1 op2)

lemma operandosFromStream_pid (pid op1 op2 : UInt32) :
    operandosFromStream (bytesOf pid ++ operandosToStream op1 op2) 4 = some (op1, op2) :=
  operandosFromStream_eq (bytesOf pid) op1 op2

lemma receiveOperands_eq (heap : ℕ → UInt8) (pid op1 op2 : UInt32) (rest : List UInt8) :
    receiveOperands heap (wordBytes 12 ++ (bytesOf pid ++ operandosToStream op1 op2 ++ rest)) =
      some ((pid, op1, op2), rest) := by
  simp only [receiveOperands, recibir_pidAndOperandos, peek_pid, operandosFromStream_pid,
    wordOf_bytesOf, Option.bind_eq_bind, Option.bind_some]
  rfl

lemma positive_code {o : Opcode} (ho : o ≠ .dc) : ¬ (o.code = 0 ∨ 2 ^ 31 ≤ o.code.toNat) := by
  cases o
  case dc => exact absurd rfl ho
  all_goals decide

lemma routine_code {o : Opcode} (ho : o ≠ .dc) (rest : List UInt8) :
    routine c env m (bytesOf o.code ++ rest) = dispatch c env o m rest := by
  simp only [routine, servidorRecibirOperacion_bytesOf, if_neg (positive_code ho),
    Opcode.ofCode_code, Option.bind_eq_bind, Option.bind_some]

lemma routine_frame {o : Opcode} (ho : o ≠ .dc) (d rest : List UInt8) :
    routine c env m (frame o.code d ++ rest) =
      dispatch c env o m (wordBytes d.length ++ (d ++ rest)) := by
  rw [frame, List.append_assoc, List.append_assoc, routine_code ho]

/-! ### Each request is served exactly -/

lemma exact_value {call : Call} {r : Option (Memory × ℕ)} {rest : List UInt8}
    (hanswer : answer c env m call = ofRoutine (do let (m, v) ← r; return (m, some v)))
    (h : routine c env m (request call ++ rest) = do
      let (m, v) ← r
      return (m, rest, reply call (.ofNat v))) : Exact (service c) env m call rest := by
  show routine c env m (request call ++ rest) = (answer c env m call).map _
  rw [h, hanswer]
  cases r with
  | none => rfl
  | some p => exact congrArg (fun bytes => some (p.1, rest, bytes)) (List.append_nil _).symm

lemma exact_silent {call : Call} {r : Option Memory} {rest : List UInt8}
    (hanswer : answer c env m call = ofRoutine (do let m ← r; return (m, none)))
    (h : routine c env m (request call ++ rest) = do let m ← r; return (m, rest, [])) :
    Exact (service c) env m call rest := by
  show routine c env m (request call ++ rest) = (answer c env m call).map _
  rw [h, hanswer]
  cases r <;> rfl

lemma exact_sz (rest : List UInt8) : Exact (service c) env m .sz rest := by
  refine exact_value (r := some (m, c.tamPagina)) rfl ?_
  show routine c env m (bytesOf Opcode.sz.code ++ rest) = some (m, rest, bytesOf _)
  rw [routine_code (by decide), bytesOf_ofNat]
  rfl

lemma exact_entries (rest : List UInt8) : Exact (service c) env m .entries rest := by
  refine exact_value (r := some (m, c.entradasPorTabla)) rfl ?_
  show routine c env m (bytesOf Opcode.entries.code ++ rest) = some (m, rest, bytesOf _)
  rw [routine_code (by decide), bytesOf_ofNat]
  rfl

lemma exact_sndPage (op1 op2 : UInt32) (rest : List UInt8) :
    Exact (service c) env m (.sndPage op1 op2) rest := by
  refine exact_value (r := (Mem.CpuController.cpuControllerSendPageSecondLevel c m op1.toNat
    op2.toNat).map (m, ·)) ?_ ?_
  · show ofRoutine (do
      let entry ← Mem.CpuController.cpuControllerSendPageSecondLevel c m op1.toNat op2.toNat
      return (m, some entry)) = _
    cases Mem.CpuController.cpuControllerSendPageSecondLevel c m op1.toNat op2.toNat <;> rfl
  show routine c env m (frame Opcode.sndPage.code (operandosToStream op1 op2) ++ rest) = _
  rw [routine_frame (by decide), length_operandosToStream]
  show cpuControllerSendPageSecondLevel c env m _ = _
  simp only [cpuControllerSendPageSecondLevel, recibir_operandos, operandosFromStream_zero,
    Option.bind_eq_bind, Option.bind_some]
  simp only [← bytesOf_ofNat]
  cases Mem.CpuController.cpuControllerSendPageSecondLevel c m op1.toNat op2.toNat <;> rfl

lemma exact_frame (pid op1 op2 : UInt32) (rest : List UInt8) :
    Exact (service c) env m (.frame pid op1 op2) rest := by
  refine exact_value (r := Mem.CpuController.cpuControllerSendFrame c m pid.toNat op1.toNat
    op2.toNat env.os env.os') rfl ?_
  show routine c env m (frame Opcode.frame.code (bytesOf pid ++ operandosToStream op1 op2) ++
    rest) = _
  rw [routine_frame (by decide), length_pidAndOperandos]
  show cpuControllerSendFrame c env m _ = _
  simp only [cpuControllerSendFrame, recibir_pidAndOperandos, peek_pid, operandosFromStream_pid,
    wordOf_bytesOf, Option.bind_eq_bind, Option.bind_some]
  simp only [← bytesOf_ofNat]
  rfl

lemma exact_rd (pid physicalAddress : UInt32) (rest : List UInt8) :
    Exact (service c) env m (.rd pid physicalAddress) rest := by
  have hsend : ∀ value, enviarStream env.heap Opcode.rd.code (wordBytes value) 4 =
      some (reply (.rd pid physicalAddress) (.ofNat value)) := by
    intro value
    rw [← bytesOf_ofNat]
    exact enviarStream_eq _ _ (d := bytesOf (.ofNat value)) (by simp)
  refine exact_value (r := Mem.CpuController.cpuControllerRead c m physicalAddress.toNat) rfl ?_
  show routine c env m (frame Opcode.rd.code
    (bytesOf pid ++ operandosToStream physicalAddress pid) ++ rest) = _
  rw [routine_frame (by decide), length_pidAndOperandos]
  show cpuControllerRead c env m _ = _
  simp only [cpuControllerRead, receiveOperands_eq, hsend, Option.bind_eq_bind,
    Option.bind_some]

lemma exact_wt (pid physicalAddress value : UInt32) (rest : List UInt8) :
    Exact (service c) env m (.wt pid physicalAddress value) rest := by
  refine exact_silent (r := Mem.CpuController.cpuControllerWrite c m physicalAddress.toNat
    value.toNat) rfl ?_
  show routine c env m (frame Opcode.wt.code
    (bytesOf pid ++ operandosToStream physicalAddress value) ++ rest) = _
  rw [routine_frame (by decide), length_pidAndOperandos]
  show cpuControllerWrite c env m _ = _
  simp only [cpuControllerWrite, receiveOperands_eq, Option.bind_eq_bind, Option.bind_some]

lemma exact_memoryInit (pid pcbSize : UInt32) (rest : List UInt8) :
    Exact (service c) env m (.memoryInit pid pcbSize) rest := by
  have hsend : ∀ value, enviarStream env.heap Opcode.memoryInit.code (wordBytes value) 4 =
      some (reply (.memoryInit pid pcbSize) (.ofNat value)) := by
    intro value
    rw [← bytesOf_ofNat]
    exact enviarStream_eq _ _ (d := bytesOf (.ofNat value)) (by simp)
  refine exact_value (r := Mem.KernelController.kernelControllerMemoryInit c m pid.toNat
    pcbSize.toNat env.os) rfl ?_
  show routine c env m (frame Opcode.memoryInit.code (operandosToStream pid pcbSize) ++ rest) = _
  rw [routine_frame (by decide), length_operandosToStream]
  show kernelControllerMemoryInit c env m _ = _
  simp only [kernelControllerMemoryInit, recibir_operandos, operandosFromStream_zero,
    hsend, Option.bind_eq_bind, Option.bind_some]
  rfl

lemma exact_processTerminated (pid pageTable : UInt32) (rest : List UInt8) :
    Exact (service c) env m (.processTerminated pid pageTable) rest := by
  refine exact_silent (r := Mem.KernelController.kernelControllerDestroyProcessFile c m pid.toNat
    pageTable.toNat) rfl ?_
  show routine c env m (frame Opcode.processTerminated.code (operandosToStream pid pageTable) ++
    rest) = _
  rw [routine_frame (by decide), length_operandosToStream]
  show kernelControllerDestroyProcessFile c env m _ = _
  simp only [kernelControllerDestroyProcessFile, recibir_operandos, operandosFromStream_zero,
    Option.bind_eq_bind, Option.bind_some]

lemma exact_swapPcb {b : Block} (hfits : (encodePcb b.pcb).length < 2 ^ 31) (rest : List UInt8) :
    Exact (service c) env m (.swapPcb b) rest := by
  show routine c env m (frame Opcode.swapPcb.code (encodePcb b.pcb) ++ rest) = _
  rw [routine_frame (by decide)]
  have hsmall : (encodePcb b.pcb ++ []).length < 2 ^ 64 := by
    have := length_encodePcb_lt b
    rw [List.append_nil]
    omega
  have hpcb := pcbFromStream_eq env.block [] b.length_lt hsmall
  rw [List.append_nil] at hpcb
  have hsize : pcbBytesSize b.pcb = (encodePcb b.pcb).length := by
    rw [pcbBytesSize_eq b.length_lt, length_encodePcb]
  show kernelControllerSwap env m _ = _
  have hread : (encodePcb b.pcb).length < 2 ^ 32 := by omega
  simp only [kernelControllerSwap, servidorRecibirStream_eq _ hread, hpcb, Option.bind_eq_bind,
    Option.bind_some]
  have hcongr : ∀ q : Pcb, q.instructions = b.pcb.instructions →
      pcbBytesSize q = (encodePcb b.pcb).length := fun q hq => (pcbBytesSize_congr hq).trans hsize
  rw [hcongr, peek_all] <;> rfl

lemma exact_of_fits (call : Call) (hfits : call.Fits) (rest : List UInt8) :
    Exact (service c) env m call rest := by
  cases call with
  | sz => exact exact_sz rest
  | entries => exact exact_entries rest
  | sndPage op1 op2 => exact exact_sndPage op1 op2 rest
  | frame pid op1 op2 => exact exact_frame pid op1 op2 rest
  | rd pid a => exact exact_rd pid a rest
  | wt pid a v => exact exact_wt pid a v rest
  | memoryInit pid size => exact exact_memoryInit pid size rest
  | processTerminated pid t => exact exact_processTerminated pid t rest
  | swapPcb b => exact exact_swapPcb hfits rest

lemma isSome_of_answer {m' : Memory} {call : Call} {value : Option UInt32}
    (h : answer c env m call = some (m', value)) : value.isSome = call.awaits := by
  cases call <;>
    simp only [answer, ofRoutine, Mem.KernelController.routine, Option.bind_eq_bind,
      Option.map_eq_some_iff, Option.bind_eq_some_iff, Option.pure_def, Option.some.injEq,
      Prod.exists, Prod.mk.injEq] at h <;> grind [Call.awaits]

lemma lawful_service (c : Cfg) : Lawful (service c) where
  eq_request := eq_request
  receive_reply := receive_reply
  receive_nil := receive_nil
  serve_nil _ _ := rfl
  isSome_of_answer h := isSome_of_answer h

/-! ### Every session -/

/-- The condition on a step: the data of the request that is issued are shorter than 2^31 bytes. -/
def Fits (x : Event Call Client Env) : Prop := ∀ e call, x = .issue e call → call.Fits

def PendingFit (n : Net Memory Client (Talk Call UInt32)) : Prop :=
  ∀ i, ∀ call ∈ (n.conn i).pending, call.Fits

variable {n n' : Net Memory Client (Talk Call UInt32)} {x : Event Call Client Env}

lemma pendingFit_opened (m : Memory) : PendingFit (opened m) := by
  intro i call hcall
  cases hcall

lemma PendingFit.step (hp : PendingFit n) (hfits : Fits x)
    (h : talkStep (service c) n x = some n') : PendingFit n' := by
  have hset : ∀ (i : Client) (t : Talk Call UInt32), (∀ call ∈ t.pending, call.Fits) →
      ∀ j, ∀ call ∈ (Function.update n.conn i t j).pending, call.Fits := fun i t ht =>
    (Function.forall_update_iff _ fun _ (t : Talk Call UInt32) =>
      ∀ call ∈ t.pending, call.Fits).mpr
      ⟨ht, fun j _ => hp j⟩
  cases x with
  | issue e call =>
    simp only [talkStep, Option.ite_none_left_eq_some, Option.some.injEq] at h
    obtain ⟨-, rfl⟩ := h
    refine hset _ _ fun call' hcall => ?_
    rcases List.mem_append.mp hcall with hold | hnew
    · exact hp _ call' hold
    · exact List.mem_singleton.mp hnew ▸ hfits e call rfl
  | serve e i =>
    simp only [talkStep, Option.bind_eq_some_iff, Option.map_eq_some_iff] at h
    obtain ⟨_, -, _, -, rfl⟩ := h
    exact hset _ _ fun call hcall => hp i call (List.mem_of_mem_tail hcall)
  | receive e i =>
    simp only [talkStep, Option.ite_none_right_eq_some, Option.map_eq_some_iff] at h
    obtain ⟨-, _, -, rfl⟩ := h
    exact hset _ _ (hp i)

/-- Only the block of a process may not fit, and no client waits after sending one. -/
lemma Call.fits_of_awaits {call : Call} (h : call.awaits) : call.Fits := by
  refine lt_of_le_of_lt (length_data_le call fun b hb => ?_) (by decide : 12 < 2 ^ 31)
  rw [hb] at h
  cases h

lemma fits_of_sends {b : Block} (h : Sends (service c) n (.issue env (.swapPcb b))) :
    (encodePcb b.pcb).length < 2 ^ 31 := by
  refine (send_isSome_iff env (.swapPcb b)).mp (h env (.swapPcb b) rfl fun hbusy => ?_)
  cases hbusy.1

/-- The requests that were issued before fit, so only the one that is issued may not. -/
lemma sends_serves_iff_fits (hp : PendingFit n) :
    Sends (service c) n x ∧ Serves (service c) n x ↔ Fits x := by
  constructor
  · rintro ⟨hsends, -⟩ e call hx
    by_cases hw : call.awaits
    · exact Call.fits_of_awaits hw
    · exact (send_isSome_iff e call).mp (hsends e call hx fun hbusy => hw hbusy.1)
  · refine fun hfits => ⟨fun e call hx _ => (send_isSome_iff e call).mpr (hfits e call hx), ?_⟩
    rintro e i call rest - hpending
    exact exact_of_fits call (hp i call (by simp [hpending])) _

/-- **Client and server in step.** Whatever the clients request in whatever order, and whenever the
module serves and the clients read: the streams are at all times the requests not yet served and
the reply not yet read, and each reply is read for the request it answers, exactly as long as no
request that is issued has 2^31 bytes of data or more. Besides, every request is served exactly as
long as the module survives them. A connection without a request under way is empty. -/
theorem lockstep_iff (c : Cfg) (m : Memory) (xs : List (Event Call Client Env)) :
    ((∀ ys, ys <+: xs → run (linkStep (service c)) (links (service c) (opened m)) ys =
        (run (talkStep (service c)) (opened m) ys).map (links (service c))) ↔
      Meets (talkStep (service c)) (fun _ x => Fits x) (opened m) xs) ∧
    (((∀ ys, ys <+: xs → run (linkStep (service c)) (links (service c) (opened m)) ys =
        (run (talkStep (service c)) (opened m) ys).map (links (service c))) ∧
      ∀ ys x, ys ++ [x] <+: xs → ∀ n, run (talkStep (service c)) (opened m) ys = some n →
        Served (service c) n x) ↔
      Meets (talkStep (service c)) (fun n x => Fits x ∧ Survives (service c) n x) (opened m) xs) ∧
    ∀ ys, ys <+: xs → ∀ n, run (talkStep (service c)) (opened m) ys = some n →
      Quiet (service c) n := by
  have hS := lawful_service c
  have hw := waits_opened (S := service c) (ι := Client) m
  have hp := pendingFit_opened m
  refine ⟨(inStep_iff hS hw xs).trans ?_, (inStep_served_iff hS hw xs).trans ?_, ?_⟩
  · exact meets_iff_meets (R := fun _ => True) (I := PendingFit)
      (fun n x hp _ => sends_serves_iff_fits hp) (fun n x n' hp _ hfits h => hp.step hfits h) hp
      fun _ _ => trivial
  · exact meets_iff_meets (R := fun _ => True) (I := PendingFit)
      (fun n x hp _ => and_congr_left' (sends_serves_iff_fits hp))
      (fun n x n' hp _ hfits h => hp.step hfits.1 h) hp fun _ _ => trivial
  · exact fun ys _ n hn => quiet_of_run hS hw hn

/-! ### A block that does not fit -/

def idleBlock (n : ℕ) (h : n < 2 ^ 31) : Block where
  pcb := ⟨1, 6, 64, List.replicate n ⟨3, 0, 0⟩, 0, 10, 0, 0, 0⟩
  length_lt := by rwa [List.length_replicate]

lemma length_idleBlock {n : ℕ} (h : n < 2 ^ 31) :
    (encodePcb (idleBlock n h).pcb).length = 28 + 12 * n := by
  rw [length_encodePcb, idleBlock, List.length_replicate, instructionSize]

def env₀ : Env := ⟨goodOs, goodOs, fun _ _ => 0, fun _ _ => 0, ⟨0, 0, 0, [], 0, 0, 0, 0, 0⟩⟩

/-- A process of 178956969 instructions is suspended: its block has 2^31 + 8 bytes, and the kernel
does not survive sending it. -/
theorem not_lockstep_longBlock : ¬ ∀ (c : Cfg) (m : Memory) (xs : List (Event Call Client Env)),
    run (linkStep (service c)) (links (service c) (opened m)) xs =
      (run (talkStep (service c)) (opened m) xs).map (links (service c)) := by
  intro hall
  have hlong : 178956969 < 2 ^ 31 := by decide
  have hin := (inStep_iff (lawful_service smallCfg)
    (waits_opened (onInitMemory smallCfg fun _ => 0))
    [.issue env₀ (.swapPcb (idleBlock 178956969 hlong))]).mp fun ys _ => hall smallCfg _ ys
  have hfits := fits_of_sends hin.1.1
  rw [length_idleBlock] at hfits
  omega

end Sski.System.Connection
