import Sski.Cpu.Cycle
import Sski.Cpu.Mmu
import Sski.Lib.Runs

/-!
The threads of the CPU: the handlers of its two servers, which receive interruptions and process
control blocks, and the main loop, which executes the block in `g_cpu.pcb` and returns it.

A thread is where its next access to what they share is: the block, the flag
`has_interruption`, the two semaphores and, for the main loop, the TLB. A step is `none` if the
thread has to wait, or if it dereferences a null pointer.
-/

namespace Sski.Cpu.Server

open Sski.Cpu.Cycle (Instruction instructionFetch decode)
open Sski.Cpu.Tlb Sski.Cpu.Mmu

abbrev Pcb := Sski.Cpu.Cycle.Pcb

/-- A message of the kernel; `other` is an operation code that no handler knows. -/
inductive Message where
  | int
  | pcb (pcb : Pcb)
  | other
  deriving DecidableEq, Repr

/-- `request_handler`, `request_handler_int` and `receive_pcb`. -/
inductive Handler where
  | receive
  | testPcb
  | setInterruption
  | waitCpuInUse (pcb : Pcb)
  | setPcb (pcb : Pcb)
  | signalPcbReceived
  deriving DecidableEq, Repr

/-- `on_run`, `cycle`, `instruction_execute` and `return_pcb`; `interrupted` says that `cycle`
returns the block because of the flag. -/
inductive Main where
  | waitPcbReceived
  | testNull
  | testPcb
  | testInterruption
  | fetch
  | fetchOperands (instruction : Instruction)
  | execute (instruction : Instruction)
  | setReady
  | resetTlb (time : UInt32) (interrupted : Bool)
  | sendPcb (time : UInt32) (interrupted : Bool)
  | resetTlbSent (interrupted : Bool)
  | clearPcb (interrupted : Bool)
  | signalCpuInUse (interrupted : Bool)
  | clearInterruption
  deriving DecidableEq, Repr

structure Cpu where
  pcb : Option Pcb
  hasInterruption : Bool
  pcbReceived : ℕ
  cpuInUse : ℕ
  tlb : State
  main : Main
  handlers : List Handler

structure Answer where
  frame : ℕ
  value : UInt32

inductive Event where
  | connect
  | message (i : ℕ) (m : Message)
  | handler (i : ℕ)
  | main (o : Answer)

variable (t : TlbCfg) (pageSize : ℕ) (s : Cpu)

/-- `on_cpu_init` and `init_sync`, with the TLB that `routine_conexion_memoria` makes. -/
def initCpu : Cpu := ⟨none, false, 0, 1, tlbInit t, .waitPcbReceived, []⟩

/-! ### Handlers -/

def receiveStep (i : ℕ) (m : Message) : Option Cpu :=
  match s.handlers[i]? with
  | some .receive =>
    match m with
    | .int => some { s with handlers := s.handlers.set i .testPcb }
    | .pcb pcb => some { s with handlers := s.handlers.set i (.waitCpuInUse pcb) }
    | .other => some s
  | _ => none

/-- `request_handler_int` and `receive_pcb`. -/
def handlerStep (i : ℕ) : Option Cpu :=
  match s.handlers[i]? with
  | none => none
  | some pc =>
    match pc with
    | .receive => none
    | .testPcb =>
      if s.pcb ≠ none then some { s with handlers := s.handlers.set i .setInterruption }
      else some { s with handlers := s.handlers.set i .receive }
    | .setInterruption =>
      some { s with hasInterruption := true, handlers := s.handlers.set i .receive }
    | .waitCpuInUse pcb =>
      if s.cpuInUse = 0 then none
      else some { s with
        cpuInUse := s.cpuInUse - 1, handlers := s.handlers.set i (.setPcb pcb) }
    | .setPcb pcb =>
      some { s with pcb := some pcb, handlers := s.handlers.set i .signalPcbReceived }
    | .signalPcbReceived =>
      some { s with pcbReceived := s.pcbReceived + 1, handlers := s.handlers.set i .receive }

/-! ### The main loop -/

/-- What `req_physical_address` does to the TLB; on a miss, memory answers with a frame. -/
def translateAddress (tlb : State) (logicalAddress frame : ℕ) : Option State :=
  if pageSize = 0 then none
  else
    let page := getPageNumber logicalAddress pageSize
    match pageInTlb tlb page with
    | (tlb, some _) => some tlb
    | (tlb, none) => replace t tlb page frame

/-- `instruction_execute`, up to the call of `return_pcb`. -/
def instructionExecute (pcb : Pcb) (instruction : Instruction) (o : Answer) : Option Cpu :=
  match instruction.icode with
  | .io =>
    some { s with
      pcb := some { pcb with status := .blocked }, main := .sendPcb instruction.param0 false }
  | .exit =>
    some { s with
      pcb := some { pcb with status := .terminated }, main := .resetTlb instruction.param0 false }
  | .read | .write | .copy =>
    (translateAddress t pageSize s.tlb instruction.param0.toNat o.frame).map fun tlb =>
      { s with tlb, main := .testPcb }
  | .noOp | .noInstruction => some { s with main := .testPcb }

def afterReturn (interrupted : Bool) : Main := if interrupted then .clearInterruption else .testPcb

/-- `on_run`, `cycle` and `return_pcb`. -/
def mainStep (o : Answer) : Option Cpu :=
  match s.main with
  | .waitPcbReceived =>
    if s.pcbReceived = 0 then none
    else some { s with pcbReceived := s.pcbReceived - 1, main := .testNull }
  | .testNull =>
    if s.pcb = none then some { s with main := .waitPcbReceived }
    else some { s with main := .testPcb }
  | .testPcb =>
    if s.pcb = none then some { s with main := .waitPcbReceived }
    else some { s with main := .testInterruption }
  | .testInterruption =>
    if s.hasInterruption then some { s with main := .setReady }
    else some { s with main := .fetch }
  | .fetch =>
    s.pcb.map fun pcb => { s with
      pcb := some { pcb with pc := pcb.pc + 1 }
      main :=
        match instructionFetch pcb with
        | none => .testPcb
        | some instruction =>
          if decode instruction then .fetchOperands instruction else .execute instruction }
  | .fetchOperands instruction =>
    s.pcb.bind fun pcb =>
      (translateAddress t pageSize s.tlb instruction.param1.toNat o.frame).map fun tlb =>
        let fetched := { instruction with param0 := 0, param1 := o.value }
        -- the instruction is changed in the list of the block, behind the counter
        { s with
          pcb := some { pcb with instructions := pcb.instructions.set (pcb.pc - 1).toNat fetched }
          tlb
          main := .execute fetched }
  | .execute instruction => s.pcb.bind fun pcb => instructionExecute t pageSize s pcb instruction o
  | .setReady =>
    s.pcb.map fun pcb =>
      { s with pcb := some { pcb with status := .ready }, main := .resetTlb 0 true }
  | .resetTlb time interrupted =>
    some { s with tlb := tlbReset t s.tlb, main := .sendPcb time interrupted }
  | .sendPcb _ interrupted =>
    if s.pcb = none then some { s with main := afterReturn interrupted }
    else some { s with main := .resetTlbSent interrupted }
  | .resetTlbSent interrupted =>
    some { s with tlb := tlbReset t s.tlb, main := .clearPcb interrupted }
  | .clearPcb interrupted => some { s with pcb := none, main := .signalCpuInUse interrupted }
  | .signalCpuInUse interrupted =>
    some { s with cpuInUse := s.cpuInUse + 1, main := afterReturn interrupted }
  | .clearInterruption => some { s with hasInterruption := false, main := .testPcb }

def step : Event → Option Cpu
  | .connect => some { s with handlers := s.handlers ++ [.receive] }
  | .message i m => receiveStep s i m
  | .handler i => handlerStep s i
  | .main o => mainStep t pageSize s o

/-! ### What each thread can do -/

def accessesMemory (instruction : Instruction) : Bool :=
  match instruction.icode with
  | .read | .write | .copy => true
  | _ => false

inductive HandlerMove (s : Cpu) (i : ℕ) (pc : Handler) : Cpu → Prop where
  | receiveInt : pc = .receive →
      HandlerMove s i pc { s with handlers := s.handlers.set i .testPcb }
  | receivePcb {pcb} : pc = .receive →
      HandlerMove s i pc { s with handlers := s.handlers.set i (.waitCpuInUse pcb) }
  | receiveOther : pc = .receive → HandlerMove s i pc s
  | interrupts {pcb} : pc = .testPcb → s.pcb = some pcb →
      HandlerMove s i pc { s with handlers := s.handlers.set i .setInterruption }
  | ignores : pc = .testPcb → s.pcb = none →
      HandlerMove s i pc { s with handlers := s.handlers.set i .receive }
  | setInterruption : pc = .setInterruption →
      HandlerMove s i pc { s with hasInterruption := true, handlers := s.handlers.set i .receive }
  | waitCpuInUse {pcb n} : pc = .waitCpuInUse pcb → s.cpuInUse = n + 1 →
      HandlerMove s i pc { s with cpuInUse := n, handlers := s.handlers.set i (.setPcb pcb) }
  | setPcb {pcb} : pc = .setPcb pcb →
      HandlerMove s i pc { s with
        pcb := some pcb, handlers := s.handlers.set i .signalPcbReceived }
  | signalPcbReceived : pc = .signalPcbReceived →
      HandlerMove s i pc { s with
        pcbReceived := s.pcbReceived + 1, handlers := s.handlers.set i .receive }

/-- What the main loop can do. Where it goes on in an instruction, `main` is the place. -/
inductive MainMove (t : TlbCfg) (pageSize : ℕ) (s : Cpu) : Cpu → Prop where
  | waitPcbReceived {n} : s.main = .waitPcbReceived → s.pcbReceived = n + 1 →
      MainMove t pageSize s { s with pcbReceived := n, main := .testNull }
  | noPcb : s.main = .testNull ∨ s.main = .testPcb → s.pcb = none →
      MainMove t pageSize s { s with main := .waitPcbReceived }
  | testNull {pcb} : s.main = .testNull → s.pcb = some pcb →
      MainMove t pageSize s { s with main := .testPcb }
  | testPcb {pcb} : s.main = .testPcb → s.pcb = some pcb →
      MainMove t pageSize s { s with main := .testInterruption }
  | interrupted : s.main = .testInterruption → s.hasInterruption = true →
      MainMove t pageSize s { s with main := .setReady }
  | uninterrupted : s.main = .testInterruption → s.hasInterruption = false →
      MainMove t pageSize s { s with main := .fetch }
  | fetch {pcb main} : s.main = .fetch → s.pcb = some pcb →
      (main = .testPcb ∨ ∃ i, main = .fetchOperands i ∨ main = .execute i) →
      MainMove t pageSize s { s with pcb := some { pcb with pc := pcb.pc + 1 }, main }
  | fetchOperands {pcb i frame tlb instructions fetched} : s.main = .fetchOperands i →
      s.pcb = some pcb → translateAddress t pageSize s.tlb i.param1.toNat frame = some tlb →
      MainMove t pageSize s { s with
        pcb := some { pcb with instructions }, tlb, main := .execute fetched }
  | executeNothing {i pcb} : s.main = .execute i → s.pcb = some pcb → accessesMemory i = false →
      MainMove t pageSize s { s with main := .testPcb }
  | executeAccess {i pcb frame tlb} : s.main = .execute i → s.pcb = some pcb →
      accessesMemory i = true → translateAddress t pageSize s.tlb i.param0.toNat frame = some tlb →
      MainMove t pageSize s { s with tlb, main := .testPcb }
  | executeIo {i pcb time} : s.main = .execute i → s.pcb = some pcb → accessesMemory i = false →
      MainMove t pageSize s { s with
        pcb := some { pcb with status := .blocked }, main := .sendPcb time false }
  | executeExit {i pcb time} : s.main = .execute i → s.pcb = some pcb →
      accessesMemory i = false → MainMove t pageSize s { s with
        pcb := some { pcb with status := .terminated }, main := .resetTlb time false }
  | setReady {pcb} : s.main = .setReady → s.pcb = some pcb →
      MainMove t pageSize s { s with
        pcb := some { pcb with status := .ready }, main := .resetTlb 0 true }
  | resetTlb {time b} : s.main = .resetTlb time b →
      MainMove t pageSize s { s with tlb := tlbReset t s.tlb, main := .sendPcb time b }
  | sendNothing {time b} : s.main = .sendPcb time b → s.pcb = none →
      MainMove t pageSize s { s with main := afterReturn b }
  | sendPcb {pcb time b} : s.main = .sendPcb time b → s.pcb = some pcb →
      MainMove t pageSize s { s with main := .resetTlbSent b }
  | resetTlbSent {b} : s.main = .resetTlbSent b →
      MainMove t pageSize s { s with tlb := tlbReset t s.tlb, main := .clearPcb b }
  | clearPcb {b} : s.main = .clearPcb b →
      MainMove t pageSize s { s with pcb := none, main := .signalCpuInUse b }
  | signalCpuInUse {b} : s.main = .signalCpuInUse b →
      MainMove t pageSize s { s with cpuInUse := s.cpuInUse + 1, main := afterReturn b }
  | clearInterruption : s.main = .clearInterruption →
      MainMove t pageSize s { s with hasInterruption := false, main := .testPcb }

inductive Move (t : TlbCfg) (pageSize : ℕ) (s : Cpu) : Event → Cpu → Prop where
  | connect : Move t pageSize s .connect { s with handlers := s.handlers ++ [.receive] }
  | handler {e i pc s'} : e = .handler i ∧ pc ≠ .receive ∨ (∃ m, e = .message i m) ∧ pc = .receive →
      s.handlers[i]? = some pc → HandlerMove s i pc s' → Move t pageSize s e s'
  | main {o s'} : MainMove t pageSize s s' → Move t pageSize s (.main o) s'

variable {t pageSize s} {s' : Cpu}

lemma receiveMove {i : ℕ} {m : Message} (h : receiveStep s i m = some s') :
    s.handlers[i]? = some .receive ∧ HandlerMove s i .receive s' := by
  unfold receiveStep at h
  split at h
  · next hi =>
    refine ⟨hi, ?_⟩
    cases m with
    | int =>
      cases h
      exact .receiveInt rfl
    | pcb pcb =>
      cases h
      exact .receivePcb rfl
    | other =>
      cases h
      exact .receiveOther rfl
  · cases h

lemma handlerMove {i : ℕ} (h : handlerStep s i = some s') :
    ∃ pc, s.handlers[i]? = some pc ∧ pc ≠ .receive ∧ HandlerMove s i pc s' := by
  unfold handlerStep at h
  split at h
  · cases h
  next pc hi =>
  have hpc : pc ≠ .receive := by
    rintro rfl
    cases h
  refine ⟨pc, hi, hpc, ?_⟩
  cases pc with
  | receive => exact absurd rfl hpc
  | testPcb =>
    dsimp only at h
    split at h
    · next hpcb =>
      cases h
      obtain ⟨pcb, hpcb⟩ := Option.ne_none_iff_exists'.mp hpcb
      exact .interrupts rfl hpcb
    · next hpcb =>
      cases h
      exact .ignores rfl (not_not.mp hpcb)
  | setInterruption =>
    cases h
    exact .setInterruption rfl
  | waitCpuInUse pcb =>
    cases hn : s.cpuInUse with
    | zero => simp [hn] at h
    | succ n =>
      simp only [hn, Nat.succ_ne_zero, if_false, Nat.add_one_sub_one, Option.some.injEq] at h
      exact h ▸ .waitCpuInUse rfl hn
  | setPcb pcb =>
    cases h
    exact .setPcb rfl
  | signalPcbReceived =>
    cases h
    exact .signalPcbReceived rfl

lemma executeMove {pcb : Pcb} {i : Instruction} {o : Answer} (hm : s.main = .execute i)
    (hpcb : s.pcb = some pcb) (h : instructionExecute t pageSize s pcb i o = some s') :
    MainMove t pageSize s s' := by
  unfold instructionExecute at h
  cases hi : i.icode <;> simp only [hi] at h
  case io =>
    cases h
    exact .executeIo hm hpcb (by simp [accessesMemory, hi])
  case exit =>
    cases h
    exact .executeExit hm hpcb (by simp [accessesMemory, hi])
  case noOp | noInstruction =>
    cases h
    exact .executeNothing hm hpcb (by simp [accessesMemory, hi])
  case read | write | copy =>
    obtain ⟨tlb, htlb, rfl⟩ := Option.map_eq_some_iff.mp h
    exact .executeAccess hm hpcb (by simp [accessesMemory, hi]) htlb

lemma mainMove {o : Answer} (h : mainStep t pageSize s o = some s') : MainMove t pageSize s s' := by
  unfold mainStep at h
  split at h
  · next hm =>
    cases hn : s.pcbReceived with
    | zero => simp [hn] at h
    | succ n =>
      simp only [hn, Nat.succ_ne_zero, if_false, Nat.add_one_sub_one, Option.some.injEq] at h
      exact h ▸ .waitPcbReceived hm hn
  · next hm =>
    split at h
    · next hpcb =>
      cases h
      exact .noPcb (.inl hm) hpcb
    · next hpcb =>
      cases h
      obtain ⟨pcb, hpcb⟩ := Option.ne_none_iff_exists'.mp hpcb
      exact .testNull hm hpcb
  · next hm =>
    split at h
    · next hpcb =>
      cases h
      exact .noPcb (.inr hm) hpcb
    · next hpcb =>
      cases h
      obtain ⟨pcb, hpcb⟩ := Option.ne_none_iff_exists'.mp hpcb
      exact .testPcb hm hpcb
  · next hm =>
    split at h
    · next hint =>
      cases h
      exact .interrupted hm hint
    · next hint =>
      cases h
      exact .uninterrupted hm (by simpa using hint)
  · next hm =>
    obtain ⟨pcb, hpcb, rfl⟩ := Option.map_eq_some_iff.mp h
    refine .fetch hm hpcb ?_
    split
    · exact .inl rfl
    next i _ =>
    refine .inr ⟨i, ?_⟩
    split
    · exact .inl rfl
    · exact .inr rfl
  · next hm =>
    obtain ⟨pcb, hpcb, h⟩ := Option.bind_eq_some_iff.mp h
    obtain ⟨tlb, htlb, rfl⟩ := Option.map_eq_some_iff.mp h
    exact .fetchOperands hm hpcb htlb
  · next hm =>
    obtain ⟨pcb, hpcb, h⟩ := Option.bind_eq_some_iff.mp h
    exact executeMove hm hpcb h
  · next hm =>
    obtain ⟨pcb, hpcb, rfl⟩ := Option.map_eq_some_iff.mp h
    exact .setReady hm hpcb
  · next hm =>
    cases h
    exact .resetTlb hm
  · next hm =>
    split at h
    · next hpcb =>
      cases h
      exact .sendNothing hm hpcb
    · next hpcb =>
      cases h
      obtain ⟨pcb, hpcb⟩ := Option.ne_none_iff_exists'.mp hpcb
      exact .sendPcb hm hpcb
  · next hm =>
    cases h
    exact .resetTlbSent hm
  · next hm =>
    cases h
    exact .clearPcb hm
  · next hm =>
    cases h
    exact .signalCpuInUse hm
  · next hm =>
    cases h
    exact .clearInterruption hm

/-- **Step inversion.** A step is a move of one thread. -/
theorem move {e : Event} (h : step t pageSize s e = some s') : Move t pageSize s e s' := by
  cases e with
  | connect =>
    cases h
    exact .connect
  | message i m =>
    obtain ⟨hi, hm⟩ := receiveMove h
    exact .handler (.inr ⟨⟨m, rfl⟩, rfl⟩) hi hm
  | handler i =>
    obtain ⟨pc, hi, hpc, hm⟩ := handlerMove h
    exact .handler (.inl ⟨rfl, hpc⟩) hi hm
  | main o => exact .main (mainMove h)

end Sski.Cpu.Server
