import Sski.Cpu.Interruptions
import Sski.Scheduling.Conservation

/-!
The kernel and the CPU together, and what becomes of a preemption.

Two connections join them: blocks go to the CPU and come back over one, interruptions go over
the other. The long-term scheduler sends an interruption before it pushes the process to READY,
`event` after it has done so. So when the preempted block comes back, the short-term scheduler
can select again before the process it was preempted for is there; or that process can have been
selected, and gone, before the interruption takes effect.
-/

namespace Sski.System.Preemption

open Sski.Lib.Runs Sski.Lib.Counting Sski.Scheduling
open Sski.Scheduling.Scheduler Sski.Scheduling.Threads Sski.Scheduling.Moves
open Sski.Cpu.Server Sski.Cpu.Occupancy
open Sski.Cpu.Interruptions (preempts works_of_preempts)
open Sski.Cpu.Tlb (TlbCfg smallTlb)

/-! ### The system -/

structure Sys where
  kernel : Kernel
  cpu : Cpu
  /-- The blocks on the way to the CPU. -/
  dispatch : List Sski.Cpu.Server.Pcb
  /-- The interruptions on the way to the CPU. -/
  interrupts : ℕ
  /-- The blocks on the way back, with their I/O times. -/
  returned : List (Sski.Cpu.Server.Pcb × UInt32)

/-- A thread of the kernel takes a step; a handler of the CPU receives the next block, or the
next interruption; or it goes on, or the main loop does. -/
inductive Event where
  | kernel (e : Sski.Scheduling.Threads.Event)
  | dispatch
  | interrupt
  | handler (i : ℕ)
  | main (o : Answer)

variable (c : Cfg) (t : TlbCfg) (pageSize : ℕ) (s : Sys)

def initSys (heap : Heap) : Sys :=
  ⟨initKernel c heap, { initCpu t with handlers := [.receive, .receive] }, [], 0, []⟩

def toCpu (pcb : Scheduler.Pcb) : Sski.Cpu.Server.Pcb :=
  ⟨pcb.id, pcb.status, pcb.instructions, pcb.pageTable, pcb.pc⟩

/-- The short-term scheduler sends blocks to the CPU, and receives what it returns. -/
def stsStep (o : Outside) : Option Sys :=
  match s.kernel.sts with
  | .sendPcb a =>
    (Threads.stsStep c s.kernel o).map fun kernel => { s with
      kernel
      dispatch := if o.sent then s.dispatch ++ [toCpu (s.kernel.heap a)] else s.dispatch }
  | .receivePcb =>
    match s.returned with
    | [] => none
    | (pcb, time) :: returned =>
      (Threads.stsStep c s.kernel { o with
        status := pcb.status
        pc := pcb.pc
        instructions := pcb.instructions
        ioTime := time }).map fun kernel => { s with kernel, returned }
  | _ => (Threads.stsStep c s.kernel o).map fun kernel => { s with kernel }

/-- The process the long-term scheduler is about to send an interruption for. -/
def ltsInterrupts : Lts → Option Addr
  | .sendInterrupt a => some a
  | _ => none

def ioInterrupts : Io → Option Addr
  | .sendInterrupt a => some a
  | _ => none

def kernelStep : Sski.Scheduling.Threads.Event → Option Sys
  | .sts o => stsStep c s o
  | .lts memory =>
    (ltsStep c s.kernel memory).map fun kernel => { s with
      kernel, interrupts := s.interrupts + (ltsInterrupts s.kernel.lts).toList.length }
  | .io =>
    (ioStep c s.kernel).map fun kernel => { s with
      kernel, interrupts := s.interrupts + (ioInterrupts s.kernel.io).toList.length }
  | e => (Threads.step c s.kernel e).map fun kernel => { s with kernel }

def sendsBack (cpu : Cpu) : Option (Sski.Cpu.Server.Pcb × UInt32) :=
  match cpu.main with
  | .sendPcb time _ => cpu.pcb.map fun pcb => (pcb, time)
  | _ => none

def step : Event → Option Sys
  | .kernel e => kernelStep c s e
  | .dispatch =>
    match s.dispatch with
    | [] => none
    | pcb :: dispatch =>
      (receiveStep s.cpu 0 (.pcb pcb)).map fun cpu => { s with cpu, dispatch }
  | .interrupt =>
    match s.interrupts with
    | 0 => none
    | n + 1 => (receiveStep s.cpu 1 .int).map fun cpu => { s with cpu, interrupts := n }
  | .handler i => (handlerStep s.cpu i).map fun cpu => { s with cpu }
  | .main o =>
    (mainStep t pageSize s.cpu o).map fun cpu => { s with
      cpu, returned := s.returned ++ (sendsBack s.cpu).toList }

/-! ### Whom an interruption is for -/

/-- A process, as its block is found: at an address, on the CPU and destroyed in the kernel, or
nowhere any more. -/
inductive Target where
  | block (a : Addr)
  | onCpu
  | gone
  deriving DecidableEq, Repr

/-- Each interruption stands for the process it was sent for. -/
structure Trail where
  /-- On the connection. -/
  interrupts : List Target
  /-- With the handler. -/
  received : Option Target
  /-- What the flag stands for. -/
  flag : List Target
  /-- What it stood for when the main loop last gave way to it. -/
  causes : List Target
  /-- For each block on its way back, why it was preempted. -/
  returning : List (List Target)
  /-- The same for the block that came back last; it is for the next selection. -/
  due : List Target
  /-- The selections: what was due, and what was in READY. -/
  selections : List (List Target × List Addr)

def noTrail : Trail := ⟨[], none, [], [], [], [], []⟩

/-- The block of a process is destroyed, or made again. -/
def Trail.rename (w : Trail) (f : Target → Target) : Trail :=
  { w with
    interrupts := w.interrupts.map f
    received := w.received.map f
    flag := w.flag.map f
    causes := w.causes.map f
    returning := w.returning.map (List.map f) }

def leaves (a : Addr) (x : Target) (y : Target) : Target := if y = .block a then x else y

def comesTo (a : Addr) (y : Target) : Target := if y = .onCpu then .block a else y

def noteSts (k : Kernel) (o : Outside) (w : Trail) : Trail :=
  match k.sts with
  | .popReady => { w with due := [], selections := w.selections ++ [(w.due, k.ready)] }
  | .destroySent a => w.rename (leaves a .onCpu)
  | .receivePcb =>
    let w := w.rename (comesTo o.addr)
    { w with due := w.returning.headD [], returning := w.returning.tail }
  | .destroyPcb a _ => w.rename (leaves a .gone)
  | _ => w

def noteHandler (cpu : Cpu) (w : Trail) : Trail :=
  match (cpu.handlers[1]? : Option Handler) with
  | some .testPcb => if cpu.pcb = none then { w with received := none } else w
  | some .setInterruption => { w with received := none, flag := w.received.toList ++ w.flag }
  | _ => w

def noteMain (cpu : Cpu) (w : Trail) : Trail :=
  match cpu.main with
  | .testInterruption => if cpu.hasInterruption then { w with causes := w.flag } else w
  | .sendPcb _ interrupted =>
    if cpu.pcb = none then w
    else { w with returning := w.returning ++ [if interrupted then w.causes else []] }
  | .clearInterruption => { w with flag := [] }
  | _ => w

def note (s : Sys) : Event → Trail → Trail
  | .kernel (.sts o), w => noteSts s.kernel o w
  | .kernel (.lts _), w =>
    { w with interrupts := w.interrupts ++ (ltsInterrupts s.kernel.lts).toList.map .block }
  | .kernel .io, w =>
    { w with interrupts := w.interrupts ++ (ioInterrupts s.kernel.io).toList.map .block }
  | .interrupt, w => { w with interrupts := w.interrupts.tail, received := w.interrupts.head? }
  | .handler 1, w => noteHandler s.cpu w
  | .main _, w => noteMain s.cpu w
  | _, w => w

abbrev stepT := watched (step c t pageSize) note

/-- At every selection, what the block that came back last was preempted for is in READY. -/
def Available (w : Trail) : Prop := ∀ x ∈ w.selections, ∀ y ∈ x.1, ∃ a ∈ x.2, y = .block a

def pushes : Lts → Option Addr
  | .pushReady a => some a
  | _ => none

def destroysSent : Sts → Option Addr
  | .destroySent a => some a
  | _ => none

def comesBack : Sts → Option Addr
  | .setReal a _ | .clearCurrentEstimation a _ | .switchStatus a _ | .preEmpt a | .pushReady a =>
    some a
  | _ => none

/-- The process is in READY, or the long-term scheduler is about to push it, or it is the one of
the given block. -/
def Near (k : Kernel) (a : Option Addr) (y : Target) : Prop :=
  y ∈ (k.ready ++ (pushes k.lts).toList ++ a.toList).map .block

/-- It is in READY, or about to be, or it is the one on the CPU. -/
def Waits (k : Kernel) (y : Target) : Prop := y = .onCpu ∨ Near k (destroysSent k.sts) y

def switches : Sts → Option Addr
  | .switchStatus a _ => some a
  | _ => none

/-- When the short-term scheduler selects, the long-term scheduler has pushed what is due. When
the main loop gives way to the flag, the processes it stands for wait. And if one of them is the
preempted process itself, no other thread has written its status when it comes back. -/
def InTime (s : Sys) (w : Trail) : Event → Prop
  | .kernel (.sts _) =>
    (s.kernel.sts = .popReady → ∀ a ∈ (pushes s.kernel.lts).toList, .block a ∉ w.due) ∧
      ∀ a ∈ (switches s.kernel.sts).toList, .block a ∈ w.due → (s.kernel.heap a).status = .ready
  | .main _ => s.cpu.main = .testInterruption → s.cpu.hasInterruption = true →
      ∀ y ∈ w.flag, Waits s.kernel y
  | _ => True

instance (k : Kernel) (a : Option Addr) (y : Target) : Decidable (Near k a y) :=
  inferInstanceAs (Decidable (y ∈ _))

instance (k : Kernel) (y : Target) : Decidable (Waits k y) :=
  inferInstanceAs (Decidable (y = .onCpu ∨ Near k (destroysSent k.sts) y))

instance (s : Sys) (w : Trail) : DecidablePred (InTime s w)
  | .kernel (.sts _) =>
    inferInstanceAs (Decidable (_ ∧ ∀ a ∈ (switches s.kernel.sts).toList, _ → _))
  | .main _ => inferInstanceAs (Decidable (_ → _ → ∀ y ∈ w.flag, Waits s.kernel y))
  | .kernel .connect | .kernel (.message ..) | .kernel (.console ..) | .kernel (.lts _)
  | .kernel .io | .kernel (.mts _) | .kernel (.scribble ..) | .dispatch | .interrupt
  | .handler _ => .isTrue trivial

/-! ### One block is outside the kernel -/

def carries : Handler → Bool
  | .waitCpuInUse _ | .setPcb _ => true
  | _ => false

/-- The short-term scheduler has sent a block, and not received it yet. -/
def outside : Sts → Bool
  | .destroySent _ | .receivePcb => true
  | _ => false

structure Tracked (s : Sys) (w : Trail) : Prop where
  token : Token s.cpu
  custody : s.dispatch.length + s.cpu.handlers.countP carries + (running s.cpu).isSome.toNat +
    s.returned.length = (outside s.kernel.sts).toNat
  lengths : w.returning.length = s.returned.length
  causes : preempts s.cpu.main = true → ∀ y ∈ w.causes, Waits s.kernel y
  returning : ∀ l ∈ w.returning, ∀ y ∈ l, Waits s.kernel y
  due : ∀ y ∈ w.due, Near s.kernel (comesBack s.kernel.sts) y
  available : Available w

variable {c t pageSize} {s s' : Sys} {w w' : Trail} {k' : Kernel}

lemma tracked_init (heap : Heap) : Tracked (initSys c t heap) noTrail :=
  ⟨⟨rfl, nofun⟩, rfl, rfl, nofun, nofun, nofun, nofun⟩

/-! ### Processes that wait go on waiting -/

/-- What is in READY, or about to be pushed there, stays. -/
def Keeps (k k' : Kernel) : Prop :=
  ∀ a ∈ k.ready ++ (pushes k.lts).toList, a ∈ k'.ready ++ (pushes k'.lts).toList

lemma Near.keeps {k k' : Kernel} {a : Option Addr} {y : Target} (h : Near k a y)
    (hk : Keeps k k') : Near k' a y := by
  obtain ⟨b, hb, rfl⟩ := List.mem_map.mp h
  refine List.mem_map.mpr ⟨b, ?_, rfl⟩
  rcases List.mem_append.mp hb with hb | hb
  · exact List.mem_append_left _ (hk b hb)
  · exact List.mem_append_right _ hb

lemma Waits.keeps {k k' : Kernel} {y : Target} (h : Waits k y) (hk : Keeps k k')
    (hsts : k'.sts = k.sts) : Waits k' y := by
  refine h.imp_right fun h => ?_
  rw [hsts]
  exact h.keeps hk

lemma keeps_lts {k : Kernel} (h : LtsMove c k k') : Keeps k k' := by
  intro a ha
  cases h with
  | pushReady hl => simpa [hl, pushes] using ha
  | _ => simp_all [pushes]

lemma keeps_io {k : Kernel} (h : IoMove c k k') : Keeps k k' := by
  intro a ha
  cases h with
  | @pushReady b =>
    rcases List.mem_append.mp ha with ha | ha
    · exact List.mem_append_left _ (List.mem_append_left _ ha)
    · exact List.mem_append_right _ ha
  | _ => exact ha

lemma keeps_of_step {k : Kernel} {e : Threads.Event} (h : Threads.step c k e = some k')
    (he : ∀ o, e ≠ .sts o) : Keeps k k' ∧ k'.sts = k.sts := by
  cases e with
  | connect =>
    cases h
    exact ⟨fun _ ha => ha, rfl⟩
  | message i m =>
    obtain ⟨s, -, -, hm⟩ := routineMove (c := c) h
    cases hm <;> exact ⟨fun _ ha => ha, rfl⟩
  | console i addr =>
    obtain ⟨s, -, hm⟩ := consoleMove h
    cases hm <;> exact ⟨fun _ ha => ha, rfl⟩
  | lts memory => exact ⟨keeps_lts (ltsMove h), by cases ltsMove h <;> rfl⟩
  | sts o => exact absurd rfl (he o)
  | io => exact ⟨keeps_io (ioMove h), by cases ioMove h <;> rfl⟩
  | mts i =>
    obtain ⟨t, -, hm⟩ := mtsMove h
    cases hm <;> exact ⟨fun _ ha => ha, rfl⟩
  | scribble a pcb =>
    simp only [Threads.step] at h
    split at h
    · cases h
    · cases h
      exact ⟨fun _ ha => ha, rfl⟩

lemma Tracked.elsewhere (h : Tracked s w) (hk : Keeps s.kernel k') (hsts : k'.sts = s.kernel.sts)
    (n : ℕ) (ys : List Target) :
    Tracked { s with kernel := k', interrupts := n } { w with interrupts := ys } := by
  obtain ⟨htoken, hcustody, hlengths, hcauses, hreturning, hdue, havailable⟩ := h
  refine ⟨htoken, ?_, hlengths, fun hp y hy => ?_, fun l hl y hy => ?_, fun y hy => ?_, havailable⟩
  · rw [hsts]
    exact hcustody
  · exact (hcauses hp y hy).keeps hk hsts
  · exact (hreturning l hl y hy).keeps hk hsts
  · rw [hsts]
    exact (hdue y hy).keeps hk

/-! ### The short-term scheduler -/

/-- While nothing is outside the kernel, no preemption is under way. -/
lemma Tracked.inside (h : Tracked s w) (hout : outside s.kernel.sts = false) :
    s.dispatch = [] ∧ s.cpu.handlers.countP carries = 0 ∧ running s.cpu = none ∧
      s.returned = [] ∧ w.returning = [] := by
  have hcustody := h.custody
  rw [hout, Bool.toNat_false] at hcustody
  have hreturned : s.returned = [] := List.length_eq_zero_iff.mp (by omega)
  refine ⟨List.length_eq_zero_iff.mp (by omega), by omega, ?_, hreturned, ?_⟩
  · refine Option.not_isSome_iff_eq_none.mp fun hsome => ?_
    rw [hsome, Bool.toNat_true] at hcustody
    omega
  · refine List.length_eq_zero_iff.mp ?_
    rw [h.lengths, hreturned]
    rfl

/-- The main loop gives way with a block that it has not sent back. -/
lemma Tracked.running_of_preempts (h : Tracked s w) (hp : preempts s.cpu.main = true) :
    running s.cpu ≠ none := by
  have hworks : works s.cpu.main = true := by
    by_contra hw
    rw [works_of_preempts (by simpa using hw)] at hp
    cases hp
  have hsent : sent s.cpu.main = false := by
    unfold preempts at hp
    split at hp <;> first | (rename_i hm; rw [hm]; rfl) | cases hp
  have hpcb := h.token.loaded hworks
  simpa [running, hsent] using hpcb

lemma Tracked.preempts_eq_false (h : Tracked s w) (hr : running s.cpu = none) :
    preempts s.cpu.main = false := by
  rw [Bool.eq_false_iff]
  exact fun hp => h.running_of_preempts hp hr

/-- What is due stays near while the block that came back goes to READY. -/
lemma near_sts {k : Kernel} (hm : StsMove c k k') (hpop : k.sts ≠ .popReady)
    (hreceive : k.sts ≠ .receivePcb) {y : Target} (hy : Near k (comesBack k.sts) y)
    (hstatus : ∀ a ∈ (switches k.sts).toList, y = .block a → (k.heap a).status = .ready) :
    Near k' (comesBack k'.sts) y := by
  cases hm with
  | popReady hl | popReadyNone hl => exact absurd hl hpop
  | receivePcb hl => exact absurd hl hreceive
  | sortReady hl =>
    rw [hl] at hy
    obtain ⟨a, ha, rfl⟩ := List.mem_map.mp hy
    refine List.mem_map.mpr ⟨a, ?_, rfl⟩
    simpa [comesBack, sortByEstimation, List.mem_insertionSort] using ha
  | pushReady hl =>
    rw [hl] at hy
    obtain ⟨a, ha, rfl⟩ := List.mem_map.mp hy
    refine List.mem_map.mpr ⟨a, ?_, rfl⟩
    simp only [comesBack, Option.toList_some, Option.toList_none, List.mem_append,
      List.mem_singleton, List.not_mem_nil, or_false] at ha ⊢
    rcases ha with (ha | ha) | ha
    · exact .inl (.inl ha)
    · exact .inr ha
    · exact .inl (.inr ha)
  | @switchBlocked a ioTime hl hne | @switchExit a ioTime hl _ hne =>
    -- the block that came back is not one that is due
    rw [hl] at hy hstatus
    obtain ⟨b, hb, rfl⟩ := List.mem_map.mp hy
    refine List.mem_map.mpr ⟨b, ?_, rfl⟩
    rcases List.mem_append.mp hb with hb | hb
    · exact List.mem_append_left _ hb
    · obtain rfl : b = a := by simpa [comesBack] using hb
      have hready := hstatus b (by simp [switches]) rfl
      first
        | exact absurd hready hne
        | (rw [hready] at hne; cases hne)
  | waitExecute hl hn hnext =>
    rw [hl] at hy
    rcases hnext with ⟨-, rfl⟩ | ⟨-, rfl⟩ <;> exact hy
  | signalDom hl hsts =>
    rw [hl] at hy
    rcases hsts with rfl | rfl <;> exact hy
  | setExecuting hl | setCurrentEstimation hl | sendPcb hl | sendPcbFailed hl | destroySent hl
  | setReal hl | clearCurrentEstimation hl | switchReady hl | setIo hl | reSchedule hl
  | pushBlocked hl | notifyMts hl | signalIoRequest hl | exitProcess hl | destroyPcb hl
  | preEmpt hl | signalExecute hl =>
    rw [hl] at hy
    exact hy

lemma noteSts_due {k : Kernel} {o : Outside} (hpop : k.sts ≠ .popReady)
    (hreceive : k.sts ≠ .receivePcb) :
    (noteSts k o w).due = w.due ∧ (noteSts k o w).selections = w.selections := by
  unfold noteSts
  split
  · exact absurd ‹_› hpop
  · exact ⟨rfl, rfl⟩
  · exact absurd ‹_› hreceive
  · exact ⟨rfl, rfl⟩
  · exact ⟨rfl, rfl⟩

lemma Tracked.stsInside {o : Outside} (h : Tracked s w) (hm : StsMove c s.kernel k')
    (hcond : InTime s w (.kernel (.sts o))) (hout : outside s.kernel.sts = false)
    (hout' : outside k'.sts = false) : Tracked { s with kernel := k' } (noteSts s.kernel o w) := by
  obtain ⟨hdispatch, hhandlers, hrunning, hreturned, hreturning⟩ := h.inside hout
  have hpreempts := h.preempts_eq_false hrunning
  have hreceive : s.kernel.sts ≠ .receivePcb := by
    intro hl
    rw [hl] at hout
    cases hout
  have hnone : (noteSts s.kernel o w).returning = [] := by
    unfold noteSts
    split <;> simp [Trail.rename, hreturning]
  refine ⟨h.token, ?_, ?_, fun hp => ?_, fun l hl => ?_, fun y hy => ?_, ?_⟩
  · simp [hdispatch, hhandlers, hrunning, hreturned, hout']
  · rw [hnone, hreturned]
    rfl
  · rw [hpreempts] at hp
    cases hp
  · rw [hnone] at hl
    cases hl
  · by_cases hpop : s.kernel.sts = .popReady
    · simp [noteSts, hpop] at hy
    rw [(noteSts_due hpop hreceive).1] at hy
    refine near_sts hm hpop hreceive (h.due y hy) fun a ha hya => ?_
    exact hcond.2 a ha (hya ▸ hy)
  · by_cases hpop : s.kernel.sts = .popReady
    · intro x hx y hy
      simp only [noteSts, hpop] at hx
      rcases List.mem_append.mp hx with hx | hx
      · exact h.available x hx y hy
      · -- the selection: what is due is in READY
        obtain rfl := List.mem_singleton.mp hx
        have hnear := h.due y hy
        rw [hpop] at hnear
        obtain ⟨a, ha, rfl⟩ := List.mem_map.mp hnear
        simp only [comesBack, Option.toList_none, List.append_nil] at ha
        refine ⟨a, (List.mem_append.mp ha).resolve_right fun ha => ?_, rfl⟩
        exact hcond.1 hpop a ha hy
    · rw [Available, (noteSts_due hpop hreceive).2]
      exact h.available

lemma Tracked.sendPcb {a : Addr} (h : Tracked s w) (hl : s.kernel.sts = .sendPcb a) :
    Tracked { s with
      kernel := { s.kernel with cpu := some (s.kernel.heap a), sts := .destroySent a }
      dispatch := s.dispatch ++ [toCpu (s.kernel.heap a)] } w := by
  obtain ⟨hdispatch, hhandlers, hrunning, hreturned, hreturning⟩ := h.inside (by rw [hl]; rfl)
  refine ⟨h.token, ?_, h.lengths, fun hp => ?_, fun l hx => ?_, fun y hy => ?_, h.available⟩
  · simp [hdispatch, hhandlers, hrunning, hreturned, outside]
  · rw [h.preempts_eq_false hrunning] at hp
    cases hp
  · rw [hreturning] at hx
    cases hx
  · have hdue := h.due y hy
    rw [hl] at hdue
    exact hdue

/-- The block that was sent is destroyed: its process is on the CPU. -/
lemma waits_destroySent {k : Kernel} {a : Addr} (hl : k.sts = .destroySent a)
    {inUse : Addr → Bool} {y : Target} (hy : Waits k y) :
    Waits { k with inUse, sts := .receivePcb } (leaves a .onCpu y) := by
  unfold leaves
  split
  · exact .inl rfl
  next hne =>
  refine hy.imp_right fun hy => ?_
  rw [hl] at hy
  obtain ⟨b, hb, rfl⟩ := List.mem_map.mp hy
  refine List.mem_map.mpr ⟨b, ?_, rfl⟩
  have hba : b ≠ a := fun hba => hne (by rw [hba])
  simpa [destroysSent, hba] using hb

lemma Tracked.destroySent {a : Addr} {inUse : Addr → Bool} (h : Tracked s w)
    (hl : s.kernel.sts = .destroySent a) :
    Tracked { s with kernel := { s.kernel with inUse, sts := .receivePcb } }
      (w.rename (leaves a .onCpu)) := by
  refine ⟨h.token, ?_, ?_, fun hp y hy => ?_, fun l hx y hy => ?_, fun y hy => ?_, h.available⟩
  · have hcustody := h.custody
    rw [hl] at hcustody
    exact hcustody
  · simpa [Trail.rename] using h.lengths
  · obtain ⟨z, hz, rfl⟩ := List.mem_map.mp hy
    exact waits_destroySent hl (h.causes hp z hz)
  · obtain ⟨l', hl', rfl⟩ := List.mem_map.mp hx
    obtain ⟨z, hz, rfl⟩ := List.mem_map.mp hy
    exact waits_destroySent hl (h.returning l' hl' z hz)
  · have hdue := h.due y hy
    rw [hl] at hdue
    exact hdue

/-- The block comes back to `addr`: what it was preempted for is due. -/
lemma Tracked.receivePcb {pcb : Sski.Cpu.Server.Pcb × UInt32} {returned : List _}
    (h : Tracked s w) (hl : s.kernel.sts = .receivePcb) (hret : s.returned = pcb :: returned)
    {o : Outside} {heap : Heap} {inUse : Addr → Bool} {time : UInt32} :
    Tracked { s with
      kernel := { s.kernel with heap, inUse, cpu := none, sts := .setReal o.addr time }
      returned } (noteSts s.kernel o w) := by
  have hcustody := h.custody
  rw [hl, hret, List.length_cons, show outside .receivePcb = true from rfl,
    Bool.toNat_true] at hcustody
  have hrunning : running s.cpu = none := by
    refine Option.not_isSome_iff_eq_none.mp fun hsome => ?_
    rw [hsome, Bool.toNat_true] at hcustody
    omega
  have hlen : returned = [] := List.length_eq_zero_iff.mp (by omega)
  obtain ⟨l, hreturning⟩ : ∃ l, w.returning = [l] := by
    refine List.length_eq_one_iff.mp ?_
    rw [h.lengths, hret, hlen]
    rfl
  have hnote : noteSts s.kernel o w = { w.rename (comesTo o.addr) with
      due := l.map (comesTo o.addr), returning := [] } := by
    simp [noteSts, hl, Trail.rename, hreturning]
  rw [hnote]
  refine ⟨h.token, ?_, by rw [hlen]; rfl, fun hp => ?_, nofun, fun y hy => ?_, h.available⟩
  · rw [hlen]
    simp only [outside, List.length_nil, Bool.toNat_false]
    omega
  · rw [h.preempts_eq_false hrunning] at hp
    cases hp
  · obtain ⟨z, hz, rfl⟩ := List.mem_map.mp hy
    rcases h.returning l (by rw [hreturning]; exact List.mem_singleton_self l) z hz with rfl | hnear
    · -- the process itself is on its way to READY
      refine List.mem_map.mpr ⟨o.addr, ?_, rfl⟩
      simp [comesBack]
    · rw [hl] at hnear
      obtain ⟨b, hb, rfl⟩ := List.mem_map.mp hnear
      refine List.mem_map.mpr ⟨b, ?_, rfl⟩
      simp only [destroysSent, Option.toList_none, List.append_nil] at hb
      exact List.mem_append_left _ hb

lemma Tracked.sts {o : Outside} (h : Tracked s w) (hcond : InTime s w (.kernel (.sts o)))
    (hs : Preemption.stsStep c s o = some s') : Tracked s' (noteSts s.kernel o w) := by
  unfold Preemption.stsStep at hs
  split at hs
  · next a hl =>
    obtain ⟨k', hk, rfl⟩ := Option.map_eq_some_iff.mp hs
    have hw : noteSts s.kernel o w = w := by simp [noteSts, hl]
    unfold Threads.stsStep at hk
    simp only [hl] at hk
    split at hk
    · next hsent =>
      cases hk
      rw [if_pos hsent, hw]
      exact h.sendPcb hl
    · next hsent =>
      have hfailed : StsMove c s.kernel { s.kernel with sts := .exitProcess a false } :=
        .sendPcbFailed hl
      cases hk
      rw [if_neg hsent]
      exact h.stsInside hfailed hcond (by rw [hl]; rfl) rfl
  · next hl =>
    split at hs
    · cases hs
    next pcb time returned hret =>
    obtain ⟨k', hk, rfl⟩ := Option.map_eq_some_iff.mp hs
    unfold Threads.stsStep at hk
    simp only [hl] at hk
    split at hk
    · cases hk
    split at hk
    · cases hk
    · cases hk
      exact h.receivePcb hl hret
  · next hsend hreceive =>
    obtain ⟨k', hk, rfl⟩ := Option.map_eq_some_iff.mp hs
    have hm := stsMove hk
    by_cases hout : outside s.kernel.sts = true
    · cases hl : s.kernel.sts with
      | destroySent a =>
        have hw : noteSts s.kernel o w = w.rename (leaves a .onCpu) := by simp [noteSts, hl]
        unfold Threads.stsStep at hk
        simp only [hl, Option.some.injEq] at hk
        rw [hw, ← hk]
        exact h.destroySent hl
      | receivePcb => exact absurd hl hreceive
      | _ => simp [hl, outside] at hout
    · have hout' : outside k'.sts = false := by
        cases hm with
        | sendPcb hl => exact absurd hl (hsend _)
        | destroySent hl => simp [hl, outside] at hout
        | waitExecute _ _ hnext => rcases hnext with ⟨-, rfl⟩ | ⟨-, rfl⟩ <;> rfl
        | signalDom _ hsts => rcases hsts with rfl | rfl <;> rfl
        | sortReady | popReady | setExecuting | setCurrentEstimation | sendPcbFailed | receivePcb
        | setReal | clearCurrentEstimation | switchBlocked | switchReady | switchExit | setIo
        | reSchedule | pushBlocked | notifyMts | signalIoRequest | exitProcess | destroyPcb
        | preEmpt | pushReady | signalExecute | popReadyNone => rfl
      exact h.stsInside hm hcond (by simpa using hout) hout'

/-! ### The CPU -/

section Cpu

variable {cpu cpu' : Cpu} {i : ℕ} {pc : Handler}

lemma custody_handler (htoken : Token cpu) (hi : cpu.handlers[i]? = some pc) (hpc : pc ≠ .receive)
    (hm : HandlerMove cpu i pc cpu') :
    cpu'.handlers.countP carries + (running cpu').isSome.toNat =
      cpu.handlers.countP carries + (running cpu).isSome.toNat ∧ cpu'.main = cpu.main := by
  have hset := fun pc' => countP_set_toNat (p := carries) pc' hi
  have hnone := htoken.pcb_eq_none hi
  cases hm with
  | receiveInt hl | receivePcb hl | receiveOther hl => exact absurd hl hpc
  | interrupts hl | ignores hl | setInterruption hl | signalPcbReceived hl | waitCpuInUse hl =>
    subst hl
    refine ⟨?_, rfl⟩
    have hset := hset
    simp only [carries, Bool.toNat_false, Bool.toNat_true, Nat.add_zero] at hset
    first
      | exact congrArg (· + _) (hset .setInterruption)
      | exact congrArg (· + _) (hset .receive)
      | exact congrArg (· + _) (Nat.add_right_cancel (hset (.setPcb _)))
  | setPcb hl =>
    subst hl
    refine ⟨?_, rfl⟩
    have hnone := hnone rfl
    have hsent := sent_of_works (htoken.works_eq_false hnone)
    have hset := hset .signalPcbReceived
    simp only [carries, Bool.toNat_false, Bool.toNat_true, Nat.add_zero] at hset
    simp only [running, hsent, hnone, Bool.false_eq_true, if_false, Option.map_some,
      Option.map_none, Option.isSome_some, Option.isSome_none, Bool.toNat_true, Bool.toNat_false]
    omega

/-- The main loop has its block until it sends it back. -/
lemma custody_main (htoken : Token cpu) (hm : MainMove t pageSize cpu cpu') :
    (running cpu').isSome.toNat + (sendsBack cpu).toList.length = (running cpu).isSome.toNat ∧
      cpu'.handlers = cpu.handlers := by
  cases hm with
  | sendPcb hl hpcb => simp [running, sendsBack, hl, hpcb, sent]
  | sendNothing hl hpcb => exact absurd hpcb (htoken.loaded (by rw [hl]; rfl))
  | clearPcb hl => simp [running, sendsBack, hl, sent]
  | signalCpuInUse hl =>
    have hpcb := htoken.pcb_eq_none_of_signals (by rw [hl]; rfl)
    simp [running, sendsBack, hl, hpcb]
  | noPcb hl => rcases hl with hl | hl <;> simp [running, sendsBack, hl, sent]
  | fetch hl hpcb hmain =>
    rcases hmain with rfl | ⟨i, rfl | rfl⟩ <;> simp [running, sendsBack, hl, hpcb, sent]
  | fetchOperands hl hpcb | executeIo hl hpcb | executeExit hl hpcb | setReady hl hpcb =>
    simp [running, sendsBack, hl, hpcb, sent]
  | waitPcbReceived hl | testNull hl | testPcb hl | interrupted hl | uninterrupted hl
  | executeNothing hl | executeAccess hl | resetTlb hl | resetTlbSent hl
  | clearInterruption hl => simp [running, sendsBack, hl, sent]

end Cpu

lemma Tracked.handler {cpu' : Cpu} {i : ℕ} (h : Tracked s w)
    (hs : handlerStep s.cpu i = some cpu') : Tracked { s with cpu := cpu' } w := by
  obtain ⟨pc, hi, hpc, hm⟩ := handlerMove hs
  obtain ⟨hcustody, hmain⟩ := custody_handler h.token hi hpc hm
  refine ⟨h.token.handler hi hm, ?_, h.lengths, fun hp => ?_, h.returning, h.due, h.available⟩
  · have hbefore := h.custody
    dsimp only
    omega
  · exact h.causes (hmain ▸ hp)

/-- What the handlers note is not what the main loop has given way to. -/
lemma Tracked.noteHandler (h : Tracked s w) (cpu : Cpu) :
    Tracked s (Preemption.noteHandler cpu w) := by
  unfold Preemption.noteHandler
  split
  · split
    · exact ⟨h.token, h.custody, h.lengths, h.causes, h.returning, h.due, h.available⟩
    · exact h
  · exact ⟨h.token, h.custody, h.lengths, h.causes, h.returning, h.due, h.available⟩
  · exact h

lemma Tracked.dispatched {cpu' : Cpu} {pcb : Sski.Cpu.Server.Pcb} {dispatch : List _}
    (h : Tracked s w) (hd : s.dispatch = pcb :: dispatch)
    (hs : receiveStep s.cpu 0 (.pcb pcb) = some cpu') :
    Tracked { s with cpu := cpu', dispatch } w := by
  obtain ⟨hi, hm⟩ := receiveMove hs
  have htoken := h.token.handler hi hm
  have hcpu : cpu' = { s.cpu with handlers := s.cpu.handlers.set 0 (.waitCpuInUse pcb) } := by
    simpa [receiveStep, hi, eq_comm] using hs
  subst hcpu
  refine ⟨htoken, ?_, h.lengths, h.causes, h.returning, h.due, h.available⟩
  have hcustody := h.custody
  have hset := countP_set_toNat (p := carries) (.waitCpuInUse pcb) hi
  simp only [carries, Bool.toNat_false, Bool.toNat_true, Nat.add_zero] at hset
  rw [hd, List.length_cons] at hcustody
  show dispatch.length + (s.cpu.handlers.set 0 (.waitCpuInUse pcb)).countP carries +
    (running s.cpu).isSome.toNat + s.returned.length = (outside s.kernel.sts).toNat
  omega

lemma Tracked.interrupted {cpu' : Cpu} {n : ℕ} (h : Tracked s w)
    (hs : receiveStep s.cpu 1 .int = some cpu') :
    Tracked { s with cpu := cpu', interrupts := n }
      { w with interrupts := w.interrupts.tail, received := w.interrupts.head? } := by
  obtain ⟨hi, hm⟩ := receiveMove hs
  have htoken := h.token.handler hi hm
  have hcpu : cpu' = { s.cpu with handlers := s.cpu.handlers.set 1 .testPcb } := by
    simpa [receiveStep, hi, eq_comm] using hs
  subst hcpu
  refine ⟨htoken, ?_, h.lengths, h.causes, h.returning, h.due, h.available⟩
  have hset := countP_set_toNat (p := carries) .testPcb hi
  simp only [carries, Bool.toNat_false, Nat.add_zero] at hset
  show s.dispatch.length + (s.cpu.handlers.set 1 .testPcb).countP carries +
    (running s.cpu).isSome.toNat + s.returned.length = _
  rw [hset]
  exact h.custody

lemma Tracked.mainGoesOn {cpu' : Cpu} (h : Tracked s w) (hm : MainMove t pageSize s.cpu cpu')
    (hback : sendsBack s.cpu = none)
    (hpreempts : preempts cpu'.main = true → preempts s.cpu.main = true) :
    Tracked { s with cpu := cpu' } w := by
  obtain ⟨hcustody, hhandlers⟩ := custody_main h.token hm
  refine ⟨h.token.main hm, ?_, h.lengths, fun hp => h.causes (hpreempts hp), h.returning, h.due,
    h.available⟩
  have hbefore := h.custody
  rw [hback] at hcustody
  simp only [Option.toList_none, List.length_nil, Nat.add_zero] at hcustody
  show s.dispatch.length + cpu'.handlers.countP carries + (running cpu').isSome.toNat +
    s.returned.length = _
  rw [hcustody, hhandlers]
  exact hbefore

lemma Tracked.main {cpu' : Cpu} {o : Answer} (h : Tracked s w)
    (hm : MainMove t pageSize s.cpu cpu') (hcond : InTime s w (.main o)) :
    Tracked { s with cpu := cpu', returned := s.returned ++ (sendsBack s.cpu).toList }
      (noteMain s.cpu w) := by
  by_cases hsend : ∃ time b pcb, s.cpu.main = .sendPcb time b ∧ s.cpu.pcb = some pcb
  · -- the block is sent back, with what it was preempted for
    obtain ⟨time, b, pcb, hl, hpcb⟩ := hsend
    obtain ⟨hcustody, hhandlers⟩ := custody_main h.token hm
    have hback : sendsBack s.cpu = some (pcb, time) := by simp [sendsBack, hl, hpcb]
    have hmain : preempts cpu'.main = false := by
      cases hm <;> simp_all [preempts]
    have hw : noteMain s.cpu w =
        { w with returning := w.returning ++ [if b then w.causes else []] } := by
      simp [noteMain, hl, hpcb]
    rw [hw]
    refine ⟨h.token.main hm, ?_, ?_, fun hp => ?_, fun l hx y hy => ?_, h.due, h.available⟩
    · have hbefore := h.custody
      rw [hback] at hcustody ⊢
      simp only [Option.toList_some, List.length_singleton, List.length_append] at hcustody ⊢
      rw [hhandlers]
      omega
    · rw [hback]
      simp [h.lengths]
    · rw [hmain] at hp
      cases hp
    · rcases List.mem_append.mp hx with hx | hx
      · exact h.returning l hx y hy
      · obtain rfl := List.mem_singleton.mp hx
        cases b with
        | false => cases hy
        | true => exact h.causes (by rw [hl]; rfl) y hy
  have hback : sendsBack s.cpu = none := by
    unfold sendsBack
    split
    · next time b hl =>
      refine Option.map_eq_none_iff.mpr (Option.eq_none_iff_forall_ne_some.mpr fun pcb hpcb => ?_)
      exact hsend ⟨time, b, pcb, hl, hpcb⟩
    · rfl
  have htoken := h.token.main hm
  have hgo := h.mainGoesOn hm hback
  rw [hback, Option.toList_none, List.append_nil]
  cases hm with
  | sendPcb hl hpcb => exact absurd ⟨_, _, _, hl, hpcb⟩ hsend
  | sendNothing hl hpcb => exact absurd hpcb (h.token.loaded (by rw [hl]; rfl))
  | interrupted hl hint =>
    -- what the flag stands for waits
    have hw : noteMain s.cpu w = { w with causes := w.flag } := by simp [noteMain, hl, hint]
    rw [hw]
    refine ⟨htoken, ?_, h.lengths, fun _ => hcond hl hint, h.returning, h.due, h.available⟩
    simpa [running, hl, sent] using h.custody
  | uninterrupted hl hint =>
    have hw : noteMain s.cpu w = w := by simp [noteMain, hl, hint]
    rw [hw]
    exact hgo fun hp => absurd hp Bool.false_ne_true
  | clearInterruption hl =>
    have hw : noteMain s.cpu w = { w with flag := [] } := by simp [noteMain, hl]
    have hgo := hgo fun hp => absurd hp Bool.false_ne_true
    rw [hw]
    exact ⟨hgo.token, hgo.custody, hgo.lengths, hgo.causes, hgo.returning, hgo.due, hgo.available⟩
  | setReady hl =>
    rw [noteMain, hl]
    exact hgo fun _ => by rw [hl]; rfl
  | @resetTlb time b hl =>
    rw [noteMain, hl]
    refine hgo fun hp => ?_
    rw [hl]
    cases b <;> exact hp
  | noPcb hl =>
    have hw : noteMain s.cpu w = w := by rcases hl with hl | hl <;> simp [noteMain, hl]
    rw [hw]
    exact hgo fun hp => absurd hp Bool.false_ne_true
  | fetch hl hpcb hmain =>
    rw [noteMain, hl]
    rcases hmain with rfl | ⟨i, rfl | rfl⟩ <;> exact hgo fun hp => absurd hp Bool.false_ne_true
  | @signalCpuInUse b hl =>
    rw [noteMain, hl]
    cases b <;> exact hgo fun hp => absurd hp Bool.false_ne_true
  | waitPcbReceived hl | testNull hl | testPcb hl | fetchOperands hl | executeNothing hl
  | executeAccess hl | executeIo hl | executeExit hl | resetTlbSent hl | clearPcb hl =>
    rw [noteMain, hl]
    exact hgo fun hp => absurd hp Bool.false_ne_true

lemma Tracked.step {e : Event} (h : Tracked s w) (hcond : InTime s w e)
    (hs : Preemption.step c t pageSize s e = some s') : Tracked s' (note s e w) := by
  cases e with
  | kernel e =>
    cases e with
    | sts o => exact h.sts hcond hs
    | lts memory =>
      obtain ⟨k', hk, rfl⟩ := Option.map_eq_some_iff.mp hs
      obtain ⟨hkeeps, hsts⟩ := keeps_of_step (e := .lts memory) hk (by simp)
      exact h.elsewhere hkeeps hsts _ _
    | io =>
      obtain ⟨k', hk, rfl⟩ := Option.map_eq_some_iff.mp hs
      obtain ⟨hkeeps, hsts⟩ := keeps_of_step (e := .io) hk (by simp)
      exact h.elsewhere hkeeps hsts _ _
    | connect | message i m | console i addr | mts i | scribble a pcb =>
      simp only [Preemption.step, kernelStep] at hs
      obtain ⟨k', hk, rfl⟩ := Option.map_eq_some_iff.mp hs
      obtain ⟨hkeeps, hsts⟩ := keeps_of_step hk (by simp)
      exact h.elsewhere hkeeps hsts _ _
  | dispatch =>
    simp only [Preemption.step] at hs
    split at hs
    · cases hs
    next pcb dispatch hd =>
    obtain ⟨cpu', hk, rfl⟩ := Option.map_eq_some_iff.mp hs
    exact h.dispatched hd hk
  | interrupt =>
    simp only [Preemption.step] at hs
    split at hs
    · cases hs
    obtain ⟨cpu', hk, rfl⟩ := Option.map_eq_some_iff.mp hs
    exact h.interrupted hk
  | handler i =>
    obtain ⟨cpu', hk, rfl⟩ := Option.map_eq_some_iff.mp hs
    by_cases hi : i = 1
    · subst hi
      exact (h.handler hk).noteHandler s.cpu
    · have hw : note s (.handler i) w = w := by
        unfold note
        split <;> simp_all
      rw [hw]
      exact h.handler hk
  | main o =>
    obtain ⟨cpu', hk, rfl⟩ := Option.map_eq_some_iff.mp hs
    exact h.main (mainMove hk) hcond

/-! ### The result -/

/-- **Main result.** In every run of the kernel and the CPU in which pushes and interruptions are
in time, whatever a block was preempted for is in READY at the next selection. -/
theorem available_of_inTime (c : Cfg) (t : TlbCfg) (pageSize : ℕ) (heap : Heap) (es : List Event)
    (s : Sys) (w : Trail)
    (hrun : run (stepT c t pageSize) (initSys c t heap, noTrail) es = some (s, w))
    (hcond : Meets (stepT c t pageSize) (fun x e => InTime x.1 x.2 e)
      (initSys c t heap, noTrail) es) : Available w := by
  refine (hcond.inv (I := fun x => Tracked x.1 x.2) (fun x e x' hx hc hs => ?_)
    (tracked_init heap) hrun).available
  obtain ⟨hs, hw⟩ := watched_eq_some.mp hs
  exact hw ▸ hx.step hc hs

/-! ### Two runs -/

def halfCfg : Cfg :=
  { srtCfg with nextEstimation := fun real estimation => (real + estimation) / 2 }

def kernelSteps (es : List Threads.Event) : List Event := es.map .kernel

/-- The first process has one I/O instruction. -/
def spawnIo : List Threads.Event :=
  [.connect, .message 0 (.newProcess 16), .console 0 1, .console 0 1,
    .message 0 (.cmd [⟨.io, 7, 0⟩]), .console 0 1, .console 0 1, .console 0 1, .console 0 1]

/-- What runs has run for 30, and comes back to `addr`. -/
def stsSteps (n : ℕ) (addr : Addr) : List Event :=
  List.replicate n (.kernel (.sts ⟨true, 30, addr, .ready, 0, [], 0⟩))

def mainSteps (n : ℕ) : List Event := List.replicate n (.main ⟨0, 0⟩)

def load : List Event := [.dispatch, .handler 0, .handler 0, .handler 0]

/-- The first process runs, does its I/O and runs again, with an estimation of 20. -/
def longProcess : List Event :=
  kernelSteps (spawnIo ++ ltsSteps 9) ++ stsSteps 5 2 ++ load ++ mainSteps 10 ++ stsSteps 11 2 ++
    kernelSteps (ioSteps 11) ++ stsSteps 5 3 ++ load ++ mainSteps 3

/-- A second process is admitted, up to where it is to be pushed to READY, and the first one is
preempted for it and comes back. -/
def preemption : List Event :=
  kernelSteps (spawn 1 4 ++ ltsSteps 8) ++ [.interrupt, .handler 1, .handler 1] ++ mainSteps 5 ++
    stsSteps 8 3

set_option maxRecDepth 40000 in
/-- The long-term scheduler pushes the second process before the next selection. -/
theorem available_of_inTime_pushed : ∃ s w,
    run (stepT halfCfg smallTlb 4) (initSys halfCfg smallTlb zeroHeap, noTrail)
        (longProcess ++ preemption ++ kernelSteps (ltsSteps 1) ++ stsSteps 2 3) = some (s, w) ∧
      w.selections.getLast? = some ([.block 4], [3, 4]) ∧ Available w := by
  refine ⟨_, _, rfl, by decide +kernel, ?_⟩
  exact available_of_inTime halfCfg smallTlb 4 zeroHeap
    (longProcess ++ preemption ++ kernelSteps (ltsSteps 1) ++ stsSteps 2 3) _ _ rfl
    (by decide +kernel)

set_option maxRecDepth 40000 in
/-- It does not, and the first process is selected again. -/
theorem not_available : ¬ ∀ (c : Cfg) (t : TlbCfg) (pageSize : ℕ) (heap : Heap) (es : List Event)
    (s : Sys) (w : Trail),
    run (stepT c t pageSize) (initSys c t heap, noTrail) es = some (s, w) → Available w := by
  intro hall
  have havailable := hall halfCfg smallTlb 4 zeroHeap (longProcess ++ preemption ++ stsSteps 2 3)
    _ _ rfl
  obtain ⟨a, ha, hb⟩ := havailable ([.block 4], [3]) (by decide +kernel) (.block 4) (by simp)
  obtain rfl : a = 3 := by simpa using ha
  cases hb

end Sski.System.Preemption
