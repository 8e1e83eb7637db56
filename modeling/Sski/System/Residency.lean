import Sski.Lib.Simulation
import Sski.Scheduling.Ledger
import Sski.System.World

/-!
The kernel and the memory module together, over the connection between them.

The long-term scheduler sends `MEMORY_INIT` and waits for the table, the short-term scheduler sends
`PROCESS_TERMINATED` and goes on, a tracker sends `SWAP_PCB` and goes on. The memory module reads
one request after the other. `World` takes for granted that the kernel asks for a table once for
each process, and gives back the one that it got; here the kernel is the one of `Threads`.
-/

namespace Sski.System.Residency

open Sski.Lib.Runs Sski.Lib.Simulation Sski.Lib.Counting Sski.Scheduling
open Sski.Scheduling.Scheduler Sski.Scheduling.Threads Sski.Scheduling.Moves
open Sski.Scheduling.History Sski.Scheduling.Places Sski.Scheduling.Conservation
open Sski.Scheduling.Suspension Sski.Scheduling.OnePlace Sski.Scheduling.Ledger
open Sski.Cpu.Tlb Sski.Cpu.Mmu Sski.Mem.MemoryModule Sski.Mem.OsMemory Sski.Mem.KernelController
open Sski.System.World

/-! ### The system -/

/-- What the kernel sends to the memory module. -/
inductive ToMemory where
  | memoryInit (pid pcbSize : UInt32)
  | swapPcb (pid : UInt32) (pcbStream : List UInt8)
  | processTerminated (pid pageTable : UInt32)
  deriving DecidableEq, Repr

structure Sys where
  kernel : Kernel
  bus : Bus
  /-- What was sent to the memory module and not read yet. -/
  requests : List ToMemory
  /-- The long-term scheduler has sent `MEMORY_INIT` and waits. -/
  asked : Bool
  /-- The table on its way to the long-term scheduler. -/
  reply : Option UInt32

/-- A thread takes a step; the long-term scheduler sends `MEMORY_INIT`, or receives the table; the
memory module reads the next request; the process on the CPU reads or writes a word. -/
inductive Event where
  | kernel (e : Threads.Event)
  | ask
  | answer
  | serve (os : Os)
  | read (logicalAddress : UInt32) (os os' : Os)
  | write (logicalAddress value : UInt32) (os os' : Os)

variable (c : Scheduler.Cfg) (m : Mem.MemoryModule.Cfg) (t : TlbCfg)
variable (pcbToStream : Pcb → List UInt8)

def initSys (heap : Heap) (blocks : ℕ → UInt8) : Sys :=
  ⟨initKernel c heap, ⟨onInitMemory m blocks, tlbInit t⟩, [], false, none⟩

/-- What the CPU tells the memory module about a block. -/
def processOf (pcb : Pcb) : Process := ⟨pcb.id, pcb.pageTable.toNat⟩

def swaps (t : Tracker) : Option Addr :=
  match t.pc with
  | .sendSwap => some t.target
  | _ => none

/-- The block whose contents a step sends to the swap file. -/
def swappedBy (k : Kernel) : Threads.Event → Option Addr
  | .mts i => k.trackers[i]?.bind swaps
  | _ => none

def sends (k : Kernel) (e : Threads.Event) : List ToMemory :=
  (reportedBy k e).toList.map
      (fun a => .processTerminated (k.heap a).id (k.heap a).pageTable) ++
    (swappedBy k e).toList.map fun a => .swapPcb (k.heap a).id (pcbToStream (k.heap a))

def waits (k : Kernel) : Threads.Event → Bool
  | .lts _ =>
    match k.lts with
    | .requestPageTable _ => true
    | _ => false
  | _ => false

/-- The CPU empties its TLB when it gives a block back. -/
def busAfter (s : Sys) : Threads.Event → Bus
  | .sts _ =>
    if s.kernel.sts = .receivePcb then { s.bus with tlb := tlbReset t s.bus.tlb } else s.bus
  | _ => s.bus

def step (s : Sys) : Event → Option Sys
  | .kernel e =>
    if waits s.kernel e then none
    else (Threads.step c s.kernel e).map fun kernel => { s with
      kernel
      bus := busAfter t s e
      requests := s.requests ++ sends pcbToStream s.kernel e }
  | .ask =>
    match s.kernel.lts, s.asked with
    | .requestPageTable (some a), false => some { s with
        asked := true
        requests := s.requests ++ [.memoryInit (s.kernel.heap a).id (s.kernel.heap a).size] }
    | _, _ => none
  | .answer =>
    match s.kernel.lts, s.reply with
    | .requestPageTable (some _), some pageTable =>
      (ltsStep c s.kernel (some (some pageTable))).map fun kernel =>
        { s with kernel, asked := false, reply := none }
    | _, _ => none
  | .serve os =>
    match s.requests with
    | [] => none
    | .memoryInit pid pcbSize :: requests => do
      let (memory, pageTable) ←
        kernelControllerMemoryInit m s.bus.memory pid.toNat pcbSize.toNat os
      return { s with
        bus := { s.bus with memory }, requests, reply := some (UInt32.ofNat pageTable) }
    | .swapPcb pid pcbStream :: requests => some { s with
        bus := { s.bus with memory := swapPcb s.bus.memory pid.toNat pcbStream os }, requests }
    | .processTerminated pid pageTable :: requests => do
      let memory ←
        kernelControllerDestroyProcessFile m s.bus.memory pid.toNat pageTable.toNat
      return { s with bus := { s.bus with memory }, requests }
  | .read logicalAddress os os' => do
    let pcb ← s.kernel.cpu
    let (bus, _) ← executeRead m t s.bus (processOf pcb) logicalAddress.toNat os os'
    return { s with bus }
  | .write logicalAddress value os os' => do
    let pcb ← s.kernel.cpu
    let bus ← executeWrite m t s.bus (processOf pcb) logicalAddress.toNat value.toNat os os'
    return { s with bus }

def note (s : Sys) : Event → History → History
  | .kernel e, h => History.note s.kernel e h
  | _, h => h

abbrev stepN := watched (step c m t pcbToStream) note

/-- Trackers and the I/O thread do not get in each other's way. -/
def Timely (s : Sys × History) : Event → Prop
  | .kernel e => Suspension.Timely s.1.kernel e
  | _ => True

instance (s : Sys × History) : (e : Event) → Decidable (Timely s e)
  | .kernel e => inferInstanceAs (Decidable (Suspension.Timely s.1.kernel e))
  | .ask | .answer | .serve .. | .read .. | .write .. => .isTrue trivial

/-! ### What the memory module and the CPU see -/

/-- A step of the short-term scheduler that the CPU notices: it is given a block, or gives it
back. -/
def seenByCpu (k : Kernel) : Threads.Event → Option World.Event
  | .sts o =>
    match k.sts with
    | .sendPcb a => if o.sent then some (.dispatch (k.heap a).id) else none
    | .receivePcb => some .returnPcb
    | _ => none
  | _ => none

/-- The event of `World` that an event is, if it is one. -/
def seen (st : Sys × History) : Event → Option World.Event
  | .kernel e => seenByCpu st.1.kernel e
  | .ask | .answer => none
  | .serve os =>
    match st.1.requests with
    | [] => none
    | .memoryInit pid pcbSize :: _ => some (.memoryInit pid pcbSize os)
    | .swapPcb pid pcbStream :: _ => some (.swapPcb pid pcbStream os)
    | .processTerminated pid _ :: _ => some (.processTerminated pid)
  | .read logicalAddress os os' => some (.read logicalAddress os os')
  | .write logicalAddress value os os' => some (.write logicalAddress value os os')

/-! ### What the memory module and the kernel agree on -/

def endsProcess (p : UInt32) : ToMemory → Bool
  | .processTerminated pid _ => pid == p
  | _ => false

def asksTable : ToMemory → Bool
  | .memoryInit .. => true
  | _ => false

/-- How many ends of the process the memory module has still to read. -/
def ended (s : Sys) (p : UInt32) : ℕ := s.requests.countP (endsProcess p)

/-- How often the memory module knows the process. -/
def known (ps : List Process) (p : UInt32) : ℕ := ps.countP fun q => q.pid == p

def onCpu : Sts → Bool
  | .destroySent _ | .receivePcb => true
  | _ => false

/-- The kernel, what is on the way between the two, and the processes that the memory module
knows. -/
structure Books (s : Sys) (h : History) (ps : List Process) : Prop where
  placed : Placed s.kernel h
  ledger : Ledger s.kernel h s.reply.isSome (known ps) (ended s)
  tabled : Tabled s.kernel fun p pageTable => ⟨p, pageTable⟩ ∈ ps
  ends : ∀ p pageTable, .processTerminated p pageTable ∈ s.requests → ⟨p, pageTable.toNat⟩ ∈ ps
  asked : s.asked = true → ∃ a, asksFor s.kernel.lts = some a
  asks : s.requests.countP asksTable + s.reply.isSome.toNat ≤ s.asked.toNat
  inits : ∀ p pcbSize, .memoryInit p pcbSize ∈ s.requests →
    ∀ a, asksFor s.kernel.lts = some a → p = (s.kernel.heap a).id
  replies : ∀ pageTable ∈ s.reply, ∀ a, asksFor s.kernel.lts = some a →
    ⟨(s.kernel.heap a).id, pageTable.toNat⟩ ∈ ps

def Owned (w : Machine) : Prop :=
  ∀ i rows, w.bus.memory.table1 i = some rows → ∃ p ∈ w.processes, p.pageTable = i

/-- The system, and the machine of `World` that does what it does. -/
structure Agree (s : Sys) (h : History) (w : Machine) : Prop where
  books : Books s h w.processes
  world : World.Inv m t w
  owned : Owned w
  bus : w.bus = s.bus
  executing : w.executing = s.kernel.cpu.map processOf
  sts : s.kernel.cpu.isSome = true → onCpu s.kernel.sts = true

variable {c m t pcbToStream} {s s' : Sys} {h h' : History} {w w' : Machine} {ps : List Process}

lemma agree_init (heap : Heap) (blocks : ℕ → UInt8) :
    Agree m t (initSys c m t heap blocks) noHistory (World.init m t blocks) where
  books :=
    { placed := placed_init heap
      ledger := ledger_init heap
      tabled := fun a _ _ pageTable hmem => by cases hmem
      ends := fun p pageTable hmem => by cases hmem
      asked := fun hasked => by cases hasked
      asks := Nat.le_refl _
      inits := fun p pcbSize hmem => by cases hmem
      replies := fun pageTable hreply => by cases hreply }
  world := inv_init blocks
  owned := fun i rows ht => by
    simp [World.init, onInitMemory, Memory.table1, Lib.Slots.slotGet] at ht
  bus := rfl
  executing := rfl
  sts := fun hcpu => by cases hcpu

/-! ### What follows from it -/

lemma exists_of_known {p : UInt32} (hp : 0 < known ps p) : ∃ pageTable, ⟨p, pageTable⟩ ∈ ps := by
  obtain ⟨⟨pid, pageTable⟩, hmem, hpid⟩ := List.countP_pos_iff.mp hp
  obtain rfl : pid = p := by simpa using hpid
  exact ⟨pageTable, hmem⟩

lemma not_mem_of_unknown {p : UInt32} (hp : known ps p = 0) (pageTable : ℕ) :
    (⟨p, pageTable⟩ : Process) ∉ ps := by
  intro hmem
  simpa using List.countP_eq_zero.mp hp _ hmem

lemma table_eq (hw : World.Inv m t w) {p : UInt32} {i j : ℕ} (hi : ⟨p, i⟩ ∈ w.processes)
    (hj : ⟨p, j⟩ ∈ w.processes) : i = j :=
  congrArg Process.pageTable (hw.distinct _ hi _ hj (.inl rfl))

lemma pcbOf_eq (hw : World.Inv m t w) {p : Process} (hp : p ∈ w.processes) :
    pcbOf w p.pid = some p := by
  cases hfind : pcbOf w p.pid with
  | none => exact absurd rfl (pcbOf_eq_none hfind p hp)
  | some q =>
    obtain ⟨hq, hpid⟩ := pcbOf_eq_some hfind
    rw [hw.distinct q hq p hp (.inl hpid)]

lemma pcbOf_of_unknown {p : UInt32} (hp : known w.processes p = 0) : pcbOf w p = none :=
  List.find?_eq_none.mpr (List.countP_eq_zero.mp hp)

/-- What the memory module is told of a block is what it knows, from the answer to `MEMORY_INIT` to
the report of the end. -/
lemma Books.process_mem (hb : Books s h ps) {x : Place} {a : Addr}
    (hmem : a ∈ blocksAt s.kernel x) (hx : x ≠ .new) (hasks : asksFor s.kernel.lts ≠ some a)
    (hreported : reported s.kernel.sts ≠ some a) : processOf (s.kernel.heap a) ∈ ps := by
  obtain ⟨hknown, -⟩ := hb.ledger.known_of_tabled hb.placed.conserved hmem hx hasks hreported
  obtain ⟨pageTable, hp⟩ : ∃ pageTable, ⟨(s.kernel.heap a).id, pageTable⟩ ∈ ps :=
    exists_of_known (by omega)
  have htable := hb.tabled a (Conserved.mem_admitted hmem) hasks pageTable hp
  unfold processOf
  rwa [← htable]

/-- The same for what the short-term scheduler holds. -/
lemma Books.sts_mem (hb : Books s h ps) {a : Addr} (ha : stsHolds s.kernel.sts = some a)
    (hreported : reported s.kernel.sts = none) : processOf (s.kernel.heap a) ∈ ps := by
  have hmem : a ∈ blocksAt s.kernel .execution := Conservation.sts_mem ha
  refine hb.process_mem hmem (by decide) (fun hasks => ?_) (by rw [hreported]; simp)
  exact hb.placed.conserved.ne_of_apart (by decide) (asksFor_mem hasks) hmem rfl

/-- The end of the process on the CPU was not reported. -/
lemma Books.unended_of_cpu (hb : Books s h ps) {pcb : Pcb} (hcpu : s.kernel.cpu = some pcb)
    (hsts : onCpu s.kernel.sts = true) : ended s pcb.id = 0 := by
  have hk := hb.placed.conserved
  unfold onCpu at hsts
  split at hsts
  next a hpc =>
    have hid := hk.sent a hpc
    rw [hcpu, Option.map_some, Option.some.injEq] at hid
    have hmem : a ∈ blocksAt s.kernel .execution := Conservation.sts_mem (by rw [hpc]; rfl)
    rw [hid]
    refine (hb.ledger.known_of_tabled hk hmem (by decide) (fun hasks => ?_) ?_).2
    · exact hk.ne_of_apart (by decide) (asksFor_mem hasks) hmem rfl
    · rw [hpc]
      simp [reported]
  next hpc =>
    refine hb.ledger.unended_of_away hk ?_
    simp [away, hpc, hcpu]
  · cases hsts

lemma Agree.cpu_mem (ha : Agree m t s h w) {pcb : Pcb} (hcpu : s.kernel.cpu = some pcb) :
    processOf pcb ∈ w.processes :=
  ha.world.executing _ (by rw [ha.executing, hcpu]; rfl)

/-! ### A thread takes a step -/

lemma step_kernel {e : Threads.Event} (hstep : step c m t pcbToStream s (.kernel e) = some s') :
    Unasked s.kernel e ∧ Threads.step c s.kernel e = some s'.kernel ∧
      s' = { s with
        kernel := s'.kernel
        bus := busAfter t s e
        requests := s.requests ++ sends pcbToStream s.kernel e } := by
  simp only [step] at hstep
  split at hstep
  · cases hstep
  next hwaits =>
  obtain ⟨kernel, hkernel, rfl⟩ := Option.map_eq_some_iff.mp hstep
  refine ⟨?_, hkernel, rfl⟩
  rintro memory rfl pcb hlts
  simp [waits, hlts] at hwaits

/-- The tables that are asked for, and the blocks that are swapped, end no process. -/
lemma ended_sends (p : UInt32) (k : Kernel) (e : Threads.Event) :
    (sends pcbToStream k e).countP (endsProcess p) = held k.heap p (reportedBy k e) := by
  unfold sends
  rw [List.countP_append]
  have hswaps : ((swappedBy k e).toList.map fun a =>
      ToMemory.swapPcb (k.heap a).id (pcbToStream (k.heap a))).countP (endsProcess p) = 0 :=
    List.countP_eq_zero.mpr fun x hx => by
      obtain ⟨a, -, rfl⟩ := List.mem_map.mp hx
      simp [endsProcess]
  rw [hswaps]
  cases reportedBy k e with
  | none => rfl
  | some a =>
    simp only [Option.toList_some, List.map_cons, List.map_nil, countP_cons_toNat, List.countP_nil,
      held_some]
    rw [endsProcess, hasId]
    omega

lemma sends_cases {k : Kernel} {e : Threads.Event} {r : ToMemory}
    (hr : r ∈ sends pcbToStream k e) :
    (∃ a, reportedBy k e = some a ∧ r = .processTerminated (k.heap a).id (k.heap a).pageTable) ∨
      ∃ pid stream, r = .swapPcb pid stream := by
  rcases List.mem_append.mp hr with hr | hr
  · obtain ⟨a, ha, rfl⟩ := List.mem_map.mp hr
    exact .inl ⟨a, by simpa using ha, rfl⟩
  · obtain ⟨a, -, rfl⟩ := List.mem_map.mp hr
    exact .inr ⟨_, _, rfl⟩

lemma Books.kernel (hb : Books s h ps) {e : Threads.Event}
    (htimely : Suspension.Timely s.kernel e)
    (hstep : step c m t pcbToStream s (.kernel e) = some s')
    (hcpu : ∀ pcb ∈ s.kernel.cpu, ∀ i, ⟨pcb.id, i⟩ ∈ ps → i = pcb.pageTable.toNat) :
    Books s' (History.note s.kernel e h) ps := by
  obtain ⟨hnot, hkernel, hs'⟩ := step_kernel hstep
  have hstepH : stepH c (s.kernel, h) e = some (s'.kernel, History.note s.kernel e h) :=
    stepH_eq_some.mpr ⟨hkernel, rfl⟩
  have hm := moveH hstepH
  obtain ⟨hrequests, hasked, hreply⟩ : s'.requests = s.requests ++ sends pcbToStream s.kernel e ∧
      s'.asked = s.asked ∧ s'.reply = s.reply := by
    rw [hs']
    exact ⟨rfl, rfl, rfl⟩
  -- who waits for a table keeps its block
  have hwaits : s.asked = true → s'.kernel.lts = s.kernel.lts ∧
      ∀ a, asksFor s.kernel.lts = some a → (s'.kernel.heap a).id = (s.kernel.heap a).id := by
    intro hask
    obtain ⟨a, ha⟩ := hb.asked hask
    refine ⟨lts_of_asks hm hnot ha, fun b hbask => id_kept hm ?_⟩
    exact hb.placed.conserved.used b (.inr (Conserved.mem_admitted (asksFor_mem hbask)))
  have hreplied : s.reply.isSome = true → s.asked = true := fun hrep => by
    have hasks := hb.asks
    by_contra hnot
    simp only [hrep, Bool.not_eq_true] at hnot hasks
    rw [hnot] at hasks
    simp at hasks
  have hplaced := hb.placed.step htimely hm
  refine ⟨hplaced, ?ledger, ?tabled, ?ends, ?asked, ?asks, ?inits, ?replies⟩
  case ledger =>
    have hended : ended s' = fun p => ended s p + held s.kernel.heap p (reportedBy s.kernel e) := by
      ext1 p
      unfold ended
      rw [hrequests, List.countP_append, ended_sends]
    rw [hreply, hended]
    refine hb.ledger.step hb.placed hstepH fun memory he => ⟨?_, hnot memory he⟩
    by_contra hrep
    obtain ⟨a, ha⟩ := hb.asked (hreplied (Bool.not_eq_false _ ▸ hrep))
    exact hnot memory he (some a) (asksFor_eq ha)
  case tabled =>
    refine hb.tabled.step hb.placed hstepH hnot (fun a ha i => ?_) hcpu
    exact not_mem_of_unknown (hb.ledger.unknown_of_created hb.placed.conserved ha) i
  case ends =>
    intro p pageTable hmem
    rw [hrequests] at hmem
    rcases List.mem_append.mp hmem with hmem | hmem
    · exact hb.ends p pageTable hmem
    · rcases sends_cases hmem with ⟨a, ha, heq⟩ | ⟨pid, stream, heq⟩
      · cases heq
        obtain ⟨sent, hexit⟩ : ∃ sent, s.kernel.sts = .exitProcess a sent := by
          cases e with
          | sts o => exact reports_eq ha
          | _ => cases ha
        exact hb.sts_mem (by rw [hexit]; rfl) (by rw [hexit]; rfl)
      · cases heq
  case asked =>
    intro hask
    rw [hasked] at hask
    obtain ⟨a, ha⟩ := hb.asked hask
    exact ⟨a, by rw [(hwaits hask).1, ha]⟩
  case asks =>
    have hnone : (sends pcbToStream s.kernel e).countP asksTable = 0 :=
      List.countP_eq_zero.mpr fun r hr => by
        rcases sends_cases hr with ⟨a, -, rfl⟩ | ⟨pid, stream, rfl⟩ <;> simp [asksTable]
    rw [hrequests, List.countP_append, hnone, hasked, hreply]
    exact hb.asks
  case inits =>
    intro p pcbSize hmem a ha
    rw [hrequests] at hmem
    rcases List.mem_append.mp hmem with hmem | hmem
    · have hpos : 0 < s.requests.countP asksTable := List.countP_pos_iff.mpr ⟨_, hmem, rfl⟩
      have hask : s.asked = true := by
        have hasks := hb.asks
        by_contra hnot
        rw [Bool.not_eq_true] at hnot
        rw [hnot, Bool.toNat_false] at hasks
        omega
      obtain ⟨hlts, hids⟩ := hwaits hask
      rw [hlts] at ha
      rw [hids a ha]
      exact hb.inits p pcbSize hmem a ha
    · rcases sends_cases hmem with ⟨b, -, heq⟩ | ⟨pid, stream, heq⟩ <;> cases heq
  case replies =>
    intro pageTable hrep a ha
    rw [hreply] at hrep
    obtain ⟨hlts, hids⟩ := hwaits (hreplied (by rw [hrep]; rfl))
    rw [hlts] at ha
    rw [hids a ha]
    exact hb.replies pageTable hrep a ha

/-! ### What the machine does -/

lemma owned_of_tables (ho : Owned w) (hp : w'.processes = w.processes)
    (ht : w'.bus.memory.tablesLvl1 = w.bus.memory.tablesLvl1) : Owned w' := by
  intro i rows hi
  rw [hp]
  exact ho i rows (by rw [← hi, Memory.table1, Memory.table1, ht])

lemma Owned.step (ho : Owned w) (hi : World.Inv m t w) {e : World.Event}
    (h : World.step m t w e = some w') : Owned w' := by
  cases e with
  | memoryInit pid pcbSize os =>
    simp only [World.step] at h
    split at h
    · cases h
    simp only [Option.bind_eq_bind, Option.bind_eq_some_iff, Option.pure_def,
      Option.some.injEq] at h
    obtain ⟨⟨memory, id⟩, hinit, rfl⟩ := h
    obtain ⟨file, hc⟩ := Mem.Frames.kernelControllerMemoryInit_steps hi.mapped.forest hinit
    intro i rows ht
    have ht' := hc.table1 i
    by_cases heq : i = id
    · exact ⟨⟨pid, id⟩, List.mem_cons_self, heq.symm⟩
    · rw [if_neg heq] at ht'
      obtain ⟨p, hp, hpt⟩ := ho i rows (ht'.symm.trans ht)
      exact ⟨p, List.mem_cons_of_mem _ hp, hpt⟩
  | swapPcb pid pcbStream os =>
    obtain ⟨files, hfiles⟩ := swapPcb_eq w.bus.memory pid.toNat pcbStream os
    rw [World.step, hfiles, Option.some.injEq] at h
    subst h
    exact owned_of_tables ho rfl rfl
  | processTerminated pid =>
    simp only [World.step, Option.bind_eq_bind, Option.bind_eq_some_iff] at h
    obtain ⟨p, hp, h⟩ := h
    split at h
    · simp at h
    simp only [Option.bind_eq_some_iff, Option.pure_def, Option.some.injEq] at h
    obtain ⟨memory, hend, rfl⟩ := h
    obtain ⟨hmem, -⟩ := pcbOf_eq_some hp
    obtain ⟨rows₀, ht₀⟩ := hi.live p hmem
    obtain ⟨m₁, h₁, rfl⟩ := Mem.Frames.kernelControllerDestroyProcessFile_steps hend
    intro i rows ht
    rcases Mem.Tables.deleteProcess_spec hi.mapped.forest h₁ with ⟨hnone, -⟩ | ⟨rows₁, -, hd⟩
    · rw [ht₀] at hnone
      cases hnone
    · have ht' := hd.table1 i
      have heq : i ≠ p.pageTable := fun heq => by
        rw [if_pos heq] at ht'
        cases ht'.symm.trans ht
      rw [if_neg heq] at ht'
      obtain ⟨q, hq, hqt⟩ := ho i rows (ht'.symm.trans ht)
      refine ⟨q, List.mem_filter.mpr ⟨hq, ?_⟩, hqt⟩
      simp only [decide_eq_true_eq]
      rintro rfl
      exact heq hqt.symm
  | dispatch pid =>
    simp only [World.step, Option.bind_eq_bind, Option.bind_eq_some_iff] at h
    obtain ⟨p, hp, h⟩ := h
    split at h
    · simp at h
    obtain rfl := Option.some.inj h
    exact ho
  | returnPcb =>
    simp only [World.step, Option.bind_eq_bind, Option.bind_eq_some_iff, Option.pure_def,
      Option.some.injEq] at h
    obtain ⟨p, hp, rfl⟩ := h
    exact ho
  | read a os os' | write a value os os' =>
    obtain ⟨p, b, ba, bo, b₁, pa, hp, -, hreq, hw', -, hsame⟩ := step_access rfl h
    obtain ⟨-, -, -, htables⟩ := reqPhysicalAddress_keeps hi.mapped hi.hands hi.fresh hreq
    exact owned_of_tables ho (by rw [hw']) (hsame.tables1.trans htables)

/-! ### Every step -/

lemma cpu_cases {k k' : Kernel} {e : Threads.Event} (hk : Threads.step c k e = some k') :
    (∃ a, seenByCpu k e = some (.dispatch (k.heap a).id) ∧ (∃ o, e = .sts o) ∧
      k.sts = .sendPcb a ∧ k'.cpu = some (k.heap a) ∧ k'.sts = .destroySent a) ∨
    (∃ pcb, seenByCpu k e = some .returnPcb ∧ (∃ o, e = .sts o) ∧ k.sts = .receivePcb ∧
      k.cpu = some pcb ∧ k'.cpu = none) ∨
    (seenByCpu k e = none ∧ k'.cpu = k.cpu ∧ (onCpu k.sts = true → onCpu k'.sts = true) ∧
      ∀ o, e = .sts o → k.sts ≠ .receivePcb) := by
  cases e with
  | sts o =>
    have hstep : stsStep c k o = some k' := hk
    cases stsMove hk with
    | sendPcb hpc =>
      have hsent : o.sent = true := by
        by_contra hsent
        rw [stsStep, hpc] at hstep
        simp [hsent] at hstep
      exact .inl ⟨_, by simp [seenByCpu, hpc, hsent], ⟨o, rfl⟩, hpc, rfl, rfl⟩
    | receivePcb hpc hcpu huse =>
      exact .inr (.inl ⟨_, by simp [seenByCpu, hpc], ⟨o, rfl⟩, hpc, hcpu, rfl⟩)
    | sendPcbFailed hpc =>
      have hsent : o.sent = false := by
        by_contra hsent
        rw [stsStep, hpc] at hstep
        simp [hsent] at hstep
      exact .inr (.inr ⟨by simp [seenByCpu, hpc, hsent], rfl, by simp [hpc, onCpu], by simp [hpc]⟩)
    | waitExecute hpc | sortReady hpc | popReady hpc | popReadyNone hpc | setExecuting hpc
    | setCurrentEstimation hpc | destroySent hpc | setReal hpc
    | clearCurrentEstimation hpc | switchBlocked hpc | switchReady hpc | switchExit hpc
    | setIo hpc | reSchedule hpc | pushBlocked hpc | notifyMts hpc | signalIoRequest hpc
    | exitProcess hpc | destroyPcb hpc | signalDom hpc | preEmpt hpc | pushReady hpc
    | signalExecute hpc =>
      exact .inr (.inr ⟨by simp [seenByCpu, hpc], rfl, by simp [hpc, onCpu], by simp [hpc]⟩)
  | connect =>
    cases hk
    exact .inr (.inr ⟨rfl, rfl, id, fun o he => by cases he⟩)
  | message i msg =>
    obtain ⟨s, -, -, hm⟩ := routineMove (c := c) hk
    cases hm <;> exact .inr (.inr ⟨rfl, rfl, id, fun o he => by cases he⟩)
  | console i addr =>
    obtain ⟨s, -, hm⟩ := consoleMove hk
    cases hm <;> exact .inr (.inr ⟨rfl, rfl, id, fun o he => by cases he⟩)
  | lts memory => cases ltsMove hk <;> exact .inr (.inr ⟨rfl, rfl, id, fun o he => by cases he⟩)
  | io => cases ioMove hk <;> exact .inr (.inr ⟨rfl, rfl, id, fun o he => by cases he⟩)
  | mts i =>
    obtain ⟨tracker, -, hm⟩ := mtsMove hk
    cases hm <;> exact .inr (.inr ⟨rfl, rfl, id, fun o he => by cases he⟩)
  | scribble a pcb =>
    simp only [Threads.step] at hk
    split at hk
    · cases hk
    · cases hk
      exact .inr (.inr ⟨rfl, rfl, id, fun o he => by cases he⟩)

/-- The machine does what it sees. -/
def Follows (m : Mem.MemoryModule.Cfg) (t : TlbCfg) (w : Machine) (d : Option World.Event)
    (s' : Sys) (h' : History) : Prop :=
  ∃ w', run (World.step m t) w d.toList = some w' ∧ Agree m t s' h' w'

lemma Agree.machine (ha : Agree m t s h w) {seen : Option World.Event} {d : World.Event}
    (hseen : seen = some d) (hd : World.step m t w d = some w') (hb : Books s' h' w'.processes)
    (hbus : w'.bus = s'.bus) (hexec : w'.executing = s'.kernel.cpu.map processOf)
    (hcpu : s'.kernel.cpu.isSome = true → onCpu s'.kernel.sts = true) :
    Follows m t w seen s' h' :=
  lockstep hseen hd ⟨hb, ha.world.step hd, ha.owned.step ha.world hd, hbus, hexec, hcpu⟩

lemma Agree.kernel (ha : Agree m t s h w) {e : Threads.Event}
    (htimely : Suspension.Timely s.kernel e)
    (hstep : step c m t pcbToStream s (.kernel e) = some s') :
    Follows m t w (seenByCpu s.kernel e) s' (History.note s.kernel e h) := by
  obtain ⟨hnot, hkernel, hs'⟩ := step_kernel hstep
  have hbooks : Books s' (History.note s.kernel e h) w.processes :=
    ha.books.kernel htimely hstep fun pcb hpcb i hi => table_eq ha.world hi (ha.cpu_mem hpcb)
  have hbus : s'.bus = busAfter t s e := by rw [hs']
  rcases cpu_cases hkernel with ⟨a, hseen, ⟨o, rfl⟩, hpc, hcpu, hsts⟩ |
    ⟨pcb, hseen, ⟨o, rfl⟩, hpc, hold, hcpu⟩ | ⟨hseen, hcpu, hsts, hreceive⟩
  · -- the block is sent: a dispatch
    have hidle : w.executing = none := by
      rw [ha.executing, Option.map_eq_none_iff, ← Option.not_isSome_iff_eq_none]
      intro hsome
      have hon := ha.sts hsome
      rw [hpc] at hon
      cases hon
    have hmem := ha.books.sts_mem (a := a) (by rw [hpc]; rfl) (by rw [hpc]; rfl)
    have hd : World.step m t w (.dispatch (s.kernel.heap a).id) =
        some { w with executing := some (processOf (s.kernel.heap a)) } := by
      have hpcb := pcbOf_eq ha.world hmem
      simp only [World.step, Option.bind_eq_bind]
      rw [show (processOf (s.kernel.heap a)).pid = (s.kernel.heap a).id from rfl] at hpcb
      rw [hpcb, hidle]
      rfl
    refine ha.machine hseen hd hbooks ?_ (by rw [hcpu]; rfl) fun _ => by rw [hsts]; rfl
    rw [hbus, busAfter, if_neg (by rw [hpc]; simp)]
    exact ha.bus
  · -- the process comes back: the TLB is emptied
    have hd : World.step m t w .returnPcb =
        some { w with bus := { w.bus with tlb := tlbReset t w.bus.tlb }, executing := none } := by
      simp only [World.step, Option.bind_eq_bind]
      rw [ha.executing, hold]
      rfl
    refine ha.machine hseen hd hbooks ?_ (by rw [hcpu]; rfl) fun hsome => ?_
    · rw [hbus, busAfter, if_pos hpc, ha.bus]
    · rw [hcpu] at hsome
      cases hsome
  · -- nothing the memory module or the CPU sees
    refine stutter hseen
      ⟨hbooks, ha.world, ha.owned, ?_, by rw [hcpu]; exact ha.executing, ?_⟩
    · rw [hbus, ha.bus]
      cases e with
      | sts o => rw [busAfter, if_neg (hreceive o rfl)]
      | _ => rfl
    · rw [hcpu]
      exact fun hsome => hsts (ha.sts hsome)

/-- The long-term scheduler asks for a table: the request is the only one of its kind. -/
lemma Books.ask (hb : Books s h ps) {a : Addr} (ha : asksFor s.kernel.lts = some a)
    (hasked : s.asked = false) :
    Books { s with
      asked := true
      requests := s.requests ++ [.memoryInit (s.kernel.heap a).id (s.kernel.heap a).size] }
      h ps := by
  have hasks := hb.asks
  rw [hasked, Bool.toNat_false] at hasks
  refine ⟨hb.placed, ?ledger, hb.tabled, ?ends, fun _ => ⟨a, ha⟩, ?asks, ?inits, hb.replies⟩
  case ledger =>
    have hended : ended { s with
        asked := true
        requests := s.requests ++ [.memoryInit (s.kernel.heap a).id (s.kernel.heap a).size] } =
        ended s := by
      ext1 p
      simp [ended, endsProcess]
    rw [hended]
    exact hb.ledger
  case ends =>
    intro p pageTable hmem
    rcases List.mem_append.mp hmem with hmem | hmem
    · exact hb.ends p pageTable hmem
    · cases List.mem_singleton.mp hmem
  case asks =>
    rw [List.countP_append, Bool.toNat_true]
    simp only [List.countP_singleton, asksTable, if_true]
    omega
  case inits =>
    intro p pcbSize hmem b hbask
    rcases List.mem_append.mp hmem with hmem | hmem
    · exact hb.inits p pcbSize hmem b hbask
    · obtain rfl : a = b := Option.some_injective _ (ha.symm.trans hbask)
      cases List.mem_singleton.mp hmem
      rfl

/-- The long-term scheduler receives the table that the memory module has made. -/
lemma Books.answer (hb : Books s h w.processes) (hw : World.Inv m t w) {k' : Kernel} {a : Addr}
    {pageTable : UInt32} (hpc : s.kernel.lts = .requestPageTable (some a))
    (hreply : s.reply = some pageTable)
    (hk : ltsStep c s.kernel (some (some pageTable)) = some k') :
    Books { s with kernel := k', asked := false, reply := none } h w.processes := by
  have hm := ltsMove hk
  obtain rfl : { s.kernel with
      heap := modify s.kernel.heap a fun pcb => { pcb with pageTable }
      lts := .setReady (some a) } = k' := by
    simpa [ltsStep, hpc] using hk
  have hask : asksFor s.kernel.lts = some a := by rw [hpc]; rfl
  have hnone : s.requests.countP asksTable = 0 := by
    have hasks := hb.asks
    have hle : s.asked.toNat ≤ 1 := Bool.toNat_le _
    rw [hreply, Option.isSome_some, Bool.toNat_true] at hasks
    omega
  have hplaced : Placed _ h := hb.placed.step (e := .lts none) trivial (.lts hm)
  refine ⟨hplaced, ?ledger, ?tabled, hb.ends, fun hf => ?asked, ?asks, ?inits, fun _ hrep => ?reply⟩
  case ledger =>
    have hledger := hb.ledger
    rw [hreply] at hledger
    exact hledger.answer hm hpc
  case tabled =>
    intro b hmem _ i htable
    have hold : b ∈ admitted s.kernel :=
      (mem_congr_of_countP (shuffled_lts hm).admitted b).mp hmem
    have hfield : ∀ pcb : Pcb, ({ pcb with pageTable } : Pcb).id = pcb.id := fun _ => rfl
    dsimp only at htable ⊢
    rw [modify_field Pcb.id hfield] at htable
    by_cases hne : b = a
    · subst hne
      rw [table_eq hw htable (hb.replies pageTable hreply b hask)]
      simp [Scheduler.modify]
    · rw [modify_of_ne _ hne]
      refine hb.tabled b hold (fun hb' => hne ?_) i htable
      exact Option.some_injective _ (hb'.symm.trans hask)
  case asked => cases hf
  case asks =>
    show s.requests.countP asksTable + 0 ≤ 0
    omega
  case inits =>
    intro p pcbSize hmem
    have hzero := List.countP_eq_zero.mp hnone _ hmem
    exact absurd rfl hzero
  case reply => cases hrep

lemma Books.memoryInit (hb : Books s h ps) {pid pcbSize : UInt32} {requests : List ToMemory}
    (hrequests : s.requests = .memoryInit pid pcbSize :: requests) (memory : Memory)
    {pageTable : ℕ} (hlt : pageTable < 2 ^ 32) :
    known ps pid = 0 ∧
      Books { s with
        bus := { s.bus with memory }
        requests
        reply := some (UInt32.ofNat pageTable) } h (⟨pid, pageTable⟩ :: ps) := by
  have hasks := hb.asks
  rw [hrequests, List.countP_cons_of_pos (by rfl)] at hasks
  have hle : s.asked.toNat ≤ 1 := Bool.toNat_le _
  have hasked : s.asked = true := by
    by_contra hnot
    rw [Bool.not_eq_true] at hnot
    rw [hnot, Bool.toNat_false] at hasks
    omega
  have hreply : s.reply.isSome = false := by
    by_contra hrep
    rw [Bool.not_eq_false] at hrep
    rw [hrep, Bool.toNat_true] at hasks
    omega
  obtain ⟨a, ha⟩ := hb.asked hasked
  obtain rfl : pid = (s.kernel.heap a).id :=
    hb.inits pid pcbSize (hrequests ▸ List.mem_cons_self) a ha
  have hledger := hb.ledger
  rw [hreply] at hledger
  have hunknown := hledger.unknown_of_asks hb.placed.conserved ha
  have hround : (UInt32.ofNat pageTable).toNat = pageTable := UInt32.toNat_ofNat_of_lt' hlt
  refine ⟨hunknown, hb.placed, ?ledger, ?tabled, ?ends, fun _ => ⟨a, ha⟩, ?asks, ?inits, ?replies⟩
  case ledger =>
    have hknown : known (⟨(s.kernel.heap a).id, pageTable⟩ :: ps) = fun p =>
        known ps p + if p = (s.kernel.heap a).id then 1 else 0 := by
      ext1 p
      simp only [known, List.countP_cons, beq_iff_eq]
      by_cases hp : p = (s.kernel.heap a).id
      · rw [if_pos hp, if_pos hp.symm]
      · rw [if_neg hp, if_neg (Ne.symm hp)]
    have hended : ended { s with
        bus := { s.bus with memory }
        requests
        reply := some (UInt32.ofNat pageTable) } = ended s := by
      ext1 p
      simp [ended, endsProcess, hrequests]
    rw [hknown, hended]
    exact hledger.reply ha
  case tabled =>
    intro b hmem hbask i htable
    rcases List.mem_cons.mp htable with heq | htable
    · have hid : (s.kernel.heap b).id = (s.kernel.heap a).id := congrArg Process.pid heq
      have hab := eq_of_admitted hb.placed.conserved hmem
        (Conserved.mem_admitted (asksFor_mem ha)) hid
      exact absurd (hab ▸ ha) hbask
    · exact hb.tabled b hmem hbask i htable
  case ends =>
    intro p i hmem
    exact List.mem_cons_of_mem _ (hb.ends p i (hrequests ▸ List.mem_cons_of_mem _ hmem))
  case asks =>
    show requests.countP asksTable + 1 ≤ s.asked.toNat
    omega
  case inits =>
    intro p size hmem
    exact hb.inits p size (hrequests ▸ List.mem_cons_of_mem _ hmem)
  case replies =>
    intro i hi b hbask
    obtain rfl : UInt32.ofNat pageTable = i := by simpa using hi
    obtain rfl : a = b := Option.some_injective _ (ha.symm.trans hbask)
    rw [hround]
    exact List.mem_cons_self

lemma Books.swapPcb (hb : Books s h ps) {pid : UInt32} {pcbStream : List UInt8}
    {requests : List ToMemory} (hrequests : s.requests = .swapPcb pid pcbStream :: requests)
    (memory : Memory) : Books { s with bus := { s.bus with memory }, requests } h ps := by
  have hmem : ∀ r ∈ requests, r ∈ s.requests := fun r hr => hrequests ▸ List.mem_cons_of_mem _ hr
  have hended : ended { s with bus := { s.bus with memory }, requests } = ended s := by
    ext1 p
    simp [ended, endsProcess, hrequests]
  have hasks := hb.asks
  rw [hrequests, List.countP_cons_of_neg (by simp [asksTable])] at hasks
  refine ⟨hb.placed, ?_, hb.tabled, fun p i hr => hb.ends p i (hmem _ hr), hb.asked, hasks,
    fun p size hr => hb.inits p size (hmem _ hr), hb.replies⟩
  rw [hended]
  exact hb.ledger

/-- The memory module reads `PROCESS_TERMINATED`: it forgets the process, which it knew. -/
lemma Books.processTerminated (hb : Books s h w.processes) (hw : World.Inv m t w)
    {pid pageTable : UInt32} {requests : List ToMemory}
    (hrequests : s.requests = .processTerminated pid pageTable :: requests) (memory : Memory) :
    ⟨pid, pageTable.toNat⟩ ∈ w.processes ∧
      Books { s with bus := { s.bus with memory }, requests } h
        (w.processes.filter (· ≠ ⟨pid, pageTable.toNat⟩)) := by
  have hmem : ∀ r ∈ requests, r ∈ s.requests := fun r hr => hrequests ▸ List.mem_cons_of_mem _ hr
  have hp := hb.ends pid pageTable (hrequests ▸ List.mem_cons_self)
  have hended : ∀ p, ended s p =
      ended { s with bus := { s.bus with memory }, requests } p + if p = pid then 1 else 0 :=
    fun p => by
      simp only [ended, hrequests, List.countP_cons, endsProcess, beq_iff_eq]
      by_cases hp : p = pid
      · rw [if_pos hp, if_pos hp.symm]
      · rw [if_neg hp, if_neg (Ne.symm hp)]
  have honce := (hb.ledger.known_of_ended hb.placed.conserved (p := pid) (by
    rw [hended, if_pos rfl]
    omega)).2
  have hlast : ∀ i, .processTerminated pid i ∉ requests := fun i hr => by
    have hpos : 0 < requests.countP (endsProcess pid) :=
      List.countP_pos_iff.mpr ⟨_, hr, by simp [endsProcess]⟩
    have hpid := hended pid
    rw [if_pos rfl] at hpid
    simp only [ended] at hpid honce
    omega
  have hstays : ∀ q i, q ≠ pid → ⟨q, i⟩ ∈ w.processes →
      ⟨q, i⟩ ∈ w.processes.filter (· ≠ ⟨pid, pageTable.toNat⟩) := fun q i hne hq =>
    List.mem_filter.mpr ⟨hq, by simpa using .inl hne⟩
  have hasks := hb.asks
  rw [hrequests, List.countP_cons_of_neg (by simp [asksTable])] at hasks
  refine ⟨hp, hb.placed, ?ledger, ?tabled, ?ends, hb.asked, hasks,
    fun p size hr => hb.inits p size (hmem _ hr), ?replies⟩
  case ledger =>
    have hknown : known (w.processes.filter (· ≠ ⟨pid, pageTable.toNat⟩)) = fun p =>
        if p = pid then 0 else known w.processes p := by
      ext1 p
      unfold known
      rw [List.countP_filter]
      split
      · subst p
        refine List.countP_eq_zero.mpr fun q hq => ?_
        have hsame := hw.distinct q hq _ hp
        simp only [decide_not, Bool.and_eq_true, beq_iff_eq, Bool.not_eq_true',
          decide_eq_false_iff_not, not_and, not_not]
        exact fun hpid => hsame (.inl hpid)
      · refine List.countP_congr fun q hq => ?_
        simp only [decide_not, Bool.and_eq_true, beq_iff_eq, Bool.not_eq_true',
          decide_eq_false_iff_not, and_iff_left_iff_imp]
        rintro rfl rfl
        contradiction
    rw [hknown]
    exact hb.ledger.forget hb.placed.conserved hended
  case tabled =>
    intro b hmem hbask i htable
    exact hb.tabled b hmem hbask i (List.mem_filter.mp htable).1
  case ends =>
    intro p i hr
    refine hstays p _ ?_ (hb.ends p i (hmem _ hr))
    rintro rfl
    exact hlast i hr
  case replies =>
    intro i hi a ha
    refine hstays _ _ (fun heq => ?_) (hb.replies i hi a ha)
    have hzero := hb.ledger.unended_of_asks hb.placed.conserved ha
    rw [heq] at hzero
    omega

lemma Books.bus (hb : Books s h ps) (bus : Bus) : Books { s with bus } h ps :=
  ⟨hb.placed, hb.ledger, hb.tabled, hb.ends, hb.asked, hb.asks, hb.inits, hb.replies⟩

lemma Agree.serve (ha : Agree m t s h w) {os : Os}
    (hstep : step c m t pcbToStream s (.serve os) = some s') :
    Follows m t w (seen (s, h) (.serve os)) s' h := by
  obtain ⟨hb, hw, -, hbus, hexec, hsts⟩ := id ha
  simp only [step] at hstep
  split at hstep
  · cases hstep
  next pid pcbSize requests hrequests =>
    simp only [Option.bind_eq_bind, Option.bind_eq_some_iff, Option.pure_def,
      Option.some.injEq] at hstep
    obtain ⟨⟨memory, pageTable⟩, hinit, rfl⟩ := hstep
    rw [← hbus] at hinit
    obtain ⟨-, -, -, -, ⟨rows, hrows⟩, -⟩ := memoryInit_memory hw.mapped hinit
    have hlt : pageTable < 2 ^ 32 := lt_trans (Lib.Slots.slotGet_eq_some_iff.mp hrows).1 (by decide)
    obtain ⟨hunknown, hbooks⟩ := hb.memoryInit hrequests memory hlt
    have hd : World.step m t w (.memoryInit pid pcbSize os) = some { w with
        bus := { w.bus with memory }, processes := ⟨pid, pageTable⟩ :: w.processes } := by
      simp only [World.step, pcbOf_of_unknown hunknown, hinit]
      rfl
    exact ha.machine (by rw [seen, hrequests]) hd hbooks (by rw [hbus]) hexec hsts
  next pid pcbStream requests hrequests =>
    obtain rfl := Option.some.inj hstep
    have hd : World.step m t w (.swapPcb pid pcbStream os) = some { w with bus :=
        { w.bus with memory := swapPcb w.bus.memory pid.toNat pcbStream os } } := rfl
    exact ha.machine (by rw [seen, hrequests]) hd (hb.swapPcb hrequests _) (by rw [hbus]) hexec
      hsts
  next pid pageTable requests hrequests =>
    simp only [Option.bind_eq_bind, Option.bind_eq_some_iff, Option.pure_def,
      Option.some.injEq] at hstep
    obtain ⟨memory, hend, rfl⟩ := hstep
    obtain ⟨hmem, hbooks⟩ := hb.processTerminated hw hrequests memory
    have hnot : w.executing ≠ some ⟨pid, pageTable.toNat⟩ := by
      intro hrun
      rw [hexec] at hrun
      obtain ⟨pcb, hcpu, hpcb⟩ := Option.map_eq_some_iff.mp hrun
      have hzero := hb.unended_of_cpu hcpu (hsts (by rw [hcpu]; rfl))
      rw [show pcb.id = pid from congrArg Process.pid hpcb, ended, hrequests,
        List.countP_cons_of_pos (by simp [endsProcess])] at hzero
      omega
    have hd : World.step m t w (.processTerminated pid) = some { w with
        bus := { w.bus with memory }
        processes := w.processes.filter (· ≠ ⟨pid, pageTable.toNat⟩) } := by
      have hpcb := pcbOf_eq hw hmem
      simp only [World.step, hpcb, Option.bind_eq_bind, Option.bind_some, if_neg hnot, hbus, hend]
      rfl
    exact ha.machine (by rw [seen, hrequests]) hd hbooks (by rw [hbus]) hexec hsts

/-- Asking for the table, and receiving it, changes nothing that the machine has. -/
lemma Agree.wait (ha : Agree m t s h w) {e : Event} (he : e = .ask ∨ e = .answer)
    (hstep : step c m t pcbToStream s e = some s') : Follows m t w (seen (s, h) e) s' h := by
  obtain ⟨hb, hw, ho, hbus, hexec, hsts⟩ := id ha
  rcases he with rfl | rfl
  · simp only [step] at hstep
    split at hstep
    next a hpc hasked =>
      obtain rfl := Option.some.inj hstep
      exact stutter rfl ⟨hb.ask (by rw [hpc]; rfl) hasked, hw, ho, hbus, hexec, hsts⟩
    · cases hstep
  · simp only [step] at hstep
    split at hstep
    next a pageTable hpc hreply =>
      obtain ⟨kernel, hk, rfl⟩ := Option.map_eq_some_iff.mp hstep
      have hkept : kernel.cpu = s.kernel.cpu ∧ kernel.sts = s.kernel.sts := by
        cases ltsMove hk <;> exact ⟨rfl, rfl⟩
      refine stutter rfl ⟨hb.answer hw hpc hreply hk, hw, ho, hbus, ?_, ?_⟩
      · show w.executing = kernel.cpu.map processOf
        rw [hkept.1, hexec]
      · show kernel.cpu.isSome = true → onCpu kernel.sts = true
        rw [hkept.1, hkept.2]
        exact hsts
    · cases hstep

lemma Agree.access (ha : Agree m t s h w) {e : Event}
    (he : ∃ a v os os', e = .read a os os' ∨ e = .write a v os os')
    (hstep : step c m t pcbToStream s e = some s') : Follows m t w (seen (s, h) e) s' h := by
  obtain ⟨hb, hw, ho, hbus, hexec, hsts⟩ := id ha
  obtain ⟨a, v, os, os', rfl | rfl⟩ := he
  · simp only [step, Option.bind_eq_bind, Option.bind_eq_some_iff, Option.pure_def,
      Option.some.injEq] at hstep
    obtain ⟨pcb, hcpu, ⟨bus, value⟩, hread, rfl⟩ := hstep
    have hd : World.step m t w (.read a os os') = some { w with bus } := by
      simp only [World.step, hexec, hcpu, hbus, hread, Option.map_some, Option.bind_eq_bind,
        Option.bind_some, Option.pure_def]
    exact ha.machine rfl hd (hb.bus bus) rfl hexec hsts
  · simp only [step, Option.bind_eq_bind, Option.bind_eq_some_iff, Option.pure_def,
      Option.some.injEq] at hstep
    obtain ⟨pcb, hcpu, bus, hwrite, rfl⟩ := hstep
    have hd : World.step m t w (.write a v os os') = some { w with bus } := by
      simp only [World.step, hexec, hcpu, hbus, hwrite, Option.map_some, Option.bind_eq_bind,
        Option.bind_some, Option.pure_def]
    exact ha.machine rfl hd (hb.bus bus) rfl hexec hsts

/-- **The machine of `World` can do what the system does.** -/
lemma simulates : Simulates (stepN c m t pcbToStream) (World.step m t) seen Timely
    fun s w => Agree m t s.1 s.2 w := by
  rintro ⟨s, h⟩ e ⟨s', h'⟩ w ha htimely hstep
  obtain ⟨hs, rfl⟩ := watched_eq_some.mp hstep
  cases e with
  | kernel e => exact ha.kernel htimely hs
  | ask => exact ha.wait (.inl rfl) hs
  | answer => exact ha.wait (.inr rfl) hs
  | serve os => exact ha.serve hs
  | read a os os' => exact ha.access ⟨a, 0, os, os', .inl rfl⟩ hs
  | write a v os os' => exact ha.access ⟨a, v, os, os', .inr rfl⟩ hs

lemma agree_of_run {heap : Heap} {blocks : ℕ → UInt8} {es : List Event}
    (hm : Meets (stepN c m t pcbToStream) Timely (initSys c m t heap blocks, noHistory) es)
    (hr : run (stepN c m t pcbToStream) (initSys c m t heap blocks, noHistory) es =
      some (s, h)) :
    ∃ w, run (World.step m t) (World.init m t blocks)
        (observed (stepN c m t pcbToStream) seen (initSys c m t heap blocks, noHistory) es) =
          some w ∧ Agree m t s h w :=
  simulates.run (agree_init heap blocks) hm hr

/-- **Refinement.** In every run in which trackers and the I/O thread do not get in each other's
way, what the memory module and the CPU see is a run of `World`: no process is admitted twice, none
is sent to the CPU under a table that is not its own, and none ends before it has left the CPU. -/
theorem world_of_timely (c : Scheduler.Cfg) (m : Mem.MemoryModule.Cfg) (t : TlbCfg)
    (pcbToStream : Pcb → List UInt8) (heap : Heap) (blocks : ℕ → UInt8) (es : List Event) (s : Sys)
    (h : History)
    (hrun : run (stepN c m t pcbToStream) (initSys c m t heap blocks, noHistory) es = some (s, h))
    (htimely :
      Meets (stepN c m t pcbToStream) Timely (initSys c m t heap blocks, noHistory) es) :
    ∃ w, run (World.step m t) (World.init m t blocks)
        (observed (stepN c m t pcbToStream) seen (initSys c m t heap blocks, noHistory) es) =
          some w ∧
      w.bus = s.bus ∧ w.executing = s.kernel.cpu.map processOf := by
  obtain ⟨w, hds, hw⟩ := agree_of_run htimely hrun
  exact ⟨w, hds, hw.bus, hw.executing⟩

/-- A process is made and admitted, and gets its table. -/
def admits : List Event :=
  (spawn 0 1 ++ ltsSteps 4).map .kernel ++ [.ask, .serve goodOs, .answer] ++
    (ltsSteps 4).map .kernel

/-- It runs, writes a word, and its end is reported. -/
def runsOnce : List Event :=
  admits ++ (stsSteps 6 2 .blocked).map .kernel ++ [.write 0 9 goodOs goodOs] ++
    (stsSteps 6 2 .terminated).map .kernel

set_option maxRecDepth 40000 in
theorem world_of_timely_write :
    ∃ s h w, run (stepN srtCfg smallCfg smallTlb fun _ => [])
        (initSys srtCfg smallCfg smallTlb zeroHeap fun _ => 0, noHistory) runsOnce = some (s, h) ∧
      run (World.step smallCfg smallTlb) (World.init smallCfg smallTlb fun _ => 0)
        (observed (stepN srtCfg smallCfg smallTlb fun _ => []) seen
          (initSys srtCfg smallCfg smallTlb zeroHeap fun _ => 0, noHistory) runsOnce) = some w ∧
      w.bus = s.bus ∧ w.executing = s.kernel.cpu.map processOf := by
  obtain ⟨w, hall⟩ := world_of_timely srtCfg smallCfg smallTlb (fun _ => []) zeroHeap
    (fun _ => 0) runsOnce _ _ rfl (by decide +kernel)
  exact ⟨_, _, w, rfl, hall⟩

/-! ### Who has a page table -/

/-- The block is that of a process which has its table. -/
def HasTable (k : Kernel) (a : Addr) : Prop :=
  a ∈ admitted k ∧ a ∉ k.new ∧ asksFor k.lts ≠ some a ∧ reported k.sts ≠ some a

/-- The process has the table: its block names it, or the CPU has it, or the report of its end is
on the way, or the answer to `MEMORY_INIT` is. -/
def Owns (s : Sys) (p : UInt32) (i : ℕ) : Prop :=
  (∃ a, HasTable s.kernel a ∧ processOf (s.kernel.heap a) = ⟨p, i⟩) ∨
    (∃ pcb, s.kernel.cpu = some pcb ∧ processOf pcb = ⟨p, i⟩) ∨
    (∃ pageTable, .processTerminated p pageTable ∈ s.requests ∧ pageTable.toNat = i) ∨
    ∃ a pageTable, s.reply = some pageTable ∧ asksFor s.kernel.lts = some a ∧
      (s.kernel.heap a).id = p ∧ pageTable.toNat = i

lemma Agree.mem_of_owns (ha : Agree m t s h w) {p : UInt32} {i : ℕ} (ho : Owns s p i) :
    ⟨p, i⟩ ∈ w.processes := by
  rcases ho with ⟨a, ⟨hmem, hnew, hasks, hreported⟩, hp⟩ | ⟨pcb, hcpu, hp⟩ |
    ⟨pageTable, hmem, rfl⟩ | ⟨a, pageTable, hreply, hasks, rfl, rfl⟩
  · obtain ⟨x, -, hx⟩ := List.mem_flatMap.mp hmem
    rw [← hp]
    refine ha.books.process_mem hx (fun hxnew => hnew ?_) hasks hreported
    rwa [hxnew] at hx
  · rw [← hp]
    exact ha.cpu_mem hcpu
  · exact ha.books.ends p pageTable hmem
  · exact ha.books.replies pageTable hreply a hasks

lemma Agree.owns_of_mem (ha : Agree m t s h w) {p : UInt32} {i : ℕ} (hp : ⟨p, i⟩ ∈ w.processes) :
    Owns s p i := by
  obtain ⟨hb, hw, -, -, -, -⟩ := id ha
  have hk := hb.placed.conserved
  have hknown : 0 < known w.processes p := List.countP_pos_iff.mpr ⟨_, hp, by simp⟩
  by_cases hended : 0 < ended s p
  · -- its end is on the way
    obtain ⟨r, hr, hends⟩ := List.countP_pos_iff.mp hended
    cases r with
    | processTerminated q pageTable =>
      obtain rfl : q = p := by simpa [endsProcess] using hends
      exact .inr (.inr (.inl ⟨pageTable, hr, table_eq hw (hb.ends q pageTable hr) hp⟩))
    | memoryInit | swapPcb => cases hends
  have hbalance := hb.ledger.balance p
  have honce := hb.ledger.once p
  have hle := live_le_one hk p
  have hplaces := hk.places p
  have huntabled := untabled_le hk p
  by_cases haway : p ∈ away s.kernel
  · -- it is on the CPU
    unfold away at haway
    split at haway
    · obtain ⟨pcb, hcpu, rfl⟩ : ∃ pcb, s.kernel.cpu = some pcb ∧ pcb.id = p := by
        simpa using haway
      have htable := table_eq hw (ha.cpu_mem hcpu) hp
      exact .inr (.inl ⟨pcb, hcpu, by rw [processOf, htable]⟩)
    · cases haway
  · -- it has a block
    rw [List.count_eq_zero.mpr haway] at hplaces
    have hpos : 0 < (admitted s.kernel).countP (hasId s.kernel.heap p) := by
      split at hbalance <;> omega
    obtain ⟨a, hmem, hid⟩ := List.countP_pos_iff.mp hpos
    obtain rfl : (s.kernel.heap a).id = p := by simpa [hasId] using hid
    by_cases hasks : asksFor s.kernel.lts = some a
    · have hheld : held s.kernel.heap (s.kernel.heap a).id (asksFor s.kernel.lts) = 1 := by
        rw [hasks, held_some, hasId_self]
        rfl
      cases hreply : s.reply with
      | none =>
        rw [hreply, hheld] at hbalance
        simp only [Option.isSome_none, Bool.false_eq_true, if_false] at hbalance
        omega
      | some pageTable =>
        have htable := table_eq hw (hb.replies pageTable hreply a hasks) hp
        exact .inr (.inr (.inr ⟨a, pageTable, hreply, hasks, rfl, htable⟩))
    · have htable := hb.tabled a hmem hasks i hp
      refine .inl ⟨a, ⟨hmem, fun hnew => ?_, hasks, fun hreported => ?_⟩, by rw [processOf, htable]⟩
      · have hpos : 0 < s.kernel.new.countP (hasId s.kernel.heap (s.kernel.heap a).id) :=
          List.countP_pos_iff.mpr ⟨a, hnew, hid⟩
        split at hbalance <;> omega
      · rw [hreported, held_some, hid, Bool.toNat_true] at hbalance
        split at hbalance <;> omega

/-- **Residency.** In the same runs the level-1 tables in the memory module are exactly those of
the processes that the kernel still has, or whose request for a table or report of an end is on the
way; and each of them has one. -/
theorem owns_of_timely (c : Scheduler.Cfg) (m : Mem.MemoryModule.Cfg) (t : TlbCfg)
    (pcbToStream : Pcb → List UInt8) (heap : Heap) (blocks : ℕ → UInt8) (es : List Event) (s : Sys)
    (h : History)
    (hrun : run (stepN c m t pcbToStream) (initSys c m t heap blocks, noHistory) es = some (s, h))
    (htimely :
      Meets (stepN c m t pcbToStream) Timely (initSys c m t heap blocks, noHistory) es) :
    (∀ i, (∃ rows, s.bus.memory.table1 i = some rows) ↔ ∃ p, Owns s p i) ∧
      ∀ p q i j, Owns s p i → Owns s q j → (p = q ↔ i = j) := by
  obtain ⟨w, -, ha⟩ := agree_of_run htimely hrun
  rw [← ha.bus]
  refine ⟨fun i => ⟨?live, ?owned⟩, fun p q i j hp hq => ?distinct⟩
  case live =>
    rintro ⟨rows, ht⟩
    obtain ⟨⟨p, j⟩, hp, rfl⟩ := ha.owned i rows ht
    exact ⟨p, ha.owns_of_mem hp⟩
  case owned =>
    rintro ⟨p, hp⟩
    exact ha.world.live ⟨p, i⟩ (ha.mem_of_owns hp)
  case distinct =>
    have hp' := ha.mem_of_owns hp
    have hq' := ha.mem_of_owns hq
    constructor
    · intro hpq
      exact congrArg Process.pageTable (ha.world.distinct _ hp' _ hq' (.inl hpq))
    · intro hij
      exact congrArg Process.pid (ha.world.distinct _ hp' _ hq' (.inr hij))

set_option maxRecDepth 40000 in
/-- The end of the process is on the way, and so is its table. -/
theorem owns_of_timely_reported :
    ∃ s h, run (stepN srtCfg smallCfg smallTlb fun _ => [])
        (initSys srtCfg smallCfg smallTlb zeroHeap fun _ => 0, noHistory) runsOnce = some (s, h) ∧
      Owns s 0 0 ∧ (∃ rows, s.bus.memory.table1 0 = some rows) ∧
      ∀ p q i j, Owns s p i → Owns s q j → (p = q ↔ i = j) := by
  have hfacts : ∃ s h, run (stepN srtCfg smallCfg smallTlb fun _ => [])
      (initSys srtCfg smallCfg smallTlb zeroHeap fun _ => 0, noHistory) runsOnce = some (s, h) ∧
      .processTerminated 0 0 ∈ s.requests := ⟨_, _, rfl, by decide +kernel⟩
  obtain ⟨s, h, hrun, hreported⟩ := hfacts
  have howns : Owns s 0 0 := .inr (.inr (.inl ⟨0, hreported, rfl⟩))
  obtain ⟨htables, hdistinct⟩ := owns_of_timely srtCfg smallCfg smallTlb (fun _ => []) zeroHeap
    (fun _ => 0) runsOnce s h hrun (by decide +kernel)
  exact ⟨s, h, hrun, howns, (htables 0).mpr ⟨0, howns⟩, hdistinct⟩

end Sski.System.Residency
