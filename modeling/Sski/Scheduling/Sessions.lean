import Sski.Scheduling.Conservation

/-!
The sessions of the consoles. What links a connection with its process is the id in the variable
`sender_pid`, which is 0 before the first `SYS`; and 0 is the id of the first process. So a
`CMD` without a `SYS` takes that process from the console it belongs to. If no console does
this, and no block is freed before it is moved to NEW, the sessions are separate.
-/

namespace Sski.Scheduling.Sessions

open Sski.Lib.Runs Sski.Lib.Counting
open Sski.Cpu.Cycle (Instruction)
open Sski.Scheduling.Scheduler Sski.Scheduling.Threads Sski.Scheduling.Moves
open Sski.Scheduling.Places

/-! ### What the consoles have asked for -/

/-- A process was made for a client, which has declared its size. -/
structure Made where
  client : ℕ
  pid : UInt32
  size : UInt32
  deriving DecidableEq, Repr

/-- A block was moved to NEW on a client's `CMD`, which had these instructions. -/
structure Moved where
  client : ℕ
  instructions : List Instruction
  pcb : Pcb
  deriving DecidableEq, Repr

structure Sessions where
  /-- The size in the last `SYS` of each client. -/
  declared : ℕ → UInt32
  /-- The instructions in its last `CMD`. -/
  commanded : ℕ → List Instruction
  made : List Made
  moved : List Moved

def noSessions : Sessions := ⟨fun _ => 0, fun _ => [], [], []⟩

def noteMessage (i : ℕ) (m : Message) (w : Sessions) : Sessions :=
  match m with
  | .newProcess size => { w with declared := fun j => if j = i then size else w.declared j }
  | .cmd instructions =>
    { w with commanded := fun j => if j = i then instructions else w.commanded j }
  | .other => w

def noteConsole (k : Kernel) (i : ℕ) (s : Console) (w : Sessions) : Sessions :=
  match s.pc with
  | .addPcb _ => { w with made := w.made ++ [⟨i, s.senderPid, w.declared i⟩] }
  | .pushNew a => { w with moved := w.moved ++ [⟨i, w.commanded i, k.heap a⟩] }
  | _ => w

def note (k : Kernel) : Event → Sessions → Sessions
  | .message i m, w => noteMessage i m w
  | .console i _, w =>
    match k.consoles[i]? with
    | some s => noteConsole k i s w
    | none => w
  | _, w => w

variable (c : Cfg) (k : Kernel) (w : Sessions)

abbrev stepS := watched (step c) note

def commands (s : Console) : Bool :=
  match s.pc with
  | .getPcbByPid _ => true
  | _ => false

def destroys : Sts → Option Addr
  | .destroySent a | .destroyPcb a _ => some a
  | _ => none

def makes (i : ℕ) (pid : UInt32) : Bool := w.made.any fun m => m.client = i ∧ m.pid = pid

/-- The client has made a process that was not moved to NEW yet. -/
def pending (i : ℕ) : Bool := k.pcbs.any fun a => makes w i (k.heap a).id

/-- A client whose `sender_pid` is 0 does not command process 0 unless it has made it; and the
short-term scheduler destroys no block on its way to NEW. -/
def OwnCommand : Event → Prop
  | .console i _ => (k.consoles[i]?.any fun s => s.senderPid = 0 ∧ commands s) = true →
      pcbExists k.heap k.pcbs 0 = true → makes w i 0 = true
  | .sts _ => ∀ a ∈ created k, destroys k.sts ≠ some a
  | _ => True

instance (k : Kernel) (w : Sessions) : DecidablePred (OwnCommand k w)
  | .console _ _ => inferInstanceAs (Decidable (_ = true → _ = true → _ = true))
  | .sts _ => inferInstanceAs (Decidable (∀ a ∈ created k, destroys k.sts ≠ some a))
  | .connect | .message .. | .lts _ | .io | .mts _ | .scribble .. => .isTrue trivial

/-- No session interferes with another one. -/
structure Separate : Prop where
  /-- The client that moved a process to NEW has made it, and the block has the size that it
  declared and the instructions of its `CMD`. -/
  moved : ∀ m ∈ w.moved, ⟨m.client, m.pcb.id, m.pcb.size⟩ ∈ w.made ∧
    m.pcb.instructions = m.instructions
  /-- Nobody else has made it, and it was moved once. -/
  made : (w.made.map Made.pid).Nodup
  once : (w.moved.map fun m => m.pcb.id).Nodup
  /-- The `CMD` of a client that has no process to move changes nothing. -/
  silent : ∀ (i : ℕ) (s : Console) (addr : Addr), k.consoles[i]? = some s → commands s = true →
    pending k w i = false → OwnCommand k w (.console i addr) →
      step c k (.console i addr) =
        some { k with consoles := k.consoles.set i ⟨s.senderPid, .receive⟩ }

/-! ### What a console's handler knows -/

/-- The id is the one of before the first `SYS`, of one that found no id, or of a process that
the client has made. -/
def PidOk (i : ℕ) (pid : UInt32) : Prop := pid = 0 ∨ pid = undefined ∨ makes w i pid = true

def Has (i : ℕ) (a : Addr) : Prop := ⟨i, (k.heap a).id, (k.heap a).size⟩ ∈ w.made

def Session (i : ℕ) (s : Console) : Prop :=
  match s.pc with
  | .receive | .signalReqAdmit => PidOk w i s.senderPid
  | .getPidLibre size => PidOk w i s.senderPid ∧ size = w.declared i
  | .addPcb size => size = w.declared i
  | .getPcbByPid instructions => PidOk w i s.senderPid ∧ instructions = w.commanded i
  | .setInstructions a instructions =>
    PidOk w i s.senderPid ∧ Has k w i a ∧ instructions = w.commanded i
  | .pushNew a => PidOk w i s.senderPid ∧ Has k w i a ∧ (k.heap a).instructions = w.commanded i

/-- What is in a block because a console has asked for it. -/
def request (pcb : Pcb) : UInt32 × UInt32 × List Instruction := (pcb.id, pcb.size, pcb.instructions)

structure Owned : Prop where
  used : ∀ a ∈ created k, k.inUse a = true
  pcbs : ∀ a ∈ k.pcbs, ∃ i, Has k w i a
  sessions : ∀ i s, k.consoles[i]? = some s → Session k w i s
  /-- Ids are given out once. -/
  once : ∀ p, (reserved k).count p + (w.made.map Made.pid).count p ≤ 1
  pool : k.pool.length = maxPids
  taken : ∀ p, 0 < (reserved k).count p + (w.made.map Made.pid).count p →
    k.pool[p.toNat]? = some true
  /-- What was made is on its way to NEW, or was moved there. -/
  places : ∀ p, (created k).countP (hasId k.heap p) + (w.moved.map fun m => m.pcb.id).count p =
    (w.made.map Made.pid).count p
  moved : ∀ m ∈ w.moved, ⟨m.client, m.pcb.id, m.pcb.size⟩ ∈ w.made ∧
    m.pcb.instructions = m.instructions

variable {c k w} {k' : Kernel} {w' : Sessions} {i : ℕ} {s : Console}

lemma owned_init (heap : Heap) : Owned (initKernel c heap) noSessions := by
  refine ⟨?_, ?_, ?_, fun p => ?_, ?_, fun p hp => ?_, fun p => ?_, ?_⟩ <;>
  simp_all [initKernel, noSessions, created, reserved]

lemma Session.mono (h : Session k w i s)
    (hheap : ∀ a, consoleHolds s = some a → request (k'.heap a) = request (k.heap a))
    (hmade : w.made ⊆ w'.made) (hdeclared : w'.declared i = w.declared i)
    (hcommanded : w'.commanded i = w.commanded i) : Session k' w' i s := by
  have hpid : PidOk w i s.senderPid → PidOk w' i s.senderPid := by
    refine Or.imp_right (Or.imp_right fun hm => ?_)
    obtain ⟨m, hm, hi⟩ := List.any_eq_true.mp hm
    exact List.any_eq_true.mpr ⟨m, hmade hm, hi⟩
  have hhas : ∀ a, consoleHolds s = some a → Has k w i a →
      Has k' w' i a ∧ (k'.heap a).instructions = (k.heap a).instructions := by
    intro a ha hh
    have hreq := hheap a ha
    simp only [request, Prod.mk.injEq] at hreq
    refine ⟨?_, hreq.2.2⟩
    rw [Has, hreq.1, hreq.2.1]
    exact hmade hh
  unfold Session at h ⊢
  cases hpc : s.pc <;> simp only [hpc, hdeclared, hcommanded] at h ⊢
  case receive | signalReqAdmit => exact hpid h
  case getPidLibre | getPcbByPid => exact ⟨hpid h.1, h.2⟩
  case addPcb => exact h
  case setInstructions a _ =>
    exact ⟨hpid h.1, (hhas a (by simp [consoleHolds, hpc]) h.2.1).1, h.2.2⟩
  case pushNew a =>
    have hh := hhas a (by simp [consoleHolds, hpc]) h.2.1
    exact ⟨hpid h.1, hh.1, hh.2.trans h.2.2⟩

/-! ### Steps of the other threads -/

/-- A step that has nothing to do with consoles. -/
structure Elsewhere (k k' : Kernel) : Prop where
  pcbs : k'.pcbs = k.pcbs
  consoles : k'.consoles = k.consoles
  pool : k'.pool = k.pool
  used : ∀ a ∈ created k, k.inUse a = true → k'.inUse a = true
  request : ∀ a, k.inUse a = true → request (k'.heap a) = request (k.heap a)

lemma elsewhere_lts (h : LtsMove c k k') : Elsewhere k k' := by
  refine ⟨?_, ?_, ?_, fun a _ ha => ?_, fun a _ => ?request⟩
  case request =>
    cases h with
    | pageTable | setReady => exact modify_field request (by intro; rfl) a
    | _ => rfl
  all_goals cases h <;> first | rfl | exact ha

lemma elsewhere_sts (h : StsMove c k k') (hcond : ∀ a ∈ created k, destroys k.sts ≠ some a) :
    Elsewhere k k' := by
  refine ⟨?_, ?_, ?_, fun a hmem ha => ?used, fun a ha => ?request⟩
  case used =>
    cases h with
    | receivePcb =>
      dsimp only
      unfold setInUse
      split
      · rfl
      · exact ha
    | @destroySent b hl | @destroyPcb b sent hl =>
      have hne : a ≠ b := by
        rintro rfl
        exact hcond a hmem (by rw [hl]; rfl)
      dsimp only
      rwa [setInUse_of_ne _ hne]
    | _ => exact ha
  case request =>
    cases h with
    | setExecuting | setReal | setIo | reSchedule | preEmpt =>
      exact modify_field request (by intro; rfl) a
    | @receivePcb pcb o hl hcpu huse =>
      have hne : a ≠ o.addr := by
        rintro rfl
        rw [ha] at huse
        cases huse
      exact congrArg request (fill_of_ne _ hne)
    | _ => rfl
  all_goals cases h <;> rfl

lemma elsewhere_io (h : IoMove c k k') : Elsewhere k k' := by
  refine ⟨?_, ?_, ?_, fun a _ ha => ?_, fun a _ => ?request⟩
  case request =>
    cases h with
    | setSuspendedReady | setReady => exact modify_field request (by intro; rfl) a
    | _ => rfl
  all_goals cases h <;> first | rfl | exact ha

lemma elsewhere_mts {t : Tracker} (h : MtsMove k i t k') : Elsewhere k k' := by
  refine ⟨?_, ?_, ?_, fun a _ ha => ?_, fun a _ => ?request⟩
  case request =>
    cases h with
    | setSuspendedBlocked => exact modify_field request (by intro; rfl) a
    | _ => rfl
  all_goals cases h <;> first | rfl | exact ha

lemma elsewhere_scribble {a : Addr} {pcb : Pcb} (huse : k.inUse a = false) :
    Elsewhere k { k with heap := fill k.heap a pcb } := by
  refine ⟨rfl, rfl, rfl, fun _ _ hb => hb, fun b hb => ?_⟩
  have hne : b ≠ a := by
    rintro rfl
    rw [hb] at huse
    cases huse
  exact congrArg request (fill_of_ne _ hne)

lemma mem_created_of_holds {a : Addr} (hs : k.consoles[i]? = some s)
    (ha : consoleHolds s = some a) : a ∈ created k :=
  List.mem_append_right _ (List.mem_filterMap.mpr ⟨s, List.mem_of_getElem? hs, ha⟩)

lemma Owned.elsewhere (h : Owned k w) (he : Elsewhere k k') : Owned k' w := by
  have hcreated : created k' = created k := by rw [created, created, he.pcbs, he.consoles]
  have hreserved : reserved k' = reserved k := by rw [reserved, reserved, he.consoles]
  have hreq : ∀ a ∈ created k, request (k'.heap a) = request (k.heap a) :=
    fun a ha => he.request a (h.used a ha)
  refine ⟨fun a ha => ?_, fun a ha => ?_, fun i s hs => ?_, ?_, ?_, ?_, fun p => ?_, h.moved⟩
  · rw [hcreated] at ha
    exact he.used a ha (h.used a ha)
  · rw [he.pcbs] at ha
    obtain ⟨i, hi⟩ := h.pcbs a ha
    have hra := hreq a (List.mem_append_left _ ha)
    simp only [request, Prod.mk.injEq] at hra
    refine ⟨i, ?_⟩
    rwa [Has, hra.1, hra.2.1]
  · rw [he.consoles] at hs
    exact (h.sessions i s hs).mono (fun a ha => hreq a (mem_created_of_holds hs ha))
      (fun _ hm => hm) rfl rfl
  · rw [hreserved]
    exact h.once
  · rw [he.pool]
    exact h.pool
  · rw [hreserved, he.pool]
    exact h.taken
  · rw [hcreated, ← h.places p]
    congr 1
    refine List.countP_congr fun a ha => ?_
    rw [hasId, hasId, show (k'.heap a).id = (k.heap a).id from congrArg Prod.fst (hreq a ha)]

/-! ### Steps of the handlers -/

lemma sessions_set {s' : Console} (h : ∀ j s, k.consoles[j]? = some s → Session k w j s)
    (hothers : ∀ j s, j ≠ i → k.consoles[j]? = some s → Session k w j s → Session k' w' j s)
    (hs' : Session k' w' i s') :
    ∀ j s, (k.consoles.set i s')[j]? = some s → Session k' w' j s := by
  intro j s hj
  by_cases hji : j = i
  · subst hji
    rw [List.getElem?_set] at hj
    split at hj
    · obtain rfl : s' = s := by
        split at hj
        · exact Option.some.inj hj
        · cases hj
      exact hs'
    · contradiction
  · rw [List.getElem?_set_ne (Ne.symm hji)] at hj
    exact hothers j s hji hj (h j s hj)

lemma Owned.goOn (h : Owned k w) {s' : Console} (hpool : k'.pool = k.pool)
    (hinUse : k'.inUse = k.inUse) (hconsoles : k'.consoles = k.consoles.set i s')
    (hpcbs : ∀ a ∈ k'.pcbs, a ∈ k.pcbs)
    (hreserved : ∀ p, (reserved k').count p = (reserved k).count p)
    (hcreated : ∀ P, (created k').countP P = (created k).countP P)
    (hid : ∀ a, (k'.heap a).id = (k.heap a).id ∧ (k'.heap a).size = (k.heap a).size)
    (hmade : w'.made = w.made) (hmoved : w'.moved = w.moved)
    (hothers : ∀ j s, j ≠ i → k.consoles[j]? = some s → Session k w j s → Session k' w' j s)
    (hs' : Session k' w' i s') : Owned k' w' := by
  refine ⟨fun a ha => ?_, fun a ha => ?_, ?_, fun p => ?_, ?_, fun p hp => ?_, fun p => ?_, ?_⟩
  · rw [hinUse]
    exact h.used a ((mem_congr_of_countP hcreated a).mp ha)
  · obtain ⟨j, hj⟩ := h.pcbs a (hpcbs a ha)
    refine ⟨j, ?_⟩
    rwa [Has, (hid a).1, (hid a).2, hmade]
  · rw [hconsoles]
    exact sessions_set h.sessions hothers hs'
  · rw [hreserved, hmade]
    exact h.once p
  · rw [hpool]
    exact h.pool
  · rw [hpool]
    rw [hreserved, hmade] at hp
    exact h.taken p hp
  · have hhas : hasId k'.heap p = hasId k.heap p := by
      funext a
      rw [hasId, hasId, (hid a).1]
    rw [hhas, hcreated, hmoved, hmade]
    exact h.places p
  · rw [hmade, hmoved]
    exact h.moved

lemma Owned.goTo (h : Owned k w) (hs : k.consoles[i]? = some s) {s' : Console}
    (hreserves : consoleReserves s' = none) (hholds : consoleHolds s' = none)
    (hnone : consoleReserves s = none ∧ consoleHolds s = none) (hmade : w'.made = w.made)
    (hmoved : w'.moved = w.moved) (hdeclared : ∀ j, j ≠ i → w'.declared j = w.declared j)
    (hcommanded : ∀ j, j ≠ i → w'.commanded j = w.commanded j) (hs' : Session k w' i s') :
    Owned { k with consoles := k.consoles.set i s' } w' := by
  refine h.goOn rfl rfl rfl (fun _ ha => ha) (count_reserved_keep hs hnone.1 hreserves)
    (fun P => ?_) (fun _ => ⟨rfl, rfl⟩) hmade hmoved (fun j s hj _ hsj => ?_) hs'
  · rw [countP_created, countP_created, Nat.add_left_cancel_iff]
    exact countP_holds_keep hs (hholds.trans hnone.2.symm) P
  · exact hsj.mono (fun _ _ => rfl) (by rw [hmade]; exact fun _ hm => hm) (hdeclared j hj)
      (hcommanded j hj)

lemma Owned.made_inj (h : Owned k w) {m m' : Made} (hm : m ∈ w.made) (hm' : m' ∈ w.made)
    (heq : m.pid = m'.pid) : m = m' := by
  have hnodup : (w.made.map Made.pid).Nodup := List.nodup_iff_count_le_one.mpr fun p => by
    have honce := h.once p
    omega
  exact List.inj_on_of_nodup_map hnodup hm hm' heq

/-- What a console's command finds was made for its client. -/
lemma Owned.has_of_found (h : Owned k w) (hs : k.consoles[i]? = some s) (hc : commands s = true)
    {addr : Addr} (hcond : OwnCommand k w (.console i addr)) {a : Addr} (ha : a ∈ k.pcbs)
    (hid : (k.heap a).id = s.senderPid) : Has k w i a := by
  obtain ⟨j, hj⟩ := h.pcbs a ha
  have hpid : PidOk w i s.senderPid := by
    have hses := h.sessions i s hs
    unfold Session at hses
    unfold commands at hc
    cases hpc : s.pc <;> simp only [hpc, Bool.false_eq_true] at hc hses
    exact hses.1
  have hmakes : makes w i s.senderPid = true := by
    rcases hpid with hzero | hundef | hmakes
    · rw [hzero]
      refine hcond (by simp [hs, hzero, hc]) ?_
      exact List.any_eq_true.mpr ⟨a, ha, by simp [hid, hzero]⟩
    · -- nothing was made with the id that stands for none
      have hpos : 0 < (w.made.map Made.pid).count (k.heap a).id :=
        List.count_pos_iff.mpr (List.mem_map.mpr ⟨_, hj, rfl⟩)
      have htaken := h.taken (k.heap a).id (by omega)
      obtain ⟨hlt, -⟩ := List.getElem?_eq_some_iff.mp htaken
      rw [h.pool, hid, hundef] at hlt
      exact absurd hlt (by decide)
    · exact hmakes
  obtain ⟨m, hm, hi⟩ := List.any_eq_true.mp hmakes
  obtain ⟨hclient, hmpid⟩ : m.client = i ∧ m.pid = s.senderPid := by simpa using hi
  obtain rfl : m = ⟨j, (k.heap a).id, (k.heap a).size⟩ := h.made_inj hm hj (hmpid.trans hid.symm)
  obtain rfl : j = i := hclient
  exact hj

lemma Owned.message {m : Message} (h : Owned k w) (hstep : routineStep k i m = some k') :
    Owned k' (noteMessage i m w) := by
  unfold routineStep at hstep
  split at hstep
  · next pid hs =>
    have hpid : PidOk w i pid := h.sessions i _ hs
    cases m with
    | newProcess size =>
      cases hstep
      refine h.goTo hs rfl rfl ⟨rfl, rfl⟩ rfl rfl (fun j hj => if_neg hj) (fun _ _ => rfl) ?_
      exact ⟨hpid, (if_pos rfl).symm⟩
    | cmd instructions =>
      cases hstep
      refine h.goTo hs rfl rfl ⟨rfl, rfl⟩ rfl rfl (fun _ _ => rfl) (fun j hj => if_neg hj) ?_
      exact ⟨hpid, (if_pos rfl).symm⟩
    | other =>
      cases hstep
      exact h
  · cases hstep

lemma Owned.getPidLibre (h : Owned k w) (hs : k.consoles[i]? = some s) {size : UInt32} {j : ℕ}
    (hl : s.pc = .getPidLibre size) (hj : k.pool[j]? = some false) :
    Owned { k with
      pool := k.pool.set j true
      consoles := k.consoles.set i ⟨UInt32.ofNat j, .addPcb size⟩ } w := by
  have hlt := lt_maxPids h.pool hj
  have htoNat := toNat_ofNat_of_lt hlt
  have hfree : ¬ 0 < (reserved k).count (UInt32.ofNat j) +
      (w.made.map Made.pid).count (UInt32.ofNat j) := by
    intro hpos
    have htaken := h.taken _ hpos
    rw [htoNat, hj] at htaken
    cases htaken
  have hreserved : ∀ p, ((k.consoles.set i ⟨UInt32.ofNat j, .addPcb size⟩).filterMap
      consoleReserves).count p = (reserved k).count p + (UInt32.ofNat j == p).toNat := fun p => by
    simpa [consoleReserves, hl] using count_reserved_set hs ⟨UInt32.ofNat j, .addPcb size⟩ p
  have hcreated : ∀ P, (created { k with
      pool := k.pool.set j true
      consoles := k.consoles.set i ⟨UInt32.ofNat j, .addPcb size⟩ }).countP P =
        (created k).countP P := fun P => by
    rw [countP_created, countP_created, Nat.add_left_cancel_iff]
    exact countP_holds_keep hs (by simp [consoleHolds, hl]) P
  have hsize : size = w.declared i := by
    have hses := h.sessions i s hs
    simp only [Session, hl] at hses
    exact hses.2
  refine ⟨fun a ha => ?_, h.pcbs, ?_, fun p => ?_, by simpa using h.pool, fun p hp => ?_,
    fun p => ?_, h.moved⟩
  · exact h.used a ((mem_congr_of_countP hcreated a).mp ha)
  · exact sessions_set h.sessions
      (fun _ _ _ _ hsj => hsj.mono (fun _ _ => rfl) (fun _ hm => hm) rfl rfl) hsize
  · have honce := h.once p
    show (List.filterMap _ _).count p + _ ≤ 1
    rw [hreserved]
    by_cases hp : UInt32.ofNat j = p
    · subst hp
      simp only [beq_self_eq_true, Bool.toNat_true]
      omega
    · rw [beq_eq_false_iff_ne.mpr hp]
      exact honce
  · change 0 < (List.filterMap _ _).count p + _ at hp
    rw [hreserved] at hp
    show (k.pool.set j true)[p.toNat]? = some true
    by_cases heq : UInt32.ofNat j = p
    · rw [← heq, htoNat, List.getElem?_set_self (by rw [h.pool]; exact hlt)]
    · have hne : j ≠ p.toNat := by
        rintro rfl
        exact heq (by simp)
      rw [List.getElem?_set_ne hne]
      rw [beq_eq_false_iff_ne.mpr heq] at hp
      exact h.taken p hp
  · rw [hcreated]
    exact h.places p

lemma Owned.addPcb (h : Owned k w) (hs : k.consoles[i]? = some s) {size : UInt32}
    {addr : Addr} {estimation : UInt32} (hl : s.pc = .addPcb size) (huse : k.inUse addr = false) :
    Owned { k with
      heap := fill k.heap addr (newPcb s.senderPid size estimation)
      inUse := setInUse k.inUse addr true
      pcbs := k.pcbs ++ [addr]
      consoles := k.consoles.set i ⟨s.senderPid, .receive⟩ }
      { w with made := w.made ++ [⟨i, s.senderPid, w.declared i⟩] } := by
  set k' : Kernel := { k with
    heap := fill k.heap addr (newPcb s.senderPid size estimation)
    inUse := setInUse k.inUse addr true
    pcbs := k.pcbs ++ [addr]
    consoles := k.consoles.set i ⟨s.senderPid, .receive⟩ } with hk'
  have hsize : size = w.declared i := by
    have hses := h.sessions i s hs
    simpa only [Session, hl] using hses
  have hne : ∀ a ∈ created k, a ≠ addr := by
    rintro a ha rfl
    rw [h.used a ha] at huse
    cases huse
  have hheap : ∀ a ∈ created k, k'.heap a = k.heap a := fun a ha => fill_of_ne _ (hne a ha)
  have hreserved : ∀ p, (reserved k').count p + (s.senderPid == p).toNat =
      (reserved k).count p := fun p => by
    have hset := count_reserved_set hs ⟨s.senderPid, .receive⟩ p
    simp only [consoleReserves, hl, Option.any_some, Option.any_none, Bool.toNat_false,
      Nat.add_zero] at hset
    exact hset
  have hmade : ∀ p, ((w.made ++ [(⟨i, s.senderPid, w.declared i⟩ : Made)]).map Made.pid).count p =
      (w.made.map Made.pid).count p + (s.senderPid == p).toNat := fun p => by
    rw [List.map_append, List.count_append, List.map_singleton, List.count_singleton]
    cases s.senderPid == p <;> rfl
  have hcreated : ∀ P, (created k').countP P = (created k).countP P + (P addr).toNat := fun P => by
    have hnone : consoleHolds ⟨s.senderPid, .receive⟩ = consoleHolds s := by
      simp [consoleHolds, hl]
    have hholds := countP_holds_keep hs hnone P
    rw [countP_created, countP_created, hk']
    dsimp only
    rw [hholds, List.countP_append, countP_cons_toNat, List.countP_nil]
    omega
  have hsub : ∀ m ∈ w.made, m ∈ w.made ++ [⟨i, s.senderPid, w.declared i⟩] :=
    fun m hm => List.mem_append_left _ hm
  refine ⟨fun a ha => ?_, fun a ha => ?_, ?_, fun p => ?_, h.pool, fun p hp => ?_, fun p => ?_,
    fun m hm => ⟨hsub _ (h.moved m hm).1, (h.moved m hm).2⟩⟩
  · show setInUse k.inUse addr true a = true
    by_cases heq : a = addr
    · rw [heq, setInUse_self]
    rw [setInUse_of_ne _ heq]
    refine h.used a ?_
    have hpos := List.count_pos_iff.mpr ha
    rw [List.count_eq_countP, hcreated, beq_eq_false_iff_ne.mpr (Ne.symm heq)] at hpos
    refine List.count_pos_iff.mp ?_
    rw [List.count_eq_countP]
    exact hpos
  · rcases List.mem_append.mp ha with ha | ha
    · obtain ⟨j, hj⟩ := h.pcbs a ha
      refine ⟨j, ?_⟩
      rw [Has, hheap a (List.mem_append_left _ ha)]
      exact hsub _ hj
    · obtain rfl := List.mem_singleton.mp ha
      refine ⟨i, List.mem_append_right _ ?_⟩
      rw [hk', List.mem_singleton]
      dsimp only
      rw [fill_self, newPcb, hsize]
  · refine sessions_set h.sessions (fun j s' _ hj hsj => ?_) (Or.inr (Or.inr ?_))
    · refine hsj.mono (fun a ha => ?_) hsub rfl rfl
      rw [hheap a (mem_created_of_holds hj ha)]
    · simp [makes]
  · have honce := h.once p
    have hr := hreserved p
    rw [hmade]
    omega
  · rw [hmade] at hp
    have hr := hreserved p
    exact h.taken p (by omega)
  · have hcongr : (created k).countP (hasId k'.heap p) = (created k).countP (hasId k.heap p) := by
      refine List.countP_congr fun a ha => ?_
      rw [hasId, hasId, hheap a ha]
    rw [hcreated, hcongr, hmade, ← h.places p]
    have hself : hasId k'.heap p addr = (s.senderPid == p) := by
      rw [hasId, hk']
      dsimp only
      rw [fill_self]
      rfl
    rw [hself]
    dsimp only
    omega

lemma Owned.pushNew (h : Owned k w) (hs : k.consoles[i]? = some s) {a : Addr}
    (hl : s.pc = .pushNew a) :
    Owned { k with
      new := k.new ++ [a]
      consoles := k.consoles.set i ⟨s.senderPid, .signalReqAdmit⟩ }
      { w with moved := w.moved ++ [⟨i, w.commanded i, k.heap a⟩] } := by
  set k' : Kernel := { k with
    new := k.new ++ [a]
    consoles := k.consoles.set i ⟨s.senderPid, .signalReqAdmit⟩ } with hk'
  have hses := h.sessions i s hs
  simp only [Session, hl] at hses
  have hreserved : ∀ p, (reserved k').count p = (reserved k).count p :=
    count_reserved_keep hs (by simp [consoleReserves, hl]) rfl
  have hcreated : ∀ P, (created k').countP P + (P a).toNat = (created k).countP P := fun P => by
    have hset := countP_holds_set hs ⟨s.senderPid, .signalReqAdmit⟩ P
    have hsome : consoleHolds s = some a := by simp [consoleHolds, hl]
    have hnone : consoleHolds ⟨s.senderPid, .signalReqAdmit⟩ = none := rfl
    simp only [hsome, hnone, Option.any_some, Option.any_none, Bool.toNat_false] at hset
    rw [countP_created, countP_created, hk']
    dsimp only
    omega
  refine ⟨fun b hb => ?_, h.pcbs, ?_, fun p => ?_, h.pool, fun p hp => ?_, fun p => ?_,
    fun m hm => ?_⟩
  · refine h.used b (List.count_pos_iff.mp ?_)
    have hpos := List.count_pos_iff.mpr hb
    have hc := hcreated (· == b)
    rw [List.count_eq_countP] at hpos ⊢
    omega
  · exact sessions_set h.sessions
      (fun _ _ _ _ hsj => hsj.mono (fun _ _ => rfl) (fun _ hm => hm) rfl rfl) hses.1
  · rw [hreserved]
    exact h.once p
  · rw [hreserved] at hp
    exact h.taken p hp
  · have hc := hcreated (hasId k.heap p)
    have hplaces := h.places p
    rw [List.map_append, List.count_append, List.map_singleton, List.count_singleton]
    show (created k').countP (hasId k.heap p) + _ = _
    have hself : (if ((k.heap a).id == p) = true then 1 else 0) = (hasId k.heap p a).toNat := by
      rw [hasId]
      cases (k.heap a).id == p <;> rfl
    dsimp only
    rw [hself]
    omega
  · rcases List.mem_append.mp hm with hm | hm
    · exact h.moved m hm
    · rw [List.mem_singleton.mp hm]
      exact hses.2

lemma Owned.console (h : Owned k w) (hs : k.consoles[i]? = some s) (hm : ConsoleMove c k i s k')
    (hreceive : s.pc ≠ .receive) {addr : Addr} (hcond : OwnCommand k w (.console i addr)) :
    Owned k' (noteConsole k i s w) := by
  have hses := h.sessions i s hs
  cases hm with
  | newProcess hl | cmd hl | other hl => exact absurd hl hreceive
  | getPidLibre hl hj =>
    simp only [noteConsole, hl]
    exact h.getPidLibre hs hl hj
  | getPidLibreNone hl hget hpid =>
    simp only [noteConsole, hl]
    rw [Conservation.pool_of_undefined h.pool hget hpid]
    exact h.goTo hs rfl rfl (by simp [consoleReserves, consoleHolds, hl]) rfl rfl (fun _ _ => rfl)
      (fun _ _ => rfl) (.inr (.inl hpid))
  | addPcb hl huse =>
    simp only [noteConsole, hl]
    exact h.addPcb hs hl huse
  | getPcbByPidNone hl =>
    simp only [noteConsole, hl]
    simp only [Session, hl] at hses
    exact h.goTo hs rfl rfl (by simp [consoleReserves, consoleHolds, hl]) rfl rfl (fun _ _ => rfl)
      (fun _ _ => rfl) hses.1
  | @getPcbByPid instructions a before behind hl hq hid =>
    have ha : a ∈ k.pcbs := by simp [hq]
    have hhas := h.has_of_found hs (by simp [commands, hl]) hcond ha hid
    simp only [noteConsole, hl]
    simp only [Session, hl] at hses
    refine h.goOn rfl rfl rfl (fun b hb => ?_) ?_ (fun P => ?_) (fun _ => ⟨rfl, rfl⟩) rfl rfl
      (fun j s _ _ hsj => hsj.mono (fun _ _ => rfl) (fun _ hm => hm) rfl rfl) ⟨hses.1, hhas, hses.2⟩
    · rw [hq]
      exact List.mem_append.mpr ((List.mem_append.mp hb).imp id (List.mem_cons_of_mem _))
    · exact count_reserved_keep hs (by simp [consoleReserves, hl]) rfl
    · have hset := countP_holds_set hs ⟨s.senderPid, .setInstructions a instructions⟩ P
      have hnone : consoleHolds s = none := by simp [consoleHolds, hl]
      have hsome : consoleHolds ⟨s.senderPid, .setInstructions a instructions⟩ = some a := rfl
      simp only [hsome, hnone, Option.any_some, Option.any_none, Bool.toNat_false] at hset
      rw [countP_created, countP_created, hq]
      simp only [List.countP_append, countP_cons_toNat]
      omega
  | @setInstructions a instructions hl =>
    simp only [noteConsole, hl]
    simp only [Session, hl] at hses
    have hkeeps : ∀ b, ((modify k.heap a fun pcb => { pcb with instructions }) b).id =
        (k.heap b).id ∧ ((modify k.heap a fun pcb => { pcb with instructions }) b).size =
          (k.heap b).size := fun b =>
      ⟨modify_field Pcb.id (by intro; rfl) b, modify_field Pcb.size (by intro; rfl) b⟩
    refine h.goOn rfl rfl rfl (fun _ hb => hb) ?_ (fun P => ?_) hkeeps rfl rfl
      (fun j s' hj hs' hsj => ?_) ⟨hses.1, ?_, ?_⟩
    · exact count_reserved_keep hs (by simp [consoleReserves, hl]) rfl
    · rw [countP_created, countP_created, Nat.add_left_cancel_iff]
      exact countP_holds_keep hs (by simp [consoleHolds, hl]) P
    · -- no other handler has this block
      refine hsj.mono (fun b hb => ?_) (fun _ hm => hm) rfl rfl
      have hne : b ≠ a := by
        rintro rfl
        have hhas : Has k w j b := by
          unfold Session at hsj
          unfold consoleHolds at hb
          cases hpc : s'.pc <;> simp only [hpc, Option.some.injEq, reduceCtorEq] at hb hsj
          all_goals exact hb ▸ hsj.2.1
        exact hj (congrArg Made.client (h.made_inj hhas hses.2.1 rfl))
      dsimp only
      rw [modify_of_ne _ hne]
    · rw [Has, (hkeeps a).1, (hkeeps a).2]
      exact hses.2.1
    · simpa [Scheduler.modify] using hses.2.2
  | pushNew hl =>
    simp only [noteConsole, hl]
    exact h.pushNew hs hl
  | signalReqAdmit hl =>
    simp only [noteConsole, hl]
    simp only [Session, hl] at hses
    have hgo : Owned { k with consoles := k.consoles.set i ⟨s.senderPid, .receive⟩ } w :=
      h.goTo hs rfl rfl (by simp [consoleReserves, consoleHolds, hl]) rfl rfl (fun _ _ => rfl)
        (fun _ _ => rfl) hses
    exact hgo.elsewhere ⟨rfl, rfl, rfl, fun _ _ ha => ha, fun _ _ => rfl⟩

lemma Owned.connect (h : Owned k w) :
    Owned { k with consoles := k.consoles ++ [⟨0, .receive⟩] } w := by
  have hreserved : reserved { k with consoles := k.consoles ++ [⟨0, .receive⟩] } = reserved k := by
    rw [reserved, List.filterMap_append]
    exact List.append_nil _
  have hcreated : created { k with consoles := k.consoles ++ [⟨0, .receive⟩] } = created k := by
    rw [created, List.filterMap_append]
    exact congrArg _ (List.append_nil _)
  refine ⟨?_, h.pcbs, fun i s hs => ?_, ?_, h.pool, ?_, ?_, h.moved⟩
  · rw [hcreated]
    exact h.used
  · rcases Nat.lt_or_ge i k.consoles.length with hi | hi
    · rw [List.getElem?_append_left hi] at hs
      exact (h.sessions i s hs).mono (fun _ _ => rfl) (fun _ hm => hm) rfl rfl
    · rw [List.getElem?_append_right hi] at hs
      obtain rfl := List.mem_singleton.mp (List.mem_of_getElem? hs)
      exact Or.inl rfl
  · rw [hreserved]
    exact h.once
  · rw [hreserved]
    exact h.taken
  · rw [hcreated]
    exact h.places

lemma Owned.step {e : Event} (h : Owned k w) (hcond : OwnCommand k w e)
    (hstep : Threads.step c k e = some k') : Owned k' (note k e w) := by
  cases e with
  | connect =>
    cases hstep
    exact h.connect
  | message i m => exact h.message hstep
  | console i addr =>
    obtain ⟨s, hs, hm⟩ := consoleMove hstep
    have hreceive : s.pc ≠ .receive := by
      intro hl
      obtain ⟨pid, pc⟩ := s
      obtain rfl : pc = .receive := hl
      simp [Threads.step, consoleStep, hs] at hstep
    simpa [note, hs] using h.console hs hm hreceive hcond
  | lts memory => exact h.elsewhere (elsewhere_lts (ltsMove hstep))
  | sts o => exact h.elsewhere (elsewhere_sts (stsMove hstep) hcond)
  | io => exact h.elsewhere (elsewhere_io (ioMove hstep))
  | mts i =>
    obtain ⟨t, -, hm⟩ := mtsMove hstep
    exact h.elsewhere (elsewhere_mts hm)
  | scribble a pcb =>
    simp only [Threads.step] at hstep
    split at hstep
    · cases hstep
    · next huse =>
      cases hstep
      exact h.elsewhere (elsewhere_scribble (by simpa using huse))

lemma step_of_not_found {addr : Addr} (hs : k.consoles[i]? = some s) (hc : commands s = true)
    (hnone : ∀ a ∈ k.pcbs, (k.heap a).id ≠ s.senderPid) :
    Threads.step c k (.console i addr) =
      some { k with consoles := k.consoles.set i ⟨s.senderPid, .receive⟩ } := by
  obtain ⟨pid, pc⟩ := s
  have hfind : (k.pcbs.find? fun a => (k.heap a).id == pid) = none :=
    List.find?_eq_none.mpr fun a ha => by simpa using hnone a ha
  cases pc with
  | getPcbByPid instructions => simp [Threads.step, consoleStep, hs, pcbRemoveById, hfind]
  | _ => cases hc

lemma Owned.separate (h : Owned k w) : Separate c k w where
  moved := h.moved
  made := List.nodup_iff_count_le_one.mpr fun p => by
    have honce := h.once p
    omega
  once := List.nodup_iff_count_le_one.mpr fun p => by
    have honce := h.once p
    have hplaces := h.places p
    omega
  silent := fun i s addr hs hc hpending hcond => by
    refine step_of_not_found hs hc fun a ha hid => ?_
    have hhas := h.has_of_found hs hc hcond ha hid
    have hmakes : makes w i (k.heap a).id = true := List.any_eq_true.mpr ⟨_, hhas, by simp⟩
    have hsome : pending k w i = true := List.any_eq_true.mpr ⟨a, ha, hmakes⟩
    rw [hpending] at hsome
    cases hsome

/-- **Main result.** In every run in which no client commands process 0 without having made it,
and no block is destroyed on its way to NEW, the sessions are separate. -/
theorem separate_of_ownCommand (c : Cfg) (heap : Heap) (es : List Event) (k : Kernel)
    (w : Sessions) (hrun : run (stepS c) (initKernel c heap, noSessions) es = some (k, w))
    (hcond : Meets (stepS c) (fun x e => OwnCommand x.1 x.2 e) (initKernel c heap, noSessions) es) :
    Separate c k w := by
  refine (hcond.inv (I := fun x => Owned x.1 x.2) (fun x e x' hx hc hs => ?_) (owned_init heap)
    hrun).separate
  obtain ⟨hs, hw⟩ := watched_eq_some.mp hs
  exact hw ▸ hx.step hc hs

set_option maxRecDepth 40000 in
/-- Two consoles make and command a process each; the second one has nothing to command when it
does so again. -/
theorem separate_of_ownCommand_two : ∃ k w,
    run (stepS srtCfg) (initKernel srtCfg zeroHeap, noSessions)
        (spawn 0 1 ++ spawn 1 2 ++ [.message 1 (.cmd []), .console 1 0]) = some (k, w) ∧
      k.new = [1, 2] ∧ Separate srtCfg k w := by
  refine ⟨_, _, rfl, by decide, ?_⟩
  exact separate_of_ownCommand srtCfg zeroHeap
    (spawn 0 1 ++ spawn 1 2 ++ [.message 1 (.cmd []), .console 1 0]) _ _ rfl (by decide +kernel)

set_option maxRecDepth 40000 in
/-- A client makes process 0, and another one commands it without having made any. -/
theorem not_separate : ¬ ∀ (c : Cfg) (heap : Heap) (es : List Event) (k : Kernel) (w : Sessions),
    run (stepS c) (initKernel c heap, noSessions) es = some (k, w) → Separate c k w := by
  intro hall
  have hsep := hall srtCfg zeroHeap ([.connect, .connect, .message 0 (.newProcess 16), .console 0 1,
    .console 0 1, .message 1 (.cmd [⟨.exit, 0, 0⟩])] ++ List.replicate 3 (.console 1 0)) _ _ rfl
  have hmoved := hsep.moved
    ⟨1, [⟨.exit, 0, 0⟩], ⟨0, .none, 16, [⟨.exit, 0, 0⟩], uint32Max, 10, 0, 0, 0⟩⟩ (by decide)
  revert hmoved
  decide

end Sski.Scheduling.Sessions
