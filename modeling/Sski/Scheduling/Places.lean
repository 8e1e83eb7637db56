import Sski.Lib.Counting
import Sski.Scheduling.History

/-!
The places a block can be in, and the steps that only move blocks from one to another.

A block is in a queue, or a thread holds it on the way between two. While a process is on the
CPU there is no block, only what was sent. A tracker that suspends the process that does I/O
pushes a block that is not its own; such an extra entry is not a place.
-/

namespace Sski.Scheduling.Places

open Sski.Lib.Runs Sski.Lib.Counting Sski.Scheduling.Scheduler Sski.Scheduling.Threads
open Sski.Scheduling.Moves Sski.Scheduling.History

/-! ### What the threads hold -/

def ltsHolds : Lts → Option Addr
  | .requestPageTable pcb | .setReady pcb => pcb
  | .checkInterruption a | .sendInterrupt a | .pushReady a => some a
  | _ => none

/-- The block the short-term scheduler has, from a pop or from the CPU. -/
def stsHolds : Sts → Option Addr
  | .setExecuting a | .setCurrentEstimation a | .sendPcb a | .destroySent a | .setReal a _
  | .clearCurrentEstimation a _ | .switchStatus a _ | .setIo a _ | .reSchedule a | .pushBlocked a
  | .exitProcess a _ | .destroyPcb a _ | .preEmpt a | .pushReady a => some a
  | _ => none

def ioHolds : Io → Option Addr
  | .setCurrentIo a | .sleep a | .switchStatus a | .existsBlockedSus a | .removeBlockedSus a
  | .setSuspendedReady a | .pushReadySus a | .setReady a | .pushReady a => some a
  | _ => none

/-- The block that is blocked or suspended while it is served: the I/O thread has not decided
yet where it goes. -/
def ioServes : Io → Option Addr
  | .setCurrentIo a | .sleep a | .switchStatus a | .existsBlockedSus a => some a
  | _ => none

def ioPushes : Io → Option Addr
  | .setSuspendedReady a | .pushReadySus a | .setReady a | .pushReady a => some a
  | _ => none

def consoleHolds (s : Console) : Option Addr :=
  match s.pc with
  | .setInstructions a _ | .pushNew a => some a
  | _ => none

def consoleReserves (s : Console) : Option UInt32 :=
  match s.pc with
  | .addPcb _ => some s.senderPid
  | _ => none

def suspending (t : Tracker) : Bool :=
  match t.pc with
  | .signalDom | .setSuspendedBlocked | .pushBlockedSus => true
  | _ => false

def trackerHolds (t : Tracker) : Option Addr := if suspending t then t.removed else none

/-- The block a tracker suspends without having removed it. -/
def trackerExtra (t : Tracker) : Option Addr :=
  if suspending t then (match t.removed with | none => some t.pcb | some _ => none) else none

/-! ### Places -/

/-- Where an admitted process can be; `admission`, `execution` and `suspension` are on the way
between two queues, `execution` includes the CPU. -/
inductive Place
  | new | admission | ready | execution | blocked | suspension | blockedSus | io | readySus
  deriving DecidableEq, Repr

def places : List Place :=
  [.new, .admission, .ready, .execution, .blocked, .suspension, .blockedSus, .io, .readySus]

lemma mem_places (x : Place) : x ∈ places := by
  cases x <;> decide

/-- The entries of SUSPENDED BLOCKED whose process does not do I/O. -/
def waitingSus (k : Kernel) : List Addr := k.blockedSus.filter fun a => ioHolds k.io != some a

def blocksAt (k : Kernel) : Place → List Addr
  | .new => k.new
  | .admission => (ltsHolds k.lts).toList
  | .ready => k.ready
  | .execution => (stsHolds k.sts).toList
  | .blocked => k.blocked
  | .suspension => k.trackers.filterMap trackerHolds
  | .blockedSus => waitingSus k
  | .io => (ioHolds k.io).toList
  | .readySus => k.readySus

/-- The blocks of processes that were pushed to NEW. -/
def admitted (k : Kernel) : List Addr := places.flatMap (blocksAt k)

/-- The blocks of processes that were not pushed to NEW yet. -/
def created (k : Kernel) : List Addr := k.pcbs ++ k.consoles.filterMap consoleHolds

/-- The process on the CPU, once its block is destroyed. -/
def away (k : Kernel) : List UInt32 := if k.sts = .receivePcb then (k.cpu.map Pcb.id).toList else []

def reserved (k : Kernel) : List UInt32 := k.consoles.filterMap consoleReserves

def hasId (heap : Heap) (p : UInt32) (a : Addr) : Bool := (heap a).id == p

variable {c : Cfg} {k k' : Kernel}

lemma countP_admitted (k : Kernel) (P : Addr → Bool) : (admitted k).countP P =
    k.new.countP P + ((ltsHolds k.lts).any P).toNat + k.ready.countP P +
      ((stsHolds k.sts).any P).toNat + k.blocked.countP P +
      k.trackers.countP (fun t => (trackerHolds t).any P) + (waitingSus k).countP P +
      ((ioHolds k.io).any P).toNat + k.readySus.countP P := by
  simp only [admitted, places, blocksAt, List.flatMap_cons, List.flatMap_nil, List.append_nil,
    List.countP_append, countP_toList, countP_filterMap_any]
  omega

lemma countP_created (k : Kernel) (P : Addr → Bool) : (created k).countP P =
    k.pcbs.countP P + k.consoles.countP (fun s => (consoleHolds s).any P) := by
  simp only [created, List.countP_append, countP_filterMap_any]

lemma waitingSus_of_none (h : ioHolds k.io = none) : waitingSus k = k.blockedSus := by
  simp [waitingSus, h]

lemma filter_ne_of_notMem {queue : List Addr} {a : Addr} (h : a ∉ queue) :
    queue.filter (fun b => some a != some b) = queue := by
  refine List.filter_eq_self.mpr fun b hb => ?_
  simpa using fun heq : a = b => h (heq ▸ hb)

/-! ### Steps that only move blocks -/

/-- A step that moves blocks, and makes or destroys none. -/
structure Shuffled (k k' : Kernel) : Prop where
  id : ∀ a, (k'.heap a).id = (k.heap a).id
  inUse : k'.inUse = k.inUse
  pool : k'.pool = k.pool
  reserved : ∀ p, (reserved k').count p = (reserved k).count p
  created : ∀ P, (created k').countP P = (created k).countP P
  admitted : ∀ P, (admitted k').countP P = (admitted k).countP P
  away : away k' = away k

/-- The long-term scheduler only moves blocks. -/
lemma shuffled_lts (h : LtsMove c k k') : Shuffled k k' := by
  refine ⟨fun a => ?id, ?_, ?_, ?_, ?_, fun P => ?admitted, ?_⟩
  case id =>
    cases h with
    | pageTable => exact modify_field Pcb.id (by intro; rfl) a
    | setReady => exact setStatus_id _ _ _ _
    | _ => rfl
  case admitted =>
    rw [countP_admitted, countP_admitted]
    cases h with
    | resume hl hq | popNew hl hq =>
      simp [hl, hq, ltsHolds, waitingSus, countP_cons_toNat] <;> omega
    | pushReady hl =>
      simp [hl, ltsHolds, waitingSus, countP_cons_toNat]
      omega
    | waitReqAdmit hl | waitDom hl | resumeNone hl | popNewNone hl | noPageTable hl | pageTable hl
    | setReadyNone hl | setReady hl | raises hl | raisesNot hl | sendInterrupt hl
    | signalExecute hl => simp [hl, ltsHolds, waitingSus]
  all_goals cases h <;> first | rfl | exact fun _ => rfl

lemma countP_sortByEstimation (heap : Heap) (queue : List Addr) (P : Addr → Bool) :
    (sortByEstimation heap queue).countP P = queue.countP P :=
  (List.perm_insertionSort _ queue).countP_eq P

/-- So does the short-term scheduler, but for the blocks it gives up and gets. -/
lemma shuffled_sts (h : StsMove c k k') (hsent : ∀ a, k.sts ≠ .destroySent a)
    (hreceive : k.sts ≠ .receivePcb) (hdestroy : ∀ a sent, k.sts ≠ .destroyPcb a sent) :
    Shuffled k k' := by
  refine ⟨fun a => ?id, ?_, ?_, ?_, ?_, fun P => ?admitted, ?away⟩
  case id =>
    cases h with
    | setExecuting => exact setStatus_id _ _ _ _
    | setReal | setIo | reSchedule | preEmpt => exact modify_field Pcb.id (by intro; rfl) a
    | receivePcb hl => exact absurd hl hreceive
    | _ => rfl
  case admitted =>
    rw [countP_admitted, countP_admitted]
    cases h with
    | popReady hl hq =>
      simp [hl, hq, stsHolds, waitingSus, countP_cons_toNat]
      omega
    | pushReady hl | pushBlocked hl =>
      simp [hl, stsHolds, waitingSus, countP_cons_toNat]
      omega
    | sortReady hl => simp [hl, stsHolds, waitingSus, countP_sortByEstimation]
    | notifyMts hl => simp [hl, stsHolds, waitingSus, trackerHolds, suspending]
    | waitExecute hl hn hnext =>
      rcases hnext with ⟨-, rfl⟩ | ⟨-, rfl⟩ <;> simp [hl, stsHolds, waitingSus]
    | signalDom hl hsts =>
      rcases hsts with rfl | rfl <;> simp [hl, stsHolds, waitingSus]
    | destroySent hl => exact absurd hl (hsent _)
    | receivePcb hl => exact absurd hl hreceive
    | destroyPcb hl => exact absurd hl (hdestroy _ _)
    | popReadyNone hl | setExecuting hl | setCurrentEstimation hl | sendPcb hl | sendPcbFailed hl
    | setReal hl | clearCurrentEstimation hl | switchBlocked hl | switchReady hl | switchExit hl
    | setIo hl | reSchedule hl | signalIoRequest hl | exitProcess hl | preEmpt hl
    | signalExecute hl => simp [hl, stsHolds, waitingSus]
  case away =>
    cases h with
    | waitExecute hl hn hnext => rcases hnext with ⟨-, rfl⟩ | ⟨-, rfl⟩ <;> simp [away, hl]
    | signalDom hl hsts => rcases hsts with rfl | rfl <;> simp [away, hl]
    | destroySent hl => exact absurd hl (hsent _)
    | receivePcb hl => exact absurd hl hreceive
    | _ => simp_all [away]
  all_goals
    cases h with
    | destroySent hl => exact absurd hl (hsent _)
    | receivePcb hl => exact absurd hl hreceive
    | destroyPcb hl => exact absurd hl (hdestroy _ _)
    | _ => first | rfl | exact fun _ => rfl

/-! ### A console goes on -/

section Consoles

variable {i : ℕ} {s : Console}

lemma count_reserved_set (hs : k.consoles[i]? = some s) (s' : Console) (p : UInt32) :
    ((k.consoles.set i s').filterMap consoleReserves).count p +
        ((consoleReserves s).any (· == p)).toNat =
      (reserved k).count p + ((consoleReserves s').any (· == p)).toNat := by
  simp only [reserved, List.count_eq_countP, countP_filterMap_any]
  exact countP_set_toNat s' hs

lemma countP_holds_set (hs : k.consoles[i]? = some s) (s' : Console) (P : Addr → Bool) :
    ((k.consoles.set i s').countP fun s => (consoleHolds s).any P) +
        ((consoleHolds s).any P).toNat =
      (k.consoles.countP fun s => (consoleHolds s).any P) + ((consoleHolds s').any P).toNat :=
  countP_set_toNat s' hs

lemma count_reserved_keep (hs : k.consoles[i]? = some s) {s' : Console}
    (h : consoleReserves s = none) (h' : consoleReserves s' = none) (p : UInt32) :
    ((k.consoles.set i s').filterMap consoleReserves).count p = (reserved k).count p := by
  simpa [h, h'] using count_reserved_set hs s' p

lemma countP_holds_keep (hs : k.consoles[i]? = some s) {s' : Console}
    (h : consoleHolds s' = consoleHolds s) (P : Addr → Bool) :
    ((k.consoles.set i s').countP fun s => (consoleHolds s).any P) =
      k.consoles.countP fun s => (consoleHolds s).any P := by
  simpa [h] using countP_holds_set hs s' P

lemma shuffled_console (hs : k.consoles[i]? = some s) (h : ConsoleMove c k i s k')
    (hget : ∀ size, s.pc ≠ .getPidLibre size) (hadd : ∀ size, s.pc ≠ .addPcb size)
    (hpush : ∀ a, s.pc ≠ .pushNew a) : Shuffled k k' := by
  refine ⟨fun a => ?id, ?_, ?_, fun p => ?reserved, fun P => ?created, fun P => ?_, ?_⟩
  case id =>
    cases h with
    | setInstructions => exact modify_field Pcb.id (by intro; rfl) a
    | addPcb hl => exact absurd hl (hadd _)
    | _ => rfl
  case reserved =>
    cases h with
    | getPidLibre hl | getPidLibreNone hl => exact absurd hl (hget _)
    | addPcb hl => exact absurd hl (hadd _)
    | pushNew hl => exact absurd hl (hpush _)
    | other => rfl
    | newProcess hl | cmd hl | getPcbByPidNone hl | getPcbByPid hl | setInstructions hl
    | signalReqAdmit hl => exact count_reserved_keep hs (by simp [consoleReserves, hl]) rfl p
  case created =>
    rw [countP_created, countP_created]
    cases h with
    | getPidLibre hl | getPidLibreNone hl => exact absurd hl (hget _)
    | addPcb hl => exact absurd hl (hadd _)
    | pushNew hl => exact absurd hl (hpush _)
    | other => rfl
    | @getPcbByPid instructions a before behind hl hq =>
      have hset := countP_holds_set hs ⟨s.senderPid, .setInstructions a instructions⟩ P
      have hnone : consoleHolds s = none := by simp [consoleHolds, hl]
      have hsome : consoleHolds ⟨s.senderPid, .setInstructions a instructions⟩ = some a := rfl
      simp only [hnone, hsome, Option.any_none, Option.any_some, Bool.toNat_false] at hset
      simp only [hq, List.countP_append, countP_cons_toNat]
      omega
    | newProcess hl | cmd hl | getPcbByPidNone hl | signalReqAdmit hl | setInstructions hl =>
      rw [Nat.add_left_cancel_iff]
      exact countP_holds_keep hs (by simp [consoleHolds, hl]) P
  all_goals
    cases h with
    | getPidLibre hl | getPidLibreNone hl => exact absurd hl (hget _)
    | addPcb hl => exact absurd hl (hadd _)
    | pushNew hl => exact absurd hl (hpush _)
    | _ => rfl

end Consoles

end Sski.Scheduling.Places
