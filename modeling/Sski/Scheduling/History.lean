import Sski.Lib.Runs
import Sski.Scheduling.Moves

/-!
What has happened in a run, as far as the claims about processes speak of it: which are live,
how often each was blocked, retrieved for I/O, and through with it, and which block started
which tracker.

No thread reads any of this; the step of a kernel with its history is the step of the kernel.
-/

namespace Sski.Scheduling.History

open Sski.Lib.Runs Sski.Scheduling.Scheduler Sski.Scheduling.Threads Sski.Scheduling.Moves

structure History where
  /-- The processes that were pushed to NEW, and not destroyed. -/
  live : List UInt32
  /-- How often `block` pushed the process. -/
  blocks : UInt32 → ℕ
  /-- How often the I/O thread retrieved it. -/
  served : UInt32 → ℕ
  /-- How often it has left the blocked state, when the I/O thread decided where it goes. -/
  finished : UInt32 → ℕ
  /-- How often the I/O thread retrieved nothing. -/
  missed : ℕ
  /-- For each tracker the process and the number of the block that started it. -/
  episodes : List (UInt32 × ℕ)
  /-- A tracker has suspended the process that does I/O. -/
  suspendedIo : Bool

def noHistory : History := ⟨[], fun _ => 0, fun _ => 0, fun _ => 0, 0, [], false⟩

def bump (f : UInt32 → ℕ) (pid : UInt32) : UInt32 → ℕ := fun p => if p = pid then f p + 1 else f p

lemma bump_eq (f : UInt32 → ℕ) (pid p : UInt32) : bump f pid p = f p + (pid == p).toNat := by
  by_cases h : p = pid
  · simp [bump, h]
  · rw [bump, if_neg h, beq_eq_false_iff_ne.mpr (Ne.symm h)]
    rfl

def History.retrieved (h : History) (pid : UInt32) : History :=
  { h with served := bump h.served pid, suspendedIo := false }

variable (k : Kernel)

/-! ### What a step adds -/

def noteConsole (s : Console) (h : History) : History :=
  match s.pc with
  | .pushNew a => { h with live := (k.heap a).id :: h.live }
  | _ => h

def noteSts (h : History) : History :=
  match k.sts with
  | .pushBlocked a => { h with blocks := bump h.blocks (k.heap a).id }
  | .notifyMts a =>
    { h with episodes := h.episodes ++ [((k.heap a).id, h.blocks (k.heap a).id)] }
  | .destroyPcb a _ => { h with live := h.live.erase (k.heap a).id }
  | _ => h

/-- The block that leaves the blocked state when the I/O thread goes on, for READY or for
SUSPENDED READY. -/
def decided : Option Addr :=
  match k.io with
  | .switchStatus a => if (k.heap a).status = .suspendedBlocked then none else some a
  | .existsBlockedSus a => some a
  | _ => none

def noteIo (h : History) : History :=
  match k.io with
  | .popBlockedSus =>
    match k.blockedSus with
    | a :: _ => h.retrieved (k.heap a).id
    | [] => h
  | .popBlocked =>
    match k.blocked with
    | a :: _ => h.retrieved (k.heap a).id
    | [] => { h with missed := h.missed + 1 }
  | _ =>
    match decided k with
    | some a => { h with finished := bump h.finished (k.heap a).id }
    | none => h

def noteMts (t : Tracker) (h : History) : History :=
  match t.pc, t.removed with
  | .pushBlockedSus, none => { h with suspendedIo := true }
  | _, _ => h

def note : Event → History → History
  | .console i _, h =>
    match k.consoles[i]? with
    | some s => noteConsole k s h
    | none => h
  | .sts _, h => noteSts k h
  | .io, h => noteIo k h
  | .mts i, h =>
    match k.trackers[i]? with
    | some t => noteMts t h
    | none => h
  | _, h => h

variable (c : Cfg)

def stepH (s : Kernel × History) (e : Event) : Option (Kernel × History) :=
  (step c s.1 e).map fun k => (k, note s.1 e s.2)

def initH (heap : Heap) : Kernel × History := (initKernel c heap, noHistory)

variable {c k} {h : History} {s s' : Kernel × History}

lemma stepH_eq_some {e : Event} : stepH c s e = some s' ↔
    step c s.1 e = some s'.1 ∧ s'.2 = note s.1 e s.2 :=
  watched_eq_some

/-- Every run of the kernel is one with a history. -/
theorem run_stepH {es : List Event} {k k' : Kernel} (h : History)
    (hrun : run (step c) k es = some k') : ∃ h', run (stepH c) (k, h) es = some (k', h') :=
  run_watched note h hrun

/-- What a thread can do, and what that adds to the history. -/
inductive MoveH (c : Cfg) (k : Kernel) (h : History) : Event → Kernel × History → Prop where
  | connect : MoveH c k h .connect ({ k with consoles := k.consoles ++ [⟨0, .receive⟩] }, h)
  | console {e i s} {k' : Kernel} : k.consoles[i]? = some s → ConsoleMove c k i s k' →
      MoveH c k h e (k', noteConsole k s h)
  | lts {memory} {k' : Kernel} : LtsMove c k k' → MoveH c k h (.lts memory) (k', h)
  | sts {o} {k' : Kernel} : StsMove c k k' → MoveH c k h (.sts o) (k', noteSts k h)
  | io {k' : Kernel} : IoMove c k k' → MoveH c k h .io (k', noteIo k h)
  | mts {i t} {k' : Kernel} : k.trackers[i]? = some t → MtsMove k i t k' →
      MoveH c k h (.mts i) (k', noteMts t h)
  | scribble {a pcb} : k.inUse a = false →
      MoveH c k h (.scribble a pcb) ({ k with heap := fill k.heap a pcb }, h)

theorem moveH {e : Event} (hstep : stepH c (k, h) e = some s') : MoveH c k h e s' := by
  obtain ⟨hk, hh⟩ := stepH_eq_some.mp hstep
  obtain ⟨k', h'⟩ := s'
  obtain rfl : h' = note k e h := hh
  cases e with
  | connect =>
    cases hk
    exact .connect
  | message i m =>
    obtain ⟨s, hs, hpc, hm⟩ := routineMove (c := c) hk
    have hnote : note k (.message i m) h = noteConsole k s h := by simp [note, noteConsole, hpc]
    exact hnote ▸ .console hs hm
  | console i addr =>
    obtain ⟨s, hs, hm⟩ := consoleMove hk
    have hnote : note k (.console i addr) h = noteConsole k s h := by simp [note, hs]
    exact hnote ▸ .console hs hm
  | lts memory => exact .lts (ltsMove hk)
  | sts o => exact .sts (stsMove hk)
  | io => exact .io (ioMove hk)
  | mts i =>
    obtain ⟨t, ht, hm⟩ := mtsMove hk
    have hnote : note k (.mts i) h = noteMts t h := by simp [note, ht]
    exact hnote ▸ .mts ht hm
  | scribble a pcb =>
    simp only [step] at hk
    split at hk
    · cases hk
    next huse =>
    cases hk
    exact .scribble (by simpa using huse)

end Sski.Scheduling.History
