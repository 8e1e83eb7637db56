import Sski.Lib.Counting
import Sski.Lib.Runs
import Sski.Scheduling.Moves

/-!
The semaphores `req_admit` and `execute` against the queues they stand for.

Every thread signals after it has pushed, and waits before it pops. So a queue never holds more
than the semaphore, the signals that are still owed, and the tokens that were just taken; and
this is so whatever the trackers do.
-/

namespace Sski.Scheduling.Tokens

open Sski.Lib.Runs Sski.Lib.Counting Sski.Scheduling.Scheduler Sski.Scheduling.Threads
open Sski.Scheduling.Moves

/-- The long-term scheduler has pushed to READY and has not signalled yet. -/
def owesExecuteLts : Lts → ℕ
  | .signalExecute (some _) => 1
  | _ => 0

def owesExecuteIo : Io → ℕ
  | .checkInterruption _ | .sendInterrupt _ | .signalExecute => 1
  | _ => 0

/-- The short-term scheduler is about to pop, or about to signal. -/
def executeSts : Sts → ℕ
  | .sortReady | .popReady | .signalExecute => 1
  | _ => 0

/-- The long-term scheduler has a request and has not popped a block for it yet. -/
def admitting : Lts → ℕ
  | .waitDom | .resume | .popNew => 1
  | _ => 0

def owesReqAdmitIo : Io → ℕ
  | .signalReqAdmit => 1
  | _ => 0

def owesReqAdmit (s : Console) : Bool := decide (s.pc = .signalReqAdmit)

/-- The long-term scheduler has popped nothing. -/
def admitsNull : Lts → Bool
  | .requestPageTable none | .setReady none | .signalExecute none => true
  | _ => false

structure Tokens (k : Kernel) : Prop where
  execute : k.ready.length ≤
    k.execute + owesExecuteLts k.lts + executeSts k.sts + owesExecuteIo k.io
  reqAdmit : k.new.length + k.readySus.length =
    k.reqAdmit + admitting k.lts + owesReqAdmitIo k.io + k.consoles.countP owesReqAdmit
  popNew : k.lts = .popNew → k.new ≠ []
  admits : admitsNull k.lts = false

variable {c : Cfg} {k k' : Kernel}

lemma tokens_init (heap : Heap) : Tokens (initKernel c heap) := by
  refine ⟨?_, ?_, ?_, rfl⟩ <;> simp [initKernel, admitting, owesReqAdmitIo]

lemma Tokens.lts (hk : Tokens k) (h : LtsMove c k k') : Tokens k' := by
  obtain ⟨hexec, hreq, hpop, hnull⟩ := hk
  cases h with
  | resumeNone hl hq =>
    -- nobody is to be resumed, so the request stands for a new process
    refine ⟨by simpa [hl, owesExecuteLts] using hexec, ?_, fun _ hnew => ?_, rfl⟩
    · simpa [hl, admitting] using hreq
    · rw [hl, hq, show k.new = [] from hnew] at hreq
      simp only [List.length_nil, admitting] at hreq
      omega
  | popNewNone hl hq => exact absurd hq (hpop hl)
  | setReadyNone hl => simp [hl, admitsNull] at hnull
  | noPageTable hl | signalExecute hl =>
    rename_i pcb
    cases pcb with
    | none => simp [hl, admitsNull] at hnull
    | some a =>
      refine ⟨?_, ?_, by simp, rfl⟩ <;>
      simp_all [owesExecuteLts, admitting]
  | waitReqAdmit | waitDom | resume | popNew | pageTable | setReady | raises | raisesNot
  | sendInterrupt | pushReady =>
    refine ⟨?_, ?_, by simp, rfl⟩ <;>
    simp_all [owesExecuteLts, admitting] <;> omega

lemma Tokens.sts (hk : Tokens k) (h : StsMove c k k') : Tokens k' := by
  obtain ⟨hexec, hreq, hpop, hnull⟩ := hk
  cases h with
  | waitExecute hl hn hnext =>
    -- the token is kept until the pop
    refine ⟨?_, hreq, hpop, hnull⟩
    rcases hnext with ⟨-, rfl⟩ | ⟨-, rfl⟩ <;>
    simp_all [executeSts] <;> omega
  | sortReady hl =>
    refine ⟨?_, hreq, hpop, hnull⟩
    simpa [hl, executeSts, sortByEstimation] using hexec
  | popReadyNone hl hq =>
    refine ⟨?_, hreq, hpop, hnull⟩
    simp [hq]
  | signalDom hl hsts =>
    refine ⟨?_, hreq, hpop, hnull⟩
    rcases hsts with rfl | rfl <;>
    simp_all [executeSts]
    omega
  | popReady | setExecuting | setCurrentEstimation | sendPcb | sendPcbFailed | destroySent
  | receivePcb | setReal | clearCurrentEstimation | switchBlocked | switchReady | switchExit
  | setIo | reSchedule | pushBlocked | notifyMts | signalIoRequest | exitProcess | destroyPcb
  | preEmpt | pushReady | signalExecute =>
    refine ⟨?_, hreq, hpop, hnull⟩
    simp_all [executeSts] <;> omega

lemma Tokens.io (hk : Tokens k) (h : IoMove c k k') : Tokens k' := by
  obtain ⟨hexec, hreq, hpop, hnull⟩ := hk
  cases h with
  | pushReadySus hl =>
    refine ⟨?_, ?_, hpop, hnull⟩ <;>
    simp_all [owesExecuteIo, owesReqAdmitIo]
    omega
  | waitIoRequest | popBlockedSus | popBlockedSusNone | popBlocked | popBlockedNone | setCurrentIo
  | sleep | switchSuspended | switchDefault | «exists» | existsNot | removeBlockedSus
  | setSuspendedReady | signalReqAdmit | setReady | pushReady | raises | raisesNot | sendInterrupt
  | signalExecute | clearCurrentIo =>
    refine ⟨?_, ?_, hpop, hnull⟩ <;>
    simp_all [owesExecuteIo, owesReqAdmitIo] <;> omega

lemma Tokens.mts (hk : Tokens k) {i : ℕ} {t : Tracker} (h : MtsMove k i t k') : Tokens k' := by
  obtain ⟨hexec, hreq, hpop, hnull⟩ := hk
  cases h <;> exact ⟨hexec, hreq, hpop, hnull⟩

lemma Tokens.console (hk : Tokens k) {i : ℕ} {s : Console} (hs : k.consoles[i]? = some s)
    (h : ConsoleMove c k i s k') : Tokens k' := by
  obtain ⟨hexec, hreq, hpop, hnull⟩ := hk
  have hcount := fun s' => countP_set_add (p := owesReqAdmit) s' hs
  have hkeep : ∀ s', owesReqAdmit s = false → owesReqAdmit s' = false →
      (k.consoles.set i s').countP owesReqAdmit = k.consoles.countP owesReqAdmit := by
    intro s' h h'
    simpa [h, h'] using hcount s'
  cases h with
  | pushNew hl =>
    have hnew := hcount ⟨s.senderPid, .signalReqAdmit⟩
    refine ⟨hexec, ?_, fun hp => by simp, hnull⟩
    simp_all [owesReqAdmit]
    omega
  | signalReqAdmit hl =>
    have hnew := hcount ⟨s.senderPid, .receive⟩
    simp only [owesReqAdmit, hl, decide_true, if_true, reduceCtorEq, decide_false,
      Bool.false_eq_true, if_false] at hnew
    refine ⟨hexec, ?_, hpop, hnull⟩
    dsimp only
    omega
  | other => exact ⟨hexec, hreq, hpop, hnull⟩
  | newProcess hl | cmd hl | getPidLibre hl | getPidLibreNone hl | addPcb hl | getPcbByPidNone hl
  | getPcbByPid hl | setInstructions hl =>
    refine ⟨hexec, ?_, hpop, hnull⟩
    rw [hkeep _ (by simp [owesReqAdmit, hl]) (by simp [owesReqAdmit])]
    exact hreq

theorem Tokens.step (hk : Tokens k) {e : Event} (h : step c k e = some k') : Tokens k' := by
  cases move h with
  | connect =>
    obtain ⟨hexec, hreq, hpop, hnull⟩ := hk
    exact ⟨hexec, by simpa [owesReqAdmit] using hreq, hpop, hnull⟩
  | console hs h => exact hk.console hs h
  | lts h => exact hk.lts h
  | sts h => exact hk.sts h
  | io h => exact hk.io h
  | mts ht h => exact hk.mts h
  | scribble => exact ⟨hk.execute, hk.reqAdmit, hk.popNew, hk.admits⟩

lemma tokens_of_run {heap : Heap} {es : List Event}
    (h : run (Threads.step c) (initKernel c heap) es = some k) : Tokens k :=
  Reachable.inv (fun _ _ _ hk hs => hk.step hs) (tokens_init heap) ⟨es, h⟩

/-! ### The results -/

/-- **No lost wake-up.** While the short-term scheduler waits, the semaphore and the signals
that are owed by threads that have pushed cover the processes in READY; so if it sleeps on an
empty semaphore although READY is not empty, a signal is to come. -/
theorem ready_covered (c : Cfg) (heap : Heap) (es : List Event) (k : Kernel)
    (hrun : run (Threads.step c) (initKernel c heap) es = some k)
    (hwait : k.sts = .waitExecute) :
    k.ready.length ≤ k.execute + owesExecuteLts k.lts + owesExecuteIo k.io ∧
      (k.execute = 0 → k.ready ≠ [] → owesExecuteLts k.lts = 1 ∨ owesExecuteIo k.io = 1) := by
  have hexec := (tokens_of_run hrun).execute
  rw [hwait] at hexec
  simp only [executeSts, Nat.add_zero] at hexec
  refine ⟨hexec, fun hzero hne => ?_⟩
  have hpos := List.length_pos_iff.mpr hne
  have hlts : owesExecuteLts k.lts = 0 ∨ owesExecuteLts k.lts = 1 := by
    unfold owesExecuteLts
    split <;> simp
  have hio : owesExecuteIo k.io = 0 ∨ owesExecuteIo k.io = 1 := by
    unfold owesExecuteIo
    split <;> simp
  omega

set_option maxRecDepth 40000 in
/-- A process is in READY, and the signal is owed. -/
theorem ready_covered_owed :
    ∃ k, run (Threads.step srtCfg) (initKernel srtCfg zeroHeap) (spawn 0 1 ++ ltsSteps 8) = some k ∧
      k.ready = [1] ∧ k.execute = 0 ∧ owesExecuteLts k.lts = 1 := by
  refine ⟨_, rfl, rfl, rfl, ?_⟩
  exact ((ready_covered srtCfg zeroHeap (spawn 0 1 ++ ltsSteps 8) _ rfl rfl).2 rfl
    (by decide)).resolve_right (by decide)

/-- **Admission finds a process.** When `admit` starts, a process waits in SUSPENDED READY or in
NEW, and the block it takes is never null; and the requests are those of the queued
processes, up to one that is being admitted and the signals that are owed. -/
theorem admission_covered (c : Cfg) (heap : Heap) (es : List Event) (k : Kernel)
    (hrun : run (Threads.step c) (initKernel c heap) es = some k) :
    (k.lts = .resume → k.readySus ≠ [] ∨ k.new ≠ []) ∧ (k.lts = .popNew → k.new ≠ []) ∧
      admitsNull k.lts = false ∧
      k.new.length + k.readySus.length =
        k.reqAdmit + admitting k.lts + owesReqAdmitIo k.io + k.consoles.countP owesReqAdmit := by
  obtain ⟨-, hreq, hpop, hnull⟩ := tokens_of_run hrun
  refine ⟨fun hl => ?_, hpop, hnull, hreq⟩
  by_contra hnone
  obtain ⟨hsus, hnew⟩ := not_or.mp hnone
  rw [not_not.mp hsus, not_not.mp hnew, hl] at hreq
  simp only [List.length_nil, admitting] at hreq
  omega

set_option maxRecDepth 40000 in
/-- `admit` starts with a new process. -/
theorem admission_covered_new :
    ∃ k, run (Threads.step srtCfg) (initKernel srtCfg zeroHeap) (spawn 0 1 ++ ltsSteps 2) = some k ∧
      k.readySus = [] ∧ k.new ≠ [] := by
  refine ⟨_, rfl, rfl, ?_⟩
  exact ((admission_covered srtCfg zeroHeap (spawn 0 1 ++ ltsSteps 2) _ rfl).1 rfl).resolve_left
    (by decide)

end Sski.Scheduling.Tokens
