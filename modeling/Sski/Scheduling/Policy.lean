import Sski.Lib.Runs
import Sski.Lib.StableSort
import Sski.Scheduling.Threads

/-!
The policy that picks the next process. `new_scheduler` gives a scheduler that interrupts
`get_next_fifo` and any other `get_next_srt`, which is the wrong way round: the policy that is
configured is applied exactly as long as, at every dispatch, the process that has been in READY
longest is also one of least estimation, so that both policies pick the same.
-/

namespace Sski.Scheduling.Policy

open Sski.Lib.Runs Sski.Lib.StableSort
open Sski.Scheduling.Scheduler Sski.Scheduling.Threads

variable (c : Cfg)

/-! ### Dispatches -/

def getNextFifo (ready : List Addr) : Option Addr × List Addr := (ready.head?, ready.tail)

def getNextSrt (heap : Heap) (ready : List Addr) : Option Addr × List Addr :=
  getNextFifo (sortByEstimation heap ready)

def getNext (heap : Heap) (ready : List Addr) : Option Addr × List Addr :=
  match c.getNext with
  | .fifo => getNextFifo ready
  | .srt => getNextSrt heap ready

/-- READY, with its processes also in the order in which they entered it. -/
structure Ready where
  heap : Heap
  ready : List Addr
  arrived : List Addr

/-- A process enters READY, with what its block then holds, or the next one is dispatched. -/
inductive Op where
  | insert (a : Addr) (pcb : Pcb)
  | dispatch

/-- A block that waits in READY is not written, and does not enter it again. -/
def step (r : Ready) : Op → Option Ready
  | .insert a pcb =>
    if a ∈ r.ready then none
    else some ⟨fill r.heap a pcb, r.ready ++ [a], r.arrived ++ [a]⟩
  | .dispatch =>
    let (next, ready) := getNext c r.heap r.ready
    some { r with ready, arrived := next.elim r.arrived r.arrived.erase }

def start (heap : Heap) : Ready := ⟨heap, [], []⟩

/-- What the short-term scheduler does between two insertions is a dispatch. -/
lemma run_dispatch {k : Kernel} (o : Outside) (hs : k.sts = .waitExecute) (he : k.execute ≠ 0) :
    ∃ n, run (Threads.step c) k (List.replicate n (.sts o)) = some { k with
      execute := k.execute - 1
      ready := (getNext c k.heap k.ready).2
      sts := ((getNext c k.heap k.ready).1.map .setExecuting).getD .waitExecute } := by
  cases hn : c.getNext with
  | fifo =>
    refine ⟨2, ?_⟩
    cases hr : k.ready with
    | nil => simp [Threads.step, stsStep, hs, he, hn, hr, getNext, getNextFifo]
    | cons a ready => simp [Threads.step, stsStep, hs, he, hn, hr, getNext, getNextFifo]
  | srt =>
    refine ⟨3, ?_⟩
    cases hr : sortByEstimation k.heap k.ready with
    | nil => simp [Threads.step, stsStep, hs, he, hn, hr, getNext, getNextSrt, getNextFifo]
    | cons a ready =>
      simp [Threads.step, stsStep, hs, he, hn, hr, getNext, getNextSrt, getNextFifo]

/-! ### Policies -/

def estimation (heap : Heap) (a : Addr) : ℕ := (heap a).estimation.toNat

/-- The process the policy picks from those that entered READY in this order. -/
def selects (heap : Heap) (arrived : List Addr) : Option Addr :=
  match c.algoritmoPlanificacion with
  | .fifo => arrived.head?
  | .srt => firstMin (estimation heap) arrived

/-- A dispatch is the one that the policy picks. -/
def AsConfigured (r : Ready) : Op → Prop
  | .insert .. => True
  | .dispatch => (getNext c r.heap r.ready).1 = selects c r.heap r.arrived

instance (r : Ready) : DecidablePred (AsConfigured c r)
  | .insert .. => .isTrue trivial
  | .dispatch =>
    inferInstanceAs (Decidable ((getNext c r.heap r.ready).1 = selects c r.heap r.arrived))

/-- Interruptions are raised under SRT only, when `should_interrupt` says so. -/
def InterruptsAsConfigured : Prop :=
  ∀ k pcb, raises c k pcb = true ↔
    c.algoritmoPlanificacion ≠ .fifo ∧ shouldInterrupt k pcb = true

/-- At a dispatch, no process in READY has a shorter estimation than the oldest one. -/
def OldestShortest (r : Ready) : Op → Prop
  | .insert .. => True
  | .dispatch => ∀ a ∈ r.arrived.head?, ∀ b ∈ r.arrived, estimation r.heap a ≤ estimation r.heap b

lemma interruptsAsConfigured : InterruptsAsConfigured c := by
  intro k pcb
  simp [raises, Cfg.interrupt]

/-! ### What READY holds -/

/-- Sorting keeps the order of arrival among processes of one estimation, and only FIFO sorts. -/
structure Arrived (r : Ready) : Prop where
  sameOrder : SameOrder (estimation r.heap) r.ready r.arrived
  unsorted : c.algoritmoPlanificacion ≠ .fifo → r.ready = r.arrived

variable {c} {r r' : Ready} {op : Op}

lemma sortByEstimation_iff (heap : Heap) (a b : Addr) :
    SortByEstimation heap a b ↔ estimation heap a ≤ estimation heap b := UInt32.le_iff_toNat_le

lemma getNext_of_fifo (hc : c.algoritmoPlanificacion = .fifo) (heap : Heap) (ready : List Addr) :
    getNext c heap ready = getNextFifo (sortByEstimation heap ready) := by
  simp [getNext, Cfg.getNext, Cfg.interrupt, hc, getNextSrt]

lemma getNext_of_srt (hc : c.algoritmoPlanificacion ≠ .fifo) (heap : Heap) (ready : List Addr) :
    getNext c heap ready = getNextFifo ready := by
  simp [getNext, Cfg.getNext, Cfg.interrupt, hc]

lemma sameOrder_pop {heap : Heap} {queue arrived : List Addr}
    (h : SameOrder (estimation heap) queue arrived) :
    SameOrder (estimation heap) queue.tail (queue.head?.elim arrived arrived.erase) := by
  cases queue with
  | nil => exact h
  | cons a queue => exact h.tail

lemma Arrived.step (h : Arrived c r) (hs : step c r op = some r') : Arrived c r' := by
  cases op with
  | insert a pcb =>
    by_cases ha : a ∈ r.ready
    · simp [Policy.step, ha] at hs
    obtain rfl : _ = r' := by simpa [Policy.step, ha] using hs
    refine ⟨(h.sameOrder.congr_key fun b hb => ?_).append [a], fun hc => ?_⟩
    · have hba : b ≠ a := fun hba => ha (hba ▸ hb)
      simp [estimation, fill_of_ne pcb hba]
    · simp [h.unsorted hc]
  | dispatch =>
    obtain rfl : _ = r' := by simpa [Policy.step] using hs
    rcases eq_or_ne c.algoritmoPlanificacion .fifo with hc | hc
    · refine ⟨?_, absurd hc⟩
      rw [getNext_of_fifo hc]
      have hsort := sameOrder_insertionSort (sortByEstimation_iff r.heap) r.ready
      exact sameOrder_pop (hsort.trans h.sameOrder)
    · rw [getNext_of_srt hc]
      refine ⟨sameOrder_pop h.sameOrder, fun _ => ?_⟩
      simp only [getNextFifo, ← h.unsorted hc]
      cases r.ready with
      | nil => rfl
      | cons a ready => simp

/-- Under FIFO the dispatched process is one of least estimation, under SRT the oldest. -/
lemma asConfigured_iff (h : Arrived c r) : AsConfigured c r op ↔ OldestShortest r op := by
  cases op with
  | insert a pcb => exact Iff.rfl
  | dispatch =>
    simp only [AsConfigured, OldestShortest, ← firstMin_eq_head?]
    cases hc : c.algoritmoPlanificacion with
    | fifo =>
      have hpop : (getNext c r.heap r.ready).1 = firstMin (estimation r.heap) r.arrived := by
        rw [getNext_of_fifo hc, ← h.sameOrder.firstMin_eq]
        exact head?_insertionSort (sortByEstimation_iff r.heap) r.ready
      rw [hpop, selects, hc]
    | srt =>
      have hpop : (getNext c r.heap r.ready).1 = r.arrived.head? := by
        rw [getNext_of_srt (by simp [hc]), ← h.unsorted (by simp [hc])]
        rfl
      rw [hpop, selects, hc]
      exact eq_comm

/-- **Main result.** Whatever enters READY and is dispatched, the configured policy is the one
applied if and only if the oldest process is one of least estimation at every dispatch. -/
theorem asConfigured_iff_oldestShortest (c : Cfg) (heap : Heap) (ops : List Op) :
    (Meets (step c) (AsConfigured c) (start heap) ops ∧ InterruptsAsConfigured c) ↔
      Meets (step c) OldestShortest (start heap) ops := by
  have hstart : Arrived c (start heap) := ⟨SameOrder.refl [], fun _ => rfl⟩
  have hiff : Meets (step c) (AsConfigured c) (start heap) ops ↔
      Meets (step c) OldestShortest (start heap) ops :=
    meets_iff_meets (P := AsConfigured c) (Q := OldestShortest) (R := fun _ => True)
      (fun _ _ h _ => asConfigured_iff h) (fun _ _ _ h _ _ hs => Arrived.step h hs) hstart
      fun _ _ => trivial
  exact ⟨fun h => hiff.mp h.1, fun h => ⟨hiff.mpr h, interruptsAsConfigured c⟩⟩

/-- Two processes enter READY, the second one with the shorter estimation, and one is
dispatched. -/
def longThenShort : List Op :=
  [.insert 0 (newPcb 0 16 10), .insert 1 (newPcb 1 16 5), .dispatch]

/-- FIFO dispatches the shorter one, SRT the older one. -/
theorem not_asConfigured :
    ¬ Meets (step { srtCfg with algoritmoPlanificacion := .fifo })
        (AsConfigured { srtCfg with algoritmoPlanificacion := .fifo }) (start zeroHeap)
        longThenShort ∧
      ¬ Meets (step srtCfg) (AsConfigured srtCfg) (start zeroHeap) longThenShort := by
  decide +kernel

end Sski.Scheduling.Policy
