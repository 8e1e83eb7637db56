import Sski.Lib.Runs
import Sski.Scheduling.Moves

/-!
What `execute` leaves behind, with every other thread taking steps in between.

A watch begins when a process is taken from READY, and notes what the short-term scheduler does
to the queues and semaphores from then on. Every exit of `execute` puts the process into one
place, and signals as it should. The estimation of the running process is cleared on the way from
the CPU only, so a block that could not be sent leaves it behind.
-/

namespace Sski.Scheduling.Dispatch

open Sski.Lib.Runs Sski.Scheduling.Scheduler Sski.Scheduling.Threads Sski.Scheduling.Moves

/-! ### Watches -/

structure Watch where
  /-- The block of the process; what comes back from the CPU is read into another one. -/
  pcb : Addr
  /-- Its estimation, when `execute` looks at it. -/
  estimation : UInt32
  sent : Bool
  /-- The blocks pushed to READY. -/
  ready : List Addr
  /-- The blocks pushed to BLOCKED. -/
  blocked : List Addr
  /-- The blocks `terminate` was called for. -/
  terminated : List Addr
  /-- How often `dom` was signalled. -/
  dom : ℕ
  /-- How often `io_request` was signalled. -/
  ioRequest : ℕ

/-- Nothing was done with the block but to send it. -/
def Watch.onWay (pcb : Addr) (estimation : UInt32) (sent : Bool) : Watch :=
  ⟨pcb, estimation, sent, [], [], [], 0, 0⟩

def executing : Sts → Bool
  | .waitExecute | .sortReady | .popReady => false
  | _ => true

variable (c : Cfg) (k k' : Kernel) (o : Outside)

def observe (w : Watch) : Watch where
  pcb := match k.sts with
    | .receivePcb => o.addr
    | _ => w.pcb
  estimation := match k.sts with
    | .setCurrentEstimation a => (k.heap a).estimation
    | _ => w.estimation
  sent := match k.sts with
    | .sendPcb _ => o.sent
    | _ => w.sent
  ready := w.ready ++ k'.ready.drop k.ready.length
  blocked := w.blocked ++ k'.blocked.drop k.blocked.length
  terminated := w.terminated ++ match k.sts with
    | .exitProcess a _ => [a]
    | _ => []
  dom := w.dom + (k'.dom - k.dom)
  ioRequest := w.ioRequest + (k'.ioRequest - k.ioRequest)

def noteSts (w : Option Watch) : Option Watch :=
  match k.sts, k.ready with
  | .popReady, a :: _ => some (.onWay a 0 false)
  | _, _ => w.map (observe k k' o)

def note (k : Kernel) (e : Event) (w : Option Watch) : Option Watch :=
  match e, step c k e with
  | .sts o, some k' => noteSts k k' o w
  | _, _ => w

def stepW (s : Kernel × Option Watch) (e : Event) : Option (Kernel × Option Watch) :=
  watched (step c) (note c) s e

def initW (heap : Heap) : Kernel × Option Watch := (initKernel c heap, none)

/-- What `execute` should leave behind: nothing on the CPU, and the process in one place, with
the signals that belong to it. -/
structure Consistent (k : Kernel) (w : Watch) : Prop where
  current : k.currentEstimation = 0
  cpu : k.cpu = none
  place : w.ready ++ w.blocked ++ w.terminated = [w.pcb]
  dom : w.dom = w.terminated.length
  ioRequest : w.ioRequest = w.blocked.length

/-! ### The invariant -/

structure Settled (current : UInt32) (w : Watch) : Prop where
  place : w.ready ++ w.blocked ++ w.terminated = [w.pcb]
  dom : w.dom = w.terminated.length
  ioRequest : w.ioRequest = w.blocked.length
  current : current = if w.sent then 0 else w.estimation

/-- How far the watch is, by where the short-term scheduler is. -/
def Tracked (k : Kernel) (w : Option Watch) : Prop :=
  match k.sts with
  | .waitExecute | .sortReady | .popReady | .signalExecute =>
    k.cpu = none ∧ ∀ v, w = some v → Settled k.currentEstimation v
  | .setExecuting a | .setCurrentEstimation a => k.cpu = none ∧ w = some (.onWay a 0 false)
  | .sendPcb a => k.cpu = none ∧ w = some (.onWay a k.currentEstimation false)
  | .destroySent a => ∃ estimation, w = some (.onWay a estimation true)
  | .receivePcb => ∃ a estimation, w = some (.onWay a estimation true)
  | .setReal a _ | .clearCurrentEstimation a _ =>
    k.cpu = none ∧ ∃ estimation, w = some (.onWay a estimation true)
  | .switchStatus a _ | .setIo a _ | .reSchedule a | .pushBlocked a | .preEmpt a | .pushReady a =>
    k.cpu = none ∧ k.currentEstimation = 0 ∧ ∃ estimation, w = some (.onWay a estimation true)
  | .notifyMts a => k.cpu = none ∧ k.currentEstimation = 0 ∧
    ∃ estimation, w = some { Watch.onWay a estimation true with blocked := [a] }
  | .signalIoRequest => k.cpu = none ∧ k.currentEstimation = 0 ∧
    ∃ a estimation, w = some { Watch.onWay a estimation true with blocked := [a] }
  | .exitProcess a sent => k.cpu = none ∧ ∃ estimation,
    w = some (.onWay a estimation sent) ∧ k.currentEstimation = if sent then 0 else estimation
  | .destroyPcb a sent => k.cpu = none ∧ ∃ estimation,
    w = some { Watch.onWay a estimation sent with terminated := [a] } ∧
      k.currentEstimation = if sent then 0 else estimation
  | .signalDom sent => k.cpu = none ∧ ∃ a estimation,
    w = some { Watch.onWay a estimation sent with terminated := [a] } ∧
      k.currentEstimation = if sent then 0 else estimation

variable {c k k' o} {w w' : Option Watch}

lemma tracked_init (heap : Heap) : Tracked (initKernel c heap) none :=
  ⟨rfl, fun _ h => nomatch h⟩

/-- Only the short-term scheduler writes the estimation of the running process. -/
lemma step_other {e : Event} (h : step c k e = some k') (he : ∀ o, e ≠ .sts o) :
    k'.sts = k.sts ∧ k'.cpu = k.cpu ∧ k'.currentEstimation = k.currentEstimation := by
  cases e with
  | connect =>
    cases h
    exact ⟨rfl, rfl, rfl⟩
  | message i m =>
    obtain ⟨s, -, -, hm⟩ := routineMove (c := c) h
    cases hm <;> exact ⟨rfl, rfl, rfl⟩
  | console i addr =>
    obtain ⟨s, -, hm⟩ := consoleMove h
    cases hm <;> exact ⟨rfl, rfl, rfl⟩
  | lts memory => cases ltsMove h <;> exact ⟨rfl, rfl, rfl⟩
  | sts o => exact absurd rfl (he o)
  | io => cases ioMove h <;> exact ⟨rfl, rfl, rfl⟩
  | mts i =>
    obtain ⟨t, -, hm⟩ := mtsMove h
    cases hm <;> exact ⟨rfl, rfl, rfl⟩
  | scribble a pcb =>
    simp only [step] at h
    split at h
    · cases h
    · cases h
      exact ⟨rfl, rfl, rfl⟩

lemma note_other {e : Event} (he : ∀ o, e ≠ .sts o) : note c k e w = w := by
  unfold note
  split
  · exact absurd rfl (he _)
  · rfl

lemma Tracked.other (h : Tracked k w) {e : Event} (hs : step c k e = some k')
    (he : ∀ o, e ≠ .sts o) : Tracked k' w := by
  obtain ⟨hsts, hcpu, hcurrent⟩ := step_other hs he
  unfold Tracked at h ⊢
  rwa [hsts, hcpu, hcurrent]

lemma noteSts_idle (hidle : executing k.sts = false) (hpop : k.sts = .popReady → k.ready = [])
    (hsame : k'.ready.length ≤ k.ready.length ∧ k'.blocked = k.blocked ∧ k'.dom = k.dom ∧
      k'.ioRequest = k.ioRequest) : noteSts k k' o w = w := by
  obtain ⟨hready, hblocked, hdom, hrequest⟩ := hsame
  have hnone : ∀ v, observe k k' o v = v := fun v => by
    unfold observe
    rw [List.drop_eq_nil_of_le hready, hblocked, hdom, hrequest]
    cases hsts : k.sts <;> simp_all [executing]
  unfold noteSts
  split
  · next hsts hcons => simp [hpop hsts] at hcons
  · cases w <;> simp [hnone]

lemma Tracked.sts (h : Tracked k w) (hs : stsStep c k o = some k') :
    Tracked k' (noteSts k k' o w) := by
  unfold Tracked at h
  unfold stsStep at hs
  cases hsts : k.sts with
  | waitExecute =>
    simp only [hsts] at h hs
    split at hs
    · cases hs
    cases hs
    rw [noteSts_idle (by rw [hsts]; rfl) (by simp [hsts])]
    · cases hnext : c.getNext <;> simpa [Tracked, hnext] using h
    · exact ⟨le_rfl, rfl, rfl, rfl⟩
  | sortReady =>
    simp only [hsts] at h hs
    cases hs
    rw [noteSts_idle (by rw [hsts]; rfl) (by simp [hsts])]
    · exact h
    · exact ⟨by simp [sortByEstimation], rfl, rfl, rfl⟩
  | popReady =>
    simp only [hsts] at h hs
    split at hs
    · next a ready hq =>
      cases hs
      simp [Tracked, noteSts, hsts, hq, h.1]
    · next hq =>
      cases hs
      rw [noteSts_idle (by rw [hsts]; rfl) fun _ => hq]
      · exact h
      · exact ⟨le_rfl, rfl, rfl, rfl⟩
  | setExecuting a | setCurrentEstimation a =>
    simp only [hsts] at h hs
    cases hs
    obtain ⟨hcpu, rfl⟩ := h
    simp [Tracked, noteSts, hsts, observe, Watch.onWay, hcpu]
  | sendPcb a =>
    simp only [hsts] at h hs
    obtain ⟨hcpu, rfl⟩ := h
    cases hsent : o.sent <;> simp only [hsent, if_true, Bool.false_eq_true, if_false] at hs <;>
    cases hs <;>
    simp [Tracked, noteSts, hsts, observe, Watch.onWay, hcpu, hsent]
  | destroySent a =>
    simp only [hsts] at h hs
    cases hs
    obtain ⟨estimation, rfl⟩ := h
    simp [Tracked, noteSts, hsts, observe, Watch.onWay]
  | receivePcb =>
    simp only [hsts] at h hs
    obtain ⟨a, estimation, rfl⟩ := h
    split at hs
    · cases hs
    split at hs
    · cases hs
    cases hs
    simp [Tracked, noteSts, hsts, observe, Watch.onWay]
  | setReal a ioTime | clearCurrentEstimation a ioTime =>
    simp only [hsts] at h hs
    cases hs
    obtain ⟨hcpu, estimation, rfl⟩ := h
    simp [Tracked, noteSts, hsts, observe, Watch.onWay, hcpu]
  | switchStatus a ioTime =>
    simp only [hsts] at h hs
    obtain ⟨hcpu, hcurrent, estimation, rfl⟩ := h
    split at hs <;>
    cases hs <;>
    simp [Tracked, noteSts, hsts, observe, Watch.onWay, hcpu, hcurrent]
  | setIo a ioTime | reSchedule a | pushBlocked a | notifyMts a | preEmpt a =>
    simp only [hsts] at h hs
    cases hs
    obtain ⟨hcpu, hcurrent, estimation, rfl⟩ := h
    simp [Tracked, noteSts, hsts, observe, Watch.onWay, hcpu, hcurrent]
  | exitProcess a sent | destroyPcb a sent =>
    simp only [hsts] at h hs
    cases hs
    obtain ⟨hcpu, estimation, rfl, hcurrent⟩ := h
    simp [Tracked, noteSts, hsts, observe, Watch.onWay, hcpu, hcurrent]
  | signalIoRequest =>
    simp only [hsts] at h hs
    cases hs
    obtain ⟨hcpu, hcurrent, a, estimation, rfl⟩ := h
    refine ⟨hcpu, fun v hv => ?_⟩
    obtain rfl : _ = v := by simpa [noteSts, hsts] using hv
    constructor <;> simp [hsts, observe, Watch.onWay, hcurrent]
  | pushReady a =>
    simp only [hsts] at h hs
    cases hs
    obtain ⟨hcpu, hcurrent, estimation, rfl⟩ := h
    refine ⟨hcpu, fun v hv => ?_⟩
    obtain rfl : _ = v := by simpa [noteSts, hsts] using hv
    constructor <;> simp [hsts, observe, Watch.onWay, hcurrent]
  | signalDom sent =>
    simp only [hsts] at h hs
    cases hs
    obtain ⟨hcpu, a, estimation, rfl, hcurrent⟩ := h
    have hsettled : ∀ v, noteSts k { k with
        dom := k.dom + 1, sts := if sent then .signalExecute else .waitExecute } o
          (some { Watch.onWay a estimation sent with terminated := [a] }) = some v →
        Settled k.currentEstimation v := fun v hv => by
      obtain rfl : _ = v := by simpa [noteSts, hsts] using hv
      constructor <;> simp [hsts, observe, Watch.onWay, hcurrent]
    cases sent <;> exact ⟨hcpu, hsettled⟩
  | signalExecute =>
    simp only [hsts] at h hs
    cases hs
    refine ⟨h.1, fun v hv => ?_⟩
    obtain ⟨u, rfl, rfl⟩ : ∃ u, w = some u ∧ _ = v := by simpa [noteSts, hsts] using hv
    have hu := h.2 u rfl
    simpa [observe, hsts] using hu

lemma note_sts (h : stsStep c k o = some k') : note c k (.sts o) w = noteSts k k' o w := by
  simp only [note, step, h]

lemma Tracked.step (h : Tracked k w) {e : Event} (hs : step c k e = some k') :
    Tracked k' (note c k e w) := by
  by_cases he : ∃ o, e = .sts o
  · obtain ⟨o, rfl⟩ := he
    rw [note_sts hs]
    exact h.sts hs
  · have hother := not_exists.mp he
    rw [note_other hother]
    exact h.other hs hother

lemma tracked_of_run {heap : Heap} {es : List Event}
    (hrun : run (stepW c) (initW c heap) es = some (k, w)) : Tracked k w := by
  refine Reachable.inv (I := fun s => Tracked s.1 s.2) ?_ (tracked_init heap) ⟨es, hrun⟩
  rintro s e s' htracked hstep
  obtain ⟨hs, hnote⟩ := watched_eq_some.mp hstep
  rw [hnote]
  exact htracked.step hs

/-! ### The result -/

lemma settled_of_tracked {v : Watch} (h : Tracked k (some v)) (hdone : executing k.sts = false) :
    k.cpu = none ∧ Settled k.currentEstimation v := by
  unfold Tracked at h
  cases hsts : k.sts with
  | waitExecute | sortReady | popReady =>
    simp only [hsts] at h
    exact ⟨h.1, h.2 v rfl⟩
  | _ => simp [hsts, executing] at hdone

/-- **Main result.** Whatever the other threads do, a dispatch that has come to an end has left
the scheduler consistent if and only if the block was sent, or had no estimation. -/
theorem consistent_iff_sent (c : Cfg) (heap : Heap) (es : List Event) (k : Kernel) (w : Watch)
    (hrun : run (stepW c) (initW c heap) es = some (k, some w))
    (hdone : executing k.sts = false) :
    Consistent k w ↔ w.sent = true ∨ w.estimation = 0 := by
  obtain ⟨hcpu, hplace, hdom, hrequest, hcurrent⟩ :=
    settled_of_tracked (tracked_of_run hrun) hdone
  constructor
  · intro h
    cases hsent : w.sent with
    | true => exact .inl rfl
    | false =>
      rw [hsent, h.current] at hcurrent
      exact .inr hcurrent.symm
  · intro h
    refine ⟨?_, hcpu, hplace, hdom, hrequest⟩
    rw [hcurrent]
    rcases h with hsent | hzero
    · simp [hsent]
    · simp [hzero]

def toSendFailed : List Event :=
  spawn 0 1 ++ ltsSteps 9 ++ List.replicate 8 (.sts ⟨false, 5, 2, .blocked, 1, [], 7⟩)

set_option maxRecDepth 40000 in
theorem consistent_iff_sent_blocked :
    ∃ k w, run (stepW srtCfg) (initW srtCfg zeroHeap) toBlocked = some (k, some w) ∧
      w.blocked = [2] ∧ Consistent k w := by
  refine ⟨_, _, rfl, by decide +kernel, ?_⟩
  exact (consistent_iff_sent srtCfg zeroHeap toBlocked _ _ rfl (by decide +kernel)).mpr
    (.inl (by decide +kernel))

set_option maxRecDepth 40000 in
/-- The estimation of a process that was never sent stays behind. -/
theorem not_consistent_sendFailed :
    ∃ k w, run (stepW srtCfg) (initW srtCfg zeroHeap) toSendFailed = some (k, some w) ∧
      executing k.sts = false ∧ w.terminated = [1] ∧ k.currentEstimation = 10 ∧
      ¬ Consistent k w := by
  refine ⟨_, _, rfl, by decide +kernel, by decide +kernel, by decide +kernel, fun h => ?_⟩
  have hcurrent := h.current
  revert hcurrent
  decide +kernel

end Sski.Scheduling.Dispatch
