import Sski.Scheduling.OnePlace

/-!
Every process that `block` pushes is served once for it.

`io_request` counts the processes that wait, and the I/O thread looks for one in two queues, one
after the other. A tracker that takes a process from the second to the first in between can make
it miss the process it came for.
-/

namespace Sski.Scheduling.IoRequests

open Sski.Lib.Runs Sski.Lib.Counting Sski.Scheduling.Scheduler Sski.Scheduling.Threads
open Sski.Scheduling.Moves Sski.Scheduling.History Sski.Scheduling.Places
open Sski.Scheduling.Conservation Sski.Scheduling.Suspension Sski.Scheduling.OnePlace

/-- The blocks that wait for I/O, in the queues or in the hands of trackers. -/
def waitingBlocks (k : Kernel) : List Addr :=
  k.blocked ++ k.trackers.filterMap trackerHolds ++ waitingSus k

def waiting (k : Kernel) (p : UInt32) : ℕ := (waitingBlocks k).countP (hasId k.heap p)

def polling : Io → ℕ
  | .popBlockedSus | .popBlocked => 1
  | _ => 0

def owesIoRequest : Sts → ℕ
  | .notifyMts _ | .signalIoRequest => 1
  | _ => 0

/-- At its second look the I/O thread finds a process in BLOCKED, although trackers have taken
processes from there to SUSPENDED BLOCKED, or are about to. -/
def Undisturbed (k : Kernel) : Event → Prop
  | .io => k.io = .popBlocked →
      k.blockedSus ≠ [] ∨ (∃ t ∈ k.trackers, trackerHolds t ≠ none) → k.blocked ≠ []
  | _ => True

instance (k : Kernel) : (e : Event) → Decidable (Undisturbed k e)
  | .io => inferInstanceAs (Decidable (k.io = .popBlocked →
      k.blockedSus ≠ [] ∨ (∃ t ∈ k.trackers, trackerHolds t ≠ none) → k.blocked ≠ []))
  | .connect | .message .. | .console .. | .lts .. | .sts .. | .mts .. | .scribble .. =>
    .isTrue trivial

/-- Every process was retrieved as often as it was blocked, but for the time that it waits. -/
def Served (k : Kernel) (h : History) : Prop := ∀ p, h.blocks p = h.served p + waiting k p

/-- As many processes wait as there are requests. -/
structure Requests (k : Kernel) (h : History) : Prop where
  total : (waitingBlocks k).length = k.ioRequest + polling k.io + owesIoRequest k.sts
  missed : h.missed = 0

variable {c : Cfg} {k k' : Kernel} {h h' : History}

lemma served_init (heap : Heap) : Served (initKernel c heap) noHistory := fun p => by
  simp [waiting, waitingBlocks, initKernel, waitingSus, noHistory]

lemma requests_init (heap : Heap) : Requests (initKernel c heap) noHistory :=
  ⟨by simp [waitingBlocks, initKernel, waitingSus, polling, owesIoRequest], rfl⟩

/-! ### Who waits after a step -/

lemma countP_waitingBlocks (k : Kernel) (P : Addr → Bool) : (waitingBlocks k).countP P =
    k.blocked.countP P + k.trackers.countP (fun t => (trackerHolds t).any P) +
      (waitingSus k).countP P := by
  simp only [waitingBlocks, List.countP_append, countP_filterMap_any]

lemma inUse_of_waiting (hk : Conserved k h) {a : Addr} (ha : a ∈ waitingBlocks k) :
    k.inUse a = true := by
  refine hk.used a (.inr ?_)
  rcases List.mem_append.mp ha with ha | ha
  · rcases List.mem_append.mp ha with ha | ha
    · exact Conserved.mem_admitted (x := .blocked) ha
    · exact Conserved.mem_admitted (x := .suspension) ha
  · exact Conserved.mem_admitted (x := .blockedSus) ha

def retrieves (k : Kernel) : Option Addr :=
  match k.io with
  | .popBlockedSus => k.blockedSus.head?
  | .popBlocked => k.blocked.head?
  | _ => none

def pushes (k : Kernel) : Option Addr :=
  match k.sts with
  | .pushBlocked a => some a
  | _ => none

lemma waitingBlocks_sts (hm : StsMove c k k') (P : Addr → Bool) : (waitingBlocks k').countP P =
    (waitingBlocks k).countP P + ((pushes k).any P).toNat := by
  rw [countP_waitingBlocks, countP_waitingBlocks]
  cases hm with
  | pushBlocked hl =>
    simp only [pushes, hl, waitingSus, List.countP_append, countP_cons_toNat, List.countP_nil,
      Option.any_some]
    omega
  | notifyMts hl => simp [pushes, hl, waitingSus, trackerHolds, suspending]
  | waitExecute hl | sortReady hl | popReady hl | popReadyNone hl | setExecuting hl
  | setCurrentEstimation hl | sendPcb hl | sendPcbFailed hl | destroySent hl | receivePcb hl
  | setReal hl | clearCurrentEstimation hl | switchBlocked hl | switchReady hl | switchExit hl
  | setIo hl | reSchedule hl | signalIoRequest hl | exitProcess hl | destroyPcb hl | signalDom hl
  | preEmpt hl | pushReady hl | signalExecute hl => simp [pushes, hl, waitingSus]

/-- Nothing gets lost, so what is retrieved is what waits no longer. -/
lemma waitingBlocks_io (hp : Placed k h) (hm : IoMove c k k') (P : Addr → Bool) :
    (waitingBlocks k').countP P + ((retrieves k).any P).toNat = (waitingBlocks k).countP P := by
  have hadmitted := (shuffled_io hp.conserved hp.suspensions hm).admitted P
  rw [countP_admitted, countP_admitted] at hadmitted
  rw [countP_waitingBlocks, countP_waitingBlocks]
  cases hm with
  | popBlockedSus hl hq =>
    simp only [retrieves, hl, hq, ioHolds, List.head?_cons, Option.any_some, Option.any_none,
      Bool.toNat_false] at hadmitted ⊢
    omega
  | popBlocked hl hq =>
    simp only [retrieves, hl, hq, ioHolds, List.head?_cons, Option.any_some, Option.any_none,
      Bool.toNat_false] at hadmitted ⊢
    omega
  | pushReadySus hl | pushReady hl =>
    simp only [retrieves, hl, ioHolds, List.countP_append, countP_cons_toNat, List.countP_nil,
      Option.any_some, Option.any_none, Bool.toNat_false] at hadmitted ⊢
    omega
  | @removeBlockedSus a b before behind hl hq hid =>
    obtain rfl : b = a := hp.conserved.eq_of_id (by simp [hl, ioHolds]) (by simp [hq]) hid
    simp only [retrieves, hl, ioHolds, Option.any_some, Option.any_none, Bool.toNat_false]
      at hadmitted ⊢
    omega
  | waitIoRequest hl | popBlockedSusNone hl hq | popBlockedNone hl hq | setCurrentIo hl
  | sleep hl | switchSuspended hl | switchDefault hl | «exists» hl | existsNot hl
  | setSuspendedReady hl | signalReqAdmit hl | setReady hl | raises hl | raisesNot hl
  | sendInterrupt hl | signalExecute hl | clearCurrentIo hl =>
    simp_all only [retrieves, ioHolds, List.head?_nil, Option.any_some, Option.any_none,
      Bool.toNat_false]
    omega

/-- A tracker moves a block within what waits. -/
lemma waitingBlocks_mts (hp : Placed k h) {i : ℕ} {t : Tracker} (ht : k.trackers[i]? = some t)
    (hm : MtsMove k i t k') (P : Addr → Bool) :
    (waitingBlocks k').countP P = (waitingBlocks k).countP P := by
  have hadmitted := (shuffled_mts hp.conserved hp.suspensions ht hm).admitted P
  have hframe : k'.new = k.new ∧ k'.lts = k.lts ∧ k'.ready = k.ready ∧ k'.sts = k.sts ∧
      k'.io = k.io ∧ k'.readySus = k.readySus := by
    cases hm <;> exact ⟨rfl, rfl, rfl, rfl, rfl, rfl⟩
  obtain ⟨hnew, hlts, hready, hsts, hio, hsus⟩ := hframe
  rw [countP_admitted, countP_admitted, hnew, hlts, hready, hsts, hio, hsus] at hadmitted
  rw [countP_waitingBlocks, countP_waitingBlocks]
  omega

/-! ### What is added to the history -/

lemma noteSts_blocks (k : Kernel) (h : History) (p : UInt32) : (noteSts k h).blocks p =
    h.blocks p + ((pushes k).any (hasId k.heap p)).toNat := by
  unfold noteSts pushes
  cases k.sts <;> simp [bump_eq, hasId]

lemma noteSts_rest (k : Kernel) (h : History) : (noteSts k h).served = h.served ∧
    (noteSts k h).finished = h.finished ∧ (noteSts k h).missed = h.missed := by
  unfold noteSts
  split <;> exact ⟨rfl, rfl, rfl⟩

lemma noteIo_served (k : Kernel) (h : History) (p : UInt32) : (noteIo k h).served p =
    h.served p + ((retrieves k).any (hasId k.heap p)).toNat := by
  unfold noteIo retrieves
  cases k.io with
  | popBlockedSus => cases k.blockedSus <;> simp [History.retrieved, bump_eq, hasId]
  | popBlocked => cases k.blocked <;> simp [History.retrieved, bump_eq, hasId]
  | _ =>
    dsimp only
    split <;> simp

lemma noteIo_finished (k : Kernel) (h : History) (p : UInt32) : (noteIo k h).finished p =
    h.finished p + ((decided k).any (hasId k.heap p)).toNat := by
  unfold noteIo
  cases hio : k.io with
  | popBlockedSus => cases k.blockedSus <;> simp [History.retrieved, decided, hio]
  | popBlocked => cases k.blocked <;> simp [History.retrieved, decided, hio]
  | _ =>
    dsimp only
    cases hdecided : decided k <;> simp [bump_eq, hasId]

lemma noteIo_rest (k : Kernel) (h : History) :
    (noteIo k h).blocks = h.blocks ∧ (noteIo k h).episodes = h.episodes := by
  unfold noteIo
  split <;> split <;> exact ⟨rfl, rfl⟩

lemma noteMts_rest (t : Tracker) (h : History) : (noteMts t h).blocks = h.blocks ∧
    (noteMts t h).served = h.served ∧ (noteMts t h).finished = h.finished ∧
    (noteMts t h).episodes = h.episodes ∧ (noteMts t h).missed = h.missed := by
  unfold noteMts
  split <;> exact ⟨rfl, rfl, rfl, rfl, rfl⟩

lemma noteConsole_rest (k : Kernel) (s : Console) (h : History) :
    (noteConsole k s h).blocks = h.blocks ∧ (noteConsole k s h).served = h.served ∧
    (noteConsole k s h).finished = h.finished ∧ (noteConsole k s h).episodes = h.episodes ∧
    (noteConsole k s h).missed = h.missed := by
  unfold noteConsole
  split <;> exact ⟨rfl, rfl, rfl, rfl, rfl⟩

/-! ### Who was blocked was served -/

lemma Served.quiet (hk : Conserved k h) (hi : Served k h) {e : Event}
    (hm : MoveH c k h e (k', h'))
    (hw : ∀ P, (waitingBlocks k').countP P = (waitingBlocks k).countP P)
    (hblocks : h'.blocks = h.blocks) (hserved : h'.served = h.served) : Served k' h' := by
  intro p
  rw [hblocks, hserved, hi p, waiting, waiting, hw,
    countP_hasId_kept hm fun a ha => inUse_of_waiting hk ha]

lemma waitingBlocks_lts (hm : LtsMove c k k') : waitingBlocks k' = waitingBlocks k := by
  cases hm <;> rfl

lemma waitingBlocks_console {i : ℕ} {s : Console} (hm : ConsoleMove c k i s k') :
    waitingBlocks k' = waitingBlocks k := by
  cases hm <;> rfl

lemma Served.step (hp : Placed k h) (hi : Served k h) {e : Event}
    (hm : MoveH c k h e (k', h')) : Served k' h' := by
  have hmove := hm
  cases hm with
  | connect | scribble => exact hi.quiet hp.conserved hmove (fun _ => rfl) rfl rfl
  | @console _ _ s _ hs hm =>
    obtain ⟨hblocks, hserved, -⟩ := noteConsole_rest k s h
    exact hi.quiet hp.conserved hmove (fun P => by rw [waitingBlocks_console hm]) hblocks hserved
  | lts hm =>
    exact hi.quiet hp.conserved hmove (fun P => by rw [waitingBlocks_lts hm]) rfl rfl
  | sts hm =>
    intro p
    have hold := hi p
    unfold waiting at hold ⊢
    rw [noteSts_blocks, (noteSts_rest k h).1, waitingBlocks_sts hm,
      countP_hasId_kept hmove fun a ha => inUse_of_waiting hp.conserved ha]
    cases hpushes : pushes k with
    | none => simpa using hold
    | some a =>
      -- the id of the block that is pushed stays
      have huse := hp.conserved.used a (.inr (Conserved.mem_admitted (x := .execution) (sts_mem (by
        unfold pushes at hpushes
        split at hpushes <;> simp_all [stsHolds]))))
      have hid : hasId k'.heap p a = hasId k.heap p a := by rw [hasId, hasId, id_kept hmove huse]
      simp only [Option.any_some, hid]
      omega
  | io hm =>
    intro p
    have hold := hi p
    have hw := waitingBlocks_io hp hm (hasId k.heap p)
    have hid : hasId k'.heap p = hasId k.heap p := by
      funext a
      rw [hasId, hasId, (shuffled_io hp.conserved hp.suspensions hm).id]
    unfold waiting at hold ⊢
    rw [(noteIo_rest k h).1, noteIo_served, hid]
    omega
  | @mts _ t _ ht hm =>
    obtain ⟨hblocks, hserved, -⟩ := noteMts_rest t h
    exact hi.quiet hp.conserved hmove (waitingBlocks_mts hp ht hm) hblocks hserved

/-! ### Requests -/

lemma Requests.quiet (hi : Requests k h)
    (hw : ∀ P, (waitingBlocks k').countP P = (waitingBlocks k).countP P)
    (htokens : k'.ioRequest + polling k'.io + owesIoRequest k'.sts =
      k.ioRequest + polling k.io + owesIoRequest k.sts)
    (hmissed : h'.missed = h.missed) : Requests k' h' := by
  refine ⟨?_, hmissed.trans hi.missed⟩
  rw [htokens, ← hi.total, ← List.countP_true, hw, List.countP_true]

/-- `block` signals for the process that it has pushed. -/
lemma tokens_sts (hm : StsMove c k k') :
    k'.ioRequest + polling k'.io + owesIoRequest k'.sts =
      k.ioRequest + polling k.io + owesIoRequest k.sts + (pushes k).isSome.toNat := by
  cases hm with
  | signalIoRequest hl =>
    simp only [pushes, hl, owesIoRequest, Option.isSome_none, Bool.toNat_false]
    omega
  | waitExecute hl hn hnext =>
    rcases hnext with ⟨-, rfl⟩ | ⟨-, rfl⟩ <;> simp [pushes, hl, owesIoRequest]
  | signalDom hl hsts => rcases hsts with rfl | rfl <;> simp [pushes, hl, owesIoRequest]
  | sortReady hl | popReady hl | popReadyNone hl | setExecuting hl
  | setCurrentEstimation hl | sendPcb hl | sendPcbFailed hl | destroySent hl | receivePcb hl
  | setReal hl | clearCurrentEstimation hl | switchBlocked hl | switchReady hl | switchExit hl
  | setIo hl | reSchedule hl | pushBlocked hl | notifyMts hl | exitProcess hl | destroyPcb hl
  | preEmpt hl | pushReady hl | signalExecute hl => simp [pushes, hl, owesIoRequest]

/-- The I/O thread spends a request when it retrieves a process, or nothing. -/
lemma tokens_io (hm : IoMove c k k') (hnone : k.io = .popBlocked → k.blocked ≠ []) :
    k'.ioRequest + polling k'.io + owesIoRequest k'.sts + (retrieves k).isSome.toNat =
      k.ioRequest + polling k.io + owesIoRequest k.sts := by
  cases hm with
  | popBlockedNone hl hq => exact absurd hq (hnone hl)
  | waitIoRequest hl hn =>
    simp only [retrieves, hl, hn, polling, Option.isSome_none, Bool.toNat_false]
    omega
  | popBlockedSus hl hq | popBlocked hl hq =>
    simp only [retrieves, hl, hq, polling, List.head?_cons, Option.isSome_some, Bool.toNat_true]
    omega
  | popBlockedSusNone hl hq | setCurrentIo hl | sleep hl | switchSuspended hl
  | switchDefault hl | «exists» hl | existsNot hl | removeBlockedSus hl hq hid
  | setSuspendedReady hl | pushReadySus hl | signalReqAdmit hl | setReady hl | pushReady hl
  | raises hl | raisesNot hl | sendInterrupt hl | signalExecute hl | clearCurrentIo hl =>
    simp [retrieves, polling, *]

/-- The process that the request stands for is in BLOCKED, or has been moved. -/
lemma blocked_ne_nil (hi : Requests k h) (hundisturbed : Undisturbed k .io)
    (hl : k.io = .popBlocked) : k.blocked ≠ [] := by
  intro hq
  have htotal := hi.total
  have hmoved : ¬ (k.blockedSus ≠ [] ∨ ∃ t ∈ k.trackers, trackerHolds t ≠ none) :=
    fun hmoved => hundisturbed hl hmoved hq
  obtain ⟨hsus, htrackers⟩ := not_or.mp hmoved
  have hnone : k.trackers.filterMap trackerHolds = [] :=
    List.filterMap_eq_nil_iff.mpr fun t ht => by
      by_contra hne
      exact htrackers ⟨t, ht, hne⟩
  rw [not_not] at hsus
  simp [waitingBlocks, hq, hnone, waitingSus, hsus, hl, polling] at htotal
  omega

lemma Requests.step (hp : Placed k h) (hi : Requests k h) {e : Event}
    (hundisturbed : Undisturbed k e) (hm : MoveH c k h e (k', h')) : Requests k' h' := by
  cases hm with
  | connect | scribble => exact hi.quiet (fun _ => rfl) rfl rfl
  | @console _ _ s _ hs hm =>
    have htokens : k'.ioRequest + polling k'.io + owesIoRequest k'.sts =
        k.ioRequest + polling k.io + owesIoRequest k.sts := by cases hm <;> rfl
    exact hi.quiet (fun P => by rw [waitingBlocks_console hm]) htokens
      (noteConsole_rest k s h).2.2.2.2
  | lts hm =>
    have htokens : k'.ioRequest + polling k'.io + owesIoRequest k'.sts =
        k.ioRequest + polling k.io + owesIoRequest k.sts := by cases hm <;> rfl
    exact hi.quiet (fun P => by rw [waitingBlocks_lts hm]) htokens rfl
  | sts hm =>
    refine ⟨?_, (noteSts_rest k h).2.2.trans hi.missed⟩
    rw [tokens_sts hm, ← hi.total, ← List.countP_true, waitingBlocks_sts hm, List.countP_true]
    cases pushes k <;> rfl
  | io hm =>
    have hne := blocked_ne_nil hi hundisturbed
    refine ⟨?_, ?_⟩
    · have htokens := tokens_io hm hne
      have hw := waitingBlocks_io hp hm fun _ => true
      have htotal := hi.total
      rw [List.countP_true] at hw
      cases hr : retrieves k <;>
      · simp only [hr, Option.any_none, Option.any_some, Option.isSome_none, Option.isSome_some]
          at hw htokens
        omega
    · unfold noteIo
      cases hio : k.io with
      | popBlocked =>
        cases hq : k.blocked with
        | nil => exact absurd hq (hne hio)
        | cons a rest => exact hi.missed
      | popBlockedSus => cases k.blockedSus <;> exact hi.missed
      | _ =>
        dsimp only
        split <;> exact hi.missed
  | @mts _ t _ ht hm =>
    have htokens : k'.ioRequest + polling k'.io + owesIoRequest k'.sts =
        k.ioRequest + polling k.io + owesIoRequest k.sts := by cases hm <;> rfl
    exact hi.quiet (waitingBlocks_mts hp ht hm) htokens (noteMts_rest t h).2.2.2.2

/-! ### The result -/

lemma requests_of_run {heap : Heap} {es : List Event}
    (hrun : run (stepH c) (initH c heap) es = some (k, h))
    (hcond : Meets (stepH c) (fun s e => Timely s.1 e ∧ Undisturbed s.1 e) (initH c heap) es) :
    Placed k h ∧ Served k h ∧ Requests k h := by
  refine hcond.inv (I := fun s => Placed s.1 s.2 ∧ Served s.1 s.2 ∧ Requests s.1 s.2) ?_
    ⟨placed_init heap, served_init heap, requests_init heap⟩ hrun
  rintro ⟨k, h⟩ e ⟨k', h'⟩ ⟨hp, hserved, hi⟩ ⟨htimely, hundisturbed⟩ hstep
  have hm := moveH hstep
  exact ⟨hp.step htimely hm, hserved.step hp hm, hi.step hp hundisturbed hm⟩

/-- **Main result.** In every run in which trackers suspend in time and do not disturb the I/O
thread's second look, the I/O thread never retrieves nothing, every process was retrieved as
often as it was blocked, but for the one time that it waits, and as many processes wait as there
are requests. -/
theorem served_of_undisturbed (c : Cfg) (heap : Heap) (es : List Event) (k : Kernel) (h : History)
    (hrun : run (stepH c) (initH c heap) es = some (k, h))
    (hcond : Meets (stepH c) (fun s e => Timely s.1 e ∧ Undisturbed s.1 e) (initH c heap) es) :
    h.missed = 0 ∧ (∀ p, h.blocks p = h.served p + waiting k p ∧ waiting k p ≤ 1) ∧
      (waitingBlocks k).length = k.ioRequest + polling k.io + owesIoRequest k.sts := by
  obtain ⟨hp, hserved, hi⟩ := requests_of_run hrun hcond
  refine ⟨hi.missed, fun p => ⟨hserved p, ?_⟩, hi.total⟩
  have hle := hp.conserved.le_one p
  rw [countP_admitted] at hle
  rw [waiting, countP_waitingBlocks]
  omega

set_option maxRecDepth 40000 in
theorem served_of_undisturbed_suspended :
    ∃ k h, run (stepH srtCfg) (initH srtCfg zeroHeap)
        (toBlocked ++ mtsSteps 0 5 ++ ioSteps 3) = some (k, h) ∧
      h.blocks 0 = 1 ∧ h.served 0 = 1 ∧ h.missed = 0 := by
  refine ⟨_, _, rfl, by decide +kernel, by decide +kernel, ?_⟩
  exact (served_of_undisturbed srtCfg zeroHeap (toBlocked ++ mtsSteps 0 5 ++ ioSteps 3) _ _ rfl
    (by decide +kernel)).1

set_option maxRecDepth 40000 in
/-- Between the two looks of the I/O thread a tracker takes the only process out of BLOCKED. -/
theorem not_served : ¬ ∀ (c : Cfg) (heap : Heap) (es : List Event) (k : Kernel) (h : History),
    run (stepH c) (initH c heap) es = some (k, h) → h.missed = 0 := by
  intro hall
  have hmissed := hall srtCfg zeroHeap (toBlocked ++ ioSteps 2 ++ mtsSteps 0 2 ++ ioSteps 1) _ _ rfl
  revert hmissed
  decide +kernel

end Sski.Scheduling.IoRequests
