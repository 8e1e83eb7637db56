import Sski.Scheduling.Threads

/-!
What each thread can do, one case for each transition.

The relations below say of a step where the thread was, what it found there, and what it left
behind. The invariants go by their cases and never unfold a step.
-/

namespace Sski.Scheduling.Moves

open Sski.Cpu.Cycle (Instruction)
open Sski.Scheduling.Scheduler Sski.Scheduling.Threads

variable {c : Cfg} {k k' : Kernel}

/-! ### Removals -/

/-- A block was removed: it was in the queue, and has the id. -/
lemma pcbRemoveById_some {heap : Heap} {queue queue' : List Addr} {id : UInt32} {a : Addr}
    (h : pcbRemoveById heap queue id = (some a, queue')) :
    (heap a).id = id ∧ ∃ before behind, queue = before ++ a :: behind ∧
      queue' = before ++ behind := by
  obtain ⟨hfind, rfl⟩ := Prod.mk.inj h
  obtain ⟨hid, before, behind, rfl, hbefore⟩ := List.find?_eq_some_iff_append.mp hfind
  refine ⟨by simpa using hid, before, behind, rfl, ?_⟩
  rw [List.eraseP_append_right _ fun b hb => by simpa using hbefore b hb,
    List.eraseP_cons_of_pos (p := fun a => (heap a).id == id) hid]

/-- Nothing was removed: no block of the queue has the id. -/
lemma pcbRemoveById_none {heap : Heap} {queue queue' : List Addr} {id : UInt32}
    (h : pcbRemoveById heap queue id = (none, queue')) :
    queue' = queue ∧ ∀ a ∈ queue, (heap a).id ≠ id := by
  obtain ⟨hfind, rfl⟩ := Prod.mk.inj h
  have hnone : ∀ a ∈ queue, (heap a).id ≠ id := fun a ha => by
    simpa using List.find?_eq_none.mp hfind a ha
  exact ⟨List.eraseP_of_forall_not fun a ha => by simpa using hnone a ha, hnone⟩

/-! ### The long-term scheduler -/

inductive LtsMove (c : Cfg) (k : Kernel) : Kernel → Prop where
  | waitReqAdmit {n} : k.lts = .waitReqAdmit → k.reqAdmit = n + 1 →
      LtsMove c k { k with reqAdmit := n, lts := .waitDom }
  | waitDom {n} : k.lts = .waitDom → k.dom = n + 1 →
      LtsMove c k { k with dom := n, lts := .resume }
  | resume {a readySus} : k.lts = .resume → k.readySus = a :: readySus →
      LtsMove c k { k with readySus, lts := .setReady (some a) }
  | resumeNone : k.lts = .resume → k.readySus = [] → LtsMove c k { k with lts := .popNew }
  | popNew {a new} : k.lts = .popNew → k.new = a :: new →
      LtsMove c k { k with new, lts := .requestPageTable (some a) }
  | popNewNone : k.lts = .popNew → k.new = [] →
      LtsMove c k { k with lts := .requestPageTable none }
  | noPageTable {pcb} : k.lts = .requestPageTable pcb →
      LtsMove c k { k with lts := .setReady pcb }
  | pageTable {a pageTable} : k.lts = .requestPageTable (some a) →
      LtsMove c k { k with
        heap := modify k.heap a fun pcb => { pcb with pageTable }
        lts := .setReady (some a) }
  | setReadyNone : k.lts = .setReady none → LtsMove c k { k with lts := .signalExecute none }
  | setReady {a} : k.lts = .setReady (some a) →
      LtsMove c k { k with heap := setStatus k.heap a .ready, lts := .checkInterruption a }
  | raises {a} : k.lts = .checkInterruption a → raises c k a = true →
      LtsMove c k { k with lts := .sendInterrupt a }
  | raisesNot {a} : k.lts = .checkInterruption a → raises c k a = false →
      LtsMove c k { k with lts := .pushReady a }
  | sendInterrupt {a} : k.lts = .sendInterrupt a → LtsMove c k { k with lts := .pushReady a }
  | pushReady {a} : k.lts = .pushReady a →
      LtsMove c k { k with ready := k.ready ++ [a], lts := .signalExecute (some a) }
  | signalExecute {pcb} : k.lts = .signalExecute pcb →
      LtsMove c k { k with execute := k.execute + 1, lts := .waitReqAdmit }

lemma ltsMove {memory : Option (Option UInt32)} (h : ltsStep c k memory = some k') :
    LtsMove c k k' := by
  unfold ltsStep at h
  split at h
  · next hl =>
    split at h
    · cases h
    · next hn =>
      cases h
      exact .waitReqAdmit hl (by omega)
  · next hl =>
    split at h
    · cases h
    · next hn =>
      cases h
      exact .waitDom hl (by omega)
  · next hl =>
    split at h
    · next hq =>
      cases h
      exact .resume hl hq
    · next hq =>
      cases h
      exact .resumeNone hl hq
  · next hl =>
    split at h
    · next hq =>
      cases h
      exact .popNew hl hq
    · next hq =>
      cases h
      exact .popNewNone hl hq
  · next hl =>
    split at h
    · cases h
      exact .noPageTable hl
    · cases h
    · cases h
      exact .noPageTable hl
    · cases h
      exact .pageTable hl
  · next hl =>
    cases h
    exact .setReadyNone hl
  · next hl =>
    cases h
    exact .setReady hl
  · next hl =>
    split at h
    · next hr =>
      cases h
      exact .raises hl hr
    · next hr =>
      cases h
      exact .raisesNot hl (by simpa using hr)
  · next hl =>
    cases h
    exact .sendInterrupt hl
  · next hl =>
    cases h
    exact .pushReady hl
  · next hl =>
    cases h
    exact .signalExecute hl

/-! ### The short-term scheduler -/

inductive StsMove (c : Cfg) (k : Kernel) : Kernel → Prop where
  | waitExecute {n} {sts} : k.sts = .waitExecute → k.execute = n + 1 →
      (c.getNext = .fifo ∧ sts = .popReady ∨ c.getNext = .srt ∧ sts = .sortReady) →
      StsMove c k { k with execute := n, sts }
  | sortReady : k.sts = .sortReady →
      StsMove c k { k with ready := sortByEstimation k.heap k.ready, sts := .popReady }
  | popReady {a ready} : k.sts = .popReady → k.ready = a :: ready →
      StsMove c k { k with ready, sts := .setExecuting a }
  | popReadyNone : k.sts = .popReady → k.ready = [] → StsMove c k { k with sts := .waitExecute }
  | setExecuting {a} : k.sts = .setExecuting a →
      StsMove c k { k with
        heap := setStatus k.heap a .executing, sts := .setCurrentEstimation a }
  | setCurrentEstimation {a} : k.sts = .setCurrentEstimation a →
      StsMove c k { k with currentEstimation := (k.heap a).estimation, sts := .sendPcb a }
  | sendPcb {a} : k.sts = .sendPcb a →
      StsMove c k { k with cpu := some (k.heap a), sts := .destroySent a }
  | sendPcbFailed {a} : k.sts = .sendPcb a → StsMove c k { k with sts := .exitProcess a false }
  | destroySent {a} : k.sts = .destroySent a →
      StsMove c k { k with inUse := setInUse k.inUse a false, sts := .receivePcb }
  | receivePcb {pcb} {o : Outside} : k.sts = .receivePcb → k.cpu = some pcb →
      k.inUse o.addr = false →
      StsMove c k { k with
        heap := fill k.heap o.addr (received pcb o (k.heap o.addr))
        inUse := setInUse k.inUse o.addr true
        cpu := none
        sts := .setReal o.addr o.ioTime }
  | setReal {a ioTime real} : k.sts = .setReal a ioTime →
      StsMove c k { k with
        heap := modify k.heap a fun pcb => { pcb with real }
        sts := .clearCurrentEstimation a ioTime }
  | clearCurrentEstimation {a ioTime} : k.sts = .clearCurrentEstimation a ioTime →
      StsMove c k { k with currentEstimation := 0, sts := .switchStatus a ioTime }
  | switchBlocked {a ioTime} : k.sts = .switchStatus a ioTime → (k.heap a).status = .blocked →
      StsMove c k { k with sts := .setIo a ioTime }
  | switchReady {a ioTime} : k.sts = .switchStatus a ioTime → (k.heap a).status = .ready →
      StsMove c k { k with sts := .preEmpt a }
  | switchExit {a ioTime} : k.sts = .switchStatus a ioTime → (k.heap a).status ≠ .blocked →
      (k.heap a).status ≠ .ready → StsMove c k { k with sts := .exitProcess a true }
  | setIo {a ioTime} : k.sts = .setIo a ioTime →
      StsMove c k { k with
        heap := modify k.heap a fun pcb => { pcb with io := ioTime }, sts := .reSchedule a }
  | reSchedule {a} : k.sts = .reSchedule a →
      StsMove c k { k with
        heap := modify k.heap a fun pcb =>
          { pcb with estimation := c.nextEstimation pcb.real pcb.estimation }
        sts := .pushBlocked a }
  | pushBlocked {a} : k.sts = .pushBlocked a →
      StsMove c k { k with blocked := k.blocked ++ [a], sts := .notifyMts a }
  | notifyMts {a} : k.sts = .notifyMts a →
      StsMove c k { k with trackers := k.trackers ++ [⟨a, 0, none, .readPid⟩],
                           sts := .signalIoRequest }
  | signalIoRequest : k.sts = .signalIoRequest →
      StsMove c k { k with ioRequest := k.ioRequest + 1, sts := .signalExecute }
  | exitProcess {a sent} : k.sts = .exitProcess a sent →
      StsMove c k { k with sts := .destroyPcb a sent }
  | destroyPcb {a sent} : k.sts = .destroyPcb a sent →
      StsMove c k { k with inUse := setInUse k.inUse a false, sts := .signalDom sent }
  | signalDom {sent} {sts} : k.sts = .signalDom sent →
      (sts = .signalExecute ∨ sts = .waitExecute) →
      StsMove c k { k with dom := k.dom + 1, sts }
  | preEmpt {a} : k.sts = .preEmpt a →
      StsMove c k { k with heap := modify k.heap a preEmpted, sts := .pushReady a }
  | pushReady {a} : k.sts = .pushReady a →
      StsMove c k { k with ready := k.ready ++ [a], sts := .signalExecute }
  | signalExecute : k.sts = .signalExecute →
      StsMove c k { k with execute := k.execute + 1, sts := .waitExecute }

lemma stsMove {o : Outside} (h : stsStep c k o = some k') : StsMove c k k' := by
  unfold stsStep at h
  split at h
  · next hl =>
    split at h
    · cases h
    · next hn =>
      cases h
      refine .waitExecute hl (by omega) ?_
      split
      · next hg => exact .inl ⟨hg, rfl⟩
      · next hg => exact .inr ⟨hg, rfl⟩
  · next hl =>
    cases h
    exact .sortReady hl
  · next hl =>
    split at h
    · next hq =>
      cases h
      exact .popReady hl hq
    · next hq =>
      cases h
      exact .popReadyNone hl hq
  · next hl =>
    cases h
    exact .setExecuting hl
  · next hl =>
    cases h
    exact .setCurrentEstimation hl
  · next hl =>
    split at h
    · cases h
      exact .sendPcb hl
    · cases h
      exact .sendPcbFailed hl
  · next hl =>
    cases h
    exact .destroySent hl
  · next hl =>
    split at h
    · cases h
    · next hcpu =>
      split at h
      · cases h
      · next huse =>
        cases h
        exact .receivePcb hl hcpu (by simpa using huse)
  · next hl =>
    cases h
    exact .setReal hl
  · next hl =>
    cases h
    exact .clearCurrentEstimation hl
  · next hl =>
    split at h
    · next hs =>
      cases h
      exact .switchBlocked hl hs
    · next hs =>
      cases h
      exact .switchReady hl hs
    · next hb hr =>
      cases h
      exact .switchExit hl hb hr
  · next hl =>
    cases h
    exact .setIo hl
  · next hl =>
    cases h
    exact .reSchedule hl
  · next hl =>
    cases h
    exact .pushBlocked hl
  · next hl =>
    cases h
    exact .notifyMts hl
  · next hl =>
    cases h
    exact .signalIoRequest hl
  · next hl =>
    cases h
    exact .exitProcess hl
  · next hl =>
    cases h
    exact .destroyPcb hl
  · next sent hl =>
    cases h
    exact .signalDom hl (by cases sent <;> simp)
  · next hl =>
    cases h
    exact .preEmpt hl
  · next hl =>
    cases h
    exact .pushReady hl
  · next hl =>
    cases h
    exact .signalExecute hl

/-! ### The I/O thread -/

inductive IoMove (c : Cfg) (k : Kernel) : Kernel → Prop where
  | waitIoRequest {n} : k.io = .waitIoRequest → k.ioRequest = n + 1 →
      IoMove c k { k with ioRequest := n, io := .popBlockedSus }
  | popBlockedSus {a blockedSus} : k.io = .popBlockedSus → k.blockedSus = a :: blockedSus →
      IoMove c k { k with blockedSus, io := .setCurrentIo a }
  | popBlockedSusNone : k.io = .popBlockedSus → k.blockedSus = [] →
      IoMove c k { k with io := .popBlocked }
  | popBlocked {a blocked} : k.io = .popBlocked → k.blocked = a :: blocked →
      IoMove c k { k with blocked, io := .setCurrentIo a }
  | popBlockedNone : k.io = .popBlocked → k.blocked = [] →
      IoMove c k { k with io := .clearCurrentIo }
  | setCurrentIo {a} : k.io = .setCurrentIo a →
      IoMove c k { k with currentIo := (k.heap a).id, io := .sleep a }
  | sleep {a} : k.io = .sleep a → IoMove c k { k with io := .switchStatus a }
  | switchSuspended {a} : k.io = .switchStatus a → (k.heap a).status = .suspendedBlocked →
      IoMove c k { k with io := .existsBlockedSus a }
  | switchDefault {a} : k.io = .switchStatus a → (k.heap a).status ≠ .suspendedBlocked →
      IoMove c k { k with io := .setReady a }
  | exists {a b} : k.io = .existsBlockedSus a → b ∈ k.blockedSus → (k.heap b).id = (k.heap a).id →
      IoMove c k { k with io := .removeBlockedSus a }
  | existsNot {a} : k.io = .existsBlockedSus a →
      (∀ b ∈ k.blockedSus, (k.heap b).id ≠ (k.heap a).id) →
      IoMove c k { k with io := .setSuspendedReady a }
  | removeBlockedSus {a b before behind} : k.io = .removeBlockedSus a →
      k.blockedSus = before ++ b :: behind → (k.heap b).id = (k.heap a).id →
      IoMove c k { k with blockedSus := before ++ behind, io := .setSuspendedReady b }
  | setSuspendedReady {a} : k.io = .setSuspendedReady a →
      IoMove c k { k with heap := setStatus k.heap a .suspendedReady, io := .pushReadySus a }
  | pushReadySus {a} : k.io = .pushReadySus a →
      IoMove c k { k with readySus := k.readySus ++ [a], io := .signalReqAdmit }
  | signalReqAdmit : k.io = .signalReqAdmit →
      IoMove c k { k with reqAdmit := k.reqAdmit + 1, io := .clearCurrentIo }
  | setReady {a} : k.io = .setReady a →
      IoMove c k { k with heap := setStatus k.heap a .ready, io := .pushReady a }
  | pushReady {a} : k.io = .pushReady a →
      IoMove c k { k with ready := k.ready ++ [a], io := .checkInterruption a }
  | raises {a} : k.io = .checkInterruption a → raises c k a = true →
      IoMove c k { k with io := .sendInterrupt a }
  | raisesNot {a} : k.io = .checkInterruption a → raises c k a = false →
      IoMove c k { k with io := .signalExecute }
  | sendInterrupt {a} : k.io = .sendInterrupt a → IoMove c k { k with io := .signalExecute }
  | signalExecute : k.io = .signalExecute →
      IoMove c k { k with execute := k.execute + 1, io := .clearCurrentIo }
  | clearCurrentIo : k.io = .clearCurrentIo →
      IoMove c k { k with currentIo := uint32Max, io := .waitIoRequest }

lemma ioMove (h : ioStep c k = some k') : IoMove c k k' := by
  unfold ioStep at h
  split at h
  · next hl =>
    split at h
    · cases h
    · next hn =>
      cases h
      exact .waitIoRequest hl (by omega)
  · next hl =>
    split at h
    · next hq =>
      cases h
      exact .popBlockedSus hl hq
    · next hq =>
      cases h
      exact .popBlockedSusNone hl hq
  · next hl =>
    split at h
    · next hq =>
      cases h
      exact .popBlocked hl hq
    · next hq =>
      cases h
      exact .popBlockedNone hl hq
  · next hl =>
    cases h
    exact .setCurrentIo hl
  · next hl =>
    cases h
    exact .sleep hl
  · next hl =>
    split at h
    · next hs =>
      cases h
      exact .switchSuspended hl hs
    · next hs =>
      cases h
      exact .switchDefault hl hs
  · next hl =>
    split at h
    · next hex =>
      cases h
      obtain ⟨b, hb, hid⟩ := List.any_eq_true.mp hex
      exact .exists hl hb (by simpa using hid)
    · next hex =>
      cases h
      refine .existsNot hl fun b hb hid => hex ?_
      exact List.any_eq_true.mpr ⟨b, hb, by simpa using hid⟩
  · next hl =>
    split at h
    · cases h
    · next hrem =>
      cases h
      obtain ⟨hid, before, behind, hq, rfl⟩ := pcbRemoveById_some hrem
      exact .removeBlockedSus hl hq hid
  · next hl =>
    cases h
    exact .setSuspendedReady hl
  · next hl =>
    cases h
    exact .pushReadySus hl
  · next hl =>
    cases h
    exact .signalReqAdmit hl
  · next hl =>
    cases h
    exact .setReady hl
  · next hl =>
    cases h
    exact .pushReady hl
  · next hl =>
    split at h
    · next hr =>
      cases h
      exact .raises hl hr
    · next hr =>
      cases h
      exact .raisesNot hl (by simpa using hr)
  · next hl =>
    cases h
    exact .sendInterrupt hl
  · next hl =>
    cases h
    exact .signalExecute hl
  · next hl =>
    cases h
    exact .clearCurrentIo hl

/-! ### Trackers -/

inductive MtsMove (k : Kernel) (i : ℕ) (t : Tracker) : Kernel → Prop where
  | readPid : t.pc = .readPid →
      MtsMove k i t { k with
        trackers := k.trackers.set i { t with pid := (k.heap t.pcb).id, pc := .existsBlocked } }
  | existsBlocked {b} : t.pc = .existsBlocked → b ∈ k.blocked → (k.heap b).id = t.pid →
      MtsMove k i t { k with trackers := k.trackers.set i { t with pc := .removeBlocked } }
  | existsBlockedNot : t.pc = .existsBlocked → (∀ b ∈ k.blocked, (k.heap b).id ≠ t.pid) →
      MtsMove k i t { k with trackers := k.trackers.set i { t with pc := .testCurrentIo } }
  | testCurrentIo : t.pc = .testCurrentIo → k.currentIo = t.pid →
      MtsMove k i t { k with trackers := k.trackers.set i { t with pc := .removeBlocked } }
  | testCurrentIoNot : t.pc = .testCurrentIo → k.currentIo ≠ t.pid →
      MtsMove k i t { k with trackers := k.trackers.set i { t with pc := .ended } }
  | removeBlocked {b before behind} : t.pc = .removeBlocked →
      k.blocked = before ++ b :: behind → (k.heap b).id = t.pid →
      MtsMove k i t { k with
        blocked := before ++ behind
        trackers := k.trackers.set i { t with removed := some b, pc := .signalDom } }
  | removeBlockedNone : t.pc = .removeBlocked → (∀ b ∈ k.blocked, (k.heap b).id ≠ t.pid) →
      MtsMove k i t { k with
        trackers := k.trackers.set i { t with removed := none, pc := .signalDom } }
  | signalDom : t.pc = .signalDom →
      MtsMove k i t { k with
        dom := k.dom + 1
        trackers := k.trackers.set i { t with pc := .setSuspendedBlocked } }
  | setSuspendedBlocked : t.pc = .setSuspendedBlocked →
      MtsMove k i t { k with
        heap := setStatus k.heap t.target .suspendedBlocked
        trackers := k.trackers.set i { t with pc := .pushBlockedSus } }
  | pushBlockedSus : t.pc = .pushBlockedSus →
      MtsMove k i t { k with
        blockedSus := k.blockedSus ++ [t.target]
        trackers := k.trackers.set i { t with pc := .sendSwap } }
  | sendSwap : t.pc = .sendSwap →
      MtsMove k i t { k with trackers := k.trackers.set i { t with pc := .ended } }

lemma mtsMove {i : ℕ} (h : mtsStep k i = some k') :
    ∃ t, k.trackers[i]? = some t ∧ MtsMove k i t k' := by
  unfold mtsStep at h
  split at h
  · cases h
  next t ht =>
  refine ⟨t, ht, ?_⟩
  split at h
  · next hl =>
    cases h
    exact .readPid hl
  · next hl =>
    split at h
    · next hex =>
      cases h
      obtain ⟨b, hb, hid⟩ := List.any_eq_true.mp hex
      exact .existsBlocked hl hb (by simpa using hid)
    · next hex =>
      cases h
      refine .existsBlockedNot hl fun b hb hid => hex ?_
      exact List.any_eq_true.mpr ⟨b, hb, by simpa using hid⟩
  · next hl =>
    split at h
    · next hio =>
      cases h
      exact .testCurrentIo hl hio
    · next hio =>
      cases h
      exact .testCurrentIoNot hl hio
  · next hl =>
    cases hrem : pcbRemoveById k.heap k.blocked t.pid with
    | mk removed blocked =>
      rw [hrem] at h
      cases h
      cases removed with
      | some b =>
        obtain ⟨hid, before, behind, hq, rfl⟩ := pcbRemoveById_some hrem
        exact .removeBlocked hl hq hid
      | none =>
        obtain ⟨rfl, hnone⟩ := pcbRemoveById_none hrem
        exact .removeBlockedNone hl hnone
  · next hl =>
    cases h
    exact .signalDom hl
  · next hl =>
    cases h
    exact .setSuspendedBlocked hl
  · next hl =>
    cases h
    exact .pushBlockedSus hl
  · next hl =>
    cases h
    exact .sendSwap hl
  · cases h

/-! ### The pool -/

lemma lt_maxPids {pool : List Bool} (hlen : pool.length = maxPids) {j : ℕ} {taken : Bool}
    (h : pool[j]? = some taken) : j < maxPids := by
  rw [← hlen]
  exact (List.getElem?_eq_some_iff.mp h).1

lemma toNat_ofNat_of_lt {j : ℕ} (hj : j < maxPids) : (UInt32.ofNat j).toNat = j :=
  UInt32.toNat_ofNat_of_lt' (lt_trans hj (by decide))

lemma ofNat_ne_undefined {j : ℕ} (hj : j < maxPids) : UInt32.ofNat j ≠ undefined := by
  intro heq
  have htoNat := toNat_ofNat_of_lt hj
  rw [heq] at htoNat
  exact absurd (htoNat ▸ hj) (by decide)

/-- The first id that is not taken, or none. -/
lemma getPidLibre_cases (pool : List Bool) :
    (∃ j, pool[j]? = some false ∧ getPidLibre pool = (pool.set j true, UInt32.ofNat j)) ∨
    ((∀ taken ∈ pool, taken = true) ∧ getPidLibre pool = (pool, undefined)) := by
  unfold getPidLibre
  cases hfind : pool.findIdx? (! ·) with
  | some j =>
    obtain ⟨hlt, hfree, -⟩ := List.findIdx?_eq_some_iff_getElem.mp hfind
    refine .inl ⟨j, ?_, rfl⟩
    rw [List.getElem?_eq_getElem hlt]
    simpa using hfree
  | none =>
    refine .inr ⟨fun taken htaken => ?_, rfl⟩
    simpa using List.findIdx?_eq_none_iff.mp hfind taken htaken

/-! ### Consoles -/

inductive ConsoleMove (c : Cfg) (k : Kernel) (i : ℕ) (s : Console) : Kernel → Prop where
  | newProcess {size} : s.pc = .receive →
      ConsoleMove c k i s { k with consoles := k.consoles.set i ⟨s.senderPid, .getPidLibre size⟩ }
  | cmd {instructions} : s.pc = .receive →
      ConsoleMove c k i s { k with
        consoles := k.consoles.set i ⟨s.senderPid, .getPcbByPid instructions⟩ }
  | other : s.pc = .receive → ConsoleMove c k i s k
  | getPidLibre {size j} : s.pc = .getPidLibre size → k.pool[j]? = some false →
      UInt32.ofNat j ≠ undefined →
      ConsoleMove c k i s { k with
        pool := k.pool.set j true
        consoles := k.consoles.set i ⟨UInt32.ofNat j, .addPcb size⟩ }
  | getPidLibreNone {size pid pool} : s.pc = .getPidLibre size →
      getPidLibre k.pool = (pool, pid) → pid = undefined →
      ConsoleMove c k i s { k with pool, consoles := k.consoles.set i ⟨pid, .receive⟩ }
  | addPcb {size addr} : s.pc = .addPcb size → k.inUse addr = false →
      ConsoleMove c k i s { k with
        heap := fill k.heap addr (newPcb s.senderPid size c.estimacionInicial)
        inUse := setInUse k.inUse addr true
        pcbs := k.pcbs ++ [addr]
        consoles := k.consoles.set i ⟨s.senderPid, .receive⟩ }
  | getPcbByPidNone {instructions} : s.pc = .getPcbByPid instructions →
      (∀ a ∈ k.pcbs, (k.heap a).id ≠ s.senderPid) →
      ConsoleMove c k i s { k with consoles := k.consoles.set i ⟨s.senderPid, .receive⟩ }
  | getPcbByPid {instructions a before behind} : s.pc = .getPcbByPid instructions →
      k.pcbs = before ++ a :: behind → (k.heap a).id = s.senderPid →
      ConsoleMove c k i s { k with
        pcbs := before ++ behind
        consoles := k.consoles.set i ⟨s.senderPid, .setInstructions a instructions⟩ }
  | setInstructions {a instructions} : s.pc = .setInstructions a instructions →
      ConsoleMove c k i s { k with
        heap := modify k.heap a fun pcb => { pcb with instructions }
        consoles := k.consoles.set i ⟨s.senderPid, .pushNew a⟩ }
  | pushNew {a} : s.pc = .pushNew a →
      ConsoleMove c k i s { k with
        new := k.new ++ [a]
        consoles := k.consoles.set i ⟨s.senderPid, .signalReqAdmit⟩ }
  | signalReqAdmit : s.pc = .signalReqAdmit →
      ConsoleMove c k i s { k with
        reqAdmit := k.reqAdmit + 1
        consoles := k.consoles.set i ⟨s.senderPid, .receive⟩ }

lemma routineMove {i : ℕ} {m : Message} (h : routineStep k i m = some k') :
    ∃ s, k.consoles[i]? = some s ∧ s.pc = .receive ∧ ConsoleMove c k i s k' := by
  unfold routineStep at h
  split at h
  · next pid hs =>
    refine ⟨_, hs, rfl, ?_⟩
    split at h
    · cases h
      exact .newProcess rfl
    · cases h
      exact .cmd rfl
    · cases h
      exact .other rfl
  · cases h

lemma consoleMove {i : ℕ} {addr : Addr} (h : consoleStep c k i addr = some k') :
    ∃ s, k.consoles[i]? = some s ∧ ConsoleMove c k i s k' := by
  unfold consoleStep at h
  split at h
  · cases h
  next pid pc hs =>
  refine ⟨_, hs, ?_⟩
  split at h
  · cases h
  · rcases getPidLibre_cases k.pool with ⟨j, hfree, hget⟩ | ⟨-, hget⟩
    · simp only [hget] at h
      split at h
      · next hne =>
        cases h
        exact .getPidLibre rfl hfree hne
      · next hne =>
        cases h
        exact .getPidLibreNone rfl hget (by simpa using hne)
    · simp only [hget, ne_eq, not_true_eq_false, if_false] at h
      cases h
      exact .getPidLibreNone rfl hget rfl
  · split at h
    · cases h
    · next huse =>
      cases h
      exact .addPcb rfl (by simpa using huse)
  · split at h
    · next hrem =>
      cases h
      exact .getPcbByPidNone rfl (pcbRemoveById_none hrem).2
    · next hrem =>
      cases h
      obtain ⟨hid, before, behind, hq, rfl⟩ := pcbRemoveById_some hrem
      exact .getPcbByPid rfl hq hid
  · cases h
    exact .setInstructions rfl
  · cases h
    exact .pushNew rfl
  · cases h
    exact .signalReqAdmit rfl

/-! ### All of them -/

inductive Move (c : Cfg) (k : Kernel) : Kernel → Prop where
  | connect : Move c k { k with consoles := k.consoles ++ [⟨0, .receive⟩] }
  | console {i s} {k' : Kernel} : k.consoles[i]? = some s → ConsoleMove c k i s k' → Move c k k'
  | lts {k' : Kernel} : LtsMove c k k' → Move c k k'
  | sts {k' : Kernel} : StsMove c k k' → Move c k k'
  | io {k' : Kernel} : IoMove c k k' → Move c k k'
  | mts {i t} {k' : Kernel} : k.trackers[i]? = some t → MtsMove k i t k' → Move c k k'
  | scribble {a pcb} : k.inUse a = false →
      Move c k { k with heap := fill k.heap a pcb }

theorem move {e : Event} (h : step c k e = some k') : Move c k k' := by
  cases e with
  | connect =>
    cases h
    exact .connect
  | message i m =>
    obtain ⟨s, hs, -, hm⟩ := routineMove (c := c) h
    exact .console hs hm
  | console i addr =>
    obtain ⟨s, hs, hm⟩ := consoleMove h
    exact .console hs hm
  | lts memory => exact .lts (ltsMove h)
  | sts o => exact .sts (stsMove h)
  | io => exact .io (ioMove h)
  | mts i =>
    obtain ⟨t, ht, hm⟩ := mtsMove h
    exact .mts ht hm
  | scribble a pcb =>
    simp only [step] at h
    split at h
    · cases h
    · next huse =>
      cases h
      exact .scribble (by simpa using huse)

end Sski.Scheduling.Moves
