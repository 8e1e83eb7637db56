import Sski.Scheduling.OnePlace
import Sski.Scheduling.Tokens

/-!
The semaphore `dom` against the processes that are admitted and not suspended.

A slot is taken when a process is admitted, and given back when it is destroyed, or when a
tracker suspends it. A tracker does not look whether the process is suspended already.
-/

namespace Sski.Scheduling.Multiprogramming

open Sski.Lib.Runs Sski.Lib.Counting Sski.Scheduling.Scheduler Sski.Scheduling.Threads
open Sski.Scheduling.Moves Sski.Scheduling.History Sski.Scheduling.Places
open Sski.Scheduling.Conservation Sski.Scheduling.Suspension Sski.Scheduling.OnePlace
open Sski.Scheduling.Tokens

/-! ### Active processes -/

/-- The block of which a tracker has not given back the slot yet. -/
def unreleased (t : Tracker) : Option Addr :=
  match t.pc with
  | .signalDom => t.removed
  | _ => none

/-- The process that does I/O is suspended: a tracker has given back its slot. -/
def suspendedIo (k : Kernel) (a : Addr) : Bool :=
  decide ((k.heap a).status = .suspendedBlocked) ||
    k.trackers.any fun t => decide (t.pc = .setSuspendedBlocked) && (trackerExtra t == some a)

def activeIo (k : Kernel) : Option Addr :=
  match k.io with
  | .setCurrentIo a | .sleep a | .switchStatus a => if suspendedIo k a then none else some a
  | .setReady a | .pushReady a => some a
  | _ => none

/-- The blocks of processes that are admitted, and neither terminated nor suspended. -/
def activeBlocks (k : Kernel) : List Addr :=
  (ltsHolds k.lts).toList ++ k.ready ++ (stsHolds k.sts).toList ++ k.blocked ++
    k.trackers.filterMap unreleased ++ (activeIo k).toList

def activeIds (k : Kernel) : List UInt32 :=
  (activeBlocks k).map (fun a => (k.heap a).id) ++ away k

def active (k : Kernel) (h : History) : ℕ := h.live.countP fun p => (activeIds k).contains p

/-- The long-term scheduler has a slot, and no process for it yet. -/
def slotLts : Lts → ℕ
  | .resume | .popNew => 1
  | _ => 0

/-- In `terminate`, the slot of the process that was destroyed. -/
def slotSts : Sts → ℕ
  | .signalDom _ => 1
  | _ => 0

/-! ### The invariant -/

def blocking : Sts → Option Addr
  | .setIo a _ | .reSchedule a | .pushBlocked a => some a
  | _ => none

structure Slots (c : Cfg) (k : Kernel) : Prop where
  total : k.dom + (activeBlocks k).length + (away k).length + slotLts k.lts + slotSts k.sts =
    c.gradoMultiprogramacion
  blocked : ∀ a ∈ k.blocked, (k.heap a).status ≠ .suspendedBlocked
  blocking : ∀ a, blocking k.sts = some a → (k.heap a).status ≠ .suspendedBlocked
  deciding : ∀ a, k.io = .existsBlockedSus a → (k.heap a).status = .suspendedBlocked
  fresh : ∀ t ∈ k.trackers, t.pc = .signalDom → ∀ a, trackerExtra t = some a →
    (k.heap a).status ≠ .suspendedBlocked

/-- A tracker that removes nothing from BLOCKED finds the process not suspended. -/
def Fresh (k : Kernel) : Event → Prop
  | .mts i => ∀ t ∈ k.trackers[i]?, t.pc = .removeBlocked →
      pcbExists k.heap k.blocked t.pid = true ∨ (k.heap t.pcb).status ≠ .suspendedBlocked
  | _ => True

instance (k : Kernel) : (e : Event) → Decidable (Fresh k e)
  | .mts i => inferInstanceAs (Decidable (∀ t ∈ k.trackers[i]?, t.pc = .removeBlocked →
      pcbExists k.heap k.blocked t.pid = true ∨ (k.heap t.pcb).status ≠ .suspendedBlocked))
  | .connect | .message .. | .console .. | .lts .. | .sts .. | .io | .scribble .. => .isTrue trivial

variable {c : Cfg} {k k' : Kernel} {h h' : History}

lemma length_activeBlocks (k : Kernel) : (activeBlocks k).length =
    (ltsHolds k.lts).isSome.toNat + k.ready.length + (stsHolds k.sts).isSome.toNat +
      k.blocked.length + k.trackers.countP (fun t => (unreleased t).isSome) +
      (activeIo k).isSome.toNat := by
  have hlen : ∀ o : Option Addr, o.toList.length = o.isSome.toNat := fun o => by cases o <;> rfl
  simp only [activeBlocks, List.length_append, hlen, List.length_filterMap_eq_countP]

lemma slots_init (heap : Heap) : Slots c (initKernel c heap) := by
  refine ⟨?_, ?_, ?_, ?_, ?_⟩ <;>
  simp [initKernel, length_activeBlocks, ltsHolds, stsHolds, activeIo, away, slotLts, slotSts,
    blocking]

/-! ### Threads that do no I/O and suspend nothing -/

lemma activeIo_congr (hio : k'.io = k.io)
    (hsus : ∀ a, ioHolds k.io = some a → suspendedIo k' a = suspendedIo k a) :
    activeIo k' = activeIo k := by
  unfold activeIo
  rw [hio]
  cases hcase : k.io with
  | setCurrentIo a | sleep a | switchStatus a => simp only [hsus a (by rw [hcase]; rfl)]
  | _ => rfl

lemma activeIo_quiet (hk : Conserved k h) {x : Place} (hw : Written k k' x) (hx : x ≠ .io)
    (hio : k'.io = k.io)
    (htrackers : ∃ ts, k'.trackers = k.trackers ++ ts ∧ ∀ t ∈ ts, t.pc = .readPid) :
    activeIo k' = activeIo k := by
  obtain ⟨ts, htrackers, hts⟩ := htrackers
  refine activeIo_congr hio fun a ha => ?_
  have hnew : (ts.any fun t => decide (t.pc = .setSuspendedBlocked) &&
      (trackerExtra t == some a)) = false :=
    List.any_eq_false.mpr fun t ht => by simp [hts t ht]
  rw [suspendedIo, suspendedIo, hw.kept hk (Conserved.io_mem ha) (Ne.symm hx), htrackers,
    List.any_append, hnew, Bool.or_false]

lemma Slots.quiet (hk : Conserved k h) (hs : Suspensions k h) (hi : Slots c k) {x : Place}
    (hw : Written k k' x) (hx : x ≠ .blocked ∧ x ≠ .suspension ∧ x ≠ .io)
    (hio : k'.io = k.io)
    (htrackers : ∃ ts, k'.trackers = k.trackers ++ ts ∧ ∀ t ∈ ts, t.pc = .readPid)
    (htotal : k'.dom + (activeBlocks k').length + (away k').length + slotLts k'.lts +
      slotSts k'.sts = c.gradoMultiprogramacion)
    (hblocked : ∀ a ∈ k'.blocked, a ∈ k.blocked ∨ (k'.heap a).status ≠ .suspendedBlocked)
    (hblocking : ∀ a, Multiprogramming.blocking k'.sts = some a →
      (k'.heap a).status ≠ .suspendedBlocked) : Slots c k' := by
  obtain ⟨hx₁, hx₂, hx₃⟩ := hx
  obtain ⟨ts, htrackers, hts⟩ := htrackers
  refine ⟨htotal, fun a ha => ?_, hblocking, fun a ha => ?_, fun t ht hpc a ha => ?_⟩
  · rcases hblocked a ha with hmem | hne
    · rw [hw.kept hk (y := .blocked) hmem (Ne.symm hx₁)]
      exact hi.blocked a hmem
    · exact hne
  · rw [hio] at ha
    rw [hw.kept hk (Conserved.io_mem (by rw [ha]; rfl)) (Ne.symm hx₃)]
    exact hi.deciding a ha
  · rw [htrackers] at ht
    rcases List.mem_append.mp ht with ht | ht
    · have hheld := Conserved.io_mem (ioHolds_of_serves (hs.extra t ht a ha))
      rw [hw.kept hk hheld (Ne.symm hx₃)]
      exact hi.fresh t ht hpc a ha
    · rw [hts t ht] at hpc
      cases hpc

lemma mem_of_blocking {a : Addr} (ha : blocking k.sts = some a) : a ∈ blocksAt k .execution := by
  refine sts_mem ?_
  unfold blocking at ha
  split at ha <;> simp_all [stsHolds]

lemma Slots.lts (hp : Placed k h) (ht : Tokens k) (hi : Slots c k) (hm : LtsMove c k k') :
    Slots c k' := by
  have hw := written_lts hm
  have hsame : k'.io = k.io ∧ k'.trackers = k.trackers ∧ k'.blocked = k.blocked ∧
      k'.sts = k.sts := by cases hm <;> exact ⟨rfl, rfl, rfl, rfl⟩
  obtain ⟨hio, htrackers, hblocked, hsts⟩ := hsame
  have hnew : ∃ ts, k'.trackers = k.trackers ++ ts ∧ ∀ t ∈ ts, t.pc = .readPid :=
    ⟨[], by simp [htrackers], by simp⟩
  have hactive := activeIo_quiet hp.conserved hw (by decide) hio hnew
  refine hi.quiet hp.conserved hp.suspensions hw (by decide) hio hnew ?_ (fun a ha => ?_)
    fun a ha => ?_
  · have htotal := hi.total
    rw [length_activeBlocks] at htotal ⊢
    rw [hactive]
    cases hm with
    | waitReqAdmit hl hn | waitDom hl hn | resume hl hq | resumeNone hl | popNew hl hq
    | noPageTable hl | pageTable hl | setReadyNone hl | setReady hl | raises hl | raisesNot hl
    | sendInterrupt hl | pushReady hl | signalExecute hl =>
      simp_all [ltsHolds, slotLts, away]
      try omega
    | popNewNone hl hq => exact absurd hq (ht.popNew hl)
  · exact .inl (hblocked ▸ ha)
  · rw [hsts] at ha
    rw [hw.kept hp.conserved (mem_of_blocking ha) (by decide)]
    exact hi.blocking a ha

lemma Slots.total_sts (hk : Conserved k h) (hi : Slots c k) (hm : StsMove c k k')
    (hactive : activeIo k' = activeIo k) :
    k'.dom + (activeBlocks k').length + (away k').length + slotLts k'.lts + slotSts k'.sts =
      c.gradoMultiprogramacion := by
  have htotal := hi.total
  rw [length_activeBlocks] at htotal ⊢
  rw [hactive]
  cases hm with
  | @destroySent a hl =>
    obtain ⟨pcb, hcpu, -⟩ := Option.map_eq_some_iff.mp (hk.sent a hl)
    simp [hl, hcpu, stsHolds, slotSts, away] at htotal ⊢
    omega
  | receivePcb hl hcpu huse =>
    simp [hl, hcpu, stsHolds, slotSts, away] at htotal ⊢
    omega
  | waitExecute hl hn hnext =>
    rcases hnext with ⟨-, rfl⟩ | ⟨-, rfl⟩ <;> simpa [hl, stsHolds, slotSts, away] using htotal
  | signalDom hl hsts =>
    rcases hsts with rfl | rfl <;>
    · simp [hl, stsHolds, slotSts, away] at htotal ⊢
      omega
  | sortReady hl => simpa [hl, stsHolds, slotSts, away, sortByEstimation] using htotal
  | notifyMts hl => simpa [hl, stsHolds, slotSts, away, unreleased] using htotal
  | popReady hl hq | popReadyNone hl hq | setExecuting hl | setCurrentEstimation hl | sendPcb hl
  | sendPcbFailed hl | setReal hl | clearCurrentEstimation hl | switchBlocked hl | switchReady hl
  | switchExit hl | setIo hl | reSchedule hl | pushBlocked hl | signalIoRequest hl | exitProcess hl
  | destroyPcb hl | preEmpt hl | pushReady hl | signalExecute hl =>
    simp_all [stsHolds, slotSts, away]
    try omega

lemma Slots.sts (hp : Placed k h) (hi : Slots c k) (hm : StsMove c k k') : Slots c k' := by
  have hw := written_sts hm
  have hio : k'.io = k.io := by cases hm <;> rfl
  have hnew : ∃ ts, k'.trackers = k.trackers ++ ts ∧ ∀ t ∈ ts, t.pc = .readPid := by
    cases hm with
    | @notifyMts a hl => exact ⟨_, rfl, by simp⟩
    | _ => exact ⟨[], by simp, by simp⟩
  have hactive := activeIo_quiet hp.conserved hw (by decide) hio hnew
  refine hi.quiet hp.conserved hp.suspensions hw (by decide) hio hnew
    (hi.total_sts hp.conserved hm hactive) (fun a ha => ?_) fun a ha => ?_
  · cases hm with
    | @pushBlocked b hl =>
      rcases List.mem_append.mp ha with ha | ha
      · exact .inl ha
      · obtain rfl := List.mem_singleton.mp ha
        exact .inr (hi.blocking a (by rw [hl]; rfl))
    | _ => exact .inl ha
  · cases hm with
    | switchBlocked hl hs =>
      obtain rfl := Option.some_injective _ ha
      simp [hs]
    | @setIo b _ hl | @reSchedule b hl =>
      obtain rfl := Option.some_injective _ ha
      rw [modify_field Pcb.status (by intro; rfl)]
      exact hi.blocking b (by rw [hl]; rfl)
    | waitExecute hl hn hnext => rcases hnext with ⟨-, rfl⟩ | ⟨-, rfl⟩ <;> cases ha
    | signalDom hl hsts => rcases hsts with rfl | rfl <;> cases ha
    | _ => cases ha

lemma Slots.unseen (hp : Placed k h) (hi : Slots c k) (hw : Written k k' .new)
    (hio : k'.io = k.io) (htrackers : k'.trackers = k.trackers) (hblocked : k'.blocked = k.blocked)
    (hready : k'.ready = k.ready) (hlts : k'.lts = k.lts) (hsts : k'.sts = k.sts)
    (hcpu : k'.cpu = k.cpu) (hdom : k'.dom = k.dom) : Slots c k' := by
  have hnew : ∃ ts, k'.trackers = k.trackers ++ ts ∧ ∀ t ∈ ts, t.pc = .readPid :=
    ⟨[], by simp [htrackers], by simp⟩
  have hactive := activeIo_quiet hp.conserved hw (by decide) hio hnew
  refine hi.quiet hp.conserved hp.suspensions hw (by decide) hio hnew ?_ (fun a ha => ?_)
    fun a ha => ?_
  · have htotal := hi.total
    rw [length_activeBlocks] at htotal ⊢
    rwa [hactive, hdom, hlts, hready, hsts, hblocked, htrackers, away, hsts, hcpu]
  · exact .inl (hblocked ▸ ha)
  · rw [hsts] at ha
    rw [hw.kept hp.conserved (mem_of_blocking ha) (by decide)]
    exact hi.blocking a ha

lemma Slots.console (hp : Placed k h) (hi : Slots c k) {i : ℕ} {s : Console}
    (hm : ConsoleMove c k i s k') : Slots c k' := by
  have hw := written_console hm .new
  cases hm <;> exact hi.unseen hp hw rfl rfl rfl rfl rfl rfl rfl rfl

/-! ### The I/O thread -/

/-- Nobody has given back the slot of a block that nobody suspends. -/
lemma suspendedIo_eq_false (hextra : ∀ t ∈ k.trackers, trackerExtra t = none) {a : Addr}
    (hstatus : (k.heap a).status ≠ .suspendedBlocked) : suspendedIo k a = false := by
  have hnone : (k.trackers.any fun t => decide (t.pc = .setSuspendedBlocked) &&
      (trackerExtra t == some a)) = false :=
    List.any_eq_false.mpr fun t ht => by simp [hextra t ht]
  simp [suspendedIo, hstatus, hnone]

lemma suspendedIo_of_status {a : Addr} (hstatus : (k.heap a).status = .suspendedBlocked) :
    suspendedIo k a = true := by
  simp [suspendedIo, hstatus]

lemma Slots.total_io (hp : Placed k h) (hi : Slots c k) (htimely : Timely k .io)
    (hm : IoMove c k k') :
    k'.dom + (activeBlocks k').length + (away k').length + slotLts k'.lts + slotSts k'.sts =
      c.gradoMultiprogramacion := by
  obtain ⟨hk, hs⟩ := hp
  have htotal := hi.total
  have haway : away k' = away k := (shuffled_io hk hs hm).away
  rw [length_activeBlocks] at htotal ⊢
  rw [haway]
  cases hm with
  | @popBlockedSus a blockedSus hl hq =>
    have hold : activeIo k = none := by simp [activeIo, hl]
    have hnew : activeIo { k with blockedSus, io := .setCurrentIo a } = none := by
      have hstatus := hs.status a (by simp [hq])
      simp [activeIo, suspendedIo, hstatus]
    rw [hnew]
    rwa [hold] at htotal
  | @popBlocked a blocked hl hq =>
    have hold : activeIo k = none := by simp [activeIo, hl]
    have hextra := hs.noExtra (by simp [hl, ioServes])
    have hnew : activeIo { k with blocked, io := .setCurrentIo a } = some a := by
      have hfree := suspendedIo_eq_false (k := { k with blocked, io := .setCurrentIo a }) hextra
        (hi.blocked a (by simp [hq]))
      simp [activeIo, hfree]
    rw [hnew]
    rw [hold] at htotal
    simp only [hq, List.length_cons, Option.isSome_some, Option.isSome_none, Bool.toNat_true,
      Bool.toNat_false] at htotal ⊢
    omega
  | @switchSuspended a hl hstatus =>
    have hold : activeIo k = none := by simp [activeIo, hl, suspendedIo_of_status hstatus]
    rw [hold] at htotal
    exact htotal
  | @switchDefault a hl hstatus =>
    have hextra := hs.noExtra_of_ne (a := a) (by simp [hl, ioServes])
      (htimely a (by simp [decided, hl, hstatus]))
    have hold : activeIo k = some a := by
      simp [activeIo, hl, suspendedIo_eq_false hextra hstatus]
    rw [hold] at htotal
    exact htotal
  | @setCurrentIo a hl | @sleep a hl =>
    have hold : activeIo k = if suspendedIo k a then none else some a := by simp [activeIo, hl]
    rw [hold] at htotal
    exact htotal
  | pushReady hl =>
    have hold : (activeIo k).isSome = true := by simp [activeIo, hl]
    rw [hold] at htotal
    simp [activeIo] at htotal ⊢
    omega
  | setReady hl =>
    have hold : (activeIo k).isSome = true := by simp [activeIo, hl]
    rw [hold] at htotal
    simpa [activeIo] using htotal
  | waitIoRequest hl hn | popBlockedSusNone hl hq | popBlockedNone hl hq | «exists» hl hb hid
  | existsNot hl hnone | removeBlockedSus hl hq hid | setSuspendedReady hl | pushReadySus hl
  | signalReqAdmit hl | raises hl | raisesNot hl | sendInterrupt hl | signalExecute hl
  | clearCurrentIo hl =>
    have hold : (activeIo k).isSome = false := by simp [activeIo, hl]
    rw [hold] at htotal
    simpa [activeIo] using htotal

lemma Slots.io (hp : Placed k h) (hi : Slots c k) (htimely : Timely k .io) (hm : IoMove c k k') :
    Slots c k' := by
  have hw := written_io hm
  have hk := hp.conserved
  have hsts : k'.sts = k.sts := by cases hm <;> rfl
  refine ⟨hi.total_io hp htimely hm, fun a ha => ?_, fun a ha => ?_, fun a ha => ?_,
    fun t ht hpc a ha => ?_⟩
  · have hmem : a ∈ k.blocked := by
      cases hm with
      | popBlocked hl hq =>
        rw [hq]
        exact List.mem_cons_of_mem _ ha
      | _ => exact ha
    rw [hw.kept hk (y := .blocked) hmem (by decide)]
    exact hi.blocked a hmem
  · rw [hsts] at ha
    rw [hw.kept hk (mem_of_blocking ha) (by decide)]
    exact hi.blocking a ha
  · cases hm with
    | switchSuspended hl hstatus =>
      cases ha
      exact hstatus
    | _ => cases ha
  · have htrackers : k'.trackers = k.trackers := by cases hm <;> rfl
    rw [htrackers] at ht
    have hserves := hp.suspensions.extra t ht a ha
    have hkeep : (k'.heap a).status = (k.heap a).status := by
      cases hm with
      | setSuspendedReady hl | setReady hl =>
        rw [hl] at hserves
        cases hserves
      | _ => rfl
    rw [hkeep]
    exact hi.fresh t ht hpc a ha

/-! ### Trackers -/

section Trackers

variable {i : ℕ} {t : Tracker}

lemma countP_unreleased_set (ht : k.trackers[i]? = some t) (t' : Tracker) :
    ((k.trackers.set i t').countP fun t => (unreleased t).isSome) + (unreleased t).isSome.toNat =
      (k.trackers.countP fun t => (unreleased t).isSome) + (unreleased t').isSome.toNat :=
  countP_set_toNat t' ht

/-- The tracker is about to mark the block that does I/O as suspended. -/
def marking (t : Tracker) (a : Addr) : Bool :=
  decide (t.pc = .setSuspendedBlocked) && (trackerExtra t == some a)

lemma any_marking_set (ht : k.trackers[i]? = some t) {t' : Tracker} {a : Addr}
    (hpc : marking t a = false) (hpc' : marking t' a = false) :
    ((k.trackers.set i t').any fun t => marking t a) = k.trackers.any fun t => marking t a := by
  have hcount := countP_set_toNat (p := fun t => marking t a) t' ht
  rw [hpc, hpc', Bool.toNat_false, Nat.add_zero, Nat.add_zero] at hcount
  rw [Bool.eq_iff_iff, List.any_eq_true, List.any_eq_true, ← List.countP_pos_iff,
    ← List.countP_pos_iff, hcount]

lemma activeIo_set (ht : k.trackers[i]? = some t) {t' : Tracker} (hio : k'.io = k.io)
    (hheap : k'.heap = k.heap) (htrackers : k'.trackers = k.trackers.set i t')
    (hpc : ∀ a, marking t a = false) (hpc' : ∀ a, marking t' a = false) :
    activeIo k' = activeIo k := by
  refine activeIo_congr hio fun a _ => ?_
  unfold suspendedIo
  rw [hheap, htrackers]
  exact congrArg _ (any_marking_set ht (hpc a) (hpc' a))

/-- Two trackers that suspend one block would make two entries. -/
lemma eq_of_extra (hs : Suspensions k h) {t₁ t₂ : Tracker} (h₁ : t₁ ∈ k.trackers)
    (h₂ : t₂ ∈ k.trackers) {a : Addr} (ha₁ : trackerExtra t₁ = some a)
    (ha₂ : trackerExtra t₂ = some a) : t₁ = t₂ := by
  by_contra hne
  have hle := hs.atMost a (ioHolds_of_serves (hs.extra t₁ h₁ a ha₁))
  have htwo := two_le_countP_flatMap (fun t : Tracker => [t])
    (p := fun t => trackerExtra t == some a) hne h₁ h₂ (List.mem_singleton_self _)
    (List.mem_singleton_self _) (by simp [ha₁]) (by simp [ha₂])
  rw [List.flatMap_singleton'] at htwo
  omega

/-- The process that does I/O is active until a tracker gives back its slot. -/
lemma activeIo_of_signalDom (hp : Placed k h) (hi : Slots c k) (ht : k.trackers[i]? = some t)
    (hl : t.pc = .signalDom) (hr : t.removed = none) : activeIo k = some t.pcb := by
  have hmem := List.mem_of_getElem? ht
  have hextra : trackerExtra t = some t.pcb := by simp [trackerExtra, suspending, hl, hr]
  have hserves := hp.suspensions.extra t hmem _ hextra
  have hstatus := hi.fresh t hmem hl _ hextra
  have hany : (k.trackers.any fun t' => decide (t'.pc = .setSuspendedBlocked) &&
      (trackerExtra t' == some t.pcb)) = false := by
    refine List.any_eq_false.mpr fun t' ht' => ?_
    by_cases hex : trackerExtra t' = some t.pcb
    · obtain rfl := eq_of_extra hp.suspensions ht' hmem hex hextra
      simp [hl]
    · simp [hex]
  have hnot : suspendedIo k t.pcb = false := by simp [suspendedIo, hstatus, hany]
  unfold activeIo
  cases hio : k.io <;> rw [hio] at hserves <;> simp_all [ioServes]
  exact hstatus (hi.deciding _ hio)

/-- After that it is suspended. -/
lemma activeIo_signalled (hp : Placed k h) (ht : k.trackers[i]? = some t)
    (hl : t.pc = .signalDom) (hr : t.removed = none) {dom : ℕ} :
    activeIo { k with
      dom, trackers := k.trackers.set i { t with pc := .setSuspendedBlocked } } = none := by
  have hmem := List.mem_of_getElem? ht
  have hextra : trackerExtra t = some t.pcb := by simp [trackerExtra, suspending, hl, hr]
  have hextra' : trackerExtra { t with pc := .setSuspendedBlocked } = some t.pcb := by
    simp [trackerExtra, suspending, hr]
  have hserves := hp.suspensions.extra t hmem _ hextra
  have hany : ((k.trackers.set i { t with pc := .setSuspendedBlocked }).any fun t' =>
      decide (t'.pc = .setSuspendedBlocked) && (trackerExtra t' == some t.pcb)) = true := by
    obtain ⟨hi, -⟩ := List.getElem?_eq_some_iff.mp ht
    exact List.any_eq_true.mpr ⟨_, List.mem_set hi _, by simp [hextra']⟩
  unfold activeIo
  cases hio : k.io <;> rw [hio] at hserves <;> simp_all [ioServes, suspendedIo]

def trackedSlots (k : Kernel) (t : Tracker) : ℕ :=
  k.dom + k.blocked.length + (unreleased t).isSome.toNat + (activeIo k).isSome.toNat

lemma trackedSlots_set (ht : k.trackers[i]? = some t) {t' : Tracker} (hio : k'.io = k.io)
    (hheap : k'.heap = k.heap) (htrackers : k'.trackers = k.trackers.set i t')
    (hpc : ∀ a, marking t a = false) (hpc' : ∀ a, marking t' a = false)
    (hsum : k'.dom + k'.blocked.length + (unreleased t').isSome.toNat =
      k.dom + k.blocked.length + (unreleased t).isSome.toNat) :
    trackedSlots k' t' = trackedSlots k t := by
  rw [trackedSlots, trackedSlots, hsum, activeIo_set ht hio hheap htrackers hpc hpc']

/-- The slot of a process that was taken from BLOCKED. -/
lemma trackedSlots_signalDom (hp : Placed k h) (hi : Slots c k) (ht : k.trackers[i]? = some t)
    (hl : t.pc = .signalDom) :
    trackedSlots { k with
      dom := k.dom + 1, trackers := k.trackers.set i { t with pc := .setSuspendedBlocked } }
      { t with pc := .setSuspendedBlocked } = trackedSlots k t := by
  rcases Option.eq_none_or_eq_some t.removed with hr | ⟨b, hr⟩
  · rw [trackedSlots, trackedSlots, activeIo_signalled hp ht hl hr,
      activeIo_of_signalDom hp hi ht hl hr]
    simp only [unreleased, hl, hr, Option.isSome_none, Option.isSome_some, Bool.toNat_false,
      Bool.toNat_true]
    omega
  · refine trackedSlots_set ht rfl rfl rfl (fun a => ?_) (fun a => ?_) ?_
    · simp [marking, hl]
    · simp [marking, trackerExtra, suspending, hr]
    · simp only [unreleased, hl, hr, Option.isSome_none, Option.isSome_some, Bool.toNat_false,
        Bool.toNat_true]
      omega

lemma trackedSlots_setSuspendedBlocked (hp : Placed k h) (ht : k.trackers[i]? = some t)
    (hl : t.pc = .setSuspendedBlocked) :
    trackedSlots { k with
      heap := setStatus k.heap t.target .suspendedBlocked
      trackers := k.trackers.set i { t with pc := .pushBlockedSus } }
      { t with pc := .pushBlockedSus } = trackedSlots k t := by
  have hmem := List.mem_of_getElem? ht
  have hsus : suspending t = true := by simp [suspending, hl]
  have hactive : activeIo { k with
      heap := setStatus k.heap t.target .suspendedBlocked
      trackers := k.trackers.set i { t with pc := .pushBlockedSus } } = activeIo k := by
    refine activeIo_congr rfl fun a ha => ?_
    by_cases heq : t.target = a
    · -- the block does I/O, so the tracker has not removed it
      have hextra : trackerExtra t = some a := by
        rcases target_extra hmem hsus with hrem | hextra
        · exact absurd heq (hp.conserved.ne_of_apart (by decide) hrem (Conserved.io_mem ha))
        · rw [hextra, heq]
      have hmarking : (k.trackers.any fun t => marking t a) = true :=
        List.any_eq_true.mpr ⟨t, hmem, by simp [marking, hl, hextra]⟩
      have hbefore : suspendedIo k a = true := by
        unfold suspendedIo
        exact Bool.or_eq_true_iff.mpr (.inr hmarking)
      rw [hbefore]
      exact suspendedIo_of_status (heq ▸ setStatus_self ..)
    · have hne : marking t a = false := by
        have hextra : trackerExtra t ≠ some a := fun hextra => by
          obtain ⟨-, hr, hpcb⟩ := suspending_of_extra hextra
          exact heq (by simpa [Tracker.target, hr] using hpcb)
        simp [marking, hextra]
      unfold suspendedIo
      rw [setStatus_of_ne _ (Ne.symm heq)]
      exact congrArg _ (any_marking_set ht hne (by simp [marking]))
  rw [trackedSlots, trackedSlots, hactive]
  simp [unreleased, hl]

lemma Slots.total_mts (hp : Placed k h) (hi : Slots c k) (ht : k.trackers[i]? = some t)
    (hm : MtsMove k i t k') :
    k'.dom + (activeBlocks k').length + (away k').length + slotLts k'.lts + slotSts k'.sts =
      c.gradoMultiprogramacion := by
  have hframe : k'.lts = k.lts ∧ k'.sts = k.sts ∧ k'.ready = k.ready := by
    cases hm <;> exact ⟨rfl, rfl, rfl⟩
  obtain ⟨hlts, hsts, hready⟩ := hframe
  suffices hslots : ∃ t', k'.trackers = k.trackers.set i t' ∧
      trackedSlots k' t' = trackedSlots k t by
    obtain ⟨t', htrackers, hslots⟩ := hslots
    have htotal := hi.total
    have hset := countP_unreleased_set ht t'
    have haway : away k' = away k := (shuffled_mts hp.conserved hp.suspensions ht hm).away
    rw [length_activeBlocks] at htotal ⊢
    rw [haway, hlts, hsts, hready, htrackers]
    unfold trackedSlots at hslots
    omega
  cases hm with
  | readPid hl | existsBlocked hl | existsBlockedNot hl | testCurrentIo hl | testCurrentIoNot hl
  | removeBlockedNone hl | pushBlockedSus hl | sendSwap hl =>
    refine ⟨_, rfl, trackedSlots_set ht rfl rfl rfl (fun a => ?_) (fun a => ?_) ?_⟩
    · simp [marking, hl]
    · simp [marking]
    · simp [unreleased, hl]
  | removeBlocked hl hq =>
    refine ⟨_, rfl, trackedSlots_set ht rfl rfl rfl (fun a => ?_) (fun a => ?_) ?_⟩
    · simp [marking, hl]
    · simp [marking]
    · simp [unreleased, hl, hq]
      omega
  | signalDom hl => exact ⟨_, rfl, trackedSlots_signalDom hp hi ht hl⟩
  | setSuspendedBlocked hl => exact ⟨_, rfl, trackedSlots_setSuspendedBlocked hp ht hl⟩

lemma Slots.mts (hp : Placed k h) (hi : Slots c k)
    (hfresh : Fresh k (.mts i)) (ht : k.trackers[i]? = some t) (hm : MtsMove k i t k') :
    Slots c k' := by
  have hk := hp.conserved
  have hs := hp.suspensions
  have hsame : k'.sts = k.sts ∧ k'.io = k.io := by cases hm <;> exact ⟨rfl, rfl⟩
  have hw : ∀ a, (k'.heap a).status = (k.heap a).status ∨
      (a = t.target ∧ t.pc = .setSuspendedBlocked ∧ (k'.heap a).status = .suspendedBlocked) :=
    fun a => by
      cases hm with
      | setSuspendedBlocked hl =>
        by_cases heq : a = t.target
        · exact .inr ⟨heq, hl, heq ▸ setStatus_self ..⟩
        · exact .inl (setStatus_of_ne _ heq)
      | _ => exact .inl rfl
  have hmem := List.mem_of_getElem? ht
  -- what is in another place, and not served, is not marked
  have hkept : ∀ {a : Addr} {x : Place}, a ∈ blocksAt k x → x ≠ .suspension → x ≠ .io →
      (k'.heap a).status = (k.heap a).status := fun {a x} ha hx hx' => by
    rcases hw a with heq | ⟨rfl, hl, -⟩
    · exact heq
    · rcases hs.target_mem hmem (by simp [suspending, hl]) with hrem | hserves
      · exact absurd rfl (hk.ne_of_apart hx ha hrem)
      · exact absurd rfl (hk.ne_of_apart hx' ha (Conserved.io_mem (ioHolds_of_serves hserves)))
  refine ⟨hi.total_mts hp ht hm, fun a ha => ?_, fun a ha => ?_, fun a ha => ?_,
    fun t₁ h₁ hpc a ha => ?_⟩
  · have hin : a ∈ k.blocked := by
      cases hm with
      | removeBlocked hl hq =>
        rw [hq]
        exact List.perm_middle.symm.subset (List.mem_cons_of_mem _ ha)
      | _ => exact ha
    rw [hkept (x := .blocked) hin (by decide) (by decide)]
    exact hi.blocked a hin
  · rw [hsame.1] at ha
    rw [hkept (mem_of_blocking ha) (by decide) (by decide)]
    exact hi.blocking a ha
  · rw [hsame.2] at ha
    rcases hw a with heq | ⟨-, -, heq⟩
    · rw [heq]
      exact hi.deciding a ha
    · exact heq
  · by_cases hold : t₁ ∈ k.trackers
    · rcases hw a with heq | ⟨rfl, hl, -⟩
      · rw [heq]
        exact hi.fresh t₁ hold hpc a ha
      · rcases target_extra hmem (by simp [suspending, hl]) with hrem | hextra
        · have hheld := Conserved.io_mem (ioHolds_of_serves (hs.extra t₁ hold _ ha))
          exact absurd rfl (hk.ne_of_apart (by decide) hrem hheld)
        · rw [eq_of_extra hs hold hmem ha hextra, hl] at hpc
          cases hpc
    · cases hm with
      | removeBlockedNone hl hnone =>
        obtain rfl := (List.mem_or_eq_of_mem_set h₁).resolve_left hold
        obtain ⟨-, -, rfl⟩ := suspending_of_extra ha
        refine (hfresh t ht hl).resolve_left fun hex => ?_
        obtain ⟨b, hb, hid⟩ := List.any_eq_true.mp hex
        exact hnone b hb (by simpa using hid)
      | removeBlocked hl =>
        obtain rfl := (List.mem_or_eq_of_mem_set h₁).resolve_left hold
        cases ha
      | _ =>
        obtain rfl := (List.mem_or_eq_of_mem_set h₁).resolve_left hold
        cases hpc

end Trackers

/-! ### The result -/

lemma countP_activeBlocks_le (k : Kernel) (P : Addr → Bool) :
    (activeBlocks k).countP P ≤ (admitted k).countP P := by
  have htrackers : (k.trackers.countP fun t => (unreleased t).any P) ≤
      k.trackers.countP fun t => (trackerHolds t).any P := by
    refine List.countP_mono_left fun t _ ht => ?_
    unfold unreleased at ht
    split at ht
    · next hl => simpa [trackerHolds, suspending, hl] using ht
    · cases ht
  have hio : ((activeIo k).any P).toNat ≤ ((ioHolds k.io).any P).toNat := by
    unfold activeIo
    cases k.io with
    | setCurrentIo a | sleep a | switchStatus a =>
      cases hsus : suspendedIo k a <;> simp [ioHolds, hsus]
    | _ => simp [ioHolds]
  rw [countP_admitted, activeBlocks]
  simp only [List.countP_append, countP_toList, countP_filterMap_any]
  omega

/-- Every active process counts once. -/
lemma active_eq (hk : Conserved k h) :
    active k h = (activeBlocks k).length + (away k).length := by
  have hlen : (activeIds k).length = (activeBlocks k).length + (away k).length := by
    simp [activeIds]
  rw [active, countP_contains (fun p => ?_) fun p => ?_, hlen]
  · have hplaces := hk.places p
    have hle := countP_activeBlocks_le k (hasId k.heap p)
    have hcount : (activeIds k).count p =
        (activeBlocks k).countP (hasId k.heap p) + (away k).count p := by
      rw [activeIds, List.count_append, List.count_eq_countP, List.countP_map]
      rfl
    omega
  · have honce := hk.once p
    omega

/-- **Main result.** In every run in which a tracker suspends in time, and what is not suspended
yet, the free slots and the active processes are `GRADO_MULTIPROGRAMACION`; a slot that the
long-term scheduler has taken for a process, or that `terminate` is about to give back, is
neither. -/
theorem slots_of_fresh (c : Cfg) (heap : Heap) (es : List Event) (k : Kernel) (h : History)
    (hrun : run (stepH c) (initH c heap) es = some (k, h))
    (hfresh : Meets (stepH c) (fun s e => Timely s.1 e ∧ Fresh s.1 e) (initH c heap) es) :
    k.dom + active k h + slotLts k.lts + slotSts k.sts = c.gradoMultiprogramacion ∧
      active k h ≤ c.gradoMultiprogramacion := by
  have hinv : Placed k h ∧ Tokens k ∧ Slots c k := by
    refine hfresh.inv (I := fun s => Placed s.1 s.2 ∧ Tokens s.1 ∧ Slots c s.1) ?_
      ⟨placed_init heap, tokens_init heap, slots_init heap⟩ hrun
    rintro ⟨k, h⟩ e ⟨k', h'⟩ ⟨hp, ht, hi⟩ ⟨htimely, hfresh⟩ hstep
    refine ⟨hp.step htimely (moveH hstep), ht.step (stepH_eq_some.mp hstep).1, ?_⟩
    cases moveH hstep with
    | connect => exact hi.unseen hp (fun _ => .inl rfl) rfl rfl rfl rfl rfl rfl rfl rfl
    | console _ hm => exact hi.console hp hm
    | lts hm => exact hi.lts hp ht hm
    | sts hm => exact hi.sts hp hm
    | io hm => exact hi.io hp htimely hm
    | mts ht hm => exact hi.mts hp hfresh ht hm
    | scribble huse =>
      exact hi.unseen hp (written_scribble huse .new) rfl rfl rfl rfl rfl rfl rfl rfl
  have htotal := hinv.2.2.total
  have hactive := active_eq hinv.1.conserved
  constructor <;> omega

set_option maxRecDepth 40000 in
/-- A process is suspended while it does I/O, and its slot is free. -/
theorem slots_of_fresh_suspended :
    ∃ k h, run (stepH srtCfg) (initH srtCfg zeroHeap)
        (toBlocked ++ ioSteps 5 ++ mtsSteps 0 4) = some (k, h) ∧
      k.dom = 2 ∧ active k h = 0 ∧ active k h ≤ 2 := by
  refine ⟨_, _, rfl, rfl, by decide +kernel, ?_⟩
  exact (slots_of_fresh srtCfg zeroHeap (toBlocked ++ ioSteps 5 ++ mtsSteps 0 4) _ _ rfl
    (by decide +kernel)).2

/-- A process blocks a second time while the tracker of its first time has not looked. That
tracker suspends it, and when the process does I/O, the tracker of the second time does. -/
def suspendedTwice : List Event :=
  toBlocked ++ ioSteps 11 ++ stsSteps 16 3 .blocked ++ mtsSteps 0 5 ++ mtsSteps 1 1 ++ ioSteps 3 ++
    mtsSteps 1 4

set_option maxRecDepth 40000 in
/-- There are three free slots of two. -/
theorem not_slots : ¬ ∀ (c : Cfg) (heap : Heap) (es : List Event) (k : Kernel) (h : History),
    run (stepH c) (initH c heap) es = some (k, h) →
      k.dom + active k h + slotLts k.lts + slotSts k.sts = c.gradoMultiprogramacion := by
  intro hall
  have hslots := hall srtCfg zeroHeap suspendedTwice _ _ rfl
  revert hslots
  decide +kernel

end Sski.Scheduling.Multiprogramming
