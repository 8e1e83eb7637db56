import Sski.Lib.Population
import Sski.Scheduling.OnePlace

/-!
The kernel's processes follow the seven-state model.

The model knows no queues, blocks or threads: a process is in a state, or in the hands of who
takes it to the next one, and goes along the arrows. The kernel's queues make one step of the
model in each step of a thread, or none.
-/

namespace Sski.Scheduling.SevenStates

open Sski.Cpu.Cycle (PcbStatus)
open Sski.Lib.Runs Sski.Lib.Counting Sski.Lib.Population
open Sski.Scheduling.Scheduler Sski.Scheduling.Threads
open Sski.Scheduling.Moves Sski.Scheduling.History Sski.Scheduling.Places
open Sski.Scheduling.Conservation Sski.Scheduling.Suspension Sski.Scheduling.OnePlace

/-- The arrows of the model; before NEW and behind EXIT a process is nowhere. -/
inductive Edge : Option Place → Option Place → Prop where
  | create : Edge none (some .new)
  | popNew : Edge (some .new) (some .admission)
  | resume : Edge (some .readySus) (some .admission)
  | admitted : Edge (some .admission) (some .ready)
  | execute : Edge (some .ready) (some .execution)
  | preEmpt : Edge (some .execution) (some .ready)
  | block : Edge (some .execution) (some .blocked)
  | suspend : Edge (some .blocked) (some .suspension)
  | suspended : Edge (some .suspension) (some .blockedSus)
  | serve : Edge (some .blocked) (some .io)
  | serveSuspended : Edge (some .blockedSus) (some .io)
  | event : Edge (some .io) (some .ready)
  | suspendedEvent : Edge (some .io) (some .readySus)
  | exit : Edge (some .execution) none

lemma Edge.ne {x y : Option Place} (h : Edge x y) : x ≠ y := by
  cases h <;> simp

def placeOf (k : Kernel) : UInt32 → Option Place := locate places (ownEntries k)

variable {c : Cfg} {k k' : Kernel} {h h' : History}

lemma single_ownEntries (hk : Conserved k h) : Single places (ownEntries k) := fun p => by
  rw [sum_ownEntries]
  exact hk.le_one p

lemma placeOf_isSome (hk : Conserved k h) (p : UInt32) : (placeOf k p).isSome ↔ p ∈ h.live := by
  rw [← List.count_pos_iff, ← hk.places p, ← sum_ownEntries, Option.isSome_iff_ne_none, placeOf,
    Ne, locate_eq_none_iff mem_places]
  constructor
  · intro hsome
    obtain ⟨x, hx⟩ := not_forall.mp hsome
    have hle := List.le_sum_of_mem (List.mem_map_of_mem (f := ownEntries k p) (mem_places x))
    omega
  · intro hpos hnone
    have hzero : (places.map (ownEntries k p)).sum = 0 :=
      List.sum_eq_zero fun n hn => by
        obtain ⟨x, -, rfl⟩ := List.mem_map.mp hn
        exact hnone x
    omega

/-! ### Blocks that move -/

/-- A step in which one block goes from a place to another. -/
structure Passed (k k' : Kernel) (a : Addr) (x y : Place) : Prop where
  ne : x ≠ y
  id : ∀ b, (k'.heap b).id = (k.heap b).id
  away : away k' = away k
  left : ∀ P, (blocksAt k x).countP P = (blocksAt k' x).countP P + (P a).toNat
  came : ∀ P, (blocksAt k' y).countP P = (blocksAt k y).countP P + (P a).toNat
  rest : ∀ z, z ≠ x → z ≠ y → blocksAt k' z = blocksAt k z

lemma hasId_congr (hid : ∀ b, (k'.heap b).id = (k.heap b).id) (p : UInt32) :
    hasId k'.heap p = hasId k.heap p := by
  ext1 a
  unfold hasId
  rw [hid]

lemma hasId_toNat (heap : Heap) (p : UInt32) (a : Addr) :
    (hasId heap p a).toNat = if p = (heap a).id then 1 else 0 := by
  unfold hasId
  by_cases hp : p = (heap a).id
  · simp [hp]
  · simp [hp, Ne.symm hp]

lemma Passed.moved {a : Addr} {x y : Place} (hm : Passed k k' a x y) :
    Moved (ownEntries k) (ownEntries k') (k.heap a).id (some x) (some y) := by
  intro p z
  unfold ownEntries
  rw [hm.away, hasId_congr hm.id]
  have hleft := hm.left (hasId k.heap p)
  have hcame := hm.came (hasId k.heap p)
  rw [hasId_toNat] at hleft hcame
  simp only [Option.some.injEq, ite_and]
  by_cases hx : x = z
  · subst hx
    simp only [if_true, if_neg (Ne.symm hm.ne)]
    split_ifs at hleft ⊢ <;> omega
  · by_cases hy : y = z
    · subst hy
      simp only [if_true, if_neg hx]
      split_ifs at hcame ⊢ <;> omega
    · rw [hm.rest z (Ne.symm hx) (Ne.symm hy)]
      simp [hx, hy]

lemma ownEntries_of_same (hsame : ∀ z, blocksAt k' z = blocksAt k z) (haway : away k' = away k)
    (hid : ∀ z, ∀ a ∈ blocksAt k z, (k'.heap a).id = (k.heap a).id) :
    ownEntries k' = ownEntries k := by
  ext p z
  unfold ownEntries
  rw [haway, hsame, Nat.add_right_cancel_iff]
  refine List.countP_congr fun a ha => ?_
  unfold hasId
  rw [hid z a ha]

/-! ### The threads -/

/-- What a step of a thread is in the model. -/
def Follows (k k' : Kernel) : Prop :=
  ownEntries k' = ownEntries k ∨
    ∃ p x y, Edge x y ∧ Moved (ownEntries k) (ownEntries k') p x y

lemma Passed.follows {a : Addr} {x y : Place} (hm : Passed k k' a x y)
    (hedge : Edge (some x) (some y)) : Follows k k' :=
  .inr ⟨_, _, _, hedge, hm.moved⟩

lemma follows_lts (hm : LtsMove c k k') : Follows k k' := by
  have hid := (shuffled_lts hm).id
  have haway := (shuffled_lts hm).away
  cases hm with
  | @resume a readySus hl hq =>
    refine Passed.follows (a := a) ⟨by decide, hid, haway, fun P => ?_, fun P => ?_, ?_⟩ .resume
    · simp [blocksAt, hq, countP_cons_toNat]
    · simp [blocksAt, hl, ltsHolds, countP_cons_toNat]
    · intro z hx hy
      cases z <;> first | rfl | contradiction
  | @popNew a new hl hq =>
    refine Passed.follows (a := a) ⟨by decide, hid, haway, fun P => ?_, fun P => ?_, ?_⟩ .popNew
    · simp [blocksAt, hq, countP_cons_toNat]
    · simp [blocksAt, hl, ltsHolds, countP_cons_toNat]
    · intro z hx hy
      cases z <;> first | rfl | contradiction
  | @pushReady a hl =>
    refine Passed.follows (a := a) ⟨by decide, hid, haway, fun P => ?_, fun P => ?_, ?_⟩ .admitted
    · simp [blocksAt, hl, ltsHolds, countP_cons_toNat]
    · simp [blocksAt, countP_cons_toNat]
    · intro z hx hy
      cases z <;> first | rfl | contradiction
  | waitReqAdmit hl | waitDom hl | resumeNone hl | popNewNone hl | noPageTable hl | pageTable hl
  | setReadyNone hl | setReady hl | raises hl | raisesNot hl | sendInterrupt hl
  | signalExecute hl =>
    refine .inl (ownEntries_of_same (fun z => ?_) haway fun _ a _ => hid a)
    cases z <;> simp [blocksAt, hl, ltsHolds, waitingSus]

/-- Once its block is destroyed the process is on the CPU, and at the same place. -/
lemma ownEntries_destroySent (hk : Conserved k h) {a : Addr} (hl : k.sts = .destroySent a) :
    ownEntries { k with inUse := setInUse k.inUse a false, sts := .receivePcb } =
      ownEntries k := by
  obtain ⟨pcb, hcpu, hpcb⟩ := Option.map_eq_some_iff.mp (hk.sent a hl)
  ext p z
  unfold ownEntries
  by_cases hz : z = .execution
  · subst hz
    simp [blocksAt, stsHolds, away, hl, hcpu, hpcb, hasId, List.count_cons]
  · rw [blocksAt_sts hz]
    simp [hz]

/-- What comes back from the CPU is the process that was there. -/
lemma ownEntries_receivePcb (hk : Conserved k h) {pcb : Pcb} {o : Outside}
    (hl : k.sts = .receivePcb) (hcpu : k.cpu = some pcb) (huse : k.inUse o.addr = false) :
    ownEntries { k with
      heap := fill k.heap o.addr (received pcb o (k.heap o.addr))
      inUse := setInUse k.inUse o.addr true
      cpu := none
      sts := .setReal o.addr o.ioTime } = ownEntries k := by
  ext p z
  unfold ownEntries
  by_cases hz : z = .execution
  · subst hz
    simp [blocksAt, stsHolds, away, hl, hcpu, hasId, received, List.count_cons]
  · rw [blocksAt_sts hz, if_neg hz, if_neg hz, Nat.add_right_cancel_iff]
    exact countP_hasId_fill huse (fun b hb => hk.used b (.inr (Conserved.mem_admitted hb))) _ p

lemma moved_destroyPcb {a : Addr} {sent : Bool} (hl : k.sts = .destroyPcb a sent) :
    Moved (ownEntries k)
      (ownEntries { k with inUse := setInUse k.inUse a false, sts := .signalDom sent })
      (k.heap a).id (some .execution) none := by
  intro p z
  unfold ownEntries
  by_cases hz : z = .execution
  · subst hz
    have hid := hasId_toNat k.heap p a
    simp only [blocksAt, stsHolds, away, hl, Option.toList_none, Option.toList_some,
      List.countP_nil, countP_cons_toNat, hid]
    simp
  · rw [blocksAt_sts hz]
    simp [hz, Ne.symm hz]

lemma follows_sts (hk : Conserved k h) (hm : StsMove c k k') : Follows k k' := by
  by_cases hmoves : (∀ a, k.sts ≠ .destroySent a) ∧ k.sts ≠ .receivePcb ∧
    ∀ a sent, k.sts ≠ .destroyPcb a sent
  · obtain ⟨hsent, hreceive, hdestroy⟩ := hmoves
    have hid := (shuffled_sts hm hsent hreceive hdestroy).id
    have haway := (shuffled_sts hm hsent hreceive hdestroy).away
    cases hm with
    | @popReady a ready hl hq =>
      refine Passed.follows (a := a) ⟨by decide, hid, haway, fun P => ?_, fun P => ?_, ?_⟩ .execute
      · simp [blocksAt, hq, countP_cons_toNat]
      · simp [blocksAt, hl, stsHolds, countP_cons_toNat]
      · intro z hx hy
        cases z <;> first | rfl | contradiction
    | @pushReady a hl =>
      refine Passed.follows (a := a) ⟨by decide, hid, haway, fun P => ?_, fun P => ?_, ?_⟩ .preEmpt
      · simp [blocksAt, hl, stsHolds, countP_cons_toNat]
      · simp [blocksAt, countP_cons_toNat]
      · intro z hx hy
        cases z <;> first | rfl | contradiction
    | @pushBlocked a hl =>
      refine Passed.follows (a := a) ⟨by decide, hid, haway, fun P => ?_, fun P => ?_, ?_⟩ .block
      · simp [blocksAt, hl, stsHolds, countP_cons_toNat]
      · simp [blocksAt, countP_cons_toNat]
      · intro z hx hy
        cases z <;> first | rfl | contradiction
    | sortReady hl =>
      refine .inl ?_
      ext p z
      unfold ownEntries
      rw [haway, hasId_congr hid]
      cases z <;> simp [blocksAt, hl, stsHolds, waitingSus, countP_sortByEstimation]
    | destroySent hl => exact absurd hl (hsent _)
    | receivePcb hl => exact absurd hl hreceive
    | destroyPcb hl => exact absurd hl (hdestroy _ _)
    | waitExecute hl hn hnext =>
      refine .inl (ownEntries_of_same (fun z => ?_) haway fun _ a _ => hid a)
      rcases hnext with ⟨-, rfl⟩ | ⟨-, rfl⟩ <;>
        cases z <;> simp [blocksAt, hl, stsHolds, waitingSus]
    | signalDom hl hsts =>
      refine .inl (ownEntries_of_same (fun z => ?_) haway fun _ a _ => hid a)
      rcases hsts with rfl | rfl <;> cases z <;> simp [blocksAt, hl, stsHolds, waitingSus]
    | notifyMts hl =>
      refine .inl (ownEntries_of_same (fun z => ?_) haway fun _ a _ => hid a)
      cases z <;> simp [blocksAt, hl, stsHolds, waitingSus, trackerHolds, suspending]
    | popReadyNone hl | setExecuting hl | setCurrentEstimation hl | sendPcb hl | sendPcbFailed hl
    | setReal hl | clearCurrentEstimation hl | switchBlocked hl | switchReady hl | switchExit hl
    | setIo hl | reSchedule hl | signalIoRequest hl | exitProcess hl | preEmpt hl
    | signalExecute hl =>
      refine .inl (ownEntries_of_same (fun z => ?_) haway fun _ a _ => hid a)
      cases z <;> simp [blocksAt, hl, stsHolds, waitingSus]
  · cases hm with
    | destroySent hl => exact .inl (ownEntries_destroySent hk hl)
    | receivePcb hl hcpu huse => exact .inl (ownEntries_receivePcb hk hl hcpu huse)
    | destroyPcb hl => exact .inr ⟨_, _, _, .exit, moved_destroyPcb hl⟩
    | waitExecute hl => simp [hl] at hmoves
    | _ hl => simp_all

/-- A block is in SUSPENDED BLOCKED once. -/
lemma notMem_of_popBlockedSus (hk : Conserved k h) {a : Addr} {blockedSus : List Addr}
    (hnone : ioHolds k.io = none) (hq : k.blockedSus = a :: blockedSus) : a ∉ blockedSus := by
  intro hmem
  have hle := count_blockedSus_le hk (a := a) (by simp [hnone])
  have hpos := List.count_pos_iff.mpr hmem
  rw [hq, List.count_cons_self] at hle
  omega

/-- A block that is about to be pushed is not in SUSPENDED BLOCKED. -/
lemma waitingSus_of_pushes (hs : Suspensions k h) {a : Addr} (ha : ioPushes k.io = some a) :
    waitingSus k = k.blockedSus := by
  apply waitingSus_eq
  intro b hb
  obtain rfl := Option.some_injective _ ((ioHolds_of_pushes ha).symm.trans hb)
  exact hs.late a ha

lemma follows_io (hk : Conserved k h) (hs : Suspensions k h) (hm : IoMove c k k') :
    Follows k k' := by
  have hid := (shuffled_io hk hs hm).id
  have haway := (shuffled_io hk hs hm).away
  cases hm with
  | @popBlockedSus a blockedSus hl hq =>
    have hnone : ioHolds k.io = none := by simp [hl, ioHolds]
    have hwaiting : waitingSus { k with blockedSus, io := .setCurrentIo a } = blockedSus :=
      waitingSus_eq fun b hb => by
        obtain rfl := Option.some_injective _ hb
        exact notMem_of_popBlockedSus hk hnone hq
    refine Passed.follows (a := a) ⟨by decide, hid, haway, fun P => ?_, fun P => ?_, ?_⟩
      .serveSuspended
    · simp [blocksAt, hwaiting, waitingSus_of_none hnone, hq, countP_cons_toNat]
    · simp [blocksAt, hl, ioHolds, countP_cons_toNat]
    · intro z hx hy
      cases z <;> first | rfl | contradiction
  | @popBlocked a blocked hl hq =>
    have hnone : ioHolds k.io = none := by simp [hl, ioHolds]
    have hmem : a ∈ blocksAt k .blocked := by simp [blocksAt, hq]
    have hwaiting : waitingSus { k with blocked, io := .setCurrentIo a } = waitingSus k := by
      rw [waitingSus_of_none hnone]
      refine waitingSus_eq fun b hb => ?_
      obtain rfl := Option.some_injective _ hb
      exact hk.notMem_blockedSus hmem (by decide) (by decide)
    refine Passed.follows (a := a) ⟨by decide, hid, haway, fun P => ?_, fun P => ?_, ?_⟩ .serve
    · simp [blocksAt, hq, countP_cons_toNat]
    · simp [blocksAt, hl, ioHolds, countP_cons_toNat]
    · intro z hx hy
      cases z <;> first | rfl | contradiction | exact hwaiting
  | @pushReadySus a hl =>
    have hwaiting := waitingSus_of_pushes hs (a := a) (by simp [hl, ioPushes])
    refine Passed.follows (a := a) ⟨by decide, hid, haway, fun P => ?_, fun P => ?_, ?_⟩
      .suspendedEvent
    · simp [blocksAt, hl, ioHolds, countP_cons_toNat]
    · simp [blocksAt, countP_cons_toNat]
    · intro z hx hy
      cases z <;> first | rfl | contradiction | exact (waitingSus_of_none rfl).trans hwaiting.symm
  | @pushReady a hl =>
    have hwaiting := waitingSus_of_pushes hs (a := a) (by simp [hl, ioPushes])
    refine Passed.follows (a := a) ⟨by decide, hid, haway, fun P => ?_, fun P => ?_, ?_⟩ .event
    · simp [blocksAt, hl, ioHolds, countP_cons_toNat]
    · simp [blocksAt, countP_cons_toNat]
    · intro z hx hy
      cases z <;> first | rfl | contradiction | exact (waitingSus_of_none rfl).trans hwaiting.symm
  | @removeBlockedSus a b before behind hl hq hb =>
    -- the entry that a tracker made is not a place
    obtain rfl : b = a := hk.eq_of_id (by simp [hl, ioHolds]) (by simp [hq]) hb
    refine .inl (ownEntries_of_same (fun z => ?_) haway fun _ a _ => hid a)
    cases z <;> simp [blocksAt, hl, hq, ioHolds, waitingSus]
  | waitIoRequest hl | popBlockedSusNone hl hq | popBlockedNone hl hq | setCurrentIo hl
  | sleep hl | switchSuspended hl | switchDefault hl | «exists» hl | existsNot hl
  | setSuspendedReady hl | signalReqAdmit hl | setReady hl | raises hl | raisesNot hl
  | sendInterrupt hl | signalExecute hl | clearCurrentIo hl =>
    refine .inl (ownEntries_of_same (fun z => ?_) haway fun _ a _ => hid a)
    cases z <;> simp [blocksAt, hl, ioHolds, waitingSus]

section Trackers

variable {i : ℕ} {t : Tracker}

lemma filterMap_set_keep (ht : k.trackers[i]? = some t) {t' : Tracker}
    (hkeep : trackerHolds t' = trackerHolds t) :
    (k.trackers.set i t').filterMap trackerHolds = k.trackers.filterMap trackerHolds := by
  obtain ⟨hi, rfl⟩ := List.getElem?_eq_some_iff.mp ht
  calc (k.trackers.set i t').filterMap trackerHolds
      = (k.trackers.set i k.trackers[i]).filterMap trackerHolds := by
        rw [List.set_eq_take_append_cons_drop, List.set_eq_take_append_cons_drop, if_pos hi,
          if_pos hi, List.filterMap_append, List.filterMap_append, List.filterMap_cons,
          List.filterMap_cons, hkeep]
    _ = k.trackers.filterMap trackerHolds := by rw [List.set_getElem_self]

lemma follows_mts (hk : Conserved k h) (hs : Suspensions k h) (ht : k.trackers[i]? = some t)
    (hm : MtsMove k i t k') : Follows k k' := by
  have hid := (shuffled_mts hk hs ht hm).id
  have haway := (shuffled_mts hk hs ht hm).away
  have hcount := fun P t' => countP_set_toNat (p := fun t => (trackerHolds t).any P) t' ht
  cases hm with
  | @removeBlocked b before behind hl hq hb =>
    have hnone : trackerHolds t = none := by simp [trackerHolds, suspending, hl]
    refine Passed.follows (a := b) ⟨by decide, hid, haway, fun P => ?_, fun P => ?_, ?_⟩ .suspend
    · simp [blocksAt, hq, countP_cons_toNat, Nat.add_assoc]
    · have hset := hcount P { t with removed := some b, pc := .signalDom }
      have hsome : trackerHolds { t with removed := some b, pc := .signalDom } = some b := rfl
      simp only [hnone, hsome, Option.any_none, Option.any_some, Bool.toNat_false,
        Nat.add_zero] at hset
      simpa only [blocksAt, countP_filterMap_any] using hset
    · intro z hx hy
      cases z <;> first | rfl | contradiction
  | @pushBlockedSus hl =>
    have hmem := List.mem_of_getElem? ht
    have hsus : suspending t = true := by simp [suspending, hl]
    rcases Option.eq_none_or_eq_some t.removed with hr | ⟨b, hr⟩
    · -- the entry is that of the block in service, which is at its place already
      have htarget : t.target = t.pcb := by simp [Tracker.target, hr]
      have hio := ioHolds_of_serves (hs.extra t hmem t.pcb (by simp [trackerExtra, hsus, hr]))
      refine .inl (ownEntries_of_same (fun z => ?_) haway fun _ a _ => hid a)
      cases z with
      | suspension =>
        exact filterMap_set_keep ht (by simp [trackerHolds, suspending, hl, hr])
      | blockedSus => simp [blocksAt, waitingSus, htarget, List.filter_append, hio]
      | _ => rfl
    · have hsome : trackerHolds t = some b := by simp [trackerHolds, hsus, hr]
      have htarget : t.target = b := by simp [Tracker.target, hr]
      have hin : b ∈ blocksAt k .suspension := List.mem_filterMap.mpr ⟨t, hmem, hsome⟩
      have hne : ioHolds k.io ≠ some b := fun hio =>
        hk.ne_of_apart (by decide) hin (Conserved.io_mem hio) rfl
      refine Passed.follows (a := b) ⟨by decide, hid, haway, fun P => ?_, fun P => ?_, ?_⟩
        .suspended
      · have hset := hcount P { t with pc := .sendSwap }
        have hnone : trackerHolds { t with pc := .sendSwap } = none := rfl
        simp only [hnone, hsome, Option.any_none, Option.any_some, Bool.toNat_false,
          Nat.add_zero] at hset
        simpa only [blocksAt, countP_filterMap_any] using hset.symm
      · simp [blocksAt, waitingSus, htarget, List.filter_append, hne, countP_cons_toNat]
      · intro z hx hy
        cases z <;> first | rfl | contradiction
  | readPid hl | existsBlocked hl | existsBlockedNot hl | testCurrentIo hl
  | testCurrentIoNot hl | removeBlockedNone hl | signalDom hl | setSuspendedBlocked hl
  | sendSwap hl =>
    refine .inl (ownEntries_of_same (fun z => ?_) haway fun _ a _ => hid a)
    cases z with
    | suspension => exact filterMap_set_keep ht (by simp [trackerHolds, suspending, hl])
    | _ => rfl

end Trackers

section Consoles

variable {i : ℕ} {s : Console}

lemma follows_console (hk : Conserved k h) (hm : ConsoleMove c k i s k') : Follows k k' := by
  have hused : ∀ z, ∀ a ∈ blocksAt k z, k.inUse a = true :=
    fun z a ha => hk.used a (.inr (Conserved.mem_admitted ha))
  cases hm with
  | @pushNew a hl =>
    refine .inr ⟨(k.heap a).id, none, some .new, .create, fun p z => ?_⟩
    unfold ownEntries
    have hid := hasId_toNat k.heap p a
    cases z with
    | new =>
      simp only [blocksAt, List.countP_append, countP_cons_toNat, List.countP_nil, hid]
      simp
    | _ => simp [blocksAt, away, waitingSus]
  | @addPcb size addr hl huse =>
    refine .inl (ownEntries_of_same (fun z => by cases z <;> rfl) rfl fun z a ha => ?_)
    have hne : a ≠ addr := by
      rintro rfl
      rw [hused z a ha] at huse
      cases huse
    show (fill _ _ _ a).id = _
    rw [fill_of_ne _ hne]
  | setInstructions hl =>
    exact .inl (ownEntries_of_same (fun z => by cases z <;> rfl) rfl fun _ a _ =>
      modify_field Pcb.id (by intro; rfl) a)
  | newProcess | cmd | other | getPidLibre | getPidLibreNone | getPcbByPidNone | getPcbByPid
  | signalReqAdmit =>
    exact .inl (ownEntries_of_same (fun z => by cases z <;> rfl) rfl fun _ _ _ => rfl)

end Consoles

/-! ### Statuses -/

def ltsStatus : Lts → Option PcbStatus
  | .checkInterruption _ | .sendInterrupt _ | .pushReady _ => some .ready
  | _ => none

/-- The status of the block the short-term scheduler holds, where it wrote or switched on it. -/
def stsStatus : Sts → Option PcbStatus
  | .setCurrentEstimation _ | .sendPcb _ | .destroySent _ => some .executing
  | .setIo .. | .reSchedule _ | .pushBlocked _ => some .blocked
  | .preEmpt _ | .pushReady _ => some .ready
  | _ => none

def ioStatus : Io → Option PcbStatus
  | .pushReadySus _ => some .suspendedReady
  | .pushReady _ => some .ready
  | _ => none

/-- The status of the blocks at a place; in NEW there is none yet. -/
def statusAt (k : Kernel) : Place → Option PcbStatus
  | .new => some .none
  | .admission => ltsStatus k.lts
  | .ready => some .ready
  | .execution => stsStatus k.sts
  | .blocked => some .blocked
  | .suspension => none
  | .blockedSus => some .suspendedBlocked
  | .io => ioStatus k.io
  | .readySus => some .suspendedReady

/-- Every block has the status of its place, and what was sent to the CPU is EXECUTING. -/
structure Labelled (k : Kernel) : Prop where
  placed : ∀ x, ∀ a ∈ blocksAt k x, ∀ status ∈ statusAt k x, (k.heap a).status = status
  fresh : ∀ a ∈ created k, (k.heap a).status = .none
  sent : ∀ pcb ∈ k.cpu, pcb.status = .executing

namespace Labelled

lemma placed_of (hk : Conserved k h) (hl : Labelled k) {x : Place} (hw : Written k k' x)
    (hself : ∀ a ∈ blocksAt k' x, ∀ status ∈ statusAt k' x, (k'.heap a).status = status)
    (hothers : ∀ y, y ≠ x → statusAt k' y = statusAt k y ∧ ∀ a ∈ blocksAt k' y,
      a ∈ blocksAt k y ∨ ∀ status ∈ statusAt k' y, (k'.heap a).status = status) :
    ∀ y, ∀ a ∈ blocksAt k' y, ∀ status ∈ statusAt k' y, (k'.heap a).status = status := by
  intro y a ha status hstatus
  by_cases hy : y = x
  · subst hy
    exact hself a ha status hstatus
  obtain ⟨hsame, hblocks⟩ := hothers y hy
  rcases hblocks a ha with hstayed | hcame
  · rw [hw.kept hk hstayed hy]
    exact hl.placed y a hstayed status (hsame ▸ hstatus)
  · exact hcame status hstatus

/-- No thread writes the status of a block before it is pushed to NEW. -/
lemma fresh_of (hk : Conserved k h) (hl : Labelled k) {x : Place} (hw : Written k k' x)
    (hcreated : ∀ a ∈ created k', a ∈ created k ∨ (k'.heap a).status = .none) :
    ∀ a ∈ created k', (k'.heap a).status = .none := by
  intro a ha
  rcases hcreated a ha with hold | hnew
  swap
  · exact hnew
  rcases hw a with heq | hmem | huse
  · rw [heq]
    exact hl.fresh a hold
  · exact absurd (Conserved.mem_admitted hmem) (hk.created_admitted hold)
  · rw [hk.used a (.inl hold)] at huse
    cases huse

lemma mem_pushed {heap : Heap} {queue : List Addr} {b : Addr} {s : Option PcbStatus}
    (hb : ∀ status ∈ s, (heap b).status = status) :
    ∀ a ∈ queue ++ [b], a ∈ queue ∨ ∀ status ∈ s, (heap a).status = status := by
  intro a ha
  rcases List.mem_append.mp ha with ha | ha
  · exact .inl ha
  · obtain rfl := List.mem_singleton.mp ha
    exact .inr hb

lemma admission (hl : Labelled k) {a : Addr} {status : PcbStatus} (ha : ltsHolds k.lts = some a)
    (hstatus : ltsStatus k.lts = some status) : (k.heap a).status = status :=
  hl.placed .admission a (by simp [blocksAt, ha]) status hstatus

lemma execution (hl : Labelled k) {a : Addr} {status : PcbStatus} (ha : stsHolds k.sts = some a)
    (hstatus : stsStatus k.sts = some status) : (k.heap a).status = status :=
  hl.placed .execution a (by simp [blocksAt, ha]) status hstatus

lemma io (hl : Labelled k) {a : Addr} {status : PcbStatus} (ha : ioHolds k.io = some a)
    (hstatus : ioStatus k.io = some status) : (k.heap a).status = status :=
  hl.placed .io a (by simp [blocksAt, ha]) status hstatus

lemma stepLts (hk : Conserved k h) (hl : Labelled k) (hm : LtsMove c k k') : Labelled k' := by
  have hw := written_lts hm
  refine ⟨hl.placed_of hk hw ?self ?others, hl.fresh_of hk hw ?_, ?_⟩
  case self =>
    intro a ha status hstatus
    cases hm with
    | @setReady b hpc =>
      obtain rfl : a = b := by simpa [blocksAt, ltsHolds] using ha
      obtain rfl : PcbStatus.ready = status := by simpa [statusAt, ltsStatus] using hstatus
      exact setStatus_self ..
    | @raises b hpc | @raisesNot b hpc | @sendInterrupt b hpc =>
      obtain rfl : a = b := by simpa [blocksAt, ltsHolds] using ha
      exact hl.admission (by rw [hpc]; rfl) (by rw [hpc]; exact hstatus)
    | _ => cases hstatus
  case others =>
    intro y hy
    cases hm with
    | resume hpc hq =>
      cases y with
      | readySus => exact ⟨rfl, fun a ha => .inl (by simpa [blocksAt, hq] using .inr ha)⟩
      | admission => exact absurd rfl hy
      | _ => exact ⟨rfl, fun a ha => .inl ha⟩
    | popNew hpc hq =>
      cases y with
      | new => exact ⟨rfl, fun a ha => .inl (by simpa [blocksAt, hq] using .inr ha)⟩
      | admission => exact absurd rfl hy
      | _ => exact ⟨rfl, fun a ha => .inl ha⟩
    | @pushReady b hpc =>
      cases y with
      | ready =>
        exact ⟨rfl, mem_pushed fun _ hstatus =>
          hl.admission (by rw [hpc]; rfl) (by rw [hpc]; exact hstatus)⟩
      | admission => exact absurd rfl hy
      | _ => exact ⟨rfl, fun a ha => .inl ha⟩
    | _ =>
      cases y with
      | admission => exact absurd rfl hy
      | _ => exact ⟨rfl, fun a ha => .inl ha⟩
  · cases hm <;> exact fun _ ha => .inl ha
  · cases hm <;> exact hl.sent

lemma stepSts (hk : Conserved k h) (hl : Labelled k) (hm : StsMove c k k') : Labelled k' := by
  have hw := written_sts hm
  refine ⟨hl.placed_of hk hw ?self ?others, hl.fresh_of hk hw ?_, ?_⟩
  case self =>
    intro a ha status hstatus
    cases hm with
    | @setExecuting b hpc =>
      obtain rfl : a = b := by simpa [blocksAt, stsHolds] using ha
      obtain rfl : PcbStatus.executing = status := by simpa [statusAt, stsStatus] using hstatus
      exact setStatus_self ..
    | @setCurrentEstimation b hpc | @sendPcb b hpc =>
      obtain rfl : a = b := by simpa [blocksAt, stsHolds] using ha
      exact hl.execution (by rw [hpc]; rfl) (by rw [hpc]; exact hstatus)
    | @switchBlocked b ioTime hpc hb | @switchReady b ioTime hpc hb =>
      obtain rfl : a = b := by simpa [blocksAt, stsHolds] using ha
      exact hb.trans (Option.some_injective _ hstatus)
    | @setIo b ioTime hpc | @reSchedule b hpc | @preEmpt b hpc =>
      -- another field is written
      obtain rfl : a = b := by simpa [blocksAt, stsHolds] using ha
      refine (modify_field Pcb.status (by intro; rfl) a).trans ?_
      exact hl.execution (by rw [hpc]; rfl) (by rw [hpc]; exact hstatus)
    | waitExecute hpc hn hnext => rcases hnext with ⟨-, rfl⟩ | ⟨-, rfl⟩ <;> cases hstatus
    | signalDom hpc hsts => rcases hsts with rfl | rfl <;> cases hstatus
    | _ => cases hstatus
  case others =>
    intro y hy
    cases hm with
    | popReady hpc hq =>
      cases y with
      | ready => exact ⟨rfl, fun a ha => .inl (by simpa [blocksAt, hq] using .inr ha)⟩
      | execution => exact absurd rfl hy
      | _ => exact ⟨rfl, fun a ha => .inl ha⟩
    | sortReady hpc =>
      cases y with
      | ready =>
        exact ⟨rfl, fun a ha =>
          .inl ((mem_congr_of_countP (countP_sortByEstimation k.heap k.ready) a).mp ha)⟩
      | execution => exact absurd rfl hy
      | _ => exact ⟨rfl, fun a ha => .inl ha⟩
    | @pushBlocked b hpc =>
      cases y with
      | blocked =>
        exact ⟨rfl, mem_pushed fun _ hstatus =>
          hl.execution (by rw [hpc]; rfl) (by rw [hpc]; exact hstatus)⟩
      | execution => exact absurd rfl hy
      | _ => exact ⟨rfl, fun a ha => .inl ha⟩
    | @pushReady b hpc =>
      cases y with
      | ready =>
        exact ⟨rfl, mem_pushed fun _ hstatus =>
          hl.execution (by rw [hpc]; rfl) (by rw [hpc]; exact hstatus)⟩
      | execution => exact absurd rfl hy
      | _ => exact ⟨rfl, fun a ha => .inl ha⟩
    | notifyMts hpc =>
      cases y with
      | suspension => exact ⟨rfl, fun _ _ => .inr fun _ hstatus => by cases hstatus⟩
      | execution => exact absurd rfl hy
      | _ => exact ⟨rfl, fun a ha => .inl ha⟩
    | _ =>
      cases y with
      | execution => exact absurd rfl hy
      | _ => exact ⟨rfl, fun a ha => .inl ha⟩
  · cases hm <;> exact fun _ ha => .inl ha
  · cases hm with
    | @sendPcb b hpc =>
      intro pcb hpcb
      obtain rfl := Option.some_injective _ hpcb
      exact hl.execution (by rw [hpc]; rfl) (by rw [hpc]; rfl)
    | receivePcb =>
      intro pcb hpcb
      cases hpcb
    | _ => exact hl.sent

/-- Trackers have written the statuses in SUSPENDED BLOCKED before they push there. -/
lemma blockedSus (hs : Suspensions k h) : ∀ a ∈ blocksAt k .blockedSus,
    ∀ status ∈ statusAt k .blockedSus, (k.heap a).status = status := by
  intro a ha status hstatus
  obtain rfl := Option.some_injective _ hstatus
  exact hs.status a (List.mem_of_mem_filter ha)

lemma stepIo (hk : Conserved k h) (hs' : Suspensions k' h') (hl : Labelled k)
    (hm : IoMove c k k') : Labelled k' := by
  have hw := written_io hm
  refine ⟨hl.placed_of hk hw ?self ?others, hl.fresh_of hk hw ?_, ?_⟩
  case self =>
    intro a ha status hstatus
    cases hm with
    | @setSuspendedReady b hpc | @setReady b hpc =>
      obtain rfl : a = b := by simpa [blocksAt, ioHolds] using ha
      obtain rfl := Option.some_injective _ hstatus
      exact setStatus_self ..
    | _ => cases hstatus
  case others =>
    intro y hy
    by_cases hsus : y = .blockedSus
    · subst hsus
      exact ⟨rfl, fun a ha => .inr (blockedSus hs' a ha)⟩
    cases hm with
    | popBlocked hpc hq =>
      cases y with
      | blocked => exact ⟨rfl, fun a ha => .inl (by simpa [blocksAt, hq] using .inr ha)⟩
      | io | blockedSus => contradiction
      | _ => exact ⟨rfl, fun a ha => .inl ha⟩
    | @pushReadySus b hpc =>
      cases y with
      | readySus =>
        exact ⟨rfl, mem_pushed fun _ hstatus =>
          hl.io (by rw [hpc]; rfl) (by rw [hpc]; exact hstatus)⟩
      | io | blockedSus => contradiction
      | _ => exact ⟨rfl, fun a ha => .inl ha⟩
    | @pushReady b hpc =>
      cases y with
      | ready =>
        exact ⟨rfl, mem_pushed fun _ hstatus =>
          hl.io (by rw [hpc]; rfl) (by rw [hpc]; exact hstatus)⟩
      | io | blockedSus => contradiction
      | _ => exact ⟨rfl, fun a ha => .inl ha⟩
    | _ =>
      cases y with
      | io | blockedSus => contradiction
      | _ => exact ⟨rfl, fun a ha => .inl ha⟩
  · cases hm <;> exact fun _ ha => .inl ha
  · cases hm <;> exact hl.sent

section Trackers

variable {i : ℕ} {t : Tracker}

/-- A tracker writes to the block it has removed, or to the one in service. -/
lemma written_mts (hs : Suspensions k h) (ht : k.trackers[i]? = some t) (hm : MtsMove k i t k') :
    ∃ x, (x = .suspension ∨ x = .io ∧ ioStatus k.io = none) ∧ Written k k' x := by
  cases hm with
  | setSuspendedBlocked hpc =>
    have hwrites : ∀ a, a ≠ t.target →
        (setStatus k.heap t.target .suspendedBlocked a).status = (k.heap a).status :=
      fun a hne => setStatus_of_ne _ hne
    rcases hs.target_mem (List.mem_of_getElem? ht) (by simp [suspending, hpc]) with hmem | hio
    · refine ⟨.suspension, .inl rfl, fun a => ?_⟩
      by_cases hne : a = t.target
      · exact .inr (.inl (hne ▸ hmem))
      · exact .inl (hwrites a hne)
    · refine ⟨.io, .inr ⟨rfl, ?_⟩, fun a => ?_⟩
      · cases hpc' : k.io <;> simp_all [ioServes, ioStatus]
      · by_cases hne : a = t.target
        · exact .inr (.inl (hne ▸ Conserved.io_mem (ioHolds_of_serves hio)))
        · exact .inl (hwrites a hne)
  | _ => exact ⟨.suspension, .inl rfl, fun _ => .inl rfl⟩

lemma stepMts (hk : Conserved k h) (hs : Suspensions k h) (hs' : Suspensions k' h')
    (hl : Labelled k) (ht : k.trackers[i]? = some t) (hm : MtsMove k i t k') : Labelled k' := by
  obtain ⟨x, hx, hw⟩ := written_mts hs ht hm
  refine ⟨hl.placed_of hk hw ?self ?others, hl.fresh_of hk hw ?_, ?_⟩
  case self =>
    intro a ha status hstatus
    rcases hx with rfl | ⟨rfl, hio⟩
    · cases hstatus
    · have hnone : statusAt k' .io = none := by cases hm <;> exact hio
      rw [hnone] at hstatus
      cases hstatus
  case others =>
    intro y hy
    by_cases hsus : y = .blockedSus
    · subst hsus
      exact ⟨rfl, fun a ha => .inr (blockedSus hs' a ha)⟩
    by_cases hsuspension : y = .suspension
    · subst hsuspension
      exact ⟨rfl, fun a ha => .inr fun _ hstatus => by cases hstatus⟩
    cases hm with
    | removeBlocked hpc hq =>
      cases y with
      | blocked =>
        refine ⟨rfl, fun a ha => .inl ?_⟩
        show a ∈ k.blocked
        rw [hq]
        exact List.perm_middle.symm.subset (List.mem_cons_of_mem _ ha)
      | blockedSus | suspension => contradiction
      | _ => exact ⟨rfl, fun a ha => .inl ha⟩
    | _ =>
      cases y with
      | blockedSus | suspension => contradiction
      | _ => exact ⟨rfl, fun a ha => .inl ha⟩
  · cases hm <;> exact fun _ ha => .inl ha
  · cases hm <;> exact hl.sent

end Trackers

section Consoles

variable {i : ℕ} {s : Console}

/-- What a handler holds afterwards, others held before, or it does. -/
lemma created_set (s' : Console) {a : Addr}
    (ha : a ∈ (k.consoles.set i s').filterMap consoleHolds) :
    a ∈ created k ∨ consoleHolds s' = some a := by
  obtain ⟨s₁, hs₁, hholds⟩ := List.mem_filterMap.mp ha
  rcases List.mem_or_eq_of_mem_set hs₁ with hmem | rfl
  · exact .inl (List.mem_append_right _ (List.mem_filterMap.mpr ⟨s₁, hmem, hholds⟩))
  · exact .inr hholds

lemma created_of_holds (hs : k.consoles[i]? = some s) {a : Addr} (ha : consoleHolds s = some a) :
    a ∈ created k :=
  List.mem_append_right _ (List.mem_filterMap.mpr ⟨s, List.mem_of_getElem? hs, ha⟩)

lemma created_console (hs : k.consoles[i]? = some s) (hm : ConsoleMove c k i s k') {a : Addr}
    (ha : a ∈ created k') : a ∈ created k ∨ (k'.heap a).status = .none := by
  rcases List.mem_append.mp ha with ha | ha
  · cases hm with
    | @addPcb size addr hpc huse =>
      rcases List.mem_append.mp ha with ha | ha
      · exact .inl (List.mem_append_left _ ha)
      · obtain rfl := List.mem_singleton.mp ha
        right
        show (fill _ _ _ a).status = _
        rw [fill_self]
        rfl
    | @getPcbByPid instructions b before behind hpc hq =>
      refine .inl (List.mem_append_left _ ?_)
      rw [hq]
      exact List.perm_middle.symm.subset (List.mem_cons_of_mem _ ha)
    | _ => exact .inl (List.mem_append_left _ ha)
  · left
    cases hm with
    | other => exact List.mem_append_right _ ha
    | @getPcbByPid instructions b before behind hpc hq =>
      rcases created_set _ ha with hold | hnew
      · exact hold
      · obtain rfl := Option.some_injective _ hnew
        exact List.mem_append_left _ (by rw [hq]; simp)
    | setInstructions hpc =>
      rcases created_set _ ha with hold | hnew
      · exact hold
      · exact created_of_holds hs (by simpa [consoleHolds, hpc] using hnew)
    | newProcess | cmd | getPidLibre | getPidLibreNone | addPcb | getPcbByPidNone | pushNew
    | signalReqAdmit =>
      rcases created_set _ ha with hold | hnew
      · exact hold
      · cases hnew

lemma stepConsole (hk : Conserved k h) (hl : Labelled k) (hs : k.consoles[i]? = some s)
    (hm : ConsoleMove c k i s k') : Labelled k' := by
  have hw := written_console hm .new
  have hfresh := hl.fresh_of hk hw fun a ha => created_console hs hm ha
  refine ⟨hl.placed_of hk hw ?self ?others, hfresh, ?_⟩
  case self =>
    intro a ha status hstatus
    cases hm with
    | @pushNew b hpc =>
      rcases List.mem_append.mp ha with ha | ha
      · exact hl.placed .new a ha status hstatus
      · obtain rfl := List.mem_singleton.mp ha
        obtain rfl := Option.some_injective _ hstatus
        exact hl.fresh a (created_of_holds hs (by simp [consoleHolds, hpc]))
    | @addPcb size addr hpc huse =>
      have hne : a ≠ addr := by
        rintro rfl
        rw [hk.used a (.inr (Conserved.mem_admitted (x := .new) ha))] at huse
        cases huse
      show (fill _ _ _ a).status = _
      rw [fill_of_ne _ hne]
      exact hl.placed .new a ha status hstatus
    | setInstructions =>
      refine (modify_field Pcb.status (by intro; rfl) a).trans ?_
      exact hl.placed .new a ha status hstatus
    | _ => exact hl.placed .new a ha status hstatus
  case others =>
    intro y hy
    cases hm <;> cases y <;> first | exact ⟨rfl, fun a ha => .inl ha⟩ | contradiction
  · cases hm <;> exact hl.sent

end Consoles

lemma scribble (hk : Conserved k h) (hl : Labelled k) {a : Addr} {pcb : Pcb}
    (huse : k.inUse a = false) : Labelled { k with heap := fill k.heap a pcb } := by
  have hw : Written k { k with heap := fill k.heap a pcb } .suspension :=
    written_scribble huse .suspension
  refine ⟨hl.placed_of hk hw (fun _ _ _ hstatus => by cases hstatus) fun y _ => ?_,
    hl.fresh_of hk hw fun _ ha => .inl ha, hl.sent⟩
  exact ⟨by cases y <;> rfl, fun b hb => .inl (by cases y <;> exact hb)⟩

lemma connect (hl : Labelled k) :
    Labelled { k with consoles := k.consoles ++ [⟨0, .receive⟩] } := by
  refine ⟨fun x a ha status hstatus => ?_, fun a ha => hl.fresh a ?_, hl.sent⟩
  · exact hl.placed x a (by cases x <;> exact ha) status (by cases x <;> exact hstatus)
  · simpa [created, consoleHolds] using ha

end Labelled

/-! ### The result -/

lemma Labelled.step (hp : Placed k h) (hp' : Placed k' h') (hl : Labelled k) {e : Event}
    (hm : MoveH c k h e (k', h')) : Labelled k' := by
  cases hm with
  | connect => exact hl.connect
  | console hs hm => exact hl.stepConsole hp.conserved hs hm
  | lts hm => exact hl.stepLts hp.conserved hm
  | sts hm => exact hl.stepSts hp.conserved hm
  | io hm => exact hl.stepIo hp.conserved hp'.suspensions hm
  | mts ht hm => exact hl.stepMts hp.conserved hp.suspensions hp'.suspensions ht hm
  | scribble huse => exact hl.scribble hp.conserved huse

lemma follows (hp : Placed k h) {e : Event} (hm : MoveH c k h e (k', h')) : Follows k k' := by
  obtain ⟨hk, hs⟩ := hp
  cases hm with
  | connect => exact .inl (ownEntries_of_same (fun z => by cases z <;> rfl) rfl fun _ _ _ => rfl)
  | console hs hm => exact follows_console hk hm
  | lts hm => exact follows_lts hm
  | sts hm => exact follows_sts hk hm
  | io hm => exact follows_io hk hs hm
  | mts ht hm => exact follows_mts hk hs ht hm
  | scribble huse =>
    refine .inl (ownEntries_of_same (fun z => by cases z <;> rfl) rfl fun z a ha => ?_)
    exact id_kept (c := c) (h := h) (.scribble huse) (hk.used a (.inr (Conserved.mem_admitted ha)))

lemma Follows.step (hk : Conserved k h) (hk' : Conserved k' h') (hf : Follows k k') :
    Step Edge (placeOf k) (placeOf k') := by
  unfold placeOf
  rcases hf with hsame | ⟨p, x, y, hedge, hmoved⟩
  · rw [hsame]
    exact .stay
  · exact hmoved.step hedge.ne hedge (single_ownEntries hk) (single_ownEntries hk') mem_places

/-- **Refinement.** In every run in which trackers and the I/O thread do not get in each other's
way, a step of a thread is one of the seven-state model, or changes nothing in it; and exactly the
live processes are in it. -/
theorem sevenStates_of_timely (c : Cfg) (heap : Heap) (es : List Event) (e : Event)
    (k k' : Kernel) (h h' : History) (hrun : run (stepH c) (initH c heap) es = some (k, h))
    (hstep : stepH c (k, h) e = some (k', h'))
    (htimely : Meets (stepH c) (fun s e => Timely s.1 e) (initH c heap) (es ++ [e])) :
    Step Edge (placeOf k) (placeOf k') ∧ ∀ p, (placeOf k p).isSome ↔ p ∈ h.live := by
  have hp := placed_of_run hrun htimely.append_left
  have hp' := hp.step (htimely.append_right hrun).1 (moveH hstep)
  exact ⟨(follows hp (moveH hstep)).step hp.conserved hp'.conserved, placeOf_isSome hp.conserved⟩

set_option maxRecDepth 40000 in
/-- The I/O thread retrieves a process from BLOCKED. -/
theorem sevenStates_of_timely_serve :
    ∃ k k' h h', run (stepH srtCfg) (initH srtCfg zeroHeap) (toBlocked ++ ioSteps 2) = some (k, h) ∧
      stepH srtCfg (k, h) .io = some (k', h') ∧
      placeOf k 0 = some .blocked ∧ placeOf k' 0 = some .io ∧
      Step Edge (placeOf k) (placeOf k') ∧ ∀ p, (placeOf k p).isSome ↔ p ∈ h.live := by
  refine ⟨_, _, _, _, rfl, rfl, by decide +kernel, by decide +kernel, ?_⟩
  exact sevenStates_of_timely srtCfg zeroHeap (toBlocked ++ ioSteps 2) .io _ _ _ _ rfl rfl
    (by decide +kernel)

end Sski.Scheduling.SevenStates
