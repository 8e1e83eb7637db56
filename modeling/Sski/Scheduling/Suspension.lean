import Sski.Lib.Runs
import Sski.Scheduling.Conservation

/-!
Trackers suspend processes that wait for I/O, and the one that does I/O.

A tracker that finds its process in BLOCKED takes the block out; else it acts on the block it
was started with. The second is right only while the I/O thread serves that block, and the I/O
thread has to find the block in SUSPENDED BLOCKED if the tracker pushes it there.
-/

namespace Sski.Scheduling.Suspension

open Sski.Lib.Runs Sski.Lib.Counting Sski.Scheduling.Scheduler Sski.Scheduling.Threads
open Sski.Scheduling.Moves Sski.Scheduling.History Sski.Scheduling.Places
open Sski.Scheduling.Conservation

/-- A tracker that removes nothing from BLOCKED is the one that suspends the block in service,
and the I/O thread decides where a block goes when no tracker is about to suspend it. -/
def Timely (k : Kernel) : Event → Prop
  | .mts i => ∀ t ∈ k.trackers[i]?, t.pc = .removeBlocked →
      pcbExists k.heap k.blocked t.pid = true ∨
        (ioServes k.io = some t.pcb ∧ t.pcb ∉ k.blockedSus ∧
          ∀ t' ∈ k.trackers, trackerExtra t' ≠ some t.pcb)
  | .io => ∀ a ∈ decided k, ∀ t ∈ k.trackers, trackerExtra t ≠ some a
  | _ => True

instance (k : Kernel) : (e : Event) → Decidable (Timely k e)
  | .mts i => inferInstanceAs (Decidable (∀ t ∈ k.trackers[i]?, t.pc = .removeBlocked →
      pcbExists k.heap k.blocked t.pid = true ∨
        (ioServes k.io = some t.pcb ∧ t.pcb ∉ k.blockedSus ∧
          ∀ t' ∈ k.trackers, trackerExtra t' ≠ some t.pcb)))
  | .io => inferInstanceAs (Decidable (∀ a ∈ decided k, ∀ t ∈ k.trackers, trackerExtra t ≠ some a))
  | .connect | .message .. | .console .. | .lts .. | .sts .. | .scribble .. => .isTrue trivial

/-- The entries that trackers make for the block that does I/O. -/
structure Suspensions (k : Kernel) (h : History) : Prop where
  extra : ∀ t ∈ k.trackers, ∀ a, trackerExtra t = some a → ioServes k.io = some a
  atMost : ∀ a, ioHolds k.io = some a →
    (k.trackers.countP fun t => trackerExtra t == some a) + k.blockedSus.count a ≤ 1
  late : ∀ a, ioPushes k.io = some a → a ∉ k.blockedSus
  status : ∀ a ∈ k.blockedSus, (k.heap a).status = .suspendedBlocked
  marked : ∀ t ∈ k.trackers, t.pc = .pushBlockedSus →
    (k.heap t.target).status = .suspendedBlocked
  during : ∀ a ∈ k.blockedSus, ioHolds k.io = some a → h.suspendedIo = true

variable {c : Cfg} {k k' : Kernel} {h h' : History}

lemma suspensions_init (heap : Heap) : Suspensions (initKernel c heap) noHistory := by
  refine ⟨?_, ?_, ?_, ?_, ?_, ?_⟩ <;> simp [initKernel, ioHolds, ioPushes]

/-! ### Who writes a status -/

/-- The status changes of blocks at one place, and of memory that is not in use. -/
def Written (k k' : Kernel) (x : Place) : Prop :=
  ∀ a, (k'.heap a).status = (k.heap a).status ∨ a ∈ blocksAt k x ∨ k.inUse a = false

lemma Written.kept (hk : Conserved k h) {x y : Place} (hw : Written k k' x) {a : Addr}
    (ha : a ∈ blocksAt k y) (hxy : y ≠ x) : (k'.heap a).status = (k.heap a).status := by
  rcases hw a with heq | hmem | huse
  · exact heq
  · exact absurd rfl (hk.ne_of_apart hxy ha hmem)
  · rw [hk.used a (.inr (Conserved.mem_admitted ha))] at huse
    cases huse

lemma written_lts (hm : LtsMove c k k') : Written k k' .admission := by
  intro a
  cases hm with
  | @setReady b hl =>
    by_cases hne : a = b
    · exact .inr (.inl (by simp [blocksAt, hl, ltsHolds, hne]))
    · exact .inl (setStatus_of_ne _ hne)
  | pageTable => exact .inl (modify_field Pcb.status (by intro; rfl) a)
  | _ => exact .inl rfl

lemma written_sts (hm : StsMove c k k') : Written k k' .execution := by
  intro a
  cases hm with
  | @setExecuting b hl =>
    by_cases hne : a = b
    · exact .inr (.inl (by simp [blocksAt, hl, stsHolds, hne]))
    · exact .inl (setStatus_of_ne _ hne)
  | @receivePcb pcb o hl hcpu huse =>
    by_cases hne : a = o.addr
    · exact .inr (.inr (hne ▸ huse))
    · exact .inl (congrArg Pcb.status (fill_of_ne _ hne))
  | setReal | setIo | reSchedule | preEmpt =>
    exact .inl (modify_field Pcb.status (by intro; rfl) a)
  | _ => exact .inl rfl

lemma written_console {i : ℕ} {s : Console} (hm : ConsoleMove c k i s k') (x : Place) :
    Written k k' x := by
  intro a
  cases hm with
  | @addPcb size addr hl huse =>
    by_cases hne : a = addr
    · exact .inr (.inr (hne ▸ huse))
    · exact .inl (congrArg Pcb.status (fill_of_ne _ hne))
  | setInstructions => exact .inl (modify_field Pcb.status (by intro; rfl) a)
  | _ => exact .inl rfl

lemma written_scribble {a : Addr} {pcb : Pcb} (huse : k.inUse a = false) (x : Place) :
    Written k { k with heap := fill k.heap a pcb } x := by
  intro b
  by_cases hne : b = a
  · exact .inr (.inr (hne ▸ huse))
  · exact .inl (congrArg Pcb.status (fill_of_ne _ hne))

lemma written_io (hm : IoMove c k k') : Written k k' .io := by
  intro a
  cases hm with
  | @setSuspendedReady b hl | @setReady b hl =>
    by_cases hne : a = b
    · exact .inr (.inl (by simp [blocksAt, hl, ioHolds, hne]))
    · exact .inl (setStatus_of_ne _ hne)
  | _ => exact .inl rfl

/-! ### Steps of threads that have nothing to do with suspensions -/

lemma ioHolds_of_serves {io : Io} {a : Addr} (ha : ioServes io = some a) : ioHolds io = some a := by
  cases io <;> simp_all [ioServes, ioHolds]

lemma ioHolds_of_pushes {io : Io} {a : Addr} (ha : ioPushes io = some a) : ioHolds io = some a := by
  cases io <;> simp_all [ioPushes, ioHolds]

lemma target_extra {t : Tracker} (ht : t ∈ k.trackers) (hsus : suspending t = true) :
    t.target ∈ blocksAt k .suspension ∨ trackerExtra t = some t.target := by
  cases hrem : t.removed with
  | some b =>
    left
    refine List.mem_filterMap.mpr ⟨t, ht, ?_⟩
    simp [trackerHolds, hsus, hrem, Tracker.target]
  | none =>
    right
    simp [trackerExtra, hsus, hrem, Tracker.target]

lemma Suspensions.target_mem (hs : Suspensions k h) {t : Tracker} (ht : t ∈ k.trackers)
    (hsus : suspending t = true) :
    t.target ∈ blocksAt k .suspension ∨ ioServes k.io = some t.target :=
  (target_extra ht hsus).imp id (hs.extra t ht _)

/-- The status of a suspended block, or of one that is about to be, is not written. -/
lemma Written.kept_blockedSus (hk : Conserved k h) {x : Place} (hw : Written k k' x)
    (hsus : x ≠ .blockedSus) (hio : x ≠ .io) {a : Addr} (ha : a ∈ k.blockedSus) :
    (k'.heap a).status = (k.heap a).status := by
  rcases Conserved.io_or_waiting ha with hheld | hwaiting
  · exact hw.kept hk (Conserved.io_mem hheld) (Ne.symm hio)
  · exact hw.kept hk hwaiting (Ne.symm hsus)

lemma Written.kept_target (hk : Conserved k h) (hs : Suspensions k h) {x : Place}
    (hw : Written k k' x) (hsus : x ≠ .suspension) (hio : x ≠ .io) {t : Tracker}
    (ht : t ∈ k.trackers) (hpc : suspending t = true) :
    (k'.heap t.target).status = (k.heap t.target).status := by
  rcases hs.target_mem ht hpc with hmem | hserves
  · exact hw.kept hk hmem (Ne.symm hsus)
  · exact hw.kept hk (Conserved.io_mem (ioHolds_of_serves hserves)) (Ne.symm hio)

lemma Suspensions.quiet (hk : Conserved k h) (hs : Suspensions k h) (hio : k'.io = k.io)
    (hsus : k'.blockedSus = k.blockedSus)
    (htrackers : ∃ ts, k'.trackers = k.trackers ++ ts ∧ ∀ t ∈ ts, t.pc = .readPid)
    {x : Place} (hw : Written k k' x) (hx : x ≠ .suspension ∧ x ≠ .blockedSus ∧ x ≠ .io)
    (hh : h'.suspendedIo = h.suspendedIo) : Suspensions k' h' := by
  obtain ⟨hx₁, hx₂, hx₃⟩ := hx
  obtain ⟨ts, htrackers, hts⟩ := htrackers
  have hnew : ∀ t ∈ ts, trackerExtra t = none := fun t ht => by
    simp [trackerExtra, suspending, hts t ht]
  refine ⟨fun t ht a ha => ?_, fun a ha => ?_, fun a ha => ?_, fun a ha => ?_, fun t ht hpc => ?_,
    fun a ha hheld => ?_⟩
  · rw [htrackers] at ht
    rcases List.mem_append.mp ht with ht | ht
    · exact hio ▸ hs.extra t ht a ha
    · rw [hnew t ht] at ha
      cases ha
  · have hzero : (ts.countP fun t => trackerExtra t == some a) = 0 :=
      List.countP_eq_zero.mpr fun t ht => by simp [hnew t ht]
    rw [htrackers, List.countP_append, hzero, hsus]
    exact hs.atMost a (hio ▸ ha)
  · rw [hsus]
    exact hs.late a (hio ▸ ha)
  · rw [hsus] at ha
    rw [hw.kept_blockedSus hk hx₂ hx₃ ha]
    exact hs.status a ha
  · rw [htrackers] at ht
    rcases List.mem_append.mp ht with ht | ht
    · rw [hw.kept_target hk hs hx₁ hx₃ ht (by simp [suspending, hpc])]
      exact hs.marked t ht hpc
    · rw [hts t ht] at hpc
      cases hpc
  · rw [hh]
    exact hs.during a (hsus ▸ ha) (hio ▸ hheld)

lemma Suspensions.lts (hk : Conserved k h) (hs : Suspensions k h) (hm : LtsMove c k k') :
    Suspensions k' h := by
  have hsame : k'.io = k.io ∧ k'.blockedSus = k.blockedSus ∧ k'.trackers = k.trackers := by
    cases hm <;> exact ⟨rfl, rfl, rfl⟩
  exact hs.quiet hk hsame.1 hsame.2.1 ⟨[], by simp [hsame.2.2], by simp⟩ (written_lts hm)
    (by decide) rfl

lemma Suspensions.sts (hk : Conserved k h) (hs : Suspensions k h) (hm : StsMove c k k') :
    Suspensions k' (noteSts k h) := by
  have hsame : k'.io = k.io ∧ k'.blockedSus = k.blockedSus := by cases hm <;> exact ⟨rfl, rfl⟩
  have hh : (noteSts k h).suspendedIo = h.suspendedIo := by
    unfold noteSts
    split <;> rfl
  refine hs.quiet hk hsame.1 hsame.2 ?_ (written_sts hm) (by decide) hh
  cases hm with
  | @notifyMts a hl => exact ⟨_, rfl, by simp⟩
  | _ => exact ⟨[], by simp, by simp⟩

lemma Suspensions.console (hk : Conserved k h) (hs : Suspensions k h) {i : ℕ} {s : Console}
    (hm : ConsoleMove c k i s k') : Suspensions k' (noteConsole k s h) := by
  have hsame : k'.io = k.io ∧ k'.blockedSus = k.blockedSus ∧ k'.trackers = k.trackers := by
    cases hm <;> exact ⟨rfl, rfl, rfl⟩
  have hh : (noteConsole k s h).suspendedIo = h.suspendedIo := by
    unfold noteConsole
    split <;> rfl
  exact hs.quiet hk hsame.1 hsame.2.1 ⟨[], by simp [hsame.2.2], by simp⟩
    (written_console hm .new) (by decide) hh

lemma Suspensions.scribble (hk : Conserved k h) (hs : Suspensions k h) {a : Addr} {pcb : Pcb}
    (huse : k.inUse a = false) : Suspensions { k with heap := fill k.heap a pcb } h :=
  hs.quiet hk rfl rfl ⟨[], by simp, by simp⟩ (written_scribble huse .new) (by decide) rfl

lemma Suspensions.connect (hk : Conserved k h) (hs : Suspensions k h) :
    Suspensions { k with consoles := k.consoles ++ [⟨0, .receive⟩] } h :=
  hs.quiet (x := .new) hk rfl rfl ⟨[], by simp, by simp⟩ (fun _ => .inl rfl) (by decide) rfl

/-! ### The I/O thread -/

/-- Nobody is about to suspend a block that was not removed. -/
lemma Suspensions.noExtra (hs : Suspensions k h) (hio : ioServes k.io = none) :
    ∀ t ∈ k.trackers, trackerExtra t = none := by
  intro t ht
  cases heq : trackerExtra t with
  | none => rfl
  | some a =>
    rw [hs.extra t ht a heq] at hio
    cases hio

lemma Suspensions.noExtra_of_ne (hs : Suspensions k h) {a : Addr} (hio : ioServes k.io = some a)
    (ha : ∀ t ∈ k.trackers, trackerExtra t ≠ some a) : ∀ t ∈ k.trackers, trackerExtra t = none := by
  intro t ht
  cases heq : trackerExtra t with
  | none => rfl
  | some b =>
    have hb := hs.extra t ht b heq
    rw [hio] at hb
    exact absurd (heq.trans hb.symm) (ha t ht)

lemma countP_noExtra {trackers : List Tracker} (ht : ∀ t ∈ trackers, trackerExtra t = none)
    (a : Addr) : (trackers.countP fun t => trackerExtra t == some a) = 0 :=
  List.countP_eq_zero.mpr fun t hmem => by simp [ht t hmem]

lemma Suspensions.sameIo (hs : Suspensions k h) (hholds : ioHolds k'.io = ioHolds k.io)
    (hserves : ioServes k'.io = ioServes k.io) (hpushes : ioPushes k'.io = ioPushes k.io)
    (hheap : k'.heap = k.heap) (hsus : k'.blockedSus = k.blockedSus)
    (htrackers : k'.trackers = k.trackers) (hh : h'.suspendedIo = h.suspendedIo) :
    Suspensions k' h' := by
  obtain ⟨hextra, hatMost, hlate, hstatus, hmarked, hduring⟩ := hs
  refine ⟨?_, ?_, ?_, ?_, ?_, ?_⟩
  · rwa [htrackers, hserves]
  · rwa [htrackers, hholds, hsus]
  · rwa [hpushes, hsus]
  · rwa [hsus, hheap]
  · rwa [htrackers, hheap]
  · rwa [hsus, hholds, hh]

lemma count_blockedSus_le (hk : Conserved k h) {a : Addr} (ha : ioHolds k.io ≠ some a) :
    k.blockedSus.count a ≤ 1 := by
  have hle := hk.le_one (k.heap a).id
  rw [countP_admitted] at hle
  have hcount : k.blockedSus.count a ≤ (waitingSus k).countP (hasId k.heap (k.heap a).id) := by
    rw [waitingSus, List.count_eq_countP, List.countP_filter]
    refine List.countP_mono_left fun b _ hb => ?_
    obtain rfl : b = a := by simpa using hb
    simpa [hasId] using ha
  omega

lemma Suspensions.of_noExtra (hextra : ∀ t ∈ k'.trackers, trackerExtra t = none)
    (hcount : ∀ a, ioHolds k'.io = some a → k'.blockedSus.count a ≤ 1)
    (hlate : ∀ a, ioPushes k'.io = some a → a ∉ k'.blockedSus)
    (hstatus : ∀ a ∈ k'.blockedSus, (k'.heap a).status = .suspendedBlocked)
    (hmarked : ∀ t ∈ k'.trackers, t.pc = .pushBlockedSus →
      (k'.heap t.target).status = .suspendedBlocked)
    (hduring : ∀ a ∈ k'.blockedSus, ioHolds k'.io = some a → h'.suspendedIo = true) :
    Suspensions k' h' := by
  refine ⟨fun t ht a ha => ?_, fun a ha => ?_, hlate, hstatus, hmarked, hduring⟩
  · rw [hextra t ht] at ha
    cases ha
  · rw [countP_noExtra hextra, Nat.zero_add]
    exact hcount a ha

lemma Suspensions.setStatusIo (hk : Conserved k h) (hs : Suspensions k h) {a : Addr}
    {status : Cpu.Cycle.PcbStatus} {io : Io} (hpushes : ioPushes k.io = some a)
    (hserves : ioServes k.io = none) (hpushes' : ioPushes io = some a) :
    Suspensions { k with heap := setStatus k.heap a status, io } h := by
  have hlate := hs.late a hpushes
  have hholds := ioHolds_of_pushes hpushes
  have hholds' := ioHolds_of_pushes hpushes'
  refine .of_noExtra (hs.noExtra hserves) (fun b hb => ?_) (fun b hb => ?_) (fun b hb => ?_)
    (fun t ht hpc => ?_) fun b hb hheld => ?_
  · obtain rfl := Option.some_injective _ (hholds'.symm.trans hb)
    rw [List.count_eq_zero_of_not_mem hlate]
    exact Nat.zero_le _
  · obtain rfl := Option.some_injective _ (hpushes'.symm.trans hb)
    exact hlate
  · have hne : b ≠ a := by
      rintro rfl
      exact hlate hb
    exact (setStatus_of_ne status hne).trans (hs.status b hb)
  · have hne : t.target ≠ a := by
      rcases hs.target_mem ht (by simp [suspending, hpc]) with hmem | hio
      · exact hk.ne_of_apart (by decide) hmem (Conserved.io_mem hholds)
      · rw [hserves] at hio
        cases hio
    exact (setStatus_of_ne status hne).trans (hs.marked t ht hpc)
  · obtain rfl := Option.some_injective _ (hholds'.symm.trans hheld)
    exact absurd hb hlate

lemma Suspensions.pushedIo (hs : Suspensions k h) (hserves : ioServes k.io = none)
    (hholds' : ioHolds k'.io = none) (hheap : k'.heap = k.heap)
    (hsus : k'.blockedSus = k.blockedSus) (htrackers : k'.trackers = k.trackers) :
    Suspensions k' h := by
  refine .of_noExtra ?_ (fun b hb => ?_) (fun b hb => ?_) ?_ ?_ fun b hb hheld => ?_
  · rw [htrackers]
    exact hs.noExtra hserves
  · rw [hholds'] at hb
    cases hb
  · rw [ioHolds_of_pushes hb] at hholds'
    cases hholds'
  · rw [hsus, hheap]
    exact hs.status
  · rw [htrackers, hheap]
    exact hs.marked
  · rw [hholds'] at hheld
    cases hheld

lemma Suspensions.retrieved (hs : Suspensions k h) {a : Addr} (hserves : ioServes k.io = none)
    (hio : k'.io = .setCurrentIo a) (hnot : a ∉ k'.blockedSus)
    (hsus : ∀ b ∈ k'.blockedSus, b ∈ k.blockedSus) (hheap : k'.heap = k.heap)
    (htrackers : k'.trackers = k.trackers) : Suspensions k' h' := by
  have hheld : ∀ b, ioHolds k'.io = some b → b ∉ k'.blockedSus := fun b hb => by
    rw [hio] at hb
    obtain rfl := Option.some_injective _ hb
    exact hnot
  refine .of_noExtra ?_ (fun b hb => ?_) (fun b hb => ?_) (fun b hb => ?_) ?_ fun b hb hb' => ?_
  · rw [htrackers]
    exact hs.noExtra hserves
  · rw [List.count_eq_zero_of_not_mem (hheld b hb)]
    exact Nat.zero_le _
  · rw [hio] at hb
    cases hb
  · rw [hheap]
    exact hs.status b (hsus b hb)
  · rw [htrackers, hheap]
    exact hs.marked
  · exact absurd hb (hheld b hb')

lemma Suspensions.io (hk : Conserved k h) (hs : Suspensions k h) (htimely : Timely k .io)
    (hm : IoMove c k k') : Suspensions k' (noteIo k h) := by
  cases hm with
  | waitIoRequest hl | popBlockedSusNone hl hq | popBlockedNone hl hq | setCurrentIo hl | sleep hl
  | switchSuspended hl hsus | signalReqAdmit hl | raises hl | raisesNot hl | sendInterrupt hl
  | signalExecute hl | clearCurrentIo hl =>
    refine hs.sameIo ?_ ?_ ?_ rfl rfl rfl ?_
    · simp [hl, ioHolds]
    · simp [hl, ioServes]
    · simp [hl, ioPushes]
    · simp [noteIo, decided, *]
  | @popBlockedSus a blockedSus hl hq =>
    have hle : k.blockedSus.count a ≤ 1 := count_blockedSus_le hk (by simp [hl, ioHolds])
    have hnot : a ∉ blockedSus := fun hmem => by
      have hpos := List.count_pos_iff.mpr hmem
      rw [hq, List.count_cons_self] at hle
      omega
    exact hs.retrieved (by simp [hl, ioServes]) rfl hnot (by simp +contextual [hq]) rfl rfl
  | @popBlocked a blocked hl hq =>
    have hmem : a ∈ blocksAt k .blocked := by simp [blocksAt, hq]
    have hnot := hk.notMem_blockedSus hmem (by decide) (by decide)
    exact hs.retrieved (by simp [hl, ioServes]) rfl hnot (fun _ hb => hb) rfl rfl
  | @switchDefault a hl hstatus =>
    -- nobody suspends the block, so it is not in SUSPENDED BLOCKED
    have hextra := hs.noExtra_of_ne (a := a) (by simp [hl, ioServes])
      (htimely a (by simp [decided, hl, hstatus]))
    have hnot : a ∉ k.blockedSus := fun hmem => hstatus (hs.status a hmem)
    refine .of_noExtra hextra (fun b hb => ?_) (fun b hb => ?_) hs.status hs.marked
      fun b hb hheld => ?_
    · obtain rfl := Option.some_injective _ hb
      rw [List.count_eq_zero_of_not_mem hnot]
      exact Nat.zero_le _
    · obtain rfl := Option.some_injective _ hb
      exact hnot
    · obtain rfl := Option.some_injective _ hheld
      exact absurd hb hnot
  | @«exists» a b hl hb hid =>
    have hextra := hs.noExtra_of_ne (a := a) (by simp [hl, ioServes])
      (htimely a (by simp [decided, hl]))
    refine .of_noExtra hextra (fun b hb => ?_) (fun b hb => by cases hb) hs.status hs.marked
      fun b hb hheld => ?_
    · obtain rfl := Option.some_injective _ hb
      have hle := hs.atMost a (by simp [hl, ioHolds])
      rwa [countP_noExtra hextra, Nat.zero_add] at hle
    · obtain rfl := Option.some_injective _ hheld
      simpa [noteIo, decided, hl] using hs.during a hb (by simp [hl, ioHolds])
  | @existsNot a hl hnone =>
    have hextra := hs.noExtra_of_ne (a := a) (by simp [hl, ioServes])
      (htimely a (by simp [decided, hl]))
    have hnot : a ∉ k.blockedSus := fun hmem => hnone a hmem rfl
    refine .of_noExtra hextra (fun b hb => ?_) (fun b hb => ?_) hs.status hs.marked
      fun b hb hheld => ?_
    · obtain rfl := Option.some_injective _ hb
      rw [List.count_eq_zero_of_not_mem hnot]
      exact Nat.zero_le _
    · obtain rfl := Option.some_injective _ hb
      exact hnot
    · obtain rfl := Option.some_injective _ hheld
      exact absurd hb hnot
  | @removeBlockedSus a b before behind hl hq hid =>
    -- the entry that is removed is that of the block, and there was no other
    obtain rfl : b = a := hk.eq_of_id (by simp [hl, ioHolds]) (by simp [hq]) hid
    have hle := hs.atMost b (by simp [hl, ioHolds])
    have hnot : b ∉ before ++ behind := fun hmem => by
      have hpos := List.count_pos_iff.mpr hmem
      rw [hq, List.count_append, List.count_cons_self] at hle
      rw [List.count_append] at hpos
      omega
    refine .of_noExtra (hs.noExtra (by simp [hl, ioServes])) (fun d hd => ?_) (fun d hd => ?_)
      (fun d hd => ?_) hs.marked fun d hd hheld => ?_
    · obtain rfl := Option.some_injective _ hd
      rw [List.count_eq_zero_of_not_mem hnot]
      exact Nat.zero_le _
    · obtain rfl := Option.some_injective _ hd
      exact hnot
    · refine hs.status d ?_
      rw [hq]
      exact List.perm_middle.symm.subset (List.mem_cons_of_mem b hd)
    · obtain rfl := Option.some_injective _ hheld
      exact absurd hd hnot
  | setSuspendedReady hl | setReady hl =>
    rw [show noteIo k h = h by simp [noteIo, decided, hl]]
    exact hs.setStatusIo hk (by simp [hl, ioPushes]) (by simp [hl, ioServes]) rfl
  | pushReadySus hl | pushReady hl =>
    rw [show noteIo k h = h by simp [noteIo, decided, hl]]
    exact hs.pushedIo (by simp [hl, ioServes]) rfl rfl rfl rfl

/-! ### Trackers -/

section Trackers

variable {i : ℕ} {t : Tracker}

lemma suspending_of_extra {a : Addr} (ha : trackerExtra t = some a) :
    suspending t = true ∧ t.removed = none ∧ t.pcb = a := by
  unfold trackerExtra at ha
  split at ha
  · next hsus =>
    split at ha
    · next hrem => exact ⟨hsus, hrem, Option.some_injective _ ha⟩
    · cases ha
  · cases ha

/-- A tracker goes on, and gives up what it would suspend, or keeps it. -/
lemma Suspensions.setTracker (hs : Suspensions k h) (ht : k.trackers[i]? = some t) {t' : Tracker}
    (htrackers : k'.trackers = k.trackers.set i t') (hio : k'.io = k.io)
    (hsus : k'.blockedSus = k.blockedSus)
    (hheap : ∀ a, (k'.heap a).status = (k.heap a).status ∨
      (k'.heap a).status = .suspendedBlocked)
    (hextra : trackerExtra t' = none ∨ trackerExtra t' = trackerExtra t)
    (hmarked : t'.pc = .pushBlockedSus → (k'.heap t'.target).status = .suspendedBlocked)
    (hh : h'.suspendedIo = h.suspendedIo) : Suspensions k' h' := by
  have hmem : ∀ t₁ ∈ k'.trackers, t₁ ∈ k.trackers ∨ t₁ = t' := fun t₁ h₁ => by
    rw [htrackers] at h₁
    exact List.mem_or_eq_of_mem_set h₁
  have hkeep : ∀ a, (k.heap a).status = .suspendedBlocked →
      (k'.heap a).status = .suspendedBlocked := fun a ha => by
    rcases hheap a with heq | heq
    · exact heq.trans ha
    · exact heq
  refine ⟨fun t₁ h₁ a ha => ?_, fun a ha => ?_, fun a ha => ?_, fun a ha => ?_, fun t₁ h₁ hpc => ?_,
    fun a ha hheld => ?_⟩
  · rw [hio]
    rcases hmem t₁ h₁ with h₁ | rfl
    · exact hs.extra t₁ h₁ a ha
    · rcases hextra with hnone | hsame
      · rw [hnone] at ha
        cases ha
      · exact hs.extra t (List.mem_of_getElem? ht) a (hsame ▸ ha)
  · have hcount := countP_set_toNat (p := fun t => trackerExtra t == some a) t' ht
    have hle := hs.atMost a (hio ▸ ha)
    rw [htrackers, hsus]
    have hnew : (trackerExtra t' == some a).toNat ≤ (trackerExtra t == some a).toNat := by
      rcases hextra with hnone | hsame
      · simp [hnone]
      · rw [hsame]
    omega
  · rw [hsus]
    exact hs.late a (hio ▸ ha)
  · exact hkeep a (hs.status a (hsus ▸ ha))
  · rcases hmem t₁ h₁ with h₁ | rfl
    · exact hkeep _ (hs.marked t₁ h₁ hpc)
    · exact hmarked hpc
  · rw [hh]
    exact hs.during a (hsus ▸ ha) (hio ▸ hheld)

lemma Suspensions.removeBlockedNone (hs : Suspensions k h) (ht : k.trackers[i]? = some t)
    (hserves : ioServes k.io = some t.pcb) (hnot : t.pcb ∉ k.blockedSus)
    (hothers : ∀ t' ∈ k.trackers, trackerExtra t' ≠ some t.pcb) :
    Suspensions { k with trackers := k.trackers.set i { t with removed := none, pc := .signalDom } }
      h := by
  set t' : Tracker := { t with removed := none, pc := .signalDom } with ht'
  have hextra : trackerExtra t' = some t.pcb := rfl
  refine ⟨fun t₁ h₁ a ha => ?_, fun a ha => ?_, hs.late, hs.status, fun t₁ h₁ hpc => ?_, hs.during⟩
  · rcases List.mem_or_eq_of_mem_set h₁ with h₁ | rfl
    · exact hs.extra t₁ h₁ a ha
    · rw [hextra] at ha
      exact ha ▸ hserves
  · have hold := countP_noExtra (hs.noExtra_of_ne hserves hothers) a
    have hcount := countP_set_toNat (p := fun t => trackerExtra t == some a) t' ht
    obtain rfl := Option.some_injective _ ((ioHolds_of_serves hserves).symm.trans ha)
    have hzero := List.count_eq_zero_of_not_mem hnot
    have hone : (trackerExtra t' == some t.pcb).toNat ≤ 1 := Bool.toNat_le _
    show (k.trackers.set i t').countP _ + k.blockedSus.count t.pcb ≤ 1
    omega
  · rcases List.mem_or_eq_of_mem_set h₁ with h₁ | rfl
    · exact hs.marked t₁ h₁ hpc
    · cases hpc

lemma Suspensions.pushBlockedSus (hk : Conserved k h) (hs : Suspensions k h)
    (ht : k.trackers[i]? = some t) (hl : t.pc = .pushBlockedSus) :
    Suspensions { k with
      blockedSus := k.blockedSus ++ [t.target]
      trackers := k.trackers.set i { t with pc := .sendSwap } } (noteMts t h) := by
  have hmem := List.mem_of_getElem? ht
  have hsus : suspending t = true := by simp [suspending, hl]
  have htarget := hs.target_mem hmem hsus
  have hnew : trackerExtra { t with pc := .sendSwap } = none := rfl
  refine ⟨fun t₁ h₁ a ha => ?_, fun a ha => ?_, fun a ha => ?_, fun a ha => ?_, fun t₁ h₁ hpc => ?_,
    fun a ha hheld => ?_⟩
  · rcases List.mem_or_eq_of_mem_set h₁ with h₁ | rfl
    · exact hs.extra t₁ h₁ a ha
    · rw [hnew] at ha
      cases ha
  · have hcount := countP_set_toNat (p := fun t => trackerExtra t == some a)
      { t with pc := .sendSwap } ht
    have hle := hs.atMost a ha
    simp only [hnew, Option.none_beq_some, Bool.toNat_false, Nat.add_zero] at hcount
    simp only [List.count_append, List.count_singleton]
    by_cases heq : t.target = a
    · -- the tracker gives up its claim, and makes the entry
      have hextra : trackerExtra t = some a := by
        rcases target_extra hmem hsus with hrem | hextra
        · exact absurd heq (hk.ne_of_apart (by decide) hrem (Conserved.io_mem ha))
        · rw [hextra, heq]
      rw [hextra, beq_self_eq_true, Bool.toNat_true] at hcount
      simp only [heq, beq_self_eq_true, if_true]
      omega
    · rw [beq_eq_false_iff_ne.mpr heq]
      simp only [Bool.false_eq_true, if_false]
      omega
  · have hne : t.target ≠ a := by
      rcases htarget with hrem | hio
      · exact hk.ne_of_apart (by decide) hrem (Conserved.io_mem (ioHolds_of_pushes ha))
      · intro heq
        cases hk' : k.io <;> simp_all [ioServes, ioPushes]
    simpa [Ne.symm hne] using hs.late a ha
  · rcases List.mem_append.mp ha with ha | ha
    · exact hs.status a ha
    · obtain rfl := List.mem_singleton.mp ha
      exact hs.marked t hmem hl
  · rcases List.mem_or_eq_of_mem_set h₁ with h₁ | rfl
    · exact hs.marked t₁ h₁ hpc
    · cases hpc
  · cases hr : t.removed with
    | none => simp [noteMts, hl, hr]
    | some b =>
      have hh : noteMts t h = h := by simp [noteMts, hl, hr]
      have hrem : t.target ∈ blocksAt k .suspension := List.mem_filterMap.mpr
        ⟨t, hmem, by simp [trackerHolds, hsus, hr, Tracker.target]⟩
      rw [hh]
      rcases List.mem_append.mp ha with ha | ha
      · exact hs.during a ha hheld
      · obtain rfl := List.mem_singleton.mp ha
        exact absurd rfl (hk.ne_of_apart (by decide) hrem (Conserved.io_mem hheld))

lemma Suspensions.mts (hk : Conserved k h) (hs : Suspensions k h) (htimely : Timely k (.mts i))
    (ht : k.trackers[i]? = some t) (hm : MtsMove k i t k') : Suspensions k' (noteMts t h) := by
  cases hm with
  | readPid hl | existsBlocked hl | existsBlockedNot hl | testCurrentIo hl | testCurrentIoNot hl
  | removeBlocked hl | sendSwap hl =>
    refine hs.setTracker ht rfl rfl rfl (fun _ => .inl rfl) (.inl rfl) (fun hpc => by cases hpc) ?_
    simp [noteMts, hl]
  | signalDom hl =>
    refine hs.setTracker ht rfl rfl rfl (fun _ => .inl rfl) (.inr ?_) (fun hpc => by cases hpc) ?_
    · simp [trackerExtra, suspending, hl]
    · simp [noteMts, hl]
  | setSuspendedBlocked hl =>
    refine hs.setTracker ht rfl rfl rfl (fun a => ?_) (.inr ?_) (fun _ => setStatus_self ..) ?_
    · by_cases hne : a = t.target
      · exact .inr (hne ▸ setStatus_self ..)
      · exact .inl (setStatus_of_ne _ hne)
    · simp [trackerExtra, suspending, hl]
    · simp [noteMts, hl]
  | removeBlockedNone hl hnone =>
    have hnot : pcbExists k.heap k.blocked t.pid ≠ true := fun hex => by
      obtain ⟨b, hb, hid⟩ := List.any_eq_true.mp hex
      exact hnone b hb (by simpa using hid)
    obtain ⟨hserves, hsus, hothers⟩ := (htimely t ht hl).resolve_left hnot
    rw [show noteMts t h = h by simp [noteMts, hl]]
    exact hs.removeBlockedNone ht hserves hsus hothers
  | pushBlockedSus hl => exact hs.pushBlockedSus hk ht hl

end Trackers

/-! ### Nothing gets lost -/

/-- Outside of the I/O of a suspended process all entries of SUSPENDED BLOCKED are waiting. -/
lemma waitingSus_eq (h : ∀ a, ioHolds k.io = some a → a ∉ k.blockedSus) :
    waitingSus k = k.blockedSus := by
  cases hio : ioHolds k.io with
  | none => exact waitingSus_of_none hio
  | some a =>
    rw [waitingSus, hio]
    exact filter_ne_of_notMem (h a hio)

lemma shuffled_io (hk : Conserved k h) (hs : Suspensions k h) (hm : IoMove c k k') :
    Shuffled k k' := by
  refine ⟨fun a => ?id, ?_, ?_, ?_, ?_, fun P => ?admitted, ?_⟩
  case id =>
    cases hm with
    | setSuspendedReady | setReady => exact setStatus_id _ _ _ _
    | _ => rfl
  case admitted =>
    rw [countP_admitted, countP_admitted]
    cases hm with
    | @popBlockedSus a blockedSus hl hq =>
      have hnone : ioHolds k.io = none := by simp [hl, ioHolds]
      have hle := count_blockedSus_le hk (a := a) (by simp [hnone])
      have hnot : a ∉ blockedSus := fun hmem => by
        have hpos := List.count_pos_iff.mpr hmem
        rw [hq, List.count_cons_self] at hle
        omega
      have hwaiting : waitingSus { k with blockedSus, io := .setCurrentIo a } = blockedSus :=
        waitingSus_eq fun b hb => by
          obtain rfl := Option.some_injective _ hb
          exact hnot
      rw [hwaiting, waitingSus_of_none hnone, hq, hnone, countP_cons_toNat]
      simp only [ioHolds, Option.any_some, Option.any_none, Bool.toNat_false]
      omega
    | @popBlocked a blocked hl hq =>
      have hnone : ioHolds k.io = none := by simp [hl, ioHolds]
      have hmem : a ∈ blocksAt k .blocked := by simp [blocksAt, hq]
      have hwaiting : waitingSus { k with blocked, io := .setCurrentIo a } = k.blockedSus :=
        waitingSus_eq fun b hb => by
          obtain rfl := Option.some_injective _ hb
          exact hk.notMem_blockedSus hmem (by decide) (by decide)
      rw [hwaiting, waitingSus_of_none hnone, hnone]
      simp only [hq, countP_cons_toNat, ioHolds, Option.any_some, Option.any_none, Bool.toNat_false]
      omega
    | @removeBlockedSus a b before behind hl hq hid =>
      obtain rfl : b = a := hk.eq_of_id (by simp [hl, ioHolds]) (by simp [hq]) hid
      simp [hl, hq, waitingSus, ioHolds]
    | @pushReadySus a hl | @pushReady a hl =>
      have hlate := hs.late a (by simp [hl, ioPushes])
      have hwaiting : waitingSus k = k.blockedSus :=
        waitingSus_eq fun b hb => by
          obtain rfl : a = b := by simpa [hl, ioHolds] using hb
          exact hlate
      rw [hwaiting, waitingSus_of_none rfl]
      simp only [hl, ioHolds, List.countP_append, countP_cons_toNat, List.countP_nil,
        Option.any_some, Option.any_none, Bool.toNat_false]
      omega
    | waitIoRequest hl | popBlockedSusNone hl hq | popBlockedNone hl hq | setCurrentIo hl
    | sleep hl | switchSuspended hl | switchDefault hl | «exists» hl | existsNot hl
    | setSuspendedReady hl | signalReqAdmit hl | setReady hl | raises hl | raisesNot hl
    | sendInterrupt hl | signalExecute hl | clearCurrentIo hl => simp [hl, ioHolds, waitingSus]
  all_goals cases hm <;> first | rfl | exact fun _ => rfl

lemma shuffled_mts (hk : Conserved k h) (hs : Suspensions k h) {i : ℕ} {t : Tracker}
    (ht : k.trackers[i]? = some t) (hm : MtsMove k i t k') : Shuffled k k' := by
  refine ⟨fun a => ?id, ?_, ?_, ?_, ?_, fun P => ?admitted, ?_⟩
  case id =>
    cases hm with
    | setSuspendedBlocked => exact setStatus_id _ _ _ _
    | _ => rfl
  case admitted =>
    have hcount := fun t' => countP_set_toNat (p := fun t => (trackerHolds t).any P) t' ht
    have hkeep : ∀ t', trackerHolds t' = trackerHolds t →
        ((k.trackers.set i t').countP fun t => (trackerHolds t).any P) =
          k.trackers.countP fun t => (trackerHolds t).any P := fun t' heq => by
      have hset := hcount t'
      rw [heq] at hset
      omega
    rw [countP_admitted, countP_admitted]
    cases hm with
    | @removeBlocked b before behind hl hq hid =>
      have hset := hcount { t with removed := some b, pc := .signalDom }
      have hnone : trackerHolds t = none := by simp [trackerHolds, suspending, hl]
      have hsome : trackerHolds { t with removed := some b, pc := .signalDom } = some b := rfl
      simp only [hnone, hsome, Option.any_none, Option.any_some, Bool.toNat_false] at hset
      simp only [hq, List.countP_append, countP_cons_toNat, waitingSus]
      omega
    | @pushBlockedSus hl =>
      have hset := hcount { t with pc := .sendSwap }
      have hnone : trackerHolds { t with pc := .sendSwap } = none := rfl
      simp only [hnone, Option.any_none, Bool.toNat_false] at hset
      have hmem := List.mem_of_getElem? ht
      have hsus : suspending t = true := by simp [suspending, hl]
      rcases Option.eq_none_or_eq_some t.removed with hr | ⟨b, hr⟩
      · -- the entry is that of the block in service
        have hholds : trackerHolds t = none := by simp [trackerHolds, hsus, hr]
        have htarget : t.target = t.pcb := by simp [Tracker.target, hr]
        have hio := ioHolds_of_serves (hs.extra t hmem t.pcb (by simp [trackerExtra, hsus, hr]))
        simp only [hholds, Option.any_none, Bool.toNat_false] at hset
        simp only [waitingSus, htarget, List.filter_append, List.countP_append, hio,
          List.filter_singleton, bne_self_eq_false, cond_false, List.countP_nil]
        omega
      · have hsome : trackerHolds t = some b := by simp [trackerHolds, hsus, hr]
        have htarget : t.target = b := by simp [Tracker.target, hr]
        have hin : b ∈ blocksAt k .suspension := List.mem_filterMap.mpr ⟨t, hmem, hsome⟩
        have hne : ioHolds k.io ≠ some b := fun hio =>
          hk.ne_of_apart (by decide) hin (Conserved.io_mem hio) rfl
        simp only [hsome, Option.any_some] at hset
        simp only [waitingSus, htarget, List.filter_append, List.countP_append,
          List.filter_singleton, bne_iff_ne.mpr hne, cond_true, countP_cons_toNat, List.countP_nil]
        omega
    | readPid hl | existsBlocked hl | existsBlockedNot hl | testCurrentIo hl
    | testCurrentIoNot hl | removeBlockedNone hl | signalDom hl | setSuspendedBlocked hl
    | sendSwap hl =>
      simp only [waitingSus]
      rw [hkeep _ (by simp [trackerHolds, suspending, hl])]
  all_goals cases hm <;> first | rfl | exact fun _ => rfl

end Sski.Scheduling.Suspension
