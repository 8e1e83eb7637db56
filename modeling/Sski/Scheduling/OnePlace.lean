import Sski.Scheduling.Suspension

/-!
Every live process is in exactly one place, as long as trackers act on what is blocked.

A tracker finds its process by `current_io` when it is not in BLOCKED any more. The I/O thread
clears `current_io` only after it has handed the block over, and looks at the status of the
block before. So a late tracker suspends a process that is READY again.
-/

namespace Sski.Scheduling.OnePlace

open Sski.Lib.Runs Sski.Lib.Counting Sski.Scheduling.Scheduler Sski.Scheduling.Threads
open Sski.Scheduling.Moves Sski.Scheduling.History Sski.Scheduling.Places
open Sski.Scheduling.Conservation Sski.Scheduling.Suspension

def entries (k : Kernel) (p : UInt32) : Place → ℕ
  | .execution => (blocksAt k .execution).countP (hasId k.heap p) + (away k).count p
  | .blockedSus => k.blockedSus.countP (hasId k.heap p)
  | x => (blocksAt k x).countP (hasId k.heap p)

/-- The process is in one place and once, except that it may have one entry in SUSPENDED
BLOCKED while it does I/O, if it was suspended in the meantime. -/
def OnePlace (k : Kernel) (h : History) (p : UInt32) : Prop :=
  ∃ x ∈ places, entries k p x = 1 ∧ ∀ y ∈ places, y ≠ x → entries k p y = 0 ∨
    (x = .io ∧ y = .blockedSus ∧ entries k p y = 1 ∧ h.suspendedIo = true)

instance (k : Kernel) (h : History) (p : UInt32) : Decidable (OnePlace k h p) :=
  inferInstanceAs (Decidable (∃ x ∈ places, entries k p x = 1 ∧ ∀ y ∈ places, y ≠ x →
    entries k p y = 0 ∨ (x = .io ∧ y = .blockedSus ∧ entries k p y = 1 ∧ h.suspendedIo = true)))

structure Placed (k : Kernel) (h : History) : Prop where
  conserved : Conserved k h
  suspensions : Suspensions k h

variable {c : Cfg} {k k' : Kernel} {h h' : History}

lemma placed_init (heap : Heap) : Placed (initKernel c heap) noHistory :=
  ⟨conserved_init heap, suspensions_init heap⟩

lemma Placed.step (hp : Placed k h) {e : Event} (htimely : Timely k e)
    (hm : MoveH c k h e (k', h')) : Placed k' h' := by
  obtain ⟨hk, hs⟩ := hp
  cases hm with
  | connect => exact ⟨hk.connect, hs.connect hk⟩
  | console ht hm => exact ⟨hk.console ht hm, hs.console hk hm⟩
  | lts hm => exact ⟨hk.lts hm, hs.lts hk hm⟩
  | sts hm => exact ⟨hk.sts hm, hs.sts hk hm⟩
  | io hm =>
    refine ⟨hk.shuffled (shuffled_io hk hs hm) ?_ fun a ha => ?_, hs.io hk htimely hm⟩
    · simp only [noteIo, History.retrieved]
      split <;> split <;> rfl
    · have hsame : k'.sts = k.sts ∧ k'.cpu = k.cpu := by cases hm <;> exact ⟨rfl, rfl⟩
      rw [(shuffled_io hk hs hm).id, hsame.2]
      exact hk.sent a (hsame.1 ▸ ha)
  | mts ht hm =>
    refine ⟨hk.shuffled (shuffled_mts hk hs ht hm) ?_ fun a ha => ?_, hs.mts hk htimely ht hm⟩
    · unfold noteMts
      split <;> rfl
    · have hsame : k'.sts = k.sts ∧ k'.cpu = k.cpu := by cases hm <;> exact ⟨rfl, rfl⟩
      rw [(shuffled_mts hk hs ht hm).id, hsame.2]
      exact hk.sent a (hsame.1 ▸ ha)
  | scribble huse => exact ⟨hk.scribble huse, hs.scribble hk huse⟩

lemma placed_of_run {heap : Heap} {es : List Event}
    (hrun : run (stepH c) (initH c heap) es = some (k, h))
    (htimely : Meets (stepH c) (fun s e => Timely s.1 e) (initH c heap) es) : Placed k h :=
  htimely.inv (I := fun s => Placed s.1 s.2) (fun _ _ _ hp ht hs => hp.step ht (moveH hs))
    (placed_init heap) hrun

/-! ### The result -/

/-- The entries without those that trackers have made for the process that does I/O. -/
def ownEntries (k : Kernel) (p : UInt32) (x : Place) : ℕ :=
  (blocksAt k x).countP (hasId k.heap p) + if x = .execution then (away k).count p else 0

lemma entries_eq {k : Kernel} {p : UInt32} {x : Place} (hx : x ≠ .blockedSus) :
    entries k p x = ownEntries k p x := by
  cases x with
  | blockedSus => exact absurd rfl hx
  | _ => rfl

lemma entries_blockedSus (k : Kernel) (p : UInt32) :
    entries k p .blockedSus = ownEntries k p .blockedSus ∨
      ∃ a, ioHolds k.io = some a ∧ a ∈ k.blockedSus ∧ (k.heap a).id = p := by
  by_cases hex : ∃ a, ioHolds k.io = some a ∧ a ∈ k.blockedSus ∧ (k.heap a).id = p
  · exact .inr hex
  left
  show k.blockedSus.countP _ = (waitingSus k).countP _
  rw [waitingSus, List.countP_filter]
  refine List.countP_congr fun a ha => ?_
  by_cases hid : (k.heap a).id = p
  · have hne : ioHolds k.io ≠ some a := fun hio => hex ⟨a, hio, ha, hid⟩
    simp [hasId, hid, hne]
  · simp [hasId, hid]

lemma sum_ownEntries (k : Kernel) (p : UInt32) : (places.map (ownEntries k p)).sum =
    (admitted k).countP (hasId k.heap p) + (away k).count p := by
  rw [admitted, List.countP_flatMap]
  simp only [places, ownEntries, List.map_cons, List.map_nil, List.sum_cons, List.sum_nil,
    Function.comp_apply, reduceCtorEq, if_false, if_true]
  omega

theorem Placed.onePlace (hp : Placed k h) {p : UInt32} (hlive : p ∈ h.live) :
    OnePlace k h p := by
  obtain ⟨hk, hs⟩ := hp
  have hsum : (places.map (ownEntries k p)).sum = 1 := by
    have hle := hk.le_one p
    have hplaces := hk.places p
    have hpos := List.count_pos_iff.mpr hlive
    rw [sum_ownEntries]
    omega
  obtain ⟨x, hx, hone, hothers⟩ := exists_of_sum_map_eq_one hsum
  rcases entries_blockedSus k p with heq | ⟨a, hio, ha, hid⟩
  · -- nobody has made an entry for a process that does I/O
    have hsame : ∀ y, entries k p y = ownEntries k p y := fun y => by
      by_cases hy : y = .blockedSus
      · rw [hy, heq]
      · exact entries_eq hy
    exact ⟨x, hx, by rw [hsame, hone], fun y hy hne => .inl (by rw [hsame, hothers y hy hne])⟩
  · -- the process does I/O, and a tracker has made an entry for it
    have hioOwn : 0 < ownEntries k p .io :=
      Nat.add_pos_left (List.countP_pos_iff.mpr
        ⟨a, Conserved.io_mem hio, by simpa [hasId] using hid⟩) _
    obtain rfl : x = .io := by
      by_contra hne
      have hzero := hothers .io (mem_places _) (Ne.symm hne)
      omega
    have hcount : entries k p .blockedSus = k.blockedSus.count a := by
      refine List.countP_congr fun b hb => ?_
      simp only [hasId, beq_iff_eq]
      refine ⟨fun hb' => hk.eq_of_id hio hb (hb'.trans hid.symm), ?_⟩
      rintro rfl
      exact hid
    have hpos := List.count_pos_iff.mpr ha
    have hle := hs.atMost a hio
    refine ⟨.io, hx, hone, fun y hy hne => ?_⟩
    by_cases hy' : y = .blockedSus
    · refine .inr ⟨rfl, hy', ?_, hs.during a ha hio⟩
      rw [hy', hcount]
      omega
    · exact .inl (by rw [entries_eq hy', hothers y hy hne])

/-- **Main result.** In every run in which trackers and the I/O thread do not get in each
other's way, every live process is in exactly one place. -/
theorem onePlace_of_timely (c : Cfg) (heap : Heap) (es : List Event) (k : Kernel) (h : History)
    (hrun : run (stepH c) (initH c heap) es = some (k, h))
    (htimely : Meets (stepH c) (fun s e => Timely s.1 e) (initH c heap) es) :
    ∀ p ∈ h.live, OnePlace k h p := fun _ hp => (placed_of_run hrun htimely).onePlace hp

set_option maxRecDepth 40000 in
/-- A process is suspended while it does I/O, and has an entry in SUSPENDED BLOCKED. -/
theorem onePlace_of_timely_suspended :
    ∃ k h, run (stepH srtCfg) (initH srtCfg zeroHeap)
        (toBlocked ++ ioSteps 5 ++ mtsSteps 0 6) = some (k, h) ∧
      entries k 0 .io = 1 ∧ entries k 0 .blockedSus = 1 ∧ ∀ p ∈ h.live, OnePlace k h p := by
  refine ⟨_, _, rfl, by decide +kernel, by decide +kernel, ?_⟩
  exact onePlace_of_timely srtCfg zeroHeap (toBlocked ++ ioSteps 5 ++ mtsSteps 0 6) _ _ rfl
    (by decide +kernel)

set_option maxRecDepth 40000 in
/-- The I/O thread has pushed the process to READY and not cleared `current_io`; its tracker
pushes it to SUSPENDED BLOCKED as well. -/
theorem not_onePlace : ¬ ∀ (c : Cfg) (heap : Heap) (es : List Event) (k : Kernel) (h : History),
    run (stepH c) (initH c heap) es = some (k, h) → ∀ p ∈ h.live, OnePlace k h p := by
  intro hall
  have hplace := hall srtCfg zeroHeap (toBlocked ++ ioSteps 8 ++ mtsSteps 0 6) _ _ rfl 0
    (by decide +kernel)
  revert hplace
  decide +kernel

end Sski.Scheduling.OnePlace
