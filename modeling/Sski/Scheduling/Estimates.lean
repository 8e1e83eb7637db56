import Sski.Lib.Runs
import Sski.Scheduling.Threads
import Mathlib.Algebra.Order.Floor.Semiring
import Mathlib.Data.Rat.Floor
import Mathlib.Tactic.Linarith
import Mathlib.Tactic.Ring

/-!
The estimation of a burst that is preempted. `pre_empt` keeps in the block what the slice has
left of the estimation, so that what `re_schedule` averages in the end is the last slice with what
remains, not the whole burst with the estimation it began with. Where a slice is longer than what
remains, `pre_empt` keeps how much longer it was.
-/

namespace Sski.Scheduling.Estimates

open Sski.Cpu.Cycle (PcbStatus)
open Sski.Lib.Runs
open Sski.Scheduling.Scheduler Sski.Scheduling.Threads

/-! ### Slices -/

/-- A stay on the CPU: how the process comes back, and what the block it is read into held. -/
structure Slice where
  o : Outside
  block : Pcb

def measured (pcb : Pcb) (s : Slice) : Pcb := { received pcb s.o s.block with real := s.o.real }

def preempt (pcb : Pcb) (s : Slice) : Pcb := preEmpted (measured pcb s)

def reSchedule (alfa : ℚ) (real estimation : UInt32) : UInt32 :=
  UInt32.ofNat ⌊real.toNat * alfa⌋₊ + UInt32.ofNat ⌊(1 - alfa) * estimation.toNat⌋₊

variable (alfa : ℚ)

def block (pcb : Pcb) (s : Slice) : Pcb :=
  let pcb := { measured pcb s with io := s.o.ioTime }
  { pcb with estimation := reSchedule alfa pcb.real pcb.estimation }

def preemptions (pcb : Pcb) (slices : List Slice) : Pcb := slices.foldl preempt pcb

/-- Every slice but the last one ends by preemption, and that one for I/O. -/
def burst (pcb : Pcb) (slices : List Slice) (last : Slice) : Pcb :=
  block alfa (preemptions pcb slices) last

def total (slices : List Slice) : ℕ := (slices.map fun s => s.o.real.toNat).sum

/-! ### What the short-term scheduler does -/

variable {c : Cfg} {k : Kernel} {a : Addr} {o : Outside}

@[simp] lemma modify_self (heap : Heap) (a : Addr) (f : Pcb → Pcb) :
    Scheduler.modify heap a f a = f (heap a) := if_pos rfl

/-- The block that is sent is freed, so what comes back may be read into the same one. -/
lemma inUse_received (hfree : o.addr ≠ a → k.inUse o.addr = false) :
    setInUse k.inUse a false o.addr = false := by
  by_cases h : o.addr = a
  · rw [h, setInUse_self]
  · rw [setInUse_of_ne _ h, hfree h]

/-- Up to where the block is measured, the ways back from the CPU are the same. -/
lemma run_measured (hs : k.sts = .setExecuting a) (hsent : o.sent = true)
    (hfree : o.addr ≠ a → k.inUse o.addr = false) :
    ∃ k', run (Threads.step c) k (List.replicate 7 (.sts o)) = some k' ∧
      k'.sts = .switchStatus o.addr o.ioTime ∧
      k'.heap o.addr = measured (k.heap a) ⟨o, k.heap o.addr⟩ := by
  have hin := inUse_received hfree
  simp only [List.replicate, run_cons, run_nil, Threads.step, stsStep, hs, hsent, hin, if_true,
    Option.bind_some, Option.some.injEq, exists_eq_left', true_and, modify_self, fill_self,
    Bool.false_eq_true, if_false]
  by_cases h : o.addr = a
  · simp [h, measured, received, setStatus]
  · simp [measured, received, setStatus, modify_of_ne _ h]

/-- From the dispatch to the push into READY, the block is that of a slice that is preempted. -/
lemma run_preempt (hs : k.sts = .setExecuting a) (hsent : o.sent = true)
    (hfree : o.addr ≠ a → k.inUse o.addr = false) (ho : o.status = .ready) :
    ∃ k', run (Threads.step c) k (List.replicate 9 (.sts o)) = some k' ∧
      k'.sts = .pushReady o.addr ∧
      k'.heap o.addr = preempt (k.heap a) ⟨o, k.heap o.addr⟩ := by
  obtain ⟨k₁, h₁, hs₁, hheap⟩ := run_measured (c := c) hs hsent hfree
  have hstatus : (k₁.heap o.addr).status = .ready := by
    rw [hheap]
    exact ho
  rw [show List.replicate 9 (Event.sts o) = List.replicate 7 (.sts o) ++ [.sts o, .sts o] from rfl,
    run_append, h₁]
  simp [Threads.step, stsStep, hs₁, hstatus]
  rw [hheap]
  rfl

/-- The same for the push into BLOCKED, where estimations are averaged with this `alfa`. -/
lemma run_block (hs : k.sts = .setExecuting a) (hsent : o.sent = true)
    (hfree : o.addr ≠ a → k.inUse o.addr = false) (ho : o.status = .blocked)
    (hc : c.nextEstimation = reSchedule alfa) :
    ∃ k', run (Threads.step c) k (List.replicate 10 (.sts o)) = some k' ∧
      k'.sts = .pushBlocked o.addr ∧
      k'.heap o.addr = block alfa (k.heap a) ⟨o, k.heap o.addr⟩ := by
  obtain ⟨k₁, h₁, hs₁, hheap⟩ := run_measured (c := c) hs hsent hfree
  have hstatus : (k₁.heap o.addr).status = .blocked := by
    rw [hheap]
    exact ho
  rw [show List.replicate 10 (Event.sts o) =
      List.replicate 7 (.sts o) ++ [.sts o, .sts o, .sts o] from rfl, run_append, h₁]
  simp [Threads.step, stsStep, hs₁, hstatus, hc]
  rw [hheap]
  simp [block, measured, received, ho]

/-! ### What remains -/

variable {alfa} {pcb : Pcb} {s last whole : Slice} {slices : List Slice}

@[simp] lemma preemptions_nil (pcb : Pcb) : preemptions pcb [] = pcb := rfl

@[simp] lemma preemptions_cons (pcb : Pcb) (s : Slice) (slices : List Slice) :
    preemptions pcb (s :: slices) = preemptions (preempt pcb s) slices := rfl

@[simp] lemma total_nil : total [] = 0 := rfl

@[simp] lemma total_cons (s : Slice) (slices : List Slice) :
    total (s :: slices) = s.o.real.toNat + total slices := by
  simp [total]

lemma total_append (ps qs : List Slice) : total (ps ++ qs) = total ps + total qs := by
  simp [total]

lemma preempt_estimation (pcb : Pcb) (s : Slice) : (preempt pcb s).estimation =
    if s.o.real < pcb.estimation then pcb.estimation - s.o.real
    else s.o.real - pcb.estimation := rfl

/-- A slice that is no longer than what remains is taken off it. -/
lemma preempt_within (h : s.o.real.toNat ≤ pcb.estimation.toNat) :
    (preempt pcb s).estimation.toNat = pcb.estimation.toNat - s.o.real.toNat := by
  rw [preempt_estimation]
  split
  · next hlt => exact UInt32.toNat_sub_of_le _ _ (UInt32.le_of_lt hlt)
  · next hge =>
    have heq : s.o.real = pcb.estimation :=
      UInt32.le_antisymm (UInt32.le_iff_toNat_le.mpr h) (UInt32.not_lt.mp hge)
    simp [heq]

/-- Of a longer one, the rest stays. -/
lemma preempt_over (h : pcb.estimation.toNat < s.o.real.toNat) :
    (preempt pcb s).estimation.toNat = s.o.real.toNat - pcb.estimation.toNat := by
  have hlt : pcb.estimation < s.o.real := UInt32.lt_iff_toNat_lt.mpr h
  rw [preempt_estimation, if_neg (UInt32.not_lt.mpr (UInt32.le_of_lt hlt))]
  exact UInt32.toNat_sub_of_le _ _ (UInt32.le_of_lt hlt)

lemma preemptions_within (h : total slices ≤ pcb.estimation.toNat) :
    (preemptions pcb slices).estimation.toNat = pcb.estimation.toNat - total slices := by
  induction slices generalizing pcb with
  | nil => rfl
  | cons s slices ih =>
    rw [total_cons] at h ⊢
    have hle : s.o.real.toNat ≤ pcb.estimation.toNat := by omega
    have hs := preempt_within hle
    rw [preemptions_cons, ih (by omega), hs]
    omega

/-- After every preemption the estimation is what the slices have left of it, and no larger than
before. -/
def Shrinks (pcb : Pcb) (slices : List Slice) : Prop :=
  ∀ ps s, ps ++ [s] <+: slices →
    (preemptions pcb (ps ++ [s])).estimation.toNat =
        pcb.estimation.toNat - total (ps ++ [s]) ∧
      (preemptions pcb (ps ++ [s])).estimation ≤ (preemptions pcb ps).estimation

/-- **Main result.** Estimations shrink as they should if and only if the slices together are no
longer than the first one. -/
theorem shrinks_iff_within (pcb : Pcb) (slices : List Slice) :
    Shrinks pcb slices ↔ total slices ≤ pcb.estimation.toNat := by
  constructor
  · intro h
    induction slices generalizing pcb with
    | nil => simp
    | cons s slices ih =>
      have hs : s.o.real.toNat ≤ pcb.estimation.toNat := by
        by_contra hlt
        have h1 := (h [] s ⟨slices, rfl⟩).1
        have h2 := preempt_over (Nat.lt_of_not_le hlt)
        simp only [List.nil_append, preemptions_cons, preemptions_nil, total_cons] at h1
        omega
      have hrest : Shrinks (preempt pcb s) slices := by
        intro ps t hpre
        have ht := h (s :: ps) t (List.cons_prefix_cons.mpr ⟨rfl, hpre⟩)
        simp only [List.cons_append, preemptions_cons, total_cons] at ht
        refine ⟨?_, ht.2⟩
        rw [ht.1, preempt_within hs]
        omega
      have htail := ih _ hrest
      rw [preempt_within hs] at htail
      rw [total_cons]
      omega
  · intro h ps s hpre
    have htotal : total (ps ++ [s]) ≤ total slices := by
      obtain ⟨qs, rfl⟩ := hpre
      rw [total_append (ps ++ [s])]
      omega
    have hps : total ps ≤ total (ps ++ [s]) := by
      rw [total_append]
      omega
    have hremains := preemptions_within (htotal.trans h)
    refine ⟨hremains, UInt32.le_iff_toNat_le.mpr ?_⟩
    rw [hremains, preemptions_within (by omega)]
    omega

def returned (status : PcbStatus) (real : UInt32) : Slice :=
  ⟨⟨true, real, 2, status, 1, [], 7⟩, zeroHeap 2⟩

/-- A slice of 25 leaves a process that was estimated to need 10 with 15 of them. -/
theorem not_shrinks_overrun : ¬ Shrinks (newPcb 0 16 10) [returned .ready 25] ∧
    (preemptions (newPcb 0 16 10) [returned .ready 25]).estimation = 15 := by
  refine ⟨fun h => ?_, by decide⟩
  exact absurd (h [] _ ⟨[], rfl⟩).2 (by decide)

/-! ### The average -/

lemma floors_le {x y : ℚ} (hx : 0 ≤ x) (hy : 0 ≤ y) : (⌊x⌋₊ + ⌊y⌋₊ : ℚ) ≤ x + y :=
  add_le_add (Nat.floor_le hx) (Nat.floor_le hy)

lemma lt_floors (x y : ℚ) : x + y < ⌊x⌋₊ + ⌊y⌋₊ + 2 := by
  have hx := Nat.lt_floor_add_one x
  have hy := Nat.lt_floor_add_one y
  linarith

/-- Sums of two numbers that lie a whole number apart do so up to one when rounded down. -/
lemma floors_apart {x y x' y' : ℚ} {n : ℕ} (hx : 0 ≤ x) (hy : 0 ≤ y) (hx' : 0 ≤ x') (hy' : 0 ≤ y')
    (h : x' + y' = x + y + n) :
    ⌊x⌋₊ + ⌊y⌋₊ + n ≤ ⌊x'⌋₊ + ⌊y'⌋₊ + 1 ∧ ⌊x'⌋₊ + ⌊y'⌋₊ ≤ ⌊x⌋₊ + ⌊y⌋₊ + n + 1 := by
  have h1 := floors_le hx hy
  have h2 := lt_floors x y
  have h3 := floors_le hx' hy'
  have h4 := lt_floors x' y'
  constructor
  · have hlt : (⌊x⌋₊ + ⌊y⌋₊ + n : ℚ) < ⌊x'⌋₊ + ⌊y'⌋₊ + 2 := by linarith
    have hnat : ⌊x⌋₊ + ⌊y⌋₊ + n < ⌊x'⌋₊ + ⌊y'⌋₊ + 2 := by exact_mod_cast hlt
    omega
  · have hlt : (⌊x'⌋₊ + ⌊y'⌋₊ : ℚ) < ⌊x⌋₊ + ⌊y⌋₊ + n + 2 := by linarith
    have hnat : ⌊x'⌋₊ + ⌊y'⌋₊ < ⌊x⌋₊ + ⌊y⌋₊ + n + 2 := by exact_mod_cast hlt
    omega

lemma toNat_le_cast (v : UInt32) : (v.toNat : ℚ) ≤ 2 ^ 32 - 1 := by
  have hle : v.toNat + 1 ≤ 2 ^ 32 := v.toNat_lt
  have hcast : (v.toNat : ℚ) + 1 ≤ 2 ^ 32 := by exact_mod_cast hle
  linarith

lemma toNat_reSchedule (h0 : 0 ≤ alfa) (h1 : alfa ≤ 1) (real estimation : UInt32) :
    (reSchedule alfa real estimation).toNat =
      ⌊real.toNat * alfa⌋₊ + ⌊(1 - alfa) * estimation.toNat⌋₊ := by
  have h1' : 0 ≤ 1 - alfa := by linarith
  have hr := mul_le_mul_of_nonneg_right (toNat_le_cast real) h0
  have he := mul_le_mul_of_nonneg_left (toNat_le_cast estimation) h1'
  have hfloor : (⌊real.toNat * alfa⌋₊ + ⌊(1 - alfa) * estimation.toNat⌋₊ : ℚ) < 2 ^ 32 := by
    calc (⌊real.toNat * alfa⌋₊ + ⌊(1 - alfa) * estimation.toNat⌋₊ : ℚ)
        ≤ real.toNat * alfa + (1 - alfa) * estimation.toNat :=
          floors_le (mul_nonneg (Nat.cast_nonneg _) h0) (mul_nonneg h1' (Nat.cast_nonneg _))
      _ ≤ (2 ^ 32 - 1) * alfa + (1 - alfa) * (2 ^ 32 - 1) := add_le_add hr he
      _ < 2 ^ 32 := by linarith
  have hlt : ⌊real.toNat * alfa⌋₊ + ⌊(1 - alfa) * estimation.toNat⌋₊ < UInt32.size := by
    exact_mod_cast hfloor
  rw [reSchedule, UInt32.toNat_add, UInt32.toNat_ofNat_of_lt' (by omega),
    UInt32.toNat_ofNat_of_lt' (by omega), Nat.mod_eq_of_lt hlt]

lemma block_estimation (pcb : Pcb) (s : Slice) :
    (block alfa pcb s).estimation = reSchedule alfa s.o.real pcb.estimation := rfl

/-- **Main result.** As long as the preempted slices are no longer than the estimation, the next
one averages the last slice with what remains. Without preemption it is as much more as they were
long, up to the rounding. -/
theorem burst_of_within (h0 : 0 ≤ alfa) (h1 : alfa ≤ 1) (pcb : Pcb) (slices : List Slice)
    (last whole : Slice) (hle : total slices ≤ pcb.estimation.toNat)
    (hwhole : whole.o.real.toNat = total slices + last.o.real.toNat) :
    (burst alfa pcb slices last).estimation.toNat =
        ⌊last.o.real.toNat * alfa⌋₊ +
          ⌊(1 - alfa) * (pcb.estimation.toNat - total slices : ℕ)⌋₊ ∧
      (burst alfa pcb [] whole).estimation.toNat =
        ⌊whole.o.real.toNat * alfa⌋₊ + ⌊(1 - alfa) * pcb.estimation.toNat⌋₊ ∧
      (burst alfa pcb slices last).estimation.toNat + total slices ≤
        (burst alfa pcb [] whole).estimation.toNat + 1 ∧
      (burst alfa pcb [] whole).estimation.toNat ≤
        (burst alfa pcb slices last).estimation.toNat + total slices + 1 := by
  have hsplit : (burst alfa pcb slices last).estimation.toNat =
      ⌊last.o.real.toNat * alfa⌋₊ +
        ⌊(1 - alfa) * (pcb.estimation.toNat - total slices : ℕ)⌋₊ := by
    rw [burst, block_estimation, toNat_reSchedule h0 h1, preemptions_within hle]
  have hunsplit : (burst alfa pcb [] whole).estimation.toNat =
      ⌊whole.o.real.toNat * alfa⌋₊ + ⌊(1 - alfa) * pcb.estimation.toNat⌋₊ :=
    toNat_reSchedule h0 h1 _ _
  have h1' : 0 ≤ 1 - alfa := by linarith
  have hsum : (whole.o.real.toNat : ℚ) * alfa + (1 - alfa) * pcb.estimation.toNat =
      last.o.real.toNat * alfa + (1 - alfa) * (pcb.estimation.toNat - total slices : ℕ) +
        total slices := by
    rw [hwhole, Nat.cast_sub hle]
    push_cast
    ring
  have hreal (v : UInt32) : 0 ≤ (v.toNat : ℚ) * alfa := mul_nonneg (Nat.cast_nonneg _) h0
  have hrest (n : ℕ) : 0 ≤ (1 - alfa) * n := mul_nonneg h1' (Nat.cast_nonneg n)
  have hapart := floors_apart (hreal _) (hrest _) (hreal _) (hrest _) hsum
  rw [hsplit, hunsplit]
  exact ⟨rfl, rfl, hapart⟩

theorem burst_of_within_half :
    (burst (1 / 2) (newPcb 0 16 10) [] (returned .blocked 6)).estimation.toNat ≤
      (burst (1 / 2) (newPcb 0 16 10) [returned .ready 2] (returned .blocked 4)).estimation.toNat +
        total [returned .ready 2] + 1 :=
  (burst_of_within (by norm_num) (by norm_num) (newPcb 0 16 10) [returned .ready 2]
    (returned .blocked 4) (returned .blocked 6) (by decide) (by decide)).2.2.2

/-- A process that was estimated to need 10 runs for 6. Preempted after 2 of them it is estimated
to need 6 next, and otherwise 8. -/
theorem burst_ne_whole :
    (returned .blocked 6).o.real.toNat =
        total [returned .ready 2] + (returned .blocked 4).o.real.toNat ∧
      (burst (1 / 2) (newPcb 0 16 10) [returned .ready 2] (returned .blocked 4)).estimation = 6 ∧
      (burst (1 / 2) (newPcb 0 16 10) [] (returned .blocked 6)).estimation = 8 := by
  decide +kernel

end Sski.Scheduling.Estimates
