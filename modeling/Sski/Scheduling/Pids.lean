import Sski.Scheduling.Moves
import Sski.Lib.Runs

/-!
The pool of process ids, and the processes that live.

An id is taken from the pool when a process is created. `pids_free` would give it back, and
nothing calls it.
-/

namespace Sski.Scheduling.Pids

open Sski.Lib.Runs Sski.Scheduling.Scheduler Sski.Scheduling.Threads Sski.Scheduling.Moves

def pidsFree (pool : List Bool) (pid : UInt32) : List Bool :=
  if pid.toNat < maxPids then pool.set pid.toNat false else pool

/-! ### Live processes -/

def createdBy (k : Kernel) : Event → Option UInt32
  | .console i _ =>
    match k.consoles[i]? with
    | some ⟨_, .getPidLibre _⟩ =>
      let pid := (getPidLibre k.pool).2
      if pid ≠ undefined then some pid else none
    | _ => none
  | _ => none

/-- The id of the process that a step ends: `terminate` destroys its block. -/
def endedBy (k : Kernel) : Event → Option UInt32
  | .sts _ =>
    match k.sts with
    | .destroyPcb a _ => some (k.heap a).id
    | _ => none
  | _ => none

def census (k : Kernel) (e : Event) (live : List UInt32) : List UInt32 :=
  (match endedBy k e with
    | some pid => live.erase pid
    | none => live) ++ (createdBy k e).toList

variable (c : Cfg)

def stepC : Kernel × List UInt32 → Event → Option (Kernel × List UInt32) :=
  watched (step c) census

def initC (heap : Heap) : Kernel × List UInt32 := (initKernel c heap, [])

/-- What the pool says is what is the case: an id is taken if and only if a live process has it,
no two have the same, and there is no id left only when as many live as there are ids. -/
structure Exact (pool : List Bool) (live : List UInt32) : Prop where
  taken : ∀ pid : UInt32, pool[pid.toNat]? = some true ↔ pid ∈ live
  distinct : live.Nodup
  exhausted : (getPidLibre pool).2 = undefined → live.length = maxPids

variable {c} {k k' : Kernel} {live : List UInt32} {pool : List Bool}

/-! ### The pool -/

lemma length_of_exhausted (hlen : pool.length = maxPids)
    (htaken : ∀ pid : UInt32, pool[pid.toNat]? = some true ↔ pid ∈ live) (hnodup : live.Nodup)
    (hnone : (getPidLibre pool).2 = undefined) : live.length = maxPids := by
  have hall : ∀ taken ∈ pool, taken = true := by
    rcases getPidLibre_cases pool with ⟨j, hfree, hget⟩ | ⟨hall, -⟩
    · rw [hget] at hnone
      exact absurd hnone (ofNat_ne_undefined (lt_maxPids hlen hfree))
    · exact hall
  have hperm : List.Perm (live.map UInt32.toNat) (List.range maxPids) := by
    rw [List.perm_ext_iff_of_nodup (hnodup.map fun _ _ => UInt32.toNat_inj.mp) List.nodup_range]
    intro j
    rw [List.mem_map, List.mem_range]
    constructor
    · rintro ⟨pid, hpid, rfl⟩
      have hget := (htaken pid).mpr hpid
      rw [← hlen]
      exact (List.getElem?_eq_some_iff.mp hget).1
    · intro hj
      refine ⟨UInt32.ofNat j, (htaken _).mp ?_, toNat_ofNat_of_lt hj⟩
      rw [toNat_ofNat_of_lt hj, List.getElem?_eq_getElem (hlen ▸ hj)]
      exact congrArg some (hall _ (List.getElem_mem _))
  simpa using hperm.length_eq

/-- What `pids_free` is for: it gives the id of a process back when that ends. -/
theorem Exact.freed (h : Exact pool live) (hlen : pool.length = maxPids) (pid : UInt32) :
    Exact (pidsFree pool pid) (live.erase pid) := by
  have hlen' : (pidsFree pool pid).length = maxPids := by
    unfold pidsFree
    split <;> simp [hlen]
  have htaken : ∀ p : UInt32,
      (pidsFree pool pid)[p.toNat]? = some true ↔ p ∈ live.erase pid := by
    intro p
    rw [h.distinct.mem_erase_iff, ← h.taken, pidsFree]
    split
    next hlt =>
      by_cases hp : p = pid
      · subst hp
        simp [List.getElem?_set_self (hlen ▸ hlt)]
      · have hne : pid.toNat ≠ p.toNat := fun heq => hp (UInt32.toNat_inj.mp heq.symm)
        simp [List.getElem?_set_ne hne, hp]
    next hge =>
      refine ⟨fun hget => ⟨?_, hget⟩, fun hget => hget.2⟩
      rintro rfl
      exact hge (hlen ▸ (List.getElem?_eq_some_iff.mp hget).1)
  exact ⟨htaken, h.distinct.erase pid,
    length_of_exhausted hlen' htaken (h.distinct.erase pid)⟩

/-! ### One step -/

lemma step_pool (hlen : k.pool.length = maxPids) {e : Event} (h : step c k e = some k') :
    (createdBy k e = none ∧ k'.pool = k.pool) ∨
    ∃ j < maxPids, k.pool[j]? = some false ∧ createdBy k e = some (UInt32.ofNat j) ∧
      k'.pool = k.pool.set j true := by
  cases e with
  | connect =>
    cases h
    exact .inl ⟨rfl, rfl⟩
  | message i m =>
    obtain ⟨s, -, hpc, hm⟩ := routineMove (c := c) h
    refine .inl ⟨rfl, ?_⟩
    cases hm with
    | getPidLibre hl | getPidLibreNone hl => rw [hpc] at hl; cases hl
    | _ => rfl
  | console i addr =>
    obtain ⟨⟨pid, pc⟩, hs, hm⟩ := consoleMove h
    by_cases hpc : ∃ size, pc = .getPidLibre size
    · -- the first free id is taken, if there is one
      obtain ⟨size, rfl⟩ := hpc
      simp only [step, consoleStep, hs] at h
      rcases getPidLibre_cases k.pool with ⟨j, hfree, hget⟩ | ⟨-, hget⟩
      · have hj := lt_maxPids hlen hfree
        refine .inr ⟨j, hj, hfree, ?_, ?_⟩
        · simp only [createdBy, hs, hget, if_pos (ofNat_ne_undefined hj)]
        · simp only [hget, if_pos (ofNat_ne_undefined hj), Option.some.injEq] at h
          rw [← h]
      · refine .inl ⟨?_, ?_⟩
        · simp only [createdBy, hs, hget, ne_eq, not_true_eq_false, if_false]
        · simp only [hget, ne_eq, not_true_eq_false, if_false, Option.some.injEq] at h
          rw [← h]
    · refine .inl ⟨?_, ?_⟩
      · cases pc with
        | getPidLibre size => exact absurd ⟨size, rfl⟩ hpc
        | _ => simp only [createdBy, hs]
      · cases hm with
        | getPidLibre hl | getPidLibreNone hl => exact absurd ⟨_, hl⟩ hpc
        | _ => rfl
  | lts memory =>
    refine .inl ⟨rfl, ?_⟩
    cases ltsMove h <;> rfl
  | sts o =>
    refine .inl ⟨rfl, ?_⟩
    cases stsMove h <;> rfl
  | io =>
    refine .inl ⟨rfl, ?_⟩
    cases ioMove h <;> rfl
  | mts i =>
    obtain ⟨t, -, hm⟩ := mtsMove h
    refine .inl ⟨rfl, ?_⟩
    cases hm <;> rfl
  | scribble a pcb =>
    simp only [step] at h
    split at h
    · cases h
    · cases h
      exact .inl ⟨rfl, rfl⟩

lemma census_cases (k : Kernel) (e : Event) (live : List UInt32) :
    (∃ pid, endedBy k e = some pid ∧ createdBy k e = none ∧ census k e live = live.erase pid) ∨
    (endedBy k e = none ∧ census k e live = live ++ (createdBy k e).toList) := by
  cases hend : endedBy k e with
  | none => exact .inr ⟨rfl, by simp [census, hend]⟩
  | some pid =>
    have hcreate : createdBy k e = none := by
      cases e with
      | sts o => rfl
      | _ => cases hend
    exact .inl ⟨pid, rfl, hcreate, by simp [census, hend, hcreate]⟩

/-! ### Every run -/

/-- Every live process has its id from the pool, and no two have the same. -/
structure Issued (k : Kernel) (live : List UInt32) : Prop where
  pool : k.pool.length = maxPids
  distinct : live.Nodup
  taken : ∀ pid ∈ live, k.pool[pid.toNat]? = some true

def Leaked (k : Kernel) (live : List UInt32) : Prop :=
  ∃ pid : UInt32, k.pool[pid.toNat]? = some true ∧ pid ∉ live

def EndsNone (s : Kernel × List UInt32) (e : Event) : Prop := ∀ pid ∈ endedBy s.1 e, pid ∉ s.2

instance (s : Kernel × List UInt32) (e : Event) : Decidable (EndsNone s e) :=
  decidable_of_iff ((endedBy s.1 e).all (fun pid => !s.2.contains pid) = true) <| by
    unfold EndsNone
    cases endedBy s.1 e <;> simp

variable {s s' : Kernel × List UInt32} {e : Event}

lemma issued_initC (heap : Heap) : Issued (initC c heap).1 (initC c heap).2 where
  pool := by simp [initC, initKernel]
  distinct := List.nodup_nil
  taken := by simp [initC]

lemma not_leaked_initC (heap : Heap) : ¬ Leaked (initC c heap).1 (initC c heap).2 := by
  rintro ⟨pid, htaken, -⟩
  simp only [initC, initKernel, List.getElem?_replicate] at htaken
  split at htaken <;> cases htaken

/-- What is taken stays so. -/
lemma taken_mono (hlen : s.1.pool.length = maxPids) (hs : stepC c s e = some s') {pid : UInt32}
    (h : s.1.pool[pid.toNat]? = some true) : s'.1.pool[pid.toNat]? = some true := by
  obtain ⟨hstep, -⟩ := watched_eq_some.mp hs
  rcases step_pool hlen hstep with ⟨-, hpool⟩ | ⟨j, -, hfree, -, hpool⟩
  · rw [hpool, h]
  · have hne : j ≠ pid.toNat := by
      rintro rfl
      rw [h] at hfree
      cases hfree
    rw [hpool, List.getElem?_set_ne hne, h]

lemma mem_census (hlen : s.1.pool.length = maxPids) (hs : stepC c s e = some s') {pid : UInt32}
    (h : pid ∈ s'.2) : pid ∈ s.2 ∨
      s.1.pool[pid.toNat]? = some false ∧ s'.1.pool[pid.toNat]? = some true := by
  obtain ⟨hstep, hlive⟩ := watched_eq_some.mp hs
  rw [hlive] at h
  rcases census_cases s.1 e s.2 with ⟨p, -, -, hcensus⟩ | ⟨-, hcensus⟩
  · rw [hcensus] at h
    exact .inl (List.mem_of_mem_erase h)
  · rw [hcensus, List.mem_append] at h
    rcases h with h | h
    · exact .inl h
    · rcases step_pool hlen hstep with ⟨hnone, -⟩ | ⟨j, hj, hfree, hcreate, hpool⟩
      · simp [hnone] at h
      · obtain rfl : pid = UInt32.ofNat j := by simpa [hcreate] using h
        rw [toNat_ofNat_of_lt hj, hpool, List.getElem?_set_self (hlen ▸ hj)]
        exact .inr ⟨hfree, rfl⟩

theorem Issued.step (h : Issued s.1 s.2) (hs : stepC c s e = some s') : Issued s'.1 s'.2 := by
  obtain ⟨hstep, hlive⟩ := watched_eq_some.mp hs
  refine ⟨?_, ?_, fun pid hpid => ?_⟩
  · rcases step_pool h.pool hstep with ⟨-, hpool⟩ | ⟨j, -, -, -, hpool⟩
    · rw [hpool, h.pool]
    · rw [hpool, List.length_set, h.pool]
  · rw [hlive]
    rcases census_cases s.1 e s.2 with ⟨p, -, -, hcensus⟩ | ⟨-, hcensus⟩
    · rw [hcensus]
      exact h.distinct.erase p
    · rw [hcensus]
      rcases step_pool h.pool hstep with ⟨hnone, -⟩ | ⟨j, hj, hfree, hcreate, -⟩
      · simpa [hnone] using h.distinct
      · -- the new id was free, so no live process has it
        rw [hcreate, Option.toList_some]
        refine h.distinct.append (List.nodup_singleton _) ?_
        rw [List.disjoint_singleton]
        intro hmem
        have htaken := h.taken _ hmem
        rw [toNat_ofNat_of_lt hj, hfree] at htaken
        cases htaken
  · rcases mem_census h.pool hs hpid with hold | ⟨-, htaken⟩
    · exact taken_mono h.pool hs (h.taken pid hold)
    · exact htaken

lemma Leaked.step (h : Leaked s.1 s.2) (hi : Issued s.1 s.2) (hs : stepC c s e = some s') :
    Leaked s'.1 s'.2 := by
  obtain ⟨pid, htaken, hnot⟩ := h
  refine ⟨pid, taken_mono hi.pool hs htaken, fun hmem => ?_⟩
  rcases mem_census hi.pool hs hmem with hold | ⟨hfree, -⟩
  · exact hnot hold
  · rw [htaken] at hfree
    cases hfree

/-- The id of a process that ends leaks. -/
lemma leaked_of_ended (hi : Issued s.1 s.2) (hend : ¬ EndsNone s e)
    (hs : stepC c s e = some s') : Leaked s'.1 s'.2 := by
  obtain ⟨pid, hpid, hmem⟩ : ∃ pid, endedBy s.1 e = some pid ∧ pid ∈ s.2 := by
    simp only [EndsNone, not_forall, not_not, Option.mem_def] at hend
    obtain ⟨pid, hpid, hmem⟩ := hend
    exact ⟨pid, hpid, hmem⟩
  refine ⟨pid, taken_mono hi.pool hs (hi.taken pid hmem), ?_⟩
  obtain ⟨-, hlive⟩ := watched_eq_some.mp hs
  rcases census_cases s.1 e s.2 with ⟨p, hp, -, hcensus⟩ | ⟨hnone, -⟩
  · obtain rfl : pid = p := by simpa [hpid] using hp
    rw [hlive, hcensus]
    exact hi.distinct.not_mem_erase
  · rw [hpid] at hnone
    cases hnone

lemma not_leaked_step (hi : Issued s.1 s.2) (h : ¬ Leaked s.1 s.2) (hend : EndsNone s e)
    (hs : stepC c s e = some s') : ¬ Leaked s'.1 s'.2 := by
  rintro ⟨pid, htaken, hnot⟩
  obtain ⟨hstep, hlive⟩ := watched_eq_some.mp hs
  have hkept : ∀ p ∈ s.2, p ∈ s'.2 := by
    intro p hp
    rw [hlive]
    rcases census_cases s.1 e s.2 with ⟨q, hq, -, hcensus⟩ | ⟨-, hcensus⟩
    · rw [hcensus, List.erase_of_not_mem (hend q hq)]
      exact hp
    · rw [hcensus]
      exact List.mem_append_left _ hp
  have hold : s.1.pool[pid.toNat]? ≠ some true := fun hold =>
    h ⟨pid, hold, fun hmem => hnot (hkept pid hmem)⟩
  rcases step_pool hi.pool hstep with ⟨-, hpool⟩ | ⟨j, hj, -, hcreate, hpool⟩
  · exact hold (hpool ▸ htaken)
  · by_cases hpid : j = pid.toNat
    · -- the id that was taken is that of the new process
      refine hnot ?_
      have hnew : pid = UInt32.ofNat j := by simp [hpid]
      rw [hlive]
      rcases census_cases s.1 e s.2 with ⟨q, -, hnone, -⟩ | ⟨-, hcensus⟩
      · rw [hcreate] at hnone
        cases hnone
      · rw [hcensus, hcreate, hnew]
        exact List.mem_append_right _ List.mem_cons_self
    · rw [hpool, List.getElem?_set_ne hpid] at htaken
      exact hold htaken

lemma exact_iff_not_leaked (hi : Issued k live) : Exact k.pool live ↔ ¬ Leaked k live := by
  constructor
  · rintro h ⟨pid, htaken, hnot⟩
    exact hnot ((h.taken pid).mp htaken)
  · intro h
    have htaken : ∀ pid : UInt32, k.pool[pid.toNat]? = some true ↔ pid ∈ live := by
      refine fun pid => ⟨fun hpid => ?_, hi.taken pid⟩
      by_contra hnot
      exact h ⟨pid, hpid, hnot⟩
    exact ⟨htaken, hi.distinct, length_of_exhausted hi.pool htaken hi.distinct⟩

/-- **Main result.** After a run the pool is exact if and only if no live process has ended. -/
theorem exact_iff_endsNone (c : Cfg) (heap : Heap) (es : List Event) (k : Kernel)
    (live : List UInt32) (hrun : run (stepC c) (initC c heap) es = some (k, live)) :
    Exact k.pool live ↔ Meets (stepC c) EndsNone (initC c heap) es := by
  have hinit : Issued (initC c heap).1 (initC c heap).2 := issued_initC heap
  constructor
  · intro hexact
    have hi : Issued k live :=
      Reachable.inv (I := fun s => Issued s.1 s.2) (fun _ _ _ hi hs => hi.step hs) hinit ⟨es, hrun⟩
    exact meets_of_undamaged (I := fun s => Issued s.1 s.2) (B := fun s => Leaked s.1 s.2)
      (fun _ _ _ hi hs => hi.step hs) (fun _ _ _ hi hend hs => leaked_of_ended hi hend hs)
      (fun _ _ _ hi hl hs => hl.step hi hs) hinit hrun ((exact_iff_not_leaked hi).mp hexact)
  · intro hmeets
    obtain ⟨hi, hnot⟩ := hmeets.inv (I := fun s => Issued s.1 s.2 ∧ ¬ Leaked s.1 s.2)
      (fun _ _ _ hs hend hstep => ⟨hs.1.step hstep, not_leaked_step hs.1 hs.2 hend hstep⟩)
      ⟨hinit, not_leaked_initC heap⟩ hrun
    exact (exact_iff_not_leaked hi).mpr hnot

def toEnded : List Event := spawn 0 1 ++ ltsSteps 9 ++ stsSteps 12 2 .terminated

set_option maxRecDepth 40000 in
/-- A process that was created and runs has its id from the pool. -/
theorem exact_iff_endsNone_spawned : ∃ k live,
    run (stepC srtCfg) (initC srtCfg zeroHeap) (spawn 0 1 ++ ltsSteps 9) = some (k, live) ∧
      live = [0] ∧ Exact k.pool live := by
  refine ⟨_, _, rfl, by decide +kernel, ?_⟩
  refine (exact_iff_endsNone srtCfg zeroHeap (spawn 0 1 ++ ltsSteps 9) _ _ ?_).mpr ?_
  · rfl
  · decide +kernel

set_option maxRecDepth 40000 in
/-- A process has ended, and its id is still taken. -/
theorem not_exact : ¬ ∀ (c : Cfg) (heap : Heap) (es : List Event) (k : Kernel)
    (live : List UInt32), run (stepC c) (initC c heap) es = some (k, live) →
      Exact k.pool live := by
  intro hall
  have hexact := hall srtCfg zeroHeap toEnded _ _ rfl
  have hmem := (hexact.taken 0).mp (by decide +kernel)
  revert hmem
  decide +kernel

end Sski.Scheduling.Pids
