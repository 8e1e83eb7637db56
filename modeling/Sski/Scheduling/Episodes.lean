import Sski.Scheduling.IoRequests

/-!
A tracker acts on the time of being blocked that started it.

A tracker knows its process by the id, so it takes a later time for its own. What has to be
excluded is that a process is blocked while a tracker of an earlier block of it has not decided.
-/

namespace Sski.Scheduling.Episodes

open Sski.Lib.Runs Sski.Lib.Counting Sski.Scheduling.Scheduler Sski.Scheduling.Threads
open Sski.Scheduling.Moves Sski.Scheduling.History Sski.Scheduling.Places
open Sski.Scheduling.Conservation Sski.Scheduling.Suspension Sski.Scheduling.OnePlace
open Sski.Scheduling.IoRequests

/-- The tracker has not decided yet whether it suspends its process. -/
def deciding (t : Tracker) : Bool :=
  match t.pc with
  | .readPid | .existsBlocked | .testCurrentIo | .removeBlocked => true
  | .signalDom | .setSuspendedBlocked | .pushBlockedSus | .sendSwap | .ended => false

def blocking : Sts → Option Addr
  | .pushBlocked a => some a
  | _ => none

/-- A process is blocked only when no tracker of an earlier block of it has still to decide. A
tracker reads the id while its block is that of its process, and what it finds not in BLOCKED it
suspends only while that is so. -/
def Prompt (s : Kernel × History) : Event → Prop
  | .sts _ => ∀ a ∈ blocking s.1.sts, ∀ x ∈ s.1.trackers.zip s.2.episodes,
      deciding x.1 = true → x.2.1 ≠ (s.1.heap a).id
  | .mts i => ∀ t ∈ s.1.trackers[i]?, ∀ episode ∈ s.2.episodes[i]?,
      (t.pc = .readPid → (s.1.heap t.pcb).id = episode.1) ∧
        (t.pc = .removeBlocked →
          pcbExists s.1.heap s.1.blocked t.pid = true ∨ (s.1.heap t.pcb).id = t.pid)
  | _ => True

instance (s : Kernel × History) : (e : Event) → Decidable (Prompt s e)
  | .sts _ => inferInstanceAs (Decidable (∀ a ∈ blocking s.1.sts,
      ∀ x ∈ s.1.trackers.zip s.2.episodes, deciding x.1 = true → x.2.1 ≠ (s.1.heap a).id))
  | .mts i => inferInstanceAs (Decidable (∀ t ∈ s.1.trackers[i]?, ∀ episode ∈ s.2.episodes[i]?,
      (t.pc = .readPid → (s.1.heap t.pcb).id = episode.1) ∧
        (t.pc = .removeBlocked →
          pcbExists s.1.heap s.1.blocked t.pid = true ∨ (s.1.heap t.pcb).id = t.pid)))
  | .connect | .message .. | .console .. | .lts .. | .io | .scribble .. => .isTrue trivial

def serving (k : Kernel) (p : UInt32) : ℕ := ((ioServes k.io).any (hasId k.heap p)).toNat

structure Own (k : Kernel) (h : History) : Prop where
  served : ∀ p, h.served p = h.finished p + serving k p
  episodes : h.episodes.length = k.trackers.length
  own : ∀ (i : ℕ) t p n, k.trackers[i]? = some t → h.episodes[i]? = some (p, n) →
    suspending t = true → h.blocks p = n ∧ h.finished p < n ∧ (k.heap t.target).id = p

/-- A tracker that has still to decide was started by the last block of its process. -/
def LastBlock (k : Kernel) (h : History) : Prop :=
  ∀ (i : ℕ) t p n, k.trackers[i]? = some t → h.episodes[i]? = some (p, n) → deciding t = true →
    h.blocks p = n ∧ (t.pc ≠ .readPid → t.pid = p)

variable {c : Cfg} {k k' : Kernel} {h h' : History}

lemma own_init (heap : Heap) : Own (initKernel c heap) noHistory := by
  refine ⟨fun p => ?_, rfl, fun i t p n ht => ?_⟩
  · simp [serving, initKernel, ioServes, noHistory]
  · simp [initKernel] at ht

lemma lastBlock_init (heap : Heap) : LastBlock (initKernel c heap) noHistory := by
  intro i t p n ht
  simp [initKernel] at ht

/-! ### Who has still to decide -/

lemma LastBlock.quiet (hl : LastBlock k h) (htrackers : k'.trackers = k.trackers)
    (hblocks : h'.blocks = h.blocks) (hepisodes : h'.episodes = h.episodes) : LastBlock k' h' := by
  intro i t p n ht hepisode hdec
  rw [htrackers] at ht
  rw [hepisodes] at hepisode
  rw [hblocks]
  exact hl i t p n ht hepisode hdec

lemma LastBlock.sts (hl : LastBlock k h) (hi : Own k h) {o : Outside}
    (hprompt : Prompt (k, h) (.sts o)) (hm : StsMove c k k') : LastBlock k' (noteSts k h) := by
  cases hm with
  | @pushBlocked a hpc =>
    -- of the process that is blocked no tracker has still to decide
    have hnote : noteSts k h = { h with blocks := bump h.blocks (k.heap a).id } := by
      simp [noteSts, hpc]
    rw [hnote]
    intro i t p n ht hepisode hdec
    have hmem : (t, p, n) ∈ k.trackers.zip h.episodes :=
      List.mem_of_getElem? (List.getElem?_zip_eq_some.mpr ⟨ht, hepisode⟩)
    have hne : p ≠ (k.heap a).id := hprompt a (by simp [blocking, hpc]) (t, p, n) hmem hdec
    have hbump : bump h.blocks (k.heap a).id p = h.blocks p := if_neg hne
    exact ⟨hbump.trans (hl i t p n ht hepisode hdec).1, (hl i t p n ht hepisode hdec).2⟩
  | @notifyMts a hpc =>
    -- the new tracker is that of the block just counted
    have hnote : noteSts k h =
        { h with episodes := h.episodes ++ [((k.heap a).id, h.blocks (k.heap a).id)] } := by
      simp [noteSts, hpc]
    rw [hnote]
    intro i t p n ht hepisode hdec
    have hlen := hi.episodes
    rcases Nat.lt_or_ge i k.trackers.length with hlt | hge
    · rw [List.getElem?_append_left hlt] at ht
      rw [List.getElem?_append_left (hlen ▸ hlt)] at hepisode
      exact hl i t p n ht hepisode hdec
    · rw [List.getElem?_append_right hge] at ht
      rw [List.getElem?_append_right (hlen ▸ hge)] at hepisode
      obtain rfl := List.mem_singleton.mp (List.mem_of_getElem? ht)
      obtain ⟨rfl, rfl⟩ := Prod.ext_iff.mp (List.mem_singleton.mp (List.mem_of_getElem? hepisode))
      exact ⟨rfl, fun hread => absurd rfl hread⟩
  | destroyPcb hpc =>
    refine hl.quiet rfl ?_ ?_ <;>
    simp [noteSts, hpc]
  | waitExecute hpc | sortReady hpc | popReady hpc | popReadyNone hpc | setExecuting hpc
  | setCurrentEstimation hpc | sendPcb hpc | sendPcbFailed hpc | destroySent hpc | receivePcb hpc
  | setReal hpc | clearCurrentEstimation hpc | switchBlocked hpc | switchReady hpc
  | switchExit hpc | setIo hpc | reSchedule hpc | signalIoRequest hpc | exitProcess hpc
  | signalDom hpc | preEmpt hpc | pushReady hpc | signalExecute hpc =>
    refine hl.quiet rfl ?_ ?_ <;>
    simp [noteSts, hpc]

lemma LastBlock.mts (hl : LastBlock k h) {i : ℕ} {t : Tracker}
    (hprompt : Prompt (k, h) (.mts i)) (ht : k.trackers[i]? = some t) (hm : MtsMove k i t k') :
    LastBlock k' (noteMts t h) := by
  obtain ⟨hblocks, -, -, hepisodes, -⟩ := noteMts_rest t h
  obtain ⟨t', htrackers, hkeep⟩ : ∃ t', k'.trackers = k.trackers.set i t' ∧
      (deciding t' = true → deciding t = true ∧
        ((t.pc = .readPid ∧ t'.pid = (k.heap t.pcb).id) ∨ (t.pc ≠ .readPid ∧ t'.pid = t.pid))) := by
    cases hm with
    | readPid hpc => exact ⟨_, rfl, fun _ => ⟨by simp [deciding, hpc], .inl ⟨hpc, rfl⟩⟩⟩
    | existsBlocked hpc | existsBlockedNot hpc | testCurrentIo hpc =>
      exact ⟨_, rfl, fun _ => ⟨by simp [deciding, hpc], .inr ⟨by simp [hpc], rfl⟩⟩⟩
    | testCurrentIoNot | removeBlocked | removeBlockedNone | signalDom | setSuspendedBlocked
    | pushBlockedSus | sendSwap => exact ⟨_, rfl, fun hdec => by simp [deciding] at hdec⟩
  intro j t₁ p n ht₁ hepisode hdec
  rw [hepisodes] at hepisode
  rw [hblocks]
  rw [htrackers] at ht₁
  by_cases hij : i = j
  · subst hij
    obtain ⟨hlt, -⟩ := List.getElem?_eq_some_iff.mp ht
    rw [List.getElem?_set_self hlt] at ht₁
    obtain rfl := Option.some_injective _ ht₁
    obtain ⟨hdec', hread⟩ := hkeep hdec
    obtain ⟨hn, hpid⟩ := hl i t p n ht hepisode hdec'
    refine ⟨hn, fun _ => ?_⟩
    rcases hread with ⟨hpc, heq⟩ | ⟨hpc, heq⟩
    · exact heq.trans ((hprompt t ht (p, n) hepisode).1 hpc)
    · exact heq.trans (hpid hpc)
  · rw [List.getElem?_set_ne hij] at ht₁
    exact hl j t₁ p n ht₁ hepisode hdec

lemma LastBlock.step (hl : LastBlock k h) (hi : Own k h) {e : Event}
    (hprompt : Prompt (k, h) e) (hm : MoveH c k h e (k', h')) : LastBlock k' h' := by
  cases hm with
  | connect => exact hl.quiet rfl rfl rfl
  | console hs hm =>
    refine hl.quiet (by cases hm <;> rfl) ?_ ?_
    all_goals
      unfold noteConsole
      split <;> rfl
  | lts hm => exact hl.quiet (by cases hm <;> rfl) rfl rfl
  | sts hm => exact hl.sts hi (o := ‹_›) hprompt hm
  | io hm =>
    obtain ⟨hblocks, hepisodes⟩ := noteIo_rest k h
    exact hl.quiet (by cases hm <;> rfl) hblocks hepisodes
  | mts ht hm => exact hl.mts hprompt ht hm
  | scribble huse => exact hl.quiet rfl rfl rfl

/-- A tracker that is about to suspend has read the id of the process that it was started for,
that process was not blocked again, and if it is not in BLOCKED the block is still its own. -/
lemma LastBlock.removal (hl : LastBlock k h) {i : ℕ} {t : Tracker} {p : UInt32} {n : ℕ}
    (hprompt : Prompt (k, h) (.mts i)) (ht : k.trackers[i]? = some t)
    (hepisode : h.episodes[i]? = some (p, n)) (hpc : t.pc = .removeBlocked) :
    t.pid = p ∧ h.blocks p = n ∧
      (pcbExists k.heap k.blocked t.pid = true ∨ (k.heap t.pcb).id = p) := by
  obtain ⟨hn, hpid⟩ := hl i t p n ht hepisode (by simp [deciding, hpc])
  have hread : t.pid = p := hpid (by simp [hpc])
  exact ⟨hread, hn, hread ▸ (hprompt t ht (p, n) hepisode).2 hpc⟩

/-! ### What the I/O thread serves -/

/-- What is retrieved is served, until it is decided where it goes. -/
lemma ioServes_move (hm : IoMove c k k') (P : Addr → Bool) :
    ((ioServes k'.io).any P).toNat + ((decided k).any P).toNat =
      ((ioServes k.io).any P).toNat + ((retrieves k).any P).toNat := by
  cases hm with
  | waitIoRequest hl | popBlockedSus hl hq | popBlockedSusNone hl hq | popBlocked hl hq
  | popBlockedNone hl hq | setCurrentIo hl | sleep hl | switchSuspended hl hs | switchDefault hl hs
  | «exists» hl | existsNot hl | removeBlockedSus hl | setSuspendedReady hl | pushReadySus hl
  | signalReqAdmit hl | setReady hl | pushReady hl | raises hl | raisesNot hl | sendInterrupt hl
  | signalExecute hl | clearCurrentIo hl => simp [ioServes, decided, retrieves, *]

/-! ### The invariant is kept -/

/-- The process that a tracker is about to suspend is in no place but the tracker's, or that of
the I/O thread. -/
lemma target_apart (hp : Placed k h) {t : Tracker} (ht : t ∈ k.trackers)
    (hsus : suspending t = true) {x : Place} {a : Addr} (ha : a ∈ blocksAt k x)
    (hx : x ≠ .suspension) (hio : x ≠ .io) : (k.heap a).id ≠ (k.heap t.target).id := by
  rcases hp.suspensions.target_mem ht hsus with hrem | hserves
  · exact hp.conserved.apart hx ha hrem
  · exact hp.conserved.apart hio ha (Conserved.io_mem (ioHolds_of_serves hserves))

lemma inUse_of_target (hp : Placed k h) {t : Tracker} (ht : t ∈ k.trackers)
    (hsus : suspending t = true) : k.inUse t.target = true := by
  refine hp.conserved.used _ (.inr ?_)
  rcases hp.suspensions.target_mem ht hsus with hrem | hserves
  · exact Conserved.mem_admitted hrem
  · exact Conserved.mem_admitted (Conserved.io_mem (ioHolds_of_serves hserves))

lemma serving_kept (hp : Placed k h) {e : Event} (hm : MoveH c k h e (k', h'))
    (hio : k'.io = k.io) (p : UInt32) : serving k' p = serving k p := by
  unfold serving
  rw [hio]
  cases hserves : ioServes k.io with
  | none => rfl
  | some a =>
    have huse := hp.conserved.used a
      (.inr (Conserved.mem_admitted (Conserved.io_mem (ioHolds_of_serves hserves))))
    simp [hasId, id_kept hm huse]

/-- A tracker stays with its process, if that is not blocked again and does not go on. -/
lemma Own.kept (hp : Placed k h) (hi : Own k h) {e : Event} (hm : MoveH c k h e (k', h')) {i : ℕ}
    {t : Tracker} {p : UInt32} {n : ℕ} (ht : k.trackers[i]? = some t)
    (hepisode : h.episodes[i]? = some (p, n)) (hsus : suspending t = true)
    (hblocks : h'.blocks p = h.blocks p) (hfinished : h'.finished p = h.finished p) :
    h'.blocks p = n ∧ h'.finished p < n ∧ (k'.heap t.target).id = p := by
  obtain ⟨hb, hf, hid⟩ := hi.own i t p n ht hepisode hsus
  have huse := inUse_of_target hp (List.mem_of_getElem? ht) hsus
  exact ⟨hblocks.trans hb, hfinished ▸ hf, (id_kept hm huse).trans hid⟩

lemma Own.quiet (hp : Placed k h) (hi : Own k h) {e : Event} (hm : MoveH c k h e (k', h'))
    (hio : k'.io = k.io) (htrackers : k'.trackers = k.trackers) (hserved : h'.served = h.served)
    (hfinished : h'.finished = h.finished) (hblocks : h'.blocks = h.blocks)
    (hepisodes : h'.episodes = h.episodes) : Own k' h' := by
  refine ⟨fun p => ?_, ?_, fun i t p n ht hepisode hsus => ?_⟩
  · rw [hserved, hfinished, serving_kept hp hm hio]
    exact hi.served p
  · rw [hepisodes, htrackers]
    exact hi.episodes
  · rw [htrackers] at ht
    rw [hepisodes] at hepisode
    exact hi.kept hp hm ht hepisode hsus (by rw [hblocks]) (by rw [hfinished])

lemma Own.sts (hp : Placed k h) (hi : Own k h) {o : Outside} (hm : StsMove c k k') :
    Own k' (noteSts k h) := by
  have hmove : MoveH c k h (.sts o) (k', noteSts k h) := .sts hm
  have hio : k'.io = k.io := by cases hm <;> rfl
  cases hm with
  | @pushBlocked a hl =>
    -- the process that is blocked is not one that a tracker is about to suspend
    have hheld : a ∈ blocksAt k .execution := sts_mem (by rw [hl]; rfl)
    have hnote : noteSts k h = { h with blocks := bump h.blocks (k.heap a).id } := by
      simp [noteSts, hl]
    refine ⟨fun p => ?_, ?_, fun i t p n ht hepisode hsus => ?_⟩
    · rw [serving_kept hp hmove hio, hnote]
      exact hi.served p
    · rw [hnote]
      exact hi.episodes
    · rw [hnote] at hepisode
      have hid := (hi.own i t p n ht hepisode hsus).2.2
      have hne := target_apart hp (List.mem_of_getElem? ht) hsus hheld (by decide) (by decide)
      rw [hid] at hne
      refine hi.kept hp hmove ht hepisode hsus ?_ (by rw [hnote])
      rw [hnote]
      show bump h.blocks (k.heap a).id p = h.blocks p
      rw [bump_eq, beq_eq_false_iff_ne.mpr hne]
      rfl
  | @notifyMts a hl =>
    -- the new tracker is not about to suspend anything
    have hnote : noteSts k h =
        { h with episodes := h.episodes ++ [((k.heap a).id, h.blocks (k.heap a).id)] } := by
      simp [noteSts, hl]
    refine ⟨fun p => ?_, ?_, fun i t p n ht hepisode hsus => ?_⟩
    · rw [serving_kept hp hmove hio, hnote]
      exact hi.served p
    · rw [hnote]
      simp [hi.episodes]
    · rw [hnote] at hepisode
      have hlen := hi.episodes
      rcases Nat.lt_or_ge i k.trackers.length with hlt | hge
      · rw [List.getElem?_append_left hlt] at ht
        rw [List.getElem?_append_left (hlen ▸ hlt)] at hepisode
        exact hi.kept hp hmove ht hepisode hsus (by rw [hnote]) (by rw [hnote])
      · rw [List.getElem?_append_right hge] at ht
        obtain rfl := List.mem_singleton.mp (List.mem_of_getElem? ht)
        simp [suspending] at hsus
  | destroyPcb hl =>
    refine hi.quiet hp hmove hio rfl ?_ ?_ ?_ ?_ <;>
    simp [noteSts, hl]
  | waitExecute hl | sortReady hl | popReady hl | popReadyNone hl | setExecuting hl
  | setCurrentEstimation hl | sendPcb hl | sendPcbFailed hl | destroySent hl | receivePcb hl
  | setReal hl | clearCurrentEstimation hl | switchBlocked hl | switchReady hl | switchExit hl
  | setIo hl | reSchedule hl | signalIoRequest hl | exitProcess hl | signalDom hl | preEmpt hl
  | pushReady hl | signalExecute hl =>
    refine hi.quiet hp hmove hio rfl ?_ ?_ ?_ ?_ <;>
    simp [noteSts, hl]

lemma Own.io (hp : Placed k h) (hi : Own k h) (htimely : Timely k .io) (hm : IoMove c k k') :
    Own k' (noteIo k h) := by
  have hmove : MoveH c k h .io (k', noteIo k h) := .io hm
  have htrackers : k'.trackers = k.trackers := by cases hm <;> rfl
  obtain ⟨hblocks, hepisodes⟩ := noteIo_rest k h
  refine ⟨fun p => ?_, ?_, fun i t p n ht hepisode hsus => ?_⟩
  · have hid : hasId k'.heap p = hasId k.heap p := by
      funext a
      rw [hasId, hasId, (shuffled_io hp.conserved hp.suspensions hm).id]
    have hmoved := ioServes_move hm (hasId k.heap p)
    have hold := hi.served p
    rw [noteIo_served, noteIo_finished]
    unfold serving at hold ⊢
    rw [hid]
    omega
  · rw [hepisodes, htrackers]
    exact hi.episodes
  · rw [htrackers] at ht
    rw [hepisodes] at hepisode
    have hmem := List.mem_of_getElem? ht
    refine hi.kept hp hmove ht hepisode hsus (by rw [hblocks]) ?_
    rw [noteIo_finished]
    cases hdecided : decided k with
    | none => rfl
    | some a =>
      -- nobody is about to suspend the block that leaves
      have hheld : ioHolds k.io = some a := by
        unfold decided at hdecided
        split at hdecided
        · split at hdecided
          · cases hdecided
          · simp_all [ioHolds]
        · simp_all [ioHolds]
        · cases hdecided
      have hne : (k.heap a).id ≠ p := by
        rw [← (hi.own i t p n ht hepisode hsus).2.2]
        rcases target_extra hmem hsus with hrem | hextra
        · exact (hp.conserved.apart (by decide) hrem (Conserved.io_mem hheld)).symm
        · have hserves := ioHolds_of_serves (hp.suspensions.extra t hmem _ hextra)
          rw [hheld, Option.some_inj] at hserves
          exact absurd (hserves ▸ hextra) (htimely a hdecided t hmem)
      simp [hasId, hne]

/-! ### Trackers -/

section Trackers

variable {i : ℕ} {t : Tracker}

/-- A process in BLOCKED was blocked once more than it has gone on. -/
lemma finished_lt_of_blocked (hi : Own k h) (hr : Served k h) {b : Addr} (hb : b ∈ k.blocked) :
    h.finished (k.heap b).id < h.blocks (k.heap b).id := by
  have hserved := hi.served (k.heap b).id
  have hblocks := hr (k.heap b).id
  have hwaits : 0 < waiting k (k.heap b).id := List.countP_pos_iff.mpr
    ⟨b, List.mem_append_left _ (List.mem_append_left _ hb), by simp [hasId]⟩
  omega

lemma finished_lt_of_served (hi : Own k h) (hr : Served k h) {a : Addr}
    (ha : ioServes k.io = some a) : h.finished (k.heap a).id < h.blocks (k.heap a).id := by
  have hserved := hi.served (k.heap a).id
  have hblocks := hr (k.heap a).id
  have hserves : serving k (k.heap a).id = 1 := by simp [serving, ha, hasId]
  omega

lemma Own.mts (hp : Placed k h) (hi : Own k h) (hr : Served k h) (hlast : LastBlock k h)
    (htimely : Timely k (.mts i)) (hprompt : Prompt (k, h) (.mts i))
    (ht : k.trackers[i]? = some t) (hm : MtsMove k i t k') : Own k' (noteMts t h) := by
  have hmove : MoveH srtCfg k h (.mts i) (k', noteMts t h) := .mts ht hm
  obtain ⟨hblocks, hserved, hfinished, hepisodes, -⟩ := noteMts_rest t h
  have hmem := List.mem_of_getElem? ht
  have hio : k'.io = k.io := by cases hm <;> rfl
  obtain ⟨t', htrackers⟩ : ∃ t', k'.trackers = k.trackers.set i t' := by
    cases hm <;> exact ⟨_, rfl⟩
  refine ⟨fun p => ?_, ?_, fun j t₁ p n ht₁ hepisode hsus => ?_⟩
  · rw [hserved, hfinished, serving_kept hp hmove hio]
    exact hi.served p
  · rw [hepisodes, htrackers, List.length_set]
    exact hi.episodes
  · rw [hepisodes] at hepisode
    by_cases hij : i = j
    · subst hij
      have hself : ∀ {t₂ : Tracker}, k'.trackers = k.trackers.set i t₂ → t₁ = t₂ :=
        fun {t₂} heq => by
          rw [heq] at ht₁
          obtain ⟨hlt, -⟩ := List.getElem?_eq_some_iff.mp ht
          rw [List.getElem?_set_self hlt] at ht₁
          exact (Option.some_injective _ ht₁).symm
      rw [hblocks, hfinished]
      cases hm with
      | @removeBlocked b before behind hl hq hid =>
        obtain rfl := hself rfl
        obtain ⟨hpid, hn, -⟩ := hlast.removal hprompt ht hepisode hl
        have hlt := finished_lt_of_blocked hi hr (b := b) (by simp [hq])
        rw [hid, hpid] at hlt
        exact ⟨hn, lt_of_lt_of_eq hlt hn, hid.trans hpid⟩
      | removeBlockedNone hl hnone =>
        obtain rfl := hself rfl
        have hnot : pcbExists k.heap k.blocked t.pid ≠ true := fun hex => by
          obtain ⟨b, hb, hid⟩ := List.any_eq_true.mp hex
          exact hnone b hb (by simpa using hid)
        obtain ⟨hpid, hn, hown⟩ := hlast.removal hprompt ht hepisode hl
        have hid : (k.heap t.pcb).id = p := hown.resolve_left hnot
        have hlt := finished_lt_of_served hi hr ((htimely t ht hl).resolve_left hnot).1
        rw [hid] at hlt
        exact ⟨hn, lt_of_lt_of_eq hlt hn, hid⟩
      | signalDom hl | setSuspendedBlocked hl =>
        obtain rfl := hself rfl
        have hold := hi.kept hp hmove ht hepisode (by simp [suspending, hl]) (by rw [hblocks])
          (by rw [hfinished])
        rw [hblocks, hfinished] at hold
        exact hold
      | readPid | existsBlocked | existsBlockedNot | testCurrentIo | testCurrentIoNot
      | pushBlockedSus | sendSwap =>
        obtain rfl := hself rfl
        simp [suspending] at hsus
    · rw [htrackers, List.getElem?_set_ne hij] at ht₁
      exact hi.kept hp hmove ht₁ hepisode hsus (by rw [hblocks]) (by rw [hfinished])

end Trackers

lemma Own.step (hp : Placed k h) (hi : Own k h) (hr : Served k h) (hlast : LastBlock k h)
    {e : Event} (htimely : Timely k e) (hprompt : Prompt (k, h) e) (hm : MoveH c k h e (k', h')) :
    Own k' h' := by
  have hmove := hm
  cases hm with
  | connect => exact hi.quiet hp hmove rfl rfl rfl rfl rfl rfl
  | console hs hm =>
    have hsame : k'.io = k.io ∧ k'.trackers = k.trackers := by cases hm <;> exact ⟨rfl, rfl⟩
    refine hi.quiet hp hmove hsame.1 hsame.2 ?_ ?_ ?_ ?_
    all_goals
      unfold noteConsole
      split <;> rfl
  | lts hm =>
    have hsame : k'.io = k.io ∧ k'.trackers = k.trackers := by cases hm <;> exact ⟨rfl, rfl⟩
    exact hi.quiet hp hmove hsame.1 hsame.2 rfl rfl rfl rfl
  | sts hm => exact hi.sts (o := ‹_›) hp hm
  | io hm => exact hi.io hp htimely hm
  | mts ht hm => exact hi.mts hp hr hlast htimely hprompt ht hm
  | scribble huse => exact hi.quiet hp hmove rfl rfl rfl rfl rfl rfl

/-! ### The result -/

lemma own_of_run {heap : Heap} {es : List Event}
    (hrun : run (stepH c) (initH c heap) es = some (k, h))
    (hcond : Meets (stepH c) (fun s e => Timely s.1 e ∧ Prompt s e) (initH c heap) es) :
    Placed k h ∧ Served k h ∧ Own k h ∧ LastBlock k h := by
  refine hcond.inv
    (I := fun s => Placed s.1 s.2 ∧ Served s.1 s.2 ∧ Own s.1 s.2 ∧ LastBlock s.1 s.2) ?_
    ⟨placed_init heap, served_init heap, own_init heap, lastBlock_init heap⟩ hrun
  rintro ⟨k, h⟩ e ⟨k', h'⟩ ⟨hp, hserved, hi, hlast⟩ ⟨htimely, hprompt⟩ hstep
  have hm := moveH hstep
  exact ⟨hp.step htimely hm, hserved.step hp hm, hi.step hp hserved hlast htimely hprompt hm,
    hlast.step hi hprompt hm⟩

/-- **Main result.** A tracker that was started when a process was blocked for the `n`-th time
has no effect but on itself, once the process has gone on from that, or was blocked again. -/
theorem noEffect_of_prompt (c : Cfg) (heap : Heap) (es : List Event) (i : ℕ) (k k' : Kernel)
    (h h' : History) (p : UInt32) (n : ℕ)
    (hrun : run (stepH c) (initH c heap) es = some (k, h))
    (hstep : stepH c (k, h) (.mts i) = some (k', h'))
    (hcond : Meets (stepH c) (fun s e => Timely s.1 e ∧ Prompt s e) (initH c heap)
      (es ++ [.mts i]))
    (hepisode : h.episodes[i]? = some (p, n)) (hleft : n ≤ h.finished p ∨ n < h.blocks p) :
    k' = { k with trackers := k'.trackers } := by
  obtain ⟨hp, hserved, hi, hlast⟩ := own_of_run hrun hcond.append_left
  have hprompt : Prompt (k, h) (.mts i) := (hcond.append_right hrun).1.2
  obtain ⟨t, ht, hm⟩ := mtsMove (k := k) (stepH_eq_some.mp hstep).1
  have hidle : suspending t = true → False := fun hsus => by
    obtain ⟨hblocks, hlt, -⟩ := hi.own i t p n ht hepisode hsus
    omega
  cases hm with
  | @removeBlocked b before behind hl hq hid =>
    obtain ⟨hpid, hn, -⟩ := hlast.removal hprompt ht hepisode hl
    have hlt := finished_lt_of_blocked hi hserved (b := b) (by simp [hq])
    rw [hid, hpid] at hlt
    omega
  | signalDom hl | setSuspendedBlocked hl | pushBlockedSus hl =>
    exact (hidle (by simp [suspending, hl])).elim
  | readPid | existsBlocked | existsBlockedNot | testCurrentIo | testCurrentIoNot
  | removeBlockedNone | sendSwap => rfl

set_option maxRecDepth 40000 in
/-- The process is READY again, and its tracker gives up. -/
theorem noEffect_of_prompt_ready :
    ∃ k h k' h', run (stepH srtCfg) (initH srtCfg zeroHeap)
        (toBlocked ++ ioSteps 11 ++ mtsSteps 0 1) = some (k, h) ∧
      stepH srtCfg (k, h) (.mts 0) = some (k', h') ∧ h.episodes[0]? = some (0, 1) ∧
      k' = { k with trackers := k'.trackers } := by
  refine ⟨_, _, _, _, rfl, rfl, by decide +kernel, ?_⟩
  exact noEffect_of_prompt srtCfg zeroHeap (toBlocked ++ ioSteps 11 ++ mtsSteps 0 1) 0 _ _ _ _ 0 1
    rfl rfl (by decide +kernel) (by decide +kernel) (.inl (by decide +kernel))

set_option maxRecDepth 40000 in
/-- The process is blocked a second time; the tracker of the first time takes it from BLOCKED. -/
theorem not_noEffect : ¬ ∀ (c : Cfg) (heap : Heap) (es : List Event) (i : ℕ) (k k' : Kernel)
    (h h' : History) (p : UInt32) (n : ℕ), run (stepH c) (initH c heap) es = some (k, h) →
      stepH c (k, h) (.mts i) = some (k', h') → h.episodes[i]? = some (p, n) →
      n ≤ h.finished p ∨ n < h.blocks p → k' = { k with trackers := k'.trackers } := by
  intro hall
  have heq := hall srtCfg zeroHeap
    (toBlocked ++ ioSteps 11 ++ stsSteps 16 3 .blocked ++ mtsSteps 0 1) 0 _ _ _ _ 0 1 rfl rfl
    (by decide +kernel) (.inr (by decide +kernel))
  have hblocked := congrArg Kernel.blocked heq
  revert hblocked
  decide +kernel

end Sski.Scheduling.Episodes
