import Sski.Scheduling.OnePlace

/-!
Which processes the kernel has asked the memory module to keep, and to forget.

A process gets its page table when it is admitted, and gives it back when it is terminated. So it
has none while it is in NEW, or while the long-term scheduler waits for the table, or once
`swap_controller_exit` has reported its end.
-/

namespace Sski.Scheduling.Ledger

open Sski.Lib.Counting Sski.Scheduling.Scheduler Sski.Scheduling.Threads
open Sski.Scheduling.Moves Sski.Scheduling.History Sski.Scheduling.Places
open Sski.Scheduling.Conservation Sski.Scheduling.Suspension Sski.Scheduling.OnePlace

def asksFor : Lts → Option Addr
  | .requestPageTable pcb => pcb
  | _ => none

/-- The block whose end is about to be reported. -/
def reports : Sts → Option Addr
  | .exitProcess a _ => some a
  | _ => none

/-- The block whose end was reported, and which is not destroyed yet. -/
def reported : Sts → Option Addr
  | .destroyPcb a _ => some a
  | _ => none

def held (heap : Heap) (p : UInt32) (o : Option Addr) : ℕ := (o.any (hasId heap p)).toNat

@[simp] lemma held_none (heap : Heap) (p : UInt32) : held heap p none = 0 := rfl

@[simp] lemma held_some (heap : Heap) (p : UInt32) (a : Addr) :
    held heap p (some a) = (hasId heap p a).toNat := rfl

/-- The processes that are live or ended, and those that others know of. `known` counts the entries
of the memory module, `ended` the reports it has not read yet; `replied` says that it has made the
table the long-term scheduler waits for. -/
structure Ledger (k : Kernel) (h : History) (replied : Bool) (known ended : UInt32 → ℕ) :
    Prop where
  once : ∀ p, (reserved k).count p + (created k).countP (hasId k.heap p) + h.live.count p +
    ended p ≤ 1 + held k.heap p (reported k.sts)
  taken : ∀ p, 0 < ended p → k.pool[p.toNat]? = some true
  balance : ∀ p, known p + k.new.countP (hasId k.heap p) +
    (if replied then 0 else held k.heap p (asksFor k.lts)) + held k.heap p (reported k.sts) =
      h.live.count p + ended p

variable {c : Cfg} {k k' : Kernel} {h h' : History} {replied : Bool} {known ended : UInt32 → ℕ}

lemma ledger_init (heap : Heap) :
    Ledger (initKernel c heap) noHistory false (fun _ => 0) fun _ => 0 := by
  refine ⟨fun p => ?_, fun p hp => ?_, fun p => ?_⟩
  · simp [initKernel, reserved, created, noHistory, reported]
  · cases hp
  · simp [initKernel, noHistory, reported, asksFor]

/-! ### What follows from it -/

lemma reported_mem {a : Addr} (ha : reported k.sts = some a) : a ∈ blocksAt k .execution := by
  apply sts_mem
  cases hs : k.sts <;> simp_all [reported, stsHolds]

lemma asksFor_mem {a : Addr} (ha : asksFor k.lts = some a) : a ∈ blocksAt k .admission := by
  cases hl : k.lts <;> simp_all [asksFor, blocksAt, ltsHolds]

lemma asksFor_eq {lts : Lts} {a : Addr} (ha : asksFor lts = some a) :
    lts = .requestPageTable (some a) := by
  cases lts <;> simp_all [asksFor]

lemma reports_eq {sts : Sts} {a : Addr} (ha : reports sts = some a) :
    ∃ sent, sts = .exitProcess a sent := by
  cases sts <;> simp_all [reports]

lemma held_reported_le (k : Kernel) (p : UInt32) :
    held k.heap p (reported k.sts) ≤ ((stsHolds k.sts).any (hasId k.heap p)).toNat := by
  unfold held
  cases k.sts <;> simp [reported, stsHolds]

lemma held_asksFor_le (k : Kernel) (p : UInt32) :
    held k.heap p (asksFor k.lts) ≤ ((ltsHolds k.lts).any (hasId k.heap p)).toNat := by
  unfold held
  cases k.lts <;> simp [asksFor, ltsHolds]

lemma untabled_le (hk : Conserved k h) (p : UInt32) :
    k.new.countP (hasId k.heap p) + held k.heap p (asksFor k.lts) +
      held k.heap p (reported k.sts) ≤ h.live.count p := by
  have hplaces := hk.places p
  have hreported := held_reported_le k p
  have hasks := held_asksFor_le k p
  rw [countP_admitted] at hplaces
  omega

lemma live_le_one (hk : Conserved k h) (p : UInt32) : h.live.count p ≤ 1 := by
  have honce := hk.once p
  omega

lemma hasId_self (heap : Heap) (a : Addr) : hasId heap (heap a).id a = true := by simp [hasId]

namespace Ledger

/-- The memory module knows a process whose end it has to read, and has to read it once. -/
lemma known_of_ended (hl : Ledger k h replied known ended) (hk : Conserved k h) {p : UInt32}
    (hp : 0 < ended p) : known p = 1 ∧ ended p = 1 := by
  have honce := hl.once p
  have hbalance := hl.balance p
  have huntabled := untabled_le hk p
  split at hbalance <;> omega

/-- A process that is not pushed to NEW yet was never known to the memory module. -/
lemma unknown_of_created (hl : Ledger k h replied known ended) (hk : Conserved k h) {a : Addr}
    (ha : a ∈ created k) : known (k.heap a).id = 0 := by
  have hcreated : 0 < (created k).countP (hasId k.heap (k.heap a).id) :=
    List.countP_pos_iff.mpr ⟨a, ha, hasId_self k.heap a⟩
  have honce := hl.once (k.heap a).id
  have honce' := hk.once (k.heap a).id
  have hbalance := hl.balance (k.heap a).id
  have huntabled := untabled_le hk (k.heap a).id
  split at hbalance <;> omega

lemma unknown_of_asks (hl : Ledger k h false known ended) (hk : Conserved k h) {a : Addr}
    (ha : asksFor k.lts = some a) : known (k.heap a).id = 0 := by
  have hasks : held k.heap (k.heap a).id (asksFor k.lts) = 1 := by
    rw [ha, held_some, hasId_self]
    rfl
  have honce := hl.once (k.heap a).id
  have hbalance := hl.balance (k.heap a).id
  have huntabled := untabled_le hk (k.heap a).id
  have hlive := live_le_one hk (k.heap a).id
  simp only [Bool.false_eq_true, if_false] at hbalance
  omega

/-- Every other block of an admitted process is that of a process the memory module knows, and
whose end was not reported. -/
lemma known_of_tabled (hl : Ledger k h replied known ended) (hk : Conserved k h) {x : Place}
    {a : Addr} (ha : a ∈ blocksAt k x) (hx : x ≠ .new) (hasks : asksFor k.lts ≠ some a)
    (hreported : reported k.sts ≠ some a) :
    known (k.heap a).id = 1 ∧ ended (k.heap a).id = 0 := by
  have hlive : h.live.count (k.heap a).id = 1 := by
    have hpos : 0 < (admitted k).countP (hasId k.heap (k.heap a).id) :=
      List.countP_pos_iff.mpr ⟨a, Conserved.mem_admitted ha, hasId_self k.heap a⟩
    have hplaces := hk.places (k.heap a).id
    have hle := live_le_one hk (k.heap a).id
    omega
  have hnew : k.new.countP (hasId k.heap (k.heap a).id) = 0 :=
    List.countP_eq_zero.mpr fun b hb => by
      have hne := hk.apart hx ha (show b ∈ blocksAt k .new from hb)
      simpa [hasId] using Ne.symm hne
  have hasks' : held k.heap (k.heap a).id (asksFor k.lts) = 0 := by
    cases hb : asksFor k.lts with
    | none => rfl
    | some b =>
      have hmem := asksFor_mem hb
      have hne : (k.heap b).id ≠ (k.heap a).id := by
        by_cases hxa : x = .admission
        · -- the long-term scheduler holds one block
          subst hxa
          simp only [blocksAt, Option.mem_toList] at ha hmem
          rw [ha] at hmem
          exact absurd (hb.trans hmem.symm) hasks
        · exact hk.apart (Ne.symm hxa) hmem ha
      simp [hasId, hne]
  have hreported' : held k.heap (k.heap a).id (reported k.sts) = 0 := by
    cases hb : reported k.sts with
    | none => rfl
    | some b =>
      have hmem := reported_mem hb
      have hne : (k.heap b).id ≠ (k.heap a).id := by
        by_cases hxa : x = .execution
        · subst hxa
          simp only [blocksAt, Option.mem_toList] at ha hmem
          rw [ha] at hmem
          exact absurd (hb.trans hmem.symm) hreported
        · exact hk.apart (Ne.symm hxa) hmem ha
      simp [hasId, hne]
  have honce := hl.once (k.heap a).id
  have hbalance := hl.balance (k.heap a).id
  rw [hasks', ite_self] at hbalance
  omega

/-- A process that runs without a block has not ended. -/
lemma unended_of_away (hl : Ledger k h replied known ended) (hk : Conserved k h) {p : UInt32}
    (hp : p ∈ away k) : ended p = 0 := by
  by_contra hne
  obtain ⟨hknown, hended⟩ := hl.known_of_ended hk (p := p) (by omega)
  have haway : 0 < (away k).count p := List.count_pos_iff.mpr hp
  have hplaces := hk.places p
  have hle := hk.le_one p
  have hreported := held_reported_le k p
  have hasks := held_asksFor_le k p
  have hbalance := hl.balance p
  rw [countP_admitted] at hplaces hle
  split at hbalance <;> omega

/-- Nor has the one whose table is asked for. -/
lemma unended_of_asks (hl : Ledger k h replied known ended) (hk : Conserved k h) {a : Addr}
    (ha : asksFor k.lts = some a) : ended (k.heap a).id = 0 := by
  by_contra hne
  obtain ⟨hknown, hended⟩ := hl.known_of_ended hk (p := (k.heap a).id) (by omega)
  have hasks : held k.heap (k.heap a).id (asksFor k.lts) = 1 := by
    rw [ha, held_some, hasId_self]
    rfl
  have honce := hl.once (k.heap a).id
  have huntabled := untabled_le hk (k.heap a).id
  have hbalance := hl.balance (k.heap a).id
  split at hbalance <;> omega

end Ledger

/-- An admitted process has one block. -/
lemma eq_of_admitted (hk : Conserved k h) {a b : Addr} (ha : a ∈ admitted k) (hb : b ∈ admitted k)
    (hid : (k.heap a).id = (k.heap b).id) : a = b := by
  by_contra hne
  have hle := hk.le_one (k.heap b).id
  have htwo : 2 ≤ ((admitted k).flatMap fun x => [x]).countP (hasId k.heap (k.heap b).id) :=
    two_le_countP_flatMap _ hne ha hb (List.mem_singleton_self a) (List.mem_singleton_self b)
      (by simpa [hasId] using hid) (by simp [hasId])
  rw [List.flatMap_singleton'] at htwo
  omega

/-! ### The memory module -/

lemma Ledger.reply (hl : Ledger k h false known ended) {a : Addr} (ha : asksFor k.lts = some a) :
    Ledger k h true (fun p => known p + if p = (k.heap a).id then 1 else 0) ended := by
  refine ⟨hl.once, hl.taken, fun p => ?_⟩
  have hbalance := hl.balance p
  rw [ha, held_some] at hbalance
  by_cases hp : p = (k.heap a).id
  · subst hp
    simp only [Bool.false_eq_true, if_false, if_true, hasId_self, Bool.toNat_true] at hbalance ⊢
    omega
  · have hne : hasId k.heap p a = false := by simpa [hasId] using Ne.symm hp
    simp only [Bool.false_eq_true, if_false, if_true, hne, if_neg hp, Bool.toNat_false] at *
    omega

lemma Ledger.forget (hl : Ledger k h replied known ended) (hk : Conserved k h) {pid : UInt32}
    {ended' : UInt32 → ℕ} (hended : ∀ p, ended p = ended' p + if p = pid then 1 else 0) :
    Ledger k h replied (fun p => if p = pid then 0 else known p) ended' := by
  refine ⟨fun p => ?_, fun p hp => ?_, fun p => ?_⟩
  · have honce := hl.once p
    have hp := hended p
    omega
  · refine hl.taken p ?_
    have hp' := hended p
    omega
  · have hbalance := hl.balance p
    have hp := hended p
    by_cases heq : p = pid
    · rw [if_pos heq] at hp
      have hknown := hl.known_of_ended hk (p := p) (by omega)
      rw [if_pos heq]
      omega
    · rw [if_neg heq] at hp
      rw [if_neg heq]
      omega

/-! ### The threads -/

def reportedBy (k : Kernel) : Event → Option Addr
  | .sts _ => reports k.sts
  | _ => none

lemma hasId_eq_of_shuffled (hm : Shuffled k k') (p : UInt32) :
    hasId k'.heap p = hasId k.heap p := by
  ext1 a
  unfold hasId
  rw [hm.id]

lemma Ledger.shuffled (hl : Ledger k h replied known ended) (hk : Conserved k h)
    (hm : Shuffled k k') (hlive : h'.live = h.live) {ended' : UInt32 → ℕ}
    (hwaits : ∀ p, k'.new.countP (hasId k.heap p) +
        (if replied then 0 else held k.heap p (asksFor k'.lts)) =
      k.new.countP (hasId k.heap p) + (if replied then 0 else held k.heap p (asksFor k.lts)))
    (hends : ∀ p, ended' p + held k.heap p (reported k.sts) =
      ended p + held k.heap p (reported k'.sts))
    (hnew : ∀ p, 0 < ended' p → 0 < ended p ∨ 0 < h.live.count p) :
    Ledger k' h' replied known ended' := by
  have hheld : ∀ p o, held k'.heap p o = held k.heap p o := fun p o => by
    unfold held
    rw [hasId_eq_of_shuffled hm]
  refine ⟨fun p => ?_, fun p hp => ?_, fun p => ?_⟩
  · have honce := hl.once p
    have hend := hends p
    rw [hm.reserved, hasId_eq_of_shuffled hm, hm.created, hlive, hheld]
    omega
  · rw [hm.pool]
    rcases hnew p hp with hold | hin
    · exact hl.taken p hold
    · exact hk.taken p (by omega)
  · have hbalance := hl.balance p
    have hend := hends p
    have hwait := hwaits p
    rw [hasId_eq_of_shuffled hm, hlive, hheld, hheld]
    omega

lemma Ledger.lts (hl : Ledger k h replied known ended) (hk : Conserved k h)
    (hm : LtsMove c k k') (hasks : ∀ pcb, k.lts ≠ .requestPageTable pcb)
    (hreplied : replied = false) : Ledger k' h replied known ended := by
  have hsts : k'.sts = k.sts := by cases hm <;> rfl
  refine hl.shuffled hk (shuffled_lts hm) rfl (fun p => ?_) (fun p => by rw [hsts])
    fun p hp => .inl hp
  subst hreplied
  simp only [Bool.false_eq_true, if_false]
  cases hm with
  | @popNew a new hpc hq =>
    simp only [hq, hpc, asksFor, countP_cons_toNat, held_some, held_none]
    omega
  | noPageTable hpc | pageTable hpc => exact absurd hpc (hasks _)
  | waitReqAdmit hpc | waitDom hpc | resume hpc | resumeNone hpc | popNewNone hpc
  | setReadyNone hpc | setReady hpc | raises hpc | raisesNot hpc | sendInterrupt hpc
  | pushReady hpc | signalExecute hpc => simp [hpc, asksFor]

lemma Ledger.answer (hl : Ledger k h true known ended) (hm : LtsMove c k k') {a : Addr}
    (hpc : k.lts = .requestPageTable (some a)) : Ledger k' h false known ended := by
  have hshuffled := shuffled_lts hm
  have hsame : k'.new = k.new ∧ k'.sts = k.sts ∧ asksFor k'.lts = none := by
    cases hm <;> simp_all [asksFor]
  obtain ⟨hnew, hsts, hasks⟩ := hsame
  refine ⟨fun p => ?_, fun p hp => ?_, fun p => ?_⟩
  · unfold held
    rw [hshuffled.reserved, hasId_eq_of_shuffled hshuffled, hshuffled.created, hsts]
    exact hl.once p
  · rw [hshuffled.pool]
    exact hl.taken p hp
  · have hbalance := hl.balance p
    unfold held at hbalance ⊢
    rw [hasId_eq_of_shuffled hshuffled, hnew, hsts, hasks]
    exact hbalance

lemma Ledger.io (hl : Ledger k h replied known ended) (hk : Conserved k h)
    (hs : Suspensions k h) (hm : IoMove c k k') : Ledger k' (noteIo k h) replied known ended := by
  have hsame : k'.new = k.new ∧ k'.lts = k.lts ∧ k'.sts = k.sts := by
    cases hm <;> exact ⟨rfl, rfl, rfl⟩
  obtain ⟨hnew, hlts, hsts⟩ := hsame
  refine hl.shuffled hk (shuffled_io hk hs hm) ?_ (fun p => by rw [hnew, hlts])
    (fun p => by rw [hsts]) fun p hp => .inl hp
  simp only [noteIo, History.retrieved]
  split <;> split <;> rfl

lemma Ledger.mts (hl : Ledger k h replied known ended) (hk : Conserved k h)
    (hs : Suspensions k h) {i : ℕ} {t : Tracker} (ht : k.trackers[i]? = some t)
    (hm : MtsMove k i t k') : Ledger k' (noteMts t h) replied known ended := by
  have hsame : k'.new = k.new ∧ k'.lts = k.lts ∧ k'.sts = k.sts := by
    cases hm <;> exact ⟨rfl, rfl, rfl⟩
  obtain ⟨hnew, hlts, hsts⟩ := hsame
  refine hl.shuffled hk (shuffled_mts hk hs ht hm) ?_ (fun p => by rw [hnew, hlts])
    (fun p => by rw [hsts]) fun p hp => .inl hp
  unfold noteMts
  split <;> rfl

/-- A process is destroyed, and its end was reported before. -/
lemma Ledger.destroyPcb (hl : Ledger k h replied known ended) (hk : Conserved k h) {a : Addr}
    {sent : Bool} (hpc : k.sts = .destroyPcb a sent) :
    Ledger { k with inUse := setInUse k.inUse a false, sts := .signalDom sent }
      { h with live := h.live.erase (k.heap a).id } replied known ended := by
  have hheld : ∀ p, held k.heap p (reported k.sts) = if (k.heap a).id == p then 1 else 0 :=
    fun p => by
      rw [hpc]
      cases hp : (k.heap a).id == p <;> simp [reported, hasId, hp]
  have hcount : ∀ p, (h.live.erase (k.heap a).id).count p =
      h.live.count p - if (k.heap a).id == p then 1 else 0 := fun p => List.count_erase ..
  refine ⟨fun p => ?_, hl.taken, fun p => ?_⟩
  · have honce := hl.once p
    have huntabled := untabled_le hk p
    rw [hheld] at honce huntabled
    show (reserved k).count p + (created k).countP (hasId k.heap p) + _ + ended p ≤ 1 + 0
    rw [hcount]
    omega
  · have hbalance := hl.balance p
    have huntabled := untabled_le hk p
    rw [hheld] at hbalance huntabled
    show known p + k.new.countP (hasId k.heap p) +
      (if replied then 0 else held k.heap p (asksFor k.lts)) + 0 = _ + ended p
    rw [hcount]
    omega

lemma ne_of_inUse {a b : Addr} (ha : k.inUse a = true) (hb : k.inUse b = false) : a ≠ b := by
  rintro rfl
  rw [ha] at hb
  cases hb

lemma Ledger.filled (hl : Ledger k h replied known ended) (hk : Conserved k h)
    (hid : ∀ a, k.inUse a = true → (k'.heap a).id = (k.heap a).id)
    (hreserved : reserved k' = reserved k) (hcreated : created k' = created k)
    (hpool : k'.pool = k.pool) (hnew : k'.new = k.new) (hlts : k'.lts = k.lts)
    (hreported : reported k'.sts = reported k.sts) (hlive : h'.live = h.live) :
    Ledger k' h' replied known ended := by
  have hheld : ∀ p (o : Option Addr), (∀ a ∈ o, k.inUse a = true) →
      held k'.heap p o = held k.heap p o := fun p o ho => by
    cases o with
    | none => rfl
    | some a => rw [held_some, held_some, hasId, hasId, hid a (ho a rfl)]
  have hplace : ∀ x, ∀ a ∈ blocksAt k x, k.inUse a = true :=
    fun x a ha => hk.used a (.inr (Conserved.mem_admitted ha))
  have hasks := fun p => hheld p (asksFor k.lts) fun a ha => hplace .admission a (asksFor_mem ha)
  have hrep := fun p => hheld p (reported k.sts) fun a ha => hplace .execution a (reported_mem ha)
  have hcount : ∀ (l : List Addr) p, (∀ a ∈ l, k.inUse a = true) →
      l.countP (hasId k'.heap p) = l.countP (hasId k.heap p) := fun l p huse =>
    List.countP_congr fun a ha => by rw [hasId, hasId, hid a (huse a ha)]
  have hnews := fun p => hcount k.new p (hplace .new)
  have hcr := fun p => hcount (created k) p fun a ha => hk.used a (.inl ha)
  refine ⟨fun p => ?_, fun p hp => ?_, fun p => ?_⟩
  · rw [hreserved, hcreated, hcr, hlive, hreported, hrep]
    exact hl.once p
  · rw [hpool]
    exact hl.taken p hp
  · rw [hnew, hnews, hlts, hasks, hreported, hrep, hlive]
    exact hl.balance p

lemma Ledger.sts (hl : Ledger k h replied known ended) (hk : Conserved k h)
    (hm : StsMove c k k') : Ledger k' (noteSts k h) replied known
      fun p => ended p + held k.heap p (reports k.sts) := by
  by_cases hmoves : (∀ a, k.sts ≠ .destroySent a) ∧ k.sts ≠ .receivePcb ∧
    ∀ a sent, k.sts ≠ .destroyPcb a sent
  · obtain ⟨hsent, hreceive, hdestroy⟩ := hmoves
    have hsame : k'.new = k.new ∧ k'.lts = k.lts := by cases hm <;> exact ⟨rfl, rfl⟩
    refine hl.shuffled hk (shuffled_sts hm hsent hreceive hdestroy) ?_
      (fun p => by rw [hsame.1, hsame.2]) (fun p => ?_) fun p hp => ?_
    · unfold noteSts
      split <;> first | rfl | exact absurd ‹_› (hdestroy _ _)
    · cases hm with
      | destroySent hpc => exact absurd hpc (hsent _)
      | receivePcb hpc => exact absurd hpc hreceive
      | destroyPcb hpc => exact absurd hpc (hdestroy _ _)
      | waitExecute hpc hn hnext =>
        rcases hnext with ⟨-, rfl⟩ | ⟨-, rfl⟩ <;> simp [hpc, reports, reported]
      | signalDom hpc hsts => rcases hsts with rfl | rfl <;> simp [hpc, reports, reported]
      | _ => simp_all [reports, reported]
    · -- the end of a live process is reported
      by_cases hend : 0 < ended p
      · exact .inl hend
      right
      cases hr : reports k.sts with
      | none =>
        rw [hr, held_none] at hp
        omega
      | some a =>
        have hid : (k.heap a).id = p := by
          by_contra hne
          simp only [hr, held_some, hasId, beq_eq_false_iff_ne.mpr hne, Bool.toNat_false] at hp
          omega
        have hmem : a ∈ blocksAt k .execution := sts_mem (by
          cases hs : k.sts <;> simp_all [reports, stsHolds])
        rw [← hk.places p]
        have hpos : 0 < (admitted k).countP (hasId k.heap p) :=
          List.countP_pos_iff.mpr ⟨a, Conserved.mem_admitted hmem, by simpa [hasId] using hid⟩
        omega
  · cases hm with
    | destroySent hpc =>
      simp only [noteSts, hpc, reports, held_none, Nat.add_zero]
      refine hl.filled hk (fun _ _ => rfl) rfl rfl rfl rfl rfl ?_ rfl
      rw [hpc]
      rfl
    | receivePcb hpc hcpu huse =>
      simp only [noteSts, hpc, reports, held_none, Nat.add_zero]
      refine hl.filled hk (fun a ha => ?_) rfl rfl rfl rfl rfl ?_ rfl
      · exact congrArg Pcb.id (fill_of_ne _ (ne_of_inUse ha huse))
      rw [hpc]
      rfl
    | destroyPcb hpc =>
      simp only [noteSts, hpc, reports, held_none, Nat.add_zero]
      exact hl.destroyPcb hk hpc
    | waitExecute hpc => simp [hpc] at hmoves
    | _ hpc => simp_all

section Consoles

variable {i : ℕ} {s : Console}

lemma Ledger.getPidLibre (hl : Ledger k h replied known ended) (hk : Conserved k h)
    (hs : k.consoles[i]? = some s) {size : UInt32} {j : ℕ} (hpc : s.pc = .getPidLibre size)
    (hj : k.pool[j]? = some false) :
    Ledger { k with
      pool := k.pool.set j true
      consoles := k.consoles.set i ⟨UInt32.ofNat j, .addPcb size⟩ } h replied known ended := by
  have htoNat := toNat_ofNat_of_lt (lt_maxPids hk.pool hj)
  have hfree : ∀ {n : ℕ}, (0 < n → k.pool[(UInt32.ofNat j).toNat]? = some true) → n = 0 :=
    fun {n} hn => by
      by_contra hpos
      have htaken := hn (Nat.pos_of_ne_zero hpos)
      rw [htoNat, hj] at htaken
      cases htaken
  have hnone := hfree (hk.taken (UInt32.ofNat j))
  have hended := hfree (hl.taken (UInt32.ofNat j))
  have hreserved : ∀ p, ((k.consoles.set i ⟨UInt32.ofNat j, .addPcb size⟩).filterMap
      consoleReserves).count p = (reserved k).count p + (UInt32.ofNat j == p).toNat := fun p => by
    simpa [consoleReserves, hpc] using count_reserved_set hs ⟨UInt32.ofNat j, .addPcb size⟩ p
  have hcreated : ∀ P, (created { k with
      pool := k.pool.set j true
      consoles := k.consoles.set i ⟨UInt32.ofNat j, .addPcb size⟩ }).countP P =
        (created k).countP P := fun P => by
    rw [countP_created, countP_created, Nat.add_left_cancel_iff]
    exact countP_holds_keep hs (by simp [consoleHolds, hpc]) P
  refine ⟨fun p => ?_, fun p hp => ?_, hl.balance⟩
  · have honce := hl.once p
    rw [hcreated]
    show (List.filterMap _ _).count p + _ + _ + _ ≤ 1 + held k.heap p (reported k.sts)
    rw [hreserved]
    by_cases hp : UInt32.ofNat j = p
    · subst hp
      simp only [beq_self_eq_true, Bool.toNat_true]
      omega
    · rw [beq_eq_false_iff_ne.mpr hp]
      exact honce
  · have hold := hl.taken p hp
    have hne : j ≠ p.toNat := by
      rintro rfl
      rw [hj] at hold
      cases hold
    show (k.pool.set j true)[p.toNat]? = some true
    rw [List.getElem?_set_ne hne]
    exact hold

lemma Ledger.getPidLibreNone (hl : Ledger k h replied known ended) (hs : k.consoles[i]? = some s)
    {size : UInt32} (hpc : s.pc = .getPidLibre size) {pid : UInt32} :
    Ledger { k with consoles := k.consoles.set i ⟨pid, .receive⟩ } h replied known ended := by
  refine ⟨fun p => ?_, hl.taken, hl.balance⟩
  have hreceive : consoleReserves ⟨pid, .receive⟩ = none := rfl
  have hreserved := count_reserved_keep hs (by simp [consoleReserves, hpc]) hreceive p
  have hcreated : (created { k with consoles := k.consoles.set i ⟨pid, .receive⟩ }).countP
      (hasId k.heap p) = (created k).countP (hasId k.heap p) := by
    rw [countP_created, countP_created, Nat.add_left_cancel_iff]
    exact countP_holds_keep hs (by simp [consoleHolds, hpc]) _
  have honce := hl.once p
  show (List.filterMap _ _).count p + _ + _ + _ ≤ 1 + held k.heap p (reported k.sts)
  rw [hreserved, hcreated]
  exact honce

lemma Ledger.addPcb (hl : Ledger k h replied known ended) (hk : Conserved k h)
    (hs : k.consoles[i]? = some s) {size : UInt32} {addr : Addr} {estimation : UInt32}
    (hpc : s.pc = .addPcb size) (huse : k.inUse addr = false) :
    Ledger { k with
      heap := fill k.heap addr (newPcb s.senderPid size estimation)
      inUse := setInUse k.inUse addr true
      pcbs := k.pcbs ++ [addr]
      consoles := k.consoles.set i ⟨s.senderPid, .receive⟩ } h replied known ended := by
  -- the block is filled first, and then put into the list
  have hfilled : Ledger { k with heap := fill k.heap addr (newPcb s.senderPid size estimation) } h
      replied known ended := by
    refine hl.filled hk (fun a ha => ?_) rfl rfl rfl rfl rfl rfl rfl
    exact congrArg Pcb.id (fill_of_ne _ (ne_of_inUse ha huse))
  set k' : Kernel := { k with
    heap := fill k.heap addr (newPcb s.senderPid size estimation)
    inUse := setInUse k.inUse addr true
    pcbs := k.pcbs ++ [addr]
    consoles := k.consoles.set i ⟨s.senderPid, .receive⟩ } with hk'
  have hreserved : ∀ p, (reserved k').count p + (s.senderPid == p).toNat =
      (reserved k).count p := fun p => by
    have hset := count_reserved_set hs ⟨s.senderPid, .receive⟩ p
    simp only [consoleReserves, hpc, Option.any_some, Option.any_none, Bool.toNat_false,
      Nat.add_zero] at hset
    exact hset
  have hcreated : ∀ p, (created k').countP (hasId k'.heap p) =
      (created k).countP (hasId k'.heap p) + (s.senderPid == p).toNat := fun p => by
    have hnone : consoleHolds ⟨s.senderPid, .receive⟩ = consoleHolds s := by
      simp [consoleHolds, hpc]
    have hnew : (hasId k'.heap p addr).toNat = (s.senderPid == p).toNat := by
      simp [hk', hasId, newPcb]
    rw [countP_created, countP_created, List.countP_append, countP_cons_toNat, List.countP_nil,
      hnew, countP_holds_keep hs hnone]
    omega
  refine ⟨fun p => ?_, hl.taken, hfilled.balance⟩
  have honce : (reserved k).count p + (created k).countP (hasId k'.heap p) + h.live.count p +
      ended p ≤ 1 + held k'.heap p (reported k.sts) := hfilled.once p
  have hres := hreserved p
  rw [hcreated]
  show _ ≤ 1 + held k'.heap p (reported k.sts)
  omega

lemma Ledger.pushNew (hl : Ledger k h replied known ended) (hs : k.consoles[i]? = some s)
    {a : Addr} (hpc : s.pc = .pushNew a) :
    Ledger { k with
      new := k.new ++ [a]
      consoles := k.consoles.set i ⟨s.senderPid, .signalReqAdmit⟩ }
      { h with live := (k.heap a).id :: h.live } replied known ended := by
  have hlive : ∀ p, ((k.heap a).id :: h.live).count p = h.live.count p + (hasId k.heap p a).toNat :=
    fun p => by rw [List.count_eq_countP, countP_cons_toNat, List.count_eq_countP, hasId]
  refine ⟨fun p => ?_, hl.taken, fun p => ?_⟩
  · have honce := hl.once p
    have hsignal : consoleReserves ⟨s.senderPid, .signalReqAdmit⟩ = none := rfl
    have hreserved := count_reserved_keep hs (by simp [consoleReserves, hpc]) hsignal p
    have hset := countP_holds_set hs ⟨s.senderPid, .signalReqAdmit⟩ (hasId k.heap p)
    have hsome : consoleHolds s = some a := by simp [consoleHolds, hpc]
    have hnone : consoleHolds ⟨s.senderPid, .signalReqAdmit⟩ = none := rfl
    simp only [hsome, hnone, Option.any_some, Option.any_none, Bool.toNat_false] at hset
    rw [countP_created] at honce ⊢
    rw [hlive]
    change (List.filterMap _ _).count p + _ + _ + _ ≤ 1 + held k.heap p (reported k.sts)
    rw [hreserved]
    dsimp only
    omega
  · have hbalance := hl.balance p
    show known p + (k.new ++ [a]).countP (hasId k.heap p) +
      (if replied then 0 else held k.heap p (asksFor k.lts)) + held k.heap p (reported k.sts) = _
    rw [hlive, List.countP_append, countP_cons_toNat, List.countP_nil]
    omega

lemma Ledger.console (hl : Ledger k h replied known ended) (hk : Conserved k h)
    (hs : k.consoles[i]? = some s) (hm : ConsoleMove c k i s k') :
    Ledger k' (noteConsole k s h) replied known ended := by
  by_cases hmoves : (∀ size, s.pc ≠ .getPidLibre size) ∧ (∀ size, s.pc ≠ .addPcb size) ∧
    ∀ a, s.pc ≠ .pushNew a
  · obtain ⟨hget, hadd, hpush⟩ := hmoves
    have hsame : k'.new = k.new ∧ k'.lts = k.lts ∧ k'.sts = k.sts := by
      cases hm with
      | pushNew hpc => exact absurd hpc (hpush _)
      | _ => exact ⟨rfl, rfl, rfl⟩
    obtain ⟨hnew, hlts, hsts⟩ := hsame
    refine hl.shuffled hk (shuffled_console hs hm hget hadd hpush) ?_
      (fun p => by rw [hnew, hlts]) (fun p => by rw [hsts]) fun p hp => .inl hp
    unfold noteConsole
    split
    · exact absurd ‹_› (hpush _)
    · rfl
  · cases hm with
    | getPidLibre hpc hj => simpa [noteConsole, hpc] using hl.getPidLibre hk hs hpc hj
    | getPidLibreNone hpc hget hpid =>
      obtain rfl := pool_of_undefined hk.pool hget hpid
      simpa [noteConsole, hpc] using hl.getPidLibreNone hs hpc
    | addPcb hpc huse => simpa [noteConsole, hpc] using hl.addPcb hk hs hpc huse
    | pushNew hpc => simpa [noteConsole, hpc] using hl.pushNew hs hpc
    | _ hpc => simp_all

end Consoles

/-- **What a step of a thread does to the books.** Only the short-term scheduler reports ends. -/
theorem Ledger.step (hl : Ledger k h replied known ended) (hp : Placed k h) {e : Event}
    (hstep : stepH c (k, h) e = some (k', h')) (hlts : ∀ memory, e = .lts memory →
      replied = false ∧ ∀ pcb, k.lts ≠ .requestPageTable pcb) :
    Ledger k' h' replied known fun p => ended p + held k.heap p (reportedBy k e) := by
  obtain ⟨hk, hs⟩ := hp
  obtain ⟨hk', hh'⟩ := stepH_eq_some.mp hstep
  obtain rfl : h' = note k e h := hh'
  cases e with
  | connect =>
    cases hk'
    show Ledger { k with consoles := k.consoles ++ [⟨0, .receive⟩] } h replied known ended
    exact hl.filled hk (fun _ _ => rfl) (by simp [reserved, consoleReserves])
      (by simp [created, consoleHolds]) rfl rfl rfl rfl rfl
  | message i m =>
    obtain ⟨s, hconsole, hpc, hm⟩ := routineMove (c := c) hk'
    have hnote : note k (.message i m) h = noteConsole k s h := by simp [note, noteConsole, hpc]
    rw [hnote]
    exact hl.console hk hconsole hm
  | console i addr =>
    obtain ⟨s, hconsole, hm⟩ := consoleMove hk'
    have hnote : note k (.console i addr) h = noteConsole k s h := by simp [note, hconsole]
    rw [hnote]
    exact hl.console hk hconsole hm
  | lts memory =>
    obtain ⟨hreplied, hasks⟩ := hlts _ rfl
    exact hl.lts hk (ltsMove hk') hasks hreplied
  | sts o => exact hl.sts hk (stsMove hk')
  | io => exact hl.io hk hs (ioMove hk')
  | mts i =>
    obtain ⟨t, ht, hm⟩ := mtsMove hk'
    have hnote : note k (.mts i) h = noteMts t h := by simp [note, ht]
    rw [hnote]
    exact hl.mts hk hs ht hm
  | scribble a pcb =>
    simp only [Threads.step] at hk'
    split at hk'
    · cases hk'
    next huse =>
    cases hk'
    show Ledger { k with heap := fill k.heap a pcb } h replied known ended
    refine hl.filled hk (fun b hb => ?_) rfl rfl rfl rfl rfl rfl rfl
    exact congrArg Pcb.id (fill_of_ne _ (ne_of_inUse hb (by simpa using huse)))

/-! ### Page tables -/

/-- The step is none of the long-term scheduler while it waits for a table. -/
def Unasked (k : Kernel) (e : Event) : Prop :=
  ∀ memory, e = .lts memory → ∀ pcb, k.lts ≠ .requestPageTable pcb

lemma lts_of_asks {e : Event} (hm : MoveH c k h e (k', h')) (hnot : Unasked k e) {a : Addr}
    (ha : asksFor k.lts = some a) : k'.lts = k.lts := by
  have hlts := asksFor_eq ha
  cases hm with
  | lts => exact absurd hlts (hnot _ rfl _)
  | console hs hm => cases hm <;> rfl
  | sts hm => cases hm <;> rfl
  | io hm => cases hm <;> rfl
  | mts ht hm => cases hm <;> rfl
  | _ => rfl

/-- Nobody else writes the page table of a block that is in use. -/
lemma pageTable_kept {e : Event} (hm : MoveH c k h e (k', h')) (hnot : Unasked k e) {a : Addr}
    (huse : k.inUse a = true) : (k'.heap a).pageTable = (k.heap a).pageTable := by
  have hmodify : ∀ {b : Addr} {f : Pcb → Pcb}, (∀ pcb, (f pcb).pageTable = pcb.pageTable) →
      (modify k.heap b f a).pageTable = (k.heap a).pageTable :=
    fun hf => modify_field Pcb.pageTable hf a
  have hfill : ∀ {b : Addr} (pcb : Pcb), k.inUse b = false →
      (fill k.heap b pcb a).pageTable = (k.heap a).pageTable := fun pcb hb =>
    congrArg Pcb.pageTable (fill_of_ne pcb (ne_of_inUse huse hb))
  cases hm with
  | connect => rfl
  | console hs hm =>
    cases hm with
    | setInstructions => exact hmodify fun _ => rfl
    | addPcb hpc hb => exact hfill _ hb
    | _ => rfl
  | lts hm =>
    cases hm with
    | pageTable hpc => exact absurd hpc (hnot _ rfl _)
    | setReady => exact hmodify fun _ => rfl
    | _ => rfl
  | sts hm =>
    cases hm with
    | setExecuting | setReal | setIo | reSchedule | preEmpt => exact hmodify fun _ => rfl
    | receivePcb hpc hcpu hb => exact hfill _ hb
    | _ => rfl
  | io hm =>
    cases hm with
    | setSuspendedReady | setReady => exact hmodify fun _ => rfl
    | _ => rfl
  | mts ht hm =>
    cases hm with
    | setSuspendedBlocked => exact hmodify fun _ => rfl
    | _ => rfl
  | scribble hb => exact hfill _ hb

/-- Where the admitted blocks come from: they were, or they were created, or the process comes
back from the CPU. -/
lemma admitted_of_move (hp : Placed k h) {e : Event} (hm : MoveH c k h e (k', h')) {a : Addr}
    (ha : a ∈ admitted k') : a ∈ admitted k ∨ a ∈ created k ∨ ∃ pcb, k.cpu = some pcb ∧
      (k'.heap a).id = pcb.id ∧ (k'.heap a).pageTable = pcb.pageTable := by
  obtain ⟨hk, hs⟩ := hp
  have hsub : ∀ {sts : Sts} {inUse : Addr → Bool}, stsHolds sts = none →
      a ∈ admitted { k with inUse, sts } → a ∈ admitted k := fun {sts inUse} hnone ha => by
    obtain ⟨x, -, hx⟩ := List.mem_flatMap.mp ha
    by_cases hexec : x = .execution
    · subst hexec
      simp [blocksAt, hnone] at hx
    · exact Conserved.mem_admitted (blocksAt_sts (k := k) hexec ▸ hx)
  cases hm with
  | connect => exact .inl ha
  | @console e i s _ hconsole hm =>
    cases hm with
    | @pushNew b hpc =>
      obtain ⟨x, -, hx⟩ := List.mem_flatMap.mp ha
      by_cases hnew : x = .new
      · subst hnew
        rcases List.mem_append.mp hx with hx | hx
        · exact .inl (Conserved.mem_admitted (x := .new) hx)
        · obtain rfl := List.mem_singleton.mp hx
          exact .inr (.inl (List.mem_append_right _ (List.mem_filterMap.mpr
            ⟨s, List.mem_of_getElem? hconsole, by simp [consoleHolds, hpc]⟩)))
      · refine .inl (Conserved.mem_admitted (x := x) ?_)
        cases x <;> first | exact hx | contradiction
    | _ => exact .inl ha
  | lts hm => exact .inl ((mem_congr_of_countP (shuffled_lts hm).admitted a).mp ha)
  | sts hm =>
    by_cases hmoves : (∀ a, k.sts ≠ .destroySent a) ∧ k.sts ≠ .receivePcb ∧
      ∀ a sent, k.sts ≠ .destroyPcb a sent
    · obtain ⟨hsent, hreceive, hdestroy⟩ := hmoves
      have hshuffled := shuffled_sts hm hsent hreceive hdestroy
      exact .inl ((mem_congr_of_countP hshuffled.admitted a).mp ha)
    · cases hm with
      | destroySent hpc => exact .inl (hsub rfl ha)
      | destroyPcb hpc => exact .inl (hsub rfl ha)
      | @receivePcb pcb o hpc hcpu huse =>
        obtain ⟨x, -, hx⟩ := List.mem_flatMap.mp ha
        by_cases hexec : x = .execution
        · subst hexec
          obtain rfl : a = o.addr := by simpa [blocksAt, stsHolds] using hx
          refine .inr (.inr ⟨pcb, hcpu, ?_⟩)
          show (fill _ _ _ o.addr).id = _ ∧ (fill _ _ _ o.addr).pageTable = _
          rw [fill_self]
          exact ⟨rfl, rfl⟩
        · rw [blocksAt_sts hexec] at hx
          exact .inl (Conserved.mem_admitted hx)
      | waitExecute hpc => simp [hpc] at hmoves
      | _ hpc => simp_all
  | io hm => exact .inl ((mem_congr_of_countP (shuffled_io hk hs hm).admitted a).mp ha)
  | mts ht hm => exact .inl ((mem_congr_of_countP (shuffled_mts hk hs ht hm).admitted a).mp ha)
  | scribble => exact .inl ha

/-- The blocks of processes that the memory module knows have the tables that it made for them. -/
def Tabled (k : Kernel) (tables : UInt32 → ℕ → Prop) : Prop :=
  ∀ a ∈ admitted k, asksFor k.lts ≠ some a → ∀ t, tables (k.heap a).id t →
    t = (k.heap a).pageTable.toNat

lemma Tabled.step {tables : UInt32 → ℕ → Prop} (ht : Tabled k tables) (hp : Placed k h)
    {e : Event} (hstep : stepH c (k, h) e = some (k', h')) (hnot : Unasked k e)
    (hcreated : ∀ a ∈ created k, ∀ t, ¬ tables (k.heap a).id t)
    (hcpu : ∀ pcb ∈ k.cpu, ∀ t, tables pcb.id t → t = pcb.pageTable.toNat) :
    Tabled k' tables := by
  have hm := moveH hstep
  have hasks : ∀ a, asksFor k'.lts ≠ some a → asksFor k.lts ≠ some a :=
    fun a ha hold => ha (lts_of_asks hm hnot hold ▸ hold)
  intro a ha hask t htable
  rcases admitted_of_move hp hm ha with hold | hold | ⟨pcb, hpcb, hid, htab⟩
  · have huse := hp.conserved.used a (.inr hold)
    rw [id_kept hm huse] at htable
    rw [pageTable_kept hm hnot huse]
    exact ht a hold (hasks a hask) t htable
  · rw [id_kept hm (hp.conserved.used a (.inl hold))] at htable
    exact absurd htable (hcreated a hold t)
  · rw [hid] at htable
    rw [htab]
    exact hcpu pcb hpcb t htable

end Sski.Scheduling.Ledger
