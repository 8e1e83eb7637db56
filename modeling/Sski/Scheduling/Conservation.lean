import Sski.Scheduling.Places

/-!
Every live process is somewhere, and in one place.

The processes that were pushed to NEW and not destroyed are those of the admitted blocks and
the one on the CPU. No process id is there twice, because ids are given out once.
-/

namespace Sski.Scheduling.Conservation

open Sski.Lib.Counting Sski.Scheduling.Scheduler Sski.Scheduling.Threads
open Sski.Scheduling.Moves Sski.Scheduling.History Sski.Scheduling.Places

structure Conserved (k : Kernel) (h : History) : Prop where
  /-- An id is that of a block to be made, of a created one, or of a live process. -/
  once : ∀ p, (reserved k).count p + (created k).countP (hasId k.heap p) + h.live.count p ≤ 1
  places : ∀ p, (admitted k).countP (hasId k.heap p) + (away k).count p = h.live.count p
  pool : k.pool.length = maxPids
  taken : ∀ p, 0 < (reserved k).count p + (created k).countP (hasId k.heap p) + h.live.count p →
    k.pool[p.toNat]? = some true
  used : ∀ a, a ∈ created k ∨ a ∈ admitted k → k.inUse a = true
  sent : ∀ a, k.sts = .destroySent a → k.cpu.map Pcb.id = some (k.heap a).id

variable {c : Cfg} {k k' : Kernel} {h h' : History}

lemma conserved_init (heap : Heap) : Conserved (initKernel c heap) noHistory := by
  refine ⟨fun p => ?_, fun p => ?_, by simp [initKernel], fun p hp => ?_, fun a ha => ?_,
    fun a ha => by simp [initKernel] at ha⟩
  · simp [initKernel, reserved, created, noHistory]
  · simp [countP_admitted, initKernel, ltsHolds, stsHolds, ioHolds, waitingSus, away, noHistory]
  · simp [initKernel, reserved, created, noHistory] at hp
  · simp [initKernel, created, admitted, Places.places, blocksAt, ltsHolds, stsHolds, ioHolds,
      waitingSus] at ha

/-! ### What follows from it -/

namespace Conserved

lemma le_one (hk : Conserved k h) (p : UInt32) :
    (admitted k).countP (hasId k.heap p) + (away k).count p ≤ 1 := by
  have hplaces := hk.places p
  have honce := hk.once p
  omega

/-- Blocks in two places are those of two processes. -/
lemma apart (hk : Conserved k h) {x y : Place} {a b : Addr} (hxy : x ≠ y) (ha : a ∈ blocksAt k x)
    (hb : b ∈ blocksAt k y) : (k.heap a).id ≠ (k.heap b).id := by
  intro hid
  have hle := hk.le_one (k.heap b).id
  have htwo : 2 ≤ (admitted k).countP (hasId k.heap (k.heap b).id) :=
    two_le_countP_flatMap (blocksAt k) hxy (mem_places x) (mem_places y) ha hb
      (by simpa [hasId] using hid) (by simp [hasId])
  omega

lemma ne_of_apart (hk : Conserved k h) {x y : Place} {a b : Addr} (hxy : x ≠ y)
    (ha : a ∈ blocksAt k x) (hb : b ∈ blocksAt k y) : a ≠ b :=
  fun heq => hk.apart hxy ha hb (by rw [heq])

lemma mem_admitted {x : Place} {a : Addr} (ha : a ∈ blocksAt k x) : a ∈ admitted k :=
  List.mem_flatMap.mpr ⟨x, mem_places x, ha⟩

lemma io_mem {a : Addr} (ha : ioHolds k.io = some a) : a ∈ blocksAt k .io := by
  simp [blocksAt, ha]

/-- An entry of SUSPENDED BLOCKED is a place, or is of the process that does I/O. -/
lemma io_or_waiting {a : Addr} (ha : a ∈ k.blockedSus) :
    ioHolds k.io = some a ∨ a ∈ blocksAt k .blockedSus := by
  by_cases hio : ioHolds k.io = some a
  · exact .inl hio
  · exact .inr (by simpa [blocksAt, waitingSus, ha] using hio)

lemma notMem_blockedSus (hk : Conserved k h) {x : Place} {a : Addr} (ha : a ∈ blocksAt k x)
    (hsus : x ≠ .blockedSus) (hio : x ≠ .io) : a ∉ k.blockedSus := by
  intro hmem
  rcases io_or_waiting hmem with hio' | hmem
  · exact hk.ne_of_apart hio ha (io_mem hio') rfl
  · exact hk.ne_of_apart hsus ha hmem rfl

lemma eq_of_id (hk : Conserved k h) {a b : Addr} (ha : ioHolds k.io = some a)
    (hb : b ∈ k.blockedSus) (hid : (k.heap b).id = (k.heap a).id) : b = a := by
  rcases io_or_waiting hb with hio | hb
  · exact Option.some_injective _ (hio.symm.trans ha)
  · exact absurd hid (hk.apart (by decide) hb (io_mem ha))

lemma shuffled (hk : Conserved k h) (hm : Shuffled k k') (hlive : h'.live = h.live)
    (hsent : ∀ a, k'.sts = .destroySent a → k'.cpu.map Pcb.id = some (k'.heap a).id) :
    Conserved k' h' := by
  have hid : ∀ p, hasId k'.heap p = hasId k.heap p := fun p => by
    funext a
    simp only [hasId, hm.id]
  have hcreated : ∀ p,
      (created k').countP (hasId k'.heap p) = (created k).countP (hasId k.heap p) :=
    fun p => by rw [hid, hm.created]
  refine ⟨fun p => ?_, fun p => ?_, ?_, fun p hp => ?_, fun a ha => ?_, hsent⟩
  · rw [hm.reserved, hcreated, hlive]
    exact hk.once p
  · rw [hid, hm.admitted, hm.away, hlive]
    exact hk.places p
  · rw [hm.pool]
    exact hk.pool
  · rw [hm.reserved, hcreated, hlive] at hp
    rw [hm.pool]
    exact hk.taken p hp
  · rw [hm.inUse]
    exact hk.used a (ha.imp (mem_congr_of_countP hm.created a).mp
      (mem_congr_of_countP hm.admitted a).mp)

end Conserved

/-! ### The long-term scheduler -/

lemma Conserved.lts (hk : Conserved k h) (hm : LtsMove c k k') : Conserved k' h := by
  refine hk.shuffled (shuffled_lts hm) rfl fun a ha => ?_
  have hsts : k'.sts = k.sts ∧ k'.cpu = k.cpu := by cases hm <;> exact ⟨rfl, rfl⟩
  rw [(shuffled_lts hm).id, hsts.2]
  exact hk.sent a (hsts.1 ▸ ha)

/-! ### The short-term scheduler -/

/-- Nothing else depends on what the short-term scheduler holds. -/
lemma blocksAt_sts {x : Place} (hx : x ≠ .execution) {heap : Heap} {inUse : Addr → Bool}
    {cpu : Option Pcb} {sts : Sts} :
    blocksAt { k with heap, inUse, cpu, sts } x = blocksAt k x := by
  cases x with
  | execution => exact absurd rfl hx
  | _ => rfl

lemma sts_mem {a : Addr} (ha : stsHolds k.sts = some a) : a ∈ blocksAt k .execution := by
  simp [blocksAt, ha]

lemma Conserved.created_admitted (hk : Conserved k h) {a : Addr} (ha : a ∈ created k) :
    a ∉ admitted k := by
  intro ha'
  have honce := hk.once (k.heap a).id
  have hplaces := hk.places (k.heap a).id
  have hcreated : 0 < (created k).countP (hasId k.heap (k.heap a).id) :=
    List.countP_pos_iff.mpr ⟨a, ha, by simp [hasId]⟩
  have hadmitted : 0 < (admitted k).countP (hasId k.heap (k.heap a).id) :=
    List.countP_pos_iff.mpr ⟨a, ha', by simp [hasId]⟩
  omega

/-- The short-term scheduler frees its block. The other blocks are still in use. -/
lemma Conserved.used_of_free (hk : Conserved k h) {a : Addr} {sts : Sts}
    (ha : stsHolds k.sts = some a) (hsts : stsHolds sts = none) {b : Addr}
    (hb : b ∈ created k ∨ b ∈ admitted { k with inUse := setInUse k.inUse a false, sts }) :
    setInUse k.inUse a false b = true := by
  have hne : b ≠ a ∧ k.inUse b = true := by
    rcases hb with hb | hb
    · refine ⟨?_, hk.used b (.inl hb)⟩
      rintro rfl
      exact hk.created_admitted hb (Conserved.mem_admitted (sts_mem ha))
    · obtain ⟨x, -, hx⟩ := List.mem_flatMap.mp hb
      by_cases hexec : x = .execution
      · subst hexec
        simp [blocksAt, hsts] at hx
      · rw [blocksAt_sts hexec] at hx
        exact ⟨hk.ne_of_apart hexec hx (sts_mem ha), hk.used b (.inr (Conserved.mem_admitted hx))⟩
  rw [setInUse_of_ne false hne.1]
  exact hne.2

/-- The id on the CPU is that of the block that is given up. -/
lemma Conserved.destroySent (hk : Conserved k h) {a : Addr} (hl : k.sts = .destroySent a) :
    Conserved { k with inUse := setInUse k.inUse a false, sts := .receivePcb } h := by
  obtain ⟨pcb, hcpu, hpcb⟩ := Option.map_eq_some_iff.mp (hk.sent a hl)
  refine ⟨hk.once, fun p => ?_, hk.pool, hk.taken, fun b hb => ?_, fun b hb => by cases hb⟩
  · have hplaces := hk.places p
    rw [countP_admitted] at hplaces ⊢
    simp only [hl, away, hcpu, stsHolds, waitingSus, hasId, Option.any_some, Option.any_none,
      reduceCtorEq, if_false, if_true, Option.map_some, Option.toList_some, List.count_nil,
      Bool.toNat_false, List.count_cons, hpcb] at hplaces ⊢
    cases hp : (k.heap a).id == p <;> simp [hp] at hplaces ⊢ <;> omega
  · exact hk.used_of_free (by rw [hl]; rfl) rfl hb

lemma Conserved.destroyPcb (hk : Conserved k h) {a : Addr} {sent : Bool}
    (hl : k.sts = .destroyPcb a sent) :
    Conserved { k with inUse := setInUse k.inUse a false, sts := .signalDom sent }
      { h with live := h.live.erase (k.heap a).id } := by
  have hcount : ∀ p, (h.live.erase (k.heap a).id).count p =
      h.live.count p - if (k.heap a).id == p then 1 else 0 := fun p => List.count_erase ..
  refine ⟨fun p => ?_, fun p => ?_, hk.pool, fun p hp => ?_, fun b hb => ?_,
    fun b hb => by cases hb⟩
  · have honce := hk.once p
    show (reserved k).count p + (created k).countP (hasId k.heap p) + _ ≤ 1
    rw [hcount]
    omega
  · have hplaces := hk.places p
    rw [countP_admitted] at hplaces ⊢
    rw [hcount]
    simp only [hl, away, stsHolds, waitingSus, hasId, Option.any_some, Option.any_none,
      reduceCtorEq, if_false, List.count_nil, Bool.toNat_false] at hplaces ⊢
    cases hp : (k.heap a).id == p <;> simp [hp] at hplaces ⊢ <;> omega
  · refine hk.taken p (Nat.lt_of_lt_of_le hp ?_)
    rw [hcount]
    exact Nat.add_le_add_left (Nat.sub_le _ _) _
  · exact hk.used_of_free (by rw [hl]; rfl) rfl hb

lemma countP_hasId_fill {l : List Addr} {a : Addr} (huse : k.inUse a = false)
    (hl : ∀ b ∈ l, k.inUse b = true) (pcb : Pcb) (p : UInt32) :
    l.countP (hasId (fill k.heap a pcb) p) = l.countP (hasId k.heap p) := by
  refine List.countP_congr fun b hb => ?_
  have hne : b ≠ a := by
    rintro rfl
    rw [hl b hb] at huse
    cases huse
  rw [hasId, hasId, fill_of_ne _ hne]

/-- A process comes back from the CPU, into a new block. -/
lemma Conserved.receivePcb (hk : Conserved k h) {pcb : Pcb} {o : Outside}
    (hl : k.sts = .receivePcb) (hcpu : k.cpu = some pcb) (huse : k.inUse o.addr = false) :
    Conserved { k with
      heap := fill k.heap o.addr (received pcb o (k.heap o.addr))
      inUse := setInUse k.inUse o.addr true
      cpu := none
      sts := .setReal o.addr o.ioTime } h := by
  have hkeep := countP_hasId_fill huse (fun b hb => hk.used b (.inl hb))
    (received pcb o (k.heap o.addr))
  refine ⟨fun p => ?_, fun p => ?_, hk.pool, fun p hp => ?_, fun b hb => ?_,
    fun b hb => by cases hb⟩
  · show (reserved k).count p + (created k).countP _ + _ ≤ 1
    rw [hkeep]
    exact hk.once p
  · have hplaces := hk.places p
    have hadmitted := countP_hasId_fill huse (fun b hb => hk.used b (.inr hb))
      (received pcb o (k.heap o.addr)) p
    rw [countP_admitted] at hadmitted ⊢
    simp only [hl, stsHolds, Option.any_none, Option.any_some, Bool.toNat_false, waitingSus, away,
      reduceCtorEq, if_false, List.count_nil] at hadmitted ⊢
    simp only [away, hl, hcpu, if_true, Option.map_some, Option.toList_some, List.count_cons,
      List.count_nil] at hplaces
    have hnew : (hasId (fill k.heap o.addr (received pcb o (k.heap o.addr))) p o.addr).toNat =
        if pcb.id == p then 1 else 0 := by
      rw [hasId, fill_self]
      cases h : pcb.id == p <;> simp [received, h]
    omega
  · refine hk.taken p ?_
    rw [← hkeep]
    exact hp
  · show setInUse k.inUse o.addr true b = true
    by_cases hne : b = o.addr
    · rw [hne, setInUse_self]
    rw [setInUse_of_ne _ hne]
    refine hk.used b (hb.imp id fun hb => ?_)
    obtain ⟨x, -, hx⟩ := List.mem_flatMap.mp hb
    by_cases hexec : x = .execution
    · subst hexec
      exact absurd (by simpa [blocksAt, stsHolds] using hx) hne
    · rw [blocksAt_sts hexec] at hx
      exact Conserved.mem_admitted hx

lemma Conserved.sts (hk : Conserved k h) (hm : StsMove c k k') : Conserved k' (noteSts k h) := by
  by_cases hmoves : (∀ a, k.sts ≠ .destroySent a) ∧ k.sts ≠ .receivePcb ∧
    ∀ a sent, k.sts ≠ .destroyPcb a sent
  · obtain ⟨hsent, hreceive, hdestroy⟩ := hmoves
    have hshuffled := shuffled_sts hm hsent hreceive hdestroy
    refine hk.shuffled hshuffled ?_ fun a ha => ?_
    · unfold noteSts
      split <;> first | rfl | exact absurd ‹_› (hdestroy _ _)
    · cases hm with
      | sendPcb hl =>
        cases ha
        rfl
      | waitExecute hl hn hnext => rcases hnext with ⟨-, rfl⟩ | ⟨-, rfl⟩ <;> cases ha
      | signalDom hl hsts => rcases hsts with rfl | rfl <;> cases ha
      | _ => cases ha
  · cases hm with
    | destroySent hl => simpa [noteSts, hl] using hk.destroySent hl
    | receivePcb hl hcpu huse => simpa [noteSts, hl] using hk.receivePcb hl hcpu huse
    | destroyPcb hl => simpa [noteSts, hl] using hk.destroyPcb hl
    | waitExecute hl => simp [hl] at hmoves
    | _ hl => simp_all

/-! ### Consoles -/

lemma Conserved.id_fill (hk : Conserved k h) {a b : Addr} {pcb : Pcb} (huse : k.inUse b = false)
    (ha : k.sts = .destroySent a) : (fill k.heap b pcb a).id = (k.heap a).id := by
  have hne : a ≠ b := by
    rintro rfl
    have hmem : a ∈ blocksAt k .execution := sts_mem (by rw [ha]; rfl)
    rw [hk.used a (.inr (Conserved.mem_admitted hmem))] at huse
    cases huse
  rw [fill_of_ne _ hne]

section Consoles

variable {i : ℕ} {s : Console}

lemma Conserved.getPidLibre (hk : Conserved k h) (hs : k.consoles[i]? = some s) {size : UInt32}
    {j : ℕ} (hl : s.pc = .getPidLibre size) (hj : k.pool[j]? = some false) :
    Conserved { k with
      pool := k.pool.set j true
      consoles := k.consoles.set i ⟨UInt32.ofNat j, .addPcb size⟩ } h := by
  have hlt := lt_maxPids hk.pool hj
  have htoNat := toNat_ofNat_of_lt hlt
  have hfree : ¬ 0 < (reserved k).count (UInt32.ofNat j) +
      (created k).countP (hasId k.heap (UInt32.ofNat j)) + h.live.count (UInt32.ofNat j) := by
    intro hpos
    have htaken := hk.taken _ hpos
    rw [htoNat, hj] at htaken
    cases htaken
  have hreserved : ∀ p, ((k.consoles.set i ⟨UInt32.ofNat j, .addPcb size⟩).filterMap
      consoleReserves).count p = (reserved k).count p + (UInt32.ofNat j == p).toNat := fun p => by
    simpa [consoleReserves, hl] using count_reserved_set hs ⟨UInt32.ofNat j, .addPcb size⟩ p
  have hcreated : ∀ P, (created { k with
      pool := k.pool.set j true
      consoles := k.consoles.set i ⟨UInt32.ofNat j, .addPcb size⟩ }).countP P =
        (created k).countP P := fun P => by
    rw [countP_created, countP_created, Nat.add_left_cancel_iff]
    exact countP_holds_keep hs (by simp [consoleHolds, hl]) P
  refine ⟨fun p => ?_, hk.places, by simpa using hk.pool, fun p hp => ?_, fun a ha => ?_, hk.sent⟩
  · have honce := hk.once p
    rw [hcreated]
    show (List.filterMap _ _).count p + _ + _ ≤ 1
    rw [hreserved]
    by_cases hp : UInt32.ofNat j = p
    · subst hp
      simp only [beq_self_eq_true, Bool.toNat_true]
      omega
    · rw [beq_eq_false_iff_ne.mpr hp]
      exact honce
  · rw [hcreated] at hp
    change 0 < (List.filterMap _ _).count p + _ + _ at hp
    rw [hreserved] at hp
    show (k.pool.set j true)[p.toNat]? = some true
    by_cases heq : UInt32.ofNat j = p
    · rw [← heq, htoNat, List.getElem?_set_self (by rw [hk.pool]; exact hlt)]
    · have hne : j ≠ p.toNat := by
        rintro rfl
        exact heq (by simp)
      rw [List.getElem?_set_ne hne]
      rw [beq_eq_false_iff_ne.mpr heq] at hp
      exact hk.taken p hp
  · exact hk.used a (ha.imp (mem_congr_of_countP hcreated a).mp id)

lemma pool_of_undefined (hpool : k.pool.length = maxPids) {pool : List Bool} {pid : UInt32}
    (hget : Threads.getPidLibre k.pool = (pool, pid)) (hpid : pid = undefined) :
    pool = k.pool := by
  rcases getPidLibre_cases k.pool with ⟨j, hfree, hfree_eq⟩ | ⟨-, hnone⟩
  · rw [hfree_eq] at hget
    obtain ⟨rfl, rfl⟩ := Prod.mk.inj hget
    exact absurd hpid (ofNat_ne_undefined (lt_maxPids hpool hfree))
  · rw [hnone] at hget
    exact (Prod.mk.inj hget).1.symm

lemma Conserved.getPidLibreNone (hk : Conserved k h) (hs : k.consoles[i]? = some s)
    {size : UInt32} (hl : s.pc = .getPidLibre size) {pid : UInt32} :
    Conserved { k with consoles := k.consoles.set i ⟨pid, .receive⟩ } h := by
  refine hk.shuffled ⟨fun _ => rfl, rfl, rfl, fun p => ?_, fun P => ?_, fun _ => rfl, rfl⟩ rfl
    hk.sent
  · exact count_reserved_keep hs (by simp [consoleReserves, hl]) rfl p
  · rw [countP_created, countP_created, Nat.add_left_cancel_iff]
    exact countP_holds_keep hs (by simp [consoleHolds, hl]) P

lemma Conserved.addPcb (hk : Conserved k h) (hs : k.consoles[i]? = some s) {size : UInt32}
    {addr : Addr} {estimation : UInt32} (hl : s.pc = .addPcb size) (huse : k.inUse addr = false) :
    Conserved { k with
      heap := fill k.heap addr (newPcb s.senderPid size estimation)
      inUse := setInUse k.inUse addr true
      pcbs := k.pcbs ++ [addr]
      consoles := k.consoles.set i ⟨s.senderPid, .receive⟩ } h := by
  set k' : Kernel := { k with
    heap := fill k.heap addr (newPcb s.senderPid size estimation)
    inUse := setInUse k.inUse addr true
    pcbs := k.pcbs ++ [addr]
    consoles := k.consoles.set i ⟨s.senderPid, .receive⟩ } with hk'
  have hreserved : ∀ p, (reserved k').count p + (s.senderPid == p).toNat =
      (reserved k).count p := fun p => by
    have hset := count_reserved_set hs ⟨s.senderPid, .receive⟩ p
    simp only [consoleReserves, hl, Option.any_some, Option.any_none, Bool.toNat_false,
      Nat.add_zero] at hset
    exact hset
  have hcreated : ∀ P, (created k').countP P = (created k).countP P + (P addr).toNat := fun P => by
    have hnone : consoleHolds ⟨s.senderPid, .receive⟩ = consoleHolds s := by
      simp [consoleHolds, hl]
    have hholds := countP_holds_keep hs hnone P
    rw [countP_created, countP_created, hk']
    dsimp only
    rw [hholds, List.countP_append, countP_cons_toNat, List.countP_nil]
    omega
  have hids : ∀ p, (created k').countP (hasId k'.heap p) =
      (created k).countP (hasId k.heap p) + (s.senderPid == p).toNat := fun p => by
    rw [hcreated, hk', countP_hasId_fill huse fun b hb => hk.used b (.inl hb)]
    simp [hasId, newPcb]
  have hsum : ∀ p, (reserved k').count p + (created k').countP (hasId k'.heap p) =
      (reserved k).count p + (created k).countP (hasId k.heap p) := fun p => by
    rw [hids]
    have hr := hreserved p
    omega
  refine ⟨fun p => ?_, fun p => ?_, hk.pool, fun p hp => ?_, fun a ha => ?_, fun a ha => ?_⟩
  · rw [hsum]
    exact hk.once p
  · rw [← hk.places p]
    show (admitted k).countP (hasId (fill _ _ _) p) + _ = _
    rw [countP_hasId_fill huse fun b hb => hk.used b (.inr hb)]
    rfl
  · rw [hsum] at hp
    exact hk.taken p hp
  · show setInUse k.inUse addr true a = true
    by_cases hne : a = addr
    · rw [hne, setInUse_self]
    rw [setInUse_of_ne _ hne]
    refine hk.used a (ha.imp (fun ha => ?_) id)
    have hpos := List.count_pos_iff.mpr ha
    rw [List.count_eq_countP, hcreated, beq_eq_false_iff_ne.mpr (Ne.symm hne)] at hpos
    refine List.count_pos_iff.mp ?_
    rw [List.count_eq_countP]
    exact hpos
  · rw [hk.sent a ha, hk', hk.id_fill huse ha]

lemma Conserved.pushNew (hk : Conserved k h) (hs : k.consoles[i]? = some s) {a : Addr}
    (hl : s.pc = .pushNew a) :
    Conserved { k with
      new := k.new ++ [a]
      consoles := k.consoles.set i ⟨s.senderPid, .signalReqAdmit⟩ }
      { h with live := (k.heap a).id :: h.live } := by
  set k' : Kernel := { k with
    new := k.new ++ [a]
    consoles := k.consoles.set i ⟨s.senderPid, .signalReqAdmit⟩ } with hk'
  have hreserved : ∀ p, (reserved k').count p = (reserved k).count p :=
    count_reserved_keep hs (by simp [consoleReserves, hl]) rfl
  have hcreated : ∀ P, (created k').countP P + (P a).toNat = (created k).countP P := fun P => by
    have hset := countP_holds_set hs ⟨s.senderPid, .signalReqAdmit⟩ P
    have hsome : consoleHolds s = some a := by simp [consoleHolds, hl]
    have hnone : consoleHolds ⟨s.senderPid, .signalReqAdmit⟩ = none := rfl
    simp only [hsome, hnone, Option.any_some, Option.any_none, Bool.toNat_false] at hset
    rw [countP_created, countP_created, hk']
    dsimp only
    omega
  have hadmitted : ∀ P, (admitted k').countP P = (admitted k).countP P + (P a).toNat := fun P => by
    rw [countP_admitted, countP_admitted, hk']
    simp only [List.countP_append, countP_cons_toNat, List.countP_nil, waitingSus]
    omega
  have hlive : ∀ p, ((k.heap a).id :: h.live).count p = h.live.count p + (hasId k.heap p a).toNat :=
    fun p => by rw [List.count_eq_countP, countP_cons_toNat, List.count_eq_countP, hasId]
  have hsum : ∀ p, (reserved k').count p + (created k').countP (hasId k'.heap p) +
      ((k.heap a).id :: h.live).count p =
        (reserved k).count p + (created k).countP (hasId k.heap p) + h.live.count p := fun p => by
    have hc := hcreated (hasId k.heap p)
    rw [hreserved, hlive]
    show _ + (created k').countP (hasId k.heap p) + _ = _
    omega
  have ha : a ∈ created k := List.mem_append_right _
    (List.mem_filterMap.mpr ⟨s, List.mem_of_getElem? hs, by simp [consoleHolds, hl]⟩)
  refine ⟨fun p => ?_, fun p => ?_, hk.pool, fun p hp => ?_, fun b hb => ?_, hk.sent⟩
  · rw [hsum]
    exact hk.once p
  · show (admitted k').countP (hasId k.heap p) + (away k).count p = _
    rw [hadmitted, hlive, ← hk.places p]
    omega
  · rw [hsum] at hp
    exact hk.taken p hp
  · show k.inUse b = true
    by_cases hne : b = a
    · subst hne
      exact hk.used b (.inl ha)
    have hzero : (a == b).toNat = 0 := by rw [beq_eq_false_iff_ne.mpr (Ne.symm hne)]; rfl
    refine hk.used b (hb.imp (fun hb => ?_) fun hb => ?_)
    all_goals
      have hpos := List.count_pos_iff.mpr hb
      rw [List.count_eq_countP] at hpos
      refine List.count_pos_iff.mp ?_
      rw [List.count_eq_countP]
    · have hc := hcreated (· == b)
      omega
    · have hc := hadmitted (· == b)
      omega

lemma Conserved.console (hk : Conserved k h) (hs : k.consoles[i]? = some s)
    (hm : ConsoleMove c k i s k') : Conserved k' (noteConsole k s h) := by
  by_cases hmoves : (∀ size, s.pc ≠ .getPidLibre size) ∧ (∀ size, s.pc ≠ .addPcb size) ∧
    ∀ a, s.pc ≠ .pushNew a
  · obtain ⟨hget, hadd, hpush⟩ := hmoves
    have hshuffled := shuffled_console hs hm hget hadd hpush
    refine hk.shuffled hshuffled ?_ fun a ha => ?_
    · unfold noteConsole
      split
      · exact absurd ‹_› (hpush _)
      · rfl
    · have hsame : k'.sts = k.sts ∧ k'.cpu = k.cpu := by cases hm <;> exact ⟨rfl, rfl⟩
      rw [hshuffled.id, hsame.2]
      exact hk.sent a (hsame.1 ▸ ha)
  · cases hm with
    | getPidLibre hl hj => simpa [noteConsole, hl] using hk.getPidLibre hs hl hj
    | getPidLibreNone hl hget hpid =>
      obtain rfl := pool_of_undefined hk.pool hget hpid
      simpa [noteConsole, hl] using hk.getPidLibreNone hs hl
    | addPcb hl huse => simpa [noteConsole, hl] using hk.addPcb hs hl huse
    | pushNew hl => simpa [noteConsole, hl] using hk.pushNew hs hl
    | _ hl => simp_all

lemma Conserved.connect (hk : Conserved k h) :
    Conserved { k with consoles := k.consoles ++ [⟨0, .receive⟩] } h := by
  refine hk.shuffled ⟨fun _ => rfl, rfl, rfl, fun p => ?_, fun P => ?_, fun _ => rfl, rfl⟩ rfl
    hk.sent
  · rw [reserved, List.filterMap_append, List.count_append]
    rfl
  · rw [countP_created, countP_created, List.countP_append]
    rfl

end Consoles

lemma Conserved.scribble (hk : Conserved k h) {a : Addr} {pcb : Pcb} (huse : k.inUse a = false) :
    Conserved { k with heap := fill k.heap a pcb } h := by
  have hcreated := countP_hasId_fill huse (fun b hb => hk.used b (.inl hb)) pcb
  have hadmitted := countP_hasId_fill huse (fun b hb => hk.used b (.inr hb)) pcb
  refine ⟨fun p => ?_, fun p => ?_, hk.pool, fun p hp => ?_, hk.used, fun b hb => ?_⟩
  · show (reserved k).count p + (created k).countP _ + _ ≤ 1
    rw [hcreated]
    exact hk.once p
  · show (admitted k).countP _ + _ = _
    rw [hadmitted]
    exact hk.places p
  · refine hk.taken p ?_
    rw [← hcreated]
    exact hp
  · rw [hk.sent b hb, hk.id_fill huse hb]

/-! ### Ids -/

/-- Nobody writes to the id of a block that is in use. -/
lemma id_kept {e : Event} (hm : MoveH c k h e (k', h')) {a : Addr} (huse : k.inUse a = true) :
    (k'.heap a).id = (k.heap a).id := by
  have hfill : ∀ {b : Addr} (pcb : Pcb), k.inUse b = false →
      (fill k.heap b pcb a).id = (k.heap a).id := fun {b} pcb hb => by
    have hne : a ≠ b := by
      rintro rfl
      rw [huse] at hb
      cases hb
    rw [fill_of_ne _ hne]
  cases hm with
  | connect => rfl
  | console hs hm =>
    cases hm with
    | setInstructions => exact modify_field Pcb.id (by intro; rfl) a
    | addPcb hl hb => exact hfill _ hb
    | _ => rfl
  | lts hm => exact (shuffled_lts hm).id a
  | sts hm =>
    cases hm with
    | setExecuting => exact setStatus_id _ _ _ _
    | setReal | setIo | reSchedule | preEmpt => exact modify_field Pcb.id (by intro; rfl) a
    | receivePcb hl hcpu hb => exact hfill _ hb
    | _ => rfl
  | io hm =>
    cases hm with
    | setSuspendedReady | setReady => exact setStatus_id _ _ _ _
    | _ => rfl
  | mts ht hm =>
    cases hm with
    | setSuspendedBlocked => exact setStatus_id _ _ _ _
    | _ => rfl
  | scribble hb => exact hfill _ hb

lemma countP_hasId_kept {e : Event} (hm : MoveH c k h e (k', h')) {l : List Addr}
    (hl : ∀ a ∈ l, k.inUse a = true) (p : UInt32) :
    l.countP (hasId k'.heap p) = l.countP (hasId k.heap p) :=
  List.countP_congr fun a ha => by rw [hasId, hasId, id_kept hm (hl a ha)]

end Sski.Scheduling.Conservation
