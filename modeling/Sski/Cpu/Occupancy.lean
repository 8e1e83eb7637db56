import Sski.Lib.Counting
import Sski.Cpu.Server

/-!
Who has the CPU. The semaphore `cpu_in_use` stands for the pointer `g_cpu.pcb`: its one token is
in the semaphore, with the handler that is about to load a block, with the block, or with the
main loop that has just given it up. So a block is loaded only when there is none, and the TLB
knows no pages but those of the block that is there; the tokens of `pcb_received` do not matter,
and there may be too many of them.
-/

namespace Sski.Cpu.Occupancy

open Sski.Lib.Runs Sski.Lib.Counting
open Sski.Cpu.Tlb Sski.Cpu.Mmu Sski.Cpu.Server

/-! ### What happens to the CPU -/

inductive Transfer where
  | loaded (p : Process)
  | returned (p : Process)
  deriving DecidableEq, Repr

def transfer : Option Process → Transfer → Option (Option Process)
  | none, .loaded p => some (some p)
  | some p, .returned q => if p = q then some none else none
  | _, _ => none

/-- Who has the CPU after all of them: each process that was loaded has been returned once
before the next one was loaded. -/
def occupant (transfers : List Transfer) : Option (Option Process) :=
  transfers.foldlM transfer none

lemma occupant_append {transfers : List Transfer} {p : Option Process}
    (h : occupant transfers = some p) (x : Transfer) :
    occupant (transfers ++ [x]) = transfer p x := by
  simp only [occupant] at h
  simp [occupant, List.foldlM_append, h]

structure Stay where
  transfers : List Transfer
  /-- How many blocks were loaded. -/
  stay : ℕ
  /-- For each entry of the TLB, during whose stay it was inserted. -/
  inserted : ℕ → ℕ

def noStay : Stay := ⟨[], 0, fun _ => 0⟩

def process (pcb : Pcb) : Process := ⟨pcb.id, pcb.pageTable.toNat⟩

variable (t : TlbCfg) (pageSize : ℕ)

def Stay.access (w : Stay) (tlb : State) (logicalAddress : ℕ) : Stay :=
  match pageInTlb tlb (getPageNumber logicalAddress pageSize) with
  | (_, some _) => w
  | (tlb, none) =>
    match slot t tlb with
    | none => w
    | some i => { w with inserted := fun j => if j = i then w.stay else w.inserted j }

def noteHandler (pc : Handler) (w : Stay) : Stay :=
  match pc with
  | .setPcb pcb =>
    { w with transfers := w.transfers ++ [.loaded (process pcb)], stay := w.stay + 1 }
  | _ => w

def noteMain (s : Cpu) (w : Stay) : Stay :=
  match s.main with
  | .fetchOperands instruction => w.access t pageSize s.tlb instruction.param1.toNat
  | .execute instruction =>
    if accessesMemory instruction then w.access t pageSize s.tlb instruction.param0.toNat else w
  | .sendPcb _ _ =>
    match s.pcb with
    | some pcb => { w with transfers := w.transfers ++ [.returned (process pcb)] }
    | none => w
  | _ => w

def note (s : Cpu) : Event → Stay → Stay
  | .handler i, w =>
    match s.handlers[i]? with
    | some pc => noteHandler pc w
    | none => w
  | .main _, w => noteMain t pageSize s w
  | _, w => w

abbrev stepW := watched (step t pageSize) (note t pageSize)

/-! ### Who holds the token -/

/-- The handler has the CPU for a block that it has not loaded yet. -/
def loads : Handler → Bool
  | .setPcb _ => true
  | _ => false

/-- The main loop has given a block up, and still has the CPU. -/
def signals : Main → Bool
  | .signalCpuInUse _ => true
  | _ => false

def works : Main → Bool
  | .testInterruption | .fetch | .fetchOperands _ | .execute _ | .setReady | .resetTlb _ _
  | .sendPcb _ _ | .resetTlbSent _ | .clearPcb _ => true
  | _ => false

def sent : Main → Bool
  | .resetTlbSent _ | .clearPcb _ => true
  | _ => false

def clears : Main → Bool
  | .clearPcb _ => true
  | _ => false

def running (s : Cpu) : Option Process := if sent s.main then none else s.pcb.map process

structure Token (s : Cpu) : Prop where
  token : s.cpuInUse + s.handlers.countP loads + s.pcb.isSome.toNat + (signals s.main).toNat = 1
  loaded : works s.main = true → s.pcb ≠ none

structure Held (s : Cpu) (w : Stay) : Prop extends Token s where
  transfers : occupant w.transfers = some (running s)
  empty : s.pcb = none ∨ clears s.main = true → ∀ x ∈ pairs s.tlb, x.1 = paginaVacia
  inserted : ∀ i x, (pairs s.tlb)[i]? = some x → x.1 ≠ paginaVacia → w.inserted i = w.stay

variable {t pageSize} {s s' : Cpu} {w : Stay} {i : ℕ} {pc : Handler}

lemma pairs_tlbReset (tlb : State) : ∀ x ∈ pairs (tlbReset t tlb), x.1 = paginaVacia := by
  intro x hx
  simp only [pairs, tlbReset, emptyEntries, List.map_replicate, List.mem_replicate] at hx
  rw [hx.2]
  rfl

lemma inserted_of_empty {l : List (ℕ × ℕ)} (h : ∀ x ∈ l, x.1 = paginaVacia) (P : ℕ → Prop) :
    ∀ i x, l[i]? = some x → x.1 ≠ paginaVacia → P i :=
  fun _ x hx hne => absurd (h x (List.mem_of_getElem? hx)) hne

lemma inserted_translate {tlb tlb' : State} {a frame : ℕ}
    (h : translateAddress t pageSize tlb a frame = some tlb')
    (hins : ∀ i x, (pairs tlb)[i]? = some x → x.1 ≠ paginaVacia → w.inserted i = w.stay) :
    ∀ i x, (pairs tlb')[i]? = some x → x.1 ≠ paginaVacia →
      (w.access t pageSize tlb a).inserted i = (w.access t pageSize tlb a).stay := by
  intro j x hx hne
  have hpairs := pairs_pageInTlb tlb (getPageNumber a pageSize)
  unfold translateAddress at h
  split at h
  · cases h
  simp only [Stay.access]
  rcases hfind : pageInTlb tlb (getPageNumber a pageSize) with ⟨found, _ | value⟩ <;>
    rw [hfind] at hpairs <;> simp only [hfind] at h ⊢
  · obtain ⟨k, hk, hlt, hset⟩ := replace_eq_some t h
    rw [hset, hpairs] at hx
    simp only [hk]
    by_cases hjk : j = k
    · simp [hjk]
    · rw [if_neg hjk]
      refine hins j x ?_ hne
      rwa [List.getElem?_set_ne (Ne.symm hjk)] at hx
  · -- a hit changes no pair
    cases h
    exact hins j x (by simpa [← hpairs] using hx) hne

lemma access_transfers (w : Stay) (tlb : State) (a : ℕ) :
    (w.access t pageSize tlb a).transfers = w.transfers := by
  unfold Stay.access
  repeat' split
  all_goals rfl

lemma token_init : Token (initCpu t) := ⟨rfl, nofun⟩

lemma held_init : Held (initCpu t) noStay :=
  ⟨token_init, rfl, fun _ => pairs_tlbReset (tlbInit t),
    inserted_of_empty (pairs_tlbReset (tlbInit t)) _⟩

/-! ### The token goes around -/

lemma Token.pcb_eq_none (h : Token s) (hi : s.handlers[i]? = some pc) (hpc : loads pc = true) :
    s.pcb = none := by
  have hpos : 0 < s.handlers.countP loads :=
    List.countP_pos_iff.mpr ⟨pc, List.mem_of_getElem? hi, hpc⟩
  have htok := h.token
  rcases Option.eq_none_or_eq_some s.pcb with hpcb | ⟨pcb, hpcb⟩
  · exact hpcb
  · rw [hpcb, Option.isSome_some, Bool.toNat_true] at htok
    omega

lemma Token.pcb_eq_none_of_signals (h : Token s) (hm : signals s.main = true) : s.pcb = none := by
  have htok := h.token
  rcases Option.eq_none_or_eq_some s.pcb with hpcb | ⟨pcb, hpcb⟩
  · exact hpcb
  · rw [hpcb, hm, Option.isSome_some, Bool.toNat_true] at htok
    omega

lemma Token.works_eq_false (h : Token s) (hpcb : s.pcb = none) : works s.main = false := by
  rw [Bool.eq_false_iff]
  exact fun hw => h.loaded hw hpcb

lemma countP_loads_set {pc' : Handler} (hi : s.handlers[i]? = some pc) (h : loads pc = false)
    (h' : loads pc' = false) : (s.handlers.set i pc').countP loads = s.handlers.countP loads := by
  simpa [h, h'] using countP_set_toNat (p := loads) pc' hi

lemma Token.handler (h : Token s) (hi : s.handlers[i]? = some pc) (hm : HandlerMove s i pc s') :
    Token s' := by
  have hset := fun pc' => countP_set_toNat (p := loads) pc' hi
  have hnone := h.pcb_eq_none hi
  obtain ⟨htok, hloaded⟩ := h
  cases hm with
  | receiveOther hpc => exact ⟨htok, hloaded⟩
  | receiveInt hpc | receivePcb hpc | interrupts hpc | ignores hpc | setInterruption hpc
  | signalPcbReceived hpc =>
    subst hpc
    refine ⟨?_, hloaded⟩
    dsimp only
    rwa [countP_loads_set hi rfl rfl]
  | waitCpuInUse hpc hn =>
    -- the token goes from the semaphore to the handler
    subst hpc
    rename_i pcb n
    refine ⟨?_, hloaded⟩
    have hset := hset (.setPcb pcb)
    simp only [loads, Bool.toNat_false, Bool.toNat_true, hn] at hset htok ⊢
    omega
  | setPcb hpc =>
    -- and from the handler to the block
    subst hpc
    refine ⟨?_, fun _ => nofun⟩
    have hset := hset .signalPcbReceived
    simp only [loads, hnone rfl, Bool.toNat_false, Bool.toNat_true, Option.isSome_none,
      Option.isSome_some] at hset htok ⊢
    omega

lemma Token.goOn (h : Token s) (huse : s'.cpuInUse = s.cpuInUse)
    (hhandlers : s'.handlers = s.handlers) (hpcb : s'.pcb.isSome = s.pcb.isSome)
    (hsignals : signals s'.main = signals s.main) (hworks : works s'.main = true → s.pcb ≠ none) :
    Token s' := by
  refine ⟨?_, fun hw hnone => hworks hw ?_⟩
  · rw [huse, hhandlers, hpcb, hsignals]
    exact h.token
  · simpa [hnone] using hpcb

lemma Token.main (h : Token s) (hm : MainMove t pageSize s s') : Token s' := by
  have hloaded := h.loaded
  cases hm with
  | waitPcbReceived hl | noPcb hl | testNull hl | clearInterruption hl | executeAccess hl
  | executeNothing hl =>
    try rcases hl with hl | hl
    all_goals exact h.goOn rfl rfl rfl (by rw [hl]; rfl) nofun
  | testPcb hl hpcb => exact h.goOn rfl rfl rfl (by rw [hl]; rfl) (by simp [hpcb])
  | interrupted hl | uninterrupted hl | resetTlb hl | resetTlbSent hl | sendPcb hl =>
    exact h.goOn rfl rfl rfl (by rw [hl]; rfl) fun _ => hloaded (by rw [hl]; rfl)
  | fetch hl hpcb hmain =>
    rcases hmain with rfl | ⟨i, rfl | rfl⟩
    all_goals exact h.goOn rfl rfl (by rw [hpcb]; rfl) (by rw [hl]; rfl) (by simp [hpcb])
  | fetchOperands hl hpcb | executeIo hl hpcb | executeExit hl hpcb | setReady hl hpcb =>
    exact h.goOn rfl rfl (by rw [hpcb]; rfl) (by rw [hl]; rfl) (by simp [hpcb])
  | sendNothing hl hpcb => exact absurd hpcb (hloaded (by rw [hl]; rfl))
  | clearPcb hl =>
    -- the token goes from the block to the main loop
    have htok := h.token
    rw [hl, Option.isSome_iff_ne_none.mpr (hloaded (by rw [hl]; rfl))] at htok
    exact ⟨htok, nofun⟩
  | signalCpuInUse hl =>
    -- and from the main loop to the semaphore
    rename_i b
    have htok := h.token
    rw [hl, show signals (.signalCpuInUse b) = true from rfl, Bool.toNat_true] at htok
    cases b <;> refine ⟨?_, nofun⟩
    · simp only [afterReturn, signals, Bool.false_eq_true, if_false, Bool.toNat_false]
      omega
    · simp only [afterReturn, signals, if_true, Bool.toNat_false]
      omega

lemma Token.step {e : Event} (h : Token s) (hs : step t pageSize s e = some s') : Token s' := by
  cases move hs with
  | connect =>
    refine ⟨?_, h.loaded⟩
    simpa [loads] using h.token
  | handler _ hi hm => exact h.handler hi hm
  | main hm => exact h.main hm

/-! ### Blocks and pages -/

lemma sent_of_works {m : Main} (h : works m = false) : sent m = false := by
  cases m <;> first | rfl | cases h

lemma Held.handler (h : Held s w) (hi : s.handlers[i]? = some pc) (hm : HandlerMove s i pc s') :
    Held s' (noteHandler pc w) := by
  have htoken := h.toToken.handler hi hm
  obtain ⟨htok, htr, hempty, hins⟩ := h
  cases hm with
  | receiveOther hpc | receiveInt hpc | receivePcb hpc | interrupts hpc | ignores hpc
  | setInterruption hpc | signalPcbReceived hpc | waitCpuInUse hpc =>
    subst hpc
    exact ⟨htoken, htr, hempty, hins⟩
  | setPcb hpc =>
    subst hpc
    have hnone := htok.pcb_eq_none hi rfl
    have hmain := htok.works_eq_false hnone
    refine ⟨htoken, ?_, fun _ => hempty (.inl hnone), inserted_of_empty (hempty (.inl hnone)) _⟩
    rw [noteHandler, occupant_append htr]
    simp [running, sent_of_works hmain, hnone, transfer]

lemma Held.goOn (h : Held s w) (htoken : Token s')
    (hpcb : s'.pcb.map process = s.pcb.map process) (htlb : s'.tlb = s.tlb)
    (hsent : sent s'.main = sent s.main)
    (hclears : clears s'.main = true → ∀ x ∈ pairs s.tlb, x.1 = paginaVacia) : Held s' w := by
  have hnone : s'.pcb = none ↔ s.pcb = none := by
    rw [← Option.map_eq_none_iff (f := process), hpcb, Option.map_eq_none_iff]
  refine ⟨htoken, ?_, ?_, ?_⟩
  · rw [h.transfers, running, running, hsent, hpcb]
  · rw [htlb, hnone]
    exact fun hc => hc.elim (fun hc => h.empty (.inl hc)) hclears
  · rw [htlb]
    exact h.inserted

lemma Held.reset (h : Held s w) : Held { s with tlb := tlbReset t s.tlb } w :=
  ⟨⟨h.token, h.loaded⟩, h.transfers, fun _ => pairs_tlbReset s.tlb,
    inserted_of_empty (pairs_tlbReset s.tlb) _⟩

lemma Held.translate {tlb : State} {a frame : ℕ} (h : Held s w) (hw : works s.main = true)
    (hc : clears s.main = false) (htlb : translateAddress t pageSize s.tlb a frame = some tlb) :
    Held { s with tlb } (w.access t pageSize s.tlb a) where
  token := h.token
  loaded := h.loaded
  transfers := by
    rw [access_transfers]
    exact h.transfers
  empty := fun he => by
    rcases he with he | he
    · exact absurd he (h.loaded hw)
    · simp [hc] at he
  inserted := inserted_translate htlb h.inserted

lemma Held.main (h : Held s w) (hm : MainMove t pageSize s s') :
    Held s' (noteMain t pageSize s w) := by
  have htoken := h.toToken.main hm
  cases hm with
  | waitPcbReceived hl | noPcb hl | testNull hl | clearInterruption hl | testPcb hl
  | interrupted hl | uninterrupted hl =>
    try rcases hl with hl | hl
    all_goals
      rw [noteMain, hl]
      exact h.goOn htoken rfl rfl (by rw [hl]; rfl) nofun
  | fetch hl hpcb hmain =>
    rw [noteMain, hl]
    rcases hmain with rfl | ⟨i, rfl | rfl⟩
    all_goals exact h.goOn htoken (by rw [hpcb]; rfl) rfl (by rw [hl]; rfl) nofun
  | fetchOperands hl hpcb htlb =>
    rw [noteMain, hl]
    have htr := h.translate (by rw [hl]; rfl) (by rw [hl]; rfl) htlb
    exact htr.goOn htoken (by rw [hpcb]; rfl) rfl (by rw [hl]; rfl) nofun
  | executeAccess hl hpcb hacc htlb =>
    rw [noteMain, hl]
    dsimp only
    rw [if_pos hacc]
    have htr := h.translate (by rw [hl]; rfl) (by rw [hl]; rfl) htlb
    exact htr.goOn htoken rfl rfl (by rw [hl]; rfl) nofun
  | executeNothing hl hpcb hacc =>
    rw [noteMain, hl]
    dsimp only
    rw [if_neg (by simp [hacc])]
    exact h.goOn htoken rfl rfl (by rw [hl]; rfl) nofun
  | executeIo hl hpcb hacc | executeExit hl hpcb hacc =>
    rw [noteMain, hl]
    dsimp only
    rw [if_neg (by simp [hacc])]
    exact h.goOn htoken (by rw [hpcb]; rfl) rfl (by rw [hl]; rfl) nofun
  | setReady hl hpcb =>
    rw [noteMain, hl]
    exact h.goOn htoken (by rw [hpcb]; rfl) rfl (by rw [hl]; rfl) nofun
  | resetTlb hl =>
    rw [noteMain, hl]
    exact (h.reset (t := t)).goOn htoken rfl rfl (by rw [hl]; rfl) nofun
  | resetTlbSent hl =>
    rw [noteMain, hl]
    exact (h.reset (t := t)).goOn htoken rfl rfl (by rw [hl]; rfl) fun _ => pairs_tlbReset s.tlb
  | sendNothing hl hpcb => exact absurd hpcb (h.loaded (by rw [hl]; rfl))
  | sendPcb hl hpcb =>
    obtain ⟨-, htr, -, hins⟩ := h
    rename_i pcb time b
    have hnote : noteMain t pageSize s w =
        { w with transfers := w.transfers ++ [.returned (process pcb)] } := by
      simp only [noteMain, hl, hpcb]
    rw [hnote]
    refine ⟨htoken, ?_, fun hc => absurd hc (by simp [hpcb, clears]), hins⟩
    rw [occupant_append htr]
    simp [running, hl, hpcb, sent, transfer]
  | clearPcb hl =>
    obtain ⟨-, htr, hempty, hins⟩ := h
    rw [noteMain, hl]
    refine ⟨htoken, ?_, fun _ => hempty (.inr (by rw [hl]; rfl)), hins⟩
    simpa [running, hl, sent] using htr
  | signalCpuInUse hl =>
    rename_i b
    rw [noteMain, hl]
    refine h.goOn htoken rfl rfl ?_ ?_ <;> cases b
    · rw [hl]
      rfl
    · rw [hl]
      rfl
    · nofun
    · nofun

lemma Held.step {e : Event} (h : Held s w) (hs : step t pageSize s e = some s') :
    Held s' (note t pageSize s e w) := by
  have htoken := h.toToken.step hs
  cases move hs with
  | connect => exact ⟨htoken, h.transfers, h.empty, h.inserted⟩
  | handler he hi hm =>
    rcases he with ⟨rfl, -⟩ | ⟨⟨m, rfl⟩, rfl⟩
    · simpa [note, hi] using h.handler hi hm
    · simpa [note, noteHandler] using h.handler hi hm
  | main hm => exact h.main hm

/-! ### The CPU and its TLB -/

/-- The CPU is given to one process at a time, and the TLB to the one that has it. -/
structure Occupied (s : Cpu) (w : Stay) : Prop where
  /-- A block is loaded only when there is none. -/
  overwrites : ∀ (i : ℕ) (pcb : Pcb), s.handlers[i]? = some (.setPcb pcb) → s.pcb = none
  /-- Each block that was loaded was sent back once before the next one was loaded, and the last
  one that was not is the one the main loop works on. -/
  transfers : occupant w.transfers = some (running s)
  /-- What the TLB holds was inserted during the stay of the block that is loaded. -/
  entries : ∀ (i page frame : ℕ), (pairs s.tlb)[i]? = some (page, frame) → page ≠ paginaVacia →
    s.pcb ≠ none ∧ w.inserted i = w.stay

lemma Held.occupied (h : Held s w) : Occupied s w where
  overwrites := fun _ _ hi => h.pcb_eq_none hi rfl
  transfers := h.transfers
  entries := fun i _ _ hx hne =>
    ⟨fun hpcb => hne (h.empty (.inl hpcb) _ (List.mem_of_getElem? hx)), h.inserted i _ hx hne⟩

/-- **Main result.** Whatever the handlers, however many they are, and the main loop do in
whichever order, one process at a time has the CPU and its TLB. -/
theorem occupied_of_run (t : TlbCfg) (pageSize : ℕ) (es : List Event) (s : Cpu) (w : Stay)
    (hrun : run (stepW t pageSize) (initCpu t, noStay) es = some (s, w)) : Occupied s w := by
  have hreach : Reachable (stepW t pageSize) (initCpu t, noStay) (s, w) := ⟨es, hrun⟩
  refine (hreach.inv (I := fun x => Held x.1 x.2) (fun x e x' hx hs => ?_) held_init).occupied
  obtain ⟨hs, hw⟩ := watched_eq_some.mp hs
  exact hw ▸ hx.step hs

/-- Two handlers receive a block each. The main loop reads a word for the first one and sends it
back at its `EXIT`; then the second one is loaded, and reads a word on another page. -/
def twoBlocks : List Event :=
  [.connect, .connect, .message 0 (.pcb ⟨1, .executing, [⟨.read, 8, 0⟩, ⟨.exit, 0, 0⟩], 0, 0⟩),
    .handler 0, .message 1 (.pcb ⟨2, .executing, [⟨.read, 4, 0⟩], 1, 0⟩), .handler 0,
    .handler 0] ++
  List.replicate 15 (.main ⟨3, 7⟩) ++ List.replicate 3 (.handler 1) ++
  List.replicate 6 (.main ⟨5, 9⟩)

theorem occupied_of_run_twoBlocks : ∃ s w,
    run (stepW smallTlb 4) (initCpu smallTlb, noStay) twoBlocks = some (s, w) ∧
      w.transfers = [.loaded ⟨1, 0⟩, .returned ⟨1, 0⟩, .loaded ⟨2, 1⟩] ∧
      (1, 5) ∈ pairs s.tlb ∧ Occupied s w :=
  ⟨_, _, rfl, by decide, by decide, occupied_of_run smallTlb 4 twoBlocks _ _ rfl⟩

end Sski.Cpu.Occupancy
