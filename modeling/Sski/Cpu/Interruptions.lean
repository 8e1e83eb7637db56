import Sski.Cpu.Occupancy

/-!
Which block an interruption preempts. One flag stands for all interruptions, and nothing says
which block they were received for. So an interruption is for the wrong block if the flag is
still up when its block leaves for I/O or EXIT, if a handler raises it after that, or if the
main loop clears it when the next block is already there. Without these three, every
interruption preempts the block that was loaded when it was received, or goes with it.
-/

namespace Sski.Cpu.Interruptions

open Sski.Lib.Runs
open Sski.Cpu.Tlb Sski.Cpu.Server Sski.Cpu.Occupancy

/-- What becomes of the interruptions; each stands for the number of the block that was loaded
when it was received. -/
structure Interrupts where
  /-- How many blocks were loaded. -/
  loaded : ℕ
  /-- How many of them have left. -/
  left : ℕ
  /-- For each handler, the block it has found. -/
  found : ℕ → ℕ
  /-- The interruptions that the flag stands for. -/
  pending : List ℕ
  /-- Those that the flag stood for when the main loop last gave way to it. -/
  causes : List ℕ
  /-- The blocks that were returned as `PCB_READY`, with what has caused it. -/
  preempted : List (ℕ × List ℕ)
  /-- The interruptions that were cleared, with the block that had left last. -/
  cleared : List (ℕ × ℕ)

def noInterrupts : Interrupts := ⟨0, 0, fun _ => 0, [], [], [], []⟩

def noteHandler (s : Cpu) (i : ℕ) (pc : Handler) (w : Interrupts) : Interrupts :=
  match pc with
  | .testPcb =>
    if s.pcb = none then w else { w with found := fun j => if j = i then w.loaded else w.found j }
  | .setInterruption => { w with pending := w.found i :: w.pending }
  | .setPcb _ => { w with loaded := w.loaded + 1 }
  | _ => w

def noteMain (s : Cpu) (w : Interrupts) : Interrupts :=
  match s.main with
  | .testInterruption => if s.hasInterruption then { w with causes := w.pending } else w
  | .sendPcb _ _ =>
    if s.pcb.any fun pcb => pcb.status = .ready then
      { w with preempted := w.preempted ++ [(w.loaded, w.causes)] }
    else w
  | .clearPcb _ => { w with left := w.left + 1 }
  | .clearInterruption =>
    { w with pending := [], cleared := w.cleared ++ w.pending.map fun n => (n, w.left) }
  | _ => w

def note (s : Cpu) : Event → Interrupts → Interrupts
  | .handler i, w =>
    match s.handlers[i]? with
    | some pc => noteHandler s i pc w
    | none => w
  | .main _, w => noteMain s w
  | _, w => w

variable (t : TlbCfg) (pageSize : ℕ)

abbrev stepI := watched (step t pageSize) note

/-! ### Interruptions that hit their block -/

/-- The main loop has given up a block because of the flag, which it has not cleared yet. -/
def givesWay : Main → Bool
  | .signalCpuInUse true | .clearInterruption => true
  | _ => false

/-- Every interruption hits the block it was received for. -/
structure OnTarget (s : Cpu) (w : Interrupts) : Prop where
  /-- What was returned as `PCB_READY` was interrupted, and by nothing that was received for
  another block. -/
  preempted : ∀ x ∈ w.preempted, x.2 ≠ [] ∧ ∀ n ∈ x.2, n = x.1
  /-- The flag stands for the block that is loaded, or for the one it has just preempted. -/
  pending : ∀ n ∈ w.pending,
    s.pcb ≠ none ∧ n = w.loaded ∨ givesWay s.main = true ∧ n = w.left
  /-- No interruption of another block was cleared. -/
  cleared : ∀ x ∈ w.cleared, x.1 = x.2

/-- A step of a handler raises the flag for the block that is loaded, which the main loop does not
clear before it looks; or for the one that it is giving up because of the flag. A block that
leaves for I/O or EXIT does not leave the flag behind. -/
def Undisturbed (s : Cpu) (w : Interrupts) : Event → Prop
  | .handler i => s.handlers[i]? = some .setInterruption →
      s.pcb ≠ none ∧ w.found i = w.loaded ∧ s.main ≠ .clearInterruption ∨
        givesWay s.main = true ∧ w.found i = w.left
  | .main _ => s.main = .clearPcb false → s.hasInterruption = false
  | _ => True

instance (s : Cpu) (w : Interrupts) : DecidablePred (Undisturbed s w)
  | .handler i => inferInstanceAs (Decidable (s.handlers[i]? = some .setInterruption → _))
  | .main _ => inferInstanceAs (Decidable (s.main = .clearPcb false → _))
  | .connect | .message .. => .isTrue trivial

/-! ### What the flag stands for -/

def preempts : Main → Bool
  | .setReady | .resetTlb _ true | .sendPcb _ true => true
  | _ => false

def exits : Main → Bool
  | .resetTlb _ false | .sendPcb _ false => true
  | _ => false

structure Aimed (s : Cpu) (w : Interrupts) : Prop extends Token s where
  left : w.loaded = w.left + s.pcb.isSome.toNat
  raised : w.pending ≠ [] ↔ s.hasInterruption = true
  pending : ∀ n ∈ w.pending, givesWay s.main = false ∧ s.pcb ≠ none ∧ n = w.loaded ∨
    givesWay s.main = true ∧ n = w.left
  causes : preempts s.main = true → w.causes ≠ [] ∧ ∀ n ∈ w.causes, n = w.loaded
  status : exits s.main = true → ∀ pcb ∈ s.pcb, pcb.status ≠ .ready
  preempted : ∀ x ∈ w.preempted, x.2 ≠ [] ∧ ∀ n ∈ x.2, n = x.1
  cleared : ∀ x ∈ w.cleared, x.1 = x.2

variable {t pageSize} {s s' : Cpu} {w : Interrupts} {i : ℕ} {pc : Handler}

lemma aimed_init : Aimed (initCpu t) noInterrupts :=
  ⟨token_init, rfl, by simp [noInterrupts, initCpu], nofun, nofun, nofun, nofun, nofun⟩

lemma Aimed.onTarget (h : Aimed s w) : OnTarget s w where
  preempted := h.preempted
  pending := fun n hn => (h.pending n hn).imp And.right id
  cleared := h.cleared

lemma works_of_preempts {m : Main} (h : works m = false) : preempts m = false := by
  cases m <;> first | rfl | cases h

lemma works_of_exits {m : Main} (h : works m = false) : exits m = false := by
  cases m <;> first | rfl | cases h

lemma Aimed.handler (h : Aimed s w) (hi : s.handlers[i]? = some pc) (hm : HandlerMove s i pc s')
    (hcond : Undisturbed s w (.handler i)) : Aimed s' (noteHandler s i pc w) := by
  have htoken := h.toToken.handler hi hm
  obtain ⟨htok, hleft, hraised, hpending, hcauses, hstatus, hpre, hcl⟩ := h
  cases hm with
  | receiveOther hpc | receiveInt hpc | receivePcb hpc | signalPcbReceived hpc
  | waitCpuInUse hpc =>
    subst hpc
    exact ⟨htoken, hleft, hraised, hpending, hcauses, hstatus, hpre, hcl⟩
  | interrupts hpc hpcb =>
    subst hpc
    rw [noteHandler, if_neg (by simp [hpcb])]
    exact ⟨htoken, hleft, hraised, hpending, hcauses, hstatus, hpre, hcl⟩
  | ignores hpc hpcb =>
    subst hpc
    rw [noteHandler, if_pos hpcb]
    exact ⟨htoken, hleft, hraised, hpending, hcauses, hstatus, hpre, hcl⟩
  | setInterruption hpc =>
    subst hpc
    refine ⟨htoken, hleft, by simp [noteHandler], fun n hn => ?_, hcauses, hstatus, hpre, hcl⟩
    rcases List.mem_cons.mp hn with rfl | hn
    · -- the flag is raised for the block that was found
      rcases hcond hi with ⟨hpcb, hfound, hmain⟩ | ⟨hgives, hfound⟩
      · refine .inl ⟨?_, hpcb, hfound⟩
        by_contra hgives
        cases hs : s.main with
        | clearInterruption => exact hmain hs
        | signalCpuInUse b => exact hpcb (htok.pcb_eq_none_of_signals (by rw [hs]; rfl))
        | _ => simp [hs, givesWay] at hgives
      · exact .inr ⟨hgives, hfound⟩
    · exact hpending n hn
  | setPcb hpc =>
    subst hpc
    have hnone := htok.pcb_eq_none hi rfl
    have hmain := htok.works_eq_false hnone
    refine ⟨htoken, ?_, hraised, fun n hn => ?_, fun hc => ?_, fun hc => ?_, hpre, hcl⟩
    · simpa [noteHandler, hnone] using hleft
    · exact .inr ((hpending n hn).resolve_left fun hn => hn.2.1 hnone)
    · simp [works_of_preempts hmain] at hc
    · simp [works_of_exits hmain] at hc

lemma Aimed.goOn (h : Aimed s w) (htoken : Token s') (hpcb : s'.pcb.isSome = s.pcb.isSome)
    (hflag : s'.hasInterruption = s.hasInterruption)
    (hgives : givesWay s'.main = givesWay s.main)
    (hcauses : preempts s'.main = true → preempts s.main = true)
    (hstatus : exits s'.main = true → ∀ pcb ∈ s'.pcb, pcb.status ≠ .ready) : Aimed s' w := by
  have hnone : s'.pcb = none ↔ s.pcb = none := by
    rw [← Option.not_isSome_iff_eq_none, hpcb, Option.not_isSome_iff_eq_none]
  refine ⟨htoken, ?_, ?_, fun n hn => ?_, fun hp => h.causes (hcauses hp), hstatus,
    h.preempted, h.cleared⟩
  · rw [hpcb]
    exact h.left
  · rw [hflag]
    exact h.raised
  · rw [hgives, ne_eq, hnone]
    exact h.pending n hn

lemma Aimed.main {o : Answer} (h : Aimed s w) (hm : MainMove t pageSize s s')
    (hcond : Undisturbed s w (.main o)) : Aimed s' (noteMain s w) := by
  have htoken := h.toToken.main hm
  cases hm with
  | waitPcbReceived hl | noPcb hl | testNull hl | testPcb hl | executeAccess hl
  | executeNothing hl | resetTlbSent hl =>
    try rcases hl with hl | hl
    all_goals
      rw [noteMain, hl]
      exact h.goOn htoken rfl rfl (by rw [hl]; rfl) nofun nofun
  | uninterrupted hl hint =>
    rw [noteMain, hl]
    dsimp only
    rw [if_neg (by simp [hint])]
    exact h.goOn htoken rfl rfl (by rw [hl]; rfl) nofun nofun
  | interrupted hl hint =>
    rw [noteMain, hl]
    dsimp only
    rw [if_pos hint]
    obtain ⟨-, hleft, hraised, hpending, -, -, hpre, hcl⟩ := h
    rw [hl] at hpending
    refine ⟨htoken, hleft, hraised, hpending, fun _ => ⟨hraised.mpr hint, fun n hn => ?_⟩, nofun,
      hpre, hcl⟩
    exact ((hpending n hn).resolve_right nofun).2.2
  | fetch hl hpcb hmain =>
    rw [noteMain, hl]
    rcases hmain with rfl | ⟨i, rfl | rfl⟩
    all_goals exact h.goOn htoken (by rw [hpcb]; rfl) rfl (by rw [hl]; rfl) nofun nofun
  | fetchOperands hl hpcb =>
    rw [noteMain, hl]
    exact h.goOn htoken (by rw [hpcb]; rfl) rfl (by rw [hl]; rfl) nofun nofun
  | executeIo hl hpcb | executeExit hl hpcb =>
    rw [noteMain, hl]
    refine h.goOn htoken (by rw [hpcb]; rfl) rfl (by rw [hl]; rfl) nofun ?_
    rintro - pcb ⟨⟩
    nofun
  | setReady hl hpcb =>
    rw [noteMain, hl]
    exact h.goOn htoken (by rw [hpcb]; rfl) rfl (by rw [hl]; rfl) (fun _ => by rw [hl]; rfl) nofun
  | resetTlb hl =>
    rename_i time b
    rw [noteMain, hl]
    have hstatus := h.status
    rw [hl] at hstatus
    cases b with
    | false => exact h.goOn htoken rfl rfl (by rw [hl]; rfl) nofun hstatus
    | true => exact h.goOn htoken rfl rfl (by rw [hl]; rfl) (fun _ => by rw [hl]; rfl) nofun
  | sendNothing hl hpcb => exact absurd hpcb (h.loaded (by rw [hl]; rfl))
  | sendPcb hl hpcb =>
    rename_i pcb time b
    have hgo : Aimed { s with main := .resetTlbSent b } w :=
      h.goOn htoken rfl rfl (by rw [hl]; rfl) nofun nofun
    rw [noteMain, hl]
    dsimp only
    split
    · next hready =>
      -- only a block the main loop gives way with is `PCB_READY`
      have hready : pcb.status = .ready := by simpa [hpcb] using hready
      have hb : b = true := by
        by_contra hb
        rw [Bool.not_eq_true] at hb
        exact h.status (by rw [hl, hb]; rfl) pcb hpcb hready
      have hcauses := h.causes (by rw [hl, hb]; rfl)
      refine ⟨htoken, hgo.left, hgo.raised, hgo.pending, nofun, nofun, fun x hx => ?_, hgo.cleared⟩
      rcases List.mem_append.mp hx with hx | hx
      · exact h.preempted x hx
      · rw [List.mem_singleton.mp hx]
        exact hcauses
    · exact hgo
  | clearPcb hl =>
    rename_i b
    have hsome : s.pcb.isSome = true := Option.isSome_iff_ne_none.mpr (h.loaded (by rw [hl]; rfl))
    obtain ⟨-, hleft, hraised, hpending, -, -, hpre, hcl⟩ := h
    rw [hsome] at hleft
    rw [noteMain, hl]
    refine ⟨htoken, hleft, hraised, fun n hn => ?_, nofun, nofun, hpre, hcl⟩
    cases b with
    | false =>
      -- the flag is down
      have hdown := hcond hl
      rw [hraised.mp (List.ne_nil_of_mem hn)] at hdown
      cases hdown
    | true =>
      rcases hpending n hn with ⟨-, -, rfl⟩ | ⟨hgives, -⟩
      · exact .inr ⟨rfl, hleft⟩
      · rw [hl] at hgives
        cases hgives
  | signalCpuInUse hl =>
    rename_i b
    rw [noteMain, hl]
    cases b <;> exact h.goOn htoken rfl rfl (by rw [hl]; rfl) nofun nofun
  | clearInterruption hl =>
    obtain ⟨-, hleft, -, hpending, -, -, hpre, hcl⟩ := h
    rw [hl] at hpending
    rw [noteMain, hl]
    refine ⟨htoken, hleft, by simp, nofun, nofun, nofun, hpre, fun x hx => ?_⟩
    rcases List.mem_append.mp hx with hx | hx
    · exact hcl x hx
    · obtain ⟨n, hn, rfl⟩ := List.mem_map.mp hx
      exact ((hpending n hn).resolve_left nofun).2

lemma Aimed.step {e : Event} (h : Aimed s w) (hcond : Undisturbed s w e)
    (hs : step t pageSize s e = some s') : Aimed s' (note s e w) := by
  cases move hs with
  | connect =>
    have htoken := h.toToken.step hs
    exact ⟨htoken, h.left, h.raised, h.pending, h.causes, h.status, h.preempted, h.cleared⟩
  | handler he hi hm =>
    rename_i i pc
    rcases he with ⟨rfl, -⟩ | ⟨⟨m, rfl⟩, rfl⟩
    · simpa [note, hi] using h.handler hi hm hcond
    · -- a handler that receives does not raise the flag
      have hnone : Undisturbed s w (.handler i) := fun hset => by simp [hi] at hset
      simpa [note, noteHandler] using h.handler hi hm hnone
  | main hm => exact h.main hm hcond

/-- **Main result.** In every run in which no handler raises the flag too late and no block
leaves it behind, every interruption hits the block it was received for. -/
theorem onTarget_of_undisturbed (t : TlbCfg) (pageSize : ℕ) (es : List Event) (s : Cpu)
    (w : Interrupts)
    (hrun : run (stepI t pageSize) (initCpu t, noInterrupts) es = some (s, w))
    (hcond : Meets (stepI t pageSize) (fun x e => Undisturbed x.1 x.2 e)
      (initCpu t, noInterrupts) es) : OnTarget s w := by
  refine (hcond.inv (I := fun x => Aimed x.1 x.2) (fun x e x' hx hc hs => ?_) aimed_init
    hrun).onTarget
  obtain ⟨hs, hw⟩ := watched_eq_some.mp hs
  exact hw ▸ hx.step hc hs

def oneBlock : List Event :=
  [.connect, .connect, .message 0 (.pcb ⟨0, .executing, [⟨.io, 5, 0⟩], 0, 0⟩), .handler 0,
    .handler 0, .handler 0]

def interrupt : List Event := [.message 1 .int, .handler 1, .handler 1]

def mainSteps (n : ℕ) : List Event := List.replicate n (.main ⟨0, 0⟩)

theorem onTarget_of_undisturbed_preempted : ∃ s w,
    run (stepI smallTlb 4) (initCpu smallTlb, noInterrupts) (oneBlock ++ interrupt ++ mainSteps 11)
        = some (s, w) ∧ w.preempted = [(1, [1])] ∧ w.cleared = [(1, 1)] ∧ OnTarget s w := by
  refine ⟨_, _, rfl, by decide, by decide, ?_⟩
  exact onTarget_of_undisturbed smallTlb 4 (oneBlock ++ interrupt ++ mainSteps 11) _ _ rfl
    (by decide +kernel)

/-- An interruption is received when the block is about to do its I/O, and preempts the next one. -/
theorem not_onTarget : ¬ ∀ (t : TlbCfg) (pageSize : ℕ) (es : List Event) (s : Cpu)
    (w : Interrupts), run (stepI t pageSize) (initCpu t, noInterrupts) es = some (s, w) →
      OnTarget s w := by
  intro hall
  have hon := hall smallTlb 4 (oneBlock ++ mainSteps 5 ++ interrupt ++ mainSteps 5 ++
    [.message 0 (.pcb ⟨1, .executing, [], 1, 0⟩), .handler 0, .handler 0, .handler 0] ++
    mainSteps 8) _ _ rfl
  have hpre := hon.preempted (2, [1]) (by decide)
  revert hpre
  decide

end Sski.Cpu.Interruptions
