import Sski.Lib.Runs
import Sski.Cpu.Interpreter

/-!
What a stay on the CPU changes in the process control block.

The cycle works on the block that was received, and on the instructions in its list. Here the block
has all its fields and goes with the CPU through its cycles until it is returned. Only the operands
of a copy are written back to the list.
-/

namespace Sski.Cpu.Stay

open Sski.Lib.Runs Sski.Cpu.Cycle

/-- `pcb_t`, with the fields that the cycle does not use. -/
structure Block extends Cycle.Pcb where
  size : UInt64
  estimation : UInt32
  io : UInt32
  real : UInt32
  deriving DecidableEq, Repr

/-- The CPU with a whole block, the block it returned with the time that goes with it, how often an
instruction was fetched, and how often there was one. -/
structure Stay (σ : Type*) where
  block : Option Block
  hasInterruption : Bool
  memory : σ
  returned : Option (Block × UInt32)
  fetches : ℕ
  fetched : ℕ

inductive Event where
  | interrupt
  | cycle
  deriving DecidableEq, Repr

variable {σ : Type*} (port : Port σ)

def Stay.cpu (s : Stay σ) : Cpu σ := ⟨s.block.map Block.toPcb, s.hasInterruption, s.memory⟩

def Stay.pcb (s : Stay σ) : Option Block := s.block.or (s.returned.map Prod.fst)

/-- A block has been received; an interruption may be pending from before. -/
def receive (b : Block) (hasInterruption : Bool) (memory : σ) : Stay σ :=
  ⟨some b, hasInterruption, memory, none, 0, 0⟩

def Stay.returnPcb (s : Stay σ) (b : Block) (time : UInt32) : Stay σ :=
  { s with block := none, returned := some (b, time) }

def operand (memory : σ) (b : Block) (i : Instruction) : UInt32 :=
  (port.read memory b.id b.pageTable i.param1).1

def withOperands (memory : σ) (b : Block) (i : Instruction) : Block :=
  if decode i then
    let fetched := { i with param0 := 0, param1 := operand port memory b i }
    { b with instructions := b.instructions.set (b.pc - 1).toNat fetched }
  else b

def turn (s : Stay σ) (b : Block) : Stay σ :=
  let memory := (Cycle.cycle port s.cpu).1.memory
  if s.hasInterruption then
    { s with hasInterruption := false, memory }.returnPcb { b with status := .ready } 0
  else
    let next := { b with pc := b.pc + 1 }
    match instructionFetch b.toPcb with
    | none => { s with block := some next, memory, fetches := s.fetches + 1 }
    | some i =>
      let next := withOperands port s.memory next i
      let s := { s with memory, fetches := s.fetches + 1, fetched := s.fetched + 1 }
      match i.icode with
      | .io => s.returnPcb { next with status := .blocked } i.param0
      | .exit => s.returnPcb { next with status := .terminated } i.param0
      | _ => { s with block := some next }

def step (s : Stay σ) : Event → Option (Stay σ)
  | .interrupt => some { s with hasInterruption := true }
  | .cycle => s.block.map (turn port s)

variable {port} {s s' : Stay σ} {b b₀ : Block} {i : Instruction}

/-! ### The turn is the cycle -/

def effect (r : Block × UInt32) : Effect := .returnPcb r.1.id r.1.status r.1.pc r.2

def isReturn : Effect → Bool
  | .returnPcb .. => true
  | _ => false

@[simp] lemma isReturn_read (a v : UInt32) : isReturn (.read a v) = false := rfl

@[simp] lemma isReturn_write (a v : UInt32) : isReturn (.write a v) = false := rfl

@[simp] lemma isReturn_returnPcb (id : UInt32) (status : PcbStatus) (pc time : UInt32) :
    isReturn (.returnPcb id status pc time) = true := rfl

/-- After the turn the CPU is as after the cycle, and what is returned is what the cycle returns. -/
def SameCycle (port : Port σ) (s s' : Stay σ) : Prop :=
  s'.cpu = (Cycle.cycle port s.cpu).1 ∧
    s'.returned.toList.map effect = (Cycle.cycle port s.cpu).2.filter isReturn

lemma sameCycle_interrupted (hb : s.block = some b) (hint : s.hasInterruption = true) :
    SameCycle port s (turn port s b) := by
  constructor <;>
    simp [turn, Cycle.cycle, Stay.cpu, Stay.returnPcb, hb, hint, Cycle.returnPcb, effect,
      List.filter_cons]

lemma sameCycle_unfetched (hb : s.block = some b) (hret : s.returned = none)
    (hint : s.hasInterruption = false) (hfetch : instructionFetch b.toPcb = none) :
    SameCycle port s (turn port s b) := by
  constructor <;> simp [turn, Cycle.cycle, Stay.cpu, hb, hret, hint, hfetch]

lemma sameCycle_copy (hb : s.block = some b) (hret : s.returned = none)
    (hint : s.hasInterruption = false) (hfetch : instructionFetch b.toPcb = some i)
    (hcode : i.icode = .copy) : SameCycle port s (turn port s b) := by
  constructor <;>
    simp [turn, Cycle.cycle, Stay.cpu, hb, hret, hint, hfetch, hcode, withOperands, decode,
      Cycle.withOperands, fetchOperands, executeRead, executeWrite, executeCopy,
      instructionExecute, operand]

lemma sameCycle_plain (hb : s.block = some b) (hret : s.returned = none)
    (hint : s.hasInterruption = false) (hfetch : instructionFetch b.toPcb = some i)
    (hcode : i.icode ≠ .copy) : SameCycle port s (turn port s b) := by
  have hplain : decode i = false := by simpa [decode] using hcode
  have hsame : ∀ next, withOperands port s.memory next i = next := fun next => by
    simp [withOperands, hplain]
  cases hicode : i.icode
  case copy => exact absurd hicode hcode
  all_goals
    constructor <;>
      simp [turn, Cycle.cycle, Stay.cpu, Stay.returnPcb, hb, hret, hint, hfetch, hplain, hsame,
        hicode, executeRead, executeWrite, executeIO, executeExit, Cycle.returnPcb,
        instructionExecute, effect, List.filter_cons]

/-- **The turn is the cycle**, seen with the whole block. -/
theorem turn_cycle (hb : s.block = some b) (hret : s.returned = none) :
    SameCycle port s (turn port s b) := by
  cases hint : s.hasInterruption with
  | true => exact sameCycle_interrupted hb hint
  | false =>
    cases hfetch : instructionFetch b.toPcb with
    | none => exact sameCycle_unfetched hb hret hint hfetch
    | some i =>
      by_cases hcode : i.icode = .copy
      · exact sameCycle_copy hb hret hint hfetch hcode
      · exact sameCycle_plain hb hret hint hfetch hcode

/-! ### What a turn changes -/

/-- What a turn makes of the block, and the fetches it counts. -/
inductive Turned (port : Port σ) (s : Stay σ) (b : Block) : Block → ℕ → ℕ → Prop
  | interrupted (hint : s.hasInterruption = true) : Turned port s b { b with status := .ready } 0 0
  | unfetched (hint : s.hasInterruption = false) (hfetch : instructionFetch b.toPcb = none) :
      Turned port s b { b with pc := b.pc + 1 } 1 0
  | fetched (i : Instruction) (hint : s.hasInterruption = false)
      (hfetch : instructionFetch b.toPcb = some i) (status : PcbStatus) : Turned port s b
        { withOperands port s.memory { b with pc := b.pc + 1 } i with status } 1 1

lemma turn_spec (port : Port σ) (s : Stay σ) (b : Block) :
    ∃ b' m n, (turn port s b).pcb = some b' ∧ (turn port s b).fetches = s.fetches + m ∧
      (turn port s b).fetched = s.fetched + n ∧ Turned port s b b' m n := by
  cases hint : s.hasInterruption with
  | true =>
    exact ⟨_, _, _, by simp [turn, hint, Stay.pcb, Stay.returnPcb],
      by simp [turn, hint, Stay.returnPcb], by simp [turn, hint, Stay.returnPcb],
      .interrupted hint⟩
  | false =>
    cases hfetch : instructionFetch b.toPcb with
    | none =>
      exact ⟨_, _, _, by simp [turn, hint, hfetch, Stay.pcb], by simp [turn, hint, hfetch],
        by simp [turn, hint, hfetch], .unfetched hint hfetch⟩
    | some i =>
      suffices h : ∃ status, (turn port s b).pcb =
          some { withOperands port s.memory { b with pc := b.pc + 1 } i with status } ∧
          (turn port s b).fetches = s.fetches + 1 ∧ (turn port s b).fetched = s.fetched + 1 by
        obtain ⟨status, hpcb, hfetches, hfetched⟩ := h
        exact ⟨_, _, _, hpcb, hfetches, hfetched, .fetched i hint hfetch status⟩
      cases hcode : i.icode with
      | io => exact ⟨.blocked, by simp [turn, hint, hfetch, hcode, Stay.pcb, Stay.returnPcb]⟩
      | exit => exact ⟨.terminated, by simp [turn, hint, hfetch, hcode, Stay.pcb, Stay.returnPcb]⟩
      | _ =>
        exact ⟨(withOperands port s.memory { b with pc := b.pc + 1 } i).status,
          by simp [turn, hint, hfetch, hcode, Stay.pcb]⟩

variable {n : ℕ}

structure Framed (b₀ : Block) (n : ℕ) (b : Block) : Prop where
  id : b.id = b₀.id
  size : b.size = b₀.size
  pageTable : b.pageTable = b₀.pageTable
  estimation : b.estimation = b₀.estimation
  io : b.io = b₀.io
  real : b.real = b₀.real
  instructions : b.instructions = b₀.instructions
  pc : b.pc = b₀.pc + .ofNat n

lemma framed_self (b : Block) : Framed b 0 b := by
  constructor <;> simp

lemma framed_status_iff (status : PcbStatus) :
    Framed b₀ n { b with status } ↔ Framed b₀ n b :=
  ⟨fun ⟨h₁, h₂, h₃, h₄, h₅, h₆, h₇, h₈⟩ => ⟨h₁, h₂, h₃, h₄, h₅, h₆, h₇, h₈⟩,
    fun ⟨h₁, h₂, h₃, h₄, h₅, h₆, h₇, h₈⟩ => ⟨h₁, h₂, h₃, h₄, h₅, h₆, h₇, h₈⟩⟩

lemma Framed.next (h : Framed b₀ n b) : Framed b₀ (n + 1) { b with pc := b.pc + 1 } where
  __ := h
  pc := by
    show b.pc + 1 = _
    rw [h.pc, UInt32.ofNat_add, UInt32.add_assoc]
    rfl

lemma Framed.not_next (h : Framed b₀ n b) : ¬ Framed b₀ n { b with pc := b.pc + 1 } := by
  intro h'
  have hpc : b.pc + 1 = b.pc := h'.pc.trans h.pc.symm
  simp at hpc

/-- The condition on the instruction that is fetched: the operands of a copy are there already. -/
def Settled (port : Port σ) (memory : σ) (b : Block) (i : Instruction) : Prop :=
  i.icode = .copy → i.param0 = 0 ∧ i.param1 = operand port memory b i

lemma instructionFetch_eq_some : instructionFetch b.toPcb = some i ↔
    b.pc.toNat < 2 ^ 31 ∧ b.instructions[b.pc.toNat]? = some i := by
  unfold instructionFetch
  split
  · rename_i hlt
    exact ⟨fun h => ⟨hlt, h⟩, And.right⟩
  · rename_i hge
    exact ⟨fun h => by simp at h, fun h => absurd h.1 hge⟩

lemma framed_withOperands_iff {memory : σ} (h : Framed b₀ n b)
    (hfetch : instructionFetch b.toPcb = some i) :
    Framed b₀ (n + 1) (withOperands port memory { b with pc := b.pc + 1 } i) ↔
      Settled port memory b i := by
  obtain ⟨-, hget⟩ := instructionFetch_eq_some.mp hfetch
  obtain ⟨hlt, hi⟩ := List.getElem?_eq_some_iff.mp hget
  by_cases hcode : i.icode = .copy
  · have hback : b.pc + 1 - 1 = b.pc := by simp
    constructor
    · intro h'
      have hlist := h'.instructions.trans h.instructions.symm
      simp only [withOperands, decode, hcode, decide_true, if_true, hback] at hlist
      have hset := congrArg (·[b.pc.toNat]?) hlist
      simp only [List.getElem?_set_self hlt, hget, Option.some.injEq] at hset
      intro _
      exact ⟨(congrArg Instruction.param0 hset).symm, (congrArg Instruction.param1 hset).symm⟩
    · intro hset
      obtain ⟨h₀, h₁⟩ := hset hcode
      have hsame : ({ i with param0 := 0, param1 := operand port memory b i } : Instruction) =
          i := by
        rw [← h₀, ← h₁]
      have hkeep : withOperands port memory { b with pc := b.pc + 1 } i =
          { b with pc := b.pc + 1 } := by
        have hlist : b.instructions.set b.pc.toNat i = b.instructions := by
          rw [← hi, List.set_getElem_self]
        have hop : operand port memory { b with pc := b.pc + 1 } i = operand port memory b i := rfl
        simp only [withOperands, decode, decide_eq_true hcode, if_true, hback, hop]
        rw [hsame, hlist]
      rw [hkeep]
      exact h.next
  · have hplain : Settled port memory b i := fun hcopy => absurd hcopy hcode
    simp only [withOperands, decode, hcode, decide_false, Bool.false_eq_true, if_false]
    exact iff_of_true h.next hplain

/-! ### Every run -/

/-- The condition on a cycle that is not interrupted: the operands of a copy that it fetches are
there already, 0 and the value that memory holds. -/
def KeepsCopy (port : Port σ) (s : Stay σ) (e : Event) : Prop :=
  e = .cycle → s.hasInterruption = false → ∀ b i, s.block = some b → b.pc.toNat < 2 ^ 31 →
    b.instructions[b.pc.toNat]? = some i → Settled port s.memory b i

def Finds (s : Stay σ) (e : Event) : Prop :=
  e = .cycle → s.hasInterruption = false → ∀ b, s.block = some b →
    b.pc.toNat < 2 ^ 31 ∧ b.pc.toNat < b.instructions.length

def Unchanged (b₀ : Block) (s : Stay σ) : Prop := ∀ b, s.pcb = some b → Framed b₀ s.fetches b

def Counted (b₀ : Block) (s : Stay σ) : Prop := ∀ b, s.pcb = some b → Framed b₀ s.fetched b

/-- A step is an interruption, which leaves the block alone, or a turn. -/
lemma step_cases {e : Event} (hs : step port s e = some s') :
    (e = .interrupt ∧ s'.pcb = s.pcb ∧ s'.fetches = s.fetches ∧ s'.fetched = s.fetched) ∨
    (e = .cycle ∧ ∃ b, s.block = some b ∧ s.pcb = some b ∧ s' = turn port s b) := by
  cases e with
  | interrupt =>
    obtain rfl := Option.some.inj hs
    exact .inl ⟨rfl, rfl, rfl, rfl⟩
  | cycle =>
    obtain ⟨b, hb, rfl⟩ := Option.map_eq_some_iff.mp hs
    exact .inr ⟨rfl, b, hb, by simp [Stay.pcb, hb], rfl⟩

lemma block_eq_none {e : Event} (hs : step port s e = none) : e = .cycle ∧ s.block = none := by
  cases e with
  | interrupt => cases hs
  | cycle => exact ⟨rfl, Option.map_eq_none_iff.mp hs⟩

lemma keepsCopy_iff_settled (hb : s.block = some b) (hint : s.hasInterruption = false)
    (hfetch : instructionFetch b.toPcb = some i) :
    KeepsCopy port s .cycle ↔ Settled port s.memory b i := by
  obtain ⟨hlt, hget⟩ := instructionFetch_eq_some.mp hfetch
  constructor
  · intro hk
    exact hk rfl hint b i hb hlt hget
  · intro hset _ _ c j hc hlt' hget'
    obtain rfl := Option.some.inj (hb.symm.trans hc)
    obtain rfl := Option.some.inj (hget.symm.trans hget')
    exact hset

lemma finds_iff_isSome (hb : s.block = some b) (hint : s.hasInterruption = false) :
    Finds s .cycle ↔ (instructionFetch b.toPcb).isSome := by
  have hfetch : (instructionFetch b.toPcb).isSome ↔
      b.pc.toNat < 2 ^ 31 ∧ b.pc.toNat < b.instructions.length := by
    simp [Option.isSome_iff_exists, instructionFetch_eq_some, List.getElem?_eq_some_iff]
  rw [hfetch]
  constructor
  · intro hf
    exact hf rfl hint b hb
  · intro hlt _ _ c hc
    obtain rfl := Option.some.inj (hb.symm.trans hc)
    exact hlt

lemma keepsCopy_of_unfetched (hb : s.block = some b) (hfetch : instructionFetch b.toPcb = none) :
    KeepsCopy port s .cycle := by
  intro _ _ c i hc hlt hget
  obtain rfl := Option.some.inj (hb.symm.trans hc)
  rw [instructionFetch_eq_some.mpr ⟨hlt, hget⟩] at hfetch
  cases hfetch

lemma unchanged_step_iff {e : Event} (hu : Unchanged b₀ s) (hs : step port s e = some s') :
    Unchanged b₀ s' ↔ KeepsCopy port s e := by
  rcases step_cases hs with ⟨rfl, hpcb, hfetches, -⟩ | ⟨rfl, b, hb, hpcb, rfl⟩
  · refine iff_of_true ?_ fun he => by cases he
    rw [Unchanged, hpcb, hfetches]
    exact hu
  · have hframed : Framed b₀ s.fetches b := hu b hpcb
    obtain ⟨b', m, n, hpcb', hfetches, -, hturned⟩ := turn_spec port s b
    have hiff : Unchanged b₀ (turn port s b) ↔ Framed b₀ (s.fetches + m) b' := by
      simp [Unchanged, hpcb', hfetches]
    rw [hiff]
    cases hturned with
    | interrupted hint =>
      exact iff_of_true ((framed_status_iff _).mpr hframed) fun _ hnot => by simp [hint] at hnot
    | unfetched hint hfetch =>
      exact iff_of_true hframed.next (keepsCopy_of_unfetched hb hfetch)
    | fetched i hint hfetch status =>
      rw [framed_status_iff, framed_withOperands_iff hframed hfetch,
        keepsCopy_iff_settled hb hint hfetch]

lemma counted_step_iff {e : Event} (hc : Counted b₀ s) (hs : step port s e = some s') :
    Counted b₀ s' ↔ KeepsCopy port s e ∧ Finds s e := by
  rcases step_cases hs with ⟨rfl, hpcb, -, hfetched⟩ | ⟨rfl, b, hb, hpcb, rfl⟩
  · refine iff_of_true ?_ ⟨fun he => (by cases he), fun he => (by cases he)⟩
    rw [Counted, hpcb, hfetched]
    exact hc
  · have hframed : Framed b₀ s.fetched b := hc b hpcb
    obtain ⟨b', m, n, hpcb', -, hfetched, hturned⟩ := turn_spec port s b
    have hiff : Counted b₀ (turn port s b) ↔ Framed b₀ (s.fetched + n) b' := by
      simp [Counted, hpcb', hfetched]
    rw [hiff]
    cases hturned with
    | interrupted hint =>
      refine iff_of_true ((framed_status_iff _).mpr hframed) ⟨?_, ?_⟩
      · exact fun _ hnot => by simp [hint] at hnot
      · exact fun _ hnot => by simp [hint] at hnot
    | unfetched hint hfetch =>
      -- the counter goes on, and nothing is counted
      refine iff_of_false hframed.not_next fun ⟨_, hf⟩ => ?_
      rw [finds_iff_isSome hb hint, hfetch] at hf
      cases hf
    | fetched i hint hfetch status =>
      rw [framed_status_iff, framed_withOperands_iff hframed hfetch,
        keepsCopy_iff_settled hb hint hfetch, finds_iff_isSome hb hint, hfetch]
      simp

/-- **A stay on the CPU.** For every block, memory and pending interruption, and whatever
interruptions come between the cycles: the block on the CPU and the block returned are the received
one but for status and counter, and the counter goes with the fetches, exactly as long as the
operands of each copy are there before it is fetched. It goes with the instructions found exactly
as long as, besides, there is one at each fetch. -/
theorem unchanged_iff (port : Port σ) (b : Block) (hasInterruption : Bool) (memory : σ)
    (es : List Event) :
    ((∀ fs, fs <+: es → ∀ s, run (step port) (receive b hasInterruption memory) fs = some s →
        Unchanged b s) ↔
      Meets (step port) (KeepsCopy port) (receive b hasInterruption memory) es) ∧
    ((∀ fs, fs <+: es → ∀ s, run (step port) (receive b hasInterruption memory) fs = some s →
        Counted b s) ↔
      Meets (step port) (fun s e => KeepsCopy port s e ∧ Finds s e)
        (receive b hasInterruption memory) es) := by
  have hself : ∀ c, (receive b hasInterruption memory).pcb = some c → Framed b 0 c := by
    intro c hc
    obtain rfl : b = c := Option.some.inj hc
    exact framed_self b
  constructor
  · refine forall_prefix_iff_meets (fun _ _ _ => unchanged_step_iff) (fun s e _ hs => ?_) hself
    obtain ⟨rfl, hnone⟩ := block_eq_none hs
    exact fun _ _ c i hc => by simp [hnone] at hc
  · refine forall_prefix_iff_meets (fun _ _ _ => counted_step_iff) (fun s e _ hs => ?_) hself
    obtain ⟨rfl, hnone⟩ := block_eq_none hs
    exact ⟨fun _ _ c i hc => by simp [hnone] at hc, fun _ _ c hc => by simp [hnone] at hc⟩

/-- A process without a copy gets its block back as it was. -/
theorem unchanged_of_no_copy (port : Port σ) (hno : ∀ i ∈ b.instructions, i.icode ≠ .copy)
    (hasInterruption : Bool) (memory : σ)
    (h : Reachable (step port) (receive b hasInterruption memory) s) : Unchanged b s := by
  refine h.inv (fun s e s' hu hs => (unchanged_step_iff hu hs).mpr ?_) fun c hc => ?_
  · intro _ _ c i hc _ hget hcode
    have hframed : Framed b s.fetches c := hu c (by simp [Stay.pcb, hc])
    rw [hframed.instructions] at hget
    exact absurd hcode (hno i (List.mem_of_getElem? hget))
  · obtain rfl : b = c := Option.some.inj hc
    exact framed_self b

/-! ### A copy that changes the list -/

def copyBlock : Block :=
  ⟨⟨1, .executing, [⟨.copy, 4, 8⟩, ⟨.exit, 0, 0⟩], 0, 0⟩, 64, 10, 0, 0⟩

/-- The block comes back with `COPY 0 9`, when address 8 holds 9. -/
theorem not_unchanged_copy : ¬ ∀ (b : Block) (flag : Bool) (memory : UInt32 → UInt32)
    (es : List Event) (s : Stay (UInt32 → UInt32)) (r : Block) (time : UInt32),
    run (step Interpreter.logical) (receive b flag memory) es = some s →
      s.returned = some (r, time) → Framed b s.fetched r := by
  intro hall
  have hlist := (hall copyBlock false (fun a => a + 1) [.cycle, .cycle] _ _ _ rfl rfl).instructions
  revert hlist
  decide

end Sski.Cpu.Stay
