import Sski.Cpu.Cycle
import Mathlib.Tactic.Common

/-!
When a program leaves the CPU.

A cycle never changes the code of an instruction, and it moves the counter on by one until an
instruction returns the block. The counter comes to every index of the list, wrapped around if
it has to, so the loop ends just when some instruction of the list returns the block.
-/

namespace Sski.Cpu.Termination

open Sski.Cpu.Cycle

def isReturn (icode : InstructionCode) : Bool := icode == .io || icode == .exit

def returnsAt (codes : List InstructionCode) (pc : UInt32) : Bool :=
  decide (pc.toNat < 2 ^ 31) && codes[pc.toNat]?.any isReturn

variable {σ : Type*} {port : Port σ} {codes : List InstructionCode} {id pc : UInt32}
  {cpu : Cpu σ}

structure Going (codes : List InstructionCode) (id pc : UInt32) (cpu : Cpu σ) : Prop where
  pcb : ∃ pcb, cpu.pcb = some pcb ∧ pcb.id = id ∧ pcb.pc = pc ∧
    pcb.instructions.map (·.icode) = codes
  interruption : cpu.hasInterruption = false

def Left (id : UInt32) (cpu : Cpu σ) (effects : List Effect) : Prop :=
  cpu.pcb = none ∧ ∃ status pc time, .returnPcb id status pc time ∈ effects

/-! ### One cycle -/

lemma map_icode_set {instructions : List Instruction} {i : ℕ} {old : Instruction}
    (hold : instructions[i]? = some old) (new : Instruction) (hcode : new.icode = old.icode) :
    (instructions.set i new).map (·.icode) = instructions.map (·.icode) := by
  refine List.ext_getElem? fun j => ?_
  rw [List.getElem?_map, List.getElem?_map, List.getElem?_set]
  split
  next h =>
    subst h
    obtain ⟨hlt, rfl⟩ := List.getElem?_eq_some_iff.mp hold
    simp [hlt, hcode]
  next => rfl

lemma returnsAt_eq {pcb : Pcb} (hcodes : pcb.instructions.map (·.icode) = codes) :
    returnsAt codes pcb.pc = (instructionFetch pcb).any fun x => isReturn x.icode := by
  rw [returnsAt, instructionFetch, ← hcodes, List.getElem?_map]
  by_cases hpc : pcb.pc.toNat < 2 ^ 31
  · rw [if_pos hpc, decide_eq_true hpc, Bool.true_and, Option.any_map]
  · rw [if_neg hpc, decide_eq_false hpc, Bool.false_and, Option.any_none]

lemma Going.step (port : Port σ) (h : Going codes id pc cpu) :
    if returnsAt codes pc then Left id (cycle port cpu).1 (cycle port cpu).2
    else Going codes id (pc + 1) (cycle port cpu).1 := by
  obtain ⟨⟨pcb, hpcb, rfl, rfl, hcodes⟩, hint⟩ := h
  rw [returnsAt_eq hcodes]
  cases hfetch : instructionFetch pcb with
  | none =>
    -- nothing was fetched, and the counter moves on all the same
    simp only [Option.any_none, Bool.false_eq_true, if_false]
    exact ⟨⟨{ pcb with pc := pcb.pc + 1 }, by simp [cycle, hpcb, hint, hfetch], rfl, rfl,
      hcodes⟩, by simp [cycle, hpcb, hint, hfetch]⟩
  | some instruction =>
    obtain ⟨icode, a, b⟩ := instruction
    cases icode with
    | io | exit =>
      simp [isReturn, Left, cycle, hpcb, hint, hfetch, decode, instructionExecute, executeIO,
        executeExit, returnPcb]
    | copy =>
      -- the operands are written into the list, the code stays
      have hold : pcb.instructions[pcb.pc.toNat]? = some ⟨.copy, a, b⟩ := by
        rw [instructionFetch] at hfetch
        split at hfetch
        · exact hfetch
        · cases hfetch
      set fetched : Instruction := ⟨.copy, 0, (port.read cpu.memory pcb.id pcb.pageTable b).1⟩
      simp only [Option.any_some, isReturn]
      refine ⟨⟨{ pcb with pc := pcb.pc + 1,
                          instructions := pcb.instructions.set pcb.pc.toNat fetched },
        ?_, rfl, rfl, (map_icode_set hold fetched rfl).trans hcodes⟩, ?_⟩
      · simp [cycle, hpcb, hint, hfetch, decode, withOperands, fetchOperands, executeRead,
          instructionExecute, executeCopy, executeWrite, fetched]
      · simp [cycle, hpcb, hint, hfetch, decode, withOperands, fetchOperands, executeRead,
          instructionExecute, executeCopy, executeWrite]
    | read | write | noOp | noInstruction =>
      simp only [Option.any_some, isReturn]
      refine ⟨⟨{ pcb with pc := pcb.pc + 1 }, ?_, rfl, rfl, hcodes⟩, ?_⟩ <;>
      simp [cycle, hpcb, hint, hfetch, decode, instructionExecute, executeRead, executeWrite]

lemma Left.cycle {effects : List Effect} (h : Left id cpu effects) (effects' : List Effect) :
    Left id (cycle port cpu).1 (effects ++ effects') := by
  obtain ⟨hpcb, status, pc, time, hmem⟩ := h
  exact ⟨by simp [Cycle.cycle, hpcb], status, pc, time, List.mem_append_left _ hmem⟩

/-! ### The loop -/

/-- After `k` cycles the block was returned if an instruction on the way returned it, and is
still there if none did. -/
lemma Going.cycles (port : Port σ) (h : Going codes id pc cpu) (k : ℕ) :
    ((∃ j < k, returnsAt codes (pc + .ofNat j)) ∧
        Left id (cycles port k cpu).1 (cycles port k cpu).2) ∨
      ((∀ j < k, ¬ returnsAt codes (pc + .ofNat j)) ∧
        Going codes id (pc + .ofNat k) (cycles port k cpu).1) := by
  induction k with
  | zero => exact .inr ⟨fun j hj => absurd hj (Nat.not_lt_zero j), by simpa [Cycle.cycles] using h⟩
  | succ k ih =>
    obtain ⟨⟨j, hj, hret⟩, hleft⟩ | ⟨hnone, hgoing⟩ := ih
    · exact .inl ⟨⟨j, by omega, hret⟩, hleft.cycle _⟩
    · have hstep := hgoing.step port
      split at hstep
      next hret =>
        obtain ⟨hpcb, status, pc', time, hmem⟩ := hstep
        exact .inl ⟨⟨k, by omega, hret⟩, hpcb, status, pc', time, List.mem_append_right _ hmem⟩
      next hret =>
        refine .inr ⟨fun j hj => ?_, ?_⟩
        · obtain hj | rfl : j < k ∨ j = k := by omega
          · exact hnone j hj
          · exact hret
        · rw [UInt32.ofNat_add, ← UInt32.add_assoc]
          exact hstep

/-- The counter comes to every value, wrapped around if it has to. -/
lemma exists_turns (pc pc' : UInt32) : ∃ k, pc + .ofNat k = pc' :=
  ⟨(pc' - pc).toNat, by rw [UInt32.ofNat_toNat, UInt32.add_comm, UInt32.sub_add_cancel]⟩

lemma exists_returnsAt_iff :
    (∃ pc, returnsAt codes pc) ↔ ∃ i < 2 ^ 31, codes[i]?.any isReturn := by
  constructor
  · rintro ⟨pc, h⟩
    rw [returnsAt, Bool.and_eq_true, decide_eq_true_eq] at h
    exact ⟨pc.toNat, h⟩
  · rintro ⟨i, hi, h⟩
    have hnat : (UInt32.ofNat i).toNat = i :=
      UInt32.toNat_ofNat_of_lt' (by change _ < 2 ^ 32; omega)
    exact ⟨.ofNat i, by rw [returnsAt, hnat, decide_eq_true hi, Bool.true_and, h]⟩

/-- **Main result.** Whatever the counter starts from, and with no interruption, the block is
returned after finitely many cycles just when its list has an I/O or an exit. -/
theorem leaves_iff (port : Port σ) (pcb : Pcb) (memory : σ) :
    (∃ k, Left pcb.id (cycles port k ⟨some pcb, false, memory⟩).1
        (cycles port k ⟨some pcb, false, memory⟩).2) ↔
      ∃ i < 2 ^ 31, ∃ instruction, pcb.instructions[i]? = some instruction ∧
        (instruction.icode = .io ∨ instruction.icode = .exit) := by
  have hgoing : Going (pcb.instructions.map (·.icode)) pcb.id pcb.pc
      (⟨some pcb, false, memory⟩ : Cpu σ) := ⟨⟨pcb, rfl, rfl, rfl, rfl⟩, rfl⟩
  have hlist : (∃ i < 2 ^ 31, ∃ instruction, pcb.instructions[i]? = some instruction ∧
      (instruction.icode = .io ∨ instruction.icode = .exit)) ↔
      ∃ pc, returnsAt (pcb.instructions.map (·.icode)) pc := by
    simp only [exists_returnsAt_iff, List.getElem?_map, Option.any_map, Option.any_eq_true,
      isReturn, Bool.or_eq_true, beq_iff_eq]
  rw [hlist]
  constructor
  · rintro ⟨k, hpcb, -⟩
    obtain ⟨⟨j, -, hret⟩, -⟩ | ⟨-, ⟨⟨pcb', hpcb', -⟩, -⟩⟩ := hgoing.cycles port k
    · exact ⟨_, hret⟩
    · rw [hpcb] at hpcb'
      cases hpcb'
  · rintro ⟨pc', hret⟩
    obtain ⟨k, rfl⟩ := exists_turns pcb.pc pc'
    refine ⟨k + 1, ?_⟩
    obtain ⟨-, hleft⟩ | ⟨hnone, -⟩ := hgoing.cycles port (k + 1)
    · exact hleft
    · exact absurd hret (hnone k (by omega))

def noOpPcb : Pcb := ⟨1, .executing, [⟨.noOp, 0, 0⟩], 0, 0⟩

/-- A program without I/O and exit never leaves. -/
theorem not_leaves : ¬ ∀ (port : Port Unit) (pcb : Pcb) (memory : Unit), pcb.instructions ≠ [] →
    (∀ instruction ∈ pcb.instructions, instruction.icode ≠ .noInstruction) →
    ∃ k, Left pcb.id (cycles port k ⟨some pcb, false, memory⟩).1
      (cycles port k ⟨some pcb, false, memory⟩).2 := by
  intro h
  let port : Port Unit := ⟨fun _ _ _ _ => (0, ()), fun _ _ _ _ _ => (), fun _ => ()⟩
  obtain ⟨k, hpcb, -⟩ := h port noOpPcb () (by decide) (by decide)
  have hgoing : Going [.noOp] 1 0 (⟨some noOpPcb, false, ()⟩ : Cpu Unit) :=
    ⟨⟨noOpPcb, rfl, rfl, rfl, rfl⟩, rfl⟩
  -- at no value of the counter is there an instruction that returns the block
  have hnone : ¬ ∃ pc, returnsAt [.noOp] pc := by
    rw [exists_returnsAt_iff]
    rintro ⟨i, -, hi⟩
    cases i with
    | zero => exact absurd hi (by decide)
    | succ i => cases hi
  obtain ⟨⟨j, -, hret⟩, -⟩ | ⟨-, ⟨⟨pcb, hpcb', -⟩, -⟩⟩ := hgoing.cycles port k
  · exact hnone ⟨_, hret⟩
  · rw [hpcb] at hpcb'
    cases hpcb'

end Sski.Cpu.Termination
