import Sski.Cpu.Cycle
import Mathlib.Tactic.Common

/-!
The meaning of the instruction set, and when the CPU keeps to it.

The reference interpreter takes the instructions in order, with a counter that does not wrap.
The CPU has the same effects as long as the copies go to address 0, which is where it always
writes them, and its counter does not come back to an instruction that has an effect.
-/

namespace Sski.Cpu.Interpreter

open Sski.Cpu.Cycle

variable {σ : Type*} (port : Port σ)

/-- A list of instructions as a process has it: no longer than an `int` counts. -/
structure Program where
  instructions : List Instruction
  length_lt : instructions.length < 2 ^ 31

/-- The interpreter's state: the next instruction, memory, and whether the block was
returned. -/
structure Machine (σ : Type*) where
  pc : ℕ
  memory : σ
  returned : Bool

def interpret (prog : Program) (pid pageTable : UInt32) (m : Machine σ) :
    Machine σ × List Effect :=
  if m.returned then (m, [])
  else
    let m' := { m with pc := m.pc + 1 }
    match prog.instructions[m.pc]? with
    | none => (m', [])
    | some ⟨.read, a, _⟩ =>
      let (value, memory) := port.read m.memory pid pageTable a
      ({ m' with memory }, [.read a value])
    | some ⟨.write, a, v⟩ =>
      ({ m' with memory := port.write m.memory pid pageTable a v }, [.write a v])
    | some ⟨.copy, d, s⟩ =>
      let (value, memory) := port.read m.memory pid pageTable s
      ({ m' with memory := port.write memory pid pageTable d value },
        [.read s value, .write d value])
    | some ⟨.noOp, _, _⟩ => (m', [])
    | some ⟨.io, t, _⟩ =>
      ({ m' with returned := true }, [.returnPcb pid .blocked (.ofNat m'.pc) t])
    | some ⟨.exit, t, _⟩ =>
      ({ m' with returned := true }, [.returnPcb pid .terminated (.ofNat m'.pc) t])
    | some ⟨.noInstruction, _, _⟩ => (m', [])

def interprets (prog : Program) (pid pageTable : UInt32) : ℕ → Machine σ → Machine σ × List Effect
  | 0, m => (m, [])
  | k + 1, m =>
    let (m, effects) := interprets prog pid pageTable k m
    let (m, effects') := interpret port prog pid pageTable m
    (m, effects ++ effects')

def returns (prog : Program) (pc : ℕ) : Bool :=
  prog.instructions[pc]?.any fun instruction =>
    instruction.icode == .io || instruction.icode == .exit

/-- The condition on the instruction a cycle takes: a copy goes to address 0, and once the
counter has wrapped it has no effect at all. -/
def Plain (prog : Program) (pc : ℕ) : Prop :=
  ∀ instruction, prog.instructions[pc % 2 ^ 32]? = some instruction →
    (instruction.icode = .copy → instruction.param0 = 0) ∧
    (2 ^ 32 ≤ pc → instruction.icode = .noOp ∨ instruction.icode = .noInstruction)

/-- The condition on the first `k` cycles from `pc`: `Plain` for each before a return. -/
def PlainUpTo (prog : Program) (pc k : ℕ) : Prop :=
  ∀ i < k, (∀ j < i, ¬ returns prog (pc + j)) → Plain prog (pc + i)

/-! ### The list of instructions as the CPU rewrites it -/

/-- The codes are the program's, and from the counter on so is everything. -/
def Rewritten (prog : Program) (pc : ℕ) (instructions : List Instruction) : Prop :=
  instructions.map (·.icode) = prog.instructions.map (·.icode) ∧
    ∀ i, pc ≤ i → instructions[i]? = prog.instructions[i]?

lemma rewritten_self (prog : Program) (pc : ℕ) : Rewritten prog pc prog.instructions :=
  ⟨rfl, fun _ _ => rfl⟩

lemma Rewritten.length {prog : Program} {pc : ℕ} {instructions : List Instruction}
    (h : Rewritten prog pc instructions) : instructions.length = prog.instructions.length := by
  simpa using congrArg List.length h.1

lemma Rewritten.icode {prog : Program} {pc : ℕ} {instructions : List Instruction}
    (h : Rewritten prog pc instructions) (i : ℕ) :
    instructions[i]?.map (·.icode) = prog.instructions[i]?.map (·.icode) := by
  rw [← List.getElem?_map, ← List.getElem?_map, h.1]

lemma Rewritten.succ {prog : Program} {pc : ℕ} {instructions : List Instruction}
    (h : Rewritten prog pc instructions) : Rewritten prog (pc + 1) instructions :=
  ⟨h.1, fun i hi => h.2 i (by omega)⟩

lemma Rewritten.set {prog : Program} {pc : ℕ} {instructions : List Instruction}
    (h : Rewritten prog pc instructions) {old new : Instruction}
    (hold : instructions[pc]? = some old) (hcode : new.icode = old.icode) :
    Rewritten prog (pc + 1) (instructions.set pc new) := by
  obtain ⟨hlt, rfl⟩ := List.getElem?_eq_some_iff.mp hold
  refine ⟨?_, fun i hi => ?_⟩
  · rw [List.map_set, hcode, ← h.1]
    exact List.ext_getElem (by simp) (by
      intro i h₁ h₂
      rw [List.getElem_set]
      split
      · next heq => subst heq; simp
      · rfl)
  · rw [List.getElem?_set_ne (by omega), h.2 i (by omega)]

lemma instructionFetch_ofNat {prog : Program} {pc : ℕ} {instructions : List Instruction}
    (h : Rewritten prog pc instructions) (pid pageTable : UInt32) (status : PcbStatus) :
    instructionFetch ⟨pid, status, instructions, pageTable, .ofNat pc⟩ =
      instructions[pc % 2 ^ 32]? := by
  unfold instructionFetch
  have hlen := h.length
  have hlt := prog.length_lt
  rw [UInt32.toNat_ofNat']
  split
  · rfl
  · rw [List.getElem?_eq_none (by omega)]

/-- Before the counter wraps, what is fetched is the program's instruction. -/
lemma instructionFetch_eq {prog : Program} {pc : ℕ} {instructions : List Instruction}
    (h : Rewritten prog pc instructions) (hpc : pc < 2 ^ 32) (pid pageTable : UInt32)
    (status : PcbStatus) :
    instructionFetch ⟨pid, status, instructions, pageTable, .ofNat pc⟩ =
      prog.instructions[pc]? := by
  rw [instructionFetch_ofNat h, Nat.mod_eq_of_lt hpc, h.2 pc (Nat.le_refl pc)]

/-! ### The two in step -/

/-- The process is executing, and both are about to take the instruction at `pc`. -/
structure Running (prog : Program) (pid pageTable : UInt32) (pc : ℕ) (cpu : Cpu σ)
    (m : Machine σ) : Prop where
  pcb : ∃ status instructions, Rewritten prog pc instructions ∧
    cpu.pcb = some ⟨pid, status, instructions, pageTable, .ofNat pc⟩
  interruption : cpu.hasInterruption = false
  memory : cpu.memory = m.memory
  pc : m.pc = pc
  returned : m.returned = false

def Done (cpu : Cpu σ) (m : Machine σ) : Prop := cpu.pcb = none ∧ m.returned = true

lemma Done.step {cpu : Cpu σ} {m : Machine σ} (h : Done cpu m) (prog : Program)
    (pid pageTable : UInt32) :
    cycle port cpu = (cpu, []) ∧ interpret port prog pid pageTable m = (m, []) := by
  obtain ⟨hcpu, hm⟩ := h
  exact ⟨by simp [cycle, hcpu], by simp [interpret, hm]⟩

section Step

variable {port} {prog : Program} {pid pageTable : UInt32} {pc : ℕ} {cpu : Cpu σ} {m : Machine σ}

/-- A wrapped counter finds nothing with an effect, and the interpreter is past the end. -/
lemma Running.step_wrapped (h : Running prog pid pageTable pc cpu m) (hplain : Plain prog pc)
    (hpc : 2 ^ 32 ≤ pc) :
    (cycle port cpu).2 = (interpret port prog pid pageTable m).2 ∧
      Running prog pid pageTable (pc + 1) (cycle port cpu).1
        (interpret port prog pid pageTable m).1 := by
  obtain ⟨⟨status, instructions, hrw, hpcb⟩, hint, hmem, hmpc, hret⟩ := h
  have hfetch := instructionFetch_ofNat hrw pid pageTable status
  have hlt := prog.length_lt
  have hnone : prog.instructions[pc]? = none := List.getElem?_eq_none (by omega)
  have hcodes := hrw.icode (pc % 2 ^ 32)
  cases hi : instructions[pc % 2 ^ 32]? with
  | none =>
    rw [hi] at hfetch
    refine ⟨by simp [cycle, interpret, hpcb, hint, hfetch, hret, hmpc, hnone],
      ⟨⟨status, instructions, hrw.succ, ?_⟩, ?_, ?_, ?_, ?_⟩⟩ <;>
    simp [cycle, interpret, hpcb, hint, hfetch, hret, hmpc, hnone, hmem, UInt32.ofNat_add]
  | some instruction =>
    rw [hi] at hfetch hcodes
    cases hp : prog.instructions[pc % 2 ^ 32]? with
    | none =>
      rw [hp] at hcodes
      cases hcodes
    | some planned =>
      rw [hp] at hcodes
      have hcode : instruction.icode = planned.icode := Option.some.inj hcodes
      obtain hno | hno := (hplain planned hp).2 hpc <;> rw [hno] at hcode <;>
      refine ⟨by simp [cycle, interpret, hpcb, hint, hfetch, hret, hmpc, hnone, decode, hcode,
        instructionExecute], ⟨⟨status, instructions, hrw.succ, ?_⟩, ?_, ?_, ?_, ?_⟩⟩ <;>
      simp [cycle, interpret, hpcb, hint, hfetch, hret, hmpc, hnone, hmem, decode, hcode,
        instructionExecute, UInt32.ofNat_add]

/-- The one instruction the CPU takes before its counter wraps, by its code. -/
lemma Running.step_before (h : Running prog pid pageTable pc cpu m) (hplain : Plain prog pc)
    (hpc : pc < 2 ^ 32) :
    (cycle port cpu).2 = (interpret port prog pid pageTable m).2 ∧
      if returns prog pc then Done (cycle port cpu).1 (interpret port prog pid pageTable m).1
      else Running prog pid pageTable (pc + 1) (cycle port cpu).1
        (interpret port prog pid pageTable m).1 := by
  obtain ⟨⟨status, instructions, hrw, hpcb⟩, hint, hmem, hmpc, hret⟩ := h
  have hfetch := instructionFetch_eq hrw hpc pid pageTable status
  have hmod : pc % 2 ^ 32 = pc := Nat.mod_eq_of_lt hpc
  cases hp : prog.instructions[pc]? with
  | none =>
    rw [hp] at hfetch
    refine ⟨by simp [cycle, interpret, hpcb, hint, hfetch, hret, hmpc, hp], ?_⟩
    simp only [returns, hp, Option.any_none, Bool.false_eq_true, if_false]
    refine ⟨⟨status, instructions, hrw.succ, ?_⟩, ?_, ?_, ?_, ?_⟩ <;>
    simp [cycle, interpret, hpcb, hint, hfetch, hret, hmpc, hp, hmem, UInt32.ofNat_add]
  | some instruction =>
    rw [hp] at hfetch
    obtain ⟨icode, a, b⟩ := instruction
    cases icode with
    | copy =>
      -- the operand is read, the instruction rewritten, and the write goes where `param0` says
      obtain rfl : a = 0 := (hplain _ (by rw [hmod, hp])).1 rfl
      refine ⟨by simp [cycle, interpret, hpcb, hint, hfetch, hret, hmpc, hp, decode,
        instructionExecute, withOperands, fetchOperands, executeRead, hmem], ?_⟩
      simp only [returns, hp]
      have hset := hrw.set (hp ▸ hrw.2 pc (Nat.le_refl pc) : instructions[pc]? = _)
        (show (Instruction.mk .copy 0 (port.read m.memory pid pageTable b).1).icode = .copy
          from rfl)
      refine ⟨⟨status, _, hset, ?_⟩, ?_, ?_, ?_, ?_⟩ <;>
      simp [cycle, interpret, hpcb, hint, hfetch, hret, hmpc, hp, hmem, decode,
        instructionExecute, withOperands, fetchOperands, executeCopy, executeRead, executeWrite,
        Nat.mod_eq_of_lt (show pc < 4294967296 from hpc), UInt32.ofNat_add]
    | io | exit =>
      refine ⟨by simp [cycle, interpret, hpcb, hint, hfetch, hret, hmpc, hp, decode,
        instructionExecute, executeIO, executeExit, returnPcb, UInt32.ofNat_add], ?_⟩
      simp [returns, hp, Done, cycle, interpret, hpcb, hint, hfetch, hret, hmpc, decode,
        instructionExecute, executeIO, executeExit, returnPcb]
    | read | write | noOp | noInstruction =>
      refine ⟨by simp [cycle, interpret, hpcb, hint, hfetch, hret, hmpc, hp, decode,
        instructionExecute, executeRead, hmem], ?_⟩
      simp only [returns, hp]
      refine ⟨⟨status, instructions, hrw.succ, ?_⟩, ?_, ?_, ?_, ?_⟩ <;>
      simp [cycle, interpret, hpcb, hint, hfetch, hret, hmpc, hp, hmem, decode,
        instructionExecute, executeRead, executeWrite, UInt32.ofNat_add]

variable (port) in
lemma Running.step (h : Running prog pid pageTable pc cpu m) (hplain : Plain prog pc) :
    (cycle port cpu).2 = (interpret port prog pid pageTable m).2 ∧
      if returns prog pc then Done (cycle port cpu).1 (interpret port prog pid pageTable m).1
      else Running prog pid pageTable (pc + 1) (cycle port cpu).1
        (interpret port prog pid pageTable m).1 := by
  by_cases hpc : pc < 2 ^ 32
  · exact h.step_before hplain hpc
  · have hreturns : returns prog pc = false := by
      have hlt := prog.length_lt
      simp [returns, List.getElem?_eq_none (show prog.instructions.length ≤ pc by omega)]
    rw [hreturns]
    exact h.step_wrapped hplain (by omega)

/-! ### The two apart -/

/-- Two lists of effects that nothing appended to them makes equal: they differ where both have
an entry, or the CPU has more and the interpreter will add none. -/
def Apart (m : Machine σ) (effects effects' : List Effect) : Prop :=
  (¬ effects <+: effects' ∧ ¬ effects' <+: effects) ∨
    (effects'.length < effects.length ∧ m.returned = false ∧ 2 ^ 32 ≤ m.pc)

lemma Apart.ne {effects effects' : List Effect} (h : Apart m effects effects') :
    effects ≠ effects' := by
  rintro rfl
  obtain ⟨h, -⟩ | ⟨h, -⟩ := h
  · exact h List.prefix_rfl
  · omega

lemma not_prefix_append {α : Type*} {l l' : List α} (h : ¬ l <+: l') (h' : ¬ l' <+: l)
    (r r' : List α) : ¬ l ++ r <+: l' ++ r' := fun hpre =>
  (List.prefix_or_prefix_of_prefix ((List.prefix_append l r).trans hpre)
    (List.prefix_append l' r')).elim h h'

lemma interpret_past (hret : m.returned = false) (hpc : 2 ^ 32 ≤ m.pc) :
    interpret port prog pid pageTable m = ({ m with pc := m.pc + 1 }, []) := by
  have hlt := prog.length_lt
  have hnone : prog.instructions[m.pc]? = none := List.getElem?_eq_none (by omega)
  simp [interpret, hret, hnone]

lemma Apart.step {effects effects' : List Effect} (h : Apart m effects effects')
    (more : List Effect) :
    Apart (interpret port prog pid pageTable m).1 (effects ++ more)
      (effects' ++ (interpret port prog pid pageTable m).2) := by
  obtain ⟨h₁, h₂⟩ | ⟨hlen, hret, hpc⟩ := h
  · exact .inl ⟨not_prefix_append h₁ h₂ _ _, not_prefix_append h₂ h₁ _ _⟩
  · rw [interpret_past hret hpc]
    exact .inr ⟨by simp; omega, hret, by simp; omega⟩

/-- An instruction that is not plain sets the two apart. -/
lemma Running.apart (h : Running prog pid pageTable pc cpu m) (hplain : ¬ Plain prog pc)
    (effects : List Effect) :
    Apart (interpret port prog pid pageTable m).1 (effects ++ (cycle port cpu).2)
      (effects ++ (interpret port prog pid pageTable m).2) := by
  obtain ⟨⟨status, instructions, hrw, hpcb⟩, hint, hmem, hmpc, hret⟩ := h
  obtain ⟨instruction, hp, hnot⟩ : ∃ instruction,
      prog.instructions[pc % 2 ^ 32]? = some instruction ∧
      ¬ ((instruction.icode = .copy → instruction.param0 = 0) ∧
        (2 ^ 32 ≤ pc → instruction.icode = .noOp ∨ instruction.icode = .noInstruction)) := by
    simpa [Plain] using hplain
  obtain ⟨icode, a, b⟩ := instruction
  by_cases hpc : pc < 2 ^ 32
  · -- a copy to an address other than 0, which the CPU writes to address 0
    obtain ⟨rfl, ha⟩ : icode = .copy ∧ ¬ a = 0 := by
      by_contra hcon
      exact hnot ⟨fun hc => by_contra fun ha => hcon ⟨hc, ha⟩, fun h => by omega⟩
    rw [Nat.mod_eq_of_lt hpc] at hp
    have hfetch := (instructionFetch_eq hrw hpc pid pageTable status).trans hp
    have hcpu : (cycle port cpu).2 =
        [.read b (port.read m.memory pid pageTable b).1,
          .write 0 (port.read m.memory pid pageTable b).1] := by
      simp [cycle, hpcb, hint, hfetch, decode, instructionExecute, withOperands, fetchOperands,
        executeRead, hmem]
    have hm : (interpret port prog pid pageTable m).2 =
        [.read b (port.read m.memory pid pageTable b).1,
          .write a (port.read m.memory pid pageTable b).1] := by
      simp [interpret, hret, hmpc, hp]
    rw [hcpu, hm]
    refine .inl ⟨?_, ?_⟩ <;> rw [List.prefix_append_right_inj] <;>
    simp [List.cons_prefix_cons, ha, Ne.symm ha]
  · -- a wrapped counter at an instruction with an effect, while the interpreter is past the end
    have hpast : interpret port prog pid pageTable m = ({ m with pc := m.pc + 1 }, []) :=
      interpret_past hret (by omega)
    have hcodes := hrw.icode (pc % 2 ^ 32)
    obtain ⟨fetched, hf, hcode⟩ : ∃ fetched, instructions[pc % 2 ^ 32]? = some fetched ∧
        fetched.icode = icode := by
      rw [hp] at hcodes
      exact Option.map_eq_some_iff.mp hcodes
    have hfetch := (instructionFetch_ofNat hrw pid pageTable status).trans hf
    have hne : (cycle port cpu).2 ≠ [] := by
      cases icode with
      | noOp | noInstruction => exact absurd ⟨by simp, by simp⟩ hnot
      | copy | io | exit | read | write =>
        simp [cycle, hpcb, hint, hfetch, decode, hcode, instructionExecute, withOperands,
          executeIO, executeExit, returnPcb]
    have hpos := List.length_pos_iff.mpr hne
    rw [hpast]
    exact .inr ⟨by simp; omega, hret, by simp; omega⟩

end Step

/-! ### Runs of cycles -/

def started (prog : Program) (pid pageTable pc : UInt32) (status : PcbStatus) (memory : σ) :
    Cpu σ :=
  ⟨some ⟨pid, status, prog.instructions, pageTable, pc⟩, false, memory⟩

section Run

variable (prog : Program) (pid pageTable pc : UInt32) (status : PcbStatus) (memory : σ)

lemma running_started :
    Running prog pid pageTable pc.toNat (started prog pid pageTable pc status memory)
      ⟨pc.toNat, memory, false⟩ :=
  ⟨⟨status, prog.instructions, rewritten_self _ _, by simp [started]⟩, rfl, rfl, rfl, rfl⟩

/-- After any number of cycles the two are in step if all of them were plain, and apart if
one was not. -/
lemma cycles_cases (k : ℕ) :
    let run := cycles port k (started prog pid pageTable pc status memory)
    let run' := interprets port prog pid pageTable k ⟨pc.toNat, memory, false⟩
    (PlainUpTo prog pc.toNat k ∧ run.2 = run'.2 ∧
        (((∃ j < k, returns prog (pc.toNat + j) = true) ∧ Done run.1 run'.1) ∨
          ((∀ j < k, ¬ returns prog (pc.toNat + j)) ∧
            Running prog pid pageTable (pc.toNat + k) run.1 run'.1))) ∨
      (¬ PlainUpTo prog pc.toNat k ∧ Apart run'.1 run.2 run'.2) := by
  induction k with
  | zero =>
    exact .inl ⟨fun i hi => by omega, rfl, .inr ⟨fun j hj => by omega,
      running_started prog pid pageTable pc status memory⟩⟩
  | succ k ih =>
    simp only [cycles, interprets] at ih ⊢
    obtain ⟨hplain, heq, ⟨⟨j, hj, hret⟩, hdone⟩ | ⟨hnone, hrun⟩⟩ | ⟨hnot, hapart⟩ := ih
    · -- returned before: neither does anything
      obtain ⟨h₁, h₂⟩ := hdone.step port prog pid pageTable
      refine .inl ⟨fun i hi hbefore => ?_, by rw [h₁, h₂, heq], .inl ⟨⟨j, by omega, hret⟩, ?_⟩⟩
      · obtain hi | rfl : i < k ∨ i = k := by omega
        · exact hplain i hi hbefore
        · exact absurd hret (hbefore j hj)
      · rw [h₁, h₂]
        exact hdone
    · by_cases hp : Plain prog (pc.toNat + k)
      · obtain ⟨heff, hstep⟩ := hrun.step port hp
        refine .inl ⟨fun i hi hbefore => ?_, by rw [heq, heff], ?_⟩
        · obtain hi | rfl : i < k ∨ i = k := by omega
          · exact hplain i hi hbefore
          · exact hp
        · split at hstep
          · next hret => exact .inl ⟨⟨k, by omega, hret⟩, hstep⟩
          · next hret =>
            refine .inr ⟨fun j hj => ?_, hstep⟩
            obtain hj | rfl : j < k ∨ j = k := by omega
            · exact hnone j hj
            · exact hret
      · refine .inr ⟨fun hall => hp (hall k (by omega) hnone), ?_⟩
        rw [heq]
        exact hrun.apart hp _
    · exact .inr ⟨fun hall => hnot fun i hi => hall i (by omega), hapart.step _⟩

/-- **The CPU and the interpreter.** For every program, memory and counter, and any number of
cycles without interruption, the effects are the interpreter's exactly when every instruction
taken before a return is plain. -/
theorem effects_eq_iff (k : ℕ) :
    (cycles port k (started prog pid pageTable pc status memory)).2 =
        (interprets port prog pid pageTable k ⟨pc.toNat, memory, false⟩).2 ↔
      PlainUpTo prog pc.toNat k := by
  obtain ⟨hplain, heq, -⟩ | ⟨hnot, hapart⟩ :=
    cycles_cases port prog pid pageTable pc status memory k
  · exact iff_of_true heq hplain
  · exact iff_of_false hapart.ne hnot

end Run

/-! ### A copy that goes elsewhere -/

def logical : Port (UInt32 → UInt32) where
  read memory _ _ a := (memory a, memory)
  write memory _ _ a v := fun b => if b = a then v else memory b
  reset := id

def copyProgram : Program := ⟨[⟨.copy, 8, 4⟩], by decide⟩

/-- The copy of address 4 to address 8 is written to address 0. -/
theorem not_effects_eq_copy :
    (cycles logical 1 (started copyProgram 1 0 0 .ready fun a => a)).2 ≠
        (interprets logical copyProgram 1 0 1 ⟨0, fun a => a, false⟩).2 ∧
      (cycles logical 1 (started copyProgram 1 0 0 .ready fun a => a)).2 =
        [.read 4 4, .write 0 4] ∧
      (interprets logical copyProgram 1 0 1 ⟨0, fun a => a, false⟩).2 =
        [.read 4 4, .write 8 4] := by
  decide

end Sski.Cpu.Interpreter
