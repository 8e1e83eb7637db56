import Sski.Mem.Frames

/-!
What the use and modified bits say about the past of a page.

Beside the memory module runs a record of what was written to a page since it was loaded, and of
which pages were used since the selector last cleared them. The bits follow the record as long as
no read goes to a page that was written, for a read clears the modified bit, and no request finds
a page whose use bit is clear, for none of them sets it.
-/

namespace Sski.Mem.Bits

open Sski.Lib.Runs Sski.Mem.MemoryModule Sski.Mem.PageTable Sski.Mem.OsMemory Sski.Mem.Swap
open Sski.Mem.Algorithms Sski.Mem.CpuController Sski.Mem.KernelController Sski.Mem.Tables
open Sski.Mem.Rows Sski.Mem.Frames

variable (c : Cfg)

/-! ### The record -/

def present (m : Memory) (p : RowRef) : Bool := (m.rowAt p).any (·.present)

def used (m : Memory) (p : RowRef) : Bool := (m.rowAt p).any (·.use)

def modified (m : Memory) (p : RowRef) : Bool := (m.rowAt p).any (·.modified)

/-- The row of the page that is in a frame. -/
def resident (m : Memory) (frame : ℕ) (p : RowRef) : Bool :=
  (m.rowAt p).any fun r => r.present && r.frame == frame && frame != invalidFrame

def loaded (m m' : Memory) (p : RowRef) : Bool :=
  (m.rowAt p).any (!·.present) && present m' p

/-- A fault that has to replace a page ran the selector and the eviction, and after them the use
bit is clear. -/
def cleared (m : Memory) (pid op1 : ℕ) (os : Os) (p : RowRef) : Bool :=
  shouldReplaceFrame c (findFreeFrame m).1 op1 == some true &&
    (evict c (findFreeFrame m).1 op1 pid os).any fun m => (m.rowAt p).any (!·.use)

/-- The memory, the pages that were written since they were loaded, and the pages that were used
since the selector cleared them or they were evicted. -/
structure Recorded where
  memory : Memory
  written : RowRef → Bool
  touched : RowRef → Bool

def record (t : Recorded) (m' : Memory) : Request → Recorded
  | .rd physicalAddress =>
    let frame := getFrame c physicalAddress.toNat
    ⟨m', t.written, fun p => t.touched p || resident t.memory frame p⟩
  | .wt physicalAddress _ =>
    let frame := getFrame c physicalAddress.toNat
    ⟨m', fun p => t.written p || resident t.memory frame p,
      fun p => t.touched p || resident t.memory frame p⟩
  | .frame pid op1 op2 os _ =>
    let ref := (op1.toNat, op2.toNat)
    ⟨m', fun p => t.written p && !loaded t.memory m' p,
      fun p =>
        if present t.memory ref then t.touched p || p == ref
        else t.touched p && !((t.memory.rowAt ref).isSome &&
          cleared c t.memory pid.toNat op1.toNat os p)⟩
  | .processTerminated _ _ =>
    ⟨m', fun p => t.written p && (m'.rowAt p).isSome,
      fun p => t.touched p && (m'.rowAt p).isSome⟩
  | .memoryInit .. | .sndPage .. => ⟨m', t.written, t.touched⟩

def step (t : Recorded) (req : Request) : Option Recorded := do
  let m' ← KernelController.step c t.memory req
  return record c t m' req

def init (heap : ℕ → UInt8) : Recorded :=
  ⟨onInitMemory c heap, fun _ => false, fun _ => false⟩

/-- The bits tell the history of their pages. -/
structure Law (t : Recorded) : Prop where
  modified : ∀ p, t.written p = true → modified t.memory p = true
  use : ∀ p, t.touched p = true → used t.memory p = true

/-! ### The condition -/

/-- The row whose modified bit a read or a write sets. -/
def setRef (m : Memory) (frame : ℕ) : Option RowRef :=
  if getTableLvl2Number m frame = uint32Max then none else (getFrameRef c m frame).join

/-- A read finds a page that was not written, and every access finds the use bit set. -/
def Lawful (t : Recorded) : Request → Prop
  | .rd physicalAddress =>
    let frame := getFrame c physicalAddress.toNat
    ∀ p ∈ setRef c t.memory frame,
      t.written p = false ∧ (resident t.memory frame p = true → used t.memory p = true)
  | .wt physicalAddress _ =>
    let frame := getFrame c physicalAddress.toNat
    ∀ p ∈ setRef c t.memory frame, resident t.memory frame p = true → used t.memory p = true
  | .frame _ op1 op2 _ _ =>
    present t.memory (op1.toNat, op2.toNat) = true → used t.memory (op1.toNat, op2.toNat) = true
  | _ => True

instance (t : Recorded) (req : Request) : Decidable (Lawful c t req) := by
  cases req <;> unfold Lawful <;> infer_instance

variable {c} {m m' : Memory} {t t' : Recorded} {p : RowRef} {r : PageTableLvl2}

/-! ### Rows through a page fault -/

lemma resident_iff {frame : ℕ} : resident m frame p = true ↔
    ∃ r, m.rowAt p = some r ∧ r.present = true ∧ r.frame = frame ∧ frame ≠ invalidFrame := by
  simp [resident, Option.any_eq_true, and_assoc]

lemma modified_of_row (h : m.rowAt p = some r) : modified m p = r.modified := by
  simp [modified, h]

lemma used_of_row (h : m.rowAt p = some r) : used m p = r.use := by simp [used, h]

lemma exists_row_of_modified (h : modified m p = true) : ∃ r, m.rowAt p = some r := by
  obtain ⟨r, hr, -⟩ := Option.any_eq_true _ _ |>.mp h
  exact ⟨r, hr⟩

lemma allocate_row {idTable2 index pid newFrame : ℕ} {os : Os}
    (h : allocate c m idTable2 index pid newFrame os = some m') (hr : m.rowAt p = some r) :
    ∃ r', m'.rowAt p = some r' ∧ r'.modified = r.modified ∧
      (r.frame ≠ invalidFrame → r'.frame = r.frame) ∧ (r.use = true → r'.use = true) := by
  obtain ⟨row, hrow, ⟨hinv, createdAt, h⟩ | ⟨hne, m₁, m₂, h₁, h₂, h⟩⟩ := allocate_cases h
  · -- a new frame goes to a row without one
    rcases createFrameForTable_cases h with ⟨rfl, -⟩ | ⟨s, ⟨hs, hinv', -⟩, rfl⟩
    · exact ⟨r, hr, rfl, fun _ => rfl, id⟩
    · rw [Memory.rowAt_setRow _ hs]
      split
      next heq =>
        subst heq
        cases hr.symm.trans hs
        exact ⟨_, rfl, rfl, fun hne => absurd hinv' hne, fun _ => rfl⟩
      next => exact ⟨r, hr, rfl, fun _ => rfl, id⟩
  · -- the page is loaded into its old frame
    obtain ⟨frames, rfl, -⟩ := deleteFrame_eq h₁
    obtain ⟨r₂, hr₂, habs⟩ := (sameRows_unswapFrameForPcb h₂).rowAt_some (p := p) (r := r) hr
    obtain ⟨s, hs, rfl⟩ := modifyRow_eq h
    have hsame : r₂.modified = r.modified ∧ r₂.frame = r.frame ∧ r₂.use = r.use := by
      simp only [absent, PageTableLvl2.mk.injEq] at habs
      exact ⟨habs.2.2.2, habs.1, habs.2.2.1⟩
    rw [Memory.rowAt_setRow _ hs]
    split
    next heq =>
      subst heq
      cases hr₂.symm.trans hs
      exact ⟨_, rfl, hsame.1, fun _ => hsame.2.1, fun _ => rfl⟩
    next => exact ⟨r₂, hr₂, hsame.1, fun _ => hsame.2.1, fun hu => hsame.2.2.trans hu⟩

lemma rowAt_findFreeFrame (m : Memory) (p : RowRef) :
    (findFreeFrame m).1.rowAt p = m.rowAt p := by
  unfold findFreeFrame
  split <;> rfl

lemma pageFault_row {op1 op2 pid frame : ℕ} {os os' : Os}
    (h : pageFault c m op1 op2 pid os os' = some (m', frame)) (hr : m.rowAt p = some r) :
    ∃ r', m'.rowAt p = some r' ∧ r'.modified = r.modified ∧
      (r.frame ≠ invalidFrame → r'.frame = r.frame) ∧
      (r.use = true → cleared c m pid op1 os p = false → r'.use = true) := by
  obtain ⟨m₁, m₂, hfind, hevict, hallocate⟩ := pageFault_steps h
  have hr₁ : m₁.rowAt p = some r := by
    have hrow := rowAt_findFreeFrame m p
    rw [hfind] at hrow
    exact hrow.trans hr
  obtain ⟨r₂, hr₂, hev⟩ := (sameRows_evict hevict).rowAt_some hr₁
  obtain ⟨r', hr', hmod, hframe, huse⟩ := allocate_row hallocate hr₂
  simp only [evicted, PageTableLvl2.mk.injEq] at hev
  refine ⟨r', hr', hmod.trans hev.2.2.2, fun hne => ?_, fun hu hclear => huse ?_⟩
  · exact (hframe (hev.1.trans_ne hne)).trans hev.1
  · rcases evict_cases hevict with ⟨-, rfl⟩ | ⟨hfull, -⟩
    · -- nothing was replaced
      cases hr₁.symm.trans hr₂
      exact hu
    · rw [cleared, hfind, hfull, hevict] at hclear
      simpa [hr₂] using hclear

/-! ### Reads and writes -/

/-- The modified bits are those of before, but for the row that is found. -/
def Sets (c : Cfg) (m m' : Memory) (frame : ℕ) (b : Bool) : Prop :=
  (setRef c m frame = none ∧ ∀ p, m'.rowAt p = m.rowAt p) ∨
    ∃ q s, setRef c m frame = some q ∧ m.rowAt q = some s ∧
      ∀ p, m'.rowAt p = if p = q then some { s with modified := b } else m.rowAt p

lemma sets_setModified {frame : ℕ} {b : Bool} (hne : getTableLvl2Number m frame ≠ uint32Max)
    (h : setModified c m frame b = some m') : Sets c m m' frame b := by
  unfold setModified at h
  split at h
  next => cases h
  next href =>
    obtain rfl := Option.some.inj h
    exact .inl ⟨by rw [setRef, if_neg hne, href]; rfl, fun _ => rfl⟩
  next q href =>
    obtain ⟨s, hs, rfl⟩ := modifyRow_eq h
    exact .inr ⟨q, s, by rw [setRef, if_neg hne, href]; rfl, hs, Memory.rowAt_setRow _ hs⟩

lemma sets_read {pa v : ℕ} (h : cpuControllerRead c m pa = some (m', v)) :
    Sets c m m' (getFrame c pa) false := by
  simp only [cpuControllerRead] at h
  split at h
  next hnone =>
    obtain ⟨rfl, -⟩ := Prod.mk.inj (Option.some.inj h)
    exact .inl ⟨by rw [setRef, if_pos hnone], fun _ => rfl⟩
  next hne =>
    simp only [Option.bind_eq_bind, Option.bind_eq_some_iff, Option.pure_def, Option.some.injEq,
      Prod.mk.injEq] at h
    obtain ⟨m₁, h₁, v', -, rfl, -⟩ := h
    exact sets_setModified hne h₁

lemma sets_write {pa v : ℕ} (h : cpuControllerWrite c m pa v = some m') :
    Sets c m m' (getFrame c pa) true := by
  simp only [cpuControllerWrite] at h
  split at h
  next hnone =>
    obtain rfl := Option.some.inj h
    exact .inl ⟨by rw [setRef, if_pos hnone], fun _ => rfl⟩
  next hne =>
    simp only [writeInMemory, Option.bind_eq_bind, Option.bind_eq_some_iff, Option.pure_def,
      Option.some.injEq] at h
    obtain ⟨m₁, h₁, mainMemory, -, rfl⟩ := h
    have hsets := sets_setModified hne h₁
    exact hsets

/-- The page in a frame is the one that is found. -/
lemma setRef_of_resident (hm : Mapped c m) {frame : ℕ} (h : resident m frame p = true) :
    setRef c m frame = some p := by
  obtain ⟨r, hr, -, rfl, hne⟩ := resident_iff.mp h
  have hlt := rowAt_lt hr
  have hlen := hm.forest.length2
  have hnum : getTableLvl2Number m r.frame ≠ uint32Max := by
    rw [hm.getTableLvl2Number_eq hr hne]
    simp only [uint32Max, Lib.Slots.intBound] at hlen ⊢
    omega
  rw [setRef, if_neg hnum, hm.getFrameRef_eq hr hne]
  rfl

lemma Sets.used_eq {frame : ℕ} {b : Bool} (h : Sets c m m' frame b) (p : RowRef) :
    used m' p = used m p := by
  rcases h with ⟨-, hrows⟩ | ⟨q, s, -, hs, hrows⟩
  · rw [used, used, hrows]
  · rw [used, used, hrows]
    split
    next heq => rw [heq, hs]; rfl
    next => rfl

lemma Sets.modified_of_ne {frame : ℕ} {b : Bool} (h : Sets c m m' frame b)
    (hp : setRef c m frame ≠ some p) : modified m' p = modified m p := by
  rcases h with ⟨-, hrows⟩ | ⟨q, s, href, -, hrows⟩
  · rw [modified, modified, hrows]
  · rw [modified, modified, hrows, if_neg]
    rintro rfl
    exact hp href

lemma Sets.modified_self {frame : ℕ} {b : Bool} (h : Sets c m m' frame b)
    (hp : setRef c m frame = some p) : modified m' p = b := by
  rcases h with ⟨hnone, -⟩ | ⟨q, s, href, -, hrows⟩
  · rw [hnone] at hp
    cases hp
  · cases href.symm.trans hp
    rw [modified, hrows, if_pos rfl]
    rfl

lemma Sets.frame {frame : ℕ} {b : Bool} (h : Sets c m m' frame b) {r' : PageTableLvl2}
    (hr' : m'.rowAt p = some r') : ∃ r, m.rowAt p = some r ∧ r.frame = r'.frame := by
  rcases h with ⟨-, hrows⟩ | ⟨q, s, -, hs, hrows⟩
  · exact ⟨r', (hrows p).symm.trans hr', rfl⟩
  · rw [hrows] at hr'
    split at hr'
    next heq =>
      obtain rfl := Option.some.inj hr'
      exact ⟨s, heq ▸ hs, rfl⟩
    next => exact ⟨r', hr', rfl⟩

/-! ### Every run -/

structure Inv (c : Cfg) (t : Recorded) : Prop where
  mapped : Mapped c t.memory
  law : Law t
  /-- A page that was written has a frame. -/
  framed : ∀ p r, t.written p = true → t.memory.rowAt p = some r → r.frame ≠ invalidFrame

lemma inv_init (heap : ℕ → UInt8) : Inv c (init c heap) :=
  ⟨mapped_onInitMemory c heap, ⟨fun _ h => (by cases h), fun _ h => (by cases h)⟩,
    fun _ _ h => (by cases h)⟩

lemma step_eq_some {req : Request} (h : step c t req = some t') :
    KernelController.step c t.memory req = some t'.memory ∧ t' = record c t t'.memory req := by
  simp only [step, Option.bind_eq_bind, Option.bind_eq_some_iff, Option.pure_def,
    Option.some.injEq] at h
  obtain ⟨m', hm', rfl⟩ := h
  cases req <;> exact ⟨hm', rfl⟩

/-- Rows that stay as they are keep the law, for every page whose row stays. -/
lemma Inv.kept (hi : Inv c t) (hm : Mapped c m') {written touched : RowRef → Bool}
    (hw : ∀ p, written p = true → t.written p = true ∧ m'.rowAt p = t.memory.rowAt p)
    (ht : ∀ p, touched p = true → t.touched p = true ∧ m'.rowAt p = t.memory.rowAt p) :
    Inv c ⟨m', written, touched⟩ := by
  refine ⟨hm, ⟨fun p hp => ?_, fun p hp => ?_⟩, fun p r hp hr => ?_⟩
  · obtain ⟨hold, hrow⟩ := hw p hp
    simp only [modified, hrow]
    exact hi.law.modified p hold
  · obtain ⟨hold, hrow⟩ := ht p hp
    simp only [used, hrow]
    exact hi.law.use p hold
  · obtain ⟨hold, hrow⟩ := hw p hp
    exact hi.framed p r hold (hrow.symm.trans hr)

lemma Inv.exists_row (hi : Inv c t) (hp : t.written p = true ∨ t.touched p = true) :
    ∃ r, t.memory.rowAt p = some r := by
  rcases hp with hp | hp
  · exact exists_row_of_modified (hi.law.modified p hp)
  · obtain ⟨r, hr, -⟩ := Option.any_eq_true _ _ |>.mp (hi.law.use p hp)
    exact ⟨r, hr⟩

lemma Inv.memoryInit (hi : Inv c t) {pid pcbSize : UInt32} {os : Os}
    (h : KernelController.step c t.memory (.memoryInit pid pcbSize os) = some m') :
    Inv c ⟨m', t.written, t.touched⟩ := by
  obtain ⟨id, hinit⟩ := step_memoryInit h
  obtain ⟨file, hc⟩ := kernelControllerMemoryInit_steps hi.mapped.forest hinit
  have hrow : ∀ p r, t.memory.rowAt p = some r → m'.rowAt p = t.memory.rowAt p := by
    intro p r hr
    obtain ⟨table, ht, hget⟩ := Memory.rowAt_eq_some_iff.mp hr
    rw [hr]
    exact Memory.rowAt_eq_some_iff.mpr ⟨table, hc.table2_of_live ht, hget⟩
  refine hi.kept (hi.mapped.step h) (fun p hp => ⟨hp, ?_⟩) (fun p hp => ⟨hp, ?_⟩)
  · obtain ⟨r, hr⟩ := hi.exists_row (.inl hp)
    exact hrow p r hr
  · obtain ⟨r, hr⟩ := hi.exists_row (.inr hp)
    exact hrow p r hr

lemma Inv.processTerminated (hi : Inv c t) {pcbId tableId : UInt32}
    (h : KernelController.step c t.memory (.processTerminated pcbId tableId) = some m') :
    Inv c ⟨m', fun p => t.written p && (m'.rowAt p).isSome,
      fun p => t.touched p && (m'.rowAt p).isSome⟩ := by
  obtain ⟨m₁, h₁, rfl⟩ := kernelControllerDestroyProcessFile_steps (step_processTerminated h)
  have hrow : ∀ p, (m₁.rowAt p).isSome → m₁.rowAt p = t.memory.rowAt p := by
    intro p hp
    obtain ⟨r, hr⟩ := Option.isSome_iff_exists.mp hp
    rcases deleteProcess_spec hi.mapped.forest h₁ with ⟨-, rfl⟩ | ⟨rows, -, hd⟩
    · rfl
    · rw [hr, (Deleted.rowAt hd hr).2]
  refine hi.kept (hi.mapped.step h) (fun p hp => ?_) (fun p hp => ?_)
  · rw [Bool.and_eq_true] at hp
    exact ⟨hp.1, hrow p hp.2⟩
  · rw [Bool.and_eq_true] at hp
    exact ⟨hp.1, hrow p hp.2⟩

lemma Inv.frame (hi : Inv c t) {pid op1 op2 : UInt32} {os os' : Os}
    (hl : Lawful c t (.frame pid op1 op2 os os'))
    (h : KernelController.step c t.memory (.frame pid op1 op2 os os') = some m') :
    Inv c (record c t m' (.frame pid op1 op2 os os')) := by
  have hm := hi.mapped.step h
  obtain ⟨f, h⟩ := step_frame h
  simp only [Lawful] at hl
  simp only [record]
  rcases obtainFrame_cases h with ⟨hout, rfl, -⟩ | ⟨r, hr, hpres, rfl, -⟩ | ⟨r, hr, habs, h⟩
  · -- there is no such row
    have hnone : t.memory.rowAt (op1.toNat, op2.toNat) = none := by
      rw [Option.eq_none_iff_forall_ne_some]
      intro r hr
      obtain ⟨table, ht, hget⟩ := Memory.rowAt_eq_some_iff.mp hr
      have hlt := (List.getElem?_eq_some_iff.mp hget).1
      rw [hi.mapped.forest.rows2 _ table ht] at hlt
      simp only at hlt
      omega
    refine hi.kept hm (fun p hp => ?_) (fun p hp => ?_)
    · rw [Bool.and_eq_true] at hp
      exact ⟨hp.1, rfl⟩
    · simp only [present, hnone, Option.any_none, Bool.false_eq_true, if_false,
        Bool.and_eq_true] at hp
      exact ⟨hp.1, rfl⟩
  · -- the page is there, and its use bit is set already
    have hpresent : present t.memory (op1.toNat, op2.toNat) = true := by simp [present, hr, hpres]
    refine ⟨hm, ⟨fun p hp => ?_, fun p hp => ?_⟩, fun p s hp hs => ?_⟩
    · rw [Bool.and_eq_true] at hp
      exact hi.law.modified p hp.1
    · simp only [hpresent, if_true, Bool.or_eq_true, beq_iff_eq] at hp
      rcases hp with hp | rfl
      · exact hi.law.use p hp
      · exact hl hpresent
    · rw [Bool.and_eq_true] at hp
      exact hi.framed p s hp.1 hs
  · -- the page faults
    have hpresent : present t.memory (op1.toNat, op2.toNat) = false := by simp [present, hr, habs]
    refine ⟨hm, ⟨fun p hp => ?_, fun p hp => ?_⟩, fun p s hp hs => ?_⟩
    · rw [Bool.and_eq_true] at hp
      obtain ⟨s, hs⟩ := hi.exists_row (.inl hp.1)
      obtain ⟨s', hs', hmod, -⟩ := pageFault_row h hs
      have hold := hi.law.modified p hp.1
      rw [modified_of_row hs] at hold
      exact (modified_of_row hs').trans (hmod.trans hold)
    · simp only [hpresent, Bool.false_eq_true, if_false, hr, Option.isSome_some, Bool.true_and,
        Bool.and_eq_true, Bool.not_eq_true'] at hp
      obtain ⟨s, hs⟩ := hi.exists_row (.inr hp.1)
      obtain ⟨s', hs', -, -, huse⟩ := pageFault_row h hs
      have hold := hi.law.use p hp.1
      rw [used_of_row hs] at hold
      exact (used_of_row hs').trans (huse hold hp.2)
    · rw [Bool.and_eq_true] at hp
      obtain ⟨r₀, hr₀⟩ := hi.exists_row (.inl hp.1)
      have hne := hi.framed p r₀ hp.1 hr₀
      obtain ⟨s', hs', -, hframe, -⟩ := pageFault_row h hr₀
      cases hs.symm.trans hs'
      rw [hframe hne]
      exact hne

lemma Inv.rd (hi : Inv c t) {pa : UInt32} (hl : Lawful c t (.rd pa))
    (h : KernelController.step c t.memory (.rd pa) = some m') :
    Inv c (record c t m' (.rd pa)) := by
  have hm := hi.mapped.step h
  obtain ⟨v, h⟩ := step_rd h
  have hsets := sets_read h
  simp only [Lawful] at hl
  refine ⟨hm, ⟨fun p hp => ?_, fun p hp => ?_⟩, fun p r hp hr => ?_⟩
  · -- the modified bit that is cleared is that of a page that was not written
    refine (hsets.modified_of_ne fun hfound => ?_).trans (hi.law.modified p hp)
    have hnot := (hl p hfound).1
    rw [show t.written p = true from hp] at hnot
    cases hnot
  · refine (hsets.used_eq p).trans ?_
    rcases (Bool.or_eq_true _ _).mp hp with hp | hp
    · exact hi.law.use p hp
    · exact (hl p (setRef_of_resident hi.mapped hp)).2 hp
  · obtain ⟨r₀, hr₀, hframe⟩ := hsets.frame hr
    rw [← hframe]
    exact hi.framed p r₀ hp hr₀

lemma Inv.wt (hi : Inv c t) {pa value : UInt32} (hl : Lawful c t (.wt pa value))
    (h : KernelController.step c t.memory (.wt pa value) = some m') :
    Inv c (record c t m' (.wt pa value)) := by
  have hm := hi.mapped.step h
  have hsets := sets_write (step_wt h)
  simp only [Lawful] at hl
  refine ⟨hm, ⟨fun p hp => ?_, fun p hp => ?_⟩, fun p r hp hr => ?_⟩
  · rcases (Bool.or_eq_true _ _).mp hp with hp | hp
    · by_cases hfound : setRef c t.memory (getFrame c pa.toNat) = some p
      · exact hsets.modified_self hfound
      · exact (hsets.modified_of_ne hfound).trans (hi.law.modified p hp)
    · exact hsets.modified_self (setRef_of_resident hi.mapped hp)
  · refine (hsets.used_eq p).trans ?_
    rcases (Bool.or_eq_true _ _).mp hp with hp | hp
    · exact hi.law.use p hp
    · exact hl p (setRef_of_resident hi.mapped hp) hp
  · obtain ⟨r₀, hr₀, hframe⟩ := hsets.frame hr
    rw [← hframe]
    rcases (Bool.or_eq_true _ _).mp hp with hp | hp
    · exact hi.framed p r₀ hp hr₀
    · obtain ⟨r₁, hr₁, -, hf, hne⟩ := resident_iff.mp hp
      cases hr₀.symm.trans hr₁
      rw [hf]
      exact hne

lemma Inv.step (hi : Inv c t) {req : Request} (hl : Lawful c t req)
    (h : step c t req = some t') : Inv c t' := by
  obtain ⟨hstep, ht'⟩ := step_eq_some h
  rw [ht']
  cases req with
  | memoryInit pid pcbSize os => exact hi.memoryInit hstep
  | sndPage op1 op2 =>
    have hsame : t'.memory = t.memory := step_sndPage hstep
    have hkept := hi.kept (hi.mapped.step hstep) (fun p hp => ⟨hp, by rw [hsame]⟩)
      (fun p hp => ⟨hp, by rw [hsame]⟩)
    exact hkept
  | frame pid op1 op2 os os' => exact hi.frame hl hstep
  | rd pa => exact hi.rd hl hstep
  | wt pa value => exact hi.wt hl hstep
  | processTerminated pcbId tableId => exact hi.processTerminated hstep

/-- A request that is not lawful breaks the law. -/
lemma lawful_of_law {req : Request} (h : Bits.step c t req = some t') (hlaw : Law t') :
    Lawful c t req := by
  obtain ⟨hstep, ht'⟩ := step_eq_some h
  rw [ht'] at hlaw
  cases req with
  | memoryInit | sndPage | processTerminated => trivial
  | rd pa =>
    obtain ⟨v, hread⟩ := step_rd hstep
    have hsets := sets_read hread
    intro p hfound
    refine ⟨?_, fun hres => ?_⟩
    · by_contra hp
      have hwritten : t.written p = true := by simpa using hp
      have hmod := hlaw.modified p hwritten
      rw [show (record c t t'.memory (.rd pa)).memory = t'.memory from rfl,
        hsets.modified_self hfound] at hmod
      cases hmod
    · have huse := hlaw.use p (by simp [record, hres])
      exact (hsets.used_eq p).symm.trans huse
  | wt pa value =>
    have hsets := sets_write (step_wt hstep)
    intro p hfound hres
    have huse := hlaw.use p (by simp [record, hres])
    exact (hsets.used_eq p).symm.trans huse
  | frame pid op1 op2 os os' =>
    intro hpresent
    obtain ⟨f, hobt⟩ := step_frame hstep
    have huse := hlaw.use (op1.toNat, op2.toNat) (by simp [record, hpresent])
    rcases obtainFrame_cases hobt with ⟨-, hsame, -⟩ | ⟨-, -, -, hsame, -⟩ | ⟨r, hr, habs, -⟩
    · rwa [hsame] at huse
    · rwa [hsame] at huse
    · rw [present, hr] at hpresent
      simp [habs] at hpresent

/-- **Main result.** In every run whose requests are lawful the bits tell the history of their
pages in every state reached, and from there the next request keeps the law just when it is
lawful. -/
theorem law_of_lawful (c : Cfg) (heap : ℕ → UInt8) (reqs : List Request) (t : Recorded)
    (hmeets : Meets (step c) (Lawful c) (init c heap) reqs)
    (hrun : run (step c) (init c heap) reqs = some t) :
    Law t ∧ ∀ req t', step c t req = some t' → (Law t' ↔ Lawful c t req) := by
  have hi : Inv c t := hmeets.inv (fun _ _ _ hi hl h => hi.step hl h) (inv_init heap) hrun
  exact ⟨hi.law, fun req t' h => ⟨lawful_of_law h, fun hl => (hi.step hl h).law⟩⟩

def writtenRun : List Request :=
  [.memoryInit 1 64 goodOs, .frame 1 0 0 goodOs goodOs, .wt 0 7, .frame 1 0 0 goodOs goodOs]

set_option maxRecDepth 40000 in
theorem law_of_writtenRun :
    ∃ t, run (step smallCfg) (init smallCfg fun _ => 0) writtenRun = some t ∧ Law t :=
  ⟨_, rfl, (law_of_lawful smallCfg (fun _ => 0) writtenRun _ (by decide +kernel) rfl).1⟩

def clockMCfg : Cfg := { smallCfg with algoritmoReemplazo := .clockM }

def replacedRun : List Request :=
  [.memoryInit 1 64 goodOs, .frame 1 0 0 goodOs goodOs, .frame 1 0 1 goodOs goodOs,
    .frame 1 1 0 goodOs goodOs, .frame 1 0 1 goodOs goodOs]

set_option maxRecDepth 40000 in
/-- A page that was written and is read counts as clean, and one that is found after the selector
passed it counts as unused. -/
theorem not_law :
    (∃ t, run (step smallCfg) (init smallCfg fun _ => 0)
        [.memoryInit 1 64 goodOs, .frame 1 0 0 goodOs goodOs, .wt 0 7, .rd 0] = some t ∧
      t.written (0, 0) = true ∧ modified t.memory (0, 0) = false ∧ ¬ Law t) ∧
    ∃ t, run (step clockMCfg) (init clockMCfg fun _ => 0) replacedRun = some t ∧
      t.touched (0, 1) = true ∧ resident t.memory 1 (0, 1) = true ∧
      used t.memory (0, 1) = false ∧ ¬ Law t := by
  refine ⟨⟨_, rfl, by decide +kernel, by decide +kernel, fun h => ?_⟩,
    ⟨_, rfl, by decide +kernel, by decide +kernel, by decide +kernel, fun h => ?_⟩⟩
  · exact absurd (h.modified (0, 0) (by decide +kernel)) (by decide +kernel)
  · exact absurd (h.use (0, 1) (by decide +kernel)) (by decide +kernel)

end Sski.Mem.Bits
