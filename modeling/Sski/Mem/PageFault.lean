import Sski.Mem.Sparing
import Sski.Mem.SwapRoom
import Sski.Mem.Validation

/-!
What the CPU gets when it asks for the frame of a row.

`Answered` is the postcondition of `obtain_frame`. It holds for a page that is present, and for
the first access to a page if no earlier row of its table is waiting for a frame and the eviction
goes through. A page that was swapped out goes back to its old frame while the new one, which was
given back, is answered.
-/

namespace Sski.Mem.PageFault

open Sski.Lib.Runs Sski.Mem.MemoryModule Sski.Mem.PageTable Sski.Mem.OsMemory Sski.Mem.Swap
open Sski.Mem.Algorithms Sski.Mem.CpuController Sski.Mem.KernelController Sski.Mem.Tables
open Sski.Mem.Rows Sski.Mem.Frames Sski.Mem.Selection Sski.Mem.Resident Sski.Mem.SwapFile
open Sski.Mem.SecondChance Sski.Mem.Sparing
open Sski.Mem.SwapRoom Sski.Mem.Faults Sski.Mem.Locality Sski.Mem.Validation

variable {c : Cfg} {m m' : Memory}

/-! ### Well-formed states -/

/-- A page that is present has a frame. -/
def Framed (m : Memory) : Prop :=
  ∀ p r, m.rowAt p = some r → r.present = true → r.frame ≠ invalidFrame

lemma Framed.absent (h : Framed m) {p : RowRef} {r : PageTableLvl2} (hr : m.rowAt p = some r)
    (hinv : r.frame = invalidFrame) : r.present = false := by
  by_contra hpres
  exact h p r hr (by simpa using hpres) hinv

structure WellFormed (c : Cfg) (m : Memory) : Prop where
  served : Served c m
  main : m.mainMemory.length = c.tamMemoria
  framed : Framed m

lemma wellFormed_onInitMemory (c : Cfg) (heap : ℕ → UInt8) :
    WellFormed c (onInitMemory c heap) := by
  refine ⟨served_onInitMemory c heap, length_malloc heap c.tamMemoria, ?_⟩
  intro p r hr
  simp [onInitMemory, Memory.rowAt, Memory.table2, Sski.Lib.Slots.slotGet] at hr

def FindsFrame (c : Cfg) (m : Memory) : Request → Prop
  | .frame _ op1 op2 _ _ => faults c m op1.toNat op2.toNat = true → false ∈ m.frames
  | _ => True

lemma Framed.sameRows (hf : Framed m)
    (h : SameRows (fun r => (r.frame, r.present)) m m') : Framed m' := by
  intro p r' hr' hpres
  obtain ⟨r, hr, hsame⟩ := h.symm.rowAt_some hr'
  obtain ⟨hframe, hpresent⟩ := Prod.mk.inj hsame
  rw [← hframe]
  exact hf p r hr (hpresent.trans hpres)

lemma Framed.setRow (hf : Framed m) {p : RowRef} {r₀ r : PageTableLvl2}
    (hr₀ : m.rowAt p = some r₀) (hr : r.present = true → r.frame ≠ invalidFrame) :
    Framed (m.setRow p r) := by
  intro q s hs hpres
  rw [Memory.rowAt_setRow _ hr₀] at hs
  split at hs
  · obtain rfl := Option.some.inj hs
    exact hr hpres
  · exact hf q s hs hpres

lemma Framed.evict (hf : Framed m) {idTable2 pid : ℕ} {os : Os}
    (h : evict c m idTable2 pid os = some m') : Framed m' := by
  intro p r' hr' hpres
  obtain ⟨r, hr, hsame⟩ := (sameRows_evict h).symm.rowAt_some hr'
  have hframe : r.frame = r'.frame := (congrArg PageTableLvl2.frame hsame :)
  rw [← hframe]
  refine hf p r hr ?_
  -- an eviction makes no row present
  by_contra habs
  obtain ⟨s, hs, hsabs⟩ := evict_absent h hr (by simpa using habs)
  obtain rfl : r' = s := by simpa [hr'] using hs
  rw [hpres] at hsabs
  cases hsabs

lemma Framed.unswapFrameForPcb (hf : Framed m) {pid frame : ℕ} {os : Os}
    (hne : frame ≠ invalidFrame) (h : unswapFrameForPcb c m pid frame os = some m') :
    Framed m' := by
  rcases unswapFrameForPcb_cases h with
    ⟨-, rfl⟩ | ⟨k, d, -, -, ⟨-, rfl⟩ | ⟨-, found, m₁, region, offset, -, hload, -, h⟩⟩
  · exact hf
  · exact hf
  · obtain ⟨mainMemory, rfl⟩ := loadRecord_eq hload
    obtain ⟨p, r, -, hr, hframe, rfl⟩ := setPresent_eq h
    have hf₁ : Framed (setSwapOffset (setFile { m with mainMemory } pid
        (some (munmap ((m.files pid).getD []) region))) k offset) := hf
    exact hf₁.setRow hr fun _ => hframe ▸ hne

lemma Framed.allocate (hf : Framed m) {idTable2 index pid newFrame : ℕ} {os : Os}
    (hne : newFrame ≠ invalidFrame)
    (h : allocate c m idTable2 index pid newFrame os = some m') : Framed m' := by
  obtain ⟨row, -, ⟨-, createdAt, h⟩ | ⟨hrow, m₁, m₂, h₁, h₂, h⟩⟩ := allocate_cases h
  · rcases createFrameForTable_cases h with ⟨rfl, -⟩ | ⟨r, ⟨hr, -, -⟩, rfl⟩
    · exact hf
    · exact hf.setRow hr fun _ => hne
  · obtain ⟨frames, rfl, -, -⟩ := deleteFrame_eq h₁
    have hf₁ : Framed { m with frames } := hf
    obtain ⟨r, hr, rfl⟩ := modifyRow_eq h
    have hf₂ := hf₁.unswapFrameForPcb hrow h₂
    refine hf₂.setRow hr ?_
    exact hf₂ _ r hr

lemma Framed.obtainFrame (hf : Framed m) (hm : Mapped c m) {idTable2 index pid frame : ℕ}
    {os os' : Os} (hfree : faults c m idTable2 index = true → false ∈ m.frames)
    (h : obtainFrame c m idTable2 index pid os os' = some (m', frame)) : Framed m' := by
  by_cases hle : index > c.maxRows
  · simp only [CpuController.obtainFrame, if_pos hle, Option.pure_def, Option.some.injEq,
      Prod.mk.injEq] at h
    exact h.1 ▸ hf
  rcases obtainFrame_cases h with ⟨-, rfl, -⟩ | ⟨-, -, -, rfl, -⟩ | ⟨row, hrow, habs, h⟩
  · exact hf
  · exact hf
  · obtain ⟨m₁, m₂, hfind, hevict, hallocate⟩ := pageFault_steps h
    have hne := findFreeFrame_ne hm (hfree (by simp [faults, hrow, habs]; omega)) hfind
    obtain ⟨frames, rfl⟩ := findFreeFrame_fields hfind
    have hf₁ : Framed { m with frames } := hf
    exact (hf₁.evict hevict).allocate hne hallocate

lemma Framed.created (hf : Framed m) {id : ℕ} (h : Created c m m' id) : Framed m' := by
  intro p r hr hpres
  obtain ⟨table, ht, hget⟩ := Memory.rowAt_eq_some_iff.mp hr
  rw [h.table2] at ht
  split at ht
  · obtain rfl := Option.some.inj ht
    obtain rfl := mem_newPageTableLvl2 (List.mem_of_getElem? hget)
    cases hpres
  · exact hf p r (Memory.rowAt_eq_some_iff.mpr ⟨table, ht, hget⟩) hpres

lemma Framed.step (hf : Framed m) (hm : Mapped c m) {req : Request}
    (hfree : FindsFrame c m req) (h : step c m req = some m') : Framed m' := by
  cases req with
  | memoryInit pid pcbSize os =>
    obtain ⟨id, h⟩ := step_memoryInit h
    obtain ⟨file, hc⟩ := kernelControllerMemoryInit_steps hm.forest h
    have hf₁ : Framed (setFile { m with
        swapData := m.swapData ++ [⟨pid.toNat, 0, pcbSize.toNat⟩] } pid.toNat file) := hf
    exact hf₁.created hc
  | sndPage op1 op2 =>
    obtain rfl := step_sndPage h
    exact hf
  | frame pid op1 op2 os os' =>
    obtain ⟨f, h⟩ := step_frame h
    exact hf.obtainFrame hm hfree h
  | rd physicalAddress =>
    obtain ⟨v, h⟩ := step_rd h
    exact hf.sameRows ((sameRows_cpuControllerRead h).comp fun r => (r.frame, r.present))
  | wt physicalAddress value =>
    exact hf.sameRows ((sameRows_cpuControllerWrite (step_wt h)).comp fun r => (r.frame, r.present))
  | processTerminated pcbId tableId =>
    obtain ⟨m₁, h₁, rfl⟩ := kernelControllerDestroyProcessFile_steps (step_processTerminated h)
    rcases deleteProcess_spec hm.forest h₁ with ⟨-, rfl⟩ | ⟨rows, ht, hd⟩
    · exact hf
    · intro p r hr
      exact hf p r (Deleted.rowAt hd hr).2

/-! ### The size of main memory -/

lemma length_loadRecord {region : List UInt8} {frame : ℕ} {os : Os} {found : Option ℕ}
    (h : loadRecord c m region frame os found = some m') :
    m'.mainMemory.length = m.mainMemory.length := by
  cases found with
  | none =>
    obtain rfl := Option.some.inj h
    rfl
  | some i =>
    simp only [loadRecord, loadPage, Option.bind_eq_bind, Option.bind_eq_some_iff,
      Option.pure_def, Option.some.injEq] at h
    obtain ⟨saved, -, frameData, -, mainMemory, hpoke, rfl⟩ := h
    exact Sski.Lib.Block.length_of_poke hpoke

lemma length_unswapFrameForPcb {pid frame : ℕ} {os : Os}
    (h : unswapFrameForPcb c m pid frame os = some m') :
    m'.mainMemory.length = m.mainMemory.length := by
  rcases unswapFrameForPcb_cases h with
    ⟨-, rfl⟩ | ⟨k, d, -, -, ⟨-, rfl⟩ | ⟨-, found, m₁, region, offset, -, hload, -, h⟩⟩
  · rfl
  · rfl
  · obtain ⟨l, rfl⟩ := setPresent_fields h
    change m₁.mainMemory.length = _
    exact length_loadRecord hload

lemma length_obtainFrame {idTable2 index pid frame : ℕ} {os os' : Os}
    (h : obtainFrame c m idTable2 index pid os os' = some (m', frame)) :
    m'.mainMemory.length = m.mainMemory.length := by
  rcases obtainFrame_cases h with ⟨-, rfl, -⟩ | ⟨-, -, -, rfl, -⟩ | ⟨row, -, -, h⟩
  · rfl
  · rfl
  obtain ⟨m₁, m₂, hfind, hevict, hallocate⟩ := pageFault_steps h
  obtain ⟨frames, rfl⟩ := findFreeFrame_fields hfind
  have hmain := (evict_fields hevict).2.1
  obtain ⟨row, -, ⟨-, createdAt, h⟩ | ⟨-, m₃, m₄, h₃, h₄, h⟩⟩ := allocate_cases hallocate
  · rcases createFrameForTable_cases h with ⟨rfl, -⟩ | ⟨r, -, rfl⟩
    · rw [hmain]
    · rw [Memory.setRow_mainMemory, hmain]
  · obtain ⟨frames', rfl, -, -⟩ := deleteFrame_eq h₃
    obtain ⟨l, rfl⟩ := modifyRow_fields h
    exact (length_unswapFrameForPcb h₄).trans (congrArg List.length hmain)

lemma length_step (hf : Forest c m) {req : Request} (h : step c m req = some m') :
    m'.mainMemory.length = m.mainMemory.length := by
  cases req with
  | memoryInit pid pcbSize os =>
    obtain ⟨id, h⟩ := step_memoryInit h
    obtain ⟨file, l₁, l₂, rfl⟩ := kernelControllerMemoryInit_fields h
    rfl
  | sndPage op1 op2 =>
    obtain rfl := step_sndPage h
    rfl
  | frame pid op1 op2 os os' =>
    obtain ⟨f, h⟩ := step_frame h
    exact length_obtainFrame h
  | rd physicalAddress =>
    obtain ⟨v, h⟩ := step_rd h
    obtain ⟨l, rfl⟩ := cpuControllerRead_fields h
    rfl
  | wt physicalAddress value =>
    have h := step_wt h
    simp only [cpuControllerWrite] at h
    split at h
    · obtain rfl := Option.some.inj h
      rfl
    · simp only [writeInMemory, Option.bind_eq_bind, Option.bind_eq_some_iff, Option.pure_def,
        Option.some.injEq] at h
      obtain ⟨m₁, h₁, mainMemory, hpoke, rfl⟩ := h
      obtain ⟨l, rfl⟩ := setModified_fields h₁
      exact Sski.Lib.Block.length_of_poke hpoke
  | processTerminated pcbId tableId =>
    obtain ⟨m₁, h₁, rfl⟩ := kernelControllerDestroyProcessFile_steps (step_processTerminated h)
    rcases deleteProcess_spec hf h₁ with ⟨-, rfl⟩ | ⟨rows, -, hd⟩
    · rfl
    · exact congrArg List.length hd.rest.mainMemory

theorem WellFormed.step (hw : WellFormed c m) {req : Request} (hfree : FindsFrame c m req)
    (h : step c m req = some m') : WellFormed c m' :=
  ⟨hw.served.step h, (length_step hw.served.mapped.forest h).trans hw.main,
    hw.framed.step hw.served.mapped hfree h⟩

/-- A run in which every page fault finds a free frame leads to a well-formed state. -/
theorem wellFormed_of_run {heap : ℕ → UInt8} {reqs : List Request}
    (hfree : Meets (KernelController.step c) (FindsFrame c) (onInitMemory c heap) reqs)
    (h : run (KernelController.step c) (onInitMemory c heap) reqs = some m) : WellFormed c m :=
  hfree.inv (fun _ _ _ hw hfree h => hw.step hfree h) (wellFormed_onInitMemory c heap) h

/-! ### When an eviction goes through -/

/-- The selector answers a frame: a present row can be taken, or the absent row at the hand of the
clock has one. -/
def Picks (c : Cfg) (m : Memory) (rows : List PageTableLvl1) : Prop :=
  ¬ Stuck c (rowRefs c rows) (hand c m) m ∨
    (c.algoritmoReemplazo = .clock ∧
      ∃ r, rowIx (rowRefs c rows) m (hand c m) = some r ∧ r.frame ≠ invalidFrame)

lemma picks_of_hand {rows : List PageTableLvl1} {r : PageTableLvl2}
    (hr : rowIx (rowRefs c rows) m (hand c m) = some r) (hpres : r.present = true) :
    Picks c m rows :=
  .inl fun hstuck => (hstuck _ r hr hpres).1 rfl

/-- The condition under which a page of a full process goes out: `max_rows * max_rows` fits in 32
bits; and if its record is really written, there is a page, and the mapping has room. -/
structure CanEvict (c : Cfg) (m : Memory) (rows : List PageTableLvl1) (pid : ℕ) (os : Os) :
    Prop where
  small : c.maxRows < 2 ^ 16
  saved : ∀ i d, getSwapDataForPcb m pid = some (i, d) → reaches os d.size = true →
    Picks c m rows ∧ d.offset + swapEntry c ≤ roundUp d.size

lemma clockSelector_stuck {T : ℕ} {bigTable : List RowRef}
    (hbig : bigTableOf c m T = some bigTable) (hw : Whole c m bigTable)
    (hh : m.clock < totalRows c)
    (hstuck : ∀ j r, rowIx bigTable m j = some r → r.present = true →
      j ≠ m.clock ∧ r.use = true) :
    ∃ m' r, clockSelector c m T = some (m', r.frame) ∧ rowIx bigTable m m.clock = some r := by
  obtain ⟨r, hr⟩ := Option.isSome_iff_exists.mp (hw.rows m.clock (by rw [hw.length]; exact hh))
  obtain ⟨m', frame, hsel, ⟨j, hfound, -⟩ | ⟨-, rfl, -⟩⟩ := clockSelector_eq hbig hw hh
  · rw [codeClock_of_stuck hh fun i _ hp => hstuck i _ (rowIx_of_present hp) hp] at hfound
    cases hfound
  · exact ⟨m', r, by rw [hsel, tableOf_eq hr], hr⟩

lemma frameSelector_picks (hf : Forest c m) (hh : HandsIn c m) (hn : c.maxRows < 2 ^ 16)
    (hpos : 0 < totalRows c) (hframed : Framed m) {t : ℕ} {rows : List PageTableLvl1}
    (ht : m.table1 t = some rows) (hinv : ∃ p r, m.rowAt p = some r ∧ r.frame = invalidFrame) :
    ∃ m₁ f, frameSelector c m t = some (m₁, f) ∧ (f ≠ invalidFrame ↔ Picks c m rows) ∧
      ∃ p r, m.rowAt p = some r ∧ r.frame = f := by
  by_cases hstuck : Stuck c (rowRefs c rows) (hand c m) m
  · obtain ⟨hbig, hw⟩ := bigTable_of_forest hf hn ht
    have hlt := hand_lt hh hpos
    cases halg : c.algoritmoReemplazo with
    | clock =>
      simp only [hand, halg] at hlt
      have hstuck' := hstuck
      simp only [Stuck, hand, halg, hard] at hstuck'
      obtain ⟨m₁, r, hsel, hr⟩ := clockSelector_stuck hbig hw hlt hstuck'
      obtain ⟨p, -, hp⟩ := rowIx_eq_some_iff.mp hr
      refine ⟨m₁, r.frame, by simp only [frameSelector, halg, hsel], ?_, p, r, hp, rfl⟩
      have hhand : hand c m = m.clock := by simp only [hand, halg]
      rw [Picks, hhand, hr]
      rw [hhand] at hstuck
      simp [hstuck, halg]
    | clockM =>
      simp only [hand, halg] at hlt
      have hstuck' := hstuck
      simp only [Stuck, hand, halg, hard, Bool.and_eq_true] at hstuck'
      obtain ⟨m₁, hsel⟩ := improvedClockSelector_stuck hbig hw hlt hstuck'
      obtain ⟨p, r, hr, hframe⟩ := hinv
      refine ⟨m₁, invalidFrame, by simp only [frameSelector, halg, hsel], ?_, p, r, hr, hframe⟩
      simp [Picks, hstuck, halg]
  · rcases frameSelector_cases hf hn ht (hand_lt hh hpos) with
      ⟨m₁, j, f, hsel, r, hr, hpres, rfl⟩ | ⟨hs, -⟩
    · obtain ⟨p, -, hp⟩ := rowIx_eq_some_iff.mp hr
      exact ⟨m₁, r.frame, hsel, ⟨fun _ => .inl hstuck, fun _ => hframed p r hp hpres⟩, p, r, hp,
        rfl⟩
    · exact absurd hs hstuck

lemma evict_isSome_iff (hm : Mapped c m) (hh : HandsIn c m)
    (hmain : m.mainMemory.length = c.tamMemoria) (hframed : Framed m) (hd : c.maxRows ∣ bigRows c)
    {t : ℕ} {rows : List PageTableLvl1} (ht : m.table1 t = some rows) {p : RowRef}
    {r : PageTableLvl2} (hr : m.rowAt p = some r) (hinv : r.frame = invalidFrame)
    (hid : p.1 ∈ secondPages rows) (pid : ℕ) (os : Os) :
    (∃ m', evict c m p.1 pid os = some m') ↔
      (c.marcosPorProceso ≤ framesInUse m rows → CanEvict c m rows pid os) := by
  have hshould := shouldReplaceFrame_of_owner hm.forest hd ht hid
  by_cases hfull : c.marcosPorProceso ≤ framesInUse m rows
  swap
  · rw [decide_eq_false hfull] at hshould
    simp [evict, hshould, hfull]
  rw [decide_eq_true hfull] at hshould
  have hevict : evict c m p.1 pid os =
      (frameSelector c m t).bind fun x => replaceFrame c x.1 pid x.2 os := by
    simp only [evict, hshould, Option.bind_eq_bind, Option.bind_some, if_true,
      getTableLvl1Number_eq hm.forest ht hid]
  by_cases hn : c.maxRows < 2 ^ 16
  swap
  · rw [hevict, frameSelector_none (bigTableOf_none hm.forest ht hn)]
    constructor
    · rintro ⟨m', h⟩
      cases h
    · intro h
      exact absurd (h hfull).small hn
  have hpos : 0 < totalRows c := by
    have hlt := hm.forest.col_lt hr
    exact Nat.mul_pos (by omega) (by omega)
  obtain ⟨m₁, f, hsel, hpicks, q, s, hs, rfl⟩ :=
    frameSelector_picks hm.forest hh hn hpos hframed ht ⟨p, r, hr, hinv⟩
  have hselected := selected_frameSelector hsel
  obtain ⟨s₁, hs₁, hsame₁⟩ := hselected.rows.rowAt_some hs
  have hframe₁ : s₁.frame = s.frame := (congrArg PageTableLvl2.frame hsame₁ :)
  have hm₁ : Mapped c m₁ := hm.sameRows (hselected.rows.comp PageTableLvl2.frame)
  have hiff := replaceFrame_isSome_iff hm₁
    ((congrArg List.length hselected.mainMemory).trans hmain) hs₁ pid os
  rw [hframe₁, getSwapDataForPcb_congr hselected.swapData] at hiff
  rw [hevict, hsel, Option.bind_some, hiff]
  constructor
  · intro h _
    exact ⟨hn, fun i d hd hreach => ⟨hpicks.mp (h i d hd hreach).1, (h i d hd hreach).2⟩⟩
  · intro h i d hd hreach
    obtain ⟨hpick, hroom⟩ := (h hfull).saved i d hd hreach
    exact ⟨hpicks.mpr hpick, hroom⟩

/-! ### What an eviction leaves as it is -/

lemma ownFrames_tableOf (hm : Mapped c m) (hframed : Framed m) {bigTable : List RowRef}
    (hw : Selection.Whole c m bigTable) : OwnFrames (totalRows c) (tableOf bigTable m) := by
  have hrow : ∀ i < totalRows c, ∃ q, bigTable[i]? = some q ∧
      m.rowAt q = some (tableOf bigTable m i) := fun i hi => by
    obtain ⟨r, hr⟩ := Option.isSome_iff_exists.mp (hw.rows i (by rw [hw.length]; exact hi))
    rw [tableOf_eq hr]
    exact rowIx_eq_some_iff.mp hr
  refine ⟨fun i hi hp => ?_, fun i hi j hj hp hframe => ?_⟩
  · obtain ⟨q, -, hq⟩ := hrow i hi
    exact hframed q _ hq hp
  · obtain ⟨q, hqi, hq⟩ := hrow i hi
    obtain ⟨s, hsj, hs⟩ := hrow j hj
    obtain rfl := hm.unique q s _ _ hq hs (hframed q _ hq hp) hframe
    exact (List.getElem?_inj (by rw [hw.length]; exact hi) hw.nodup).mp (hqi.trans hsj.symm)

/-- The replacement takes no use bit off a row but that of the victim. If no frame is selected, the
first table with a row that has none loses the use bits of such rows. -/
structure Unnoticed (c : Cfg) (m : Memory) (rows : List PageTableLvl1) (p : RowRef) : Prop where
  spares : Spares c m (rowRefs c rows) ((rowRefs c rows).idxOf p)
  unframed : ¬ Picks c m rows → ∀ q r, q ≠ p → m.rowAt q = some r → r.frame = invalidFrame →
    r.use = if q.1 = getTableLvl2Number m invalidFrame then false
      else leftUse c m (rowRefs c rows) q r

lemma getTableLvl2Number_sameRows (hf : Forest c m) (h : SameRows PageTableLvl2.frame m m')
    (f : ℕ) : getTableLvl2Number m' f = getTableLvl2Number m f := by
  have hf' := forest_sameRows hf h
  have hheld : m'.tablesLvl2.map (holdsFrame f) = m.tablesLvl2.map (holdsFrame f) := by
    refine List.ext_getElem (by simp [h.length2]) fun i h₁ h₂ => ?_
    rw [List.length_map] at h₁ h₂
    rw [List.getElem_map, List.getElem_map, Bool.eq_iff_iff, holdsFrame_iff hf' h₁,
      holdsFrame_iff hf h₂]
    constructor
    · rintro ⟨j, r, hr, rfl⟩
      obtain ⟨r', hr', hsame⟩ := h.symm.rowAt_some hr
      exact ⟨j, r', hr', hsame⟩
    · rintro ⟨j, r, hr, rfl⟩
      obtain ⟨r', hr', hsame⟩ := h.rowAt_some hr
      exact ⟨j, r', hr', hsame⟩
  have hfind := congrArg (List.findIdx? id) hheld
  rw [List.findIdx?_map, List.findIdx?_map] at hfind
  rw [getTableLvl2Number, getTableLvl2Number]
  exact congrArg (Option.getD · invalidFrame) hfind

/-- A replacement of no frame clears rows that have none. -/
lemma replaceFrame_unframed {pid : ℕ} {os : Os}
    (h : replaceFrame c m pid invalidFrame os = some m') {q : RowRef} {r : PageTableLvl2}
    (hr : m.rowAt q = some r) (hinv : r.frame = invalidFrame) (habs : r.present = false) :
    m'.rowAt q = some { r with
      use := if q.1 = getTableLvl2Number m invalidFrame then false else r.use } := by
  simp only [replaceFrame, Option.bind_eq_bind, Option.bind_eq_some_iff] at h
  obtain ⟨m₁, h₁, h⟩ := h
  have hr₁ : m₁.rowAt q = some { r with
      use := if q.1 = getTableLvl2Number m invalidFrame then false else r.use } := by
    obtain ⟨table, ht, hget⟩ := Memory.rowAt_eq_some_iff.mp hr
    have hrows := clearFrame_rows h₁ q.1
    rw [ht] at hrows
    split at hrows
    · rename_i hq
      refine Memory.rowAt_eq_some_iff.mpr ⟨_, hrows, ?_⟩
      rw [List.getElem?_map, hget, Option.map_some, if_pos hinv, if_pos hq, habs]
    · rename_i hq
      rw [if_neg hq]
      exact Memory.rowAt_eq_some_iff.mpr ⟨_, hrows, hget⟩
  rcases swapFrameForPcb_cases h with ⟨-, rfl⟩ | ⟨i, d, -, -, ⟨-, rfl⟩ | ⟨-, region, offset, -, h⟩⟩
  · exact hr₁
  · exact hr₁
  · obtain ⟨s, x, -, hx, -, rfl⟩ := setPresent_eq h
    rw [Memory.rowAt_setRow _ hx]
    split
    · rename_i hqs
      subst hqs
      -- it was absent already
      obtain rfl := Option.some.inj (hr₁.symm.trans hx)
      rw [← habs]
    · exact hr₁

section Evicted

variable {p : RowRef} {r : PageTableLvl2} {t pid f : ℕ} {rows : List PageTableLvl1} {os : Os}
  {m₁ : Memory}

lemma replaced_framed_iff (hm : Mapped c m) (hframed : Framed m) (hh : HandsIn c m)
    (ht : m.table1 t = some rows) (hr : m.rowAt p = some r) (habs : r.present = false)
    (hid : p.1 ∈ secondPages rows) (hsel : frameSelector c m t = some (m₁, f))
    (hrep : replaceFrame c m₁ pid f os = some m') :
    (∀ q s, q ≠ p → m.rowAt q = some s → s.frame ≠ f → m'.rowAt q = some s) ↔
      Spares c m (rowRefs c rows) ((rowRefs c rows).idxOf p) := by
  have hn := maxRows_lt_of_selects hm.forest ht hsel
  have hlt := hm.forest.col_lt hr
  have hp := List.getElem?_idxOf (mem_rowRefs.mpr ⟨hid, hlt⟩)
  have hw := (bigTable_of_forest hm.forest hn ht).2
  have hk : (tableOf (rowRefs c rows) m ((rowRefs c rows).idxOf p)).present = false := by
    rw [tableOf_eq (rowIx_eq_some_iff.mpr ⟨p, hp, hr⟩)]
    exact habs
  have hu := (selected_frameSelector hsel).rows
  rw [← keeps_iff_spares hm.forest hn (hand_lt hh (Nat.mul_pos (by omega) (by omega))) ht
    (ownFrames_tableOf hm hframed hw) hk hsel, keeps_iff_rows hw hp hu]
  constructor
  · intro hsame q _ hqp s hs hne
    obtain ⟨s₁, hs₁, hunused⟩ := hu.rowAt_some hs
    have hframe : s₁.frame = s.frame := (congrArg PageTableLvl2.frame hunused :)
    have hs' := replaceFrame_row hrep hs₁ (by rwa [hframe])
    rw [hs₁, ← hs', hsame q s hqp hs hne]
  · intro hsame q s hqp hs hne
    refine replaceFrame_row hrep ?_ hne
    by_cases hq : q ∈ rowRefs c rows
    · exact hsame q hq hqp s hs hne
    · rw [frameSelector_outside hm.forest ht hq hsel, hs]

lemma replaced_unframed_iff (hm : Mapped c m) (hframed : Framed m) (hh : HandsIn c m)
    (hpos : 0 < c.maxRows) (ht : m.table1 t = some rows)
    (hsel : frameSelector c m t = some (m₁, invalidFrame))
    (hrep : replaceFrame c m₁ pid invalidFrame os = some m') {q : RowRef} {s : PageTableLvl2}
    (hs : m.rowAt q = some s) (hinv : s.frame = invalidFrame) :
    m'.rowAt q = some s ↔ s.use = if q.1 = getTableLvl2Number m invalidFrame then false
      else leftUse c m (rowRefs c rows) q s := by
  have hn := maxRows_lt_of_selects hm.forest ht hsel
  have habs := hframed.absent hs hinv
  have hs₁ := frameSelector_unframed hm.forest hn (hand_lt hh (Nat.mul_pos hpos hpos)) ht hframed
    hsel hs hinv
  rw [replaceFrame_unframed hrep hs₁ hinv habs, getTableLvl2Number_sameRows hm.forest
    ((selected_frameSelector hsel).rows.comp PageTableLvl2.frame)]
  cases s
  simp [eq_comm]

/-- An eviction changes only the row of the victim, if the replacement is not noticed. -/
lemma evict_others_iff (hm : Mapped c m) (hframed : Framed m) (hh : HandsIn c m)
    (hd : c.maxRows ∣ bigRows c) (ht : m.table1 t = some rows) (hr : m.rowAt p = some r)
    (hinv : r.frame = invalidFrame) (hid : p.1 ∈ secondPages rows)
    (h : evict c m p.1 pid os = some m') :
    (∀ q s, q ≠ p → m.rowAt q = some s →
        (selected c m p.1 = some s.frame → s.frame = invalidFrame) → m'.rowAt q = some s) ↔
      (c.marcosPorProceso ≤ framesInUse m rows → Unnoticed c m rows p) := by
  have hshould := shouldReplaceFrame_of_owner hm.forest hd ht hid
  rcases evict_cases h with ⟨hno, rfl⟩ | ⟨hfull, m₁, f, hselect, hrep⟩
  · rw [hno, Option.some.injEq, eq_comm, decide_eq_false_iff_not] at hshould
    exact iff_of_true (fun _ _ _ hs _ => hs) fun hle => absurd hle hshould
  have hselected : selected c m p.1 = some f := by
    rw [selected, if_pos hfull, hselect, Option.map_some]
  rw [hfull, Option.some.injEq, eq_comm, decide_eq_true_iff] at hshould
  rw [getTableLvl1Number_eq hm.forest ht hid] at hselect
  have habs := hframed.absent hr hinv
  have hkept := replaced_framed_iff hm hframed hh ht hr habs hid hselect hrep
  have hpos : 0 < c.maxRows := Nat.zero_lt_of_lt (hm.forest.col_lt hr)
  have hn := maxRows_lt_of_selects hm.forest ht hselect
  have hpicks : f ≠ invalidFrame ↔ Picks c m rows := by
    obtain ⟨_, _, hsel, hpicks, -⟩ := frameSelector_picks hm.forest hh hn
      (Nat.mul_pos hpos hpos) hframed ht ⟨p, r, hr, hinv⟩
    obtain ⟨-, rfl⟩ := Prod.mk.inj (Option.some.inj (hsel.symm.trans hselect))
    exact hpicks
  simp only [hselected, Option.some.injEq]
  constructor
  · intro hsame _
    refine ⟨hkept.mp fun q s hqp hs hne => hsame q s hqp hs fun heq => absurd heq.symm hne,
      fun hnone q s hqp hs hsinv => ?_⟩
    obtain rfl : f = invalidFrame := by
      by_contra hne
      exact hnone (hpicks.mp hne)
    exact (replaced_unframed_iff hm hframed hh hpos ht hselect hrep hs hsinv).mp
      (hsame q s hqp hs fun _ => hsinv)
  · intro hun q s hqp hs hvictim
    by_cases hne : s.frame = f
    · -- no frame was selected, and the row has none
      have hsinv := hvictim hne.symm
      obtain rfl : f = invalidFrame := hne.symm.trans hsinv
      exact (replaced_unframed_iff hm hframed hh hpos ht hselect hrep hs hsinv).mpr
        ((hun hshould).unframed (fun hpick => hpicks.mpr hpick rfl) q s hqp hs hsinv)
    · exact hkept.mpr (hun hshould).spares q s hqp hs hne

end Evicted

/-! ### The postcondition -/

/-- The page fault for a row replaces a row that has a frame. -/
def Replaces (c : Cfg) (m : Memory) (p : RowRef) (r : PageTableLvl2) : Prop :=
  faults c m p.1 p.2 = true ∧ victim c m p.1 = some r.frame ∧ r.frame ≠ invalidFrame

/-- What a request for the frame of a row is meant to do: the frame that is answered is that of
the row, which is present, and marked as used. Of the other rows only the victim that is replaced
changes, and only in its present and use bits. -/
structure Answered (c : Cfg) (m m' : Memory) (p : RowRef) (f : ℕ) : Prop where
  row : ∃ r, m'.rowAt p = some r ∧ r.frame = f ∧ r.present = true
  used : m'.frames[f]? = some true
  others : ∀ q r, q ≠ p → m.rowAt q = some r → ∃ r', m'.rowAt q = some r' ∧
    r'.frame = r.frame ∧ r'.modified = r.modified ∧ (¬ Replaces c m p r → r' = r)

/-- The condition on a row: it is present; or it never had a frame, every earlier row of its table
had one, and if its process has all its frames in use, one of its pages can go out, unnoticed by
the others. -/
def Obtainable (c : Cfg) (m : Memory) (pid : ℕ) (os : Os) (p : RowRef) : Prop :=
  ∃ r, m.rowAt p = some r ∧ (r.present = true ∨ r.present = false ∧ FirstUnmapped m p.1 p.2 r ∧
    ∀ rows, Full c m p.1 rows → CanEvict c m rows pid os ∧ Unnoticed c m rows p)

lemma answered_present (hm : Mapped c m) (hframed : Framed m) {p : RowRef} {r : PageTableLvl2}
    (hr : m.rowAt p = some r) (hpres : r.present = true) : Answered c m m p r.frame :=
  ⟨⟨r, hr, rfl, hpres⟩, hm.used p r hr (hframed p r hr hpres),
    fun _ s _ hs => ⟨s, hs, rfl, rfl, fun _ => rfl⟩⟩

lemma answered_firstUnmapped_iff (hw : WellFormed c m) {p : RowRef} {r : PageTableLvl2}
    (hfirst : FirstUnmapped m p.1 p.2 r) (hfree : false ∈ m.frames) {t : ℕ}
    {rows : List PageTableLvl1} (ht : m.table1 t = some rows) (hid : p.1 ∈ secondPages rows)
    {pid f : ℕ} {os os' : Os} (h : pageFault c m p.1 p.2 pid os os' = some (m', f)) :
    Answered c m m' p f ↔ (c.marcosPorProceso ≤ framesInUse m rows → Unnoticed c m rows p) := by
  have hs := hw.served
  obtain ⟨m₁, m₂, s, hfind, hevict, hsrow, rfl⟩ := pageFault_firstUnmapped hfirst h
  have hvictim : victim c m p.1 = selected c m₁ p.1 := by rw [victim, hfind]
  have hne := findFreeFrame_ne hs.mapped hfree hfind
  have hm₁ := (hs.mapped.findFreeFrame hfind).1
  have hused : m₁.frames[f]? = some true := by
    rcases findFreeFrame_cases hfind with ⟨hget, rfl⟩ | ⟨hinv, -⟩
    · have hlt := (List.getElem?_eq_some_iff.mp hget).1
      simp [hlt]
    · exact absurd hinv hne
  obtain ⟨frames, rfl⟩ := findFreeFrame_fields hfind
  have hset := Memory.rowAt_setRow { s with present := true, frame := f, use := true } hsrow
  have hfaults : faults c m p.1 p.2 = true := by
    have hle : p.2 ≤ c.maxRows := (hs.mapped.forest.col_lt hfirst.1).le
    simp [faults, hfirst.1, hw.framed.absent hfirst.1 hfirst.2.1, hle]
  have hiff := evict_others_iff hm₁ (fun q x => hw.framed q x)
    ⟨hs.hands.clock, hs.hands.improvedClock⟩ (hs.printable t rows ht) ht hfirst.1 hfirst.2.1 hid
    hevict
  have hunnoticed : Unnoticed c { m with frames } rows p ↔ Unnoticed c m rows p :=
    ⟨fun hun => ⟨hun.spares, hun.unframed⟩, fun hun => ⟨hun.spares, hun.unframed⟩⟩
  rw [hunnoticed] at hiff
  refine Iff.trans ⟨fun ha q x hqp hx hsel => ?_, fun hsame => ⟨⟨_, by rw [hset, if_pos rfl], rfl,
    rfl⟩, ?_, fun q x hqp hx => ?_⟩⟩ hiff
  · obtain ⟨x', hx', -, -, heq⟩ := ha.others q x hqp hx
    rw [hset, if_neg hqp] at hx'
    rw [hx', heq fun hrep => hrep.2.2 (hsel (hvictim ▸ hrep.2.1))]
  · rw [Memory.setRow_frames, (sameRows_evict hevict).frames]
    exact hused
  · obtain ⟨x', hx', hrow⟩ := (sameRows_evict hevict).rowAt_some (p := q) hx
    refine ⟨x', by rw [hset, if_neg hqp, hx'], (congrArg PageTableLvl2.frame hrow :),
      (congrArg PageTableLvl2.modified hrow :), fun hrep => ?_⟩
    have hsame' := hsame q x hqp hx fun hsel => by
      by_contra hxne
      exact hrep ⟨hfaults, hvictim.trans hsel, hxne⟩
    exact Option.some.inj (hx'.symm.trans hsame')

/-- What goes wrong where the row is neither present nor the first without a frame. -/
lemma not_answered (hs : Served c m) (hfree : false ∈ m.frames) {p : RowRef} {r : PageTableLvl2}
    (hr : m.rowAt p = some r) (hfirst : ¬ FirstUnmapped m p.1 p.2 r) {pid f : ℕ} {os os' : Os}
    (h : pageFault c m p.1 p.2 pid os os' = some (m', f)) : ¬ Answered c m m' p f := by
  rintro ⟨⟨s, hsrow, hsf, -⟩, -, -⟩
  obtain ⟨m₁, m₂, hfind, hevict, hallocate⟩ := pageFault_steps h
  have hne := findFreeFrame_ne hs.mapped hfree hfind
  have hspare := (hs.mapped.findFreeFrame hfind).2.resolve_left hne
  obtain ⟨frames, rfl⟩ := findFreeFrame_fields hfind
  have hback := (sameRows_evict hevict).comp PageTableLvl2.frame
  obtain ⟨row, hrow, ⟨hinv, createdAt, hcreate⟩ | ⟨hvalid, m₃, m₄, h₃, h₄, h₅⟩⟩ :=
    allocate_cases hallocate
  · -- an earlier row got the frame
    obtain ⟨r₀, hr₀, hr₀f⟩ := hback.symm.rowAt_some hrow
    obtain rfl : r = r₀ := by
      have hr₀' : m.rowAt p = some r₀ := hr₀
      simpa [hr] using hr₀'
    have hrinv : r.frame = invalidFrame := hr₀f.trans hinv
    rcases createFrameForTable_cases hcreate with ⟨-, hall⟩ | ⟨r₂, ⟨hr₂, hr₂inv, hbefore⟩, rfl⟩
    · exact hall p.2 row hrow hinv
    · rw [Memory.rowAt_setRow _ hr₂] at hsrow
      split at hsrow
      · rename_i hp
        obtain rfl : createdAt = p.2 := (congrArg Prod.snd hp).symm
        refine hfirst ⟨hr, hrinv, fun j r' hj hr' => ?_⟩
        obtain ⟨r'', hr'', hsame⟩ := hback.rowAt_some (p := (p.1, j)) hr'
        have hframe : r''.frame = r'.frame := hsame
        rw [← hframe]
        exact hbefore j r'' hj hr''
      · obtain rfl : row = s := by
          have hrow' : m₂.rowAt p = some row := hrow
          simpa [hrow'] using hsrow
        exact hne (hsf.symm.trans hinv)
  · -- the page went back to its old frame
    obtain ⟨frames', rfl, -, -⟩ := deleteFrame_eq h₃
    have hmod : SameRows PageTableLvl2.frame m₄ m' := by
      refine sameRows_modifyRow ?_ h₅
      exact fun _ _ => rfl
    have hsame := ((sameRows_unswapFrameForPcb h₄).comp PageTableLvl2.frame).trans hmod
    obtain ⟨s', hs', hframe⟩ := hsame.rowAt_some (p := p) hrow
    obtain rfl : s = s' := by simpa [hsrow] using hs'
    obtain ⟨r₀, hr₀, hr₀f⟩ := hback.symm.rowAt_some (p := p) hrow
    exact hspare.2 p r₀ hr₀ (hr₀f.trans (hframe.symm.trans hsf))

lemma obtainFrame_answered_iff (hw : WellFormed c m) (hfree : false ∈ m.frames) {p : RowRef}
    {r : PageTableLvl2} (hr : m.rowAt p = some r) (hp : p.2 < c.maxRows) (pid : ℕ) (os os' : Os) :
    (∃ m' f, obtainFrame c m p.1 p.2 pid os os' = some (m', f) ∧ Answered c m m' p f) ↔
      Obtainable c m pid os p := by
  have hs := hw.served
  have hm := hs.mapped
  cases hpres : r.present with
  | true =>
    constructor
    · intro _
      exact ⟨r, hr, .inl hpres⟩
    · intro _
      exact ⟨m, r.frame, obtainFrame_present hr hpres (by omega) pid os os',
        answered_present hm hw.framed hr hpres⟩
  | false =>
    have hfault : obtainFrame c m p.1 p.2 pid os os' = pageFault c m p.1 p.2 pid os os' := by
      have hr' : m.rowAt (p.1, p.2) = some r := hr
      simp only [obtainFrame, if_neg (show ¬ p.2 > c.maxRows by omega), hr',
        Option.bind_eq_bind, Option.bind_some, hpres]
      rfl
    rw [hfault]
    obtain ⟨table, ht2, -⟩ := Memory.rowAt_eq_some_iff.mp hr
    obtain ⟨t, rows, ht, hid⟩ := hs.owned p.1 (by rw [ht2]; rfl)
    -- the frame is taken before the eviction
    cases hfind : findFreeFrame m with
    | mk m₁ f₁ =>
      have hm₁ := (hm.findFreeFrame hfind).1
      obtain ⟨frames, rfl⟩ := findFreeFrame_fields hfind
      have hevict : r.frame = invalidFrame → ∀ rows, m.table1 t = some rows →
          p.1 ∈ secondPages rows →
          ((∃ m₂, evict c { m with frames } p.1 pid os = some m₂) ↔
            (c.marcosPorProceso ≤ framesInUse m rows → CanEvict c m rows pid os)) := by
        intro hinv rows ht hid
        have hiff := evict_isSome_iff hm₁ ⟨hs.hands.clock, hs.hands.improvedClock⟩ hw.main
          hw.framed (hs.printable t rows ht) ht hr hinv hid pid os
        rw [hiff]
        exact ⟨fun h hfull => ⟨(h hfull).small, (h hfull).saved⟩,
          fun h hfull => ⟨(h hfull).small, (h hfull).saved⟩⟩
      constructor
      · rintro ⟨m', f, h, ha⟩
        have hfirst : FirstUnmapped m p.1 p.2 r := by
          by_contra hnot
          exact not_answered hs hfree hr hnot h ha
        refine ⟨r, hr, .inr ⟨hpres, hfirst, fun rows' hfull => ?_⟩⟩
        obtain ⟨m₁', m₂, -, hfind', hevict', -, -⟩ := pageFault_firstUnmapped hfirst h
        obtain ⟨rfl, -⟩ := Prod.mk.inj (hfind.symm.trans hfind')
        obtain ⟨t', ht'⟩ := hfull.owner
        obtain rfl : t = t' := by
          by_contra hne
          exact hm.forest.disjoint t t' rows rows' ht ht' hne hid hfull.references
        exact ⟨(hevict hfirst.2.1 rows' ht' hfull.references).mp ⟨m₂, hevict'⟩ hfull.full,
          (answered_firstUnmapped_iff hw hfirst hfree ht' hfull.references h).mp ha hfull.full⟩
      · rintro ⟨r', hr', hcond⟩
        obtain rfl : r = r' := by simpa [hr] using hr'
        obtain ⟨-, hfirst, hcan⟩ := hcond.resolve_left (by simp [hpres])
        obtain ⟨m₂, hevict'⟩ := (hevict hfirst.2.1 rows ht hid).mpr fun hfull =>
          (hcan rows ⟨⟨t, ht⟩, hid, hfull⟩).1
        obtain ⟨r₂, hr₂, hframe₂, -⟩ := evict_row hevict' (p := p) hr
        obtain ⟨m₃, i, hcreate⟩ := createFrameForTable_isSome (c := c) hr₂ f₁
        have hrow₂ : m₂.rowAt (p.1, p.2) = some r₂ := hr₂
        have hinv₂ : r₂.frame = invalidFrame := hframe₂.trans hfirst.2.1
        have hpf : pageFault c m p.1 p.2 pid os os' = some (m₃, f₁) := by
          simp only [pageFault, hfind, hevict', allocate, hrow₂, Option.bind_eq_bind,
            Option.bind_some, if_pos hinv₂, hcreate, Option.pure_def]
        exact ⟨m₃, f₁, hpf, (answered_firstUnmapped_iff hw hfirst hfree ht hid hpf).mpr
          fun hfull => (hcan rows ⟨⟨t, ht⟩, hid, hfull⟩).2⟩

/-- **A page fault.** In a well-formed state with a free frame, a request for the frame of a row
that exists is answered as it is meant to be if and only if the row is obtainable. -/
theorem answered_iff_obtainable (c : Cfg) (m : Memory) (pid op1 op2 : UInt32) (os os' : Os)
    (hw : WellFormed c m) (hfree : false ∈ m.frames) (hlive : (m.table2 op1.toNat).isSome)
    (hrow : op2.toNat < c.maxRows) :
    (∃ m' f, routine c m (.frame pid op1 op2 os os') = some (m', some f) ∧
      Answered c m m' (op1.toNat, op2.toNat) f) ↔
    Obtainable c m pid.toNat os (op1.toNat, op2.toNat) := by
  obtain ⟨table, ht⟩ := Option.isSome_iff_exists.mp hlive
  have hlen := hw.served.mapped.forest.rows2 _ _ ht
  have hr : m.rowAt (op1.toNat, op2.toNat) = some table[op2.toNat] :=
    Memory.rowAt_eq_some_iff.mpr ⟨table, ht, List.getElem?_eq_getElem (by omega)⟩
  rw [← obtainFrame_answered_iff hw hfree hr hrow pid.toNat os os']
  simp [routine, cpuControllerSendFrame, Option.bind_eq_some_iff]

/-- A process with one frame touches its second page: its first one is the victim. -/
theorem answered_iff_obtainable_full :
    ∃ m, run (step singleCfg) (onInitMemory singleCfg fun _ => 0)
        [.memoryInit 1 12 unmappedOs, .frame 1 0 0 goodOs goodOs] = some m ∧
      ∃ m' f, routine singleCfg m (.frame 1 0 1 goodOs goodOs) = some (m', some f) ∧
        Answered singleCfg m m' (0, 1) f := by
  refine ⟨_, rfl, ?_⟩
  have hmeets : Meets (step singleCfg) (FindsFrame singleCfg) (onInitMemory singleCfg fun _ => 0)
      [.memoryInit 1 12 unmappedOs, .frame 1 0 0 goodOs goodOs] := by
    refine ⟨trivial, fun m₁ h₁ => ?_⟩
    obtain rfl := Option.some.inj h₁
    exact ⟨fun _ => by decide, fun _ _ => trivial⟩
  have hw := wellFormed_of_run hmeets rfl
  refine (answered_iff_obtainable singleCfg _ 1 0 1 goodOs goodOs hw (by decide) rfl
    (by decide)).mpr ⟨_, rfl, .inr ⟨rfl, by decide, fun rows hfull => ?_⟩⟩
  obtain ⟨t, ht⟩ := hfull.owner
  obtain rfl : t = 0 := by
    have hlt : t < 1 := Sski.Lib.Slots.slotGet_lt ht
    omega
  obtain rfl : [⟨0⟩, ⟨1⟩] = rows := Option.some.inj ht
  refine ⟨⟨by decide, fun i d hd _ => ⟨picks_of_hand rfl rfl, ?_⟩⟩,
    ⟨?_, fun hnot => absurd (picks_of_hand rfl rfl) hnot⟩⟩
  · obtain ⟨rfl, rfl⟩ := Prod.mk.inj (Option.some.inj hd)
    decide
  · exact spares_of_hand rfl rfl (by decide)

/-- The second page is touched first: the frame is mapped on the first row. -/
theorem not_answered_second :
    ∃ m m', run (step smallCfg) (onInitMemory smallCfg fun _ => 0) [.memoryInit 1 0 goodOs] =
        some m ∧
      routine smallCfg m (.frame 1 0 1 goodOs goodOs) = some (m', some 0) ∧
      m'.rowAt (0, 0) = some ⟨0, true, true, false⟩ ∧
      m'.rowAt (0, 1) = some ⟨invalidFrame, false, false, false⟩ ∧
      ¬ Answered smallCfg m m' (0, 1) 0 := by
  refine ⟨_, _, rfl, rfl, rfl, rfl, ?_⟩
  rintro ⟨⟨r, hr, -, hpres⟩, -, -⟩
  obtain rfl := Option.some.inj hr
  cases hpres

end Sski.Mem.PageFault
