import Sski.Lib.Runs
import Sski.Mem.Rows

/-!
No frame is mapped twice: `Mapped` is kept by every request, whatever the path through a page
fault. From it follows what the searches by frame number find.

A page fault takes a frame before it knows whether it will map it. Between the two the frame
is `Spare`: marked, and held by no row.
-/

namespace Sski.Mem.Frames

open Sski.Lib.Slots Sski.Lib.Runs Sski.Mem.MemoryModule Sski.Mem.PageTable Sski.Mem.OsMemory
open Sski.Mem.Swap Sski.Mem.Algorithms Sski.Mem.CpuController Sski.Mem.KernelController
open Sski.Mem.Tables Sski.Mem.Rows

variable {c : Cfg} {m m' : Memory}

structure Mapped (c : Cfg) (m : Memory) : Prop where
  forest : Forest c m
  length : m.frames.length = c.noOfFrames
  used : ∀ p r, m.rowAt p = some r → r.frame ≠ invalidFrame → m.frames[r.frame]? = some true
  unique : ∀ p q r s, m.rowAt p = some r → m.rowAt q = some s → r.frame ≠ invalidFrame →
    r.frame = s.frame → p = q

/-- A frame that was taken and not mapped yet, or the mark that none was free. -/
def Spare (m : Memory) (f : ℕ) : Prop :=
  f = invalidFrame ∨
    (m.frames[f]? = some true ∧ ∀ p r, m.rowAt p = some r → r.frame ≠ f)

lemma mapped_onInitMemory (c : Cfg) (heap : ℕ → UInt8) : Mapped c (onInitMemory c heap) := by
  have h := unmapped_onInitMemory c heap
  refine ⟨h.forest, h.length, ?_, ?_⟩
  · intro p r hr hne
    exact absurd (h.invalid p r hr) hne
  · intro p q r s hr _ hne
    exact absurd (h.invalid p r hr) hne

lemma Mapped.framesKnown (h : Mapped c m) : FramesKnown c m := by
  refine ⟨h.length, fun p r hr hne => ?_⟩
  have hlt := (List.getElem?_eq_some_iff.mp (h.used p r hr hne)).1
  rwa [h.length] at hlt

/-! ### What keeps the invariant -/

/-- The shape of the tables does not depend on what the rows hold. -/
lemma forest_sameRows {α : Type*} {g : PageTableLvl2 → α} (hf : Forest c m)
    (h : SameRows g m m') : Forest c m' := by
  have hback : ∀ t rows', m'.table2 t = some rows' →
      ∃ rows, m.table2 t = some rows ∧ rows.map g = rows'.map g := by
    intro t rows' ht
    exact h.symm.table2 ht
  refine ⟨by rw [h.tables1]; exact hf.length1, by rw [h.length2]; exact hf.length2, ?_, ?_, ?_,
    ?_, ?_⟩
  · intro t rows ht
    exact hf.rows1 t rows (h.table1 t ▸ ht)
  · intro t rows' ht
    obtain ⟨rows, ht, hmap⟩ := hback t rows' ht
    have hlen := congrArg List.length hmap
    simp only [List.length_map] at hlen
    rw [← hlen]
    exact hf.rows2 t rows ht
  · intro t rows ht
    exact hf.nodup t rows (h.table1 t ▸ ht)
  · intro t rows ht id hid
    obtain ⟨rows2, h2⟩ := Option.isSome_iff_exists.mp (hf.live t rows (h.table1 t ▸ ht) id hid)
    obtain ⟨rows2', h2', -⟩ := h.table2 h2
    rw [h2']
    rfl
  · intro t t' rows rows' ht ht'
    exact hf.disjoint t t' rows rows' (h.table1 t ▸ ht) (h.table1 t' ▸ ht')

lemma Mapped.sameRows (hm : Mapped c m) (h : SameRows PageTableLvl2.frame m m') :
    Mapped c m' := by
  refine ⟨forest_sameRows hm.forest h, by rw [h.frames]; exact hm.length, ?_, ?_⟩
  · intro p r' hr' hne
    obtain ⟨r, hr, hframe⟩ := h.symm.rowAt_some hr'
    rw [h.frames, ← hframe]
    exact hm.used p r hr (hframe ▸ hne)
  · intro p q r' s' hr' hs' hne heq
    obtain ⟨r, hr, hrf⟩ := h.symm.rowAt_some hr'
    obtain ⟨s, hs, hsf⟩ := h.symm.rowAt_some hs'
    exact hm.unique p q r s hr hs (hrf ▸ hne) (by rw [hrf, hsf, heq])

lemma Spare.sameRows {f : ℕ} (hs : Spare m f) (h : SameRows PageTableLvl2.frame m m') :
    Spare m' f := by
  rcases hs with rfl | ⟨hused, hnone⟩
  · exact .inl rfl
  · refine .inr ⟨by rw [h.frames]; exact hused, fun p r' hr' => ?_⟩
    obtain ⟨r, hr, hframe⟩ := h.symm.rowAt_some hr'
    rw [← hframe]
    exact hnone p r hr

/-- A frame is taken: it was free, so no row holds it. -/
lemma Mapped.findFreeFrame (hm : Mapped c m) {f : ℕ} (h : findFreeFrame m = (m', f)) :
    Mapped c m' ∧ Spare m' f := by
  rcases findFreeFrame_cases h with ⟨hfree, rfl⟩ | ⟨rfl, -, rfl⟩
  · have hlt := (List.getElem?_eq_some_iff.mp hfree).1
    have hnone : ∀ p r, m.rowAt p = some r → r.frame ≠ f := by
      rintro p r hr rfl
      have hne : r.frame ≠ invalidFrame := by
        have := c.noOfFrames_lt
        have := hm.length
        omega
      rw [hm.used p r hr hne] at hfree
      cases hfree
    refine ⟨⟨⟨hm.forest.1, hm.forest.2, hm.forest.3, hm.forest.4, hm.forest.5, hm.forest.6,
      hm.forest.7⟩, by simpa using hm.length, ?_, hm.unique⟩, .inr ⟨by simp [hlt], hnone⟩⟩
    intro p r hr hne
    rw [List.getElem?_set_ne (Ne.symm (hnone p r hr))]
    exact hm.used p r hr hne
  · exact ⟨hm, .inl rfl⟩

/-- A spare frame is mapped on a row. -/
lemma Mapped.setFrame (hm : Mapped c m) {f : ℕ} (hs : Spare m f) {p : RowRef}
    {r : PageTableLvl2} (hr : m.rowAt p = some r) (r' : PageTableLvl2) (hframe : r'.frame = f) :
    Mapped c (m.setRow p r') := by
  have hrow := Memory.rowAt_setRow r' hr
  have hspare : f ≠ invalidFrame →
      m.frames[f]? = some true ∧ ∀ p r, m.rowAt p = some r → r.frame ≠ f :=
    fun hne => hs.resolve_left hne
  have hsame : SameRows (fun _ => ()) m (m.setRow p r') := sameRows_setRow hr rfl
  refine ⟨forest_sameRows hm.forest hsame, by simpa using hm.length, ?_, ?_⟩
  · intro q s hq hne
    rw [hrow] at hq
    simp only [Memory.setRow_frames]
    split at hq
    · obtain rfl := Option.some.inj hq
      rw [hframe] at hne ⊢
      exact (hspare hne).1
    · exact hm.used q s hq hne
  · intro q q' s s' hq hq' hne heq
    rw [hrow] at hq hq'
    split at hq
    · rename_i hqp
      obtain rfl := Option.some.inj hq
      split at hq'
      · rename_i hqp'
        rw [hqp, hqp']
      · rw [hframe] at hne heq
        exact absurd heq.symm ((hspare hne).2 q' s' hq')
    · split at hq'
      · obtain rfl := Option.some.inj hq'
        rw [hframe] at heq
        exact absurd heq ((hspare (heq ▸ hne)).2 q s hq)
      · exact hm.unique q q' s s' hq hq' hne heq

lemma Mapped.deleteFrame (hm : Mapped c m) {f : ℕ} (hs : Spare m f)
    (h : deleteFrame c m f = some m') : Mapped c m' := by
  obtain ⟨frames, rfl, hlen, hfree⟩ := deleteFrame_eq h
  refine ⟨⟨hm.forest.1, hm.forest.2, hm.forest.3, hm.forest.4, hm.forest.5, hm.forest.6,
      hm.forest.7⟩, hlen.trans hm.length, ?_, hm.unique⟩
  intro p r hr hne
  have hrf : r.frame ≠ f := by
    rcases hs with rfl | ⟨-, hnone⟩
    · exact hne
    · exact hnone p r hr
  exact (hfree _ hrf).trans (hm.used p r hr hne)

lemma Mapped.allocate (hm : Mapped c m) {idTable2 index pid f : ℕ} {os : Os} (hs : Spare m f)
    (h : allocate c m idTable2 index pid f os = some m') : Mapped c m' := by
  obtain ⟨row, hrow, ⟨hinv, createdAt, h⟩ | ⟨hne, m₁, m₂, h₁, h₂, h⟩⟩ := allocate_cases h
  · -- the first access to the page
    rcases createFrameForTable_cases h with ⟨rfl, -⟩ | ⟨r, ⟨hr, -, -⟩, rfl⟩
    · exact hm
    · exact hm.setFrame hs hr _ rfl
  · -- the page was swapped out: its row keeps its frame
    have hm₂ := (hm.deleteFrame hs h₁).sameRows
      ((sameRows_unswapFrameForPcb h₂).comp PageTableLvl2.frame)
    refine hm₂.sameRows (sameRows_modifyRow ?_ h)
    exact fun _ _ => rfl

theorem Mapped.obtainFrame (hm : Mapped c m) {idTable2 index pid f : ℕ} {os os' : Os}
    (h : obtainFrame c m idTable2 index pid os os' = some (m', f)) : Mapped c m' := by
  rcases obtainFrame_cases h with ⟨-, rfl, -⟩ | ⟨-, -, -, rfl, -⟩ | ⟨row, -, -, h⟩
  · exact hm
  · exact hm
  · obtain ⟨m₁, m₂, hfind, hevict, hallocate⟩ := pageFault_steps h
    obtain ⟨hm₁, hs₁⟩ := hm.findFreeFrame hfind
    have hsame := (sameRows_evict hevict).comp PageTableLvl2.frame
    exact (hm₁.sameRows hsame).allocate (hs₁.sameRows hsame) hallocate

lemma Mapped.created (hm : Mapped c m) {id : ℕ} (h : Created c m m' id) : Mapped c m' := by
  have hold : ∀ p r, m'.rowAt p = some r → r.frame ≠ invalidFrame → m.rowAt p = some r := by
    intro p r hr hne
    obtain ⟨table, ht, hget⟩ := Memory.rowAt_eq_some_iff.mp hr
    rw [h.table2] at ht
    split at ht
    · obtain rfl := Option.some.inj ht
      obtain rfl := mem_newPageTableLvl2 (List.mem_of_getElem? hget)
      exact absurd rfl hne
    · exact Memory.rowAt_eq_some_iff.mpr ⟨table, ht, hget⟩
  refine ⟨hm.forest.created h, by rw [h.frames]; exact hm.length, ?_, ?_⟩
  · intro p r hr hne
    rw [h.frames]
    exact hm.used p r (hold p r hr hne) hne
  · intro p q r s hr hs hne heq
    exact hm.unique p q r s (hold p r hr hne) (hold q s hs (heq ▸ hne)) hne heq

lemma Deleted.rowAt {tableId : ℕ} {rows : List PageTableLvl1} (h : Deleted m m' tableId rows)
    {p : RowRef} {r : PageTableLvl2} (hr : m'.rowAt p = some r) :
    p.1 ∉ secondPages rows ∧ m.rowAt p = some r := by
  obtain ⟨table, ht, hget⟩ := Memory.rowAt_eq_some_iff.mp hr
  rw [h.table2] at ht
  split at ht
  · cases ht
  · exact ⟨‹_›, Memory.rowAt_eq_some_iff.mpr ⟨table, ht, hget⟩⟩

lemma Mapped.deleted (hm : Mapped c m) {tableId : ℕ} {rows : List PageTableLvl1}
    (ht : m.table1 tableId = some rows) (h : Deleted m m' tableId rows) : Mapped c m' := by
  refine ⟨hm.forest.deleted ht h, h.frames.1.trans hm.length, ?_, ?_⟩
  · intro p r hr hne
    obtain ⟨hp, hr⟩ := Deleted.rowAt h hr
    rw [h.frames.2]
    · exact hm.used p r hr hne
    · -- a released frame was held by a row of another table
      rintro ⟨t, htmem, i, s, hs, hframe⟩
      obtain rfl := hm.unique p (t, i) r s hr hs hne hframe.symm
      exact hp htmem
  · intro p q r s hr hs
    exact hm.unique p q r s (Deleted.rowAt h hr).2 (Deleted.rowAt h hs).2

lemma kernelControllerMemoryInit_steps {pid size id : ℕ} {os : Os} (hf : Forest c m)
    (h : kernelControllerMemoryInit c m pid size os = some (m', id)) :
    ∃ file, Created c
      (setFile { m with swapData := m.swapData ++ [⟨pid, 0, size⟩] } pid file) m' id := by
  simp only [kernelControllerMemoryInit, getPageTable, Option.bind_eq_bind,
    Option.bind_eq_some_iff, Option.pure_def, Option.some.injEq, Prod.mk.injEq] at h
  obtain ⟨m₁, hfile, ⟨m₂, id'⟩, hcreate, -, -, rfl, rfl⟩ := h
  obtain ⟨file, rfl⟩ := createFile_eq hfile
  refine ⟨file, createNewProcess_spec ?_ ?_ hcreate⟩
  · exact hf.length1
  · exact hf.length2

lemma kernelControllerDestroyProcessFile_steps {pid id : ℕ}
    (h : kernelControllerDestroyProcessFile c m pid id = some m') :
    ∃ m₁, deleteProcess c m id = some m₁ ∧ m' = deleteSwappedPcb m₁ pid := by
  simp only [kernelControllerDestroyProcessFile, Option.bind_eq_bind, Option.bind_eq_some_iff,
    Option.pure_def, Option.some.injEq] at h
  obtain ⟨m₁, h₁, -, -, rfl⟩ := h
  exact ⟨m₁, h₁, rfl⟩

/-- **No frame is mapped twice.** Every request keeps the invariant. -/
theorem Mapped.step (hm : Mapped c m) {req : Request} (h : step c m req = some m') :
    Mapped c m' := by
  cases req with
  | memoryInit pid pcbSize os =>
    obtain ⟨id, h⟩ := step_memoryInit h
    obtain ⟨file, hc⟩ := kernelControllerMemoryInit_steps hm.forest h
    refine Mapped.created (hm.sameRows ?_) hc
    exact .of_eq _ rfl rfl rfl
  | sndPage op1 op2 =>
    obtain rfl := step_sndPage h
    exact hm
  | frame pid op1 op2 os os' =>
    obtain ⟨f, h⟩ := step_frame h
    exact hm.obtainFrame h
  | rd physicalAddress =>
    obtain ⟨v, h⟩ := step_rd h
    exact hm.sameRows ((sameRows_cpuControllerRead h).comp PageTableLvl2.frame)
  | wt physicalAddress value =>
    exact hm.sameRows ((sameRows_cpuControllerWrite (step_wt h)).comp PageTableLvl2.frame)
  | processTerminated pcbId tableId =>
    obtain ⟨m₁, h₁, rfl⟩ := kernelControllerDestroyProcessFile_steps (step_processTerminated h)
    have hm₁ : Mapped c m₁ := by
      rcases deleteProcess_spec hm.forest h₁ with ⟨-, rfl⟩ | ⟨rows, ht, hd⟩
      · exact hm
      · exact hm.deleted ht hd
    refine hm₁.sameRows ?_
    exact .of_eq _ rfl rfl rfl

theorem mapped_of_reachable {heap : ℕ → UInt8}
    (h : Reachable (step c) (onInitMemory c heap) m) : Mapped c m :=
  h.inv (fun _ _ _ hi hs => hi.step hs) (mapped_onInitMemory c heap)

/-! ### Searching for a frame -/

/-- A frame held by a row is found at its table. -/
lemma holdsFrame_iff (hf : Forest c m) {t f : ℕ} (ht : t < m.tablesLvl2.length) :
    holdsFrame f m.tablesLvl2[t] = true ↔ ∃ i r, m.rowAt (t, i) = some r ∧ r.frame = f := by
  rw [← slotGet_eq_getElem hf.length2 ht]
  change holdsFrame f (m.table2 t) = true ↔ _
  cases h2 : m.table2 t with
  | none => simp [holdsFrame, Memory.rowAt, h2]
  | some rows =>
    simp only [holdsFrame, Option.any_some, List.any_eq_true, beq_iff_eq]
    constructor
    · rintro ⟨r, hr, hframe⟩
      obtain ⟨i, hi⟩ := List.mem_iff_getElem?.mp hr
      exact ⟨i, r, Memory.rowAt_eq_some_iff.mpr ⟨rows, h2, hi⟩, hframe⟩
    · rintro ⟨i, r, hr, hframe⟩
      obtain ⟨rows', h2', hi⟩ := Memory.rowAt_eq_some_iff.mp hr
      obtain rfl : rows = rows' := by simpa [h2] using h2'
      exact ⟨r, List.mem_of_getElem? hi, hframe⟩

lemma rowAt_lt {p : RowRef} {r : PageTableLvl2} (h : m.rowAt p = some r) :
    p.1 < m.tablesLvl2.length := by
  obtain ⟨rows, h2, -⟩ := Memory.rowAt_eq_some_iff.mp h
  exact slotGet_lt h2

lemma Mapped.getTableLvl2Number_eq (hm : Mapped c m) {p : RowRef} {r : PageTableLvl2}
    (hr : m.rowAt p = some r) (hne : r.frame ≠ invalidFrame) :
    getTableLvl2Number m r.frame = p.1 := by
  have hlt : p.1 < m.tablesLvl2.length := rowAt_lt hr
  have hfind : m.tablesLvl2.findIdx? (holdsFrame r.frame) = some p.1 := by
    rw [List.findIdx?_eq_some_iff_getElem]
    refine ⟨hlt, (holdsFrame_iff hm.forest hlt).mpr ⟨p.2, r, hr, rfl⟩, fun j hj hheld => ?_⟩
    obtain ⟨i, s, hs, hframe⟩ := (holdsFrame_iff hm.forest (by omega)).mp hheld
    have := hm.unique p (j, i) r s hr hs hne hframe.symm
    simp [this] at hj
  rw [getTableLvl2Number, hfind]
  rfl

lemma getTableLvl2Number_none (hf : Forest c m) {f : ℕ}
    (h : ∀ p r, m.rowAt p = some r → r.frame ≠ f) : getTableLvl2Number m f = invalidFrame := by
  have hfind : m.tablesLvl2.findIdx? (holdsFrame f) = none := by
    rw [List.findIdx?_eq_none_iff_findIdx_eq, List.findIdx_eq_length]
    intro table htable
    obtain ⟨t, ht, rfl⟩ := List.mem_iff_getElem.mp htable
    by_contra hheld
    obtain ⟨i, r, hr, hframe⟩ := (holdsFrame_iff hf ht).mp (by simpa using hheld)
    exact h (t, i) r hr hframe
  rw [getTableLvl2Number, hfind]
  rfl

theorem Mapped.getFrameRef_eq (hm : Mapped c m) {p : RowRef} {r : PageTableLvl2}
    (hr : m.rowAt p = some r) (hne : r.frame ≠ invalidFrame) :
    getFrameRef c m r.frame = some (some p) := by
  obtain ⟨rows, h2, hi⟩ := Memory.rowAt_eq_some_iff.mp hr
  obtain ⟨hlt, hget⟩ := List.getElem?_eq_some_iff.mp hi
  have hfind : rows.findIdx? (fun row => row.frame == r.frame) = some p.2 := by
    rw [List.findIdx?_eq_some_iff_getElem]
    refine ⟨hlt, by simp [hget], fun j hj hheld => ?_⟩
    have hs : m.rowAt (p.1, j) = some rows[j] :=
      Memory.rowAt_eq_some_iff.mpr ⟨rows, h2, List.getElem?_eq_getElem (by omega)⟩
    have hframe : rows[j].frame = r.frame := by simpa using hheld
    have := hm.unique p (p.1, j) r _ hr hs hne hframe.symm
    have hpj : p.2 = j := congrArg Prod.snd this
    omega
  simp only [getFrameRef, hm.getTableLvl2Number_eq hr hne, h2, hfind]
  rfl

/-- The table that is dereferenced for a frame that no row holds is `NULL`. -/
theorem getFrameRef_none (hf : Forest c m) {f : ℕ}
    (h : ∀ p r, m.rowAt p = some r → r.frame ≠ f) :
    getFrameRef c m f = if c.maxRows = 0 then some none else none := by
  have hnull : m.table2 invalidFrame = none := by
    rw [Memory.table2, slotGet, if_neg (by simp [invalidFrame, uint32Max, intBound])]
  simp only [getFrameRef, getTableLvl2Number_none hf h, hnull]

lemma getTableLvl1Number_eq (hf : Forest c m) {t id : ℕ} {rows : List PageTableLvl1}
    (ht : m.table1 t = some rows) (hid : id ∈ secondPages rows) :
    getTableLvl1Number m id = t := by
  have href : ∀ j (hj : j < m.tablesLvl1.length),
      (m.tablesLvl1[j].any fun rows => rows.any fun row => row.secondPage == id) = true ↔
        ∃ rows', m.table1 j = some rows' ∧ id ∈ secondPages rows' := by
    intro j hj
    rw [← slotGet_eq_getElem hf.length1 hj]
    change (Option.any _ (m.table1 j)) = true ↔ _
    cases m.table1 j <;> simp [secondPages]
  have hlt : t < m.tablesLvl1.length := slotGet_lt ht
  have hfind : m.tablesLvl1.findIdx? (fun table =>
      table.any fun rows => rows.any fun row => row.secondPage == id) = some t := by
    rw [List.findIdx?_eq_some_iff_getElem]
    refine ⟨hlt, (href t hlt).mpr ⟨rows, ht, hid⟩, fun j hj hheld => ?_⟩
    obtain ⟨rows', ht', hid'⟩ := (href j (by omega)).mp hheld
    exact hf.disjoint t j rows rows' ht ht' (by omega) hid hid'
  rw [getTableLvl1Number, hfind]
  rfl

/-- What the searches for a frame are meant to find. -/
structure ExactLookup (c : Cfg) (m : Memory) (f : ℕ) : Prop where
  unique : ∀ p q r s, m.rowAt p = some r → m.rowAt q = some s → r.frame = f → s.frame = f →
    p = q
  used : ∀ p r, m.rowAt p = some r → r.frame = f → m.frames[f]? = some true
  mapped : ∀ p r, m.rowAt p = some r → r.frame = f →
    getTableLvl2Number m f = p.1 ∧ getFrameRef c m f = some (some p)
  unmapped : (∀ p r, m.rowAt p = some r → r.frame ≠ f) →
    getTableLvl2Number m f = invalidFrame ∧ getFrameRef c m f = some none

/-- **Reverse lookup.** In every reachable state a level-2 table is found at the level-1 table
that references it, and the searches for a valid frame are exact if and only if some row holds
the frame, or tables have no rows: for a frame that is held by none a null table is read. -/
theorem exactLookup_iff (c : Cfg) (heap : ℕ → UInt8) (m : Memory)
    (h : Reachable (step c) (onInitMemory c heap) m) :
    (∀ t id rows, m.table1 t = some rows → id ∈ secondPages rows →
      getTableLvl1Number m id = t) ∧
    ∀ f, f ≠ invalidFrame →
      (ExactLookup c m f ↔ (∃ p r, m.rowAt p = some r ∧ r.frame = f) ∨ c.maxRows = 0) := by
  have hm := mapped_of_reachable h
  refine ⟨fun t id rows ht hid => getTableLvl1Number_eq hm.forest ht hid, fun f hf => ⟨?_, ?_⟩⟩
  · intro hx
    by_contra hnot
    rw [not_or] at hnot
    obtain ⟨hnone, hrows⟩ := hnot
    have hnone : ∀ p r, m.rowAt p = some r → r.frame ≠ f :=
      fun p r hr hframe => hnone ⟨p, r, hr, hframe⟩
    have href := (hx.unmapped hnone).2
    rw [getFrameRef_none hm.forest hnone, if_neg hrows] at href
    cases href
  · intro hcond
    refine ⟨?_, ?_, ?_, ?_⟩
    · rintro p q r s hr hs rfl hsf
      exact hm.unique p q r s hr hs hf hsf.symm
    · rintro p r hr rfl
      exact hm.used p r hr hf
    · rintro p r hr rfl
      exact ⟨hm.getTableLvl2Number_eq hr hf, hm.getFrameRef_eq hr hf⟩
    · intro hnone
      refine ⟨getTableLvl2Number_none hm.forest hnone, ?_⟩
      rcases hcond with ⟨p, r, hr, hframe⟩ | hrows
      · exact absurd hframe (hnone p r hr)
      · rw [getFrameRef_none hm.forest hnone, if_pos hrows]

def faultRun : List Request :=
  [.memoryInit 1 0 goodOs, .frame 1 0 0 goodOs goodOs]

theorem exactLookup_iff_fault :
    ∃ m, run (step smallCfg) (onInitMemory smallCfg fun _ => 0) faultRun = some m ∧
      ExactLookup smallCfg m 0 := by
  refine ⟨_, rfl, ?_⟩
  refine ((exactLookup_iff smallCfg (fun _ => 0) _ ⟨faultRun, rfl⟩).2 0 (by decide)).mpr ?_
  exact .inl ⟨(0, 0), _, rfl, rfl⟩

/-- Frame 1 is valid and free in the same state, and its search reads a null table. -/
theorem not_exactLookup_free :
    ∃ m, run (step smallCfg) (onInitMemory smallCfg fun _ => 0) faultRun = some m ∧
      (∀ table ∈ m.tablesLvl2, ∀ rows ∈ table, ∀ r ∈ rows, r.frame ≠ 1) ∧
      getFrameRef smallCfg m 1 = none ∧ ¬ ExactLookup smallCfg m 1 := by
  refine ⟨_, rfl, by decide, by decide, fun h => ?_⟩
  have href := (h.unmapped ?_).2
  · exact absurd href (by decide)
  · intro p r hr hframe
    have hlt := rowAt_lt hr
    rw [← (h.mapped p r hr hframe).1] at hlt
    exact absurd hlt (by decide)

end Sski.Mem.Frames
