import Sski.Mem.Validation

/-!
The frames of a process that ends, and the frames that are lost.

A level-2 table gives back the frames of its first `max_frames` rows, whatever its length. A
frame on a later row stays marked with no row that holds it, and nothing gives it back again:
`Leaked` is where it stays for the rest of the run. No other request leaks a frame.
-/

namespace Sski.Mem.Termination

open Sski.Lib.Slots Sski.Lib.Runs Sski.Mem.MemoryModule Sski.Mem.PageTable Sski.Mem.OsMemory
open Sski.Mem.Swap Sski.Mem.CpuController Sski.Mem.KernelController Sski.Mem.Tables
open Sski.Mem.Rows Sski.Mem.Frames Sski.Mem.Validation

variable {c : Cfg} {m m' : Memory}

/-! ### The bits that are cleared -/

def clearBits (bits : List Bool) (fs : List ℕ) : List Bool :=
  fs.foldl (fun bits f => bits.set f false) bits

@[simp] lemma length_clearBits (bits : List Bool) (fs : List ℕ) :
    (clearBits bits fs).length = bits.length := by
  induction fs generalizing bits with
  | nil => rfl
  | cons f fs ih =>
    rw [clearBits, List.foldl_cons, ← clearBits, ih, List.length_set]

lemma clearBits_append (bits : List Bool) (fs gs : List ℕ) :
    clearBits bits (fs ++ gs) = clearBits (clearBits bits fs) gs := by
  simp [clearBits, List.foldl_append]

lemma getElem?_clearBits (bits : List Bool) (fs : List ℕ) (f : ℕ) :
    (clearBits bits fs)[f]? = if f ∈ fs ∧ f < bits.length then some false else bits[f]? := by
  induction fs generalizing bits with
  | nil => simp [clearBits]
  | cons g fs ih =>
    rw [clearBits, List.foldl_cons, ← clearBits, ih, List.length_set]
    by_cases hfg : f = g
    · subst hfg
      by_cases hlt : f < bits.length <;> simp [hlt]
    · rw [List.getElem?_set_ne (Ne.symm hfg)]
      simp [hfg]

def releasedFrames (c : Cfg) (m : Memory) (t : ℕ) : List ℕ :=
  (((m.table2 t).getD []).take (min c.maxRows c.maxFrames)).map PageTableLvl2.frame

/-- A row without a frame names a bit that is not there. -/
lemma releaseRow_frames (hlen : m.frames.length = c.noOfFrames) {row : PageTableLvl2}
    (h : releaseRow c m row = some m') :
    m' = { m with frames := m.frames.set row.frame false } := by
  have hbound := c.noOfFrames_lt
  have hbeyond : c.noOfFrames < row.frame →
      m = { m with frames := m.frames.set row.frame false } := by
    intro hlt
    rw [List.set_eq_of_length_le (by omega)]
  unfold releaseRow at h
  split at h
  · unfold deleteFrame at h
    split at h
    · split at h
      · exact (Option.some.inj h).symm
      · cases h
    · obtain rfl := Option.some.inj h
      exact hbeyond (by omega)
  · rename_i hinv
    obtain rfl := Option.some.inj h
    exact hbeyond (by omega)

lemma releaseRows_frames (rows : List PageTableLvl2) (hlen : m.frames.length = c.noOfFrames)
    (h : rows.foldlM (releaseRow c) m = some m') :
    m' = { m with frames := clearBits m.frames (rows.map PageTableLvl2.frame) } := by
  induction rows generalizing m with
  | nil =>
    obtain rfl : m = m' := by simpa using h
    rfl
  | cons row rows ih =>
    rw [List.foldlM_cons, Option.bind_eq_bind, Option.bind_eq_some_iff] at h
    obtain ⟨m₁, h₁, h₂⟩ := h
    obtain rfl := releaseRow_frames hlen h₁
    obtain rfl := ih (by simpa using hlen) h₂
    rfl

lemma deleteLevel2Table_frames (hlen : m.frames.length = c.noOfFrames) {t : ℕ}
    (h : deleteLevel2Table c m t = some m') :
    m' = { m with
      frames := clearBits m.frames (releasedFrames c m t)
      tablesLvl2 := slotReplace m.tablesLvl2 t none } := by
  simp only [deleteLevel2Table, Option.bind_eq_bind, Option.bind_eq_some_iff,
    Option.pure_def, Option.some.injEq] at h
  obtain ⟨rows, hrows, m₁, h₁, rfl⟩ := h
  obtain rfl := releaseRows_frames rows hlen h₁
  have hframes : rows.map PageTableLvl2.frame = releasedFrames c m t := by
    unfold releasedRows at hrows
    split at hrows
    · rename_i table ht
      obtain rfl := Option.some.inj hrows
      rw [releasedFrames, ht]
      rfl
    · rename_i ht
      split at hrows
      · obtain rfl := Option.some.inj hrows
        simp [releasedFrames, ht]
      · cases hrows
  rw [hframes]

lemma deleteLevel2Tables_frames (rows : List PageTableLvl1)
    (hlen : m.frames.length = c.noOfFrames) (hnodup : (secondPages rows).Nodup)
    (h : rows.foldlM (fun m row => deleteLevel2Table c m row.secondPage) m = some m') :
    m'.frames = clearBits m.frames ((secondPages rows).flatMap (releasedFrames c m)) := by
  induction rows generalizing m with
  | nil =>
    obtain rfl : m = m' := by simpa using h
    rfl
  | cons row rows ih =>
    rw [List.foldlM_cons, Option.bind_eq_bind, Option.bind_eq_some_iff] at h
    obtain ⟨m₁, h₁, h₂⟩ := h
    obtain rfl := deleteLevel2Table_frames hlen h₁
    obtain ⟨hnot, hnodup'⟩ := List.nodup_cons.mp hnodup
    rw [ih (by simpa using hlen) hnodup' h₂]
    change clearBits (clearBits _ _) _ = clearBits _ (_ ++ _)
    rw [clearBits_append]
    congr 1
    -- the tables still to go are as they were
    refine List.flatMap_congr fun t ht => ?_
    have hne : row.secondPage ≠ t := by
      rintro rfl
      exact hnot ht
    simp only [releasedFrames, Memory.table2, slotGet_replace_of_ne hne]

lemma deleteProcess_frames (hm : Mapped c m) {tableId : ℕ} {rows : List PageTableLvl1}
    (ht : m.table1 tableId = some rows) (h : deleteProcess c m tableId = some m') :
    m'.frames = clearBits m.frames ((secondPages rows).flatMap (releasedFrames c m)) := by
  simp only [deleteProcess, deleteRelatedTables, ht, Option.bind_eq_bind,
    Option.bind_eq_some_iff, Option.pure_def, Option.some.injEq] at h
  obtain ⟨-, -, m₁, h₁, rfl⟩ := h
  change m₁.frames = _
  exact deleteLevel2Tables_frames rows hm.length (hm.forest.nodup _ _ ht) h₁

lemma mem_releasedFrames (hf : Forest c m) {t f : ℕ} :
    f ∈ releasedFrames c m t ↔
      ∃ i r, i < c.maxFrames ∧ m.rowAt (t, i) = some r ∧ r.frame = f := by
  cases ht : m.table2 t with
  | none => simp [releasedFrames, ht, Memory.rowAt]
  | some table =>
    have hlen := hf.rows2 t table ht
    simp only [releasedFrames, ht, Option.getD_some, List.mem_map, List.mem_take_iff_getElem,
      Memory.rowAt, Option.bind_eq_bind, Option.bind_some]
    constructor
    · rintro ⟨r, ⟨i, hi, rfl⟩, rfl⟩
      exact ⟨i, _, by omega, List.getElem?_eq_getElem (by omega), rfl⟩
    · rintro ⟨i, r, hi, hr, rfl⟩
      obtain ⟨hlt, rfl⟩ := List.getElem?_eq_some_iff.mp hr
      exact ⟨_, ⟨i, by omega, rfl⟩, rfl⟩

/-! ### The rows that keep their frames -/

/-- The rows of a process behind the first `max_frames` of their table. -/
def keptRows (c : Cfg) (m : Memory) (tableId : ℕ) : List PageTableLvl2 :=
  ((m.table1 tableId).getD []).flatMap fun row =>
    ((m.table2 row.secondPage).getD []).drop c.maxFrames

/-- No row behind the first `max_frames` of its table ever had a frame. -/
def ReleasesAll (c : Cfg) (m : Memory) (tableId : ℕ) : Prop :=
  ∀ r ∈ keptRows c m tableId, r.frame = invalidFrame

instance (c : Cfg) (m : Memory) (tableId : ℕ) : Decidable (ReleasesAll c m tableId) :=
  inferInstanceAs (Decidable (∀ r ∈ keptRows c m tableId, r.frame = invalidFrame))

lemma mem_keptRows {tableId : ℕ} {r : PageTableLvl2} :
    r ∈ keptRows c m tableId ↔ ∃ rows, m.table1 tableId = some rows ∧
      ∃ t ∈ secondPages rows, ∃ i, c.maxFrames ≤ i ∧ m.rowAt (t, i) = some r := by
  have hrow : ∀ t, r ∈ ((m.table2 t).getD []).drop c.maxFrames ↔
      ∃ i, c.maxFrames ≤ i ∧ m.rowAt (t, i) = some r := by
    intro t
    cases ht : m.table2 t with
    | none => simp [ht, Memory.rowAt]
    | some table =>
      simp only [Option.getD_some, List.mem_iff_getElem?, List.getElem?_drop, Memory.rowAt, ht,
        Option.bind_eq_bind, Option.bind_some]
      constructor
      · rintro ⟨i, hi⟩
        exact ⟨c.maxFrames + i, by omega, hi⟩
      · rintro ⟨i, hle, hi⟩
        refine ⟨i - c.maxFrames, ?_⟩
        rwa [Nat.add_sub_cancel' hle]
  cases ht : m.table1 tableId with
  | none => simp [keptRows, ht]
  | some rows =>
    simp only [keptRows, ht, Option.getD_some, List.mem_flatMap, hrow, secondPages,
      Option.some.injEq, exists_eq_left', List.mem_map, exists_exists_and_eq_and]

/-- What the end of the process with a level-1 table is meant to do. -/
structure DeletesExactly (m m' : Memory) (tableId : ℕ) (rows : List PageTableLvl1) : Prop where
  freed : ∀ t ∈ secondPages rows, ∀ i r, m.rowAt (t, i) = some r → r.frame ≠ invalidFrame →
    m'.frames[r.frame]? = some false
  kept : ∀ g, (∀ t ∈ secondPages rows, ∀ i r, m.rowAt (t, i) = some r → r.frame ≠ g) →
    m'.frames[g]? = m.frames[g]?
  gone1 : m'.table1 tableId = none
  gone2 : ∀ t ∈ secondPages rows, m'.table2 t = none
  others1 : ∀ t, t ≠ tableId → m'.table1 t = m.table1 t
  others2 : ∀ t, t ∉ secondPages rows → m'.table2 t = m.table2 t

/-- The bit of a frame on a row that gives nothing back stays set. -/
lemma frames_of_kept (hm : Mapped c m) {tableId t i : ℕ} {rows : List PageTableLvl1}
    {r : PageTableLvl2} (ht : m.table1 tableId = some rows) (hi : c.maxFrames ≤ i)
    (hr : m.rowAt (t, i) = some r) (hne : r.frame ≠ invalidFrame)
    (h : deleteProcess c m tableId = some m') : m'.frames[r.frame]? = some true := by
  rw [deleteProcess_frames hm ht h, getElem?_clearBits, if_neg, hm.used _ r hr hne]
  rintro ⟨hmem, -⟩
  obtain ⟨t', -, hmem⟩ := List.mem_flatMap.mp hmem
  obtain ⟨j, s, hj, hs, heq⟩ := (mem_releasedFrames hm.forest).mp hmem
  have hrow := hm.unique (t, i) (t', j) r s hr hs hne heq.symm
  simp only [Prod.mk.injEq] at hrow
  omega

lemma deletesExactly_iff (hm : Mapped c m) {tableId : ℕ} {rows : List PageTableLvl1}
    (ht : m.table1 tableId = some rows) (h : deleteProcess c m tableId = some m') :
    DeletesExactly m m' tableId rows ↔ ReleasesAll c m tableId := by
  constructor
  · intro hex r hr
    by_contra hne
    obtain ⟨rows', ht', t, htmem, i, hi, hr⟩ := mem_keptRows.mp hr
    obtain rfl : rows = rows' := by simpa [ht] using ht'
    have hfreed := hex.freed t htmem i r hr hne
    rw [frames_of_kept hm ht hi hr hne h] at hfreed
    cases hfreed
  · intro hall
    have hd : Deleted m m' tableId rows := by
      rcases deleteProcess_spec hm.forest h with ⟨hnone, -⟩ | ⟨rows', ht', hd⟩
      · rw [ht] at hnone
        cases hnone
      · obtain rfl : rows = rows' := by simpa [ht] using ht'
        exact hd
    refine ⟨?_, ?_, by rw [hd.table1, if_pos rfl], fun t htmem => by rw [hd.table2, if_pos htmem],
      fun t hne => by rw [hd.table1, if_neg hne], fun t hnot => by rw [hd.table2, if_neg hnot]⟩
    · intro t htmem i r hr hne
      have hi : i < c.maxFrames := by
        by_contra hge
        exact hne (hall r (mem_keptRows.mpr ⟨rows, ht, t, htmem, i, by omega, hr⟩))
      have hlt := (List.getElem?_eq_some_iff.mp (hm.used _ r hr hne)).1
      have hmem : r.frame ∈ (secondPages rows).flatMap (releasedFrames c m) :=
        List.mem_flatMap.mpr
          ⟨t, htmem, (mem_releasedFrames hm.forest).mpr ⟨i, r, hi, hr, rfl⟩⟩
      rw [deleteProcess_frames hm ht h, getElem?_clearBits, if_pos ⟨hmem, hlt⟩]
    · intro g hg
      refine hd.frames.2 g ?_
      rintro ⟨t, htmem, i, r, hr, hframe⟩
      exact hg t htmem i r hr hframe

/-! ### Lost frames -/

/-- A frame that is marked and that no row holds. -/
def Leaked (m : Memory) (f : ℕ) : Prop :=
  m.frames[f]? = some true ∧ ∀ p r, m.rowAt p = some r → r.frame ≠ f

lemma Leaked.ne (hlen : m.frames.length = c.noOfFrames) {f : ℕ} (h : Leaked m f) :
    f ≠ invalidFrame := by
  have hlt := (List.getElem?_eq_some_iff.mp h.1).1
  have := c.noOfFrames_lt
  omega

lemma leaked_sameRows (h : SameRows PageTableLvl2.frame m m') (f : ℕ) :
    Leaked m' f ↔ Leaked m f := by
  have hdir : ∀ {m m' : Memory}, SameRows PageTableLvl2.frame m m' → Leaked m f → Leaked m' f := by
    rintro m m' h ⟨hused, hnone⟩
    refine ⟨by rw [h.frames]; exact hused, fun p r' hr' => ?_⟩
    obtain ⟨r, hr, hframe⟩ := h.symm.rowAt_some hr'
    rw [← hframe]
    exact hnone p r hr
  exact ⟨hdir h.symm, hdir h⟩

/-- A frame that is taken is lost until it is mapped. -/
lemma leaked_findFreeFrame (hm : Mapped c m) {f : ℕ} (h : findFreeFrame m = (m', f)) (g : ℕ) :
    Leaked m' g ↔ Leaked m g ∨ (g = f ∧ f ≠ invalidFrame) := by
  have hspare := (hm.findFreeFrame h).2
  rcases findFreeFrame_cases h with ⟨hfree, rfl⟩ | ⟨rfl, -, rfl⟩
  · have hlt := (List.getElem?_eq_some_iff.mp hfree).1
    have hne : f ≠ invalidFrame := by
      have := c.noOfFrames_lt
      have := hm.length
      omega
    by_cases hg : g = f
    · subst hg
      simp only [hne, ne_eq, not_false_eq_true, and_self, or_true, iff_true]
      exact hspare.resolve_left hne
    · simp only [Leaked, List.getElem?_set_ne (Ne.symm hg), hg, false_and, or_false]
      rfl
  · simp

/-- It is mapped on the row that faulted, or given back. -/
lemma leaked_allocate (hm : Mapped c m) {idTable2 index pid f : ℕ} {os : Os} (hs : Spare m f)
    (h : allocate c m idTable2 index pid f os = some m') (g : ℕ) :
    Leaked m' g ↔ Leaked m g ∧ g ≠ f := by
  obtain ⟨row, hrow, ⟨hinv, createdAt, h⟩ | ⟨-, m₁, m₂, h₁, h₂, h⟩⟩ := allocate_cases h
  · rcases createFrameForTable_cases h with ⟨-, hall⟩ | ⟨r, ⟨hr, hrinv, -⟩, rfl⟩
    · exact absurd hinv (hall index row hrow)
    · have hset := Memory.rowAt_setRow { r with present := true, frame := f, use := true } hr
      constructor
      · rintro ⟨hused, hnone⟩
        rw [Memory.setRow_frames] at hused
        have hgf : f ≠ g := hnone (idTable2, createdAt) _ (by rw [hset, if_pos rfl])
        refine ⟨⟨hused, fun p s hp => ?_⟩, Ne.symm hgf⟩
        by_cases hpr : p = (idTable2, createdAt)
        · subst hpr
          obtain rfl : r = s := by simpa [hr] using hp
          have hlt := (List.getElem?_eq_some_iff.mp hused).1
          have := c.noOfFrames_lt
          have := hm.length
          omega
        · exact hnone p s (by rw [hset, if_neg hpr]; exact hp)
      · rintro ⟨⟨hused, hnone⟩, hgf⟩
        refine ⟨by rw [Memory.setRow_frames]; exact hused, fun p s hp => ?_⟩
        rw [hset] at hp
        split at hp
        · obtain rfl := Option.some.inj hp
          exact Ne.symm hgf
        · exact hnone p s hp
  · have hmod : SameRows PageTableLvl2.frame m₂ m' := by
      refine sameRows_modifyRow ?_ h
      exact fun _ _ => rfl
    have hsame := ((sameRows_unswapFrameForPcb h₂).comp PageTableLvl2.frame).trans hmod
    rw [leaked_sameRows hsame]
    unfold deleteFrame at h₁
    split at h₁
    · split at h₁
      · rename_i hlt
        obtain rfl := Option.some.inj h₁
        by_cases hg : g = f
        · subst hg
          simp [Leaked, hlt]
        · simp only [Leaked, List.getElem?_set_ne (Ne.symm hg), ne_eq, hg, not_false_eq_true,
            and_true]
          rfl
      · cases h₁
    · rename_i hgt
      obtain rfl := Option.some.inj h₁
      refine ⟨fun hl => ⟨hl, ?_⟩, And.left⟩
      rintro rfl
      have hlt := (List.getElem?_eq_some_iff.mp hl.1).1
      have := hm.length
      omega

lemma leaked_obtainFrame (hm : Mapped c m) {idTable2 index pid f : ℕ} {os os' : Os}
    (h : obtainFrame c m idTable2 index pid os os' = some (m', f)) (g : ℕ) :
    Leaked m' g ↔ Leaked m g := by
  rcases obtainFrame_cases h with ⟨-, rfl, -⟩ | ⟨-, -, -, rfl, -⟩ | ⟨row, -, -, h⟩
  · rfl
  · rfl
  · obtain ⟨m₁, m₂, hfind, hevict, hallocate⟩ := pageFault_steps h
    obtain ⟨hm₁, hs₁⟩ := hm.findFreeFrame hfind
    have hsame := (sameRows_evict hevict).comp PageTableLvl2.frame
    rw [leaked_allocate (hm₁.sameRows hsame) (hs₁.sameRows hsame) hallocate,
      leaked_sameRows hsame, leaked_findFreeFrame hm hfind]
    constructor
    · rintro ⟨hl | ⟨rfl, -⟩, hgf⟩
      · exact hl
      · exact absurd rfl hgf
    · intro hl
      refine ⟨.inl hl, ?_⟩
      rintro rfl
      -- the frame that was taken was free
      rcases findFreeFrame_cases hfind with ⟨hfree, -⟩ | ⟨hinv, -⟩
      · rw [hl.1] at hfree
        cases hfree
      · exact hl.ne hm.length hinv

lemma leaked_created (hm : Mapped c m) {id : ℕ} (hc : Created c m m' id) (f : ℕ) :
    Leaked m' f ↔ Leaked m f := by
  have hlen : m'.frames.length = c.noOfFrames := by rw [hc.frames]; exact hm.length
  constructor
  · rintro ⟨hused, hnone⟩
    refine ⟨by rw [← hc.frames]; exact hused, fun p r hr => ?_⟩
    obtain ⟨table, ht, hget⟩ := Memory.rowAt_eq_some_iff.mp hr
    exact hnone p r (Memory.rowAt_eq_some_iff.mpr ⟨table, hc.table2_of_live ht, hget⟩)
  · intro hl
    refine ⟨by rw [hc.frames]; exact hl.1, fun p r hr => ?_⟩
    obtain ⟨table, ht, hget⟩ := Memory.rowAt_eq_some_iff.mp hr
    rw [hc.table2] at ht
    split at ht
    · obtain rfl := Option.some.inj ht
      obtain rfl := mem_newPageTableLvl2 (List.mem_of_getElem? hget)
      exact Ne.symm (hl.ne hm.length)
    · exact hl.2 p r (Memory.rowAt_eq_some_iff.mpr ⟨table, ht, hget⟩)

/-- What a deletion loses: the frames of the rows that gave nothing back. -/
lemma leaked_deleteProcess (hm : Mapped c m) {tableId : ℕ}
    (h : deleteProcess c m tableId = some m') (f : ℕ) :
    Leaked m' f ↔
      Leaked m f ∨ ∃ r ∈ keptRows c m tableId, r.frame = f ∧ f ≠ invalidFrame := by
  rcases deleteProcess_spec hm.forest h with ⟨hnone, rfl⟩ | ⟨rows, ht, hd⟩
  · simp [keptRows, hnone]
  constructor
  · rintro ⟨hused, hnone⟩
    have hne : f ≠ invalidFrame :=
      Leaked.ne (c := c) (hd.frames.1.trans hm.length) ⟨hused, hnone⟩
    rw [or_iff_not_imp_left]
    intro hnot
    rw [deleteProcess_frames hm ht h, getElem?_clearBits] at hused
    split at hused
    · cases hused
    rename_i hrel
    -- some row held the frame before, and it is not one that gives its frame back
    obtain ⟨p, r, hr, rfl⟩ : ∃ p r, m.rowAt p = some r ∧ r.frame = f := by
      by_contra hno
      exact hnot ⟨hused, fun p r hr hframe => hno ⟨p, r, hr, hframe⟩⟩
    have hlt := (List.getElem?_eq_some_iff.mp hused).1
    have hp : p.1 ∈ secondPages rows := by
      by_contra hp
      obtain ⟨table, htab, hget⟩ := Memory.rowAt_eq_some_iff.mp hr
      refine hnone p r (Memory.rowAt_eq_some_iff.mpr ⟨table, ?_, hget⟩) rfl
      rw [hd.table2, if_neg hp]
      exact htab
    refine ⟨r, mem_keptRows.mpr ⟨rows, ht, p.1, hp, p.2, ?_, hr⟩, rfl, hne⟩
    by_contra hi
    exact hrel ⟨List.mem_flatMap.mpr ⟨p.1, hp, (mem_releasedFrames hm.forest).mpr
      ⟨p.2, r, by omega, hr, rfl⟩⟩, hlt⟩
  · rintro (⟨hused, hnone⟩ | ⟨r, hr, rfl, hne⟩)
    · refine ⟨?_, fun p r hr => hnone p r (Deleted.rowAt hd hr).2⟩
      rw [hd.frames.2, hused]
      rintro ⟨t, -, i, r, hr, hframe⟩
      exact hnone (t, i) r hr hframe
    · obtain ⟨rows', ht', t, htmem, i, hi, hr⟩ := mem_keptRows.mp hr
      obtain rfl : rows = rows' := by simpa [ht] using ht'
      refine ⟨frames_of_kept hm ht hi hr hne h, fun p s hs heq => ?_⟩
      obtain ⟨hp, hs⟩ := Deleted.rowAt hd hs
      obtain rfl := hm.unique (t, i) p r s hr hs hne heq.symm
      exact hp htmem

def lostRows (c : Cfg) (m : Memory) : Request → List PageTableLvl2
  | .processTerminated _ tableId => keptRows c m tableId.toNat
  | _ => []

/-- **Step.** Only the end of a process loses frames, and no request finds one again. -/
theorem leaked_step (hm : Mapped c m) {req : Request} (h : step c m req = some m') (f : ℕ) :
    Leaked m' f ↔ Leaked m f ∨ ∃ r ∈ lostRows c m req, r.frame = f ∧ f ≠ invalidFrame := by
  cases req with
  | memoryInit pid pcbSize os =>
    obtain ⟨id, h⟩ := step_memoryInit h
    obtain ⟨file, hc⟩ := kernelControllerMemoryInit_steps hm.forest h
    have hsame : SameRows PageTableLvl2.frame m (setFile
        { m with swapData := m.swapData ++ [⟨pid.toNat, 0, pcbSize.toNat⟩] } pid.toNat file) :=
      .of_eq _ rfl rfl rfl
    rw [leaked_created (hm.sameRows hsame) hc, leaked_sameRows hsame]
    simp [lostRows]
  | sndPage op1 op2 =>
    obtain rfl := step_sndPage h
    simp [lostRows]
  | frame pid op1 op2 os os' =>
    obtain ⟨g, h⟩ := step_frame h
    rw [leaked_obtainFrame hm h]
    simp [lostRows]
  | rd physicalAddress =>
    obtain ⟨v, h⟩ := step_rd h
    rw [leaked_sameRows ((sameRows_cpuControllerRead h).comp PageTableLvl2.frame)]
    simp [lostRows]
  | wt physicalAddress value =>
    rw [leaked_sameRows ((sameRows_cpuControllerWrite (step_wt h)).comp PageTableLvl2.frame)]
    simp [lostRows]
  | processTerminated pcbId tableId =>
    obtain ⟨m₁, h₁, rfl⟩ := kernelControllerDestroyProcessFile_steps (step_processTerminated h)
    exact leaked_deleteProcess hm h₁ f

/-! ### Runs -/

def Releases (c : Cfg) (m : Memory) (req : Request) : Prop :=
  ∀ r ∈ lostRows c m req, r.frame = invalidFrame

instance (c : Cfg) (m : Memory) (req : Request) : Decidable (Releases c m req) :=
  inferInstanceAs (Decidable (∀ r ∈ lostRows c m req, r.frame = invalidFrame))

/-- Every marked frame is on a row of a live process. -/
def NoLeak (m : Memory) : Prop :=
  ∀ f, m.frames[f]? = some true → ∃ t rows p r, m.table1 t = some rows ∧
    p.1 ∈ secondPages rows ∧ m.rowAt p = some r ∧ r.frame = f

lemma noLeak_iff (hs : Served c m) : NoLeak m ↔ ∀ f, ¬ Leaked m f := by
  constructor
  · intro h f hl
    obtain ⟨-, -, p, r, -, -, hr, hframe⟩ := h f hl.1
    exact hl.2 p r hr hframe
  · intro h f hused
    obtain ⟨p, r, hr, hframe⟩ : ∃ p r, m.rowAt p = some r ∧ r.frame = f := by
      by_contra hno
      exact h f ⟨hused, fun p r hr hframe => hno ⟨p, r, hr, hframe⟩⟩
    obtain ⟨table, ht, -⟩ := Memory.rowAt_eq_some_iff.mp hr
    obtain ⟨t, rows, ht1, hmem⟩ := hs.owned p.1 (by rw [ht]; rfl)
    exact ⟨t, rows, p, r, ht1, hmem, hr, hframe⟩

lemma noLeak_onInitMemory (c : Cfg) (heap : ℕ → UInt8) (f : ℕ) :
    ¬ Leaked (onInitMemory c heap) f := by
  rintro ⟨hused, -⟩
  have hmem := List.mem_of_getElem? hused
  simp [onInitMemory] at hmem

/-- A run loses no frame if and only if each of its steps releases all it should. -/
lemma noLeak_iff_meets {heap : ℕ → UInt8} {reqs : List Request}
    (h : run (step c) (onInitMemory c heap) reqs = some m) :
    NoLeak m ↔ Meets (step c) (Releases c) (onInitMemory c heap) reqs := by
  have hinit := served_onInitMemory c heap
  have hserved : Served c m :=
    Reachable.inv (fun _ _ _ hi hs => Served.step hi hs) hinit ⟨reqs, h⟩
  rw [noLeak_iff hserved]
  constructor
  · intro hno
    refine meets_of_undamaged (I := Served c) (B := fun m => ∃ f, Leaked m f)
      (fun _ _ _ hi hs => Served.step hi hs) ?_ ?_ hinit h (fun ⟨f, hf⟩ => hno f hf)
    · intro s e s' hs hnot hstep
      simp only [Releases, not_forall] at hnot
      obtain ⟨r, hr, hne⟩ := hnot
      exact ⟨r.frame, (leaked_step hs.mapped hstep _).mpr (.inr ⟨r, hr, rfl, hne⟩)⟩
    · rintro s e s' hs ⟨f, hf⟩ hstep
      exact ⟨f, (leaked_step hs.mapped hstep f).mpr (.inl hf)⟩
  · intro hmeets
    have hinv := hmeets.inv (I := fun m => Served c m ∧ ∀ f, ¬ Leaked m f) ?_
      ⟨hinit, noLeak_onInitMemory c heap⟩ h
    · exact hinv.2
    rintro s e s' ⟨hs, hno⟩ hrel hstep
    refine ⟨Served.step hs hstep, fun f hf => ?_⟩
    rcases (leaked_step hs.mapped hstep f).mp hf with hf | ⟨r, hr, rfl, hne⟩
    · exact hno f hf
    · exact hne (hrel r hr)

/-- **Termination.** In every state a run leads to, the end of a live process gives back its
frames and only those, and takes down its tables and no others, if and only if no row behind
the first `max_frames` of one of its tables ever had a frame. And the run has lost no frame if
and only if every process that ended in it was like that. -/
theorem deletesExactly_and_noLeak_iff (c : Cfg) (heap : ℕ → UInt8) (reqs : List Request)
    (m : Memory) (h : run (step c) (onInitMemory c heap) reqs = some m) :
    (∀ tableId rows, m.table1 tableId = some rows →
      ((∃ m', deleteProcess c m tableId = some m' ∧ DeletesExactly m m' tableId rows) ↔
        ReleasesAll c m tableId)) ∧
    (NoLeak m ↔ Meets (step c) (Releases c) (onInitMemory c heap) reqs) := by
  have hserved : Served c m :=
    Reachable.inv (fun _ _ _ hi hs => Served.step hi hs) (served_onInitMemory c heap) ⟨reqs, h⟩
  refine ⟨fun tableId rows ht => ?_, noLeak_iff_meets h⟩
  obtain ⟨m', h'⟩ := hserved.mapped.forest.deleteProcess_isSome hserved.mapped.framesKnown
    (hserved.printable _ _ ht) tableId
  rw [← deletesExactly_iff hserved.mapped ht h', h']
  simp

/-- A process touches its first page and ends. -/
def endRun : List Request := faultRun ++ [.processTerminated 1 0]

theorem deletesExactly_and_noLeak_iff_end :
    ∃ m, run (step smallCfg) (onInitMemory smallCfg fun _ => 0) endRun = some m ∧ NoLeak m := by
  refine ⟨_, rfl, ?_⟩
  refine (deletesExactly_and_noLeak_iff smallCfg (fun _ => 0) endRun _ rfl).2.mpr ?_
  decide

/-- With one frame per process, the second page of a table keeps its frame for good. -/
def leakRun : List Request :=
  [.memoryInit 1 12 goodOs, .frame 1 0 0 goodOs goodOs, .frame 1 0 1 goodOs goodOs]

set_option maxRecDepth 40000 in
theorem not_deletesExactly_late :
    ∃ m m', run (step singleCfg) (onInitMemory singleCfg fun _ => 0) leakRun = some m ∧
      deleteProcess singleCfg m 0 = some m' ∧
      m.table1 0 = some [⟨0⟩, ⟨1⟩] ∧ m.rowAt (0, 1) = some ⟨1, true, true, false⟩ ∧
      m'.frames[1]? = some true ∧ (∀ table ∈ m'.tablesLvl2, table = none) ∧
      ¬ DeletesExactly m m' 0 [⟨0⟩, ⟨1⟩] ∧ ¬ NoLeak m' := by
  refine ⟨_, _, rfl, rfl, rfl, rfl, rfl, by decide, fun h => ?_, fun h => ?_⟩
  · have hfreed := h.freed 0 (by simp [secondPages]) 1 ⟨1, true, true, false⟩ rfl
      (by simp [invalidFrame, uint32Max])
    cases hfreed
  · -- no level-1 table is left
    obtain ⟨t, rows, -, -, ht, -⟩ := h 1 rfl
    have hlt : t < 1 := slotGet_lt ht
    obtain rfl : t = 0 := by omega
    cases ht

end Sski.Mem.Termination
