import Mathlib.Data.List.Nodup
import Sski.Mem.OsMemory
import Sski.Lib.Runs

/-!
The page tables of all live processes form a forest: every live level-1 table references its
own level-2 tables, all of them live.

`Forest` is kept by the creation of a process and by the deletion of any id.
-/

namespace Sski.Mem.Tables

open Sski.Lib.Slots Sski.Lib.Runs Sski.Mem.MemoryModule Sski.Mem.PageTable Sski.Mem.OsMemory

/-- The ids of the level-2 tables a level-1 table references. -/
def secondPages (rows : List PageTableLvl1) : List ℕ := rows.map PageTableLvl1.secondPage

structure Forest (c : Cfg) (m : Memory) : Prop where
  length1 : m.tablesLvl1.length < intBound
  length2 : m.tablesLvl2.length < intBound
  rows1 : ∀ t rows, m.table1 t = some rows → rows.length = c.maxRows
  rows2 : ∀ t rows, m.table2 t = some rows → rows.length = c.maxRows
  nodup : ∀ t rows, m.table1 t = some rows → (secondPages rows).Nodup
  live : ∀ t rows, m.table1 t = some rows → ∀ id ∈ secondPages rows, (m.table2 id).isSome
  disjoint : ∀ t t' rows rows', m.table1 t = some rows → m.table1 t' = some rows' → t ≠ t' →
    (secondPages rows).Disjoint (secondPages rows')

lemma forest_onInitMemory (c : Cfg) (heap : ℕ → UInt8) : Forest c (onInitMemory c heap) := by
  constructor <;> simp [onInitMemory, intBound, Memory.table1, Memory.table2, slotGet]

variable {c : Cfg} {m m' : Memory}

/-! ### New tables -/

lemma findId_end {α : Type} (l : PtrList α) : findId l false = l.length := by
  unfold findId
  split
  · simp_all
  · rfl

lemma findId_reuse {α : Type} (l : PtrList α) :
    findId l true ≤ l.length ∧ slotGet l (findId l true) = none := by
  unfold findId
  split
  · rename_i h
    obtain rfl : l = [] := by simpa using h
    simp [slotGet]
  · cases hf : (List.range l.length).find? fun i => (slotGet l i).isNone with
    | none =>
      refine ⟨by simp, ?_⟩
      simp [slotGet]
    | some i =>
      have hmem := List.mem_of_find?_eq_some hf
      have hnone := List.find?_some hf
      simp only [List.mem_range] at hmem
      simp only [if_true, Option.getD_some]
      exact ⟨by omega, by simpa using hnone⟩

lemma addTable_spec {α : Type} {l l' : PtrList α} {id : ℕ} {table : α}
    (hl : l.length < intBound) (hid : id ≤ l.length) (h : addTable l id table = some l') :
    l'.length < intBound ∧ ∀ j, slotGet l' j = if j = id then some table else slotGet l j := by
  unfold addTable at h
  split at h
  · rename_i hlt
    obtain rfl := Option.some.inj h
    refine ⟨by simpa using hl, fun j => ?_⟩
    exact slotGet_replace_of_lt (by omega) hlt _ j
  · rename_i hge
    obtain rfl : id = l.length := by omega
    obtain ⟨rfl, hlen⟩ := slotAddInIndex_length hl h
    exact ⟨hlen, fun j => slotGet_append_singleton hl _ j⟩

lemma addTable_isSome {α : Type} {l : PtrList α} {id : ℕ} (table : α)
    (hl : l.length + 1 < intBound) (hid : id ≤ l.length) :
    ∃ l', addTable l id table = some l' := by
  unfold addTable slotAddInIndex
  split
  · exact ⟨_, rfl⟩
  · rw [if_pos ⟨by omega, hid⟩]
    exact ⟨_, rfl⟩

/-- The ids of `n` tables added behind the slot `k`. -/
def freshIds (k n : ℕ) : List ℕ := (List.range n).map (k + ·)

lemma mem_freshIds {k n i : ℕ} : i ∈ freshIds k n ↔ k ≤ i ∧ i < k + n := by
  simp only [freshIds, List.mem_map, List.mem_range]
  constructor
  · rintro ⟨j, hj, rfl⟩; omega
  · intro h; exact ⟨i - k, by omega, by omega⟩

lemma freshIds_succ (k n : ℕ) : freshIds k (n + 1) = freshIds k n ++ [k + n] := by
  simp [freshIds, List.range_succ]

lemma nodup_freshIds (k n : ℕ) : (freshIds k n).Nodup :=
  List.Nodup.map (fun _ _ h => Nat.add_left_cancel h) List.nodup_range

/-- The level-2 tables of a new process are new slots behind the old ones. -/
lemma createLvl2Tables_spec {rows : ℕ} {ids : List ℕ} (hl : m.tablesLvl2.length < intBound)
    (h : createLvl2Tables c m rows = some (m', ids)) :
    ids = freshIds m.tablesLvl2.length rows ∧
      ∃ l, m' = { m with tablesLvl2 := l } ∧ l.length = m.tablesLvl2.length + rows ∧
        l.length < intBound ∧
        ∀ j, slotGet l j = if j ∈ ids then some (newPageTableLvl2 c.maxRows)
          else slotGet m.tablesLvl2 j := by
  induction rows generalizing m' ids with
  | zero =>
    obtain ⟨rfl, rfl⟩ : m = m' ∧ [] = ids := by simpa [createLvl2Tables] using h
    exact ⟨rfl, m.tablesLvl2, rfl, rfl, hl, by simp⟩
  | succ rows ih =>
    simp only [createLvl2Tables, Option.bind_eq_bind, Option.bind_eq_some_iff] at h
    obtain ⟨⟨m₁, ids₁⟩, h₁, l', hadd, hret⟩ := h
    obtain ⟨rfl, l, rfl, hlen, hlt, hget⟩ := ih h₁
    simp only [findId_end] at hadd hret
    have hadd' : slotAddInIndex l l.length (some (newPageTableLvl2 c.maxRows)) = some l' := by
      simpa [addTable] using hadd
    obtain ⟨rfl, hlt'⟩ := slotAddInIndex_length hlt hadd'
    obtain ⟨rfl, rfl⟩ : _ ∧ _ := by simpa using hret
    refine ⟨by rw [freshIds_succ, hlen], _, rfl, by simp [hlen]; omega, hlt', fun j => ?_⟩
    rw [slotGet_append_singleton hlt, hget j]
    by_cases hj : j = l.length
    · simp [hj]
    · simp [hj]

lemma createLvl2Tables_isSome (rows : ℕ) (hl : m.tablesLvl2.length + rows < intBound) :
    ∃ p, createLvl2Tables c m rows = some p := by
  induction rows with
  | zero => exact ⟨_, rfl⟩
  | succ rows ih =>
    obtain ⟨⟨m₁, ids₁⟩, h₁⟩ := ih (by omega)
    obtain ⟨-, l, rfl, hlen, -, -⟩ := createLvl2Tables_spec (by omega) h₁
    obtain ⟨l', hl'⟩ := addTable_isSome (l := l) (newPageTableLvl2 c.maxRows) (by omega)
      (le_refl l.length)
    simp only [createLvl2Tables, h₁, Option.bind_eq_bind, Option.bind_some, findId_end, hl']
    exact ⟨_, rfl⟩

/-- What the creation of a process does: one level-1 table under a free id, and level-2 tables
in new slots. -/
structure Created (c : Cfg) (m m' : Memory) (id : ℕ) : Prop where
  free : m.table1 id = none
  table1 : ∀ t, m'.table1 t =
    if t = id then some ((freshIds m.tablesLvl2.length c.maxRows).map PageTableLvl1.mk)
    else m.table1 t
  table2 : ∀ t, m'.table2 t =
    if t ∈ freshIds m.tablesLvl2.length c.maxRows then some (newPageTableLvl2 c.maxRows)
    else m.table2 t
  length1 : m'.tablesLvl1.length < intBound
  length2 : m'.tablesLvl2.length < intBound
  frames : m'.frames = m.frames
  rest : m.SameStores m'

lemma createNewProcess_spec (h₁ : m.tablesLvl1.length < intBound)
    (h₂ : m.tablesLvl2.length < intBound) {id : ℕ}
    (h : createNewProcess c m = some (m', id)) : Created c m m' id := by
  simp only [createNewProcess, createTable, Option.bind_eq_bind, Option.bind_eq_some_iff] at h
  obtain ⟨⟨m₁, ids⟩, hlvl2, l', hadd, hret⟩ := h
  obtain ⟨rfl, l, rfl, -, hlt, hget⟩ := createLvl2Tables_spec h₂ hlvl2
  obtain ⟨hle, hfree⟩ := findId_reuse m.tablesLvl1
  obtain ⟨hlen, hget'⟩ := addTable_spec h₁ hle hadd
  obtain ⟨rfl, rfl⟩ : _ ∧ _ := by simpa using hret
  exact ⟨hfree, hget', hget, hlen, hlt, rfl, ⟨rfl, rfl, rfl, rfl, rfl⟩⟩

lemma createNewProcess_isSome (h₁ : m.tablesLvl1.length + 1 < intBound)
    (h₂ : m.tablesLvl2.length + c.maxRows < intBound) :
    ∃ p, createNewProcess c m = some p := by
  obtain ⟨⟨m₁, ids⟩, hlvl2⟩ := createLvl2Tables_isSome (c := c) c.maxRows h₂
  obtain ⟨-, l, rfl, -, -, -⟩ := createLvl2Tables_spec (by omega) hlvl2
  obtain ⟨l', hl'⟩ := addTable_isSome (ids.map PageTableLvl1.mk) h₁ (findId_reuse m.tablesLvl1).1
  simp only [createNewProcess, createTable, hlvl2, Option.bind_eq_bind, Option.bind_some, hl']
  exact ⟨_, rfl⟩

lemma table2_lt {t : ℕ} {rows : List PageTableLvl2} (h : m.table2 t = some rows) :
    t < m.tablesLvl2.length := slotGet_lt h

lemma not_mem_freshIds {t n : ℕ} {rows : List PageTableLvl2} (h : m.table2 t = some rows) :
    t ∉ freshIds m.tablesLvl2.length n := by
  have := table2_lt h
  rw [mem_freshIds]
  omega

lemma Created.table1_of_live {id : ℕ} (h : Created c m m' id) {t : ℕ}
    {rows : List PageTableLvl1} (ht : m.table1 t = some rows) : m'.table1 t = some rows := by
  rw [h.table1, if_neg, ht]
  rintro rfl
  rw [h.free] at ht
  cases ht

lemma Created.table2_of_live {id : ℕ} (h : Created c m m' id) {t : ℕ}
    {rows : List PageTableLvl2} (ht : m.table2 t = some rows) : m'.table2 t = some rows := by
  rw [h.table2, if_neg (not_mem_freshIds ht), ht]

@[simp] lemma secondPages_map_mk (ids : List ℕ) :
    secondPages (ids.map PageTableLvl1.mk) = ids := by
  simp [secondPages, Function.comp_def]

lemma Forest.disjoint_freshIds (h : Forest c m) {t n : ℕ} {rows : List PageTableLvl1}
    (ht : m.table1 t = some rows) :
    (secondPages rows).Disjoint (freshIds m.tablesLvl2.length n) := by
  intro i hi hi'
  obtain ⟨rows2, h2⟩ := Option.isSome_iff_exists.mp (h.live t rows ht i hi)
  exact not_mem_freshIds h2 hi'

theorem Forest.created (h : Forest c m) {id : ℕ} (hc : Created c m m' id) : Forest c m' := by
  refine ⟨hc.length1, hc.length2, ?_, ?_, ?_, ?_, ?_⟩
  · intro t rows ht
    rw [hc.table1] at ht
    split at ht
    · obtain rfl := Option.some.inj ht
      simp [freshIds]
    · exact h.rows1 t rows ht
  · intro t rows ht
    rw [hc.table2] at ht
    split at ht
    · obtain rfl := Option.some.inj ht
      simp
    · exact h.rows2 t rows ht
  · intro t rows ht
    rw [hc.table1] at ht
    split at ht
    · obtain rfl := Option.some.inj ht
      rw [secondPages_map_mk]
      exact nodup_freshIds _ _
    · exact h.nodup t rows ht
  · intro t rows ht i hi
    rw [hc.table2]
    split
    · rfl
    rename_i hnew
    rw [hc.table1] at ht
    split at ht
    · obtain rfl := Option.some.inj ht
      rw [secondPages_map_mk] at hi
      exact absurd hi hnew
    · exact h.live t rows ht i hi
  · intro t t' rows rows' ht ht' hne
    rw [hc.table1] at ht ht'
    split at ht
    · obtain rfl := Option.some.inj ht
      split at ht'
      · omega
      · rw [secondPages_map_mk]
        exact fun i hi hi' => h.disjoint_freshIds ht' hi' hi
    · split at ht'
      · obtain rfl := Option.some.inj ht'
        rw [secondPages_map_mk]
        exact h.disjoint_freshIds ht
      · exact h.disjoint t t' rows rows' ht ht' hne

/-! ### Deleted tables -/

def Holds (m : Memory) (t f : ℕ) : Prop := ∃ i r, m.rowAt (t, i) = some r ∧ r.frame = f

/-- The bits of a bitmap that may change are those of `held` frames. -/
def FreesOnly (held : ℕ → Prop) (b b' : List Bool) : Prop :=
  b'.length = b.length ∧ ∀ f, ¬ held f → b'[f]? = b[f]?

lemma FreesOnly.refl (held : ℕ → Prop) (b : List Bool) : FreesOnly held b b :=
  ⟨rfl, fun _ _ => rfl⟩

lemma FreesOnly.trans {P Q R : ℕ → Prop} {b b' b'' : List Bool} (h : FreesOnly P b b')
    (h' : FreesOnly Q b' b'') (hP : ∀ f, P f → R f) (hQ : ∀ f, Q f → R f) :
    FreesOnly R b b'' :=
  ⟨h'.1.trans h.1, fun f hf => (h'.2 f fun hq => hf (hQ f hq)).trans
    (h.2 f fun hp => hf (hP f hp))⟩

/-- What the deletion of a level-1 table does to the tables: it and the level-2 tables it
references become `NULL`, and no frame but theirs is given back. -/
structure Deleted (m m' : Memory) (tableId : ℕ) (rows : List PageTableLvl1) : Prop where
  table1 : ∀ t, m'.table1 t = if t = tableId then none else m.table1 t
  table2 : ∀ t, m'.table2 t = if t ∈ secondPages rows then none else m.table2 t
  length1 : m'.tablesLvl1.length = m.tablesLvl1.length
  length2 : m'.tablesLvl2.length = m.tablesLvl2.length
  frames : FreesOnly (fun f => ∃ t ∈ secondPages rows, Holds m t f) m.frames m'.frames
  rest : m.SameStores m'

theorem Forest.deleted (h : Forest c m) {tableId : ℕ} {rows : List PageTableLvl1}
    (ht : m.table1 tableId = some rows) (hd : Deleted m m' tableId rows) : Forest c m' := by
  have hold : ∀ t r, m'.table1 t = some r → t ≠ tableId ∧ m.table1 t = some r := by
    intro t r hr
    rw [hd.table1] at hr
    split at hr
    · cases hr
    · exact ⟨‹_›, hr⟩
  refine ⟨by rw [hd.length1]; exact h.length1, by rw [hd.length2]; exact h.length2, ?_, ?_, ?_,
    ?_, ?_⟩
  · intro t r hr
    exact h.rows1 t r (hold t r hr).2
  · intro t r hr
    rw [hd.table2] at hr
    split at hr
    · cases hr
    · exact h.rows2 t r hr
  · intro t r hr
    exact h.nodup t r (hold t r hr).2
  · intro t r hr i hi
    obtain ⟨hne, hr'⟩ := hold t r hr
    rw [hd.table2, if_neg]
    · exact h.live t r hr' i hi
    · intro hi'
      exact h.disjoint t tableId r rows hr' ht hne hi hi'
  · intro t t' r r' hr hr' hne
    exact h.disjoint t t' r r' (hold t r hr).2 (hold t' r' hr').2 hne

lemma deleteFrame_eq {id : ℕ} (h : deleteFrame c m id = some m') :
    ∃ frames, m' = { m with frames } ∧ FreesOnly (· = id) m.frames frames := by
  unfold deleteFrame at h
  split at h
  · split at h
    · obtain rfl := Option.some.inj h
      exact ⟨_, rfl, by simp, fun f hf => List.getElem?_set_ne (Ne.symm hf)⟩
    · cases h
  · obtain rfl := Option.some.inj h
    exact ⟨_, rfl, .refl _ _⟩

lemma releaseRow_eq {row : PageTableLvl2} (h : releaseRow c m row = some m') :
    ∃ frames, m' = { m with frames } ∧ FreesOnly (row.frame = ·) m.frames frames := by
  unfold releaseRow at h
  split at h
  · obtain ⟨frames, rfl, hfree⟩ := deleteFrame_eq h
    exact ⟨frames, rfl, hfree.trans (.refl (fun _ => False) _) (fun _ h => h.symm) (by simp)⟩
  · obtain rfl := Option.some.inj h
    exact ⟨_, rfl, .refl _ _⟩

lemma releaseRows_eq (rows : List PageTableLvl2) (h : rows.foldlM (releaseRow c) m = some m') :
    ∃ frames, m' = { m with frames } ∧
      FreesOnly (fun f => ∃ row ∈ rows, row.frame = f) m.frames frames := by
  induction rows generalizing m with
  | nil =>
    obtain rfl : m = m' := by simpa using h
    exact ⟨_, rfl, .refl _ _⟩
  | cons row rows ih =>
    rw [List.foldlM_cons, Option.bind_eq_bind, Option.bind_eq_some_iff] at h
    obtain ⟨m₁, h₁, h₂⟩ := h
    obtain ⟨frames, rfl, hfree⟩ := releaseRow_eq h₁
    obtain ⟨frames', rfl, hfree'⟩ := ih h₂
    refine ⟨frames', rfl, hfree.trans hfree' ?_ ?_⟩
    · intro f hf
      exact ⟨row, List.mem_cons_self, hf⟩
    · rintro f ⟨r, hr, hf⟩
      exact ⟨r, List.mem_cons_of_mem _ hr, hf⟩

lemma releasedRows_mem {id : ℕ} {rows : List PageTableLvl2}
    (h : releasedRows c m id = some rows) {row : PageTableLvl2} (hrow : row ∈ rows) :
    ∃ i, m.rowAt (id, i) = some row := by
  unfold releasedRows at h
  split at h
  · rename_i table ht
    obtain rfl := Option.some.inj h
    obtain ⟨i, hi⟩ := List.mem_iff_getElem?.mp (List.mem_of_mem_take hrow)
    exact ⟨i, Memory.rowAt_eq_some_iff.mpr ⟨table, ht, hi⟩⟩
  · split at h
    · obtain rfl := Option.some.inj h
      cases hrow
    · cases h

lemma deleteLevel2Table_eq {id : ℕ} (h : deleteLevel2Table c m id = some m') :
    ∃ frames, m' = { m with frames, tablesLvl2 := slotReplace m.tablesLvl2 id none } ∧
      FreesOnly (Holds m id) m.frames frames := by
  simp only [deleteLevel2Table, Option.bind_eq_bind, Option.bind_eq_some_iff,
    Option.pure_def, Option.some.injEq] at h
  obtain ⟨rows, hrows, m₁, h₁, rfl⟩ := h
  obtain ⟨frames, rfl, hfree⟩ := releaseRows_eq rows h₁
  refine ⟨frames, rfl, hfree.trans (.refl (fun _ => False) _) ?_ (by simp)⟩
  rintro f ⟨row, hrow, hf⟩
  obtain ⟨i, hi⟩ := releasedRows_mem hrows hrow
  exact ⟨i, row, hi, hf⟩

lemma deleteLevel2Tables_eq (rows : List PageTableLvl1)
    (hlive : ∀ id ∈ secondPages rows, (m.table2 id).isSome) (hnodup : (secondPages rows).Nodup)
    (h : rows.foldlM (fun m row => deleteLevel2Table c m row.secondPage) m = some m') :
    ∃ frames l, m' = { m with frames, tablesLvl2 := l } ∧ l.length = m.tablesLvl2.length ∧
      FreesOnly (fun f => ∃ t ∈ secondPages rows, Holds m t f) m.frames frames ∧
      ∀ t, slotGet l t = if t ∈ secondPages rows then none else m.table2 t := by
  induction rows generalizing m with
  | nil =>
    obtain rfl : m = m' := by simpa using h
    exact ⟨m.frames, m.tablesLvl2, rfl, rfl, .refl _ _,
      fun t => by simp [secondPages, Memory.table2]⟩
  | cons row rows ih =>
    rw [List.foldlM_cons, Option.bind_eq_bind, Option.bind_eq_some_iff] at h
    obtain ⟨m₁, h₁, h₂⟩ := h
    obtain ⟨frames, rfl, hfree⟩ := deleteLevel2Table_eq h₁
    have hpages : secondPages (row :: rows) = row.secondPage :: secondPages rows := rfl
    rw [hpages] at hnodup hlive
    obtain ⟨hnot, hnodup'⟩ := List.nodup_cons.mp hnodup
    obtain ⟨rows2, hrows2⟩ := Option.isSome_iff_exists.mp (hlive _ List.mem_cons_self)
    have hget : ∀ t, slotGet (slotReplace m.tablesLvl2 row.secondPage none) t =
        if t = row.secondPage then none else m.table2 t := by
      intro t
      by_cases ht : t = row.secondPage
      · subst ht
        rw [if_pos rfl]
        exact slotGet_replace_self hrows2 none
      · rw [if_neg ht]
        exact slotGet_replace_of_ne (Ne.symm ht) none
    obtain ⟨frames', l, rfl, hlen, hfree', hl⟩ := ih (fun id hid => by
      rw [Memory.table2, hget, if_neg (by rintro rfl; exact hnot hid)]
      exact hlive id (List.mem_cons_of_mem _ hid)) hnodup' h₂
    refine ⟨frames', l, rfl, by simpa using hlen, hfree.trans hfree' ?_ ?_, fun t => ?_⟩
    · intro f hf
      exact ⟨_, List.mem_cons_self, hf⟩
    · rintro f ⟨t, ht, i, r, hr, hf⟩
      have hne : t ≠ row.secondPage := by rintro rfl; exact hnot ht
      refine ⟨t, List.mem_cons_of_mem _ ht, i, r, ?_, hf⟩
      rw [Memory.rowAt, Memory.table2, hget, if_neg hne] at hr
      exact hr
    have hl' := hl t
    rw [Memory.table2, hget t] at hl'
    rw [hl', hpages]
    by_cases h₁ : t = row.secondPage
    · subst h₁; simp
    · by_cases h₂ : t ∈ secondPages rows <;> simp [h₁, h₂]

/-- Deleting an id: nothing happens if no table is there. -/
lemma deleteProcess_spec (hf : Forest c m) {tableId : ℕ}
    (h : deleteProcess c m tableId = some m') :
    (m.table1 tableId = none ∧ m' = m) ∨
      ∃ rows, m.table1 tableId = some rows ∧ Deleted m m' tableId rows := by
  unfold deleteProcess deleteRelatedTables at h
  split at h
  · rename_i ht
    obtain rfl := Option.some.inj h
    exact .inl ⟨ht, rfl⟩
  · rename_i rows ht
    simp only [Option.bind_eq_bind, Option.bind_eq_some_iff, Option.pure_def,
      Option.some.injEq] at h
    obtain ⟨-, -, m₁, h₁, rfl⟩ := h
    obtain ⟨frames, l, rfl, hlen, hfree, hl⟩ :=
      deleteLevel2Tables_eq rows (hf.live _ _ ht) (hf.nodup _ _ ht) h₁
    refine .inr ⟨rows, ht, ⟨fun t => ?_, hl, by simp, hlen, hfree, ⟨rfl, rfl, rfl, rfl, rfl⟩⟩⟩
    by_cases h' : t = tableId
    · subst h'
      rw [if_pos rfl]
      exact slotGet_replace_self ht none
    · rw [if_neg h']
      exact slotGet_replace_of_ne (Ne.symm h') none

theorem Forest.deleteProcess (hf : Forest c m) {tableId : ℕ}
    (h : deleteProcess c m tableId = some m') : Forest c m' := by
  rcases deleteProcess_spec hf h with ⟨-, rfl⟩ | ⟨rows, ht, hd⟩
  · exact hf
  · exact hf.deleted ht hd

theorem Forest.createNewProcess (hf : Forest c m) {id : ℕ}
    (h : createNewProcess c m = some (m', id)) : Forest c m' :=
  hf.created (createNewProcess_spec hf.length1 hf.length2 h)

/-! ### No deletion gets stuck -/

/-- Every frame a row holds has a bit in the bitmap. -/
structure FramesKnown (c : Cfg) (m : Memory) : Prop where
  length : m.frames.length = c.noOfFrames
  known : ∀ p r, m.rowAt p = some r → r.frame ≠ invalidFrame → r.frame < c.noOfFrames

lemma dvd_bigRows (h : c.maxRows < 2 ^ 16) : c.maxRows ∣ bigRows c := by
  have hlt : c.maxRows * c.maxRows < 2 ^ 16 * 2 ^ 16 := Nat.mul_lt_mul'' h h
  rw [bigRows, Nat.mod_eq_of_lt (by omega)]
  exact Nat.dvd_mul_right _ _

lemma Forest.col_lt (hf : Forest c m) {p : RowRef} {r : PageTableLvl2}
    (hr : m.rowAt p = some r) : p.2 < c.maxRows := by
  obtain ⟨table, ht, hget⟩ := Memory.rowAt_eq_some_iff.mp hr
  rw [← hf.rows2 _ _ ht]
  exact (List.getElem?_eq_some_iff.mp hget).1

lemma Forest.rowAt_isSome (hf : Forest c m) {t : ℕ} {rows : List PageTableLvl1}
    (ht : m.table1 t = some rows) {p : RowRef} (hp : p ∈ rowRefs c rows) :
    (m.rowAt p).isSome := by
  obtain ⟨hmem, hlt⟩ := mem_rowRefs.mp hp
  obtain ⟨rows2, h2⟩ := Option.isSome_iff_exists.mp (hf.live t rows ht _ hmem)
  have hlen := hf.rows2 _ _ h2
  have hrow : m.rowAt p = some rows2[p.2] :=
    Memory.rowAt_eq_some_iff.mpr ⟨rows2, h2, List.getElem?_eq_getElem (by omega)⟩
  rw [hrow]
  rfl

lemma Forest.printTable_eq (hf : Forest c m) (hd : c.maxRows ∣ bigRows c) {t : ℕ}
    {rows : List PageTableLvl1} (ht : m.table1 t = some rows) : printTable c m t = some () := by
  simp only [printTable, createBigTable, ht, if_pos hd, Option.bind_eq_bind,
    Option.bind_some]
  rw [if_pos]
  refine List.all_eq_true.mpr fun p hp => ?_
  exact hf.rowAt_isSome ht (List.mem_of_mem_take hp)

lemma releaseRows_isSome (rows : List PageTableLvl2) (hlen : m.frames.length = c.noOfFrames)
    (hknown : ∀ row ∈ rows, row.frame ≠ invalidFrame → row.frame < c.noOfFrames) :
    ∃ m', rows.foldlM (releaseRow c) m = some m' := by
  induction rows generalizing m with
  | nil => exact ⟨m, rfl⟩
  | cons row rows ih =>
    have hrow : ∃ m₁, releaseRow c m row = some m₁ := by
      unfold releaseRow deleteFrame
      split
      · have := hknown row List.mem_cons_self ‹_›
        rw [if_pos (by omega), if_pos (by omega)]
        exact ⟨_, rfl⟩
      · exact ⟨m, rfl⟩
    obtain ⟨m₁, h₁⟩ := hrow
    obtain ⟨frames, rfl, hfree⟩ := releaseRow_eq h₁
    obtain ⟨m', h'⟩ := ih (m := { m with frames }) (hfree.1.trans hlen)
      fun r hr => hknown r (List.mem_cons_of_mem _ hr)
    exact ⟨m', by rw [List.foldlM_cons, h₁]; exact h'⟩

lemma deleteLevel2Tables_isSome (rows : List PageTableLvl1) (hk : FramesKnown c m)
    (hlive : ∀ id ∈ secondPages rows, (m.table2 id).isSome) (hnodup : (secondPages rows).Nodup) :
    ∃ m', rows.foldlM (fun m row => deleteLevel2Table c m row.secondPage) m = some m' := by
  induction rows generalizing m with
  | nil => exact ⟨m, rfl⟩
  | cons row rows ih =>
    obtain ⟨hnot, hnodup'⟩ := List.nodup_cons.mp hnodup
    obtain ⟨rows2, h2⟩ := Option.isSome_iff_exists.mp (hlive _ List.mem_cons_self)
    have hrel : releasedRows c m row.secondPage =
        some (rows2.take (min c.maxRows c.maxFrames)) := by
      simp only [releasedRows, h2]
    obtain ⟨m₁, h₁⟩ := releaseRows_isSome (rows2.take (min c.maxRows c.maxFrames)) hk.length
      fun r hr => by
        obtain ⟨i, hi⟩ := releasedRows_mem hrel hr
        exact hk.known _ r hi
    have hstep : ∃ m₂, deleteLevel2Table c m row.secondPage = some m₂ :=
      ⟨{ m₁ with tablesLvl2 := slotReplace m₁.tablesLvl2 row.secondPage none },
        by simp [deleteLevel2Table, hrel, h₁]⟩
    obtain ⟨m₂, h₂⟩ := hstep
    obtain ⟨frames, rfl, hfree⟩ := deleteLevel2Table_eq h₂
    have hget : ∀ t, t ≠ row.secondPage →
        slotGet (slotReplace m.tablesLvl2 row.secondPage none) t = m.table2 t :=
      fun t ht => slotGet_replace_of_ne (Ne.symm ht) none
    have hk₂ : FramesKnown c { m with
        frames := frames, tablesLvl2 := slotReplace m.tablesLvl2 row.secondPage none } := by
      refine ⟨hfree.1.trans hk.length, fun p r hr => ?_⟩
      by_cases hp : p.1 = row.secondPage
      · rw [Memory.rowAt, Memory.table2, hp, slotGet_replace_self h2] at hr
        cases hr
      · rw [Memory.rowAt, Memory.table2, hget _ hp] at hr
        exact hk.known p r hr
    obtain ⟨m', h'⟩ := ih hk₂ (fun id hid => by
      rw [Memory.table2, hget id (by rintro rfl; exact hnot hid)]
      exact hlive id (List.mem_cons_of_mem _ hid)) hnodup'
    exact ⟨m', by rw [List.foldlM_cons, h₂]; exact h'⟩

/-- A process can be deleted in every well-formed state, unless the printer overruns its
block. -/
theorem Forest.deleteProcess_isSome (hf : Forest c m) (hk : FramesKnown c m)
    (hd : c.maxRows ∣ bigRows c) (tableId : ℕ) :
    ∃ m', OsMemory.deleteProcess c m tableId = some m' := by
  unfold OsMemory.deleteProcess deleteRelatedTables
  split
  · exact ⟨m, rfl⟩
  · rename_i rows ht
    obtain ⟨m₁, h₁⟩ := deleteLevel2Tables_isSome rows hk (hf.live _ _ ht) (hf.nodup _ _ ht)
    simp only [hf.printTable_eq hd ht, h₁, Option.bind_eq_bind, Option.bind_some]
    exact ⟨_, rfl⟩

lemma deleteProcess_of_none {tableId : ℕ} (h : m.table1 tableId = none) :
    OsMemory.deleteProcess c m tableId = some m := by
  simp [OsMemory.deleteProcess, deleteRelatedTables, h]

/-- The printer of a live table overruns its block. -/
lemma deleteProcess_none {tableId : ℕ} {rows : List PageTableLvl1}
    (ht : m.table1 tableId = some rows) (hd : ¬ c.maxRows ∣ bigRows c) :
    OsMemory.deleteProcess c m tableId = none := by
  have hprint : printTable c m tableId = none := by
    simp [printTable, createBigTable, ht, hd]
  simp [OsMemory.deleteProcess, deleteRelatedTables, ht, hprint]

/-! ### Histories of creations and deletions -/

inductive Call where
  | createNewProcess
  | deleteProcess (idTable : UInt32)

def call (c : Cfg) (m : Memory) : Call → Option Memory
  | .createNewProcess => (OsMemory.createNewProcess c m).map Prod.fst
  | .deleteProcess idTable => OsMemory.deleteProcess c m idTable.toNat

/-- Creations and deletions map no frame, so no row ever has one. -/
structure Unmapped (c : Cfg) (m : Memory) : Prop where
  forest : Forest c m
  length : m.frames.length = c.noOfFrames
  invalid : ∀ p r, m.rowAt p = some r → r.frame = invalidFrame

lemma Unmapped.framesKnown (h : Unmapped c m) : FramesKnown c m :=
  ⟨h.length, fun p r hr hne => absurd (h.invalid p r hr) hne⟩

lemma unmapped_onInitMemory (c : Cfg) (heap : ℕ → UInt8) :
    Unmapped c (onInitMemory c heap) :=
  ⟨forest_onInitMemory c heap, by simp [onInitMemory],
    by simp [onInitMemory, Memory.rowAt, Memory.table2, slotGet]⟩

lemma Unmapped.call (h : Unmapped c m) {k : Call} (hs : call c m k = some m') :
    Unmapped c m' := by
  cases k with
  | createNewProcess =>
    obtain ⟨⟨m₁, id⟩, h₁, rfl⟩ := Option.map_eq_some_iff.mp hs
    have hc := createNewProcess_spec h.forest.length1 h.forest.length2 h₁
    refine ⟨h.forest.created hc, by rw [hc.frames]; exact h.length, fun p r hr => ?_⟩
    obtain ⟨table, ht, hrow⟩ := Memory.rowAt_eq_some_iff.mp hr
    rw [hc.table2] at ht
    split at ht
    · obtain rfl := Option.some.inj ht
      obtain rfl := mem_newPageTableLvl2 (List.mem_of_getElem? hrow)
      rfl
    · exact h.invalid p r (Memory.rowAt_eq_some_iff.mpr ⟨table, ht, hrow⟩)
  | deleteProcess idTable =>
    rcases deleteProcess_spec h.forest hs with ⟨-, rfl⟩ | ⟨rows, ht, hd⟩
    · exact h
    refine ⟨h.forest.deleted ht hd, hd.frames.1.trans h.length, fun p r hr => ?_⟩
    obtain ⟨table, ht', hrow⟩ := Memory.rowAt_eq_some_iff.mp hr
    rw [hd.table2] at ht'
    split at ht'
    · cases ht'
    · exact h.invalid p r (Memory.rowAt_eq_some_iff.mpr ⟨table, ht', hrow⟩)

/-- **Page-table forest.** After every history of creations and deletions the tables form a
forest, and the next creation takes an id that is not live and leaves every live table as it
is. It only fails when a list of tables is about to outgrow an `int`. The next deletion fails
when its table is live and printing it overruns the big table. -/
theorem forest_of_calls (c : Cfg) (heap : ℕ → UInt8) (m : Memory)
    (h : Reachable (call c) (onInitMemory c heap) m) :
    Forest c m ∧
    (∀ m' id, OsMemory.createNewProcess c m = some (m', id) →
      m.table1 id = none ∧ (m'.table1 id).isSome ∧
      (∀ t rows, m.table1 t = some rows → m'.table1 t = some rows) ∧
      (∀ t rows, m.table2 t = some rows → m'.table2 t = some rows)) ∧
    (m.tablesLvl1.length + 1 < intBound → m.tablesLvl2.length + c.maxRows < intBound →
      (OsMemory.createNewProcess c m).isSome) ∧
    (∀ idTable, (OsMemory.deleteProcess c m idTable).isSome ↔
      m.table1 idTable = none ∨ c.maxRows ∣ bigRows c) ∧
    (c.maxRows < 2 ^ 16 → ∀ idTable, (OsMemory.deleteProcess c m idTable).isSome) := by
  have hu : Unmapped c m := h.inv (fun _ _ _ hi hs => hi.call hs) (unmapped_onInitMemory c heap)
  refine ⟨hu.forest, ?_, ?_, fun idTable => ⟨fun hsome => ?_, ?_⟩, ?_⟩
  · intro m' id hc
    have hcr := createNewProcess_spec hu.forest.length1 hu.forest.length2 hc
    refine ⟨hcr.free, ?_, fun t rows => hcr.table1_of_live, fun t rows => hcr.table2_of_live⟩
    rw [hcr.table1, if_pos rfl]
    rfl
  · intro h₁ h₂
    exact Option.isSome_iff_exists.mpr (createNewProcess_isSome h₁ h₂)
  · by_contra hor
    obtain ⟨hlive, hd⟩ := not_or.mp hor
    obtain ⟨rows, ht⟩ := Option.ne_none_iff_exists'.mp hlive
    rw [deleteProcess_none ht hd] at hsome
    cases hsome
  · rintro (hnone | hd)
    · rw [deleteProcess_of_none hnone]
      rfl
    · exact Option.isSome_iff_exists.mpr
        (hu.forest.deleteProcess_isSome hu.framesKnown hd idTable)
  · intro hn idTable
    exact Option.isSome_iff_exists.mpr
      (hu.forest.deleteProcess_isSome hu.framesKnown (dvd_bigRows hn) idTable)

/-- Two processes come, the first one goes, and a third takes its slot. -/
def reuseHistory : List Call :=
  [.createNewProcess, .createNewProcess, .deleteProcess 0, .createNewProcess]

theorem forest_of_calls_reuse :
    ∃ m, run (call smallCfg) (onInitMemory smallCfg fun _ => 0) reuseHistory = some m ∧
      Forest smallCfg m :=
  ⟨_, rfl, (forest_of_calls smallCfg (fun _ => 0) _ ⟨reuseHistory, rfl⟩).1⟩

/-- `max_rows * max_rows` is 131073 in 32 bits, one less than twice `max_rows`. -/
def overrunCfg : Cfg :=
  { smallCfg with entradasPorTabla := 65537, entradasPorTabla_lt := by decide }

/-- The first process comes and goes. -/
theorem not_forest_overrun : ¬ ∀ (c : Cfg) (heap : ℕ → UInt8) (m : Memory),
    Reachable (call c) (onInitMemory c heap) m →
      ∀ idTable, ∃ m', call c m (.deleteProcess idTable) = some m' ∧ Forest c m' := by
  intro hall
  have hforest := forest_onInitMemory overrunCfg fun _ => 0
  obtain ⟨⟨m, id⟩, hm⟩ := createNewProcess_isSome (c := overrunCfg)
    (m := onInitMemory overrunCfg fun _ => 0) (by simp [onInitMemory, intBound])
    (by simp [onInitMemory, intBound, Cfg.maxRows, overrunCfg])
  have hcreated := createNewProcess_spec hforest.length1 hforest.length2 hm
  have hlive := hcreated.table1 id
  rw [if_pos rfl] at hlive
  have hid : (UInt32.ofNat id).toNat = id := by
    have hlt : id < m.tablesLvl1.length := slotGet_lt hlive
    have hlen := hcreated.length1
    exact UInt32.toNat_ofNat_of_lt' (by simp only [intBound, UInt32.size] at hlen ⊢; omega)
  have hrun : run (call overrunCfg) (onInitMemory overrunCfg fun _ => 0) [.createNewProcess] =
      some m := by
    simp [run, call, hm]
  obtain ⟨m', hm', -⟩ := hall overrunCfg _ m ⟨_, hrun⟩ (UInt32.ofNat id)
  rw [call, hid, deleteProcess_none hlive (by decide)] at hm'
  cases hm'

end Sski.Mem.Tables
