import Sski.Mem.KernelController
import Sski.Mem.Tables

/-!
What the functions of the module leave as it is in the rows of the page tables.

`SameRows g m m'` says that the tables of `m'` are those of `m` with the same rows as far as
`g` looks at them, and that the bitmap is the same. Each function comes with the strongest `g`
it respects: the selectors only write use bits, the swap functions only present bits.
-/

namespace Sski.Mem.Rows

open Sski.Lib.Slots Sski.Lib.Block Sski.Mem.MemoryModule Sski.Mem.PageTable Sski.Mem.OsMemory
open Sski.Mem.Swap Sski.Mem.Algorithms Sski.Mem.CpuController Sski.Mem.KernelController
open Sski.Mem.Tables

variable {α β : Type*}

structure SameRows (g : PageTableLvl2 → α) (m m' : Memory) : Prop where
  tables1 : m'.tablesLvl1 = m.tablesLvl1
  length2 : m'.tablesLvl2.length = m.tablesLvl2.length
  frames : m'.frames = m.frames
  rows : ∀ t, (m'.table2 t).map (List.map g) = (m.table2 t).map (List.map g)

variable {c : Cfg} {g : PageTableLvl2 → α} {m m' m'' : Memory}

lemma SameRows.refl (g : PageTableLvl2 → α) (m : Memory) : SameRows g m m :=
  ⟨rfl, rfl, rfl, fun _ => rfl⟩

lemma SameRows.trans (h : SameRows g m m') (h' : SameRows g m' m'') : SameRows g m m'' :=
  ⟨h'.tables1.trans h.tables1, h'.length2.trans h.length2, h'.frames.trans h.frames,
    fun t => (h'.rows t).trans (h.rows t)⟩

lemma SameRows.symm (h : SameRows g m m') : SameRows g m' m :=
  ⟨h.tables1.symm, h.length2.symm, h.frames.symm, fun t => (h.rows t).symm⟩

lemma SameRows.comp (k : α → β) (h : SameRows g m m') : SameRows (fun r => k (g r)) m m' := by
  refine ⟨h.tables1, h.length2, h.frames, fun t => ?_⟩
  have hrows := congrArg (Option.map (List.map k)) (h.rows t)
  simpa only [Option.map_map, Function.comp_def, List.map_map] using hrows

lemma SameRows.of_eq (g : PageTableLvl2 → α) (h₁ : m'.tablesLvl1 = m.tablesLvl1)
    (h₂ : m'.tablesLvl2 = m.tablesLvl2) (h₃ : m'.frames = m.frames) : SameRows g m m' :=
  ⟨h₁, by rw [h₂], h₃, fun t => by simp only [Memory.table2, h₂]⟩

lemma SameRows.table1 (h : SameRows g m m') (t : ℕ) : m'.table1 t = m.table1 t := by
  rw [Memory.table1, Memory.table1, h.tables1]

lemma SameRows.table2 (h : SameRows g m m') {t : ℕ} {rows : List PageTableLvl2}
    (ht : m.table2 t = some rows) : ∃ rows', m'.table2 t = some rows' ∧
      rows'.map g = rows.map g := by
  have hrows := h.rows t
  rw [ht, Option.map_some, Option.map_eq_some_iff] at hrows
  exact hrows

lemma SameRows.rowAt (h : SameRows g m m') (p : RowRef) :
    (m'.rowAt p).map g = (m.rowAt p).map g := by
  have hrows := h.rows p.1
  have hrow : ∀ m : Memory,
      (m.rowAt p).map g = ((m.table2 p.1).map (List.map g)).bind (·[p.2]?) := by
    intro m
    cases ht : m.table2 p.1 <;> simp [Memory.rowAt, ht]
  rw [hrow, hrow, hrows]

lemma SameRows.rowAt_some (h : SameRows g m m') {p : RowRef} {r : PageTableLvl2}
    (hr : m.rowAt p = some r) : ∃ r', m'.rowAt p = some r' ∧ g r' = g r := by
  have hp := h.rowAt p
  rw [hr, Option.map_some, Option.map_eq_some_iff] at hp
  exact hp

lemma sameRows_setRow {p : RowRef} {r r₀ : PageTableLvl2} (h : m.rowAt p = some r₀)
    (hg : g r = g r₀) : SameRows g m (m.setRow p r) := by
  refine ⟨by simp, by simp, by simp, fun t => ?_⟩
  obtain ⟨table, ht, hr⟩ := Memory.rowAt_eq_some_iff.mp h
  rw [Memory.setRow_table2]
  split
  · rename_i htp
    subst htp
    rw [ht, Option.map_some, Option.map_some, Option.map_some, Option.some.injEq, List.map_set,
      hg]
    refine List.ext_getElem? fun i => ?_
    rw [List.getElem?_set]
    split
    · rename_i hi
      subst hi
      obtain ⟨hlt, hget⟩ := List.getElem?_eq_some_iff.mp hr
      simp [hlt, hget]
    · rfl
  · rfl

lemma modifyRow_eq {p : RowRef} {f : PageTableLvl2 → PageTableLvl2}
    (h : m.modifyRow p f = some m') :
    ∃ r, m.rowAt p = some r ∧ m' = m.setRow p (f r) := by
  simp only [Memory.modifyRow, Option.bind_eq_bind, Option.bind_eq_some_iff, Option.pure_def,
    Option.some.injEq] at h
  obtain ⟨r, hr, rfl⟩ := h
  exact ⟨r, hr, rfl⟩

lemma sameRows_modifyRow {p : RowRef} {f : PageTableLvl2 → PageTableLvl2}
    (hf : ∀ r, m.rowAt p = some r → g (f r) = g r) (h : m.modifyRow p f = some m') :
    SameRows g m m' := by
  obtain ⟨r, hr, rfl⟩ := modifyRow_eq h
  exact sameRows_setRow hr (hf r hr)

/-! ### The selectors -/

/-- All of a row but its use bit. -/
def unused (r : PageTableLvl2) : PageTableLvl2 := { r with use := false }

/-- A selector writes use bits and its hand, and nothing else. -/
structure UseOnly (m m' : Memory) : Prop where
  rows : SameRows unused m m'
  mainMemory : m'.mainMemory = m.mainMemory
  swapData : m'.swapData = m.swapData
  files : m'.files = m.files

/-- Until it is done it leaves the hands alone, too. -/
structure UseBits (m m' : Memory) : Prop extends UseOnly m m' where
  clock : m'.clock = m.clock
  improvedClock : m'.improvedClock = m.improvedClock

lemma UseBits.refl (m : Memory) : UseBits m m := ⟨⟨.refl _ _, rfl, rfl, rfl⟩, rfl, rfl⟩

lemma UseBits.trans (h : UseBits m m') (h' : UseBits m' m'') : UseBits m m'' :=
  ⟨⟨h.rows.trans h'.rows, h'.mainMemory.trans h.mainMemory, h'.swapData.trans h.swapData,
    h'.files.trans h.files⟩, h'.clock.trans h.clock, h'.improvedClock.trans h.improvedClock⟩

lemma useBits_setRow {p : RowRef} {r : PageTableLvl2} (h : m.rowAt p = some r) (use : Bool) :
    UseBits m (m.setRow p { r with use }) :=
  ⟨⟨sameRows_setRow h rfl, by simp, by simp, by simp⟩, by simp, by simp⟩

lemma useBits_scan {bigTable : List RowRef} {hit : PageTableLvl2 → Bool} {clear : ℕ → Bool}
    {js : List ℕ} {found : Option (ℕ × ℕ)}
    (h : scan bigTable hit clear js m = some (m', found)) : UseBits m m' := by
  induction js generalizing m with
  | nil =>
    obtain ⟨rfl, -⟩ : m = m' ∧ none = found := by simpa [scan] using h
    exact .refl _
  | cons j js ih =>
    simp only [scan, Option.bind_eq_bind, Option.bind_eq_some_iff] at h
    obtain ⟨p, -, row, hrow, h⟩ := h
    split at h
    · split at h
      · obtain ⟨rfl, -⟩ : m.setRow p { row with use := true } = m' ∧ _ = found := by
          simpa using h
        exact useBits_setRow hrow true
      · split at h
        · exact (useBits_setRow hrow false).trans (ih h)
        · exact ih h
    · exact ih h

lemma useBits_pass {bigTable : List RowRef} {hit : PageTableLvl2 → Bool}
    {clear clear' : ℕ → Bool} {n hand : ℕ} {found : Option (ℕ × ℕ)}
    (h : pass bigTable hit clear clear' n hand m = some (m', found)) : UseBits m m' := by
  simp only [Algorithms.pass, Option.bind_eq_bind, Option.bind_eq_some_iff] at h
  obtain ⟨⟨m₁, found₁⟩, h₁, h⟩ := h
  cases found₁ with
  | some taken =>
    obtain ⟨rfl, -⟩ : m₁ = m' ∧ _ = found := by simpa using h
    exact useBits_scan h₁
  | none => exact (useBits_scan h₁).trans (useBits_scan h)

lemma useBits_resetUse {bigTable : List RowRef} (h : resetUse bigTable m = some m') :
    UseBits m m' := by
  induction bigTable generalizing m with
  | nil =>
    obtain rfl : m = m' := by simpa [resetUse] using h
    exact .refl _
  | cons p ps ih =>
    simp only [resetUse, List.foldlM_cons, Option.bind_eq_bind, Option.bind_eq_some_iff] at h
    obtain ⟨m₁, h₁, h⟩ := h
    obtain ⟨r, hr, rfl⟩ := modifyRow_eq h₁
    exact (useBits_setRow hr false).trans (ih h)

def HandIn (c : Cfg) (hand : ℕ) : Prop := hand < max 1 (totalRows c)

structure HandsIn (c : Cfg) (m : Memory) : Prop where
  clock : HandIn c m.clock
  improvedClock : HandIn c m.improvedClock

lemma handIn_zero (c : Cfg) : HandIn c 0 := by
  unfold HandIn
  omega

lemma handIn_nextHand (c : Cfg) (j : ℕ) : HandIn c (nextHand (totalRows c) j) := by
  unfold HandIn nextHand
  split <;> omega

/-- What a selector does to the state: `UseOnly`, and its hand stays in the table. -/
structure Selected (c : Cfg) (m m' : Memory) : Prop extends UseOnly m m' where
  hands : HandsIn c m → HandsIn c m'

lemma UseBits.selected (h : UseBits m m') : Selected c m m' :=
  ⟨h.toUseOnly, fun hh => ⟨h.clock ▸ hh.clock, h.improvedClock ▸ hh.improvedClock⟩⟩

lemma UseBits.selected_clock (h : UseBits m m') {hand : ℕ} (hh : HandIn c hand) :
    Selected c m { m' with clock := hand } :=
  ⟨⟨h.rows.trans (.of_eq _ rfl rfl rfl), h.mainMemory, h.swapData, h.files⟩,
    fun hm => ⟨hh, h.improvedClock ▸ hm.improvedClock⟩⟩

lemma UseBits.selected_improvedClock (h : UseBits m m') (j : ℕ) :
    Selected c m { m' with improvedClock := nextHand (totalRows c) j } :=
  ⟨⟨h.rows.trans (.of_eq _ rfl rfl rfl), h.mainMemory, h.swapData, h.files⟩,
    fun hm => ⟨h.clock ▸ hm.clock, handIn_nextHand c j⟩⟩

lemma length_bigTableOf {tableIndex : ℕ} {bigTable : List RowRef}
    (h : bigTableOf c m tableIndex = some bigTable) : bigTable.length = totalRows c := by
  simp only [bigTableOf, Option.bind_eq_bind, Option.bind_eq_some_iff] at h
  obtain ⟨_, -, bigTable', rfl, h⟩ := h
  split at h
  · rename_i hlen
    obtain rfl := Option.some.inj h
    exact hlen.1
  · cases h

lemma selected_clockSelector {tableIndex frame : ℕ}
    (h : clockSelector c m tableIndex = some (m', frame)) : Selected c m m' := by
  simp only [clockSelector, Option.bind_eq_bind, Option.bind_eq_some_iff] at h
  obtain ⟨bigTable, hbig, ⟨m₁, found⟩, h₁, h⟩ := h
  cases found with
  | some taken =>
    obtain ⟨rfl, -⟩ : _ = m' ∧ _ = frame := by simpa using h
    exact (useBits_pass h₁).selected_clock (handIn_nextHand c taken.1)
  | none =>
    simp only [Option.bind_eq_some_iff] at h
    obtain ⟨m₂, h₂, p, hp, row, hrow, h⟩ := h
    have hlt := (List.getElem?_eq_some_iff.mp hp).1
    rw [length_bigTableOf hbig] at hlt
    simp only [Option.pure_def, Option.some.injEq, Prod.mk.injEq] at h
    obtain ⟨rfl, -⟩ := h
    refine ((useBits_pass h₁).trans ((useBits_resetUse h₂).trans
      (useBits_setRow hrow true))).selected_clock ?_
    rw [if_pos (by omega)]
    exact handIn_zero c

lemma selected_improvedClockSelector {tableIndex frame : ℕ}
    (h : improvedClockSelector c m tableIndex = some (m', frame)) : Selected c m m' := by
  simp only [improvedClockSelector, Option.bind_eq_bind, Option.bind_eq_some_iff] at h
  obtain ⟨bigTable, -, ⟨m₁, found₁⟩, h₁, h⟩ := h
  cases found₁ with
  | some taken =>
    obtain ⟨rfl, -⟩ : _ = m' ∧ _ = frame := by simpa using h
    exact (useBits_pass h₁).selected_improvedClock taken.1
  | none =>
    simp only [Option.bind_eq_some_iff] at h
    obtain ⟨⟨m₂, found₂⟩, h₂, h⟩ := h
    have hm₂ := (useBits_pass h₁).trans (useBits_pass h₂)
    cases found₂ with
    | some taken =>
      obtain ⟨rfl, -⟩ : _ = m' ∧ _ = frame := by simpa using h
      exact hm₂.selected_improvedClock taken.1
    | none =>
      simp only [Option.bind_eq_some_iff] at h
      obtain ⟨⟨m₃, found₃⟩, h₃, h⟩ := h
      have hm₃ := hm₂.trans (useBits_pass h₃)
      cases found₃ with
      | some taken =>
        obtain ⟨rfl, -⟩ : _ = m' ∧ _ = frame := by simpa using h
        exact hm₃.selected_improvedClock taken.1
      | none =>
        obtain ⟨rfl, -⟩ : m₃ = m' ∧ _ = frame := by simpa using h
        exact hm₃.selected

theorem selected_frameSelector {tableIndex frame : ℕ}
    (h : frameSelector c m tableIndex = some (m', frame)) : Selected c m m' := by
  unfold frameSelector at h
  split at h
  · exact selected_clockSelector h
  · exact selected_improvedClockSelector h

/-! ### Swap -/

/-- All of a row but its present bit. -/
def absent (r : PageTableLvl2) : PageTableLvl2 := { r with present := false }

/-- All of a row but its present and use bits. -/
def evicted (r : PageTableLvl2) : PageTableLvl2 := { r with present := false, use := false }

lemma openFile_eq {pid : ℕ} {os : Os} {file : List UInt8}
    (h : openFile m pid os = some (m', file)) :
    os.opens = true ∧ file = (m.files pid).getD [] ∧ m' = setFile m pid (some file) := by
  unfold openFile at h
  split at h
  · simp only [Option.some.injEq, Prod.mk.injEq] at h
    obtain ⟨rfl, rfl⟩ := h
    exact ⟨‹_›, rfl, rfl⟩
  · cases h

@[simp] lemma setFile_setFile (m : Memory) (pid : ℕ) (file file' : Option (List UInt8)) :
    setFile (setFile m pid file) pid file' = setFile m pid file' := by
  simp [setFile]

lemma getFrameRef_holds {frame : ℕ} {p : RowRef} (h : getFrameRef c m frame = some (some p)) :
    ∃ r, m.rowAt p = some r ∧ r.frame = frame := by
  simp only [getFrameRef] at h
  cases ht : m.table2 (getTableLvl2Number m frame) with
  | none =>
    simp only [ht] at h
    split at h <;> simp at h
  | some table =>
    simp only [ht, Option.some.injEq, Option.map_eq_some_iff] at h
    obtain ⟨i, hi, rfl⟩ := h
    obtain ⟨hlt, hframe, -⟩ := List.findIdx?_eq_some_iff_getElem.mp hi
    exact ⟨table[i], Memory.rowAt_eq_some_iff.mpr ⟨table, ht, List.getElem?_eq_getElem hlt⟩,
      by simpa using hframe⟩

lemma setPresent_eq {frame : ℕ} {present : Bool} (h : setPresent c m frame present = some m') :
    ∃ p r, getFrameRef c m frame = some (some p) ∧ m.rowAt p = some r ∧ r.frame = frame ∧
      m' = m.setRow p { r with present } := by
  simp only [setPresent, Option.bind_eq_bind, Option.bind_eq_some_iff] at h
  obtain ⟨_, href, p, rfl, h⟩ := h
  obtain ⟨r, hr, rfl⟩ := modifyRow_eq h
  obtain ⟨r', hr', hframe⟩ := getFrameRef_holds href
  obtain rfl : r = r' := by simpa [hr] using hr'
  exact ⟨p, r, href, hr, hframe, rfl⟩

lemma sameRows_setPresent {frame : ℕ} {present : Bool}
    (h : setPresent c m frame present = some m') : SameRows absent m m' := by
  obtain ⟨p, r, -, hr, -, rfl⟩ := setPresent_eq h
  exact sameRows_setRow hr rfl

/-- The file of a process as an eviction finds it: cut or filled up to the declared size. -/
def swapFileOf (m : Memory) (pid size : ℕ) : List UInt8 :=
  ftruncate ((m.files pid).getD []) size

/-- Every way an eviction can end. -/
lemma swapFrameForPcb_cases {pid frame : ℕ} {os : Os}
    (h : swapFrameForPcb c m pid frame os = some m') :
    ((getSwapDataForPcb m pid = none ∨ os.opens = false) ∧ m' = m) ∨
    ∃ i d, getSwapDataForPcb m pid = some (i, d) ∧ os.opens = true ∧
      ((mapFails os d.size = true ∧ m' = setFile m pid (some (swapFileOf m pid d.size))) ∨
      (mapFails os d.size = false ∧ ∃ region offset,
        swapFrame c m frame (mmap (swapFileOf m pid d.size) d.size) d.offset =
          some (region, offset) ∧
        setPresent c (setSwapOffset (setFile m pid
          (some (munmap (swapFileOf m pid d.size) region))) i offset) frame false =
          some m')) := by
  unfold swapFrameForPcb at h
  split at h
  · obtain rfl := Option.some.inj h
    exact .inl ⟨.inl ‹_›, rfl⟩
  rename_i i d hd
  split at h
  · rename_i hopen
    obtain rfl := Option.some.inj h
    refine .inl ⟨.inr ?_, rfl⟩
    simpa [openFile] using hopen
  · rename_i m₁ file hopen
    obtain ⟨hopens, rfl, rfl⟩ := openFile_eq hopen
    refine .inr ⟨i, d, hd, hopens, ?_⟩
    simp only [setFile_setFile] at h
    split at h
    · obtain rfl := Option.some.inj h
      exact .inl ⟨‹_›, rfl⟩
    · rename_i hmaps
      simp only [Option.bind_eq_bind, Option.bind_eq_some_iff] at h
      obtain ⟨⟨region, offset⟩, hswap, h⟩ := h
      exact .inr ⟨by simpa using hmaps, region, offset, hswap, h⟩

lemma loadRecord_eq {region : List UInt8} {frame : ℕ} {os : Os} {found : Option ℕ}
    (h : loadRecord c m region frame os found = some m') :
    ∃ mainMemory, m' = { m with mainMemory } := by
  cases found with
  | none =>
    obtain rfl := Option.some.inj h
    exact ⟨_, rfl⟩
  | some i =>
    simp only [loadRecord, loadPage, Option.bind_eq_bind, Option.bind_eq_some_iff,
      Option.pure_def, Option.some.injEq] at h
    obtain ⟨saved, -, frameData, -, mainMemory, -, rfl⟩ := h
    exact ⟨mainMemory, rfl⟩

/-- Every way a swap-in can end. -/
lemma unswapFrameForPcb_cases {pid frame : ℕ} {os : Os}
    (h : unswapFrameForPcb c m pid frame os = some m') :
    (os.opens = false ∧ m' = m) ∨
    ∃ k d, getSwapDataForPcb m pid = some (k, d) ∧ os.opens = true ∧
      ((mapFails os d.size = true ∧ m' = setFile m pid (some ((m.files pid).getD []))) ∨
      (mapFails os d.size = false ∧ ∃ found m₁ region offset,
        findRecord (mmap ((m.files pid).getD []) d.size) frame (recordStarts c d.offset) =
          some found ∧
        loadRecord c m (mmap ((m.files pid).getD []) d.size) frame os found = some m₁ ∧
        fillHole c (mmap ((m.files pid).getD []) d.size) (found.getD 0) d.offset =
          some (region, offset) ∧
        setPresent c (setSwapOffset (setFile m₁ pid
          (some (munmap ((m.files pid).getD []) region))) k offset) frame true =
          some m')) := by
  unfold unswapFrameForPcb at h
  split at h
  · rename_i hopen
    obtain rfl := Option.some.inj h
    refine .inl ⟨?_, rfl⟩
    simpa [openFile] using hopen
  · rename_i m₁ file hopen
    obtain ⟨hopens, rfl, rfl⟩ := openFile_eq hopen
    simp only [Option.bind_eq_bind, Option.bind_eq_some_iff] at h
    obtain ⟨⟨k, d⟩, hd, h⟩ := h
    refine .inr ⟨k, d, hd, hopens, ?_⟩
    split at h
    · obtain rfl := Option.some.inj h
      exact .inl ⟨‹_›, rfl⟩
    · rename_i hmaps
      simp only [Option.bind_eq_some_iff] at h
      obtain ⟨found, hfound, m₂, hload, ⟨region, offset⟩, hfill, h⟩ := h
      have hmap : mapFails os d.size = false := by simpa using hmaps
      have hload' : ∃ m₃, loadRecord c m (mmap ((m.files pid).getD []) d.size) frame os found =
          some m₃ ∧ m₂ = setFile m₃ pid (some ((m.files pid).getD [])) := by
        cases found with
        | none =>
          obtain rfl := Option.some.inj hload
          exact ⟨m, rfl, rfl⟩
        | some i =>
          simp only [loadRecord, loadPage, Option.bind_eq_bind, Option.bind_eq_some_iff,
            Option.pure_def, Option.some.injEq] at hload
          obtain ⟨saved, hsaved, frameData, hdata, mainMemory, hpoke, rfl⟩ := hload
          refine ⟨{ m with mainMemory }, ?_, rfl⟩
          simp only [loadRecord, loadPage, hsaved, hdata, Option.bind_eq_bind, Option.bind_some]
          have : poke m.mainMemory (c.tamPagina * frame) frameData = some mainMemory := hpoke
          rw [this]
          rfl
      obtain ⟨m₃, hload', rfl⟩ := hload'
      rw [setFile_setFile] at h
      exact .inr ⟨hmap, found, m₃, region, offset, hfound, hload', hfill, h⟩

lemma sameRows_swapFrameForPcb {pid frame : ℕ} {os : Os}
    (h : swapFrameForPcb c m pid frame os = some m') : SameRows absent m m' := by
  rcases swapFrameForPcb_cases h with ⟨-, rfl⟩ | ⟨i, d, -, -, ⟨-, rfl⟩ | ⟨-, region, offset, -, h⟩⟩
  · exact .refl _ _
  · exact .of_eq _ rfl rfl rfl
  · refine .trans ?_ (sameRows_setPresent h)
    exact .of_eq _ rfl rfl rfl

lemma sameRows_unswapFrameForPcb {pid frame : ℕ} {os : Os}
    (h : unswapFrameForPcb c m pid frame os = some m') : SameRows absent m m' := by
  rcases unswapFrameForPcb_cases h with
    ⟨-, rfl⟩ | ⟨k, d, -, -, ⟨-, rfl⟩ | ⟨-, found, m₁, region, offset, -, hload, -, h⟩⟩
  · exact .refl _ _
  · exact .of_eq _ rfl rfl rfl
  · obtain ⟨mainMemory, rfl⟩ := loadRecord_eq hload
    refine .trans ?_ (sameRows_setPresent h)
    exact .of_eq _ rfl rfl rfl

/-! ### Eviction -/

lemma clearFrame_rows {tableNumber2 frame : ℕ}
    (h : clearFrame c m tableNumber2 frame = some m') (t : ℕ) :
    m'.table2 t = if t = tableNumber2
      then (m.table2 t).map (List.map fun row =>
        if row.frame = frame then { row with present := false, use := false } else row)
      else m.table2 t := by
  unfold clearFrame at h
  split at h
  · rename_i hnone
    split at h
    · obtain rfl := Option.some.inj h
      split
      · rename_i ht; subst ht; rw [hnone]; rfl
      · rfl
    · cases h
  · rename_i table ht
    obtain rfl := Option.some.inj h
    split
    · rename_i htt
      subst htt
      rw [ht]
      exact slotGet_replace_self ht _
    · rename_i htt
      exact slotGet_replace_of_ne (Ne.symm htt) _

lemma clearFrame_rest {tableNumber2 frame : ℕ}
    (h : clearFrame c m tableNumber2 frame = some m') :
    ∃ l, m' = { m with tablesLvl2 := l } ∧ l.length = m.tablesLvl2.length := by
  unfold clearFrame at h
  split at h
  · split at h
    · obtain rfl := Option.some.inj h
      exact ⟨_, rfl, rfl⟩
    · cases h
  · obtain rfl := Option.some.inj h
    exact ⟨_, rfl, by simp⟩

lemma sameRows_clearFrame {tableNumber2 frame : ℕ}
    (h : clearFrame c m tableNumber2 frame = some m') : SameRows evicted m m' := by
  have hrows := clearFrame_rows h
  obtain ⟨l, rfl, hlen⟩ := clearFrame_rest h
  refine ⟨rfl, hlen, rfl, fun t => ?_⟩
  rw [hrows t]
  split
  · rw [Option.map_map]
    congr 1
    funext table
    simp only [Function.comp_apply, List.map_map]
    refine List.map_congr_left fun r _ => ?_
    simp only [Function.comp_apply]
    split <;> rfl
  · rfl

lemma sameRows_replaceFrame {pid frame : ℕ} {os : Os}
    (h : replaceFrame c m pid frame os = some m') : SameRows evicted m m' := by
  simp only [replaceFrame, Option.bind_eq_bind, Option.bind_eq_some_iff] at h
  obtain ⟨m₁, h₁, h⟩ := h
  exact (sameRows_clearFrame h₁).trans ((sameRows_swapFrameForPcb h).comp evicted)

lemma evict_cases {idTable2 pid : ℕ} {os : Os} (h : evict c m idTable2 pid os = some m') :
    (shouldReplaceFrame c m idTable2 = some false ∧ m' = m) ∨
    (shouldReplaceFrame c m idTable2 = some true ∧ ∃ m₁ victim,
      frameSelector c m (getTableLvl1Number m idTable2) = some (m₁, victim) ∧
      replaceFrame c m₁ pid victim os = some m') := by
  simp only [evict, Option.bind_eq_bind, Option.bind_eq_some_iff] at h
  obtain ⟨full, hfull, h⟩ := h
  cases full with
  | false =>
    obtain rfl := Option.some.inj h
    exact .inl ⟨hfull, rfl⟩
  | true =>
    simp only [if_true, Option.bind_eq_some_iff] at h
    obtain ⟨⟨m₁, victim⟩, hsel, h⟩ := h
    exact .inr ⟨hfull, m₁, victim, hsel, h⟩

theorem sameRows_evict {idTable2 pid : ℕ} {os : Os}
    (h : evict c m idTable2 pid os = some m') : SameRows evicted m m' := by
  rcases evict_cases h with ⟨-, rfl⟩ | ⟨-, m₁, victim, hsel, h⟩
  · exact .refl _ _
  · exact ((selected_frameSelector hsel).rows.comp evicted).trans (sameRows_replaceFrame h)

/-! ### A page fault -/

/-- A free frame is found and marked, or every frame is in use. -/
lemma findFreeFrame_cases {newFrame : ℕ} (h : findFreeFrame m = (m', newFrame)) :
    (m.frames[newFrame]? = some false ∧ m' = { m with frames := m.frames.set newFrame true }) ∨
    (newFrame = invalidFrame ∧ (∀ used ∈ m.frames, used = true) ∧ m' = m) := by
  unfold findFreeFrame at h
  split at h
  · rename_i i hi
    obtain ⟨rfl, rfl⟩ := Prod.mk.inj h
    obtain ⟨hlt, hfree, -⟩ := List.findIdx?_eq_some_iff_getElem.mp hi
    refine .inl ⟨?_, rfl⟩
    rw [List.getElem?_eq_getElem hlt]
    simpa using hfree
  · rename_i hnone
    obtain ⟨rfl, rfl⟩ := Prod.mk.inj h
    refine .inr ⟨rfl, fun used hused => ?_, rfl⟩
    simpa using List.findIdx?_eq_none_iff.mp hnone used hused

/-- The first row of a table that never had a frame. -/
def FirstUnmapped (m : Memory) (t i : ℕ) (r : PageTableLvl2) : Prop :=
  m.rowAt (t, i) = some r ∧ r.frame = invalidFrame ∧
    ∀ j r', j < i → m.rowAt (t, j) = some r' → r'.frame ≠ invalidFrame

/-- A frame is mapped on the first row that never had one; nothing happens if all have. -/
lemma createFrameForTable_cases {t frame index : ℕ}
    (h : createFrameForTable c m t frame = some (m', index)) :
    (m' = m ∧ ∀ i r, m.rowAt (t, i) = some r → r.frame ≠ invalidFrame) ∨
    ∃ r, FirstUnmapped m t index r ∧
      m' = m.setRow (t, index) { r with present := true, frame := frame, use := true } := by
  unfold createFrameForTable at h
  split at h
  · rename_i hnone
    split at h
    · obtain ⟨rfl, -⟩ := Prod.mk.inj (Option.some.inj h)
      refine .inl ⟨rfl, fun i r hr => ?_⟩
      obtain ⟨table, ht, -⟩ := Memory.rowAt_eq_some_iff.mp hr
      rw [hnone] at ht
      cases ht
    · cases h
  rename_i table ht
  split at h
  · rename_i i hi
    simp only [Option.bind_eq_bind, Option.bind_eq_some_iff, Option.pure_def,
      Option.some.injEq, Prod.mk.injEq] at h
    obtain ⟨m₁, hmod, rfl, rfl⟩ := h
    obtain ⟨r, hr, rfl⟩ := modifyRow_eq hmod
    obtain ⟨hlt, hinv, hfirst⟩ := List.findIdx?_eq_some_iff_getElem.mp hi
    obtain ⟨table', ht', hget⟩ := Memory.rowAt_eq_some_iff.mp hr
    obtain rfl : table = table' := by simpa [ht] using ht'
    obtain rfl : table[i] = r := by simpa [hlt] using hget
    refine .inr ⟨_, ⟨hr, by simpa using hinv, fun j r' hj hr' => ?_⟩, rfl⟩
    obtain ⟨table', ht', hget'⟩ := Memory.rowAt_eq_some_iff.mp hr'
    obtain rfl : table = table' := by simpa [ht] using ht'
    obtain ⟨hlt', rfl⟩ := List.getElem?_eq_some_iff.mp hget'
    simpa using hfirst j hj
  · rename_i hnone
    obtain ⟨rfl, rfl⟩ := Prod.mk.inj (Option.some.inj h)
    refine .inl ⟨rfl, fun i r hr => ?_⟩
    obtain ⟨table', ht', hget⟩ := Memory.rowAt_eq_some_iff.mp hr
    obtain rfl : table = table' := by simpa [ht] using ht'
    simpa using List.findIdx?_eq_none_iff.mp hnone r (List.mem_of_getElem? hget)

/-- The new frame is mapped, or the page is loaded again and the new frame given back. -/
lemma allocate_cases {idTable2 index pid newFrame : ℕ} {os : Os}
    (h : allocate c m idTable2 index pid newFrame os = some m') :
    ∃ row, m.rowAt (idTable2, index) = some row ∧
      ((row.frame = invalidFrame ∧
        ∃ createdAt, createFrameForTable c m idTable2 newFrame = some (m', createdAt)) ∨
      (row.frame ≠ invalidFrame ∧ ∃ m₁ m₂, deleteFrame c m newFrame = some m₁ ∧
        unswapFrameForPcb c m₁ pid row.frame os = some m₂ ∧
        m₂.modifyRow (idTable2, index) (fun row => { row with use := true }) = some m')) := by
  simp only [allocate, Option.bind_eq_bind, Option.bind_eq_some_iff] at h
  obtain ⟨row, hrow, h⟩ := h
  refine ⟨row, hrow, ?_⟩
  split at h
  · simp only [Option.bind_eq_some_iff, Option.pure_def, Option.some.injEq] at h
    obtain ⟨⟨m₁, createdAt⟩, hcreate, rfl⟩ := h
    exact .inl ⟨‹_›, createdAt, hcreate⟩
  · simp only [Option.bind_eq_some_iff] at h
    obtain ⟨m₁, h₁, m₂, h₂, h⟩ := h
    exact .inr ⟨‹_›, m₁, m₂, h₁, h₂, h⟩

lemma pageFault_steps {idTable2 index pid frame : ℕ} {os os' : Os}
    (h : pageFault c m idTable2 index pid os os' = some (m', frame)) :
    ∃ m₁ m₂, findFreeFrame m = (m₁, frame) ∧ evict c m₁ idTable2 pid os = some m₂ ∧
      allocate c m₂ idTable2 index pid frame os' = some m' := by
  simp only [pageFault, Option.bind_eq_bind, Option.bind_eq_some_iff, Option.pure_def,
    Option.some.injEq, Prod.mk.injEq] at h
  obtain ⟨m₂, hevict, m₃, hallocate, rfl, rfl⟩ := h
  exact ⟨_, m₂, rfl, hevict, hallocate⟩

/-- What `obtain_frame` answers: the row is out of bounds, it is present, or the page faults. -/
lemma obtainFrame_cases {idTable2 index pid frame : ℕ} {os os' : Os}
    (h : obtainFrame c m idTable2 index pid os os' = some (m', frame)) :
    (index > c.maxRows ∧ m' = m ∧ frame = uint32Max) ∨
    (∃ row, m.rowAt (idTable2, index) = some row ∧ row.present = true ∧ m' = m ∧
      frame = row.frame) ∨
    (∃ row, m.rowAt (idTable2, index) = some row ∧ row.present = false ∧
      pageFault c m idTable2 index pid os os' = some (m', frame)) := by
  unfold obtainFrame at h
  split at h
  · simp only [Option.pure_def, Option.some.injEq, Prod.mk.injEq] at h
    exact .inl ⟨‹_›, h.1.symm, h.2.symm⟩
  simp only [Option.bind_eq_bind, Option.bind_eq_some_iff] at h
  obtain ⟨row, hrow, h⟩ := h
  split at h
  · simp only [Option.pure_def, Option.some.injEq, Prod.mk.injEq] at h
    exact .inr (.inl ⟨row, hrow, ‹_›, h.1.symm, h.2.symm⟩)
  · exact .inr (.inr ⟨row, hrow, by rename_i hp; simpa using hp, h⟩)

/-! ### Reads, writes and files -/

/-- All of a row but its modified bit. -/
def unmodified (r : PageTableLvl2) : PageTableLvl2 := { r with modified := false }

lemma sameRows_setModified {frame : ℕ} {modified : Bool}
    (h : setModified c m frame modified = some m') : SameRows unmodified m m' := by
  unfold setModified at h
  split at h
  · cases h
  · obtain rfl := Option.some.inj h
    exact .refl _ _
  · refine sameRows_modifyRow ?_ h
    exact fun _ _ => rfl

lemma sameRows_cpuControllerRead {physicalAddress value : ℕ}
    (h : cpuControllerRead c m physicalAddress = some (m', value)) :
    SameRows unmodified m m' := by
  simp only [cpuControllerRead] at h
  split at h
  · obtain ⟨rfl, -⟩ := Prod.mk.inj (Option.some.inj h)
    exact .refl _ _
  · simp only [Option.bind_eq_bind, Option.bind_eq_some_iff, Option.pure_def,
      Option.some.injEq, Prod.mk.injEq] at h
    obtain ⟨m₁, h₁, v, -, rfl, -⟩ := h
    exact sameRows_setModified h₁

lemma sameRows_cpuControllerWrite {physicalAddress value : ℕ}
    (h : cpuControllerWrite c m physicalAddress value = some m') :
    SameRows unmodified m m' := by
  simp only [cpuControllerWrite] at h
  split at h
  · obtain rfl := Option.some.inj h
    exact .refl _ _
  · simp only [writeInMemory, Option.bind_eq_bind, Option.bind_eq_some_iff, Option.pure_def,
      Option.some.injEq] at h
    obtain ⟨m₁, h₁, mainMemory, -, rfl⟩ := h
    exact (sameRows_setModified h₁).trans (.of_eq _ rfl rfl rfl)

lemma createFile_eq {pid size : ℕ} {os : Os} (h : createFile m pid size os = some m') :
    ∃ file, m' = setFile m pid file := by
  simp only [createFile] at h
  split at h
  · obtain rfl := Option.some.inj h
    exact ⟨none, rfl⟩
  · rename_i m₁ file hopen
    obtain ⟨-, -, rfl⟩ := openFile_eq hopen
    simp only [setFile_setFile] at h
    split at h
    · obtain rfl := Option.some.inj h
      exact ⟨_, rfl⟩
    · simp only [Option.bind_eq_bind, Option.bind_eq_some_iff, Option.pure_def,
        Option.some.injEq] at h
      obtain ⟨region, -, rfl⟩ := h
      exact ⟨_, rfl⟩

/-! ### What else a function may change -/

lemma createLvl2Tables_fields {rows : ℕ} {ids : List ℕ}
    (h : createLvl2Tables c m rows = some (m', ids)) : ∃ l, m' = { m with tablesLvl2 := l } := by
  induction rows generalizing m' ids with
  | zero =>
    obtain ⟨rfl, -⟩ : m = m' ∧ [] = ids := by simpa [createLvl2Tables] using h
    exact ⟨_, rfl⟩
  | succ rows ih =>
    simp only [createLvl2Tables, Option.bind_eq_bind, Option.bind_eq_some_iff, Option.pure_def,
      Option.some.injEq, Prod.mk.injEq] at h
    obtain ⟨⟨m₁, ids₁⟩, h₁, l, -, rfl, -⟩ := h
    obtain ⟨l', rfl⟩ := ih h₁
    exact ⟨l, rfl⟩

lemma createNewProcess_fields {id : ℕ} (h : createNewProcess c m = some (m', id)) :
    ∃ l₁ l₂, m' = { m with tablesLvl1 := l₁, tablesLvl2 := l₂ } := by
  simp only [createNewProcess, createTable, Option.bind_eq_bind, Option.bind_eq_some_iff,
    Option.pure_def, Option.some.injEq, Prod.mk.injEq] at h
  obtain ⟨⟨m₁, ids⟩, h₁, l₁, -, rfl, -⟩ := h
  obtain ⟨l₂, rfl⟩ := createLvl2Tables_fields h₁
  exact ⟨l₁, l₂, rfl⟩

lemma kernelControllerMemoryInit_fields {pid size id : ℕ} {os : Os}
    (h : kernelControllerMemoryInit c m pid size os = some (m', id)) :
    ∃ file l₁ l₂, m' = { setFile m pid file with
      swapData := m.swapData ++ [⟨pid, 0, size⟩], tablesLvl1 := l₁, tablesLvl2 := l₂ } := by
  simp only [kernelControllerMemoryInit, getPageTable, Option.bind_eq_bind,
    Option.bind_eq_some_iff, Option.pure_def, Option.some.injEq, Prod.mk.injEq] at h
  obtain ⟨m₁, hfile, ⟨m₂, id'⟩, hcreate, -, -, rfl, -⟩ := h
  obtain ⟨file, rfl⟩ := createFile_eq hfile
  obtain ⟨l₁, l₂, rfl⟩ := createNewProcess_fields hcreate
  exact ⟨file, l₁, l₂, rfl⟩

lemma setRow_fields (m : Memory) (p : RowRef) (r : PageTableLvl2) :
    ∃ l, m.setRow p r = { m with tablesLvl2 := l } := by
  unfold Memory.setRow
  split
  · exact ⟨_, rfl⟩
  · exact ⟨_, rfl⟩

lemma modifyRow_fields {p : RowRef} {f : PageTableLvl2 → PageTableLvl2}
    (h : m.modifyRow p f = some m') : ∃ l, m' = { m with tablesLvl2 := l } := by
  obtain ⟨r, -, rfl⟩ := modifyRow_eq h
  exact setRow_fields m p _

lemma setPresent_fields {frame : ℕ} {present : Bool}
    (h : setPresent c m frame present = some m') : ∃ l, m' = { m with tablesLvl2 := l } := by
  obtain ⟨p, r, -, -, -, rfl⟩ := setPresent_eq h
  exact setRow_fields m p _

lemma swapFrameForPcb_fields {pid frame : ℕ} {os : Os}
    (h : swapFrameForPcb c m pid frame os = some m') :
    ∃ l swapData files, m' = { m with tablesLvl2 := l, swapData, files } := by
  rcases swapFrameForPcb_cases h with ⟨-, rfl⟩ | ⟨i, d, -, -, ⟨-, rfl⟩ | ⟨-, region, offset, -, h⟩⟩
  · exact ⟨_, _, _, rfl⟩
  · exact ⟨_, _, _, rfl⟩
  · obtain ⟨l, rfl⟩ := setPresent_fields h
    exact ⟨l, _, _, rfl⟩

lemma unswapFrameForPcb_fields {pid frame : ℕ} {os : Os}
    (h : unswapFrameForPcb c m pid frame os = some m') :
    ∃ mainMemory l swapData files,
      m' = { m with mainMemory, tablesLvl2 := l, swapData, files } := by
  rcases unswapFrameForPcb_cases h with
    ⟨-, rfl⟩ | ⟨k, d, -, -, ⟨-, rfl⟩ | ⟨-, found, m₁, region, offset, -, hload, -, h⟩⟩
  · exact ⟨_, _, _, _, rfl⟩
  · exact ⟨_, _, _, _, rfl⟩
  · obtain ⟨mainMemory, rfl⟩ := loadRecord_eq hload
    obtain ⟨l, rfl⟩ := setPresent_fields h
    exact ⟨mainMemory, l, _, _, rfl⟩

lemma replaceFrame_fields {pid frame : ℕ} {os : Os}
    (h : replaceFrame c m pid frame os = some m') :
    ∃ l swapData files, m' = { m with tablesLvl2 := l, swapData, files } := by
  simp only [replaceFrame, Option.bind_eq_bind, Option.bind_eq_some_iff] at h
  obtain ⟨m₁, h₁, h⟩ := h
  obtain ⟨l, rfl, -⟩ := clearFrame_rest h₁
  obtain ⟨l', swapData, files, rfl⟩ := swapFrameForPcb_fields h
  exact ⟨l', swapData, files, rfl⟩

lemma allocate_fields {idTable2 index pid newFrame : ℕ} {os : Os}
    (h : allocate c m idTable2 index pid newFrame os = some m') :
    ∃ mainMemory frames l swapData files,
      m' = { m with mainMemory, frames, tablesLvl2 := l, swapData, files } := by
  obtain ⟨row, -, ⟨-, createdAt, h⟩ | ⟨-, m₁, m₂, h₁, h₂, h⟩⟩ := allocate_cases h
  · rcases createFrameForTable_cases h with ⟨rfl, -⟩ | ⟨r, -, rfl⟩
    · exact ⟨_, _, _, _, _, rfl⟩
    · obtain ⟨l, hl⟩ := setRow_fields m (idTable2, createdAt)
        { r with present := true, frame := newFrame, use := true }
      exact ⟨_, _, l, _, _, hl⟩
  · obtain ⟨frames, rfl, -⟩ := deleteFrame_eq h₁
    obtain ⟨mainMemory, l, swapData, files, rfl⟩ := unswapFrameForPcb_fields h₂
    obtain ⟨l', rfl⟩ := modifyRow_fields h
    exact ⟨mainMemory, frames, l', swapData, files, rfl⟩

lemma setModified_fields {frame : ℕ} {modified : Bool}
    (h : setModified c m frame modified = some m') : ∃ l, m' = { m with tablesLvl2 := l } := by
  unfold setModified at h
  split at h
  · cases h
  · obtain rfl := Option.some.inj h
    exact ⟨_, rfl⟩
  · exact modifyRow_fields h

lemma cpuControllerRead_fields {physicalAddress value : ℕ}
    (h : cpuControllerRead c m physicalAddress = some (m', value)) :
    ∃ l, m' = { m with tablesLvl2 := l } := by
  simp only [cpuControllerRead] at h
  split at h
  · obtain ⟨rfl, -⟩ := Prod.mk.inj (Option.some.inj h)
    exact ⟨_, rfl⟩
  · simp only [Option.bind_eq_bind, Option.bind_eq_some_iff, Option.pure_def,
      Option.some.injEq, Prod.mk.injEq] at h
    obtain ⟨m₁, h₁, v, -, rfl, -⟩ := h
    exact setModified_fields h₁

lemma cpuControllerWrite_fields {physicalAddress value : ℕ}
    (h : cpuControllerWrite c m physicalAddress value = some m') :
    ∃ mainMemory l, m' = { m with mainMemory, tablesLvl2 := l } := by
  simp only [cpuControllerWrite] at h
  split at h
  · obtain rfl := Option.some.inj h
    exact ⟨_, _, rfl⟩
  · simp only [writeInMemory, Option.bind_eq_bind, Option.bind_eq_some_iff, Option.pure_def,
      Option.some.injEq] at h
    obtain ⟨m₁, h₁, mainMemory, -, rfl⟩ := h
    obtain ⟨l, rfl⟩ := setModified_fields h₁
    exact ⟨mainMemory, l, rfl⟩

end Sski.Mem.Rows
