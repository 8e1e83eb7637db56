import Sski.Mem.Resident
import Sski.Mem.SwapFile

/-!
The first access to a page, in full: what it leaves as it is, and when it goes through.

`Obtained` is what the CPU may rely on after it asked for the frame of a row that was present,
or that was the first of its table without a frame. A page that was swapped out is not
covered: its row goes back to its old frame, and another one is answered.
-/

namespace Sski.Mem.Faults

open Sski.Lib.Slots Sski.Lib.Block Sski.Mem.MemoryModule Sski.Mem.PageTable Sski.Mem.OsMemory
open Sski.Mem.Swap Sski.Mem.Algorithms Sski.Mem.CpuController Sski.Mem.Tables Sski.Mem.Rows
open Sski.Mem.Frames Sski.Mem.Selection Sski.Mem.Resident Sski.Mem.SwapFile

variable {c : Cfg} {m m' : Memory}

/-! ### Victims -/

/-- The frame a replacement takes for a page fault in a table, if there is a replacement. -/
def selected (c : Cfg) (m : Memory) (idTable2 : ℕ) : Option ℕ :=
  if shouldReplaceFrame c m idTable2 = some true then
    (frameSelector c m (getTableLvl1Number m idTable2)).map Prod.snd
  else none

/-- The same, for a page fault in this state: a free frame is taken before. -/
def victim (c : Cfg) (m : Memory) (idTable2 : ℕ) : Option ℕ :=
  selected c (findFreeFrame m).1 idTable2

/-- Rows of other frames do not notice that a frame is replaced. -/
lemma replaceFrame_row {pid frame : ℕ} {os : Os} (h : replaceFrame c m pid frame os = some m')
    {p : RowRef} {r : PageTableLvl2} (hr : m.rowAt p = some r) (hne : r.frame ≠ frame) :
    m'.rowAt p = some r := by
  simp only [replaceFrame, Option.bind_eq_bind, Option.bind_eq_some_iff] at h
  obtain ⟨m₁, h₁, h⟩ := h
  have hr₁ : m₁.rowAt p = some r := by
    obtain ⟨table, ht, hget⟩ := Memory.rowAt_eq_some_iff.mp hr
    have hrows := clearFrame_rows h₁ p.1
    rw [ht] at hrows
    split at hrows
    · exact Memory.rowAt_eq_some_iff.mpr ⟨_, hrows, by simp [hget, hne]⟩
    · exact Memory.rowAt_eq_some_iff.mpr ⟨_, hrows, hget⟩
  rcases swapFrameForPcb_cases h with ⟨-, rfl⟩ | ⟨i, d, -, -, ⟨-, rfl⟩ | ⟨-, region, offset, -, h⟩⟩
  · exact hr₁
  · exact hr₁
  · obtain ⟨q, s, -, hs, hframe, rfl⟩ := setPresent_eq h
    rw [Memory.rowAt_setRow _ hs, if_neg]
    · exact hr₁
    · rintro rfl
      have hrs : m₁.rowAt p = some s := hs
      rw [hr₁, Option.some.injEq] at hrs
      exact hne (hrs ▸ hframe)

/-- An eviction keeps the frames of all rows, and the present bit of the rows that do not hold
the victim. -/
lemma evict_row {idTable2 pid : ℕ} {os : Os} (h : evict c m idTable2 pid os = some m')
    {p : RowRef} {r : PageTableLvl2} (hr : m.rowAt p = some r) :
    ∃ r', m'.rowAt p = some r' ∧ r'.frame = r.frame ∧
      (selected c m idTable2 ≠ some r.frame → r'.present = r.present) := by
  obtain ⟨r', hr', hsame⟩ := (sameRows_evict h).rowAt_some hr
  refine ⟨r', hr', (congrArg PageTableLvl2.frame hsame :), fun hsel => ?_⟩
  rcases evict_cases h with ⟨-, rfl⟩ | ⟨hfull, m₁, f, hselect, h⟩
  · obtain rfl : r = r' := by simpa [hr] using hr'
    rfl
  · obtain ⟨r₁, hr₁, hsame₁⟩ := (selected_frameSelector hselect).rows.rowAt_some hr
    have hframe : r₁.frame = r.frame := (congrArg PageTableLvl2.frame hsame₁ :)
    have hne : r₁.frame ≠ f := by
      rintro rfl
      refine hsel ?_
      rw [selected, if_pos hfull, hselect, Option.map_some, hframe]
    have hback := replaceFrame_row h hr₁ hne
    obtain rfl : r₁ = r' := by simpa [hr'] using hback.symm
    exact (congrArg PageTableLvl2.present hsame₁ :)

lemma replaceFrame_absent {pid frame : ℕ} {os : Os} (h : replaceFrame c m pid frame os = some m')
    {p : RowRef} {r : PageTableLvl2} (hr : m.rowAt p = some r) (habs : r.present = false) :
    ∃ r', m'.rowAt p = some r' ∧ r'.present = false := by
  simp only [replaceFrame, Option.bind_eq_bind, Option.bind_eq_some_iff] at h
  obtain ⟨m₁, h₁, h⟩ := h
  obtain ⟨r₁, hr₁, habs₁⟩ : ∃ r₁, m₁.rowAt p = some r₁ ∧ r₁.present = false := by
    obtain ⟨table, ht, hget⟩ := Memory.rowAt_eq_some_iff.mp hr
    have hrows := clearFrame_rows h₁ p.1
    rw [ht] at hrows
    split at hrows
    · refine ⟨_, Memory.rowAt_eq_some_iff.mpr ⟨_, hrows, by rw [List.getElem?_map, hget]; rfl⟩, ?_⟩
      dsimp only
      split
      · rfl
      · exact habs
    · exact ⟨r, Memory.rowAt_eq_some_iff.mpr ⟨_, hrows, hget⟩, habs⟩
  rcases swapFrameForPcb_cases h with ⟨-, rfl⟩ | ⟨i, d, -, -, ⟨-, rfl⟩ | ⟨-, region, offset, -, h⟩⟩
  · exact ⟨r₁, hr₁, habs₁⟩
  · exact ⟨r₁, hr₁, habs₁⟩
  · obtain ⟨q, s, -, hs, -, rfl⟩ := setPresent_eq h
    rw [Memory.rowAt_setRow _ hs]
    split
    · exact ⟨_, rfl, rfl⟩
    · exact ⟨r₁, hr₁, habs₁⟩

lemma evict_absent {idTable2 pid : ℕ} {os : Os} (h : evict c m idTable2 pid os = some m')
    {p : RowRef} {r : PageTableLvl2} (hr : m.rowAt p = some r) (habs : r.present = false) :
    ∃ r', m'.rowAt p = some r' ∧ r'.present = false := by
  rcases evict_cases h with ⟨-, rfl⟩ | ⟨-, m₁, f, hselect, h⟩
  · exact ⟨r, hr, habs⟩
  · obtain ⟨r₁, hr₁, hsame₁⟩ := (selected_frameSelector hselect).rows.rowAt_some hr
    have hpres : r₁.present = r.present := (congrArg PageTableLvl2.present hsame₁ :)
    exact replaceFrame_absent h hr₁ (hpres.trans habs)

/-! ### What a fault leaves as it is -/

/-- The frame of a row was obtained: it is the row's, and the others are as they were. -/
structure Obtained (c : Cfg) (pid : ℕ) (m m' : Memory) (p : RowRef) (frame : ℕ) : Prop where
  row : ∃ r, m'.rowAt p = some r ∧ r.frame = frame ∧ r.present = true
  keeps : ∀ q r, m.rowAt q = some r →
    (q = p ∧ r.frame = invalidFrame ∧ r.present = false) ∨
    ∃ r', m'.rowAt q = some r' ∧ r'.frame = r.frame ∧
      (victim c m p.1 ≠ some r.frame → r'.present = r.present)
  tables1 : m'.tablesLvl1 = m.tablesLvl1
  mainMemory : m'.mainMemory = m.mainMemory
  files : ∀ pid' ≠ pid, m'.files pid' = m.files pid'
  hands : HandsIn c m → HandsIn c m'

/-- The condition on a request for the frame of a row: if it faults, it is the first access to
the page, and no earlier row of the table is waiting for one. -/
def FirstAccess (m : Memory) (p : RowRef) : Prop :=
  ∀ r, m.rowAt p = some r → r.present = false → FirstUnmapped m p.1 p.2 r

instance (m : Memory) (t i : ℕ) (r : PageTableLvl2) : Decidable (FirstUnmapped m t i r) :=
  decidable_of_iff (m.rowAt (t, i) = some r ∧ r.frame = invalidFrame ∧
      ∀ j < i, ∀ r' ∈ m.rowAt (t, j), r'.frame ≠ invalidFrame)
    ⟨fun ⟨hr, hinv, h⟩ => ⟨hr, hinv, fun j r' hj hr' => h j hj r' hr'⟩,
      fun ⟨hr, hinv, h⟩ => ⟨hr, hinv, fun j hj r' hr' => h j r' hj hr'⟩⟩

instance (m : Memory) (p : RowRef) : Decidable (FirstAccess m p) :=
  decidable_of_iff (∀ r ∈ m.rowAt p, r.present = false → FirstUnmapped m p.1 p.2 r) Iff.rfl

lemma swapFrameForPcb_files {pid pid' frame : ℕ} {os : Os}
    (h : swapFrameForPcb c m pid frame os = some m') (hne : pid' ≠ pid) :
    m'.files pid' = m.files pid' := by
  rcases swapFrameForPcb_cases h with ⟨-, rfl⟩ | ⟨i, d, -, -, ⟨-, rfl⟩ | ⟨-, region, offset, -, h⟩⟩
  · rfl
  · simp [setFile, hne]
  · obtain ⟨l, rfl⟩ := setPresent_fields h
    simp [setFile, setSwapOffset, hne]

lemma evict_fields {idTable2 pid : ℕ} {os : Os} (h : evict c m idTable2 pid os = some m') :
    m'.tablesLvl1 = m.tablesLvl1 ∧ m'.mainMemory = m.mainMemory ∧
      (∀ pid' ≠ pid, m'.files pid' = m.files pid') ∧ (HandsIn c m → HandsIn c m') := by
  rcases evict_cases h with ⟨-, rfl⟩ | ⟨-, m₁, f, hselect, h⟩
  · exact ⟨rfl, rfl, fun _ _ => rfl, id⟩
  · have hsel := selected_frameSelector hselect
    simp only [replaceFrame, Option.bind_eq_bind, Option.bind_eq_some_iff] at h
    obtain ⟨m₂, h₂, h⟩ := h
    obtain ⟨l, rfl, -⟩ := clearFrame_rest h₂
    have hfiles := fun pid' (hne : pid' ≠ pid) => swapFrameForPcb_files h hne
    obtain ⟨l', swapData, files, rfl⟩ := swapFrameForPcb_fields h
    refine ⟨hsel.rows.tables1, hsel.mainMemory, fun pid' hne => ?_, fun hh => ?_⟩
    · rw [hfiles pid' hne, hsel.files]
    · have hh₁ := hsel.hands hh
      exact ⟨hh₁.clock, hh₁.improvedClock⟩

/-- The fault of a first access: the frame that was taken is mapped on the row after the
eviction. -/
lemma pageFault_firstUnmapped {p : RowRef} {r : PageTableLvl2} {pid frame : ℕ} {os os' : Os}
    (hfirst : FirstUnmapped m p.1 p.2 r)
    (h : pageFault c m p.1 p.2 pid os os' = some (m', frame)) :
    ∃ m₁ m₂ s, findFreeFrame m = (m₁, frame) ∧ evict c m₁ p.1 pid os = some m₂ ∧
      m₂.rowAt p = some s ∧ m' = m₂.setRow p { s with present := true, frame, use := true } := by
  obtain ⟨m₁, m₂, hfind, hevict, hallocate⟩ := pageFault_steps h
  refine ⟨m₁, m₂, ?_⟩
  obtain ⟨frames, rfl⟩ := findFreeFrame_fields hfind
  obtain ⟨hr, hinv, hbefore⟩ := hfirst
  -- the eviction leaves the row the first without a frame
  have hback := (sameRows_evict hevict).comp PageTableLvl2.frame
  obtain ⟨r₂, hr₂, hframe₂, -⟩ := evict_row hevict (p := p) hr
  obtain ⟨row, hrow₂, ⟨-, createdAt, h⟩ | ⟨hne, -⟩⟩ := allocate_cases hallocate
  · rcases createFrameForTable_cases h with ⟨-, hnone⟩ | ⟨s, ⟨hs, hsinv, hsbefore⟩, rfl⟩
    · exact absurd (hframe₂.trans hinv) (hnone p.2 r₂ hr₂)
    · obtain rfl : createdAt = p.2 := by
        rcases Nat.lt_trichotomy createdAt p.2 with hlt | heq | hgt
        · obtain ⟨s₀, hs₀, hs₀f⟩ := hback.symm.rowAt_some hs
          exact absurd (hs₀f.trans hsinv) (hbefore createdAt s₀ hlt hs₀)
        · exact heq
        · exact absurd (hframe₂.trans hinv) (hsbefore p.2 r₂ hgt hr₂)
      exact ⟨s, hfind, hevict, hs, rfl⟩
  · obtain rfl : r₂ = row := by
      have hrow₂' : m₂.rowAt p = some row := hrow₂
      simpa [hr₂] using hrow₂'
    exact absurd (hframe₂.trans hinv) hne

/-- **A first access.** The frame that is answered is mapped on the row that was asked for. -/
theorem obtained_of_firstAccess {p : RowRef} {pid frame : ℕ} {os os' : Os}
    (hp : p.2 ≤ c.maxRows) (hfirst : FirstAccess m p)
    (h : obtainFrame c m p.1 p.2 pid os os' = some (m', frame)) :
    Obtained c pid m m' p frame := by
  rcases obtainFrame_cases h with ⟨hgt, -⟩ | ⟨r, hr, hpres, rfl, rfl⟩ | ⟨r, hr, habs, h⟩
  · omega
  · exact ⟨⟨r, hr, rfl, hpres⟩, fun q s hs => .inr ⟨s, hs, rfl, fun _ => rfl⟩, rfl, rfl,
      fun _ _ => rfl, id⟩
  obtain ⟨m₁, m₂, s, hfind, hevict, hs, rfl⟩ := pageFault_firstUnmapped (hfirst r hr habs) h
  have hvictim : victim c m p.1 = selected c m₁ p.1 := by rw [victim, hfind]
  obtain ⟨frames, rfl⟩ := findFreeFrame_fields hfind
  obtain ⟨ht, hmain, hfiles, hhands⟩ := evict_fields hevict
  have hset := Memory.rowAt_setRow { s with present := true, frame := frame, use := true } hs
  refine ⟨⟨_, by rw [hset, if_pos rfl], rfl, rfl⟩, fun q r' hr' => ?_, by simpa using ht,
    by simpa using hmain, fun pid' hne => by simpa using hfiles pid' hne, fun hh => ?_⟩
  · by_cases hq : q = p
    · subst hq
      obtain rfl : r = r' := by simpa [hr] using hr'
      exact .inl ⟨rfl, (hfirst r hr habs).2.1, habs⟩
    · obtain ⟨r'', hr'', hframe, hpres⟩ := evict_row hevict (p := q) hr'
      refine .inr ⟨r'', ?_, hframe, fun hv => hpres (hvictim ▸ hv)⟩
      rw [hset, if_neg hq, hr'']
  · have hh₂ := hhands ⟨hh.clock, hh.improvedClock⟩
    exact ⟨by simpa using hh₂.clock, by simpa using hh₂.improvedClock⟩

/-- The first access makes no other row present. -/
lemma obtainFrame_absent {p q : RowRef} {pid frame : ℕ} {os os' : Os} {r : PageTableLvl2}
    (hfirst : FirstAccess m p) (h : obtainFrame c m p.1 p.2 pid os os' = some (m', frame))
    (hr : m.rowAt q = some r) (habs : r.present = false) (hne : q ≠ p) :
    ∃ r', m'.rowAt q = some r' ∧ r'.present = false := by
  rcases obtainFrame_cases h with ⟨-, rfl, -⟩ | ⟨-, -, -, rfl, -⟩ | ⟨rp, hrp, habsp, h⟩
  · exact ⟨r, hr, habs⟩
  · exact ⟨r, hr, habs⟩
  obtain ⟨m₁, m₂, s, hfind, hevict, hs, rfl⟩ := pageFault_firstUnmapped (hfirst rp hrp habsp) h
  obtain ⟨frames, rfl⟩ := findFreeFrame_fields hfind
  rw [Memory.rowAt_setRow _ hs, if_neg hne]
  exact evict_absent hevict hr habs

lemma findFreeFrame_ne (hm : Mapped c m) (hfree : false ∈ m.frames) {m₁ : Memory} {frame : ℕ}
    (h : findFreeFrame m = (m₁, frame)) : frame ≠ invalidFrame := by
  rcases findFreeFrame_cases h with ⟨hget, -⟩ | ⟨-, hall, -⟩
  · have hlt := (List.getElem?_eq_some_iff.mp hget).1
    have hmax := c.noOfFrames_lt
    have hlen := hm.length
    omega
  · cases hall false hfree

lemma obtainFrame_tables1 {idTable2 index pid frame : ℕ} {os os' : Os}
    (h : obtainFrame c m idTable2 index pid os os' = some (m', frame)) :
    m'.tablesLvl1 = m.tablesLvl1 := by
  rcases obtainFrame_cases h with ⟨-, rfl, -⟩ | ⟨-, -, -, rfl, -⟩ | ⟨row, -, -, h⟩
  · rfl
  · rfl
  obtain ⟨m₁, m₂, hfind, hevict, hallocate⟩ := pageFault_steps h
  obtain ⟨frames, rfl⟩ := findFreeFrame_fields hfind
  obtain ⟨mainMemory, frames', l, swapData, files, rfl⟩ := allocate_fields hallocate
  exact (evict_fields hevict).1

/-! ### Lookups that succeed -/

lemma table_of_held (hf : Forest c m) {p : RowRef} {r : PageTableLvl2} (hr : m.rowAt p = some r) :
    ∃ table, m.table2 (getTableLvl2Number m r.frame) = some table ∧
      ∃ row ∈ table, row.frame = r.frame := by
  have hlt := rowAt_lt hr
  cases hfind : m.tablesLvl2.findIdx? (holdsFrame r.frame) with
  | none =>
    have hmiss := List.findIdx?_eq_none_iff.mp hfind _ (List.getElem_mem hlt)
    rw [(holdsFrame_iff hf hlt).mpr ⟨p.2, r, hr, rfl⟩] at hmiss
    cases hmiss
  | some t =>
    obtain ⟨hlt', hheld, -⟩ := List.findIdx?_eq_some_iff_getElem.mp hfind
    obtain ⟨i, s, hs, hframe⟩ := (holdsFrame_iff hf hlt').mp hheld
    obtain ⟨table, ht, hget⟩ := Memory.rowAt_eq_some_iff.mp hs
    refine ⟨table, ?_, s, List.mem_of_getElem? hget, hframe⟩
    rw [getTableLvl2Number, hfind]
    exact ht

lemma clearFrame_isSome (hf : Forest c m) {p : RowRef} {r : PageTableLvl2}
    (hr : m.rowAt p = some r) :
    ∃ m', clearFrame c m (getTableLvl2Number m r.frame) r.frame = some m' := by
  obtain ⟨table, ht, -⟩ := table_of_held hf hr
  simp only [clearFrame, ht]
  exact ⟨_, rfl⟩

lemma setPresent_isSome (hf : Forest c m) {p : RowRef} {r : PageTableLvl2}
    (hr : m.rowAt p = some r) (present : Bool) :
    ∃ m', setPresent c m r.frame present = some m' := by
  obtain ⟨table, ht, row, hrow, hframe⟩ := table_of_held hf hr
  cases hfind : table.findIdx? fun row => row.frame == r.frame with
  | none =>
    have hmiss := List.findIdx?_eq_none_iff.mp hfind row hrow
    simp [hframe] at hmiss
  | some i =>
    have href : getFrameRef c m r.frame = some (some (getTableLvl2Number m r.frame, i)) := by
      simp only [getFrameRef, ht, hfind]
      rfl
    obtain ⟨s, hs, -⟩ := getFrameRef_holds href
    simp only [setPresent, href, Memory.modifyRow, hs, Option.bind_eq_bind, Option.bind_some,
      Option.pure_def]
    exact ⟨_, rfl⟩

/-! ### When a fault goes through -/

def HasRoom (c : Cfg) (m : Memory) (pid : ℕ) : Prop :=
  ∀ i d, getSwapDataForPcb m pid = some (i, d) → d.offset + swapEntry c ≤ d.size

lemma shouldReplaceFrame_of_owner (hf : Forest c m) (hd : c.maxRows ∣ bigRows c) {t id : ℕ}
    {rows : List PageTableLvl1} (ht : m.table1 t = some rows) (hid : id ∈ secondPages rows) :
    shouldReplaceFrame c m id = some (decide (c.marcosPorProceso ≤ framesInUse m rows)) := by
  have hnum := getTableLvl1Number_eq hf ht hid
  simp only [shouldReplaceFrame, hnum, hf.printTable_eq hd ht, ht, Option.bind_eq_bind,
    Option.bind_some, ge_iff_le]

lemma frameSelector_isSome (hf : Forest c m) (hh : HandsIn c m) (hn : c.maxRows < 2 ^ 16)
    (hpos : 0 < totalRows c) {t : ℕ} {rows : List PageTableLvl1} (ht : m.table1 t = some rows) :
    ∃ m₁ f, frameSelector c m t = some (m₁, f) ∧
      (f = invalidFrame ∨ ∃ q r, m.rowAt q = some r ∧ r.frame = f) := by
  rcases frameSelector_cases hf hn ht (hand_lt hh hpos) with
    ⟨m₁, j, f, hsel, r, hr, -, hframe⟩ | ⟨-, m₁, f, hsel, hnone | ⟨r, hr, hframe⟩⟩
  · obtain ⟨q, -, hq⟩ := rowIx_eq_some_iff.mp hr
    exact ⟨m₁, f, hsel, .inr ⟨q, r, hq, hframe⟩⟩
  · exact ⟨m₁, f, hsel, .inl hnone⟩
  · obtain ⟨q, -, hq⟩ := rowIx_eq_some_iff.mp hr
    exact ⟨m₁, f, hsel, .inr ⟨q, r, hq, hframe⟩⟩

lemma frame_inside {f : ℕ} (h : f < c.noOfFrames) :
    f * c.tamPagina + c.tamPagina ≤ c.tamMemoria := by
  have hmul : (f + 1) * c.tamPagina ≤ c.noOfFrames * c.tamPagina :=
    Nat.mul_le_mul_right _ h
  have hle := c.noOfFrames_mul_le
  rw [Nat.succ_mul] at hmul
  omega

lemma getFrameAddress_eq {f : ℕ} (h : f < c.noOfFrames) :
    getFrameAddress c f = f * c.tamPagina := by
  have hin := frame_inside h
  have hlt := c.tamMemoria_lt
  exact Nat.mod_eq_of_lt (by omega)

lemma frameStream_invalidFrame (hmain : m.mainMemory.length = c.tamMemoria) :
    frameStream c m invalidFrame = none := by
  have hpos := c.tamPagina_pos
  have hpage := c.tamPagina_lt
  have hmem := c.tamMemoria_lt
  have haddr : getFrameAddress c invalidFrame = 2 ^ 32 - c.tamPagina := by
    have hmul : invalidFrame * c.tamPagina =
        (2 ^ 32 - c.tamPagina) + 2 ^ 32 * (c.tamPagina - 1) := by
      unfold invalidFrame uint32Max
      omega
    rw [getFrameAddress, hmul, Nat.add_mul_mod_self_left, Nat.mod_eq_of_lt (by omega)]
  have hpeek : peek m.mainMemory (getFrameAddress c invalidFrame) c.tamPagina = none := by
    rw [haddr, peek, if_neg (by omega)]
  rw [frameStream, hpeek]
  rfl

lemma frameStream_of_held (hm : Mapped c m) (hmain : m.mainMemory.length = c.tamMemoria)
    {p : RowRef} {r : PageTableLvl2} (hr : m.rowAt p = some r) (hne : r.frame ≠ invalidFrame) :
    ∃ stream, frameStream c m r.frame = some stream ∧ stream.length = swapEntry c := by
  have hknown := hm.framesKnown.known p r hr hne
  have hin := frame_inside hknown
  have hpeek := peek_isSome (b := m.mainMemory) (o := getFrameAddress c r.frame)
    (n := c.tamPagina) (by rw [getFrameAddress_eq hknown, hmain]; exact hin)
  refine ⟨_, by simp only [frameStream, hpeek, Option.bind_eq_bind, Option.bind_some]; rfl, ?_⟩
  rw [List.length_append, length_of_peek hpeek, length_wordBytes, swapEntry]

/-- A record can be written behind the offset as far as the mapping reaches. -/
lemma swapFrame_isSome_iff (hm : Mapped c m) (hmain : m.mainMemory.length = c.tamMemoria)
    {p : RowRef} {r : PageTableLvl2} (hr : m.rowAt p = some r) (file : List UInt8)
    (offset : ℕ) :
    (∃ x, swapFrame c m r.frame (mmap file file.length) offset = some x) ↔
      r.frame ≠ invalidFrame ∧ offset + swapEntry c ≤ roundUp file.length := by
  have hmap := length_mmap_self file
  by_cases hne : r.frame = invalidFrame
  · rw [hne, swapFrame, frameStream_invalidFrame hmain]
    simp
  obtain ⟨stream, hstream, hlen⟩ := frameStream_of_held hm hmain hr hne
  simp only [swapFrame, hstream, Option.bind_eq_bind, Option.bind_some, ne_eq, hne,
    not_false_eq_true, true_and]
  constructor
  · rintro ⟨x, hx⟩
    obtain ⟨region, hpoke, -⟩ := Option.bind_eq_some_iff.mp hx
    have hle := (poke_eq_some_iff.mp hpoke).1
    rwa [hmap, hlen] at hle
  · intro hle
    obtain ⟨region, hpoke⟩ := exists_poke (b := mmap file file.length) (d := stream)
      (o := offset) (by rw [hmap, hlen]; exact hle)
    exact ⟨_, by rw [hpoke]; rfl⟩

/-- A frame is swapped out unless its record is really written and there is no page to read or no
room for it. -/
lemma swapFrameForPcb_isSome_iff (hm : Mapped c m) (hmain : m.mainMemory.length = c.tamMemoria)
    {p : RowRef} {r : PageTableLvl2} (hr : m.rowAt p = some r) (pid : ℕ) (os : Os) :
    (∃ m', swapFrameForPcb c m pid r.frame os = some m') ↔
      ∀ i d, getSwapDataForPcb m pid = some (i, d) → reaches os d.size = true →
        r.frame ≠ invalidFrame ∧ d.offset + swapEntry c ≤ roundUp d.size := by
  unfold swapFrameForPcb
  cases hd : getSwapDataForPcb m pid with
  | none => simp
  | some x =>
    obtain ⟨i, d⟩ := x
    simp only [Option.some.injEq, Prod.mk.injEq]
    cases hopens : os.opens with
    | false => simp [openFile, hopens, reaches]
    | true =>
      cases hmaps : mapFails os d.size with
      | true => simp [openFile, hopens, reaches, hmaps]
      | false =>
        simp only [openFile, hopens, if_true, setFile_setFile, Option.bind_eq_bind,
          Bool.false_eq_true, if_false]
        have hlen : (ftruncate ((m.files pid).getD []) d.size).length = d.size :=
          length_ftruncate _ _
        -- the file is not the part of the state the record is read from
        have hm₁ : Mapped c (setFile m pid (some (ftruncate ((m.files pid).getD []) d.size))) :=
          hm.sameRows (.of_eq _ rfl rfl rfl)
        have hiff := swapFrame_isSome_iff hm₁ hmain (p := p) hr
          (ftruncate ((m.files pid).getD []) d.size) d.offset
        rw [hlen] at hiff
        have hcond : (∀ i' d', i = i' ∧ d = d' → reaches os d'.size = true →
            r.frame ≠ invalidFrame ∧ d'.offset + swapEntry c ≤ roundUp d'.size) ↔
            (r.frame ≠ invalidFrame ∧ d.offset + swapEntry c ≤ roundUp d.size) := by
          constructor
          · intro h
            exact h i d ⟨rfl, rfl⟩ (by simp [reaches, hopens, hmaps])
          · rintro h i' d' ⟨-, rfl⟩ -
            exact h
        rw [hcond, ← hiff]
        constructor
        · rintro ⟨m', h⟩
          obtain ⟨x, hx, -⟩ := Option.bind_eq_some_iff.mp h
          exact ⟨x, hx⟩
        · rintro ⟨⟨region, offset⟩, hx⟩
          rw [hx, Option.bind_some]
          -- and the row of the frame is found again
          have hf₂ : Forest c (setSwapOffset (setFile m pid (some (munmap
              (ftruncate ((m.files pid).getD []) d.size) region))) i offset) :=
            forest_sameRows (g := id) hm.forest (.of_eq _ rfl rfl rfl)
          exact setPresent_isSome hf₂ (p := p) hr false

lemma swapFrameForPcb_isSome (hm : Mapped c m) (hmain : m.mainMemory.length = c.tamMemoria)
    {p : RowRef} {r : PageTableLvl2} (hr : m.rowAt p = some r) (hne : r.frame ≠ invalidFrame)
    {pid : ℕ} (hroom : HasRoom c m pid) (os : Os) :
    ∃ m', swapFrameForPcb c m pid r.frame os = some m' := by
  refine (swapFrameForPcb_isSome_iff hm hmain hr pid os).mpr fun i d hd _ => ⟨hne, ?_⟩
  exact (hroom i d hd).trans (le_roundUp d.size)

/-- The row that holds the victim is still there when its record is written. -/
lemma replaceFrame_isSome_iff (hm : Mapped c m) (hmain : m.mainMemory.length = c.tamMemoria)
    {q : RowRef} {s : PageTableLvl2} (hs : m.rowAt q = some s) (pid : ℕ) (os : Os) :
    (∃ m', replaceFrame c m pid s.frame os = some m') ↔
      ∀ i d, getSwapDataForPcb m pid = some (i, d) → reaches os d.size = true →
        s.frame ≠ invalidFrame ∧ d.offset + swapEntry c ≤ roundUp d.size := by
  obtain ⟨m₁, hclear⟩ := clearFrame_isSome hm.forest hs
  have hsame := sameRows_clearFrame hclear
  obtain ⟨s₁, hs₁, hsame₁⟩ := hsame.rowAt_some hs
  have hframe₁ : s₁.frame = s.frame := (congrArg PageTableLvl2.frame hsame₁ :)
  obtain ⟨l, hl, -⟩ := clearFrame_rest hclear
  have hmain₁ : m₁.mainMemory.length = c.tamMemoria := by
    rw [hl]
    exact hmain
  have hdata : getSwapDataForPcb m₁ pid = getSwapDataForPcb m pid := by
    refine getSwapDataForPcb_congr ?_
    rw [hl]
  have hiff := swapFrameForPcb_isSome_iff (hm.sameRows (hsame.comp PageTableLvl2.frame)) hmain₁
    hs₁ pid os
  rw [hframe₁, hdata] at hiff
  rw [← hiff]
  simp only [replaceFrame, hclear, Option.bind_eq_bind, Option.bind_some]

lemma evict_isSome (hm : Mapped c m) (hh : HandsIn c m) (hn : c.maxRows < 2 ^ 16)
    (hmain : m.mainMemory.length = c.tamMemoria) {t id pid : ℕ} {rows : List PageTableLvl1}
    (ht : m.table1 t = some rows) (hid : id ∈ secondPages rows)
    (hvictim : selected c m id ≠ some invalidFrame) (hroom : HasRoom c m pid) (os : Os) :
    ∃ m', evict c m id pid os = some m' := by
  have hfull := shouldReplaceFrame_of_owner hm.forest (dvd_bigRows hn) ht hid
  generalize decide (c.marcosPorProceso ≤ framesInUse m rows) = full at hfull
  cases full with
  | false => exact ⟨m, by simp [evict, hfull]⟩
  | true =>
    have hpos : 0 < totalRows c := by
      have hlen := hm.forest.rows1 t rows ht
      have hlt : 0 < rows.length := by
        rw [← List.length_map (f := PageTableLvl1.secondPage)]
        exact List.length_pos_of_mem hid
      exact Nat.mul_pos (by omega) (by omega)
    have hnum := getTableLvl1Number_eq hm.forest ht hid
    obtain ⟨m₁, f, hsel, hf⟩ := frameSelector_isSome hm.forest hh hn hpos ht
    have hne : f ≠ invalidFrame := by
      rintro rfl
      exact hvictim (by rw [selected, if_pos hfull, hnum, hsel, Option.map_some])
    obtain ⟨q, r, hr, rfl⟩ := hf.resolve_left hne
    have hselected := selected_frameSelector hsel
    obtain ⟨r₁, hr₁, hsame₁⟩ := hselected.rows.rowAt_some hr
    have hframe₁ : r₁.frame = r.frame := (congrArg PageTableLvl2.frame hsame₁ :)
    have hm₁ : Mapped c m₁ := hm.sameRows (hselected.rows.comp PageTableLvl2.frame)
    have hreplace := (replaceFrame_isSome_iff hm₁ (by rw [hselected.mainMemory, hmain]) hr₁ pid
      os).mpr fun i d hd _ => by
        rw [getSwapDataForPcb_congr hselected.swapData] at hd
        exact ⟨by rwa [hframe₁], (hroom i d hd).trans (le_roundUp d.size)⟩
    rw [hframe₁] at hreplace
    simp only [evict, hfull, hnum, hsel, Option.bind_eq_bind, Option.bind_some, if_true]
    exact hreplace

lemma createFrameForTable_isSome {p : RowRef} {r : PageTableLvl2} (hr : m.rowAt p = some r)
    (frame : ℕ) : ∃ m₁ i, createFrameForTable c m p.1 frame = some (m₁, i) := by
  obtain ⟨table, ht, -⟩ := Memory.rowAt_eq_some_iff.mp hr
  simp only [createFrameForTable, ht]
  split
  · rename_i i hi
    obtain ⟨hlt, -⟩ := List.findIdx?_eq_some_iff_getElem.mp hi
    have hrow : m.rowAt (p.1, i) = some table[i] :=
      Memory.rowAt_eq_some_iff.mpr ⟨table, ht, List.getElem?_eq_getElem hlt⟩
    exact ⟨_, i, by simp only [Memory.modifyRow, hrow, Option.bind_eq_bind, Option.bind_some]; rfl⟩
  · exact ⟨_, _, rfl⟩

/-- The condition under which a page fault goes through: a frame is free, a replacement takes a
row that has a frame, and its record fits in the swap file. -/
structure GoesThrough (c : Cfg) (m : Memory) (pid : ℕ) (p : RowRef) : Prop where
  free : false ∈ m.frames
  victim : victim c m p.1 ≠ some invalidFrame
  room : HasRoom c m pid

lemma obtainFrame_present {p : RowRef} {r : PageTableLvl2} (hr : m.rowAt p = some r)
    (hpres : r.present = true) (hp : p.2 ≤ c.maxRows) (pid : ℕ) (os os' : Os) :
    obtainFrame c m p.1 p.2 pid os os' = some (m, r.frame) := by
  have hr' : m.rowAt (p.1, p.2) = some r := hr
  simp only [obtainFrame, if_neg (show ¬ p.2 > c.maxRows by omega), hr', Option.bind_eq_bind,
    Option.bind_some, hpres, if_true, Option.pure_def]

/-- **Progress of a first access.** A valid frame is answered. -/
theorem obtainFrame_isSome (hm : Mapped c m) (hh : HandsIn c m) (hn : c.maxRows < 2 ^ 16)
    (hmain : m.mainMemory.length = c.tamMemoria) {t pid : ℕ} {rows : List PageTableLvl1}
    {p : RowRef} (ht : m.table1 t = some rows) (hid : p.1 ∈ secondPages rows)
    (hp : p.2 < c.maxRows) (hfirst : FirstAccess m p)
    (hgo : ∀ r, m.rowAt p = some r → r.present = false → GoesThrough c m pid p)
    (os os' : Os) :
    ∃ m' frame, obtainFrame c m p.1 p.2 pid os os' = some (m', frame) ∧
      ((∃ r, m.rowAt p = some r ∧ r.present = true ∧ m' = m ∧ frame = r.frame) ∨
        frame ≠ invalidFrame) := by
  obtain ⟨r, hr⟩ := Option.isSome_iff_exists.mp
    (hm.forest.rowAt_isSome ht (mem_rowRefs.mpr ⟨hid, hp⟩))
  have hr' : m.rowAt (p.1, p.2) = some r := hr
  have hle : ¬ p.2 > c.maxRows := by omega
  by_cases hpres : r.present = true
  · exact ⟨m, r.frame, obtainFrame_present hr hpres (by omega) pid os os',
      .inl ⟨r, hr, hpres, rfl, rfl⟩⟩
  have habs : r.present = false := by simpa using hpres
  obtain ⟨hfree, hvictim, hroom⟩ := hgo r hr habs
  obtain ⟨-, hinv, -⟩ := hfirst r hr habs
  cases hfind : findFreeFrame m with
  | mk m₁ frame =>
    obtain ⟨hm₁, -⟩ := hm.findFreeFrame hfind
    have hvalid : frame ≠ invalidFrame := findFreeFrame_ne hm hfree hfind
    have hsel : selected c m₁ p.1 ≠ some invalidFrame := by
      rw [victim, hfind] at hvictim
      exact hvictim
    obtain ⟨frames, rfl⟩ := findFreeFrame_fields hfind
    obtain ⟨m₂, hevict⟩ := evict_isSome hm₁ ⟨hh.clock, hh.improvedClock⟩ hn hmain
      (m := { m with frames }) ht hid hsel hroom os
    obtain ⟨r₂, hr₂, hframe₂, -⟩ := evict_row hevict hr
    obtain ⟨m₃, i, hcreate⟩ := createFrameForTable_isSome (c := c) hr₂ frame
    refine ⟨m₃, frame, ?_, .inr hvalid⟩
    have hrow₂ : m₂.rowAt (p.1, p.2) = some r₂ := hr₂
    have hfree₂ : r₂.frame = invalidFrame := hframe₂.trans hinv
    have hfault : pageFault c m p.1 p.2 pid os os' = some (m₃, frame) := by
      simp only [pageFault, hfind, hevict, allocate, hrow₂, Option.bind_eq_bind, Option.bind_some,
        if_pos hfree₂, hcreate, Option.pure_def]
    simp only [obtainFrame, if_neg hle, hr', Option.bind_eq_bind, Option.bind_some, habs, hfault]
    rfl

/-! ### Words of a mapped page -/

lemma getFrame_eq {f o : ℕ} (ho : o < c.tamPagina) : getFrame c (f * c.tamPagina + o) = f := by
  rw [getFrame, Nat.mul_comm, Nat.mul_add_div c.tamPagina_pos, Nat.div_eq_of_lt ho, Nat.add_zero]

/-- A table that is found is not taken for `UINT32_MAX`. -/
lemma getTableLvl2Number_ne (hm : Mapped c m) {p : RowRef} {r : PageTableLvl2}
    (hr : m.rowAt p = some r) (hne : r.frame ≠ invalidFrame) :
    getTableLvl2Number m r.frame ≠ uint32Max := by
  rw [hm.getTableLvl2Number_eq hr hne]
  have hlt := rowAt_lt hr
  have hlen := hm.forest.length2
  unfold uint32Max
  unfold intBound at hlen
  omega

lemma setModified_isSome (hm : Mapped c m) {p : RowRef} {r : PageTableLvl2}
    (hr : m.rowAt p = some r) (hne : r.frame ≠ invalidFrame) (modified : Bool) :
    setModified c m r.frame modified = some (m.setRow p { r with modified }) := by
  simp only [setModified, hm.getFrameRef_eq hr hne, Memory.modifyRow, hr, Option.bind_eq_bind,
    Option.bind_some, Option.pure_def]

lemma cpuControllerRead_mapped (hm : Mapped c m) {p : RowRef} {r : PageTableLvl2}
    (hr : m.rowAt p = some r) (hne : r.frame ≠ invalidFrame) {o : ℕ} (ho : o + 4 ≤ c.tamPagina)
    {bytes : List UInt8} (hbytes : peek m.mainMemory (r.frame * c.tamPagina + o) 4 = some bytes) :
    ∃ m', cpuControllerRead c m (r.frame * c.tamPagina + o) = some (m', bytesWord bytes) := by
  have hframe := getFrame_eq (c := c) (f := r.frame) (o := o) (by omega)
  have hread : readFromMemory (m.setRow p { r with modified := false })
      (r.frame * c.tamPagina + o) = some (bytesWord bytes) := by
    simp only [readFromMemory, Memory.setRow_mainMemory, hbytes, Option.bind_eq_bind,
      Option.bind_some, Option.pure_def]
  refine ⟨m.setRow p { r with modified := false }, ?_⟩
  simp only [cpuControllerRead, hframe, if_neg (getTableLvl2Number_ne hm hr hne),
    setModified_isSome hm hr hne, Option.bind_eq_bind, Option.bind_some, hread, Option.pure_def]

lemma cpuControllerWrite_mapped (hm : Mapped c m) (hmain : m.mainMemory.length = c.tamMemoria)
    {p : RowRef} {r : PageTableLvl2} (hr : m.rowAt p = some r) (hne : r.frame ≠ invalidFrame)
    {o : ℕ} (ho : o + 4 ≤ c.tamPagina) (value : ℕ) :
    ∃ m', cpuControllerWrite c m (r.frame * c.tamPagina + o) value = some m' ∧
      poke m.mainMemory (r.frame * c.tamPagina + o) (wordBytes value) = some m'.mainMemory := by
  have hframe := getFrame_eq (c := c) (f := r.frame) (o := o) (by omega)
  have hin := frame_inside (hm.framesKnown.known p r hr hne)
  obtain ⟨mainMemory, hpoke⟩ := exists_poke (b := m.mainMemory) (d := wordBytes value)
    (o := r.frame * c.tamPagina + o) (by rw [length_wordBytes, hmain]; omega)
  refine ⟨{ m.setRow p { r with modified := true } with mainMemory }, ?_, hpoke⟩
  simp only [cpuControllerWrite, hframe, if_neg (getTableLvl2Number_ne hm hr hne),
    setModified_isSome hm hr hne, Option.bind_eq_bind, Option.bind_some, writeInMemory,
    Memory.setRow_mainMemory, hpoke, Option.pure_def]

/-- A physical address behind the last frame reaches nothing. -/
lemma cpuControllerWrite_beyond (hm : Mapped c m) {pa value : ℕ}
    (hbeyond : c.noOfFrames ≤ getFrame c pa) (hne : getFrame c pa ≠ invalidFrame) :
    cpuControllerWrite c m pa value = some m := by
  have hnone : ∀ p r, m.rowAt p = some r → r.frame ≠ getFrame c pa := by
    intro p r hr hframe
    have := hm.framesKnown.known p r hr (hframe ▸ hne)
    omega
  have hnum : getTableLvl2Number m (getFrame c pa) = uint32Max :=
    getTableLvl2Number_none hm.forest hnone
  simp only [cpuControllerWrite, hnum, if_true]

/-- No frame was free: the physical address is behind the last frame. -/
lemma getFrame_invalidFrame {o : ℕ} (ho : o + 4 ≤ c.tamPagina) :
    c.noOfFrames ≤ getFrame c ((invalidFrame * c.tamPagina + o) % 2 ^ 32) ∧
      getFrame c ((invalidFrame * c.tamPagina + o) % 2 ^ 32) ≠ invalidFrame := by
  have hlt := c.tamPagina_lt
  have hmem := c.tamMemoria_lt
  have hmod : (invalidFrame * c.tamPagina + o) % 2 ^ 32 = 2 ^ 32 - c.tamPagina + o := by
    have hsplit : invalidFrame * c.tamPagina + o =
        (2 ^ 32 - c.tamPagina + o) + 2 ^ 32 * (c.tamPagina - 1) := by
      obtain ⟨k, hk⟩ : ∃ k, c.tamPagina = k + 1 := ⟨c.tamPagina - 1, by omega⟩
      rw [hk] at hlt ⊢
      unfold invalidFrame uint32Max
      rw [Nat.add_sub_cancel]
      omega
    rw [hsplit, Nat.add_mul_mod_self_left, Nat.mod_eq_of_lt (by omega)]
  rw [hmod, getFrame]
  constructor
  · exact Nat.div_le_div_right (by omega)
  · have hdiv : (2 ^ 32 - c.tamPagina + o) / c.tamPagina ≤ (2 ^ 32 - c.tamPagina + o) / 4 :=
      Nat.div_le_div_left (by omega) (by omega)
    unfold invalidFrame uint32Max
    omega

end Sski.Mem.Faults
