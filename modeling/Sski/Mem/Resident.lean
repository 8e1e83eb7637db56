import Sski.Lib.Counting
import Sski.Mem.Selection

/-!
The resident set: how many rows of a process are present.

A page fault makes one row present; if the process has all its frames in use it takes one
away first. So the bound is kept as long as the selector takes a row that is present, and it
does where `Takeable` says so.
-/

namespace Sski.Mem.Resident

open Sski.Lib.Slots Sski.Lib.Runs Sski.Lib.Counting Sski.Mem.MemoryModule Sski.Mem.PageTable
open Sski.Mem.OsMemory Sski.Mem.Swap Sski.Mem.Algorithms Sski.Mem.CpuController
open Sski.Mem.KernelController Sski.Mem.Tables Sski.Mem.Rows Sski.Mem.Frames Sski.Mem.Selection

variable {c : Cfg} {m m' : Memory}

/-! ### Counting present rows -/

def presentIn (m : Memory) (id : ℕ) : ℕ := ((m.table2 id).getD []).countP PageTableLvl2.present

lemma framesInUse_eq (m : Memory) (rows : List PageTableLvl1) :
    framesInUse m rows = ((secondPages rows).map (presentIn m)).sum := by
  rw [framesInUse, secondPages, List.map_map]
  rfl

lemma framesInUse_congr {rows : List PageTableLvl1}
    (h : ∀ id ∈ secondPages rows, presentIn m' id = presentIn m id) :
    framesInUse m' rows = framesInUse m rows := by
  rw [framesInUse_eq, framesInUse_eq, List.map_congr_left h]

lemma presentIn_sameRows (h : SameRows PageTableLvl2.present m m') (id : ℕ) :
    presentIn m' id = presentIn m id := by
  have hrows := h.rows id
  unfold presentIn
  cases h2 : m.table2 id with
  | none =>
    rw [h2, Option.map_none, Option.map_eq_none_iff] at hrows
    rw [hrows]
  | some rows =>
    rw [h2, Option.map_some, Option.map_eq_some_iff] at hrows
    obtain ⟨rows', h2', hmap⟩ := hrows
    have hcount : ∀ l : List PageTableLvl2,
        l.countP PageTableLvl2.present = (l.map PageTableLvl2.present).countP (fun b => b) := by
      intro l
      rw [List.countP_map]
      rfl
    rw [h2', Option.getD_some, Option.getD_some, hcount, hcount rows, hmap]

lemma framesInUse_sameRows (h : SameRows PageTableLvl2.present m m')
    (rows : List PageTableLvl1) : framesInUse m' rows = framesInUse m rows :=
  framesInUse_congr fun id _ => presentIn_sameRows h id

lemma presentIn_setRow {p : RowRef} {r : PageTableLvl2} (hr : m.rowAt p = some r)
    (r' : PageTableLvl2) (id : ℕ) :
    presentIn (m.setRow p r') id + (if id = p.1 then r.present.toNat else 0) =
      presentIn m id + (if id = p.1 then r'.present.toNat else 0) := by
  obtain ⟨table, ht, hget⟩ := Memory.rowAt_eq_some_iff.mp hr
  unfold presentIn
  rw [Memory.setRow_table2]
  by_cases h : id = p.1
  · subst h
    have hcount := countP_set_toNat (p := PageTableLvl2.present) r' hget
    simpa only [if_true, ht, Option.map_some, Option.getD_some] using hcount
  · simp [h]

/-- One row of the tables is replaced: the count of its process follows its present bit. -/
lemma framesInUse_setRow {p : RowRef} {r : PageTableLvl2} (hr : m.rowAt p = some r)
    (r' : PageTableLvl2) {rows : List PageTableLvl1} (hnodup : (secondPages rows).Nodup) :
    framesInUse (m.setRow p r') rows + (if p.1 ∈ secondPages rows then r.present.toNat else 0) =
      framesInUse m rows + (if p.1 ∈ secondPages rows then r'.present.toNat else 0) := by
  have hsum := sum_map_add_congr (l := secondPages rows) fun id _ => presentIn_setRow hr r' id
  rw [sum_map_single hnodup, sum_map_single hnodup] at hsum
  rw [framesInUse_eq, framesInUse_eq]
  exact hsum

/-- Every process has at most `MARCOS_POR_PROCESO` present rows. -/
def Bounded (c : Cfg) (m : Memory) : Prop :=
  ∀ t rows, m.table1 t = some rows → framesInUse m rows ≤ c.marcosPorProceso

/-! ### An eviction -/

lemma getTableLvl1Number_mem (hf : Forest c m) {id : ℕ} {rows : List PageTableLvl1}
    (h : m.table1 (getTableLvl1Number m id) = some rows) : id ∈ secondPages rows := by
  unfold getTableLvl1Number at h
  cases hfind : m.tablesLvl1.findIdx? fun table =>
      table.any fun rows => rows.any fun row => row.secondPage == id with
  | none =>
    rw [hfind, Option.getD_none, Memory.table1, slotGet,
      if_neg (by simp [uint32Max, intBound])] at h
    cases h
  | some t =>
    rw [hfind, Option.getD_some] at h
    obtain ⟨hlt, hany, -⟩ := List.findIdx?_eq_some_iff_getElem.mp hfind
    rw [← slotGet_eq_getElem hf.length1 hlt] at hany
    change (Option.any _ (m.table1 t)) = true at hany
    rw [h] at hany
    simpa [secondPages] using hany

lemma shouldReplaceFrame_eq (hf : Forest c m) {id i : ℕ} {r : PageTableLvl2} {full : Bool}
    (hr : m.rowAt (id, i) = some r) (h : shouldReplaceFrame c m id = some full) :
    ∃ rows, m.table1 (getTableLvl1Number m id) = some rows ∧ id ∈ secondPages rows ∧
      full = decide (c.marcosPorProceso ≤ framesInUse m rows) := by
  simp only [shouldReplaceFrame, Option.bind_eq_bind, Option.bind_eq_some_iff] at h
  obtain ⟨-, -, h⟩ := h
  have hpos : c.maxRows ≠ 0 := Nat.ne_zero_of_lt (hf.col_lt hr)
  cases h1 : m.table1 (getTableLvl1Number m id) with
  | none => simp [h1, hpos] at h
  | some rows =>
    refine ⟨rows, rfl, getTableLvl1Number_mem hf h1, ?_⟩
    simp only [h1, Option.some.injEq] at h
    exact h.symm

lemma clearFrame_eq_setRow (hm : Mapped c m) {p : RowRef} {r : PageTableLvl2}
    (hr : m.rowAt p = some r) (hne : r.frame ≠ invalidFrame) :
    clearFrame c m (getTableLvl2Number m r.frame) r.frame =
      some (m.setRow p { r with present := false, use := false }) := by
  obtain ⟨table, ht, hget⟩ := Memory.rowAt_eq_some_iff.mp hr
  have hmap : table.map (fun row =>
      if row.frame = r.frame then { row with present := false, use := false } else row) =
      table.set p.2 { r with present := false, use := false } := by
    refine List.ext_getElem? fun i => ?_
    rw [List.getElem?_map, List.getElem?_set]
    by_cases hi : p.2 = i
    · subst hi
      obtain ⟨hlt, hgeti⟩ := List.getElem?_eq_some_iff.mp hget
      simp [hgeti, hlt]
    · rw [if_neg hi]
      cases hrow : table[i]? with
      | none => rfl
      | some row =>
        have hframe : row.frame ≠ r.frame := by
          intro heq
          have hpi := hm.unique p (p.1, i) r row hr
            (Memory.rowAt_eq_some_iff.mpr ⟨table, ht, hrow⟩) hne heq.symm
          exact hi (congrArg Prod.snd hpi)
        simp [hframe]
  simp only [clearFrame, hm.getTableLvl2Number_eq hr hne, ht, hmap, Memory.setRow]

lemma sameRows_swap_absent (hm : Mapped c m) {p : RowRef} {r : PageTableLvl2}
    (hr : m.rowAt p = some r) (hne : r.frame ≠ invalidFrame) (habs : r.present = false)
    {pid : ℕ} {os : Os} (h : swapFrameForPcb c m pid r.frame os = some m') :
    SameRows id m m' := by
  rcases swapFrameForPcb_cases h with ⟨-, rfl⟩ | ⟨i, d, -, -, ⟨-, rfl⟩ | ⟨-, region, offset, -, h⟩⟩
  · exact .refl _ _
  · exact .of_eq _ rfl rfl rfl
  · obtain ⟨q, s, -, hs, hframe, rfl⟩ := setPresent_eq h
    have hpq := hm.unique p q r s hr hs hne hframe.symm
    subst hpq
    obtain rfl : r = s := by
      have hs' : m.rowAt p = some s := hs
      simpa [hr] using hs'
    refine .trans ?_ (sameRows_setRow hs (by rw [habs.symm]))
    exact .of_eq _ rfl rfl rfl

/-- An eviction that takes a present row of a process leaves room for one page, and the other
processes as they are. -/
lemma replaceFrame_room (hm : Mapped c m) {p : RowRef} {r : PageTableLvl2}
    (hr : m.rowAt p = some r) (hne : r.frame ≠ invalidFrame) (hpres : r.present = true)
    {pid : ℕ} {os : Os} (h : replaceFrame c m pid r.frame os = some m')
    {rows : List PageTableLvl1} (hnodup : (secondPages rows).Nodup) :
    framesInUse m' rows + (if p.1 ∈ secondPages rows then 1 else 0) = framesInUse m rows := by
  simp only [replaceFrame, Option.bind_eq_bind, Option.bind_eq_some_iff] at h
  obtain ⟨m₁, h₁, h⟩ := h
  rw [clearFrame_eq_setRow hm hr hne, Option.some.injEq] at h₁
  subst h₁
  have hm₁ : Mapped c (m.setRow p { r with present := false, use := false }) :=
    hm.sameRows (sameRows_setRow hr rfl)
  have hr₁ : (m.setRow p { r with present := false, use := false }).rowAt p =
      some { r with present := false, use := false } := by
    rw [Memory.rowAt_setRow _ hr, if_pos rfl]
  have hsame := sameRows_swap_absent hm₁ hr₁ hne rfl h
  rw [framesInUse_sameRows (hsame.comp PageTableLvl2.present)]
  have hcount := framesInUse_setRow hr { r with present := false, use := false } hnodup
  simpa [hpres] using hcount

/-! ### A page fault -/

/-- A present row of the process can be taken: every present row has a frame, and the hand is
at one of them, or one of them is not hard. -/
structure Takeable (c : Cfg) (m : Memory) (rows : List PageTableLvl1) : Prop where
  small : c.maxRows < 2 ^ 16
  valid : ∀ j r, rowIx (rowRefs c rows) m j = some r → r.present = true → r.frame ≠ invalidFrame
  takeable : ∃ j r, rowIx (rowRefs c rows) m j = some r ∧ r.present = true ∧
    (j = hand c m ∨ hard c r = false)

instance (c : Cfg) (m : Memory) (rows : List PageTableLvl1) : Decidable (Takeable c m rows) :=
  decidable_of_iff
    (c.maxRows < 2 ^ 16 ∧
      (∀ j < (rowRefs c rows).length, ∀ r ∈ rowIx (rowRefs c rows) m j,
        r.present = true → r.frame ≠ invalidFrame) ∧
      ∃ j < (rowRefs c rows).length, ∃ r ∈ rowIx (rowRefs c rows) m j,
        r.present = true ∧ (j = hand c m ∨ hard c r = false))
    ⟨fun ⟨hsmall, hvalid, j, _, r, hr, htake⟩ =>
      ⟨hsmall, fun i s hs => hvalid i (rowIx_lt hs) s hs, j, r, hr, htake⟩,
    fun ⟨hsmall, hvalid, j, r, hr, htake⟩ =>
      ⟨hsmall, fun i _ s hs => hvalid i s hs, j, rowIx_lt hr, r, hr, htake⟩⟩

/-- The condition on a request: if its page faults and its process has all its frames in use,
a present row can be taken. -/
def Replaceable (c : Cfg) (m : Memory) : Request → Prop
  | .frame _ op1 op2 _ _ => ∀ row t rows, m.rowAt (op1.toNat, op2.toNat) = some row →
      row.present = false → m.table1 t = some rows → op1.toNat ∈ secondPages rows →
      c.marcosPorProceso ≤ framesInUse m rows → Takeable c m rows
  | _ => True

/-- What a page fault on a row relies on: if a replacement is required, the selector answers
the frame of a present row of the process, and it is a valid one. -/
def VictimPresent (c : Cfg) (m : Memory) (idTable2 index : ℕ) : Prop :=
  ∀ row, m.rowAt (idTable2, index) = some row → row.present = false →
    ∀ m₁ newFrame, findFreeFrame m = (m₁, newFrame) →
    shouldReplaceFrame c m₁ idTable2 = some true →
    ∃ rows m₂ victim j, m₁.table1 (getTableLvl1Number m₁ idTable2) = some rows ∧
      idTable2 ∈ secondPages rows ∧
      frameSelector c m₁ (getTableLvl1Number m₁ idTable2) = some (m₂, victim) ∧
      victim ≠ invalidFrame ∧ Took (rowRefs c rows) m₁ j victim

lemma findFreeFrame_fields {newFrame : ℕ} (h : findFreeFrame m = (m', newFrame)) :
    ∃ frames, m' = { m with frames } := by
  rcases findFreeFrame_cases h with ⟨-, rfl⟩ | ⟨-, -, rfl⟩
  · exact ⟨_, rfl⟩
  · exact ⟨_, rfl⟩

lemma Takeable.not_stuck {rows : List PageTableLvl1} (h : Takeable c m rows) :
    ¬ Stuck c (rowRefs c rows) (hand c m) m := by
  intro hstuck
  obtain ⟨j, r, hr, hpres, hj⟩ := h.takeable
  obtain ⟨hne, hhard⟩ := hstuck j r hr hpres
  rcases hj with rfl | hsoft
  · exact hne rfl
  · rw [hsoft] at hhard
    cases hhard

lemma hand_lt (hh : HandsIn c m) (hpos : 0 < totalRows c) : hand c m < totalRows c := by
  have h₁ := hh.clock
  have h₂ := hh.improvedClock
  unfold HandIn at h₁ h₂
  unfold hand
  split <;> omega

lemma Takeable.selects {rows : List PageTableLvl1} (h : Takeable c m rows) (hf : Forest c m)
    (hh : HandsIn c m) {t : ℕ} (ht : m.table1 t = some rows) :
    ∃ m' j victim, frameSelector c m t = some (m', victim) ∧ victim ≠ invalidFrame ∧
      Took (rowRefs c rows) m j victim := by
  have hpos : 0 < totalRows c := by
    obtain ⟨j, r, hr, -, -⟩ := h.takeable
    have hlt := rowIx_lt hr
    rw [length_rowRefs, hf.rows1 t rows ht] at hlt
    exact Nat.lt_of_le_of_lt (Nat.zero_le _) hlt
  rcases frameSelector_cases hf h.small ht (hand_lt hh hpos) with
    ⟨m', j, victim, hsel, r, hr, hpres, hframe⟩ | ⟨hstuck, -⟩
  · exact ⟨m', j, victim, hsel, hframe ▸ h.valid j r hr hpres, r, hr, hpres, hframe⟩
  · exact absurd hstuck h.not_stuck

structure Inv (c : Cfg) (m : Memory) : Prop where
  mapped : Mapped c m
  hands : HandsIn c m
  bounded : Bounded c m

lemma Takeable.withFrames {rows : List PageTableLvl1} (h : Takeable c m rows)
    (frames : List Bool) : Takeable c { m with frames } rows :=
  ⟨h.small, h.valid, h.takeable⟩

theorem victimPresent_of_replaceable (hi : Inv c m) {pid op1 op2 : UInt32} {os os' : Os}
    (h : Replaceable c m (.frame pid op1 op2 os os')) :
    VictimPresent c m op1.toNat op2.toNat := by
  intro row hrow habs m₁ newFrame hfind hfull
  obtain ⟨hm₁, -⟩ := hi.mapped.findFreeFrame hfind
  obtain ⟨frames, rfl⟩ := findFreeFrame_fields hfind
  obtain ⟨rows, ht, hid, hdec⟩ := shouldReplaceFrame_eq hm₁.forest (r := row) hrow hfull
  have htake := (h row _ rows hrow habs ht hid (of_decide_eq_true hdec.symm)).withFrames frames
  obtain ⟨m₂, j, victim, hsel, hne, htook⟩ :=
    htake.selects hm₁.forest ⟨hi.hands.clock, hi.hands.improvedClock⟩ ht
  exact ⟨rows, m₂, victim, j, ht, hid, hsel, hne, htook⟩

/-- After an eviction the process has room for one more page; no process has gained one. -/
lemma evict_room (hm : Mapped c m) (hh : HandsIn c m) {idTable2 index pid : ℕ} {os : Os}
    {row : PageTableLvl2} (hrow : m.rowAt (idTable2, index) = some row)
    (htake : ∀ t rows, m.table1 t = some rows → idTable2 ∈ secondPages rows →
      c.marcosPorProceso ≤ framesInUse m rows → Takeable c m rows)
    (hb : Bounded c m) (h : evict c m idTable2 pid os = some m') :
    (∀ t rows, m.table1 t = some rows → framesInUse m' rows ≤ framesInUse m rows) ∧
    ∀ t rows, m.table1 t = some rows → idTable2 ∈ secondPages rows →
      framesInUse m' rows < c.marcosPorProceso := by
  rcases evict_cases h with ⟨hfull, rfl⟩ | ⟨hfull, m₁, victim, hsel, h⟩
  · -- the process has a frame left
    obtain ⟨rows, ht, hid, hdec⟩ := shouldReplaceFrame_eq hm.forest hrow hfull
    refine ⟨fun _ _ _ => le_refl _, fun t' rows' ht' hid' => ?_⟩
    obtain rfl : rows = rows' := by
      by_contra hne
      have hne' : getTableLvl1Number m' idTable2 ≠ t' := by
        rintro rfl
        exact hne (by simpa [ht] using ht')
      exact hm.forest.disjoint _ _ _ _ ht ht' hne' hid hid'
    have hlt := of_decide_eq_false hdec.symm
    omega
  · -- a present row of the process goes
    obtain ⟨rows, ht, hid, hdec⟩ := shouldReplaceFrame_eq hm.forest hrow hfull
    have hle := of_decide_eq_true hdec.symm
    obtain ⟨m₂, j, victim', hsel', hne, r, hr, hpres, hframe⟩ :=
      (htake _ rows ht hid hle).selects hm.forest hh ht
    obtain ⟨rfl, rfl⟩ : m₂ = m₁ ∧ victim' = victim := by
      rw [hsel', Option.some.injEq, Prod.mk.injEq] at hsel
      exact hsel
    have hsame := (selected_frameSelector hsel).rows
    obtain ⟨p, hp, hrowp⟩ := rowIx_eq_some_iff.mp hr
    obtain ⟨r₁, hr₁, hr₁r⟩ := hsame.rowAt_some hrowp
    have hframe₁ := congrArg PageTableLvl2.frame hr₁r
    have hpres₁ := congrArg PageTableLvl2.present hr₁r
    simp only [unused] at hframe₁ hpres₁
    have hmem : p.1 ∈ secondPages rows := (mem_rowRefs.mp (List.mem_of_getElem? hp)).1
    have hvictim : r₁.frame = victim' := hframe₁.trans hframe
    rw [← hvictim] at h hne
    have hroom := fun rows' (hn : (secondPages rows').Nodup) => replaceFrame_room
      (hm.sameRows (hsame.comp PageTableLvl2.frame)) hr₁ hne (hpres₁.trans hpres) h hn
    have hcount := framesInUse_sameRows (hsame.comp PageTableLvl2.present)
    refine ⟨fun t' rows' ht' => ?_, fun t' rows' ht' hid' => ?_⟩
    · have := hroom rows' (hm.forest.nodup t' rows' ht')
      rw [hcount rows'] at this
      omega
    · have hrr : rows = rows' := by
        by_contra hneq
        have hne' : getTableLvl1Number m idTable2 ≠ t' := by
          rintro rfl
          exact hneq (by simpa [ht] using ht')
        exact hm.forest.disjoint _ _ _ _ ht ht' hne' hid hid'
      subst hrr
      have := hroom rows (hm.forest.nodup t' rows ht')
      rw [hcount rows, if_pos hmem] at this
      have := hb t' rows ht'
      omega

/-- A swap-in makes at most the row of its frame present. -/
lemma unswapFrameForPcb_count (hm : Mapped c m) {p : RowRef} {r : PageTableLvl2}
    (hr : m.rowAt p = some r) (hne : r.frame ≠ invalidFrame) {pid : ℕ} {os : Os}
    (h : unswapFrameForPcb c m pid r.frame os = some m') {rows : List PageTableLvl1}
    (hnodup : (secondPages rows).Nodup) :
    framesInUse m' rows ≤ framesInUse m rows + (if p.1 ∈ secondPages rows then 1 else 0) := by
  rcases unswapFrameForPcb_cases h with
    ⟨-, rfl⟩ | ⟨k, d, -, -, ⟨-, rfl⟩ | ⟨-, found, m₁, region, offset, -, hload, -, h⟩⟩
  · omega
  · exact Nat.le_add_right _ _
  · obtain ⟨mainMemory, rfl⟩ := loadRecord_eq hload
    obtain ⟨q, s, -, hs, hframe, rfl⟩ := setPresent_eq h
    obtain rfl : p = q := hm.unique p q r s hr hs hne hframe.symm
    have hcount := framesInUse_setRow hs { s with present := true } hnodup
    have hbefore : framesInUse (setSwapOffset (setFile { m with mainMemory } pid
        (some (munmap ((m.files pid).getD []) region))) k offset) rows = framesInUse m rows := rfl
    rw [hbefore] at hcount
    simp only [Bool.toNat_true] at hcount
    omega

/-- Loading or mapping a page adds at most one present row, to the process of its table. -/
lemma allocate_count (hm : Mapped c m) {idTable2 index pid newFrame : ℕ} {os : Os}
    (hs : Spare m newFrame) (h : allocate c m idTable2 index pid newFrame os = some m')
    {rows : List PageTableLvl1} (hnodup : (secondPages rows).Nodup) :
    framesInUse m' rows ≤
      framesInUse m rows + (if idTable2 ∈ secondPages rows then 1 else 0) := by
  obtain ⟨row, hrow, ⟨-, createdAt, h⟩ | ⟨hne, m₁, m₂, h₁, h₂, h⟩⟩ := allocate_cases h
  · rcases createFrameForTable_cases h with ⟨rfl, -⟩ | ⟨r, ⟨hr, -, -⟩, rfl⟩
    · exact Nat.le_add_right _ _
    · have hcount := framesInUse_setRow hr
        { r with present := true, frame := newFrame, use := true } hnodup
      simp only [Bool.toNat_true] at hcount
      omega
  · have hm₁ := hm.deleteFrame hs h₁
    obtain ⟨frames, rfl, -⟩ := deleteFrame_eq h₁
    have hcount := unswapFrameForPcb_count hm₁ (p := (idTable2, index)) hrow hne h₂ hnodup
    have hsame : SameRows PageTableLvl2.present m₂ m' := by
      refine sameRows_modifyRow ?_ h
      exact fun _ _ => rfl
    rw [framesInUse_sameRows hsame]
    exact hcount

/-- Only the selector moves a hand. -/
lemma handsIn_obtainFrame (hh : HandsIn c m) {idTable2 index pid f : ℕ} {os os' : Os}
    (h : obtainFrame c m idTable2 index pid os os' = some (m', f)) : HandsIn c m' := by
  rcases obtainFrame_cases h with ⟨-, rfl, -⟩ | ⟨-, -, -, rfl, -⟩ | ⟨row, -, -, h⟩
  · exact hh
  · exact hh
  obtain ⟨m₁, m₂, hfind, hevict, hallocate⟩ := pageFault_steps h
  obtain ⟨frames, rfl⟩ := findFreeFrame_fields hfind
  obtain ⟨mainMemory, frames', l, swapData, files, rfl⟩ := allocate_fields hallocate
  have hh₂ : HandsIn c m₂ := by
    rcases evict_cases hevict with ⟨-, rfl⟩ | ⟨-, m₃, victim, hsel, hreplace⟩
    · exact ⟨hh.clock, hh.improvedClock⟩
    · have hh₃ := (selected_frameSelector hsel).hands ⟨hh.clock, hh.improvedClock⟩
      obtain ⟨l', swapData', files', rfl⟩ := replaceFrame_fields hreplace
      exact ⟨hh₃.clock, hh₃.improvedClock⟩
  exact ⟨hh₂.clock, hh₂.improvedClock⟩

theorem Inv.obtainFrame (hi : Inv c m) {pid op1 op2 : UInt32} {os os' : Os}
    (hcond : Replaceable c m (.frame pid op1 op2 os os')) {f : ℕ}
    (h : obtainFrame c m op1.toNat op2.toNat pid.toNat os os' = some (m', f)) : Inv c m' := by
  refine ⟨hi.mapped.obtainFrame h, handsIn_obtainFrame hi.hands h, ?_⟩
  rcases obtainFrame_cases h with ⟨-, rfl, -⟩ | ⟨-, -, -, rfl, -⟩ | ⟨row, hrow, habs, h⟩
  · exact hi.bounded
  · exact hi.bounded
  obtain ⟨m₁, m₂, hfind, hevict, hallocate⟩ := pageFault_steps h
  obtain ⟨hm₁, hspare⟩ := hi.mapped.findFreeFrame hfind
  obtain ⟨frames, rfl⟩ := findFreeFrame_fields hfind
  have hsame := (sameRows_evict hevict).comp PageTableLvl2.frame
  have hrow₁ : Memory.rowAt { m with frames } (op1.toNat, op2.toNat) = some row := hrow
  obtain ⟨hle, hroom⟩ := evict_room hm₁ ⟨hi.hands.clock, hi.hands.improvedClock⟩ hrow₁
    (fun t rows ht hid hfull => (hcond row t rows hrow habs ht hid hfull).withFrames frames)
    hi.bounded hevict
  intro t rows ht'
  obtain ⟨mainMemory, frames', l, swapData, files, rfl⟩ := allocate_fields hallocate
  have ht₂ : m₂.table1 t = some rows := ht'
  have ht : m.table1 t = some rows := by
    rw [hsame.table1] at ht₂
    exact ht₂
  have hcount := allocate_count (hm₁.sameRows hsame) (hspare.sameRows hsame) hallocate
    (hi.mapped.forest.nodup t rows ht)
  by_cases hid : op1.toNat ∈ secondPages rows
  · rw [if_pos hid] at hcount
    have := hroom t rows ht hid
    omega
  · rw [if_neg hid] at hcount
    have := hle t rows ht
    have hbefore : framesInUse { m with frames } rows ≤ c.marcosPorProceso :=
      hi.bounded t rows ht
    omega

/-! ### Every run -/

lemma presentIn_congr {id : ℕ} (h : m'.table2 id = m.table2 id) :
    presentIn m' id = presentIn m id := by
  rw [presentIn, presentIn, h]

lemma Bounded.created (hb : Bounded c m) (hf : Forest c m) {id : ℕ} (h : Created c m m' id) :
    Bounded c m' := by
  intro t rows ht
  rw [h.table1] at ht
  split at ht
  · -- the new process has no page yet
    obtain rfl := Option.some.inj ht
    have hzero : ∀ n ∈ ((freshIds m.tablesLvl2.length c.maxRows).map (presentIn m')), n = 0 := by
      intro n hn
      obtain ⟨i, hi, rfl⟩ := List.mem_map.mp hn
      rw [presentIn, h.table2, if_pos hi, Option.getD_some, newPageTableLvl2,
        List.countP_replicate]
      rfl
    rw [framesInUse_eq, secondPages_map_mk, List.sum_eq_zero_iff_forall_eq_nat.mpr hzero]
    exact Nat.zero_le _
  · rw [framesInUse_congr fun i hi => presentIn_congr ?_]
    · exact hb t rows ht
    · obtain ⟨rows2, h2⟩ := Option.isSome_iff_exists.mp (hf.live t rows ht i hi)
      rw [h.table2_of_live h2, h2]

lemma Bounded.deleted (hb : Bounded c m) (hf : Forest c m) {tableId : ℕ}
    {rows : List PageTableLvl1} (ht : m.table1 tableId = some rows)
    (h : Deleted m m' tableId rows) : Bounded c m' := by
  intro t rows' ht'
  rw [h.table1] at ht'
  split at ht'
  · cases ht'
  · rename_i hne
    rw [framesInUse_congr fun i hi => presentIn_congr ?_]
    · exact hb t rows' ht'
    · rw [h.table2, if_neg]
      intro hi'
      exact hf.disjoint t tableId rows' rows ht' ht hne hi hi'

lemma Bounded.sameRows (hb : Bounded c m) (h : SameRows PageTableLvl2.present m m') :
    Bounded c m' := by
  intro t rows ht
  rw [framesInUse_sameRows h]
  exact hb t rows (h.table1 t ▸ ht)

lemma handsIn_step (hf : Forest c m) (hh : HandsIn c m) {req : Request}
    (h : step c m req = some m') : HandsIn c m' := by
  cases req with
  | memoryInit pid pcbSize os =>
    obtain ⟨id, h⟩ := step_memoryInit h
    obtain ⟨file, hc⟩ := kernelControllerMemoryInit_steps hf h
    constructor
    · rw [hc.rest.clock]
      exact hh.clock
    · rw [hc.rest.improvedClock]
      exact hh.improvedClock
  | sndPage op1 op2 =>
    obtain rfl := step_sndPage h
    exact hh
  | frame pid op1 op2 os os' =>
    obtain ⟨f, h⟩ := step_frame h
    exact handsIn_obtainFrame hh h
  | rd physicalAddress =>
    obtain ⟨v, h⟩ := step_rd h
    obtain ⟨l, rfl⟩ := cpuControllerRead_fields h
    exact ⟨hh.clock, hh.improvedClock⟩
  | wt physicalAddress value =>
    obtain ⟨mainMemory, l, rfl⟩ := cpuControllerWrite_fields (step_wt h)
    exact ⟨hh.clock, hh.improvedClock⟩
  | processTerminated pcbId tableId =>
    obtain ⟨m₁, h₁, rfl⟩ := kernelControllerDestroyProcessFile_steps (step_processTerminated h)
    rcases deleteProcess_spec hf h₁ with ⟨-, rfl⟩ | ⟨rows, ht, hd⟩
    · exact ⟨hh.clock, hh.improvedClock⟩
    · exact ⟨hd.rest.clock ▸ hh.clock, hd.rest.improvedClock ▸ hh.improvedClock⟩

theorem Inv.step (hi : Inv c m) {req : Request} (hcond : Replaceable c m req)
    (h : step c m req = some m') : Inv c m' := by
  refine ⟨hi.mapped.step h, handsIn_step hi.mapped.forest hi.hands h, ?_⟩
  cases req with
  | memoryInit pid pcbSize os =>
    obtain ⟨id, h⟩ := step_memoryInit h
    obtain ⟨file, hc⟩ := kernelControllerMemoryInit_steps hi.mapped.forest h
    have hb : Bounded c (setFile { m with
        swapData := m.swapData ++ [⟨pid.toNat, 0, pcbSize.toNat⟩] } pid.toNat file) := hi.bounded
    exact hb.created ⟨hi.mapped.forest.1, hi.mapped.forest.2, hi.mapped.forest.3,
      hi.mapped.forest.4, hi.mapped.forest.5, hi.mapped.forest.6, hi.mapped.forest.7⟩ hc
  | sndPage op1 op2 =>
    obtain rfl := step_sndPage h
    exact hi.bounded
  | frame pid op1 op2 os os' =>
    obtain ⟨f, h⟩ := step_frame h
    exact (hi.obtainFrame hcond h).bounded
  | rd physicalAddress =>
    obtain ⟨v, h⟩ := step_rd h
    exact hi.bounded.sameRows ((sameRows_cpuControllerRead h).comp PageTableLvl2.present)
  | wt physicalAddress value =>
    exact hi.bounded.sameRows
      ((sameRows_cpuControllerWrite (step_wt h)).comp PageTableLvl2.present)
  | processTerminated pcbId tableId =>
    obtain ⟨m₁, h₁, rfl⟩ := kernelControllerDestroyProcessFile_steps (step_processTerminated h)
    rcases deleteProcess_spec hi.mapped.forest h₁ with ⟨-, rfl⟩ | ⟨rows, ht, hd⟩
    · exact hi.bounded
    · have hb : Bounded c m₁ := hi.bounded.deleted hi.mapped.forest ht hd
      exact hb

lemma inv_onInitMemory (c : Cfg) (heap : ℕ → UInt8) : Inv c (onInitMemory c heap) := by
  refine ⟨mapped_onInitMemory c heap, ⟨handIn_zero c, handIn_zero c⟩, fun t rows ht => ?_⟩
  simp [onInitMemory, Memory.table1, slotGet] at ht

/-- **Resident set.** In every run in which a present row can be taken whenever one has to be,
no process ever has more present rows than `MARCOS_POR_PROCESO`, and every victim is the frame
of a present row of the process whose page faults. -/
theorem bounded_of_replaceable (c : Cfg) (heap : ℕ → UInt8) (reqs : List Request) (m : Memory)
    (hmeets : Meets (step c) (Replaceable c) (onInitMemory c heap) reqs)
    (hrun : run (step c) (onInitMemory c heap) reqs = some m) :
    Bounded c m ∧
    ∀ pid op1 op2 os os', Replaceable c m (.frame pid op1 op2 os os') →
      VictimPresent c m op1.toNat op2.toNat := by
  have hi : Inv c m :=
    hmeets.inv (fun _ _ _ hi hc hs => hi.step hc hs) (inv_onInitMemory c heap) hrun
  exact ⟨hi.bounded, fun pid op1 op2 os os' h => victimPresent_of_replaceable hi h⟩

def secondFault : List Request :=
  [.memoryInit 1 64 goodOs, .frame 1 0 0 goodOs goodOs, .frame 1 0 1 goodOs goodOs]

/-- The first access is to the second table: its row is present, and the hand is at a row that
never had a frame. -/
def highFault : List Request :=
  [.memoryInit 1 64 goodOs, .frame 1 1 0 goodOs goodOs]

set_option maxRecDepth 40000 in
theorem bounded_of_replaceable_second :
    ∃ m, run (step singleCfg) (onInitMemory singleCfg fun _ => 0) secondFault = some m ∧
      Bounded singleCfg m := by
  refine ⟨_, rfl, (bounded_of_replaceable singleCfg (fun _ => 0) secondFault _ ?_ rfl).1⟩
  have hfirst : ∀ {m : Memory} {t : ℕ} {rows : List PageTableLvl1},
      m.tablesLvl1 = [some [⟨0⟩, ⟨1⟩]] → m.table1 t = some rows → rows = [⟨0⟩, ⟨1⟩] := by
    intro m t rows hlist ht
    have hlt := slotGet_lt ht
    rw [hlist] at hlt
    obtain rfl : t = 0 := by simpa using hlt
    rw [Memory.table1, hlist] at ht
    exact (Option.some.inj ht).symm
  refine ⟨trivial, fun m₁ h₁ => ⟨?_, fun m₂ h₂ => ⟨?_, fun _ _ => trivial⟩⟩⟩
  · -- no page is present yet
    obtain rfl := Option.some.inj h₁
    intro row t rows _ _ ht _ hfull
    obtain rfl := hfirst rfl ht
    exact absurd hfull (by decide)
  · -- the hand is at the page that is present
    obtain rfl := Option.some.inj h₁
    obtain rfl := Option.some.inj h₂
    intro row t rows _ _ ht _ _
    obtain rfl := hfirst rfl ht
    decide +kernel

set_option maxRecDepth 40000 in
/-- The selector is stuck, and answers a frame that does not exist. -/
theorem not_victimPresent_highFault :
    ∃ m, run (step singleCfg) (onInitMemory singleCfg fun _ => 0) highFault = some m ∧
      ¬ VictimPresent singleCfg m 0 0 := by
  refine ⟨_, rfl, fun h => ?_⟩
  obtain ⟨rows, m₂, victim, j, -, -, hsel, hne, -⟩ := h _ rfl rfl _ _ rfl rfl
  have hinvalid : (some (m₂, victim)).map Prod.snd = some invalidFrame := by
    rw [← hsel]
    rfl
  exact hne (Option.some.inj hinvalid)

end Sski.Mem.Resident
