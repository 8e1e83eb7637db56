import Sski.Lib.Blame
import Sski.Mem.Faults
import Sski.Mem.Locality

/-!
What the memory module does with the table ids and the row indices of a page walk.

`Blamed` has the functions of a page fault once more, with the place of each undefined
behaviour: at the page tables, or at the heap, the frame bitmap or a swap file. The results are
about the first kind.
-/

namespace Sski.Mem.Validation

open Sski.Lib.Slots Sski.Lib.Runs Sski.Lib.Block Sski.Lib.Blame Sski.Mem.MemoryModule
open Sski.Mem.PageTable Sski.Mem.OsMemory Sski.Mem.Swap Sski.Mem.Algorithms
open Sski.Mem.CpuController Sski.Mem.KernelController Sski.Mem.Tables Sski.Mem.Rows
open Sski.Mem.Frames Sski.Mem.Selection Sski.Mem.Resident Sski.Mem.Faults Sski.Mem.Locality

/-- Where a function meets undefined behaviour. -/
inductive Place | tables | elsewhere
  deriving DecidableEq, Repr

/-! ### The functions of a page fault -/

namespace Blamed

variable (c : Cfg)

def swapFrameForPcb (m : Memory) (pid frame : ℕ) (os : Os) : Except Place Memory :=
  match getSwapDataForPcb m pid with
  | none => .ok m
  | some (i, swapData) =>
    match openFile m pid os with
    | none => .ok m
    | some (m, file) =>
      let file := ftruncate file swapData.size
      let m := setFile m pid (some file)
      if mapFails os swapData.size then .ok m
      else do
        let (region, offset) ← orFail .elsewhere
          (swapFrame c m frame (mmap file swapData.size) swapData.offset)
        let m := setSwapOffset (setFile m pid (some (munmap file region))) i offset
        orFail .tables (setPresent c m frame false)

def unswapFrameForPcb (m : Memory) (pid frame : ℕ) (os : Os) : Except Place Memory :=
  match openFile m pid os with
  | none => .ok m
  | some (m, file) => do
    let (k, swapData) ← orFail .elsewhere (getSwapDataForPcb m pid)
    if mapFails os swapData.size then .ok m
    else do
      let region := mmap file swapData.size
      let found ← orFail .elsewhere (findRecord region frame (recordStarts c swapData.offset))
      let m ← orFail .elsewhere (loadRecord c m region frame os found)
      let (region, offset) ← orFail .elsewhere
        (fillHole c region (found.getD 0) swapData.offset)
      let m := setSwapOffset (setFile m pid (some (munmap file region))) k offset
      orFail .tables (setPresent c m frame true)

def replaceFrame (m : Memory) (pid frameToReplace : ℕ) (os : Os) : Except Place Memory := do
  let m ← orFail .tables
    (clearFrame c m (getTableLvl2Number m frameToReplace) frameToReplace)
  swapFrameForPcb c m pid frameToReplace os

def evict (m : Memory) (idTable2 pid : ℕ) (os : Os) : Except Place Memory := do
  if ← orFail .tables (shouldReplaceFrame c m idTable2) then
    let (m, frameToReplace) ← orFail .tables
      (frameSelector c m (getTableLvl1Number m idTable2))
    replaceFrame c m pid frameToReplace os
  else .ok m

def allocate (m : Memory) (idTable2 index pid newFrame : ℕ) (os : Os) :
    Except Place Memory := do
  let row ← orFail .tables (m.rowAt (idTable2, index))
  if row.frame = invalidFrame then
    let (m, _) ← orFail .tables (createFrameForTable c m idTable2 newFrame)
    return m
  else
    let m ← orFail .elsewhere (deleteFrame c m newFrame)
    let m ← unswapFrameForPcb c m pid row.frame os
    orFail .tables (m.modifyRow (idTable2, index) fun row => { row with use := true })

def pageFault (m : Memory) (idTable2 index pid : ℕ) (os os' : Os) :
    Except Place (Memory × ℕ) := do
  let (m, newFrame) := findFreeFrame m
  let m ← evict c m idTable2 pid os
  let m ← allocate c m idTable2 index pid newFrame os'
  return (m, newFrame)

def obtainFrame (m : Memory) (idTable2 index pid : ℕ) (os os' : Os) :
    Except Place (Memory × ℕ) := do
  if index > c.maxRows then return (m, uint32Max)
  let row ← orFail .tables (m.rowAt (idTable2, index))
  if row.present then return (m, row.frame)
  pageFault c m idTable2 index pid os os'

end Blamed

section Forget

variable (c : Cfg)

/-! Without the place, they are the functions of the module. -/

lemma toOption_swapFrameForPcb (m : Memory) (pid frame : ℕ) (os : Os) :
    (Blamed.swapFrameForPcb c m pid frame os).toOption = swapFrameForPcb c m pid frame os := by
  unfold Blamed.swapFrameForPcb swapFrameForPcb
  cases getSwapDataForPcb m pid with
  | none => rfl
  | some found =>
    obtain ⟨i, swapData⟩ := found
    cases openFile m pid os with
    | none => rfl
    | some opened =>
      obtain ⟨m₁, file⟩ := opened
      cases hmap : mapFails os swapData.size
      · simp only [hmap, Bool.false_eq_true, if_false, toOption_bind, toOption_orFail,
          Option.bind_eq_bind]
      · simp only [hmap, if_true, toOption_ok]

lemma toOption_unswapFrameForPcb (m : Memory) (pid frame : ℕ) (os : Os) :
    (Blamed.unswapFrameForPcb c m pid frame os).toOption =
      unswapFrameForPcb c m pid frame os := by
  unfold Blamed.unswapFrameForPcb unswapFrameForPcb
  cases openFile m pid os with
  | none => rfl
  | some opened =>
    obtain ⟨m₁, file⟩ := opened
    simp only [toOption_bind, toOption_orFail, Option.bind_eq_bind]
    congr 1
    funext ⟨k, swapData⟩
    cases mapFails os swapData.size
    · simp only [Bool.false_eq_true, if_false, toOption_bind, toOption_orFail]
    · simp only [if_true, toOption_ok]

lemma toOption_replaceFrame (m : Memory) (pid frame : ℕ) (os : Os) :
    (Blamed.replaceFrame c m pid frame os).toOption = replaceFrame c m pid frame os := by
  simp only [Blamed.replaceFrame, replaceFrame, toOption_bind, toOption_orFail,
    toOption_swapFrameForPcb, Option.bind_eq_bind]

lemma toOption_evict (m : Memory) (idTable2 pid : ℕ) (os : Os) :
    (Blamed.evict c m idTable2 pid os).toOption = evict c m idTable2 pid os := by
  simp only [Blamed.evict, evict, toOption_bind, toOption_orFail, Option.bind_eq_bind]
  congr 1
  funext full
  split
  · simp only [toOption_bind, toOption_orFail, toOption_replaceFrame]
  · rfl

lemma toOption_allocate (m : Memory) (idTable2 index pid newFrame : ℕ) (os : Os) :
    (Blamed.allocate c m idTable2 index pid newFrame os).toOption =
      allocate c m idTable2 index pid newFrame os := by
  simp only [Blamed.allocate, allocate, toOption_bind, toOption_orFail, Option.bind_eq_bind]
  congr 1
  funext row
  split
  · simp only [toOption_bind, toOption_orFail]
    rfl
  · simp only [toOption_bind, toOption_orFail, toOption_unswapFrameForPcb]

lemma toOption_pageFault (m : Memory) (idTable2 index pid : ℕ) (os os' : Os) :
    (Blamed.pageFault c m idTable2 index pid os os').toOption =
      pageFault c m idTable2 index pid os os' := by
  simp only [Blamed.pageFault, pageFault, toOption_bind, toOption_evict, toOption_allocate,
    Option.bind_eq_bind]
  rfl

/-- **Blame is no more than an account.** A request for a frame ends in the same way. -/
theorem toOption_obtainFrame (m : Memory) (idTable2 index pid : ℕ) (os os' : Os) :
    (Blamed.obtainFrame c m idTable2 index pid os os').toOption =
      obtainFrame c m idTable2 index pid os os' := by
  unfold Blamed.obtainFrame obtainFrame
  split
  · rfl
  simp only [toOption_bind, toOption_orFail, Option.bind_eq_bind]
  congr 1
  funext row
  split
  · rfl
  · exact toOption_pageFault c m idTable2 index pid os os'

end Forget

variable {c : Cfg} {m m' : Memory}

/-! ### Every table has an owner -/

structure SameIds (m m' : Memory) : Prop where
  table1 : ∀ t, m'.table1 t = m.table1 t
  table2 : ∀ id, (m'.table2 id).isSome = (m.table2 id).isSome

lemma SameIds.refl (m : Memory) : SameIds m m := ⟨fun _ => rfl, fun _ => rfl⟩

lemma SameIds.trans {m'' : Memory} (h : SameIds m m') (h' : SameIds m' m'') : SameIds m m'' :=
  ⟨fun t => (h'.table1 t).trans (h.table1 t), fun id => (h'.table2 id).trans (h.table2 id)⟩

lemma sameIds_sameRows {α : Type*} {g : PageTableLvl2 → α} (h : SameRows g m m') :
    SameIds m m' := by
  refine ⟨h.table1, fun id => ?_⟩
  have hrows := congrArg Option.isSome (h.rows id)
  simpa only [Option.isSome_map] using hrows

lemma sameIds_allocate {idTable2 index pid newFrame : ℕ} {os : Os}
    (h : allocate c m idTable2 index pid newFrame os = some m') : SameIds m m' := by
  obtain ⟨row, -, ⟨-, createdAt, h⟩ | ⟨-, m₁, m₂, h₁, h₂, h⟩⟩ := allocate_cases h
  · rcases createFrameForTable_cases h with ⟨rfl, -⟩ | ⟨r, ⟨hr, -, -⟩, rfl⟩
    · exact .refl _
    · exact sameIds_sameRows (sameRows_setRow (g := fun _ => ()) hr rfl)
  · obtain ⟨frames, rfl, -, -⟩ := deleteFrame_eq h₁
    have hframes : SameIds m { m with frames } := ⟨fun _ => rfl, fun _ => rfl⟩
    refine (hframes.trans (sameIds_sameRows (sameRows_unswapFrameForPcb h₂))).trans ?_
    exact sameIds_sameRows (sameRows_modifyRow (g := fun _ => ()) (fun _ _ => rfl) h)

lemma sameIds_obtainFrame {idTable2 index pid frame : ℕ} {os os' : Os}
    (h : obtainFrame c m idTable2 index pid os os' = some (m', frame)) : SameIds m m' := by
  rcases obtainFrame_cases h with ⟨-, rfl, -⟩ | ⟨-, -, -, rfl, -⟩ | ⟨row, -, -, h⟩
  · exact .refl _
  · exact .refl _
  · obtain ⟨m₁, m₂, hfind, hevict, hallocate⟩ := pageFault_steps h
    obtain ⟨frames, rfl⟩ := findFreeFrame_fields hfind
    have hframes : SameIds m { m with frames } := ⟨fun _ => rfl, fun _ => rfl⟩
    exact (hframes.trans (sameIds_sameRows (sameRows_evict hevict))).trans
      (sameIds_allocate hallocate)

/-- What the requests of the module may rely on. Every level-2 table belongs to a process; and
no process was created if the printer overruns its block. -/
structure Served (c : Cfg) (m : Memory) : Prop where
  mapped : Mapped c m
  hands : HandsIn c m
  owned : ∀ id, (m.table2 id).isSome → ∃ t rows, m.table1 t = some rows ∧ id ∈ secondPages rows
  printable : ∀ t rows, m.table1 t = some rows → c.maxRows ∣ bigRows c

lemma eq_some_of_forM {f : ℕ → Option Unit} {l : List ℕ} {i : ℕ} (h : l.forM f = some ())
    (hi : i ∈ l) : f i = some () := by
  induction l with
  | nil => cases hi
  | cons j l ih =>
    simp only [List.forM_eq_forM, List.forM_cons, Option.bind_eq_bind,
      Option.bind_eq_some_iff] at h
    obtain ⟨_, hj, h⟩ := h
    rcases List.mem_cons.mp hi with rfl | hi
    · exact hj
    · exact ih h hi

lemma printTable_of_printTables {t : ℕ} {rows : List PageTableLvl1}
    (ht : m.table1 t = some rows) (h : printTables c m = some ()) :
    printTable c m t = some () := by
  have hlive := eq_some_of_forM h (List.mem_range.mpr (slotGet_lt ht))
  rwa [ht] at hlive

lemma dvd_of_printTable {t : ℕ} {rows : List PageTableLvl1} (ht : m.table1 t = some rows)
    (h : printTable c m t = some ()) : c.maxRows ∣ bigRows c := by
  by_contra hd
  simp [printTable, createBigTable, ht, hd] at h

lemma served_onInitMemory (c : Cfg) (heap : ℕ → UInt8) : Served c (onInitMemory c heap) where
  mapped := mapped_onInitMemory c heap
  hands := ⟨handIn_zero c, handIn_zero c⟩
  owned := by simp [onInitMemory, Memory.table2, slotGet]
  printable := by simp [onInitMemory, Memory.table1, slotGet]

lemma Served.sameIds (hs : Served c m) (hm : Mapped c m') (hh : HandsIn c m')
    (h : SameIds m m') : Served c m' := by
  refine ⟨hm, hh, fun id hid => ?_, fun t rows ht => ?_⟩
  · rw [h.table2] at hid
    obtain ⟨t, rows, ht, hmem⟩ := hs.owned id hid
    exact ⟨t, rows, (h.table1 t).trans ht, hmem⟩
  · rw [h.table1] at ht
    exact hs.printable t rows ht

theorem Served.step (hs : Served c m) {req : Request} (h : step c m req = some m') :
    Served c m' := by
  have hm' := hs.mapped.step h
  have hh' := handsIn_step hs.mapped.forest hs.hands h
  cases req with
  | memoryInit pid pcbSize os =>
    obtain ⟨id, h⟩ := step_memoryInit h
    obtain ⟨file, hc⟩ := kernelControllerMemoryInit_steps hs.mapped.forest h
    have hprint : printTables c m' = some () := by
      simp only [kernelControllerMemoryInit, Option.bind_eq_bind, Option.bind_eq_some_iff,
        Option.pure_def, Option.some.injEq, Prod.mk.injEq] at h
      obtain ⟨_, _, _, _, _, hprint, rfl, -⟩ := h
      exact hprint
    refine ⟨hm', hh', fun i hi => ?_, fun t rows ht => ?_⟩
    · rw [hc.table2] at hi
      split at hi
      · -- a table of the new process
        rename_i hfresh
        refine ⟨id, _, by rw [hc.table1, if_pos rfl], ?_⟩
        rw [secondPages_map_mk]
        exact hfresh
      · obtain ⟨t, rows, ht, hmem⟩ := hs.owned i hi
        exact ⟨t, rows, hc.table1_of_live ht, hmem⟩
    · exact dvd_of_printTable ht (printTable_of_printTables ht hprint)
  | sndPage op1 op2 =>
    obtain rfl := step_sndPage h
    exact hs
  | frame pid op1 op2 os os' =>
    obtain ⟨f, h⟩ := step_frame h
    exact hs.sameIds hm' hh' (sameIds_obtainFrame h)
  | rd physicalAddress =>
    obtain ⟨v, h⟩ := step_rd h
    exact hs.sameIds hm' hh' (sameIds_sameRows (sameRows_cpuControllerRead h))
  | wt physicalAddress value =>
    exact hs.sameIds hm' hh' (sameIds_sameRows (sameRows_cpuControllerWrite (step_wt h)))
  | processTerminated pcbId tableId =>
    obtain ⟨m₁, h₁, rfl⟩ := kernelControllerDestroyProcessFile_steps (step_processTerminated h)
    rcases deleteProcess_spec hs.mapped.forest h₁ with ⟨-, rfl⟩ | ⟨rows, ht, hd⟩
    · exact hs.sameIds hm' hh' ⟨fun _ => rfl, fun _ => rfl⟩
    refine ⟨hm', hh', fun i hi => ?_, fun t rows' ht' => ?_⟩
    · have hi₁ : (m₁.table2 i).isSome := hi
      rw [hd.table2] at hi₁
      split at hi₁
      · cases hi₁
      rename_i hkept
      obtain ⟨t, rows', ht', hmem⟩ := hs.owned i hi₁
      have hne : t ≠ tableId.toNat := by
        rintro rfl
        obtain rfl : rows = rows' := by simpa [ht] using ht'
        exact hkept hmem
      have ht₁ : m₁.table1 t = some rows' := by rw [hd.table1, if_neg hne, ht']
      exact ⟨t, rows', ht₁, hmem⟩
    · exact hs.printable _ _ ht

/-- **The tables of every reachable state.** -/
theorem served_of_reachable {heap : ℕ → UInt8}
    (h : Reachable (KernelController.step c) (onInitMemory c heap) m) : Served c m :=
  h.inv (fun _ _ _ hs h => hs.step h) (served_onInitMemory c heap)

/-! ### No row to take -/

section Stuck

variable {bigTable : List RowRef}

lemma scan_hit (hnodup : bigTable.Nodup) {hit : PageTableLvl2 → Bool} {clear : ℕ → Bool}
    {js : List ℕ} (hjs : js.Nodup) {j frame : ℕ}
    (h : scan bigTable hit clear js m = some (m', some (j, frame))) :
    j ∈ js ∧ ∃ r, rowIx bigTable m j = some r ∧ r.present = true ∧ hit r = true := by
  induction js generalizing m with
  | nil => cases h
  | cons i js ih =>
    obtain ⟨hi, hjs'⟩ := List.nodup_cons.mp hjs
    simp only [scan, Option.bind_eq_bind, Option.bind_eq_some_iff] at h
    obtain ⟨p, hp, row, hrow, h⟩ := h
    have hset := rowIx_setRow hnodup hp hrow { row with use := false }
    split at h
    next hpres =>
      split at h
      next hhit =>
        -- taken here
        simp only [Option.pure_def, Option.some.injEq, Prod.mk.injEq] at h
        obtain ⟨-, rfl, -⟩ := h
        exact ⟨List.mem_cons_self, row, rowIx_eq_some_iff.mpr ⟨p, hp, hrow⟩, hpres, hhit⟩
      next =>
        split at h
        next =>
          obtain ⟨hmem, r, hr, hmatch⟩ := ih hjs' h
          rw [hset, if_neg (by rintro rfl; exact hi hmem)] at hr
          exact ⟨List.mem_cons_of_mem _ hmem, r, hr, hmatch⟩
        next =>
          obtain ⟨hmem, hmatch⟩ := ih hjs' h
          exact ⟨List.mem_cons_of_mem _ hmem, hmatch⟩
    next =>
      obtain ⟨hmem, hmatch⟩ := ih hjs' h
      exact ⟨List.mem_cons_of_mem _ hmem, hmatch⟩

/-- What a pass takes matches when it is visited, from the hand on or again up to the hand. -/
lemma pass_hit (hnodup : bigTable.Nodup) {hit : PageTableLvl2 → Bool} {clear clear' : ℕ → Bool}
    {hand : ℕ} (hhand : hand < bigTable.length)
    (hall : ∀ j < bigTable.length, (rowIx bigTable m j).isSome) {j frame : ℕ}
    (h : pass bigTable hit clear clear' bigTable.length hand m = some (m', some (j, frame))) :
    ∃ r, rowIx bigTable m j = some r ∧ r.present = true ∧
      (hand ≤ j ∧ hit r = true ∨
        j ≤ hand ∧ hit (touch (hand ≤ j ∧ clear j = true) r) = true) := by
  have hjs : (List.range' hand (bigTable.length - hand)).Nodup := List.nodup_range'
  rcases scan_cases hnodup hit clear hjs
      (fun j hj => hall j (by rw [List.mem_range'_1] at hj; omega)) with
    ⟨m₁, i, f, hscan, -⟩ | ⟨m₁, hscan, hnone⟩
  · -- the first loop has taken it
    simp only [Algorithms.pass, hscan, Option.bind_eq_bind, Option.bind_some, Option.pure_def,
      Option.some.injEq, Prod.mk.injEq] at h
    obtain ⟨rfl, rfl, rfl⟩ := h
    obtain ⟨hmem, r, hr, hpres, hhit⟩ := scan_hit hnodup hjs hscan
    rw [List.mem_range'_1] at hmem
    exact ⟨r, hr, hpres, .inl ⟨hmem.1, hhit⟩⟩
  · simp only [Algorithms.pass, hscan, Option.bind_eq_bind, Option.bind_some] at h
    obtain ⟨hmem, r₁, hr₁, hpres, hhit⟩ := scan_hit hnodup List.nodup_range h
    rw [List.mem_range] at hmem
    obtain ⟨r, hr⟩ := Option.isSome_iff_exists.mp (hall j (by omega))
    have hlt := rowIx_lt hr
    have hvisited : j ∈ List.range' hand (bigTable.length - hand) ↔ hand ≤ j := by
      rw [List.mem_range'_1]
      omega
    have htouch := (hnone j r hr).1
    rw [touch_congr (by rw [hvisited]), hr₁, Option.some.injEq] at htouch
    subst htouch
    exact ⟨r, hr, by simpa using hpres, .inr ⟨by omega, hhit⟩⟩

/-- Where every present row is used and modified, and the hand is at none of them, the improved
clock takes none. -/
lemma improvedClockSelector_stuck {tableIndex : ℕ}
    (hbig : bigTableOf c m tableIndex = some bigTable) (hw : Whole c m bigTable)
    (hhand : m.improvedClock < totalRows c)
    (hstuck : ∀ j r, rowIx bigTable m j = some r → r.present = true →
      j ≠ m.improvedClock ∧ r.use = true ∧ r.modified = true) :
    ∃ m', improvedClockSelector c m tableIndex = some (m', invalidFrame) := by
  rw [← hw.length] at hhand
  -- the first pass looks for a row that is not used
  obtain ⟨m₁, h₁, hrows₁⟩ : ∃ m₁, pass bigTable notUsedClean never never bigTable.length
      m.improvedClock m = some (m₁, none) ∧
      ∀ j r, rowIx bigTable m j = some r → rowIx bigTable m₁ j = some r := by
    rcases pass_never_cases hw.nodup notUsedClean hhand hw.rows with
      ⟨m₁, j, frame, h₁, -⟩ | ⟨m₁, h₁, hnone⟩
    · obtain ⟨r, hr, hpres, ⟨-, hhit⟩ | ⟨-, hhit⟩⟩ := pass_hit hw.nodup hhand hw.rows h₁
      · simp [notUsedClean, (hstuck j r hr hpres).2.1] at hhit
      · simp [notUsedClean, (hstuck j r hr hpres).2.2] at hhit
    · exact ⟨m₁, h₁, fun j r hr => (hnone j r hr).1⟩
  have hw₁ : Whole c m₁ bigTable := hw.of_rows fun j r hr => ⟨r, hrows₁ j r hr⟩
  have hback₁ : ∀ j r, rowIx bigTable m₁ j = some r → rowIx bigTable m j = some r := by
    intro j r hr
    obtain ⟨s, hs⟩ := Option.isSome_iff_exists.mp (hw.rows j (rowIx_lt hr))
    rw [hrows₁ j s hs, Option.some.injEq] at hr
    rw [hs, hr]
  -- the second clears the use bits behind it, and only the hand is visited again
  obtain ⟨m₂, h₂, hrows₂⟩ : ∃ m₂, pass bigTable notUsedDirty always always bigTable.length
      m.improvedClock m₁ = some (m₂, none) ∧
      ∀ j r, rowIx bigTable m₁ j = some r → ∃ r', rowIx bigTable m₂ j = some r' ∧
        r'.present = r.present ∧ r'.modified = r.modified := by
    rcases pass_cases hw₁.nodup notUsedDirty always always hhand hw₁.rows with
      ⟨m₂, j, frame, h₂, -⟩ | ⟨m₂, h₂, hnone⟩
    · obtain ⟨r, hr, hpres, ⟨-, hhit⟩ | ⟨hle, hhit⟩⟩ := pass_hit hw₁.nodup hhand hw₁.rows h₂
      · simp [notUsedDirty, (hstuck j r (hback₁ j r hr) hpres).2.1] at hhit
      · obtain ⟨hne, huse, -⟩ := hstuck j r (hback₁ j r hr) hpres
        rw [touch_of_not (by omega)] at hhit
        simp [notUsedDirty, huse] at hhit
    · refine ⟨m₂, h₂, fun j r hr => ?_⟩
      obtain ⟨r₁, rfl, hr', -, -⟩ := hnone j r hr
      exact ⟨_, hr', by simp, by simp⟩
  have hw₂ : Whole c m₂ bigTable := hw₁.of_rows fun j r hr => by
    obtain ⟨r', hr', -⟩ := hrows₂ j r hr
    exact ⟨r', hr'⟩
  -- the third finds them all modified
  obtain ⟨m₃, h₃⟩ : ∃ m₃, pass bigTable notUsedClean never never bigTable.length
      m.improvedClock m₂ = some (m₃, none) := by
    rcases pass_never_cases hw₂.nodup notUsedClean hhand hw₂.rows with
      ⟨m₃, j, frame, h₃, -⟩ | ⟨m₃, h₃, -⟩
    · obtain ⟨r₂, hr₂, hpres, hhit⟩ := pass_hit hw₂.nodup hhand hw₂.rows h₃
      obtain ⟨r, hr⟩ := Option.isSome_iff_exists.mp (hw₁.rows j (rowIx_lt hr₂))
      obtain ⟨r', hr', hpres', hmod⟩ := hrows₂ j r hr
      obtain rfl : r₂ = r' := by simpa [hr₂] using hr'
      have hmod' := (hstuck j r (hback₁ j r hr) (hpres' ▸ hpres)).2.2
      rcases hhit with ⟨-, hhit⟩ | ⟨-, hhit⟩ <;> simp [notUsedClean, hmod, hmod'] at hhit
    · exact ⟨m₃, h₃⟩
  refine ⟨m₃, ?_⟩
  simp only [improvedClockSelector, hbig, ← hw.length, h₁, h₂, h₃, Option.bind_eq_bind,
    Option.bind_some, Option.pure_def]

end Stuck

/-! ### An eviction -/

/-- The process that owns a level-2 table has all its frames in use. -/
structure Full (c : Cfg) (m : Memory) (id : ℕ) (rows : List PageTableLvl1) : Prop where
  owner : ∃ t, m.table1 t = some rows
  references : id ∈ secondPages rows
  full : c.marcosPorProceso ≤ framesInUse m rows

/-- The condition under which a full process can give up a page: the product `max_rows *
max_rows` fits in 32 bits, and if the improved clock takes no row, the frame it answers is that
of some row. -/
structure Evictable (c : Cfg) (m : Memory) (rows : List PageTableLvl1) : Prop where
  small : c.maxRows < 2 ^ 16
  taken : c.algoritmoReemplazo = .clockM → Stuck c (rowRefs c rows) (hand c m) m →
    ∃ p r, m.rowAt p = some r ∧ r.frame = invalidFrame

lemma avoids_swapFrameForPcb (hf : Forest c m) {p : RowRef} {r : PageTableLvl2}
    (hr : m.rowAt p = some r) (pid : ℕ) (os : Os) :
    Avoids .tables (Blamed.swapFrameForPcb c m pid r.frame os) fun _ => True := by
  unfold Blamed.swapFrameForPcb
  split
  · exact trivial
  split
  · exact trivial
  rename_i i swapData _ _ m₁ file hopen
  obtain ⟨-, -, rfl⟩ := openFile_eq hopen
  dsimp only
  split
  · exact trivial
  refine (avoids_orFail (Q := fun _ => True) (by decide) fun _ _ => trivial).bind
    fun ⟨region, offset⟩ _ => ?_
  -- the tables are as they were, so the row is found
  obtain ⟨m', h'⟩ := setPresent_isSome (m := setSwapOffset (setFile (setFile (setFile m pid
    (some file)) pid (some (ftruncate file swapData.size))) pid
    (some (munmap (ftruncate file swapData.size) region))) i offset)
    (forest_sameRows (g := id) hf (.of_eq _ rfl rfl rfl)) hr false
  exact avoids_orFail_some h' trivial

lemma avoids_unswapFrameForPcb (hf : Forest c m) {p : RowRef} {r : PageTableLvl2}
    (hr : m.rowAt p = some r) (pid : ℕ) (os : Os) :
    Avoids .tables (Blamed.unswapFrameForPcb c m pid r.frame os) fun _ => True := by
  unfold Blamed.unswapFrameForPcb
  split
  · exact trivial
  rename_i m₁ file hopen
  obtain ⟨-, -, rfl⟩ := openFile_eq hopen
  refine (avoids_orFail (Q := fun _ => True) (by decide) fun _ _ => trivial).bind
    fun ⟨k, swapData⟩ _ => ?_
  dsimp only
  split
  · exact trivial
  refine (avoids_orFail (Q := fun _ => True) (by decide) fun _ _ => trivial).bind
    fun found _ => ?_
  refine (avoids_orFail (by decide) fun m₂ h₂ => loadRecord_eq h₂).bind fun m₂ h₂ => ?_
  obtain ⟨mainMemory, rfl⟩ := h₂
  refine (avoids_orFail (Q := fun _ => True) (by decide) fun _ _ => trivial).bind
    fun ⟨region, offset⟩ _ => ?_
  obtain ⟨m', h'⟩ := setPresent_isSome (m := setSwapOffset (setFile { setFile m pid
    (some file) with mainMemory } pid (some (munmap file region))) k offset)
    (forest_sameRows (g := id) hf (.of_eq _ rfl rfl rfl)) hr true
  exact avoids_orFail_some h' trivial

lemma avoids_replaceFrame (hf : Forest c m) {p : RowRef} {r : PageTableLvl2}
    (hr : m.rowAt p = some r) (pid : ℕ) (os : Os) :
    Avoids .tables (Blamed.replaceFrame c m pid r.frame os) fun _ => True := by
  obtain ⟨m₁, h₁⟩ := clearFrame_isSome hf hr
  refine (avoids_orFail_some (Q := fun m₁' => m₁' = m₁) h₁ rfl).bind fun m₁' hm₁' => ?_
  subst hm₁'
  have hsame := sameRows_clearFrame h₁
  obtain ⟨r₁, hr₁, hr₁r⟩ := hsame.rowAt_some hr
  have hframe : r₁.frame = r.frame := (congrArg PageTableLvl2.frame hr₁r :)
  rw [← hframe]
  exact avoids_swapFrameForPcb (forest_sameRows hf hsame) hr₁ pid os

/-- The frame that the selector answers is found, if the process can give up a page. -/
lemma Evictable.selects {rows : List PageTableLvl1} (he : Evictable c m rows) (hf : Forest c m)
    (hh : HandsIn c m) (hpos : 0 < totalRows c) {t : ℕ} (ht : m.table1 t = some rows) :
    ∃ m₁ p r, frameSelector c m t = some (m₁, r.frame) ∧ m₁.rowAt p = some r := by
  have hheld : ∃ m₁ f, frameSelector c m t = some (m₁, f) ∧
      ∃ p r, m.rowAt p = some r ∧ r.frame = f := by
    rcases frameSelector_cases hf he.small ht (hand_lt hh hpos) with
      ⟨m₁, j, f, hsel, r, hr, -, hframe⟩ | ⟨hstuck, m₁, f, hsel, hnone | ⟨r, hr, hframe⟩⟩
    · obtain ⟨p, -, hp⟩ := rowIx_eq_some_iff.mp hr
      exact ⟨m₁, f, hsel, p, r, hp, hframe⟩
    · subst hnone
      cases halg : c.algoritmoReemplazo with
      | clock =>
        -- the clock answers the frame of the row at its hand
        obtain ⟨hbig, hw⟩ := bigTable_of_forest hf he.small ht
        simp only [frameSelector, hand, halg] at hsel hstuck
        have hlt : m.clock < totalRows c := by
          have := hand_lt hh hpos
          simpa only [hand, halg] using this
        rcases clockSelector_cases hbig hw hlt halg with
          ⟨m₂, j, f, hsel', r, hr, -, hframe⟩ | ⟨-, m₂, r, hsel', hr⟩
        · obtain ⟨p, -, hp⟩ := rowIx_eq_some_iff.mp hr
          exact ⟨m₂, f, by simpa only [frameSelector, halg] using hsel', p, r, hp, hframe⟩
        · obtain ⟨p, -, hp⟩ := rowIx_eq_some_iff.mp hr
          exact ⟨m₂, r.frame, by simpa only [frameSelector, halg] using hsel', p, r, hp, rfl⟩
      | clockM =>
        obtain ⟨p, r, hr, hframe⟩ := he.taken halg hstuck
        exact ⟨m₁, invalidFrame, hsel, p, r, hr, hframe⟩
    · obtain ⟨p, -, hp⟩ := rowIx_eq_some_iff.mp hr
      exact ⟨m₁, f, hsel, p, r, hp, hframe⟩
  obtain ⟨m₁, f, hsel, p, r, hr, hframe⟩ := hheld
  obtain ⟨r₁, hr₁, hr₁r⟩ := (selected_frameSelector hsel).rows.rowAt_some hr
  have hframe₁ : r₁.frame = r.frame := (congrArg PageTableLvl2.frame hr₁r :)
  exact ⟨m₁, p, r₁, by rw [hframe₁, hframe, hsel], hr₁⟩

lemma avoids_evict (hf : Forest c m) (hh : HandsIn c m) (hd : c.maxRows ∣ bigRows c)
    (hpos : 0 < totalRows c) {t id : ℕ} {rows : List PageTableLvl1} (ht : m.table1 t = some rows)
    (hid : id ∈ secondPages rows) (he : Full c m id rows → Evictable c m rows) (pid : ℕ)
    (os : Os) : Avoids .tables (Blamed.evict c m id pid os) fun _ => True := by
  have hfull := shouldReplaceFrame_of_owner hf hd ht hid
  refine (avoids_orFail_some (Q := fun full => full = _) hfull rfl).bind fun full h => ?_
  split
  · have hle : c.marcosPorProceso ≤ framesInUse m rows := by simpa [h] using ‹full = true›
    obtain ⟨m₁, p, r, hsel, hr⟩ := (he ⟨⟨t, ht⟩, hid, hle⟩).selects hf hh hpos ht
    rw [getTableLvl1Number_eq hf ht hid]
    refine (avoids_orFail_some (Q := fun x => x = (m₁, r.frame)) hsel rfl).bind
      fun x hx => ?_
    subst hx
    have hsame := (selected_frameSelector hsel).rows
    exact avoids_replaceFrame (forest_sameRows hf hsame) hr pid os
  · exact trivial

lemma clearFrame_none (hf : Forest c m) (hpos : c.maxRows ≠ 0)
    (h : ∀ p r, m.rowAt p = some r → r.frame ≠ invalidFrame) :
    clearFrame c m (getTableLvl2Number m invalidFrame) invalidFrame = none := by
  have hnull : m.table2 invalidFrame = none := by
    rw [Memory.table2, slotGet, if_neg (by simp [invalidFrame, uint32Max, intBound])]
  rw [getTableLvl2Number_none hf h]
  simp only [clearFrame, hnull, if_neg hpos]

/-- Otherwise the eviction reads a pointer behind the big table, or looks the frame up in a table
that does not exist. -/
lemma evict_error (hf : Forest c m) (hh : HandsIn c m) (hd : c.maxRows ∣ bigRows c)
    (hpos : 0 < c.maxRows) {t id : ℕ} {rows : List PageTableLvl1} (ht : m.table1 t = some rows)
    (hfull : Full c m id rows) (he : ¬ Evictable c m rows) (pid : ℕ) (os : Os) :
    Blamed.evict c m id pid os = .error .tables := by
  have hid := hfull.references
  have hshould := shouldReplaceFrame_of_owner hf hd ht hid
  rw [decide_eq_true hfull.full] at hshould
  rw [Blamed.evict, orFail_bind_some hshould, if_pos rfl, getTableLvl1Number_eq hf ht hid]
  by_cases hsmall : c.maxRows < 2 ^ 16
  · obtain ⟨halg, hstuck, hnone⟩ : c.algoritmoReemplazo = .clockM ∧
        Stuck c (rowRefs c rows) (hand c m) m ∧
        ∀ p r, m.rowAt p = some r → r.frame ≠ invalidFrame := by
      by_contra hcon
      refine he ⟨hsmall, fun halg hstuck => ?_⟩
      by_contra hno
      exact hcon ⟨halg, hstuck, fun p r hr hframe => hno ⟨p, r, hr, hframe⟩⟩
    obtain ⟨hbig, hw⟩ := bigTable_of_forest hf hsmall ht
    have hlt := hand_lt hh (Nat.mul_pos hpos hpos)
    simp only [hand, halg] at hlt hstuck
    obtain ⟨m₁, hsel⟩ := improvedClockSelector_stuck hbig hw hlt fun j r hr hpres => by
      obtain ⟨hne, hhard⟩ := hstuck j r hr hpres
      simp only [hard, halg, Bool.and_eq_true] at hhard
      exact ⟨hne, hhard⟩
    have hsel' : frameSelector c m t = some (m₁, invalidFrame) := by
      simp only [frameSelector, halg, hsel]
    have hsame := (selected_frameSelector hsel').rows
    have hclear : clearFrame c m₁ (getTableLvl2Number m₁ invalidFrame) invalidFrame = none := by
      refine clearFrame_none (forest_sameRows hf hsame) (by omega) fun p r₁ hr₁ => ?_
      obtain ⟨r, hr, hrr₁⟩ := hsame.symm.rowAt_some hr₁
      have hframe : r.frame = r₁.frame := (congrArg PageTableLvl2.frame hrr₁ :)
      rw [← hframe]
      exact hnone p r hr
    rw [orFail_bind_some hsel']
    exact orFail_bind_none hclear _ _
  · exact orFail_bind_none (frameSelector_none (bigTableOf_none hf ht hsmall)) _ _

/-! ### A request for a frame -/

lemma sameRows_evicted_of_blamed {id pid : ℕ} {os : Os}
    (h : Avoids .tables (Blamed.evict c m id pid os) fun _ => True) :
    Avoids .tables (Blamed.evict c m id pid os) (SameRows evicted m) :=
  h.of_toOption fun _ h' => sameRows_evict ((toOption_evict c m id pid os).symm.trans h')

/-- The row that faults is there, so what is mapped or loaded is found. -/
lemma avoids_allocate (hf : Forest c m) {p : RowRef} {r : PageTableLvl2} (hr : m.rowAt p = some r)
    (pid newFrame : ℕ) (os : Os) :
    Avoids .tables (Blamed.allocate c m p.1 p.2 pid newFrame os) fun _ => True := by
  refine (avoids_orFail_some (Q := fun row => row = r) hr rfl).bind fun row hrow => ?_
  subst hrow
  split
  · obtain ⟨m₁, i, h₁⟩ := createFrameForTable_isSome (c := c) hr newFrame
    exact (avoids_orFail_some (Q := fun _ => True) h₁ trivial).bind fun _ _ => trivial
  · refine (avoids_orFail (by decide) fun m₁ h₁ => deleteFrame_eq h₁).bind fun m₁ h₁ => ?_
    obtain ⟨frames, rfl, -, -⟩ := h₁
    have hf₁ : Forest c { m with frames } := ⟨hf.1, hf.2, hf.3, hf.4, hf.5, hf.6, hf.7⟩
    have hr₁ : Memory.rowAt { m with frames } p = some row := hr
    refine ((avoids_unswapFrameForPcb hf₁ hr₁ pid os).of_toOption fun m₂ h₂ =>
      sameRows_unswapFrameForPcb
        ((toOption_unswapFrameForPcb c _ pid row.frame os).symm.trans h₂)).bind
        fun m₂ hsame => ?_
    obtain ⟨r₂, hr₂, -⟩ := hsame.rowAt_some hr₁
    refine avoids_orFail_some (a := m₂.setRow p { r₂ with use := true }) ?_ trivial
    have hr₂' : m₂.rowAt (p.1, p.2) = some r₂ := hr₂
    simp only [Memory.modifyRow, hr₂', Option.bind_eq_bind, Option.bind_some, Option.pure_def]

def RowServed (c : Cfg) (m : Memory) (id : ℕ) (r : PageTableLvl2) : Prop :=
  r.present = false → ∀ rows, Full c m id rows → Evictable c m rows

lemma avoids_obtainFrame (hs : Served c m) {p : RowRef} {r : PageTableLvl2}
    (hr : m.rowAt p = some r) (hserved : RowServed c m p.1 r) (pid : ℕ) (os os' : Os) :
    Avoids .tables (Blamed.obtainFrame c m p.1 p.2 pid os os') fun _ => True := by
  unfold Blamed.obtainFrame
  split
  · exact trivial
  refine (avoids_orFail_some (Q := fun row => row = r) hr rfl).bind fun row hrow => ?_
  subst hrow
  split
  · exact trivial
  rename_i habs
  obtain ⟨frames, hfind⟩ : ∃ frames, (findFreeFrame m).1 = { m with frames } :=
    findFreeFrame_fields (Prod.mk.eta (p := findFreeFrame m)).symm
  have hf : Forest c m := hs.mapped.forest
  have hf₁ : Forest c { m with frames } := ⟨hf.1, hf.2, hf.3, hf.4, hf.5, hf.6, hf.7⟩
  obtain ⟨table, ht2, -⟩ := Memory.rowAt_eq_some_iff.mp hr
  obtain ⟨t, rows, ht, hid⟩ := hs.owned p.1 (by rw [ht2]; rfl)
  have hpos : 0 < c.maxRows := Nat.zero_lt_of_lt (hf.col_lt hr)
  have hevict := avoids_evict hf₁ (m := { m with frames }) ⟨hs.hands.clock, hs.hands.improvedClock⟩
    (hs.printable t rows ht) (Nat.mul_pos hpos hpos) ht hid (fun hfull => by
      obtain ⟨hsmall, htaken⟩ := hserved (by simpa using habs) rows
        ⟨hfull.owner, hfull.references, hfull.full⟩
      exact ⟨hsmall, htaken⟩) pid os
  unfold Blamed.pageFault
  rw [← hfind] at hevict hf₁
  refine (sameRows_evicted_of_blamed hevict).bind fun m₂ hsame => ?_
  have hr₁ : (findFreeFrame m).1.rowAt p = some row := by
    rw [hfind]
    exact hr
  obtain ⟨r₂, hr₂, -⟩ := hsame.rowAt_some hr₁
  exact (avoids_allocate (forest_sameRows hf₁ hsame) hr₂ pid _ os').bind fun _ _ => trivial

lemma obtainFrame_error (hs : Served c m) {id index : ℕ} (hle : ¬ index > c.maxRows)
    (h : ∀ r, m.rowAt (id, index) = some r → ¬ RowServed c m id r) (pid : ℕ) (os os' : Os) :
    Blamed.obtainFrame c m id index pid os os' = .error .tables := by
  unfold Blamed.obtainFrame
  rw [if_neg hle]
  cases hr : m.rowAt (id, index) with
  | none => rfl
  | some r =>
    obtain ⟨habs, rows, hfull, he⟩ : r.present = false ∧
        ∃ rows, Full c m id rows ∧ ¬ Evictable c m rows := by
      have hnot := h r hr
      simp only [RowServed, not_forall] at hnot
      obtain ⟨habs, rows, hfull, he⟩ := hnot
      exact ⟨habs, rows, hfull, he⟩
    obtain ⟨frames, hfind⟩ : ∃ frames, (findFreeFrame m).1 = { m with frames } :=
      findFreeFrame_fields (Prod.mk.eta (p := findFreeFrame m)).symm
    have hf : Forest c m := hs.mapped.forest
    have hf₁ : Forest c { m with frames } := ⟨hf.1, hf.2, hf.3, hf.4, hf.5, hf.6, hf.7⟩
    have hpos : 0 < c.maxRows := Nat.zero_lt_of_lt (hf.col_lt hr)
    obtain ⟨t, ht⟩ := hfull.owner
    have hevict := evict_error (m := { m with frames }) hf₁
      ⟨hs.hands.clock, hs.hands.improvedClock⟩ (hs.printable t rows ht) hpos ht
      ⟨hfull.owner, hfull.references, hfull.full⟩ (fun he' => he ⟨he'.small, he'.taken⟩) pid os
    rw [← hfind] at hevict
    rw [orFail_bind_some rfl, habs, if_neg (by decide), Blamed.pageFault]
    simp only [hevict]
    rfl

/-! ### Every request -/

/-- What a request that walks the tables promises: no table or row is accessed that does not
exist, and a request for one is answered `UINT32_MAX` and changes nothing. -/
def Validates (c : Cfg) (m : Memory) : Request → Prop
  | .sndPage op1 op2 => ∃ reply, routine c m (.sndPage op1 op2) = some (m, some reply) ∧
      (m.table1 op1.toNat = none → reply = uint32Max)
  | .frame pid op1 op2 os os' =>
      Blamed.obtainFrame c m op1.toNat op2.toNat pid.toNat os os' ≠ .error .tables ∧
      (m.table2 op1.toNat = none ∨ c.maxRows ≤ op2.toNat →
        routine c m (.frame pid op1 op2 os os') = some (m, some uint32Max))
  | _ => True

/-- The condition on a request. A first-level table has to exist, unless tables have no rows. A
row has to exist, unless its index is above `max_rows`; and if its page faults in a process that
has all its frames in use, one of its pages has to be evictable. -/
def Sound (c : Cfg) (m : Memory) : Request → Prop
  | .sndPage op1 _ => c.maxRows = 0 ∨ (m.table1 op1.toNat).isSome
  | .frame _ op1 op2 _ _ => op2.toNat > c.maxRows ∨
      ∃ r, m.rowAt (op1.toNat, op2.toNat) = some r ∧ RowServed c m op1.toNat r
  | _ => True

lemma sendPage_of_table (hs : Served c m) {id : ℕ} {rows : List PageTableLvl1}
    (ht : m.table1 id = some rows) (index : ℕ) :
    ∃ reply, cpuControllerSendPageSecondLevel c m id index = some reply := by
  have hprint := hs.mapped.forest.printTable_eq (hs.printable id rows ht) ht
  simp only [cpuControllerSendPageSecondLevel, hprint, Option.bind_eq_bind, Option.bind_some]
  generalize hi : (if index ≥ c.maxRows then (c.maxRows + 2 ^ 32 - 1) % 2 ^ 32 else index) = i
  unfold obtainSecondPage
  split
  · exact ⟨_, rfl⟩
  · rename_i hle
    -- the index was clamped, so the row is there
    have hlt : i < rows.length := by
      rw [hs.mapped.forest.rows1 id rows ht]
      have hn : c.maxRows < 2 ^ 31 := c.entradasPorTabla_lt
      split at hi <;> omega
    simp only [ht, List.getElem?_eq_getElem hlt, Option.bind_eq_bind, Option.bind_some]
    exact ⟨_, rfl⟩

lemma sendPage_of_missing {id : ℕ} (ht : m.table1 id = none) (index : ℕ) :
    cpuControllerSendPageSecondLevel c m id index =
      if c.maxRows = 0 then some uint32Max else none := by
  simp only [cpuControllerSendPageSecondLevel, printTable, createBigTable, ht,
    Option.bind_eq_bind, Option.bind_some]
  by_cases hpos : c.maxRows = 0
  · -- there is no pointer to print, and no index is in range
    have hbig : bigRows c = 0 := by simp [bigRows, hpos]
    rw [if_pos hpos, if_pos hbig, Option.bind_some, obtainSecondPage, hpos, if_pos (by simp)]
  rw [if_neg hpos]
  by_cases hbig : bigRows c = 0
  · -- the printer prints nothing, and the row is read from the table that is not there
    have hn : c.maxRows < 2 ^ 31 := c.entradasPorTabla_lt
    rw [if_pos hbig, Option.bind_some, obtainSecondPage, if_neg (by split <;> omega), ht]
    rfl
  · rw [if_neg hbig]
    rfl

/-- **Main result.** In every reachable state a request is validated exactly when the condition
holds. -/
theorem validates_iff (c : Cfg) (heap : ℕ → UInt8) (m : Memory)
    (hm : Reachable (step c) (onInitMemory c heap) m) (req : Request) :
    Validates c m req ↔ Sound c m req := by
  have hs := served_of_reachable hm
  cases req with
  | sndPage op1 op2 =>
    simp only [Validates, Sound, routine]
    cases ht : m.table1 op1.toNat with
    | none =>
      rw [sendPage_of_missing ht]
      by_cases hpos : c.maxRows = 0 <;> simp [hpos]
    | some rows =>
      obtain ⟨reply, hreply⟩ := sendPage_of_table hs ht op2.toNat
      simp [hreply]
  | frame pid op1 op2 os os' =>
    constructor
    · rintro ⟨hne, -⟩
      by_contra hnot
      simp only [Sound, not_or, not_exists, not_and] at hnot
      exact hne (obtainFrame_error hs hnot.1 hnot.2 _ _ _)
    · rintro (hgt | ⟨r, hr, hserved⟩)
      · have hblame : Blamed.obtainFrame c m op1.toNat op2.toNat pid.toNat os os' =
            .ok (m, uint32Max) := by
          rw [Blamed.obtainFrame, if_pos hgt]
          rfl
        refine ⟨by simp [hblame], fun _ => ?_⟩
        simp only [routine, cpuControllerSendFrame, obtainFrame, if_pos hgt, Option.bind_eq_bind,
          Option.pure_def, Option.bind_some]
      · refine ⟨(avoids_obtainFrame hs hr hserved _ _ _).ne_error, ?_⟩
        obtain ⟨table, ht, hget⟩ := Memory.rowAt_eq_some_iff.mp hr
        have hlen := hs.mapped.forest.rows2 _ _ ht
        have hlt := (List.getElem?_eq_some_iff.mp hget).1
        rintro (hnone | hge)
        · simp [hnone] at ht
        · simp only at hlt
          omega
  | memoryInit pid pcbSize os => exact Iff.rfl
  | rd physicalAddress => exact Iff.rfl
  | wt physicalAddress value => exact Iff.rfl
  | processTerminated pcbId tableId => exact Iff.rfl

set_option maxRecDepth 40000 in
/-- The first process has two level-2 tables of two rows each: the index two is let through. -/
theorem validates_iff_maxRows : ∃ m,
    run (step smallCfg) (onInitMemory smallCfg fun _ => 0) [.memoryInit 1 64 goodOs] = some m ∧
    Validates smallCfg m (.frame 1 0 1 goodOs goodOs) ∧
    ¬ Validates smallCfg m (.frame 1 0 2 goodOs goodOs) := by
  refine ⟨_, rfl, ?_, ?_⟩
  · exact (validates_iff smallCfg (fun _ => 0) _ ⟨[.memoryInit 1 64 goodOs], rfl⟩ _).mpr
      (.inr ⟨_, rfl, fun _ rows _ => ⟨by decide, fun halg => by cases halg⟩⟩)
  · rw [validates_iff smallCfg (fun _ => 0) _ ⟨[.memoryInit 1 64 goodOs], rfl⟩]
    rintro (hgt | ⟨r, hr, -⟩)
    · exact absurd hgt (by decide)
    · cases hr

/-- The module does not validate every request: it looks a table up before any was created. -/
theorem not_validates : ¬ ∀ (c : Cfg) (heap : ℕ → UInt8) (m : Memory),
    Reachable (step c) (onInitMemory c heap) m → ∀ req, Validates c m req := by
  intro h
  obtain ⟨reply, hreply, -⟩ := h smallCfg (fun _ => 0) (onInitMemory smallCfg fun _ => 0)
    (.refl _) (.sndPage 0 0)
  have hmissing : cpuControllerSendPageSecondLevel smallCfg (onInitMemory smallCfg fun _ => 0)
      (0 : UInt32).toNat (0 : UInt32).toNat = none := sendPage_of_missing rfl _
  simp only [routine, hmissing] at hreply
  cases hreply

end Sski.Mem.Validation
