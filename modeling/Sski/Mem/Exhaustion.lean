import Sski.Mem.Suspension

/-!
What a page fault does when every frame is in use.

`obtain_frame` logs that no frame is free and goes on with `UINT32_MAX` as the new one. A page
that never had a frame is mapped on it. A page that was swapped out goes back to its old frame,
but `UINT32_MAX` is answered. Nothing changes only where the page cannot be loaded, no other page
had to go, and the use bit of the row was set before.
-/

namespace Sski.Mem.Exhaustion

open Sski.Lib.Runs Sski.Lib.Ring Sski.Wire.Pcbs Sski.Mem.MemoryModule Sski.Mem.PageTable
open Sski.Mem.OsMemory Sski.Mem.Swap Sski.Mem.Algorithms Sski.Mem.CpuController
open Sski.Mem.KernelController Sski.Mem.Locality
open Sski.Mem.Tables Sski.Mem.Rows Sski.Mem.Frames Sski.Mem.Selection Sski.Mem.Resident
open Sski.Mem.SwapFile Sski.Mem.SwapRoom Sski.Mem.SecondChance Sski.Mem.Faults Sski.Mem.Validation
open Sski.Mem.PageFault Sski.Mem.Suspension

variable {c : Cfg} {m m' : Memory}

/-- What the module is asked: a request, or a process is put away, or brought back. -/
inductive Event where
  | request (req : Request)
  | swapPcb (block : Pcb) (pcbStream : List UInt8) (os : Os)
  | retrieveSwappedPcb (pcbId : UInt32) (os : Os) (blocks : ℕ → ℕ → UInt8)

def serve (c : Cfg) (m : Memory) : Event → Option Memory
  | .request req => step c m req
  | .swapPcb block pcbStream os => kernelControllerSwap m block pcbStream os
  | .retrieveSwappedPcb pcbId os blocks => kernelControllerReadSwap c m pcbId.toNat os blocks

/-- A row that is not present is asked for, and no frame is free. -/
def Starved (m : Memory) : Event → Prop
  | .request (.frame _ op1 op2 _ _) =>
    (∃ r, m.rowAt (op1.toNat, op2.toNat) = some r ∧ r.present = false) ∧ false ∉ m.frames
  | _ => False

/-- The page tables, the frame bitmap and the swap store are as they were. -/
structure Unchanged (m m' : Memory) : Prop where
  tablesLvl1 : m'.tablesLvl1 = m.tablesLvl1
  tablesLvl2 : m'.tablesLvl2 = m.tablesLvl2
  frames : m'.frames = m.frames
  swapData : m'.swapData = m.swapData
  files : m'.files = m.files

/-- The frame that is answered is that of the row, which is present; or none is, and nothing was
changed. -/
def Atomic (c : Cfg) (m : Memory) : Event → Prop
  | .request (.frame pid op1 op2 os os') => ∃ m' f,
    obtainFrame c m op1.toNat op2.toNat pid.toNat os os' = some (m', f) ∧
      ((f < c.noOfFrames ∧
        ∃ r, m'.rowAt (op1.toNat, op2.toNat) = some r ∧ r.present = true ∧ r.frame = f) ∨
      (f = uint32Max ∧ Unchanged m m'))
  | _ => True

/-- The swap file does not open, or it is there and is not mapped. -/
def CannotLoad (m : Memory) (pid : ℕ) (os : Os) : Prop :=
  os.opens = false ∨ (m.files pid).isSome ∧
    ∃ i d, getSwapDataForPcb m pid = some (i, d) ∧ mapFails os d.size = true

/-- The condition on a starved request: the page was swapped out and cannot be loaded, the use
bit of its row is set, and its process does not have all its frames in use. -/
def Spared (c : Cfg) (m : Memory) : Event → Prop
  | .request (.frame pid op1 op2 _ os') => ∃ r, m.rowAt (op1.toNat, op2.toNat) = some r ∧
    r.frame ≠ invalidFrame ∧ r.use = true ∧ (∀ rows, ¬ Full c m op1.toNat rows) ∧
      CannotLoad m pid.toNat os'
  | _ => True

/-! ### What a spared request does -/

lemma findFreeFrame_full (hfull : false ∉ m.frames) : findFreeFrame m = (m, uint32Max) := by
  cases hfind : findFreeFrame m with
  | mk m₁ f =>
    rcases findFreeFrame_cases hfind with ⟨hget, -⟩ | ⟨rfl, -, rfl⟩
    · exact absurd (List.mem_of_getElem? hget) hfull
    · rfl

lemma deleteFrame_uint32Max (c : Cfg) (m : Memory) : deleteFrame c m uint32Max = some m := by
  have hlt := c.noOfFrames_lt
  rw [deleteFrame, if_neg]
  unfold invalidFrame at hlt
  omega

lemma obtainFrame_of_absent (hf : Forest c m) {p : RowRef} {r : PageTableLvl2}
    (hr : m.rowAt p = some r) (habs : r.present = false) (pid : ℕ) (os os' : Os) :
    obtainFrame c m p.1 p.2 pid os os' = pageFault c m p.1 p.2 pid os os' := by
  have hlt := hf.col_lt hr
  have hr' : m.rowAt (p.1, p.2) = some r := hr
  simp only [obtainFrame, if_neg (show ¬ p.2 > c.maxRows by omega), hr', Option.bind_eq_bind,
    Option.bind_some, habs]
  rfl

lemma unswapFrameForPcb_of_cannotLoad {pid : ℕ} {os : Os} (h : CannotLoad m pid os)
    (frame : ℕ) : unswapFrameForPcb c m pid frame os = some m := by
  rcases h with hopens | ⟨hfile, i, d, hd, hmap⟩
  · simp [unswapFrameForPcb, openFile, hopens]
  · obtain ⟨file, hfile⟩ := Option.isSome_iff_exists.mp hfile
    cases hopens : os.opens with
    | false => simp [unswapFrameForPcb, openFile, hopens]
    | true =>
      have hself : setFile m pid (some file) = m := hfile ▸ setFile_self m pid
      simp only [unswapFrameForPcb, openFile, hopens, if_true, hfile, Option.getD_some, hself, hd,
        Option.bind_eq_bind, Option.bind_some, hmap]

lemma evict_of_not_full (hs : Served c m) {id : ℕ} (hlive : (m.table2 id).isSome)
    (hfull : ∀ rows, ¬ Full c m id rows) (pid : ℕ) (os : Os) : evict c m id pid os = some m := by
  obtain ⟨t, rows, ht, hid⟩ := hs.owned id hlive
  have hshould := shouldReplaceFrame_of_owner hs.mapped.forest (hs.printable t rows ht) ht hid
  rw [decide_eq_false fun hle => hfull rows ⟨⟨t, ht⟩, hid, hle⟩] at hshould
  simp [evict, hshould]

lemma obtainFrame_spared (hs : Served c m) {p : RowRef} {r : PageTableLvl2}
    (hr : m.rowAt p = some r) (habs : r.present = false) (hnone : false ∉ m.frames)
    (hvalid : r.frame ≠ invalidFrame) (huse : r.use = true)
    (hfull : ∀ rows, ¬ Full c m p.1 rows) {pid : ℕ} {os' : Os} (hload : CannotLoad m pid os')
    (os : Os) : obtainFrame c m p.1 p.2 pid os os' = some (m, uint32Max) := by
  obtain ⟨table, ht, -⟩ := Memory.rowAt_eq_some_iff.mp hr
  have hevict := evict_of_not_full hs (by rw [ht]; rfl) hfull pid os
  have hr' : m.rowAt (p.1, p.2) = some r := hr
  have hself : m.modifyRow (p.1, p.2) (fun row => { row with use := true }) = some m := by
    have hsame : ({ r with use := true } : PageTableLvl2) = r := by rw [← huse]
    simp only [Memory.modifyRow, hr', Option.bind_eq_bind, Option.bind_some, hsame,
      Memory.setRow_self _ hr', Option.pure_def]
  rw [obtainFrame_of_absent hs.mapped.forest hr habs]
  simp only [pageFault, findFreeFrame_full hnone, hevict, allocate, hr', if_neg hvalid,
    deleteFrame_uint32Max, unswapFrameForPcb_of_cannotLoad hload, hself, Option.bind_eq_bind,
    Option.bind_some, Option.pure_def]

/-! ### Well-formed states -/

lemma stores_wellFormed (hw : WellFormed c m) {mainMemory : List UInt8}
    (hlen : mainMemory.length = m.mainMemory.length) (swapData : List SwapData)
    (files : ℕ → Option (List UInt8)) :
    WellFormed c { m with mainMemory, swapData, files } := by
  have hs := hw.served
  refine ⟨⟨hs.mapped.sameRows ?_, ⟨hs.hands.clock, hs.hands.improvedClock⟩, hs.owned,
    hs.printable⟩, hlen.trans hw.main, hw.framed⟩
  exact .of_eq _ rfl rfl rfl

lemma kernelControllerSwap_fields {block : Pcb} {pcbStream : List UInt8} {os : Os}
    (h : kernelControllerSwap m block pcbStream os = some m') : ∃ files, m' = { m with files } := by
  simp only [kernelControllerSwap, Option.bind_eq_bind, Option.bind_eq_some_iff] at h
  obtain ⟨pcb, -, h⟩ := h
  split at h
  · obtain rfl := Option.some.inj h
    exact ⟨_, rfl⟩
  · rename_i m₁ file hopen
    obtain ⟨-, rfl, rfl⟩ := openFile_eq hopen
    split at h
    · obtain rfl := Option.some.inj h
      exact ⟨_, rfl⟩
    · simp only [Option.bind_eq_some_iff, Option.pure_def, Option.some.injEq] at h
      obtain ⟨bytes, -, region, -, rfl⟩ := h
      exact ⟨_, rfl⟩

lemma unswapRecord_fields {k i : ℕ} {region : List UInt8} {os : Os}
    (h : unswapRecord c m k region os i = some m') :
    ∃ mainMemory swapData, m' = { m with mainMemory, swapData } ∧
      mainMemory.length = m.mainMemory.length := by
  simp only [unswapRecord, Option.bind_eq_bind, Option.bind_eq_some_iff] at h
  obtain ⟨word, -, ref, -, p, -, frameRef, -, h⟩ := h
  split at h
  · simp only [loadPage, Option.bind_eq_bind, Option.bind_eq_some_iff, Option.pure_def,
      Option.some.injEq] at h
    obtain ⟨saved, -, frameData, -, mainMemory, hpoke, rfl⟩ := h
    exact ⟨mainMemory, _, rfl, Sski.Lib.Block.length_of_poke hpoke⟩
  · obtain rfl := Option.some.inj h
    exact ⟨_, _, rfl, rfl⟩

lemma unswapRecords_fields {k fuel i n : ℕ} {region : List UInt8} {os : Os}
    {blocks : ℕ → ℕ → UInt8}
    (h : unswapRecords c k region os blocks fuel m i = some (m', n)) :
    ∃ mainMemory swapData, m' = { m with mainMemory, swapData } ∧
      mainMemory.length = m.mainMemory.length := by
  induction fuel generalizing m i with
  | zero => cases h
  | succ fuel ih =>
    rw [unswapRecords] at h
    split at h
    · simp only [Option.bind_eq_bind, Option.bind_eq_some_iff] at h
      obtain ⟨m₁, h₁, h⟩ := h
      obtain ⟨mainMemory₁, swapData₁, rfl, hlen₁⟩ := unswapRecord_fields h₁
      obtain ⟨mainMemory, swapData, rfl, hlen⟩ := ih h
      exact ⟨mainMemory, swapData, rfl, hlen.trans hlen₁⟩
    · obtain ⟨rfl, -⟩ := Prod.mk.inj (Option.some.inj h)
      exact ⟨_, _, rfl, rfl⟩

lemma kernelControllerReadSwap_fields {pcbId : ℕ} {os : Os} {blocks : ℕ → ℕ → UInt8}
    (h : kernelControllerReadSwap c m pcbId os blocks = some m') :
    ∃ mainMemory swapData files, m' = { m with mainMemory, swapData, files } ∧
      mainMemory.length = m.mainMemory.length := by
  simp only [kernelControllerReadSwap, unswapPcb] at h
  split at h
  · obtain rfl := Option.some.inj h
    exact ⟨_, _, _, rfl, rfl⟩
  · rename_i m₁ file hopen
    obtain ⟨-, rfl, rfl⟩ := openFile_eq hopen
    simp only [Option.bind_eq_bind, Option.bind_eq_some_iff] at h
    obtain ⟨⟨k, d⟩, -, h⟩ := h
    split at h
    · obtain rfl := Option.some.inj h
      exact ⟨_, _, _, rfl, rfl⟩
    · simp only [Option.bind_eq_some_iff, Option.pure_def, Option.some.injEq] at h
      obtain ⟨⟨m₂, n⟩, hloop, rfl⟩ := h
      obtain ⟨mainMemory, swapData, rfl, hlen⟩ := unswapRecords_fields hloop
      exact ⟨_, _, _, rfl, hlen⟩

/-- What every request keeps, spared or not. -/
lemma serve_mapped (hm : Mapped c m) (hmain : m.mainMemory.length = c.tamMemoria) {e : Event}
    (h : serve c m e = some m') : Mapped c m' ∧ m'.mainMemory.length = c.tamMemoria := by
  cases e with
  | request req => exact ⟨hm.step h, (length_step hm.forest h).trans hmain⟩
  | swapPcb block pcbStream os =>
    obtain ⟨files, rfl⟩ := kernelControllerSwap_fields h
    exact ⟨hm.sameRows (.of_eq _ rfl rfl rfl), hmain⟩
  | retrieveSwappedPcb pcbId os blocks =>
    obtain ⟨mainMemory, swapData, files, rfl, hlen⟩ := kernelControllerReadSwap_fields h
    exact ⟨hm.sameRows (.of_eq _ rfl rfl rfl), hlen.trans hmain⟩

/-- A frame is free, or the request is spared and changes nothing. -/
lemma serve_wellFormed (hw : WellFormed c m) {e : Event} (hspared : Starved m e → Spared c m e)
    (h : serve c m e = some m') : WellFormed c m' := by
  cases e with
  | swapPcb block pcbStream os =>
    obtain ⟨files, rfl⟩ := kernelControllerSwap_fields h
    exact stores_wellFormed hw rfl _ _
  | retrieveSwappedPcb pcbId os blocks =>
    obtain ⟨mainMemory, swapData, files, rfl, hlen⟩ := kernelControllerReadSwap_fields h
    exact stores_wellFormed hw hlen _ _
  | request req =>
    by_cases hstarved : Starved m (.request req)
    · cases req with
      | frame pid op1 op2 os os' =>
        obtain ⟨r, hr, hvalid, huse, hfull, hload⟩ := hspared hstarved
        obtain ⟨⟨r₀, hr₀, habs⟩, hnone⟩ := hstarved
        obtain rfl : r₀ = r := by simpa [hr₀] using hr
        obtain ⟨f, h⟩ := step_frame h
        rw [obtainFrame_spared hw.served hr habs hnone hvalid huse hfull hload] at h
        obtain ⟨rfl, -⟩ := Prod.mk.inj (Option.some.inj h)
        exact hw
      | memoryInit | sndPage | rd | wt | processTerminated => exact absurd hstarved id
    · refine hw.step ?_ h
      cases req with
      | frame pid op1 op2 os os' =>
        intro hfault
        by_contra hnone
        refine hstarved ⟨?_, hnone⟩
        cases hr : m.rowAt (op1.toNat, op2.toNat) with
        | none => simp [faults, hr] at hfault
        | some r =>
          have hrow : op2.toNat ≤ c.maxRows ∧ r.present = false := by
            simpa [faults, hr] using hfault
          exact ⟨r, rfl, hrow.2⟩
      | memoryInit | sndPage | rd | wt | processTerminated => trivial

/-! ### What an eviction leaves behind -/

lemma present_of_framesInUse {rows : List PageTableLvl1} (h : 0 < framesInUse m rows) :
    ∃ q r, q.1 ∈ secondPages rows ∧ m.rowAt q = some r ∧ r.present = true := by
  obtain ⟨n, hn, hpos⟩ := List.exists_lt_of_sum_lt (l := rows) (f := fun _ => 0)
    (g := fun row => ((m.table2 row.secondPage).getD []).countP PageTableLvl2.present)
    (by simpa [framesInUse] using h)
  obtain ⟨r, hmem, hp⟩ := List.countP_pos_iff.mp hpos
  cases ht : m.table2 n.secondPage with
  | none => simp [ht] at hmem
  | some table =>
    rw [ht, Option.getD_some] at hmem
    obtain ⟨i, hi⟩ := List.mem_iff_getElem?.mp hmem
    exact ⟨(n.secondPage, i), r, List.mem_map_of_mem hn,
      Memory.rowAt_eq_some_iff.mpr ⟨table, ht, hi⟩, hp⟩

/-- A selector that is stuck has taken the use bit off every present row. -/
lemma unused_of_stuck (hf : Forest c m) (hn : c.maxRows < 2 ^ 16) {t f : ℕ}
    {rows : List PageTableLvl1} (ht : m.table1 t = some rows) (hhand : hand c m < totalRows c)
    (hstuck : Stuck c (rowRefs c rows) (hand c m) m) {m₁ : Memory}
    (h : frameSelector c m t = some (m₁, f)) {j : ℕ} {r r₁ : PageTableLvl2}
    (hr : rowIx (rowRefs c rows) m j = some r) (hp : r.present = true)
    (hr₁ : rowIx (rowRefs c rows) m₁ j = some r₁) : r.use = true ∧ r₁.use = false := by
  obtain ⟨hbig, hw⟩ := bigTable_of_forest hf hn ht
  have hlt : ∀ {i : ℕ} {s : PageTableLvl2}, rowIx (rowRefs c rows) m i = some s →
      i < totalRows c := fun hs => hw.length ▸ rowIx_lt hs
  cases halg : c.algoritmoReemplazo with
  | clock =>
    simp only [hand, halg] at hhand
    simp only [Stuck, hand, hard, halg] at hstuck
    simp only [frameSelector, halg] at h
    refine ⟨(hstuck j r hr hp).2, ?_⟩
    obtain ⟨m₂, f₂, hsel, ⟨i, htaken, -⟩ | ⟨-, -, -, huse⟩⟩ := clockSelector_eq hbig hw hhand
    · rw [codeClock_of_stuck hhand fun i _ hp => hstuck i _ (rowIx_of_present hp) hp] at htaken
      cases htaken
    · obtain ⟨rfl, -⟩ := Prod.mk.inj (Option.some.inj (hsel.symm.trans h))
      have hj := huse j (hlt hr)
      rw [tableOf_eq hr₁] at hj
      rw [hj, decide_eq_false (hstuck j r hr hp).1]
  | clockM =>
    simp only [hand, halg] at hhand
    simp only [Stuck, hand, hard, halg, Bool.and_eq_true] at hstuck
    simp only [frameSelector, halg] at h
    refine ⟨(hstuck j r hr hp).2.1, ?_⟩
    obtain ⟨m₂, f₂, hsel, htable, -⟩ := improvedClockSelector_eq hbig hw hhand
    obtain ⟨rfl, -⟩ := Prod.mk.inj (Option.some.inj (hsel.symm.trans h))
    have hhard : ∀ i, (tableOf (rowRefs c rows) m i).present = true →
        i ≠ m.improvedClock ∧ (tableOf (rowRefs c rows) m i).use = true ∧
          (tableOf (rowRefs c rows) m i).modified = true :=
      fun i hp => hstuck i _ (rowIx_of_present hp) hp
    rw [(passes_of_used hhand fun i _ hp => (hhard i hp).2.1).1,
      if_neg fun hand => (hhard _ hand.1).1 rfl] at htable
    -- every present row is modified, so the last pass finds none either
    rw [look_never_of_miss (nodup_ring _ _) fun i _ => ?_] at htable
    · have hj : j ∈ presentRing (totalRows c) m.improvedClock (tableOf (rowRefs c rows) m) :=
        (mem_presentRing hhand).mpr ⟨hlt hr, by rw [tableOf_eq hr, hp]⟩
      rw [← tableOf_eq hr₁, htable, allCleared_use hj]
    · cases hpi : (tableOf (rowRefs c rows) m i).present with
      | false => simp [hits, hpi]
      | true => simp [hits, notUsedClean, (hhard i hpi).2.2]

lemma replaceFrame_unused {pid frame : ℕ} {os : Os} (h : replaceFrame c m pid frame os = some m')
    {p : RowRef} {r : PageTableLvl2} (hr : m.rowAt p = some r) (huse : r.use = false) :
    ∃ r', m'.rowAt p = some r' ∧ r'.use = false := by
  simp only [replaceFrame, Option.bind_eq_bind, Option.bind_eq_some_iff] at h
  obtain ⟨m₁, h₁, h⟩ := h
  obtain ⟨r₁, hr₁, huse₁⟩ : ∃ r₁, m₁.rowAt p = some r₁ ∧ r₁.use = false := by
    obtain ⟨table, ht, hget⟩ := Memory.rowAt_eq_some_iff.mp hr
    have hrows := clearFrame_rows h₁ p.1
    rw [ht] at hrows
    split at hrows
    · refine ⟨_, Memory.rowAt_eq_some_iff.mpr ⟨_, hrows, by rw [List.getElem?_map, hget]; rfl⟩, ?_⟩
      dsimp only
      split
      · rfl
      · exact huse
    · exact ⟨r, Memory.rowAt_eq_some_iff.mpr ⟨_, hrows, hget⟩, huse⟩
  obtain ⟨r', hr', hsame⟩ := (sameRows_swapFrameForPcb h).rowAt_some hr₁
  have hsame' : r'.use = r₁.use := (congrArg PageTableLvl2.use hsame :)
  exact ⟨r', hr', hsame'.trans huse₁⟩

/-- A present row that loses its present bit, or the use bit that it had. -/
def Loses (m m' : Memory) : Prop :=
  ∃ q r r', m.rowAt q = some r ∧ r.present = true ∧ m'.rowAt q = some r' ∧
    (r'.present = false ∨ r.use = true ∧ r'.use = false)

lemma loses_of_evict (hw : WellFormed c m) (hpos : 0 < c.marcosPorProceso) {id pid : ℕ} {os : Os}
    {rows : List PageTableLvl1} (hfull : Full c m id rows) (h : evict c m id pid os = some m') :
    Loses m m' := by
  have hs := hw.served
  have hf := hs.mapped.forest
  obtain ⟨t, ht⟩ := hfull.owner
  have hshould := shouldReplaceFrame_of_owner hf (hs.printable t rows ht) ht hfull.references
  rw [decide_eq_true hfull.full] at hshould
  rcases evict_cases h with ⟨hno, -⟩ | ⟨-, m₁, f, hsel, hreplace⟩
  · rw [hshould] at hno
    cases hno
  rw [getTableLvl1Number_eq hf ht hfull.references] at hsel
  have hn := maxRows_lt_of_selects hf ht hsel
  obtain ⟨q, r, hq, hr, hp⟩ := present_of_framesInUse (hpos.trans_le hfull.full)
  obtain ⟨hbig, hwhole⟩ := bigTable_of_forest hf hn ht
  have hlt := hf.col_lt hr
  have hhand := hand_lt hs.hands (Nat.mul_pos (n := c.maxRows) (m := c.maxRows) (by omega)
    (by omega))
  have hselected := selected_frameSelector hsel
  rcases frameSelector_cases hf hn ht hhand with ⟨m₂, j, f₂, hsel₂, s, hs₂, hps, rfl⟩ | ⟨hstuck, -⟩
  · -- the victim goes
    obtain ⟨rfl, rfl⟩ := Prod.mk.inj (Option.some.inj (hsel₂.symm.trans hsel))
    obtain ⟨v, -, hv⟩ := rowIx_eq_some_iff.mp hs₂
    obtain ⟨s₁, hs₁, hsame⟩ := hselected.rows.rowAt_some hv
    have hframe : s₁.frame = s.frame := (congrArg PageTableLvl2.frame hsame :)
    have hvalid : s₁.frame ≠ invalidFrame := hframe ▸ hw.framed v s hv hps
    have hm₁ := hs.mapped.sameRows (hselected.rows.comp PageTableLvl2.frame)
    rw [← hframe] at hreplace
    simp only [replaceFrame, clearFrame_eq_setRow hm₁ hs₁ hvalid, Option.bind_eq_bind,
      Option.bind_some] at hreplace
    have hrow : (m₂.setRow v { s₁ with present := false, use := false }).rowAt v =
        some { s₁ with present := false, use := false } := by
      rw [Memory.rowAt_setRow _ hs₁, if_pos rfl]
    have hm₂ := hm₁.sameRows (sameRows_setRow (r := { s₁ with present := false, use := false })
      (g := PageTableLvl2.frame) hs₁ rfl)
    obtain ⟨s', hs', hsame'⟩ :=
      (sameRows_swap_absent hm₂ hrow hvalid rfl hreplace).rowAt_some hrow
    exact ⟨v, s, s', hv, hps, hs', .inl (congrArg PageTableLvl2.present hsame')⟩
  · -- no page was taken: the use bits are gone
    obtain ⟨j, hj⟩ := List.mem_iff_getElem?.mp
      (show q ∈ rowRefs c rows from mem_rowRefs.mpr ⟨hq, by omega⟩)
    obtain ⟨r₁, hr₁, -⟩ := hselected.rows.rowAt_some hr
    obtain ⟨huse, huse₁⟩ := unused_of_stuck hf hn ht hhand hstuck hsel
      (rowIx_eq_some_iff.mpr ⟨q, hj, hr⟩) hp (rowIx_eq_some_iff.mpr ⟨q, hj, hr₁⟩)
    obtain ⟨r', hr', huse'⟩ := replaceFrame_unused hreplace hr₁ huse₁
    exact ⟨q, r, r', hr, hp, hr', .inr ⟨huse, huse'⟩⟩

/-! ### What an atomic request is -/

lemma Unchanged.rowAt (h : Unchanged m m') (p : RowRef) : m'.rowAt p = m.rowAt p := by
  simp only [Memory.rowAt, Memory.table2, h.tablesLvl2]

lemma unswapFrameForPcb_absent (hm : Mapped c m) {p : RowRef} {r r' : PageTableLvl2}
    (hr : m.rowAt p = some r) (hvalid : r.frame ≠ invalidFrame) {pid : ℕ} {os : Os}
    (h : unswapFrameForPcb c m pid r.frame os = some m') (hr' : m'.rowAt p = some r')
    (habs : r'.present = false) :
    (os.opens = false ∧ m' = m) ∨
    ∃ k d, getSwapDataForPcb m pid = some (k, d) ∧ mapFails os d.size = true ∧
      m' = setFile m pid (some ((m.files pid).getD [])) := by
  rcases unswapFrameForPcb_cases h with
    hclosed | ⟨k, d, hd, -, ⟨hmap, hm'⟩ | ⟨-, found, m₁, region, offset, -, hload, -, h⟩⟩
  · exact .inl hclosed
  · exact .inr ⟨k, d, hd, hmap, hm'⟩
  · obtain ⟨mainMemory, rfl⟩ := loadRecord_eq hload
    obtain ⟨q, s, -, hs, hframe, rfl⟩ := setPresent_eq h
    obtain rfl : p = q := hm.unique p q r s hr hs hvalid hframe.symm
    rw [Memory.rowAt_setRow _ hs, if_pos rfl] at hr'
    obtain rfl := Option.some.inj hr'
    cases habs

/-- A starved request that changes nothing meets the condition. -/
lemma spared_of_unchanged (hw : WellFormed c m) (hpos : 0 < c.marcosPorProceso) {p : RowRef}
    {r : PageTableLvl2} (hr : m.rowAt p = some r) (habs : r.present = false)
    (hnone : false ∉ m.frames) {pid f : ℕ} {os os' : Os}
    (h : obtainFrame c m p.1 p.2 pid os os' = some (m', f)) (hsame : Unchanged m m') :
    r.frame ≠ invalidFrame ∧ r.use = true ∧ (∀ rows, ¬ Full c m p.1 rows) ∧
      CannotLoad m pid os' := by
  have hm := hw.served.mapped
  rw [obtainFrame_of_absent hm.forest hr habs] at h
  obtain ⟨m₁, m₂, hfind, hevict, hallocate⟩ := pageFault_steps h
  obtain ⟨rfl, rfl⟩ := Prod.mk.inj ((findFreeFrame_full hnone).symm.trans hfind)
  have hback := (sameRows_evict hevict).comp PageTableLvl2.frame
  obtain ⟨row, hrow, ⟨hinv, createdAt, hcreate⟩ | ⟨hvalid, m₃, m₄, h₃, h₄, h₅⟩⟩ :=
    allocate_cases hallocate
  · -- a page that never had a frame is mapped on none
    rcases createFrameForTable_cases hcreate with ⟨-, hall⟩ | ⟨s, ⟨hs, -, -⟩, rfl⟩
    · exact absurd hinv (hall p.2 row hrow)
    · have hset := hsame.rowAt (p.1, createdAt)
      rw [Memory.rowAt_setRow _ hs, if_pos rfl] at hset
      exact absurd rfl (hw.framed _ _ hset.symm rfl)
  · -- the page goes back to its frame
    obtain rfl : m₂ = m₃ := by simpa [deleteFrame_uint32Max] using h₃
    have hm₂ := hm.sameRows hback
    obtain ⟨r₀, hr₀, hframe⟩ := hback.symm.rowAt_some hrow
    obtain rfl : r = r₀ := by
      have hr₀' : m.rowAt p = some r₀ := hr₀
      simpa [hr] using hr₀'
    obtain ⟨s, hs, rfl⟩ := modifyRow_eq h₅
    have hset := Memory.rowAt_setRow { s with use := true } hs
    have hrow' : { s with use := true } = r := by
      have hp := hsame.rowAt p
      rw [hset, if_pos rfl, hr] at hp
      exact Option.some.inj hp
    have hload := unswapFrameForPcb_absent hm₂ hrow hvalid h₄ hs (by rw [← habs, ← hrow'])
    have hrows : ∀ q, m₄.rowAt q = m₂.rowAt q := by
      rcases hload with ⟨-, rfl⟩ | ⟨k, d, -, -, rfl⟩ <;> exact fun _ => rfl
    refine ⟨fun hr => hvalid (hframe.symm.trans hr), by rw [← hrow'], fun rows hfull => ?_, ?_⟩
    · obtain ⟨q, x, x', hx, hpres, hx', hlost⟩ := loses_of_evict hw hpos hfull hevict
      have hne : q ≠ p := by
        rintro rfl
        rw [hr] at hx
        rw [← Option.some.inj hx, habs] at hpres
        cases hpres
      -- what was lost is not put back
      have hq := hsame.rowAt q
      rw [hset, if_neg hne, hrows, hx', hx] at hq
      obtain rfl := Option.some.inj hq
      rcases hlost with hlost | ⟨huse, hlost⟩
      · simp [hpres] at hlost
      · simp [huse] at hlost
    · rcases hload with ⟨hclosed, -⟩ | ⟨k, d, hd, hmap, rfl⟩
      · exact .inl hclosed
      · refine .inr ⟨?_, k, d, ?_, hmap⟩
        · rw [← hsame.files]
          simp [setFile]
        · have hdata := hsame.swapData
          rw [Memory.setRow_swapData] at hdata
          rw [← hd]
          exact getSwapDataForPcb_congr hdata.symm

/-! ### Runs -/

lemma answer_of_starved (hf : Forest c m) {p : RowRef} {r : PageTableLvl2}
    (hr : m.rowAt p = some r) (habs : r.present = false) (hnone : false ∉ m.frames) {pid f : ℕ}
    {os os' : Os} (h : obtainFrame c m p.1 p.2 pid os os' = some (m', f)) : f = uint32Max := by
  rw [obtainFrame_of_absent hf hr habs] at h
  obtain ⟨m₁, m₂, hfind, -, -⟩ := pageFault_steps h
  exact (Prod.mk.inj ((findFreeFrame_full hnone).symm.trans hfind)).2.symm

lemma atomic_of_spared (hw : WellFormed c m) {e : Event} (hstarved : Starved m e)
    (hspared : Spared c m e) : Atomic c m e := by
  cases e with
  | swapPcb | retrieveSwappedPcb => exact absurd hstarved id
  | request req =>
    cases req with
    | memoryInit | sndPage | rd | wt | processTerminated => exact absurd hstarved id
    | frame pid op1 op2 os os' =>
      obtain ⟨r, hr, hvalid, huse, hfull, hload⟩ := hspared
      obtain ⟨⟨r₀, hr₀, habs⟩, hnone⟩ := hstarved
      obtain rfl : r₀ = r := by simpa [hr₀] using hr
      exact ⟨m, uint32Max, obtainFrame_spared hw.served hr habs hnone hvalid huse hfull hload os,
        .inr ⟨rfl, rfl, rfl, rfl, rfl, rfl⟩⟩

lemma spared_of_atomic (hw : WellFormed c m) (hpos : 0 < c.marcosPorProceso) {e : Event}
    (hstarved : Starved m e) (hatomic : Atomic c m e) : Spared c m e := by
  cases e with
  | swapPcb | retrieveSwappedPcb => trivial
  | request req =>
    cases req with
    | memoryInit | sndPage | rd | wt | processTerminated => trivial
    | frame pid op1 op2 os os' =>
      obtain ⟨⟨r, hr, habs⟩, hnone⟩ := hstarved
      obtain ⟨m', f, h, ⟨hlt, -⟩ | ⟨-, hsame⟩⟩ := hatomic
      · obtain rfl := answer_of_starved hw.served.mapped.forest hr habs hnone h
        exact absurd hlt (by have := c.noOfFrames_lt; unfold invalidFrame at this; omega)
      · exact ⟨r, hr, spared_of_unchanged hw hpos hr habs hnone h hsame⟩

/-- **Out of frames.** In every run whose starved requests are all spared, no row is present
without a frame, and every starved request that is spared is atomic. No other one is, if
processes may have frames at all. -/
theorem atomic_iff_spared (c : Cfg) (heap : ℕ → UInt8) (m : Memory) (es : List Event)
    (hmeets : Meets (serve c) (fun m e => Starved m e → Spared c m e) (onInitMemory c heap) es)
    (h : run (serve c) (onInitMemory c heap) es = some m) :
    Framed m ∧ ∀ e, Starved m e → (Spared c m e → Atomic c m e) ∧
      (0 < c.marcosPorProceso → Atomic c m e → Spared c m e) := by
  have hw : WellFormed c m := hmeets.inv (fun _ _ _ hw hspared h => serve_wellFormed hw hspared h)
    (wellFormed_onInitMemory c heap) h
  exact ⟨hw.framed, fun e hstarved =>
    ⟨atomic_of_spared hw hstarved, fun hpos => spared_of_atomic hw hpos hstarved⟩⟩

def closedOs : Os := ⟨false, true, fun _ => 0⟩

def threeFrames : Cfg := { singleCfg with tamMemoria := 24, tamMemoria_lt := by decide }

/-- The first page of a process goes out for the second one, and is not loaded again. Another
process takes the last frame. -/
def refused : List Event :=
  [.request (.memoryInit 1 0 closedOs), .request (.frame 1 0 0 closedOs closedOs),
    .request (.frame 1 0 1 closedOs closedOs), .request (.frame 1 0 0 closedOs closedOs),
    .request (.memoryInit 2 0 closedOs), .request (.frame 2 2 0 closedOs closedOs)]

lemma refused_rows : ∃ m,
    run (serve threeFrames) (onInitMemory threeFrames fun _ => 0) refused = some m ∧
      m.rowAt (0, 0) = some ⟨0, false, true, false⟩ ∧ m.frames = [true, true, true] ∧
      m.tablesLvl1 = [some [⟨0⟩, ⟨1⟩], some [⟨2⟩, ⟨3⟩]] ∧ framesInUse m [⟨0⟩, ⟨1⟩] = 0 :=
  ⟨_, rfl, rfl, rfl, rfl, rfl⟩

theorem atomic_iff_spared_refused :
    ∃ m, run (serve threeFrames) (onInitMemory threeFrames fun _ => 0) refused = some m ∧
      Starved m (.request (.frame 1 0 0 closedOs closedOs)) ∧ Framed m ∧
      Atomic threeFrames m (.request (.frame 1 0 0 closedOs closedOs)) := by
  obtain ⟨m, hrun, hr, hframes, htables, huse⟩ := refused_rows
  have hmeets : Meets (serve threeFrames) (fun m _ => false ∈ m.frames)
      (onInitMemory threeFrames fun _ => 0) refused := by decide +kernel
  obtain ⟨hframed, hiff⟩ := atomic_iff_spared threeFrames (fun _ => 0) m refused
    (hmeets.mono fun m e hfree hstarved => by
      cases e with
      | swapPcb | retrieveSwappedPcb => trivial
      | request req =>
        cases req with
        | frame pid op1 op2 os os' => exact absurd hfree hstarved.2
        | memoryInit | sndPage | rd | wt | processTerminated => trivial) hrun
  have hstarved : Starved m (.request (.frame 1 0 0 closedOs closedOs)) :=
    ⟨⟨_, hr, rfl⟩, by rw [hframes]; decide⟩
  refine ⟨m, hrun, hstarved, hframed, (hiff _ hstarved).1 ⟨_, hr, by decide, rfl, ?_, .inl rfl⟩⟩
  -- no page of the first process is present
  rintro rows ⟨⟨t, ht⟩, hmem, hfull⟩
  rw [Memory.table1, htables] at ht
  have hlt : t < 2 := Sski.Lib.Slots.slotGet_lt ht
  obtain rfl | rfl : t = 0 ∨ t = 1 := by omega
  · obtain rfl : [⟨0⟩, ⟨1⟩] = rows := Option.some.inj ht
    rw [huse] at hfull
    exact absurd hfull (by decide)
  · obtain rfl : [⟨2⟩, ⟨3⟩] = rows := Option.some.inj ht
    exact absurd hmem (by decide)

def oneFrame : Cfg :=
  { smallCfg with tamMemoria := 8, tamMemoria_lt := smallCfg.tamPagina_lt }

/-- A process uses its first page. -/
def frameTaken : List Event :=
  [.request (.memoryInit 1 0 goodOs), .request (.frame 1 0 0 goodOs goodOs)]

/-- Its second page is mapped on no frame, and present. -/
theorem not_atomic_second :
    ∃ m m', run (serve oneFrame) (onInitMemory oneFrame fun _ => 0) frameTaken = some m ∧
      Starved m (.request (.frame 1 0 1 goodOs goodOs)) ∧
      serve oneFrame m (.request (.frame 1 0 1 goodOs goodOs)) = some m' ∧
      m'.rowAt (0, 1) = some ⟨invalidFrame, true, true, false⟩ ∧ ¬ Framed m' ∧
      ¬ Atomic oneFrame m (.request (.frame 1 0 1 goodOs goodOs)) := by
  refine ⟨_, _, rfl, ⟨⟨_, rfl, rfl⟩, by decide⟩, rfl, rfl, fun h => h (0, 1) _ rfl rfl rfl, ?_⟩
  rintro ⟨m', f, h, ⟨hlt, -⟩ | ⟨-, hsame⟩⟩
  · obtain ⟨-, rfl⟩ := Prod.mk.inj (Option.some.inj h)
    exact absurd hlt (by decide)
  · obtain ⟨rfl, -⟩ := Prod.mk.inj (Option.some.inj h)
    exact absurd hsame.tablesLvl2 (by decide)

end Sski.Mem.Exhaustion
