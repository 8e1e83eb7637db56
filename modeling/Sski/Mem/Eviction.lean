import Sski.Mem.Exhaustion

/-!
An eviction that fails halfway.

`replace_frame` takes the present bit off the victim before `swap_frame_for_pcb` writes its record,
and `swap_frame_for_pcb` tells nobody when it gives up. So the page is lost on every failure, and
where the record lies behind the end of the file, too.
-/

namespace Sski.Mem.Eviction

open Sski.Lib.Block Sski.Lib.Runs Sski.Mem.MemoryModule Sski.Mem.PageTable Sski.Mem.OsMemory
open Sski.Mem.Swap Sski.Mem.CpuController Sski.Mem.KernelController Sski.Mem.Tables Sski.Mem.Rows
open Sski.Mem.Frames Sski.Mem.Resident Sski.Mem.SwapFile Sski.Mem.Faults Sski.Mem.Exhaustion

variable {c : Cfg} {m m' : Memory} {p : RowRef} {r : PageTableLvl2} {pid : ℕ} {os : Os}

/-- What can go wrong in `swap_frame_for_pcb`: there is no swap data for the process, its file
cannot be opened, or cannot be mapped. -/
def Fails (m : Memory) (pid : ℕ) (os : Os) : Prop :=
  getSwapDataForPcb m pid = none ∨ os.opens = false ∨
    ∃ i d, getSwapDataForPcb m pid = some (i, d) ∧ mapFails os d.size = true

/-- The record of a page is in the file, behind those that were there. -/
def Saved (c : Cfg) (m m' : Memory) (pid frame : ℕ) : Prop :=
  ∃ i d, getSwapDataForPcb m pid = some (i, d) ∧
    peek (fileOf m' pid) d.offset (swapEntry c) = some (Record.mk frame (pageOf c m frame)).bytes

/-- A failure leaves the row of the victim and the metadata as they were, and the page is only
absent if it was saved. -/
def AllOrNothing (c : Cfg) (m : Memory) (pid : ℕ) (os : Os) (p : RowRef) (r : PageTableLvl2) :
    Prop :=
  ∃ m', replaceFrame c m pid r.frame os = some m' ∧
    (Fails m pid os → m'.rowAt p = some r ∧ m'.swapData = m.swapData) ∧
    ((∃ r', m'.rowAt p = some r' ∧ r'.present = false) → Saved c m m' pid r.frame)

def Fits (c : Cfg) (m : Memory) (pid : ℕ) (os : Os) : Prop :=
  ∃ i d, getSwapDataForPcb m pid = some (i, d) ∧ reaches os d.size = true ∧
    d.offset + swapEntry c ≤ d.size

/-! ### The row of the victim -/

/-- The state in which the record is written: the row of the victim is absent already. -/
def unlinked (m : Memory) (p : RowRef) (r : PageTableLvl2) : Memory :=
  m.setRow p { r with present := false, use := false }

lemma replaceFrame_eq (hm : Mapped c m) (hr : m.rowAt p = some r)
    (hvalid : r.frame ≠ invalidFrame) (pid : ℕ) (os : Os) :
    replaceFrame c m pid r.frame os = swapFrameForPcb c (unlinked m p r) pid r.frame os := by
  simp only [replaceFrame, clearFrame_eq_setRow hm hr hvalid, Option.bind_eq_bind,
    Option.bind_some]
  rfl

lemma rowAt_unlinked (hr : m.rowAt p = some r) :
    (unlinked m p r).rowAt p = some { r with present := false, use := false } := by
  rw [unlinked, Memory.rowAt_setRow _ hr, if_pos rfl]

lemma mapped_unlinked (hm : Mapped c m) (hr : m.rowAt p = some r) :
    Mapped c (unlinked m p r) := hm.sameRows (sameRows_setRow hr rfl)

@[simp] lemma unlinked_swapData : (unlinked m p r).swapData = m.swapData :=
  Memory.setRow_swapData ..

@[simp] lemma unlinked_mainMemory : (unlinked m p r).mainMemory = m.mainMemory :=
  Memory.setRow_mainMemory ..

lemma getSwapDataForPcb_unlinked (pid : ℕ) :
    getSwapDataForPcb (unlinked m p r) pid = getSwapDataForPcb m pid := by
  simp only [getSwapDataForPcb, unlinked_swapData]

lemma replaceFrame_victim (hm : Mapped c m) (hr : m.rowAt p = some r)
    (hvalid : r.frame ≠ invalidFrame) (h : replaceFrame c m pid r.frame os = some m') :
    ∃ r', m'.rowAt p = some r' ∧ r'.present = false := by
  rw [replaceFrame_eq hm hr hvalid] at h
  obtain ⟨r', hr', hsame⟩ := (sameRows_swap_absent (mapped_unlinked hm hr) (rowAt_unlinked hr)
    hvalid rfl h).rowAt_some (rowAt_unlinked hr)
  exact ⟨r', hr', (congrArg PageTableLvl2.present hsame :)⟩

/-! ### The record -/

/-- A record that was written is found in the file if it lies inside of it. -/
lemma peek_swapFrame {file : List UInt8} {frame offset offset' : ℕ} {region : List UInt8}
    (h : swapFrame c m frame (mmap file file.length) offset = some (region, offset')) :
    peek (munmap file region) offset (swapEntry c) =
        some (Record.mk frame (pageOf c m frame)).bytes ↔
      offset + swapEntry c ≤ file.length := by
  constructor
  · intro hpeek
    have hle := (peek_eq_some_iff.mp hpeek).1
    rwa [length_munmap] at hle
  · intro hroom
    simp only [swapFrame, frameStream, Option.bind_eq_bind, Option.bind_eq_some_iff,
      Option.pure_def, Option.some.injEq, Prod.mk.injEq] at h
    obtain ⟨_, ⟨page, hpage, rfl⟩, region', hpoke, rfl, -⟩ := h
    have hpageOf : pageOf c m frame = page := by rw [pageOf, hpage, Option.getD_some]
    have hlen : (wordBytes frame ++ page).length = swapEntry c := by
      rw [List.length_append, length_of_peek hpage, length_wordBytes, swapEntry]
    obtain ⟨pad, hpad⟩ := mmap_eq file
    rw [hpad, poke_append (by omega), Option.map_eq_some_iff] at hpoke
    obtain ⟨file', hpoke, rfl⟩ := hpoke
    rw [munmap_append (length_of_poke hpoke), hpageOf, Record.bytes, ← hlen]
    exact peek_of_poke hpoke

lemma saved_of_reaches {i frame : ℕ} {d : SwapData} (hd : getSwapDataForPcb m pid = some (i, d))
    (hreach : reaches os d.size = true) (h : swapFrameForPcb c m pid frame os = some m') :
    Saved c m m' pid frame ↔ d.offset + swapEntry c ≤ d.size := by
  have hopens : os.opens = true ∧ mapFails os d.size = false := by
    simpa [reaches] using hreach
  have hfile : (swapFileOf m pid d.size).length = d.size := length_ftruncate _ _
  have hsaved : Saved c m m' pid frame ↔ peek (fileOf m' pid) d.offset (swapEntry c) =
      some (Record.mk frame (pageOf c m frame)).bytes := by
    constructor
    · rintro ⟨i', d', hd', h⟩
      obtain ⟨-, rfl⟩ := Prod.mk.inj (Option.some.inj (hd.symm.trans hd'))
      exact h
    · exact fun h => ⟨i, d, hd, h⟩
  rcases swapFrameForPcb_cases h with
    ⟨hnone | hclosed, -⟩ | ⟨i', d', hd', -, ⟨hmap, -⟩ | ⟨-, region, offset, hswap, hpres⟩⟩
  · rw [hnone] at hd
    cases hd
  · simp [hclosed] at hopens
  · obtain ⟨-, rfl⟩ := Prod.mk.inj (Option.some.inj (hd.symm.trans hd'))
    simp [hmap] at hopens
  · obtain ⟨-, rfl⟩ := Prod.mk.inj (Option.some.inj (hd.symm.trans hd'))
    obtain ⟨l, rfl⟩ := setPresent_fields hpres
    have hnew : fileOf { setSwapOffset (setFile m pid
        (some (munmap (swapFileOf m pid d.size) region))) i' offset with tablesLvl2 := l } pid =
          munmap (swapFileOf m pid d.size) region := by
      simp [fileOf, setFile, setSwapOffset]
    rw [hsaved, hnew, peek_swapFrame (by rw [hfile]; exact hswap), hfile]

lemma replaceFrame_saved (hm : Mapped c m) (hr : m.rowAt p = some r)
    (hvalid : r.frame ≠ invalidFrame) {i : ℕ} {d : SwapData}
    (hd : getSwapDataForPcb m pid = some (i, d)) (hreach : reaches os d.size = true)
    (h : replaceFrame c m pid r.frame os = some m') :
    Saved c m m' pid r.frame ↔ d.offset + swapEntry c ≤ d.size := by
  rw [replaceFrame_eq hm hr hvalid] at h
  rw [← saved_of_reaches ((getSwapDataForPcb_unlinked pid).trans hd) hreach h]
  simp only [Saved, getSwapDataForPcb_unlinked, pageOf, unlinked_mainMemory]

/-! ### All or nothing -/

lemma fits_of_allOrNothing (hm : Mapped c m) (hr : m.rowAt p = some r)
    (hpres : r.present = true) (hvalid : r.frame ≠ invalidFrame)
    (h : AllOrNothing c m pid os p r) : Fits c m pid os := by
  obtain ⟨m', h, hkeeps, hsaved⟩ := h
  obtain ⟨r', hr', habs⟩ := replaceFrame_victim hm hr hvalid h
  have hnot : ¬ Fails m pid os := by
    intro hfails
    obtain rfl : r' = r := Option.some.inj (hr'.symm.trans (hkeeps hfails).1)
    simp [hpres] at habs
  simp only [Fails, not_or, not_exists, not_and] at hnot
  obtain ⟨hsome, hopens, hmaps⟩ := hnot
  obtain ⟨⟨i, d⟩, hd⟩ := Option.ne_none_iff_exists'.mp hsome
  have hreach : reaches os d.size = true := by
    simpa [reaches] using And.intro hopens (hmaps i d hd)
  exact ⟨i, d, hd, hreach,
    (replaceFrame_saved hm hr hvalid hd hreach h).mp (hsaved ⟨r', hr', habs⟩)⟩

lemma allOrNothing_of_fits (hm : Mapped c m) (hmain : m.mainMemory.length = c.tamMemoria)
    (hr : m.rowAt p = some r) (hvalid : r.frame ≠ invalidFrame) (h : Fits c m pid os) :
    AllOrNothing c m pid os p r := by
  obtain ⟨i, d, hd, hreach, hroom⟩ := h
  obtain ⟨m', h⟩ : ∃ m', replaceFrame c m pid r.frame os = some m' := by
    rw [replaceFrame_eq hm hr hvalid]
    refine swapFrameForPcb_isSome (mapped_unlinked hm hr) (by simpa using hmain)
      (rowAt_unlinked hr) hvalid ?_ os
    intro i' d' hd'
    rw [getSwapDataForPcb_unlinked, hd] at hd'
    obtain ⟨-, rfl⟩ := Prod.mk.inj (Option.some.inj hd')
    exact hroom
  have hopens : os.opens = true ∧ mapFails os d.size = false := by
    simpa [reaches] using hreach
  refine ⟨m', h, fun hfails => ?_, fun _ => ?_⟩
  · rcases hfails with hnone | hclosed | ⟨i', d', hd', hmap⟩
    · rw [hnone] at hd
      cases hd
    · simp [hclosed] at hopens
    · obtain ⟨-, rfl⟩ := Prod.mk.inj (Option.some.inj (hd.symm.trans hd'))
      simp [hmap] at hopens
  · exact (replaceFrame_saved hm hr hvalid hd hreach h).mpr hroom

lemma mapped_of_serve {heap : ℕ → UInt8} {es : List Event}
    (h : run (serve c) (onInitMemory c heap) es = some m) :
    Mapped c m ∧ m.mainMemory.length = c.tamMemoria := by
  have hreach : Reachable (serve c) (onInitMemory c heap) m := ⟨es, h⟩
  refine hreach.inv (I := fun m => Mapped c m ∧ m.mainMemory.length = c.tamMemoria) ?_
    ⟨mapped_onInitMemory c heap, length_malloc heap c.tamMemoria⟩
  exact fun m e m' hm hstep => serve_mapped hm.1 hm.2 hstep

/-- **An eviction is all or nothing** exactly where nothing fails and the record fits in the
file. -/
theorem allOrNothing_iff_fits (c : Cfg) (heap : ℕ → UInt8) (m : Memory) (es : List Event)
    (pid : ℕ) (os : Os) (p : RowRef) (r : PageTableLvl2)
    (h : run (serve c) (onInitMemory c heap) es = some m) (hr : m.rowAt p = some r)
    (hpres : r.present = true) (hvalid : r.frame ≠ invalidFrame) :
    AllOrNothing c m pid os p r ↔ Fits c m pid os := by
  obtain ⟨hm, hmain⟩ := mapped_of_serve h
  exact ⟨fits_of_allOrNothing hm hr hpres hvalid, allOrNothing_of_fits hm hmain hr hvalid⟩

def onePage : List Event :=
  [.request (.memoryInit 1 12 closedOs), .request (.frame 1 0 0 closedOs closedOs)]

lemma onePage_rows : ∃ m, run (serve oneFrame) (onInitMemory oneFrame fun _ => 0) onePage = some m ∧
    m.rowAt (0, 0) = some ⟨0, true, true, false⟩ ∧
    getSwapDataForPcb m 1 = some (0, ⟨1, 0, 12⟩) := ⟨_, rfl, rfl, rfl⟩

theorem allOrNothing_iff_fits_onePage :
    ∃ m, run (serve oneFrame) (onInitMemory oneFrame fun _ => 0) onePage = some m ∧
      AllOrNothing oneFrame m 1 goodOs (0, 0) ⟨0, true, true, false⟩ := by
  obtain ⟨m, hrun, hr, hd⟩ := onePage_rows
  exact ⟨m, hrun, (allOrNothing_iff_fits oneFrame _ m onePage 1 goodOs (0, 0) _ hrun hr rfl
    (by decide)).mpr ⟨0, _, hd, rfl, by decide⟩⟩

/-- The file does not open: the page is absent, and nowhere. -/
theorem not_allOrNothing_closed :
    ∃ m m', run (serve oneFrame) (onInitMemory oneFrame fun _ => 0) onePage = some m ∧
      m.rowAt (0, 0) = some ⟨0, true, true, false⟩ ∧ Fails m 1 closedOs ∧
      replaceFrame oneFrame m 1 0 closedOs = some m' ∧
      m'.rowAt (0, 0) = some ⟨0, false, false, false⟩ ∧ m'.files 1 = none ∧
      ¬ AllOrNothing oneFrame m 1 closedOs (0, 0) ⟨0, true, true, false⟩ := by
  refine ⟨_, _, rfl, rfl, .inr (.inl rfl), rfl, rfl, rfl, ?_⟩
  rintro ⟨m', h, hkeeps, -⟩
  obtain rfl := Option.some.inj h
  have hrow := (hkeeps (.inr (.inl rfl))).1
  exact absurd hrow (by decide)

end Sski.Mem.Eviction
