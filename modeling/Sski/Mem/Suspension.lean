import Sski.Mem.RoundTrip
import Sski.Wire.Pcbs

/-!
A process is suspended: its block takes the place of its swap file.

The file is cut or filled up to the size of the block, and the block is written over its front,
where the records of the pages are. `swap_data` is left as it was.
-/

namespace Sski.Mem.Suspension

open Sski.Lib.Block Sski.Lib.Runs Sski.Wire.Pcbs Sski.Mem.MemoryModule Sski.Mem.PageTable
open Sski.Mem.OsMemory Sski.Mem.Swap Sski.Mem.KernelController Sski.Mem.Rows Sski.Mem.SwapFile
open Sski.Mem.RoundTrip

variable {c : Cfg} {m m' x : Memory} {pid : ℕ}

def kernelControllerSwap (m : Memory) (block : Pcb) (pcbStream : List UInt8) (os : Os) :
    Option Memory := do
  let pcb ← pcbFromStream block pcbStream
  match openFile m pcb.id.toNat os with
  | none => some m
  | some (m, file) =>
    let pctStreamSize := pcbBytesSize pcb
    let file := ftruncate file pctStreamSize
    let m := setFile m pcb.id.toNat (some file)
    if mapFails os pctStreamSize then some m
    else do
      let bytes ← peek pcbStream 0 pctStreamSize
      let region ← poke (mmap file pctStreamSize) 0 bytes
      return setFile m pcb.id.toNat (some (munmap file region))

/-- A block that is there in full becomes the file. -/
lemma kernelControllerSwap_eq {block pcb : Pcb} {pcbStream : List UInt8}
    (hpcb : pcbFromStream block pcbStream = some pcb) (hlen : pcbBytesSize pcb ≤ pcbStream.length)
    (m : Memory) (os : Os) :
    kernelControllerSwap m block pcbStream os =
      some (swapPcb m pcb.id.toNat (pcbStream.take (pcbBytesSize pcb)) os) := by
  have htake : (pcbStream.take (pcbBytesSize pcb)).length = pcbBytesSize pcb := by
    rw [List.length_take]
    omega
  have hpeek : peek pcbStream 0 (pcbBytesSize pcb) = some (pcbStream.take (pcbBytesSize pcb)) := by
    rw [peek_isSome (by omega), List.drop_zero]
  simp only [kernelControllerSwap, swapPcb, hpcb, htake, hpeek, Option.bind_eq_bind,
    Option.bind_some]
  cases hopen : openFile m pcb.id.toNat os with
  | none => rfl
  | some y =>
    obtain ⟨m₁, file⟩ := y
    obtain ⟨-, rfl, rfl⟩ := openFile_eq hopen
    simp only
    split
    · rw [setFile_setFile]
    · -- the mapping is as long as the block, up to whole pages
      have hcut : (ftruncate ((m.files pcb.id.toNat).getD []) (pcbBytesSize pcb)).length =
          pcbBytesSize pcb := length_ftruncate _ _
      obtain ⟨pad, hpad⟩ := mmap_eq (ftruncate ((m.files pcb.id.toNat).getD []) (pcbBytesSize pcb))
      rw [hcut] at hpad
      have hpoke : poke (ftruncate ((m.files pcb.id.toNat).getD []) (pcbBytesSize pcb)) 0
          (pcbStream.take (pcbBytesSize pcb)) = some (pcbStream.take (pcbBytesSize pcb)) := by
        refine poke_eq_some_iff.mpr ⟨by omega, ?_⟩
        rw [List.take_zero, List.nil_append, List.drop_of_length_le (by omega), List.append_nil]
      rw [hpad, poke_append (by omega), hpoke, Option.map_some, Option.bind_some,
        munmap_append (by omega)]
      simp only [setFile_setFile, Option.pure_def]

/-! ### States that differ behind the records -/

/-- The same state but for the file of a process, and that is the same below the offset. -/
structure SamePages (pid : ℕ) (m m' : Memory) : Prop where
  rest : m' = setFile m pid (m'.files pid)
  front : ∀ i d, getSwapDataForPcb m pid = some (i, d) →
    SameFront d.offset (fileOf m pid) (fileOf m' pid)

@[simp] lemma setFile_files (m : Memory) (pid : ℕ) (file : Option (List UInt8)) :
    (setFile m pid file).files pid = file := by simp [setFile]

@[simp] lemma fileOf_setFile (m : Memory) (pid : ℕ) (file : List UInt8) :
    fileOf (setFile m pid (some file)) pid = file := by simp [fileOf]

lemma setFile_self (m : Memory) (pid : ℕ) : setFile m pid (m.files pid) = m := by
  simp [setFile]

lemma SamePages.refl (pid : ℕ) (m : Memory) : SamePages pid m m :=
  ⟨(setFile_self m pid).symm, fun _ _ _ => .refl _ _⟩

lemma SamePages.symm (h : SamePages pid m m') : SamePages pid m' m := by
  have hrest := h.rest
  refine ⟨?_, fun i d hd => ?_⟩
  · rw [hrest, setFile_setFile, setFile_self]
  · rw [hrest] at hd
    have hfront := h.front i d hd
    exact ⟨hfront.length.symm, fun j hj => (hfront.cells j hj).symm⟩

lemma SameFront.mmap {n : ℕ} {file file' : List UInt8} (h : SameFront n file file') (size : ℕ) :
    SameFront n (mmap file size) (mmap file' size) := by
  rw [Swap.mmap, Swap.mmap, h.length]
  exact (h.append _).take _

lemma SameFront.munmap {n : ℕ} {file file' region region' : List UInt8}
    (h : SameFront n file file') (hr : SameFront n region region') :
    SameFront n (munmap file region) (munmap file' region') := by
  rw [Swap.munmap, Swap.munmap, h.length, hr.length]
  refine SameFront.take ⟨?_, fun i hi => ?_⟩ _
  · simp only [List.length_append, List.length_drop, hr.length, h.length]
  · rw [List.getElem?_append, List.getElem?_append, hr.length, hr.cells i hi]
    split
    · rfl
    · rw [List.getElem?_drop, List.getElem?_drop]
      exact h.cells _ (by omega)

lemma setPresent_setFile {frame : ℕ} {present : Bool} (pid : ℕ) (file : Option (List UInt8))
    (h : setPresent c m frame present = some m') :
    setPresent c (setFile m pid file) frame present = some (setFile m' pid file) := by
  obtain ⟨p, r, href, hr, -, rfl⟩ := setPresent_eq h
  have href' : getFrameRef c (setFile m pid file) frame = some (some p) := href
  have hr' : (setFile m pid file).rowAt p = some r := hr
  simp only [setPresent, href', Option.bind_eq_bind, Option.bind_some, Memory.modifyRow, hr',
    Option.pure_def, Option.some.injEq]
  unfold Memory.setRow
  have htable : (setFile m pid file).table2 p.1 = m.table2 p.1 := rfl
  rw [htable]
  split <;> rfl

lemma Whole.below {d : SwapData} (hd : Whole c d) {i : ℕ} (hi : i ∈ recordStarts c d.offset) :
    i + swapEntry c ≤ d.offset := by
  obtain ⟨n, hn⟩ := hd.dvd
  rw [Nat.mul_comm] at hn
  rw [hn, recordStarts_eq] at hi
  obtain ⟨j, hj, rfl⟩ := List.mem_map.mp hi
  rw [hn, ← Nat.succ_mul]
  exact Nat.mul_le_mul_right _ (List.mem_range.mp hj)

lemma mem_of_findRecord {region : List UInt8} {frame i : ℕ} {starts : List ℕ}
    (h : findRecord region frame starts = some (some i)) : i ∈ starts := by
  induction starts with
  | nil => cases h
  | cons j js ih =>
    simp only [findRecord, Option.bind_eq_bind, Option.bind_eq_some_iff] at h
    obtain ⟨word, -, h⟩ := h
    split at h
    · obtain rfl := Option.some.inj (Option.some.inj h)
      exact List.mem_cons_self
    · exact List.mem_cons_of_mem _ (ih h)

lemma SameFront.loadRecord {d : SwapData} (hd : Whole c d) {region region' : List UInt8}
    (hr : SameFront d.offset region region') {frame : ℕ} {os : Os} {found : Option ℕ}
    (hfound : findRecord region frame (recordStarts c d.offset) = some found)
    (h : loadRecord c m region frame os found = some m') (pid : ℕ) (file : Option (List UInt8)) :
    loadRecord c (setFile m pid file) region' frame os found = some (setFile m' pid file) := by
  cases found with
  | none =>
    obtain rfl := Option.some.inj h
    rfl
  | some i =>
    have hbelow := Whole.below hd (mem_of_findRecord hfound)
    have hentry : swapEntry c = 4 + c.tamPagina := rfl
    simp only [Swap.loadRecord, loadPage, Option.bind_eq_bind, Option.bind_eq_some_iff,
      Option.pure_def, Option.some.injEq] at h
    obtain ⟨saved, hsaved, frameData, hdata, mainMemory, hpoke, rfl⟩ := h
    have hroom := (poke_eq_some_iff.mp hdata).1
    rw [length_malloc, length_of_peek hsaved] at hroom
    have hsaved' : peek region' (i + 4) 8 = some saved := by
      rw [hr.peek (by omega), hsaved]
    have hpoke' : poke (setFile m pid file).mainMemory (c.tamPagina * frame) frameData =
        some mainMemory := hpoke
    simp only [Swap.loadRecord, loadPage, hsaved', hdata, hpoke', Option.bind_eq_bind,
      Option.bind_some]
    rfl

lemma SameFront.fillHole {n i offset : ℕ} {region region' region₁ : List UInt8}
    (hr : SameFront n region region') (h : fillHole c region i n = some (region₁, offset)) :
    ∃ region₁', fillHole c region' i n = some (region₁', offset) ∧
      SameFront n region₁ region₁' := by
  unfold Swap.fillHole at h ⊢
  split at h
  · rename_i hgt
    simp only [Option.bind_eq_bind, Option.bind_eq_some_iff, Option.pure_def, Option.some.injEq,
      Prod.mk.injEq] at h
    obtain ⟨last, hlast, region₂, hpoke, rfl, rfl⟩ := h
    obtain ⟨region₂', hpoke', hr'⟩ := hr.poke hpoke
    have hlast' : peek region' (n - c.tamPagina) c.tamPagina = some last := by
      rw [hr.peek (by omega), hlast]
    refine ⟨region₂', ?_, hr'⟩
    simp only [if_pos hgt, hlast', hpoke', Option.bind_eq_bind, Option.bind_some, Option.pure_def]
  · rename_i hle
    obtain ⟨rfl, rfl⟩ := Prod.mk.inj (Option.some.inj h)
    exact ⟨region', by rw [if_neg hle], hr⟩

lemma SamePages.unswapFrameForPcb_some (h : SamePages pid m m') (ha : Aligned c m) {frame : ℕ}
    {os : Os} (hx : unswapFrameForPcb c m pid frame os = some x) :
    ∃ y, unswapFrameForPcb c m' pid frame os = some y ∧ SamePages pid x y := by
  obtain ⟨file, rfl⟩ : ∃ file, m' = setFile m pid file := ⟨_, h.rest⟩
  rcases unswapFrameForPcb_cases hx with ⟨hclosed, rfl⟩ | ⟨k, d, hd, hopens, hx⟩
  · exact ⟨setFile x pid file, by simp [unswapFrameForPcb, openFile, hclosed], h⟩
  have hfront := h.front k d hd
  have hwhole := ha.mem hd
  have hd' : getSwapDataForPcb (setFile m pid (some (file.getD []))) pid = some (k, d) := hd
  have hfile : fileOf (setFile m pid file) pid = file.getD [] := by rw [fileOf, setFile_files]
  rw [hfile] at hfront
  simp only [unswapFrameForPcb, openFile, hopens, if_true, setFile_files, setFile_setFile, hd',
    Option.bind_eq_bind, Option.bind_some]
  rcases hx with ⟨hfails, rfl⟩ | ⟨hmaps, found, m₁, region, offset, hfound, hload, hfill, hpres⟩
  · rw [if_pos hfails]
    refine ⟨_, rfl, by simp, fun i e he => ?_⟩
    obtain ⟨rfl, rfl⟩ : k = i ∧ d = e := by
      have he' : getSwapDataForPcb m pid = some (i, e) := he
      simpa [hd] using he'
    rw [fileOf_setFile, fileOf_setFile]
    exact hfront
  · rw [if_neg (by simp [hmaps])]
    have hregion := SameFront.mmap hfront d.size
    have hfound' : findRecord (mmap (file.getD []) d.size) frame (recordStarts c d.offset) =
        some found := by
      rw [← hfound]
      refine findRecord_congr fun j hj => hregion.peek ?_
      have hbelow := Whole.below hwhole hj
      have hentry : swapEntry c = 4 + c.tamPagina := rfl
      omega
    obtain ⟨region', hfill', hregion'⟩ := SameFront.fillHole hregion hfill
    have hload' := SameFront.loadRecord hwhole hregion hfound hload pid
      (some (file.getD []))
    rw [hfound', Option.bind_some, hload', Option.bind_some, hfill', Option.bind_some]
    have hpres' := setPresent_setFile pid (some (munmap (file.getD []) region')) hpres
    have hfiles : setFile (setSwapOffset (setFile m₁ pid (some (munmap ((m.files pid).getD [])
          region))) k offset) pid (some (munmap (file.getD []) region')) =
        setSwapOffset (setFile (setFile m₁ pid (some (file.getD []))) pid
          (some (munmap (file.getD []) region'))) k offset := by
      simp only [setFile, setSwapOffset, Function.update_idem]
    rw [hfiles] at hpres'
    refine ⟨_, hpres', by simp, fun i e he => ?_⟩
    obtain ⟨l, rfl⟩ := setPresent_fields hpres
    obtain ⟨mainMemory, rfl⟩ := loadRecord_eq hload
    have hdata := getSwapDataForPcb_setSwapOffset hd offset
    obtain ⟨rfl, rfl⟩ : k = i ∧ { d with offset } = e := by
      have he' : getSwapDataForPcb (setSwapOffset m k offset) pid = some (i, e) := he
      simpa [hdata] using he'
    have hless : offset ≤ d.offset := by
      unfold Swap.fillHole at hfill
      split at hfill
      · simp only [Option.bind_eq_bind, Option.bind_eq_some_iff, Option.pure_def,
          Option.some.injEq, Prod.mk.injEq] at hfill
        obtain ⟨_, -, _, -, -, rfl⟩ := hfill
        have hlt := hwhole.lt
        have hentry : swapEntry c ≤ d.offset := Nat.le_of_dvd (by omega) hwhole.dvd
        omega
      · obtain ⟨-, rfl⟩ := Prod.mk.inj (Option.some.inj hfill)
        exact Nat.zero_le _
    have hback := SameFront.munmap hfront hregion'
    simpa [fileOf, setSwapOffset, setFile] using hback.mono hless

lemma SamePages.aligned (h : SamePages pid m m') (ha : Aligned c m) : Aligned c m' := by
  rw [h.rest]
  exact ha.of_eq rfl

lemma SamePages.unswapFrameForPcb (h : SamePages pid m m') (ha : Aligned c m) (frame : ℕ)
    (os : Os) :
    Option.Rel (SamePages pid) (unswapFrameForPcb c m pid frame os)
      (unswapFrameForPcb c m' pid frame os) := by
  cases hx : Swap.unswapFrameForPcb c m pid frame os with
  | some x =>
    obtain ⟨y, hy, hxy⟩ := h.unswapFrameForPcb_some ha hx
    rw [hy]
    exact .some hxy
  | none =>
    cases hy : Swap.unswapFrameForPcb c m' pid frame os with
    | none => exact .none
    | some y =>
      obtain ⟨x, hx', -⟩ := h.symm.unswapFrameForPcb_some (h.aligned ha) hy
      rw [hx] at hx'
      cases hx'

/-! ### The suspension -/

/-- A process with a swap file of the declared size. -/
structure Kept (c : Cfg) (m : Memory) (pid i : ℕ) (d : SwapData) : Prop where
  aligned : Aligned c m
  data : getSwapDataForPcb m pid = some (i, d)
  length : (fileOf m pid).length = d.size
  inside : d.offset ≤ d.size

/-- Nothing is lost: the records are there, the file fits its metadata, and a page that is loaded
is what it would have been. -/
structure Recoverable (c : Cfg) (m m' : Memory) (pid i : ℕ) (d : SwapData) : Prop where
  records : ∀ j < d.offset / swapEntry c,
    peek (fileOf m' pid) (j * swapEntry c) (swapEntry c) =
      peek (fileOf m pid) (j * swapEntry c) (swapEntry c)
  data : getSwapDataForPcb m' pid = some (i, d)
  length : (fileOf m' pid).length = d.size
  later : ∀ frame os, Option.Rel (SamePages pid) (unswapFrameForPcb c m pid frame os)
    (unswapFrameForPcb c m' pid frame os)

/-- The file is left alone, or the block is as long as the file and starts with its records. -/
def Spares (m : Memory) (pid : ℕ) (d : SwapData) (pcb : Pcb) (pcbStream : List UInt8) (os : Os) :
    Prop :=
  os.opens = false ∨ (pcbBytesSize pcb = d.size ∧
    (mapFails os d.size = true ∨ pcbStream.take d.offset = (fileOf m pid).take d.offset))

variable {i : ℕ} {d : SwapData}

lemma Kept.recoverable_iff (h : Kept c m pid i d) (file : List UInt8) :
    Recoverable c m (setFile m pid (some file)) pid i d ↔
      file.length = d.size ∧ file.take d.offset = (fileOf m pid).take d.offset := by
  have hentry : 0 < swapEntry c := by
    have := swapEntry_pos c
    omega
  have hfile := fileOf_setFile m pid file
  have hinside := h.inside
  constructor
  · intro hr
    have hlen := hr.length
    rw [hfile] at hlen
    have hrecords := hr.records
    rw [hfile] at hrecords
    have hfront := sameFront_of_peek (hlen.trans h.length.symm) (by rw [h.length]; exact hinside)
      hentry (h.aligned.mem h.data).dvd hrecords
    refine ⟨hlen, List.ext_getElem? fun j => ?_⟩
    rw [List.getElem?_take, List.getElem?_take]
    split
    · exact hfront.cells j ‹_›
    · rfl
  · rintro ⟨hlen, htake⟩
    have hfront : SameFront d.offset (fileOf m pid) file := by
      refine ⟨hlen.trans h.length.symm, fun j hj => ?_⟩
      have hcell := congrArg (fun l => l[j]?) htake
      simpa only [List.getElem?_take, if_pos hj] using hcell
    have hsame : SamePages pid m (setFile m pid (some file)) := by
      refine ⟨by simp, fun k e he => ?_⟩
      obtain ⟨rfl, rfl⟩ : i = k ∧ d = e := by simpa [h.data] using he
      rw [hfile]
      exact hfront
    refine ⟨fun j hj => ?_, h.data, by rw [hfile, hlen], hsame.unswapFrameForPcb h.aligned⟩
    rw [hfile]
    refine hfront.peek ?_
    rw [← Nat.succ_mul]
    exact (Nat.mul_le_mul_right _ hj).trans (Nat.div_mul_le_self _ _)

/-- **Suspension.** A process that is suspended does not lose its pages if and only if its file is
left alone, or its block has the length of the file and starts with the records. -/
theorem recoverable_iff_spares {block pcb : Pcb} {pcbStream : List UInt8} {os : Os}
    (hpcb : pcbFromStream block pcbStream = some pcb) (hlen : pcbBytesSize pcb ≤ pcbStream.length)
    (h : Kept c m pcb.id.toNat i d) :
    (∃ m', kernelControllerSwap m block pcbStream os = some m' ∧
      Recoverable c m m' pcb.id.toNat i d) ↔
    Spares m pcb.id.toNat d pcb pcbStream os := by
  have htake : (pcbStream.take (pcbBytesSize pcb)).length = pcbBytesSize pcb := by
    rw [List.length_take]
    omega
  have hinside := h.inside
  have hrefl : Recoverable c m m pcb.id.toNat i d :=
    ⟨fun _ _ => rfl, h.data, h.length, (SamePages.refl _ m).unswapFrameForPcb h.aligned⟩
  simp only [kernelControllerSwap_eq hpcb hlen, Option.some.injEq, exists_eq_left', Spares]
  cases hopen : openFile m pcb.id.toNat os with
  | none =>
    have hclosed : os.opens = false := by simpa [openFile] using hopen
    simp only [swapPcb, hopen, hrefl, hclosed, true_or]
  | some y =>
    obtain ⟨m₁, file⟩ := y
    obtain ⟨hopens, rfl, rfl⟩ := openFile_eq hopen
    simp only [swapPcb, hopen, htake, setFile_setFile, hopens, Bool.true_eq_false, false_or]
    split
    · rename_i hfails
      -- the file is only cut or filled up
      rw [h.recoverable_iff, length_ftruncate]
      constructor
      · rintro ⟨hsize, -⟩
        exact ⟨hsize, .inl (hsize ▸ hfails)⟩
      · rintro ⟨hsize, -⟩
        have hsame : ftruncate ((m.files pcb.id.toNat).getD []) (pcbBytesSize pcb) =
            fileOf m pcb.id.toNat := by
          rw [hsize, ← h.length]
          exact ftruncate_length _
        exact ⟨hsize, by rw [hsame]⟩
    · rename_i hmaps
      rw [h.recoverable_iff, htake, List.take_take]
      constructor
      · rintro ⟨hsize, hfront⟩
        rw [Nat.min_eq_left (by omega)] at hfront
        exact ⟨hsize, .inr hfront⟩
      · rintro ⟨hsize, hfails | hfront⟩
        · rw [← hsize] at hfails
          exact absurd hfails hmaps
        · rw [Nat.min_eq_left (by omega)]
          exact ⟨hsize, hfront⟩

/-! ### Two processes without instructions -/

def emptyPcb : Pcb := ⟨1, 0, 0, [], 0, 10, 0, 0, 0⟩

lemma pcbFromStream_emptyPcb : pcbFromStream emptyPcb (encodePcb emptyPcb) = some emptyPcb ∧
    pcbBytesSize emptyPcb ≤ (encodePcb emptyPcb).length := by decide +kernel

/-- Process 2 has frame 0. Process 1 touches its first two pages, and frame 1 goes out. -/
def secondOut : List Request :=
  [.memoryInit 2 0 goodOs, .frame 2 0 0 goodOs goodOs, .memoryInit 1 28 unmappedOs,
    .frame 1 2 0 goodOs goodOs, .frame 1 2 1 goodOs goodOs]

set_option maxRecDepth 40000 in
lemma secondOut_record : ∃ m, run (step singleCfg) (onInitMemory singleCfg fun _ => 0) secondOut =
      some m ∧ getSwapDataForPcb m 1 = some (1, ⟨1, 12, 28⟩) ∧
    fileOf m 1 = 1 :: List.replicate 27 0 := ⟨_, rfl, rfl, rfl⟩

/-- The block has the length of the file and starts with the record of frame 1: its id is the
number of the frame, and the page is zero. -/
theorem recoverable_iff_spares_secondOut : ∃ m i d,
    run (step singleCfg) (onInitMemory singleCfg fun _ => 0) secondOut = some m ∧
      Kept singleCfg m 1 i d ∧ d.offset = swapEntry singleCfg ∧
      ∃ m', kernelControllerSwap m emptyPcb (encodePcb emptyPcb) goodOs = some m' ∧
        Recoverable singleCfg m m' 1 i d := by
  obtain ⟨m, hrun, hdata, hfile⟩ := secondOut_record
  obtain ⟨-, -, ha⟩ := whole_of_reachable ⟨_, hrun⟩
  have hkept : Kept singleCfg m 1 1 ⟨1, 12, 28⟩ :=
    ⟨ha, hdata, by rw [hfile]; rfl, by decide⟩
  have hstarts : (encodePcb emptyPcb).take 12 = (fileOf m 1).take 12 := by
    rw [hfile]
    decide +kernel
  exact ⟨m, _, _, hrun, hkept, rfl, (recoverable_iff_spares pcbFromStream_emptyPcb.1
    pcbFromStream_emptyPcb.2 hkept).mpr (.inr ⟨by decide, .inr hstarts⟩)⟩

def firstOut : List Request :=
  [.memoryInit 1 28 unmappedOs, .frame 1 0 0 goodOs goodOs, .frame 1 0 1 goodOs goodOs]

set_option maxRecDepth 40000 in
lemma firstOut_record : ∃ m, run (step singleCfg) (onInitMemory singleCfg fun _ => 0) firstOut =
      some m ∧ getSwapDataForPcb m 1 = some (0, ⟨1, 12, 28⟩) ∧
    fileOf m 1 = List.replicate 28 0 := ⟨_, rfl, rfl, rfl⟩

/-- Where the number of the frame was stands the id of the process. -/
theorem not_recoverable_firstOut : ∃ m i d,
    run (step singleCfg) (onInitMemory singleCfg fun _ => 0) firstOut = some m ∧
      Kept singleCfg m 1 i d ∧ ¬ ∃ m', kernelControllerSwap m emptyPcb (encodePcb emptyPcb) goodOs =
        some m' ∧ Recoverable singleCfg m m' 1 i d := by
  obtain ⟨m, hrun, hdata, hfile⟩ := firstOut_record
  obtain ⟨-, -, ha⟩ := whole_of_reachable ⟨_, hrun⟩
  refine ⟨m, _, _, hrun, ⟨ha, hdata, by rw [hfile]; rfl, by decide⟩, ?_⟩
  rintro ⟨m', hstep, hr⟩
  rw [kernelControllerSwap_eq pcbFromStream_emptyPcb.1 pcbFromStream_emptyPcb.2] at hstep
  have hnew : fileOf m' 1 = encodePcb emptyPcb := by
    rw [← Option.some.inj hstep]
    exact fileOf_setFile _ _ _
  have hrecord := hr.records 0 (by decide)
  rw [hnew, hfile] at hrecord
  exact absurd hrecord (by decide +kernel)

end Sski.Mem.Suspension
