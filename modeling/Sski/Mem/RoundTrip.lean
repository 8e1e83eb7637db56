import Sski.Mem.PageFault

/-!
A page that goes out to the swap file and comes back.

The record is written whole. What is read back is `sizeof(size_t)` bytes of it, from the first
record of the frame; the rest of the page is what a fresh block of the heap held.
-/

namespace Sski.Mem.RoundTrip

open Sski.Lib.Block Sski.Lib.Runs Sski.Mem.MemoryModule Sski.Mem.PageTable Sski.Mem.OsMemory
open Sski.Mem.Swap Sski.Mem.CpuController Sski.Mem.KernelController Sski.Mem.Tables Sski.Mem.Rows
open Sski.Mem.Frames Sski.Mem.Resident Sski.Mem.SwapFile Sski.Mem.SwapRoom Sski.Mem.Faults
open Sski.Mem.PageFault

variable {c : Cfg} {m m' m₁ : Memory} {pid frame : ℕ}

/-! ### Offsets -/

/-- An offset has a whole number of records below it. -/
structure Whole (c : Cfg) (d : SwapData) : Prop where
  size : d.size < 2 ^ 32
  lt : d.offset < 2 ^ 32
  dvd : swapEntry c ∣ d.offset

def Aligned (c : Cfg) (m : Memory) : Prop := ∀ d ∈ m.swapData, Whole c d

lemma roundUp_le {n : ℕ} (h : n < 2 ^ 32) : roundUp n ≤ 2 ^ 32 := by
  unfold roundUp osPage
  omega

/-- One record more; at the very end of the largest file the offset starts over. -/
lemma Whole.swapFrame {d : SwapData} (hd : Whole c d) {file region : List UInt8} {offset : ℕ}
    (hlen : file.length = d.size)
    (h : swapFrame c m frame (mmap file d.size) d.offset = some (region, offset)) :
    Whole c { d with offset } := by
  simp only [Swap.swapFrame, frameStream, Option.bind_eq_bind, Option.bind_eq_some_iff,
    Option.pure_def, Option.some.injEq, Prod.mk.injEq] at h
  obtain ⟨_, ⟨page, hpage, rfl⟩, _, hpoke, -, rfl⟩ := h
  have hroom := (poke_eq_some_iff.mp hpoke).1
  have hround := roundUp_le hd.size
  have hpageLen := length_of_peek hpage
  rw [← hlen, length_mmap_self, hlen, List.length_append, length_wordBytes, hpageLen] at hroom
  have hentry : swapEntry c = 4 + c.tamPagina := rfl
  refine ⟨hd.size, Nat.mod_lt _ (by decide), ?_⟩
  change swapEntry c ∣ (d.offset + swapEntry c) % 2 ^ 32
  rcases Nat.lt_or_ge (d.offset + swapEntry c) (2 ^ 32) with hlt | hge
  · rw [Nat.mod_eq_of_lt hlt]
    exact Nat.dvd_add hd.dvd (dvd_refl _)
  · rw [show d.offset + swapEntry c = 2 ^ 32 by omega, Nat.mod_self]
    exact dvd_zero _

lemma Whole.fillHole {d : SwapData} (hd : Whole c d) {region region' : List UInt8}
    {replaceIndex offset : ℕ}
    (h : fillHole c region replaceIndex d.offset = some (region', offset)) :
    Whole c { d with offset } := by
  unfold Swap.fillHole at h
  split at h
  · rename_i hgt
    simp only [Option.bind_eq_bind, Option.bind_eq_some_iff, Option.pure_def,
      Option.some.injEq, Prod.mk.injEq] at h
    obtain ⟨_, -, _, -, -, rfl⟩ := h
    have hlt := hd.lt
    obtain ⟨k, hk⟩ := hd.dvd
    have hpos : 0 < k := by
      rcases Nat.eq_zero_or_pos k with rfl | hpos
      · omega
      · exact hpos
    have hle : swapEntry c ≤ d.offset := hk ▸ Nat.le_mul_of_pos_right _ hpos
    refine ⟨hd.size, Nat.mod_lt _ (by decide), ?_⟩
    change swapEntry c ∣ (d.offset + 2 ^ 32 - swapEntry c) % 2 ^ 32
    rw [show d.offset + 2 ^ 32 - swapEntry c = d.offset - swapEntry c + 2 ^ 32 by omega,
      Nat.add_mod_right, Nat.mod_eq_of_lt (by omega)]
    exact Nat.dvd_sub hd.dvd (dvd_refl _)
  · simp only [Option.some.injEq, Prod.mk.injEq] at h
    obtain ⟨-, rfl⟩ := h
    exact ⟨hd.size, Nat.two_pow_pos 32, dvd_zero _⟩

lemma Aligned.of_eq (ha : Aligned c m) (h : m'.swapData = m.swapData) : Aligned c m' := by
  intro d hd
  exact ha d (h ▸ hd)

lemma Aligned.setSwapOffset (ha : Aligned c m) {i offset : ℕ} {d : SwapData}
    (hd : getSwapDataForPcb m pid = some (i, d)) (hw : Whole c { d with offset }) :
    Aligned c (setSwapOffset m i offset) := by
  intro e he
  obtain ⟨hget, -, -⟩ := getSwapDataForPcb_eq_some_iff.mp hd
  obtain ⟨j, hj⟩ := List.mem_iff_getElem?.mp he
  simp only [Swap.setSwapOffset, List.getElem?_modify] at hj
  obtain ⟨e₀, he₀, rfl⟩ := Option.map_eq_some_iff.mp hj
  by_cases hij : i = j
  · subst hij
    obtain rfl : d = e₀ := by simpa [hget] using he₀
    simpa using hw
  · simpa [hij] using ha e₀ (List.mem_of_getElem? he₀)

lemma Aligned.mem (ha : Aligned c m) {i : ℕ} {d : SwapData}
    (hd : getSwapDataForPcb m pid = some (i, d)) : Whole c d :=
  ha d (List.mem_of_getElem? (getSwapDataForPcb_eq_some_iff.mp hd).1)

lemma Aligned.swapFrameForPcb (ha : Aligned c m) {os : Os}
    (h : swapFrameForPcb c m pid frame os = some m') : Aligned c m' := by
  rcases swapFrameForPcb_cases h with
    ⟨-, rfl⟩ | ⟨i, d, hd, -, ⟨-, rfl⟩ | ⟨-, region, offset, hswap, h⟩⟩
  · exact ha
  · exact ha.of_eq rfl
  · obtain ⟨l, rfl⟩ := setPresent_fields h
    exact ha.setSwapOffset hd ((ha.mem hd).swapFrame (length_ftruncate _ _) hswap)

lemma Aligned.unswapFrameForPcb (ha : Aligned c m) {os : Os}
    (h : unswapFrameForPcb c m pid frame os = some m') : Aligned c m' := by
  rcases unswapFrameForPcb_cases h with
    ⟨-, rfl⟩ | ⟨k, d, hd, -, ⟨-, rfl⟩ | ⟨-, found, m₁, region, offset, -, hload, hfill, h⟩⟩
  · exact ha
  · exact ha.of_eq rfl
  · obtain ⟨mainMemory, rfl⟩ := loadRecord_eq hload
    obtain ⟨l, rfl⟩ := setPresent_fields h
    exact ha.setSwapOffset hd ((ha.mem hd).fillHole hfill)

lemma Aligned.evict (ha : Aligned c m) {idTable2 : ℕ} {os : Os}
    (h : evict c m idTable2 pid os = some m') : Aligned c m' := by
  rcases evict_cases h with ⟨-, rfl⟩ | ⟨-, m₁, victim, hsel, h⟩
  · exact ha
  · simp only [replaceFrame, Option.bind_eq_bind, Option.bind_eq_some_iff] at h
    obtain ⟨m₂, hclear, h⟩ := h
    obtain ⟨l, rfl, -⟩ := clearFrame_rest hclear
    have ha₁ : Aligned c m₁ := ha.of_eq (selected_frameSelector hsel).swapData
    have ha₂ : Aligned c { m₁ with tablesLvl2 := l } := ha₁.of_eq rfl
    exact ha₂.swapFrameForPcb h

lemma Aligned.allocate (ha : Aligned c m) {idTable2 index newFrame : ℕ} {os : Os}
    (h : allocate c m idTable2 index pid newFrame os = some m') : Aligned c m' := by
  obtain ⟨row, -, ⟨-, createdAt, h⟩ | ⟨-, m₁, m₂, h₁, h₂, h⟩⟩ := allocate_cases h
  · rcases createFrameForTable_cases h with ⟨rfl, -⟩ | ⟨r, -, rfl⟩
    · exact ha
    · exact ha.of_eq (Memory.setRow_swapData _ _ _)
  · obtain ⟨frames, rfl, -, -⟩ := deleteFrame_eq h₁
    obtain ⟨l, rfl⟩ := modifyRow_fields h
    have ha₁ : Aligned c { m with frames } := ha.of_eq rfl
    exact (ha₁.unswapFrameForPcb h₂).of_eq rfl

lemma Aligned.obtainFrame (ha : Aligned c m) {idTable2 index : ℕ} {os os' : Os}
    (h : obtainFrame c m idTable2 index pid os os' = some (m', frame)) : Aligned c m' := by
  rcases obtainFrame_cases h with ⟨-, rfl, -⟩ | ⟨-, -, -, rfl, -⟩ | ⟨row, -, -, h⟩
  · exact ha
  · exact ha
  · obtain ⟨m₁, m₂, hfind, hevict, hallocate⟩ := pageFault_steps h
    obtain ⟨frames, rfl⟩ := findFreeFrame_fields hfind
    have ha₁ : Aligned c { m with frames } := ha.of_eq rfl
    exact (ha₁.evict hevict).allocate hallocate

lemma Aligned.step (ha : Aligned c m) (hf : Forest c m) {req : Request}
    (h : step c m req = some m') : Aligned c m' := by
  cases req with
  | memoryInit pid pcbSize os =>
    obtain ⟨id, h⟩ := step_memoryInit h
    obtain ⟨file, l₁, l₂, rfl⟩ := kernelControllerMemoryInit_fields h
    intro d hd
    rcases List.mem_append.mp hd with hd | hd
    · exact ha d hd
    · obtain rfl := List.mem_singleton.mp hd
      exact ⟨pcbSize.toNat_lt, Nat.two_pow_pos 32, dvd_zero _⟩
  | sndPage op1 op2 =>
    obtain rfl := step_sndPage h
    exact ha
  | frame pid op1 op2 os os' =>
    obtain ⟨f, h⟩ := step_frame h
    exact ha.obtainFrame h
  | rd physicalAddress =>
    obtain ⟨v, h⟩ := step_rd h
    obtain ⟨l, rfl⟩ := cpuControllerRead_fields h
    exact ha.of_eq rfl
  | wt physicalAddress value =>
    obtain ⟨mainMemory, l, rfl⟩ := cpuControllerWrite_fields (step_wt h)
    exact ha.of_eq rfl
  | processTerminated pcbId tableId =>
    obtain ⟨m₁, h₁, rfl⟩ := kernelControllerDestroyProcessFile_steps (step_processTerminated h)
    have ha₁ : Aligned c m₁ := by
      rcases deleteProcess_spec hf h₁ with ⟨-, rfl⟩ | ⟨rows, -, hd⟩
      · exact ha
      · exact ha.of_eq hd.rest.swapData
    intro d hd
    exact ha₁ d (List.mem_of_mem_eraseP hd)

/-- **Every run.** What is needed of the state below holds from boot on. -/
lemma whole_of_reachable {heap : ℕ → UInt8} (h : Reachable (step c) (onInitMemory c heap) m) :
    Mapped c m ∧ m.mainMemory.length = c.tamMemoria ∧ Aligned c m := by
  refine h.inv (I := fun m => Mapped c m ∧ m.mainMemory.length = c.tamMemoria ∧ Aligned c m) ?_
    ⟨mapped_onInitMemory c heap, length_malloc heap c.tamMemoria, fun d hd => by cases hd⟩
  rintro m req m' ⟨hm, hmain, ha⟩ hstep
  exact ⟨hm.step hstep, (length_step hm.forest hstep).trans hmain, ha.step hm.forest hstep⟩

/-! ### The search for a record -/

lemma findRecord_congr {region region' : List UInt8} {starts : List ℕ}
    (h : ∀ j ∈ starts, peek region j 4 = peek region' j 4) :
    findRecord region frame starts = findRecord region' frame starts := by
  induction starts with
  | nil => rfl
  | cons j js ih =>
    simp only [findRecord]
    rw [h j List.mem_cons_self, ih fun k hk => h k (List.mem_cons_of_mem _ hk)]

/-- The last start is looked at if none before it has a record of the frame. -/
lemma findRecord_concat {region word : List UInt8} {starts : List ℕ} {i : ℕ}
    (hstarts : ∀ j ∈ starts, j + 4 ≤ region.length) (hi : peek region i 4 = some word)
    (hframe : bytesWord word = frame) :
    ∃ found, findRecord region frame starts = some found ∧ (∀ k, found = some k → k ∈ starts) ∧
      findRecord region frame (starts ++ [i]) = some (some (found.getD i)) := by
  induction starts with
  | nil => exact ⟨none, rfl, by simp, by simp [findRecord, hi, hframe]⟩
  | cons j js ih =>
    obtain ⟨found, hfound, hmem, hlast⟩ := ih fun k hk => hstarts k (List.mem_cons_of_mem _ hk)
    have hj := peek_isSome (hstarts j List.mem_cons_self)
    simp only [List.cons_append, findRecord, hj, Option.bind_eq_bind, Option.bind_some]
    split
    · exact ⟨some j, rfl, by simp, rfl⟩
    · exact ⟨found, hfound, fun k hk => List.mem_cons_of_mem _ (hmem k hk), hlast⟩

/-- Once a record was appended, the record of its frame that is found is an older one, or else
the new one. -/
lemma findRecord_appended {file file' : List UInt8} {n : ℕ} {r : Record} (hr : r.Fits c)
    (hpoke : poke file (n * swapEntry c) r.bytes = some file') (rest : List UInt8) :
    ∃ found, findRecord file r.frame (recordStarts c (n * swapEntry c)) = some found ∧
      (∀ k, found = some k → k + swapEntry c ≤ n * swapEntry c) ∧
      findRecord (file' ++ rest) r.frame (recordStarts c (n * swapEntry c + swapEntry c)) =
        some (some (found.getD (n * swapEntry c))) := by
  have hpos := swapEntry_pos c
  have hentry : swapEntry c = 4 + c.tamPagina := rfl
  have hroom := (poke_eq_some_iff.mp hpoke).1
  have hlen := length_of_poke hpoke
  rw [hr.length] at hroom
  rw [← Nat.succ_mul, recordStarts_eq, recordStarts_eq, List.range_succ, List.map_append,
    List.map_singleton]
  have hbelow : ∀ j ∈ (List.range n).map (· * swapEntry c), j + swapEntry c ≤ n * swapEntry c := by
    intro j hj
    obtain ⟨k, hk, rfl⟩ := List.mem_map.mp hj
    rw [← Nat.succ_mul]
    exact Nat.mul_le_mul_right _ (List.mem_range.mp hk)
  have hword : peek (file' ++ rest) (n * swapEntry c) 4 = some (r.bytes.take 4) := by
    have hread := (peek_eq_some_iff.mp (peek_of_poke hpoke)).2
    rw [peek_append (by omega), peek_isSome (by omega), hread, List.take_take, hr.length,
      Nat.min_eq_left (by omega)]
  obtain ⟨found, hfound, hmem, hlast⟩ := findRecord_concat
    (fun j hj => (by have := hbelow j hj; rw [List.length_append]; omega :
      j + 4 ≤ (file' ++ rest).length)) hword hr.word
  refine ⟨found, ?_, fun k hk => hbelow k (hmem k hk), hlast⟩
  rw [← hfound]
  refine findRecord_congr fun j hj => ?_
  have hj' := hbelow j hj
  rw [peek_append (by omega), peek_of_poke_disjoint hpoke (.inl (by omega))]

/-! ### A page that is loaded -/

/-- What is loaded: eight bytes of the record, and the rest of a fresh block. -/
lemma loadPage_page {region : List UInt8} {i : ℕ} {os : Os} (hframe : frame < c.noOfFrames)
    (h : loadPage c m region i frame os = some m') :
    8 ≤ c.tamPagina ∧ ∃ saved, peek region (i + 4) 8 = some saved ∧
      pageOf c m' frame = saved ++ (malloc os.heap c.tamPagina).drop 8 := by
  simp only [loadPage, Option.bind_eq_bind, Option.bind_eq_some_iff, Option.pure_def,
    Option.some.injEq] at h
  obtain ⟨saved, hsaved, frameData, hdata, mainMemory, hpoke, rfl⟩ := h
  have hlen := length_of_peek hsaved
  obtain ⟨hle, rfl⟩ := poke_eq_some_iff.mp hdata
  rw [length_malloc, hlen] at hle
  refine ⟨by omega, saved, hsaved, ?_⟩
  have hread := peek_of_poke hpoke
  rw [length_of_poke hdata, length_malloc, Nat.mul_comm] at hread
  rw [pageOf, getFrameAddress_eq hframe, hread, Option.getD_some, hlen]
  simp

lemma loadPage_isSome {region : List UInt8} {i : ℕ} (os : Os) (hpage : 8 ≤ c.tamPagina)
    (hregion : i + 4 + 8 ≤ region.length) (hframe : frame < c.noOfFrames)
    (hmain : m.mainMemory.length = c.tamMemoria) :
    ∃ m', loadPage c m region i frame os = some m' := by
  have hsaved := peek_isSome hregion
  have hlen := length_of_peek hsaved
  obtain ⟨frameData, hdata⟩ := exists_poke (b := malloc os.heap c.tamPagina) (o := 0)
    (d := (region.drop (i + 4)).take 8) (by rw [hlen, length_malloc]; omega)
  have hin := frame_inside hframe
  obtain ⟨mainMemory, hpoke⟩ := exists_poke (b := m.mainMemory) (o := c.tamPagina * frame)
    (d := frameData) (by rw [length_of_poke hdata, length_malloc, hmain, Nat.mul_comm]; exact hin)
  exact ⟨{ m with mainMemory }, by
    simp only [loadPage, hsaved, hdata, hpoke, Option.bind_eq_bind, Option.bind_some,
      Option.pure_def]⟩

lemma fillHole_isSome {region : List UInt8} {i offset : ℕ} (hi : i + c.tamPagina ≤ region.length)
    (hoffset : offset ≤ region.length) : ∃ x, fillHole c region i offset = some x := by
  unfold fillHole
  split
  · have hlast := peek_isSome (b := region) (o := offset - c.tamPagina) (n := c.tamPagina)
      (by omega)
    obtain ⟨region', hpoke⟩ := exists_poke (b := region) (o := i)
      (d := (region.drop (offset - c.tamPagina)).take c.tamPagina)
      (by rw [length_of_peek hlast]; exact hi)
    exact ⟨_, by simp only [hlast, hpoke, Option.bind_eq_bind, Option.bind_some]; rfl⟩
  · exact ⟨_, rfl⟩

lemma loadRecord_isSome (region : List UInt8) (i : ℕ) (os : Os) (hpage : 8 ≤ c.tamPagina)
    (hregion : i + 4 + 8 ≤ region.length) (hframe : frame < c.noOfFrames)
    (hmain : m.mainMemory.length = c.tamMemoria) :
    ∃ mainMemory, loadRecord c m region frame os (some i) = some { m with mainMemory } := by
  obtain ⟨m', h⟩ := loadPage_isSome os hpage hregion hframe hmain
  have hrecord : loadRecord c m region frame os (some i) = some m' := h
  obtain ⟨mainMemory, rfl⟩ := loadRecord_eq hrecord
  exact ⟨mainMemory, h⟩

lemma unswapFrameForPcb_isSome (hm : Mapped c m) (hmain : m.mainMemory.length = c.tamMemoria)
    {p : RowRef} {r : PageTableLvl2} (hr : m.rowAt p = some r) (hne : r.frame ≠ invalidFrame)
    {k i : ℕ} {d : SwapData} (hd : getSwapDataForPcb m pid = some (k, d)) {os : Os}
    (hos : reaches os d.size = true) (hpage : 8 ≤ c.tamPagina)
    (hfound : findRecord (mmap (fileOf m pid) d.size) r.frame (recordStarts c d.offset) =
      some (some i))
    (hi : i + swapEntry c ≤ (mmap (fileOf m pid) d.size).length)
    (hoffset : d.offset ≤ (mmap (fileOf m pid) d.size).length) :
    ∃ m', unswapFrameForPcb c m pid r.frame os = some m' := by
  simp only [reaches, Bool.and_eq_true, Bool.not_eq_true'] at hos
  obtain ⟨hopens, hmaps⟩ := hos
  have hentry : swapEntry c = 4 + c.tamPagina := rfl
  have hknown := hm.framesKnown.known p r hr hne
  obtain ⟨mainMemory, hload⟩ := loadRecord_isSome (m := setFile m pid (some (fileOf m pid)))
    (mmap (fileOf m pid) d.size) i os hpage (by omega) hknown hmain
  obtain ⟨⟨region, offset⟩, hfill⟩ := fillHole_isSome (c := c) (i := i) (by omega) hoffset
  -- the row of the frame is found again
  have hf : Forest c (Swap.setSwapOffset (setFile { setFile m pid (some (fileOf m pid)) with
      mainMemory } pid (some (munmap (fileOf m pid) region))) k offset) :=
    forest_sameRows (g := id) hm.forest (.of_eq _ rfl rfl rfl)
  obtain ⟨m', hpres⟩ := setPresent_isSome hf (p := p) hr true
  refine ⟨m', ?_⟩
  have hd' : getSwapDataForPcb (setFile m pid (some (fileOf m pid))) pid = some (k, d) := hd
  have hfile : (m.files pid).getD [] = fileOf m pid := rfl
  unfold unswapFrameForPcb
  simp only [openFile, hopens, if_true, hfile]
  simp only [hd', Option.bind_eq_bind, Option.bind_some, hmaps, Bool.false_eq_true, if_false,
    hfound, hload, Option.getD_some, hfill]
  exact hpres

/-- What is in the frame after a swap-in that finds a record of it. -/
lemma unswapFrameForPcb_page (hm : Mapped c m) {p : RowRef} {r : PageTableLvl2}
    (hr : m.rowAt p = some r) (hne : r.frame ≠ invalidFrame) {k i : ℕ} {d : SwapData}
    (hd : getSwapDataForPcb m pid = some (k, d)) {os : Os} (hos : reaches os d.size = true)
    (hfound : findRecord (mmap (fileOf m pid) d.size) r.frame (recordStarts c d.offset) =
      some (some i))
    (h : unswapFrameForPcb c m pid r.frame os = some m') :
    8 ≤ c.tamPagina ∧ m'.rowAt p = some { r with present := true } ∧
      ∃ saved, peek (mmap (fileOf m pid) d.size) (i + 4) 8 = some saved ∧
        pageOf c m' r.frame = saved ++ (malloc os.heap c.tamPagina).drop 8 := by
  simp only [reaches, Bool.and_eq_true, Bool.not_eq_true'] at hos
  obtain ⟨hopens, hmaps⟩ := hos
  rcases unswapFrameForPcb_cases h with ⟨hclosed, -⟩ | ⟨k', d', hd', -, h⟩
  · rw [hclosed] at hopens
    cases hopens
  obtain ⟨rfl, rfl⟩ : k = k' ∧ d = d' := by simpa [hd] using hd'
  rcases h with ⟨hfails, -⟩ | ⟨-, found, m₁, region, offset, hfound', hload, -, hpres⟩
  · rw [hfails] at hmaps
    cases hmaps
  rw [← fileOf] at hfound' hload
  obtain rfl : some i = found := by simpa [hfound] using hfound'
  obtain ⟨hpage, saved, hsaved, heq⟩ :=
    loadPage_page (hm.framesKnown.known p r hr hne) hload
  obtain ⟨mainMemory, rfl⟩ := loadRecord_eq hload
  obtain ⟨q, s, href, hs, -, rfl⟩ := setPresent_eq hpres
  have hm₁ : Mapped c (Swap.setSwapOffset (setFile { m with mainMemory } pid
      (some (munmap ((m.files pid).getD []) region))) k offset) :=
    hm.sameRows (.of_eq _ rfl rfl rfl)
  obtain rfl : p = q := by simpa [hm₁.getFrameRef_eq (p := p) hr hne] using href
  obtain rfl : r = s := Option.some.inj (hr.symm.trans hs)
  refine ⟨hpage, by rw [Memory.rowAt_setRow _ hs, if_pos rfl], saved, hsaved, ?_⟩
  rw [← heq, pageOf, pageOf, Memory.setRow_mainMemory]
  rfl

/-! ### Out and back -/

/-- A frame that a row holds, and a swap file with room for its record. -/
structure Ready (c : Cfg) (m : Memory) (pid : ℕ) (p : RowRef) (r : PageTableLvl2) (i : ℕ)
    (d : SwapData) : Prop where
  mapped : Mapped c m
  main : m.mainMemory.length = c.tamMemoria
  aligned : Aligned c m
  row : m.rowAt p = some r
  framed : r.frame ≠ invalidFrame
  data : getSwapDataForPcb m pid = some (i, d)
  room : d.offset + swapEntry c ≤ d.size

/-- What may happen between the two calls: main memory changes in any way, and so does all that
belongs to others. -/
structure Meanwhile (c : Cfg) (pid : ℕ) (p : RowRef) (frame : ℕ) (m₁ m₂ : Memory) : Prop where
  mapped : Mapped c m₂
  main : m₂.mainMemory.length = c.tamMemoria
  row : ∃ r, m₂.rowAt p = some r ∧ r.frame = frame
  data : getSwapDataForPcb m₂ pid = getSwapDataForPcb m₁ pid
  file : m₂.files pid = m₁.files pid

/-- The page goes out, and comes back as it was. -/
def Restores (c : Cfg) (m : Memory) (pid : ℕ) (p : RowRef) (frame : ℕ) (os os' : Os) : Prop :=
  ∃ m₁, swapFrameForPcb c m pid frame os = some m₁ ∧
    ∀ m₂, Meanwhile c pid p frame m₁ m₂ →
      ∃ m₃, unswapFrameForPcb c m₂ pid frame os' = some m₃ ∧
        pageOf c m₃ frame = pageOf c m frame ∧
        ∃ r, m₃.rowAt p = some r ∧ r.frame = frame ∧ r.present = true

/-- Eight bytes and a fresh block make up the page: there are eight bytes to a page, the block
holds the others already, and an older record of the frame starts with the same eight. -/
structure Recovers (c : Cfg) (m : Memory) (pid frame : ℕ) (d : SwapData) (os' : Os) : Prop where
  page : 8 ≤ c.tamPagina
  heap : (malloc os'.heap c.tamPagina).drop 8 = (pageOf c m frame).drop 8
  older : ∀ k, findRecord (swapFileOf m pid d.size) frame (recordStarts c d.offset) =
      some (some k) →
    peek (swapFileOf m pid d.size) (k + 4) 8 = some ((pageOf c m frame).take 8)

/-- The state after the page went out. -/
structure Saved (c : Cfg) (m : Memory) (pid frame i : ℕ) (d : SwapData) (m₁ : Memory) : Prop where
  rows : SameRows absent m m₁
  main : m₁.mainMemory = m.mainMemory
  data : getSwapDataForPcb m₁ pid = some (i, { d with offset := d.offset + swapEntry c })
  fits : (Record.mk frame (pageOf c m frame)).Fits c
  file : ∃ file', m₁.files pid = some file' ∧
    poke (swapFileOf m pid d.size) d.offset (Record.mk frame (pageOf c m frame)).bytes = some file'

variable {p : RowRef} {r : PageTableLvl2} {i : ℕ} {d : SwapData} {os os' : Os}

lemma invalidFrame_lt : invalidFrame < 2 ^ 32 := by decide

lemma Ready.frame_lt (h : Ready c m pid p r i d) : r.frame < 2 ^ 32 := by
  have hknown := h.mapped.framesKnown.known p r h.row h.framed
  have hlt := c.noOfFrames_lt
  have := invalidFrame_lt
  omega

lemma Ready.saved (h : Ready c m pid p r i d) (hos : reaches os d.size = true)
    (hswap : swapFrameForPcb c m pid r.frame os = some m₁) : Saved c m pid r.frame i d m₁ := by
  have hrows := sameRows_swapFrameForPcb hswap
  have hsize := (h.aligned.mem h.data).size
  simp only [reaches, Bool.and_eq_true, Bool.not_eq_true'] at hos
  obtain ⟨hopens, hmaps⟩ := hos
  rcases swapFrameForPcb_cases hswap with ⟨hnone | hclosed, -⟩ | ⟨i', d', hd', -, hswap⟩
  · cases h.data.symm.trans hnone
  · rw [hclosed] at hopens
    cases hopens
  obtain ⟨rfl, rfl⟩ : i = i' ∧ d = d' := by simpa [h.data] using hd'
  rcases hswap with ⟨hfails, -⟩ | ⟨-, region, offset, hswap, hpres⟩
  · rw [hfails] at hmaps
    cases hmaps
  have hlen : (swapFileOf m pid d.size).length = d.size := length_ftruncate _ _
  have hswap' : swapFrame c m r.frame (mmap (swapFileOf m pid d.size)
      (swapFileOf m pid d.size).length) d.offset = some (region, offset) := by
    rw [hlen]
    exact hswap
  have hroom := h.room
  obtain ⟨hfits, rfl, hpoke⟩ := swapFrame_eq (by omega) (by omega) h.frame_lt hswap'
  obtain ⟨l, rfl⟩ := setPresent_fields hpres
  refine ⟨hrows, rfl, getSwapDataForPcb_setSwapOffset hd' _, hfits, _, ?_, hpoke⟩
  simp [Swap.setSwapOffset, setFile]

lemma Saved.meanwhile (hs : Saved c m pid r.frame i d m₁) (h : Ready c m pid p r i d) :
    Meanwhile c pid p r.frame m₁ m₁ := by
  obtain ⟨r₁, hr₁, hsame⟩ := hs.rows.rowAt_some h.row
  have hframe := congrArg PageTableLvl2.frame hsame
  exact ⟨h.mapped.sameRows (hs.rows.comp PageTableLvl2.frame), by rw [hs.main, h.main],
    ⟨r₁, hr₁, hframe⟩, rfl, rfl⟩

/-- Where the page is looked for when it comes back, and the eight bytes that are there. -/
lemma Saved.found (hs : Saved c m pid r.frame i d m₁) (h : Ready c m pid p r i d)
    (m₂ : Memory) (hfile : m₂.files pid = m₁.files pid) :
    ∃ k, findRecord (mmap (fileOf m₂ pid) d.size) r.frame
        (recordStarts c (d.offset + swapEntry c)) = some (some k) ∧
      k ≤ d.offset ∧ (mmap (fileOf m₂ pid) d.size).length = roundUp d.size ∧
      (8 ≤ c.tamPagina → (peek (mmap (fileOf m₂ pid) d.size) (k + 4) 8 =
          some ((pageOf c m r.frame).take 8) ↔
        ∀ k, findRecord (swapFileOf m pid d.size) r.frame (recordStarts c d.offset) =
            some (some k) →
          peek (swapFileOf m pid d.size) (k + 4) 8 = some ((pageOf c m r.frame).take 8))) := by
  obtain ⟨file', hfile', hpoke⟩ := hs.file
  obtain ⟨n, hn⟩ := (h.aligned.mem h.data).dvd
  rw [Nat.mul_comm] at hn
  have hlen : (swapFileOf m pid d.size).length = d.size := length_ftruncate _ _
  have hlen' : file'.length = d.size := (length_of_poke hpoke).trans hlen
  have hroom := h.room
  have hentry : swapEntry c = 4 + c.tamPagina := rfl
  have hfits := hs.fits
  obtain ⟨pad, hpad⟩ := mmap_eq file'
  have hmap : (mmap file' d.size).length = roundUp d.size := by
    rw [← hlen', length_mmap_self]
  rw [hlen'] at hpad
  have hback : fileOf m₂ pid = file' := by rw [fileOf, hfile, hfile', Option.getD_some]
  rw [hn] at hpoke
  obtain ⟨found, hfound, hbelow, hlast⟩ := findRecord_appended hfits hpoke pad
  have hk : found.getD d.offset ≤ d.offset := by
    cases found with
    | none => exact Nat.le_refl _
    | some k =>
      have := hbelow k rfl
      simp only [Option.getD_some]
      omega
  rw [hback, hpad, hn]
  refine ⟨_, hlast, hn ▸ hk, hpad ▸ hmap, fun hpage => ?_⟩
  cases found with
  | none =>
    -- the new record is the first one
    have hnew := peek_of_poke hpoke
    have hread : peek (file' ++ pad) (n * swapEntry c + 4) 8 =
        some ((pageOf c m r.frame).take 8) := by
      rw [peek_append (by omega), peek_isSome (by omega)]
      obtain ⟨-, hbytes⟩ := peek_eq_some_iff.mp hnew
      have hpart : (file'.drop (n * swapEntry c + 4)).take 8 =
          (((file'.drop (n * swapEntry c)).take (4 + c.tamPagina)).drop 4).take 8 := by
        rw [List.drop_take, List.drop_drop, List.take_take, Nat.min_eq_left (by omega)]
      have hwidth : (Record.mk r.frame (pageOf c m r.frame)).bytes.length = 4 + c.tamPagina :=
        hfits.length
      rw [hwidth] at hbytes
      rw [hpart, ← hbytes, Record.bytes, List.drop_left' (length_wordBytes _)]
    simp only [Option.getD_none, hread, true_iff]
    intro k hk
    cases hfound.symm.trans hk
  | some k =>
    -- an older record of the frame was not touched
    have hbefore := hbelow k rfl
    have hsame : peek (file' ++ pad) (k + 4) 8 = peek (swapFileOf m pid d.size) (k + 4) 8 := by
      rw [peek_append (by omega), peek_of_poke_disjoint hpoke (.inl (by omega))]
    simp only [Option.getD_some, hsame]
    constructor
    · intro heq k' hk'
      obtain rfl : k = k' := by simpa using hfound.symm.trans hk'
      exact heq
    · intro hall
      exact hall k hfound

lemma Ready.isSome (h : Ready c m pid p r i d) (os : Os) :
    ∃ m₁, swapFrameForPcb c m pid r.frame os = some m₁ := by
  refine (swapFrameForPcb_isSome_iff h.mapped h.main h.row pid os).mpr fun i' d' hd' _ => ?_
  obtain ⟨rfl, rfl⟩ : i = i' ∧ d = d' := by simpa [h.data] using hd'
  exact ⟨h.framed, h.room.trans (le_roundUp d.size)⟩

lemma Restores.recovers (h : Ready c m pid p r i d) (hos : reaches os d.size = true)
    (hos' : reaches os' d.size = true) (hback : Restores c m pid p r.frame os os') :
    Recovers c m pid r.frame d os' := by
  obtain ⟨m₁, hswap, hback⟩ := hback
  have hs := h.saved hos hswap
  have hmean := hs.meanwhile h
  obtain ⟨m₃, hunswap, hpage, -⟩ := hback m₁ hmean
  obtain ⟨r₁, hr₁, hframe⟩ := hmean.row
  obtain ⟨k, hfound, -, -, hiff⟩ := hs.found h m₁ rfl
  obtain ⟨height, -, saved, hsaved, heq⟩ := unswapFrameForPcb_page hmean.mapped hr₁
    (hframe ▸ h.framed) hs.data hos' (hframe ▸ hfound) (hframe ▸ hunswap)
  have hlen := length_of_peek hsaved
  rw [hframe, hpage] at heq
  have hfront : (pageOf c m r.frame).take 8 = saved := by
    rw [heq, List.take_left' hlen]
  refine ⟨height, by rw [heq, List.drop_left' hlen], (hiff height).mp ?_⟩
  rw [hfront]
  exact hsaved

lemma Recovers.restores (h : Ready c m pid p r i d) (hos : reaches os d.size = true)
    (hos' : reaches os' d.size = true) (hrec : Recovers c m pid r.frame d os') :
    Restores c m pid p r.frame os os' := by
  obtain ⟨m₁, hswap⟩ := h.isSome os
  have hs := h.saved hos hswap
  refine ⟨m₁, hswap, fun m₂ hmean => ?_⟩
  obtain ⟨r₂, hr₂, hframe⟩ := hmean.row
  obtain ⟨k, hfound, hk, hlen, hiff⟩ := hs.found h _ hmean.file
  have hsaved := (hiff hrec.page).mpr hrec.older
  have hdata := hmean.data.trans hs.data
  have hroom := h.room
  have hle := le_roundUp d.size
  have hne₂ : r₂.frame ≠ invalidFrame := hframe ▸ h.framed
  obtain ⟨m₃, hunswap⟩ := unswapFrameForPcb_isSome hmean.mapped hmean.main hr₂ hne₂ hdata hos'
    hrec.page (hframe ▸ hfound) (by simp only [hlen]; omega) (by simp only [hlen]; omega)
  obtain ⟨-, hr₃, saved, hsaved', heq⟩ := unswapFrameForPcb_page hmean.mapped hr₂ hne₂
    hdata hos' (hframe ▸ hfound) hunswap
  obtain rfl : (pageOf c m r.frame).take 8 = saved := by
    simpa using hsaved.symm.trans hsaved'
  refine ⟨m₃, hframe ▸ hunswap, ?_, _, hr₃, hframe, rfl⟩
  rw [← hframe, heq, hrec.heap, hframe, List.take_append_drop]

/-- **Round trip.** A page that goes out and comes back is what it was if and only if the eight
bytes that are read back and the fresh block make up the page. -/
theorem restores_iff (h : Ready c m pid p r i d) (hos : reaches os d.size = true)
    (hos' : reaches os' d.size = true) :
    Restores c m pid p r.frame os os' ↔ Recovers c m pid r.frame d os' :=
  ⟨fun hback => hback.recovers h hos hos', fun hrec => hrec.restores h hos hos'⟩

/-! ### Two page sizes -/

def onePage (size address : UInt32) : List Request :=
  [.memoryInit 1 size unmappedOs, .frame 1 0 0 goodOs goodOs, .wt address 5]

lemma onePage_eight : ∃ m,
    run (step smallCfg) (onInitMemory smallCfg fun _ => 0) (onePage 12 4) = some m ∧
      m.rowAt (0, 0) = some ⟨0, true, true, true⟩ ∧
      getSwapDataForPcb m 1 = some (0, ⟨1, 0, 12⟩) ∧
      pageOf smallCfg m 0 = [0, 0, 0, 0, 5, 0, 0, 0] := ⟨_, rfl, rfl, rfl, rfl⟩

theorem restores_iff_eight : ∃ m r i d,
    run (step smallCfg) (onInitMemory smallCfg fun _ => 0) (onePage 12 4) = some m ∧
      Ready smallCfg m 1 (0, 0) r i d ∧ Restores smallCfg m 1 (0, 0) r.frame goodOs goodOs := by
  obtain ⟨m, hrun, hrow, hdata, hpage⟩ := onePage_eight
  obtain ⟨hm, hmain, ha⟩ := whole_of_reachable ⟨_, hrun⟩
  have hready : Ready smallCfg m 1 (0, 0) ⟨0, true, true, true⟩ 0 ⟨1, 0, 12⟩ :=
    ⟨hm, hmain, ha, hrow, by decide, hdata, by decide⟩
  refine ⟨m, _, _, _, hrun, hready, (restores_iff hready rfl rfl).mpr ⟨by decide, ?_, ?_⟩⟩
  · rw [hpage]
    decide
  · -- there is no older record
    intro k hk
    cases hk

def wideCfg : Cfg := { smallCfg with tamPagina := 16, tamPagina_pos := by decide,
                                     tamPagina_lt := by decide }

lemma onePage_sixteen : ∃ m,
    run (step wideCfg) (onInitMemory wideCfg fun _ => 0) (onePage 20 8) = some m ∧
      m.rowAt (0, 0) = some ⟨0, true, true, true⟩ ∧
      getSwapDataForPcb m 1 = some (0, ⟨1, 0, 20⟩) ∧
      pageOf wideCfg m 0 = [0, 0, 0, 0, 0, 0, 0, 0, 5, 0, 0, 0, 0, 0, 0, 0] :=
  ⟨_, rfl, rfl, rfl, rfl⟩

/-- The ninth byte of the page is not read back. -/
theorem not_restores_sixteen : ∃ m r i d,
    run (step wideCfg) (onInitMemory wideCfg fun _ => 0) (onePage 20 8) = some m ∧
      Ready wideCfg m 1 (0, 0) r i d ∧ ¬ Restores wideCfg m 1 (0, 0) r.frame goodOs goodOs := by
  obtain ⟨m, hrun, hrow, hdata, hpage⟩ := onePage_sixteen
  obtain ⟨hm, hmain, ha⟩ := whole_of_reachable ⟨_, hrun⟩
  have hready : Ready wideCfg m 1 (0, 0) ⟨0, true, true, true⟩ 0 ⟨1, 0, 20⟩ :=
    ⟨hm, hmain, ha, hrow, by decide, hdata, by decide⟩
  refine ⟨m, _, _, _, hrun, hready, fun hback => ?_⟩
  have hheap := (hback.recovers hready rfl rfl).heap
  rw [hpage] at hheap
  exact absurd hheap (by decide)

end Sski.Mem.RoundTrip
