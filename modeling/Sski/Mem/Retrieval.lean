import Sski.Mem.RoundTrip

/-!
A swapped process is retrieved: the loop over the records of its swap file.

The bound of the loop is the offset of the file. A record of an absent page moves the offset
behind itself, and so ends the loop: what lies behind it is given up. A record of a page that is
present is loaded, over what the page holds by now.
-/

namespace Sski.Mem.Retrieval

open Sski.Lib.Block Sski.Lib.Runs Sski.Mem.MemoryModule Sski.Mem.PageTable Sski.Mem.OsMemory
open Sski.Mem.Swap Sski.Mem.CpuController Sski.Mem.KernelController Sski.Mem.Tables Sski.Mem.Rows
open Sski.Mem.Frames Sski.Mem.SwapFile Sski.Mem.Faults Sski.Mem.PageFault Sski.Mem.RoundTrip

variable {c : Cfg} {m m' m₁ : Memory} {pid k : ℕ}

/-! ### Records in a file -/

def recordAt (c : Cfg) (file : List UInt8) (i : ℕ) : Record :=
  ⟨bytesWord ((file.drop i).take 4), (file.drop (i + 4)).take c.tamPagina⟩

def recordOf (c : Cfg) (m : Memory) (pid j : ℕ) : Record :=
  recordAt c (fileOf m pid) (j * swapEntry c)

def owner (c : Cfg) (m : Memory) (frame : ℕ) : Option PageTableLvl2 := do
  let p ← (← getFrameRef c m frame)
  m.rowAt p

/-- What a turn of the loop puts into a frame. -/
def reloaded (c : Cfg) (r : Record) (block : ℕ → UInt8) : List UInt8 :=
  r.page.take 8 ++ (malloc block c.tamPagina).drop 8

lemma frame_of_owner {frame : ℕ} {r : PageTableLvl2} (h : owner c m frame = some r) :
    (∃ p, m.rowAt p = some r) ∧ r.frame = frame := by
  simp only [owner, Option.bind_eq_bind, Option.bind_eq_some_iff] at h
  obtain ⟨_, href, p, rfl, hr⟩ := h
  obtain ⟨r', hr', hframe⟩ := getFrameRef_holds href
  obtain rfl : r = r' := by simpa [hr] using hr'
  exact ⟨⟨p, hr⟩, hframe⟩

lemma owner_of_row (hm : Mapped c m) {p : RowRef} {r : PageTableLvl2}
    (hr : m.rowAt p = some r) (hne : r.frame ≠ invalidFrame) : owner c m r.frame = some r := by
  simp only [owner, hm.getFrameRef_eq hr hne, Option.bind_eq_bind, Option.bind_some, hr]

lemma unswapRecord_eq {region : List UInt8} {os : Os} {i : ℕ} {word : List UInt8}
    (hword : peek region i 4 = some word) :
    unswapRecord c m k region os i = (owner c m (bytesWord word)).bind fun r =>
      if r.present then loadPage c m region i r.frame os
      else some (setSwapOffset m k ((i + swapEntry c) % 2 ^ 32)) := by
  simp only [unswapRecord, owner, hword, Option.bind_eq_bind, Option.bind_some, Option.bind_assoc,
    Option.pure_def]

/-! ### One turn -/

structure Region (c : Cfg) (region : List UInt8) (records : ℕ → Record) (n : ℕ) : Prop where
  word : ∀ j < n, ∃ word, peek region (j * swapEntry c) 4 = some word ∧
    bytesWord word = (records j).frame
  page : ∀ j < n, 8 ≤ c.tamPagina →
    peek region (j * swapEntry c + 4) 8 = some ((records j).page.take 8)

/-- The state a loop over `n` records runs in. -/
structure Running (c : Cfg) (m : Memory) (k n : ℕ) : Prop where
  mapped : Mapped c m
  main : m.mainMemory.length = c.tamMemoria
  offset : ∃ d, m.swapData[k]? = some d ∧ d.offset = n * swapEntry c
  small : n * swapEntry c < 2 ^ 32

variable {region : List UInt8} {records : ℕ → Record} {n j : ℕ} {os : Os}
  {blocks : ℕ → ℕ → UInt8}

lemma Running.offsetAt (h : Running c m k n) : offsetAt m k = n * swapEntry c := by
  obtain ⟨d, hd, hoff⟩ := h.offset
  rw [Swap.offsetAt, hd, Option.map_some, Option.getD_some, hoff]

lemma loadPage_ne {i frame f : ℕ} (hf : f < c.noOfFrames) (hne : f ≠ frame)
    (h : loadPage c m region i frame os = some m') :
    pageOf c m' f = pageOf c m f := by
  simp only [loadPage, Option.bind_eq_bind, Option.bind_eq_some_iff, Option.pure_def,
    Option.some.injEq] at h
  obtain ⟨saved, -, frameData, hdata, mainMemory, hpoke, rfl⟩ := h
  have hlen : frameData.length = c.tamPagina := by rw [length_of_poke hdata, length_malloc]
  rw [pageOf, pageOf, getFrameAddress_eq hf]
  rw [peek_of_poke_disjoint hpoke]
  rw [hlen, Nat.mul_comm c.tamPagina]
  rcases Nat.lt_or_gt_of_ne hne with hlt | hgt
  · left
    rw [← Nat.succ_mul]
    exact Nat.mul_le_mul_right _ hlt
  · right
    rw [← Nat.succ_mul]
    exact Nat.mul_le_mul_right _ hgt

/-- A turn at the record of a page that is present. -/
lemma unswapRecord_present (os : Os) (hr : Region c region records n) (h : Running c m k n)
    (hj : j < n)
    {r : PageTableLvl2} (howner : owner c m (records j).frame = some r)
    (hpres : r.present = true) (hne : r.frame ≠ invalidFrame) (hpage : 8 ≤ c.tamPagina) :
    ∃ mainMemory, unswapRecord c m k region os (j * swapEntry c) = some { m with mainMemory } ∧
      mainMemory.length = c.tamMemoria ∧
      pageOf c { m with mainMemory } r.frame = reloaded c (records j) os.heap ∧
      ∀ f < c.noOfFrames, f ≠ r.frame → pageOf c { m with mainMemory } f = pageOf c m f := by
  obtain ⟨word, hword, hframe⟩ := hr.word j hj
  obtain ⟨⟨p, hp⟩, -⟩ := frame_of_owner howner
  have hknown := h.mapped.framesKnown.known p r hp hne
  have hsaved := hr.page j hj hpage
  have hroom := (peek_eq_some_iff.mp hsaved).1
  obtain ⟨m', hload⟩ := loadPage_isSome (m := m) (i := j * swapEntry c) os hpage hroom hknown h.main
  obtain ⟨-, saved, hsaved', heq⟩ := loadPage_page hknown hload
  have hother := fun f hf hne => loadPage_ne (f := f) hf hne hload
  have hrecord : loadRecord c m region r.frame os (some (j * swapEntry c)) = some m' :=
    hload
  have hlen := length_loadRecord hrecord
  obtain ⟨mainMemory, rfl⟩ := loadRecord_eq hrecord
  refine ⟨mainMemory, ?_, hlen.trans h.main, ?_, hother⟩
  · rw [unswapRecord_eq hword, hframe, howner, Option.bind_some, if_pos hpres, hload]
  · obtain rfl := Option.some.inj (hsaved.symm.trans hsaved')
    exact heq

/-- A turn at the record of a page that is absent. -/
lemma unswapRecord_absent (hr : Region c region records n) (h : Running c m k n) (hj : j < n)
    {r : PageTableLvl2} (howner : owner c m (records j).frame = some r)
    (habs : r.present = false) :
    unswapRecord c m k region os (j * swapEntry c) =
      some (setSwapOffset m k ((j + 1) * swapEntry c)) := by
  obtain ⟨word, hword, hframe⟩ := hr.word j hj
  have hle : (j + 1) * swapEntry c ≤ n * swapEntry c := Nat.mul_le_mul_right _ hj
  have hsmall := h.small
  rw [unswapRecord_eq hword, hframe, howner, Option.bind_some, if_neg (by simp [habs]),
    ← Nat.succ_mul, Nat.mod_eq_of_lt (hle.trans_lt hsmall)]

lemma unswapRecord_some (hr : Region c region records n) (hj : j < n)
    (hlen : m.mainMemory.length = c.tamMemoria)
    (h : unswapRecord c m k region os (j * swapEntry c) = some m') :
    ∃ r, owner c m (records j).frame = some r ∧
      (r.present = true → r.frame ≠ invalidFrame ∧ 8 ≤ c.tamPagina) := by
  obtain ⟨word, hword, hframe⟩ := hr.word j hj
  rw [unswapRecord_eq hword, hframe, Option.bind_eq_some_iff] at h
  obtain ⟨r, howner, h⟩ := h
  refine ⟨r, howner, fun hpres => ?_⟩
  rw [if_pos hpres] at h
  simp only [loadPage, Option.bind_eq_bind, Option.bind_eq_some_iff, Option.pure_def,
    Option.some.injEq] at h
  obtain ⟨saved, hsaved, frameData, hdata, mainMemory, hpoke, -⟩ := h
  have hroom := (poke_eq_some_iff.mp hdata).1
  rw [length_malloc, length_of_peek hsaved] at hroom
  refine ⟨fun hinv => ?_, by omega⟩
  have hmem := (poke_eq_some_iff.mp hpoke).1
  have hlt := c.tamMemoria_lt
  have hinvalid : invalidFrame = 2 ^ 32 - 1 := rfl
  have hmul : invalidFrame ≤ c.tamPagina * r.frame := by
    rw [hinv]
    exact Nat.le_mul_of_pos_left _ c.tamPagina_pos
  omega

/-! ### The loop -/

/-- A record that the loop passes without ending before the last one. -/
def Passes (c : Cfg) (m : Memory) (records : ℕ → Record) (n j : ℕ) : Prop :=
  ∃ r, owner c m (records j).frame = some r ∧
    ((r.present = true ∧ r.frame ≠ invalidFrame ∧ 8 ≤ c.tamPagina) ∨
      (r.present = false ∧ j + 1 = n))

/-- What the turns from `j` on did to the pages: the last record of a frame counts. -/
structure Reloads (c : Cfg) (records : ℕ → Record) (blocks : ℕ → ℕ → UInt8) (n j : ℕ)
    (m m₁ : Memory) : Prop where
  rest : ∃ mainMemory, m₁ = { m with mainMemory }
  kept : ∀ f < c.noOfFrames, (∀ l, j ≤ l → l < n → ∀ r, owner c m (records l).frame = some r →
    r.present = true → r.frame ≠ f) → pageOf c m₁ f = pageOf c m f
  loaded : ∀ l r, j ≤ l → l < n → owner c m (records l).frame = some r → r.present = true →
    (∀ l', l < l' → l' < n → (records l').frame ≠ (records l).frame) →
    pageOf c m₁ r.frame = reloaded c (records l) (blocks (l * swapEntry c))

lemma Running.load (h : Running c m k n) {mainMemory : List UInt8}
    (hlen : mainMemory.length = c.tamMemoria) : Running c { m with mainMemory } k n :=
  ⟨h.mapped.sameRows (.of_eq _ rfl rfl rfl), hlen, h.offset, h.small⟩

lemma Running.setSwapOffset (h : Running c m k n) : setSwapOffset m k (n * swapEntry c) = m := by
  obtain ⟨d, hd, hoff⟩ := h.offset
  have hmodify : (m.swapData.modify k fun d => { d with offset := n * swapEntry c }) =
      m.swapData := by
    refine List.ext_getElem? fun i => ?_
    rw [List.getElem?_modify]
    by_cases hi : k = i
    · subst hi
      rw [hd, ← hoff]
      simp
    · simp [hi]
  rw [Swap.setSwapOffset, hmodify]

lemma offsetAt_setSwapOffset (h : Running c m k n) (offset : ℕ) :
    offsetAt (Swap.setSwapOffset m k offset) k = offset := by
  obtain ⟨d, hd, -⟩ := h.offset
  simp [Swap.offsetAt, Swap.setSwapOffset, hd]

/-- Every record is passed: the loop reaches the offset. -/
lemma unswapRecords_of_passes (os : Os) (blocks : ℕ → ℕ → UInt8) (fuel : ℕ)
    (hr : Region c region records n) (h : Running c m k n) (hj : j ≤ n) (hfuel : n < j + fuel)
    (hpass : ∀ l, j ≤ l → l < n → Passes c m records n l) :
    ∃ m₁, unswapRecords c k region os blocks fuel m (j * swapEntry c) =
        some (m₁, n * swapEntry c) ∧ Reloads c records blocks n j m m₁ := by
  induction fuel generalizing m j with
  | zero => omega
  | succ fuel ih =>
    have hoffset := h.offsetAt
    simp only [unswapRecords, hoffset]
    rcases Nat.lt_or_ge j n with hlt | hge
    · have hle : (j + 1) * swapEntry c ≤ n * swapEntry c := Nat.mul_le_mul_right _ hlt
      have hpos := swapEntry_pos c
      rw [if_pos (Nat.mul_lt_mul_of_pos_right hlt (by omega)), ← Nat.succ_mul]
      obtain ⟨r, howner, ⟨hpres, hne, hpage⟩ | ⟨habs, hlast⟩⟩ := hpass j (Nat.le_refl j) hlt
      · -- the page is present: its frame is written, the loop goes on
        obtain ⟨mainMemory, hturn, hlen, hpageOf, hother⟩ :=
          unswapRecord_present { os with heap := blocks (j * swapEntry c) } hr h hlt howner hpres
            hne hpage
        obtain ⟨m₁, hloop, ⟨rest, rfl⟩, hkept, hloaded⟩ := ih (h.load hlen) (j := j + 1)
          hlt (by omega) fun l hl hln => hpass l (by omega) hln
        rw [hturn, Option.bind_eq_bind, Option.bind_some]
        refine ⟨_, hloop, ⟨rest, rfl⟩, fun f hf hnot => ?_,
          fun l r' hl hln howner' hpres' hlater => ?_⟩
        · rw [hkept f hf fun l hl hln => hnot l (by omega) hln]
          exact hother f hf (Ne.symm (hnot j (Nat.le_refl j) hlt r howner hpres))
        · rcases Nat.eq_or_lt_of_le hl with rfl | hl
          · -- no later record of the frame
            obtain rfl : r = r' := Option.some.inj (howner.symm.trans howner')
            obtain ⟨⟨p, hp⟩, hframe⟩ := frame_of_owner howner
            have hknown := h.mapped.framesKnown.known p r hp hne
            rw [hkept r.frame hknown fun l' hl' hln' r' hr' _ hsame => ?_]
            · exact hpageOf
            · refine hlater l' hl' hln' ?_
              rw [← (frame_of_owner (m := { m with mainMemory }) hr').2, hsame, hframe]
          · exact hloaded l r' hl hln howner' hpres' hlater
      · -- the page is absent, and its record is the last one
        rw [unswapRecord_absent hr h hlt howner habs, hlast, h.setSwapOffset, Option.bind_eq_bind,
          Option.bind_some]
        obtain ⟨m₁, hloop, hrel⟩ := ih h (j := n) (Nat.le_refl n) (by omega) (by omega)
        refine ⟨m₁, by rw [Nat.succ_eq_add_one, hlast, hloop], hrel.rest,
          fun f hf _ => hrel.kept f hf (by omega), fun l r' hl hln howner' hpres' => ?_⟩
        obtain rfl : l = j := by omega
        obtain rfl : r = r' := Option.some.inj (howner.symm.trans howner')
        rw [habs] at hpres'
        cases hpres'
    · obtain rfl : j = n := by omega
      rw [if_neg (Nat.lt_irrefl _)]
      exact ⟨m, rfl, ⟨m.mainMemory, rfl⟩, fun _ _ _ => rfl, fun l _ hl hln => by omega⟩

/-- A loop that reaches the offset passed every record. -/
lemma passes_of_unswapRecords (hr : Region c region records n) {fuel i : ℕ}
    (h : Running c m k n) (hj : j ≤ n)
    (hloop : unswapRecords c k region os blocks fuel m (j * swapEntry c) = some (m₁, i))
    (hi : n * swapEntry c ≤ i) : ∀ l, j ≤ l → l < n → Passes c m records n l := by
  induction fuel generalizing m j with
  | zero => cases hloop
  | succ fuel ih =>
    intro l hl hln
    have hlt : j < n := by omega
    have hpos := swapEntry_pos c
    simp only [unswapRecords, h.offsetAt] at hloop
    rw [if_pos (Nat.mul_lt_mul_of_pos_right hlt (by omega)), ← Nat.succ_mul, Option.bind_eq_bind,
      Option.bind_eq_some_iff] at hloop
    obtain ⟨m₂, hturn, hloop⟩ := hloop
    obtain ⟨r, howner, hload⟩ := unswapRecord_some hr hlt h.main hturn
    cases hpres : r.present with
    | true =>
      obtain ⟨hne, hpage⟩ := hload hpres
      rcases Nat.eq_or_lt_of_le hl with rfl | hl
      · exact ⟨r, howner, .inl ⟨hpres, hne, hpage⟩⟩
      obtain ⟨mainMemory, hturn', hlen, -, -⟩ :=
        unswapRecord_present { os with heap := blocks (j * swapEntry c) } hr h hlt howner hpres hne
          hpage
      obtain rfl := Option.some.inj (hturn.symm.trans hturn')
      exact ih (h.load hlen) hlt hloop l hl hln
    | false =>
      rw [unswapRecord_absent hr h hlt howner hpres] at hturn
      obtain rfl := Option.some.inj hturn
      by_cases hlast : j + 1 = n
      · obtain rfl : l = j := by omega
        exact ⟨r, howner, .inr ⟨hpres, hlast⟩⟩
      -- the loop ends here, before the offset it started with
      have hshort : (j + 1) * swapEntry c < n * swapEntry c :=
        Nat.mul_lt_mul_of_pos_right (by omega) (by omega)
      cases fuel with
      | zero => cases hloop
      | succ fuel =>
        simp only [unswapRecords, offsetAt_setSwapOffset h, Nat.succ_eq_add_one, Nat.lt_irrefl,
          if_false, Option.some.injEq, Prod.mk.injEq] at hloop
        omega

/-! ### The whole process -/

/-- A process whose records lie inside its swap file. -/
structure Recorded (c : Cfg) (m : Memory) (pid k : ℕ) (d : SwapData) : Prop where
  mapped : Mapped c m
  main : m.mainMemory.length = c.tamMemoria
  data : getSwapDataForPcb m pid = some (k, d)
  whole : Whole c d
  size : d.offset ≤ d.size
  file : d.offset ≤ (fileOf m pid).length

/-- The loop ends, and not before every record was looked at. -/
def Examined (c : Cfg) (m : Memory) (pid k : ℕ) (d : SwapData) (os : Os)
    (blocks : ℕ → ℕ → UInt8) : Prop :=
  ∃ m₁ i, unswapRecords c k (mmap (fileOf m pid) d.size) os blocks (d.offset + 1)
    (setFile m pid (some (fileOf m pid))) 0 = some (m₁, i) ∧ d.offset ≤ i

/-- What the process can read is what it could read: the pages that are present, and the records
of those that are not. -/
structure Preserved (c : Cfg) (m m' : Memory) (pid k : ℕ) (d : SwapData) : Prop where
  pages : ∀ p r, m.rowAt p = some r → r.frame ≠ invalidFrame → r.present = true →
    pageOf c m' r.frame = pageOf c m r.frame
  records : ∀ j < d.offset / swapEntry c, ∀ r, owner c m (recordOf c m pid j).frame = some r →
    r.present = false →
    recordOf c m' pid j = recordOf c m pid j ∧ (j + 1) * swapEntry c ≤ offsetAt m' k

/-- Only the last record is that of an absent page, and what the other records put into the frames
is there already. -/
def Retrievable (c : Cfg) (m : Memory) (pid : ℕ) (d : SwapData) (blocks : ℕ → ℕ → UInt8) : Prop :=
  ∀ j < d.offset / swapEntry c,
    Passes c m (recordOf c m pid) (d.offset / swapEntry c) j ∧
    ∀ r, owner c m (recordOf c m pid j).frame = some r → r.present = true →
      (∀ l, j < l → l < d.offset / swapEntry c →
        (recordOf c m pid l).frame ≠ (recordOf c m pid j).frame) →
      reloaded c (recordOf c m pid j) (blocks (j * swapEntry c)) = pageOf c m r.frame

variable {d : SwapData}

lemma Recorded.offset (h : Recorded c m pid k d) :
    d.offset / swapEntry c * swapEntry c = d.offset := Nat.div_mul_cancel h.whole.dvd

/-- Below the end of the file a mapping is the file. -/
lemma peek_mmap {file : List UInt8} {size i w : ℕ} (hfile : i + w ≤ file.length)
    (hsize : i + w ≤ size) : peek (mmap file size) i w = some ((file.drop i).take w) := by
  have hle := le_roundUp file.length
  have hle' := le_roundUp size
  have hlen : i + w ≤ (mmap file size).length := by
    rw [length_mmap]
    omega
  rw [peek_isSome hlen, Option.some.injEq]
  refine List.ext_getElem? fun a => ?_
  rw [List.getElem?_take, List.getElem?_take]
  split
  · rw [List.getElem?_drop, List.getElem?_drop, mmap, List.getElem?_take, if_pos (by omega),
      List.getElem?_append_left (by omega)]
  · rfl

lemma Recorded.inFile (h : Recorded c m pid k d) :
    Region c (mmap (fileOf m pid) d.size) (recordOf c m pid) (d.offset / swapEntry c) := by
  have hentry : swapEntry c = 4 + c.tamPagina := rfl
  have hsize := h.size
  have hfile := h.file
  have hin : ∀ j < d.offset / swapEntry c, j * swapEntry c + swapEntry c ≤ d.offset := by
    intro j hj
    rw [← Nat.succ_mul]
    exact (Nat.mul_le_mul_right _ hj).trans h.offset.le
  constructor
  · intro j hj
    have hle := hin j hj
    exact ⟨_, peek_mmap (by omega) (by omega), rfl⟩
  · intro j hj hpage
    have hle := hin j hj
    rw [peek_mmap (by omega) (by omega)]
    simp only [recordOf, recordAt, List.take_take, Nat.min_eq_left hpage]

lemma Recorded.running (h : Recorded c m pid k d) (file : Option (List UInt8)) :
    Running c (setFile m pid file) k (d.offset / swapEntry c) where
  mapped := h.mapped.sameRows (.of_eq _ rfl rfl rfl)
  main := h.main
  offset := ⟨d, (getSwapDataForPcb_eq_some_iff.mp h.data).1, h.offset.symm⟩
  small := by
    rw [h.offset]
    exact h.whole.lt

lemma Recorded.examined_iff (h : Recorded c m pid k d) :
    Examined c m pid k d os blocks ↔ ∀ j < d.offset / swapEntry c,
      Passes c m (recordOf c m pid) (d.offset / swapEntry c) j := by
  have hrunning := h.running (some (fileOf m pid))
  have hoffset := h.offset
  have hzero : 0 * swapEntry c = 0 := Nat.zero_mul _
  constructor
  · rintro ⟨m₁, i, hloop, hi⟩ j hj
    rw [← hzero] at hloop
    exact passes_of_unswapRecords h.inFile hrunning (Nat.zero_le _) hloop (by omega) j
      (Nat.zero_le _) hj
  · intro hpass
    have hle : d.offset / swapEntry c ≤ d.offset := Nat.div_le_self _ _
    obtain ⟨m₁, hloop, -⟩ := unswapRecords_of_passes os blocks (d.offset + 1) h.inFile
      hrunning (Nat.zero_le _) (by omega) fun l _ hl => hpass l hl
    rw [hzero] at hloop
    exact ⟨m₁, _, hloop, hoffset.ge⟩

lemma Recorded.retrieved (h : Recorded c m pid k d) (hopens : os.opens = true)
    (hmaps : os.maps = true) (hexamined : Examined c m pid k d os blocks) :
    ∃ m', kernelControllerReadSwap c m pid os blocks = some m' ∧
      fileOf m' pid = fileOf m pid ∧ m'.swapData = m.swapData ∧
      (∀ f < c.noOfFrames, (∀ l < d.offset / swapEntry c, ∀ r,
        owner c m (recordOf c m pid l).frame = some r → r.present = true → r.frame ≠ f) →
        pageOf c m' f = pageOf c m f) ∧
      ∀ l < d.offset / swapEntry c, ∀ r, owner c m (recordOf c m pid l).frame = some r →
        r.present = true →
        (∀ l', l < l' → l' < d.offset / swapEntry c →
          (recordOf c m pid l').frame ≠ (recordOf c m pid l).frame) →
        pageOf c m' r.frame = reloaded c (recordOf c m pid l) (blocks (l * swapEntry c)) := by
  have hfile : (m.files pid).getD [] = fileOf m pid := rfl
  simp only [kernelControllerReadSwap, unswapPcb, openFile, hopens, if_true, hfile, h.data,
    Option.bind_eq_bind, Option.bind_some]
  by_cases hsize : d.size = 0
  · -- an empty file is not mapped, and has no records
    have hempty : d.offset / swapEntry c = 0 := by
      rw [show d.offset = 0 by have := h.size; omega, Nat.zero_div]
    rw [if_pos (by simp [mapFails, hsize])]
    refine ⟨_, rfl, by simp [fileOf, setFile], rfl, fun _ _ _ => rfl, fun l hl => ?_⟩
    omega
  · rw [if_neg (by simp [mapFails, hmaps, hsize])]
    obtain ⟨m₁, hloop, ⟨mainMemory, rfl⟩, hkept, hloaded⟩ := unswapRecords_of_passes os blocks
      (d.offset + 1) h.inFile (h.running (some (fileOf m pid))) (j := 0) (Nat.zero_le _)
      (by have := Nat.div_le_self d.offset (swapEntry c); omega)
      fun l _ hl => h.examined_iff.mp hexamined l hl
    rw [Nat.zero_mul] at hloop
    rw [hloop, Option.bind_some]
    refine ⟨_, rfl, ?_, rfl, fun f hf hnot => ?_, fun l hl r howner hpres hlater => ?_⟩
    · simp [fileOf, setFile, munmap_mmap]
    · exact hkept f hf fun l _ hl => hnot l hl
    · exact hloaded l r (Nat.zero_le l) hl howner hpres hlater

/-- The last record of a frame. -/
lemma exists_last {records : ℕ → Record} {n f : ℕ} (h : ∃ l < n, (records l).frame = f) :
    ∃ l < n, (records l).frame = f ∧ ∀ l', l < l' → l' < n → (records l').frame ≠ f := by
  obtain ⟨l, hl, hframe⟩ := h
  have hspec := Nat.findGreatest_spec (P := fun l => l < n ∧ (records l).frame = f) hl.le
    ⟨hl, hframe⟩
  refine ⟨_, hspec.1, hspec.2, fun l' hlt hl' hframe' => ?_⟩
  exact Nat.findGreatest_is_greatest hlt hl'.le ⟨hl', hframe'⟩

/-- **Retrieval.** A process that is retrieved can read what it could read, and every record was
looked at, if and only if only its last record is that of an absent page and the others are loaded
without effect. -/
theorem preserved_iff (h : Recorded c m pid k d) (hopens : os.opens = true)
    (hmaps : os.maps = true) :
    (∃ m', kernelControllerReadSwap c m pid os blocks = some m' ∧
      Examined c m pid k d os blocks ∧ Preserved c m m' pid k d) ↔
    Retrievable c m pid d blocks := by
  constructor
  · rintro ⟨m', hstep, hexamined, hpreserved⟩ j hj
    obtain ⟨m'', hstep', -, -, -, hloaded⟩ := h.retrieved hopens hmaps hexamined
    obtain rfl := Option.some.inj (hstep.symm.trans hstep')
    have hpass := h.examined_iff.mp hexamined j hj
    refine ⟨hpass, fun r howner hpres hlater => ?_⟩
    rw [← hloaded j hj r howner hpres hlater]
    obtain ⟨⟨p, hp⟩, -⟩ := frame_of_owner howner
    obtain ⟨r', howner', ⟨-, hne, -⟩ | ⟨habs, -⟩⟩ := hpass
    · obtain rfl : r = r' := Option.some.inj (howner.symm.trans howner')
      exact hpreserved.pages p r hp hne hpres
    · obtain rfl : r = r' := Option.some.inj (howner.symm.trans howner')
      rw [hpres] at habs
      cases habs
  · intro hret
    have hexamined : Examined c m pid k d os blocks :=
      h.examined_iff.mpr fun j hj => (hret j hj).1
    obtain ⟨m', hstep, hfile, hdata, hkept, hloaded⟩ := h.retrieved hopens hmaps hexamined
    refine ⟨m', hstep, hexamined, fun p r hr hne hpres => ?_, fun j hj r howner habs => ?_⟩
    · have howner := owner_of_row h.mapped hr hne
      by_cases hrec : ∃ l < d.offset / swapEntry c, (recordOf c m pid l).frame = r.frame
      · obtain ⟨l, hl, hframe, hlater⟩ := exists_last hrec
        rw [← hframe] at howner hlater
        rw [hloaded l hl r howner hpres hlater]
        exact (hret l hl).2 r howner hpres hlater
      · have hknown := h.mapped.framesKnown.known p r hr hne
        refine hkept r.frame hknown fun l hl r' howner' _ hsame => ?_
        exact hrec ⟨l, hl, (frame_of_owner howner').2.symm.trans hsame⟩
    · refine ⟨by rw [recordOf, recordOf, hfile], ?_⟩
      have hoffset : offsetAt m' k = d.offset := by
        have hget := (getSwapDataForPcb_eq_some_iff.mp h.data).1
        rw [offsetAt, hdata, hget, Option.map_some, Option.getD_some]
      rw [hoffset]
      exact (Nat.mul_le_mul_right _ hj).trans h.offset.le

/-! ### One record, and two -/

def touches (size : UInt32) (pages : List (UInt32 × UInt32)) : List Request :=
  .memoryInit 1 size unmappedOs :: pages.map fun p => .frame 1 p.1 p.2 goodOs goodOs

set_option maxRecDepth 40000 in
lemma touches_two : ∃ m, run (step singleCfg) (onInitMemory singleCfg fun _ => 0)
      (touches 12 [(0, 0), (0, 1)]) = some m ∧
    getSwapDataForPcb m 1 = some (0, ⟨1, 12, 12⟩) ∧ fileOf m 1 = List.replicate 12 0 ∧
    owner singleCfg m 0 = some ⟨0, false, false, false⟩ := ⟨_, rfl, rfl, rfl, rfl⟩

theorem preserved_iff_one : ∃ m d, run (step singleCfg) (onInitMemory singleCfg fun _ => 0)
      (touches 12 [(0, 0), (0, 1)]) = some m ∧ Recorded singleCfg m 1 0 d ∧
    ∃ m', kernelControllerReadSwap singleCfg m 1 goodOs (fun _ _ => 0) = some m' ∧
      Examined singleCfg m 1 0 d goodOs (fun _ _ => 0) ∧ Preserved singleCfg m m' 1 0 d := by
  obtain ⟨m, hrun, hdata, hfile, howner⟩ := touches_two
  obtain ⟨hm, hmain, ha⟩ := whole_of_reachable ⟨_, hrun⟩
  have hrec : Recorded singleCfg m 1 0 ⟨1, 12, 12⟩ :=
    ⟨hm, hmain, hdata, ha.mem hdata, by decide, by rw [hfile]; decide⟩
  refine ⟨m, _, hrun, hrec, (preserved_iff hrec rfl rfl).mpr fun j hj => ?_⟩
  obtain rfl : j = 0 := by
    have hone : (12 : ℕ) / swapEntry singleCfg = 1 := by decide
    exact Nat.lt_one_iff.mp (hone ▸ hj)
  have hframe : (recordOf singleCfg m 1 0).frame = 0 := by
    rw [recordOf, hfile]
    decide
  rw [hframe]
  refine ⟨⟨_, by rw [hframe]; exact howner, .inr ⟨rfl, by decide⟩⟩, fun r hr hpres => ?_⟩
  rw [howner, Option.some.injEq] at hr
  rw [← hr] at hpres
  cases hpres

set_option maxRecDepth 40000 in
lemma touches_three : ∃ m, run (step singleCfg) (onInitMemory singleCfg fun _ => 0)
      (touches 24 [(0, 0), (0, 1), (1, 0)]) = some m ∧
    getSwapDataForPcb m 1 = some (0, ⟨1, 24, 24⟩) ∧
    fileOf m 1 = List.replicate 12 0 ++ [1, 0, 0, 0] ++ List.replicate 8 0 ∧
    owner singleCfg m 0 = some ⟨0, false, false, false⟩ := ⟨_, rfl, rfl, rfl, rfl⟩

/-- Two pages are out: the record of the second one is given up. -/
theorem not_preserved_two : ∃ m d, run (step singleCfg) (onInitMemory singleCfg fun _ => 0)
      (touches 24 [(0, 0), (0, 1), (1, 0)]) = some m ∧ Recorded singleCfg m 1 0 d ∧
    ¬ ∃ m', kernelControllerReadSwap singleCfg m 1 goodOs (fun _ _ => 0) = some m' ∧
      Examined singleCfg m 1 0 d goodOs (fun _ _ => 0) ∧ Preserved singleCfg m m' 1 0 d := by
  obtain ⟨m, hrun, hdata, hfile, howner⟩ := touches_three
  obtain ⟨hm, hmain, ha⟩ := whole_of_reachable ⟨_, hrun⟩
  have hrec : Recorded singleCfg m 1 0 ⟨1, 24, 24⟩ :=
    ⟨hm, hmain, hdata, ha.mem hdata, by decide, by rw [hfile]; decide⟩
  refine ⟨m, _, hrun, hrec, ?_⟩
  rintro ⟨m', -, hexamined, -⟩
  obtain ⟨r, hr, ⟨hpres, -⟩ | ⟨-, hlast⟩⟩ := hrec.examined_iff.mp hexamined 0 (by decide)
  · have hframe : (recordOf singleCfg m 1 0).frame = 0 := by
      rw [recordOf, hfile]
      decide
    rw [hframe, howner, Option.some.injEq] at hr
    rw [← hr] at hpres
    cases hpres
  · exact absurd hlast (by decide)

end Sski.Mem.Retrieval
