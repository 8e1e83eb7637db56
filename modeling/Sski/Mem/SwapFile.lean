import Sski.Lib.Runs
import Sski.Lib.Records
import Sski.Mem.Rows

/-!
The swap file of a process as a map from frames to pages.

`Stored c m pid s` says that the file of `pid` holds the records `s` below its offset, one
after the other. Swapping out appends a record. Swapping in is meant to remove one; the code
does so for the last record, and for no other.
-/

namespace Sski.Mem.SwapFile

open Sski.Lib.Block Sski.Lib.Records Sski.Lib.Runs Sski.Mem.MemoryModule Sski.Mem.OsMemory
open Sski.Mem.Swap Sski.Mem.KernelController Sski.Mem.Rows

variable {c : Cfg} {m m' : Memory} {pid : ℕ}

/-! ### Records -/

structure Record where
  frame : ℕ
  page : List UInt8
  deriving DecidableEq, Repr

def Record.bytes (r : Record) : List UInt8 := wordBytes r.frame ++ r.page

structure Record.Fits (c : Cfg) (r : Record) : Prop where
  page : r.page.length = c.tamPagina
  frame : r.frame < 2 ^ 32

lemma Record.Fits.length {r : Record} (h : r.Fits c) : r.bytes.length = swapEntry c := by
  rw [Record.bytes, List.length_append, length_wordBytes, h.page, swapEntry]

lemma Record.Fits.word {r : Record} (h : r.Fits c) : bytesWord (r.bytes.take 4) = r.frame := by
  rw [Record.bytes, List.take_left' (length_wordBytes _), bytesWord_wordBytes,
    Nat.mod_eq_of_lt h.frame]

/-- The contents of the file of a process; a file that does not exist has none. -/
def fileOf (m : Memory) (pid : ℕ) : List UInt8 := (m.files pid).getD []

structure Stored (c : Cfg) (m : Memory) (pid : ℕ) (s : List Record) : Prop where
  distinct : (s.map Record.frame).Nodup
  fits : ∀ r ∈ s, r.Fits c
  region : ∃ i d, getSwapDataForPcb m pid = some (i, d) ∧ d.size < 2 ^ 32 ∧
    d.offset = s.length * swapEntry c ∧ d.offset ≤ d.size ∧
    (fileOf m pid).take d.offset = s.flatMap Record.bytes ∧
    (s ≠ [] → (fileOf m pid).length = d.size)

/-! ### Files and mappings -/

lemma le_roundUp (n : ℕ) : n ≤ roundUp n := by
  unfold roundUp osPage
  omega

lemma length_ftruncate (file : List UInt8) (n : ℕ) : (ftruncate file n).length = n := by
  simp only [ftruncate, List.length_append, List.length_take, List.length_replicate]
  omega

lemma ftruncate_length (file : List UInt8) : ftruncate file file.length = file := by
  simp [ftruncate]

lemma length_mmap (file : List UInt8) (size : ℕ) :
    (mmap file size).length = min (roundUp size) (roundUp file.length) := by
  have hle := le_roundUp file.length
  simp only [mmap, List.length_take, List.length_append, List.length_replicate]
  omega

lemma length_mmap_self (file : List UInt8) :
    (mmap file file.length).length = roundUp file.length := by
  rw [length_mmap, Nat.min_self]

lemma length_munmap (file region : List UInt8) : (munmap file region).length = file.length := by
  simp only [munmap, List.length_take, List.length_append, List.length_drop]
  omega

/-- A file of the size that is mapped is the front of its mapping. -/
lemma mmap_eq (file : List UInt8) : ∃ pad, mmap file file.length = file ++ pad := by
  refine ⟨List.replicate (roundUp file.length - file.length) 0, ?_⟩
  have hle := le_roundUp file.length
  rw [mmap, List.take_of_length_le]
  simp only [List.length_append, List.length_replicate]
  omega

/-- Only the front of a mapping is written back. -/
lemma munmap_append {file file' pad : List UInt8} (h : file'.length = file.length) :
    munmap file (file' ++ pad) = file' := by
  rw [munmap, List.append_assoc, ← h, List.take_left]

lemma munmap_mmap (file : List UInt8) (size : ℕ) : munmap file (mmap file size) = file := by
  have hlen := length_mmap file size
  refine List.ext_getElem? fun i => ?_
  rw [munmap, List.getElem?_take]
  split
  · rename_i hi
    rcases Nat.lt_or_ge i (mmap file size).length with h | h
    · rw [List.getElem?_append_left h, mmap, List.getElem?_take, if_pos (by omega),
        List.getElem?_append_left hi]
    · rw [List.getElem?_append_right h, List.getElem?_drop]
      congr 1
      omega
  · rename_i hi
    rw [List.getElem?_eq_none (by omega)]

/-! ### Metadata -/

lemma getSwapDataForPcb_congr (h : m'.swapData = m.swapData) :
    getSwapDataForPcb m' pid = getSwapDataForPcb m pid := by
  simp only [getSwapDataForPcb, h]

lemma getSwapDataForPcb_eq_some_iff {i : ℕ} {d : SwapData} :
    getSwapDataForPcb m pid = some (i, d) ↔
      m.swapData[i]? = some d ∧ d.pid = pid ∧
        ∀ j < i, ∀ d', m.swapData[j]? = some d' → d'.pid ≠ pid := by
  simp only [getSwapDataForPcb, Option.bind_eq_bind, Option.bind_eq_some_iff,
    Option.pure_def, Option.some.injEq, Prod.mk.injEq]
  constructor
  · rintro ⟨i', hfind, d', hd, rfl, rfl⟩
    obtain ⟨hlt, hpid, hfirst⟩ := List.findIdx?_eq_some_iff_getElem.mp hfind
    obtain ⟨hlt', hget⟩ := List.getElem?_eq_some_iff.mp hd
    refine ⟨hd, by simpa [hget] using hpid, fun j hj d'' hd'' => ?_⟩
    obtain ⟨-, rfl⟩ := List.getElem?_eq_some_iff.mp hd''
    simpa using hfirst j hj
  · rintro ⟨hd, hpid, hfirst⟩
    obtain ⟨hlt, hget⟩ := List.getElem?_eq_some_iff.mp hd
    refine ⟨i, ?_, d, hd, rfl, rfl⟩
    rw [List.findIdx?_eq_some_iff_getElem]
    refine ⟨hlt, by simp [hget, hpid], fun j hj => ?_⟩
    have hne := hfirst j hj _ (List.getElem?_eq_getElem (by omega))
    simpa using hne

lemma getSwapDataForPcb_setSwapOffset {i : ℕ} {d : SwapData}
    (h : getSwapDataForPcb m pid = some (i, d)) (offset : ℕ) :
    getSwapDataForPcb (setSwapOffset m i offset) pid = some (i, { d with offset }) := by
  obtain ⟨hd, hpid, hfirst⟩ := getSwapDataForPcb_eq_some_iff.mp h
  refine getSwapDataForPcb_eq_some_iff.mpr ⟨?_, hpid, fun j hj d' hd' => ?_⟩
  · simp [setSwapOffset, hd]
  · refine hfirst j hj d' ?_
    simpa [setSwapOffset, List.getElem?_modify, show i ≠ j by omega] using hd'

/-! ### Swapping out -/

def reaches (os : Os) (size : ℕ) : Bool := os.opens && !mapFails os size

lemma ftruncate_eq_of_stored {s : List Record} {file : List UInt8} {size : ℕ}
    (h : s ≠ [] → file.length = size) (hs : s ≠ []) : ftruncate file size = file := by
  rw [← h hs]
  exact ftruncate_length file

lemma take_swapFileOf {s : List Record} {offset size : ℕ}
    (hlen : s ≠ [] → (fileOf m pid).length = size) (hoff : offset = s.length * swapEntry c)
    (htake : (fileOf m pid).take offset = s.flatMap Record.bytes) :
    (swapFileOf m pid size).take offset = s.flatMap Record.bytes := by
  by_cases hs : s = []
  · subst hs
    rw [hoff]
    simp
  · rw [swapFileOf, ← fileOf, ftruncate_eq_of_stored hlen hs, htake]

def pageOf (c : Cfg) (m : Memory) (frame : ℕ) : List UInt8 :=
  (peek m.mainMemory (getFrameAddress c frame) c.tamPagina).getD []

/-- Writing a record behind the offset of a file that has room for it. -/
lemma swapFrame_eq {file : List UInt8} {frame offset offset' : ℕ} {region : List UInt8}
    (hroom : offset + swapEntry c ≤ file.length) (hlt : file.length < 2 ^ 32)
    (hframe : frame < 2 ^ 32)
    (h : swapFrame c m frame (mmap file file.length) offset = some (region, offset')) :
    (Record.mk frame (pageOf c m frame)).Fits c ∧ offset' = offset + swapEntry c ∧
      poke file offset (Record.mk frame (pageOf c m frame)).bytes =
        some (munmap file region) := by
  simp only [swapFrame, frameStream, Option.bind_eq_bind, Option.bind_eq_some_iff,
    Option.pure_def, Option.some.injEq, Prod.mk.injEq] at h
  obtain ⟨_, ⟨page, hpage, rfl⟩, region', hpoke, rfl, rfl⟩ := h
  have hpageOf : pageOf c m frame = page := by rw [pageOf, hpage, Option.getD_some]
  have hfits : (Record.mk frame page).Fits c := ⟨length_of_peek hpage, hframe⟩
  rw [hpageOf]
  refine ⟨hfits, Nat.mod_eq_of_lt (by omega), ?_⟩
  have hbytes : wordBytes frame ++ page = (Record.mk frame page).bytes := rfl
  obtain ⟨pad, hpad⟩ := mmap_eq file
  rw [hbytes, hpad, poke_append (by rw [hfits.length]; omega), Option.map_eq_some_iff] at hpoke
  obtain ⟨file', hpoke, rfl⟩ := hpoke
  rw [munmap_append (length_of_poke hpoke), hpoke]

lemma Stored.swapOut {s : List Record} (hs : Stored c m pid s) {frame : ℕ} {os : Os}
    (hframe : frame < 2 ^ 32)
    (hcond : ∀ i d, getSwapDataForPcb m pid = some (i, d) → reaches os d.size = true →
      frame ∉ s.map Record.frame ∧ d.offset + swapEntry c ≤ d.size)
    (h : swapFrameForPcb c m pid frame os = some m') :
    ∃ i d, getSwapDataForPcb m pid = some (i, d) ∧
      Stored c m' pid
        (if reaches os d.size then s ++ [Record.mk frame (pageOf c m frame)] else s) := by
  obtain ⟨i, d, hd, hlt, hoff, hle, htake, hlen⟩ := hs.region
  refine ⟨i, d, hd, ?_⟩
  rcases swapFrameForPcb_cases h with ⟨hnone | hopen, rfl⟩ | ⟨i', d', hd', hopen, h⟩
  · rw [hnone] at hd
    cases hd
  · rw [if_neg (by simp [reaches, hopen])]
    exact hs
  obtain ⟨rfl, rfl⟩ : i' = i ∧ d' = d := by
    rw [hd, Option.some.injEq, Prod.mk.injEq] at hd'
    exact ⟨hd'.1.symm, hd'.2.symm⟩
  have hfile : (swapFileOf m pid d'.size).length = d'.size := length_ftruncate _ _
  have htake' := take_swapFileOf hlen hoff htake
  rcases h with ⟨hmaps, rfl⟩ | ⟨hmaps, region, offset, hswap, hpres⟩
  · -- the file is cut, and that is all
    rw [if_neg (by simp [reaches, hmaps])]
    have hnew : fileOf (setFile m pid (some (swapFileOf m pid d'.size))) pid =
        swapFileOf m pid d'.size := by
      simp [fileOf, setFile]
    refine ⟨hs.distinct, hs.fits, i', d', hd', hlt, hoff, hle, ?_, fun _ => ?_⟩
    · rw [hnew, htake']
    · rw [hnew, hfile]
  · have hreach : reaches os d'.size = true := by simp [reaches, hopen, hmaps]
    obtain ⟨hnot, hroom⟩ := hcond i' d' hd' hreach
    rw [if_pos hreach]
    have hswap' : swapFrame c m frame
        (mmap (swapFileOf m pid d'.size) (swapFileOf m pid d'.size).length) d'.offset =
          some (region, offset) := by
      rw [hfile]
      exact hswap
    obtain ⟨hfits, rfl, hpoke⟩ := swapFrame_eq (by omega) (by omega) hframe hswap'
    obtain ⟨l, rfl⟩ := setPresent_fields hpres
    have hdata := getSwapDataForPcb_setSwapOffset hd' (d'.offset + swapEntry c)
    have hnew : (munmap (swapFileOf m pid d'.size) region).length = d'.size := by
      rw [length_of_poke hpoke, hfile]
    have hback : ((some (munmap (swapFileOf m pid d'.size) region)).getD []).take
        (d'.offset + swapEntry c) =
        (s ++ [Record.mk frame (pageOf c m frame)]).flatMap Record.bytes := by
      obtain ⟨-, heq⟩ := poke_eq_some_iff.mp hpoke
      have hfront : ((swapFileOf m pid d'.size).take d'.offset ++
          (Record.mk frame (pageOf c m frame)).bytes).length = d'.offset + swapEntry c := by
        rw [List.length_append, List.length_take, hfits.length]
        omega
      rw [Option.getD_some, heq, List.take_left' hfront, htake', List.flatMap_append,
        List.flatMap_singleton]
    refine ⟨?_, ?_, i', { d' with offset := d'.offset + swapEntry c }, ?_, by omega, ?_, by omega,
      ?_, fun _ => ?_⟩
    · rw [List.map_append, List.nodup_append]
      refine ⟨hs.distinct, by simp, ?_⟩
      rintro f hf f' hf' rfl
      simp only [List.map_cons, List.map_nil, List.mem_singleton] at hf'
      exact hnot (hf' ▸ hf)
    · intro r hr
      rcases List.mem_append.mp hr with hr | hr
      · exact hs.fits r hr
      · rw [List.mem_singleton.mp hr]
        exact hfits
    · exact hdata
    · simp only [List.length_append, List.length_singleton, Nat.succ_mul]
      omega
    · simpa [fileOf, setSwapOffset, setFile] using hback
    · simpa [fileOf, setSwapOffset, setFile] using hnew

/-! ### Swapping in -/

lemma swapEntry_pos (c : Cfg) : c.tamPagina < swapEntry c := by
  unfold swapEntry
  omega

lemma recordStarts_eq (c : Cfg) (n : ℕ) :
    recordStarts c (n * swapEntry c) = (List.range n).map (· * swapEntry c) := by
  have hpos := swapEntry_pos c
  have hdiv : (n * swapEntry c + swapEntry c - 1) / swapEntry c = n := by
    rw [Nat.add_sub_assoc (by omega), Nat.add_comm, Nat.add_mul_div_right _ _ (by omega),
      Nat.div_eq_of_lt (by omega), Nat.zero_add]
  rw [recordStarts, hdiv]

/-- The search passes the records of other frames. -/
lemma findRecord_append {region : List UInt8} {frame : ℕ} {starts : List ℕ} (i : ℕ)
    (hother : ∀ j ∈ starts, ∃ w, peek region j 4 = some w ∧ bytesWord w ≠ frame)
    (hi : ∃ w, peek region i 4 = some w ∧ bytesWord w = frame) :
    findRecord region frame (starts ++ [i]) = some (some i) := by
  induction starts with
  | nil =>
    obtain ⟨w, hw, hframe⟩ := hi
    simp [findRecord, hw, hframe]
  | cons j js ih =>
    obtain ⟨w, hw, hframe⟩ := hother j List.mem_cons_self
    simp only [List.cons_append, findRecord, hw, Option.bind_eq_bind, Option.bind_some,
      if_neg hframe]
    exact ih fun k hk => hother k (List.mem_cons_of_mem _ hk)

lemma findRecord_last {s : List Record} {r : Record} (hfits : ∀ r' ∈ s ++ [r], r'.Fits c)
    (hdistinct : ((s ++ [r]).map Record.frame).Nodup) (rest : List UInt8) :
    findRecord ((s ++ [r]).flatMap Record.bytes ++ rest) r.frame
        (recordStarts c ((s.length + 1) * swapEntry c)) =
      some (some (s.length * swapEntry c)) := by
  have hwidth : ∀ r' ∈ s ++ [r], r'.bytes.length = swapEntry c :=
    fun r' hr' => (hfits r' hr').length
  have hword : ∀ k r', (s ++ [r])[k]? = some r' → ∃ w,
      peek ((s ++ [r]).flatMap Record.bytes ++ rest) (k * swapEntry c) 4 = some w ∧
        bytesWord w = r'.frame := by
    intro k r' hk
    refine ⟨_, peek_flatMap hwidth hk ?_ rest, (hfits r' (List.mem_of_getElem? hk)).word⟩
    have := c.tamPagina_pos
    unfold swapEntry
    omega
  rw [recordStarts_eq, List.range_succ, List.map_append, List.map_singleton]
  refine findRecord_append _ ?_ (hword s.length r (by simp))
  intro j hj
  obtain ⟨k, hk, rfl⟩ := List.mem_map.mp hj
  rw [List.mem_range] at hk
  obtain ⟨w, hw, hframe⟩ := hword k s[k] (by
    rw [List.getElem?_append_left hk, List.getElem?_eq_getElem hk])
  refine ⟨w, hw, ?_⟩
  rw [hframe]
  intro heq
  rw [List.map_append, List.nodup_append] at hdistinct
  exact hdistinct.2.2 s[k].frame (List.mem_map_of_mem (List.getElem_mem hk)) r.frame
    (by simp) heq

/-- Removing the last record: what lies before it is not touched. -/
lemma fillHole_last {file pad region : List UInt8} {n offset : ℕ}
    (hle : (n + 1) * swapEntry c ≤ file.length) (hlt : file.length < 2 ^ 32)
    (h : fillHole c (file ++ pad) (n * swapEntry c) ((n + 1) * swapEntry c) =
      some (region, offset)) :
    offset = n * swapEntry c ∧ (munmap file region).length = file.length ∧
      (munmap file region).take (n * swapEntry c) = file.take (n * swapEntry c) := by
  have hpos := swapEntry_pos c
  rw [Nat.succ_mul] at hle h
  simp only [fillHole, if_pos (show n * swapEntry c + swapEntry c > c.tamPagina by omega),
    Option.bind_eq_bind, Option.bind_eq_some_iff, Option.pure_def, Option.some.injEq,
    Prod.mk.injEq] at h
  obtain ⟨last, hlast, region', hpoke, rfl, rfl⟩ := h
  have hlen := length_of_peek hlast
  rw [poke_append (by omega), Option.map_eq_some_iff] at hpoke
  obtain ⟨file', hpoke, rfl⟩ := hpoke
  rw [munmap_append (length_of_poke hpoke)]
  refine ⟨by omega, length_of_poke hpoke, List.ext_getElem? fun i => ?_⟩
  rw [List.getElem?_take, List.getElem?_take]
  split
  · rename_i hi
    exact getElem?_of_poke_out hpoke (.inl hi)
  · rfl

def remove (s : List Record) (frame : ℕ) : List Record := s.filter fun r => r.frame ≠ frame

lemma remove_last {s : List Record} {r : Record}
    (h : ((s ++ [r]).map Record.frame).Nodup) : remove (s ++ [r]) r.frame = s := by
  rw [List.map_append, List.nodup_append] at h
  rw [remove, List.filter_append, List.filter_eq_self.mpr, List.filter_singleton]
  · simp
  · intro r' hr'
    have hne := h.2.2 r'.frame (List.mem_map_of_mem hr') r.frame (by simp)
    simpa using hne

lemma offset_zero {d : SwapData} (h : d.offset = 0) : { d with offset := 0 } = d := by
  cases d
  simpa using h.symm

/-- Swapping the frame of the last record in; without records nothing happens. -/
lemma Stored.swapIn {s : List Record} (hs : Stored c m pid s) {frame : ℕ} {os : Os}
    (hcond : ∀ i d, getSwapDataForPcb m pid = some (i, d) → reaches os d.size = true →
      s = [] ∨ s.getLast?.map Record.frame = some frame)
    (h : unswapFrameForPcb c m pid frame os = some m') :
    ∃ i d, getSwapDataForPcb m pid = some (i, d) ∧
      Stored c m' pid (if reaches os d.size then remove s frame else s) ∧
      (frame ∉ s.map Record.frame →
        fileOf m' pid = fileOf m pid ∧ getSwapDataForPcb m' pid = some (i, d)) := by
  obtain ⟨i, d, hd, hlt, hoff, hle, htake, hlen⟩ := hs.region
  refine ⟨i, d, hd, ?_⟩
  rcases unswapFrameForPcb_cases h with ⟨hopen, rfl⟩ | ⟨i', d', hd', hopen, h⟩
  · rw [if_neg (by simp [reaches, hopen])]
    exact ⟨hs, fun _ => ⟨rfl, hd⟩⟩
  obtain ⟨rfl, rfl⟩ : i' = i ∧ d' = d := by
    rw [hd, Option.some.injEq, Prod.mk.injEq] at hd'
    exact ⟨hd'.1.symm, hd'.2.symm⟩
  rcases h with ⟨hmaps, rfl⟩ | ⟨hmaps, found, m₁, region, offset, hfound, hload, hfill, hpres⟩
  · -- the file was opened, and that is all
    rw [if_neg (by simp [reaches, hmaps])]
    have hnew : fileOf (setFile m pid (some ((m.files pid).getD []))) pid = fileOf m pid := by
      simp [fileOf, setFile]
    exact ⟨⟨hs.distinct, hs.fits, i', d', hd', hlt, hoff, hle, by rw [hnew, htake],
      by rwa [hnew]⟩, fun _ => ⟨hnew, hd'⟩⟩
  have hreach : reaches os d'.size = true := by simp [reaches, hopen, hmaps]
  rw [if_pos hreach]
  obtain ⟨mainMemory, rfl⟩ := loadRecord_eq hload
  obtain ⟨l, rfl⟩ := setPresent_fields hpres
  have hdata := getSwapDataForPcb_setSwapOffset hd' offset
  rw [← fileOf] at hfound hfill
  rcases hcond i' d' hd' hreach with rfl | hlast
  · -- there is no record: nothing is found, nothing is moved
    have hzero : d'.offset = 0 := by simpa using hoff
    simp only [fillHole, hzero, if_neg (show ¬ 0 > c.tamPagina by omega), Option.some.injEq,
      Prod.mk.injEq] at hfill
    obtain ⟨rfl, rfl⟩ := hfill
    have hnew : munmap (fileOf m pid) (mmap (fileOf m pid) d'.size) = fileOf m pid :=
      munmap_mmap _ _
    have hnil : remove [] frame = [] := rfl
    rw [hnil]
    refine ⟨⟨hs.distinct, hs.fits, i', { d' with offset := 0 }, hdata, hlt, by simp,
      Nat.zero_le _, by simp, fun h => absurd rfl h⟩, fun _ => ⟨?_, ?_⟩⟩
    · simpa [fileOf, setSwapOffset, setFile] using hnew
    · rw [← offset_zero hzero]
      exact hdata
  · -- the record is the last one
    obtain ⟨s₀, r, rfl⟩ : ∃ s₀ r, s = s₀ ++ [r] := by
      rcases List.eq_nil_or_concat s with rfl | ⟨s₀, r, rfl⟩
      · simp at hlast
      · exact ⟨s₀, r, by simp⟩
    obtain rfl : r.frame = frame := by simpa using hlast
    have hfile : (fileOf m pid).length = d'.size := hlen (by simp)
    rw [List.length_append, List.length_singleton] at hoff
    obtain ⟨pad, hpad⟩ := mmap_eq (fileOf m pid)
    rw [hfile] at hpad
    have hsplit : fileOf m pid ++ pad = (s₀ ++ [r]).flatMap Record.bytes ++
        ((fileOf m pid).drop d'.offset ++ pad) := by
      rw [← htake, ← List.append_assoc, List.take_append_drop]
    rw [hpad, hsplit, hoff, findRecord_last hs.fits hs.distinct, Option.some.injEq] at hfound
    subst hfound
    rw [hpad, hoff, Option.getD_some] at hfill
    obtain ⟨rfl, hnewlen, hnewtake⟩ := fillHole_last (by omega) (by omega) hfill
    have hfits : ∀ r' ∈ s₀, r'.Fits c := fun r' hr' => hs.fits r' (List.mem_append_left _ hr')
    have hdistinct : (s₀.map Record.frame).Nodup := by
      have := hs.distinct
      rw [List.map_append, List.nodup_append] at this
      exact this.1
    have hold : (fileOf m pid).take (s₀.length * swapEntry c) = s₀.flatMap Record.bytes := by
      have hwidth := length_flatMap fun r' hr' => (hfits r' hr').length
      have hmin : min (s₀.length * swapEntry c) d'.offset = s₀.length * swapEntry c := by
        rw [hoff, Nat.succ_mul]
        omega
      have htake' := congrArg (List.take (s₀.length * swapEntry c)) htake
      rwa [List.take_take, hmin, List.flatMap_append, List.take_left' hwidth] at htake'
    rw [remove_last hs.distinct]
    refine ⟨⟨hdistinct, hfits, i', { d' with offset := s₀.length * swapEntry c }, hdata, hlt, rfl,
      ?_, ?_, fun _ => ?_⟩, fun hnot => absurd ?_ hnot⟩
    · rw [hoff, Nat.succ_mul] at hle
      exact Nat.le_trans (Nat.le_add_right _ _) hle
    · rw [← hold, ← hnewtake]
      simp [fileOf, setSwapOffset, setFile]
    · rw [← hfile, ← hnewlen]
      simp [fileOf, setSwapOffset, setFile]
    · simp

/-! ### Histories of a swap file -/

/-- What happens to the file of a process, and what the rest of the module does in between to
main memory and the page tables. -/
inductive Op where
  | swapFrameForPcb (frame : UInt32) (os : Os)
  | unswapFrameForPcb (frame : UInt32) (os : Os)
  | elsewhere (mainMemory : List UInt8) (frames : List Bool)
      (tablesLvl2 : Lib.Slots.PtrList (List PageTableLvl2))

def apply (c : Cfg) (pid : ℕ) (m : Memory) : Op → Option Memory
  | .swapFrameForPcb frame os => Swap.swapFrameForPcb c m pid frame.toNat os
  | .unswapFrameForPcb frame os => Swap.unswapFrameForPcb c m pid frame.toNat os
  | .elsewhere mainMemory frames tablesLvl2 => some { m with mainMemory, frames, tablesLvl2 }

def declaredSize (m : Memory) (pid : ℕ) : ℕ :=
  ((getSwapDataForPcb m pid).map fun p => p.2.size).getD 0

/-- The map the file is meant to be: one record for each frame that was swapped out and not
swapped in since. An operation the operating system refuses does nothing. -/
def expected (c : Cfg) (pid : ℕ) (m : Memory) (s : List Record) : Op → List Record
  | .swapFrameForPcb frame os =>
    if reaches os (declaredSize m pid) then s ++ [⟨frame.toNat, pageOf c m frame.toNat⟩] else s
  | .unswapFrameForPcb frame os =>
    if reaches os (declaredSize m pid) then remove s frame.toNat else s
  | .elsewhere _ _ _ => s

def swapStep (c : Cfg) (pid : ℕ) (st : Memory × List Record) (op : Op) :
    Option (Memory × List Record) :=
  (apply c pid st.1 op).map fun m => (m, expected c pid st.1 st.2 op)

/-- The condition on an operation: a frame that goes out has no record and its record fits in
the file; a frame that comes in has the last record, or there are no records. -/
def Orderly (c : Cfg) (pid : ℕ) (st : Memory × List Record) : Op → Prop
  | .swapFrameForPcb frame os => reaches os (declaredSize st.1 pid) = true →
      frame.toNat ∉ st.2.map Record.frame ∧
        (st.2.length + 1) * swapEntry c ≤ declaredSize st.1 pid
  | .unswapFrameForPcb frame os => reaches os (declaredSize st.1 pid) = true →
      st.2 = [] ∨ st.2.getLast?.map Record.frame = some frame.toNat
  | .elsewhere _ _ _ => True

lemma declaredSize_eq {i : ℕ} {d : SwapData} (h : getSwapDataForPcb m pid = some (i, d)) :
    declaredSize m pid = d.size := by
  simp [declaredSize, h]

lemma Stored.step {st st' : Memory × List Record} {op : Op} (hs : Stored c st.1 pid st.2)
    (hcond : Orderly c pid st op) (h : swapStep c pid st op = some st') :
    Stored c st'.1 pid st'.2 := by
  obtain ⟨m, s⟩ := st
  obtain ⟨m', happly, rfl⟩ := Option.map_eq_some_iff.mp h
  obtain ⟨i, d, hd, -, hoff, -⟩ := hs.region
  have hsize : declaredSize m pid = d.size := declaredSize_eq hd
  cases op with
  | swapFrameForPcb frame os =>
    simp only [Orderly, hsize] at hcond
    have hroom : ∀ i' d', getSwapDataForPcb m pid = some (i', d') →
        reaches os d'.size = true →
        frame.toNat ∉ s.map Record.frame ∧ d'.offset + swapEntry c ≤ d'.size := by
      intro i' d' hd' hreach
      obtain ⟨rfl, rfl⟩ : i = i' ∧ d = d' := by simpa [hd] using hd'
      obtain ⟨hnot, hle⟩ := hcond hreach
      exact ⟨hnot, by rw [hoff, ← Nat.succ_mul]; exact hle⟩
    obtain ⟨i', d', hd', hs'⟩ := hs.swapOut frame.toNat_lt hroom happly
    simp only [expected, declaredSize_eq hd']
    exact hs'
  | unswapFrameForPcb frame os =>
    simp only [Orderly, hsize] at hcond
    have hlast : ∀ i' d', getSwapDataForPcb m pid = some (i', d') →
        reaches os d'.size = true →
        s = [] ∨ s.getLast?.map Record.frame = some frame.toNat := by
      intro i' d' hd' hreach
      obtain ⟨rfl, rfl⟩ : i = i' ∧ d = d' := by simpa [hd] using hd'
      exact hcond hreach
    obtain ⟨i', d', hd', hs', -⟩ := hs.swapIn hlast happly
    simp only [expected, declaredSize_eq hd']
    exact hs'
  | elsewhere mainMemory frames tablesLvl2 =>
    obtain rfl := Option.some.inj happly
    exact ⟨hs.distinct, hs.fits, hs.region⟩

/-- A new process has an empty map. -/
lemma stored_memoryInit {size id : ℕ} {os : Os} (hsize : size < 2 ^ 32)
    (hnew : getSwapDataForPcb m pid = none)
    (h : kernelControllerMemoryInit c m pid size os = some (m', id)) : Stored c m' pid [] := by
  obtain ⟨file, l₁, l₂, rfl⟩ := kernelControllerMemoryInit_fields h
  refine ⟨by simp, by simp, m.swapData.length, ⟨pid, 0, size⟩, ?_, hsize, by simp,
    Nat.zero_le _, by simp, fun h => absurd rfl h⟩
  refine getSwapDataForPcb_eq_some_iff.mpr ⟨by simp, rfl, fun j hj d hd => ?_⟩
  rw [List.getElem?_append_left hj] at hd
  intro hpid
  simp only [getSwapDataForPcb, Option.bind_eq_bind, Option.bind_eq_none_iff] at hnew
  cases hfind : m.swapData.findIdx? fun d => d.pid == pid with
  | none =>
    have := List.findIdx?_eq_none_iff.mp hfind d (List.mem_of_getElem? hd)
    simp [hpid] at this
  | some i =>
    obtain ⟨hlt, -, -⟩ := List.findIdx?_eq_some_iff_getElem.mp hfind
    have hnone := hnew i hfind
    rw [List.getElem?_eq_getElem hlt] at hnone
    have := hnone m.swapData[i] rfl
    simp at this

/-- **Swap file.** From the creation of a process on, in every history in which frames go out
once and come in last one first, its file is the map it is meant to be; and swapping in a frame
that has no record changes neither the file nor the offset. -/
theorem stored_of_orderly (c : Cfg) (m₀ m₁ : Memory) (pid pcbSize : UInt32) (os : Os) (id : ℕ)
    (hnew : getSwapDataForPcb m₀ pid.toNat = none)
    (hinit : kernelControllerMemoryInit c m₀ pid.toNat pcbSize.toNat os = some (m₁, id))
    (ops : List Op) (m : Memory) (s : List Record)
    (hmeets : Meets (swapStep c pid.toNat) (Orderly c pid.toNat) (m₁, []) ops)
    (hrun : run (swapStep c pid.toNat) (m₁, []) ops = some (m, s)) :
    Stored c m pid.toNat s ∧
    ∀ frame os m', Orderly c pid.toNat (m, s) (.unswapFrameForPcb frame os) →
      frame.toNat ∉ s.map Record.frame →
      Swap.unswapFrameForPcb c m pid.toNat frame.toNat os = some m' →
      fileOf m' pid.toNat = fileOf m pid.toNat ∧
        getSwapDataForPcb m' pid.toNat = getSwapDataForPcb m pid.toNat := by
  have hs : Stored c m pid.toNat s := by
    have hstep : ∀ st op st', Stored c st.1 pid.toNat st.2 → Orderly c pid.toNat st op →
        swapStep c pid.toNat st op = some st' → Stored c st'.1 pid.toNat st'.2 :=
      fun _ _ _ hs hc h => hs.step hc h
    have h := Meets.inv hstep (stored_memoryInit pcbSize.toNat_lt hnew hinit) hmeets hrun
    exact h
  refine ⟨hs, fun frame os m' hcond hnot h => ?_⟩
  obtain ⟨i, d, hd, -⟩ := hs.region
  have hlast : ∀ i' d', getSwapDataForPcb m pid.toNat = some (i', d') →
      reaches os d'.size = true → s = [] ∨ s.getLast?.map Record.frame = some frame.toNat := by
    intro i' d' hd' hreach
    exact hcond (by rw [declaredSize_eq hd']; exact hreach)
  obtain ⟨i', d', hd', -, hsame⟩ := hs.swapIn hlast h
  obtain ⟨hfile, hdata⟩ := hsame hnot
  exact ⟨hfile, hdata.trans hd'.symm⟩

/-- The two first pages of a process are mapped on the frames 0 and 1. -/
def twoPages : Op :=
  .elsewhere ((List.range 32).map UInt8.ofNat) [true, true, false, false]
    [some [⟨0, true, true, false⟩, ⟨1, true, true, false⟩], some (PageTable.newPageTableLvl2 2)]

/-- Both go out, and the last one comes in again. -/
def lastIn : List Op :=
  [twoPages, .swapFrameForPcb 0 goodOs, .swapFrameForPcb 1 goodOs, .unswapFrameForPcb 1 goodOs]

/-- Both go out, and the first one comes in again. -/
def firstIn : List Op :=
  [twoPages, .swapFrameForPcb 0 goodOs, .swapFrameForPcb 1 goodOs, .unswapFrameForPcb 0 goodOs]

set_option maxRecDepth 40000 in
theorem stored_of_orderly_last :
    ∃ m₁ id m s, kernelControllerMemoryInit smallCfg (onInitMemory smallCfg fun _ => 0) 1 64
        goodOs = some (m₁, id) ∧
      run (swapStep smallCfg 1) (m₁, []) lastIn = some (m, s) ∧ Stored smallCfg m 1 s := by
  refine ⟨_, _, _, _, rfl, rfl, ?_⟩
  refine (stored_of_orderly smallCfg (onInitMemory smallCfg fun _ => 0) _ 1 64 goodOs 0 rfl rfl
    lastIn _ _ ?_ rfl).1
  refine ⟨trivial, fun _ h => ?_⟩
  cases h
  refine ⟨fun _ => by decide +kernel, fun _ h => ?_⟩
  cases h
  refine ⟨fun _ => by decide +kernel, fun _ h => ?_⟩
  cases h
  exact ⟨fun _ => .inr (by decide +kernel), fun _ _ => trivial⟩

set_option maxRecDepth 40000 in
/-- The record of the other frame is lost: page bytes lie where its number should be. -/
theorem not_stored_firstIn :
    ∃ m₁ id m s, kernelControllerMemoryInit smallCfg (onInitMemory smallCfg fun _ => 0) 1 64
        goodOs = some (m₁, id) ∧
      run (swapStep smallCfg 1) (m₁, []) firstIn = some (m, s) ∧
      s = [⟨1, [8, 9, 10, 11, 12, 13, 14, 15]⟩] ∧
      (fileOf m 1).take 12 = [8, 9, 10, 11, 12, 13, 14, 15, 4, 5, 6, 7] ∧
      ¬ Stored smallCfg m 1 s := by
  refine ⟨_, _, _, _, rfl, rfl, rfl, by decide +kernel, fun h => ?_⟩
  obtain ⟨i, d, hd, -, -, -, htake, -⟩ := h.region
  cases hd
  exact absurd htake (by decide +kernel)

end Sski.Mem.SwapFile
