import Sski.Mem.SwapFile
import Sski.Mem.Frames

/-!
How far the offset of a swap file goes.

The offset counts the pages of a process that were swapped out and not loaded since, one entry
each. The file has the size the process was declared with. So the records stay inside the file
exactly as long as that many entries fit in it.
-/

namespace Sski.Mem.SwapRoom

open Sski.Lib.Block Sski.Lib.Runs Sski.Mem.MemoryModule Sski.Mem.OsMemory Sski.Mem.Swap
open Sski.Mem.Algorithms Sski.Mem.CpuController Sski.Mem.KernelController Sski.Mem.Tables
open Sski.Mem.Rows Sski.Mem.Frames Sski.Mem.SwapFile

variable {c : Cfg} {m m' : Memory} {pid i : ℕ} {d : SwapData}

/-! ### The metadata of one process -/

lemma getSwapDataForPcb_setSwapOffset_ne {pid' j : ℕ} {e : SwapData} (hne : pid' ≠ pid)
    (h : getSwapDataForPcb m pid' = some (j, e)) (offset : ℕ) :
    getSwapDataForPcb (setSwapOffset m j offset) pid = getSwapDataForPcb m pid := by
  obtain ⟨he, hpid, -⟩ := getSwapDataForPcb_eq_some_iff.mp h
  have hmap : (setSwapOffset m j offset).swapData.map SwapData.pid =
      m.swapData.map SwapData.pid := by
    refine List.ext_getElem? fun k => ?_
    simp only [setSwapOffset, List.getElem?_map, List.getElem?_modify]
    split <;> cases m.swapData[k]? <;> rfl
  have hfind : ∀ l : List SwapData, l.findIdx? (fun d => d.pid == pid) =
      (l.map SwapData.pid).findIdx? (· == pid) := by
    intro l
    rw [List.findIdx?_map]
    rfl
  unfold getSwapDataForPcb
  rw [hfind, hmap, ← hfind]
  cases hf : m.swapData.findIdx? fun d => d.pid == pid with
  | none => rfl
  | some k =>
    obtain ⟨hlt, hk, -⟩ := List.findIdx?_eq_some_iff_getElem.mp hf
    have hjk : j ≠ k := by
      rintro rfl
      obtain ⟨hlt', rfl⟩ := List.getElem?_eq_some_iff.mp he
      exact hne (hpid.symm.trans (by simpa using hk))
    simp [setSwapOffset, List.getElem?_modify, hjk]

lemma exists_getSwapDataForPcb_iff :
    (∃ i, getSwapDataForPcb m pid = some (i, d)) ↔
      m.swapData.find? (fun d => d.pid == pid) = some d := by
  rw [List.find?_eq_some_iff_getElem]
  constructor
  · rintro ⟨i, hi⟩
    obtain ⟨hget, hpid, hfirst⟩ := getSwapDataForPcb_eq_some_iff.mp hi
    obtain ⟨hlt, hget⟩ := List.getElem?_eq_some_iff.mp hget
    refine ⟨by simpa using hpid, i, hlt, hget, fun j hj => ?_⟩
    simpa using hfirst j hj _ (List.getElem?_eq_getElem (by omega))
  · rintro ⟨hpid, i, hlt, hget, hfirst⟩
    refine ⟨i, getSwapDataForPcb_eq_some_iff.mpr
      ⟨List.getElem?_eq_some_iff.mpr ⟨hlt, hget⟩, by simpa using hpid, fun j hj e he => ?_⟩⟩
    obtain ⟨hlt', rfl⟩ := List.getElem?_eq_some_iff.mp he
    simpa using hfirst j hj

lemma find?_eraseP {α : Type*} {p q : α → Bool} (h : ∀ a, p a = true → q a = false)
    (l : List α) : (l.eraseP p).find? q = l.find? q := by
  induction l with
  | nil => rfl
  | cons a l ih =>
    by_cases hp : p a = true
    · rw [List.eraseP_cons_of_pos hp, List.find?_cons_of_neg (by simp [h a hp])]
    · rw [List.eraseP_cons_of_neg hp]
      by_cases hq : q a = true
      · rw [List.find?_cons_of_pos hq, List.find?_cons_of_pos hq]
      · rw [List.find?_cons_of_neg hq, List.find?_cons_of_neg hq, ih]

def swapped (c : Cfg) (os : Os) (d : SwapData) : SwapData :=
  if reaches os d.size then { d with offset := (d.offset + swapEntry c) % 2 ^ 32 } else d

def unswapped (c : Cfg) (os : Os) (d : SwapData) : SwapData :=
  if reaches os d.size then
    { d with offset :=
        if d.offset > c.tamPagina then (d.offset + 2 ^ 32 - swapEntry c) % 2 ^ 32 else 0 }
  else d

lemma swapFrameForPcb_data {frame : ℕ} {os : Os} (hd : getSwapDataForPcb m pid = some (i, d))
    (h : swapFrameForPcb c m pid frame os = some m') :
    getSwapDataForPcb m' pid = some (i, swapped c os d) := by
  rcases swapFrameForPcb_cases h with ⟨hnone | hopen, rfl⟩ | ⟨i', d', hd', hopen, h⟩
  · rw [hnone] at hd
    cases hd
  · rw [swapped, if_neg (by simp [reaches, hopen])]
    exact hd
  obtain ⟨rfl, rfl⟩ : i = i' ∧ d = d' := by simpa [hd] using hd'
  rcases h with ⟨hmaps, rfl⟩ | ⟨hmaps, region, offset, hswap, hpres⟩
  · rw [swapped, if_neg (by simp [reaches, hmaps])]
    exact hd
  · obtain ⟨l, rfl⟩ := setPresent_fields hpres
    rw [swapped, if_pos (by simp [reaches, hopen, hmaps])]
    have hoff : offset = (d.offset + swapEntry c) % 2 ^ 32 := by
      simp only [swapFrame, Option.bind_eq_bind, Option.bind_eq_some_iff, Option.pure_def,
        Option.some.injEq, Prod.mk.injEq] at hswap
      obtain ⟨_, -, _, -, -, rfl⟩ := hswap
      rfl
    rw [← hoff]
    exact getSwapDataForPcb_setSwapOffset hd offset

lemma swapFrameForPcb_data_ne {pid' frame : ℕ} {os : Os} (hne : pid' ≠ pid)
    (h : swapFrameForPcb c m pid' frame os = some m') :
    getSwapDataForPcb m' pid = getSwapDataForPcb m pid := by
  rcases swapFrameForPcb_cases h with ⟨-, rfl⟩ | ⟨j, e, he, -, ⟨-, rfl⟩ | ⟨-, region, offset, -, h⟩⟩
  · rfl
  · rfl
  · obtain ⟨l, rfl⟩ := setPresent_fields h
    exact getSwapDataForPcb_setSwapOffset_ne hne he offset

lemma unswapFrameForPcb_data {frame : ℕ} {os : Os} (hd : getSwapDataForPcb m pid = some (i, d))
    (h : unswapFrameForPcb c m pid frame os = some m') :
    getSwapDataForPcb m' pid = some (i, unswapped c os d) := by
  rcases unswapFrameForPcb_cases h with ⟨hopen, rfl⟩ | ⟨i', d', hd', hopen, h⟩
  · rw [unswapped, if_neg (by simp [reaches, hopen])]
    exact hd
  obtain ⟨rfl, rfl⟩ : i = i' ∧ d = d' := by simpa [hd] using hd'
  rcases h with ⟨hmaps, rfl⟩ | ⟨hmaps, found, m₁, region, offset, -, hload, hfill, hpres⟩
  · rw [unswapped, if_neg (by simp [reaches, hmaps])]
    exact hd
  · obtain ⟨mainMemory, rfl⟩ := loadRecord_eq hload
    obtain ⟨l, rfl⟩ := setPresent_fields hpres
    rw [unswapped, if_pos (by simp [reaches, hopen, hmaps])]
    have hoff : offset = if d.offset > c.tamPagina
        then (d.offset + 2 ^ 32 - swapEntry c) % 2 ^ 32 else 0 := by
      unfold fillHole at hfill
      split at hfill
      · rename_i hgt
        simp only [Option.bind_eq_bind, Option.bind_eq_some_iff, Option.pure_def,
          Option.some.injEq, Prod.mk.injEq] at hfill
        obtain ⟨_, -, _, -, -, rfl⟩ := hfill
        rw [if_pos hgt]
      · rename_i hle
        simp only [Option.some.injEq, Prod.mk.injEq] at hfill
        rw [if_neg hle, hfill.2]
    rw [← hoff]
    exact getSwapDataForPcb_setSwapOffset hd offset

lemma unswapFrameForPcb_data_ne {pid' frame : ℕ} {os : Os} (hne : pid' ≠ pid)
    (h : unswapFrameForPcb c m pid' frame os = some m') :
    getSwapDataForPcb m' pid = getSwapDataForPcb m pid := by
  rcases unswapFrameForPcb_cases h with
    ⟨-, rfl⟩ | ⟨j, e, he, -, ⟨-, rfl⟩ | ⟨-, found, m₁, region, offset, -, hload, -, hpres⟩⟩
  · rfl
  · rfl
  · obtain ⟨mainMemory, rfl⟩ := loadRecord_eq hload
    obtain ⟨l, rfl⟩ := setPresent_fields hpres
    exact getSwapDataForPcb_setSwapOffset_ne hne he offset

/-! ### A request -/

/-- The request is a page fault: the row it asks for is absent. -/
def faults (c : Cfg) (m : Memory) (idTable2 index : ℕ) : Bool :=
  decide (index ≤ c.maxRows) && (m.rowAt (idTable2, index)).any fun row => !row.present

/-- A page of the process has to go before its page fault is served. -/
def evicts (c : Cfg) (pid : ℕ) (m : Memory) : Request → Bool
  | .frame pid' op1 op2 os _ => pid'.toNat == pid && reaches os (declaredSize m pid) &&
      faults c m op1.toNat op2.toNat &&
      shouldReplaceFrame c (findFreeFrame m).1 op1.toNat == some true
  | _ => false

def loads (c : Cfg) (pid : ℕ) (m : Memory) : Request → Bool
  | .frame pid' op1 op2 _ os' => pid'.toNat == pid && reaches os' (declaredSize m pid) &&
      faults c m op1.toNat op2.toNat &&
      (m.rowAt (op1.toNat, op2.toNat)).any fun row => row.frame != invalidFrame
  | _ => false

def Serves (pid : ℕ) : Request → Prop
  | .memoryInit pid' _ _ => pid'.toNat ≠ pid
  | .processTerminated pid' _ => pid'.toNat ≠ pid
  | _ => True

/-- The metadata after a request, from what the request does. -/
def after (c : Cfg) (pid : ℕ) (m : Memory) (d : SwapData) (req : Request) : SwapData :=
  match req with
  | .frame _ _ _ os os' =>
    let d := if evicts c pid m req then swapped c os d else d
    if loads c pid m req then unswapped c os' d else d
  | _ => d

lemma swapped_size (os : Os) (d : SwapData) : (swapped c os d).size = d.size := by
  unfold swapped
  split <;> rfl

lemma unswapped_size (os : Os) (d : SwapData) : (unswapped c os d).size = d.size := by
  unfold unswapped
  split <;> rfl

lemma swapped_of_not {os : Os} (h : reaches os d.size = false) : swapped c os d = d := by
  rw [swapped, if_neg (by simp [h])]

lemma unswapped_of_not {os : Os} (h : reaches os d.size = false) : unswapped c os d = d := by
  rw [unswapped, if_neg (by simp [h])]

lemma evict_data {idTable2 : ℕ} {os : Os} (hd : getSwapDataForPcb m pid = some (i, d))
    (h : evict c m idTable2 pid os = some m') :
    getSwapDataForPcb m' pid = some (i,
      if shouldReplaceFrame c m idTable2 == some true then swapped c os d else d) := by
  rcases evict_cases h with ⟨hfull, rfl⟩ | ⟨hfull, m₁, victim, hsel, h⟩
  · rw [hfull]
    exact hd
  · rw [hfull]
    simp only [replaceFrame, Option.bind_eq_bind, Option.bind_eq_some_iff] at h
    obtain ⟨m₂, hclear, h⟩ := h
    obtain ⟨l, rfl, -⟩ := clearFrame_rest hclear
    refine swapFrameForPcb_data ?_ h
    have hdata : getSwapDataForPcb m₁ pid = some (i, d) := by
      rw [getSwapDataForPcb_congr (selected_frameSelector hsel).swapData, hd]
    exact hdata

lemma evict_data_ne {pid' idTable2 : ℕ} {os : Os} (hne : pid' ≠ pid)
    (h : evict c m idTable2 pid' os = some m') :
    getSwapDataForPcb m' pid = getSwapDataForPcb m pid := by
  rcases evict_cases h with ⟨-, rfl⟩ | ⟨-, m₁, victim, hsel, h⟩
  · rfl
  · simp only [replaceFrame, Option.bind_eq_bind, Option.bind_eq_some_iff] at h
    obtain ⟨m₂, hclear, h⟩ := h
    obtain ⟨l, rfl, -⟩ := clearFrame_rest hclear
    rw [swapFrameForPcb_data_ne hne h]
    exact getSwapDataForPcb_congr (selected_frameSelector hsel).swapData

lemma allocate_data {idTable2 index newFrame : ℕ} {os : Os}
    (hd : getSwapDataForPcb m pid = some (i, d))
    (h : allocate c m idTable2 index pid newFrame os = some m') :
    getSwapDataForPcb m' pid = some (i,
      if (m.rowAt (idTable2, index)).any fun row => row.frame != invalidFrame
      then unswapped c os d else d) := by
  obtain ⟨row, hrow, ⟨hinv, createdAt, h⟩ | ⟨hne, m₁, m₂, h₁, h₂, h⟩⟩ := allocate_cases h
  · rw [if_neg (by simp [hrow, hinv])]
    rcases createFrameForTable_cases h with ⟨rfl, -⟩ | ⟨r, -, rfl⟩
    · exact hd
    · rw [getSwapDataForPcb_congr (Memory.setRow_swapData _ _ _), hd]
  · rw [if_pos (by simp [hrow, hne])]
    obtain ⟨frames, rfl, -⟩ := deleteFrame_eq h₁
    have h₂' := unswapFrameForPcb_data (m := { m with frames }) hd h₂
    obtain ⟨l, rfl⟩ := modifyRow_fields h
    exact h₂'

lemma allocate_data_ne {pid' idTable2 index newFrame : ℕ} {os : Os} (hne : pid' ≠ pid)
    (h : allocate c m idTable2 index pid' newFrame os = some m') :
    getSwapDataForPcb m' pid = getSwapDataForPcb m pid := by
  obtain ⟨row, -, ⟨-, createdAt, h⟩ | ⟨-, m₁, m₂, h₁, h₂, h⟩⟩ := allocate_cases h
  · rcases createFrameForTable_cases h with ⟨rfl, -⟩ | ⟨r, -, rfl⟩
    · rfl
    · exact getSwapDataForPcb_congr (Memory.setRow_swapData _ _ _)
  · obtain ⟨frames, rfl, -⟩ := deleteFrame_eq h₁
    have h₂' := unswapFrameForPcb_data_ne hne h₂
    obtain ⟨l, rfl⟩ := modifyRow_fields h
    exact h₂'

/-- Every request moves the metadata as `after` says. -/
lemma step_data {req : Request} (hf : Forest c m) (hreq : Serves pid req)
    (hd : getSwapDataForPcb m pid = some (i, d)) (h : step c m req = some m') :
    ∃ i', getSwapDataForPcb m' pid = some (i', after c pid m d req) := by
  cases req with
  | memoryInit pid' pcbSize os =>
    obtain ⟨id, h⟩ := step_memoryInit h
    obtain ⟨file, l₁, l₂, rfl⟩ := kernelControllerMemoryInit_fields h
    obtain ⟨hget, hpid, hfirst⟩ := getSwapDataForPcb_eq_some_iff.mp hd
    have hlt := (List.getElem?_eq_some_iff.mp hget).1
    refine ⟨i, getSwapDataForPcb_eq_some_iff.mpr ⟨?_, hpid, fun j hj e he => ?_⟩⟩
    · exact (List.getElem?_append_left hlt).trans hget
    · exact hfirst j hj e ((List.getElem?_append_left (by omega)).symm.trans he)
  | sndPage op1 op2 =>
    obtain rfl := step_sndPage h
    exact ⟨i, hd⟩
  | frame pid' op1 op2 os os' =>
    refine ⟨i, ?_⟩
    obtain ⟨f, h⟩ := step_frame h
    have hsize := declaredSize_eq hd
    rcases obtainFrame_cases h with ⟨hout, rfl, -⟩ | ⟨row, hrow, hpres, rfl, -⟩ |
      ⟨row, hrow, habs, h⟩
    · -- the row is out of bounds
      have hfault : faults c m' op1.toNat op2.toNat = false := by simp [faults, hout]
      simp [after, evicts, loads, hfault, hd]
    · -- the page is present
      have hfault : faults c m' op1.toNat op2.toNat = false := by simp [faults, hrow, hpres]
      simp [after, evicts, loads, hfault, hd]
    obtain ⟨m₁, m₂, hfind, hevict, hallocate⟩ := pageFault_steps h
    have hfields : ∃ frames, m₁ = { m with frames } := by
      rcases findFreeFrame_cases hfind with ⟨-, rfl⟩ | ⟨-, -, rfl⟩
      · exact ⟨_, rfl⟩
      · exact ⟨_, rfl⟩
    have hm₁ : (findFreeFrame m).1 = m₁ := by rw [hfind]
    obtain ⟨frames, rfl⟩ := hfields
    have hbound : op2.toNat ≤ c.maxRows := (hf.col_lt hrow).le
    have hfault : faults c m op1.toNat op2.toNat = true := by simp [faults, hbound, hrow, habs]
    have hframe : (m₂.rowAt (op1.toNat, op2.toNat)).map PageTableLvl2.frame =
        some row.frame := by
      have hsame := ((sameRows_evict hevict).comp PageTableLvl2.frame).rowAt (op1.toNat, op2.toNat)
      have hrow' : Memory.rowAt { m with frames } (op1.toNat, op2.toNat) = some row := hrow
      rw [hrow'] at hsame
      exact hsame
    have hloaded : ((m₂.rowAt (op1.toNat, op2.toNat)).any fun row => row.frame != invalidFrame) =
        (m.rowAt (op1.toNat, op2.toNat)).any fun row => row.frame != invalidFrame := by
      obtain ⟨row₂, hrow₂, hframe₂⟩ := Option.map_eq_some_iff.mp hframe
      simp [hrow, hrow₂, hframe₂]
    by_cases hpid : pid'.toNat = pid
    · have h₁ := evict_data (m := { m with frames }) hd (hpid ▸ hevict)
      have h₂ := allocate_data h₁ (hpid ▸ hallocate)
      rw [h₂, hloaded]
      simp only [after, evicts, loads, hm₁, hpid, hsize, hfault, beq_self_eq_true, Bool.true_and,
        Bool.and_true]
      congr 2
      by_cases hr : reaches os d.size = true
      · by_cases hr' : reaches os' d.size = true
        · simp [hr, hr']
        · have hr' : reaches os' d.size = false := by simpa using hr'
          rw [unswapped_of_not (by split <;> simp only [swapped_size, hr'])]
          simp [hr, hr']
      · have hr : reaches os d.size = false := by simpa using hr
        rw [swapped_of_not hr, ite_self]
        by_cases hr' : reaches os' d.size = true
        · simp [hr, hr']
        · have hr' : reaches os' d.size = false := by simpa using hr'
          simp [hr, hr', unswapped_of_not hr']
    · have hafter : after c pid m d (.frame pid' op1 op2 os os') = d := by
        simp [after, evicts, loads, hpid]
      rw [hafter, allocate_data_ne hpid hallocate, evict_data_ne hpid hevict]
      exact hd
  | rd physicalAddress =>
    obtain ⟨v, h⟩ := step_rd h
    obtain ⟨l, rfl⟩ := cpuControllerRead_fields h
    exact ⟨i, hd⟩
  | wt physicalAddress value =>
    obtain ⟨mainMemory, l, rfl⟩ := cpuControllerWrite_fields (step_wt h)
    exact ⟨i, hd⟩
  | processTerminated pcbId tableId =>
    obtain ⟨m₁, h₁, rfl⟩ := kernelControllerDestroyProcessFile_steps (step_processTerminated h)
    have hdata : m₁.swapData = m.swapData := by
      rcases deleteProcess_spec hf h₁ with ⟨-, rfl⟩ | ⟨rows, ht, hdel⟩
      · rfl
      · exact hdel.rest.swapData
    have hother : ∀ e : SwapData, (e.pid == pcbId.toNat) = true → (e.pid == pid) = false := by
      intro e he
      rw [beq_iff_eq] at he
      rw [beq_eq_false_iff_ne, he]
      exact hreq
    have hafter : after c pid m d (.processTerminated pcbId tableId) = d := rfl
    refine exists_getSwapDataForPcb_iff.mpr ?_
    rw [hafter, ← exists_getSwapDataForPcb_iff.mp ⟨i, hd⟩, ← hdata]
    exact find?_eraseP hother m₁.swapData

/-! ### Counting records -/

/-- The records of a process after a request. -/
def count (c : Cfg) (pid : ℕ) (m : Memory) (k : ℕ) (req : Request) : ℕ :=
  k + (evicts c pid m req).toNat - (loads c pid m req).toNat

def countStep (c : Cfg) (pid : ℕ) (st : Memory × ℕ) (req : Request) : Option (Memory × ℕ) :=
  (step c st.1 req).map fun m => (m, count c pid st.1 st.2 req)

/-- A record that is written lies inside the file, and so does the offset afterwards. -/
def Inside (c : Cfg) (pid : ℕ) (st : Memory × ℕ) (req : Request) : Prop :=
  (∀ i d, getSwapDataForPcb st.1 pid = some (i, d) → evicts c pid st.1 req = true →
    d.offset + swapEntry c ≤ d.size) ∧
  ∀ m' i d, step c st.1 req = some m' → getSwapDataForPcb m' pid = some (i, d) →
    d.offset ≤ d.size

/-- One more entry fits in the declared size, if a page is evicted. -/
def Room (c : Cfg) (pid : ℕ) (st : Memory × ℕ) (req : Request) : Prop :=
  evicts c pid st.1 req = true → (st.2 + 1) * swapEntry c ≤ declaredSize st.1 pid

instance (c : Cfg) (pid : ℕ) (st : Memory × ℕ) (req : Request) : Decidable (Room c pid st req) :=
  inferInstanceAs (Decidable (_ → _))

structure Counted (c : Cfg) (pid : ℕ) (st : Memory × ℕ) : Prop where
  forest : Forest c st.1
  data : ∃ i d, getSwapDataForPcb st.1 pid = some (i, d) ∧ d.size < 2 ^ 32 ∧
    d.offset = st.2 * swapEntry c ∧ d.offset ≤ d.size

lemma swapped_offset {os : Os} {k : ℕ} (hoff : d.offset = k * swapEntry c)
    (hlt : d.size < 2 ^ 32) (hreach : reaches os d.size = true)
    (hroom : (k + 1) * swapEntry c ≤ d.size) :
    (swapped c os d).offset = (k + 1) * swapEntry c := by
  rw [Nat.succ_mul] at hroom ⊢
  rw [swapped, if_pos hreach]
  change (d.offset + swapEntry c) % 2 ^ 32 = _
  rw [hoff, Nat.mod_eq_of_lt (by omega)]

lemma unswapped_offset {os : Os} {k : ℕ} (hoff : d.offset = k * swapEntry c)
    (hle : d.offset < 2 ^ 32) (hreach : reaches os d.size = true) :
    (unswapped c os d).offset = (k - 1) * swapEntry c := by
  have hpos := swapEntry_pos c
  rw [unswapped, if_pos hreach]
  change (if d.offset > c.tamPagina then _ else 0) = _
  cases k with
  | zero =>
    rw [Nat.zero_mul] at hoff
    rw [if_neg (by omega), Nat.zero_sub, Nat.zero_mul]
  | succ k =>
    rw [Nat.succ_mul] at hoff
    rw [if_pos (by omega), Nat.add_sub_cancel]
    omega

lemma evicts_reaches {pid' op1 op2 : UInt32} {os os' : Os}
    (h : evicts c pid m (.frame pid' op1 op2 os os') = true) :
    reaches os (declaredSize m pid) = true := by
  simp only [evicts, Bool.and_eq_true] at h
  exact h.1.1.2

lemma loads_reaches {pid' op1 op2 : UInt32} {os os' : Os}
    (h : loads c pid m (.frame pid' op1 op2 os os') = true) :
    reaches os' (declaredSize m pid) = true := by
  simp only [loads, Bool.and_eq_true] at h
  exact h.1.1.2

lemma after_offset {k : ℕ} {req : Request} (hd : getSwapDataForPcb m pid = some (i, d))
    (hlt : d.size < 2 ^ 32) (hoff : d.offset = k * swapEntry c) (hle : d.offset ≤ d.size)
    (hroom : Room c pid (m, k) req) :
    (after c pid m d req).size = d.size ∧
      (after c pid m d req).offset = count c pid m k req * swapEntry c ∧
      (after c pid m d req).offset ≤ d.size := by
  have hsize := declaredSize_eq hd
  cases req with
  | frame pid' op1 op2 os os' =>
    simp only [Room, hsize] at hroom
    -- the metadata once the eviction is done
    have hmid : ∃ d₁ k₁, (if evicts c pid m (.frame pid' op1 op2 os os') then swapped c os d
          else d) = d₁ ∧ k + (evicts c pid m (.frame pid' op1 op2 os os')).toNat = k₁ ∧
        d₁.size = d.size ∧ d₁.offset = k₁ * swapEntry c ∧ d₁.offset ≤ d.size := by
      by_cases hev : evicts c pid m (.frame pid' op1 op2 os os') = true
      · have hreach := evicts_reaches hev
        rw [hsize] at hreach
        have hoff₁ := swapped_offset hoff hlt hreach (hroom hev)
        refine ⟨_, _, rfl, rfl, ?_⟩
        rw [if_pos hev, hev]
        exact ⟨swapped_size os d, hoff₁, by rw [hoff₁]; exact hroom hev⟩
      · have hev : evicts c pid m (.frame pid' op1 op2 os os') = false := by simpa using hev
        refine ⟨_, _, rfl, rfl, ?_⟩
        rw [hev]
        exact ⟨rfl, hoff, hle⟩
    obtain ⟨d₁, k₁, hd₁, hk₁, hsize₁, hoff₁, hle₁⟩ := hmid
    simp only [after, count, hd₁, hk₁]
    by_cases hld : loads c pid m (.frame pid' op1 op2 os os') = true
    · have hreach := loads_reaches hld
      rw [hsize, ← hsize₁] at hreach
      have hoff₂ := unswapped_offset hoff₁ (by omega) hreach
      rw [if_pos hld, hld]
      refine ⟨(unswapped_size os' d₁).trans hsize₁, hoff₂, ?_⟩
      rw [hoff₂]
      rw [hoff₁] at hle₁
      exact Nat.le_trans (Nat.mul_le_mul_right _ (Nat.sub_le _ _)) hle₁
    · have hld : loads c pid m (.frame pid' op1 op2 os os') = false := by simpa using hld
      rw [hld]
      exact ⟨hsize₁, hoff₁, hle₁⟩
  | memoryInit _ _ _ => exact ⟨rfl, hoff, hle⟩
  | sndPage _ _ => exact ⟨rfl, hoff, hle⟩
  | rd _ => exact ⟨rfl, hoff, hle⟩
  | wt _ _ => exact ⟨rfl, hoff, hle⟩
  | processTerminated _ _ => exact ⟨rfl, hoff, hle⟩

lemma inside_iff {st : Memory × ℕ} {req : Request} (hc : Counted c pid st)
    (hreq : Serves pid req) : Inside c pid st req ↔ Room c pid st req := by
  obtain ⟨m, k⟩ := st
  obtain ⟨i, d, hd, hlt, hoff, hle⟩ := hc.data
  have hsize := declaredSize_eq hd
  simp only at hoff
  constructor
  · rintro ⟨hwrite, -⟩ hev
    have h := hwrite i d hd hev
    rw [hsize, Nat.succ_mul, ← hoff]
    exact h
  · intro hroom
    refine ⟨fun i' d' hd' hev => ?_, fun m' i' d' hstep hd' => ?_⟩
    · obtain ⟨rfl, rfl⟩ : i = i' ∧ d = d' := by simpa [hd] using hd'
      have h := hroom hev
      rw [hsize, Nat.succ_mul, ← hoff] at h
      exact h
    · obtain ⟨j, hj⟩ := step_data hc.forest hreq hd hstep
      obtain ⟨hs, -, hle'⟩ := after_offset hd hlt hoff hle hroom
      obtain ⟨rfl, rfl⟩ : j = i' ∧ after c pid m d req = d' := by simpa [hj] using hd'
      rw [hs]
      exact hle'

lemma Counted.step {st st' : Memory × ℕ} {req : Request} (hc : Counted c pid st)
    (hm : Mapped c st.1) (hreq : Serves pid req) (hroom : Room c pid st req)
    (h : countStep c pid st req = some st') : Counted c pid st' ∧ Mapped c st'.1 := by
  obtain ⟨m, k⟩ := st
  obtain ⟨m', hstep, rfl⟩ := Option.map_eq_some_iff.mp h
  obtain ⟨i, d, hd, hlt, hoff, hle⟩ := hc.data
  obtain ⟨j, hj⟩ := step_data hc.forest hreq hd hstep
  obtain ⟨hs, hoff', hle'⟩ := after_offset hd hlt hoff hle hroom
  have hm' := hm.step hstep
  exact ⟨⟨hm'.forest, j, _, hj, by rw [hs]; exact hlt, hoff', by rw [hs]; exact hle'⟩, hm'⟩

/-- **Room in a swap file.** From the creation of a process on, in every run, all its records
and its offset lie inside its file if and only if at each eviction the pages that are swapped
out, and the one that goes, fit in the declared size with a header each. -/
theorem inside_iff_room (c : Cfg) (heap : ℕ → UInt8) (m₀ m₁ : Memory) (pid pcbSize : UInt32)
    (os : Os) (id : ℕ) (hreach : Reachable (step c) (onInitMemory c heap) m₀)
    (hnew : getSwapDataForPcb m₀ pid.toNat = none)
    (hinit : kernelControllerMemoryInit c m₀ pid.toNat pcbSize.toNat os = some (m₁, id))
    (reqs : List Request) (hserves : ∀ req ∈ reqs, Serves pid.toNat req) :
    Meets (countStep c pid.toNat) (Inside c pid.toNat) (m₁, 0) reqs ↔
      Meets (countStep c pid.toNat) (Room c pid.toNat) (m₁, 0) reqs := by
  have hm₀ := mapped_of_reachable hreach
  have hm₁ : Mapped c m₁ := by
    obtain ⟨file, hc⟩ := kernelControllerMemoryInit_steps hm₀.forest hinit
    refine Mapped.created (hm₀.sameRows ?_) hc
    exact .of_eq _ rfl rfl rfl
  have hcounted : Counted c pid.toNat (m₁, 0) := by
    obtain ⟨i, d, hd, hlt, hoff, hle, -⟩ := (stored_memoryInit pcbSize.toNat_lt hnew hinit).region
    exact ⟨hm₁.forest, i, d, hd, hlt, by simpa using hoff, hle⟩
  have hiff : ∀ st req, Counted c pid.toNat st ∧ Mapped c st.1 → Serves pid.toNat req →
      (Inside c pid.toNat st req ↔ Room c pid.toNat st req) :=
    fun _ _ hi hreq => inside_iff hi.1 hreq
  have hstep : ∀ st req st', Counted c pid.toNat st ∧ Mapped c st.1 → Serves pid.toNat req →
      Room c pid.toNat st req → countStep c pid.toNat st req = some st' →
      Counted c pid.toNat st' ∧ Mapped c st'.1 :=
    fun _ _ _ hi hreq hroom h => hi.1.step hi.2 hreq hroom h
  exact meets_iff_meets hiff hstep ⟨hcounted, hm₁⟩ hserves

def backAndForth : List Request :=
  [.frame 1 0 0 goodOs goodOs, .frame 1 0 1 goodOs goodOs, .frame 1 0 0 goodOs goodOs]

lemma serves_backAndForth : ∀ req ∈ backAndForth, Serves 1 req := by
  simp [backAndForth, Serves]

set_option maxRecDepth 40000 in
/-- A file of 24 bytes has room for two records. -/
theorem inside_iff_room_backAndForth :
    ∃ m₁ id, kernelControllerMemoryInit singleCfg (onInitMemory singleCfg fun _ => 0) 1 24
        goodOs = some (m₁, id) ∧
      Meets (countStep singleCfg 1) (Inside singleCfg 1) (m₁, 0) backAndForth := by
  refine ⟨_, _, rfl, (inside_iff_room singleCfg (fun _ => 0) _ _ 1 24 goodOs 0 (.refl _) rfl rfl
    backAndForth serves_backAndForth).mpr ?_⟩
  decide +kernel

set_option maxRecDepth 40000 in
/-- The process is declared with two pages and uses no other; its second record would start at
12, has 12 bytes, and the file has 16. -/
theorem not_inside_backAndForth :
    ∃ m₁ id, kernelControllerMemoryInit singleCfg (onInitMemory singleCfg fun _ => 0) 1 16
        goodOs = some (m₁, id) ∧
      ¬ Meets (countStep singleCfg 1) (Inside singleCfg 1) (m₁, 0) backAndForth := by
  refine ⟨_, _, rfl, fun h => ?_⟩
  obtain ⟨-, h⟩ := h
  obtain ⟨-, h⟩ := h _ rfl
  obtain ⟨⟨hwrite, -⟩, -⟩ := h _ rfl
  exact absurd (hwrite _ _ rfl (by decide +kernel)) (by decide +kernel)

end Sski.Mem.SwapRoom
