import Sski.Cpu.Mmu
import Sski.Mem.Faults

/-!
The CPU and the memory module together, as the kernel drives them.

One event is one instruction's access, or one thing the kernel does. The kernel gives every
process its own id, and sends a process to the CPU only when it is idle.
-/

namespace Sski.System.World

open Sski.Lib.Slots Sski.Lib.Runs Sski.Cpu.Tlb Sski.Cpu.Mmu Sski.Mem.MemoryModule
open Sski.Mem.PageTable Sski.Mem.OsMemory Sski.Mem.CpuController Sski.Mem.KernelController
open Sski.Mem.Tables Sski.Mem.Rows Sski.Mem.Frames Sski.Mem.Resident Sski.Mem.Faults

/-- The process on the CPU, and all that were admitted and not ended. -/
structure Machine where
  bus : Bus
  executing : Option Process
  processes : List Process

/-- `os` answers while a page is evicted, `os'` while one is loaded. -/
inductive Event where
  | memoryInit (pid pcbSize : UInt32) (os : Os)
  | swapPcb (pid : UInt32) (pcbStream : List UInt8) (os : Os)
  | processTerminated (pid : UInt32)
  | dispatch (pid : UInt32)
  | returnPcb
  | read (logicalAddress : UInt32) (os os' : Os)
  | write (logicalAddress value : UInt32) (os os' : Os)

variable (c : Cfg) (t : TlbCfg)

def init (heap : ℕ → UInt8) : Machine := ⟨⟨onInitMemory c heap, tlbInit t⟩, none, []⟩

def pcbOf (w : Machine) (pid : UInt32) : Option Process := w.processes.find? fun p => p.pid == pid

/-- An event that the kernel or the CPU would not produce in this state is `none`, too. -/
def step (w : Machine) : Event → Option Machine
  | .memoryInit pid pcbSize os =>
    if (pcbOf w pid).isSome then none
    else do
      let (memory, pageTable) ←
        kernelControllerMemoryInit c w.bus.memory pid.toNat pcbSize.toNat os
      return { w with bus := { w.bus with memory }, processes := ⟨pid, pageTable⟩ :: w.processes }
  | .swapPcb pid pcbStream os =>
    some { w with bus :=
      { w.bus with memory := Mem.KernelController.swapPcb w.bus.memory pid.toNat pcbStream os } }
  | .processTerminated pid => do
    let p ← pcbOf w pid
    if w.executing = some p then none
    let memory ← kernelControllerDestroyProcessFile c w.bus.memory p.pid.toNat p.pageTable
    return { w with bus := { w.bus with memory }, processes := w.processes.filter (· ≠ p) }
  | .dispatch pid => do
    let p ← pcbOf w pid
    if w.executing.isSome then none
    return { w with executing := some p }
  | .returnPcb => do
    let _ ← w.executing
    return { w with bus := { w.bus with tlb := tlbReset t w.bus.tlb }, executing := none }
  | .read logicalAddress os os' => do
    let p ← w.executing
    let (bus, _) ← executeRead c t w.bus p logicalAddress.toNat os os'
    return { w with bus }
  | .write logicalAddress value os os' => do
    let p ← w.executing
    let bus ← executeWrite c t w.bus p logicalAddress.toNat value.toNat os os'
    return { w with bus }

def Event.isAccess : Event → Bool
  | .read .. | .write .. => true
  | _ => false

/-! ### What every run keeps -/

structure Inv (w : Machine) : Prop where
  mapped : Mapped c w.bus.memory
  hands : HandsIn c w.bus.memory
  fresh : Fresh t w.bus.tlb
  live : ∀ p ∈ w.processes, ∃ rows, w.bus.memory.table1 p.pageTable = some rows
  distinct : ∀ p ∈ w.processes, ∀ q ∈ w.processes,
    p.pid = q.pid ∨ p.pageTable = q.pageTable → p = q
  executing : ∀ p, w.executing = some p → p ∈ w.processes
  idle : w.executing = none → ∀ x ∈ pairs w.bus.tlb, x.1 = paginaVacia

variable {c t} {m m' : Memory} {w w' : Machine}

lemma handsIn_onInitMemory (heap : ℕ → UInt8) : HandsIn c (onInitMemory c heap) :=
  ⟨handIn_zero c, handIn_zero c⟩

lemma pairs_emptyEntries {x : ℕ × ℕ} {i : ℕ} (hx : x ∈ pairs ⟨emptyEntries t, i⟩) :
    x.1 = paginaVacia := by
  obtain ⟨e, he, rfl⟩ := List.mem_map.mp hx
  rw [List.eq_of_mem_replicate he]
  rfl

lemma inv_init (heap : ℕ → UInt8) : Inv c t (init c t heap) where
  mapped := mapped_onInitMemory c heap
  hands := handsIn_onInitMemory heap
  fresh := fresh_tlbInit t
  live := by simp [init]
  distinct := by simp [init]
  executing := by simp [init]
  idle := fun _ _ hx => pairs_emptyEntries hx

/-! ### Processes that an event leaves alone -/

/-- What the CPU sees of a row: its frame, and whether it is present. -/
def seen (r : PageTableLvl2) : ℕ × Bool := (r.frame, r.present)

/-- The tables of a process are as they were, as far as the CPU sees them. -/
structure Untouched (p : Process) (m m' : Memory) : Prop where
  table1 : m'.table1 p.pageTable = m.table1 p.pageTable
  rows : ∀ rows, m.table1 p.pageTable = some rows → ∀ q : RowRef, q.1 ∈ secondPages rows →
    (m'.rowAt q).map seen = (m.rowAt q).map seen

lemma Untouched.refl (p : Process) (m : Memory) : Untouched p m m := ⟨rfl, fun _ _ _ _ => rfl⟩

lemma Untouched.symm {p : Process} (h : Untouched p m m') : Untouched p m' m :=
  ⟨h.table1.symm, fun rows ht q hq => (h.rows rows (h.table1 ▸ ht) q hq).symm⟩

lemma untouched_sameRows {p : Process} (h : SameRows seen m m') : Untouched p m m' :=
  ⟨h.table1 _, fun _ _ q _ => h.rowAt q⟩

lemma untouched_created {p : Process} {id : ℕ} {rows : List PageTableLvl1} (hf : Forest c m)
    (ht : m.table1 p.pageTable = some rows) (h : Created c m m' id) : Untouched p m m' := by
  refine ⟨(h.table1_of_live ht).trans ht.symm, fun rows' ht' q hq => ?_⟩
  obtain ⟨rows2, h2⟩ := Option.isSome_iff_exists.mp (hf.live _ rows' ht' _ hq)
  have hrow : m'.rowAt q = m.rowAt q := by
    simp only [Memory.rowAt, h2, h.table2_of_live h2]
  rw [hrow]

lemma untouched_deleted {p : Process} {id : ℕ} {rows : List PageTableLvl1} (hf : Forest c m)
    (hid : m.table1 id = some rows) (hne : p.pageTable ≠ id) (h : Deleted m m' id rows) :
    Untouched p m m' := by
  refine ⟨by rw [h.table1, if_neg hne], fun rows' ht' q hq => ?_⟩
  have hq' : q.1 ∉ secondPages rows := fun hmem => hf.disjoint _ _ _ _ ht' hid hne hq hmem
  have hrow : m'.rowAt q = m.rowAt q := by
    simp only [Memory.rowAt, h.table2, if_neg hq']
  rw [hrow]

lemma Untouched.rowAt_some {p : Process} (h : Untouched p m m') {rows : List PageTableLvl1}
    (ht : m.table1 p.pageTable = some rows) {q : RowRef} (hq : q.1 ∈ secondPages rows)
    {r : PageTableLvl2} (hr : m.rowAt q = some r) :
    ∃ r', m'.rowAt q = some r' ∧ r'.frame = r.frame ∧ r'.present = r.present := by
  have hrows := h.rows rows ht q hq
  rw [hr, Option.map_some, Option.map_eq_some_iff] at hrows
  obtain ⟨r', hr', hsame⟩ := hrows
  exact ⟨r', hr', congrArg Prod.fst hsame, congrArg Prod.snd hsame⟩

/-! ### Walks -/

/-- An index from `max_rows` on is taken for the last one. -/
lemma lastRow_eq {n i : ℕ} (h0 : 0 < n) (hn : n < 2 ^ 31) :
    (if i ≥ n then (n + 2 ^ 32 - 1) % 2 ^ 32 else i) = min i (n - 1) := by
  split <;> omega

lemma sendPageSecondLevel_eq {id op2 : ℕ} {rows : List PageTableLvl1} (h0 : 0 < c.maxRows)
    (hprint : printTable c m id = some ()) (ht : m.table1 id = some rows) :
    cpuControllerSendPageSecondLevel c m id op2 =
      rows[min op2 (c.maxRows - 1)]?.map PageTableLvl1.secondPage := by
  have hlt : c.maxRows < 2 ^ 31 := c.entradasPorTabla_lt
  have hle : ¬ min op2 (c.maxRows - 1) > c.maxRows := by omega
  unfold cpuControllerSendPageSecondLevel
  rw [hprint]
  simp only [Option.bind_eq_bind, Option.bind_some, lastRow_eq h0 hlt, obtainSecondPage,
    if_neg hle, ht]
  cases rows[min op2 (c.maxRows - 1)]? <;> rfl

/-- The row a walk reaches depends on the level-1 table only. -/
lemma walk_eq (hf : Forest c m) {p : Process} {rows : List PageTableLvl1}
    (ht : m.table1 p.pageTable = some rows) (page : ℕ) :
    walk c m p page =
      if c.maxRows = 0 ∨ ¬ c.maxRows ∣ bigRows c then none
      else rows[min (page / c.maxRows) (c.maxRows - 1)]?.map fun row =>
        (row.secondPage, page % c.maxRows) := by
  have hmax : c.entradasPorTabla = c.maxRows := rfl
  simp only [walk, getEntryLvl1, hmax]
  by_cases h0 : c.maxRows = 0
  · rw [if_pos h0, if_pos (.inl h0)]
    rfl
  rw [if_neg h0]
  by_cases hdvd : c.maxRows ∣ bigRows c
  · have hprint : printTable c m p.pageTable = some () := by
      simp only [printTable, createBigTable, ht, if_pos hdvd, Option.bind_eq_bind,
        Option.bind_some]
      rw [if_pos]
      exact List.all_eq_true.mpr fun q hq => hf.rowAt_isSome ht (List.mem_of_mem_take hq)
    rw [if_neg (by simp [h0, hdvd]), sendPageSecondLevel_eq (by omega) hprint ht]
    cases rows[min (page / c.maxRows) (c.maxRows - 1)]? <;> rfl
  · have hprint : printTable c m p.pageTable = none := by
      simp [printTable, createBigTable, ht, hdvd]
    have hsend : cpuControllerSendPageSecondLevel c m p.pageTable (page / c.maxRows) = none := by
      unfold cpuControllerSendPageSecondLevel
      rw [hprint]
      rfl
    rw [if_pos (.inr hdvd), hsend]
    rfl

lemma walk_mem (hf : Forest c m) {p : Process} {rows : List PageTableLvl1}
    (ht : m.table1 p.pageTable = some rows) {page : ℕ} {ref : RowRef}
    (h : walk c m p page = some ref) :
    ref.1 ∈ secondPages rows ∧ ref.2 < c.maxRows ∧ ∃ r, m.rowAt ref = some r := by
  have hlt := walk_row_lt h
  rw [walk_eq hf ht] at h
  split at h
  · cases h
  · obtain ⟨row, hrow, rfl⟩ := Option.map_eq_some_iff.mp h
    have hmem : row.secondPage ∈ secondPages rows :=
      List.mem_map_of_mem (List.mem_of_getElem? hrow)
    exact ⟨hmem, hlt, Option.isSome_iff_exists.mp
      (hf.rowAt_isSome ht (mem_rowRefs.mpr ⟨hmem, hlt⟩))⟩

lemma walk_congr (hf : Forest c m) (hf' : Forest c m') {p : Process}
    (h : m'.table1 p.pageTable = m.table1 p.pageTable) {rows : List PageTableLvl1}
    (ht : m.table1 p.pageTable = some rows) (page : ℕ) :
    walk c m' p page = walk c m p page := by
  rw [walk_eq hf' (h.trans ht), walk_eq hf ht]

def Sees (c : Cfg) (m : Memory) (p : Process) (page : ℕ) (s : ℕ × Bool) : Prop :=
  ∃ ref r, walk c m p page = some ref ∧ m.rowAt ref = some r ∧ seen r = s

lemma Sees.untouched {p : Process} {page : ℕ} {s : ℕ × Bool} (h : Sees c m p page s)
    (hf : Forest c m) (hf' : Forest c m') {rows : List PageTableLvl1}
    (ht : m.table1 p.pageTable = some rows) (hu : Untouched p m m') : Sees c m' p page s := by
  obtain ⟨ref, r, hwalk, hr, hs⟩ := h
  obtain ⟨r', hr', hframe, hpres⟩ := hu.rowAt_some ht (walk_mem hf ht hwalk).1 hr
  exact ⟨ref, r', (walk_congr hf hf' hu.table1 ht page).trans hwalk, hr', by
    rw [← hs, seen, seen, hframe, hpres]⟩

/-! ### Accesses -/

/-- What an access asks of the memory module is a read or a write at a physical address. -/
lemma executeRead_eq_some {b b' : Bus} {p : Process} {a value : ℕ} {os os' : Os} :
    executeRead c t b p a os os' = some (b', value) ↔
      ∃ b₁ pa, reqPhysicalAddress c t b p a os os' = some (b₁, pa) ∧ b'.tlb = b₁.tlb ∧
        cpuControllerRead c b₁.memory pa = some (b'.memory, value) := by
  simp only [executeRead, Option.bind_eq_bind, Option.bind_eq_some_iff, Option.pure_def,
    Option.some.injEq, Prod.mk.injEq]
  constructor
  · rintro ⟨⟨b₁, pa⟩, hreq, ⟨memory, v⟩, hread, rfl, rfl⟩
    exact ⟨b₁, pa, hreq, rfl, hread⟩
  · rintro ⟨b₁, pa, hreq, htlb, hread⟩
    exact ⟨(b₁, pa), hreq, (b'.memory, value), hread, by rw [← htlb], rfl⟩

lemma executeWrite_eq_some {b b' : Bus} {p : Process} {a value : ℕ} {os os' : Os} :
    executeWrite c t b p a value os os' = some b' ↔
      ∃ b₁ pa, reqPhysicalAddress c t b p a os os' = some (b₁, pa) ∧ b'.tlb = b₁.tlb ∧
        cpuControllerWrite c b₁.memory pa value = some b'.memory := by
  simp only [executeWrite, Option.bind_eq_bind, Option.bind_eq_some_iff, Option.pure_def,
    Option.some.injEq]
  constructor
  · rintro ⟨⟨b₁, pa⟩, hreq, memory, hwrite, rfl⟩
    exact ⟨b₁, pa, hreq, rfl, hwrite⟩
  · rintro ⟨b₁, pa, hreq, htlb, hwrite⟩
    exact ⟨(b₁, pa), hreq, b'.memory, hwrite, by rw [← htlb]⟩

lemma reqPhysicalAddress_keeps {b b' : Bus} {p : Process} {a pa : ℕ} {os os' : Os}
    (hm : Mapped c b.memory) (hh : HandsIn c b.memory) (hfresh : Fresh t b.tlb)
    (h : reqPhysicalAddress c t b p a os os' = some (b', pa)) :
    Mapped c b'.memory ∧ HandsIn c b'.memory ∧ Fresh t b'.tlb ∧
      b'.memory.tablesLvl1 = b.memory.tablesLvl1 := by
  rcases reqPhysicalAddress_cases h with
    ⟨frame, hhit, rfl, -⟩ | ⟨hmiss, ref, frame, -, hobt, hrep, -⟩
  · exact ⟨hm, hh, hfresh.hit hhit, rfl⟩
  · obtain ⟨tlb, hrep', hfresh'⟩ := hfresh.replace hmiss frame
    obtain rfl : tlb = b'.tlb := by simpa [hrep'] using hrep
    exact ⟨hm.obtainFrame hobt, handsIn_obtainFrame hh hobt, hfresh', obtainFrame_tables1 hobt⟩

lemma seen_of_unmodified (h : SameRows unmodified m m') : SameRows seen m m' := h.comp seen

/-! ### Every run -/

lemma pcbOf_eq_some {pid : UInt32} {p : Process} (h : pcbOf w pid = some p) :
    p ∈ w.processes ∧ p.pid = pid :=
  ⟨List.mem_of_find?_eq_some h, by simpa using List.find?_some h⟩

lemma pcbOf_eq_none {pid : UInt32} (h : pcbOf w pid = none) :
    ∀ p ∈ w.processes, p.pid ≠ pid := by
  intro p hp
  simpa using List.find?_eq_none.mp h p hp

lemma memoryInit_memory (hm : Mapped c m) {pid size id : ℕ} {os : Os}
    (h : kernelControllerMemoryInit c m pid size os = some (m', id)) :
    Mapped c m' ∧ (HandsIn c m → HandsIn c m') ∧ m'.mainMemory = m.mainMemory ∧
      m.table1 id = none ∧ (∃ rows, m'.table1 id = some rows) ∧
      ∀ p rows, m.table1 p.pageTable = some rows → Untouched p m m' := by
  obtain ⟨file, hc⟩ := kernelControllerMemoryInit_steps hm.forest h
  have hm₀ : Mapped c (Mem.Swap.setFile { m with swapData := m.swapData ++ [⟨pid, 0, size⟩] } pid
      file) := hm.sameRows (.of_eq _ rfl rfl rfl)
  refine ⟨hm₀.created hc, fun hh => ⟨hc.rest.clock ▸ hh.clock, hc.rest.improvedClock ▸
    hh.improvedClock⟩, hc.rest.mainMemory, hc.free, ⟨_, by rw [hc.table1, if_pos rfl]⟩,
    fun p rows ht => ?_⟩
  have hunt := untouched_created (p := p) hm₀.forest ht hc
  exact ⟨hunt.table1, hunt.rows⟩

lemma not_sees_memoryInit (hm : Mapped c m) {pid size : ℕ} {os : Os} {p : Process}
    (h : kernelControllerMemoryInit c m pid size os = some (m', p.pageTable)) (page frame : ℕ) :
    ¬ Sees c m' p page (frame, true) := by
  rintro ⟨ref, r, hwalk, hr, hs⟩
  obtain ⟨file, hc⟩ := kernelControllerMemoryInit_steps hm.forest h
  have ht := hc.table1 p.pageTable
  rw [if_pos rfl] at ht
  have hmem := (walk_mem (memoryInit_memory hm h).1.forest ht hwalk).1
  rw [secondPages_map_mk] at hmem
  obtain ⟨table, htable, hget⟩ := Memory.rowAt_eq_some_iff.mp hr
  rw [hc.table2, if_pos hmem, Option.some.injEq] at htable
  obtain rfl := mem_newPageTableLvl2 (htable ▸ List.mem_of_getElem? hget)
  cases congrArg Prod.snd hs

lemma processTerminated_memory (hm : Mapped c m) {pid id : ℕ}
    (h : kernelControllerDestroyProcessFile c m pid id = some m') :
    Mapped c m' ∧ (HandsIn c m → HandsIn c m') ∧ m'.mainMemory = m.mainMemory ∧
      ∀ p : Process, p.pageTable ≠ id → Untouched p m m' := by
  obtain ⟨m₁, h₁, rfl⟩ := kernelControllerDestroyProcessFile_steps h
  rcases deleteProcess_spec hm.forest h₁ with ⟨-, rfl⟩ | ⟨rows, ht, hd⟩
  · exact ⟨hm.sameRows (.of_eq _ rfl rfl rfl), fun hh => ⟨hh.clock, hh.improvedClock⟩, rfl,
      fun p _ => ⟨rfl, fun _ _ _ _ => rfl⟩⟩
  · refine ⟨(hm.deleted ht hd).sameRows (.of_eq _ rfl rfl rfl), fun hh =>
      ⟨hd.rest.clock ▸ hh.clock, hd.rest.improvedClock ▸ hh.improvedClock⟩, hd.rest.mainMemory,
      fun p hne => ?_⟩
    have hunt := untouched_deleted hm.forest ht hne hd
    exact ⟨hunt.table1, hunt.rows⟩

/-- The block of a suspended process only goes to a file. -/
lemma swapPcb_eq (m : Memory) (pid : ℕ) (pcbStream : List UInt8) (os : Os) :
    ∃ files, Mem.KernelController.swapPcb m pid pcbStream os = { m with files } := by
  unfold Mem.KernelController.swapPcb
  split
  · exact ⟨_, rfl⟩
  · rename_i m₁ file hopen
    obtain ⟨-, -, rfl⟩ := openFile_eq hopen
    split
    · exact ⟨_, rfl⟩
    · exact ⟨_, rfl⟩

lemma Inv.access (hi : Inv c t w) {b : Bus} {p : Process} (hp : w.executing = some p)
    (hm : Mapped c b.memory) (hh : HandsIn c b.memory) (hfresh : Fresh t b.tlb)
    (htables : b.memory.tablesLvl1 = w.bus.memory.tablesLvl1) : Inv c t { w with bus := b } where
  mapped := hm
  hands := hh
  fresh := hfresh
  live := fun q hq => by
    obtain ⟨rows, ht⟩ := hi.live q hq
    exact ⟨rows, by rw [← ht, Memory.table1, htables]; rfl⟩
  distinct := hi.distinct
  executing := hi.executing
  idle := fun hnone => by
    have hp' : w.executing = none := hnone
    rw [hp] at hp'
    cases hp'

theorem Inv.step (hi : Inv c t w) {e : Event} (h : step c t w e = some w') : Inv c t w' := by
  cases e with
  | memoryInit pid pcbSize os =>
    simp only [World.step] at h
    split at h
    · cases h
    rename_i hnew
    simp only [Option.bind_eq_bind, Option.bind_eq_some_iff, Option.pure_def,
      Option.some.injEq] at h
    obtain ⟨⟨memory, id⟩, hinit, rfl⟩ := h
    obtain ⟨hm, hh, -, hfree, hlive, hkept⟩ := memoryInit_memory hi.mapped hinit
    have hpid : ∀ q ∈ w.processes, q.pid ≠ pid := pcbOf_eq_none (by simpa using hnew)
    have hid : ∀ q ∈ w.processes, q.pageTable ≠ id := by
      rintro q hq rfl
      obtain ⟨rows, ht⟩ := hi.live q hq
      rw [hfree] at ht
      cases ht
    refine ⟨hm, hh hi.hands, hi.fresh, ?_, ?_, ?_, hi.idle⟩
    · intro q hq
      rcases List.mem_cons.mp hq with rfl | hq
      · exact hlive
      · obtain ⟨rows, ht⟩ := hi.live q hq
        exact ⟨rows, (hkept q rows ht).table1.trans ht⟩
    · intro q hq q' hq' heq
      rcases List.mem_cons.mp hq with rfl | hq <;> rcases List.mem_cons.mp hq' with rfl | hq'
      · rfl
      · exact absurd heq (not_or.mpr ⟨fun h => hpid q' hq' h.symm, fun h => hid q' hq' h.symm⟩)
      · exact absurd heq (not_or.mpr ⟨hpid q hq, hid q hq⟩)
      · exact hi.distinct q hq q' hq' heq
    · exact fun q hq => List.mem_cons_of_mem _ (hi.executing q hq)
  | swapPcb pid pcbStream os =>
    obtain ⟨files, hfiles⟩ := swapPcb_eq w.bus.memory pid.toNat pcbStream os
    rw [World.step, hfiles, Option.some.injEq] at h
    subst h
    exact ⟨hi.mapped.sameRows (.of_eq _ rfl rfl rfl), ⟨hi.hands.clock, hi.hands.improvedClock⟩,
      hi.fresh, hi.live, hi.distinct, hi.executing, hi.idle⟩
  | processTerminated pid =>
    simp only [World.step, Option.bind_eq_bind, Option.bind_eq_some_iff] at h
    obtain ⟨p, hp, h⟩ := h
    split at h
    · simp at h
    rename_i hne
    simp only [Option.bind_eq_some_iff, Option.pure_def, Option.some.injEq] at h
    obtain ⟨memory, hend, rfl⟩ := h
    obtain ⟨hmem, -⟩ := pcbOf_eq_some hp
    obtain ⟨hm, hh, -, hkept⟩ := processTerminated_memory hi.mapped hend
    refine ⟨hm, hh hi.hands, hi.fresh, ?_, ?_, ?_, hi.idle⟩
    · intro q hq
      obtain ⟨hq, hqp⟩ := List.mem_filter.mp hq
      have hqp : q ≠ p := by simpa using hqp
      obtain ⟨rows, ht⟩ := hi.live q hq
      exact ⟨rows, (hkept q fun h => hqp (hi.distinct q hq p hmem (.inr h))).table1.trans ht⟩
    · intro q hq q' hq' heq
      exact hi.distinct q (List.mem_filter.mp hq).1 q' (List.mem_filter.mp hq').1 heq
    · intro q hq
      refine List.mem_filter.mpr ⟨hi.executing q hq, ?_⟩
      have hq' : w.executing = some q := hq
      simp only [decide_eq_true_eq]
      rintro rfl
      exact hne hq'
  | dispatch pid =>
    simp only [World.step, Option.bind_eq_bind, Option.bind_eq_some_iff] at h
    obtain ⟨p, hp, h⟩ := h
    split at h
    · simp at h
    obtain rfl := Option.some.inj h
    refine ⟨hi.mapped, hi.hands, hi.fresh, hi.live, hi.distinct, fun q hq => ?_, fun h => ?_⟩
    · obtain rfl := Option.some.inj hq
      exact (pcbOf_eq_some hp).1
    · cases h
  | returnPcb =>
    simp only [World.step, Option.bind_eq_bind, Option.bind_eq_some_iff, Option.pure_def,
      Option.some.injEq] at h
    obtain ⟨p, hp, rfl⟩ := h
    exact ⟨hi.mapped, hi.hands, hi.fresh.tlbReset, hi.live, hi.distinct,
      fun q hq => (by cases hq), fun _ x hx => pairs_emptyEntries hx⟩
  | read a os os' =>
    simp only [World.step, Option.bind_eq_bind, Option.bind_eq_some_iff, Option.pure_def,
      Option.some.injEq] at h
    obtain ⟨p, hp, ⟨b, value⟩, hread, rfl⟩ := h
    obtain ⟨b₁, pa, hreq, htlb, hread⟩ := executeRead_eq_some.mp hread
    obtain ⟨hm, hh, hfresh, htables⟩ := reqPhysicalAddress_keeps hi.mapped hi.hands hi.fresh hreq
    have hsame := sameRows_cpuControllerRead hread
    obtain ⟨l, hl⟩ := cpuControllerRead_fields hread
    refine hi.access hp (hm.sameRows (hsame.comp PageTableLvl2.frame)) ?_ (htlb ▸ hfresh)
      (hsame.tables1.trans htables)
    rw [show b.memory = _ from hl]
    exact ⟨hh.clock, hh.improvedClock⟩
  | write a value os os' =>
    simp only [World.step, Option.bind_eq_bind, Option.bind_eq_some_iff, Option.pure_def,
      Option.some.injEq] at h
    obtain ⟨p, hp, b, hwrite, rfl⟩ := h
    obtain ⟨b₁, pa, hreq, htlb, hwrite⟩ := executeWrite_eq_some.mp hwrite
    obtain ⟨hm, hh, hfresh, htables⟩ := reqPhysicalAddress_keeps hi.mapped hi.hands hi.fresh hreq
    have hsame := sameRows_cpuControllerWrite hwrite
    obtain ⟨mainMemory, l, hl⟩ := cpuControllerWrite_fields hwrite
    refine hi.access hp (hm.sameRows (hsame.comp PageTableLvl2.frame)) ?_ (htlb ▸ hfresh)
      (hsame.tables1.trans htables)
    rw [show b.memory = _ from hl]
    exact ⟨hh.clock, hh.improvedClock⟩

/-- An access translates its address, and then reads or writes. -/
lemma step_access {e : Event} (he : e.isAccess = true) (h : step c t w e = some w') :
    ∃ p a os os' b₁ pa, w.executing = some p ∧ (∃ v, e = .read a os os' ∨ e = .write a v os os') ∧
      reqPhysicalAddress c t w.bus p a.toNat os os' = some (b₁, pa) ∧
      w' = { w with bus := w'.bus } ∧ w'.bus.tlb = b₁.tlb ∧
      SameRows seen b₁.memory w'.bus.memory := by
  cases e with
  | read a os os' =>
    simp only [World.step, Option.bind_eq_bind, Option.bind_eq_some_iff, Option.pure_def,
      Option.some.injEq] at h
    obtain ⟨p, hp, ⟨b, value⟩, hread, rfl⟩ := h
    obtain ⟨b₁, pa, hreq, htlb, hread⟩ := executeRead_eq_some.mp hread
    exact ⟨p, a, os, os', b₁, pa, hp, ⟨0, .inl rfl⟩, hreq, rfl, htlb,
      seen_of_unmodified (sameRows_cpuControllerRead hread)⟩
  | write a value os os' =>
    simp only [World.step, Option.bind_eq_bind, Option.bind_eq_some_iff, Option.pure_def,
      Option.some.injEq] at h
    obtain ⟨p, hp, b, hwrite, rfl⟩ := h
    obtain ⟨b₁, pa, hreq, htlb, hwrite⟩ := executeWrite_eq_some.mp hwrite
    exact ⟨p, a, os, os', b₁, pa, hp, ⟨value, .inr rfl⟩, hreq, rfl, htlb,
      seen_of_unmodified (sameRows_cpuControllerWrite hwrite)⟩
  | memoryInit | swapPcb | processTerminated | dispatch | returnPcb => cases he

/-- What an event that is no access does to the processes that stay. -/
lemma step_quiet (hi : Inv c t w) {e : Event} (he : e.isAccess = false)
    (h : step c t w e = some w') :
    w'.bus.memory.mainMemory = w.bus.memory.mainMemory ∧
      (∀ p ∈ w'.processes, p ∈ w.processes → Untouched p w.bus.memory w'.bus.memory) ∧
      ((w'.executing = w.executing ∧ w'.bus.tlb = w.bus.tlb) ∨
        ∀ x ∈ pairs w'.bus.tlb, x.1 = paginaVacia) := by
  cases e with
  | memoryInit pid pcbSize os =>
    simp only [World.step] at h
    split at h
    · cases h
    simp only [Option.bind_eq_bind, Option.bind_eq_some_iff, Option.pure_def,
      Option.some.injEq] at h
    obtain ⟨⟨memory, id⟩, hinit, rfl⟩ := h
    obtain ⟨-, -, hmain, -, -, hkept⟩ := memoryInit_memory hi.mapped hinit
    refine ⟨hmain, fun p _ hp => ?_, .inl ⟨rfl, rfl⟩⟩
    obtain ⟨rows, ht⟩ := hi.live p hp
    exact hkept p rows ht
  | swapPcb pid pcbStream os =>
    obtain ⟨files, hfiles⟩ := swapPcb_eq w.bus.memory pid.toNat pcbStream os
    rw [World.step, hfiles, Option.some.injEq] at h
    subst h
    exact ⟨rfl, fun p _ _ => ⟨rfl, fun _ _ _ _ => rfl⟩, .inl ⟨rfl, rfl⟩⟩
  | processTerminated pid =>
    simp only [World.step, Option.bind_eq_bind, Option.bind_eq_some_iff] at h
    obtain ⟨p, hp, h⟩ := h
    split at h
    · simp at h
    simp only [Option.bind_eq_some_iff, Option.pure_def, Option.some.injEq] at h
    obtain ⟨memory, hend, rfl⟩ := h
    obtain ⟨hmem, -⟩ := pcbOf_eq_some hp
    obtain ⟨-, -, hmain, hkept⟩ := processTerminated_memory hi.mapped hend
    refine ⟨hmain, fun q hq hq' => ?_, .inl ⟨rfl, rfl⟩⟩
    have hqp : q ≠ p := by simpa using (List.mem_filter.mp hq).2
    exact hkept q fun h => hqp (hi.distinct q hq' p hmem (.inr h))
  | dispatch pid =>
    simp only [World.step, Option.bind_eq_bind, Option.bind_eq_some_iff] at h
    obtain ⟨p, hp, h⟩ := h
    split at h
    · simp at h
    rename_i hidle
    obtain rfl := Option.some.inj h
    exact ⟨rfl, fun p _ _ => .refl p _, .inr (hi.idle (by simpa using hidle))⟩
  | returnPcb =>
    simp only [World.step, Option.bind_eq_bind, Option.bind_eq_some_iff, Option.pure_def,
      Option.some.injEq] at h
    obtain ⟨p, hp, rfl⟩ := h
    exact ⟨rfl, fun p _ _ => .refl p _, .inr fun x hx => pairs_emptyEntries hx⟩
  | read | write => cases he

end Sski.System.World
