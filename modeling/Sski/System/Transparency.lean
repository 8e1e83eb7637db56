import Sski.Lib.Latest
import Sski.System.Isolation

/-!
What a process reads is what it wrote last.

The words of every process are noted beside the machine. A word that was written lies in the
frame of its page, and the frame is the row's that the walk of the page reaches, so long as the
pages of a table are first accessed in order and none is loaded again: a page fault maps the new
frame on the first row without one, and the page that was swapped out comes back to another
frame than the one that is answered.
-/

namespace Sski.System.Transparency

open Sski.Lib.Runs Sski.Lib.Block Sski.Lib.Latest Sski.Cpu.Tlb Sski.Cpu.Mmu
open Sski.Mem.MemoryModule Sski.Mem.CpuController Sski.Mem.Tables Sski.Mem.Rows Sski.Mem.Frames
open Sski.Mem.Faults Sski.System.World Sski.System.Isolation

/-! ### The words that were written -/

/-- The word a process wrote last at an address; it is forgotten when the process ends. -/
def note (w : Machine) (e : Event) (s : Words UInt32 UInt32) : Words UInt32 UInt32 :=
  match e with
  | .write a value _ _ =>
    match w.executing with
    | some p => write 1 s p.pid a.toNat value
    | none => s
  | .processTerminated pid => forget s pid
  | _ => s

variable (c : Cfg) (t : TlbCfg)

abbrev stepW := watched (step c t) note

def FreeAtFault (w : Machine) : Event → Prop
  | .read a _ _ | .write a _ _ _ => ∀ p, w.executing = some p →
      (pageInTlb w.bus.tlb (getPageNumber a.toNat c.tamPagina)).2 = none →
      ∀ ref, walk c w.bus.memory p (getPageNumber a.toNat c.tamPagina) = some ref →
        ∀ r, w.bus.memory.rowAt ref = some r → r.present = false → false ∈ w.bus.memory.frames
  | _ => True

/-- A read by the process on the CPU returns what it wrote last. -/
def ReadsLast (w : Machine) (s : Words UInt32 UInt32) (a : UInt32) (os os' : Os) : Prop :=
  ∀ p, w.executing = some p → ∀ v, s p.pid a.toNat = some v →
    ∃ b, executeRead c t w.bus p a.toNat os os' = some (b, v.toNat)

def addressSpace : ℕ := c.maxRows * c.maxRows * c.tamPagina

/-- A write stays inside its page and inside the address space, and covers no part of another
word at a multiple of four that was written. -/
structure Whole (s : Words UInt32 UInt32) (pid : UInt32) (a : ℕ) : Prop where
  inside : getOffset a c.tamPagina + 4 ≤ c.tamPagina
  range : a < addressSpace c
  apart : a % 4 = 0 ∨ s pid (a / 4 * 4) = none ∧ s pid (a / 4 * 4 + 4) = none

/-- The condition on an event: an access is in order, and a write is whole. -/
def Kept (w : Machine) (s : Words UInt32 UInt32) : Event → Prop
  | .read a _ _ => ∀ p, w.executing = some p → InOrder c w.bus p a.toNat
  | .write a _ _ _ => ∀ p, w.executing = some p →
      InOrder c w.bus p a.toNat ∧ Whole c s p.pid a.toNat
  | _ => True

instance (w : Machine) (e : Event) : Decidable (FreeAtFault c w e) :=
  have hacc (a : UInt32) := decidable_of_iff (∀ p ∈ w.executing,
      (pageInTlb w.bus.tlb (getPageNumber a.toNat c.tamPagina)).2 = none →
      ∀ ref ∈ walk c w.bus.memory p (getPageNumber a.toNat c.tamPagina),
        ∀ r ∈ w.bus.memory.rowAt ref, r.present = false → false ∈ w.bus.memory.frames) Iff.rfl
  match e with
  | .read a _ _ | .write a _ _ _ => hacc a
  | .memoryInit .. | .swapPcb .. | .processTerminated _ | .dispatch _ | .returnPcb =>
    .isTrue trivial

instance (s : Words UInt32 UInt32) (pid : UInt32) (a : ℕ) : Decidable (Whole c s pid a) :=
  decidable_of_iff (getOffset a c.tamPagina + 4 ≤ c.tamPagina ∧ a < addressSpace c ∧
      (a % 4 = 0 ∨ s pid (a / 4 * 4) = none ∧ s pid (a / 4 * 4 + 4) = none))
    ⟨fun ⟨hin, hrange, hapart⟩ => ⟨hin, hrange, hapart⟩,
      fun ⟨hin, hrange, hapart⟩ => ⟨hin, hrange, hapart⟩⟩

instance (w : Machine) (s : Words UInt32 UInt32) (e : Event) : Decidable (Kept c w s e) :=
  match e with
  | .read a _ _ => inferInstanceAs (Decidable (∀ p ∈ w.executing, InOrder c w.bus p a.toNat))
  | .write a _ _ _ => decidable_of_iff (∀ p ∈ w.executing,
      InOrder c w.bus p a.toNat ∧ Whole c s p.pid a.toNat) Iff.rfl
  | .memoryInit .. | .swapPcb .. | .processTerminated _ | .dispatch _ | .returnPcb =>
    .isTrue trivial

variable {c t} {m m' : Memory} {w w' : Machine} {s : Words UInt32 UInt32}

/-! ### Where a word lies -/

/-- The word at an address of a process is in the frame of its page. -/
def Stored (c : Cfg) (m : Memory) (p : Process) (a : ℕ) (v : UInt32) : Prop :=
  ∃ frame present, Sees c m p (getPageNumber a c.tamPagina) (frame, present) ∧
    frame ≠ invalidFrame ∧
    peek m.mainMemory (frame * c.tamPagina + getOffset a c.tamPagina) 4 =
      some (wordBytes v.toNat)

/-- The frames that the processes and the TLB rely on are frames. -/
structure Backed (c : Cfg) (w : Machine) : Prop where
  rows : ∀ q ∈ w.processes, ∀ page frame, Sees c w.bus.memory q page (frame, true) →
    frame ≠ invalidFrame
  tlb : ∀ x ∈ pairs w.bus.tlb, x.1 ≠ paginaVacia → x.2 ≠ invalidFrame

structure Faithful (c : Cfg) (t : TlbCfg) (w : Machine) (s : Words UInt32 UInt32) : Prop where
  good : Good c t w
  backed : Backed c w
  stored : ∀ pid a v, s pid a = some v → a % 4 = 0 →
    ∃ p ∈ w.processes, p.pid = pid ∧ a < addressSpace c ∧ Stored c w.bus.memory p a v

lemma faithful_init (heap : ℕ → UInt8) : Faithful c t (init c t heap) unwritten where
  good := good_init heap
  backed := ⟨fun q hq => by simp [init] at hq, fun x hx hne => absurd (pairs_emptyEntries hx) hne⟩
  stored := fun pid a v h => by cases h

/-! ### Addresses -/

lemma getOffset_eq (a : ℕ) : getOffset a c.tamPagina = a % c.tamPagina := by
  rw [getOffset, getPageNumber, Nat.mod_eq_sub]

/-- The pages of the address space have different rows. -/
lemma walk_inj (hf : Forest c m) {p : Process} {rows : List PageTableLvl1}
    (ht : m.table1 p.pageTable = some rows) {page page' : ℕ} {ref : RowRef}
    (hpage : page < c.maxRows * c.maxRows) (hpage' : page' < c.maxRows * c.maxRows)
    (h : walk c m p page = some ref) (h' : walk c m p page' = some ref) : page = page' := by
  rw [walk_eq hf ht] at h h'
  split at h
  · cases h
  rename_i hn
  rw [if_neg hn] at h'
  have hdiv := Nat.div_lt_of_lt_mul hpage
  have hdiv' := Nat.div_lt_of_lt_mul hpage'
  rw [Nat.min_eq_left (by omega)] at h h'
  obtain ⟨row, hrow, rfl⟩ := Option.map_eq_some_iff.mp h
  obtain ⟨row', hrow', heq⟩ := Option.map_eq_some_iff.mp h'
  obtain ⟨hsecond, hmod⟩ := Prod.mk.inj heq
  -- no level-2 table is referenced twice
  have hsame : page / c.maxRows = page' / c.maxRows := by
    have hget : (secondPages rows)[page / c.maxRows]? = some row.secondPage := by
      rw [secondPages, List.getElem?_map, hrow, Option.map_some]
    have hget' : (secondPages rows)[page' / c.maxRows]? = some row.secondPage := by
      rw [secondPages, List.getElem?_map, hrow', Option.map_some, hsecond]
    exact (List.getElem?_inj (List.getElem?_eq_some_iff.mp hget).1 (hf.nodup _ rows ht)).mp
      (hget.trans hget'.symm)
  rw [← Nat.div_add_mod page c.maxRows, ← Nat.div_add_mod page' c.maxRows, hsame, hmod]

lemma getPageNumber_lt {a : ℕ} (ha : a < addressSpace c) :
    getPageNumber a c.tamPagina < c.maxRows * c.maxRows :=
  Nat.div_lt_of_lt_mul (by rw [Nat.mul_comm]; exact ha)

/-! ### Translation -/

/-- The physical address of a mapped page does not overflow. -/
lemma physicalAddress_eq (hm : Mapped c m) {ref : RowRef} {r : PageTableLvl2}
    (hr : m.rowAt ref = some r) (hne : r.frame ≠ invalidFrame) (a : ℕ) :
    physicalAddress c r.frame a = r.frame * c.tamPagina + getOffset a c.tamPagina := by
  have hfit := frame_inside (hm.framesKnown.known ref r hr hne)
  have hmod := Nat.mod_lt a c.tamPagina_pos
  have hlt := c.tamMemoria_lt
  rw [← getOffset_eq] at hmod
  exact Nat.mod_eq_of_lt (by omega)

def Reaches (c : Cfg) (m : Memory) (p : Process) (a pa : ℕ) : Prop :=
  ∃ frame present, Sees c m p (getPageNumber a c.tamPagina) (frame, present) ∧
    frame ≠ invalidFrame ∧ pa = frame * c.tamPagina + getOffset a c.tamPagina

lemma reaches_physicalAddress (hm : Mapped c m) {p : Process} {a frame : ℕ} {present : Bool}
    (h : Sees c m p (getPageNumber a c.tamPagina) (frame, present)) (hne : frame ≠ invalidFrame) :
    Reaches c m p a (physicalAddress c frame a) := by
  refine ⟨frame, present, h, hne, ?_⟩
  obtain ⟨ref, r, -, hr, hs⟩ := h
  obtain rfl : r.frame = frame := congrArg Prod.fst hs
  exact physicalAddress_eq hm hr hne a

/-- What a translation needs of the state and of the access. -/
structure Translates (c : Cfg) (t : TlbCfg) (w : Machine) (p : Process) (a pa : ℕ) (os os' : Os)
    (b : Bus) : Prop where
  executing : w.executing = some p
  page : getPageNumber a c.tamPagina ≠ paginaVacia
  inOrder : InOrder c w.bus p a
  free : (pageInTlb w.bus.tlb (getPageNumber a c.tamPagina)).2 = none →
    ∀ ref, walk c w.bus.memory p (getPageNumber a c.tamPagina) = some ref →
      ∀ r, w.bus.memory.rowAt ref = some r → r.present = false → false ∈ w.bus.memory.frames
  eq : reqPhysicalAddress c t w.bus p a os os' = some (b, pa)

section Translate

variable {p : Process} {a pa : ℕ} {os os' : Os} {b : Bus}

lemma obtained_ne (hb : Backed c w) (hg : Good c t w) (h : Translates c t w p a pa os os' b)
    (hmiss : (pageInTlb w.bus.tlb (getPageNumber a c.tamPagina)).2 = none) {ref : RowRef}
    (hwalk : walk c w.bus.memory p (getPageNumber a c.tamPagina) = some ref) {frame : ℕ}
    (hobt : obtainFrame c w.bus.memory ref.1 ref.2 p.pid.toNat os os' = some (m', frame)) :
    frame ≠ invalidFrame := by
  rcases obtainFrame_cases hobt with ⟨hgt, -⟩ | ⟨r, hr, hpres, -, rfl⟩ | ⟨r, hr, habs, hfault⟩
  · have hlt := walk_row_lt hwalk
    omega
  · exact hb.rows p (hg.inv.executing p h.executing) _ _ ⟨ref, r, hwalk, hr, by rw [seen, hpres]⟩
  · obtain ⟨m₁, m₂, hfind, -⟩ := pageFault_steps hfault
    exact findFreeFrame_ne hg.inv.mapped (h.free hmiss ref hwalk r hr habs) hfind

lemma Backed.translate (hb : Backed c w) (hg : Good c t w)
    (h : Translates c t w p a pa os os' b) :
    Backed c { w with bus := b } ∧ Reaches c b.memory p a pa := by
  obtain ⟨htr, hm, htables⟩ := hg.translated h.executing h.inOrder h.eq
  obtain ⟨rows, ht⟩ := hg.inv.live p (hg.inv.executing p h.executing)
  have hf := hg.inv.mapped.forest
  rcases reqPhysicalAddress_cases h.eq with
    ⟨frame, hhit, rfl, rfl⟩ | ⟨hmiss, ref, frame, hwalk, hobt, hrep, rfl⟩
  · have hmem := pageInTlb_eq_some hhit
    have hvalid := hb.tlb _ hmem h.page
    obtain ⟨present, hsees⟩ := hg.framed p h.executing _ hmem h.page hvalid
    refine ⟨⟨hb.rows, fun x hx => hb.tlb x ?_⟩, reaches_physicalAddress hm hsees hvalid⟩
    rwa [pairs_pageInTlb] at hx
  have hvalid := obtained_ne hb hg h hmiss hwalk hobt
  have hfirst := h.inOrder hmiss ref hwalk
  have hobtained := obtained_of_firstAccess (Nat.le_of_lt (walk_row_lt hwalk)) hfirst hobt
  have htable : ∀ q : Process, b.memory.table1 q.pageTable = w.bus.memory.table1 q.pageTable :=
    fun q => by rw [Memory.table1, Memory.table1, htables]
  obtain ⟨r₀, hr₀, hframe₀, hpres₀⟩ := hobtained.row
  have hsees : Sees c b.memory p (getPageNumber a c.tamPagina) (frame, true) :=
    ⟨ref, r₀, (walk_congr hf hm.forest (htable p) ht _).trans hwalk, hr₀,
      by rw [seen, hframe₀, hpres₀]⟩
  refine ⟨⟨fun q hq page f hq' => ?_, fun x hx hne => ?_⟩,
    reaches_physicalAddress hm hsees hvalid⟩
  · obtain ⟨rowsq, htq⟩ := hg.inv.live q hq
    obtain ⟨refq, r', hwalkq, hr', hs'⟩ := hq'
    rw [walk_congr hf hm.forest (htable q) htq] at hwalkq
    obtain ⟨-, -, r, hr⟩ := walk_mem hf htq hwalkq
    obtain rfl : r'.frame = f := congrArg Prod.fst hs'
    cases hpres : r.present with
    | true =>
      have hne := hb.rows q hq page r.frame ⟨refq, r, hwalkq, hr, by rw [seen, hpres]⟩
      obtain ⟨r'', hr'', hframe⟩ := htr.frames refq r hr hne
      obtain rfl : r'' = r' := by simpa [hr'] using hr''.symm
      exact hframe ▸ hne
    | false =>
      -- only the row of the page becomes present
      by_cases href : refq = ref
      · subst href
        obtain rfl : r₀ = r' := by simpa [hr'] using hr₀.symm
        exact hframe₀ ▸ hvalid
      · obtain ⟨r'', hr'', habs⟩ := obtainFrame_absent hfirst hobt hr hpres href
        obtain rfl : r'' = r' := by simpa [hr'] using hr''.symm
        have hcontra : true = false := (congrArg Prod.snd hs').symm.trans habs
        cases hcontra
  · obtain ⟨i, -, -, hpairs⟩ := replace_eq_some t hrep
    rw [pairs_pageInTlb] at hpairs
    have hx : x ∈ pairs b.tlb := hx
    rw [hpairs] at hx
    rcases List.mem_or_eq_of_mem_set hx with hx | rfl
    · exact hb.tlb x hx hne
    · exact hvalid

lemma Stored.translate {q : Process} {rows : List PageTableLvl1} {a' : ℕ} {v : UInt32}
    (hs : Stored c w.bus.memory q a' v) (hg : Good c t w) (h : Translates c t w p a pa os os' b)
    (ht : w.bus.memory.table1 q.pageTable = some rows) : Stored c b.memory q a' v := by
  obtain ⟨htr, hm, htables⟩ := hg.translated h.executing h.inOrder h.eq
  obtain ⟨frame, present, ⟨ref, r, hwalk, hr, hseen⟩, hne, hpeek⟩ := hs
  obtain rfl : r.frame = frame := congrArg Prod.fst hseen
  obtain ⟨r', hr', hframe⟩ := htr.frames ref r hr hne
  refine ⟨r.frame, r'.present, ⟨ref, r', ?_, hr', by rw [seen, hframe]⟩, hne, ?_⟩
  · rw [walk_congr hg.inv.mapped.forest hm.forest _ ht]
    · exact hwalk
    · rw [Memory.table1, Memory.table1, htables]
  · rw [htr.mainMemory]
    exact hpeek

end Translate

/-! ### Reads and writes -/

lemma Stored.untouched {p : Process} {a : ℕ} {v : UInt32} {rows : List PageTableLvl1}
    (hs : Stored c m p a v) (hf : Forest c m) (hf' : Forest c m')
    (ht : m.table1 p.pageTable = some rows) (hu : Untouched p m m')
    (hmain : m'.mainMemory = m.mainMemory) : Stored c m' p a v := by
  obtain ⟨frame, present, hsees, hne, hpeek⟩ := hs
  refine ⟨frame, present, hsees.untouched hf hf' ht hu, hne, ?_⟩
  rw [hmain]
  exact hpeek

lemma getOffset_inside (hpage : 4 ∣ c.tamPagina) {a : ℕ} (ha : a % 4 = 0) :
    getOffset a c.tamPagina + 4 ≤ c.tamPagina := by
  have hlt := Nat.mod_lt a c.tamPagina_pos
  have hmod : a % c.tamPagina % 4 = 0 := by rw [Nat.mod_mod_of_dvd a hpage, ha]
  rw [getOffset_eq]
  omega

lemma Whole.disjoint {pid : UInt32} {a b : ℕ} {v : UInt32} (h : Whole c s pid a)
    (hb : b % 4 = 0) (hs : s pid b = some v) (hne : b ≠ a) : b + 4 ≤ a ∨ a + 4 ≤ b := by
  rcases h.apart with ha | ⟨hlow, hhigh⟩
  · omega
  · have hlow' : b ≠ a / 4 * 4 := by
      rintro rfl
      rw [hlow] at hs
      cases hs
    have hhigh' : b ≠ a / 4 * 4 + 4 := by
      rintro rfl
      rw [hhigh] at hs
      cases hs
    omega

/-- A write leaves the words of other processes, and those it does not overlap. -/
lemma Stored.written (hi : Inv c t w) {p q : Process} (hp : p ∈ w.processes)
    (hq : q ∈ w.processes) {a b pa : ℕ} {u v : UInt32} (hs : Stored c w.bus.memory q b v)
    (hb : b < addressSpace c) (hbin : getOffset b c.tamPagina + 4 ≤ c.tamPagina)
    (ha : a < addressSpace c) (hain : getOffset a c.tamPagina + 4 ≤ c.tamPagina)
    (hdisjoint : q = p → b + 4 ≤ a ∨ a + 4 ≤ b) (hreach : Reaches c w.bus.memory p a pa)
    (hf' : Forest c m') (hsame : SameRows seen w.bus.memory m')
    (hpoke : poke w.bus.memory.mainMemory pa (wordBytes u.toNat) = some m'.mainMemory) :
    Stored c m' q b v := by
  obtain ⟨rows, ht⟩ := hi.live p hp
  obtain ⟨rowsq, htq⟩ := hi.live q hq
  have hf := hi.mapped.forest
  obtain ⟨frame, present, hsees, hne, hpeek⟩ := hs
  refine ⟨frame, present, hsees.untouched hf hf' htq (untouched_sameRows hsame), hne, ?_⟩
  rw [peek_of_poke_disjoint hpoke, hpeek]
  rw [length_wordBytes]
  obtain ⟨frame', present', ⟨ref', r', hwalk', hr', hs'⟩, hne', rfl⟩ := hreach
  obtain ⟨ref, r, hwalk, hr, hs⟩ := hsees
  obtain rfl : r.frame = frame := congrArg Prod.fst hs
  obtain rfl : r'.frame = frame' := congrArg Prod.fst hs'
  by_cases hframe : r.frame = r'.frame
  · -- the same row: it is a word of the same page
    obtain rfl := hi.mapped.unique ref ref' r r' hr hr' hne hframe
    obtain rfl : q = p := by
      by_contra hqp
      have htables : q.pageTable ≠ p.pageTable := fun heq => hqp (hi.distinct q hq p hp (.inr heq))
      exact hf.disjoint _ _ _ _ htq ht htables (walk_mem hf htq hwalk).1 (walk_mem hf ht hwalk').1
    have hpage := walk_inj hf ht (getPageNumber_lt hb) (getPageNumber_lt ha) hwalk hwalk'
    have hbdiv := Nat.div_add_mod b c.tamPagina
    have hadiv := Nat.div_add_mod a c.tamPagina
    rw [getPageNumber, getPageNumber] at hpage
    rw [getOffset_eq, getOffset_eq, hframe]
    rw [hpage] at hbdiv
    have hdisjoint := hdisjoint rfl
    omega
  · rcases frames_apart (c := c) hframe with hlt | hlt <;> omega

/-- What a write puts there is stored. -/
lemma stored_of_write {p : Process} {a pa : ℕ} {u : UInt32} {rows : List PageTableLvl1}
    (hf : Forest c m) (hf' : Forest c m') (ht : m.table1 p.pageTable = some rows)
    (hreach : Reaches c m p a pa) (hsame : SameRows seen m m')
    (hpoke : poke m.mainMemory pa (wordBytes u.toNat) = some m'.mainMemory) :
    Stored c m' p a u := by
  obtain ⟨frame, present, hsees, hne, rfl⟩ := hreach
  exact ⟨frame, present, hsees.untouched hf hf' ht (untouched_sameRows hsame), hne,
    peek_of_poke hpoke⟩

/-! ### Every step -/

/-- What stays of the processes keeps the frames they rely on, and a new process has none. -/
lemma Backed.untouched (hb : Backed c w) (hi : Inv c t w) (hi' : Inv c t w')
    (hprocs : ∀ q ∈ w'.processes,
      (q ∈ w.processes ∧ Untouched q w.bus.memory w'.bus.memory) ∨
        ∀ page frame, ¬ Sees c w'.bus.memory q page (frame, true))
    (htlb : ∀ x ∈ pairs w'.bus.tlb, x.1 ≠ paginaVacia → x ∈ pairs w.bus.tlb) : Backed c w' := by
  refine ⟨fun q hq page frame hsees => ?_, fun x hx hne => hb.tlb x (htlb x hx hne) hne⟩
  rcases hprocs q hq with ⟨hmem, hu⟩ | hnew
  · obtain ⟨rows', ht'⟩ := hi'.live q hq
    exact hb.rows q hmem page frame
      (hsees.untouched hi'.mapped.forest hi.mapped.forest ht' hu.symm)
  · exact absurd hsees (hnew page frame)

lemma step_processes (hi : Inv c t w) {e : Event} (he : e.isAccess = false)
    (h : step c t w e = some w') :
    (∀ q ∈ w'.processes, q ∈ w.processes ∨
      ∀ page frame, ¬ Sees c w'.bus.memory q page (frame, true)) ∧
    ∀ q ∈ w.processes, ∀ a v, note w e s q.pid a = some v →
      s q.pid a = some v ∧ q ∈ w'.processes := by
  cases e with
  | memoryInit pid pcbSize os =>
    simp only [World.step] at h
    split at h
    · cases h
    simp only [Option.bind_eq_bind, Option.bind_eq_some_iff, Option.pure_def,
      Option.some.injEq] at h
    obtain ⟨⟨memory, id⟩, hinit, rfl⟩ := h
    refine ⟨fun q hq => ?_, fun q hq a v hv => ⟨hv, List.mem_cons_of_mem _ hq⟩⟩
    rcases List.mem_cons.mp hq with rfl | hq
    · exact .inr (not_sees_memoryInit (p := ⟨pid, id⟩) hi.mapped hinit)
    · exact .inl hq
  | swapPcb pid pcbStream os =>
    cases h
    exact ⟨fun q hq => .inl hq, fun q hq a v hv => ⟨hv, hq⟩⟩
  | processTerminated pid =>
    simp only [World.step, Option.bind_eq_bind, Option.bind_eq_some_iff] at h
    obtain ⟨p, hp, h⟩ := h
    split at h
    · simp at h
    simp only [Option.bind_eq_some_iff, Option.pure_def, Option.some.injEq] at h
    obtain ⟨memory, hend, rfl⟩ := h
    obtain ⟨-, hpid⟩ := pcbOf_eq_some hp
    refine ⟨fun q hq => .inl (List.mem_filter.mp hq).1, fun q hq a v hv => ?_⟩
    obtain ⟨hne, hv⟩ := forget_eq_some hv
    refine ⟨hv, List.mem_filter.mpr ⟨hq, ?_⟩⟩
    simp only [decide_eq_true_eq]
    rintro rfl
    exact hne hpid
  | dispatch pid =>
    simp only [World.step, Option.bind_eq_bind, Option.bind_eq_some_iff] at h
    obtain ⟨p, hp, h⟩ := h
    split at h
    · simp at h
    obtain rfl := Option.some.inj h
    exact ⟨fun q hq => .inl hq, fun q hq a v hv => ⟨hv, hq⟩⟩
  | returnPcb =>
    simp only [World.step, Option.bind_eq_bind, Option.bind_eq_some_iff, Option.pure_def,
      Option.some.injEq] at h
    obtain ⟨p, hp, rfl⟩ := h
    exact ⟨fun q hq => .inl hq, fun q hq a v hv => ⟨hv, hq⟩⟩
  | read | write => cases he

lemma note_of_live {e : Event} {pid : UInt32} {a : ℕ} {v : UInt32} (he : e.isAccess = false)
    (h : note w e s pid a = some v) : s pid a = some v := by
  cases e with
  | processTerminated pid' => exact (forget_eq_some h).2
  | memoryInit | swapPcb | dispatch | returnPcb => exact h
  | read | write => cases he

lemma Faithful.quiet (h : Faithful c t w s) {e : Event} (he : e.isAccess = false)
    (hin : Inside c w e) (hs : step c t w e = some w') : Faithful c t w' (note w e s) := by
  have hg' := h.good.step hin hs
  have hi := h.good.inv
  obtain ⟨hmain, hkept, htlb⟩ := step_quiet hi he hs
  obtain ⟨hprocs, hwords⟩ := step_processes (s := s) hi he hs
  refine ⟨hg', h.backed.untouched hi hg'.inv (fun q hq => ?_) fun x hx hne => ?_, ?_⟩
  · exact (hprocs q hq).imp_left fun hmem => ⟨hmem, hkept q hq hmem⟩
  · rcases htlb with ⟨-, htlb⟩ | hempty
    · rwa [htlb] at hx
    · exact absurd (hempty x hx) hne
  · intro pid a v hv ha
    obtain ⟨q, hq, rfl, hrange, hstored⟩ := h.stored pid a v (note_of_live he hv) ha
    obtain ⟨-, hq'⟩ := hwords q hq a v hv
    obtain ⟨rows, ht⟩ := hi.live q hq
    exact ⟨q, hq', rfl, hrange,
      hstored.untouched hi.mapped.forest hg'.inv.mapped.forest ht (hkept q hq' hq) hmain⟩

lemma Faithful.live (h : Faithful c t w s) {q : Process} (hq : q ∈ w.processes) :
    ∃ rows, w.bus.memory.table1 q.pageTable = some rows := h.good.inv.live q hq

lemma translates_of_inOrder (hpage : 4 ∣ c.tamPagina) {p : Process} (hp : w.executing = some p)
    {a : UInt32} {pa : ℕ} {os os' : Os} {b : Bus} (hcond : InOrder c w.bus p a.toNat)
    (hfree : FreeAtFault c w (.read a os os'))
    (hreq : reqPhysicalAddress c t w.bus p a.toNat os os' = some (b, pa)) :
    Translates c t w p a.toNat pa os os' b := by
  have hle := Nat.le_of_dvd c.tamPagina_pos hpage
  exact ⟨hp, getPageNumber_ne a.toNat_lt hle, hcond, hfree p hp, hreq⟩

/-- The state between the translation of an access and the access itself. -/
lemma Faithful.translated (h : Faithful c t w s) {p : Process} {a pa : ℕ} {os os' : Os} {b : Bus}
    (htr : Translates c t w p a pa os os' b) :
    Faithful c t { w with bus := b } s ∧ Reaches c b.memory p a pa := by
  obtain ⟨hb, hreach⟩ := h.backed.translate h.good htr
  have hp := htr.executing
  obtain ⟨hm, hh, hfresh, htables⟩ := reqPhysicalAddress_keeps h.good.inv.mapped h.good.inv.hands
    h.good.inv.fresh htr.eq
  obtain ⟨htranslated, -, -⟩ := h.good.translated hp htr.inOrder htr.eq
  refine ⟨⟨⟨h.good.inv.access hp hm hh hfresh htables, ?_, fun q hq => ?_⟩, hb, ?_⟩, hreach⟩
  · exact htranslated.mainMemory ▸ h.good.length
  · obtain rfl : p = q := by
      have hq : w.executing = some q := hq
      simpa [hp] using hq
    exact htranslated.framed
  · intro pid x v hv hx
    obtain ⟨q, hq, hpid, hrange, hstored⟩ := h.stored pid x v hv hx
    obtain ⟨rows, ht⟩ := h.live hq
    exact ⟨q, hq, hpid, hrange, hstored.translate h.good htr ht⟩

lemma Faithful.accessed (h : Faithful c t w s) {b : Bus} (hg' : Good c t { w with bus := b })
    (htlb : b.tlb = w.bus.tlb) (hsame : SameRows seen w.bus.memory b.memory)
    {s' : Words UInt32 UInt32}
    (hstored : ∀ pid a v, s' pid a = some v → a % 4 = 0 →
      ∃ p ∈ w.processes, p.pid = pid ∧ a < addressSpace c ∧ Stored c b.memory p a v) :
    Faithful c t { w with bus := b } s' := by
  refine ⟨hg', h.backed.untouched h.good.inv hg'.inv (fun q hq => ?_) (fun x hx _ => ?_), hstored⟩
  · exact .inl ⟨hq, untouched_sameRows hsame⟩
  · exact htlb ▸ hx

lemma Faithful.step (h : Faithful c t w s) (hpage : 4 ∣ c.tamPagina) {e : Event}
    (hfree : FreeAtFault c w e) (hcond : Kept c w s e) (hs : World.step c t w e = some w') :
    Faithful c t w' (note w e s) := by
  cases e with
  | memoryInit | swapPcb | processTerminated | dispatch | returnPcb =>
    exact h.quiet rfl trivial hs
  | read a os os' =>
    have hg' := h.good.step (e := .read a os os') hcond hs
    simp only [World.step, Option.bind_eq_bind, Option.bind_eq_some_iff, Option.pure_def,
      Option.some.injEq] at hs
    obtain ⟨p, hp, ⟨b', value⟩, hread, rfl⟩ := hs
    obtain ⟨b, pa, hreq, htlb, hread⟩ := executeRead_eq_some.mp hread
    obtain ⟨hw, -⟩ := h.translated (translates_of_inOrder hpage hp (hcond p hp) hfree hreq)
    have hsame := seen_of_unmodified (sameRows_cpuControllerRead hread)
    obtain ⟨l, hl⟩ := cpuControllerRead_fields hread
    have hmain : b'.memory.mainMemory = b.memory.mainMemory := by
      rw [show b'.memory = _ from hl]
    refine hw.accessed hg' htlb hsame fun pid x v hv hx => ?_
    obtain ⟨q, hq, hpid, hrange, hstored⟩ := hw.stored pid x v hv hx
    obtain ⟨rows, ht⟩ := hw.live hq
    exact ⟨q, hq, hpid, hrange, hstored.untouched hw.good.inv.mapped.forest hg'.inv.mapped.forest ht
      (untouched_sameRows hsame) hmain⟩
  | write a value os os' =>
    have hin : Inside c w (.write a value os os') := by
      simp only [World.step, Option.bind_eq_bind, Option.bind_eq_some_iff] at hs
      obtain ⟨p, hp, -⟩ := hs
      exact ⟨(hcond p hp).2.inside, fun q hq => (hcond q hq).1⟩
    have hg' := h.good.step hin hs
    simp only [World.step, Option.bind_eq_bind, Option.bind_eq_some_iff, Option.pure_def,
      Option.some.injEq] at hs
    obtain ⟨p, hp, b', hwrite, rfl⟩ := hs
    obtain ⟨b, pa, hreq, htlb, hwrite⟩ := executeWrite_eq_some.mp hwrite
    obtain ⟨hord, hwhole⟩ := hcond p hp
    obtain ⟨hw, hreach⟩ := h.translated (translates_of_inOrder hpage hp hord hfree hreq)
    have hsame := seen_of_unmodified (sameRows_cpuControllerWrite hwrite)
    have hpmem : p ∈ w.processes := h.good.inv.executing p hp
    obtain ⟨rows, ht⟩ := hw.live hpmem
    -- the four bytes at the physical address are written
    have hpoke : poke b.memory.mainMemory pa (wordBytes value.toNat) =
        some b'.memory.mainMemory := by
      obtain ⟨frame, present, ⟨ref, r, -, hr, hseen⟩, hne, rfl⟩ := hreach
      obtain rfl : r.frame = frame := congrArg Prod.fst hseen
      obtain ⟨m', hwrite', hpoke⟩ := cpuControllerWrite_mapped hw.good.inv.mapped hw.good.length hr
        hne hwhole.inside value.toNat
      obtain rfl : b'.memory = m' := by simpa [hwrite] using hwrite'
      exact hpoke
    refine hw.accessed hg' htlb hsame fun pid x v hv hx => ?_
    simp only [note, hp] at hv
    rcases write_eq_some hv with ⟨rfl, rfl, rfl⟩ | ⟨hold, hapart⟩
    · exact ⟨p, hpmem, rfl, hwhole.range, stored_of_write hw.good.inv.mapped.forest
        hg'.inv.mapped.forest ht hreach hsame hpoke⟩
    · obtain ⟨q, hq, rfl, hrange, hstored⟩ := hw.stored pid x v hold hx
      refine ⟨q, hq, rfl, hrange, hstored.written hw.good.inv hpmem hq hrange
        (getOffset_inside hpage hx) hwhole.range hwhole.inside (fun heq => ?_) hreach
        hg'.inv.mapped.forest hsame hpoke⟩
      subst heq
      have hne := hapart rfl
      exact hwhole.disjoint hx hold (by omega)

/-! ### Reads -/

/-- The page of a stored word does not fault, and its word is read. -/
lemma Faithful.readsLast (h : Faithful c t w s) (hpage : 4 ∣ c.tamPagina) {a : UInt32}
    (ha : a.toNat % 4 = 0) {os os' : Os} (hcond : Kept c w s (.read a os os')) :
    ReadsLast c t w s a os os' := by
  intro p hp v hv
  have hinside := getOffset_inside hpage ha
  have hne := getPageNumber_ne a.toNat_lt (Nat.le_of_dvd c.tamPagina_pos hpage)
  have hi := h.good.inv
  obtain ⟨q, hq, hpid, -, frame, present, ⟨ref, r, hwalk, hr, hseen⟩, hvalid, hpeek⟩ :=
    h.stored p.pid a.toNat v hv ha
  obtain rfl : q = p := hi.distinct q hq p (hi.executing p hp) (.inl hpid)
  obtain rfl : r.frame = frame := congrArg Prod.fst hseen
  have hpa := physicalAddress_eq hi.mapped hr hvalid a.toNat
  -- the translation changes the TLB at most
  obtain ⟨tlb, hreq⟩ : ∃ tlb, reqPhysicalAddress c t w.bus q a.toNat os os' =
      some (⟨w.bus.memory, tlb⟩, physicalAddress c r.frame a.toNat) := by
    cases hhit : (pageInTlb w.bus.tlb (getPageNumber a.toNat c.tamPagina)).2 with
    | some frame =>
      have hmem := pageInTlb_eq_some hhit
      obtain ⟨present', ref', r', hwalk', hr', hseen'⟩ :=
        h.good.framed q hp _ hmem hne (h.backed.tlb _ hmem hne)
      obtain rfl : ref = ref' := by simpa [hwalk] using hwalk'
      obtain rfl : r = r' := by simpa [hr] using hr'
      obtain rfl : r.frame = frame := congrArg Prod.fst hseen'
      exact ⟨_, reqPhysicalAddress_hit os os' hhit⟩
    | none =>
      have hpres : r.present = true := by
        by_contra habs
        exact hvalid ((hcond q hp hhit ref hwalk) r hr (by simpa using habs)).2.1
      obtain ⟨tlb, hrep, -⟩ := hi.fresh.replace hhit r.frame
      refine ⟨tlb, reqPhysicalAddress_miss hhit hrep (requestFrame_eq_some.mpr ⟨ref, hwalk, ?_⟩)⟩
      exact obtainFrame_present hr hpres (Nat.le_of_lt (walk_row_lt hwalk)) _ _ _
  obtain ⟨m', hread⟩ := cpuControllerRead_mapped hi.mapped hr hvalid hinside hpeek
  refine ⟨⟨m', tlb⟩, executeRead_eq_some.mpr ⟨_, _, hreq, rfl, ?_⟩⟩
  rw [hpa, hread, bytesWord_wordBytes, Nat.mod_eq_of_lt v.toNat_lt]

/-- **Main result.** In every run in which a frame is free at every fault and every event meets
the condition, what a process reads at a multiple of four is what it wrote there last. -/
theorem readsLast_of_kept (c : Cfg) (t : TlbCfg) (heap : ℕ → UInt8) (hpage : 4 ∣ c.tamPagina)
    (es : List Event) (w : Machine) (s : Words UInt32 UInt32) (a : UInt32) (os os' : Os)
    (hrun : run (stepW c t) (init c t heap, unwritten) es = some (w, s))
    (hfree : Meets (stepW c t) (fun x e => FreeAtFault c x.1 e) (init c t heap, unwritten) es)
    (hcond : Meets (stepW c t) (fun x e => Kept c x.1 x.2 e) (init c t heap, unwritten)
      (es ++ [.read a os os'])) (ha : a.toNat % 4 = 0) : ReadsLast c t w s a os os' := by
  have hw : Faithful c t w s := by
    refine (hfree.and hcond.append_left).inv (I := fun x => Faithful c t x.1 x.2)
      (fun x e x' hx hc hs => ?_) (faithful_init heap) hrun
    obtain ⟨hs, hn⟩ := watched_eq_some.mp hs
    exact hn ▸ hx.step hpage hc.1 hc.2 hs
  exact hw.readsLast hpage ha (hcond.append_right hrun).1

def inOrder : List Event :=
  [.memoryInit 1 64 goodOs, .memoryInit 2 64 goodOs, .dispatch 1, .write 0 9 goodOs goodOs,
    .write 8 7 goodOs goodOs, .returnPcb, .dispatch 2, .write 0 5 goodOs goodOs, .returnPcb,
    .dispatch 1, .write 0 3 goodOs goodOs]

/-- A process writes to its second page, and then to its first one. -/
def outOfOrder : List Event :=
  [.memoryInit 1 64 goodOs, .dispatch 1, .write 8 7 goodOs goodOs, .write 0 9 goodOs goodOs]

set_option maxRecDepth 40000 in
/-- The second page of the first process has the word that was written there. -/
theorem readsLast_of_kept_inOrder : ∃ w s b,
    run (stepW smallCfg smallTlb) (init smallCfg smallTlb fun _ => 0, unwritten) inOrder =
        some (w, s) ∧ w.executing = some ⟨1, 0⟩ ∧
      executeRead smallCfg smallTlb w.bus ⟨1, 0⟩ 8 goodOs goodOs = some (b, 7) := by
  have hlast := readsLast_of_kept smallCfg smallTlb (fun _ => 0) (by decide) inOrder _ _ 8 goodOs
    goodOs rfl (by decide +kernel) (by decide +kernel) (by decide)
  obtain ⟨b, hb⟩ := hlast ⟨1, 0⟩ (by decide +kernel) 7 (by decide +kernel)
  exact ⟨_, _, b, rfl, by decide +kernel, hb⟩

set_option maxRecDepth 40000 in
/-- Both pages are on the same frame: the word of the second one is overwritten. -/
theorem not_readsLast : ¬ ∀ (c : Cfg) (t : TlbCfg) (heap : ℕ → UInt8) (es : List Event)
    (w : Machine) (s : Words UInt32 UInt32) (a : UInt32) (os os' : Os), 4 ∣ c.tamPagina →
      0 < c.maxRows → run (stepW c t) (init c t heap, unwritten) es = some (w, s) →
      Meets (stepW c t) (fun x e => FreeAtFault c x.1 e) (init c t heap, unwritten)
        (es ++ [.read a os os']) →
      a.toNat % 4 = 0 → a.toNat < addressSpace c → ReadsLast c t w s a os os' := by
  intro hall
  have hfacts : ∃ w s, run (stepW smallCfg smallTlb) (init smallCfg smallTlb fun _ => 0, unwritten)
        outOfOrder = some (w, s) ∧ w.executing = some ⟨1, 0⟩ ∧ s 1 8 = some 7 ∧
      (executeRead smallCfg smallTlb w.bus ⟨1, 0⟩ 8 goodOs goodOs).map Prod.snd = some 9 :=
    ⟨_, _, rfl, by decide +kernel, by decide +kernel, by decide +kernel⟩
  obtain ⟨w, s, hrun, hp, hs, hread⟩ := hfacts
  obtain ⟨b, hb⟩ := hall smallCfg smallTlb (fun _ => 0) outOfOrder w s 8 goodOs goodOs (by decide)
    (by decide) hrun (by decide +kernel) (by decide) (by decide) ⟨1, 0⟩ hp 7 hs
  rw [show (8 : UInt32).toNat = 8 from rfl] at hb
  rw [hb] at hread
  cases hread

end Sski.System.Transparency
