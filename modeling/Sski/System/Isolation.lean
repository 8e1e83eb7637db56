import Sski.System.World

/-!
What one process can do to the pages of another.

The memory module checks the frame of the first byte of a word, and copies four. So a write
stays inside its page if the word does, and if the TLB has the frame of that page.
-/

namespace Sski.System.Isolation

open Sski.Lib.Runs Sski.Lib.Block Sski.Cpu.Tlb Sski.Cpu.Mmu Sski.Mem.MemoryModule
open Sski.Mem.OsMemory Sski.Mem.CpuController Sski.Mem.KernelController Sski.Mem.Tables
open Sski.Mem.Rows Sski.Mem.Frames Sski.Mem.SwapFile Sski.Mem.Faults Sski.System.World

variable {c : Cfg} {t : TlbCfg} {m m' m'' : Memory} {w w' : Machine}

/-! ### The frames of the TLB -/

/-- Every valid frame in the TLB is the one of the row that the walk of its page reaches. -/
def Framed (c : Cfg) (b : Bus) (p : Process) : Prop :=
  ∀ x ∈ pairs b.tlb, x.1 ≠ paginaVacia → x.2 ≠ invalidFrame →
    ∃ present, Sees c b.memory p x.1 (x.2, present)

/-- The condition on an access to an address: a page fault is the first access to its page, and
no earlier row of the table is without a frame. -/
def InOrder (c : Cfg) (b : Bus) (p : Process) (a : ℕ) : Prop :=
  (pageInTlb b.tlb (getPageNumber a c.tamPagina)).2 = none →
    ∀ ref, walk c b.memory p (getPageNumber a c.tamPagina) = some ref → FirstAccess b.memory ref

instance (b : Bus) (p : Process) (a : ℕ) : Decidable (InOrder c b p a) :=
  decidable_of_iff ((pageInTlb b.tlb (getPageNumber a c.tamPagina)).2 = none →
    ∀ ref ∈ walk c b.memory p (getPageNumber a c.tamPagina), FirstAccess b.memory ref) Iff.rfl

/-- What a translation in order leaves behind: the frame of the page, unless none was free. -/
structure Translated (c : Cfg) (b b' : Bus) (p : Process) (a pa : ℕ) : Prop where
  framed : Framed c b' p
  address : getPageNumber a c.tamPagina ≠ paginaVacia → ∃ frame, pa = physicalAddress c frame a ∧
    (frame ≠ invalidFrame → ∃ present,
      Sees c b'.memory p (getPageNumber a c.tamPagina) (frame, present))
  mainMemory : b'.memory.mainMemory = b.memory.mainMemory
  files : ∀ pid ≠ p.pid.toNat, b'.memory.files pid = b.memory.files pid
  frames : ∀ q r, b.memory.rowAt q = some r → r.frame ≠ invalidFrame →
    ∃ r', b'.memory.rowAt q = some r' ∧ r'.frame = r.frame

lemma Framed.translate {b b' : Bus} {p : Process} {a pa : ℕ} {os os' : Os}
    {rows : List PageTableLvl1} (hf : Forest c b.memory) (hf' : Forest c b'.memory)
    (ht : b.memory.table1 p.pageTable = some rows) (hb : Framed c b p) (hcond : InOrder c b p a)
    (h : reqPhysicalAddress c t b p a os os' = some (b', pa)) : Translated c b b' p a pa := by
  rcases reqPhysicalAddress_cases h with
    ⟨frame, hhit, rfl, rfl⟩ | ⟨hmiss, ref, frame, hwalk, hobt, hrep, rfl⟩
  · refine ⟨fun x hx => ?_, fun hne => ⟨frame, rfl, fun hvalid => ?_⟩, rfl, fun _ _ => rfl,
      fun q r hr _ => ⟨r, hr, rfl⟩⟩
    · rw [pairs_pageInTlb] at hx
      exact hb x hx
    · exact hb _ (pageInTlb_eq_some hhit) hne hvalid
  have hobtained := obtained_of_firstAccess (Nat.le_of_lt (walk_row_lt hwalk))
    (hcond hmiss ref hwalk) hobt
  have htable : b'.memory.table1 p.pageTable = b.memory.table1 p.pageTable := by
    rw [Memory.table1, Memory.table1, hobtained.tables1]
  have hwalk' := walk_congr hf hf' htable ht
  have hframes : ∀ q r, b.memory.rowAt q = some r → r.frame ≠ invalidFrame →
      ∃ r', b'.memory.rowAt q = some r' ∧ r'.frame = r.frame := by
    intro q r hr hne
    rcases hobtained.keeps q r hr with ⟨-, hinv, -⟩ | ⟨r', hr', hframe, -⟩
    · exact absurd hinv hne
    · exact ⟨r', hr', hframe⟩
  have hnew : ∃ present, Sees c b'.memory p (getPageNumber a c.tamPagina) (frame, present) := by
    obtain ⟨r, hr, hframe, -⟩ := hobtained.row
    exact ⟨r.present, ref, r, (hwalk' _).trans hwalk, hr, by rw [seen, hframe]⟩
  obtain ⟨i, -, -, hpairs⟩ := replace_eq_some t hrep
  rw [pairs_pageInTlb] at hpairs
  refine ⟨fun x hx hne hvalid => ?_, fun _ => ⟨frame, rfl, fun _ => hnew⟩, hobtained.mainMemory,
    hobtained.files, hframes⟩
  rw [hpairs] at hx
  rcases List.mem_or_eq_of_mem_set hx with hx | rfl
  · obtain ⟨present, refx, r, hwx, hr, hs⟩ := hb x hx hne hvalid
    have hframe : r.frame = x.2 := congrArg Prod.fst hs
    obtain ⟨r', hr', hframe'⟩ := hframes refx r hr (hframe ▸ hvalid)
    exact ⟨r'.present, refx, r', (hwalk' _).trans hwx, hr', by rw [seen, hframe', hframe]⟩
  · exact hnew

/-! ### Writes inside a page -/

/-- The condition on an event: an access is in order, and a write stays inside its page. -/
def Inside (c : Cfg) (w : Machine) : Event → Prop
  | .read a _ _ => ∀ p, w.executing = some p → InOrder c w.bus p a.toNat
  | .write a _ _ _ => getOffset a.toNat c.tamPagina + 4 ≤ c.tamPagina ∧
      ∀ p, w.executing = some p → InOrder c w.bus p a.toNat
  | _ => True

instance (w : Machine) (e : Event) : Decidable (Inside c w e) :=
  have hacc (a : UInt32) := decidable_of_iff (∀ p ∈ w.executing, InOrder c w.bus p a.toNat) Iff.rfl
  match e with
  | .read a _ _ => hacc a
  | .write a _ _ _ =>
    have := hacc a
    inferInstanceAs (Decidable (_ ∧ _))
  | .memoryInit .. | .swapPcb .. | .processTerminated _ | .dispatch _ | .returnPcb =>
    .isTrue trivial

/-- A write reaches nothing, or four bytes inside the frame of the page and inside main
memory. -/
def Confined (c : Cfg) (m : Memory) (p : Process) (a pa value : ℕ) : Prop :=
  cpuControllerWrite c m pa value = some m ∨
    ∃ m' ref r, cpuControllerWrite c m pa value = some m' ∧
      poke m.mainMemory pa (wordBytes value) = some m'.mainMemory ∧
      walk c m p (getPageNumber a c.tamPagina) = some ref ∧ m.rowAt ref = some r ∧
      r.frame ≠ invalidFrame ∧ r.frame * c.tamPagina ≤ pa ∧
      pa + 4 ≤ r.frame * c.tamPagina + c.tamPagina ∧
      r.frame * c.tamPagina + c.tamPagina ≤ m.mainMemory.length

lemma getPageNumber_ne {a : ℕ} (ha : a < 2 ^ 32) (hps : 4 ≤ c.tamPagina) :
    getPageNumber a c.tamPagina ≠ paginaVacia := by
  have hle : a / c.tamPagina ≤ a / 4 := Nat.div_le_div_left hps (by omega)
  unfold getPageNumber paginaVacia
  omega

lemma Translated.confined {b b' : Bus} {p : Process} {a pa : ℕ} (ht : Translated c b b' p a pa)
    (hm : Mapped c b'.memory) (hmain : b'.memory.mainMemory.length = c.tamMemoria)
    (ha : a < 2 ^ 32) (hin : getOffset a c.tamPagina + 4 ≤ c.tamPagina) (value : ℕ) :
    Confined c b'.memory p a pa value := by
  obtain ⟨frame, rfl, hvalid⟩ := ht.address (getPageNumber_ne ha (by omega))
  by_cases hframe : frame = invalidFrame
  · subst hframe
    obtain ⟨hbeyond, hne⟩ := getFrame_invalidFrame hin
    exact .inl (cpuControllerWrite_beyond hm hbeyond hne)
  · obtain ⟨present, ref, r, hwalk, hr, hs⟩ := hvalid hframe
    obtain rfl : r.frame = frame := congrArg Prod.fst hs
    have hfit := frame_inside (hm.framesKnown.known ref r hr hframe)
    have hlt := c.tamMemoria_lt
    have hpa : physicalAddress c r.frame a =
        r.frame * c.tamPagina + getOffset a c.tamPagina := Nat.mod_eq_of_lt (by omega)
    obtain ⟨m', hwrite, hpoke⟩ := cpuControllerWrite_mapped hm hmain hr hframe hin value
    rw [hpa]
    exact .inr ⟨m', ref, r, hwrite, hpoke, hwalk, hr, hframe, by omega, by omega, by omega⟩

/-! ### The pages of another process -/

/-- The pages of a process keep their frames and their bytes, and its swap file stays. -/
structure LeavesAlone (c : Cfg) (q : Process) (m m' : Memory) : Prop where
  table1 : m'.table1 q.pageTable = m.table1 q.pageTable
  pages : ∀ rows, m.table1 q.pageTable = some rows → ∀ ref r, ref.1 ∈ secondPages rows →
    m.rowAt ref = some r → r.frame ≠ invalidFrame →
      (∃ r', m'.rowAt ref = some r' ∧ r'.frame = r.frame) ∧
      pageOf c m' r.frame = pageOf c m r.frame
  file : m'.files q.pid.toNat = m.files q.pid.toNat

lemma LeavesAlone.refl (q : Process) (m : Memory) : LeavesAlone c q m m :=
  ⟨rfl, fun _ _ _ r _ hr _ => ⟨⟨r, hr, rfl⟩, rfl⟩, rfl⟩

lemma LeavesAlone.trans {q : Process} (h : LeavesAlone c q m m') (h' : LeavesAlone c q m' m'') :
    LeavesAlone c q m m'' := by
  refine ⟨h'.table1.trans h.table1, fun rows ht ref r hmem hr hne => ?_, h'.file.trans h.file⟩
  obtain ⟨⟨r', hr', hframe⟩, hpage⟩ := h.pages rows ht ref r hmem hr hne
  obtain ⟨⟨r'', hr'', hframe'⟩, hpage'⟩ := h'.pages rows (h.table1.trans ht) ref r' hmem hr'
    (hframe ▸ hne)
  rw [hframe] at hframe' hpage'
  exact ⟨⟨r'', hr'', hframe'⟩, hpage'.trans hpage⟩

lemma frames_apart {f g : ℕ} (h : f ≠ g) : f * c.tamPagina + c.tamPagina ≤ g * c.tamPagina ∨
    g * c.tamPagina + c.tamPagina ≤ f * c.tamPagina := by
  rcases Nat.lt_or_gt_of_ne h with hlt | hgt
  · have hmul := Nat.mul_le_mul_right c.tamPagina hlt
    rw [Nat.succ_mul] at hmul
    exact .inl hmul
  · have hmul := Nat.mul_le_mul_right c.tamPagina hgt
    rw [Nat.succ_mul] at hmul
    exact .inr hmul

/-- Four bytes inside one frame are outside every other. -/
lemma pageOf_of_poke {f g pa value : ℕ} (hf : f * c.tamPagina ≤ pa)
    (hf' : pa + 4 ≤ f * c.tamPagina + c.tamPagina) (hg : g < c.noOfFrames) (hne : g ≠ f)
    (h : poke m.mainMemory pa (wordBytes value) = some m'.mainMemory) :
    pageOf c m' g = pageOf c m g := by
  have hdisjoint : g * c.tamPagina + c.tamPagina ≤ pa ∨ pa + 4 ≤ g * c.tamPagina := by
    rcases frames_apart (c := c) hne with hlt | hlt <;> omega
  rw [pageOf, pageOf, getFrameAddress_eq hg, peek_of_poke_disjoint h hdisjoint]

structure Good (c : Cfg) (t : TlbCfg) (w : Machine) : Prop where
  inv : Inv c t w
  length : w.bus.memory.mainMemory.length = c.tamMemoria
  framed : ∀ p, w.executing = some p → Framed c w.bus p

lemma good_init (heap : ℕ → UInt8) : Good c t (init c t heap) :=
  ⟨inv_init heap, by simp [init, onInitMemory], fun p hp => by cases hp⟩

lemma Framed.untouched {b b' : Bus} {p : Process} (hb : Framed c b p) (hf : Forest c b.memory)
    (hf' : Forest c b'.memory) {rows : List PageTableLvl1}
    (ht : b.memory.table1 p.pageTable = some rows) (hu : Untouched p b.memory b'.memory)
    (htlb : b'.tlb = b.tlb) : Framed c b' p := by
  intro x hx hne hvalid
  rw [htlb] at hx
  obtain ⟨present, hsees⟩ := hb x hx hne hvalid
  exact ⟨present, hsees.untouched hf hf' ht hu⟩

lemma Good.translated (hg : Good c t w) {p : Process} (hp : w.executing = some p) {a pa : ℕ}
    {os os' : Os} {b : Bus} (hcond : InOrder c w.bus p a)
    (h : reqPhysicalAddress c t w.bus p a os os' = some (b, pa)) :
    Translated c w.bus b p a pa ∧ Mapped c b.memory ∧
      b.memory.tablesLvl1 = w.bus.memory.tablesLvl1 := by
  obtain ⟨rows, ht⟩ := hg.inv.live p (hg.inv.executing p hp)
  obtain ⟨hm, -, -, htables⟩ := reqPhysicalAddress_keeps hg.inv.mapped hg.inv.hands hg.inv.fresh h
  exact ⟨(hg.framed p hp).translate hg.inv.mapped.forest hm.forest ht hcond h, hm, htables⟩

/-- The memory module's part of an access: a read changes no byte, a write is confined. -/
lemma step_bytes {e : Event} (hg : Good c t w) (he : e.isAccess = true) (hcond : Inside c w e)
    (h : step c t w e = some w') :
    ∃ p a b pa, w.executing = some p ∧ Translated c w.bus b p a pa ∧ Mapped c b.memory ∧
      b.memory.tablesLvl1 = w.bus.memory.tablesLvl1 ∧ w'.executing = some p ∧
      w'.processes = w.processes ∧ w'.bus.tlb = b.tlb ∧
      SameRows seen b.memory w'.bus.memory ∧ w'.bus.memory.files = b.memory.files ∧
      (w'.bus.memory.mainMemory = b.memory.mainMemory ∨ ∃ ref r value, b.memory.rowAt ref = some r ∧
        walk c b.memory p (getPageNumber a c.tamPagina) = some ref ∧ r.frame ≠ invalidFrame ∧
        r.frame * c.tamPagina ≤ pa ∧ pa + 4 ≤ r.frame * c.tamPagina + c.tamPagina ∧
        poke b.memory.mainMemory pa (wordBytes value) = some w'.bus.memory.mainMemory) := by
  cases e with
  | read a os os' =>
    simp only [World.step, Option.bind_eq_bind, Option.bind_eq_some_iff, Option.pure_def,
      Option.some.injEq] at h
    obtain ⟨p, hp, ⟨b', value⟩, hread, rfl⟩ := h
    obtain ⟨b, pa, hreq, htlb, hread⟩ := executeRead_eq_some.mp hread
    obtain ⟨htr, hm, htables⟩ := hg.translated hp (hcond p hp) hreq
    obtain ⟨l, hl⟩ := cpuControllerRead_fields hread
    have hl' : b'.memory = { b.memory with tablesLvl2 := l } := hl
    exact ⟨p, a.toNat, b, pa, hp, htr, hm, htables, hp, rfl, htlb,
      seen_of_unmodified (sameRows_cpuControllerRead hread), by simp [hl'], .inl (by simp [hl'])⟩
  | write a value os os' =>
    simp only [World.step, Option.bind_eq_bind, Option.bind_eq_some_iff, Option.pure_def,
      Option.some.injEq] at h
    obtain ⟨p, hp, b', hwrite, rfl⟩ := h
    obtain ⟨b, pa, hreq, htlb, hwrite⟩ := executeWrite_eq_some.mp hwrite
    obtain ⟨htr, hm, htables⟩ := hg.translated hp (hcond.2 p hp) hreq
    obtain ⟨mainMemory, l, hl⟩ := cpuControllerWrite_fields hwrite
    have hfiles : b'.memory.files = b.memory.files := by rw [hl]
    refine ⟨p, a.toNat, b, pa, hp, htr, hm, htables, hp, rfl, htlb,
      seen_of_unmodified (sameRows_cpuControllerWrite hwrite), hfiles, ?_⟩
    rcases htr.confined hm (by rw [htr.mainMemory, hg.length]) a.toNat_lt hcond.1 value.toNat with
      hsame | ⟨m', ref, r, hwrite', hpoke, hwalk, hr, hne, hlow, hhigh, -⟩
    · rw [hwrite, Option.some.injEq] at hsame
      exact .inl (by rw [hsame])
    · obtain rfl : b'.memory = m' := by simpa [hwrite] using hwrite'
      exact .inr ⟨ref, r, value.toNat, hr, hwalk, hne, hlow, hhigh, hpoke⟩
  | memoryInit | swapPcb | processTerminated | dispatch | returnPcb => cases he

theorem Good.step (hg : Good c t w) {e : Event} (hcond : Inside c w e)
    (h : step c t w e = some w') : Good c t w' := by
  have hi' := hg.inv.step h
  cases he : e.isAccess with
  | true =>
    obtain ⟨p, a, b, pa, hp, htr, hm, htables, hp', -, htlb, hsame, -, hbytes⟩ :=
      step_bytes hg he hcond h
    refine ⟨hi', ?_, fun q hq => ?_⟩
    · rcases hbytes with hmain | ⟨ref, r, value, -, -, -, -, -, hpoke⟩
      · rw [hmain, htr.mainMemory, hg.length]
      · rw [length_of_poke hpoke, htr.mainMemory, hg.length]
    · obtain rfl : p = q := by simpa [hp'] using hq
      obtain ⟨rows, ht⟩ := hg.inv.live p (hg.inv.executing p hp)
      have ht' : b.memory.table1 p.pageTable = some rows := by
        rw [← ht, Memory.table1, Memory.table1, htables]
      exact htr.framed.untouched hm.forest hi'.mapped.forest ht' (untouched_sameRows hsame) htlb
  | false =>
    obtain ⟨hmain, hkept, hcases⟩ := step_quiet hg.inv he h
    refine ⟨hi', by rw [hmain, hg.length], fun q hq => ?_⟩
    rcases hcases with ⟨hexec, htlb⟩ | hempty
    · have hmem' := hi'.executing q hq
      rw [hexec] at hq
      have hmem := hg.inv.executing q hq
      obtain ⟨rows, ht⟩ := hg.inv.live q hmem
      exact (hg.framed q hq).untouched hg.inv.mapped.forest hi'.mapped.forest ht
        (hkept q hmem' hmem) htlb
    · exact fun x hx hne => absurd (hempty x hx) hne

/-- An access of one process leaves every other alone. -/
lemma Good.leavesAlone (hg : Good c t w) {e : Event} (he : e.isAccess = true)
    (hcond : Inside c w e) (h : World.step c t w e = some w') {p q : Process}
    (hp : w.executing = some p) (hq : q ∈ w.processes) (hne : q ≠ p) :
    LeavesAlone c q w.bus.memory w'.bus.memory ∧ w'.executing = some p ∧
      w'.processes = w.processes := by
  obtain ⟨p', a, b, pa, hp', htr, hm, htables, hexec, hprocs, -, hsame, hfiles, hbytes⟩ :=
    step_bytes hg he hcond h
  obtain rfl : p = p' := by simpa [hp] using hp'
  have hpmem := hg.inv.executing p hp
  have hpid : q.pid.toNat ≠ p.pid.toNat := fun heq =>
    hne (hg.inv.distinct q hq p hpmem (.inl (UInt32.toNat_inj.mp heq)))
  refine ⟨⟨?_, fun rows ht ref r hmem hr hvalid => ?_, ?_⟩, hexec, hprocs⟩
  · rw [Memory.table1, hsame.tables1, htables, Memory.table1]
  · obtain ⟨r₁, hr₁, hframe₁⟩ := htr.frames ref r hr hvalid
    obtain ⟨r₂, hr₂, hs₂⟩ := hsame.rowAt_some hr₁
    have hframe₂ : r₂.frame = r₁.frame := congrArg Prod.fst hs₂
    refine ⟨⟨r₂, hr₂, hframe₂.trans hframe₁⟩, ?_⟩
    have hpage : pageOf c b.memory r.frame = pageOf c w.bus.memory r.frame := by
      rw [pageOf, pageOf, htr.mainMemory]
    rw [← hpage]
    rcases hbytes with hmain | ⟨refp, rp, value, hrp, hwalk, hvalidp, hlow, hhigh, hpoke⟩
    · rw [pageOf, pageOf, hmain]
    · -- the frame that is written is held by a row of the other process
      refine pageOf_of_poke hlow hhigh (hg.inv.mapped.framesKnown.known ref r hr hvalid) ?_ hpoke
      intro heq
      have hrefs := hm.unique ref refp r₁ rp hr₁ hrp (hframe₁ ▸ hvalid) (hframe₁.trans heq)
      obtain ⟨rowsp, htp⟩ := hg.inv.live p hpmem
      have htp' : b.memory.table1 p.pageTable = some rowsp := by
        rw [← htp, Memory.table1, Memory.table1, htables]
      have hmemp := (walk_mem hm.forest htp' hwalk).1
      rw [← hrefs] at hmemp
      have htables' : q.pageTable ≠ p.pageTable := fun heq =>
        hne (hg.inv.distinct q hq p hpmem (.inr heq))
      exact hg.inv.mapped.forest.disjoint _ _ _ _ ht htp htables' hmem hmemp
  · rw [hfiles, htr.files _ hpid]

/-- **Isolation.** From every state that events inside the condition lead to, any accesses of
the process on the CPU inside it leave every other process alone; and each of its writes
reaches nothing, or four bytes of main memory inside the frame of the page it addresses. -/
theorem isolated_of_inside (c : Cfg) (t : TlbCfg) (heap : ℕ → UInt8) (es : List Event)
    (w : Machine) (hmeets : Meets (step c t) (Inside c) (init c t heap) es)
    (hrun : run (step c t) (init c t heap) es = some w) (p q : Process)
    (hp : w.executing = some p) (hq : q ∈ w.processes) (hne : q ≠ p) (accesses : List Event)
    (hacc : ∀ e ∈ accesses, e.isAccess = true) (w' : Machine)
    (hmeets' : Meets (step c t) (Inside c) w accesses)
    (hrun' : run (step c t) w accesses = some w') :
    LeavesAlone c q w.bus.memory w'.bus.memory ∧
    ∀ a value os os' b pa, Inside c w' (.write a value os os') →
      reqPhysicalAddress c t w'.bus p a.toNat os os' = some (b, pa) →
      b.memory.mainMemory = w'.bus.memory.mainMemory ∧
      Confined c b.memory p a.toNat pa value.toNat := by
  have hg : Good c t w := Meets.inv (fun _ _ _ hg hcond h => hg.step hcond h) (good_init heap)
    hmeets hrun
  clear hmeets hrun
  induction accesses generalizing w with
  | nil =>
    obtain rfl : w = w' := by simpa using hrun'
    refine ⟨.refl q _, fun a value os os' b pa hcond hreq => ?_⟩
    obtain ⟨htr, hm, -⟩ := hg.translated hp (hcond.2 p hp) hreq
    exact ⟨htr.mainMemory, htr.confined hm (by rw [htr.mainMemory, hg.length]) a.toNat_lt hcond.1 _⟩
  | cons e accesses ih =>
    rw [run_cons, Option.bind_eq_some_iff] at hrun'
    obtain ⟨w₁, h₁, hrun'⟩ := hrun'
    obtain ⟨halone, hp₁, hprocs⟩ :=
      hg.leavesAlone (hacc e List.mem_cons_self) hmeets'.1 h₁ hp hq hne
    obtain ⟨halone', hwrites⟩ := ih w₁ hp₁ (hprocs ▸ hq)
      (fun e he => hacc e (List.mem_cons_of_mem _ he)) (hmeets'.2 w₁ h₁) hrun'
      (hg.step hmeets'.1 h₁)
    exact ⟨halone.trans halone', hwrites⟩

/-- Two processes with a page each, on the frames 0 and 1; the first one is on the CPU. -/
def neighbours : List Event :=
  [.memoryInit 1 64 goodOs, .memoryInit 2 64 goodOs, .dispatch 1, .write 0 9 goodOs goodOs,
    .returnPcb, .dispatch 2, .write 0 7 goodOs goodOs, .returnPcb, .dispatch 1]

def lastWord : List Event := [.write 4 5 goodOs goodOs]

/-- A write to the last two bytes of a page and two more. -/
def crossing : List Event := [.write 6 0xffffffff goodOs goodOs]

set_option maxRecDepth 40000 in
theorem isolated_of_inside_lastWord :
    ∃ w w', run (step smallCfg smallTlb) (init smallCfg smallTlb fun _ => 0) neighbours = some w ∧
      run (step smallCfg smallTlb) w lastWord = some w' ∧
      LeavesAlone smallCfg ⟨2, 1⟩ w.bus.memory w'.bus.memory := by
  refine ⟨_, _, rfl, rfl, ?_⟩
  exact (isolated_of_inside smallCfg smallTlb (fun _ => 0) neighbours _ (by decide +kernel) rfl
    ⟨1, 0⟩ ⟨2, 1⟩ rfl (by decide +kernel) (by decide) lastWord (by decide) _ (by decide +kernel)
    rfl).1

set_option maxRecDepth 40000 in
/-- The word crosses into the next frame, which is the other process's. -/
theorem not_leavesAlone_crossing :
    ∃ w w', run (step smallCfg smallTlb) (init smallCfg smallTlb fun _ => 0) neighbours = some w ∧
      run (step smallCfg smallTlb) w crossing = some w' ∧
      pageOf smallCfg w.bus.memory 1 = [7, 0, 0, 0, 0, 0, 0, 0] ∧
      pageOf smallCfg w'.bus.memory 1 = [255, 255, 0, 0, 0, 0, 0, 0] ∧
      ¬ LeavesAlone smallCfg ⟨2, 1⟩ w.bus.memory w'.bus.memory := by
  have hfacts : ∃ w w', run (step smallCfg smallTlb) (init smallCfg smallTlb fun _ => 0)
      neighbours = some w ∧ run (step smallCfg smallTlb) w crossing = some w' ∧
      pageOf smallCfg w.bus.memory 1 = [7, 0, 0, 0, 0, 0, 0, 0] ∧
      pageOf smallCfg w'.bus.memory 1 = [255, 255, 0, 0, 0, 0, 0, 0] ∧
      w.bus.memory.table1 1 = some [⟨2⟩, ⟨3⟩] ∧
      w.bus.memory.rowAt (2, 0) = some ⟨1, true, true, true⟩ :=
    ⟨_, _, rfl, rfl, by decide +kernel, by decide +kernel, by decide +kernel, by decide +kernel⟩
  obtain ⟨w, w', hrun, hrun', hbefore, hafter, ht, hr⟩ := hfacts
  refine ⟨w, w', hrun, hrun', hbefore, hafter, fun h => ?_⟩
  have hpage := (h.pages _ ht (2, 0) _ (by decide) hr (by decide)).2
  rw [hbefore, hafter] at hpage
  exact absurd hpage (by decide)

end Sski.System.Isolation
