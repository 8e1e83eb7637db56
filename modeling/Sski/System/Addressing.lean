import Sski.System.Transparency

/-!
How a logical address is split, on both sides of the connection.

The CPU computes a row of the level-1 table and a row of a level-2 table. The memory module takes
the second as it is, and takes the first for the last row if it is too large, so behind the
`n * n` pages of a process the rows of its last table come again.
-/

namespace Sski.System.Addressing

open Sski.Lib.Runs Sski.Cpu.Mmu Sski.Mem.MemoryModule Sski.Mem.PageTable Sski.Mem.CpuController
open Sski.Mem.KernelController Sski.Mem.Tables Sski.Mem.Frames Sski.System.World
open Sski.System.Transparency

/-- The row of the level-1 table that is used for the one that was asked for. -/
def t1Sub (maxRows op2 : ℕ) : ℕ := if op2 ≥ maxRows then (maxRows + 2 ^ 32 - 1) % 2 ^ 32 else op2

/-- The rows that are used for an address: one of the level-1 table, one of a level-2 table. -/
def usedEntries (pageSize n logicalAddress : ℕ) : ℕ × ℕ :=
  (t1Sub n (getEntryLvl1 (getPageNumber logicalAddress pageSize) n),
    getEntryLvl2 logicalAddress pageSize n)

variable {c : Cfg} {m : Memory} {pageSize n a b : ℕ}

lemma usedEntries_eq (h0 : 0 < n) (hn : n < 2 ^ 32) (a : ℕ) :
    usedEntries pageSize n a = (min (a / pageSize / n) (n - 1), a / pageSize % n) := by
  have hrow : t1Sub n (a / pageSize / n) = min (a / pageSize / n) (n - 1) := by
    unfold t1Sub
    split <;> omega
  simp only [usedEntries, getEntryLvl1, getEntryLvl2, getPageNumber, hrow]

/-- The pages that share their rows: their second rows are equal, and their first rows are, or
are both taken for the last one. -/
lemma usedEntries_eq_iff (h0 : 0 < n) (hn : n < 2 ^ 32) (hne : a / pageSize ≠ b / pageSize) :
    usedEntries pageSize n a = usedEntries pageSize n b ↔
      a / pageSize % n = b / pageSize % n ∧ n - 1 ≤ a / pageSize / n ∧
        n - 1 ≤ b / pageSize / n := by
  have ha := Nat.div_add_mod (a / pageSize) n
  have hb := Nat.div_add_mod (b / pageSize) n
  rw [usedEntries_eq h0 hn, usedEntries_eq h0 hn, Prod.mk.injEq]
  constructor
  · rintro ⟨hrow, hmod⟩
    -- the quotients differ, so neither minimum is a quotient of its own
    have hdiv : a / pageSize / n ≠ b / pageSize / n := by
      intro hdiv
      rw [hdiv, hmod, hb] at ha
      exact hne ha.symm
    exact ⟨hmod, by omega, by omega⟩
  · rintro ⟨hmod, hla, hlb⟩
    exact ⟨by omega, hmod⟩

lemma usedEntries_ne (h0 : 0 < n) (hn : n < 2 ^ 32) (hne : a / pageSize ≠ b / pageSize)
    (ha : a / pageSize < n * n) (hb : b / pageSize < n * n) :
    usedEntries pageSize n a ≠ usedEntries pageSize n b := by
  intro heq
  obtain ⟨hmod, hla, hlb⟩ := (usedEntries_eq_iff h0 hn hne).mp heq
  have hda := Nat.div_lt_of_lt_mul ha
  have hdb := Nat.div_lt_of_lt_mul hb
  have hdiv : a / pageSize / n = b / pageSize / n := by omega
  refine hne ?_
  rw [← Nat.div_add_mod (a / pageSize) n, ← Nat.div_add_mod (b / pageSize) n, hdiv, hmod]

lemma walk_usedEntries (hf : Forest c m) {p : Process} {rows : List PageTableLvl1}
    (ht : m.table1 p.pageTable = some rows) {ref : RowRef}
    (h : walk c m p (getPageNumber a c.tamPagina) = some ref) :
    rows[(usedEntries c.tamPagina c.maxRows a).1]?.map PageTableLvl1.secondPage = some ref.1 ∧
      ref.2 = (usedEntries c.tamPagina c.maxRows a).2 := by
  have hlt : c.maxRows < 2 ^ 31 := c.entradasPorTabla_lt
  rw [walk_eq hf ht] at h
  split at h
  · cases h
  rename_i hn
  obtain ⟨row, hrow, rfl⟩ := Option.map_eq_some_iff.mp h
  rw [usedEntries_eq (by omega) (by omega)]
  rw [getPageNumber] at hrow ⊢
  rw [hrow]
  exact ⟨rfl, rfl⟩

/-- Different rows of the level-1 table have different level-2 tables. -/
lemma walk_eq_walk_iff (hf : Forest c m) {p : Process} {rows : List PageTableLvl1}
    (ht : m.table1 p.pageTable = some rows) {ref ref' : RowRef}
    (h : walk c m p (getPageNumber a c.tamPagina) = some ref)
    (h' : walk c m p (getPageNumber b c.tamPagina) = some ref') :
    ref = ref' ↔
      usedEntries c.tamPagina c.maxRows a = usedEntries c.tamPagina c.maxRows b := by
  obtain ⟨h1, h2⟩ := walk_usedEntries hf ht h
  obtain ⟨h1', h2'⟩ := walk_usedEntries hf ht h'
  constructor
  · rintro rfl
    refine Prod.ext ?_ (h2.symm.trans h2')
    -- no level-2 table is referenced twice
    rw [← List.getElem?_map] at h1 h1'
    exact (List.getElem?_inj (List.getElem?_eq_some_iff.mp h1).1 (hf.nodup _ rows ht)).mp
      (h1.trans h1'.symm)
  · intro heq
    rw [heq] at h1 h2
    exact Prod.ext (Option.some.inj (h1.symm.trans h1')) (h2.trans h2'.symm)

/-- **Main result.** For every size of a page and every number of entries, two addresses on
different pages use different rows inside the address space; behind it the last row of the level-1
table is used. In every reachable state the rows are the ones of the walk. -/
theorem entries_apart (hps : 0 < pageSize) (h0 : 0 < n) (hn : n < 2 ^ 32) (a b : UInt32)
    (hne : getPageNumber a.toNat pageSize ≠ getPageNumber b.toNat pageSize) :
    (usedEntries pageSize n a.toNat).1 < n ∧ (usedEntries pageSize n a.toNat).2 < n ∧
    (a.toNat < n * n * pageSize → b.toNat < n * n * pageSize →
      usedEntries pageSize n a.toNat ≠ usedEntries pageSize n b.toNat) ∧
    (n * n * pageSize ≤ a.toNat →
      usedEntries pageSize n a.toNat = (n - 1, getPageNumber a.toNat pageSize % n)) ∧
    ∀ c : Cfg, c.tamPagina = pageSize → c.maxRows = n → ∀ heap m,
      Reachable (step c) (onInitMemory c heap) m →
      ∀ (p : Process) rows, m.table1 p.pageTable = some rows →
      (∀ ref, walk c m p (getPageNumber a.toNat pageSize) = some ref →
        rows[(usedEntries pageSize n a.toNat).1]?.map PageTableLvl1.secondPage = some ref.1 ∧
          ref.2 = (usedEntries pageSize n a.toNat).2) ∧
      ∀ ref ref', walk c m p (getPageNumber a.toNat pageSize) = some ref →
        walk c m p (getPageNumber b.toNat pageSize) = some ref' →
        (ref = ref' ↔ usedEntries pageSize n a.toNat = usedEntries pageSize n b.toNat) := by
  refine ⟨?_, ?_, fun ha hb => ?_, fun ha => ?_, ?_⟩
  · rw [usedEntries_eq h0 hn]
    simp only
    omega
  · rw [usedEntries_eq h0 hn]
    exact Nat.mod_lt _ h0
  · exact usedEntries_ne h0 hn hne (Nat.div_lt_of_lt_mul (by rwa [Nat.mul_comm]))
      (Nat.div_lt_of_lt_mul (by rwa [Nat.mul_comm]))
  · have hpage : n * n ≤ a.toNat / pageSize := (Nat.le_div_iff_mul_le hps).mpr ha
    have hrow : n ≤ a.toNat / pageSize / n := (Nat.le_div_iff_mul_le h0).mpr hpage
    rw [usedEntries_eq h0 hn, Nat.min_eq_right (by omega)]
    rfl
  · rintro c rfl rfl heap m hreach p rows ht
    have hf := (mapped_of_reachable hreach).forest
    exact ⟨fun ref h => walk_usedEntries hf ht h, fun ref ref' h h' => walk_eq_walk_iff hf ht h h'⟩

theorem entries_apart_small :
    usedEntries 8 2 (0 : UInt32).toNat ≠ usedEntries 8 2 (8 : UInt32).toNat :=
  (entries_apart (by decide : 0 < 8) (by decide : 0 < 2) (by decide) 0 8 (by decide)).2.2.1
    (by decide) (by decide)

set_option maxRecDepth 40000 in
/-- With two entries per table, page 4 is taken for page 2: the request for row 2 of the level-1
table is not refused. -/
theorem page_alias : ∃ m, run (step smallCfg) (onInitMemory smallCfg fun _ => 0)
      [.memoryInit 1 64 goodOs] = some m ∧
    walk smallCfg m ⟨1, 0⟩ (getPageNumber 32 8) = some (1, 0) ∧
    walk smallCfg m ⟨1, 0⟩ (getPageNumber 16 8) = some (1, 0) ∧
    usedEntries 8 2 32 = usedEntries 8 2 16 ∧
    cpuControllerSendPageSecondLevel smallCfg m 0 (getEntryLvl1 (getPageNumber 32 8) 2) ≠
      some uint32Max :=
  ⟨_, rfl, by decide +kernel, by decide +kernel, by decide +kernel, by decide +kernel⟩

end Sski.System.Addressing
