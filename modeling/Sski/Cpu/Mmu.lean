import Sski.Cpu.Tlb
import Sski.Mem.CpuController

/-!
The MMU: from a logical to a physical address, through the TLB or a walk of the two levels of
page tables, and the reads and writes of words on top of it.

The numbers are `uint32_t`; only the last sum can overflow.
-/

namespace Sski.Cpu.Mmu

open Sski.Cpu.Tlb Sski.Mem.MemoryModule Sski.Mem.CpuController

/-- What the memory module is told about the process that executes. -/
structure Process where
  pid : UInt32
  pageTable : ℕ
  deriving DecidableEq, Repr

/-- The memory module and the TLB, which the CPU works on. -/
structure Bus where
  memory : Memory
  tlb : Tlb.State

variable (c : Cfg) (t : TlbCfg)

def getPageNumber (logicAddress pageSize : ℕ) : ℕ := logicAddress / pageSize

def getOffset (direccionLogica pageSize : ℕ) : ℕ :=
  direccionLogica - pageSize * getPageNumber direccionLogica pageSize

def getEntryLvl1 (pageNumber entriesPerTable : ℕ) : ℕ := pageNumber / entriesPerTable

def getEntryLvl2 (direccionLogica pageSize entriesPerTable : ℕ) : ℕ :=
  getPageNumber direccionLogica pageSize % entriesPerTable

/-- The walk of a miss; without entries per table it divides by 0. -/
def requestFrame (m : Memory) (p : Process) (logicalAddress : ℕ) (os os' : Os) :
    Option (Memory × ℕ) := do
  if c.entradasPorTabla = 0 then none
  let pageNumber := getPageNumber logicalAddress c.tamPagina
  let secondPage ← cpuControllerSendPageSecondLevel c m p.pageTable
    (getEntryLvl1 pageNumber c.entradasPorTabla)
  cpuControllerSendFrame c m p.pid.toNat secondPage
    (getEntryLvl2 logicalAddress c.tamPagina c.entradasPorTabla) os os'

def physicalAddress (frame logicalAddress : ℕ) : ℕ :=
  (frame * c.tamPagina + getOffset logicalAddress c.tamPagina) % 2 ^ 32

def reqPhysicalAddress (b : Bus) (p : Process) (logicalAddress : ℕ) (os os' : Os) :
    Option (Bus × ℕ) :=
  let pageNumber := getPageNumber logicalAddress c.tamPagina
  let (tlb, hit) := pageInTlb b.tlb pageNumber
  match hit with
  | some frame => some ({ b with tlb }, physicalAddress c frame logicalAddress)
  | none => do
    let (memory, frame) ← requestFrame c b.memory p logicalAddress os os'
    let tlb ← replace t tlb pageNumber frame
    return (⟨memory, tlb⟩, physicalAddress c frame logicalAddress)

def executeRead (b : Bus) (p : Process) (logicalAddress : ℕ) (os os' : Os) :
    Option (Bus × ℕ) := do
  let (b, pa) ← reqPhysicalAddress c t b p logicalAddress os os'
  let (memory, value) ← cpuControllerRead c b.memory pa
  return ({ b with memory }, value)

def executeWrite (b : Bus) (p : Process) (logicalAddress value : ℕ) (os os' : Os) :
    Option Bus := do
  let (b, pa) ← reqPhysicalAddress c t b p logicalAddress os os'
  let memory ← cpuControllerWrite c b.memory pa value
  return { b with memory }

/-! ### The row of a page -/

def walk (m : Memory) (p : Process) (pageNumber : ℕ) : Option RowRef := do
  if c.entradasPorTabla = 0 then none
  let secondPage ← cpuControllerSendPageSecondLevel c m p.pageTable
    (getEntryLvl1 pageNumber c.entradasPorTabla)
  return (secondPage, pageNumber % c.entradasPorTabla)

variable {c t} {m m' : Memory} {p : Process}

lemma requestFrame_eq_some {a frame : ℕ} {os os' : Os} :
    requestFrame c m p a os os' = some (m', frame) ↔
      ∃ ref, walk c m p (getPageNumber a c.tamPagina) = some ref ∧
        obtainFrame c m ref.1 ref.2 p.pid.toNat os os' = some (m', frame) := by
  unfold requestFrame walk
  split
  · simp
  · simp only [Option.bind_eq_bind, Option.bind_eq_some_iff, Option.pure_def, Option.some.injEq]
    constructor
    · rintro ⟨secondPage, hpage, h⟩
      exact ⟨_, ⟨secondPage, hpage, rfl⟩, h⟩
    · rintro ⟨_, ⟨secondPage, hpage, rfl⟩, h⟩
      exact ⟨secondPage, hpage, h⟩

lemma walk_row_lt {page : ℕ} {ref : RowRef} (h : walk c m p page = some ref) :
    ref.2 < c.maxRows := by
  unfold walk at h
  split at h
  · cases h
  · simp only [Option.bind_eq_bind, Option.bind_eq_some_iff, Option.pure_def,
      Option.some.injEq] at h
    obtain ⟨_, -, rfl⟩ := h
    exact Nat.mod_lt _ (by omega)

lemma reqPhysicalAddress_hit {b : Bus} {a frame : ℕ} (os os' : Os)
    (hhit : (pageInTlb b.tlb (getPageNumber a c.tamPagina)).2 = some frame) :
    reqPhysicalAddress c t b p a os os' =
      some (⟨b.memory, (pageInTlb b.tlb (getPageNumber a c.tamPagina)).1⟩,
        physicalAddress c frame a) := by
  cases h : pageInTlb b.tlb (getPageNumber a c.tamPagina) with
  | mk tlb hit =>
    rw [h] at hhit
    obtain rfl : hit = some frame := hhit
    simp only [reqPhysicalAddress, h]

lemma reqPhysicalAddress_miss {b : Bus} {a frame : ℕ} {os os' : Os} {memory : Memory}
    {tlb : Tlb.State} (hmiss : (pageInTlb b.tlb (getPageNumber a c.tamPagina)).2 = none)
    (hrep : replace t (pageInTlb b.tlb (getPageNumber a c.tamPagina)).1
      (getPageNumber a c.tamPagina) frame = some tlb)
    (hreq : requestFrame c b.memory p a os os' = some (memory, frame)) :
    reqPhysicalAddress c t b p a os os' = some (⟨memory, tlb⟩, physicalAddress c frame a) := by
  cases h : pageInTlb b.tlb (getPageNumber a c.tamPagina) with
  | mk tlb' hit =>
    rw [h] at hmiss hrep
    obtain rfl : hit = none := hmiss
    simp only [reqPhysicalAddress, h, hreq, Option.bind_eq_bind, Option.bind_some, hrep,
      Option.pure_def]

lemma reqPhysicalAddress_cases {b b' : Bus} {a pa : ℕ} {os os' : Os}
    (h : reqPhysicalAddress c t b p a os os' = some (b', pa)) :
    (∃ frame, (pageInTlb b.tlb (getPageNumber a c.tamPagina)).2 = some frame ∧
      b' = ⟨b.memory, (pageInTlb b.tlb (getPageNumber a c.tamPagina)).1⟩ ∧
      pa = physicalAddress c frame a) ∨
    ((pageInTlb b.tlb (getPageNumber a c.tamPagina)).2 = none ∧ ∃ ref frame,
      walk c b.memory p (getPageNumber a c.tamPagina) = some ref ∧
      obtainFrame c b.memory ref.1 ref.2 p.pid.toNat os os' = some (b'.memory, frame) ∧
      replace t (pageInTlb b.tlb (getPageNumber a c.tamPagina)).1
        (getPageNumber a c.tamPagina) frame = some b'.tlb ∧
      pa = physicalAddress c frame a) := by
  simp only [reqPhysicalAddress] at h
  split at h
  · rename_i frame hhit
    simp only [Option.some.injEq, Prod.mk.injEq] at h
    exact .inl ⟨frame, hhit, h.1.symm, h.2.symm⟩
  · rename_i hmiss
    simp only [Option.bind_eq_bind, Option.bind_eq_some_iff, Option.pure_def, Option.some.injEq,
      Prod.mk.injEq] at h
    obtain ⟨⟨memory, frame⟩, hreq, tlb, hrep, rfl, rfl⟩ := h
    obtain ⟨ref, hwalk, hobt⟩ := requestFrame_eq_some.mp hreq
    exact .inr ⟨hmiss, ref, frame, hwalk, hobt, hrep, rfl⟩

end Sski.Cpu.Mmu
