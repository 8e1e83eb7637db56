import Sski.System.World

/-!
The TLB agrees with the page tables.

`Coherent` says that every page the TLB holds for the process on the CPU is present in the
frame the TLB has for it. An access keeps it if its fault, when it has one, is the first access
to the page, and no page the TLB goes on holding is replaced.
-/

namespace Sski.System.Coherence

open Sski.Lib.Runs Sski.Cpu.Tlb Sski.Cpu.Mmu Sski.Mem.MemoryModule Sski.Mem.CpuController
open Sski.Mem.KernelController Sski.Mem.Tables Sski.Mem.Rows Sski.Mem.Faults Sski.System.World

variable {c : Cfg} {t : TlbCfg} {w w' : Machine}

/-- The row the walk of every page in the TLB reaches is present and holds the frame. -/
def Coherent (c : Cfg) (w : Machine) : Prop :=
  ∀ p, w.executing = some p → ∀ page frame, (page, frame) ∈ pairs w.bus.tlb →
    page ≠ paginaVacia → ∃ ref r, walk c w.bus.memory p page = some ref ∧
      w.bus.memory.rowAt ref = some r ∧ r.present = true ∧ r.frame = frame

/-- The same for a process and what it works on. -/
def Held (c : Cfg) (b : Bus) (p : Process) : Prop :=
  ∀ x ∈ pairs b.tlb, x.1 ≠ paginaVacia → Sees c b.memory p x.1 (x.2, true)

lemma coherent_iff : Coherent c w ↔ ∀ p, w.executing = some p → Held c w.bus p := by
  constructor
  · intro h p hp x hx hne
    obtain ⟨ref, r, hwalk, hr, hpres, hframe⟩ := h p hp x.1 x.2 hx hne
    exact ⟨ref, r, hwalk, hr, by rw [seen, hpres, hframe]⟩
  · intro h p hp page frame hx hne
    obtain ⟨ref, r, hwalk, hr, hs⟩ := h p hp (page, frame) hx hne
    exact ⟨ref, r, hwalk, hr, congrArg Prod.snd hs, congrArg Prod.fst hs⟩

/-- The condition on the request for the frame of a row: if it faults, it is the first access
to its page, and the frame that is replaced, if one is, is in no entry of the TLB but the one
that is overwritten. -/
structure KeepsTlb (c : Cfg) (t : TlbCfg) (b : Bus) (page : ℕ) (ref : RowRef) : Prop where
  first : FirstAccess b.memory ref
  victim : ∀ r, b.memory.rowAt ref = some r → r.present = false → ∀ f,
    victim c b.memory ref.1 = some f → ∀ i x, (pairs b.tlb)[i]? = some x → x.1 ≠ paginaVacia →
    x.2 = f → slot t (pageInTlb b.tlb page).1 = some i

/-- The condition on an event: `KeepsTlb` for an access to a page that the TLB does not hold. -/
def Orderly (c : Cfg) (t : TlbCfg) (w : Machine) : Event → Prop
  | .read a _ _ | .write a _ _ _ => ∀ p, w.executing = some p →
      (pageInTlb w.bus.tlb (getPageNumber a.toNat c.tamPagina)).2 = none →
      ∀ ref, walk c w.bus.memory p (getPageNumber a.toNat c.tamPagina) = some ref →
        KeepsTlb c t w.bus (getPageNumber a.toNat c.tamPagina) ref
  | _ => True

instance (b : Bus) (page : ℕ) (ref : RowRef) : Decidable (KeepsTlb c t b page ref) :=
  decidable_of_iff (FirstAccess b.memory ref ∧
      ∀ r ∈ b.memory.rowAt ref, r.present = false → ∀ f ∈ victim c b.memory ref.1,
        ∀ i < (pairs b.tlb).length, ∀ x ∈ (pairs b.tlb)[i]?, x.1 ≠ paginaVacia →
          x.2 = f → slot t (pageInTlb b.tlb page).1 = some i)
    ⟨fun ⟨hfirst, h⟩ => ⟨hfirst, fun r hr hp f hf i x hx =>
      h r hr hp f hf i (List.getElem?_eq_some_iff.mp hx).1 x hx⟩,
    fun ⟨hfirst, h⟩ => ⟨hfirst, fun r hr hp f hf i _ x hx => h r hr hp f hf i x hx⟩⟩

instance (w : Machine) (e : Event) : Decidable (Orderly c t w e) :=
  have hacc (a : UInt32) := decidable_of_iff (∀ p ∈ w.executing,
      (pageInTlb w.bus.tlb (getPageNumber a.toNat c.tamPagina)).2 = none →
      ∀ ref ∈ walk c w.bus.memory p (getPageNumber a.toNat c.tamPagina),
        KeepsTlb c t w.bus (getPageNumber a.toNat c.tamPagina) ref) Iff.rfl
  match e with
  | .read a _ _ | .write a _ _ _ => hacc a
  | .memoryInit .. | .swapPcb .. | .processTerminated _ | .dispatch _ | .returnPcb =>
    .isTrue trivial

lemma Held.translate {b b' : Bus} {p : Process} {a pa : ℕ} {os os' : Os}
    {rows : List PageTableLvl1} (hf : Forest c b.memory) (hf' : Forest c b'.memory)
    (ht : b.memory.table1 p.pageTable = some rows) (hb : Held c b p)
    (hcond : (pageInTlb b.tlb (getPageNumber a c.tamPagina)).2 = none →
      ∀ ref, walk c b.memory p (getPageNumber a c.tamPagina) = some ref →
        KeepsTlb c t b (getPageNumber a c.tamPagina) ref)
    (h : reqPhysicalAddress c t b p a os os' = some (b', pa)) : Held c b' p := by
  rcases reqPhysicalAddress_cases h with
    ⟨frame, hhit, rfl, -⟩ | ⟨hmiss, ref, frame, hwalk, hobt, hrep, -⟩
  · intro x hx
    rw [pairs_pageInTlb] at hx
    exact hb x hx
  obtain ⟨hfirst, hvictim⟩ := hcond hmiss ref hwalk
  have hobtained := obtained_of_firstAccess (Nat.le_of_lt (walk_row_lt hwalk)) hfirst hobt
  have htable : b'.memory.table1 p.pageTable = b.memory.table1 p.pageTable := by
    rw [Memory.table1, Memory.table1, hobtained.tables1]
  have hwalk' := walk_congr hf hf' htable ht
  obtain ⟨i, hslot, -, hpairs⟩ := replace_eq_some t hrep
  rw [pairs_pageInTlb] at hpairs
  intro x hx hne
  rw [hpairs] at hx
  obtain ⟨j, hj⟩ := List.mem_iff_getElem?.mp hx
  rw [List.getElem?_set] at hj
  split at hj
  · -- the new entry
    split at hj
    · obtain rfl := Option.some.inj hj
      obtain ⟨r, hr, hframe, hpres⟩ := hobtained.row
      exact ⟨ref, r, (hwalk' _).trans hwalk, hr, by rw [seen, hframe, hpres]⟩
    · cases hj
  · -- an entry that stays: its row was present, and it is not the one that is replaced
    rename_i hij
    obtain ⟨refx, rx, hwx, hrx, hsx⟩ := hb x (List.mem_of_getElem? hj) hne
    have hframe : rx.frame = x.2 := congrArg Prod.fst hsx
    have hpres : rx.present = true := congrArg Prod.snd hsx
    obtain ⟨r, hr⟩ : ∃ r, b.memory.rowAt ref = some r := (walk_mem hf ht hwalk).2.2
    cases hpresent : r.present with
    | true =>
      have hsame := obtainFrame_present (c := c) hr hpresent
        (Nat.le_of_lt (walk_row_lt hwalk)) p.pid.toNat os os'
      rw [hsame, Option.some.injEq, Prod.mk.injEq] at hobt
      rw [← hobt.1]
      exact ⟨refx, rx, hwx, hrx, hsx⟩
    | false =>
      have hnot : victim c b.memory ref.1 ≠ some rx.frame := by
        intro hv
        have := hvictim r hr hpresent _ hv j x hj hne hframe.symm
        rw [hslot, Option.some.injEq] at this
        exact hij this
      rcases hobtained.keeps refx rx hrx with ⟨-, -, habs⟩ | ⟨r', hr', hframe', hpres'⟩
      · rw [hpres] at habs
        cases habs
      · exact ⟨refx, r', (hwalk' _).trans hwx, hr', by
          rw [seen, hframe', hpres' hnot, ← hsx, seen]⟩

lemma Coherent.step (hi : Inv c t w) (hc : Coherent c w) {e : Event} (hcond : Orderly c t w e)
    (h : step c t w e = some w') : Coherent c w' := by
  rw [coherent_iff] at hc ⊢
  have hi' := hi.step h
  intro p hp
  cases he : e.isAccess with
  | true =>
    obtain ⟨p', a, os, os', b₁, pa, hp', ⟨v, hev⟩, hreq, hw', htlb, hsame⟩ := step_access he h
    obtain rfl : p' = p := by
      rw [hw'] at hp
      simpa [hp'] using hp
    obtain ⟨rows, ht⟩ := hi.live p' (hi.executing p' hp')
    obtain ⟨hm₁, -, -, htables⟩ := reqPhysicalAddress_keeps hi.mapped hi.hands hi.fresh hreq
    have hcond' : (pageInTlb w.bus.tlb (getPageNumber a.toNat c.tamPagina)).2 = none →
        ∀ ref, walk c w.bus.memory p' (getPageNumber a.toNat c.tamPagina) = some ref →
          KeepsTlb c t w.bus (getPageNumber a.toNat c.tamPagina) ref := by
      rcases hev with rfl | rfl
      · exact hcond p' hp'
      · exact hcond p' hp'
    have hb := (hc p' hp').translate hi.mapped.forest hm₁.forest ht hcond' hreq
    intro x hx hne
    rw [htlb] at hx
    have ht' : b₁.memory.table1 p'.pageTable = some rows := by
      rw [← ht, Memory.table1, Memory.table1, htables]
    exact (hb x hx hne).untouched hm₁.forest hi'.mapped.forest ht' (untouched_sameRows hsame)
  | false =>
    obtain ⟨-, hkept, ⟨hexec, htlb⟩ | hempty⟩ := step_quiet hi he h
    · rw [hexec] at hp
      have hmem' := hi'.executing p (by rw [hexec]; exact hp)
      obtain ⟨rows, ht⟩ := hi.live p (hi.executing p hp)
      intro x hx hne
      rw [htlb] at hx
      exact (hc p hp x hx hne).untouched hi.mapped.forest hi'.mapped.forest ht
        (hkept p hmem' (hi.executing p hp))
    · exact fun x hx hne => absurd (hempty x hx) hne

/-- **TLB coherence.** In every state that orderly events lead to, every page in the TLB is
present in the frame the TLB has for it; so a hit gives the physical address that a walk
gives. -/
theorem coherent_of_orderly (c : Cfg) (t : TlbCfg) (heap : ℕ → UInt8) (es : List Event)
    (w : Machine) (hmeets : Meets (step c t) (Orderly c t) (init c t heap) es)
    (hrun : run (step c t) (init c t heap) es = some w) :
    Coherent c w ∧
    ∀ p a frame os os', w.executing = some p → getPageNumber a c.tamPagina ≠ paginaVacia →
      (pageInTlb w.bus.tlb (getPageNumber a c.tamPagina)).2 = some frame →
      requestFrame c w.bus.memory p a os os' = some (w.bus.memory, frame) ∧
      ∃ tlb, reqPhysicalAddress c t w.bus p a os os' =
        some (⟨w.bus.memory, tlb⟩, physicalAddress c frame a) := by
  have hboth : Inv c t w ∧ Coherent c w := by
    have hstep : ∀ w e w', Inv c t w ∧ Coherent c w → Orderly c t w e → step c t w e = some w' →
        Inv c t w' ∧ Coherent c w' :=
      fun w e w' ⟨hi, hc⟩ hcond h => ⟨hi.step h, hc.step hi hcond h⟩
    exact Meets.inv hstep ⟨inv_init heap, fun p hp => by cases hp⟩ hmeets hrun
  obtain ⟨-, hc⟩ := hboth
  refine ⟨hc, fun p a frame os os' hp hne hhit => ⟨?_, _, reqPhysicalAddress_hit os os' hhit⟩⟩
  obtain ⟨ref, r, hwalk, hr, hpres, rfl⟩ := hc p hp _ _ (pageInTlb_eq_some hhit) hne
  exact requestFrame_eq_some.mpr ⟨ref, hwalk,
    obtainFrame_present hr hpres (Nat.le_of_lt (walk_row_lt hwalk)) _ _ _⟩

def twoReads : List Event :=
  [.memoryInit 1 64 goodOs, .dispatch 1, .read 0 goodOs goodOs, .read 8 goodOs goodOs]

set_option maxRecDepth 40000 in
theorem coherent_of_orderly_twoReads :
    ∃ w, run (step singleCfg singleTlb) (init singleCfg singleTlb fun _ => 0) twoReads = some w ∧
      pairs w.bus.tlb = [(1, 1)] ∧ Coherent singleCfg w := by
  refine ⟨_, rfl, by decide +kernel, ?_⟩
  exact (coherent_of_orderly singleCfg singleTlb (fun _ => 0) twoReads _ (by decide +kernel) rfl).1

set_option maxRecDepth 40000 in
/-- With two entries the TLB goes on holding the page that was replaced. -/
theorem not_coherent_twoReads :
    ∃ w, run (step singleCfg smallTlb) (init singleCfg smallTlb fun _ => 0) twoReads =
        some w ∧ pairs w.bus.tlb = [(0, 0), (1, 1)] ∧
      w.bus.memory.rowAt (0, 0) = some ⟨0, false, false, false⟩ ∧ ¬ Coherent singleCfg w := by
  have hfacts : ∃ w, run (step singleCfg smallTlb) (init singleCfg smallTlb fun _ => 0)
      twoReads = some w ∧ w.executing = some ⟨1, 0⟩ ∧ pairs w.bus.tlb = [(0, 0), (1, 1)] ∧
      walk singleCfg w.bus.memory ⟨1, 0⟩ 0 = some (0, 0) ∧
      w.bus.memory.rowAt (0, 0) = some ⟨0, false, false, false⟩ :=
    ⟨_, rfl, by decide +kernel, by decide +kernel, by decide +kernel, by decide +kernel⟩
  obtain ⟨w, hrun, hp, hpairs, hwalk, hrow⟩ := hfacts
  refine ⟨w, hrun, hpairs, hrow, fun h => ?_⟩
  obtain ⟨ref, r, hwalk', hr, hpres, -⟩ := h _ hp 0 0 (by simp [hpairs]) (by decide)
  obtain rfl : ref = (0, 0) := by simpa [hwalk] using hwalk'.symm
  obtain rfl : r = ⟨0, false, false, false⟩ := by simpa [hrow] using hr.symm
  cases hpres

end Sski.System.Coherence
