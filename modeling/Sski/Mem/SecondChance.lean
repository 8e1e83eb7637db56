import Sski.Lib.Ring
import Sski.Mem.Locality

/-!
The two selectors beside the algorithms they are named after.

Both references go round the present rows from the hand on and repeat their round until a row
is taken. `clock_selector` clears the use bit of the row at its hand only, so it agrees with
second chance only if the reference clears no other; `improved_clock_selector` visits the row
at its hand twice in a pass and gives up after three passes. Where they agree is stated on the
rows in the order of the ring.
-/

namespace Sski.Mem.SecondChance

open Sski.Lib.Ring Sski.Lib.Runs Sski.Mem.MemoryModule Sski.Mem.PageTable
open Sski.Mem.Algorithms Sski.Mem.KernelController
open Sski.Mem.Tables Sski.Mem.Rows Sski.Mem.Frames Sski.Mem.Selection Sski.Mem.Locality

variable {c : Cfg} {m m' : Memory} {bigTable : List RowRef} {t t' : ℕ → PageTableLvl2}
  {n h j : ℕ}

/-! ### Rows as a table -/

/-- The rows of the big table by their index; behind its end there is none. -/
def tableOf (bigTable : List RowRef) (m : Memory) (j : ℕ) : PageTableLvl2 :=
  (rowIx bigTable m j).getD ⟨invalidFrame, false, false, false⟩

lemma tableOf_eq {r : PageTableLvl2} (hr : rowIx bigTable m j = some r) :
    tableOf bigTable m j = r := by
  rw [tableOf, hr, Option.getD_some]

lemma rowIx_of_present (hp : (tableOf bigTable m j).present = true) :
    rowIx bigTable m j = some (tableOf bigTable m j) := by
  unfold tableOf at hp ⊢
  cases hr : rowIx bigTable m j with
  | none =>
    rw [hr] at hp
    cases hp
  | some r => rfl

lemma tableOf_setRow (hnodup : bigTable.Nodup) {p : RowRef} {r₀ : PageTableLvl2}
    (hp : bigTable[j]? = some p) (hr : m.rowAt p = some r₀) (r : PageTableLvl2) :
    tableOf bigTable (m.setRow p r) = Function.update (tableOf bigTable m) j r := by
  funext i
  rw [tableOf, rowIx_setRow hnodup hp hr]
  by_cases hij : i = j
  · subst hij
    simp
  · simp [hij, tableOf]

def hits (hit : PageTableLvl2 → Bool) (r : PageTableLvl2) : Bool := r.present && hit r

def setUse (r : PageTableLvl2) : PageTableLvl2 := { r with use := true }

def clearUse (r : PageTableLvl2) : PageTableLvl2 := { r with use := false }

/-- What becomes of a row that is passed over. -/
def passed (clear : ℕ → Bool) (j : ℕ) (r : PageTableLvl2) : PageTableLvl2 :=
  if r.present && clear j then clearUse r else r

abbrev look (hit : PageTableLvl2 → Bool) (clear : ℕ → Bool) :
    List ℕ → (ℕ → PageTableLvl2) → (ℕ → PageTableLvl2) × Option ℕ :=
  walk (hits hit) setUse (passed clear)

lemma look_frame (hit : PageTableLvl2 → Bool) (clear : ℕ → Bool) (js : List ℕ)
    (t : ℕ → PageTableLvl2) (i : ℕ) : ((look hit clear js t).1 i).frame = (t i).frame := by
  induction js generalizing t with
  | nil => rfl
  | cons j js ih =>
    simp only [look, walk]
    split
    · by_cases hij : i = j
      · subst hij
        simp [setUse]
      · simp [hij]
    · refine (ih _).trans ?_
      by_cases hij : i = j
      · subst hij
        simp only [Function.update_self, passed]
        split <;> rfl
      · simp [hij]

lemma look_of_hit {hit : PageTableLvl2 → Bool} (clear : ℕ → Bool) {pre post : List ℕ} {j : ℕ}
    (hnodup : (pre ++ j :: post).Nodup) {t : ℕ → PageTableLvl2}
    (hmiss : ∀ i ∈ pre, hits hit (t i) = false) (hhit : hits hit (t j) = true) :
    look hit clear (pre ++ j :: post) t =
      (fun i => if i = j then setUse (t j) else if i ∈ pre then passed clear i (t i) else t i,
        some j) :=
  walk_of_hit hnodup hmiss hhit

/-- A loop of a selector is a walk. -/
lemma scan_eq_look (hnodup : bigTable.Nodup) (hit : PageTableLvl2 → Bool) (clear : ℕ → Bool)
    (js : List ℕ) (hjs : ∀ j ∈ js, (rowIx bigTable m j).isSome) :
    ∃ m', scan bigTable hit clear js m = some (m',
        (look hit clear js (tableOf bigTable m)).2.map fun j => (j, (tableOf bigTable m j).frame)) ∧
      tableOf bigTable m' = (look hit clear js (tableOf bigTable m)).1 := by
  induction js generalizing m with
  | nil => exact ⟨m, rfl, rfl⟩
  | cons j js ih =>
    obtain ⟨r, hr⟩ := Option.isSome_iff_exists.mp (hjs j List.mem_cons_self)
    obtain ⟨p, hp, hrow⟩ := rowIx_eq_some_iff.mp hr
    have hj := tableOf_eq hr
    -- the rest of the loop, from the row as it was left
    have hrest : ∀ r' : PageTableLvl2, r'.frame = r.frame →
        ∃ m', scan bigTable hit clear js (m.setRow p r') = some (m',
          (look hit clear js (Function.update (tableOf bigTable m) j r')).2.map
            fun i => (i, (tableOf bigTable m i).frame)) ∧
        tableOf bigTable m' =
          (look hit clear js (Function.update (tableOf bigTable m) j r')).1 := by
      intro r' hframe
      have hset := tableOf_setRow hnodup hp hrow r'
      obtain ⟨m', hscan, htable⟩ := ih (m := m.setRow p r') fun i hi => by
        rw [rowIx_setRow hnodup hp hrow]
        split
        · rfl
        · exact hjs i (List.mem_cons_of_mem _ hi)
      rw [hset] at hscan htable
      refine ⟨m', ?_, htable⟩
      rw [hscan]
      congr 3
      funext i
      by_cases hij : i = j
      · subst hij
        simp [hframe, hj]
      · simp [hij]
    simp only [scan, hp, hrow, Option.bind_eq_bind, Option.bind_some, look, walk, hj, hits]
    cases hpres : r.present with
    | false =>
      have hself : m.setRow p r = m := Memory.setRow_self r hrow
      have hpass : passed clear j r = r := by simp [passed, hpres]
      have hrest' := hrest r rfl
      rw [hself] at hrest'
      simpa [hpass] using hrest'
    | true =>
      cases hhit : hit r with
      | true =>
        refine ⟨m.setRow p { r with use := true }, ?_, ?_⟩
        · simp [hj, hpres]
        · rw [tableOf_setRow hnodup hp hrow]
          rfl
      | false =>
        cases hclear : clear j with
        | true => simpa [passed, hpres, hclear, clearUse] using hrest (clearUse r) rfl
        | false =>
          have hself : m.setRow p r = m := Memory.setRow_self r hrow
          have hrest' := hrest r rfl
          rw [hself] at hrest'
          simpa [passed, hclear] using hrest'

/-! ### Passes -/

lemma Whole.useBits (hw : Whole c m bigTable) (hu : UseBits m m') : Whole c m' bigTable := by
  refine hw.of_rows fun j r hr => ?_
  obtain ⟨p, hp, hrow⟩ := rowIx_eq_some_iff.mp hr
  obtain ⟨r', hr', -⟩ := hu.rows.rowAt_some hrow
  exact ⟨r', rowIx_eq_some_iff.mpr ⟨p, hp, hr'⟩⟩

/-- A pass of the code: the ring of the hand, and the row at the hand again. -/
def codePass (hit : PageTableLvl2 → Bool) (clear clear' : ℕ → Bool) (n h : ℕ)
    (t : ℕ → PageTableLvl2) : (ℕ → PageTableLvl2) × Option ℕ :=
  orElse (look hit clear (ring n h) t) (look hit clear' [h])

lemma codePass_frame (hit : PageTableLvl2 → Bool) (clear clear' : ℕ → Bool) (n h : ℕ)
    (t : ℕ → PageTableLvl2) (i : ℕ) :
    ((codePass hit clear clear' n h t).1 i).frame = (t i).frame := by
  cases hfound : (look hit clear (ring n h) t).2 with
  | none =>
    rw [codePass, orElse_of_none hfound, look_frame, look_frame]
  | some j => rw [codePass, orElse_of_some hfound, look_frame]

lemma pass_eq_codePass (hw : Whole c m bigTable) (hh : h < totalRows c)
    (hit : PageTableLvl2 → Bool) (clear clear' : ℕ → Bool) (hclear : ∀ j < h, clear j = clear' j) :
    ∃ m', pass bigTable hit clear clear' (totalRows c) h m = some (m',
        (codePass hit clear clear' (totalRows c) h (tableOf bigTable m)).2.map
          fun j => (j, (tableOf bigTable m j).frame)) ∧
      tableOf bigTable m' = (codePass hit clear clear' (totalRows c) h (tableOf bigTable m)).1 ∧
      Whole c m' bigTable ∧ UseBits m m' := by
  have hring : codePass hit clear clear' (totalRows c) h (tableOf bigTable m) =
      orElse (look hit clear (List.range' h (totalRows c - h)) (tableOf bigTable m))
        (look hit clear' (List.range (h + 1))) := by
    have hlow : ∀ t, look hit clear (List.range h) t = look hit clear' (List.range h) t := by
      refine walk_congr fun j hj => ?_
      funext r
      rw [List.mem_range] at hj
      simp only [passed, hclear j hj]
    simp only [codePass, ring, look, walk_append, List.range_succ]
    cases hfound : (look hit clear (List.range' h (totalRows c - h)) (tableOf bigTable m)).2 with
    | none =>
      simp only [look] at hfound hlow
      simp only [orElse_of_none hfound, walk_append, hlow]
    | some j =>
      simp only [look] at hfound
      simp only [orElse_of_some hfound]
  obtain ⟨m₁, h₁, ht₁⟩ := scan_eq_look (m := m) hw.nodup hit clear
    (List.range' h (totalRows c - h)) fun j hj => by
      rw [List.mem_range'_1] at hj
      exact hw.rows j (by rw [hw.length]; omega)
  have hw₁ := Whole.useBits hw (useBits_scan h₁)
  rw [hring]
  cases hfound : (look hit clear (List.range' h (totalRows c - h)) (tableOf bigTable m)).2 with
  | some j =>
    rw [hfound, Option.map_some] at h₁
    refine ⟨m₁, ?_, ?_, hw₁, useBits_scan h₁⟩
    · simp only [Algorithms.pass, h₁, Option.bind_eq_bind, Option.bind_some,
        orElse_of_some hfound, hfound, Option.map_some, Option.pure_def]
    · rw [ht₁, orElse_of_some hfound]
  | none =>
    obtain ⟨m₂, h₂, ht₂⟩ := scan_eq_look (m := m₁) hw.nodup hit clear'
      (List.range (h + 1)) fun j hj => by
        rw [List.mem_range] at hj
        exact hw₁.rows j (by rw [hw₁.length]; omega)
    rw [hfound, Option.map_none] at h₁
    refine ⟨m₂, ?_, ?_, Whole.useBits hw₁ (useBits_scan h₂),
      (useBits_scan h₁).trans (useBits_scan h₂)⟩
    · simp only [Algorithms.pass, h₁, Option.bind_eq_bind, Option.bind_some, h₂, ht₁,
        orElse_of_none hfound, look_frame]
    · rw [ht₂, ht₁, orElse_of_none hfound]

/-! ### The selectors in closed form -/

def codeClock (n h : ℕ) (t : ℕ → PageTableLvl2) : (ℕ → PageTableLvl2) × Option ℕ :=
  codePass notUsed (· == h) never n h t

def codeImproved (n h : ℕ) (t : ℕ → PageTableLvl2) : (ℕ → PageTableLvl2) × Option ℕ :=
  orElse (codePass notUsedClean never never n h t) fun t =>
    orElse (codePass notUsedDirty always always n h t) (codePass notUsedClean never never n h)

lemma resetUse_rowAt {l : List RowRef} (h : resetUse l m = some m') (p : RowRef) :
    m'.rowAt p = if p ∈ l then (m.rowAt p).map clearUse else m.rowAt p := by
  induction l generalizing m with
  | nil =>
    obtain rfl : m = m' := by simpa [resetUse] using h
    simp
  | cons q l ih =>
    simp only [resetUse, List.foldlM_cons, Option.bind_eq_bind, Option.bind_eq_some_iff] at h
    obtain ⟨m₁, h₁, h⟩ := h
    obtain ⟨r, hr, rfl⟩ := modifyRow_eq h₁
    rw [ih h, Memory.rowAt_setRow _ hr]
    by_cases hpq : p = q
    · subst hpq
      by_cases hp : p ∈ l <;> simp [hp, hr, clearUse]
    · by_cases hp : p ∈ l <;> simp [hp, hpq]

lemma clockSelector_eq {T : ℕ} (hbig : bigTableOf c m T = some bigTable)
    (hw : Whole c m bigTable) (hh : m.clock < totalRows c) :
    ∃ m' frame, clockSelector c m T = some (m', frame) ∧
      ((∃ j, (codeClock (totalRows c) m.clock (tableOf bigTable m)).2 = some j ∧
        frame = (tableOf bigTable m j).frame ∧ m'.clock = nextHand (totalRows c) j ∧
        tableOf bigTable m' = (codeClock (totalRows c) m.clock (tableOf bigTable m)).1) ∨
      ((codeClock (totalRows c) m.clock (tableOf bigTable m)).2 = none ∧
        frame = (tableOf bigTable m m.clock).frame ∧ m'.clock = 0 ∧
        ∀ i < totalRows c, (tableOf bigTable m' i).use = decide (i = m.clock))) := by
  obtain ⟨m₁, h₁, ht₁, hw₁, hu₁⟩ := pass_eq_codePass hw hh notUsed
    (· == m.clock) never fun j hj => by simp [never]; omega
  cases hfound : (codeClock (totalRows c) m.clock (tableOf bigTable m)).2 with
  | some j =>
    have hfound' := hfound
    simp only [codeClock] at hfound'
    rw [hfound', Option.map_some] at h₁
    refine ⟨{ m₁ with clock := nextHand (totalRows c) j }, _, ?_,
      .inl ⟨j, rfl, rfl, rfl, ht₁⟩⟩
    simp only [clockSelector, hbig, Option.bind_eq_bind, Option.bind_some, h₁, Option.pure_def]
  | none =>
    have hfound' := hfound
    simp only [codeClock] at hfound'
    rw [hfound', Option.map_none] at h₁
    have hrows : ∀ p ∈ bigTable, (m₁.rowAt p).isSome := by
      intro p hp
      obtain ⟨i, hi⟩ := List.mem_iff_getElem?.mp hp
      obtain ⟨r, hr⟩ := Option.isSome_iff_exists.mp
        (hw₁.rows i (List.getElem?_eq_some_iff.mp hi).1)
      obtain ⟨q, hq, hrow⟩ := rowIx_eq_some_iff.mp hr
      obtain rfl : p = q := by simpa [hi] using hq
      rw [hrow]
      rfl
    obtain ⟨m₂, h₂⟩ := resetUse_isSome hrows
    have hw₂ := Whole.useBits hw₁ (useBits_resetUse h₂)
    obtain ⟨r, hr⟩ := Option.isSome_iff_exists.mp (hw₂.rows m.clock (by rw [hw₂.length]; exact hh))
    obtain ⟨p, hp, hrow⟩ := rowIx_eq_some_iff.mp hr
    have hframe : r.frame = (tableOf bigTable m m.clock).frame := by
      obtain ⟨r₀, hr₀⟩ := Option.isSome_iff_exists.mp
        (hw.rows m.clock (by rw [hw.length]; exact hh))
      obtain ⟨q, hq, hrow₀⟩ := rowIx_eq_some_iff.mp hr₀
      obtain rfl : p = q := by simpa [hp] using hq
      obtain ⟨r', hr', hsame⟩ := ((hu₁.trans (useBits_resetUse h₂)).rows).rowAt_some hrow₀
      obtain rfl : r = r' := by simpa [hrow] using hr'
      rw [tableOf_eq hr₀]
      exact (congrArg PageTableLvl2.frame hsame :)
    refine ⟨{ m₂.setRow p { r with use := true } with clock := 0 }, r.frame, ?_,
      .inr ⟨rfl, hframe, rfl, fun i hi => ?_⟩⟩
    · simp only [clockSelector, hbig, Option.bind_eq_bind, Option.bind_some, h₁, h₂, hp, hrow,
        Option.pure_def, if_pos (show m.clock + 1 ≤ totalRows c by omega)]
    · change (tableOf bigTable (m₂.setRow p { r with use := true }) i).use = _
      rw [tableOf_setRow hw.nodup hp hrow]
      by_cases hic : i = m.clock
      · subst hic
        simp
      · rw [Function.update_of_ne hic, decide_eq_false hic]
        -- every use bit was cleared
        obtain ⟨r₁, hr₁⟩ := Option.isSome_iff_exists.mp (hw₁.rows i (by rw [hw₁.length]; exact hi))
        obtain ⟨q, hq, hrow₁⟩ := rowIx_eq_some_iff.mp hr₁
        have hrow₂ := resetUse_rowAt h₂ q
        rw [if_pos (List.mem_of_getElem? hq), hrow₁, Option.map_some] at hrow₂
        rw [tableOf_eq (rowIx_eq_some_iff.mpr ⟨q, hq, hrow₂⟩)]
        rfl

lemma improvedClockSelector_eq {T : ℕ} (hbig : bigTableOf c m T = some bigTable)
    (hw : Whole c m bigTable) (hh : m.improvedClock < totalRows c) :
    ∃ m' frame, improvedClockSelector c m T = some (m', frame) ∧
      tableOf bigTable m' =
        (codeImproved (totalRows c) m.improvedClock (tableOf bigTable m)).1 ∧
      match (codeImproved (totalRows c) m.improvedClock (tableOf bigTable m)).2 with
      | some j =>
        frame = (tableOf bigTable m j).frame ∧ m'.improvedClock = nextHand (totalRows c) j
      | none => frame = invalidFrame ∧ m'.improvedClock = m.improvedClock := by
  obtain ⟨m₁, h₁, ht₁, hw₁, hu₁⟩ := pass_eq_codePass hw hh notUsedClean
    never never fun _ _ => rfl
  cases hf₁ : (codePass notUsedClean never never (totalRows c) m.improvedClock
      (tableOf bigTable m)).2 with
  | some j =>
    rw [hf₁, Option.map_some] at h₁
    rw [codeImproved, orElse_of_some hf₁]
    simp only [hf₁]
    refine ⟨{ m₁ with improvedClock := nextHand (totalRows c) j }, _, ?_, ht₁, rfl, rfl⟩
    simp only [improvedClockSelector, hbig, Option.bind_eq_bind, Option.bind_some, h₁,
      Option.pure_def]
  | none =>
    rw [hf₁, Option.map_none] at h₁
    rw [codeImproved, orElse_of_none hf₁, ← ht₁]
    obtain ⟨m₂, h₂, ht₂, hw₂, hu₂⟩ := pass_eq_codePass hw₁ hh notUsedDirty
      always always fun _ _ => rfl
    have hframe₁ : ∀ i, (tableOf bigTable m₁ i).frame = (tableOf bigTable m i).frame := by
      intro i
      rw [ht₁, codePass_frame]
    cases hf₂ : (codePass notUsedDirty always always (totalRows c) m.improvedClock
        (tableOf bigTable m₁)).2 with
    | some j =>
      rw [hf₂, Option.map_some, hframe₁] at h₂
      rw [orElse_of_some hf₂]
      simp only [hf₂]
      refine ⟨{ m₂ with improvedClock := nextHand (totalRows c) j }, _, ?_, ht₂, rfl, rfl⟩
      simp only [improvedClockSelector, hbig, Option.bind_eq_bind, Option.bind_some, h₁, h₂,
        Option.pure_def]
    | none =>
      rw [hf₂, Option.map_none] at h₂
      rw [orElse_of_none hf₂, ← ht₂]
      obtain ⟨m₃, h₃, ht₃, hw₃, hu₃⟩ := pass_eq_codePass hw₂ hh notUsedClean
        never never fun _ _ => rfl
      have hframe₂ : ∀ i, (tableOf bigTable m₂ i).frame = (tableOf bigTable m i).frame := by
        intro i
        rw [ht₂, codePass_frame, hframe₁]
      cases hf₃ : (codePass notUsedClean never never (totalRows c) m.improvedClock
          (tableOf bigTable m₂)).2 with
      | some j =>
        rw [hf₃, Option.map_some, hframe₂] at h₃
        refine ⟨{ m₃ with improvedClock := nextHand (totalRows c) j }, _, ?_, ht₃, rfl, rfl⟩
        simp only [improvedClockSelector, hbig, Option.bind_eq_bind, Option.bind_some, h₁, h₂, h₃,
          Option.pure_def]
      | none =>
        rw [hf₃, Option.map_none] at h₃
        have hhand := ((hu₁.trans hu₂).trans hu₃).improvedClock
        refine ⟨m₃, invalidFrame, ?_, ht₃, rfl, hhand⟩
        simp only [improvedClockSelector, hbig, Option.bind_eq_bind, Option.bind_some, h₁, h₂, h₃,
          Option.pure_def]

/-! ### The references -/

/-- A round of second chance: every present row once from the hand on. The first with `U = 0` is
taken, the rows passed over lose their use bit. -/
def secondChance (n h : ℕ) (t : ℕ → PageTableLvl2) : (ℕ → PageTableLvl2) × Option ℕ :=
  look notUsed always (ring n h) t

/-- A round of the enhanced clock: a pass for `U = 0, M = 0` that changes nothing, and a pass for
`U = 0, M = 1` in which the rows passed over lose their use bit. -/
def enhancedClock (n h : ℕ) (t : ℕ → PageTableLvl2) : (ℕ → PageTableLvl2) × Option ℕ :=
  orElse (look notUsedClean never (ring n h) t) (look notUsedDirty always (ring n h))

/-- A selector has done what a reference does: the same victim, the same use bits of the present
rows, and the hand behind the victim. -/
def Selects (n : ℕ) (t t' : ℕ → PageTableLvl2) (frame hand' : ℕ)
    (round : (ℕ → PageTableLvl2) → (ℕ → PageTableLvl2) × Option ℕ) : Prop :=
  ∃ u j, Chooses round t u j ∧ frame = (t j).frame ∧ hand' = (j + 1) % n ∧
    ∀ i < n, (t i).present = true → (t' i).use = (u i).use

def presentRing (n h : ℕ) (t : ℕ → PageTableLvl2) : List ℕ :=
  (ring n h).filter fun j => (t j).present

lemma mem_presentRing (hh : h < n) {i : ℕ} :
    i ∈ presentRing n h t ↔ i < n ∧ (t i).present = true := by
  rw [presentRing, List.mem_filter, mem_ring (by omega)]

lemma nodup_presentRing (n h : ℕ) (t : ℕ → PageTableLvl2) : (presentRing n h t).Nodup :=
  (nodup_ring n h).filter _

lemma look_ring (hit : PageTableLvl2 → Bool) (clear : ℕ → Bool) (n h : ℕ)
    (t : ℕ → PageTableLvl2) :
    look hit clear (ring n h) t = look hit clear (presentRing n h t) t := by
  refine walk_filter ?_ ?_ (nodup_ring n h) t
  · intro r hr
    simp [hits, hr]
  · intro i r hr
    simp [passed, hr]

lemma head_presentRing (hh : h < n) (hp : (t h).present = true) :
    ∃ js, presentRing n h t = h :: js := by
  obtain ⟨js, hjs⟩ := ring_eq_cons hh
  exact ⟨_, by rw [presentRing, hjs, List.filter_cons, if_pos hp]⟩

lemma absent_of_head {js : List ℕ} (hh : h < n) (hps : presentRing n h t = j :: js)
    (hne : j ≠ h) : (t h).present = false := by
  by_contra hp
  obtain ⟨js', hps'⟩ := head_presentRing hh (by simpa using hp)
  rw [hps, List.cons.injEq] at hps'
  exact hne hps'.1

lemma nextHand_eq {n j : ℕ} (hj : j < n) : nextHand n j = (j + 1) % n := by
  unfold nextHand
  split
  · obtain rfl : j + 1 = n := by omega
    rw [Nat.mod_self]
  · rw [Nat.mod_eq_of_lt (by omega)]

/-! ### Second chance -/

lemma look_head (hit : PageTableLvl2 → Bool) (clear : ℕ → Bool) {js : List ℕ}
    (hps : presentRing n h t = j :: js) (hhit : hits hit (t j) = true) :
    look hit clear (ring n h) t = (Function.update t j (setUse (t j)), some j) := by
  rw [look_ring, hps]
  simp only [look, walk, hhit, if_true]

/-- Where the ring has an unused row, the first one is taken and the rows before it lose their use
bit as `clear` says. -/
lemma look_of_unused (clear : ℕ → Bool) (pre : List ℕ) {post : List ℕ} {v : ℕ} (hh : h < n)
    (hps : presentRing n h t = pre ++ v :: post) (hused : ∀ i ∈ pre, (t i).use = true)
    (hv : (t v).use = false) :
    look notUsed clear (ring n h) t =
      (fun i => if i = v then setUse (t v) else if i ∈ pre then passed clear i (t i) else t i,
        some v) := by
  have hpres : (t v).present = true := by
    have hmem : v ∈ presentRing n h t := by simp [hps]
    exact ((mem_presentRing hh).mp hmem).2
  rw [look_ring, hps]
  refine look_of_hit clear (hps ▸ nodup_presentRing n h t) (fun i hi => ?_) ?_
  · simp [hits, notUsed, hused i hi]
  · simp [hits, notUsed, hpres, hv]

lemma look_of_used (clear : ℕ → Bool) (hused : ∀ i ∈ presentRing n h t, (t i).use = true) :
    look notUsed clear (ring n h) t =
      (fun i => if i ∈ presentRing n h t then passed clear i (t i) else t i, none) := by
  rw [look_ring]
  refine walk_of_miss (nodup_presentRing n h t) fun i hi => ?_
  simp [hits, notUsed, hused i hi]

/-- The rows after a round in which all present rows lost their use bit. -/
def allCleared (n h : ℕ) (t : ℕ → PageTableLvl2) (i : ℕ) : PageTableLvl2 :=
  if i ∈ presentRing n h t then clearUse (t i) else t i

lemma passed_always (hh : h < n) (t : ℕ → PageTableLvl2) :
    (fun i => if i ∈ presentRing n h t then passed always i (t i) else t i) =
      allCleared n h t := by
  funext i
  unfold allCleared
  split
  · rename_i hi
    simp [passed, always, ((mem_presentRing hh).mp hi).2]
  · rfl

@[simp] lemma allCleared_present (n h : ℕ) (t : ℕ → PageTableLvl2) (i : ℕ) :
    (allCleared n h t i).present = (t i).present := by
  unfold allCleared
  split <;> rfl

@[simp] lemma allCleared_modified (n h : ℕ) (t : ℕ → PageTableLvl2) (i : ℕ) :
    (allCleared n h t i).modified = (t i).modified := by
  unfold allCleared
  split <;> rfl

lemma allCleared_use {i : ℕ} (hi : i ∈ presentRing n h t) :
    (allCleared n h t i).use = false := by
  rw [allCleared, if_pos hi]
  rfl

@[simp] lemma presentRing_allCleared (n h : ℕ) (t : ℕ → PageTableLvl2) :
    presentRing n h (allCleared n h t) = presentRing n h t := by
  unfold presentRing
  exact List.filter_congr fun i _ => allCleared_present n h t i

/-- What the reference chooses if its first row is used. Either a later row is unused: the rows
before it have lost their use bit. Or none is, and a second round takes the first row. -/
lemma secondChance_used {js : List ℕ} (hh : h < n) (hps : presentRing n h t = j :: js)
    (huse : (t j).use = true) {u : ℕ → PageTableLvl2} {v : ℕ}
    (hc : Chooses (secondChance n h) t u v) :
    (∃ pre post, js = pre ++ v :: post ∧ (t v).use = false ∧
      ∀ i ∈ j :: pre, (t i).use = true ∧ (u i).use = false) ∨
      (u = Function.update (allCleared n h t) j (setUse (allCleared n h t j)) ∧ v = j ∧
        ∀ i ∈ j :: js, (t i).use = true) := by
  have hnodup : (j :: js).Nodup := hps ▸ nodup_presentRing n h t
  have hpres : ∀ i ∈ j :: js, (t i).present = true := by
    intro i hi
    rw [← hps, mem_presentRing hh] at hi
    exact hi.2
  rcases exists_first (fun r : PageTableLvl2 => !r.use) js t with
    hall | ⟨pre, w, post, rfl, hmiss, hhit⟩
  · have hused : ∀ i ∈ j :: js, (t i).use = true := by
      intro i hi
      rcases List.mem_cons.mp hi with rfl | hi
      · exact huse
      · simpa using hall i hi
    have hround : secondChance n h t = (allCleared n h t, none) := by
      rw [secondChance, look_of_used always (hps ▸ hused), passed_always hh]
    have hlast : secondChance n h (allCleared n h t) =
        (Function.update (allCleared n h t) j (setUse (allCleared n h t j)), some j) := by
      refine look_head _ _ ((presentRing_allCleared n h t).trans hps) ?_
      simp [hits, notUsed, allCleared_use (hps ▸ List.mem_cons_self),
        hpres j List.mem_cons_self]
    obtain ⟨rfl, rfl⟩ := hc.unique ((chooses_of_some hlast).of_none hround)
    exact .inr ⟨rfl, rfl, hused⟩
  · have hused : ∀ i ∈ j :: pre, (t i).use = true := by
      intro i hi
      rcases List.mem_cons.mp hi with rfl | hi
      · exact huse
      · simpa using hmiss i hi
    have hround := look_of_unused always (j :: pre) hh hps hused
      (by simpa using hhit)
    obtain ⟨rfl, rfl⟩ := hc.unique (chooses_of_some hround)
    refine .inl ⟨pre, post, rfl, by simpa using hhit, fun i hi => ⟨hused i hi, ?_⟩⟩
    have hne : i ≠ v := by
      rintro rfl
      rw [hused i hi] at hhit
      cases hhit
    have hp : (t i).present = true :=
      hpres i (List.mem_cons.mpr ((List.mem_cons.mp hi).imp id (List.mem_append_left _)))
    simp [hne, List.mem_cons.mp hi, passed, always, hp, clearUse]

/-- The first present row from the hand on is unused; or it is the row at the hand, and the
present row behind it is unused, if there is one. -/
def FirstUnused (t : ℕ → PageTableLvl2) (h : ℕ) : List ℕ → Prop
  | [] => True
  | j :: js => (t j).use = false ∨ (j = h ∧ ∀ k ∈ js.head?, (t k).use = false)

/-- The code and the reference do the same. -/
lemma codeClock_agrees {js : List ℕ} (hh : h < n) (hps : presentRing n h t = j :: js)
    (hfirst : FirstUnused t h (j :: js)) :
    ∃ v, v < n ∧ (codeClock n h t).2 = some v ∧
      Chooses (secondChance n h) t (codeClock n h t).1 v := by
  have hlt : ∀ i ∈ j :: js, i < n := by
    intro i hi
    rw [← hps, mem_presentRing hh] at hi
    exact hi.1
  cases huse : (t j).use with
  | false =>
    have hcode := look_of_unused (· == h) [] hh hps (by simp) huse
    have href := look_of_unused always [] hh hps (by simp) huse
    rw [codeClock, codePass, orElse_of_some (by rw [hcode]), hcode]
    exact ⟨j, hlt j List.mem_cons_self, rfl, chooses_of_some href⟩
  | true =>
    obtain ⟨rfl, hnext⟩ : j = h ∧ ∀ k ∈ js.head?, (t k).use = false := by
      simpa [FirstUnused, huse] using hfirst
    have hp : (t j).present = true := by
      have hmem : j ∈ presentRing n j t := hps ▸ List.mem_cons_self
      exact ((mem_presentRing hh).mp hmem).2
    cases js with
    | nil =>
      -- the only present row
      have hused : ∀ i ∈ presentRing n j t, (t i).use = true := by
        rw [hps]
        simpa using huse
      have hcode : look notUsed (· == j) (ring n j) t = (allCleared n j t, none) := by
        rw [look_of_used _ hused]
        refine Prod.ext (funext fun i => ?_) rfl
        unfold allCleared
        rw [hps]
        by_cases hi : i = j
        · subst hi
          simp [passed, hp]
        · simp [hi]
      have href : secondChance n j t = (allCleared n j t, none) := by
        rw [secondChance, look_of_used _ hused, passed_always hh]
      have hhit : hits notUsed (allCleared n j t j) = true := by
        simp [hits, notUsed, hp, allCleared_use (hps ▸ List.mem_cons_self)]
      have hagain : look notUsed never [j] (allCleared n j t) =
          (Function.update (allCleared n j t) j (setUse (allCleared n j t j)), some j) := by
        simp only [look, walk, hhit, if_true]
      have hlast := look_head notUsed always
        ((presentRing_allCleared n j t).trans hps) hhit
      rw [codeClock, codePass, orElse_of_none (by rw [hcode]), hcode, hagain]
      exact ⟨j, hh, rfl, (chooses_of_some hlast).of_none href⟩
    | cons k ks =>
      have hk := hnext k (by simp)
      have hused : ∀ i ∈ [j], (t i).use = true := by simpa using huse
      have hcode := look_of_unused (· == j) [j] hh hps hused hk
      have href := look_of_unused always [j] hh hps hused hk
      have hsame : look notUsed (· == j) (ring n j) t = look notUsed always (ring n j) t := by
        rw [hcode, href]
        refine Prod.ext (funext fun i => ?_) rfl
        by_cases hi : i = j
        · subst hi
          simp [passed, always]
        · simp [hi]
      rw [codeClock, codePass, orElse_of_some (by rw [hcode]), hsame]
      exact ⟨k, hlt k (by simp), by rw [href], chooses_of_some (by rw [secondChance, href])⟩

/-- Nothing is taken where the row at the hand is absent and every present row is used. -/
lemma codeClock_of_stuck (hh : h < n)
    (hstuck : ∀ i < n, (t i).present = true → i ≠ h ∧ (t i).use = true) :
    (codeClock n h t).2 = none := by
  have hused : ∀ i ∈ presentRing n h t, (t i).use = true := by
    intro i hi
    obtain ⟨hlt, hp⟩ := (mem_presentRing hh).mp hi
    exact (hstuck i hlt hp).2
  have habs : (t h).present = false := by
    by_contra hp
    exact (hstuck h hh (by simpa using hp)).1 rfl
  have hmem : h ∉ presentRing n h t := by
    rw [mem_presentRing hh, habs]
    simp
  rw [codeClock, codePass, orElse_of_none (by rw [look_of_used _ hused]), look_of_used _ hused]
  simp [look, walk, hits, hmem, habs]

/-- The use bit the code leaves at a row. -/
def codeUse (n h : ℕ) (t : ℕ → PageTableLvl2) (i : ℕ) : Bool :=
  match (codeClock n h t).2 with
  | some _ => ((codeClock n h t).1 i).use
  | none => decide (i = h)

/-- Otherwise they leave different use bits. -/
lemma codeClock_differs {js : List ℕ} (hh : h < n) (hps : presentRing n h t = j :: js)
    (hfirst : ¬ FirstUnused t h (j :: js)) {u : ℕ → PageTableLvl2} {v : ℕ}
    (hc : Chooses (secondChance n h) t u v) :
    ∃ i ∈ presentRing n h t, codeUse n h t i ≠ (u i).use := by
  have hnodup : (j :: js).Nodup := hps ▸ nodup_presentRing n h t
  obtain ⟨huse, hother⟩ : (t j).use = true ∧ (j = h → ∃ k ks, js = k :: ks ∧
      (t k).use = true) := by
    simp only [FirstUnused, not_or, not_and] at hfirst
    refine ⟨by simpa using hfirst.1, fun hj => ?_⟩
    have hhead := hfirst.2 hj
    cases js with
    | nil => simp at hhead
    | cons k ks => exact ⟨k, ks, rfl, by simpa using hhead⟩
  have hcases := secondChance_used hh hps huse hc
  by_cases hj : j = h
  · -- the row behind the hand keeps its use bit
    subst hj
    obtain ⟨k, ks, rfl, hk⟩ := hother rfl
    have hkj : k ≠ j := by
      rintro rfl
      simp at hnodup
    refine ⟨k, by simp [hps], ?_⟩
    have hkeeps : passed (· == j) k (t k) = t k := by simp [passed, hkj]
    rcases hcases with ⟨pre, post, hsplit, hv, hpre⟩ | ⟨rfl, rfl, hused⟩
    · have hkpre : k ∈ pre := by
        cases pre with
        | nil =>
          rw [List.nil_append, List.cons.injEq] at hsplit
          rw [← hsplit.1, hk] at hv
          cases hv
        | cons a pre =>
          rw [List.cons_append, List.cons.injEq] at hsplit
          simp [hsplit.1]
      have hkv : k ≠ v := by
        rintro rfl
        rw [hk] at hv
        cases hv
      have hcode := look_of_unused (· == j) (j :: pre) hh
        (by rw [hps, hsplit]; rfl) (fun i hi => (hpre i hi).1) hv
      have hsome : codeUse n j t k = true := by
        rw [codeUse, codeClock, codePass, orElse_of_some (by rw [hcode]), hcode]
        simp [hkv, hkpre, hkeeps, hk]
      rw [hsome, (hpre k (List.mem_cons_of_mem _ hkpre)).2]
      decide
    · have hcode := look_of_used (· == v) (hps ▸ hused)
      have hp : (t v).present = true := by
        have hmem : v ∈ presentRing n v t := hps ▸ List.mem_cons_self
        exact ((mem_presentRing hh).mp hmem).2
      have hsome : codeUse n v t k = true := by
        rw [codeUse, codeClock, codePass, orElse_of_none (by rw [hcode]), hcode]
        simp [look, walk, hits, notUsed, passed, hps, hp, clearUse, hkj, hk]
      rw [hsome, Function.update_of_ne hkj, allCleared_use (by simp [hps])]
      decide
  · refine ⟨j, by simp [hps], ?_⟩
    have habs := absent_of_head hh hps hj
    have hkeeps : passed (· == h) j (t j) = t j := by simp [passed, hj]
    rcases hcases with ⟨pre, post, rfl, hv, hpre⟩ | ⟨rfl, rfl, hused⟩
    · -- the first row keeps its use bit
      have hjv : j ≠ v := by
        rintro rfl
        rw [huse] at hv
        cases hv
      have hcode := look_of_unused (· == h) (j :: pre) hh hps
        (fun i hi => (hpre i hi).1) hv
      have hsome : codeUse n h t j = true := by
        rw [codeUse, codeClock, codePass, orElse_of_some (by rw [hcode]), hcode]
        simp [hjv, hkeeps, huse]
      rw [hsome, (hpre j List.mem_cons_self).2]
      decide
    · -- the absent row at the hand is taken
      have hnone : codeUse n h t v = false := by
        rw [codeUse, codeClock_of_stuck hh fun i hi hp => ⟨?_, ?_⟩]
        · exact decide_eq_false hj
        · rintro rfl
          rw [habs] at hp
          cases hp
        · exact hused i (hps ▸ (mem_presentRing hh).mpr ⟨hi, hp⟩)
      rw [hnone, Function.update_self]
      simp [setUse]

/-- **Second chance.** `clock_selector` selects as the reference does if and only if the product of
`max_rows` with itself fits in 32 bits and the reference clears the use bit of no row but the one
at the hand: the first present row is unused, or it is at the hand and the next one is unused. -/
theorem clockSelector_selects_iff (c : Cfg) (m : Memory) (T : ℕ) (rows : List PageTableLvl1)
    (hf : Forest c m) (ht : m.table1 T = some rows) (hh : m.clock < totalRows c)
    (hp : ∃ i < totalRows c, (tableOf (rowRefs c rows) m i).present = true) :
    (∃ m' frame, clockSelector c m T = some (m', frame) ∧
      Selects (totalRows c) (tableOf (rowRefs c rows) m) (tableOf (rowRefs c rows) m') frame
        m'.clock (secondChance (totalRows c) m.clock)) ↔
    c.maxRows < 2 ^ 16 ∧ FirstUnused (tableOf (rowRefs c rows) m) m.clock
      (presentRing (totalRows c) m.clock (tableOf (rowRefs c rows) m)) := by
  by_cases hn : c.maxRows < 2 ^ 16
  swap
  · have hnone : clockSelector c m T = none := by
      simp [clockSelector, bigTableOf_none hf ht hn]
    rw [hnone]
    constructor
    · rintro ⟨_, _, hsel, -⟩
      cases hsel
    · intro hcond
      exact absurd hcond.1 hn
  obtain ⟨hbig, hw⟩ := bigTable_of_forest hf hn ht
  obtain ⟨m', frame, hsel, hcases⟩ := clockSelector_eq hbig hw hh
  generalize htab : tableOf (rowRefs c rows) m = t at hp hcases ⊢
  obtain ⟨i, hi, hpi⟩ := hp
  obtain ⟨j, js, hps⟩ : ∃ j js, presentRing (totalRows c) m.clock t = j :: js :=
    List.exists_cons_of_ne_nil (List.ne_nil_of_mem ((mem_presentRing hh).mpr ⟨hi, hpi⟩))
  have huse : ∀ i < totalRows c, (tableOf (rowRefs c rows) m' i).use =
      codeUse (totalRows c) m.clock t i := by
    intro i hi
    rcases hcases with ⟨v, hfound, -, -, htable⟩ | ⟨hfound, -, -, hreset⟩
    · rw [htable, codeUse, hfound]
    · rw [hreset i hi, codeUse, hfound]
  simp only [hsel, Option.some.injEq, Prod.mk.injEq, hn, true_and]
  rw [hps]
  constructor
  · rintro ⟨_, _, ⟨rfl, rfl⟩, u, v, hc, -, -, hbits⟩
    by_contra hfirst
    obtain ⟨k, hk, hne⟩ := codeClock_differs hh hps hfirst hc
    obtain ⟨hlt, hpk⟩ := (mem_presentRing hh).mp hk
    rw [← huse k hlt] at hne
    exact hne (hbits k hlt hpk)
  · intro hfirst
    obtain ⟨v, hv, hfound, hc⟩ := codeClock_agrees hh hps hfirst
    rcases hcases with ⟨w, hfound', hframe, hhand, htable⟩ | ⟨hnone, -⟩
    · obtain rfl : v = w := by simpa [hfound] using hfound'
      refine ⟨m', frame, ⟨rfl, rfl⟩, _, v, hc, hframe, ?_, fun i hi hpres => by rw [htable]⟩
      rw [hhand, nextHand_eq hv]
    · rw [hfound] at hnone
      cases hnone

def twoFaults : List Request :=
  [.memoryInit 1 0 goodOs, .frame 1 0 0 goodOs goodOs, .frame 1 0 1 goodOs goodOs]

/-- The first page has lost its use bit, and both hands are behind the two pages. -/
def passedBy (m : Memory) : Memory :=
  { m.setRow (0, 0) ⟨0, true, false, false⟩ with clock := 2, improvedClock := 2 }

lemma forest_passedBy (hf : Forest c m) (hr : m.rowAt (0, 0) = some ⟨0, true, true, false⟩) :
    Forest c (passedBy m) :=
  forest_sameRows (forest_sameRows hf (useBits_setRow hr false).rows) (.of_eq id rfl rfl rfl)

/-- The selection goes round the end of the table to the first page. -/
theorem clockSelector_selects_iff_passedBy :
    ∃ m, run (step smallCfg) (onInitMemory smallCfg fun _ => 0) twoFaults = some m ∧
      ∃ m' frame, clockSelector smallCfg (passedBy m) 0 = some (m', frame) ∧
        Selects 4 (tableOf (rowRefs smallCfg [⟨0⟩, ⟨1⟩]) (passedBy m))
          (tableOf (rowRefs smallCfg [⟨0⟩, ⟨1⟩]) m') frame m'.clock (secondChance 4 2) := by
  refine ⟨_, rfl, ?_⟩
  have hr : Reachable (step smallCfg) (onInitMemory smallCfg fun _ => 0) _ := ⟨twoFaults, rfl⟩
  have hf := forest_passedBy (mapped_of_reachable hr).forest rfl
  exact (clockSelector_selects_iff smallCfg _ 0 [⟨0⟩, ⟨1⟩] hf rfl (by decide)
    ⟨0, by decide, rfl⟩).mpr ⟨by decide, .inl rfl⟩

/-- The first process moves the hand to the second row, where the second process has no page. -/
def handAway : List Request :=
  [.memoryInit 1 12 goodOs, .frame 1 0 0 goodOs goodOs, .frame 1 0 1 goodOs goodOs,
    .memoryInit 2 12 goodOs, .frame 2 2 0 goodOs goodOs]

set_option maxRecDepth 40000 in
/-- The frame of the absent row is answered, and it is none, while the page of the process is in
frame 2. -/
theorem not_selects_absent :
    ∃ m m', run (step singleCfg) (onInitMemory singleCfg fun _ => 0) handAway = some m ∧
      m.table1 1 = some [⟨2⟩, ⟨3⟩] ∧ m.rowAt (2, 0) = some ⟨2, true, true, false⟩ ∧
      clockSelector singleCfg m 1 = some (m', invalidFrame) ∧
      ¬ Selects 4 (tableOf (rowRefs singleCfg [⟨2⟩, ⟨3⟩]) m)
        (tableOf (rowRefs singleCfg [⟨2⟩, ⟨3⟩]) m') invalidFrame m'.clock
        (secondChance 4 m.clock) := by
  refine ⟨_, _, rfl, rfl, rfl, rfl, ?_⟩
  rintro ⟨u, j, hc, hframe, -⟩
  obtain ⟨-, rfl⟩ := hc.unique (i := 0) ⟨2, rfl⟩
  cases hframe

/-! ### The enhanced clock -/

lemma look_never_of_miss {hit : PageTableLvl2 → Bool} {js : List ℕ} (hjs : js.Nodup)
    (h : ∀ i ∈ js, hits hit (t i) = false) : look hit never js t = (t, none) := by
  refine (walk_of_miss hjs h).trans (Prod.ext (funext fun i => ?_) rfl)
  simp [passed, never]

lemma codePass_never (hit : PageTableLvl2 → Bool) (hh : h < n) (t : ℕ → PageTableLvl2) :
    codePass hit never never n h t = look hit never (ring n h) t := by
  cases hfound : (look hit never (ring n h) t).2 with
  | some j => rw [codePass, orElse_of_some hfound]
  | none =>
    rcases exists_first (hits hit) (ring n h) t with hall | ⟨pre, j, post, hsplit, hmiss, hhit⟩
    · have hnone := look_never_of_miss (nodup_ring n h) hall
      rw [codePass, orElse_of_none hfound, hnone]
      refine look_never_of_miss (by simp) fun i hi => ?_
      obtain rfl : i = h := by simpa using hi
      exact hall i ((mem_ring (by omega)).mpr hh)
    · have hsome := look_of_hit never (hsplit ▸ nodup_ring n h) hmiss hhit
      rw [hsplit, hsome] at hfound
      cases hfound

/-- The passes that are left when every present row was used: all of them lost their use bit. -/
lemma passes_of_used (hh : h < n)
    (hused : ∀ i < n, (t i).present = true → (t i).use = true) :
    codeImproved n h t =
        (if (t h).present = true ∧ (t h).modified = true then
          (Function.update (allCleared n h t) h (setUse (allCleared n h t h)), some h)
        else look notUsedClean never (ring n h) (allCleared n h t)) ∧
      enhancedClock n h t = (allCleared n h t, none) := by
  have hps : ∀ i ∈ presentRing n h t, (t i).use = true := by
    intro i hi
    obtain ⟨hlt, hpi⟩ := (mem_presentRing hh).mp hi
    exact hused i hlt hpi
  have hclean : look notUsedClean never (ring n h) t = (t, none) := by
    rw [look_ring]
    refine look_never_of_miss (nodup_presentRing n h t) fun i hi => ?_
    simp [hits, notUsedClean, hps i hi]
  have hdirty : look notUsedDirty always (ring n h) t = (allCleared n h t, none) := by
    rw [look_ring, ← passed_always hh]
    refine walk_of_miss (nodup_presentRing n h t) fun i hi => ?_
    simp [hits, notUsedDirty, hps i hi]
  refine ⟨?_, by rw [enhancedClock, hclean, orElse_of_none rfl, hdirty]⟩
  rw [codeImproved, codePass_never _ hh, hclean, orElse_of_none rfl]
  simp only [codePass, hdirty, orElse_of_none]
  -- the row at the hand is visited again
  have hagain : look notUsedDirty always [h] (allCleared n h t) =
      if (t h).present = true ∧ (t h).modified = true then
        (Function.update (allCleared n h t) h (setUse (allCleared n h t h)), some h)
      else (allCleared n h t, none) := by
    cases hp : (t h).present with
    | false => simp [look, walk, hits, passed, hp]
    | true =>
      have huse := allCleared_use ((mem_presentRing hh).mpr ⟨hh, hp⟩)
      have hself : passed always h (allCleared n h t h) = allCleared n h t h := by
        rw [passed, allCleared_present, hp, allCleared, if_pos ((mem_presentRing hh).mpr ⟨hh, hp⟩)]
        simp [always, clearUse]
      cases hmod : (t h).modified <;>
        simp [look, walk, hits, notUsedDirty, hp, hmod, huse, hself]
  rw [hagain]
  split
  · rw [orElse_of_some rfl]
  · rw [orElse_of_none rfl]
    exact codePass_never _ hh _

/-- The condition on the rows: one that is present is unused; or the row at the hand is present
and modified exactly if all present rows are modified. -/
def OneLeft (n h : ℕ) (t : ℕ → PageTableLvl2) : Prop :=
  (∃ i < n, (t i).present = true ∧ (t i).use = false) ∨
    (((t h).present = true ∧ (t h).modified = true) ↔
      ∀ i < n, (t i).present = true → (t i).modified = true)

/-- An unused row is found in the first two passes, which the code and the reference share. -/
lemma codeImproved_of_unused (hh : h < n)
    (hun : ∃ i < n, (t i).present = true ∧ (t i).use = false) :
    ∃ v, v < n ∧ (codeImproved n h t).2 = some v ∧
      Chooses (enhancedClock n h) t (codeImproved n h t).1 v := by
  obtain ⟨i, hi, hpi, hui⟩ := hun
  have hmem : ∀ {v pre post}, ring n h = pre ++ v :: post → v < n := by
    intro v pre post hsplit
    exact (mem_ring (show h ≤ n by omega)).mp (by simp [hsplit])
  rcases exists_first (hits notUsedClean) (ring n h) t with
    hall | ⟨pre, v, post, hsplit, hmiss, hhit⟩
  · have hclean := look_never_of_miss (nodup_ring n h) hall
    rcases exists_first (hits notUsedDirty) (ring n h) t with
      hall' | ⟨pre, v, post, hsplit, hmiss, hhit⟩
    · -- the unused row is clean or dirty
      have hring := (mem_ring (show h ≤ n by omega)).mpr hi
      have h₁ := hall i hring
      have h₂ := hall' i hring
      simp [hits, notUsedClean, notUsedDirty, hpi, hui] at h₁ h₂
      rw [h₁] at h₂
      cases h₂
    · have hdirty := look_of_hit always (hsplit ▸ nodup_ring n h) hmiss hhit
      rw [← hsplit] at hdirty
      have href : enhancedClock n h t = look notUsedDirty always (ring n h) t := by
        rw [enhancedClock, hclean, orElse_of_none rfl]
      have hcode : codeImproved n h t = look notUsedDirty always (ring n h) t := by
        rw [codeImproved, codePass_never _ hh, hclean, orElse_of_none rfl]
        simp only [codePass, hdirty]
        rfl
      rw [hcode]
      exact ⟨v, hmem hsplit, by rw [hdirty], chooses_of_some (by rw [href, hdirty])⟩
  · have hclean := look_of_hit never (hsplit ▸ nodup_ring n h) hmiss hhit
    rw [← hsplit] at hclean
    have href : enhancedClock n h t = look notUsedClean never (ring n h) t := by
      rw [enhancedClock, orElse_of_some (by rw [hclean])]
    have hcode : codeImproved n h t = look notUsedClean never (ring n h) t := by
      rw [codeImproved, codePass_never _ hh, orElse_of_some (by rw [hclean])]
    rw [hcode]
    exact ⟨v, hmem hsplit, by rw [hclean], chooses_of_some (by rw [href, hclean])⟩

/-- Behind a row that is present, used and modified, as all are, the reference takes the first. -/
lemma enhancedClock_modified {js : List ℕ} (hh : h < n) (hps : presentRing n h t = j :: js)
    (hused : ∀ i < n, (t i).present = true → (t i).use = true)
    (hmod : ∀ i < n, (t i).present = true → (t i).modified = true) :
    look notUsedClean never (ring n h) (allCleared n h t) = (allCleared n h t, none) ∧
      Chooses (enhancedClock n h) t
        (Function.update (allCleared n h t) j (setUse (allCleared n h t j))) j := by
  have hclean : look notUsedClean never (ring n h) (allCleared n h t) =
      (allCleared n h t, none) := by
    rw [look_ring, presentRing_allCleared]
    refine look_never_of_miss (nodup_presentRing n h t) fun i hi => ?_
    obtain ⟨hlt, hp⟩ := (mem_presentRing hh).mp hi
    simp [hits, notUsedClean, hmod i hlt hp]
  have hj : j ∈ presentRing n h t := hps ▸ List.mem_cons_self
  obtain ⟨hlt, hp⟩ := (mem_presentRing hh).mp hj
  have hdirty := look_head notUsedDirty always
    ((presentRing_allCleared n h t).trans hps)
    (by simp [hits, notUsedDirty, hp, hmod j hlt hp, allCleared_use hj])
  refine ⟨hclean, (chooses_of_some ?_).of_none (passes_of_used hh hused).2⟩
  rw [enhancedClock, hclean, orElse_of_none rfl, hdirty]

/-- Otherwise it takes the first row that is not modified. -/
lemma enhancedClock_clean (hh : h < n)
    (hused : ∀ i < n, (t i).present = true → (t i).use = true)
    (hclean : ∃ i < n, (t i).present = true ∧ (t i).modified = false) :
    ∃ v, v < n ∧ (t v).modified = false ∧
      look notUsedClean never (ring n h) (allCleared n h t) =
        (Function.update (allCleared n h t) v (setUse (allCleared n h t v)), some v) ∧
      Chooses (enhancedClock n h) t
        (Function.update (allCleared n h t) v (setUse (allCleared n h t v))) v := by
  obtain ⟨i, hi, hpi, hmi⟩ := hclean
  rcases exists_first (hits notUsedClean) (ring n h) (allCleared n h t) with
    hall | ⟨pre, v, post, hsplit, hmiss, hhit⟩
  · have hmem : i ∈ presentRing n h t := (mem_presentRing hh).mpr ⟨hi, hpi⟩
    have hnot := hall i ((mem_ring (by omega)).mpr hi)
    simp [hits, notUsedClean, hpi, hmi, allCleared_use hmem] at hnot
  have hv : v ∈ ring n h := by simp [hsplit]
  have hround := look_of_hit never (hsplit ▸ nodup_ring n h) hmiss hhit
  have htable : (fun i => if i = v then setUse (allCleared n h t v)
      else if i ∈ pre then passed never i (allCleared n h t i) else allCleared n h t i) =
      Function.update (allCleared n h t) v (setUse (allCleared n h t v)) := by
    funext i
    by_cases hi : i = v
    · subst hi
      simp
    · simp [hi, passed, never]
  rw [← hsplit, htable] at hround
  refine ⟨v, (mem_ring (by omega)).mp hv, ?_, hround,
    (chooses_of_some ?_).of_none (passes_of_used hh hused).2⟩
  · simp only [hits, notUsedClean, Bool.and_eq_true, Bool.not_eq_true', allCleared_modified]
      at hhit
    exact hhit.2.2
  · rw [enhancedClock, orElse_of_some (by rw [hround]), hround]

lemma codeImproved_agrees (hh : h < n) (hleft : OneLeft n h t) :
    ∃ v, v < n ∧ (codeImproved n h t).2 = some v ∧
      Chooses (enhancedClock n h) t (codeImproved n h t).1 v := by
  by_cases hun : ∃ i < n, (t i).present = true ∧ (t i).use = false
  · exact codeImproved_of_unused hh hun
  have hused : ∀ i < n, (t i).present = true → (t i).use = true := by
    intro i hi hp
    by_contra huse
    exact hun ⟨i, hi, hp, by simpa using huse⟩
  have hiff := hleft.resolve_left hun
  rw [(passes_of_used hh hused).1]
  by_cases hmod : ∀ i < n, (t i).present = true → (t i).modified = true
  · -- all are modified: the row at the hand is the first
    have hhand := hiff.mpr hmod
    obtain ⟨js', hps'⟩ := head_presentRing hh hhand.1
    rw [if_pos hhand]
    exact ⟨h, hh, rfl, (enhancedClock_modified hh hps' hused hmod).2⟩
  · have hclean : ∃ i < n, (t i).present = true ∧ (t i).modified = false := by
      simpa using hmod
    obtain ⟨v, hv, -, hlook, hc⟩ := enhancedClock_clean hh hused hclean
    rw [if_neg (mt hiff.mp hmod), hlook]
    exact ⟨v, hv, rfl, hc⟩

lemma codeImproved_differs {js : List ℕ} (hh : h < n) (hps : presentRing n h t = j :: js)
    (hleft : ¬ OneLeft n h t) {u : ℕ → PageTableLvl2} {v : ℕ}
    (hc : Chooses (enhancedClock n h) t u v) :
    ∃ i ∈ presentRing n h t, ((codeImproved n h t).1 i).use ≠ (u i).use := by
  obtain ⟨hun, hiff⟩ := not_or.mp hleft
  have hused : ∀ i < n, (t i).present = true → (t i).use = true := by
    intro i hi hp
    by_contra huse
    exact hun ⟨i, hi, hp, by simpa using huse⟩
  rw [(passes_of_used hh hused).1]
  by_cases hmod : ∀ i < n, (t i).present = true → (t i).modified = true
  · -- all are modified and the row at the hand is absent: nothing is taken
    obtain ⟨hlook, hc'⟩ := enhancedClock_modified hh hps hused hmod
    obtain ⟨rfl, rfl⟩ := hc.unique hc'
    have hhand : ¬ ((t h).present = true ∧ (t h).modified = true) :=
      fun hhand => hiff ⟨fun _ => hmod, fun _ => hhand⟩
    have hv : v ∈ presentRing n h t := hps ▸ List.mem_cons_self
    refine ⟨v, hv, ?_⟩
    rw [if_neg hhand, hlook, allCleared_use hv, Function.update_self]
    simp [setUse]
  · -- the row at the hand is taken although a row is not modified
    have hclean : ∃ i < n, (t i).present = true ∧ (t i).modified = false := by
      simpa using hmod
    obtain ⟨w, -, hw, -, hc'⟩ := enhancedClock_clean hh hused hclean
    obtain ⟨rfl, rfl⟩ := hc.unique hc'
    have hhand : (t h).present = true ∧ (t h).modified = true := by
      by_contra hhand
      exact hiff ⟨fun hp => absurd hp hhand, fun hall => absurd hall hmod⟩
    have hmem : h ∈ presentRing n h t := (mem_presentRing hh).mpr ⟨hh, hhand.1⟩
    have hne : h ≠ v := by
      rintro rfl
      rw [hhand.2] at hw
      cases hw
    refine ⟨h, hmem, ?_⟩
    rw [if_pos hhand, Function.update_of_ne hne, allCleared_use hmem]
    simp [setUse]

/-- **Enhanced clock.** `improved_clock_selector` yields a victim, and selects as the reference
does, if and only if the product of `max_rows` with itself fits in 32 bits and some present row is
unused, or the row at the hand is present and modified exactly if all present rows are modified. -/
theorem improvedClockSelector_selects_iff (c : Cfg) (m : Memory) (T : ℕ)
    (rows : List PageTableLvl1) (hf : Forest c m) (ht : m.table1 T = some rows)
    (hh : m.improvedClock < totalRows c)
    (hp : ∃ i < totalRows c, (tableOf (rowRefs c rows) m i).present = true) :
    (∃ m' frame, improvedClockSelector c m T = some (m', frame) ∧
      Selects (totalRows c) (tableOf (rowRefs c rows) m) (tableOf (rowRefs c rows) m') frame
        m'.improvedClock (enhancedClock (totalRows c) m.improvedClock)) ↔
    c.maxRows < 2 ^ 16 ∧
      OneLeft (totalRows c) m.improvedClock (tableOf (rowRefs c rows) m) := by
  by_cases hn : c.maxRows < 2 ^ 16
  swap
  · have hnone : improvedClockSelector c m T = none := by
      simp [improvedClockSelector, bigTableOf_none hf ht hn]
    rw [hnone]
    constructor
    · rintro ⟨_, _, hsel, -⟩
      cases hsel
    · intro hcond
      exact absurd hcond.1 hn
  obtain ⟨hbig, hw⟩ := bigTable_of_forest hf hn ht
  obtain ⟨m', frame, hsel, htable, hcases⟩ := improvedClockSelector_eq hbig hw hh
  generalize htab : tableOf (rowRefs c rows) m = t at hp htable hcases ⊢
  obtain ⟨i, hi, hpi⟩ := hp
  obtain ⟨j, js, hps⟩ : ∃ j js, presentRing (totalRows c) m.improvedClock t = j :: js :=
    List.exists_cons_of_ne_nil (List.ne_nil_of_mem ((mem_presentRing hh).mpr ⟨hi, hpi⟩))
  simp only [hsel, Option.some.injEq, Prod.mk.injEq, hn, true_and]
  constructor
  · rintro ⟨_, _, ⟨rfl, rfl⟩, u, v, hc, -, -, hbits⟩
    by_contra hleft
    obtain ⟨k, hk, hne⟩ := codeImproved_differs hh hps hleft hc
    obtain ⟨hlt, hpk⟩ := (mem_presentRing hh).mp hk
    rw [← htable] at hne
    exact hne (hbits k hlt hpk)
  · intro hleft
    obtain ⟨v, hv, hfound, hc⟩ := codeImproved_agrees hh hleft
    rw [hfound] at hcases
    refine ⟨m', frame, ⟨rfl, rfl⟩, _, v, hc, hcases.1, ?_, fun i hi hpres => by rw [htable]⟩
    rw [hcases.2, nextHand_eq hv]

def smallClockM : Cfg := { smallCfg with algoritmoReemplazo := .clockM }

/-- The second page is used, the first one is not, and it is behind the end of the table. -/
theorem improvedClockSelector_selects_iff_passedBy :
    ∃ m, run (step smallClockM) (onInitMemory smallClockM fun _ => 0) twoFaults = some m ∧
      ∃ m' frame, improvedClockSelector smallClockM (passedBy m) 0 = some (m', frame) ∧
        Selects 4 (tableOf (rowRefs smallClockM [⟨0⟩, ⟨1⟩]) (passedBy m))
          (tableOf (rowRefs smallClockM [⟨0⟩, ⟨1⟩]) m') frame m'.improvedClock
          (enhancedClock 4 2) := by
  refine ⟨_, rfl, ?_⟩
  have hr : Reachable (step smallClockM) (onInitMemory smallClockM fun _ => 0) _ :=
    ⟨twoFaults, rfl⟩
  have hf := forest_passedBy (mapped_of_reachable hr).forest rfl
  exact (improvedClockSelector_selects_iff smallClockM _ 0 [⟨0⟩, ⟨1⟩] hf rfl (by decide)
    ⟨0, by decide, rfl⟩).mpr ⟨by decide, .inl ⟨0, by decide, rfl, rfl⟩⟩

def singleClockM : Cfg := { singleCfg with algoritmoReemplazo := .clockM }

set_option maxRecDepth 40000 in
/-- The hand is at an absent row, and the only present page was written: no frame is answered. -/
theorem not_selects_written :
    ∃ m m', run (step singleClockM) (onInitMemory singleClockM fun _ => 0)
        (handAway ++ [.wt 16 7]) = some m ∧
      m.table1 1 = some [⟨2⟩, ⟨3⟩] ∧ m.rowAt (2, 0) = some ⟨2, true, true, true⟩ ∧
      improvedClockSelector singleClockM m 1 = some (m', invalidFrame) ∧
      ¬ Selects 4 (tableOf (rowRefs singleClockM [⟨2⟩, ⟨3⟩]) m)
        (tableOf (rowRefs singleClockM [⟨2⟩, ⟨3⟩]) m') invalidFrame m'.improvedClock
        (enhancedClock 4 m.improvedClock) := by
  refine ⟨_, _, rfl, rfl, rfl, rfl, ?_⟩
  rintro ⟨u, j, hc, hframe, -⟩
  obtain ⟨-, rfl⟩ := hc.unique (i := 0) ⟨2, rfl⟩
  cases hframe

end Sski.Mem.SecondChance
