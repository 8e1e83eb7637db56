import Sski.Mem.Frames

/-!
Which row a replacement algorithm takes.

The rows of a process are numbered as its big table lists them. A selector takes a row that is
present, except when the row at its hand is absent and every row that is present is `hard`:
used, and for the improved clock used and modified.
-/

namespace Sski.Mem.Selection

open Sski.Lib.Slots Sski.Mem.MemoryModule Sski.Mem.PageTable Sski.Mem.Algorithms
open Sski.Mem.Tables Sski.Mem.Rows Sski.Mem.Frames

variable {c : Cfg} {m m' : Memory} {bigTable : List RowRef}

def rowIx (bigTable : List RowRef) (m : Memory) (j : ℕ) : Option PageTableLvl2 := do
  let p ← bigTable[j]?
  m.rowAt p

lemma rowIx_eq_some_iff {j : ℕ} {r : PageTableLvl2} :
    rowIx bigTable m j = some r ↔ ∃ p, bigTable[j]? = some p ∧ m.rowAt p = some r := by
  simp [rowIx, Option.bind_eq_some_iff]

lemma rowIx_lt {j : ℕ} {r : PageTableLvl2} (h : rowIx bigTable m j = some r) :
    j < bigTable.length := by
  obtain ⟨p, hp, -⟩ := rowIx_eq_some_iff.mp h
  exact (List.getElem?_eq_some_iff.mp hp).1

/-- Different indices point at different rows, so a write is seen at its index only. -/
lemma rowIx_setRow (hnodup : bigTable.Nodup) {j : ℕ} {p : RowRef} {r₀ : PageTableLvl2}
    (hp : bigTable[j]? = some p) (hr : m.rowAt p = some r₀) (r : PageTableLvl2) (i : ℕ) :
    rowIx bigTable (m.setRow p r) i = if i = j then some r else rowIx bigTable m i := by
  by_cases hij : i = j
  · subst hij
    rw [if_pos rfl, rowIx_eq_some_iff]
    exact ⟨p, hp, by rw [Memory.rowAt_setRow r hr, if_pos rfl]⟩
  · rw [if_neg hij]
    unfold rowIx
    cases hq : bigTable[i]? with
    | none => rfl
    | some q =>
      have hne : q ≠ p := by
        rintro rfl
        obtain ⟨hi, hgi⟩ := List.getElem?_eq_some_iff.mp hq
        obtain ⟨hj, hgj⟩ := List.getElem?_eq_some_iff.mp hp
        exact hij ((List.Nodup.getElem_inj_iff hnodup).mp (hgi.trans hgj.symm))
      simp only [Option.bind_eq_bind, Option.bind_some]
      rw [Memory.rowAt_setRow r hr, if_neg hne]

/-! ### One loop -/

/-- A present row loses its use bit where `b` holds. -/
def touch (b : Prop) [Decidable b] (r : PageTableLvl2) : PageTableLvl2 :=
  if b ∧ r.present = true then { r with use := false } else r

@[simp] lemma touch_present (b : Prop) [Decidable b] (r : PageTableLvl2) :
    (touch b r).present = r.present := by
  unfold touch; split <;> rfl

@[simp] lemma touch_frame (b : Prop) [Decidable b] (r : PageTableLvl2) :
    (touch b r).frame = r.frame := by
  unfold touch; split <;> rfl

@[simp] lemma touch_modified (b : Prop) [Decidable b] (r : PageTableLvl2) :
    (touch b r).modified = r.modified := by
  unfold touch; split <;> rfl

lemma touch_congr {b b' : Prop} [Decidable b] [Decidable b'] (h : b ↔ b') (r : PageTableLvl2) :
    touch b r = touch b' r := by
  by_cases hb : b
  · simp only [touch, hb, h.mp hb]
  · simp only [touch, hb, mt h.mpr hb]

lemma touch_of_not {b : Prop} [Decidable b] (h : ¬ b) (r : PageTableLvl2) : touch b r = r := by
  simp [touch, h]

lemma touch_of_absent (b : Prop) [Decidable b] {r : PageTableLvl2} (h : r.present = false) :
    touch b r = r := by
  simp [touch, h]

/-- What a loop took: a present row, at one of its indices. -/
def Took (bigTable : List RowRef) (m : Memory) (j frame : ℕ) : Prop :=
  ∃ r, rowIx bigTable m j = some r ∧ r.present = true ∧ r.frame = frame

lemma scan_cases (hnodup : bigTable.Nodup) (hit : PageTableLvl2 → Bool) (clear : ℕ → Bool)
    {js : List ℕ} (hjs : js.Nodup) (hall : ∀ j ∈ js, (rowIx bigTable m j).isSome) :
    (∃ m' j frame, scan bigTable hit clear js m = some (m', some (j, frame)) ∧
      Took bigTable m j frame) ∨
    (∃ m', scan bigTable hit clear js m = some (m', none) ∧
      ∀ j r, rowIx bigTable m j = some r →
        rowIx bigTable m' j = some (touch (j ∈ js ∧ clear j = true) r) ∧
        (j ∈ js → r.present = true → hit r = false)) := by
  induction js generalizing m with
  | nil => exact .inr ⟨m, rfl, fun j r hr => ⟨by simpa [touch] using hr, by simp⟩⟩
  | cons j js ih =>
    obtain ⟨hj, hjs'⟩ := List.nodup_cons.mp hjs
    obtain ⟨r, hr⟩ := Option.isSome_iff_exists.mp (hall j List.mem_cons_self)
    obtain ⟨p, hp, hrow⟩ := rowIx_eq_some_iff.mp hr
    -- what the rest of the loop does, if this row is left as `r'`
    have hrest : ∀ r' : PageTableLvl2, r' = touch (clear j = true) r →
        (r.present = true → hit r = false) →
        scan bigTable hit clear (j :: js) m = scan bigTable hit clear js (m.setRow p r') →
        (∃ m' j' frame, scan bigTable hit clear (j :: js) m = some (m', some (j', frame)) ∧
          Took bigTable m j' frame) ∨
        (∃ m', scan bigTable hit clear (j :: js) m = some (m', none) ∧
          ∀ j' s, rowIx bigTable m j' = some s →
            rowIx bigTable m' j' = some (touch (j' ∈ j :: js ∧ clear j' = true) s) ∧
            (j' ∈ j :: js → s.present = true → hit s = false)) := by
      intro r' hr' hmiss heq
      have hset := rowIx_setRow hnodup hp hrow r'
      rw [heq]
      rcases ih (m := m.setRow p r') hjs' (fun i hi => by
          rw [hset, if_neg (by rintro rfl; exact hj hi)]
          exact hall i (List.mem_cons_of_mem _ hi)) with
        ⟨m', j', frame, hscan, s, hs, hpres, hframe⟩ | ⟨m', hscan, hnone⟩
      · refine .inl ⟨m', j', frame, hscan, ?_⟩
        rw [hset] at hs
        split at hs
        · rename_i hjj
          obtain rfl := Option.some.inj hs
          subst hjj
          rw [hr', touch_present] at hpres
          exact ⟨r, hr, hpres, by rw [← hframe, hr', touch_frame]⟩
        · exact ⟨s, hs, hpres, hframe⟩
      · refine .inr ⟨m', hscan, fun j' s hs => ?_⟩
        by_cases hjj : j' = j
        · subst hjj
          obtain rfl : r = s := by simpa [hr] using hs
          have hfinal := (hnone j' r' (by rw [hset, if_pos rfl])).1
          rw [touch_of_not (by simp [hj]), hr'] at hfinal
          refine ⟨by simpa using hfinal, fun _ hpres => hmiss hpres⟩
        · obtain ⟨hfinal, hhit⟩ := hnone j' s (by rw [hset, if_neg hjj, hs])
          refine ⟨?_, ?_⟩
          · simpa [hjj] using hfinal
          · intro hmem
            exact hhit ((List.mem_cons.mp hmem).resolve_left hjj)
    have hstep : scan bigTable hit clear (j :: js) m =
        if r.present then
          if hit r then some (m.setRow p { r with use := true }, some (j, r.frame))
          else if clear j then scan bigTable hit clear js (m.setRow p { r with use := false })
          else scan bigTable hit clear js m
        else scan bigTable hit clear js m := by
      simp [scan, hp, hrow]
    have hsame : m.setRow p r = m := Memory.setRow_self r hrow
    by_cases hpres : r.present = true
    · by_cases hhit : hit r = true
      · exact .inl ⟨_, j, r.frame, by rw [hstep, if_pos hpres, if_pos hhit],
          r, hr, hpres, rfl⟩
      · refine hrest (touch (clear j = true) r) rfl (fun _ => by simpa using hhit) ?_
        rw [hstep, if_pos hpres, if_neg hhit]
        by_cases hclear : clear j = true
        · simp [touch, hclear, hpres]
        · rw [if_neg hclear, touch_of_not hclear, hsame]
    · have habsent : r.present = false := by simpa using hpres
      refine hrest (touch (clear j = true) r) rfl (fun h => absurd h hpres) ?_
      rw [hstep, if_neg hpres, touch_of_absent _ habsent, hsame]

/-! ### A pass -/

/-- A pass takes a present row, or visits every row without a match, the hand twice. -/
lemma pass_cases (hnodup : bigTable.Nodup) (hit : PageTableLvl2 → Bool) (clear clear' : ℕ → Bool)
    {hand : ℕ} (hhand : hand < bigTable.length)
    (hall : ∀ j < bigTable.length, (rowIx bigTable m j).isSome) :
    (∃ m' j frame, pass bigTable hit clear clear' bigTable.length hand m =
        some (m', some (j, frame)) ∧ Took bigTable m j frame) ∨
    (∃ m', pass bigTable hit clear clear' bigTable.length hand m = some (m', none) ∧
      ∀ j r, rowIx bigTable m j = some r → ∃ r₁, r₁ = touch (hand ≤ j ∧ clear j = true) r ∧
        rowIx bigTable m' j = some (touch (j ≤ hand ∧ clear' j = true) r₁) ∧
        (hand ≤ j → r.present = true → hit r = false) ∧
        (j ≤ hand → r.present = true → hit r₁ = false)) := by
  have hmem : ∀ j, j < bigTable.length →
      (j ∈ List.range' hand (bigTable.length - hand) ↔ hand ≤ j) := by
    intro j hj
    rw [List.mem_range'_1]
    omega
  have hjs : (List.range' hand (bigTable.length - hand)).Nodup := List.nodup_range'
  rcases scan_cases hnodup hit clear hjs
      (fun j hj => hall j (by rw [List.mem_range'_1] at hj; omega)) with
    ⟨m₁, j, frame, hscan, htook⟩ | ⟨m₁, hscan, hnone⟩
  · refine .inl ⟨m₁, j, frame, ?_, htook⟩
    simp [Algorithms.pass, hscan]
  have hrow₁ : ∀ j r, rowIx bigTable m j = some r →
      rowIx bigTable m₁ j = some (touch (hand ≤ j ∧ clear j = true) r) := by
    intro j r hr
    have h := (hnone j r hr).1
    rwa [touch_congr (by rw [hmem j (rowIx_lt hr)])] at h
  have hall₁ : ∀ j ∈ List.range (hand + 1), (rowIx bigTable m₁ j).isSome := by
    intro j hj
    rw [List.mem_range] at hj
    obtain ⟨r, hr⟩ := Option.isSome_iff_exists.mp (hall j (by omega))
    rw [hrow₁ j r hr]
    rfl
  have hpass : pass bigTable hit clear clear' bigTable.length hand m =
      scan bigTable hit clear' (List.range (hand + 1)) m₁ := by
    simp [Algorithms.pass, hscan]
  rcases scan_cases hnodup hit clear' List.nodup_range hall₁ with
    ⟨m₂, j, frame, hscan₂, r₁, hr₁, hpres, hframe⟩ | ⟨m₂, hscan₂, hnone₂⟩
  · refine .inl ⟨m₂, j, frame, hpass.trans hscan₂, ?_⟩
    obtain ⟨r, hr⟩ := Option.isSome_iff_exists.mp (hall j (rowIx_lt hr₁))
    rw [hrow₁ j r hr, Option.some.injEq] at hr₁
    exact ⟨r, hr, by rw [← hpres, ← hr₁, touch_present], by rw [← hframe, ← hr₁, touch_frame]⟩
  · refine .inr ⟨m₂, hpass.trans hscan₂, fun j r hr => ⟨_, rfl, ?_, ?_, ?_⟩⟩
    · have h := (hnone₂ j _ (hrow₁ j r hr)).1
      rwa [touch_congr (by rw [List.mem_range, Nat.lt_succ_iff])] at h
    · intro hj
      exact (hnone j r hr).2 ((hmem j (rowIx_lt hr)).mpr hj)
    · intro hj hpres
      refine (hnone₂ j _ (hrow₁ j r hr)).2 (by rw [List.mem_range]; omega) ?_
      rw [touch_present]
      exact hpres

lemma pass_never_cases (hnodup : bigTable.Nodup) (hit : PageTableLvl2 → Bool) {hand : ℕ}
    (hhand : hand < bigTable.length)
    (hall : ∀ j < bigTable.length, (rowIx bigTable m j).isSome) :
    (∃ m' j frame, pass bigTable hit never never bigTable.length hand m =
        some (m', some (j, frame)) ∧ Took bigTable m j frame) ∨
    (∃ m', pass bigTable hit never never bigTable.length hand m = some (m', none) ∧
      ∀ j r, rowIx bigTable m j = some r →
        rowIx bigTable m' j = some r ∧ (r.present = true → hit r = false)) := by
  rcases pass_cases hnodup hit never never hhand hall with h | ⟨m', hpass, hnone⟩
  · exact .inl h
  · refine .inr ⟨m', hpass, fun j r hr => ?_⟩
    obtain ⟨r₁, hr₁, hr', hlow, hhigh⟩ := hnone j r hr
    rw [touch_of_not (by simp [never])] at hr₁
    subst hr₁
    rw [touch_of_not (by simp [never])] at hr'
    refine ⟨hr', fun hpres => ?_⟩
    rcases Nat.le_total hand j with hj | hj
    · exact hlow hj hpres
    · exact hhigh hj hpres

/-! ### The selectors -/

lemma resetUse_isSome {l : List RowRef} (h : ∀ p ∈ l, (m.rowAt p).isSome) :
    ∃ m', resetUse l m = some m' := by
  induction l generalizing m with
  | nil => exact ⟨m, rfl⟩
  | cons p ps ih =>
    obtain ⟨r, hr⟩ := Option.isSome_iff_exists.mp (h p List.mem_cons_self)
    have hmod : m.modifyRow p (fun row => { row with use := false }) =
        some (m.setRow p { r with use := false }) := by
      simp [Memory.modifyRow, hr]
    obtain ⟨m', hm'⟩ := ih (m := m.setRow p { r with use := false }) (fun q hq => by
      rw [Memory.rowAt_setRow _ hr]
      split
      · rfl
      · exact h q (List.mem_cons_of_mem _ hq))
    exact ⟨m', by rw [resetUse, List.foldlM_cons, hmod]; exact hm'⟩

/-- A present row that is not taken, unless the hand is at it. -/
def hard (c : Cfg) (r : PageTableLvl2) : Bool :=
  match c.algoritmoReemplazo with
  | .clock => r.use
  | .clockM => r.use && r.modified

/-- No row can be taken: the hand is at an absent row, and every present row is hard. -/
def Stuck (c : Cfg) (bigTable : List RowRef) (hand : ℕ) (m : Memory) : Prop :=
  ∀ j r, rowIx bigTable m j = some r → r.present = true → j ≠ hand ∧ hard c r = true

/-- The pointers of the big table are different, lead to rows, and are as many as the row
count says. -/
structure Whole (c : Cfg) (m : Memory) (bigTable : List RowRef) : Prop where
  nodup : bigTable.Nodup
  rows : ∀ j < bigTable.length, (rowIx bigTable m j).isSome
  length : bigTable.length = totalRows c

lemma clockSelector_cases {tableIndex : ℕ} (hbig : bigTableOf c m tableIndex = some bigTable)
    (hw : Whole c m bigTable) (hhand : m.clock < totalRows c)
    (halg : c.algoritmoReemplazo = .clock) :
    (∃ m' j frame, clockSelector c m tableIndex = some (m', frame) ∧ Took bigTable m j frame) ∨
    (Stuck c bigTable m.clock m ∧ ∃ m' r, clockSelector c m tableIndex = some (m', r.frame) ∧
      rowIx bigTable m m.clock = some r) := by
  rw [← hw.length] at hhand
  rcases pass_cases hw.nodup notUsed (· == m.clock) never hhand hw.rows with
    ⟨m₁, j, frame, hpass, htook⟩ | ⟨m₁, hpass, hnone⟩
  · refine .inl ⟨{ m₁ with clock := nextHand (totalRows c) j }, j, frame, ?_, htook⟩
    simp only [clockSelector, hbig, Option.bind_eq_bind, Option.bind_some, ← hw.length, hpass,
      Option.pure_def]
  refine .inr ⟨fun j r hr hpres => ?_, ?_⟩
  · -- the hand's row is cleared, so it is taken when it is visited again
    obtain ⟨r₁, rfl, -, hhigh, hlow⟩ := hnone j r hr
    have hne : j ≠ m.clock := by
      rintro rfl
      have := hlow (Nat.le_refl _) hpres
      simp [touch, hpres, notUsed] at this
    refine ⟨hne, ?_⟩
    simp only [hard, halg]
    rcases Nat.lt_or_ge j m.clock with hj | hj
    · have := hlow (by omega) hpres
      rw [touch_of_not (by simp [hne])] at this
      simpa [notUsed] using this
    · simpa [notUsed] using hhigh hj hpres
  · -- nothing was taken: the row at the hand is
    obtain ⟨r, hr⟩ := Option.isSome_iff_exists.mp (hw.rows _ hhand)
    have hrows₁ : ∀ p ∈ bigTable, (m₁.rowAt p).isSome := by
      intro p hp
      obtain ⟨j, hj⟩ := List.mem_iff_getElem?.mp hp
      obtain ⟨hlt, -⟩ := List.getElem?_eq_some_iff.mp hj
      obtain ⟨s, hs⟩ := Option.isSome_iff_exists.mp (hw.rows j hlt)
      obtain ⟨s₁, -, hs', -, -⟩ := hnone j s hs
      obtain ⟨q, hq, hrow⟩ := rowIx_eq_some_iff.mp hs'
      obtain rfl : p = q := by simpa [hj] using hq
      rw [hrow]
      rfl
    obtain ⟨m₂, hreset⟩ := resetUse_isSome hrows₁
    obtain ⟨p, hp, hrow⟩ := rowIx_eq_some_iff.mp hr
    have huse := ((useBits_pass hpass).trans (useBits_resetUse hreset)).rows
    obtain ⟨r₂, hrow₂, hsame⟩ := huse.rowAt_some hrow
    have hframe := congrArg PageTableLvl2.frame hsame
    simp only [unused] at hframe
    refine ⟨{ m₂.setRow p { r₂ with use := true } with
      clock := if m.clock + 1 ≤ totalRows c then 0 else m.clock + 1 }, r, ?_, hr⟩
    rw [← hframe]
    simp only [clockSelector, hbig, Option.bind_eq_bind, Option.bind_some, ← hw.length, hpass,
      hreset, hp, hrow₂, Option.pure_def]

lemma Whole.of_rows (hw : Whole c m bigTable) (h : ∀ j r, rowIx bigTable m j = some r →
    ∃ r', rowIx bigTable m' j = some r') : Whole c m' bigTable := by
  refine ⟨hw.nodup, fun j hj => ?_, hw.length⟩
  obtain ⟨r, hr⟩ := Option.isSome_iff_exists.mp (hw.rows j hj)
  exact Option.isSome_iff_exists.mpr (h j r hr)

lemma improvedClockSelector_cases {tableIndex : ℕ}
    (hbig : bigTableOf c m tableIndex = some bigTable) (hw : Whole c m bigTable)
    (hhand : m.improvedClock < totalRows c) (halg : c.algoritmoReemplazo = .clockM) :
    (∃ m' j frame, improvedClockSelector c m tableIndex = some (m', frame) ∧
      Took bigTable m j frame) ∨
    (Stuck c bigTable m.improvedClock m ∧ ∃ m',
      improvedClockSelector c m tableIndex = some (m', invalidFrame)) := by
  rw [← hw.length] at hhand
  rcases pass_never_cases hw.nodup notUsedClean hhand hw.rows with
    ⟨m₁, j, frame, h₁, htook⟩ | ⟨m₁, h₁, hnone₁⟩ <;> rw [hw.length] at h₁
  · refine .inl ⟨{ m₁ with improvedClock := nextHand (totalRows c) j }, j, frame, ?_, htook⟩
    simp only [improvedClockSelector, hbig, h₁, Option.bind_eq_bind, Option.bind_some,
      Option.pure_def]
  have hw₁ : Whole c m₁ bigTable := hw.of_rows fun j r hr => ⟨r, (hnone₁ j r hr).1⟩
  have hback₁ : ∀ j r, rowIx bigTable m₁ j = some r → rowIx bigTable m j = some r := by
    intro j r hr
    obtain ⟨s, hs⟩ := Option.isSome_iff_exists.mp (hw.rows j (rowIx_lt hr))
    rw [(hnone₁ j s hs).1, Option.some.injEq] at hr
    rw [hs, hr]
  rcases pass_cases hw₁.nodup notUsedDirty always always hhand hw₁.rows with
    ⟨m₂, j, frame, h₂, r, hr, hpres, hframe⟩ | ⟨m₂, h₂, hnone₂⟩ <;> rw [hw.length] at h₂
  · refine .inl ⟨{ m₂ with improvedClock := nextHand (totalRows c) j }, j, frame, ?_, r,
      hback₁ j r hr, hpres, hframe⟩
    simp only [improvedClockSelector, hbig, h₁, h₂, Option.bind_eq_bind, Option.bind_some,
      Option.pure_def]
  have hw₂ : Whole c m₂ bigTable := hw₁.of_rows fun j r hr => by
    obtain ⟨r₁, -, hr₂, -, -⟩ := hnone₂ j r hr
    exact ⟨_, hr₂⟩
  rcases pass_never_cases hw₂.nodup notUsedClean hhand hw₂.rows with
    ⟨m₃, j, frame, h₃, r₂, hr₂, hpres, hframe⟩ | ⟨m₃, h₃, hnone₃⟩ <;> rw [hw.length] at h₃
  · obtain ⟨r, hr⟩ := Option.isSome_iff_exists.mp (hw₁.rows j (rowIx_lt hr₂))
    obtain ⟨r₁, rfl, hr₂', -, -⟩ := hnone₂ j r hr
    obtain rfl : _ = r₂ := by simpa [hr₂'] using hr₂
    refine .inl ⟨{ m₃ with improvedClock := nextHand (totalRows c) j }, j, frame, ?_, r,
      hback₁ j r hr, by simpa using hpres, by simpa using hframe⟩
    simp only [improvedClockSelector, hbig, h₁, h₂, h₃, Option.bind_eq_bind, Option.bind_some,
      Option.pure_def]
  refine .inr ⟨fun j r hr hpres => ?_, m₃, ?_⟩
  · have hr₁ := (hnone₁ j r hr).1
    have hclean := (hnone₁ j r hr).2 hpres
    obtain ⟨r₁, rfl, hr₂, hhigh, hlow⟩ := hnone₂ j r hr₁
    have hclean₂ := (hnone₃ j _ hr₂).2 (by simpa using hpres)
    -- the second pass has cleared the use bit, so the third found the row modified
    have hmod : r.modified = true := by
      rcases Nat.lt_or_ge j m.improvedClock with hj | hj
      · simpa [touch, always, notUsedClean, hpres, show ¬ m.improvedClock ≤ j by omega,
          show j ≤ m.improvedClock by omega] using hclean₂
      · simpa [touch, always, notUsedClean, hpres, hj] using hclean₂
    have hne : j ≠ m.improvedClock := by
      rintro rfl
      have := hlow (Nat.le_refl _) hpres
      simp [touch, always, notUsedDirty, hpres, hmod] at this
    refine ⟨hne, ?_⟩
    have huse : r.use = true := by
      rcases Nat.lt_or_ge j m.improvedClock with hj | hj
      · have := hlow (by omega) hpres
        rw [touch_of_not (by omega)] at this
        simpa [notUsedDirty, hmod] using this
      · simpa [notUsedDirty, hmod] using hhigh hj hpres
    simp [hard, halg, huse, hmod]
  · simp only [improvedClockSelector, hbig, h₁, h₂, h₃, Option.bind_eq_bind, Option.bind_some,
      Option.pure_def]

/-! ### The big table of a process -/

lemma nodup_rowRefs {rows : List PageTableLvl1} (h : (secondPages rows).Nodup) :
    (rowRefs c rows).Nodup := by
  induction rows with
  | nil => simp [rowRefs]
  | cons row rows ih =>
    obtain ⟨hnot, hnodup⟩ := List.nodup_cons.mp h
    have hcons : rowRefs c (row :: rows) =
        (List.range c.maxRows).map (fun j => (row.secondPage, j)) ++ rowRefs c rows := rfl
    rw [hcons, List.nodup_append]
    refine ⟨List.Nodup.map (fun _ _ h => (Prod.mk.inj h).2) List.nodup_range, ih hnodup, ?_⟩
    rintro p hp q hq rfl
    obtain ⟨j, -, rfl⟩ := List.mem_map.mp hp
    exact hnot (mem_rowRefs.mp hq).1

/-- The big table of a live process is whole, if its size fits in 32 bits. -/
lemma bigTable_of_forest (hf : Forest c m) (hn : c.maxRows < 2 ^ 16) {t : ℕ}
    {rows : List PageTableLvl1} (ht : m.table1 t = some rows) :
    bigTableOf c m t = some (rowRefs c rows) ∧ Whole c m (rowRefs c rows) := by
  have hlen : (rowRefs c rows).length = totalRows c := by
    rw [length_rowRefs, hf.rows1 t rows ht]
    rfl
  have hbig : bigRows c = totalRows c := by
    have hlt : c.maxRows * c.maxRows < 2 ^ 16 * 2 ^ 16 := Nat.mul_lt_mul'' hn hn
    rw [bigRows, Nat.mod_eq_of_lt (by omega)]
    rfl
  have htake : (rowRefs c rows).take (bigRows c) = rowRefs c rows := by
    rw [hbig, ← hlen, List.take_length]
  have hall : (rowRefs c rows).all (fun p => (m.rowAt p).isSome) = true :=
    List.all_eq_true.mpr fun p hp => hf.rowAt_isSome ht hp
  refine ⟨?_, nodup_rowRefs (hf.nodup t rows ht), fun j hj => ?_, hlen⟩
  · simp only [bigTableOf, createBigTable, ht, if_pos (dvd_bigRows hn), htake,
      Option.bind_eq_bind, Option.bind_some]
    rw [if_pos ⟨hlen, hall⟩]
  · obtain ⟨r, hr⟩ := Option.isSome_iff_exists.mp (hf.rowAt_isSome ht (List.getElem_mem hj))
    rw [rowIx_eq_some_iff.mpr ⟨_, List.getElem?_eq_getElem hj, hr⟩]
    rfl

/-- **Selection.** A selector takes a present row of the process, or it is stuck and answers
the frame of the absent row at its hand, or none at all. -/
theorem frameSelector_cases (hf : Forest c m) (hn : c.maxRows < 2 ^ 16) {t : ℕ}
    {rows : List PageTableLvl1} (ht : m.table1 t = some rows)
    (hhand : hand c m < totalRows c) :
    (∃ m' j frame, frameSelector c m t = some (m', frame) ∧ Took (rowRefs c rows) m j frame) ∨
    (Stuck c (rowRefs c rows) (hand c m) m ∧ ∃ m' frame,
      frameSelector c m t = some (m', frame) ∧ (frame = invalidFrame ∨
        ∃ r, rowIx (rowRefs c rows) m (hand c m) = some r ∧ r.frame = frame)) := by
  obtain ⟨hbig, hw⟩ := bigTable_of_forest hf hn ht
  cases halg : c.algoritmoReemplazo with
  | clock =>
    simp only [frameSelector, hand, halg] at hhand ⊢
    rcases clockSelector_cases hbig hw hhand halg with h | ⟨hstuck, m', r, hsel, hr⟩
    · exact .inl h
    · exact .inr ⟨hstuck, m', r.frame, hsel, .inr ⟨r, hr, rfl⟩⟩
  | clockM =>
    simp only [frameSelector, hand, halg] at hhand ⊢
    rcases improvedClockSelector_cases hbig hw hhand halg with h | ⟨hstuck, m', hsel⟩
    · exact .inl h
    · exact .inr ⟨hstuck, m', invalidFrame, hsel, .inl rfl⟩

end Sski.Mem.Selection
