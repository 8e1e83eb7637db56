import Sski.Mem.Selection

/-!
What the choice of a selector depends on.

A selector reads the rows of one process, and of them only whether they have a frame, and their
three bits. Beside them it reads its hand, which every process moves. So two runs choose the same
pages of a process where both see the same rows and the same hand.
-/

namespace Sski.Mem.Locality

open Sski.Lib.Runs Sski.Mem.MemoryModule Sski.Mem.PageTable Sski.Mem.OsMemory
open Sski.Mem.Algorithms Sski.Mem.CpuController Sski.Mem.KernelController Sski.Mem.Tables
open Sski.Mem.Rows Sski.Mem.Frames Sski.Mem.Selection

variable {c : Cfg} {m m' m₁ : Memory} {l l' : List RowRef} {t t' : ℕ}

/-- What a selector sees of a row: whether it has a frame, and its bits. -/
def view (r : PageTableLvl2) : Bool × Bool × Bool × Bool :=
  (r.frame != invalidFrame, r.present, r.use, r.modified)

/-- The rows of one process in two memories, index by index. -/
def Alike (l l' : List RowRef) (m m' : Memory) : Prop :=
  ∀ j, (rowIx l m j).map view = (rowIx l' m' j).map view

/-- The memory after a loop, and the index that was taken. -/
def Outcome (l l' : List RowRef) (a b : Memory × Option (ℕ × ℕ)) : Prop :=
  Alike l l' a.1 b.1 ∧ a.2.map Prod.fst = b.2.map Prod.fst

def Chosen (l : List RowRef) (m : Memory) (j frame : ℕ) : Prop :=
  ∃ r, rowIx l m j = some r ∧ r.frame = frame

lemma rel_bind {α β γ δ : Type*} {R : α → β → Prop} {S : γ → δ → Prop} {a : Option α}
    {b : Option β} {f : α → Option γ} {g : β → Option δ} (h : Option.Rel R a b)
    (hfg : ∀ x y, R x y → Option.Rel S (f x) (g y)) : Option.Rel S (a.bind f) (b.bind g) := by
  cases h with
  | none => exact .none
  | some h => exact hfg _ _ h

lemma rel_self {α β : Type*} {R : α → β → Prop} {a : Option α} {b : Option β}
    (h : Option.Rel R a b) : Option.Rel (fun x y => R x y ∧ a = some x ∧ b = some y) a b := by
  cases h with
  | none => exact .none
  | some h => exact .some ⟨h, rfl, rfl⟩

lemma rel_mono {α β : Type*} {R S : α → β → Prop} {a : Option α} {b : Option β}
    (h : Option.Rel R a b) (hRS : ∀ x y, R x y → S x y) : Option.Rel S a b := by
  cases h with
  | none => exact .none
  | some h => exact .some (hRS _ _ h)

/-! ### One loop -/

def refRow (l : List RowRef) (m : Memory) (j : ℕ) : Option (RowRef × PageTableLvl2) :=
  l[j]?.bind fun p => (m.rowAt p).map fun r => (p, r)

lemma refRow_eq_some_iff {j : ℕ} {x : RowRef × PageTableLvl2} :
    refRow l m j = some x ↔ l[j]? = some x.1 ∧ m.rowAt x.1 = some x.2 := by
  obtain ⟨p, r⟩ := x
  simp [refRow, Option.bind_eq_some_iff]

lemma map_refRow (l : List RowRef) (m : Memory) (j : ℕ) :
    (refRow l m j).map Prod.snd = rowIx l m j := by
  simp only [refRow, rowIx, Option.map_bind, Option.bind_eq_bind]
  congr 1
  funext p
  simp only [Function.comp_apply, Option.map_map]
  cases m.rowAt p <;> rfl

lemma bind_refRow {α : Type*} (j : ℕ) (f : RowRef → PageTableLvl2 → Option α) :
    (l[j]?.bind fun p => (m.rowAt p).bind fun r => f p r) =
      (refRow l m j).bind fun x => f x.1 x.2 := by
  rw [refRow, Option.bind_assoc]
  congr 1
  funext p
  cases m.rowAt p <;> rfl

structure Both (l l' : List RowRef) (m m' : Memory) (j : ℕ) (x y : RowRef × PageTableLvl2) :
    Prop where
  left : l[j]? = some x.1 ∧ m.rowAt x.1 = some x.2
  right : l'[j]? = some y.1 ∧ m'.rowAt y.1 = some y.2
  view : view x.2 = view y.2

lemma Alike.both (h : Alike l l' m m') (j : ℕ) :
    Option.Rel (Both l l' m m' j) (refRow l m j) (refRow l' m' j) := by
  have hj := h j
  rw [← map_refRow, ← map_refRow, Option.map_map, Option.map_map] at hj
  cases hx : refRow l m j with
  | none =>
    rw [hx, Option.map_none, eq_comm, Option.map_eq_none_iff] at hj
    rw [hj]
    exact .none
  | some x =>
    rw [hx, Option.map_some, eq_comm, Option.map_eq_some_iff] at hj
    obtain ⟨y, hy, hview⟩ := hj
    rw [hy]
    exact .some ⟨refRow_eq_some_iff.mp hx, refRow_eq_some_iff.mp hy, hview.symm⟩

lemma scan_cons (hit : PageTableLvl2 → Bool) (clear : ℕ → Bool) (j : ℕ) (js : List ℕ) :
    scan l hit clear (j :: js) m = (refRow l m j).bind fun x =>
      if x.2.present then
        if hit x.2 then some (m.setRow x.1 { x.2 with use := true }, some (j, x.2.frame))
        else if clear j then scan l hit clear js (m.setRow x.1 { x.2 with use := false })
        else scan l hit clear js m
      else scan l hit clear js m := by
  simp only [scan, refRow, Option.bind_eq_bind, Option.bind_assoc, Option.pure_def]
  congr 1
  funext p
  cases m.rowAt p <;> rfl

lemma Alike.set (h : Alike l l' m m') (hn : l.Nodup) (hn' : l'.Nodup) {j : ℕ}
    {x y : RowRef × PageTableLvl2} (hb : Both l l' m m' j x y) {r r' : PageTableLvl2}
    (hview : Locality.view r = Locality.view r') :
    Alike l l' (m.setRow x.1 r) (m'.setRow y.1 r') := by
  intro i
  rw [rowIx_setRow hn hb.left.1 hb.left.2, rowIx_setRow hn' hb.right.1 hb.right.2]
  split
  next => rw [Option.map_some, Option.map_some, hview]
  next => exact h i

lemma view_use {r r' : PageTableLvl2} (h : view r = view r') (use : Bool) :
    view { r with use } = view { r' with use } := by
  simp only [view, Prod.mk.injEq] at h ⊢
  exact ⟨h.1, h.2.1, trivial, h.2.2.2⟩

lemma present_of_view {r r' : PageTableLvl2} (h : view r = view r') : r.present = r'.present := by
  simp only [view, Prod.mk.injEq] at h
  exact h.2.1

/-- A loop over the rows does the same on both sides. -/
lemma Alike.scan (h : Alike l l' m m') (hn : l.Nodup) (hn' : l'.Nodup)
    {hit : PageTableLvl2 → Bool} (hhit : ∀ r r', view r = view r' → hit r = hit r')
    (clear : ℕ → Bool) (js : List ℕ) :
    Option.Rel (Outcome l l') (scan l hit clear js m) (scan l' hit clear js m') := by
  induction js generalizing m m' with
  | nil => exact .some ⟨h, rfl⟩
  | cons j js ih =>
    rw [scan_cons, scan_cons]
    refine rel_bind (h.both j) fun x y hb => ?_
    have hpres := present_of_view hb.view
    have hsame := hhit _ _ hb.view
    rw [← hpres, ← hsame]
    by_cases hx : x.2.present = true
    · rw [if_pos hx, if_pos hx]
      by_cases hh : hit x.2 = true
      · -- taken
        rw [if_pos hh, if_pos hh]
        exact .some ⟨h.set hn hn' hb (view_use hb.view true), rfl⟩
      · rw [if_neg hh, if_neg hh]
        by_cases hc : clear j = true
        · rw [if_pos hc, if_pos hc]
          exact ih (h.set hn hn' hb (view_use hb.view false))
        · rw [if_neg hc, if_neg hc]
          exact ih h
    · rw [if_neg hx, if_neg hx]
      exact ih h

lemma Alike.pass (h : Alike l l' m m') (hn : l.Nodup) (hn' : l'.Nodup)
    {hit : PageTableLvl2 → Bool} (hhit : ∀ r r', view r = view r' → hit r = hit r')
    (clear clear' : ℕ → Bool) (n hand : ℕ) :
    Option.Rel (Outcome l l') (pass l hit clear clear' n hand m)
      (pass l' hit clear clear' n hand m') := by
  simp only [Algorithms.pass, Option.bind_eq_bind, Option.pure_def]
  refine rel_bind (h.scan hn hn' hhit _ _) fun a b hout => ?_
  obtain ⟨m₁, found⟩ := a
  obtain ⟨m₁', found'⟩ := b
  obtain ⟨halike, hfound⟩ := hout
  cases found with
  | none =>
    obtain rfl : found' = none := by simpa using hfound.symm
    exact halike.scan hn hn' hhit _ _
  | some taken =>
    obtain ⟨taken', rfl⟩ : ∃ taken', found' = some taken' := by
      cases found' with
      | none => cases hfound
      | some taken' => exact ⟨taken', rfl⟩
    exact .some ⟨halike, hfound⟩

lemma resetUse_cons {j : ℕ} {p : RowRef} (hp : l[j]? = some p) (ps : List RowRef) :
    resetUse (p :: ps) m = (refRow l m j).bind fun x =>
      resetUse ps (m.setRow x.1 { x.2 with use := false }) := by
  simp only [resetUse, List.foldlM_cons, Memory.modifyRow, refRow, hp, Option.bind_eq_bind,
    Option.bind_some, Option.pure_def]
  cases m.rowAt p <;> rfl

lemma Alike.resetUse (hn : l.Nodup) (hn' : l'.Nodup) (hlen : l.length = l'.length) (k : ℕ)
    (h : Alike l l' m m') :
    Option.Rel (Alike l l') (resetUse (l.drop k) m) (resetUse (l'.drop k) m') := by
  induction hi : l.length - k generalizing k m m' with
  | zero =>
    rw [List.drop_eq_nil_of_le (by omega), List.drop_eq_nil_of_le (by omega)]
    exact .some h
  | succ i ih =>
    rw [List.drop_eq_getElem_cons (show k < l.length by omega),
      List.drop_eq_getElem_cons (show k < l'.length by omega),
      resetUse_cons (List.getElem?_eq_getElem (by omega)),
      resetUse_cons (List.getElem?_eq_getElem (by omega))]
    refine rel_bind (h.both k) fun x y hb => ?_
    exact ih (k + 1) (h.set hn hn' hb (view_use hb.view false)) (by omega)

/-! ### The frame that is taken -/

lemma chosen_congr (h : SameRows unused m m₁) {j frame : ℕ} (hc : Chosen l m₁ j frame) :
    Chosen l m j frame := by
  obtain ⟨r, hr, hframe⟩ := hc
  obtain ⟨p, hp, hrow⟩ := rowIx_eq_some_iff.mp hr
  obtain ⟨r₀, hr₀, hsame⟩ := h.symm.rowAt_some hrow
  refine ⟨r₀, rowIx_eq_some_iff.mpr ⟨p, hp, hr₀⟩, ?_⟩
  simp only [unused, PageTableLvl2.mk.injEq] at hsame
  exact hsame.1.trans hframe

lemma chosen_scan {hit : PageTableLvl2 → Bool} {clear : ℕ → Bool} {js : List ℕ} {j frame : ℕ}
    (h : scan l hit clear js m = some (m', some (j, frame))) : Chosen l m j frame := by
  induction js generalizing m with
  | nil => cases h
  | cons i js ih =>
    rw [scan_cons, Option.bind_eq_some_iff] at h
    obtain ⟨x, hx, h⟩ := h
    obtain ⟨hp, hr⟩ := refRow_eq_some_iff.mp hx
    split at h
    · split at h
      · cases h
        exact ⟨x.2, rowIx_eq_some_iff.mpr ⟨x.1, hp, hr⟩, rfl⟩
      · split at h
        · exact chosen_congr (useBits_setRow hr false).rows (ih h)
        · exact ih h
    · exact ih h

lemma chosen_pass {hit : PageTableLvl2 → Bool} {clear clear' : ℕ → Bool} {n hand j frame : ℕ}
    (h : pass l hit clear clear' n hand m = some (m', some (j, frame))) : Chosen l m j frame := by
  simp only [Algorithms.pass, Option.bind_eq_bind, Option.bind_eq_some_iff, Option.pure_def] at h
  obtain ⟨⟨m₁, found⟩, hscan, h⟩ := h
  cases found with
  | some taken =>
    cases h
    exact chosen_scan hscan
  | none => exact chosen_congr (useBits_scan hscan).rows (chosen_scan h)

/-! ### The selectors -/

/-- Two choices: none at all, or the frames of the rows at one index. -/
def Agree (l l' : List RowRef) (m m' : Memory) (a b : Memory × ℕ) : Prop :=
  (a.2 = invalidFrame ∧ b.2 = invalidFrame) ∨ ∃ j, Chosen l m j a.2 ∧ Chosen l' m' j b.2

lemma notUsed_view (r r' : PageTableLvl2) (h : view r = view r') : notUsed r = notUsed r' := by
  simp only [view, Prod.mk.injEq] at h
  rw [notUsed, notUsed, h.2.2.1]

lemma notUsedClean_view (r r' : PageTableLvl2) (h : view r = view r') :
    notUsedClean r = notUsedClean r' := by
  simp only [view, Prod.mk.injEq] at h
  rw [notUsedClean, notUsedClean, h.2.2.1, h.2.2.2]

lemma notUsedDirty_view (r r' : PageTableLvl2) (h : view r = view r') :
    notUsedDirty r = notUsedDirty r' := by
  simp only [view, Prod.mk.injEq] at h
  rw [notUsedDirty, notUsedDirty, h.2.2.1, h.2.2.2]

structure Passed (l l' : List RowRef) (m m' : Memory) (a b : Memory × Option (ℕ × ℕ)) : Prop where
  alike : Alike l l' a.1 b.1
  rows : SameRows unused m a.1
  rows' : SameRows unused m' b.1
  taken : (a.2 = none ∧ b.2 = none) ∨
    ∃ j f f', a.2 = some (j, f) ∧ b.2 = some (j, f') ∧ Chosen l m j f ∧ Chosen l' m' j f'

lemma Alike.passed (h : Alike l l' m m') (hn : l.Nodup) (hn' : l'.Nodup)
    {hit : PageTableLvl2 → Bool} (hhit : ∀ r r', view r = view r' → hit r = hit r')
    (clear clear' : ℕ → Bool) (n hand : ℕ) :
    Option.Rel (Passed l l' m m') (Algorithms.pass l hit clear clear' n hand m)
      (Algorithms.pass l' hit clear clear' n hand m') := by
  refine rel_mono (rel_self (h.pass hn hn' hhit clear clear' n hand)) ?_
  rintro ⟨m₁, found⟩ ⟨m₁', found'⟩ ⟨⟨halike, hfound⟩, ha, hb⟩
  refine ⟨halike, (useBits_pass ha).rows, (useBits_pass hb).rows, ?_⟩
  cases found with
  | none =>
    obtain rfl : found' = none := by simpa using hfound.symm
    exact .inl ⟨rfl, rfl⟩
  | some taken =>
    obtain ⟨j, f⟩ := taken
    cases found' with
    | none => cases hfound
    | some taken' =>
      obtain ⟨j', f'⟩ := taken'
      obtain rfl : j = j' := by simpa using hfound
      exact .inr ⟨j, f, f', rfl, rfl, chosen_pass ha, chosen_pass hb⟩

/-- The big tables of a process in both runs, which hold the same rows. -/
structure Tables (c : Cfg) (l l' : List RowRef) (m m' : Memory) (t t' : ℕ) : Prop where
  big : bigTableOf c m t = some l
  big' : bigTableOf c m' t' = some l'
  nodup : l.Nodup
  nodup' : l'.Nodup
  alike : Alike l l' m m'

lemma Tables.length (ht : Tables c l l' m m' t t') : l.length = l'.length :=
  (length_bigTableOf ht.big).trans (length_bigTableOf ht.big').symm

lemma Tables.clockSelector (ht : Tables c l l' m m' t t') (hhand : m.clock = m'.clock) :
    Option.Rel (Agree l l' m m') (clockSelector c m t) (clockSelector c m' t') := by
  simp only [Algorithms.clockSelector, ht.big, ht.big', hhand, Option.bind_eq_bind,
    Option.bind_some, Option.pure_def]
  refine rel_bind (ht.alike.passed ht.nodup ht.nodup' notUsed_view _ _ _ _) fun a b hp => ?_
  obtain ⟨m₁, found⟩ := a
  obtain ⟨m₁', found'⟩ := b
  obtain ⟨halike, hrows, hrows', ⟨rfl, rfl⟩ | ⟨j, f, f', rfl, rfl, hf, hf'⟩⟩ := hp
  · -- the row at the hand is taken
    have hreset := halike.resetUse ht.nodup ht.nodup' ht.length 0
    rw [List.drop_zero, List.drop_zero] at hreset
    refine rel_bind (rel_self hreset) fun m₂ m₂' hpair => ?_
    obtain ⟨halike₂, h₂, h₂'⟩ := hpair
    rw [bind_refRow, bind_refRow]
    refine rel_bind (halike₂.both m'.clock) fun x y hb => ?_
    refine .some (.inr ⟨m'.clock, chosen_congr (hrows.trans (useBits_resetUse h₂).rows) ?_,
      chosen_congr (hrows'.trans (useBits_resetUse h₂').rows) ?_⟩)
    · exact ⟨x.2, rowIx_eq_some_iff.mpr ⟨x.1, hb.left⟩, rfl⟩
    · exact ⟨y.2, rowIx_eq_some_iff.mpr ⟨y.1, hb.right⟩, rfl⟩
  · exact .some (.inr ⟨j, hf, hf'⟩)

lemma Tables.improvedClockSelector (ht : Tables c l l' m m' t t')
    (hhand : m.improvedClock = m'.improvedClock) :
    Option.Rel (Agree l l' m m') (improvedClockSelector c m t)
      (improvedClockSelector c m' t') := by
  simp only [Algorithms.improvedClockSelector, ht.big, ht.big', hhand, Option.bind_eq_bind,
    Option.bind_some, Option.pure_def]
  refine rel_bind (ht.alike.passed ht.nodup ht.nodup' notUsedClean_view _ _ _ _) fun a b hp => ?_
  obtain ⟨m₁, found⟩ := a
  obtain ⟨m₁', found'⟩ := b
  obtain ⟨halike, hrows, hrows', ⟨rfl, rfl⟩ | ⟨j, f, f', rfl, rfl, hf, hf'⟩⟩ := hp
  case inr => exact .some (.inr ⟨j, hf, hf'⟩)
  -- the second pass
  refine rel_bind (halike.passed ht.nodup ht.nodup' notUsedDirty_view _ _ _ _) fun a b hp => ?_
  obtain ⟨m₂, found⟩ := a
  obtain ⟨m₂', found'⟩ := b
  obtain ⟨halike₂, hrows₂, hrows₂', ⟨rfl, rfl⟩ | ⟨j, f, f', rfl, rfl, hf, hf'⟩⟩ := hp
  case inr => exact .some (.inr ⟨j, chosen_congr hrows hf, chosen_congr hrows' hf'⟩)
  -- the third pass
  refine rel_bind (halike₂.passed ht.nodup ht.nodup' notUsedClean_view _ _ _ _) fun a b hp => ?_
  obtain ⟨m₃, found⟩ := a
  obtain ⟨m₃', found'⟩ := b
  obtain ⟨-, -, -, ⟨rfl, rfl⟩ | ⟨j, f, f', rfl, rfl, hf, hf'⟩⟩ := hp
  case inr =>
    exact .some (.inr ⟨j, chosen_congr (hrows.trans hrows₂) hf,
      chosen_congr (hrows'.trans hrows₂') hf'⟩)
  exact .some (.inl ⟨rfl, rfl⟩)

lemma Tables.frameSelector (ht : Tables c l l' m m' t t') (hhand : hand c m = hand c m') :
    Option.Rel (Agree l l' m m') (frameSelector c m t) (frameSelector c m' t') := by
  unfold hand at hhand
  unfold Algorithms.frameSelector
  cases halg : c.algoritmoReemplazo with
  | clock =>
    rw [halg] at hhand
    exact ht.clockSelector hhand
  | clockM =>
    rw [halg] at hhand
    exact ht.improvedClockSelector hhand

/-! ### The rows of a process -/

/-- What the rows of a process hold, as far as a selector sees them. -/
def contents (c : Cfg) (m : Memory) (t : ℕ) : Option (List (Option (Bool × Bool × Bool × Bool))) :=
  (m.table1 t).map fun rows => (rowRefs c rows).map fun q => (m.rowAt q).map view

lemma bigTableOf_eq (hf : Forest c m) {rows : List PageTableLvl1} (ht : m.table1 t = some rows) :
    bigTableOf c m t =
      if c.maxRows ∣ bigRows c ∧ totalRows c ≤ bigRows c then some (rowRefs c rows) else none := by
  have hlen : (rowRefs c rows).length = totalRows c := by
    rw [length_rowRefs, hf.rows1 t rows ht, totalRows]
  have hall : ((rowRefs c rows).take (bigRows c)).all (fun p => (m.rowAt p).isSome) = true :=
    List.all_eq_true.mpr fun q hq => hf.rowAt_isSome ht (List.mem_of_mem_take hq)
  simp only [bigTableOf, createBigTable, ht, Option.bind_eq_bind]
  by_cases hd : c.maxRows ∣ bigRows c
  · rw [if_pos hd]
    simp only [Option.bind_some, hall, and_true, List.length_take, hlen, hd, true_and]
    by_cases hle : totalRows c ≤ bigRows c
    · rw [if_pos (by omega), if_pos hle, List.take_of_length_le (by omega)]
    · rw [if_neg (by omega), if_neg hle]
  · rw [if_neg hd, if_neg fun h => hd h.1]
    rfl

/-- A product of `max_rows` that does not fit in 32 bits leaves the big table too short. -/
lemma bigTableOf_none (hf : Forest c m) {rows : List PageTableLvl1}
    (ht : m.table1 t = some rows) (hn : ¬ c.maxRows < 2 ^ 16) : bigTableOf c m t = none := by
  have hsq : 2 ^ 16 * 2 ^ 16 ≤ c.maxRows * c.maxRows := Nat.mul_le_mul (by omega) (by omega)
  have hmod : bigRows c < 2 ^ 32 := Nat.mod_lt _ (by norm_num)
  have hlarge : bigRows c < totalRows c := by
    rw [totalRows]
    omega
  rw [bigTableOf_eq hf ht, if_neg fun h => absurd h.2 (by omega)]

lemma alike_of_contents {rows rows' : List PageTableLvl1} (ht : m.table1 t = some rows)
    (ht' : m'.table1 t' = some rows') (h : contents c m t = contents c m' t') :
    Alike (rowRefs c rows) (rowRefs c rows') m m' := by
  rw [contents, contents, ht, ht', Option.map_some, Option.map_some, Option.some.injEq] at h
  intro j
  have hj := congrArg (·[j]?) h
  simp only [List.getElem?_map] at hj
  rw [rowIx, rowIx]
  cases hq : (rowRefs c rows)[j]? with
  | none =>
    rw [hq, Option.map_none, eq_comm, Option.map_eq_none_iff] at hj
    rw [hj]
    rfl
  | some q =>
    rw [hq, Option.map_some, eq_comm, Option.map_eq_some_iff] at hj
    obtain ⟨q', hq', hview⟩ := hj
    rw [hq']
    exact hview.symm

/-- Equal rows: both selectors crash on the big table, or both have it. -/
lemma tables_of_contents (hf : Forest c m) (hf' : Forest c m') {rows rows' : List PageTableLvl1}
    (ht : m.table1 t = some rows) (ht' : m'.table1 t' = some rows')
    (h : contents c m t = contents c m' t') :
    (bigTableOf c m t = none ∧ bigTableOf c m' t' = none) ∨
      Tables c (rowRefs c rows) (rowRefs c rows') m m' t t' := by
  have hbig := bigTableOf_eq hf ht
  have hbig' := bigTableOf_eq hf' ht'
  split at hbig
  next hd =>
    rw [if_pos hd] at hbig'
    exact .inr ⟨hbig, hbig', nodup_rowRefs (hf.nodup t rows ht),
      nodup_rowRefs (hf'.nodup t' rows' ht'), alike_of_contents ht ht' h⟩
  next hd =>
    rw [if_neg hd] at hbig'
    exact .inl ⟨hbig, hbig'⟩

lemma frameSelector_none (h : bigTableOf c m t = none) : frameSelector c m t = none := by
  unfold frameSelector
  cases c.algoritmoReemplazo with
  | clock => simp [clockSelector, h]
  | clockM => simp [improvedClockSelector, h]

lemma maxRows_lt_of_selects (hf : Forest c m) {rows : List PageTableLvl1}
    (ht : m.table1 t = some rows) {x : Memory × ℕ} (h : frameSelector c m t = some x) :
    c.maxRows < 2 ^ 16 := by
  by_contra hn
  rw [frameSelector_none (bigTableOf_none hf ht hn)] at h
  cases h

/-! ### Victims -/

/-- The page of a process whose frame the selector chooses, by the index of its row. -/
def victimPage (c : Cfg) (m : Memory) (t : ℕ) : Option (Option ℕ) := do
  let (_, frame) ← frameSelector c m t
  let rows ← m.table1 t
  return if frame = invalidFrame then none
    else (rowRefs c rows).findIdx? fun q => (m.rowAt q).any (·.frame == frame)

lemma findIdx_of_chosen (hm : Mapped c m) {j frame : ℕ} (hn : l.Nodup) (hc : Chosen l m j frame)
    (hne : frame ≠ invalidFrame) :
    l.findIdx? (fun q => (m.rowAt q).any (·.frame == frame)) = some j := by
  obtain ⟨r, hr, rfl⟩ := hc
  obtain ⟨p, hp, hrow⟩ := rowIx_eq_some_iff.mp hr
  obtain ⟨hlt, hget⟩ := List.getElem?_eq_some_iff.mp hp
  rw [List.findIdx?_eq_some_iff_getElem]
  refine ⟨hlt, by simp [hget, hrow], fun i hi hheld => ?_⟩
  simp only [Option.any_eq_true, beq_iff_eq] at hheld
  obtain ⟨s, hs, hframe⟩ := hheld
  have hsame := hm.unique p l[i] r s hrow hs hne hframe.symm
  rw [← hget] at hsame
  have hij := (List.Nodup.getElem_inj_iff hn).mp hsame
  omega

lemma Alike.invalid_iff (h : Alike l l' m m') {j frame frame' : ℕ} (hc : Chosen l m j frame)
    (hc' : Chosen l' m' j frame') : frame = invalidFrame ↔ frame' = invalidFrame := by
  obtain ⟨r, hr, rfl⟩ := hc
  obtain ⟨r', hr', rfl⟩ := hc'
  have hj := h j
  rw [hr, hr', Option.map_some, Option.map_some, Option.some.injEq] at hj
  have hframe := congrArg Prod.fst hj
  simp only [view] at hframe
  constructor
  · intro hinv
    simpa [hinv] using hframe
  · intro hinv
    simpa [hinv] using hframe

lemma victimPage_eq_of_contents (hm : Mapped c m) (hm' : Mapped c m')
    (h : contents c m t = contents c m' t') (hhand : hand c m = hand c m') :
    victimPage c m t = victimPage c m' t' := by
  cases ht : m.table1 t with
  | none =>
    have ht' : m'.table1 t' = none := by
      rw [contents, contents, ht, Option.map_none, eq_comm, Option.map_eq_none_iff] at h
      exact h
    have hnone : victimPage c m t = none := by
      simp only [victimPage, ht, Option.bind_eq_bind, Option.bind_none, Option.bind_none]
      cases frameSelector c m t <;> rfl
    have hnone' : victimPage c m' t' = none := by
      simp only [victimPage, ht', Option.bind_eq_bind, Option.bind_none, Option.bind_none]
      cases frameSelector c m' t' <;> rfl
    rw [hnone, hnone']
  | some rows =>
    obtain ⟨rows', ht'⟩ : ∃ rows', m'.table1 t' = some rows' := by
      rw [contents, contents, ht, Option.map_some, eq_comm, Option.map_eq_some_iff] at h
      exact ⟨_, h.choose_spec.1⟩
    rcases tables_of_contents hm.forest hm'.forest ht ht' h with ⟨hnone, hnone'⟩ | htab
    · rw [victimPage, victimPage, frameSelector_none hnone, frameSelector_none hnone']
      rfl
    · have hsel := htab.frameSelector hhand
      simp only [victimPage, ht, ht', Option.bind_eq_bind, Option.bind_some, Option.pure_def]
      cases hs : frameSelector c m t with
      | none =>
        rw [hs] at hsel
        cases hs' : frameSelector c m' t' with
        | none => rfl
        | some b => rw [hs'] at hsel; cases hsel
      | some a =>
        rw [hs] at hsel
        cases hs' : frameSelector c m' t' with
        | none => rw [hs'] at hsel; cases hsel
        | some b =>
          rw [hs'] at hsel
          cases hsel with
          | some hagree =>
            simp only [Option.bind_some, Option.some.injEq]
            rcases hagree with ⟨hinv, hinv'⟩ | ⟨j, hc, hc'⟩
            · rw [if_pos hinv, if_pos hinv']
            · have hinv := htab.alike.invalid_iff hc hc'
              by_cases hne : a.2 = invalidFrame
              · rw [if_pos hne, if_pos (hinv.mp hne)]
              · rw [if_neg hne, if_neg (mt hinv.mpr hne), findIdx_of_chosen hm htab.nodup hc hne,
                  findIdx_of_chosen hm' htab.nodup' hc' (mt hinv.mpr hne)]

/-! ### Two runs -/

/-- The request is a fault of the process with this level-1 table, and a page has to go. -/
def selects (c : Cfg) (t : ℕ) (m : Memory) : Request → Bool
  | .frame _ op1 op2 _ _ =>
    (m.rowAt (op1.toNat, op2.toNat)).any (!·.present) && getTableLvl1Number m op1.toNat == t &&
      shouldReplaceFrame c (findFreeFrame m).1 op1.toNat == some true
  | _ => false

def selections (c : Cfg) (t : ℕ) : Memory → List Request → List Memory
  | _, [] => []
  | m, req :: reqs =>
    (if selects c t m req then [(findFreeFrame m).1] else []) ++
      match step c m req with
      | none => []
      | some m' => selections c t m' reqs

lemma mapped_of_mem_selections (hm : Mapped c m) {reqs : List Request} {m₀ : Memory}
    (h : m₀ ∈ selections c t m reqs) : Mapped c m₀ := by
  induction reqs generalizing m with
  | nil => cases h
  | cons req reqs ih =>
    rw [selections, List.mem_append] at h
    rcases h with h | h
    · split at h
      · obtain rfl := List.mem_singleton.mp h
        exact (hm.findFreeFrame rfl).1
      · cases h
    · split at h
      next => cases h
      next m' hstep => exact ih (hm.step hstep) h

/-- The process sees the same rows in both. -/
def SameContents (c : Cfg) (t t' : ℕ) (m m' : Memory) : Prop :=
  contents c m t = contents c m' t'

instance (t t' : ℕ) (m m' : Memory) : Decidable (SameContents c t t' m m') :=
  inferInstanceAs (Decidable (_ = _))

/-- The selector starts from the same rows of the process, and from the same hand. -/
def SameStart (c : Cfg) (t t' : ℕ) (m m' : Memory) : Prop :=
  SameContents c t t' m m' ∧ hand c m = hand c m'

instance (t t' : ℕ) (m m' : Memory) : Decidable (SameStart c t t' m m') :=
  inferInstanceAs (Decidable (_ ∧ _))

/-- **Main result.** In two runs in which a process sees the same rows whenever the selector runs
for it, whatever other processes do, its victims are the same pages, if each time the hand stands
where it stands in the other run. -/
theorem victims_eq (c : Cfg) (heap heap' : ℕ → UInt8) (reqs reqs' : List Request) (t t' : ℕ)
    (h : List.Forall₂ (SameStart c t t') (selections c t (onInitMemory c heap) reqs)
      (selections c t' (onInitMemory c heap') reqs')) :
    (selections c t (onInitMemory c heap) reqs).map (victimPage c · t) =
      (selections c t' (onInitMemory c heap') reqs').map (victimPage c · t') := by
  have hall : ∀ m₀ ∈ selections c t (onInitMemory c heap) reqs, Mapped c m₀ :=
    fun _ hmem => mapped_of_mem_selections (mapped_onInitMemory c heap) hmem
  have hall' : ∀ m₀ ∈ selections c t' (onInitMemory c heap') reqs', Mapped c m₀ :=
    fun _ hmem => mapped_of_mem_selections (mapped_onInitMemory c heap') hmem
  -- what both runs see is compared one selection at a time
  generalize selections c t (onInitMemory c heap) reqs = ms at h hall ⊢
  generalize selections c t' (onInitMemory c heap') reqs' = ms' at h hall' ⊢
  induction h with
  | nil => rfl
  | cons hstart _ ih =>
    rw [List.map_cons, List.map_cons,
      victimPage_eq_of_contents (hall _ List.mem_cons_self) (hall' _ List.mem_cons_self) hstart.1
        hstart.2,
      ih (fun _ hm => hall _ (List.mem_cons_of_mem _ hm))
        (fun _ hm => hall' _ (List.mem_cons_of_mem _ hm))]

def roomyCfg : Cfg := { smallCfg with tamMemoria := 64, tamMemoria_lt := by decide }

/-- A process loads two pages, and a third takes the place of one of them. -/
def alone : List Request :=
  [.memoryInit 1 64 goodOs, .frame 1 0 0 goodOs goodOs, .frame 1 0 1 goodOs goodOs,
    .frame 1 1 0 goodOs goodOs]

/-- Another process loads a page in between. -/
def inCompany : List Request :=
  [.memoryInit 1 64 goodOs, .memoryInit 2 64 goodOs, .frame 1 0 0 goodOs goodOs,
    .frame 2 2 0 goodOs goodOs, .frame 1 0 1 goodOs goodOs, .frame 1 1 0 goodOs goodOs]

/-- The other process has a page replaced before the first has. -/
def inRivalry : List Request :=
  [.memoryInit 1 64 goodOs, .memoryInit 2 64 goodOs, .frame 1 0 0 goodOs goodOs,
    .frame 1 0 1 goodOs goodOs, .frame 2 2 0 goodOs goodOs, .frame 2 2 1 goodOs goodOs,
    .frame 2 3 0 goodOs goodOs, .frame 1 1 0 goodOs goodOs]

set_option maxRecDepth 40000 in
theorem victims_eq_inCompany :
    (selections roomyCfg 0 (onInitMemory roomyCfg fun _ => 0) alone).map (victimPage roomyCfg · 0) =
      (selections roomyCfg 0 (onInitMemory roomyCfg fun _ => 0) inCompany).map
        (victimPage roomyCfg · 0) :=
  victims_eq roomyCfg (fun _ => 0) (fun _ => 0) alone inCompany 0 0 (by decide +kernel)

set_option maxRecDepth 40000 in
/-- The same requests of process 1 on the same rows, and another victim: the hand was moved. -/
theorem not_victims_eq : ¬ ∀ (c : Cfg) (heap heap' : ℕ → UInt8) (reqs reqs' : List Request)
    (t t' : ℕ),
    List.Forall₂ (SameContents c t t') (selections c t (onInitMemory c heap) reqs)
      (selections c t' (onInitMemory c heap') reqs') →
    (selections c t (onInitMemory c heap) reqs).map (victimPage c · t) =
      (selections c t' (onInitMemory c heap') reqs').map (victimPage c · t') := by
  intro h
  have hsame := h roomyCfg (fun _ => 0) (fun _ => 0) alone inRivalry 0 0 (by decide +kernel)
  exact absurd hsame (by decide +kernel)

end Sski.Mem.Locality
