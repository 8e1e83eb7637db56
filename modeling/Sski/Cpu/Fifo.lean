import Sski.Lib.Fifo
import Sski.Lib.Runs
import Sski.Cpu.Tlb

/-!
The FIFO replacement of the TLB, across resets.

The index of `replace_fifo` is static: a reset clears the table and leaves the index where it is.
The entries are still laid out along the insertions since the reset, from wherever the index was.
-/

namespace Sski.Cpu.Fifo

open Sski.Lib.Runs Sski.Lib.Fifo Sski.Cpu.Tlb

abbrev Page := {page : ℕ // page ≠ paginaVacia}

inductive Event where
  /-- A page is looked up. -/
  | lookup (page : Page)
  /-- A page is looked up, and added with its frame if it is not there. -/
  | access (page : Page) (frame : ℕ)
  | reset

variable (t : TlbCfg)

def step (tlb : State) : Event → Option State
  | .lookup page => some (pageInTlb tlb page).1
  | .access page frame =>
    match pageInTlb tlb page with
    | (tlb, some _) => some tlb
    | (tlb, none) => replaceFifo t tlb page frame
  | .reset => some (tlbReset t tlb)

def noteInsertion (tlb : State) (e : Event) (h : List (ℕ × ℕ)) : List (ℕ × ℕ) :=
  match e with
  | .lookup _ => h
  | .access page frame =>
    match (pageInTlb tlb page).2 with
    | some _ => h
    | none => (page.1, frame) :: h
  | .reset => []

abbrev fifoStep : State × List (ℕ × ℕ) → Event → Option (State × List (ℕ × ℕ)) :=
  watched (step t) noteInsertion

/-- What a TLB of `entradasTlb` entries is, as a queue of the insertions `h`. -/
structure InOrder (tlb : State) (h : List (ℕ × ℕ)) : Prop where
  index_lt : tlb.i < t.entradasTlb
  length : tlb.entries.length = t.entradasTlb
  unique : ∀ (j k : ℕ) (e e' : Entry), tlb.entries[j]? = some e → tlb.entries[k]? = some e' →
    e.pagina ≠ paginaVacia → e.pagina = e'.pagina → j = k
  /-- The pages in the TLB are those of the last insertions. -/
  held : ∀ page frame, page ≠ paginaVacia →
    ((pageInTlb tlb page).2 = some frame ↔ (page, frame) ∈ h.take t.entradasTlb)
  /-- A page has the frame of its latest insertion. -/
  latest : ∀ page frame, page ≠ paginaVacia → (pageInTlb tlb page).2 = some frame →
    h.find? (fun p => p.1 == page) = some (page, frame)
  /-- An insertion overwrites the entry at the index, and no other. -/
  writes : ∀ page frame, page ≠ paginaVacia → (pageInTlb tlb page).2 = none →
    ∃ tlb', replaceFifo t (pageInTlb tlb page).1 page frame = some tlb' ∧
      pairs tlb' = (pairs tlb).set tlb.i (page, frame)
  /-- If the entry at the index is in use, all are, and it is the oldest. -/
  oldest : ∀ e : Entry, tlb.entries[tlb.i]? = some e → e.pagina ≠ paginaVacia →
    (∀ e' ∈ tlb.entries, e'.pagina ≠ paginaVacia) ∧
      ∃ newer, h.take t.entradasTlb = newer ++ [e.pair]

/-! ### The entries as a table -/

def cellOf (p : ℕ × ℕ) : Option (ℕ × ℕ) := if p.1 = paginaVacia then none else some p

def cells (tlb : State) : List (Option (ℕ × ℕ)) := (pairs tlb).map cellOf

/-- The invariant: the entries are laid out along the insertions, and the pages of the last ones
differ. -/
structure Queue (st : State × List (ℕ × ℕ)) : Prop where
  laid : Laid t.entradasTlb st.1.i st.2 (cells st.1)
  distinct : ((st.2.take t.entradasTlb).map Prod.fst).Nodup

variable {t} {tlb tlb' : State} {page frame : ℕ} {h : List (ℕ × ℕ)} {st st' : State × List (ℕ × ℕ)}

lemma cellOf_of_ne {p : ℕ × ℕ} (hp : p.1 ≠ paginaVacia) : cellOf p = some p := if_neg hp

lemma cells_congr (hpairs : pairs tlb' = pairs tlb) : cells tlb' = cells tlb := by
  rw [cells, cells, hpairs]

lemma getElem?_cells {j : ℕ} {e : Entry} (he : tlb.entries[j]? = some e) :
    (cells tlb)[j]? = some (cellOf e.pair) := by
  simp [cells, pairs, he]

lemma length_cells (tlb : State) : (cells tlb).length = tlb.entries.length := by
  simp [cells, pairs]

lemma find_frame (page : ℕ) (es : List Entry) : (find page es).2 =
    ((es.map Entry.pair).find? fun p => p.1 == page).map Prod.snd := by
  induction es with
  | nil => rfl
  | cons e es ih =>
    rw [List.map_cons, List.find?_cons]
    unfold find
    by_cases hpage : e.pagina = page
    · have hbeq : (e.pair.1 == page) = true := beq_iff_eq.mpr hpage
      rw [if_pos hpage, hbeq]
      rfl
    · have hbeq : (e.pair.1 == page) = false := beq_eq_false_iff_ne.mpr hpage
      rw [if_neg hpage, hbeq]
      exact ih

lemma mem_cells (hpage : page ≠ paginaVacia) :
    some (page, frame) ∈ cells tlb ↔ (page, frame) ∈ pairs tlb := by
  rw [cells, List.mem_map]
  constructor
  · rintro ⟨p, hp, heq⟩
    unfold cellOf at heq
    split at heq
    · cases heq
    · rwa [← Option.some.inj heq]
  · exact fun hp => ⟨_, hp, cellOf_of_ne hpage⟩

lemma pageInTlb_isSome (hp : (page, frame) ∈ pairs tlb) : ∃ f, (pageInTlb tlb page).2 = some f := by
  have hfind := find_frame page tlb.entries
  cases hsome : (pairs tlb).find? fun p => p.1 == page with
  | none => exact absurd (List.find?_eq_none.mp hsome _ hp) (by simp)
  | some p =>
    refine ⟨p.2, hfind.trans ?_⟩
    rw [show tlb.entries.map Entry.pair = pairs tlb from rfl, hsome]
    rfl

lemma eq_of_page {l : List (ℕ × ℕ)} (hnodup : (l.map Prod.fst).Nodup) {p q : ℕ × ℕ} (hp : p ∈ l)
    (hq : q ∈ l) (heq : p.1 = q.1) : p = q := List.inj_on_of_nodup_map hnodup hp hq heq

lemma Queue.held (hq : Queue t (tlb, h)) (hpage : page ≠ paginaVacia) :
    (pageInTlb tlb page).2 = some frame ↔ (page, frame) ∈ h.take t.entradasTlb := by
  have hmem : ∀ f, (page, f) ∈ pairs tlb ↔ (page, f) ∈ h.take t.entradasTlb := fun f =>
    (mem_cells hpage).symm.trans hq.laid.mem_iff
  constructor
  · exact fun hhit => (hmem frame).mp (pageInTlb_eq_some hhit)
  · intro hp
    obtain ⟨f, hf⟩ := pageInTlb_isSome ((hmem frame).mpr hp)
    have hother := (hmem f).mp (pageInTlb_eq_some hf)
    obtain rfl : f = frame := congrArg Prod.snd (eq_of_page hq.distinct hother hp rfl)
    exact hf

/-- The first of the last insertions of a page is its latest one. -/
lemma find?_of_mem_take {n : ℕ} (hnodup : ((h.take n).map Prod.fst).Nodup)
    (hp : (page, frame) ∈ h.take n) : h.find? (fun p => p.1 == page) = some (page, frame) := by
  obtain ⟨q, hq⟩ : ∃ q, (h.take n).find? (fun p => p.1 == page) = some q := by
    rw [← Option.isSome_iff_exists, List.find?_isSome]
    exact ⟨_, hp, by simp⟩
  have hpage : q.1 = page := by simpa using List.find?_some hq
  obtain rfl : q = (page, frame) := eq_of_page hnodup (List.mem_of_find?_eq_some hq) hp hpage
  conv_lhs => rw [← List.take_append_drop n h]
  rw [List.find?_append, hq, Option.some_or]

lemma replaceFifo_eq (hi : tlb.i < tlb.entries.length) (page frame : ℕ) :
    ∃ tlb', replaceFifo t tlb page frame = some tlb' ∧ tlb'.i = advance t.entradasTlb tlb.i ∧
      pairs tlb' = (pairs tlb).set tlb.i (page, frame) := by
  refine ⟨_, by simp only [replaceFifo, List.getElem?_eq_getElem hi]; rfl, rfl, ?_⟩
  simp [pairs, List.map_set, Entry.pair]

lemma replaceFifo_pageInTlb (hi : tlb.i < tlb.entries.length) (page frame : ℕ) :
    ∃ tlb', replaceFifo t (pageInTlb tlb page).1 page frame = some tlb' ∧
      tlb'.i = advance t.entradasTlb tlb.i ∧
      pairs tlb' = (pairs tlb).set tlb.i (page, frame) := by
  have hlen : (pageInTlb tlb page).1.entries.length = tlb.entries.length :=
    length_find page tlb.entries
  have hindex : (pageInTlb tlb page).1.i = tlb.i := rfl
  have hi' : (pageInTlb tlb page).1.i < (pageInTlb tlb page).1.entries.length := by
    rw [hlen, hindex]
    exact hi
  have hreplace := replaceFifo_eq (t := t) hi' page frame
  rwa [hindex, pairs_pageInTlb] at hreplace

lemma Queue.length (hq : Queue t st) : st.1.entries.length = t.entradasTlb := by
  rw [← length_cells, hq.laid.length]

lemma Queue.inOrder (hq : Queue t (tlb, h)) : InOrder t tlb h where
  index_lt := hq.laid.cursor_lt
  length := hq.length
  unique j k e e' hj hk hused hpage := by
    have hused' : e'.pagina ≠ paginaVacia := hpage ▸ hused
    have hcell := getElem?_cells hj
    have hcell' := getElem?_cells hk
    rw [cellOf_of_ne (p := e.pair) hused] at hcell
    rw [cellOf_of_ne (p := e'.pair) hused'] at hcell'
    exact hq.laid.unique hq.distinct hcell hcell' hpage
  held page frame hpage := hq.held hpage
  latest page frame hpage hhit := find?_of_mem_take hq.distinct ((hq.held hpage).mp hhit)
  writes page frame _ _ := by
    have hi : tlb.i < tlb.entries.length := by
      rw [hq.length]
      exact hq.laid.cursor_lt
    obtain ⟨tlb', hreplace, -, hpairs⟩ := replaceFifo_pageInTlb (t := t) hi page frame
    exact ⟨tlb', hreplace, hpairs⟩
  oldest e he hused := by
    have hcell := getElem?_cells he
    rw [cellOf_of_ne (p := e.pair) hused] at hcell
    refine ⟨fun e' he' hempty => ?_, hq.laid.oldest hcell⟩
    refine hq.laid.full (by rw [hcell]; simp) ?_
    exact List.mem_map.mpr ⟨e'.pair, List.mem_map_of_mem he', if_pos hempty⟩

/-! ### Every run -/

lemma cells_empty {i : ℕ} : cells ⟨emptyEntries t, i⟩ = List.replicate t.entradasTlb none := by
  simp [cells, pairs, emptyEntries, Entry.pair, cellOf]

lemma queue_empty {i : ℕ} (hi : i < t.entradasTlb) : Queue t (⟨emptyEntries t, i⟩, []) :=
  ⟨by rw [cells_empty]; exact laid_empty hi, by simp⟩

lemma Queue.lookup (hq : Queue t (tlb, h)) (page : ℕ) : Queue t ((pageInTlb tlb page).1, h) :=
  ⟨by
    rw [cells_congr (pairs_pageInTlb tlb page)]
    exact hq.laid, hq.distinct⟩

lemma Queue.insert (hq : Queue t (tlb, h)) (hpage : page ≠ paginaVacia)
    (hmiss : (pageInTlb tlb page).2 = none) (frame : ℕ) :
    ∃ tlb', replaceFifo t (pageInTlb tlb page).1 page frame = some tlb' ∧
      Queue t (tlb', (page, frame) :: h) := by
  have hi : tlb.i < tlb.entries.length := by
    rw [hq.length]
    exact hq.laid.cursor_lt
  obtain ⟨tlb', hreplace, hindex, hpairs⟩ := replaceFifo_pageInTlb (t := t) hi page frame
  refine ⟨tlb', hreplace, ?_, ?_⟩
  · have hcells : cells tlb' = (cells tlb).set tlb.i (some (page, frame)) := by
      rw [cells, cells, hpairs, List.map_set, cellOf_of_ne (p := (page, frame)) hpage]
    rw [hcells, hindex]
    exact hq.laid.put (page, frame)
  · refine nodup_put (f := Prod.fst) hq.distinct fun p hp heq => ?_
    obtain rfl : p.1 = page := heq
    have hhit : (pageInTlb tlb p.1).2 = some p.2 := (hq.held hpage).mpr hp
    rw [hmiss] at hhit
    cases hhit

/-- No step fails, and each keeps the invariant. -/
lemma Queue.step (hq : Queue t st) (e : Event) :
    ∃ st', fifoStep t st e = some st' ∧ Queue t st' := by
  obtain ⟨tlb, h⟩ := st
  cases e with
  | lookup page => exact ⟨_, rfl, hq.lookup page⟩
  | reset => exact ⟨_, rfl, queue_empty hq.laid.cursor_lt⟩
  | access page frame =>
    cases hfind : (pageInTlb tlb page).2 with
    | some f =>
      refine ⟨((pageInTlb tlb page).1, h), watched_eq_some.mpr ⟨?_, ?_⟩, hq.lookup page⟩
      · have heq : pageInTlb tlb page = ((pageInTlb tlb page).1, some f) := Prod.ext rfl hfind
        simp only [Fifo.step]
        rw [heq]
      · simp only [noteInsertion, hfind]
    | none =>
      obtain ⟨tlb', hreplace, hq'⟩ := hq.insert page.2 hfind frame
      refine ⟨(tlb', (page.1, frame) :: h), watched_eq_some.mpr ⟨?_, ?_⟩, hq'⟩
      · have heq : pageInTlb tlb page = ((pageInTlb tlb page).1, none) := Prod.ext rfl hfind
        simp only [Fifo.step]
        rw [heq]
        exact hreplace
      · simp only [noteInsertion, hfind]

/-- **First in, first out.** For each size of the TLB, and after every sequence of lookups,
insertions on a miss and resets: the index is inside, the pages of the entries in use differ, a
page that is found has the frame of its latest insertion since the reset, and the entry an
insertion overwrites is an empty one, or the oldest of a TLB without one. -/
theorem inOrder_of_run (t : TlbCfg) (es : List Event) :
    ∃ tlb h, run (fifoStep t) (tlbInit t, []) es = some (tlb, h) ∧ InOrder t tlb h := by
  have hmeets : Meets (fifoStep t) (fun _ _ => True) (tlbInit t, []) es :=
    meets_iff_forall_prefix.mpr fun _ _ _ _ _ => trivial
  obtain ⟨⟨tlb, h⟩, hr, hq⟩ := hmeets.progress (fun _ e hq _ => hq.step e)
    (queue_empty t.entradasTlb_pos)
  exact ⟨tlb, h, hr, hq.inOrder⟩

/-- Two entries, the index in the middle when the table is cleared: the first insertion goes to the
second entry, and the third one replaces it. -/
example : (run (fifoStep smallTlb) (tlbInit smallTlb, [])
    [.access ⟨9, by decide⟩ 0, .reset, .access ⟨5, by decide⟩ 1, .access ⟨6, by decide⟩ 2,
      .access ⟨7, by decide⟩ 3]).map (pairs ·.1) = some [(6, 2), (7, 3)] := by decide

end Sski.Cpu.Fifo
