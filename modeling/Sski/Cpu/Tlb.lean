import Mathlib.Data.Nat.Notation
import Mathlib.Tactic.Lemma
import Mathlib.Data.List.Basic
import Mathlib.Algebra.Group.Nat.Defs

/-!
The TLB: entries of a page and its frame, and the two ways a new one finds its place.

For the rest of the system a TLB is its list of pairs. Looking a page up keeps the pairs; a
replacement changes exactly one, in the `slot` the algorithm chooses.
-/

namespace Sski.Cpu.Tlb

/-- `PAGINA_VACIA`, the page of an entry that is not in use. -/
def paginaVacia : ℕ := 2 ^ 32 - 1

/-- `REEMPLAZO_TLB`: the string `"LRU"`, or any other. -/
inductive Reemplazo | lru | fifo
  deriving DecidableEq, Repr

structure TlbCfg where
  entradasTlb : ℕ
  reemplazoTlb : Reemplazo
  entradasTlb_pos : 0 < entradasTlb
  entradasTlb_lt : entradasTlb < 2 ^ 31

def singleTlb : TlbCfg := ⟨1, .lru, by decide, by decide⟩

def smallTlb : TlbCfg := ⟨2, .fifo, by decide, by decide⟩

structure Entry where
  pagina : ℕ
  frame : ℕ
  tiempoUltAcceso : ℕ
  deriving DecidableEq, Repr

/-- The entries, and the static index of `replace_fifo`, which a reset leaves as it is. -/
structure State where
  entries : List Entry
  i : ℕ
  deriving DecidableEq, Repr

variable (t : TlbCfg)

def emptyEntries : List Entry := List.replicate t.entradasTlb ⟨paginaVacia, paginaVacia, 0⟩

def tlbInit : State := ⟨emptyEntries t, 0⟩

def tlbReset (tlb : State) : State := { tlb with entries := emptyEntries t }

def Entry.older (e : Entry) : Entry :=
  { e with tiempoUltAcceso := (e.tiempoUltAcceso + 1) % 2 ^ 32 }

/-- The loop of `page_in_TLB`, up to the first entry of the page. -/
def find (page : ℕ) : List Entry → List Entry × Option ℕ
  | [] => ([], none)
  | e :: es =>
    if e.pagina = page then ({ e with tiempoUltAcceso := 0 } :: es, some e.frame)
    else
      let (es, frame) := find page es
      (e.older :: es, frame)

def pageInTlb (tlb : State) (page : ℕ) : State × Option ℕ :=
  let (entries, frame) := find page tlb.entries
  ({ tlb with entries }, frame)

/-- The first loop of `replace_lru`, up to the first empty entry, and its index. -/
def ageToEmpty : List Entry → List Entry × Option ℕ
  | [] => ([], none)
  | e :: es =>
    if e.pagina = paginaVacia then (e.older :: es, some 0)
    else
      let (es, i) := ageToEmpty es
      (e.older :: es, i.map (· + 1))

/-- The second loop of `replace_lru`: the first of the longest times above `time`. -/
def oldest : List Entry → (i : ℕ) → (best : Option ℕ) → (time : ℕ) → Option ℕ
  | [], _, best, _ => best
  | e :: es, i, best, time =>
    if e.tiempoUltAcceso > time then oldest es (i + 1) (some i) e.tiempoUltAcceso
    else oldest es (i + 1) best time

/-- The entry a replacement overwrites; `none` is an index that was never set. -/
def slot (tlb : State) : Option ℕ :=
  match t.reemplazoTlb with
  | .fifo => some tlb.i
  | .lru =>
    match ageToEmpty tlb.entries with
    | (_, some i) => some i
    | (entries, none) => oldest entries 0 none 0

def replaceFifo (tlb : State) (page frame : ℕ) : Option State := do
  let e ← tlb.entries[tlb.i]?
  return { entries := tlb.entries.set tlb.i { e with pagina := page, frame }
           i := if tlb.i + 1 < t.entradasTlb then tlb.i + 1 else 0 }

def replaceLru (tlb : State) (page frame : ℕ) : Option State :=
  match ageToEmpty tlb.entries with
  | (entries, some i) => some { tlb with entries := entries.set i ⟨page, frame, 0⟩ }
  | (entries, none) => do
    let i ← oldest entries 0 none 0
    return { tlb with entries := entries.set i ⟨page, frame, 0⟩ }

def replace (tlb : State) (page frame : ℕ) : Option State :=
  match t.reemplazoTlb with
  | .lru => replaceLru tlb page frame
  | .fifo => replaceFifo t tlb page frame

/-! ### Pages and frames -/

def Entry.pair (e : Entry) : ℕ × ℕ := (e.pagina, e.frame)

def pairs (tlb : State) : List (ℕ × ℕ) := tlb.entries.map Entry.pair

@[simp] lemma older_pair (e : Entry) : e.older.pair = e.pair := rfl

lemma find_pairs (page : ℕ) (es : List Entry) :
    (find page es).1.map Entry.pair = es.map Entry.pair := by
  induction es with
  | nil => rfl
  | cons e es ih =>
    unfold find
    split
    · rfl
    · simpa using ih

lemma pairs_pageInTlb (tlb : State) (page : ℕ) : pairs (pageInTlb tlb page).1 = pairs tlb :=
  find_pairs page tlb.entries

lemma find_eq_some {page frame : ℕ} {es : List Entry} (h : (find page es).2 = some frame) :
    (page, frame) ∈ es.map Entry.pair := by
  induction es with
  | nil => cases h
  | cons e es ih =>
    unfold find at h
    split at h
    · rename_i hpage
      obtain rfl := Option.some.inj h
      subst hpage
      exact List.mem_cons_self
    · exact List.mem_cons_of_mem _ (ih h)

/-- A hit is one of the pairs. -/
lemma pageInTlb_eq_some {tlb : State} {page frame : ℕ} (h : (pageInTlb tlb page).2 = some frame) :
    (page, frame) ∈ pairs tlb := find_eq_some h

lemma ageToEmpty_pairs (es : List Entry) :
    (ageToEmpty es).1.map Entry.pair = es.map Entry.pair := by
  induction es with
  | nil => rfl
  | cons e es ih =>
    unfold ageToEmpty
    split
    · rfl
    · simpa using ih

lemma ageToEmpty_lt {es : List Entry} {i : ℕ} (h : (ageToEmpty es).2 = some i) :
    i < es.length := by
  induction es generalizing i with
  | nil => cases h
  | cons e es ih =>
    unfold ageToEmpty at h
    split at h
    · obtain rfl := Option.some.inj h
      simp
    · obtain ⟨j, hj, rfl⟩ := Option.map_eq_some_iff.mp h
      simpa using ih hj

lemma oldest_lt {es : List Entry} {i j time : ℕ} {best : Option ℕ}
    (h : oldest es i best time = some j) (hbest : ∀ b, best = some b → b < i + es.length) :
    j < i + es.length := by
  induction es generalizing i best time with
  | nil => exact hbest j h
  | cons e es ih =>
    have hlen : i + (e :: es).length = i + 1 + es.length := by simp; omega
    rw [hlen] at hbest ⊢
    unfold oldest at h
    split at h
    · refine ih h fun b hb => ?_
      obtain rfl := Option.some.inj hb
      omega
    · exact ih h hbest

/-- A replacement overwrites the pair in the slot of the algorithm, and no other. -/
theorem replace_eq_some {tlb tlb' : State} {page frame : ℕ}
    (h : replace t tlb page frame = some tlb') :
    ∃ i, slot t tlb = some i ∧ i < tlb.entries.length ∧
      pairs tlb' = (pairs tlb).set i (page, frame) := by
  unfold replace at h
  cases halg : t.reemplazoTlb with
  | fifo =>
    simp only [halg, replaceFifo, Option.bind_eq_bind, Option.bind_eq_some_iff, Option.pure_def,
      Option.some.injEq] at h
    obtain ⟨e, he, rfl⟩ := h
    refine ⟨tlb.i, by simp only [slot, halg], (List.getElem?_eq_some_iff.mp he).1, ?_⟩
    simp [pairs, Entry.pair]
  | lru =>
    simp only [halg, replaceLru] at h
    have hpairs := ageToEmpty_pairs tlb.entries
    have hlen : (ageToEmpty tlb.entries).1.length = tlb.entries.length := by
      simpa using congrArg List.length hpairs
    have hlt : ∀ i, (ageToEmpty tlb.entries).2 = some i → i < tlb.entries.length :=
      fun _ => ageToEmpty_lt
    cases hage : ageToEmpty tlb.entries with
    | mk entries found =>
      simp only [hage] at h hpairs hlen hlt
      cases found with
      | some i =>
        obtain rfl := Option.some.inj h
        refine ⟨i, by simp only [slot, halg, hage], hlt i rfl, ?_⟩
        simp [pairs, List.map_set, hpairs, Entry.pair]
      | none =>
        simp only [Option.bind_eq_bind, Option.bind_eq_some_iff, Option.pure_def,
          Option.some.injEq] at h
        obtain ⟨i, hi, rfl⟩ := h
        have hi' := oldest_lt hi (by simp)
        refine ⟨i, by simp only [slot, halg, hage, hi], by omega, ?_⟩
        simp [pairs, List.map_set, hpairs, Entry.pair]

/-! ### The slot is always set -/

/-- What keeps the index of `replace_lru` set and that of `replace_fifo` inside: one entry was
used last, and it has the time 0. -/
structure Fresh (tlb : State) : Prop where
  length : tlb.entries.length = t.entradasTlb
  i_lt : tlb.i < t.entradasTlb
  fresh : t.reemplazoTlb = .lru → ∃ e ∈ tlb.entries, e.tiempoUltAcceso = 0

lemma length_emptyEntries : (emptyEntries t).length = t.entradasTlb := by simp [emptyEntries]

lemma fresh_emptyEntries : ∃ e ∈ emptyEntries t, e.tiempoUltAcceso = 0 :=
  ⟨_, List.mem_replicate.mpr ⟨Nat.ne_of_gt t.entradasTlb_pos, rfl⟩, rfl⟩

lemma fresh_tlbInit : Fresh t (tlbInit t) :=
  ⟨length_emptyEntries t, t.entradasTlb_pos, fun _ => fresh_emptyEntries t⟩

variable {t}

lemma Fresh.tlbReset {tlb : State} (h : Fresh t tlb) : Fresh t (tlbReset t tlb) :=
  ⟨length_emptyEntries t, h.i_lt, fun _ => fresh_emptyEntries t⟩

lemma length_find (page : ℕ) (es : List Entry) : (find page es).1.length = es.length := by
  simpa using congrArg List.length (find_pairs page es)

lemma find_fresh {page frame : ℕ} {es : List Entry} (h : (find page es).2 = some frame) :
    ∃ e ∈ (find page es).1, e.tiempoUltAcceso = 0 := by
  induction es with
  | nil => cases h
  | cons e es ih =>
    unfold find at h ⊢
    split
    · exact ⟨_, List.mem_cons_self, rfl⟩
    · rename_i hne
      rw [if_neg hne] at h
      obtain ⟨e', he', htime⟩ := ih h
      exact ⟨e', List.mem_cons_of_mem _ he', htime⟩

lemma find_eq_none {page : ℕ} {es : List Entry} (h : (find page es).2 = none) :
    (find page es).1 = es.map Entry.older := by
  induction es with
  | nil => rfl
  | cons e es ih =>
    unfold find at h ⊢
    split
    · rename_i heq
      simp [heq] at h
    · rename_i hne
      rw [if_neg hne] at h
      simpa using ih h

lemma Fresh.hit {tlb : State} (h : Fresh t tlb) {page frame : ℕ}
    (hhit : (pageInTlb tlb page).2 = some frame) : Fresh t (pageInTlb tlb page).1 :=
  ⟨(length_find page tlb.entries).trans h.length, h.i_lt, fun _ => find_fresh hhit⟩

lemma ageToEmpty_eq_none {es : List Entry} (h : (ageToEmpty es).2 = none) :
    (ageToEmpty es).1 = es.map Entry.older := by
  induction es with
  | nil => rfl
  | cons e es ih =>
    unfold ageToEmpty at h ⊢
    split
    · rename_i heq
      simp [heq] at h
    · rename_i hne
      rw [if_neg hne] at h
      simpa using ih (by simpa using h)

lemma oldest_isSome {es : List Entry} {i time : ℕ} {best : Option ℕ}
    (h : best.isSome ∨ ∃ e ∈ es, time < e.tiempoUltAcceso) : (oldest es i best time).isSome := by
  induction es generalizing i best time with
  | nil => simpa [oldest] using h
  | cons e es ih =>
    unfold oldest
    split
    · exact ih (.inl rfl)
    · rename_i hle
      refine ih ?_
      rcases h with h | ⟨e', he', htime⟩
      · exact .inl h
      · rcases List.mem_cons.mp he' with rfl | he'
        · exact absurd htime hle
        · exact .inr ⟨e', he', htime⟩

/-- **Replacement never fails.** After a miss the algorithm has a slot, for each length of the
TLB and each number of accesses. -/
theorem Fresh.replace {tlb : State} (h : Fresh t tlb) {page : ℕ}
    (hmiss : (pageInTlb tlb page).2 = none) (frame : ℕ) :
    ∃ tlb', Tlb.replace t (pageInTlb tlb page).1 page frame = some tlb' ∧ Fresh t tlb' := by
  have hlen : (find page tlb.entries).1.length = t.entradasTlb :=
    (length_find page tlb.entries).trans h.length
  have hi : tlb.i < (find page tlb.entries).1.length := hlen ▸ h.i_lt
  have hfind := find_eq_none hmiss
  unfold Tlb.replace pageInTlb
  cases halg : t.reemplazoTlb with
  | fifo =>
    refine ⟨_, by simp only [replaceFifo, List.getElem?_eq_getElem hi]; rfl, ?_⟩
    refine ⟨by simpa using hlen, ?_, fun hlru => ?_⟩
    · have := t.entradasTlb_pos
      simp only
      split <;> omega
    · rw [halg] at hlru
      cases hlru
  | lru =>
    have hpairs := ageToEmpty_pairs (find page tlb.entries).1
    have hlen' := congrArg List.length hpairs
    simp only [List.length_map] at hlen'
    -- the new entry is the fresh one
    have hnew : ∀ (es : List Entry) (i : ℕ), i < es.length → es.length = t.entradasTlb →
        Fresh t ⟨es.set i ⟨page, frame, 0⟩, tlb.i⟩ := fun es i hlt hes =>
      ⟨by simpa using hes, h.i_lt, fun _ => ⟨_, List.mem_set hlt _, rfl⟩⟩
    cases hage : ageToEmpty (find page tlb.entries).1 with
    | mk es found =>
      have hes : es.length = t.entradasTlb := by
        rw [hage] at hlen'
        exact hlen'.trans hlen
      cases found with
      | some i =>
        have hlt : i < (find page tlb.entries).1.length := by
          refine ageToEmpty_lt ?_
          rw [hage]
        refine ⟨_, by simp only [replaceLru, hage], hnew es i (by omega) hes⟩
      | none =>
        -- the entry used last is two loops old
        obtain ⟨e, he, htime⟩ := h.fresh halg
        have hnone : (ageToEmpty (find page tlb.entries).1).2 = none := by rw [hage]
        have hold := ageToEmpty_eq_none hnone
        rw [hage, hfind] at hold
        have hsome : (oldest es 0 none 0).isSome := by
          refine oldest_isSome (.inr ⟨e.older.older, ?_, by simp [Entry.older, htime]⟩)
          rw [show es = _ from hold]
          exact List.mem_map_of_mem (List.mem_map_of_mem he)
        obtain ⟨i, hoi⟩ := Option.isSome_iff_exists.mp hsome
        have hlt := oldest_lt hoi (by simp)
        refine ⟨_, ?_, hnew es i (by omega) hes⟩
        simp [replaceLru, hage, hoi]

end Sski.Cpu.Tlb
