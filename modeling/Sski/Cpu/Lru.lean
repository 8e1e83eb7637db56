import Mathlib.Data.List.Nodup
import Sski.Lib.Recency
import Sski.Lib.Runs
import Sski.Cpu.Mmu

/-!
Which page the LRU replacement of the TLB evicts.

The time of an entry is meant to grow with every access to another page. A miss makes all entries
older; a hit makes only those older that stand before it. So the times stay in the order of the
last accesses as long as each hit is one that needs no more than that.
-/

namespace Sski.Cpu.Lru

open Sski.Lib.Runs Sski.Lib.Recency Sski.Mem.MemoryModule Sski.Cpu.Tlb Sski.Cpu.Mmu

/-- The TLB's part of a translation: a page is looked up, and added with its frame if it is not
there. -/
def lookup (t : TlbCfg) (tlb : State) (access : ℕ × ℕ) : Option State :=
  match pageInTlb tlb access.1 with
  | (tlb, some _) => some tlb
  | (tlb, none) => replace t tlb access.1 access.2

def noteAccess (_ : State) (access : ℕ × ℕ) (history : List ℕ) : List ℕ := access.1 :: history

abbrev tlbStep (t : TlbCfg) : State × List ℕ → ℕ × ℕ → Option (State × List ℕ) :=
  watched (lookup t) noteAccess

variable {t : TlbCfg} {tlb tlb' : State} {page frame : ℕ} {es l₁ l₂ : List Entry} {h : List ℕ}

lemma lookup_reqPhysicalAddress {c : Cfg} {b b' : Bus} {p : Process} {a pa : ℕ} {os os' : Os}
    (hreq : reqPhysicalAddress c t b p a os os' = some (b', pa)) :
    ∃ frame, lookup t b.tlb (getPageNumber a c.tamPagina, frame) = some b'.tlb := by
  rcases reqPhysicalAddress_cases hreq with
    ⟨frame, hhit, rfl, -⟩ | ⟨hmiss, ref, frame, -, -, hreplace, -⟩
  · refine ⟨frame, ?_⟩
    cases hfind : pageInTlb b.tlb (getPageNumber a c.tamPagina) with
    | mk tlb hit =>
      rw [hfind] at hhit
      obtain rfl : hit = some frame := hhit
      simp only [lookup, hfind]
  · refine ⟨frame, ?_⟩
    cases hfind : pageInTlb b.tlb (getPageNumber a c.tamPagina) with
    | mk tlb hit =>
      rw [hfind] at hmiss hreplace
      obtain rfl : hit = none := hmiss
      simp only [lookup, hfind, hreplace]

/-! ### The loops -/

lemma find_split (page : ℕ) {e : Entry} (h₁ : ∀ x ∈ l₁, x.pagina ≠ page) (he : e.pagina = page)
    (l₂ : List Entry) : find page (l₁ ++ e :: l₂) =
      (l₁.map Entry.older ++ { e with tiempoUltAcceso := 0 } :: l₂, some e.frame) := by
  induction l₁ with
  | nil => simp [find, he]
  | cons x xs ih =>
    have hx : x.pagina ≠ page := h₁ x List.mem_cons_self
    simp only [List.cons_append, find, if_neg hx,
      ih fun y hy => h₁ y (List.mem_cons_of_mem _ hy), List.map_cons]

lemma exists_first (h : ∃ e ∈ es, e.pagina = page) :
    ∃ l₁ e l₂, es = l₁ ++ e :: l₂ ∧ e.pagina = page ∧ ∀ x ∈ l₁, x.pagina ≠ page := by
  have hsome : (es.find? fun e => e.pagina == page).isSome = true := by
    simpa [List.find?_isSome] using h
  obtain ⟨e, hfind⟩ := Option.isSome_iff_exists.mp hsome
  obtain ⟨hpage, l₁, l₂, rfl, hfirst⟩ := List.find?_eq_some_iff_append.mp hfind
  exact ⟨l₁, e, l₂, rfl, by simpa using hpage, by simpa using hfirst⟩

lemma pagina_ne_of_miss (hmiss : (find page es).2 = none) : ∀ e ∈ es, e.pagina ≠ page := by
  by_contra hex
  push Not at hex
  obtain ⟨l₁, e, l₂, rfl, hpage, hfirst⟩ := exists_first hex
  rw [find_split page hfirst hpage] at hmiss
  cases hmiss

lemma ageToEmpty_split {e : Entry} (h₁ : ∀ x ∈ l₁, x.pagina ≠ paginaVacia)
    (he : e.pagina = paginaVacia) (l₂ : List Entry) : ageToEmpty (l₁ ++ e :: l₂) =
      (l₁.map Entry.older ++ e.older :: l₂, some l₁.length) := by
  induction l₁ with
  | nil => simp [ageToEmpty, he]
  | cons x xs ih =>
    have hx : x.pagina ≠ paginaVacia := h₁ x List.mem_cons_self
    simp only [List.cons_append, ageToEmpty, if_neg hx,
      ih fun y hy => h₁ y (List.mem_cons_of_mem _ hy), List.map_cons, Option.map_some,
      List.length_cons]

lemma ageToEmpty_full (h : ∀ x ∈ es, x.pagina ≠ paginaVacia) :
    ageToEmpty es = (es.map Entry.older, none) := by
  induction es with
  | nil => rfl
  | cons x xs ih =>
    have hx : x.pagina ≠ paginaVacia := h x List.mem_cons_self
    simp only [ageToEmpty, if_neg hx, ih fun y hy => h y (List.mem_cons_of_mem _ hy),
      List.map_cons, Option.map_none]

lemma ageToEmpty_cases (es : List Entry) :
    (∃ l₁ e l₂, es = l₁ ++ e :: l₂ ∧ e.pagina = paginaVacia ∧
      (∀ x ∈ l₁, x.pagina ≠ paginaVacia) ∧
      ageToEmpty es = (l₁.map Entry.older ++ e.older :: l₂, some l₁.length)) ∨
    ((∀ x ∈ es, x.pagina ≠ paginaVacia) ∧ ageToEmpty es = (es.map Entry.older, none)) := by
  by_cases hex : ∃ e ∈ es, e.pagina = paginaVacia
  · obtain ⟨l₁, e, l₂, rfl, hpage, hfirst⟩ := exists_first hex
    exact .inl ⟨l₁, e, l₂, rfl, hpage, hfirst, ageToEmpty_split hfirst hpage l₂⟩
  · push Not at hex
    exact .inr ⟨hex, ageToEmpty_full hex⟩

/-- The index the second loop leaves is that of the first of the longest times. -/
lemma oldest_split {i j time : ℕ} {best : Option ℕ} (ho : oldest es i best time = some j) :
    (best = some j ∧ ∀ x ∈ es, x.tiempoUltAcceso ≤ time) ∨
    ∃ l₁ v l₂, es = l₁ ++ v :: l₂ ∧ j = i + l₁.length ∧ time < v.tiempoUltAcceso ∧
      (∀ x ∈ l₁, x.tiempoUltAcceso < v.tiempoUltAcceso) ∧
      ∀ x ∈ l₂, x.tiempoUltAcceso ≤ v.tiempoUltAcceso := by
  induction es generalizing i best time with
  | nil => exact .inl ⟨ho, by simp⟩
  | cons e es ih =>
    unfold oldest at ho
    split at ho
    · rename_i hgt
      rcases ih ho with ⟨hbest, hle⟩ | ⟨l₁, v, l₂, rfl, rfl, htime, hlt, hle⟩
      · obtain rfl := Option.some.inj hbest
        exact .inr ⟨[], e, es, rfl, rfl, hgt, by simp, hle⟩
      · exact .inr ⟨e :: l₁, v, l₂, rfl, by simp only [List.length_cons]; omega, by omega,
          List.forall_mem_cons.mpr ⟨htime, hlt⟩, hle⟩
    · rename_i hngt
      rcases ih ho with ⟨hbest, hle⟩ | ⟨l₁, v, l₂, rfl, rfl, htime, hlt, hle⟩
      · exact .inl ⟨hbest, List.forall_mem_cons.mpr ⟨by omega, hle⟩⟩
      · exact .inr ⟨e :: l₁, v, l₂, rfl, by simp only [List.length_cons]; omega, htime,
          List.forall_mem_cons.mpr ⟨by omega, hlt⟩, hle⟩

/-! ### The two ends of a lookup -/

lemma lookup_hit {hit : ℕ} (hhit : (pageInTlb tlb page).2 = some hit) (frame : ℕ) :
    lookup t tlb (page, frame) = some { tlb with entries := (find page tlb.entries).1 } := by
  unfold lookup pageInTlb at *
  cases hfind : find page tlb.entries with
  | mk entries found =>
    simp only [hfind] at hhit ⊢
    rw [hhit]

lemma lookup_miss (halg : t.reemplazoTlb = .lru) (hmiss : (pageInTlb tlb page).2 = none)
    (frame : ℕ) : lookup t tlb (page, frame) =
      replaceLru { tlb with entries := tlb.entries.map Entry.older } page frame := by
  have hold := find_eq_none hmiss
  unfold lookup pageInTlb at *
  cases hfind : find page tlb.entries with
  | mk entries found =>
    simp only [hfind] at hmiss hold ⊢
    rw [hmiss, hold]
    simp only [replace, halg]

/-! ### Every run -/

/-- No time is longer than two steps per access. -/
structure Bounded (t : TlbCfg) (st : State × List ℕ) : Prop where
  length : st.1.entries.length = t.entradasTlb
  times : ∀ e ∈ st.1.entries, e.tiempoUltAcceso ≤ 2 * st.2.length

lemma older_le (e : Entry) : e.older.tiempoUltAcceso ≤ e.tiempoUltAcceso + 1 := Nat.mod_le _ _

lemma bounded_tlbReset (t : TlbCfg) (tlb : State) : Bounded t (tlbReset t tlb, []) := by
  refine ⟨length_emptyEntries t, fun e he => ?_⟩
  rw [List.eq_of_mem_replicate he]
  exact Nat.zero_le _

lemma find_times {n : ℕ} (page : ℕ) (hle : ∀ e ∈ es, e.tiempoUltAcceso ≤ n) :
    ∀ e ∈ (find page es).1, e.tiempoUltAcceso ≤ n + 1 := by
  induction es with
  | nil => simp [find]
  | cons x xs ih =>
    obtain ⟨hx, hxs⟩ := List.forall_mem_cons.mp hle
    unfold find
    split
    · exact List.forall_mem_cons.mpr ⟨Nat.zero_le _, fun e he => Nat.le_succ_of_le (hxs e he)⟩
    · refine List.forall_mem_cons.mpr ⟨?_, ih hxs⟩
      have := older_le x
      omega

lemma ageToEmpty_times {n : ℕ} (hle : ∀ e ∈ es, e.tiempoUltAcceso ≤ n) :
    ∀ e ∈ (ageToEmpty es).1, e.tiempoUltAcceso ≤ n + 1 := by
  have hold : ∀ x ∈ es, x.older.tiempoUltAcceso ≤ n + 1 := fun x hx =>
    (older_le x).trans (Nat.succ_le_succ (hle x hx))
  rcases ageToEmpty_cases es with ⟨l₁, e, l₂, rfl, -, -, hage⟩ | ⟨-, hage⟩
  · rw [hage]
    simp only [List.mem_append, List.mem_cons, List.mem_map] at hold hle ⊢
    rintro x (⟨y, hy, rfl⟩ | rfl | hx)
    · exact hold y (.inl hy)
    · exact hold e (.inr (.inl rfl))
    · exact Nat.le_succ_of_le (hle x (.inr (.inr hx)))
  · rw [hage]
    intro x hx
    obtain ⟨y, hy, rfl⟩ := List.mem_map.mp hx
    exact hold y hy

lemma replaceLru_times {n : ℕ} (hle : ∀ e ∈ tlb.entries, e.tiempoUltAcceso ≤ n)
    (hrep : replaceLru tlb page frame = some tlb') :
    (∀ e ∈ tlb'.entries, e.tiempoUltAcceso ≤ n + 1) ∧
      tlb'.entries.length = tlb.entries.length := by
  have hage := ageToEmpty_times hle
  have hlen := congrArg List.length (ageToEmpty_pairs tlb.entries)
  simp only [List.length_map] at hlen
  have hset : ∀ i, ∀ e ∈ (ageToEmpty tlb.entries).1.set i ⟨page, frame, 0⟩,
      e.tiempoUltAcceso ≤ n + 1 := by
    intro i e he
    rcases List.mem_or_eq_of_mem_set he with he | rfl
    · exact hage e he
    · exact Nat.zero_le _
  unfold replaceLru at hrep
  split at hrep
  · rename_i entries i heq
    obtain rfl := Option.some.inj hrep
    rw [heq] at hset hlen
    exact ⟨hset i, by simpa using hlen⟩
  · rename_i entries heq
    simp only [Option.bind_eq_bind, Option.bind_eq_some_iff, Option.pure_def,
      Option.some.injEq] at hrep
    obtain ⟨i, -, rfl⟩ := hrep
    rw [heq] at hset hlen
    exact ⟨hset i, by simpa using hlen⟩

lemma Bounded.step (halg : t.reemplazoTlb = .lru) {st st' : State × List ℕ} (hb : Bounded t st)
    {access : ℕ × ℕ} (hs : tlbStep t st access = some st') : Bounded t st' := by
  obtain ⟨tlb, h⟩ := st
  obtain ⟨tlb', h'⟩ := st'
  obtain ⟨hlookup, rfl⟩ := watched_eq_some.mp hs
  obtain ⟨hlen, hle⟩ := hb
  simp only at hlen hle hlookup
  have hhist : 2 * (noteAccess tlb access h).length = 2 * h.length + 1 + 1 := by
    rw [noteAccess, List.length_cons]
    omega
  cases hhit : (pageInTlb tlb access.1).2 with
  | some hit =>
    rw [lookup_hit hhit access.2, Option.some.injEq] at hlookup
    subst hlookup
    refine ⟨(length_find _ _).trans hlen, fun e he => ?_⟩
    rw [hhist]
    exact Nat.le_succ_of_le (find_times access.1 hle e he)
  | none =>
    rw [lookup_miss halg hhit] at hlookup
    have hold : ∀ e ∈ tlb.entries.map Entry.older, e.tiempoUltAcceso ≤ 2 * h.length + 1 := by
      have := find_times access.1 hle
      rwa [find_eq_none hhit] at this
    obtain ⟨htimes, hlen'⟩ := replaceLru_times hold hlookup
    refine ⟨?_, fun e he => ?_⟩
    · rw [hlen', List.length_map]
      exact hlen
    · rw [hhist]
      exact htimes e he

/-- Where a page goes that is not in the TLB: to an index that is set and inside, and to an empty
entry if there is one. -/
def Places (t : TlbCfg) (tlb : State) (page : ℕ) : Prop :=
  ∃ i, slot t (pageInTlb tlb page).1 = some i ∧ i < t.entradasTlb ∧
    ((∃ e ∈ tlb.entries, e.pagina = paginaVacia) →
      ∃ e, tlb.entries[i]? = some e ∧ e.pagina = paginaVacia)

lemma slot_miss (halg : t.reemplazoTlb = .lru) (hmiss : (pageInTlb tlb page).2 = none)
    {found : Option ℕ} (hage : ageToEmpty (tlb.entries.map Entry.older) = (es, found)) :
    slot t (pageInTlb tlb page).1 = found.or (oldest es 0 none 0) := by
  have hentries : (pageInTlb tlb page).1.entries = tlb.entries.map Entry.older :=
    find_eq_none hmiss
  simp only [slot, halg, hentries, hage]
  cases found <;> rfl

lemma map_older_split {e : Entry} (hes : es.map Entry.older = l₁ ++ e :: l₂) :
    ∃ k₁ x k₂, es = k₁ ++ x :: k₂ ∧ k₁.map Entry.older = l₁ ∧ x.older = e ∧
      k₂.map Entry.older = l₂ := by
  obtain ⟨k₁, k, rfl, rfl, hk⟩ := List.map_eq_append_iff.mp hes
  obtain ⟨x, k₂, rfl, rfl, rfl⟩ := List.map_eq_cons_iff.mp hk
  exact ⟨k₁, x, k₂, rfl, rfl, rfl, rfl⟩

lemma older_time {e : Entry} (hlt : e.tiempoUltAcceso + 1 < 2 ^ 32) :
    e.older.tiempoUltAcceso = e.tiempoUltAcceso + 1 := Nat.mod_eq_of_lt hlt

lemma older_older_time {e : Entry} (hlt : e.tiempoUltAcceso + 2 < 2 ^ 32) :
    e.older.older.tiempoUltAcceso = e.tiempoUltAcceso + 2 := by
  have hone : e.older.tiempoUltAcceso = e.tiempoUltAcceso + 1 := older_time (by omega)
  rw [older_time (by omega), hone]

/-- **The victim.** Fewer than 2^31 accesses after a reset the index is always set. -/
lemma Bounded.places (halg : t.reemplazoTlb = .lru) {h : List ℕ} (hb : Bounded t (tlb, h))
    (hshort : h.length + 1 < 2 ^ 31) (hmiss : (pageInTlb tlb page).2 = none) :
    Places t tlb page := by
  have hlen : tlb.entries.length = t.entradasTlb := hb.length
  rcases ageToEmpty_cases (tlb.entries.map Entry.older) with
    ⟨l₁, e, l₂, hes, hpage, -, hage⟩ | ⟨hfull, hage⟩
  · obtain ⟨k₁, x, k₂, hsplit, rfl, rfl, rfl⟩ := map_older_split hes
    have hslot := slot_miss halg hmiss hage
    rw [List.length_map] at hslot
    refine ⟨k₁.length, hslot, ?_, fun _ => ⟨x, ?_, hpage⟩⟩
    · rw [← hlen, hsplit, List.length_append, List.length_cons]
      omega
    · rw [hsplit]
      simp
  · -- every entry is at least one step old
    have hslot := slot_miss halg hmiss hage
    have hsome : (oldest ((tlb.entries.map Entry.older).map Entry.older) 0 none 0).isSome := by
      obtain ⟨e, he⟩ := List.exists_mem_of_length_pos (hlen ▸ t.entradasTlb_pos)
      refine oldest_isSome (.inr ⟨e.older.older,
        List.mem_map_of_mem (List.mem_map_of_mem he), ?_⟩)
      have htime : e.tiempoUltAcceso ≤ 2 * h.length := hb.times e he
      rw [older_older_time (by omega)]
      omega
    obtain ⟨i, hi⟩ := Option.isSome_iff_exists.mp hsome
    rw [hi] at hslot
    refine ⟨i, hslot, ?_, fun ⟨e, he, hpage⟩ => ?_⟩
    · have hlt := oldest_lt hi (by simp)
      simpa [hlen] using hlt
    · exact absurd hpage (hfull e.older (List.mem_map_of_mem he))

/-! ### Times in the order of the last accesses -/

def rank (e : Entry) : ℕ × ℕ := (e.pagina, e.tiempoUltAcceso)

/-- The entries in use stand in front, each with a page of its own that was looked up, and with
times in the order of the last accesses. -/
structure InUse (h : List ℕ) (occ : List Entry) : Prop where
  used : ∀ e ∈ occ, e.pagina ≠ paginaVacia ∧ e.pagina ∈ h
  distinct : (occ.map Entry.pagina).Nodup
  ranked : Ranked h (occ.map rank)

def Tracks (st : State × List ℕ) : Prop :=
  ∃ occ emp, st.1.entries = occ ++ emp ∧ (∀ e ∈ emp, e.pagina = paginaVacia) ∧ InUse st.2 occ

/-- The condition on a lookup. A hit needs no entry in use behind it to become older: none was used
just now, and none is one step older than an entry before it. -/
def KeepsOrder (st : State × List ℕ) (access : ℕ × ℕ) : Prop :=
  access.1 ≠ paginaVacia ∧ ∀ l₁ e l₂, st.1.entries = l₁ ++ e :: l₂ → e.pagina = access.1 →
    (∀ x ∈ l₁, x.pagina ≠ access.1) → ∀ y ∈ l₂, y.pagina ≠ paginaVacia →
      0 < y.tiempoUltAcceso ∧ ∀ x ∈ l₁, y.tiempoUltAcceso ≠ x.tiempoUltAcceso + 1

lemma tracks_tlbReset (t : TlbCfg) (tlb : State) : Tracks (tlbReset t tlb, []) := by
  refine ⟨[], emptyEntries t, rfl, fun e he => ?_, by simp, by simp, List.Pairwise.nil⟩
  rw [List.eq_of_mem_replicate he]

lemma rank_older {e : Entry} (hlt : e.tiempoUltAcceso + 1 < 2 ^ 32) :
    rank e.older = aged 1 (rank e) := by
  rw [rank, older_time hlt]
  rfl

lemma map_rank_older (hlt : ∀ e ∈ es, e.tiempoUltAcceso + 1 < 2 ^ 32) :
    (es.map Entry.older).map rank = (es.map rank).map (aged 1) := by
  rw [List.map_map, List.map_map]
  exact List.map_congr_left fun e he => rank_older (hlt e he)

lemma map_pagina_older (es : List Entry) :
    (es.map Entry.older).map Entry.pagina = es.map Entry.pagina := by
  rw [List.map_map]
  rfl

lemma map_older_older (hlt : ∀ e ∈ es, e.tiempoUltAcceso + 2 < 2 ^ 32) :
    ((es.map Entry.older).map Entry.older).map rank =
      ((es.map rank).map (aged 1)).map (aged 1) := by
  rw [map_rank_older, map_rank_older fun e he => by have := hlt e he; omega]
  intro e he
  obtain ⟨x, hx, rfl⟩ := List.mem_map.mp he
  have := hlt x hx
  have := older_le x
  omega

lemma InUse.older (hu : InUse h es) (hlt : ∀ e ∈ es, e.tiempoUltAcceso + 2 < 2 ^ 32) :
    InUse h ((es.map Entry.older).map Entry.older) := by
  refine ⟨?_, ?_, ?_⟩
  · intro e he
    obtain ⟨y, hy, rfl⟩ := List.mem_map.mp he
    obtain ⟨x, hx, rfl⟩ := List.mem_map.mp hy
    exact hu.used x hx
  · rw [map_pagina_older, map_pagina_older]
    exact hu.distinct
  · rw [map_older_older hlt]
    exact (hu.ranked.map_aged 1).map_aged 1

lemma one_le_older {e : Entry} (hlt : e.tiempoUltAcceso + 2 < 2 ^ 32) :
    0 < e.older.older.tiempoUltAcceso := by
  rw [older_older_time hlt]
  omega

lemma InUse.place (hu : InUse h (l₁ ++ l₂)) (hpage : page ≠ paginaVacia)
    (hnew : ∀ e ∈ l₁ ++ l₂, e.pagina ≠ page) (hpos : ∀ e ∈ l₂, 0 < e.tiempoUltAcceso)
    (frame : ℕ) : InUse (page :: h) (l₁ ++ ⟨page, frame, 0⟩ :: l₂) := by
  have hdistinct := hu.distinct
  have hranked := hu.ranked
  rw [List.map_append] at hdistinct hranked
  refine ⟨?_, ?_, ?_⟩
  · intro e he
    rcases List.mem_append.mp he with he | he
    · obtain ⟨hne, hmem⟩ := hu.used e (List.mem_append_left _ he)
      exact ⟨hne, List.mem_cons_of_mem _ hmem⟩
    · rcases List.mem_cons.mp he with rfl | he
      · exact ⟨hpage, List.mem_cons_self⟩
      · obtain ⟨hne, hmem⟩ := hu.used e (List.mem_append_right _ he)
        exact ⟨hne, List.mem_cons_of_mem _ hmem⟩
  · rw [List.map_append, List.map_cons, List.nodup_middle, List.nodup_cons]
    refine ⟨fun hmem => ?_, hdistinct⟩
    rw [← List.map_append] at hmem
    obtain ⟨e, he, heq⟩ := List.mem_map.mp hmem
    exact hnew e he heq
  · rw [List.map_append, List.map_cons]
    refine (ranked_middle_iff ?_ ?_).mpr ⟨hranked, ?_⟩
    · exact List.forall_mem_map.mpr fun e he => hnew e (List.mem_append_left _ he)
    · exact List.forall_mem_map.mpr fun e he => hnew e (List.mem_append_right _ he)
    · exact List.forall_mem_map.mpr hpos

/-- A hit keeps the order if and only if it needs no entry behind it to become older. -/
lemma InUse.hit_iff {e : Entry} (hu : InUse h (l₁ ++ e :: l₂))
    (hfirst : ∀ x ∈ l₁, x.pagina ≠ e.pagina) (hlt : ∀ x ∈ l₁, x.tiempoUltAcceso + 1 < 2 ^ 32) :
    InUse (e.pagina :: h) (l₁.map Entry.older ++ { e with tiempoUltAcceso := 0 } :: l₂) ↔
      ∀ y ∈ l₂, 0 < y.tiempoUltAcceso ∧ ∀ x ∈ l₁, y.tiempoUltAcceso ≠ x.tiempoUltAcceso + 1 := by
  have hdistinct := hu.distinct
  have hranked := hu.ranked
  rw [List.map_append, List.map_cons] at hdistinct hranked
  have hnodup := List.nodup_append.mp hdistinct
  have hbehind : ∀ y ∈ l₂, y.pagina ≠ e.pagina := by
    intro y hy heq
    exact (List.nodup_cons.mp hnodup.2.1).1 (heq ▸ List.mem_map_of_mem hy)
  have hiff : Ranked (e.pagina :: h) ((l₁.map rank).map (aged 1) ++ (e.pagina, 0) :: l₂.map rank) ↔
      ∀ y ∈ l₂.map rank, 0 < y.2 ∧ ∀ x ∈ l₁.map rank, y.2 ≠ x.2 + 1 := by
    refine ranked_touch_iff (c := e.tiempoUltAcceso) (List.forall_mem_map.mpr hfirst)
      (List.forall_mem_map.mpr hbehind) hranked ?_ ?_
    · exact List.forall_mem_map.mpr fun x hx => (hu.used x (List.mem_append_left _ hx)).2
    · refine List.forall_mem_map.mpr fun x hx => List.forall_mem_map.mpr fun y hy => ?_
      exact hnodup.2.2 _ (List.mem_map_of_mem hx) _
        (List.mem_cons_of_mem _ (List.mem_map_of_mem hy))
  have hmap : (l₁.map Entry.older ++ { e with tiempoUltAcceso := 0 } :: l₂).map rank =
      (l₁.map rank).map (aged 1) ++ (e.pagina, 0) :: l₂.map rank := by
    rw [List.map_append, List.map_cons, map_rank_older hlt]
    rfl
  constructor
  · intro hnew
    have hr := hnew.ranked
    rw [hmap] at hr
    intro y hy
    obtain ⟨hpos, hne⟩ := hiff.mp hr _ (List.mem_map_of_mem hy)
    exact ⟨hpos, fun x hx => hne _ (List.mem_map_of_mem hx)⟩
  · intro hcond
    refine ⟨?_, ?_, ?_⟩
    · intro x hx
      rcases List.mem_append.mp hx with hx | hx
      · obtain ⟨w, hw, rfl⟩ := List.mem_map.mp hx
        obtain ⟨hne, hmem⟩ := hu.used w (List.mem_append_left _ hw)
        exact ⟨hne, List.mem_cons_of_mem _ hmem⟩
      · rcases List.mem_cons.mp hx with rfl | hx
        · exact ⟨(hu.used e (by simp)).1, List.mem_cons_self⟩
        · obtain ⟨hne, hmem⟩ := hu.used x (by simp [hx])
          exact ⟨hne, List.mem_cons_of_mem _ hmem⟩
    · rw [List.map_append, List.map_cons, map_pagina_older]
      exact hdistinct
    · rw [hmap]
      refine hiff.mpr (List.forall_mem_map.mpr fun y hy => ⟨(hcond y hy).1, ?_⟩)
      exact List.forall_mem_map.mpr (hcond y hy).2

/-- Which entry is replaced when all are in use: the first of the longest times. -/
lemma oldest_older_split {i : ℕ} (hlt : ∀ e ∈ es, e.tiempoUltAcceso + 2 < 2 ^ 32)
    (hi : oldest ((es.map Entry.older).map Entry.older) 0 none 0 = some i) :
    ∃ k₁ v k₂, es = k₁ ++ v :: k₂ ∧ i = k₁.length ∧
      (∀ x ∈ k₁, x.tiempoUltAcceso < v.tiempoUltAcceso) ∧
      ∀ x ∈ k₂, x.tiempoUltAcceso ≤ v.tiempoUltAcceso := by
  rcases oldest_split hi with ⟨hnone, -⟩ | ⟨l₁, v, l₂, hsplit, rfl, -, hfirst, hrest⟩
  · cases hnone
  obtain ⟨j₁, w, j₂, hsplit', rfl, rfl, rfl⟩ := map_older_split hsplit
  obtain ⟨k₁, v, k₂, rfl, rfl, rfl, rfl⟩ := map_older_split hsplit'
  have htime : ∀ x ∈ k₁ ++ v :: k₂, x.older.older.tiempoUltAcceso = x.tiempoUltAcceso + 2 :=
    fun x hx => older_older_time (hlt x hx)
  have hv := htime v (by simp)
  refine ⟨k₁, v, k₂, rfl, by simp, fun x hx => ?_, fun x hx => ?_⟩
  · have h₁ := hfirst _ (List.mem_map_of_mem (List.mem_map_of_mem hx))
    rw [htime x (List.mem_append_left _ hx), hv] at h₁
    omega
  · have h₂ := hrest _ (List.mem_map_of_mem (List.mem_map_of_mem hx))
    rw [htime x (by simp [hx]), hv] at h₂
    omega

lemma InUse.sublist (hu : InUse h es) {es' : List Entry} (hsub : es'.Sublist es) : InUse h es' :=
  ⟨fun e he => hu.used e (hsub.subset he), hu.distinct.sublist (hsub.map _),
    hu.ranked.sublist (hsub.map _)⟩

lemma exists_hit {occ emp : List Entry} {hit : ℕ} (hsplit : tlb.entries = occ ++ emp)
    (hemp : ∀ e ∈ emp, e.pagina = paginaVacia) (hpage : page ≠ paginaVacia)
    (hhit : (pageInTlb tlb page).2 = some hit) : ∃ e ∈ occ, e.pagina = page := by
  obtain ⟨e, he, hpair⟩ := List.mem_map.mp (pageInTlb_eq_some hhit)
  have hpagina : e.pagina = page := congrArg Prod.fst hpair
  rw [hsplit] at he
  rcases List.mem_append.mp he with he | he
  · exact ⟨e, he, hpagina⟩
  · exact absurd (hpagina.symm.trans (hemp e he)) hpage

lemma replaceLru_empty {occ emp : List Entry} {x : Entry}
    (hocc : ∀ e ∈ occ, e.pagina ≠ paginaVacia) (hx : x.pagina = paginaVacia)
    (hsplit : tlb.entries = occ ++ x :: emp) (page frame : ℕ) :
    replaceLru tlb page frame =
      some { tlb with entries := occ.map Entry.older ++ ⟨page, frame, 0⟩ :: emp } := by
  have hset : (occ.map Entry.older ++ x.older :: emp).set occ.length ⟨page, frame, 0⟩ =
      occ.map Entry.older ++ ⟨page, frame, 0⟩ :: emp := by
    rw [List.set_append_right _ _ (by simp)]
    simp
  simp only [replaceLru, hsplit, ageToEmpty_split hocc hx, hset]

lemma replaceLru_full (hfull : ∀ e ∈ tlb.entries, e.pagina ≠ paginaVacia) (page frame : ℕ) :
    replaceLru tlb page frame = (oldest (tlb.entries.map Entry.older) 0 none 0).bind fun i =>
      some { tlb with entries := (tlb.entries.map Entry.older).set i ⟨page, frame, 0⟩ } := by
  simp only [replaceLru, ageToEmpty_full hfull]
  rfl

lemma Tracks.step (halg : t.reemplazoTlb = .lru) {st st' : State × List ℕ} (hb : Bounded t st)
    (htr : Tracks st) {access : ℕ × ℕ} (hshort : st.2.length + 1 < 2 ^ 31)
    (hkeep : KeepsOrder st access) (hs : tlbStep t st access = some st') : Tracks st' := by
  obtain ⟨tlb, h⟩ := st
  obtain ⟨tlb', h'⟩ := st'
  obtain ⟨page, frame⟩ := access
  obtain ⟨hlookup, rfl⟩ := watched_eq_some.mp hs
  obtain ⟨occ, emp, hsplit, hemp, hu⟩ := htr
  obtain ⟨hpage, hcond⟩ := hkeep
  simp only at hsplit hemp hu hpage hcond hlookup hshort
  have hlt : ∀ e ∈ occ, e.tiempoUltAcceso + 2 < 2 ^ 32 := by
    intro e he
    have hle : e.tiempoUltAcceso ≤ 2 * h.length := hb.times e (by simp [hsplit, he])
    omega
  cases hhit : (pageInTlb tlb page).2 with
  | some hit =>
    rw [lookup_hit hhit, Option.some.injEq] at hlookup
    subst hlookup
    obtain ⟨l₁, e, l₂, rfl, rfl, hfirst⟩ := exists_first (exists_hit hsplit hemp hpage hhit)
    rw [List.append_assoc, List.cons_append] at hsplit
    refine ⟨l₁.map Entry.older ++ { e with tiempoUltAcceso := 0 } :: l₂, emp, ?_, hemp, ?_⟩
    · simp only [hsplit, find_split e.pagina hfirst rfl, List.append_assoc, List.cons_append]
    · refine (hu.hit_iff hfirst fun x hx => ?_).mpr fun y hy => ?_
      · have := hlt x (List.mem_append_left _ hx)
        omega
      · exact hcond l₁ e (l₂ ++ emp) hsplit rfl hfirst y (List.mem_append_left _ hy)
          (hu.used y (by simp [hy])).1
  | none =>
    rw [lookup_miss halg hhit] at hlookup
    have hnew := pagina_ne_of_miss hhit
    have hnewOcc : ∀ e ∈ (occ.map Entry.older).map Entry.older, e.pagina ≠ page := by
      refine List.forall_mem_map.mpr (List.forall_mem_map.mpr fun e he => ?_)
      exact hnew e (by simp [hsplit, he])
    have hold : ∀ e ∈ occ.map Entry.older, e.pagina ≠ paginaVacia :=
      List.forall_mem_map.mpr fun e he => (hu.used e he).1
    have haged := hu.older hlt
    cases emp with
    | cons x emp =>
      -- the first empty entry is taken
      have hx : x.older.pagina = paginaVacia := hemp x List.mem_cons_self
      have hentries : tlb.entries.map Entry.older =
          occ.map Entry.older ++ x.older :: emp.map Entry.older := by
        rw [hsplit, List.map_append, List.map_cons]
      rw [replaceLru_empty hold hx hentries page frame, Option.some.injEq] at hlookup
      subst hlookup
      refine ⟨(occ.map Entry.older).map Entry.older ++ [⟨page, frame, 0⟩], emp.map Entry.older,
        by simp, ?_, ?_⟩
      · exact List.forall_mem_map.mpr fun e he => hemp e (List.mem_cons_of_mem _ he)
      · refine InUse.place (by simpa using haged) hpage (by simpa using hnewOcc) (by simp) frame
    | nil =>
      rw [List.append_nil] at hsplit
      rw [replaceLru_full (by simpa [hsplit] using hold), Option.bind_eq_some_iff] at hlookup
      obtain ⟨i, hi, hlookup⟩ := hlookup
      obtain rfl := Option.some.inj hlookup
      simp only [hsplit] at hi ⊢
      obtain ⟨k₁, v, k₂, rfl, rfl, -, -⟩ := oldest_older_split hlt hi
      refine ⟨(k₁.map Entry.older).map Entry.older ++
        ⟨page, frame, 0⟩ :: (k₂.map Entry.older).map Entry.older, [], ?_, by simp, ?_⟩
      · simp only [List.map_append, List.map_cons, List.append_nil]
        rw [List.set_append_right _ _ (by simp)]
        simp
      · have hsub : ((k₁.map Entry.older).map Entry.older ++
            (k₂.map Entry.older).map Entry.older).Sublist
            (((k₁ ++ v :: k₂).map Entry.older).map Entry.older) := by
          simp only [List.map_append, List.map_cons]
          exact List.Sublist.append_left (List.sublist_cons_self _ _) _
        refine (haged.sublist hsub).place hpage (fun e he => hnewOcc e (hsub.subset he)) ?_ frame
        exact List.forall_mem_map.mpr (List.forall_mem_map.mpr fun e he =>
          one_le_older (hlt e (by simp [he])))

/-! ### The evicted page -/

/-- The page that has to go is the one that was looked up before all others. -/
def EvictsOldest (t : TlbCfg) (tlb : State) (history : List ℕ) (page : ℕ) : Prop :=
  ∀ i v, slot t (pageInTlb tlb page).1 = some i → tlb.entries[i]? = some v →
    v.pagina ≠ paginaVacia → ∀ j e, j ≠ i → tlb.entries[j]? = some e →
      Earlier history v.pagina e.pagina

lemma Tracks.evictsOldest (halg : t.reemplazoTlb = .lru) (hb : Bounded t (tlb, h))
    (htr : Tracks (tlb, h)) (hshort : h.length + 1 < 2 ^ 31)
    (hmiss : (pageInTlb tlb page).2 = none) : EvictsOldest t tlb h page := by
  intro i v hslot hv hused j e hj he
  obtain ⟨occ, emp, hsplit, hemp, hu⟩ := htr
  simp only at hsplit hu
  rcases ageToEmpty_cases (tlb.entries.map Entry.older) with
    ⟨l₁, x, l₂, hes, hx, -, hage⟩ | ⟨hfull, hage⟩
  · -- the entry is empty
    obtain ⟨k₁, y, k₂, hentries, rfl, rfl, rfl⟩ := map_older_split hes
    rw [slot_miss halg hmiss hage, List.length_map, Option.some_or, Option.some.injEq] at hslot
    subst hslot
    rw [hentries] at hv
    obtain rfl : y = v := by simpa using hv
    exact absurd hx hused
  rw [slot_miss halg hmiss hage, Option.none_or] at hslot
  have hlt : ∀ e ∈ tlb.entries, e.tiempoUltAcceso + 2 < 2 ^ 32 := by
    intro e he
    have hle : e.tiempoUltAcceso ≤ 2 * h.length := hb.times e he
    omega
  obtain rfl : emp = [] := by
    cases emp with
    | nil => rfl
    | cons x emp =>
      refine absurd (hemp x List.mem_cons_self) (hfull x.older (List.mem_map_of_mem ?_))
      simp [hsplit]
  rw [List.append_nil] at hsplit
  obtain ⟨k₁, w, k₂, hentries, rfl, hfirst, hrest⟩ := oldest_older_split hlt hslot
  rw [hentries] at hv he
  obtain rfl : w = v := by simpa using hv
  have hocc : occ = k₁ ++ w :: k₂ := hsplit.symm.trans hentries
  subst hocc
  have hdistinct := hu.distinct
  rw [List.map_append, List.map_cons, List.nodup_middle, List.nodup_cons, ← List.map_append]
    at hdistinct
  have hne : ∀ x ∈ k₁ ++ k₂, x.pagina ≠ w.pagina := fun x hx heq =>
    hdistinct.1 (heq ▸ List.mem_map_of_mem hx)
  have hranked := hu.ranked
  rw [List.map_append, List.map_cons] at hranked
  have hearliest := hranked.earliest (v := rank w) (hu.used w (by simp)).2
    (List.forall_mem_map.mpr fun x hx => ⟨hne x (List.mem_append_left _ hx), hfirst x hx⟩)
    (List.forall_mem_map.mpr fun x hx => ⟨hne x (List.mem_append_right _ hx), hrest x hx⟩)
  rw [← List.map_append] at hearliest
  have hmem : e ∈ k₁ ++ k₂ := by
    rcases Nat.lt_or_gt_of_ne hj with hlt | hgt
    · rw [List.getElem?_append_left hlt] at he
      exact List.mem_append_left _ (List.mem_of_getElem? he)
    · rw [List.getElem?_append_right (by omega)] at he
      obtain ⟨n, hn⟩ : ∃ n, j - k₁.length = n + 1 := ⟨j - k₁.length - 1, by omega⟩
      rw [hn, List.getElem?_cons_succ] at he
      exact List.mem_append_right _ (List.mem_of_getElem? he)
  exact hearliest _ (List.mem_map_of_mem hmem)

/-! ### Runs -/

lemma lookup_isSome (halg : t.reemplazoTlb = .lru) (hb : Bounded t (tlb, h))
    (hshort : h.length + 1 < 2 ^ 31) (access : ℕ × ℕ) :
    ∃ tlb', lookup t tlb access = some tlb' := by
  obtain ⟨page, frame⟩ := access
  cases hhit : (pageInTlb tlb page).2 with
  | some hit => exact ⟨_, lookup_hit hhit frame⟩
  | none =>
    obtain ⟨i, hslot, -, -⟩ := hb.places halg hshort hhit
    rw [lookup_miss halg hhit]
    rcases ageToEmpty_cases (tlb.entries.map Entry.older) with
      ⟨l₁, e, l₂, -, -, -, hage⟩ | ⟨-, hage⟩
    · exact ⟨_, by simp only [replaceLru, hage]; rfl⟩
    · rw [slot_miss halg hhit hage, Option.none_or] at hslot
      exact ⟨_, by simp only [replaceLru, hage, hslot, Option.bind_eq_bind, Option.bind_some]; rfl⟩

lemma meets_short {st : State × List ℕ} {accesses : List (ℕ × ℕ)}
    (hshort : st.2.length + accesses.length < 2 ^ 31) :
    Meets (tlbStep t) (fun st _ => st.2.length + 1 < 2 ^ 31) st accesses := by
  induction accesses generalizing st with
  | nil => trivial
  | cons access accesses ih =>
    rw [List.length_cons] at hshort
    refine ⟨by omega, fun st' hs => ih ?_⟩
    rw [(watched_eq_some.mp hs).2, noteAccess, List.length_cons]
    omega

lemma length_history {st st' : State × List ℕ} {accesses : List (ℕ × ℕ)}
    (hrun : run (tlbStep t) st accesses = some st') :
    st'.2.length = st.2.length + accesses.length := by
  induction accesses generalizing st with
  | nil =>
    obtain rfl := Option.some.inj hrun
    rfl
  | cons access accesses ih =>
    obtain ⟨st₁, hs, hrun⟩ := Option.bind_eq_some_iff.mp hrun
    rw [ih hrun, (watched_eq_some.mp hs).2, noteAccess, List.length_cons, List.length_cons]
    omega

/-- **LRU.** Less than 2^31 accesses after a reset a page that is not there finds its place, inside
the TLB, and an empty entry if there is one; and if every hit was one that keeps the order, the
page that has to go is the one whose last access is the oldest. -/
theorem evictsOldest_of_keepsOrder (t : TlbCfg) (halg : t.reemplazoTlb = .lru) (tlb₀ : State)
    (accesses : List (ℕ × ℕ)) (hshort : accesses.length + 1 < 2 ^ 31) :
    ∃ tlb history, run (tlbStep t) (tlbReset t tlb₀, []) accesses = some (tlb, history) ∧
      ∀ page, (pageInTlb tlb page).2 = none → Places t tlb page ∧
        (Meets (tlbStep t) KeepsOrder (tlbReset t tlb₀, []) accesses →
          EvictsOldest t tlb history page) := by
  have hmeets : Meets (tlbStep t) (fun st _ => st.2.length + 1 < 2 ^ 31) (tlbReset t tlb₀, [])
      accesses := meets_short (by simp only [List.length_nil]; omega)
  have hprogress : ∀ st access, Bounded t st → st.2.length + 1 < 2 ^ 31 →
      ∃ st', tlbStep t st access = some st' ∧ Bounded t st' := by
    intro st access hb hlen
    obtain ⟨tlb', hlookup⟩ := lookup_isSome halg hb hlen access
    have hs : tlbStep t st access = some (tlb', noteAccess st.1 access st.2) :=
      watched_eq_some.mpr ⟨hlookup, rfl⟩
    exact ⟨_, hs, hb.step halg hs⟩
  obtain ⟨⟨tlb, history⟩, hrun, hb⟩ :=
    Meets.progress hprogress (bounded_tlbReset t tlb₀) hmeets
  have hlen : history.length + 1 < 2 ^ 31 := by
    have := length_history hrun
    simp only [List.length_nil] at this
    omega
  refine ⟨tlb, history, hrun, fun page hmiss => ⟨hb.places halg hlen hmiss, fun hkeep => ?_⟩⟩
  have hinv : Bounded t (tlb, history) ∧ Tracks (tlb, history) := by
    refine Meets.inv (I := fun st => Bounded t st ∧ Tracks st) ?_
      ⟨bounded_tlbReset t tlb₀, tracks_tlbReset t tlb₀⟩ (hmeets.and hkeep) hrun
    rintro st access st' ⟨hb, htr⟩ ⟨hlen, hkeep⟩ hs
    exact ⟨hb.step halg hs, htr.step halg hb hlen hkeep hs⟩
  exact hinv.2.evictsOldest halg hinv.1 hlen hmiss

def twoEntries : TlbCfg := { smallTlb with reemplazoTlb := .lru }

lemma keepsOrder_of_miss {st : State × List ℕ} (hpage : page ≠ paginaVacia)
    (hmiss : (pageInTlb st.1 page).2 = none) (frame : ℕ) : KeepsOrder st (page, frame) := by
  refine ⟨hpage, fun l₁ e l₂ hsplit he => ?_⟩
  exact absurd he (pagina_ne_of_miss hmiss e (by simp [hsplit]))

lemma keepsOrder_of_last {st : State × List ℕ} (es : List Entry) {e : Entry}
    (hpage : page ≠ paginaVacia) (hsplit : st.1.entries = es ++ [e])
    (hfirst : ∀ x ∈ es, x.pagina ≠ page) (frame : ℕ) :
    KeepsOrder st (page, frame) := by
  refine ⟨hpage, fun l₁ x l₂ hsplit' hx hfirst' y hy => ?_⟩
  rw [hsplit] at hsplit'
  rcases List.append_eq_append_iff.mp hsplit' with ⟨k, rfl, hk⟩ | ⟨k, rfl, hk⟩
  · rcases List.eq_nil_or_concat l₂ with rfl | ⟨l, z, rfl⟩
    · cases hy
    · have hlen := congrArg List.length hk
      simp at hlen
      omega
  · cases k with
    | nil =>
      obtain ⟨-, rfl⟩ := List.cons.inj hk
      cases hy
    | cons z k =>
      obtain ⟨rfl, -⟩ := List.cons.inj hk
      exact absurd hx (hfirst x (by simp))

/-- Two pages, and a hit on the last one: the next page takes the place of the first one. -/
theorem evictsOldest_of_keepsOrder_last : ∃ tlb history,
    run (tlbStep twoEntries) (tlbReset twoEntries (tlbInit twoEntries), [])
        [(1, 0), (2, 1), (2, 1)] = some (tlb, history) ∧
      slot twoEntries (pageInTlb tlb 3).1 = some 0 ∧ EvictsOldest twoEntries tlb history 3 := by
  obtain ⟨tlb, history, hrun, hall⟩ := evictsOldest_of_keepsOrder twoEntries rfl
    (tlbInit twoEntries) [(1, 0), (2, 1), (2, 1)] (by decide)
  refine ⟨tlb, history, hrun, ?_⟩
  cases hrun
  refine ⟨rfl, (hall 3 rfl).2 ⟨keepsOrder_of_miss (by decide) rfl 0, fun _ h₁ => ?_⟩⟩
  cases h₁
  refine ⟨keepsOrder_of_miss (by decide) rfl 1, fun _ h₂ => ?_⟩
  cases h₂
  exact ⟨keepsOrder_of_last [_] (by decide) rfl (by decide) 1, fun _ _ => trivial⟩

/-- The page that was used last goes: the hit did not make the page behind it older. -/
theorem not_evictsOldest_first : ∃ tlb,
    run (tlbStep twoEntries) (tlbReset twoEntries (tlbInit twoEntries), [])
        [(1, 0), (2, 1), (1, 0)] = some (tlb, [1, 2, 1]) ∧
      (pageInTlb tlb 3).2 = none ∧ slot twoEntries (pageInTlb tlb 3).1 = some 0 ∧
      pairs tlb = [(1, 0), (2, 1)] ∧ ¬ EvictsOldest twoEntries tlb [1, 2, 1] 3 := by
  refine ⟨_, rfl, rfl, rfl, rfl, fun h => ?_⟩
  have hearlier := h 0 _ rfl rfl (by decide) 1 _ (by decide) rfl
  exact absurd hearlier (by decide)

end Sski.Cpu.Lru
