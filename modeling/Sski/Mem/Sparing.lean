import Sski.Mem.SecondChance

/-!
What a selection does to the rows that it does not take.

The other rows keep their use bits if no present row that is used is passed over, and the table is
not reset. Where that is so is stated on the rows before the selection.
-/

namespace Sski.Mem.Sparing

open Sski.Lib.Ring Sski.Mem.MemoryModule Sski.Mem.PageTable Sski.Mem.Algorithms
open Sski.Mem.Tables Sski.Mem.Rows Sski.Mem.Frames Sski.Mem.Selection Sski.Mem.Locality
open Sski.Mem.SecondChance

variable {c : Cfg} {m m' : Memory} {n h k f : ℕ} {t u : ℕ → PageTableLvl2}

/-- The use bits stay, but for the row `k` and what has the frame `f`. -/
def Keeps (n k f : ℕ) (t u : ℕ → PageTableLvl2) : Prop :=
  ∀ i < n, i ≠ k → (t i).frame ≠ f → (u i).use = (t i).use

/-- Every present row has a frame, and one of its own. -/
structure OwnFrames (n : ℕ) (t : ℕ → PageTableLvl2) : Prop where
  valid : ∀ i < n, (t i).present = true → (t i).frame ≠ invalidFrame
  unique : ∀ i < n, ∀ j < n, (t i).present = true → (t i).frame = (t j).frame → i = j

lemma not_keeps (hk : (t k).present = false) {i : ℕ} (hi : i < n) (hp : (t i).present = true)
    (hf : (t i).frame ≠ f) (huse : (t i).use = true) (hlost : (u i).use = false) :
    ¬ Keeps n k f t u := by
  intro hkeeps
  have hik : i ≠ k := by
    rintro rfl
    rw [hk] at hp
    cases hp
  have hsame := hkeeps i hi hik hf
  rw [huse, hlost] at hsame
  cases hsame

lemma keeps_of_eq {v : ℕ} (hf : f = (t v).frame) (heq : ∀ i, i ≠ v → (u i).use = (t i).use) :
    Keeps n k f t u := by
  intro i _ _ hne
  refine heq i ?_
  rintro rfl
  exact hne hf.symm

/-- What is hit first among the present rows is taken, and those before it are passed over. -/
lemma look_of_present {hit : PageTableLvl2 → Bool} (clear : ℕ → Bool) {pre post : List ℕ} {v : ℕ}
    (hps : presentRing n h t = pre ++ v :: post) (hmiss : ∀ i ∈ pre, hits hit (t i) = false)
    (hhit : hits hit (t v) = true) :
    look hit clear (ring n h) t =
      (fun i => if i = v then setUse (t v) else if i ∈ pre then passed clear i (t i) else t i,
        some v) := by
  rw [look_ring, hps]
  exact look_of_hit clear (hps ▸ nodup_presentRing n h t) hmiss hhit

/-! ### The clock -/

/-- When a selection of `clock_selector`, for a fault on row `k`, takes no use bit off another
row. The row at the hand is cleared if it is present and used, and then taken only if no present
row is unused; the table is reset if no present row is unused and that at the hand is absent. -/
def ClockSpares (n h k : ℕ) (t : ℕ → PageTableLvl2) : Prop :=
  if (t h).present = true then
    (t h).use = false ∨ ∀ i < n, i ≠ h → (t i).present = true → (t i).use = true
  else
    (∃ i < n, (t i).present = true ∧ (t i).use = false) ∨
      ∀ i < n, i ≠ k → (t i).frame ≠ (t h).frame → (t i).use = false

def ClockLeaves (n h f : ℕ) (t u : ℕ → PageTableLvl2) : Prop :=
  (∃ j, (codeClock n h t).2 = some j ∧ f = (t j).frame ∧ u = (codeClock n h t).1) ∨
    ((codeClock n h t).2 = none ∧ f = (t h).frame ∧ ∀ i < n, (u i).use = decide (i = h))

/-- A present row is unused: the first one is taken. -/
lemma clock_keeps_of_unused (hh : h < n) (ho : OwnFrames n t) (hk : (t k).present = false)
    (hu : ClockLeaves n h f t u) (hun : ∃ i < n, (t i).present = true ∧ (t i).use = false) :
    Keeps n k f t u ↔ ClockSpares n h k t := by
  rcases exists_first (fun r : PageTableLvl2 => !r.use) (presentRing n h t) t with
    hall | ⟨pre, v, post, hps, hmiss, hhit⟩
  · obtain ⟨i, hi, hp, huse⟩ := hun
    have hused := hall i ((mem_presentRing hh).mpr ⟨hi, hp⟩)
    simp [huse] at hused
  have hused : ∀ i ∈ pre, (t i).use = true := fun i hi => by simpa using hmiss i hi
  have hv : (t v).use = false := by simpa using hhit
  obtain ⟨hvn, hvp⟩ := (mem_presentRing hh).mp (show v ∈ presentRing n h t by simp [hps])
  have hlook := look_of_unused (· == h) pre hh hps hused hv
  have hcode : codeClock n h t = look notUsed (· == h) (ring n h) t := by
    rw [codeClock, codePass, orElse_of_some (by rw [hlook])]
  rw [hlook] at hcode
  obtain ⟨rfl, rfl⟩ : f = (t v).frame ∧ u = (codeClock n h t).1 := by
    rcases hu with ⟨j, hj, hf, hu⟩ | ⟨hnone, -⟩
    · rw [hcode, Option.some.injEq] at hj
      exact ⟨hj ▸ hf, hu⟩
    · rw [hcode] at hnone
      cases hnone
  rw [hcode]
  by_cases hpre : h ∈ pre
  · -- the row at the hand is cleared, and another one is taken
    obtain ⟨-, hhp⟩ := (mem_presentRing hh).mp (show h ∈ presentRing n h t by simp [hps, hpre])
    have hne : h ≠ v := by
      rintro rfl
      rw [hused h hpre] at hv
      cases hv
    refine iff_of_false (not_keeps hk hh hhp (fun heq => hne (ho.unique h hh v hvn hhp heq))
      (hused h hpre) ?_) ?_
    · simp [hne, hpre, passed, hhp, clearUse]
    · rw [ClockSpares, if_pos hhp, hused h hpre]
      rintro (hcase | hcase)
      · cases hcase
      · rw [hcase v hvn (Ne.symm hne) hvp] at hv
        cases hv
  · refine iff_of_true (keeps_of_eq rfl fun i hi => ?_) ?_
    · by_cases hmem : i ∈ pre
      · have hih : i ≠ h := by
          rintro rfl
          exact hpre hmem
        simp [hi, hmem, passed, hih]
      · simp [hi, hmem]
    · unfold ClockSpares
      split
      next hhp =>
        -- the row at the hand is the first one
        left
        obtain ⟨js, hjs⟩ := head_presentRing hh hhp
        rw [hps] at hjs
        cases pre with
        | nil =>
          obtain ⟨rfl, -⟩ := List.cons.inj hjs
          exact hv
        | cons a pre =>
          obtain ⟨rfl, -⟩ := List.cons.inj hjs
          exact absurd List.mem_cons_self hpre
      · exact .inl hun

/-- Every present row is used: the row at the hand is taken, and if it is absent all are reset. -/
lemma clock_keeps_of_used (hh : h < n) (hu : ClockLeaves n h f t u)
    (hused : ∀ i < n, (t i).present = true → (t i).use = true) :
    Keeps n k f t u ↔ ClockSpares n h k t := by
  have hring : ∀ i ∈ presentRing n h t, (t i).use = true := fun i hi =>
    hused i ((mem_presentRing hh).mp hi).1 ((mem_presentRing hh).mp hi).2
  cases hhp : (t h).present with
  | true =>
    have hlook := look_of_used (· == h) hring
    have hcode : codeClock n h t = look notUsed never [h]
        fun i => if i ∈ presentRing n h t then passed (· == h) i (t i) else t i := by
      rw [codeClock, codePass, orElse_of_none (by rw [hlook]), hlook]
    have hmem : h ∈ presentRing n h t := (mem_presentRing hh).mpr ⟨hh, hhp⟩
    simp only [look, walk, hits, notUsed, hmem, if_true, passed, hhp, beq_self_eq_true,
      Bool.and_self, clearUse, Bool.not_false] at hcode
    obtain ⟨rfl, rfl⟩ : f = (t h).frame ∧ u = (codeClock n h t).1 := by
      rcases hu with ⟨j, hj, hf, hu⟩ | ⟨hnone, -⟩
      · rw [hcode, Option.some.injEq] at hj
        exact ⟨hj ▸ hf, hu⟩
      · rw [hcode] at hnone
        cases hnone
    refine iff_of_true (keeps_of_eq rfl fun i hi => ?_) ?_
    · rw [hcode]
      simp [hi]
    · rw [ClockSpares, if_pos hhp]
      exact .inr fun i hi _ hp => hused i hi hp
  | false =>
    have hnone : (codeClock n h t).2 = none := codeClock_of_stuck hh fun i hi hp => by
      refine ⟨?_, hused i hi hp⟩
      rintro rfl
      rw [hhp] at hp
      cases hp
    obtain ⟨rfl, huse⟩ : f = (t h).frame ∧ ∀ i < n, (u i).use = decide (i = h) := by
      rcases hu with ⟨j, hj, -⟩ | ⟨-, hrest⟩
      · rw [hnone] at hj
        cases hj
      · exact hrest
    have hoff : ∀ i < n, (t i).frame ≠ (t h).frame → (u i).use = false := fun i hi hne => by
      rw [huse i hi, decide_eq_false]
      rintro rfl
      exact hne rfl
    rw [ClockSpares, hhp, if_neg (by decide)]
    constructor
    · intro hkeeps
      exact .inr fun i hi hik hne => (hkeeps i hi hik hne).symm.trans (hoff i hi hne)
    · rintro (⟨i, hi, hp, huse'⟩ | hall)
      · rw [hused i hi hp] at huse'
        cases huse'
      · exact fun i hi hik hne => (hoff i hi hne).trans (hall i hi hik hne).symm

lemma clock_keeps_iff (hh : h < n) (ho : OwnFrames n t) (hk : (t k).present = false)
    (hu : ClockLeaves n h f t u) : Keeps n k f t u ↔ ClockSpares n h k t := by
  by_cases hun : ∃ i < n, (t i).present = true ∧ (t i).use = false
  · exact clock_keeps_of_unused hh ho hk hu hun
  · refine clock_keeps_of_used hh hu fun i hi hp => ?_
    by_contra huse
    exact hun ⟨i, hi, hp, by simpa using huse⟩

/-! ### The improved clock -/

/-- When a selection of `improved_clock_selector` takes no use bit off another row. A row that is
neither used nor modified is taken at once; the second pass clears what it passes over, so it must
begin with an unused row, or there is only one, and it is taken. -/
def ImprovedSpares (n h : ℕ) (t : ℕ → PageTableLvl2) : Prop :=
  (∃ i < n, hits notUsedClean (t i) = true) ∨
    (∀ v ∈ (presentRing n h t).head?, (t v).use = false) ∨
    ∃ v, presentRing n h t = [v] ∧ (v = h ∨ (t v).modified = false)

def ImprovedLeaves (n h f : ℕ) (t u : ℕ → PageTableLvl2) : Prop :=
  u = (codeImproved n h t).1 ∧
    match (codeImproved n h t).2 with
    | some j => f = (t j).frame
    | none => f = invalidFrame

lemma improved_keeps_of_clean (hh : h < n) (hu : ImprovedLeaves n h f t u)
    (hclean : ∃ i < n, hits notUsedClean (t i) = true) :
    Keeps n k f t u ↔ ImprovedSpares n h t := by
  refine iff_of_true ?_ (.inl hclean)
  obtain ⟨rfl, hf⟩ := hu
  rcases exists_first (hits notUsedClean) (ring n h) t with
    hall | ⟨pre, v, post, hsplit, hmiss, hhit⟩
  · obtain ⟨i, hi, hhit⟩ := hclean
    rw [hall i ((mem_ring (by omega)).mpr hi)] at hhit
    cases hhit
  have hlook := look_of_hit never (hsplit ▸ nodup_ring n h) hmiss hhit
  rw [← hsplit] at hlook
  have hcode : codeImproved n h t = look notUsedClean never (ring n h) t := by
    rw [codeImproved, codePass_never _ hh, orElse_of_some (by rw [hlook])]
  rw [hcode, hlook] at hf ⊢
  refine keeps_of_eq hf fun i hi => ?_
  simp [hi, passed, never]

/-- The second pass takes the first unused row, and clears the rows before it. -/
lemma improved_keeps_of_dirty (hh : h < n) (ho : OwnFrames n t) (hk : (t k).present = false)
    (hu : ImprovedLeaves n h f t u) (hclean : ¬ ∃ i < n, hits notUsedClean (t i) = true)
    (hun : ∃ i < n, (t i).present = true ∧ (t i).use = false) :
    Keeps n k f t u ↔ ImprovedSpares n h t := by
  obtain ⟨rfl, hf⟩ := hu
  have hdirty : ∀ i ∈ presentRing n h t, hits notUsedDirty (t i) = !(t i).use := fun i hi => by
    obtain ⟨hlt, hp⟩ := (mem_presentRing hh).mp hi
    cases huse : (t i).use with
    | true => simp [hits, notUsedDirty, huse]
    | false =>
      have hmod : (t i).modified = true := by
        by_contra hmod
        exact hclean ⟨i, hlt, by simp [hits, notUsedClean, hp, huse, hmod]⟩
      simp [hits, notUsedDirty, hp, huse, hmod]
  rcases exists_first (fun r : PageTableLvl2 => !r.use) (presentRing n h t) t with
    hall | ⟨pre, v, post, hps, hmiss, hhit⟩
  · obtain ⟨i, hi, hp, huse⟩ := hun
    have hused := hall i ((mem_presentRing hh).mpr ⟨hi, hp⟩)
    simp [huse] at hused
  have hpre : ∀ i ∈ pre, i ∈ presentRing n h t := fun i hi => by simp [hps, hi]
  have hvmem : v ∈ presentRing n h t := by simp [hps]
  obtain ⟨hvn, -⟩ := (mem_presentRing hh).mp hvmem
  have hv : (t v).use = false := by simpa using hhit
  have hlook := look_of_present always hps (fun i hi => (hdirty i (hpre i hi)).trans (hmiss i hi))
    ((hdirty v hvmem).trans hhit)
  have hnone : look notUsedClean never (ring n h) t = (t, none) := by
    refine look_never_of_miss (nodup_ring n h) fun i hi => ?_
    by_contra hhit
    exact hclean ⟨i, (mem_ring (by omega)).mp hi, by simpa using hhit⟩
  have hcode : codeImproved n h t = look notUsedDirty always (ring n h) t := by
    rw [codeImproved, codePass_never _ hh, hnone, orElse_of_none rfl]
    simp only [codePass, hlook]
    rfl
  rw [hcode, hlook] at hf ⊢
  obtain rfl : f = (t v).frame := hf
  cases pre with
  | nil =>
    refine iff_of_true (keeps_of_eq rfl fun i hi => by simp [hi]) (.inr (.inl fun w hw => ?_))
    obtain rfl : v = w := by simpa [hps] using hw
    exact hv
  | cons a pre =>
    -- the first row is cleared, and another one is taken
    obtain ⟨han, hap⟩ := (mem_presentRing hh).mp (hpre a List.mem_cons_self)
    have ha : (t a).use = true := by simpa using hmiss a List.mem_cons_self
    have hne : a ≠ v := by
      rintro rfl
      rw [ha] at hv
      cases hv
    refine iff_of_false (not_keeps hk han hap (fun heq => hne (ho.unique a han v hvn hap heq)) ha
      ?_) ?_
    · simp [hne, passed, hap, always, clearUse]
    · rintro (hcase | hcase | ⟨w, hw, -⟩)
      · exact hclean hcase
      · rw [hcase a (by simp [hps])] at ha
        cases ha
      · simp [hps] at hw

/-- All present rows are used, and all lose their use bit before one is taken. -/
lemma keeps_taken_iff (hh : h < n) (ho : OwnFrames n t) (hk : (t k).present = false)
    (hused : ∀ i < n, (t i).present = true → (t i).use = true) {v : ℕ}
    (hv : v ∈ presentRing n h t) :
    Keeps n k (t v).frame t
      (Function.update (allCleared n h t) v (setUse (allCleared n h t v))) ↔
        presentRing n h t = [v] := by
  obtain ⟨hvn, -⟩ := (mem_presentRing hh).mp hv
  constructor
  · intro hkeeps
    refine List.perm_singleton.mp ((List.perm_ext_iff_of_nodup (nodup_presentRing n h t)
      (List.nodup_singleton v)).mpr fun i => ?_)
    rw [List.mem_singleton]
    refine ⟨fun hi => ?_, fun hi => hi ▸ hv⟩
    by_contra hne
    obtain ⟨hin, hip⟩ := (mem_presentRing hh).mp hi
    refine not_keeps hk hin hip (fun heq => hne (ho.unique i hin v hvn hip heq))
      (hused i hin hip) ?_ hkeeps
    rw [Function.update_of_ne hne, allCleared_use hi]
  · intro hps
    refine keeps_of_eq rfl fun i hi => ?_
    rw [Function.update_of_ne hi, allCleared, if_neg (by simpa [hps] using hi)]

/-- The third pass takes the first row that is not modified. -/
lemma look_allCleared {pre post : List ℕ} {v : ℕ} (hps : presentRing n h t = pre ++ v :: post)
    (hmiss : ∀ i ∈ pre, hits notUsedClean (allCleared n h t i) = false)
    (hhit : hits notUsedClean (allCleared n h t v) = true) :
    look notUsedClean never (ring n h) (allCleared n h t) =
      (Function.update (allCleared n h t) v (setUse (allCleared n h t v)), some v) := by
  rw [look_of_present (t := allCleared n h t) never ((presentRing_allCleared n h t).trans hps)
    hmiss hhit]
  refine Prod.ext (funext fun i => ?_) rfl
  by_cases hi : i = v
  · subst hi
    simp
  · simp [hi, passed, never]

lemma improvedSpares_iff_of_used (hh : h < n)
    (hused : ∀ i < n, (t i).present = true → (t i).use = true) {a : ℕ} {js : List ℕ}
    (hps : presentRing n h t = a :: js) :
    ImprovedSpares n h t ↔
      ∃ v, presentRing n h t = [v] ∧ (v = h ∨ (t v).modified = false) := by
  obtain ⟨han, hap⟩ := (mem_presentRing hh).mp (show a ∈ presentRing n h t by simp [hps])
  have ha := hused a han hap
  refine ⟨?_, fun hone => .inr (.inr hone)⟩
  rintro (⟨i, hi, hhit⟩ | hhead | hone)
  · simp only [hits, notUsedClean, Bool.and_eq_true, Bool.not_eq_true'] at hhit
    rw [hused i hi hhit.1] at hhit
    cases hhit.2.1
  · rw [hhead a (by simp [hps])] at ha
    cases ha
  · exact hone

lemma improvedSpares_iff_singleton (hh : h < n)
    (hused : ∀ i < n, (t i).present = true → (t i).use = true) {v : ℕ}
    (hv : v ∈ presentRing n h t) (htaken : v = h ∨ (t v).modified = false) :
    ImprovedSpares n h t ↔ presentRing n h t = [v] := by
  obtain ⟨a, js, hps⟩ := List.exists_cons_of_ne_nil (List.ne_nil_of_mem hv)
  rw [improvedSpares_iff_of_used hh hused hps]
  constructor
  · rintro ⟨w, hw, -⟩
    rw [hw, List.mem_singleton] at hv
    rw [hw, hv]
  · exact fun hone => ⟨v, hone, htaken⟩

lemma improved_keeps_of_used (hh : h < n) (ho : OwnFrames n t) (hk : (t k).present = false)
    (hu : ImprovedLeaves n h f t u)
    (hused : ∀ i < n, (t i).present = true → (t i).use = true) :
    Keeps n k f t u ↔ ImprovedSpares n h t := by
  obtain ⟨rfl, hf⟩ := hu
  rw [(passes_of_used hh hused).1] at hf ⊢
  split_ifs at hf ⊢ with hhand
  · have hmem : h ∈ presentRing n h t := (mem_presentRing hh).mpr ⟨hh, hhand.1⟩
    obtain rfl : f = (t h).frame := hf
    rw [keeps_taken_iff hh ho hk hused hmem, improvedSpares_iff_singleton hh hused hmem (.inl rfl)]
  rcases exists_first (hits notUsedClean) (presentRing n h t) (allCleared n h t) with
    hall | ⟨pre, v, post, hps, hmiss, hhit⟩
  · -- none is taken
    have hnone : look notUsedClean never (ring n h) (allCleared n h t) =
        (allCleared n h t, none) := by
      rw [look_ring, presentRing_allCleared]
      exact look_never_of_miss (nodup_presentRing n h t) hall
    rw [hnone] at hf ⊢
    obtain rfl : f = invalidFrame := hf
    have hmodified : ∀ i ∈ presentRing n h t, (t i).modified = true := fun i hi => by
      obtain ⟨-, hp⟩ := (mem_presentRing hh).mp hi
      have hmiss := hall i hi
      simpa [hits, notUsedClean, hp, allCleared_use hi] using hmiss
    cases hps : presentRing n h t with
    | nil =>
      refine iff_of_true (fun i _ _ _ => ?_) (.inr (.inl (by simp [hps])))
      change (allCleared n h t i).use = _
      rw [allCleared, if_neg (by simp [hps])]
    | cons a js =>
      have ha : a ∈ presentRing n h t := by simp [hps]
      obtain ⟨han, hap⟩ := (mem_presentRing hh).mp ha
      refine iff_of_false (not_keeps hk han hap (ho.valid a han hap) (hused a han hap)
        (allCleared_use ha)) ?_
      rw [improvedSpares_iff_of_used hh hused hps]
      rintro ⟨w, hw, rfl | hmod⟩
      · have hmem : w ∈ presentRing n w t := by simp [hw]
        exact hhand ⟨((mem_presentRing hh).mp hmem).2, hmodified w hmem⟩
      · rw [hmodified w (by simp [hw])] at hmod
        cases hmod
  · have hmem : v ∈ presentRing n h t := by simp [hps]
    rw [look_allCleared hps hmiss hhit] at hf ⊢
    obtain rfl : f = (t v).frame := by simpa [allCleared, hmem, clearUse] using hf
    have hmod : (t v).modified = false := by
      simp only [hits, notUsedClean, Bool.and_eq_true, Bool.not_eq_true', allCleared_modified]
        at hhit
      exact hhit.2.2
    rw [keeps_taken_iff hh ho hk hused hmem,
      improvedSpares_iff_singleton hh hused hmem (.inr hmod)]

lemma improved_keeps_iff (hh : h < n) (ho : OwnFrames n t) (hk : (t k).present = false)
    (hu : ImprovedLeaves n h f t u) : Keeps n k f t u ↔ ImprovedSpares n h t := by
  by_cases hclean : ∃ i < n, hits notUsedClean (t i) = true
  · exact improved_keeps_of_clean hh hu hclean
  by_cases hun : ∃ i < n, (t i).present = true ∧ (t i).use = false
  · exact improved_keeps_of_dirty hh ho hk hu hclean hun
  · refine improved_keeps_of_used hh ho hk hu fun i hi hp => ?_
    by_contra huse
    exact hun ⟨i, hi, hp, by simpa using huse⟩

/-! ### Rows that are not those of the process -/

lemma scan_outside {bigTable : List RowRef} {hit : PageTableLvl2 → Bool} {clear : ℕ → Bool}
    {js : List ℕ} {found : Option (ℕ × ℕ)} {q : RowRef} (hq : q ∉ bigTable)
    (h : scan bigTable hit clear js m = some (m', found)) : m'.rowAt q = m.rowAt q := by
  induction js generalizing m with
  | nil =>
    obtain ⟨rfl, -⟩ : m = m' ∧ none = found := by simpa [scan] using h
    rfl
  | cons j js ih =>
    simp only [scan, Option.bind_eq_bind, Option.bind_eq_some_iff] at h
    obtain ⟨p, hp, row, hrow, h⟩ := h
    have hset : ∀ r, (m.setRow p r).rowAt q = m.rowAt q := by
      intro r
      rw [Memory.rowAt_setRow _ hrow, if_neg]
      rintro rfl
      exact hq (List.mem_of_getElem? hp)
    split at h
    · split at h
      · obtain ⟨rfl, -⟩ : m.setRow p { row with use := true } = m' ∧ _ = found := by
          simpa using h
        exact hset _
      · split at h
        · exact (ih h).trans (hset _)
        · exact ih h
    · exact ih h

lemma pass_outside {bigTable : List RowRef} {hit : PageTableLvl2 → Bool}
    {clear clear' : ℕ → Bool} {n h : ℕ} {found : Option (ℕ × ℕ)} {q : RowRef}
    (hq : q ∉ bigTable) (hp : pass bigTable hit clear clear' n h m = some (m', found)) :
    m'.rowAt q = m.rowAt q := by
  simp only [Algorithms.pass, Option.bind_eq_bind, Option.bind_eq_some_iff] at hp
  obtain ⟨⟨m₁, found₁⟩, h₁, hp⟩ := hp
  cases found₁ with
  | some taken =>
    obtain ⟨rfl, -⟩ : m₁ = m' ∧ _ = found := by simpa using hp
    exact scan_outside hq h₁
  | none => exact (scan_outside hq hp).trans (scan_outside hq h₁)

lemma clockSelector_outside {T frame : ℕ} {bigTable : List RowRef} {q : RowRef}
    (hbig : bigTableOf c m T = some bigTable) (hq : q ∉ bigTable)
    (h : clockSelector c m T = some (m', frame)) : m'.rowAt q = m.rowAt q := by
  simp only [clockSelector, hbig, Option.bind_eq_bind, Option.bind_some,
    Option.bind_eq_some_iff] at h
  obtain ⟨⟨m₁, found⟩, h₁, h⟩ := h
  have hrow₁ := pass_outside hq h₁
  cases found with
  | some taken =>
    obtain ⟨rfl, -⟩ : _ = m' ∧ _ = frame := by simpa using h
    exact hrow₁
  | none =>
    simp only [Option.bind_eq_some_iff] at h
    obtain ⟨m₂, h₂, p, hp, row, hrow, h⟩ := h
    obtain ⟨rfl, -⟩ : _ = m' ∧ _ = frame := by simpa using h
    change (m₂.setRow p { row with use := true }).rowAt q = _
    rw [Memory.rowAt_setRow _ hrow, if_neg, resetUse_rowAt h₂, if_neg hq, hrow₁]
    rintro rfl
    exact hq (List.mem_of_getElem? hp)

lemma improvedClockSelector_outside {T frame : ℕ} {bigTable : List RowRef} {q : RowRef}
    (hbig : bigTableOf c m T = some bigTable) (hq : q ∉ bigTable)
    (h : improvedClockSelector c m T = some (m', frame)) : m'.rowAt q = m.rowAt q := by
  simp only [improvedClockSelector, hbig, Option.bind_eq_bind, Option.bind_some,
    Option.bind_eq_some_iff] at h
  obtain ⟨⟨m₁, found₁⟩, h₁, h⟩ := h
  have hrow₁ := pass_outside hq h₁
  cases found₁ with
  | some taken =>
    obtain ⟨rfl, -⟩ : _ = m' ∧ _ = frame := by simpa using h
    exact hrow₁
  | none =>
    simp only [Option.bind_eq_some_iff] at h
    obtain ⟨⟨m₂, found₂⟩, h₂, h⟩ := h
    have hrow₂ := (pass_outside hq h₂).trans hrow₁
    cases found₂ with
    | some taken =>
      obtain ⟨rfl, -⟩ : _ = m' ∧ _ = frame := by simpa using h
      exact hrow₂
    | none =>
      simp only [Option.bind_eq_some_iff] at h
      obtain ⟨⟨m₃, found₃⟩, h₃, h⟩ := h
      have hrow₃ := (pass_outside hq h₃).trans hrow₂
      cases found₃ with
      | some taken =>
        obtain ⟨rfl, -⟩ : _ = m' ∧ _ = frame := by simpa using h
        exact hrow₃
      | none =>
        obtain ⟨rfl, -⟩ : m₃ = m' ∧ _ = frame := by simpa using h
        exact hrow₃

/-- A selector leaves the rows of other processes. -/
lemma frameSelector_outside (hf : Forest c m) {t frame : ℕ} {rows : List PageTableLvl1}
    (ht : m.table1 t = some rows) {q : RowRef} (hq : q ∉ rowRefs c rows)
    (h : frameSelector c m t = some (m', frame)) : m'.rowAt q = m.rowAt q := by
  have hbig := (bigTable_of_forest hf (maxRows_lt_of_selects hf ht h) ht).1
  unfold frameSelector at h
  split at h
  · exact clockSelector_outside hbig hq h
  · exact improvedClockSelector_outside hbig hq h

/-! ### The rows of a process -/

/-- When a selection for a fault on row `k` takes no use bit off another row of the process. -/
def Spares (c : Cfg) (m : Memory) (bigTable : List RowRef) (k : ℕ) : Prop :=
  match c.algoritmoReemplazo with
  | .clock => ClockSpares (totalRows c) m.clock k (tableOf bigTable m)
  | .clockM => ImprovedSpares (totalRows c) m.improvedClock (tableOf bigTable m)

/-- A clock that finds all present rows used takes the one at its hand in the end. -/
lemma spares_of_hand {bigTable : List RowRef} (halg : c.algoritmoReemplazo = .clock)
    (hp : (tableOf bigTable m m.clock).present = true)
    (hused : ∀ i < totalRows c, i ≠ m.clock → (tableOf bigTable m i).present = true →
      (tableOf bigTable m i).use = true) : Spares c m bigTable k := by
  simp only [Spares, halg]
  rw [ClockSpares, if_pos hp]
  exact .inr hused

lemma keeps_iff_spares {T : ℕ} {rows : List PageTableLvl1} (hf : Forest c m)
    (hn : c.maxRows < 2 ^ 16) (hhand : hand c m < totalRows c) (hT : m.table1 T = some rows)
    (ho : OwnFrames (totalRows c) (tableOf (rowRefs c rows) m))
    (hk : (tableOf (rowRefs c rows) m k).present = false)
    (hsel : frameSelector c m T = some (m', f)) :
    Keeps (totalRows c) k f (tableOf (rowRefs c rows) m) (tableOf (rowRefs c rows) m') ↔
      Spares c m (rowRefs c rows) k := by
  obtain ⟨hbig, hw⟩ := bigTable_of_forest hf hn hT
  cases halg : c.algoritmoReemplazo with
  | clock =>
    simp only [hand, frameSelector, Spares, halg] at hhand hsel ⊢
    obtain ⟨m₁, f₁, hsel₁, hcases⟩ := clockSelector_eq hbig hw hhand
    obtain ⟨rfl, rfl⟩ := Prod.mk.inj (Option.some.inj (hsel₁.symm.trans hsel))
    refine clock_keeps_iff hhand ho hk ?_
    rcases hcases with ⟨j, hj, hframe, -, htable⟩ | ⟨hnone, hframe, -, huse⟩
    · exact .inl ⟨j, hj, hframe, htable⟩
    · exact .inr ⟨hnone, hframe, huse⟩
  | clockM =>
    simp only [hand, frameSelector, Spares, halg] at hhand hsel ⊢
    obtain ⟨m₁, f₁, hsel₁, htable, hcases⟩ := improvedClockSelector_eq hbig hw hhand
    obtain ⟨rfl, rfl⟩ := Prod.mk.inj (Option.some.inj (hsel₁.symm.trans hsel))
    refine improved_keeps_iff hhand ho hk ⟨htable, ?_⟩
    cases hfound : (codeImproved (totalRows c) m.improvedClock
        (tableOf (rowRefs c rows) m)).2 with
    | some j =>
      rw [hfound] at hcases
      exact hcases.1
    | none =>
      rw [hfound] at hcases
      exact hcases.1

lemma eq_of_unused {r r' : PageTableLvl2} (h : unused r' = unused r) (huse : r'.use = r.use) :
    r' = r := by
  cases r
  cases r'
  simp only [unused, PageTableLvl2.mk.injEq] at h huse ⊢
  exact ⟨h.1, h.2.1, huse, h.2.2.2⟩

lemma keeps_iff_rows {bigTable : List RowRef} {p : RowRef} (hw : Whole c m bigTable)
    (hp : bigTable[k]? = some p) (hu : SameRows unused m m') :
    Keeps (totalRows c) k f (tableOf bigTable m) (tableOf bigTable m') ↔
      ∀ q ∈ bigTable, q ≠ p → ∀ r, m.rowAt q = some r → r.frame ≠ f → m'.rowAt q = some r := by
  constructor
  · intro hkeeps q hq hqp r hr hne
    obtain ⟨i, hi⟩ := List.mem_iff_getElem?.mp hq
    have hlt := (List.getElem?_eq_some_iff.mp hi).1
    obtain ⟨r', hr', hsame⟩ := hu.rowAt_some hr
    have htab := tableOf_eq (rowIx_eq_some_iff.mpr ⟨q, hi, hr⟩)
    have htab' := tableOf_eq (rowIx_eq_some_iff.mpr ⟨q, hi, hr'⟩)
    have hik : i ≠ k := by
      rintro rfl
      exact hqp (Option.some.inj (hi.symm.trans hp))
    have huse := hkeeps i (hw.length ▸ hlt) hik (by rwa [htab])
    rw [htab, htab'] at huse
    rw [hr', eq_of_unused hsame huse]
  · intro hrows i hi hik hne
    obtain ⟨r, hr⟩ := Option.isSome_iff_exists.mp (hw.rows i (by rw [hw.length]; exact hi))
    obtain ⟨q, hq, hrow⟩ := rowIx_eq_some_iff.mp hr
    have hqp : q ≠ p := by
      rintro rfl
      exact hik ((List.getElem?_inj (List.getElem?_eq_some_iff.mp hq).1 hw.nodup).mp
        (hq.trans hp.symm))
    rw [tableOf_eq hr] at hne ⊢
    rw [tableOf_eq (rowIx_eq_some_iff.mpr
      ⟨q, hq, hrows q (List.mem_of_getElem? hq) hqp r hrow hne⟩)]

/-! ### No row is taken -/

lemma look_absent (hit : PageTableLvl2 → Bool) (clear : ℕ → Bool) (js : List ℕ) {i : ℕ}
    (hp : (t i).present = false) : (look hit clear js t).1 i = t i := by
  induction js generalizing t with
  | nil => rfl
  | cons j js ih =>
    simp only [look, walk]
    by_cases hij : i = j
    · subst hij
      have hself : Function.update t i (passed clear i (t i)) = t := by
        simp [passed, hp]
      rw [if_neg (by simp [hits, hp]), hself]
      exact ih hp
    · split
      · exact Function.update_of_ne hij _ _
      · refine (ih ?_).trans (Function.update_of_ne hij _ _)
        rwa [Function.update_of_ne hij]

lemma orElse_inv {P : (ℕ → PageTableLvl2) → Prop} {x : (ℕ → PageTableLvl2) × Option ℕ}
    {g : (ℕ → PageTableLvl2) → (ℕ → PageTableLvl2) × Option ℕ} (hx : P x.1)
    (hg : ∀ v, P v → P (g v).1) : P (orElse x g).1 := by
  cases hfound : x.2 with
  | none =>
    rw [orElse_of_none hfound]
    exact hg _ hx
  | some j =>
    rw [orElse_of_some hfound]
    exact hx

lemma codePass_absent (hit : PageTableLvl2 → Bool) (clear clear' : ℕ → Bool) {r : PageTableLvl2}
    (hr : r.present = false) {i : ℕ} (hi : t i = r) : (codePass hit clear clear' n h t).1 i = r :=
  orElse_inv (P := fun v => v i = r) ((look_absent _ _ _ (hi ▸ hr)).trans hi)
    fun _ hv => (look_absent _ _ _ (hv ▸ hr)).trans hv

lemma codeImproved_absent {i : ℕ} (hp : (t i).present = false) :
    (codeImproved n h t).1 i = t i :=
  orElse_inv (P := fun v => v i = t i) (codePass_absent _ _ _ hp rfl) fun _ hv =>
    orElse_inv (P := fun v => v i = t i) (codePass_absent _ _ _ hp hv) fun _ hv' =>
      codePass_absent _ _ _ hp hv'

/-- The use bit of a row that has no frame, after a selection that answers none: the clock has
reset the table and sets the bit of the row at its hand. -/
def leftUse (c : Cfg) (m : Memory) (bigTable : List RowRef) (q : RowRef) (r : PageTableLvl2) :
    Bool :=
  match c.algoritmoReemplazo with
  | .clock => if q ∈ bigTable then bigTable[m.clock]? == some q else r.use
  | .clockM => r.use

lemma frameSelector_unframed {T : ℕ} {rows : List PageTableLvl1} (hf : Forest c m)
    (hn : c.maxRows < 2 ^ 16) (hhand : hand c m < totalRows c) (hT : m.table1 T = some rows)
    (hframed : ∀ p r, m.rowAt p = some r → r.present = true → r.frame ≠ invalidFrame)
    (hsel : frameSelector c m T = some (m', invalidFrame)) {q : RowRef} {r : PageTableLvl2}
    (hr : m.rowAt q = some r) (hinv : r.frame = invalidFrame) :
    m'.rowAt q = some { r with use := leftUse c m (rowRefs c rows) q r } := by
  obtain ⟨hbig, hw⟩ := bigTable_of_forest hf hn hT
  have hstuck : Stuck c (rowRefs c rows) (hand c m) m := by
    rcases frameSelector_cases hf hn hT hhand with ⟨m₁, j, f, hsel₁, s, hs, hpres, rfl⟩ | ⟨hs, -⟩
    · obtain ⟨-, hframe⟩ := Prod.mk.inj (Option.some.inj (hsel₁.symm.trans hsel))
      obtain ⟨p, -, hp⟩ := rowIx_eq_some_iff.mp hs
      exact absurd hframe (hframed p s hp hpres)
    · exact hs
  have habs : r.present = false := by
    by_contra hpres
    exact hframed q r hr (by simpa using hpres) hinv
  obtain ⟨r', hr', hsame⟩ := (selected_frameSelector hsel).rows.rowAt_some hr
  rw [hr', Option.some.injEq]
  refine eq_of_unused hsame ?_
  change r'.use = leftUse c m (rowRefs c rows) q r
  by_cases hq : q ∈ rowRefs c rows
  swap
  · have hout := frameSelector_outside hf hT hq hsel
    obtain rfl : r' = r := by simpa [hr, hr'] using hout
    unfold leftUse
    split
    · rw [if_neg hq]
    · rfl
  obtain ⟨i, hi⟩ := List.mem_iff_getElem?.mp hq
  have htab := tableOf_eq (rowIx_eq_some_iff.mpr ⟨q, hi, hr⟩)
  have htab' := tableOf_eq (rowIx_eq_some_iff.mpr ⟨q, hi, hr'⟩)
  have hlt : i < (rowRefs c rows).length := (List.getElem?_eq_some_iff.mp hi).1
  rw [← htab']
  cases halg : c.algoritmoReemplazo with
  | clock =>
    simp only [hand, frameSelector, Stuck, hard, halg, leftUse, if_pos hq] at hhand hsel hstuck ⊢
    obtain ⟨m₁, f₁, hsel₁, hcases⟩ := clockSelector_eq hbig hw hhand
    obtain ⟨rfl, rfl⟩ := Prod.mk.inj (Option.some.inj (hsel₁.symm.trans hsel))
    have hnone := codeClock_of_stuck (t := tableOf (rowRefs c rows) m) hhand fun j _ hp =>
      hstuck j _ (rowIx_of_present hp) hp
    rcases hcases with ⟨j, hj, -⟩ | ⟨-, -, -, huse⟩
    · rw [hnone] at hj
      cases hj
    · rw [huse i (hw.length ▸ hlt), ← hi]
      by_cases hic : i = m.clock
      · simp [hic]
      · have hne : (rowRefs c rows)[m.clock]? ≠ (rowRefs c rows)[i]? := fun heq =>
          hic ((List.getElem?_inj hlt hw.nodup).mp heq.symm)
        simp [hic, hne]
  | clockM =>
    simp only [hand, frameSelector, halg, leftUse] at hhand hsel ⊢
    obtain ⟨m₁, f₁, hsel₁, htable, -⟩ := improvedClockSelector_eq hbig hw hhand
    obtain ⟨rfl, rfl⟩ := Prod.mk.inj (Option.some.inj (hsel₁.symm.trans hsel))
    rw [htable, codeImproved_absent (by rw [htab]; exact habs), htab]

end Sski.Mem.Sparing
