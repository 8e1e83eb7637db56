import Mathlib.Logic.Function.Basic
import Sski.Lib.Counting

/-!
Agents that are each in one place or outside of all places, and move one at a time.

A system that keeps its agents in queues says how often an agent is counted at a place. If
nobody is counted twice, a count that moves is an agent that moves.
-/

namespace Sski.Lib.Population

open Sski.Lib.Counting

variable {ι κ : Type*}

/-! ### Agents on a graph -/

/-- One agent goes along an edge, or nobody moves. -/
inductive Step [DecidableEq ι] (Edge : Option κ → Option κ → Prop) (m : ι → Option κ) :
    (ι → Option κ) → Prop where
  | stay : Step Edge m m
  | go (p : ι) {y : Option κ} : Edge (m p) y → Step Edge m (Function.update m p y)

/-! ### Counts -/

/-- Where an agent is counted. -/
def locate (places : List κ) (f : ι → κ → ℕ) (p : ι) : Option κ :=
  places.find? fun x => decide (0 < f p x)

/-- No agent is counted twice. -/
def Single (places : List κ) (f : ι → κ → ℕ) : Prop := ∀ p, (places.map (f p)).sum ≤ 1

/-- The agent's count moves from `x` to `y`, and no other count changes. -/
def Moved [DecidableEq ι] [DecidableEq κ] (f f' : ι → κ → ℕ) (p : ι) (x y : Option κ) : Prop :=
  ∀ q z, f' q z + (if q = p ∧ x = some z then 1 else 0) =
    f q z + (if q = p ∧ y = some z then 1 else 0)

variable {places : List κ} {f f' : ι → κ → ℕ} {p : ι} {x y : Option κ}

lemma Single.eq (hf : Single places f) (hall : ∀ z, z ∈ places) {z w : κ} (hz : 0 < f p z)
    (hw : 0 < f p w) : z = w := by
  have hpos : 0 < (places.map (f p)).sum :=
    Nat.lt_of_lt_of_le hz (List.le_sum_of_mem (List.mem_map_of_mem (hall z)))
  have hle := hf p
  obtain ⟨v, -, -, hothers⟩ := exists_of_sum_map_eq_one (f := f p) (l := places) (by omega)
  have honly : ∀ u, 0 < f p u → u = v := fun u hu => by
    by_contra hne
    have hzero := hothers u (hall u) hne
    omega
  rw [honly z hz, honly w hw]

lemma locate_eq_none_iff (hall : ∀ z, z ∈ places) :
    locate places f p = none ↔ ∀ z, f p z = 0 := by
  unfold locate
  rw [List.find?_eq_none]
  constructor
  · intro h z
    have hz := h z (hall z)
    simp only [decide_eq_true_eq] at hz
    omega
  · intro h z _
    simp [h z]

lemma Single.locate_eq_some_iff (hf : Single places f) (hall : ∀ z, z ∈ places) {z : κ} :
    locate places f p = some z ↔ 0 < f p z := by
  constructor
  · intro h
    unfold locate at h
    simpa using List.find?_some h
  · intro hz
    cases hloc : locate places f p with
    | none =>
      have hzero := (locate_eq_none_iff hall).mp hloc z
      omega
    | some w =>
      unfold locate at hloc
      have hw : 0 < f p w := by simpa using List.find?_some hloc
      rw [hf.eq hall hz hw]

section Moves

variable [DecidableEq ι] [DecidableEq κ]

lemma Moved.symm (hm : Moved f f' p x y) : Moved f' f p y x := fun q z => (hm q z).symm

lemma Moved.others (hm : Moved f f' p x y) {q : ι} (hq : q ≠ p) : f' q = f q := by
  ext z
  simpa [hq] using hm q z

lemma Moved.source (hm : Moved f f' p x y) (hxy : x ≠ y) (hf : Single places f)
    (hf' : Single places f') (hall : ∀ z, z ∈ places) : locate places f p = x := by
  have hself : ∀ z, f' p z + (if x = some z then 1 else 0) =
      f p z + (if y = some z then 1 else 0) := fun z => by simpa using hm p z
  cases x with
  | some w =>
    have hw := hself w
    rw [if_pos rfl, if_neg (Ne.symm hxy)] at hw
    exact (hf.locate_eq_some_iff hall).mpr (by omega)
  | none =>
    obtain ⟨v, rfl⟩ := Option.ne_none_iff_exists'.mp (Ne.symm hxy)
    have hv := hself v
    simp only [reduceCtorEq, if_false, if_true] at hv
    refine (locate_eq_none_iff hall).mpr fun z => ?_
    by_contra hz
    have hstill : 0 < f' p z := by
      have hz' := hself z
      simp only [reduceCtorEq, if_false] at hz'
      omega
    -- it would be at `z` and at `v`
    obtain rfl := hf'.eq hall hstill (by omega : 0 < f' p v)
    have hle := List.le_sum_of_mem (List.mem_map_of_mem (f := f' p) (hall z))
    have hone := hf' p
    omega

/-- **Moving rule.** A count that moves is an agent that moves. -/
theorem Moved.locate (hm : Moved f f' p x y) (hxy : x ≠ y) (hf : Single places f)
    (hf' : Single places f') (hall : ∀ z, z ∈ places) :
    locate places f p = x ∧
      locate places f' = Function.update (locate places f) p y := by
  refine ⟨hm.source hxy hf hf' hall, ?_⟩
  ext1 q
  by_cases hq : q = p
  · subst hq
    rw [Function.update_self]
    exact hm.symm.source (Ne.symm hxy) hf' hf hall
  · rw [Function.update_of_ne hq]
    unfold Population.locate
    rw [hm.others hq]

/-- A count that moves along an edge is a step on the graph. -/
theorem Moved.step {Edge : Option κ → Option κ → Prop} (hm : Moved f f' p x y) (hxy : x ≠ y)
    (hedge : Edge x y) (hf : Single places f) (hf' : Single places f')
    (hall : ∀ z, z ∈ places) :
    Step Edge (Population.locate places f) (Population.locate places f') := by
  obtain ⟨hsource, htarget⟩ := hm.locate hxy hf hf' hall
  rw [htarget]
  exact .go p (hsource ▸ hedge)

end Moves

end Sski.Lib.Population
