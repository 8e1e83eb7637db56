import Sski.Lib.Runs

/-!
Forward simulations between systems that are given by partial step functions.

The other system sees some of the steps of the one, and takes a step of its own for each that it
sees. So its run is the observed one: nothing is left out of it, and nothing is added.
-/

namespace Sski.Lib.Simulation

open Sski.Lib.Runs

variable {σ τ ε δ : Type*} {step : σ → ε → Option σ} {step' : τ → δ → Option τ}
  {obs : σ → ε → Option δ}

/-- What the other system sees of a run. -/
def observed (step : σ → ε → Option σ) (obs : σ → ε → Option δ) : σ → List ε → List δ
  | _, [] => []
  | s, e :: es => (obs s e).toList ++ (step s e).elim [] fun s' => observed step obs s' es

/-- Every guarded step from a related state is matched by what is seen of it. -/
def Simulates (step : σ → ε → Option σ) (step' : τ → δ → Option τ) (obs : σ → ε → Option δ)
    (P : σ → ε → Prop) (R : σ → τ → Prop) : Prop :=
  ∀ s e s' t, R s t → P s e → step s e = some s' →
    ∃ t', run step' t (obs s e).toList = some t' ∧ R s' t'

/-- **Simulation rule.** So is every guarded run. -/
theorem Simulates.run {P : σ → ε → Prop} {R : σ → τ → Prop}
    (hsim : Simulates step step' obs P R) {s s' : σ} {t : τ} {es : List ε} (hR : R s t)
    (hm : Meets step P s es) (hr : run step s es = some s') :
    ∃ t', Runs.run step' t (observed step obs s es) = some t' ∧ R s' t' := by
  induction es generalizing s t with
  | nil =>
    obtain rfl : s = s' := by simpa using hr
    exact ⟨t, rfl, hR⟩
  | cons e es ih =>
    rw [run_cons, Option.bind_eq_some_iff] at hr
    obtain ⟨s₁, h₁, hr⟩ := hr
    obtain ⟨t₁, hds₁, hR₁⟩ := hsim s e s₁ t hR hm.1 h₁
    obtain ⟨t', hds₂, hR'⟩ := ih hR₁ (hm.2 s₁ h₁) hr
    refine ⟨t', ?_, hR'⟩
    rw [observed, h₁, run_append, hds₁]
    exact hds₂

/-- A step that the other system does not see. -/
lemma stutter {R : σ → τ → Prop} {s' : σ} {t : τ} {d : Option δ} (hd : d = none) (h : R s' t) :
    ∃ t', Runs.run step' t d.toList = some t' ∧ R s' t' :=
  ⟨t, by rw [hd]; rfl, h⟩

/-- A step that is one of the other system. -/
lemma lockstep {R : σ → τ → Prop} {s' : σ} {t t' : τ} {d : Option δ} {d' : δ} (hd : d = some d')
    (hstep : step' t d' = some t') (h : R s' t') :
    ∃ t', Runs.run step' t d.toList = some t' ∧ R s' t' :=
  ⟨t', by simp [hd, hstep], h⟩

end Sski.Lib.Simulation
