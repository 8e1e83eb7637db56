import Mathlib.Data.Nat.Notation
import Mathlib.Tactic.Lemma
import Mathlib.Tactic.TypeStar
import Mathlib.Tactic.Common

/-!
Runs of a system that is given by a partial step function.

An event carries everything the environment chooses, so a step is a function; `none` says
that the program does not survive the event. The rules below are the only inductions over
runs: an invariant, a guarded invariant, progress, and a relation to a second system.
-/

namespace Sski.Lib.Runs

variable {σ τ ε : Type*}

def run (step : σ → ε → Option σ) : σ → List ε → Option σ
  | s, [] => some s
  | s, e :: es => (step s e).bind fun s' => run step s' es

variable {step : σ → ε → Option σ}

@[simp] lemma run_nil (s : σ) : run step s [] = some s := rfl

@[simp] lemma run_cons (s : σ) (e : ε) (es : List ε) :
    run step s (e :: es) = (step s e).bind fun s' => run step s' es := rfl

lemma run_append (s : σ) (es fs : List ε) :
    run step s (es ++ fs) = (run step s es).bind fun s' => run step s' fs := by
  induction es generalizing s with
  | nil => simp
  | cons e es ih =>
    simp only [List.cons_append, run_cons, Option.bind_assoc]
    congr 1
    funext s'
    exact ih s'

/-- Every event of the run meets `P` in the state it happens in. -/
def Meets (step : σ → ε → Option σ) (P : σ → ε → Prop) : σ → List ε → Prop
  | _, [] => True
  | s, e :: es => P s e ∧ ∀ s', step s e = some s' → Meets step P s' es

/-- A condition that can be checked in every state can be checked along a run. -/
instance decidableMeets {P : σ → ε → Prop} [∀ s e, Decidable (P s e)] :
    (s : σ) → (es : List ε) → Decidable (Meets step P s es)
  | _, [] => .isTrue trivial
  | s, e :: es =>
    match hs : step s e with
    | none => decidable_of_iff (P s e) ⟨fun h => ⟨h, by simp [hs]⟩, fun h => h.1⟩
    | some s₁ =>
      have : Decidable (Meets step P s₁ es) := decidableMeets s₁ es
      decidable_of_iff (P s e ∧ Meets step P s₁ es)
        ⟨fun ⟨h, h₁⟩ => ⟨h, fun s' h' => by
          obtain rfl : s₁ = s' := by simpa [hs] using h'
          exact h₁⟩, fun ⟨h, h₁⟩ => ⟨h, h₁ s₁ hs⟩⟩

lemma Meets.append_left {P : σ → ε → Prop} {s : σ} {es fs : List ε}
    (h : Meets step P s (es ++ fs)) : Meets step P s es := by
  induction es generalizing s with
  | nil => trivial
  | cons e es ih => exact ⟨h.1, fun s' hs => ih (h.2 s' hs)⟩

lemma Meets.append_right {P : σ → ε → Prop} {s s' : σ} {es fs : List ε}
    (h : Meets step P s (es ++ fs)) (hr : run step s es = some s') : Meets step P s' fs := by
  induction es generalizing s with
  | nil =>
    obtain rfl : s = s' := by simpa using hr
    exact h
  | cons e es ih =>
    rw [run_cons, Option.bind_eq_some_iff] at hr
    obtain ⟨s₁, hs, hr⟩ := hr
    exact ih (h.2 s₁ hs) hr

lemma Meets.mono {P Q : σ → ε → Prop} (hPQ : ∀ s e, P s e → Q s e) {s : σ} {es : List ε}
    (h : Meets step P s es) : Meets step Q s es := by
  induction es generalizing s with
  | nil => trivial
  | cons e es ih => exact ⟨hPQ _ _ h.1, fun s' hs => ih (h.2 s' hs)⟩

lemma Meets.and {P Q : σ → ε → Prop} {s : σ} {es : List ε} (h : Meets step P s es)
    (h' : Meets step Q s es) : Meets step (fun s e => P s e ∧ Q s e) s es := by
  induction es generalizing s with
  | nil => trivial
  | cons e es ih => exact ⟨⟨h.1, h'.1⟩, fun s' hs => ih (h.2 s' hs) (h'.2 s' hs)⟩

/-- A condition along a run is one on each of its steps. -/
lemma meets_iff_forall_prefix {P : σ → ε → Prop} {s : σ} {es : List ε} :
    Meets step P s es ↔
      ∀ fs e, fs ++ [e] <+: es → ∀ s', run step s fs = some s' → P s' e := by
  induction es generalizing s with
  | nil => exact iff_of_true trivial fun fs e hpre => by simp at hpre
  | cons e es ih =>
    constructor
    · rintro ⟨hP, hrest⟩ fs f hpre s' hr
      cases fs with
      | nil =>
        obtain rfl : f = e := (List.cons_prefix_cons.mp hpre).1
        obtain rfl : s = s' := by simpa using hr
        exact hP
      | cons g gs =>
        obtain ⟨rfl, hgs⟩ := List.cons_prefix_cons.mp hpre
        rw [run_cons, Option.bind_eq_some_iff] at hr
        obtain ⟨s₁, h₁, hr⟩ := hr
        exact ih.mp (hrest s₁ h₁) gs f hgs s' hr
    · intro hall
      refine ⟨hall [] e ⟨es, rfl⟩ s rfl, fun s₁ h₁ => ih.mpr fun fs f hpre s' hr => ?_⟩
      exact hall (e :: fs) f (List.cons_prefix_cons.mpr ⟨rfl, hpre⟩) s' (by simpa [h₁] using hr)

/-- **Guarded invariant rule.** What the guarded steps keep holds at the end of every run
whose steps are all guarded. -/
theorem Meets.inv {P : σ → ε → Prop} {I : σ → Prop}
    (hstep : ∀ s e s', I s → P s e → step s e = some s' → I s') {s s' : σ} {es : List ε}
    (hs : I s) (hm : Meets step P s es) (hr : run step s es = some s') : I s' := by
  induction es generalizing s with
  | nil =>
    obtain rfl : s = s' := by simpa using hr
    exact hs
  | cons e es ih =>
    rw [run_cons, Option.bind_eq_some_iff] at hr
    obtain ⟨s₁, h₁, hr⟩ := hr
    exact ih (hstep s e s₁ hs hm.1 h₁) (hm.2 s₁ h₁) hr

/-- **Equivalence rule.** Two conditions agree on every run if they agree in the states that the
second one keeps. -/
theorem meets_iff_meets {P Q : σ → ε → Prop} {R : ε → Prop} {I : σ → Prop}
    (hiff : ∀ s e, I s → R e → (P s e ↔ Q s e))
    (hstep : ∀ s e s', I s → R e → Q s e → step s e = some s' → I s') {s : σ} {es : List ε}
    (hs : I s) (hR : ∀ e ∈ es, R e) : Meets step P s es ↔ Meets step Q s es := by
  induction es generalizing s with
  | nil => exact Iff.rfl
  | cons e es ih =>
    have he := hR e List.mem_cons_self
    have hes : ∀ e ∈ es, R e := fun f hf => hR f (List.mem_cons_of_mem _ hf)
    constructor
    · rintro ⟨hP, hrest⟩
      have hQ := (hiff s e hs he).mp hP
      exact ⟨hQ, fun s' h => (ih (hstep s e s' hs he hQ h) hes).mp (hrest s' h)⟩
    · rintro ⟨hQ, hrest⟩
      exact ⟨(hiff s e hs he).mpr hQ,
        fun s' h => (ih (hstep s e s' hs he hQ h) hes).mpr (hrest s' h)⟩

/-- **Damage rule.** If an unguarded step does a damage that no later step repairs, a run that
ends undamaged is guarded. -/
theorem meets_of_undamaged {P : σ → ε → Prop} {I B : σ → Prop}
    (hI : ∀ s e s', I s → step s e = some s' → I s')
    (hbreak : ∀ s e s', I s → ¬ P s e → step s e = some s' → B s')
    (hstay : ∀ s e s', I s → B s → step s e = some s' → B s') {s s' : σ} {es : List ε}
    (hs : I s) (hr : run step s es = some s') (hnot : ¬ B s') : Meets step P s es := by
  have hlast : ∀ (es : List ε) (s : σ), I s → B s → run step s es = some s' → B s' := by
    intro es
    induction es with
    | nil =>
      intro s _ hb hr
      obtain rfl : s = s' := by simpa using hr
      exact hb
    | cons e es ih =>
      intro s hs hb hr
      rw [run_cons, Option.bind_eq_some_iff] at hr
      obtain ⟨s₁, h₁, hr⟩ := hr
      exact ih s₁ (hI s e s₁ hs h₁) (hstay s e s₁ hs hb h₁) hr
  induction es generalizing s with
  | nil => trivial
  | cons e es ih =>
    rw [run_cons, Option.bind_eq_some_iff] at hr
    obtain ⟨s₁, h₁, hr⟩ := hr
    refine ⟨?_, fun s₂ h₂ => ?_⟩
    · by_contra hP
      exact hnot (hlast es s₁ (hI s e s₁ hs h₁) (hbreak s e s₁ hs hP h₁) hr)
    · obtain rfl : s₁ = s₂ := by simpa [h₁] using h₂
      exact ih (hI s e s₁ hs h₁) hr

/-- **Exactness rule.** If a step from a good state ends in a good state exactly when it is guarded,
all the states along a run are good exactly when all its steps are guarded. -/
theorem forall_prefix_iff_meets {P : σ → ε → Prop} {I : σ → Prop}
    (hstep : ∀ s e s', I s → step s e = some s' → (I s' ↔ P s e))
    (hstop : ∀ s e, I s → step s e = none → P s e) {s : σ} {es : List ε} (hs : I s) :
    (∀ fs, fs <+: es → ∀ s', run step s fs = some s' → I s') ↔ Meets step P s es := by
  induction es generalizing s with
  | nil =>
    refine ⟨fun _ => trivial, fun _ fs hfs s' hr => ?_⟩
    rw [List.prefix_nil.mp hfs, run_nil, Option.some.injEq] at hr
    rwa [← hr]
  | cons e es ih =>
    constructor
    · intro hall
      refine ⟨?_, fun s₁ h₁ => (ih ?_).mp fun fs hfs s' hr => ?_⟩
      · cases hnext : step s e with
        | none => exact hstop s e hs hnext
        | some s₁ =>
          exact (hstep s e s₁ hs hnext).mp (hall [e] ⟨es, rfl⟩ s₁ (by simp [hnext]))
      · exact hall [e] ⟨es, rfl⟩ s₁ (by simp [h₁])
      · exact hall (e :: fs) (List.prefix_cons_inj e |>.mpr hfs) s' (by simpa [h₁] using hr)
    · rintro ⟨hP, hrest⟩ fs hfs s' hr
      rcases List.prefix_cons_iff.mp hfs with rfl | ⟨gs, rfl, hgs⟩
      · rw [run_nil, Option.some.injEq] at hr
        rwa [← hr]
      · rw [run_cons, Option.bind_eq_some_iff] at hr
        obtain ⟨s₁, h₁, hr⟩ := hr
        have hs₁ : I s₁ := (hstep s e s₁ hs h₁).mpr hP
        exact (ih hs₁).mpr (hrest s₁ h₁) gs hgs s' hr

/-- **Image rule.** If a system takes a step as the image of a second one exactly when the step is
guarded, its runs are the images of the second one's runs exactly when all steps are guarded. -/
theorem forall_prefix_map_iff_meets {step' : τ → ε → Option τ} {f : τ → σ} {P : τ → ε → Prop}
    {I : τ → Prop} (hI : ∀ t e t', I t → step' t e = some t' → I t')
    (himage : ∀ t e, I t → (step (f t) e = (step' t e).map f ↔ P t e)) {t : τ} {es : List ε}
    (ht : I t) :
    (∀ fs, fs <+: es → run step (f t) fs = (run step' t fs).map f) ↔ Meets step' P t es := by
  induction es generalizing t with
  | nil =>
    refine ⟨fun _ => trivial, fun _ fs hfs => ?_⟩
    rw [List.prefix_nil.mp hfs]
    rfl
  | cons e es ih =>
    constructor
    · intro hall
      have hfirst : step (f t) e = (step' t e).map f := by
        have hone := hall [e] ⟨es, rfl⟩
        simpa using hone
      refine ⟨(himage t e ht).mp hfirst, fun t₁ h₁ => (ih (hI t e t₁ ht h₁)).mp fun fs hfs => ?_⟩
      have hmore := hall (e :: fs) (List.prefix_cons_inj e |>.mpr hfs)
      rw [h₁] at hfirst
      simpa [hfirst, h₁] using hmore
    · rintro ⟨hP, hrest⟩ fs hfs
      rcases List.prefix_cons_iff.mp hfs with rfl | ⟨gs, rfl, hgs⟩
      · rfl
      · rw [run_cons, run_cons, (himage t e ht).mpr hP]
        cases h₁ : step' t e with
        | none => rfl
        | some t₁ => exact (ih (hI t e t₁ ht h₁)).mpr (hrest t₁ h₁) gs hgs

/-- **Progress rule.** A run does not stop if no guarded step does. -/
theorem Meets.progress {P : σ → ε → Prop} {I : σ → Prop}
    (hstep : ∀ s e, I s → P s e → ∃ s', step s e = some s' ∧ I s') {s : σ} {es : List ε}
    (hs : I s) (hm : Meets step P s es) : ∃ s', run step s es = some s' ∧ I s' := by
  induction es generalizing s with
  | nil => exact ⟨s, rfl, hs⟩
  | cons e es ih =>
    obtain ⟨s₁, h₁, hi⟩ := hstep s e hs hm.1
    obtain ⟨s', hr, hi'⟩ := ih hi (hm.2 s₁ h₁)
    exact ⟨s', by simp [h₁, hr], hi'⟩

/-! ### Observed runs -/

/-- The system beside an observer: what it notes of a step does not change the step. -/
def watched {η : Type*} (step : σ → ε → Option σ) (note : σ → ε → η → η) (s : σ × η) (e : ε) :
    Option (σ × η) :=
  (step s.1 e).map fun s' => (s', note s.1 e s.2)

lemma watched_eq_some {η : Type*} {note : σ → ε → η → η} {s s' : σ × η} {e : ε} :
    watched step note s e = some s' ↔ step s.1 e = some s'.1 ∧ s'.2 = note s.1 e s.2 := by
  obtain ⟨s₁, n⟩ := s'
  simp only [watched, Option.map_eq_some_iff, Prod.mk.injEq]
  constructor
  · rintro ⟨_, hs, rfl, rfl⟩
    exact ⟨hs, rfl⟩
  · rintro ⟨hs, rfl⟩
    exact ⟨_, hs, rfl, rfl⟩

theorem run_watched {η : Type*} (note : σ → ε → η → η) {s s' : σ} {es : List ε} (n : η)
    (h : run step s es = some s') : ∃ n', run (watched step note) (s, n) es = some (s', n') := by
  induction es generalizing s n with
  | nil =>
    obtain rfl : s = s' := by simpa using h
    exact ⟨n, rfl⟩
  | cons e es ih =>
    rw [run_cons, Option.bind_eq_some_iff] at h
    obtain ⟨s₁, h₁, h⟩ := h
    obtain ⟨n', hr⟩ := ih (note s e n) h
    exact ⟨n', by simpa [watched, h₁] using hr⟩

/-! ### Reachable states -/

def Reachable (step : σ → ε → Option σ) (s s' : σ) : Prop := ∃ es, run step s es = some s'

lemma Reachable.refl (s : σ) : Reachable step s s := ⟨[], rfl⟩

lemma Reachable.tail {s s₁ s' : σ} {e : ε} (h : Reachable step s s₁) (hs : step s₁ e = some s') :
    Reachable step s s' := by
  obtain ⟨es, hr⟩ := h
  exact ⟨es ++ [e], by simp [run_append, hr, hs]⟩

/-- **Invariant rule.** What every step keeps holds of every reachable state. -/
theorem Reachable.inv {I : σ → Prop}
    (hstep : ∀ s e s', I s → step s e = some s' → I s') {s s' : σ}
    (hs : I s) (h : Reachable step s s') : I s' := by
  obtain ⟨es, hr⟩ := h
  have hm : Meets step (fun _ _ => True) s es := by
    clear hr
    induction es generalizing s with
    | nil => trivial
    | cons e es ih => exact ⟨trivial, fun s₁ h₁ => ih (hstep s e s₁ hs h₁)⟩
  exact hm.inv (fun s e s' hi _ h => hstep s e s' hi h) hs hr

end Sski.Lib.Runs
