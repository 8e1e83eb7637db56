import Mathlib.Tactic.Lemma
import Mathlib.Tactic.TypeStar
import Mathlib.Tactic.Common

/-!
Computations that fail for a reason, and the one reason that is ruled out.

`Avoids bad x Q` says that `x` does not fail for the reason `bad`, and that a result of it
satisfies `Q`. It may fail for another reason.
-/

namespace Sski.Lib.Blame

universe u

variable {ε : Type*} {α β : Type u} {bad e : ε} {x : Except ε α} {Q : α → Prop}

/-- A step that may fail, with the reason to give then. -/
def orFail (e : ε) : Option α → Except ε α
  | some a => .ok a
  | none => .error e

def Avoids (bad : ε) (x : Except ε α) (Q : α → Prop) : Prop :=
  match x with
  | .ok a => Q a
  | .error e => e ≠ bad

/-! ### Results -/

@[simp] lemma toOption_ok (a : α) : (Except.ok a : Except ε α).toOption = some a := rfl

@[simp] lemma toOption_bind (x : Except ε α) (f : α → Except ε β) :
    (x >>= f).toOption = x.toOption.bind fun a => (f a).toOption := by
  cases x <;> rfl

@[simp] lemma toOption_orFail (e : ε) (o : Option α) : (orFail e o).toOption = o := by
  cases o <;> rfl

lemma orFail_bind_some {o : Option α} {a : α} (ho : o = some a) (e : ε) (f : α → Except ε β) :
    orFail e o >>= f = f a := by
  subst ho
  rfl

lemma orFail_bind_none {o : Option α} (ho : o = none) (e : ε) (f : α → Except ε β) :
    orFail e o >>= f = .error e := by
  subst ho
  rfl

/-! ### Reasons -/

lemma avoids_orFail {o : Option α} (he : e ≠ bad) (h : ∀ a, o = some a → Q a) :
    Avoids bad (orFail e o) Q := by
  cases o with
  | none => exact he
  | some a => exact h a rfl

lemma avoids_orFail_some {o : Option α} {a : α} (ho : o = some a) (h : Q a) :
    Avoids bad (orFail e o) Q := by
  subst ho
  exact h

lemma Avoids.bind {f : α → Except ε β} {R : β → Prop} (h : Avoids bad x Q)
    (hf : ∀ a, Q a → Avoids bad (f a) R) : Avoids bad (x >>= f) R := by
  cases x with
  | ok a => exact hf a h
  | error e => exact h

/-- What every result satisfies can be read off the function without reasons. -/
lemma Avoids.of_toOption (h : Avoids bad x fun _ => True)
    (hQ : ∀ a, x.toOption = some a → Q a) : Avoids bad x Q := by
  cases x with
  | ok a => exact hQ a rfl
  | error e => exact h

lemma Avoids.ne_error (h : Avoids bad x Q) : x ≠ .error bad := by
  rintro rfl
  exact h rfl

end Sski.Lib.Blame
