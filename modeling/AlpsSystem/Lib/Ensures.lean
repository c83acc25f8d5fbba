import Mathlib

/-!
# Computations that may stop

* `Ensures.bind`, `ensures_ite`, `Ensures.mono` — one rule for each way a computation is built.
-/

variable {ε α β : Type} {passes : ε → Prop}

/-- `x` returns a value with `Q`, or stops with an error that is let pass. -/
def Ensures (passes : ε → Prop) (x : Except ε α) (Q : α → Prop) : Prop :=
  match x with
  | .ok a => Q a
  | .error e => passes e

@[simp] lemma ensures_ok {a : α} {Q : α → Prop} : Ensures passes (.ok a) Q ↔ Q a := Iff.rfl

lemma ok_bind (a : α) (f : α → Except ε β) : (Except.ok a >>= f) = f a := rfl

namespace Ensures

variable {x : Except ε α} {Q Q' : α → Prop} {R : β → Prop}

lemma mono (h : Ensures passes x Q) (hQ : ∀ a, Q a → Q' a) : Ensures passes x Q' := by
  cases x with
  | ok a => exact hQ a h
  | error e => exact h

lemma bind {f : α → Except ε β} (h : Ensures passes x Q)
    (hf : ∀ a, Q a → Ensures passes (f a) R) : Ensures passes (x >>= f) R := by
  cases x with
  | ok a => exact hf a h
  | error e => exact h

lemma map {f : α → β} (h : Ensures passes x fun a => R (f a)) : Ensures passes (f <$> x) R := by
  cases x with
  | ok | error => exact h

/-- A computation that ensures something and does not stop for a reason let pass returns. -/
lemma exists_ok (h : Ensures passes x Q) (hx : ∀ e, x = .error e → ¬ passes e) :
    ∃ a, x = .ok a ∧ Q a := by
  cases x with
  | ok a => exact ⟨a, rfl, h⟩
  | error e => exact absurd h (hx e rfl)

end Ensures

lemma ensures_ite {p : Prop} [Decidable p] {x y : Except ε α} {Q : α → Prop}
    (hx : p → Ensures passes x Q) (hy : ¬ p → Ensures passes y Q) :
    Ensures passes (if p then x else y) Q := by
  split
  · exact hx ‹p›
  · exact hy ‹¬ p›
