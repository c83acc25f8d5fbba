import Mathlib

/-!
# Programs that may be cut short

A small program logic for code that keeps part of its state across a crash.  A
`CrashProg σ α` runs on a state `σ` and either returns a value or is cut short;
in both cases it leaves a state behind.  What a crash makes of that state (which
part survives) is the business of the caller.

* `wp_pure`, `wp_bind`, `wp_get`, `wp_modify`, `wp_crash`, `wp_ite` — one equation
  for each way a program is built; as a simp set they execute it symbolically.
-/

/-- A program on a state `σ`.  The result is `none` when the program was cut
short; the second component is the state it left. -/
def CrashProg (σ α : Type) := σ → Option α × σ

namespace CrashProg

variable {σ α β : Type} {Q Q' : α → σ → Prop} {C C' : σ → Prop} {s s' : σ} {m : CrashProg σ α}

/-- Return a value and leave the state alone. -/
def ret (a : α) : CrashProg σ α := fun s => (some a, s)

/-- Run `m`, and then `f` on its value unless `m` was cut short. -/
def seq (m : CrashProg σ α) (f : α → CrashProg σ β) : CrashProg σ β := fun s =>
  match m s with
  | (some a, s') => f a s'
  | (none, s') => (none, s')

instance : Monad (CrashProg σ) where
  pure := ret
  bind := seq

/-- Read the state. -/
def get : CrashProg σ σ := fun s => (some s, s)

/-- Change the state. -/
def modify (f : σ → σ) : CrashProg σ Unit := fun s => (some (), f s)

/-- Stop here and return nothing. -/
def crash : CrashProg σ α := fun s => (none, s)

/-- `wp m Q C s`: run from `s`, a normal return of `m` satisfies `Q` and a crash
leaves a state with `C`. -/
def wp (m : CrashProg σ α) (Q : α → σ → Prop) (C : σ → Prop) (s : σ) : Prop :=
  match m s with
  | (some a, s') => Q a s'
  | (none, s') => C s'

@[simp] lemma wp_pure (a : α) : wp (pure a) Q C s ↔ Q a s := Iff.rfl

@[simp] lemma wp_get {Q : σ → σ → Prop} : wp get Q C s ↔ Q s s := Iff.rfl

@[simp] lemma wp_modify (f : σ → σ) {Q : Unit → σ → Prop} : wp (modify f) Q C s ↔ Q () (f s) :=
  Iff.rfl

@[simp] lemma wp_crash : wp (crash : CrashProg σ α) Q C s ↔ C s := Iff.rfl

/-- Sequencing: what follows becomes the postcondition of what comes first. -/
@[simp] lemma wp_bind (m : CrashProg σ α) (f : α → CrashProg σ β) {R : β → σ → Prop} :
    wp (m >>= f) R C s ↔ wp m (fun a => wp (f a) R C) C s := by
  have hrun : (m >>= f) s = seq m f s := rfl
  unfold wp
  rw [hrun, seq]
  cases m s with
  | mk r s1 => cases r with
    | none | some => exact Iff.rfl

lemma wp_ite {c : Prop} [Decidable c] (m m' : CrashProg σ α) :
    wp (if c then m else m') Q C s ↔ if c then wp m Q C s else wp m' Q C s := by
  by_cases hc : c
  · rw [if_pos hc, if_pos hc]
  · rw [if_neg hc, if_neg hc]

lemma wp_mono (h : wp m Q C s) (hQ : ∀ a s', Q a s' → Q' a s')
    (hC : ∀ s', C s' → C' s') : wp m Q' C' s := by
  unfold wp at h ⊢
  cases hm : m s with
  | mk r s1 =>
    rw [hm] at h
    cases r with
    | none => exact hC s1 h
    | some a => exact hQ a s1 h

lemma wp_some {a : α} (h : wp m Q C s) (hm : m s = (some a, s')) : Q a s' := by
  unfold wp at h
  rw [hm] at h
  exact h

lemma wp_none (h : wp m Q C s) (hm : m s = (none, s')) : C s' := by
  unfold wp at h
  rw [hm] at h
  exact h

end CrashProg
