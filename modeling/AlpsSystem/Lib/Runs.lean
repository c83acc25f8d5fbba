import Mathlib

/-!
# Runs of a step function

A run is a list of events folded over a state.  A condition on its steps speaks of
the state before the step and of the event.

* `foldSteps_inv`, `eachStep_of_inv` — an invariant kept by every such step is kept by the run.
* `throughout_of_inv`, `throughout_iff_eachStep` — what all states satisfy follows from, or
  amounts to, a condition on the steps.
-/

namespace Runs

variable {S E : Type} {I P : S → Prop} {ok good : S → E → Prop} {step : S → E → S} {A : E → Prop}

/-- Every step of the run from `s` meets `ok`, a condition on the state before it. -/
def EachStep (ok : S → E → Prop) (step : S → E → S) : S → List E → Prop
  | _, [] => True
  | s, e :: es => ok s e ∧ EachStep ok step (step s e) es

/-- `EachStep` is decided along the run. -/
def decideEachStep [∀ s e, Decidable (ok s e)] :
    ∀ (s : S) (es : List E), Decidable (EachStep ok step s es)
  | _, [] => .isTrue trivial
  | s, e :: es => @instDecidableAnd _ _ inferInstance (decideEachStep (step s e) es)

instance [∀ s e, Decidable (ok s e)] (s : S) (es : List E) : Decidable (EachStep ok step s es) :=
  decideEachStep s es

lemma eachStep_of_forall {ok : E → Prop} (es : List E) (s : S) (h : ∀ e ∈ es, ok e) :
    EachStep (fun _ e => ok e) step s es := by
  induction es generalizing s with
  | nil => trivial
  | cons e es ih =>
    exact ⟨h e List.mem_cons_self, ih (step s e) fun e' he' => h e' (List.mem_cons_of_mem _ he')⟩

/-- A condition that holds at the end of a run, and that a step can only lose, holds
after every step. -/
lemma eachStep_of_final (hback : ∀ s e, P (step s e) → P s) (es : List E) :
    ∀ s, P (es.foldl step s) → P s ∧ EachStep (fun s e => P (step s e)) step s es := by
  induction es with
  | nil => intro s h; exact ⟨h, trivial⟩
  | cons e es ih =>
    intro s h
    obtain ⟨hs, hes⟩ := ih (step s e) h
    exact ⟨hback s e hs, hs, hes⟩

lemma EachStep.and {ok' : S → E → Prop} {es : List E} {s : S} (h : EachStep ok step s es)
    (h' : EachStep ok' step s es) : EachStep (fun s e => ok s e ∧ ok' s e) step s es := by
  induction es generalizing s with
  | nil => trivial
  | cons e es ih => exact ⟨⟨h.1, h'.1⟩, ih h.2 h'.2⟩

/-- **Runs keep what steps keep.** -/
theorem foldSteps_inv (hstep : ∀ s e, I s → ok s e → I (step s e)) (es : List E) :
    ∀ s, I s → EachStep ok step s es → I (es.foldl step s) := by
  induction es with
  | nil => intro s hs _; exact hs
  | cons e es ih =>
    intro s hs hok
    exact ih (step s e) (hstep s e hs hok.1) hok.2

/-- What an invariant says of each step holds of each step of a run. -/
lemma eachStep_of_inv (hstep : ∀ s e, I s → ok s e → I (step s e))
    (hgood : ∀ s e, I s → ok s e → good s e) (es : List E) :
    ∀ s, I s → EachStep ok step s es → EachStep good step s es := by
  induction es with
  | nil => intro s _ _; trivial
  | cons e es ih =>
    intro s hs hok
    exact ⟨hgood s e hs hok.1, ih (step s e) (hstep s e hs hok.1) hok.2⟩

/-! ## All states of a run -/

/-- Every state that the run from `s` passes through satisfies `P`, the last one included. -/
def Throughout (P : S → Prop) (step : S → E → S) : S → List E → Prop
  | s, [] => P s
  | s, e :: es => P s ∧ Throughout P step (step s e) es

namespace Throughout

variable {P Q : S → Prop} {s : S} {es : List E}

variable (h : Throughout P step s es)

include h

lemma first : P s := by
  cases es with
  | nil => exact h
  | cons e es => exact h.1

lemma last : P (es.foldl step s) := by
  induction es generalizing s with
  | nil => exact h
  | cons e es ih => exact ih h.2

lemma mono (hPQ : ∀ s, P s → Q s) : Throughout Q step s es := by
  induction es generalizing s with
  | nil => exact hPQ s h
  | cons e es ih => exact ⟨hPQ s h.1, ih h.2⟩

end Throughout

/-- An invariant kept by every step that meets `ok` holds throughout a run of such steps. -/
lemma throughout_of_inv (hstep : ∀ s e, I s → ok s e → I (step s e)) (es : List E) :
    ∀ s, I s → EachStep ok step s es → Throughout I step s es := by
  induction es with
  | nil => intro s hs _; exact hs
  | cons e es ih =>
    intro s hs hok
    exact ⟨hs, ih (step s e) (hstep s e hs hok.1) hok.2⟩

/-- An event in `A` whose step meets `ok` keeps the invariant and does good, any other leads to a
state without `P`: then `P` holds throughout a run of good steps exactly if all of them meet `ok`.
-/
lemma throughout_iff_eachStep_of_forall (hI : ∀ s, I s → P s) (hstep : ∀ s e, I s → A e →
      (ok s e ∧ I (step s e) ∧ good s e) ∨ (¬ ok s e ∧ ¬ P (step s e))) (es : List E)
    (hes : ∀ e ∈ es, A e) :
    ∀ s, I s → ((Throughout P step s es ∧ EachStep good step s es) ↔ EachStep ok step s es) := by
  induction es with
  | nil => intro s hs; exact ⟨fun _ => trivial, fun _ => ⟨hI s hs, trivial⟩⟩
  | cons e es ih =>
    intro s hs
    have ih := ih fun e' he' => hes e' (List.mem_cons_of_mem _ he')
    rcases hstep s e hs (hes e List.mem_cons_self) with ⟨hok, hnext, hgood⟩ | ⟨hbad, hnot⟩
    · constructor
      · rintro ⟨⟨-, hthrough⟩, -, heach⟩
        exact ⟨hok, (ih _ hnext).mp ⟨hthrough, heach⟩⟩
      · rintro ⟨-, heach⟩
        obtain ⟨hthrough, hrest⟩ := (ih _ hnext).mpr heach
        exact ⟨⟨hI s hs, hthrough⟩, hgood, hrest⟩
    · constructor
      · rintro ⟨⟨-, hthrough⟩, -⟩
        exact absurd hthrough.first hnot
      · rintro ⟨hok, -⟩
        exact absurd hok hbad

lemma throughout_iff_of_forall (hI : ∀ s, I s → P s)
    (hstep : ∀ s e, I s → A e → (ok s e ∧ I (step s e)) ∨ (¬ ok s e ∧ ¬ P (step s e)))
    (es : List E) (hes : ∀ e ∈ es, A e) {s : S} (hs : I s) :
    Throughout P step s es ↔ EachStep ok step s es := by
  have hiff := throughout_iff_eachStep_of_forall hI
    (fun s e hs he => (hstep s e hs he).imp_left (And.imp_right (⟨·, trivial⟩))) es hes s hs
  exact ⟨fun h => hiff.mp ⟨h, eachStep_of_forall es s fun _ _ => trivial⟩, fun h => (hiff.mpr h).1⟩

lemma throughout_iff_eachStep (hI : ∀ s, I s → P s)
    (hstep : ∀ s e, I s → (ok s e ∧ I (step s e) ∧ good s e) ∨ (¬ ok s e ∧ ¬ P (step s e)))
    (es : List E) :
    ∀ s, I s → ((Throughout P step s es ∧ EachStep good step s es) ↔ EachStep ok step s es) :=
  throughout_iff_eachStep_of_forall hI (fun s e hs _ => hstep s e hs) es
    fun _ _ => trivial

end Runs
