import Mathlib

/-!
# Sources that are tried in turn

Several ways to do something to a state are tried until one succeeds.  Each works on the state in
place, so that the next one starts from what a failure leaves.
-/

namespace Fallback

variable {S : Type}

/-- A way to do something to a state: whether it succeeds, and the state that it leaves. -/
abbrev Source (S : Type) : Type := S → Bool × S

/-- Try sources one after the other, each on the state that the last one left. -/
def tryAll : List (Source S) → Source S
  | [], s => (false, s)
  | source :: rest, s =>
    match source s with
    | (true, s') => (true, s')
    | (false, s') => tryAll rest s'

/-- The first source that succeeds on the state, or no change. -/
def firstSuccess : List (Source S) → Source S
  | [], s => (false, s)
  | source :: rest, s => if (source s).1 then source s else firstSuccess rest s

/-- Each source that fails leaves the state as it was. -/
def HandsOn : List (Source S) → S → Prop
  | [], _ => True
  | source :: rest, s =>
    (source s).1 = false → (source s).2 = s ∧ HandsOn rest (source s).2

/-- What can be told of a source beforehand: whether it succeeds, and whether it leaves the state
alone if it does not. -/
structure Outlook (S : Type) where
  succeeds : S → Bool
  quiet : S → Bool

/-- An outlook is right about a source. -/
structure Outlook.Describes (o : Outlook S) (source : Source S) : Prop where
  succeeds_iff : ∀ s, (source s).1 = o.succeeds s
  quiet_iff : ∀ s, o.succeeds s = false → ((source s).2 = s ↔ o.quiet s = true)

/-- Each source up to the first one that succeeds is quiet. -/
def quietUntilSuccess : List (Outlook S) → S → Bool
  | [], _ => true
  | o :: rest, s => o.succeeds s || (o.quiet s && quietUntilSuccess rest s)

@[simp] lemma tryAll_singleton (source : Source S) : tryAll [source] = source := by
  funext s
  rw [tryAll]
  rcases source s with ⟨_ | _, s'⟩ <;> rfl

lemma tryAll_append (sources more : List (Source S)) (s : S) :
    tryAll (sources ++ more) s =
      match tryAll sources s with
      | (true, s') => (true, s')
      | (false, s') => tryAll more s' := by
  induction sources generalizing s with
  | nil => rfl
  | cons source rest ih =>
    rw [List.cons_append, tryAll, tryAll]
    rcases source s with ⟨_ | _, s'⟩
    · exact ih s'
    · rfl

lemma HandsOn.tryAll_eq {sources : List (Source S)} {s : S} (h : HandsOn sources s) :
    tryAll sources s = firstSuccess sources s := by
  induction sources with
  | nil => rfl
  | cons source rest ih =>
    unfold tryAll firstSuccess
    rcases hrun : source s with ⟨_ | _, s'⟩
    · obtain ⟨hsame, hrest⟩ := h (by rw [hrun])
      rw [hrun] at hsame hrest
      obtain rfl : s' = s := hsame
      exact ih hrest
    · rfl

/-- **When the state is handed on**, told beforehand. -/
theorem handsOn_iff {sources : List (Source S)} {outlooks : List (Outlook S)}
    (h : List.Forall₂ (fun o source => Outlook.Describes o source) outlooks sources) (s : S) :
    HandsOn sources s ↔ quietUntilSuccess outlooks s := by
  induction h with
  | nil => simp [HandsOn, quietUntilSuccess]
  | @cons o source outlooks sources ho _ ih =>
    unfold HandsOn quietUntilSuccess
    rw [ho.succeeds_iff]
    cases hsucceeds : o.succeeds s with
    | true => simp
    | false =>
      rw [Bool.false_or, Bool.and_eq_true, ← ho.quiet_iff s hsucceeds, ← ih]
      constructor
      · intro hfail
        obtain ⟨hsame, hrest⟩ := hfail rfl
        exact ⟨hsame, by rwa [hsame] at hrest⟩
      · rintro ⟨hsame, hrest⟩ -
        exact ⟨hsame, by rwa [hsame]⟩

end Fallback
