import Mathlib

/-!
# Rows of slots

A row of slots has an item or nothing at every place.

* `read`, `write`, `erase`, `move` — several slots at once.
* `moveUp`, `moveDown` — a move slot by slot, from the last one or from the first one; the source
  may overlap the target in the direction of the move.
-/

abbrev Slots (α : Type) := Nat → Option α

namespace Slots

open List

variable {α : Type} {s s' : Slots α} {l r : List α} {start dst src n i : Nat} {clears : Bool}

/-- The items of `l` stand in the slots from `start` on. -/
def Holds (s : Slots α) (start : Nat) (l : List α) : Prop :=
  ∀ i < l.length, s (start + i) = l[i]?

def read (s : Slots α) (start : Nat) : Nat → Option (List α)
  | 0 => some []
  | n + 1 =>
    match s start, s.read (start + 1) n with
    | some x, some l => some (x :: l)
    | _, _ => none

def write (s : Slots α) (start : Nat) (l : List α) : Slots α := fun i =>
  if start ≤ i ∧ i < start + l.length then l[i - start]? else s i

def erase (s : Slots α) (start n : Nat) : Slots α := fun i =>
  if start ≤ i ∧ i < start + n then none else s i

/-- All slots at once. -/
def move (s : Slots α) (dst src n : Nat) : Slots α := fun i =>
  if dst ≤ i ∧ i < dst + n then s (src + (i - dst)) else s i

/-- One slot; its old place may be left empty. -/
def moveOne (clears : Bool) (s : Slots α) (dst src : Nat) : Slots α := fun i =>
  if clears ∧ i = src then none else if i = dst then s src else s i

/-- The last slot first. -/
def moveUp (clears : Bool) (s : Slots α) (dst src : Nat) : Nat → Slots α
  | 0 => s
  | n + 1 => moveUp clears (moveOne clears s (dst + n) (src + n)) dst src n

/-- The first slot first. -/
def moveDown (clears : Bool) (s : Slots α) (dst src : Nat) : Nat → Slots α
  | 0 => s
  | n + 1 => moveDown clears (moveOne clears s dst src) (dst + 1) (src + 1) n

/-! ## What slots hold -/

@[simp] lemma holds_nil : s.Holds start [] := by simp [Holds]

lemma holds_cons {x : α} : s.Holds start (x :: l) ↔ s start = some x ∧ s.Holds (start + 1) l := by
  constructor
  · intro h
    refine ⟨h 0 (by simp), fun i hi => ?_⟩
    have hslot := h (i + 1) (by simpa using hi)
    rwa [List.getElem?_cons_succ, add_comm i 1, ← add_assoc] at hslot
  · rintro ⟨hfirst, hrest⟩ i hi
    cases i with
    | zero => exact hfirst
    | succ i =>
      have hslot := hrest i (by simpa using hi)
      rwa [List.getElem?_cons_succ, add_comm i 1, ← add_assoc]

lemma holds_append : s.Holds start (l ++ r) ↔ s.Holds start l ∧ s.Holds (start + l.length) r := by
  induction l generalizing start with
  | nil => simp
  | cons x l ih =>
    simp only [cons_append, holds_cons, ih, length_cons, and_assoc]
    rw [show start + 1 + l.length = start + (l.length + 1) by omega]

lemma Holds.congr (h : s.Holds start l)
    (hs : ∀ i, start ≤ i → i < start + l.length → s' i = s i) : s'.Holds start l := fun i hi => by
  rw [hs (start + i) (by omega) (by omega), h i hi]

lemma read_eq_some : s.read start l.length = some l ↔ s.Holds start l := by
  induction l generalizing start with
  | nil => simp [read]
  | cons x l ih =>
    rw [holds_cons, ← ih, length_cons, read]
    cases hslot : s start with
    | none => simp
    | some y => cases hrest : s.read (start + 1) l.length <;> simp

/-! ## Moving and writing -/

lemma holds_write : (s.write start l).Holds start l := fun i hi => by
  simp [write, hi]

@[simp] lemma write_nil : s.write start [] = s := by
  funext i
  exact if_neg (by simp)

lemma Holds.write_of_disjoint (h : s.Holds start r)
    (hdisjoint : start + r.length ≤ dst ∨ dst + l.length ≤ start) :
    (s.write dst l).Holds start r :=
  h.congr fun _ _ _ => if_neg (by omega)

lemma Holds.move (h : s.Holds src l) : (s.move dst src l.length).Holds dst l := fun i hi => by
  have hslot : dst ≤ dst + i ∧ dst + i < dst + l.length := by omega
  rw [Slots.move, if_pos hslot, Nat.add_sub_cancel_left, h i hi]

lemma moveOne_other (hsrc : i ≠ src) (hdst : i ≠ dst) : moveOne clears s dst src i = s i := by
  simp [moveOne, hsrc, hdst]

lemma moveUp_other (hsrc : i < src ∨ src + n ≤ i)
    (hdst : i < dst ∨ dst + n ≤ i) : moveUp clears s dst src n i = s i := by
  induction n generalizing s with
  | zero => rfl
  | succ n ih =>
    rw [moveUp, ih (by omega) (by omega), moveOne_other (by omega) (by omega)]

lemma moveDown_other (hsrc : i < src ∨ src + n ≤ i)
    (hdst : i < dst ∨ dst + n ≤ i) : moveDown clears s dst src n i = s i := by
  induction n generalizing s dst src with
  | zero => rfl
  | succ n ih =>
    rw [moveDown, ih (by omega) (by omega), moveOne_other (by omega) (by omega)]

/-- The last slot of a move to a higher place reads nothing that the rest of the move needs. -/
lemma Holds.moveUp (h : s.Holds src l) (hup : src < dst) :
    (moveUp clears s dst src l.length).Holds dst l := by
  induction l using List.reverseRecOn generalizing s with
  | nil => exact holds_nil
  | append_singleton l x ih =>
    obtain ⟨hl, hx⟩ := holds_append.mp h
    rw [holds_cons] at hx
    rw [length_append, length_singleton, Slots.moveUp, holds_append, holds_cons]
    refine ⟨ih (hl.congr fun i _ _ => moveOne_other (by omega) (by omega)), ?_, holds_nil⟩
    rw [moveUp_other (by omega) (by omega), moveOne, if_neg (by omega), if_pos rfl]
    exact hx.1

lemma Holds.moveDown (h : s.Holds src l) (hdown : dst < src) :
    (moveDown clears s dst src l.length).Holds dst l := by
  induction l generalizing s dst src with
  | nil => exact holds_nil
  | cons x l ih =>
    obtain ⟨hx, hl⟩ := holds_cons.mp h
    rw [length_cons, Slots.moveDown, holds_cons]
    refine ⟨?_, ih (hl.congr fun i _ _ => moveOne_other (by omega) (by omega)) (by omega)⟩
    rw [moveDown_other (by omega) (by omega), moveOne, if_neg (by omega), if_pos rfl, hx]

end Slots
