import Mathlib

/-!
# Heaps of counted cells

A cell of the heap has a reference count and a content.

* `alloc`, `put`, `free` — a new cell, a change of a cell that is there, and its end.
* `Keeps` — cells with users keep their content.
-/

structure RefHeap.Cell (C : Type) where
  refs : Int
  content : C

/-- Cells are named by numbers, and names from `next` on have not been given away. -/
structure RefHeap (C : Type) where
  cells : Nat → Option (RefHeap.Cell C)
  next : Nat
  fresh : ∀ b, next ≤ b → cells b = none

namespace RefHeap

variable {C : Type} {h h' : RefHeap C} {cell cell' : Cell C} {users : Nat → Nat} {b : Nat} {c : C}

def empty : RefHeap C where
  cells _ := none
  next := 0
  fresh _ _ := rfl

/-- A new cell with one reference, and its name. -/
def alloc (h : RefHeap C) (c : C) : RefHeap C × Nat :=
  ({ cells := fun x => if x = h.next then some ⟨1, c⟩ else h.cells x
     next := h.next + 1
     fresh := fun x hx => by rw [if_neg (by omega), h.fresh x (by omega)] }, h.next)

/-- Nothing happens if there is no such cell. -/
def put (h : RefHeap C) (b : Nat) (cell : Cell C) : RefHeap C where
  cells x := if x = b then (h.cells x).map fun _ => cell else h.cells x
  next := h.next
  fresh x hx := by simp [h.fresh x hx]

def free (h : RefHeap C) (b : Nat) : RefHeap C where
  cells x := if x = b then none else h.cells x
  next := h.next
  fresh x hx := by simp [h.fresh x hx]

def content (h : RefHeap C) (b : Nat) : Option C := (h.cells b).map Cell.content

/-- Cell `b` is there exactly while `users b` is not 0, and counts them. -/
def Counted (h : RefHeap C) (users : Nat → Nat) : Prop :=
  ∀ b, (h.cells b).map Cell.refs = if users b = 0 then none else some (users b : Int)

def Keeps (users : Nat → Nat) (h h' : RefHeap C) : Prop :=
  ∀ b, 0 < users b → h'.content b = h.content b

/-! ## Cells -/

lemma cells_alloc (x : Nat) :
    (h.alloc c).1.cells x = if x = h.next then some ⟨1, c⟩ else h.cells x := rfl

lemma cells_put (x : Nat) :
    (h.put b cell).cells x = if x = b then (h.cells x).map fun _ => cell else h.cells x := rfl

lemma cells_free (x : Nat) : (h.free b).cells x = if x = b then none else h.cells x := rfl

lemma cells_put_self (hb : h.cells b = some cell') : (h.put b cell).cells b = some cell := by
  simp [cells_put, hb]

/-- What a cell has held does not matter once it is gone. -/
lemma free_put : (h.put b cell).free b = h.free b := by
  have hcells : ((h.put b cell).free b).cells = (h.free b).cells := by
    funext x
    by_cases hx : x = b <;> simp [cells_free, cells_put, hx]
  rw [RefHeap.free]
  congr 1

/-! ## Counts -/

lemma counted_empty : (empty : RefHeap C).Counted fun _ => 0 := fun _ => rfl

namespace Counted

variable (hc : h.Counted users) {users' : Nat → Nat}

include hc

lemma exists_cell (hb : 0 < users b) : ∃ c, h.cells b = some ⟨users b, c⟩ := by
  have hcell := hc b
  rw [if_neg (by omega)] at hcell
  obtain ⟨⟨refs, c⟩, hcell, rfl⟩ := Option.map_eq_some_iff.mp hcell
  exact ⟨c, hcell⟩

lemma cells_eq_none : h.cells b = none ↔ users b = 0 := by
  have hcell := hc b
  constructor
  · intro hnone
    rw [hnone] at hcell
    by_contra hb
    rw [if_neg hb] at hcell
    exact absurd hcell nofun
  · intro hb
    rw [if_pos hb, Option.map_eq_none_iff] at hcell
    exact hcell

lemma users_of_cell (hb : h.cells b = some cell) : cell.refs = users b ∧ 0 < users b := by
  have hpos : 0 < users b := by
    refine Nat.pos_of_ne_zero fun hzero => ?_
    rw [hc.cells_eq_none.mpr hzero] at hb
    exact absurd hb nofun
  obtain ⟨c, hcell⟩ := hc.exists_cell hpos
  obtain rfl := Option.some.inj (hb.symm.trans hcell)
  exact ⟨rfl, hpos⟩

lemma next_unused : users h.next = 0 :=
  hc.cells_eq_none.mp (h.fresh h.next le_rfl)

lemma alloc (c : C) : (h.alloc c).1.Counted fun x => users x + if h.next = x then 1 else 0 := by
  intro x
  rw [cells_alloc]
  by_cases hx : x = h.next
  · subst hx
    simp [hc.next_unused]
  · simp only [if_neg hx, if_neg (Ne.symm hx)]
    exact hc x

/-- The count of a cell and the number of its users change together. -/
lemma put (hb : 0 < users b)
    (hcell : cell.refs = users' b) (hb' : 0 < users' b) (hother : ∀ x, x ≠ b → users' x = users x) :
    (h.put b cell).Counted users' := by
  intro x
  rw [cells_put]
  by_cases hx : x = b
  · subst hx
    obtain ⟨c, hc⟩ := hc.exists_cell hb
    rw [if_pos rfl, hc, if_neg (by omega), ← hcell]
    rfl
  · rw [if_neg hx, hother x hx]
    exact hc x

lemma free (hb : users' b = 0)
    (hother : ∀ x, x ≠ b → users' x = users x) : (h.free b).Counted users' := by
  intro x
  rw [cells_free]
  by_cases hx : x = b
  · subst hx
    simp [hb]
  · rw [if_neg hx, hother x hx]
    exact hc x

end Counted

/-! ## Contents -/

lemma content_put_of_ne {x : Nat} (hx : x ≠ b) : (h.put b cell).content x = h.content x := by
  simp [content, cells_put, hx]

lemma content_put_self (hb : h.cells b = some cell') :
    (h.put b cell).content b = some cell.content := by
  rw [content, cells_put_self hb]
  rfl

namespace Keeps

lemma refl : Keeps users h h := fun _ _ => rfl

lemma trans {h'' : RefHeap C} (hfirst : Keeps users h h') (hthen : Keeps users h' h'') :
    Keeps users h h'' := fun b hb => (hthen b hb).trans (hfirst b hb)

lemma mono {users' : Nat → Nat} (hk : Keeps users' h h') (hle : ∀ b, users b ≤ users' b) :
    Keeps users h h' := fun b hb => hk b (Nat.lt_of_lt_of_le hb (hle b))

lemma alloc (hnext : users h.next = 0) : Keeps users h (h.alloc c).1 := by
  intro x hx
  have hne : x ≠ h.next := by
    rintro rfl
    omega
  rw [content, cells_alloc, if_neg hne, content]

/-- A cell without users may change, any other only its count. -/
lemma put (hb : 0 < users b → h.content b = some cell.content) : Keeps users h (h.put b cell) := by
  intro x hx
  by_cases hxb : x = b
  · subst hxb
    obtain ⟨cell', hcell', -⟩ := Option.map_eq_some_iff.mp (hb hx)
    rw [content_put_self hcell', hb hx]
  · exact content_put_of_ne hxb

lemma free (hb : users b = 0) : Keeps users h (h.free b) := by
  intro x hx
  have hne : x ≠ b := by
    rintro rfl
    omega
  rw [content, cells_free, if_neg hne, content]

end Keeps

end RefHeap
