import Mathlib

/-!
# Strictly increasing lists

Lists whose elements increase strictly in an order given by a comparison, as the contents of a
set in which elements that compare equal are one.
-/

namespace OrderedSet

open List

variable {α : Type} (cmp : α → α → Ordering)

/-- Each element is less than all those after it. -/
def Ascending (l : List α) : Prop := l.Pairwise fun x y => cmp x y = .lt

instance (l : List α) : Decidable (Ascending cmp l) :=
  inferInstanceAs (Decidable (l.Pairwise fun x y => cmp x y = .lt))

/-- The first element that compares equal to the key. -/
def lookup (l : List α) (y : α) : Option α := l.find? fun x => cmp x y == .eq

/-- The elements of `l` are less than `x`, those of `r` are greater. -/
structure Around (l : List α) (x : α) (r : List α) : Prop where
  less : ∀ z ∈ l, cmp z x = .lt
  greater : ∀ z ∈ r, cmp x z = .lt

variable {cmp} {l r : List α} {x y z : α}

lemma lookup_append : lookup cmp (l ++ r) y = (lookup cmp l y).or (lookup cmp r y) :=
  List.find?_append

lemma lookup_cons : lookup cmp (x :: l) y = if cmp x y = .eq then some x else lookup cmp l y := by
  unfold lookup
  rw [List.find?_cons]
  split
  · next h => rw [if_pos (by simpa using h)]
  · next h => rw [if_neg (by simpa using h)]

lemma lookup_eq_none : lookup cmp l y = none ↔ ∀ z ∈ l, cmp z y ≠ .eq := by
  simp [lookup]

lemma mem_of_lookup (h : lookup cmp l y = some x) : x ∈ l ∧ cmp x y = .eq :=
  ⟨List.mem_of_find?_eq_some h, by simpa using List.find?_some h⟩

variable [Std.TransCmp cmp]

omit [Std.TransCmp cmp] in
theorem ascending_append : Ascending cmp (l ++ r) ↔
    Ascending cmp l ∧ Ascending cmp r ∧ ∀ x ∈ l, ∀ y ∈ r, cmp x y = .lt :=
  List.pairwise_append

open Std.TransCmp

lemma ne_eq_of_lt (h : cmp x z = .lt) (hy : cmp z y = .eq) : cmp x y ≠ .eq := by
  rw [lt_of_lt_of_eq h hy]
  decide

lemma ne_eq_of_gt (h : cmp x z = .lt) (hy : cmp x y = .eq) : cmp z y ≠ .eq := by
  intro heq
  have := lt_of_lt_of_eq h heq
  rw [hy] at this
  cases this

open Option (none_or)

/-- In a strictly increasing list an element is found under every key equal to it. -/
lemma Ascending.lookup_mem (h : Ascending cmp l) (hmem : x ∈ l) (hxy : cmp x y = .eq) :
    lookup cmp l y = some x := by
  obtain ⟨a, b, rfl⟩ := append_of_mem hmem
  have hless : ∀ z ∈ a, cmp z y ≠ .eq := fun z hz =>
    ne_eq_of_lt ((ascending_append.mp h).2.2 z hz x mem_cons_self) hxy
  rw [lookup_append, lookup_eq_none.mpr hless, lookup_cons, if_pos hxy, none_or]

/-- No key finds elements in both parts of a strictly increasing list, so that the parts may be
searched in either order. -/
lemma Ascending.lookup_swap (h : Ascending cmp (l ++ r)) (y : α) :
    lookup cmp (l ++ r) y = (lookup cmp r y).or (lookup cmp l y) := by
  rw [lookup_append]
  cases hl : lookup cmp l y with
  | none => rw [none_or, Option.or_none]
  | some x =>
    obtain ⟨hx, hxy⟩ := mem_of_lookup hl
    have hr : ∀ z ∈ r, cmp z y ≠ .eq := fun z hz =>
      ne_eq_of_gt ((ascending_append.mp h).2.2 x hx z hz) hxy
    rw [lookup_eq_none.mpr hr, none_or, Option.some_or]

lemma Ascending.lookup_reverse (h : Ascending cmp l) (y : α) :
    lookup cmp l.reverse y = lookup cmp l y := by
  induction l with
  | nil => rfl
  | cons x l ih =>
    have hsplit : Ascending cmp ([x] ++ l) := h
    rw [reverse_cons, lookup_append, ih (ascending_append.mp hsplit).2.1, ← hsplit.lookup_swap]
    rfl

namespace Around

lemma lookup_insert (h : Around cmp l x r) (y : α) :
    lookup cmp (l ++ x :: r) y = if cmp x y = .eq then some x else lookup cmp (l ++ r) y := by
  rw [lookup_append, lookup_cons, lookup_append]
  split
  · next hxy =>
    have hless : ∀ z ∈ l, cmp z y ≠ .eq := fun z hz => ne_eq_of_lt (h.less z hz) hxy
    rw [lookup_eq_none.mpr hless, none_or]
  · rfl

lemma lookup_none (h : Around cmp l x r) (hxy : cmp x y = .eq) : lookup cmp (l ++ r) y = none := by
  rw [lookup_eq_none]
  intro z hz
  rcases mem_append.mp hz with hz | hz
  · exact ne_eq_of_lt (h.less z hz) hxy
  · exact ne_eq_of_gt (h.greater z hz) hxy

omit [Std.TransCmp cmp] in
theorem ascending_insert (h : Around cmp l x r) (hlr : Ascending cmp (l ++ r)) :
    Ascending cmp (l ++ x :: r) := by
  obtain ⟨hl, hr, hcross⟩ := ascending_append.mp hlr
  refine ascending_append.mpr ⟨hl, List.Pairwise.cons h.greater hr, ?_⟩
  intro z hz w hw
  rcases mem_cons.mp hw with rfl | hw
  · exact h.less z hz
  · exact hcross z hz w hw

/-- An element may give way to any other that compares equal to it. -/
lemma of_ascending (h : Ascending cmp (l ++ z :: r)) (hzx : cmp z x = .eq) :
    Around cmp l x r where
  less w hw :=
    Std.TransCmp.lt_of_lt_of_eq ((ascending_append.mp h).2.2 w hw z List.mem_cons_self) hzx
  greater _ hw :=
    Std.TransCmp.lt_of_eq_of_lt (Std.OrientedCmp.eq_symm hzx)
      (List.rel_of_pairwise_cons (ascending_append.mp h).2.1 hw)

end Around

lemma Ascending.head_isLE (h : Ascending cmp l) (hx : l.head? = some x) (hy : y ∈ l) :
    (cmp x y).isLE := by
  obtain ⟨l, rfl⟩ := List.head?_eq_some_iff.mp hx
  rcases mem_cons.mp hy with rfl | hy
  · exact Std.ReflCmp.isLE_rfl
  · rw [rel_of_pairwise_cons h hy]
    rfl

lemma Ascending.isLE_last (h : Ascending cmp l) (hx : l.getLast? = some x) (hy : y ∈ l) :
    (cmp y x).isLE := by
  obtain ⟨l, rfl⟩ := List.getLast?_eq_some_iff.mp hx
  rcases mem_append.mp hy with hy | hy
  · rw [(ascending_append.mp h).2.2 y hy x (mem_singleton_self x)]
    rfl
  · obtain rfl := mem_singleton.mp hy
    exact Std.ReflCmp.isLE_rfl

/-- Two such lists make one if the last element of the first is less than the first of the
second. -/
lemma ascending_append_of_ends (hl : Ascending cmp l) (hr : Ascending cmp r)
    (hx : l.getLast? = some x) (hy : r.head? = some y) :
    Ascending cmp (l ++ r) ↔ cmp x y = .lt := by
  constructor
  · intro h
    exact (ascending_append.mp h).2.2 x (mem_of_getLast? hx) y (mem_of_head? hy)
  · intro hxy
    refine ascending_append.mpr ⟨hl, hr, fun z hz w hw => ?_⟩
    have hzy : cmp z y = .lt := lt_of_isLE_of_lt (hl.isLE_last hx hz) hxy
    exact lt_of_lt_of_isLE hzy (hr.head_isLE hy hw)

omit [Std.TransCmp cmp] in
theorem Ascending.delete (h : Ascending cmp (l ++ z :: r)) : Ascending cmp (l ++ r) := by
  refine List.Pairwise.sublist ?_ h
  exact (sublist_cons_self z r).append_left l

end OrderedSet
