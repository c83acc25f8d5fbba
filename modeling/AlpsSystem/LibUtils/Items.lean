import Mathlib

/-!
# The value of a vector

A `VectorImpl` stands for the list of its items.  These are its operations as functions of that
list; an operation whose index is out of range is refused and leaves the list as it is.
-/

namespace LibUtils.Items

variable {α : Type} {cmp : α → α → Int} {l : List α} {x y : α}

/-- `VectorImpl::insertArrayAt`; with copies of one item it is `insertAt`, with the items of another
vector `insertVectorAt`. -/
def insertArrayAt (items array : List α) (index : Nat) : List α :=
  if index > items.length then items
  else items.take index ++ array ++ items.drop index

def removeItemsAt (items : List α) (index count : Nat) : List α :=
  if index + count > items.length then items
  else items.take index ++ items.drop (index + count)

def replaceAt (items : List α) (item : α) (index : Nat) : List α := items.set index item

/-- `VectorImpl::resize`; `new n` are `n` items as they are constructed. -/
def resize (items : List α) (new : Nat → List α) (size : Nat) : List α :=
  if size > items.length then items ++ new (size - items.length) else items.take size

/-- Behind the last item that is not greater. -/
def insertSorted (cmp : α → α → Int) (items : List α) (item : α) : List α :=
  items.rdropWhile (fun curr => cmp curr item > 0) ++
    item :: items.rtakeWhile fun curr => cmp curr item > 0

def sort (cmp : α → α → Int) (items : List α) : List α := items.foldl (insertSorted cmp) []

@[simp] lemma insertArrayAt_length (l r array : List α) :
    insertArrayAt (l ++ r) array l.length = l ++ array ++ r := by
  have hindex : ¬ l.length > (l ++ r).length := by simp
  rw [insertArrayAt]
  simp

/-! ## Sorting -/

open List

lemma insertSorted_concat_pos (h : cmp y x > 0) :
    insertSorted cmp (l ++ [y]) x = insertSorted cmp l x ++ [y] := by
  simp [insertSorted, h]

lemma insertSorted_concat_neg (h : ¬ cmp y x > 0) :
    insertSorted cmp (l ++ [y]) x = l ++ [y, x] := by
  simp [insertSorted, h]

lemma insertSorted_perm : (insertSorted cmp l x).Perm (x :: l) := by
  refine perm_middle.trans (Perm.cons x ?_)
  rw [rdropWhile_append_rtakeWhile]

/-- What holds of no items and is kept by an insertion holds of the items and the sorted ones. -/
lemma sort_induction {P : List α → List α → Prop} (hnil : P [] [])
    (hinsert : ∀ l sorted x, P l sorted → P (l ++ [x]) (insertSorted cmp sorted x)) (l : List α) :
    P l (sort cmp l) := by
  induction l using reverseRecOn with
  | nil => exact hnil
  | append_singleton l x ih =>
    rw [sort, foldl_append]
    exact hinsert l _ x ih

/-- Sorting loses nothing and adds nothing, whatever the comparison. -/
lemma sort_perm (l : List α) : (sort cmp l).Perm l := by
  refine sort_induction (P := fun l sorted => sorted.Perm l) .nil (fun l sorted x h => ?_) l
  exact insertSorted_perm.trans ((h.cons x).trans (perm_append_singleton x l).symm)

/-- Items of which none is greater than another keep their order. -/
lemma sort_filter {p : α → Bool} (hp : ∀ a b, p a → p b → cmp a b ≤ 0) (l : List α) :
    (sort cmp l).filter p = l.filter p := by
  refine sort_induction (P := fun l sorted => sorted.filter p = l.filter p) rfl ?_ l
  intro l sorted x h
  rw [filter_append, ← h, ← filter_append]
  clear h
  induction sorted using reverseRecOn with
  | nil => rfl
  | append_singleton sorted y ih =>
    by_cases hy : cmp y x > 0
    · have hnot : p y → ¬ p x := fun hpy hpx => absurd (hp y x hpy hpx) hy.not_ge
      rw [insertSorted_concat_pos hy, filter_append]
      cases hpy : p y <;> simp_all
    · rw [insertSorted_concat_neg hy, append_assoc, singleton_append]

/-- The sorted items are in order. -/
lemma sort_pairwise (htotal : ∀ a b, cmp a b ≤ 0 ∨ cmp b a ≤ 0)
    (htrans : ∀ a b d, cmp a b ≤ 0 → cmp b d ≤ 0 → cmp a d ≤ 0) (l : List α) :
    (sort cmp l).Pairwise (cmp · · ≤ 0) := by
  refine sort_induction (P := fun _ sorted => sorted.Pairwise (cmp · · ≤ 0)) .nil ?_ l
  intro _ sorted x h
  induction sorted using reverseRecOn with
  | nil => exact pairwise_singleton _ _
  | append_singleton sorted y ih =>
    obtain ⟨hsorted, -, hlast⟩ := pairwise_append.mp h
    have hlast : ∀ a ∈ sorted, cmp a y ≤ 0 := fun a ha => hlast a ha y mem_cons_self
    by_cases hy : cmp y x > 0
    · rw [insertSorted_concat_pos hy]
      refine pairwise_append.mpr ⟨ih hsorted, pairwise_singleton _ _, fun a ha b hb => ?_⟩
      rw [mem_singleton.mp hb]
      rcases mem_cons.mp (insertSorted_perm.mem_iff.mp ha) with rfl | ha
      · exact (htotal a y).resolve_right hy.not_ge
      · exact hlast a ha
    · rw [insertSorted_concat_neg hy, append_cons]
      refine pairwise_append.mpr ⟨h, pairwise_singleton _ _, fun a ha b hb => ?_⟩
      rw [mem_singleton.mp hb]
      rcases mem_append.mp ha with ha | ha
      · exact htrans a y x (hlast a ha) (not_lt.mp hy)
      · exact mem_singleton.mp ha ▸ not_lt.mp hy

end LibUtils.Items
