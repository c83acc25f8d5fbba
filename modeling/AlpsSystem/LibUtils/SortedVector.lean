import AlpsSystem.Lib.OrderedSet
import AlpsSystem.Lib.Runs
import AlpsSystem.LibUtils.Items

/-!
# Sorted vectors

`SortedVectorImpl` keeps a vector sorted by a comparison of its items and replaces an item by a new
one that compares equal to it.  A vector is here the list of its items; how vectors share the
storage of them is not seen from this side.

What a vector should hold is said by `specStep`: under each key the item that compares equal to it.
A sorted vector agrees with that in exactly those runs whose sorted merges have ends that compare
unequal, and find something in the vector that they merge into (`sets_iff`).
-/

namespace LibUtils.SortedVector

open OrderedSet Runs Items

variable {α : Type} (cmp : α → α → Ordering)

/-! ## The operations -/

/-- The loop of `_indexOrderOf`, with `h` one more than in the source, where it can reach -1: the
index of an equal item, and the order. -/
def searchLoop (items : List α) (item : α) : (fuel l h : Nat) → Option Nat × Nat
  | 0, l, _ => (none, l)
  | fuel + 1, l, h =>
    if l < h then
      let mid := l + (h - 1 - l) / 2
      match items[mid]? with
      | none => (none, l)
      | some curr =>
        match cmp curr item with
        | .eq => (some mid, mid)
        | .lt => searchLoop items item fuel (mid + 1) h
        | .gt => searchLoop items item fuel l mid
    else (none, l)

def indexOrderOf (items : List α) (item : α) : Option Nat × Nat :=
  if items.isEmpty then (none, 0)
  else searchLoop cmp items item items.length 0 items.length

def indexOf (items : List α) (item : α) : Option Nat := (indexOrderOf cmp items item).1

def add (items : List α) (item : α) : List α :=
  match indexOrderOf cmp items item with
  | (none, order) => insertArrayAt items [item] order
  | (some index, _) => replaceAt items item index

def remove (items : List α) (item : α) : List α :=
  match indexOf cmp items item with
  | some index => removeItemsAt items index 1
  | none => items

/-- `SortedVectorImpl::merge(const VectorImpl&)`. -/
def merge (items vector : List α) : List α := vector.foldl (add cmp) items

/-- `SortedVectorImpl::merge(const SortedVectorImpl&)`.  It is undefined where it compares an item
with the first or the last one of a vector that has none. -/
def mergeSorted (items vector : List α) : Option (List α) :=
  match vector.head?, vector.getLast? with
  | some first, some last => do
    -- `arrayImpl()`
    let front ← items.head?
    if (cmp last front).isLE then
      return insertArrayAt items vector 0
    -- `itemLocation(size()-1)`
    let back ← items.getLast?
    if (cmp first back).isGE then
      return insertArrayAt items vector items.length
    return merge cmp items vector
  | _, _ => some items

/-! ## The binary search -/

section Search

variable {cmp} [Std.TransCmp cmp] {items : List α}

/-- What the search finds: the place of the item, and whether an equal one is there. -/
inductive Found (cmp : α → α → Ordering) (items : List α) (item : α) : Option Nat × Nat → Prop
  | absent {l r : List α} (hitems : items = l ++ r) (haround : Around cmp l item r) :
    Found cmp items item (none, l.length)
  | present {l r : List α} {curr : α} (hitems : items = l ++ curr :: r)
    (hequal : cmp curr item = .eq) (haround : Around cmp l item r) :
    Found cmp items item (some l.length, l.length)

variable (hasc : Ascending cmp items)

include hasc

open Found

open Std.OrientedCmp (lt_of_gt eq_symm)

/-- The items before `l` are less than the item sought, those from `h` on are greater. -/
lemma searchLoop_spec (item : α) (fuel l h : Nat)
    (hfuel : h ≤ fuel + l) (hlh : l ≤ h) (hh : h ≤ items.length)
    (hless : ∀ z ∈ items.take l, cmp z item = .lt)
    (hgreater : ∀ z ∈ items.drop h, cmp item z = .lt) :
    Found cmp items item (searchLoop cmp items item fuel l h) := by
  induction fuel generalizing l h with
  | zero =>
    obtain rfl : l = h := by omega
    have := absent (List.take_append_drop l items).symm ⟨hless, hgreater⟩
    rwa [List.length_take, Nat.min_eq_left hh] at this
  | succ fuel ih =>
    unfold searchLoop
    split
    · next hlt =>
      have hmid : l + (h - 1 - l) / 2 < items.length := by omega
      simp only [List.getElem?_eq_getElem hmid]
      have hsplit : items = items.take (l + (h - 1 - l) / 2) ++
          items[l + (h - 1 - l) / 2] :: items.drop (l + (h - 1 - l) / 2 + 1) := by
        rw [← List.drop_eq_getElem_cons hmid, List.take_append_drop]
      generalize hm : l + (h - 1 - l) / 2 = mid at *
      rw [hsplit] at hasc
      have hbefore := (ascending_append.mp hasc).2.2
      have hafter : ∀ z ∈ items.drop (mid + 1), cmp items[mid] z = .lt := fun _ hz =>
        List.rel_of_pairwise_cons (ascending_append.mp hasc).2.1 hz
      split
      · next hequal =>
        have := present hsplit hequal (Around.of_ascending hasc hequal)
        rwa [List.length_take, Nat.min_eq_left (Nat.le_of_lt hmid)] at this
      · next hcurr =>
        refine ih (mid + 1) h (by omega) (by omega) hh ?_ hgreater
        intro z hz
        rw [List.take_add_one, List.getElem?_eq_getElem hmid] at hz
        rcases List.mem_append.mp hz with hz | hz
        · exact Std.TransCmp.lt_trans (hbefore z hz _ List.mem_cons_self) hcurr
        · obtain rfl : z = items[mid] := by simpa using hz
          exact hcurr
      · next hcurr =>
        refine ih l mid (by omega) (by omega) (Nat.le_of_lt hmid) hless ?_
        intro z hz
        have hcurr := lt_of_gt hcurr
        rw [List.drop_eq_getElem_cons hmid] at hz
        rcases List.mem_cons.mp hz with rfl | hz
        · exact hcurr
        · exact Std.TransCmp.lt_trans hcurr (hafter z hz)
    · obtain rfl : l = h := by omega
      have := absent (List.take_append_drop l items).symm ⟨hless, hgreater⟩
      rwa [List.length_take, Nat.min_eq_left hh] at this

lemma indexOrderOf_spec (item : α) : Found cmp items item (indexOrderOf cmp items item) := by
  unfold indexOrderOf
  split
  · next hempty =>
    obtain rfl := List.isEmpty_iff.mp hempty
    exact absent (l := []) rfl ⟨by simp, by simp⟩
  · exact searchLoop_spec hasc item _ 0 _ (by omega) (by omega) le_rfl (by simp) (by simp)

/-- The items that are less than a given one, and those that are greater; between them there is at
most one, equal to it, which `add` replaces and `remove` takes out. -/
lemma exists_around (item : α) :
    ∃ l r, Around cmp l item r ∧ Ascending cmp (l ++ r) ∧ add cmp items item = l ++ item :: r ∧
      remove cmp items item = l ++ r ∧
      ((items = l ++ r ∧ indexOf cmp items item = none) ∨
        ∃ curr, items = l ++ curr :: r ∧ cmp curr item = .eq ∧
          indexOf cmp items item = some l.length) := by
  have hfound := indexOrderOf_spec hasc item
  unfold add remove indexOf
  generalize indexOrderOf cmp items item = result at hfound
  cases hfound with
  | @absent l r hitems haround =>
    subst hitems
    exact ⟨l, r, haround, hasc, by simp, rfl, .inl ⟨rfl, rfl⟩⟩
  | @present l r curr hitems hequal haround =>
    subst hitems
    exact ⟨l, r, haround, hasc.delete, by simp [replaceAt], by simp [removeItemsAt],
      .inr ⟨curr, rfl, hequal, rfl⟩⟩

/-- Under a key that is not equal to the item, the item's place does not matter. -/
lemma lookup_around {l r : List α} {item y : α}
    (hitems : items = l ++ r ∨ ∃ curr, items = l ++ curr :: r ∧ cmp curr item = .eq)
    (hy : cmp item y ≠ .eq) : lookup cmp items y = lookup cmp (l ++ r) y := by
  rcases hitems with rfl | ⟨curr, rfl, hequal⟩
  · rfl
  · have haround : Around cmp l curr r := .of_ascending hasc Std.ReflCmp.compare_self
    rw [haround.lookup_insert, if_neg]
    rwa [Std.TransCmp.congr_left hequal]

end Search

/-! ## What the operations do to the set -/

section Sets

variable {cmp} [Std.TransCmp cmp] {items vector : List α}

variable (hasc : Ascending cmp items)

include hasc

lemma add_spec (item : α) :
    Ascending cmp (add cmp items item) ∧ ∀ y, lookup cmp (add cmp items item) y =
      if cmp item y = .eq then some item else lookup cmp items y := by
  obtain ⟨l, r, haround, hlr, hadd, -, hitems⟩ := exists_around hasc item
  rw [hadd]
  refine ⟨haround.ascending_insert hlr, fun y => ?_⟩
  rw [haround.lookup_insert]
  split
  · rfl
  · next hy =>
    refine (lookup_around hasc ?_ hy).symm
    exact hitems.imp And.left fun ⟨curr, heq, hequal, _⟩ => ⟨curr, heq, hequal⟩

lemma remove_spec (item : α) :
    Ascending cmp (remove cmp items item) ∧ ∀ y, lookup cmp (remove cmp items item) y =
      if cmp item y = .eq then none else lookup cmp items y := by
  obtain ⟨l, r, haround, hlr, -, hremove, hitems⟩ := exists_around hasc item
  rw [hremove]
  refine ⟨hlr, fun y => ?_⟩
  split
  · next hy => exact haround.lookup_none hy
  · next hy =>
    refine (lookup_around hasc ?_ hy).symm
    exact hitems.imp And.left fun ⟨curr, heq, hequal, _⟩ => ⟨curr, heq, hequal⟩

/-- The index found is that of the item that the set has under the key. -/
lemma indexOf_spec (y : α) :
    (indexOf cmp items y).bind (fun i => items[i]?) = lookup cmp items y ∧
      ((indexOf cmp items y).isSome ↔ (lookup cmp items y).isSome) := by
  obtain ⟨l, r, haround, -, -, -, ⟨rfl, hindex⟩ | ⟨curr, rfl, hequal, hindex⟩⟩ :=
    exists_around hasc y
  · rw [hindex, haround.lookup_none Std.ReflCmp.compare_self]
    exact ⟨rfl, Iff.rfl⟩
  · rw [hindex, hasc.lookup_mem (by simp) hequal]
    simp

/-- Of the items merged in that are equal to a key the last one is found, and an old one only if
there is none. -/
lemma merge_spec (vector : List α) :
    Ascending cmp (merge cmp items vector) ∧ ∀ y, lookup cmp (merge cmp items vector) y =
      (lookup cmp vector.reverse y).or (lookup cmp items y) := by
  induction vector generalizing items with
  | nil => exact ⟨hasc, fun y => rfl⟩
  | cons item vector ih =>
    obtain ⟨hadd, hlookup⟩ := add_spec hasc item
    obtain ⟨hmerge, hmerged⟩ := ih hadd
    refine ⟨hmerge, fun y => ?_⟩
    rw [List.reverse_cons, lookup_append, lookup_cons]
    refine (hmerged y).trans ?_
    rw [hlookup]
    split <;> simp [lookup]

/-- The vector merged in is empty, or the other is not and they have no end in common. -/
def endsApart (cmp : α → α → Ordering) (items vector : List α) : Bool :=
  match vector.head?, vector.getLast? with
  | some first, some last =>
    match items.head?, items.getLast? with
    | some front, some back => cmp last front != .eq && cmp first back != .eq
    | _, _ => false
  | _, _ => true

lemma mergeSorted_spec (hvec : Ascending cmp vector) :
    (endsApart cmp items vector ∧ ∃ merged, mergeSorted cmp items vector = some merged ∧
      Ascending cmp merged ∧
      ∀ y, lookup cmp merged y = (lookup cmp vector y).or (lookup cmp items y)) ∨
    (endsApart cmp items vector = false ∧
      ∀ merged, mergeSorted cmp items vector = some merged → ¬ Ascending cmp merged) := by
  rcases vector.eq_nil_or_concat with rfl | ⟨init, last, hinit⟩
  · exact .inl ⟨rfl, items, rfl, hasc, fun y => rfl⟩
  obtain ⟨first, hfirst⟩ : ∃ first, vector.head? = some first := by
    rw [hinit]
    cases init <;> simp
  have hlast : vector.getLast? = some last := by rw [hinit]; simp
  rcases items.eq_nil_or_concat with rfl | ⟨init', back, hinit'⟩
  · refine .inr ⟨by simp [endsApart, hfirst, hlast], fun merged h => ?_⟩
    simp [mergeSorted, hfirst, hlast] at h
  obtain ⟨front, hfront⟩ : ∃ front, items.head? = some front := by
    rw [hinit']
    cases init' <;> simp
  have hback : items.getLast? = some back := by rw [hinit']; simp
  have hbefore : Ascending cmp (vector ++ items) ↔ cmp last front = .lt :=
    ascending_append_of_ends hvec hasc hlast hfront
  have hafter : Ascending cmp (items ++ vector) ↔ cmp back first = .lt :=
    ascending_append_of_ends hasc hvec hback hfirst
  cases hlf : cmp last front with
  | lt =>
    -- the vector goes before the items
    have hasc' := hbefore.mpr hlf
    have hfb : cmp first back = .lt :=
      (ascending_append.mp hasc').2.2 first (List.mem_of_head? hfirst) back
        (List.mem_of_getLast? hback)
    exact .inl ⟨by simp [endsApart, hfirst, hlast, hfront, hback, hlf, hfb], vector ++ items,
      by simp [mergeSorted, hfirst, hlast, hfront, hlf, insertArrayAt], hasc',
      fun y => lookup_append⟩
  | eq =>
    refine .inr ⟨by simp [endsApart, hfirst, hlast, hfront, hback, hlf], fun merged h => ?_⟩
    obtain rfl : vector ++ items = merged := by
      simpa [mergeSorted, hfirst, hlast, hfront, hlf, insertArrayAt] using h
    simp [hbefore, hlf]
  | gt =>
    cases hfb : cmp first back with
    | lt =>
      obtain ⟨hmerge, hlookup⟩ := merge_spec hasc vector
      refine .inl ⟨by simp [endsApart, hfirst, hlast, hfront, hback, hlf, hfb],
        merge cmp items vector, by simp [mergeSorted, hfirst, hlast, hfront, hback, hlf, hfb],
        hmerge, fun y => ?_⟩
      rw [hlookup, hvec.lookup_reverse]
    | eq =>
      refine .inr ⟨by simp [endsApart, hfirst, hlast, hfront, hback, hfb], fun merged h => ?_⟩
      obtain rfl : items ++ vector = merged := by
        simpa [mergeSorted, hfirst, hlast, hfront, hback, hlf, hfb, insertArrayAt] using h
      simp [hafter, Std.OrientedCmp.eq_symm hfb]
    | gt =>
      have hasc' := hafter.mpr (Std.OrientedCmp.lt_of_gt hfb)
      exact .inl ⟨by simp [endsApart, hfirst, hlast, hfront, hback, hlf, hfb], items ++ vector,
        by simp [mergeSorted, hfirst, hlast, hfront, hback, hlf, hfb, insertArrayAt], hasc',
        hasc'.lookup_swap⟩

end Sets

/-! ## Runs -/

/-- An operation on one of any number of vectors. -/
inductive Op (α : Type) where
  | add (v : Nat) (item : α)
  | remove (v : Nat) (item : α)
  | merge (v : Nat) (vector : List α)
  | mergeSorted (v w : Nat)
  deriving DecidableEq, Repr

/-- What an operation makes of the vectors; undefined if a merge is. -/
def step (vs : Nat → List α) : Op α → Option (Nat → List α)
  | .add v item => some (Function.update vs v (add cmp (vs v) item))
  | .remove v item => some (Function.update vs v (remove cmp (vs v) item))
  | .merge v vector => some (Function.update vs v (merge cmp (vs v) vector))
  | .mergeSorted v w => (mergeSorted cmp (vs v) (vs w)).map (Function.update vs v)

/-- What the vectors should hold: under each key the item equal to it that was last added or merged
in, if it has not been removed. -/
def specStep (fs : Nat → α → Option α) : Op α → Nat → α → Option α
  | .add v item =>
    Function.update fs v fun y => if cmp item y = .eq then some item else fs v y
  | .remove v item => Function.update fs v fun y => if cmp item y = .eq then none else fs v y
  | .merge v vector => Function.update fs v fun y => (lookup cmp vector.reverse y).or (fs v y)
  | .mergeSorted v w => Function.update fs v fun y => (fs w y).or (fs v y)

/-- The vectors, unless an operation was undefined, and what they should hold. -/
structure State (α : Type) where
  vectors : Option (Nat → List α)
  spec : Nat → α → Option α

/-- All vectors are empty. -/
def initial : State α := ⟨some fun _ => [], fun _ _ => none⟩

def bothStep (s : State α) (op : Op α) : State α where
  vectors := s.vectors.bind (step cmp · op)
  spec := specStep cmp s.spec op

/-- The vector is the set described: its items are strictly increasing, they are the ones described,
and the index found under a key is that of the item described, if there is one. -/
structure IsSet (items : List α) (f : α → Option α) : Prop where
  ascending : Ascending cmp items
  mem_iff : ∀ x, x ∈ items ↔ f x = some x
  index : ∀ y, (indexOf cmp items y).bind (fun i => items[i]?) = f y
  found_iff : ∀ y, (indexOf cmp items y).isSome ↔ (f y).isSome

/-- All vectors are the sets described. -/
def Sets (s : State α) : Prop := ∃ vs, s.vectors = some vs ∧ ∀ v, IsSet cmp (vs v) (s.spec v)

/-- A sorted merge has ends that compare unequal, and an item to compare with. -/
def mergesApart (s : State α) : Op α → Bool
  | .mergeSorted v w => (s.vectors.map fun vs => endsApart cmp (vs v) (vs w)).getD true
  | _ => true

section Runs

variable {cmp} [Std.TransCmp cmp]

/-- The vectors are strictly increasing and give the items described. -/
def Described (cmp : α → α → Ordering) (s : State α) : Prop :=
  ∃ vs, s.vectors = some vs ∧ ∀ v, Ascending cmp (vs v) ∧ ∀ y, lookup cmp (vs v) y = s.spec v y

lemma Described.sets {s : State α} (h : Described cmp s) : Sets cmp s := by
  obtain ⟨vs, hvs, hv⟩ := h
  refine ⟨vs, hvs, fun v => ?_⟩
  obtain ⟨hasc, hlookup⟩ := hv v
  refine ⟨hasc, fun x => ?_, fun y => ?_, fun y => ?_⟩
  · rw [← hlookup]
    exact ⟨fun hx => hasc.lookup_mem hx Std.ReflCmp.compare_self, fun hx => (mem_of_lookup hx).1⟩
  · rw [← hlookup]
    exact (indexOf_spec hasc y).1
  · rw [← hlookup]
    exact (indexOf_spec hasc y).2

omit [Std.TransCmp cmp] in
/-- One vector changes, and what it should hold changes with it. -/
theorem Described.update {vs : Nat → List α} {fs : Nat → α → Option α}
    (h : ∀ v, Ascending cmp (vs v) ∧ ∀ y, lookup cmp (vs v) y = fs v y) (v : Nat)
    {items : List α} {f : α → Option α}
    (hitems : Ascending cmp items ∧ ∀ y, lookup cmp items y = f y) :
    Described cmp ⟨some (Function.update vs v items), Function.update fs v f⟩ := by
  refine ⟨_, rfl, fun w => ?_⟩
  rcases eq_or_ne w v with rfl | hne
  · simpa using hitems
  · simpa [Function.update_of_ne hne] using h w

lemma step_described (s : State α) (op : Op α) (h : Described cmp s) :
    (mergesApart cmp s op ∧ Described cmp (bothStep cmp s op) ∧ True) ∨
      (¬ mergesApart cmp s op ∧ ¬ Sets cmp (bothStep cmp s op)) := by
  obtain ⟨_, fs⟩ := s
  obtain ⟨vs, rfl, hv⟩ := h
  cases op with
  | add v item =>
    refine .inl ⟨rfl, .update hv v ?_, trivial⟩
    simpa [(hv v).2] using add_spec (hv v).1 item
  | remove v item =>
    refine .inl ⟨rfl, .update hv v ?_, trivial⟩
    simpa [(hv v).2] using remove_spec (hv v).1 item
  | merge v vector =>
    refine .inl ⟨rfl, .update hv v ?_, trivial⟩
    simpa [(hv v).2] using merge_spec (hv v).1 vector
  | mergeSorted v w =>
    rcases mergeSorted_spec (hv v).1 (hv w).1 with
      ⟨hapart, merged, hmerged, hasc, hlookup⟩ | ⟨hapart, hbad⟩
    · refine .inl ⟨hapart, ?_, trivial⟩
      simp only [bothStep, Option.bind_some, step, hmerged]
      refine .update hv v ⟨hasc, fun y => ?_⟩
      rw [hlookup, (hv v).2, (hv w).2]
    · refine .inr ⟨by simp [mergesApart, hapart], ?_⟩
      rintro ⟨vs', hvs', hsets⟩
      obtain ⟨merged, hmerged, rfl⟩ := Option.map_eq_some_iff.mp hvs'
      exact hbad merged hmerged (by simpa using (hsets v).ascending)

omit [Std.TransCmp cmp] in
theorem described_initial : Described cmp (initial : State α) :=
  ⟨fun _ => [], rfl, fun _ => ⟨List.Pairwise.nil, fun _ => rfl⟩⟩

end Runs

/-- **When sorted vectors stay sets.**  For every order of the items, and every sequence of
operations on any number of vectors that are empty at first, all vectors are the sets described in
every state, if and only if each merge of a sorted vector that is not empty goes into a vector that
is not empty, with its last item not equal to the first one there and its first item not equal to
the last one there. -/
theorem sets_iff [Std.TransCmp cmp] (run : List (Op α)) :
    Throughout (Sets cmp) (bothStep cmp) initial run ↔
      EachStep (fun s op => mergesApart cmp s op = true) (bothStep cmp) initial run := by
  rw [← throughout_iff_eachStep (fun _ h => h.sets) step_described run initial described_initial]
  exact ⟨fun h => ⟨h, eachStep_of_forall run initial fun _ _ => trivial⟩, And.left⟩

/-- Two vectors that are disjoint, one that comes before and one that overlaps are merged. -/
def sampleRun : List (Op (Nat × Nat)) :=
  [.add 0 (5, 0), .add 0 (3, 0), .add 1 (1, 0), .mergeSorted 0 1, .add 1 (3, 1), .add 1 (7, 0),
    .mergeSorted 0 1, .merge 2 [(9, 0), (8, 0), (9, 1)], .mergeSorted 0 2, .remove 0 (5, 2)]

/-- The items are ordered by their keys alone. -/
abbrev byKey : Nat × Nat → Nat × Nat → Ordering := compareOn Prod.fst

theorem sets_sampleRun : Throughout (Sets byKey) (bothStep byKey) initial sampleRun :=
  (sets_iff byKey sampleRun).mpr (by decide)

/-- A sorted vector is merged into an equal one: both of the equal items stay. -/
theorem merged_twice : ¬ Throughout (Sets byKey) (bothStep byKey) initial
    [.add 0 (1, 0), .add 1 (1, 1), .mergeSorted 0 1] := by
  intro h
  obtain ⟨vs, hvs, hsets⟩ := h.last
  have hmerged : vs 0 = [(1, 1), (1, 0)] := by
    cases hvs
    rfl
  have hasc := (hsets 0).ascending
  rw [hmerged] at hasc
  revert hasc
  decide

end LibUtils.SortedVector
