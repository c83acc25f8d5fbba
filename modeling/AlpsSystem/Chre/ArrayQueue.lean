import AlpsSystem.Lib.Ring

/-!
# The array queue

`ArrayQueue` of `chre/util/include/chre/util/array_queue_impl.h`: a queue in an array whose head
and tail wrap around, and from whose middle elements can be removed.

* `push`, `pop`, `remove` — the operations on the array, `Op.onList` — those on a list.
* `run_refines` — after any operations the array shows the list.
-/

namespace Chre

/-- `ArrayQueue`; a slot without an element is `none`. -/
structure ArrayQueue (α : Type) where
  data : Nat → Option α := fun _ => none
  head : Nat := 0
  tail : Nat
  size : Nat := 0

namespace ArrayQueue

open List Function

variable {α : Type} (kCapacity : Nat)

/-- The empty queue. -/
def create : ArrayQueue α := { tail := kCapacity - 1 }

def relativeIndexToAbsolute (q : ArrayQueue α) (index : Nat) : Nat :=
  if kCapacity ≤ q.head + index then q.head + index - kCapacity else q.head + index

def front (q : ArrayQueue α) : Option α := q.data q.head

/-- `operator[]`. -/
def get (q : ArrayQueue α) (index : Nat) : Option α :=
  q.data (q.relativeIndexToAbsolute kCapacity index)

def pullHead (q : ArrayQueue α) : ArrayQueue α :=
  { q with head := if q.head + 1 = kCapacity then 0 else q.head + 1, size := q.size - 1 }

def pushTail (q : ArrayQueue α) : Bool × ArrayQueue α :=
  if kCapacity ≤ q.size then (false, q)
  else
    (true, { q with tail := if q.tail + 1 = kCapacity then 0 else q.tail + 1, size := q.size + 1 })

def push (q : ArrayQueue α) (element : α) : Bool × ArrayQueue α :=
  match q.pushTail kCapacity with
  | (false, q) => (false, q)
  | (true, q) => (true, { q with data := Function.update q.data q.tail (some element) })

def pop (q : ArrayQueue α) : ArrayQueue α :=
  if 0 < q.size then { q with data := Function.update q.data q.head none }.pullHead kCapacity else q

/-- The loop of `remove`: `headLength` elements move to the next slot. -/
def moveHead : Nat → Nat → (Nat → Option α) → Nat → Option α
  | 0, _, data => data
  | headLength + 1, absoluteIndex, data =>
    let prev := if absoluteIndex = 0 then kCapacity - 1 else absoluteIndex - 1
    moveHead headLength prev (Function.update data absoluteIndex (data prev))

def remove (q : ArrayQueue α) (index : Nat) : Bool × ArrayQueue α :=
  if q.size ≤ index then (false, q)
  else
    let absoluteIndex := q.relativeIndexToAbsolute kCapacity index
    let data := moveHead kCapacity index absoluteIndex (Function.update q.data absoluteIndex none)
    (true, { q with data := data }.pullHead kCapacity)

/-- A call on the queue. -/
inductive Op (α : Type) where
  | push (element : α)
  | pop
  | remove (index : Nat)

/-- The call, with what it returns. -/
def call (q : ArrayQueue α) : Op α → Bool × ArrayQueue α
  | .push element => q.push kCapacity element
  | .pop => (true, q.pop kCapacity)
  | .remove index => q.remove kCapacity index

/-- The call on a list of at most `kCapacity` elements. -/
def Op.onList (l : List α) : Op α → Bool × List α
  | .push element => if l.length = kCapacity then (false, l) else (true, l ++ [element])
  | .pop => (true, l.tail)
  | .remove index => if index < l.length then (true, l.eraseIdx index) else (false, l)

/-- Calls one after the other, with all they return. -/
def run {S : Type} (step : S → Op α → Bool × S) (s : S) : List (Op α) → List Bool × S
  | [] => ([], s)
  | op :: ops =>
    let rest := run step (step s op).2 ops
    ((step s op).1 :: rest.1, rest.2)

/-- The queue shows the list. -/
structure Refines (q : ArrayQueue α) (l : List α) : Prop where
  size : q.size = l.length
  front : l ≠ [] → q.front = l.head?
  get : ∀ index < l.length, q.get kCapacity index = l[index]?

/-- The invariant: from the head on, the slots hold the list. -/
structure Inv (q : ArrayQueue α) (l : List α) : Prop where
  head : q.head < kCapacity
  tail : q.tail < kCapacity ∧ (q.tail + 1) % kCapacity = (q.head + l.length) % kCapacity
  size : q.size = l.length
  bound : l.length ≤ kCapacity
  holds : ∀ i < l.length, q.data ((q.head + i) % kCapacity) = l[i]?

variable {kCapacity} {q : ArrayQueue α} {l : List α}

lemma next_eq {i : Nat} (h : i < kCapacity) :
    (if i + 1 = kCapacity then 0 else i + 1) = (i + 1) % kCapacity := by
  split
  · next heq => rw [heq, Nat.mod_self]
  · exact (Nat.mod_eq_of_lt (by omega)).symm

lemma relativeIndexToAbsolute_eq (h : q.head < kCapacity) {index : Nat}
    (hindex : index < kCapacity) :
    q.relativeIndexToAbsolute kCapacity index = (q.head + index) % kCapacity := by
  unfold relativeIndexToAbsolute
  split
  · rw [Nat.mod_eq_sub_mod ‹_›, Nat.mod_eq_of_lt (by omega)]
  · exact (Nat.mod_eq_of_lt (by omega)).symm

section

variable (h : Inv kCapacity q l)

include h

lemma Inv.toRefines : Refines kCapacity q l := by
  refine ⟨h.size, fun hne => ?_, fun index hindex => ?_⟩
  · have hfirst := h.holds 0 (length_pos_of_ne_nil hne)
    rwa [add_zero, Nat.mod_eq_of_lt h.head, ← head?_eq_getElem?] at hfirst
  · rw [get, relativeIndexToAbsolute_eq h.head (lt_of_lt_of_le hindex h.bound)]
    exact h.holds index hindex

open Op

lemma Inv.push (element : α) :
    (q.push kCapacity element).1 = ((Op.push element).onList kCapacity l).1 ∧
      Inv kCapacity (q.push kCapacity element).2 ((Op.push element).onList kCapacity l).2 := by
  have hbound := h.bound
  simp only [ArrayQueue.push, pushTail, onList, h.size, next_eq h.tail.1]
  by_cases hfull : l.length = kCapacity
  · rw [if_pos hfull.ge, if_pos hfull]
    exact ⟨rfl, h⟩
  rw [if_neg (by omega), if_neg hfull]
  refine ⟨rfl, h.head, ⟨Nat.mod_lt _ (by omega), ?_⟩, by simp, by simp; omega, ?_⟩
  · rw [h.tail.2, Nat.mod_add_mod, length_append, length_singleton, add_assoc]
  · intro i hi
    rw [length_append, length_singleton] at hi
    dsimp only
    rw [h.tail.2]
    by_cases hlast : i = l.length
    · rw [hlast, update_self, getElem?_concat_length]
    · rw [update_of_ne (Ring.mod_ne_mod (by omega) (by omega)), h.holds i (by omega),
        getElem?_append_left (by omega)]

omit h in
/-- The elements from the head on have moved by one slot. -/
theorem moveHead_eq (head : Nat) (hpos : 0 < kCapacity) (headLength : Nat) :
    ∀ (data : Nat → Option α), headLength < kCapacity → ∀ j < kCapacity, 0 < j →
      moveHead kCapacity headLength ((head + headLength) % kCapacity) data
        ((head + j) % kCapacity) =
        data ((if j ≤ headLength then head + j - 1 else head + j) % kCapacity) := by
  induction headLength with
  | zero =>
    intro data _ j hj hj'
    rw [if_neg (by omega)]
    rfl
  | succ n ih =>
    intro data hn j hj hj'
    have hprev : (if (head + (n + 1)) % kCapacity = 0 then kCapacity - 1
        else (head + (n + 1)) % kCapacity - 1) = (head + n) % kCapacity := by
      have hlt := Nat.mod_lt (head + n) hpos
      rw [← add_assoc, ← Nat.mod_add_mod (head + n), ← next_eq hlt]
      by_cases hnext : (head + n) % kCapacity + 1 = kCapacity
      · rw [if_pos hnext, if_pos rfl]
        omega
      · rw [if_neg hnext, if_neg (by omega)]
        rfl
    rw [moveHead, hprev, ih _ (by omega) j hj hj']
    by_cases hlast : j = n + 1
    · rw [if_neg (by omega), if_pos hlast.le, hlast, update_self]
      rfl
    rw [update_of_ne]
    · congr 2
      split <;> split <;> omega
    · split
      · exact Ring.mod_ne_mod (by omega) (by omega)
      · exact (Ring.mod_ne_mod (by omega) (by omega)).symm

lemma Inv.remove (index : Nat) :
    (q.remove kCapacity index).1 = ((Op.remove index).onList kCapacity l).1 ∧
      Inv kCapacity (q.remove kCapacity index).2 ((Op.remove index).onList kCapacity l).2 := by
  have hbound := h.bound
  have hpos : 0 < kCapacity := Nat.zero_lt_of_lt h.head
  simp only [ArrayQueue.remove, onList, h.size]
  by_cases hindex : index < l.length
  · rw [if_neg (by omega), if_pos hindex, relativeIndexToAbsolute_eq h.head (by omega)]
    have hlength := length_eraseIdx_of_lt hindex
    simp only [pullHead, next_eq h.head]
    refine ⟨trivial, Nat.mod_lt _ hpos, ⟨h.tail.1, ?_⟩, hlength.symm, by omega, ?_⟩
    · rw [h.tail.2, Nat.mod_add_mod]
      congr 1
      omega
    · intro i hi
      dsimp only
      rw [Nat.mod_add_mod, add_assoc, add_comm 1,
        moveHead_eq _ hpos _ _ (by omega) _ (by omega) (by omega), getElem?_eraseIdx]
      split
      · rw [if_pos (by omega), update_of_ne, ← h.holds i (by omega)]
        · rfl
        · exact Ring.mod_ne_mod (by omega) (by omega)
      · rw [if_neg (by omega), update_of_ne, ← h.holds (i + 1) (by omega)]
        exact (Ring.mod_ne_mod (by omega) (by omega)).symm
  · rw [if_pos (by omega), if_neg hindex]
    exact ⟨rfl, h⟩

lemma Inv.pop : Inv kCapacity (q.pop kCapacity) l.tail := by
  -- as `remove` does at index 0
  have hremove := (h.remove 0).2
  simp only [ArrayQueue.remove, onList, relativeIndexToAbsolute, add_zero,
    if_neg (not_le.mpr h.head)] at hremove
  unfold ArrayQueue.pop
  cases l with
  | nil => rwa [if_neg (by simp [h.size])]
  | cons x l =>
    rw [if_pos (by simp [h.size])]
    rwa [if_neg (by simp [h.size]), if_pos (by simp)] at hremove

end

/-- After any calls, the array shows the list, and they have returned the same. -/
theorem run_refines (hcap : 1 ≤ kCapacity) (ops : List (Op α)) :
    (run (call kCapacity) (create kCapacity) ops).1 = (run (Op.onList kCapacity) [] ops).1 ∧
      Refines kCapacity (run (call kCapacity) (create kCapacity) ops).2
        (run (Op.onList kCapacity) [] ops).2 := by
  have hcreate : Inv kCapacity (create kCapacity : ArrayQueue α) [] := by
    refine ⟨hcap, ⟨Nat.sub_lt hcap one_pos, ?_⟩, rfl, zero_le, nofun⟩
    simp [create, Nat.sub_add_cancel hcap]
  suffices hrun : ∀ (q : ArrayQueue α) (l : List α), Inv kCapacity q l →
      (run (call kCapacity) q ops).1 = (run (Op.onList kCapacity) l ops).1 ∧
        Inv kCapacity (run (call kCapacity) q ops).2 (run (Op.onList kCapacity) l ops).2 from
    ⟨(hrun _ _ hcreate).1, (hrun _ _ hcreate).2.toRefines⟩
  induction ops with
  | nil => exact fun q l h => ⟨rfl, h⟩
  | cons op ops ih =>
    intro q l h
    have hstep : (call kCapacity q op).1 = (op.onList kCapacity l).1 ∧
        Inv kCapacity (call kCapacity q op).2 (op.onList kCapacity l).2 := by
      cases op with
      | push element => exact h.push element
      | pop => exact ⟨rfl, h.pop⟩
      | remove index => exact h.remove index
    obtain ⟨hreturns, hinv⟩ := ih _ _ hstep.2
    exact ⟨congrArg₂ cons hstep.1 hreturns, hinv⟩

/-- Elements are removed behind the wrap, and a full queue refuses one. -/
theorem run_refines_wrapped :
    (run (call 2) (create 2) [.push 'a', .push 'b', .push 'c', .pop, .push 'd', .remove 1]).1 =
        [true, true, false, true, true, true] ∧
      Refines 2 (run (call 2) (create 2) [.push 'a', .push 'b', .push 'c', .pop, .push 'd',
        .remove 1]).2 ['b'] :=
  ⟨(run_refines (by decide) _).1, (run_refines (by decide) _).2⟩

end ArrayQueue

end Chre
