import Mathlib

/-!
# Rings of slots

A ring has `N` slots and holds the last part of an unbounded stream: the item at
position `j` of the stream sits in slot `j % N`, as long as it has not been
overwritten by the item at position `j + N`.

* `put` — store a batch from a stream position on, wrapping around.
* `get` — fetch a batch from a stream position on.
-/

namespace Ring

variable {α : Type} {N lo pos lo' hi : Nat} {slots : Nat → α} {stream : List α}

/-- Store a batch from stream position `pos` on. -/
def put (slots : Nat → α) (N : Nat) : Nat → List α → Nat → α
  | _, [] => slots
  | pos, x :: xs => put (Function.update slots (pos % N) x) N (pos + 1) xs

/-- Fetch `n` items from stream position `pos` on. -/
def get (slots : Nat → α) (N pos n : Nat) : List α :=
  (List.range n).map fun j => slots ((pos + j) % N)

/-- The slots hold the positions `lo ≤ j < hi` of the stream. -/
def Holds (slots : Nat → α) (N : Nat) (stream : List α) (lo hi : Nat) : Prop :=
  ∀ j, lo ≤ j → j < hi → stream[j]? = some (slots (j % N))

/-- Positions less than a turn apart have different slots. -/
lemma mod_ne_mod {i j : Nat} (hij : i < j) (hN : j < i + N) : i % N ≠ j % N := by
  intro h
  have hdvd : N ∣ j - i := Nat.dvd_of_mod_eq_zero (Nat.sub_mod_eq_zero_of_mod_eq h.symm)
  have := Nat.le_of_dvd (by omega) hdvd
  omega

/-- A batch leaves every other slot alone. -/
lemma put_of_ne (data : List α) :
    ∀ (slots : Nat → α) (pos k : Nat), (∀ j < data.length, (pos + j) % N ≠ k) →
      put slots N pos data k = slots k := by
  induction data with
  | nil => intro slots pos k _; rfl
  | cons x xs ih =>
    intro slots pos k h
    unfold put
    rw [ih]
    · exact Function.update_of_ne (h 0 (by simp)).symm _ _
    · intro j hj
      have := h (j + 1) (by simpa using hj)
      rwa [show pos + (j + 1) = pos + 1 + j by omega] at this

/-- A batch of at most a turn is stored item by item. -/
lemma put_at (data : List α) :
    ∀ (slots : Nat → α) (pos j : Nat), data.length ≤ N → (hj : j < data.length) →
      put slots N pos data ((pos + j) % N) = data[j] := by
  induction data with
  | nil => intro slots pos j _ hj; simp at hj
  | cons x xs ih =>
    intro slots pos j hN hj
    simp only [List.length_cons] at hN hj
    unfold put
    cases j with
    | zero =>
      rw [put_of_ne]
      · simp
      · intro i hi
        exact (mod_ne_mod (by omega) (by omega)).symm
    | succ j =>
      rw [show pos + (j + 1) = pos + 1 + j by omega]
      simpa using ih _ (pos + 1) j (by omega) (by omega)

/-- The slot of a position, from the slot of an earlier one less than a turn before. -/
lemma add_mod_eq {j : Nat} (hN : 0 < N) (hj : j < N) :
    (pos + j) % N = if j < N - pos % N then pos % N + j else j - (N - pos % N) := by
  have hmod := Nat.mod_lt pos hN
  rw [Nat.add_mod, Nat.mod_eq_of_lt hj]
  split
  · exact Nat.mod_eq_of_lt (by omega)
  · rw [show pos % N + j = j - (N - pos % N) + N by omega, Nat.add_mod_right,
      Nat.mod_eq_of_lt (by omega)]

/-- **Storing a batch extends the window**, which gives up what lies a turn behind. -/
theorem Holds.put (data : List α) (h : Holds slots N stream lo stream.length) (hlo : lo ≤ lo')
    (hroom : stream.length + data.length ≤ lo' + N) (hlen : data.length ≤ N) :
    Holds (put slots N stream.length data) N (stream ++ data) lo'
      (stream.length + data.length) := by
  intro j hj hj'
  by_cases hold : j < stream.length
  · rw [List.getElem?_append_left hold, put_of_ne, h j (by omega) hold]
    intro i hi
    exact (mod_ne_mod (by omega) (by omega)).symm
  · have hi : j - stream.length < data.length := by omega
    rw [List.getElem?_append_right (by omega), List.getElem?_eq_getElem hi]
    have := put_at data slots stream.length _ hlen hi
    rw [show stream.length + (j - stream.length) = j by omega] at this
    rw [this]

open Ring

/-- **Fetching inside the window gives the items of the stream.** -/
theorem Holds.get {n : Nat} (h : Holds slots N stream lo hi) (hlo : lo ≤ pos) (hhi : pos + n ≤ hi) :
    get slots N pos n = (stream.drop pos).take n := by
  refine List.ext_getElem? ?_
  intro j
  unfold Ring.get
  rw [List.getElem?_map, List.getElem?_take, List.getElem?_drop]
  by_cases hj : j < n
  · rw [if_pos hj, List.getElem?_range hj, Option.map_some, h (pos + j) (by omega) (by omega)]
  · rw [if_neg hj, List.getElem?_eq_none (by simpa using hj)]
    rfl

@[simp] lemma length_get (slots : Nat → α) (pos n : Nat) : (get slots N pos n).length = n := by
  simp [get]

lemma get_succ (slots : Nat → α) (pos n : Nat) :
    get slots N pos (n + 1) = get slots N pos n ++ [slots ((pos + n) % N)] := by
  simp [get, List.range_succ]

/-- What lies in the slots after the window may become part of the stream. -/
lemma Holds.extend (h : Holds slots N stream lo stream.length) (n : Nat) :
    Holds slots N (stream ++ Ring.get slots N stream.length n) lo (stream.length + n) := by
  intro j hj hj'
  by_cases hold : j < stream.length
  · rw [List.getElem?_append_left hold, h j hj hold]
  · rw [List.getElem?_append_right (by omega)]
    simp [Ring.get, List.getElem?_range (show j - stream.length < n by omega),
      show stream.length + (j - stream.length) = j by omega]

/-- A slot outside the window may change. -/
lemma Holds.update
    (h : Holds slots N stream lo hi) (hpos : hi ≤ pos) (hroom : pos < lo + N) (x : α) :
    Holds (Function.update slots (pos % N) x) N stream lo hi := by
  intro j hj hj'
  rw [Function.update_of_ne (mod_ne_mod (by omega) (by omega))]
  exact h j hj hj'

lemma Holds.congr {slots' : Nat → α} (hN : 0 < N)
    (h : Holds slots N stream lo hi) (heq : ∀ i < N, slots' i = slots i) :
    Holds slots' N stream lo hi := by
  intro j hj hj'
  rw [heq _ (Nat.mod_lt j hN)]
  exact h j hj hj'

lemma Holds.mono {hi' : Nat} (h : Holds slots N stream lo hi) (hlo : lo ≤ lo') (hhi : hi' ≤ hi) :
    Holds slots N stream lo' hi' :=
  fun j hj hj' => h j (by omega) (by omega)

end Ring
