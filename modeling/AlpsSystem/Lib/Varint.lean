import Mathlib

/-!
# Base-128 numbers

A number as bytes of seven bits each, the lowest first; every byte but the last has its
high bit set.  Both functions stop after a given number of bytes.

* `decode_encode` — reading what was written, whatever follows.
* `decode_take` — a number that is cut short is refused.
* `or_group`, `add_group_mod` — joining a group of bits to the lower ones, as readers
  with an accumulator do.
-/

namespace Varint

open List

/-- At most `k` bytes for `v`. -/
def encode : Nat → Nat → List UInt8
  | 0, _ => []
  | k + 1, v =>
    if v / 128 = 0 then [UInt8.ofNat (v % 128)]
    else UInt8.ofNat (v % 128 + 128) :: encode k (v / 128)

/-- The number at the start of `bytes` and the number of bytes it takes; `none` when it
does not end within the bytes or takes more than `k` of them. -/
def decode : Nat → List UInt8 → Option (Nat × Nat)
  | 0, _ => none
  | _ + 1, [] => none
  | k + 1, b :: bytes =>
    if b.toNat < 128 then some (b.toNat, 1)
    else (decode k bytes).map fun r => (b.toNat % 128 + 128 * r.1, r.2 + 1)

open UInt8 (ofNat)

lemma toNat_ofNat_of_lt {n : Nat} (h : n < 256) : (ofNat n).toNat = n := by
  exact Nat.mod_eq_of_lt h

lemma encode_length_pos (k v : Nat) : 0 < (encode (k + 1) v).length := by
  unfold encode
  split
  · exact Nat.one_pos
  · exact Nat.succ_pos _

variable {k value i x w : Nat}

/-- **Round trip**, with anything after the number. -/
theorem decode_encode : ∀ {v : Nat} (rest : List UInt8), v < 128 ^ (k + 1) →
    decode (k + 1) (encode (k + 1) v ++ rest) = some (v, (encode (k + 1) v).length) := by
  induction k with
  | zero =>
    intro v rest h
    have hv : v < 128 := by simpa using h
    have hbyte : (ofNat v).toNat = v := toNat_ofNat_of_lt (by omega)
    have hdiv : v / 128 = 0 := Nat.div_eq_of_lt hv
    simp [encode, decode, Nat.mod_eq_of_lt hv, hbyte, hv]
  | succ k ih =>
    intro v rest h
    rw [encode]
    split
    · rename_i hsmall
      have hbyte : (ofNat (v % 128)).toNat = v % 128 := toNat_ofNat_of_lt (by omega)
      have hv : v % 128 = v := by omega
      simp only [cons_append, decode, hbyte, length_singleton]
      rw [if_pos (by omega), hv]
    · rename_i hlarge
      have hbyte : (ofNat (v % 128 + 128)).toNat = v % 128 + 128 :=
        toNat_ofNat_of_lt (by omega)
      have hrec := ih (v := v / 128) rest (by
        rw [Nat.div_lt_iff_lt_mul (by decide)]
        exact h)
      simp only [cons_append, length_cons]
      rw [decode, if_neg (by omega), hrec]
      simp only [Option.map_some, Option.some.injEq, Prod.mk.injEq, and_true]
      omega

/-- What is used is there. -/
lemma decode_le : ∀ {bytes : List UInt8} {v n : Nat}, decode k bytes = some (v, n) →
    0 < n ∧ n ≤ bytes.length := by
  induction k with
  | zero => intro bytes v n h; cases h
  | succ k ih =>
    intro bytes v n h
    cases bytes with
    | nil => cases h
    | cons b bytes =>
      rw [decode] at h
      split at h
      · cases h
        exact ⟨Nat.one_pos, le_add_self⟩
      · obtain ⟨⟨v', n'⟩, hrec, hvn⟩ := Option.map_eq_some_iff.mp h
        cases hvn
        exact ⟨Nat.succ_pos _, Nat.succ_le_succ (ih hrec).2⟩

/-- A number that is cut short is refused. -/
lemma decode_take : ∀ {v m : Nat}, m < (encode k v).length →
    decode k ((encode k v).take m) = none := by
  induction k with
  | zero => intro v m h; rfl
  | succ k ih =>
    intro v m h
    rw [encode] at h ⊢
    cases m with
    | zero => rfl
    | succ m =>
      split at h
      · exact absurd h (by simp)
      · rename_i hlarge
        have hbyte : (ofNat (v % 128 + 128)).toNat = v % 128 + 128 :=
          toNat_ofNat_of_lt (by omega)
        rw [if_neg hlarge, take_succ_cons, decode, if_neg (by omega), ih (Nat.lt_of_succ_lt_succ h)]
        rfl

/-! ## Groups of bits -/

/-- A group of bits above all bits of `value`, within words of `w` bits. -/
lemma or_group (hvalue : value < 2 ^ i) (hi : i ≤ w) :
    value ||| (x <<< i) % 2 ^ w = value + x * 2 ^ i % 2 ^ w := by
  obtain ⟨d, rfl⟩ : ∃ d, w = i + d := ⟨w - i, by omega⟩
  have hshift : x * 2 ^ i % 2 ^ (i + d) = (x % 2 ^ d) <<< i := by
    rw [Nat.shiftLeft_eq, pow_add, mul_comm x, Nat.mul_mod_mul_left, mul_comm]
  rw [Nat.shiftLeft_eq, hshift, Nat.lor_comm, ← Nat.shiftLeft_add_eq_or_of_lt hvalue, add_comm]

/-- Joining the group overflows nothing but the group itself. -/
lemma add_group_mod (hvalue : value < 2 ^ i) (hi : i ≤ w) :
    value + x * 2 ^ i % 2 ^ w = (value + x * 2 ^ i) % 2 ^ w := by
  obtain ⟨d, rfl⟩ : ∃ d, w = i + d := ⟨w - i, by omega⟩
  have hpos : 0 < 2 ^ i := Nat.two_pow_pos i
  have hdiv : (value + x * 2 ^ i) / 2 ^ i = x := by
    rw [Nat.add_mul_div_right _ _ hpos, Nat.div_eq_of_lt hvalue, zero_add]
  have hmod : (value + x * 2 ^ i) % 2 ^ i = value := by
    rw [Nat.add_mul_mod_self_right, Nat.mod_eq_of_lt hvalue]
  rw [pow_add, Nat.mod_mul (x := value + x * 2 ^ i), hdiv, hmod, mul_comm x, Nat.mul_mod_mul_left]

end Varint
