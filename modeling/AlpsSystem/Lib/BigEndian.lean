import Mathlib

/-!
# Numbers as big-endian bytes

* `decode` — the number that a list of bytes stands for, most significant byte first.
* `encode` — the `w` low bytes of a number.
* `decode_lt`, `decode_encode` — how large a number is, and reading back what was written.
-/

namespace BigEndian

def decode (l : List UInt8) : Nat := l.foldl (fun n b => n * 256 + b.toNat) 0

def encode : (width : Nat) → Nat → List UInt8
  | 0, _ => []
  | w + 1, n => encode w (n / 256) ++ [UInt8.ofNat n]

@[simp] lemma length_encode (w n : Nat) : (encode w n).length = w := by
  induction w generalizing n with
  | zero => rfl
  | succ w ih => simp [encode, ih]

lemma decode_append_singleton (l : List UInt8) (b : UInt8) :
    decode (l ++ [b]) = decode l * 256 + b.toNat := by
  simp [decode]

lemma decode_lt (l : List UInt8) : decode l < 256 ^ l.length := by
  induction l using List.reverseRecOn with
  | nil => decide
  | append_singleton l b ih =>
    have hb := b.toNat_lt
    rw [decode_append_singleton, List.length_append, List.length_singleton, pow_succ]
    omega

lemma decode_encode_mod (w n : Nat) : decode (encode w n) = n % 256 ^ w := by
  induction w generalizing n with
  | zero => simp [encode, decode, Nat.mod_one]
  | succ w ih =>
    have hmod := Nat.mod_mul (x := n) (a := 256) (b := 256 ^ w)
    rw [encode, decode_append_singleton, ih, UInt8.toNat_ofNat', pow_succ' 256 w]
    omega

lemma decode_encode {w n : Nat} (h : n < 256 ^ w) : decode (encode w n) = n := by
  rw [decode_encode_mod, Nat.mod_eq_of_lt h]

end BigEndian
