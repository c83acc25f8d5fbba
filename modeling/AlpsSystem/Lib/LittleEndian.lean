import Mathlib

/-!
# Numbers as little-endian bytes

* `decode` — the number that a list of bytes stands for, least significant byte first.
* `encode` — the `w` low bytes of a number.
* `decode_encode`, `encode_decode` — reading back what was written, and writing what was read.
-/

namespace LittleEndian

def decode : List UInt8 → Nat
  | [] => 0
  | b :: l => b.toNat + 256 * decode l

def encode : (width : Nat) → Nat → List UInt8
  | 0, _ => []
  | w + 1, n => UInt8.ofNat n :: encode w (n / 256)

@[simp] lemma length_encode (w n : Nat) : (encode w n).length = w := by
  induction w generalizing n with
  | zero => rfl
  | succ w ih => rw [encode, List.length_cons, ih]

lemma decode_encode_mod (w n : Nat) : decode (encode w n) = n % 256 ^ w := by
  induction w generalizing n with
  | zero => rw [pow_zero, Nat.mod_one]; rfl
  | succ w ih =>
    have hmod := Nat.mod_mul (x := n) (a := 256) (b := 256 ^ w)
    rw [encode, decode, ih, UInt8.toNat_ofNat', pow_succ' 256 w]
    omega

lemma decode_encode {w n : Nat} (h : n < 256 ^ w) : decode (encode w n) = n := by
  rw [decode_encode_mod, Nat.mod_eq_of_lt h]

lemma decode_lt (l : List UInt8) : decode l < 256 ^ l.length := by
  induction l with
  | nil => exact Nat.one_pos
  | cons b l ih =>
    have hb : b.toNat < 256 := b.toNat_lt
    rw [decode, List.length_cons]
    omega

lemma encode_decode (l : List UInt8) : encode l.length (decode l) = l := by
  induction l with
  | nil => rfl
  | cons b l ih =>
    have hb : b.toNat < 256 := b.toNat_lt
    have hrest : (b.toNat + 256 * decode l) / 256 = decode l := by omega
    have hfirst : UInt8.ofNat (b.toNat + 256 * decode l) = b := by
      refine UInt8.toNat.inj ?_
      rw [UInt8.toNat_ofNat']
      omega
    rw [List.length_cons, decode, encode, hfirst, hrest, ih]

end LittleEndian
