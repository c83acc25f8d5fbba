import Mathlib

/-!
# Indices of a fifo

The frames of a fifo of `mFrameCount` slots are numbered by 32-bit indices.  The low bits of an
index are the slot, the high bits count the turns; as the slots are no power of two in general, the
indices between `mFrameCount` and the next power of two are left out (`audio_utils_fifo_base`).
-/

namespace AudioUtils

/-! ## The functions -/

/-- `__builtin_clz`, of an argument that is not zero. -/
def clz (v : UInt32) : Nat := 31 - v.toNat.log2

/-- `roundup`: the next power of two. -/
def roundup (v : UInt32) : UInt32 :=
  let v := if v = 0 then 1 else v
  let lz := clz v
  let rounded : UInt32 := 0x80000000 >>> UInt32.ofNat lz
  if v > rounded ∧ lz > 0 then rounded <<< 1 else rounded

/-- What `audio_utils_fifo_base` is built with; it aborts for other frame counts. -/
structure Config where
  frameCount : UInt32
  pos : 0 < frameCount
  le : frameCount ≤ 0x7fffffff

namespace Config

variable (c : Config)

def frameCountP2 : UInt32 := roundup c.frameCount

def fudgeFactor : UInt32 := c.frameCountP2 - c.frameCount

def sum (index increment : UInt32) : UInt32 :=
  if c.fudgeFactor > 0 then
    let mask := c.frameCountP2 - 1
    if (index &&& mask) + increment ≥ c.frameCount then index + (increment + c.fudgeFactor)
    else index + increment
  else index + increment

end Config

inductive Errno where
  | eio | eoverflow | eintr | etimedout | ewouldblock | eperm
  deriving DecidableEq, Repr

/-- What `diff` returns, stores in `lost`, and whether it shuts the fifo down. -/
structure Diff where
  filled : Except Errno UInt32
  lost : UInt32 := 0
  isShutdown : Bool

/-- The last check of `diff`, that the fifo is not overfull. -/
def Config.checkFull (c : Config) (diff : UInt32) (flush : Bool) : Diff :=
  if diff > c.frameCount then
    ⟨.error .eoverflow, diff - (if flush then 0 else c.frameCount), false⟩
  else ⟨.ok diff, 0, false⟩

def Config.diff (c : Config) (isShutdown : Bool) (rear front : UInt32) (flush : Bool) : Diff :=
  if isShutdown then ⟨.error .eio, 0, true⟩
  else
    let diff := rear - front
    if c.fudgeFactor > 0 then
      let mask := c.frameCountP2 - 1
      if (rear &&& mask) ≥ c.frameCount ∨ (front &&& mask) ≥ c.frameCount then
        ⟨.error .eio, 0, true⟩
      else
        let genDiff := (rear &&& ~~~mask) - (front &&& ~~~mask)
        if genDiff > c.frameCountP2 then
          ⟨.error .eoverflow, diff - (if flush then 0 else c.frameCount) -
            c.fudgeFactor * (genDiff / c.frameCountP2), false⟩
        else if genDiff > 0 then c.checkFull (diff - c.fudgeFactor) flush
        else c.checkFull diff flush
    else c.checkFull diff flush

/-! ## Rounding up and masking -/

open UInt32 (toBitVec_and ofNat toNat_ofNat' lt_iff_toNat_lt le_iff_toNat_le ofNat_toNat zero_le
  ofNat_add add_comm add_sub_cancel lt_irrefl)

lemma and_not_add_and (x m : UInt32) : (x &&& ~~~m) + (x &&& m) = x := by
  apply UInt32.toBitVec_inj.mp
  rw [UInt32.toBitVec_add, toBitVec_and, toBitVec_and, UInt32.toBitVec_not,
    BitVec.add_eq_or_of_and_eq_zero]
  · ext i hi
    simp [BitVec.getElem_and]
    cases x.toBitVec[i] <;> cases m.toBitVec[i] <;> rfl
  · ext i hi
    simp only [BitVec.getElem_and, BitVec.getElem_not, BitVec.getElem_zero]
    cases x.toBitVec[i] <;> cases m.toBitVec[i] <;> rfl

open Nat (mod_eq_of_lt)

lemma roundup_spec {v : UInt32} (hpos : 0 < v.toNat) (hle : v.toNat ≤ 2 ^ 31 - 1) :
    ∃ k ≤ 31, (roundup v).toNat = 2 ^ k ∧ v.toNat ≤ 2 ^ k := by
  have hne : v.toNat ≠ 0 := by omega
  have hm : v.toNat.log2 < 31 := (Nat.log2_lt hne).mpr (by omega)
  have hlt := Nat.lt_log2_self (n := v.toNat)
  have hv : v ≠ 0 := by
    rintro rfl
    exact hne rfl
  generalize hlog : v.toNat.log2 = m at *
  have hshift : ((0x80000000 : UInt32) >>> ofNat (31 - m)).toNat = 2 ^ m := by
    rw [UInt32.toNat_shiftRight, toNat_ofNat', mod_eq_of_lt (by omega : 31 - m < 2 ^ 32),
      mod_eq_of_lt (by omega : 31 - m < 32), Nat.shiftRight_eq_div_pow]
    have : (0x80000000 : UInt32).toNat = 2 ^ m * 2 ^ (31 - m) := by
      rw [← Nat.pow_add, show m + (31 - m) = 31 by omega]
      rfl
    rw [this, Nat.mul_div_cancel _ (Nat.two_pow_pos _)]
  simp only [roundup, if_neg hv, clz, hlog]
  generalize (0x80000000 : UInt32) >>> ofNat (31 - m) = rounded at hshift
  split
  · next h =>
    refine ⟨m + 1, by omega, ?_, by omega⟩
    rw [UInt32.toNat_shiftLeft, hshift, show (1 : UInt32).toNat % 32 = 1 from rfl,
      Nat.shiftLeft_eq, ← Nat.pow_add, mod_eq_of_lt]
    exact Nat.pow_lt_pow_right (by decide) (by omega)
  · next h =>
    refine ⟨m, by omega, hshift, ?_⟩
    by_contra hgt
    exact h ⟨lt_iff_toNat_lt.mpr (by omega), by omega⟩

namespace Config

variable (c : Config)

/-- The number of slots. -/
def N : Nat := c.frameCount.toNat

/-- How far the indices of two turns are apart. -/
def P : Nat := c.frameCountP2.toNat

lemma N_pos : 0 < c.N := lt_iff_toNat_lt.mp c.pos

lemma N_lt : c.N < 2 ^ 31 := by
  have := le_iff_toNat_le.mp c.le
  have hmax : (0x7fffffff : UInt32).toNat = 2 ^ 31 - 1 := rfl
  unfold N
  omega

lemma P_spec : ∃ k ≤ 31, c.P = 2 ^ k ∧ c.N ≤ 2 ^ k :=
  roundup_spec c.N_pos (by have := c.N_lt; unfold N at this; omega)

lemma N_le_P : c.N ≤ c.P := by
  obtain ⟨k, -, hP, hN⟩ := c.P_spec
  omega

lemma P_dvd : c.P ∣ 2 ^ 32 := by
  obtain ⟨k, hk, hP, -⟩ := c.P_spec
  rw [hP]
  exact Nat.pow_dvd_pow 2 (by omega)

lemma fudgeFactor_toNat : c.fudgeFactor.toNat = c.P - c.N :=
  UInt32.toNat_sub_of_le _ _ (le_iff_toNat_le.mpr c.N_le_P)

lemma fudgeFactor_eq : c.fudgeFactor = ofNat (c.P - c.N) := by
  rw [← c.fudgeFactor_toNat, ofNat_toNat]

lemma fudgeFactor_eq_zero (h : ¬ c.fudgeFactor > 0) : c.fudgeFactor = 0 := by
  have hle : c.fudgeFactor ≤ 0 := UInt32.not_lt.mp h
  exact UInt32.le_antisymm hle zero_le

lemma toNat_and_mask (x : UInt32) : (x &&& (c.frameCountP2 - 1)).toNat = x.toNat % c.P := by
  obtain ⟨k, hk, hP, -⟩ := c.P_spec
  have hone : (1 : UInt32) ≤ c.frameCountP2 := by
    rw [le_iff_toNat_le]
    have := Nat.two_pow_pos k
    have : c.frameCountP2.toNat = 2 ^ k := hP
    have h1 : (1 : UInt32).toNat = 1 := rfl
    omega
  rw [UInt32.toNat_and, UInt32.toNat_sub_of_le _ _ hone]
  change x.toNat &&& (c.P - 1) = _
  rw [hP, Nat.and_two_pow_sub_one_eq_mod]

/-! ## The index of a position -/

/-- The index of the frame at a position of the stream. -/
def index (p : Nat) : UInt32 := UInt32.ofNat (p / c.N * c.P + p % c.N)

lemma index_zero : c.index 0 = 0 := by simp [index]

lemma slot_lt (p : Nat) : p % c.N < c.N := Nat.mod_lt p c.N_pos

/-- The low bits of an index are the slot. -/
lemma index_and_mask (p : Nat) : (c.index p &&& (c.frameCountP2 - 1)).toNat = p % c.N := by
  have := c.slot_lt p
  have := c.N_le_P
  rw [toNat_and_mask, index, toNat_ofNat', Nat.mod_mod_of_dvd _ c.P_dvd,
    Nat.mul_add_mod_self_right, mod_eq_of_lt (by omega)]

/-- The high bits count the turns. -/
lemma index_and_not_mask (p : Nat) :
    c.index p &&& ~~~(c.frameCountP2 - 1) = ofNat (p / c.N * c.P) := by
  have hslot : c.index p &&& (c.frameCountP2 - 1) = ofNat (p % c.N) := by
    rw [← c.index_and_mask p, ofNat_toNat]
  have h := and_not_add_and (c.index p) (c.frameCountP2 - 1)
  rw [hslot] at h
  have hindex : c.index p = ofNat (p / c.N * c.P) + ofNat (p % c.N) := by
    rw [index, ofNat_add]
  exact (UInt32.add_left_inj _).mp (h.trans hindex)

/-! ## Sums and differences of indices -/

section Turns

variable {c} {p n : Nat}

lemma pos_add (c : Config) (p n : Nat) : p + n = c.N * (p / c.N) + (p % c.N + n) := by
  have := Nat.div_add_mod p c.N
  omega

lemma pos_of_not_lt (h : ¬ p % c.N + n < c.N) :
    p + n = c.N * (p / c.N + 1) + (p % c.N + n - c.N) := by
  have := Nat.div_add_mod p c.N
  rw [mul_add]
  omega

lemma turn_add_of_lt (h : p % c.N + n < c.N) : (p + n) / c.N = p / c.N := by
  rw [c.pos_add, Nat.mul_add_div c.N_pos, Nat.div_eq_of_lt h, add_zero]

lemma turn_add_of_not_lt (hn : n ≤ c.N) (h : ¬ p % c.N + n < c.N) :
    (p + n) / c.N = p / c.N + 1 := by
  have hslot := c.slot_lt p
  have hrest : p % c.N + n - c.N < c.N := by omega
  rw [pos_of_not_lt h, Nat.mul_add_div c.N_pos, Nat.div_eq_of_lt hrest]

/-- Up to `N` positions further the slot is at most one turn on. -/
lemma index_add (hn : n ≤ c.N) : c.index (p + n) =
    if p % c.N + n < c.N then c.index p + ofNat n
    else c.index p + (ofNat n + c.fudgeFactor) := by
  have hNP := c.N_le_P
  have hslot := c.slot_lt p
  split
  · next h =>
    have hmod : (p + n) % c.N = p % c.N + n := by
      rw [c.pos_add, Nat.mul_add_mod, mod_eq_of_lt h]
    rw [index, index, turn_add_of_lt h, hmod, ← ofNat_add, add_assoc]
  · next h =>
    have hmod : (p + n) % c.N = p % c.N + n - c.N := by
      have hrest : p % c.N + n - c.N < c.N := by omega
      rw [pos_of_not_lt h, Nat.mul_add_mod, mod_eq_of_lt hrest]
    rw [index, index, turn_add_of_not_lt hn h, fudgeFactor_eq, ← ofNat_add,
      ← ofNat_add]
    congr 1
    rw [add_mul]
    omega

end Turns

/-- **The sum of indices.** -/
theorem sum_index (p : Nat) {n : Nat} (hn : n ≤ c.N) :
    c.sum (c.index p) (ofNat n) = c.index (p + n) := by
  have hslot := c.slot_lt p
  have hlt := c.N_lt
  have htoNat : (ofNat n).toNat = n := by
    rw [toNat_ofNat', mod_eq_of_lt (by omega)]
  have hcond : (c.index p &&& (c.frameCountP2 - 1)) + ofNat n ≥ c.frameCount ↔
      ¬ p % c.N + n < c.N := by
    rw [ge_iff_le, le_iff_toNat_le, UInt32.toNat_add, index_and_mask, htoNat,
      mod_eq_of_lt (by omega), not_lt]
    rfl
  rw [index_add hn, sum]
  split
  · by_cases h : p % c.N + n < c.N
    · rw [if_pos h, if_neg (mt hcond.mp (not_not_intro h))]
    · rw [if_neg h, if_pos (hcond.mpr h)]
  · next hfudge =>
    rw [c.fudgeFactor_eq_zero hfudge, UInt32.add_zero, ite_self]

lemma index_slot_ok (p : Nat) : ¬ (c.index p &&& (c.frameCountP2 - 1)) ≥ c.frameCount := by
  rw [ge_iff_le, le_iff_toNat_le, index_and_mask, not_le]
  exact c.slot_lt p

/-- The generation of a position is that of an earlier one, or the next. -/
lemma genDiff_index {p n : Nat} (hn : n ≤ c.N) :
    (c.index (p + n) &&& ~~~(c.frameCountP2 - 1)) - (c.index p &&& ~~~(c.frameCountP2 - 1)) =
      if p % c.N + n < c.N then 0 else c.frameCountP2 := by
  rw [index_and_not_mask, index_and_not_mask]
  split
  · next h =>
    rw [turn_add_of_lt h, UInt32.sub_self]
  · next h =>
    rw [turn_add_of_not_lt hn h, add_mul, one_mul, ofNat_add,
      add_comm, add_sub_cancel, P, ofNat_toNat]

lemma checkFull_ofNat {n : Nat} (hn : n ≤ c.N) (flush : Bool) :
    c.checkFull (ofNat n) flush = ⟨.ok (ofNat n), 0, false⟩ := by
  have hlt := c.N_lt
  rw [checkFull, if_neg]
  rw [gt_iff_lt, lt_iff_toNat_lt, toNat_ofNat', mod_eq_of_lt (by omega), not_lt]
  exact hn

/-- **The difference of indices.** -/
theorem diff_index (p : Nat) {n : Nat} (hn : n ≤ c.N) (flush : Bool) :
    c.diff false (c.index (p + n)) (c.index p) flush = ⟨.ok (ofNat n), 0, false⟩ := by
  have hfull := c.checkFull_ofNat hn flush
  have hturn : c.index p + ofNat n - c.index p = ofNat n := by
    rw [add_comm, add_sub_cancel]
  have hnext : c.index p + (ofNat n + c.fudgeFactor) - c.index p - c.fudgeFactor =
      ofNat n := by
    rw [add_comm, add_sub_cancel, add_sub_cancel]
  simp only [diff, Bool.false_eq_true, if_false]
  split
  · next hfudge =>
    rw [if_neg (by simp [c.index_slot_ok]), c.genDiff_index hn, index_add hn]
    split
    · have hzero : ¬ (0 : UInt32) > c.frameCountP2 := UInt32.not_lt.mpr zero_le
      rw [if_neg hzero, if_neg (UInt32.lt_irrefl 0), hturn, hfull]
    · have hpos : (0 : UInt32) < c.frameCountP2 := by
        exact lt_of_lt_of_le c.N_pos c.N_le_P
      rw [if_neg (lt_irrefl _), if_pos hpos, hnext, hfull]
  · next hfudge =>
    rw [index_add hn]
    rw [c.fudgeFactor_eq_zero hfudge] at hnext ⊢
    simp only [UInt32.add_zero, UInt32.sub_zero, ite_self] at hnext ⊢
    rw [hnext, hfull]

end Config

end AudioUtils
