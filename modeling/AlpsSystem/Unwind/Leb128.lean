import AlpsSystem.Lib.Varint

/-!
# Numbers in DWARF sections

`DwarfMemory::ReadULEB128` and `ReadSLEB128` read numbers of any length.  A shift by 64 or more is
undefined: `leb128_read_iff` says which numbers are read, and on which bytes the functions shift
that far.
-/

namespace Leb128

open List

inductive Stop where
  | unreadable
  | undefined
  deriving DecidableEq

/-- `cur_value`, `shift` and `byte`, and how many bytes have been read. -/
structure Groups where
  value : Nat
  shift : Nat
  byte : UInt8
  offset : Nat
  deriving DecidableEq

/-- The loop of both functions, over the bytes that can be read. -/
def readGroups : List UInt8 → (value shift offset : Nat) → Except Stop Groups
  | [], _, _, _ => .error .unreadable
  | byte :: rest, value, shift, offset =>
    if shift ≥ 64 then .error .undefined
    else
      let value := (value + (byte.toNat % 128) <<< shift % 2 ^ 64) % 2 ^ 64
      if byte.toNat ≥ 128 then readGroups rest value (shift + 7) (offset + 1)
      else .ok ⟨value, shift + 7, byte, offset + 1⟩

def readULEB128 (bytes : List UInt8) : Except Stop (Nat × Nat) :=
  match readGroups bytes 0 0 0 with
  | .error e => .error e
  | .ok g => .ok (g.value, g.offset)

/-- The cast to `int64_t`. -/
def toInt64 (value : Nat) : Int := if value < 2 ^ 63 then value else value - 2 ^ 64

def readSLEB128 (bytes : List UInt8) : Except Stop (Int × Nat) :=
  match readGroups bytes 0 0 0 with
  | .error e => .error e
  | .ok g =>
    if g.byte.toNat % 128 ≥ 64 then
      if g.shift ≥ 64 then .error .undefined
      else .ok (toInt64 (g.value ||| (2 ^ 64 - 1) <<< g.shift % 2 ^ 64), g.offset)
    else .ok (toInt64 g.value, g.offset)

/-- The bytes of `v`, up to the first rest that is `last`. -/
def encode (last : Int → Bool) : Nat → Int → List UInt8
  | 0, _ => []
  | k + 1, v =>
    if last v then [UInt8.ofNat (v % 128).toNat]
    else UInt8.ofNat ((v % 128).toNat + 128) :: encode last k (v / 128)

def encodeUnsigned (v : Nat) : List UInt8 := encode (· < 128) 10 v

def encodeSigned (v : Int) : List UInt8 := encode (fun u => -64 ≤ u ∧ u < 64) 10 v

/-- The bytes that say that another one follows. -/
def continued (bytes : List UInt8) : Nat := (bytes.takeWhile (·.toNat ≥ 128)).length

variable {v : Int} {bytes : List UInt8}

lemma emod_succ (v : Int) (n : Nat) :
    (v % 128 ^ (n + 1)).toNat = (v % 128).toNat + 128 * (v / 128 % 128 ^ n).toNat := by
  have hmod : v % 128 ^ (n + 1) = v % 128 + 128 * (v / 128 % 128 ^ n) := by
    rw [pow_succ', Int.emod_def, Int.emod_def v 128, Int.emod_def (v / 128),
      ← Int.ediv_ediv_of_nonneg (by decide)]
    ring
  have hrest := Int.emod_nonneg (v / 128) (pow_ne_zero n (by decide : (128 : Int) ≠ 0))
  omega

lemma ediv_succ (v : Int) (n : Nat) : v / 128 / 128 ^ n = v / 128 ^ (n + 1) := by
  rw [Int.ediv_ediv_of_nonneg (by decide), pow_succ']

open Varint

/-- The loop over the bytes of `v`, if they end before the shift is too large. -/
lemma readGroups_encode (last : Int → Bool) (rest : List UInt8) (value shift offset : Nat)
    {fuel k : Nat} (hlast : last (v / 128 ^ k)) (hk : k < fuel) (hshift : shift + 7 * k < 64) :
    ∃ n ≤ k, ∃ byte : UInt8, readGroups (encode last fuel v ++ rest) value shift offset =
        .ok ⟨(value + (v % 128 ^ (n + 1)).toNat * 2 ^ shift) % 2 ^ 64, shift + 7 * (n + 1), byte,
          offset + (encode last fuel v).length⟩ ∧
      last (v / 128 ^ n) ∧ byte.toNat = (v / 128 ^ n % 128).toNat := by
  induction fuel generalizing k v value shift offset with
  | zero => omega
  | succ fuel ih =>
    rw [encode]
    split
    case isTrue hv =>
      have hbyte : (UInt8.ofNat (v % 128).toNat).toNat = (v % 128).toNat :=
        toNat_ofNat_of_lt (by omega)
      refine ⟨0, zero_le, UInt8.ofNat (v % 128).toNat, ?_, by simpa using hv, by simpa using hbyte⟩
      have hmod : (v % 128).toNat % 128 = (v % 128).toNat := Nat.mod_eq_of_lt (by omega)
      rw [singleton_append, readGroups, if_neg (by omega), hbyte]
      simp only [hmod, Nat.shiftLeft_eq]
      rw [if_neg (by omega)]
      simp
    case isFalse hv =>
      cases k with
      | zero => simp [hv] at hlast
      | succ k =>
        have hbyte : (UInt8.ofNat ((v % 128).toNat + 128)).toNat = (v % 128).toNat + 128 :=
          toNat_ofNat_of_lt (by omega)
        have hmod : (v % 128).toNat % 128 = (v % 128).toNat := Nat.mod_eq_of_lt (by omega)
        rw [cons_append, readGroups, if_neg (by omega), hbyte]
        simp only [hmod, Nat.add_mod_right, Nat.shiftLeft_eq, Nat.add_mod_mod]
        rw [if_pos (by omega)]
        obtain ⟨n, hn, byte, hread, hend, hlow⟩ := ih
          ((value + (v % 128).toNat * 2 ^ shift) % 2 ^ 64) (shift + 7) (offset + 1)
          (by rwa [ediv_succ]) (by omega) (by omega)
        rw [ediv_succ] at hend hlow
        refine ⟨n + 1, by omega, byte, ?_, hend, hlow⟩
        rw [hread, emod_succ v (n + 1), Nat.mod_add_mod, length_cons, pow_add 2 shift 7]
        congr 2 <;> ring_nf

/-- The bytes go on behind ten that say so: the loop shifts by 70. -/
def TooLong (bytes : List UInt8) : Prop := 10 ≤ continued bytes ∧ 10 < bytes.length

/-- The loop is undefined exactly where a byte is read behind too many that say so.  Otherwise they
are all that can be read, or the number ends behind them. -/
lemma readGroups_spec (bytes : List UInt8) (value shift offset : Nat) :
    (readGroups bytes value shift offset = .error .undefined ↔
      ∃ k ≤ continued bytes, k < bytes.length ∧ 64 ≤ shift + 7 * k) ∧
    (readGroups bytes value shift offset = .error .unreadable →
      bytes.length = continued bytes) ∧
    ∀ g, readGroups bytes value shift offset = .ok g →
      g.shift = shift + 7 * (continued bytes + 1) ∧ bytes[continued bytes]? = some g.byte := by
  induction bytes generalizing value shift offset with
  | nil => exact ⟨by simp [readGroups], fun _ => rfl, nofun⟩
  | cons byte rest ih =>
    rw [readGroups]
    by_cases hshift : shift ≥ 64
    · rw [if_pos hshift]
      exact ⟨iff_of_true rfl ⟨0, Nat.zero_le _, by simp, hshift⟩, nofun, nofun⟩
    rw [if_neg hshift]
    by_cases hmore : byte.toNat ≥ 128
    · have hcount : continued (byte :: rest) = continued rest + 1 := by simp [continued, hmore]
      obtain ⟨hundef, hend, hgroups⟩ :=
        ih ((value + (byte.toNat % 128) <<< shift % 2 ^ 64) % 2 ^ 64) (shift + 7) (offset + 1)
      simp only [if_pos hmore, hcount]
      refine ⟨hundef.trans ⟨?_, ?_⟩, fun h => congrArg (· + 1) (hend h), fun g hg => ?_⟩
      · rintro ⟨k, hk, hlen, hge⟩
        exact ⟨k + 1, by omega, by simpa using hlen, by omega⟩
      · rintro ⟨k, hk, hlen, hge⟩
        cases k with
        | zero => omega
        | succ k => exact ⟨k, by omega, by simpa using hlen, by omega⟩
      · obtain ⟨hend, hbyte⟩ := hgroups g hg
        exact ⟨by omega, by simpa using hbyte⟩
    · have hcount : continued (byte :: rest) = 0 := by simp [continued, hmore]
      simp only [if_neg hmore, hcount]
      refine ⟨iff_of_false nofun ?_, nofun, ?_⟩
      · rintro ⟨k, hk, -, hge⟩
        omega
      · rintro g ⟨⟩
        exact ⟨rfl, rfl⟩

lemma readGroups_undefined (bytes : List UInt8) :
    readGroups bytes 0 0 0 = .error .undefined ↔ TooLong bytes := by
  refine (readGroups_spec bytes 0 0 0).1.trans ⟨?_, fun h => ⟨10, h.1, h.2, by decide⟩⟩
  rintro ⟨k, hk, hlen, hge⟩
  exact ⟨by omega, by omega⟩

lemma readULEB128_encode (v : Nat) (hv : v < 2 ^ 64) (rest : List UInt8) :
    readULEB128 (encodeUnsigned v ++ rest) = .ok (v, (encodeUnsigned v).length) := by
  obtain ⟨n, -, byte, hread, hend, -⟩ :=
    readGroups_encode (· < 128) rest 0 0 0 (v := v) (by simp; omega)
      (show 9 < 10 by decide) (by decide)
  have hlt : v < 128 ^ (n + 1) := by
    have hdiv : v / 128 ^ n < 128 := by exact_mod_cast of_decide_eq_true hend
    rwa [Nat.div_lt_iff_lt_mul (by positivity), ← pow_succ'] at hdiv
  have hmod : ((v : Int) % 128 ^ (n + 1)).toNat = v := by
    rw [Int.emod_eq_of_lt (by omega) (by exact_mod_cast hlt), Int.toNat_natCast]
  unfold readULEB128 encodeUnsigned
  rw [hread, hmod]
  simpa using hv

lemma readSLEB128_encode (v : Int) (hlow : -2 ^ 62 ≤ v) (hhigh : v < 2 ^ 63) (rest : List UInt8) :
    readSLEB128 (encodeSigned v ++ rest) = .ok (v, (encodeSigned v).length) := by
  -- a negative number ends before the shift that extends its sign
  obtain ⟨k, hk, hneg, hlast⟩ :
      ∃ k ≤ 9, (v < 0 → k ≤ 8) ∧ -64 ≤ v / 128 ^ k ∧ v / 128 ^ k < 64 := by
    by_cases hv : v < 0
    · exact ⟨8, by decide, fun _ => le_rfl, by omega, by omega⟩
    · exact ⟨9, le_rfl, fun h => absurd h hv, by omega, by omega⟩
  obtain ⟨n, hn, byte, hread, hend, hbyte⟩ :=
    readGroups_encode (fun u => -64 ≤ u ∧ u < 64) rest 0 0 0 (decide_eq_true hlast)
      (show k < 10 by omega) (by omega)
  obtain ⟨hge, hlt⟩ := of_decide_eq_true hend
  have hpos : (0 : Int) < 128 ^ n := by positivity
  have hsign := Int.ediv_nonneg_iff_of_pos (a := v) hpos
  have hge' := (Int.le_ediv_iff_mul_le hpos).mp hge
  have hlt' := (Int.ediv_lt_iff_lt_mul hpos).mp hlt
  unfold readSLEB128 encodeSigned
  rw [hread]
  simp only [zero_add, pow_zero, mul_one]
  by_cases hv : v < 0
  · have hpow : 128 ^ (n + 1) = 2 ^ (7 * (n + 1)) := (pow_mul 2 7 (n + 1)).symm
    have hle : 2 ^ (7 * (n + 1)) ≤ 2 ^ 63 := Nat.pow_le_pow_right (by decide) (by omega)
    have hcast : (128 : Int) ^ (n + 1) = (2 ^ (7 * (n + 1)) : Nat) := by exact_mod_cast hpow
    have hmod : v % 128 ^ (n + 1) = v + 128 ^ (n + 1) := by
      rw [← Int.add_emod_right, Int.emod_eq_of_lt] <;> rw [pow_succ] <;> omega
    rw [pow_succ] at hcast
    rw [if_pos (by omega), if_neg (by omega), hmod, pow_succ,
      or_group (by omega) (by omega)]
    rw [toInt64, if_neg (by omega)]
    congr 2
    omega
  · have hmod : v % 128 ^ (n + 1) = v := Int.emod_eq_of_lt (by omega) (by rw [pow_succ]; omega)
    rw [if_neg (by omega), hmod, Nat.mod_eq_of_lt (by omega), toInt64, if_pos (by omega),
      Int.toNat_of_nonneg (by omega)]

/-- The signed numbers below -2⁶² have a tenth byte, which extends the sign. -/
lemma readSLEB128_encode_low (v : Int) (hlow : -2 ^ 63 ≤ v) (hhigh : v < -2 ^ 62)
    (rest : List UInt8) : readSLEB128 (encodeSigned v ++ rest) = .error .undefined := by
  obtain ⟨n, hn, byte, hread, hend, hbyte⟩ :=
    readGroups_encode (fun u => -64 ≤ u ∧ u < 64) rest 0 0 0 (v := v) (k := 9)
      (decide_eq_true (by omega)) (show 9 < 10 by decide) (by decide)
  have hge := (Int.le_ediv_iff_mul_le (by positivity)).mp (of_decide_eq_true hend).1
  obtain rfl : n = 9 := by
    by_contra hne
    have hpow : (128 : Int) ^ n ≤ 128 ^ 8 := pow_le_pow_right₀ (by decide) (by omega)
    omega
  unfold readSLEB128 encodeSigned
  rw [hread]
  dsimp only
  rw [if_pos (by omega), if_pos (by decide)]

lemma readULEB128_undefined : readULEB128 bytes = .error .undefined ↔ TooLong bytes := by
  rw [← readGroups_undefined, readULEB128]
  split <;> simp_all

lemma readSLEB128_undefined : readSLEB128 bytes = .error .undefined ↔
    TooLong bytes ∨ continued bytes = 9 ∧
      ∃ byte, bytes[9]? = some byte ∧ 64 ≤ byte.toNat % 128 := by
  rw [← readGroups_undefined, readSLEB128]
  have hlong := readGroups_undefined bytes
  obtain ⟨-, hend, hgroups⟩ := readGroups_spec bytes 0 0 0
  split
  case h_1 e he =>
    simp only [he, Except.error.injEq]
    refine (or_iff_left ?_).symm
    rintro ⟨hnine, byte, hbyte, -⟩
    have hlen : 9 < bytes.length := (List.getElem?_eq_some_iff.mp hbyte).1
    cases e with
    | unreadable => have := hend he; omega
    | undefined => have := (hlong.mp he).1; omega
  case h_2 g hg =>
    obtain ⟨hshift, hbyte⟩ := hgroups g hg
    have hlen : continued bytes < bytes.length := (List.getElem?_eq_some_iff.mp hbyte).1
    have hle : continued bytes ≤ 9 := by
      by_contra hgt
      exact nomatch hg.symm.trans (hlong.mpr ⟨by omega, by omega⟩)
    rw [hg, or_iff_right nofun]
    constructor
    · intro h
      split at h
      case isTrue hneg =>
        have hnine : continued bytes = 9 := by
          by_contra hne
          rw [if_neg (by omega)] at h
          cases h
        exact ⟨hnine, g.byte, hnine ▸ hbyte, hneg⟩
      case isFalse => cases h
    · rintro ⟨hnine, byte, hbyte', hneg⟩
      rw [hnine, hbyte'] at hbyte
      cases hbyte
      rw [if_pos hneg, if_pos (by omega)]

/-- **Numbers are read back**: all unsigned ones, and of the signed ones exactly those from -2⁶² on.
`ReadULEB128` shifts by 64 or more exactly on bytes that are too long, and `ReadSLEB128` also if the
tenth byte is the last one and negative. -/
theorem leb128_read_iff (rest bytes : List UInt8) :
    (∀ v : UInt64, readULEB128 (encodeUnsigned v.toNat ++ rest) =
      .ok (v.toNat, (encodeUnsigned v.toNat).length)) ∧
    (∀ v : Int64, readSLEB128 (encodeSigned v.toInt ++ rest) =
      if -2 ^ 62 ≤ v.toInt then .ok (v.toInt, (encodeSigned v.toInt).length)
      else .error .undefined) ∧
    (readULEB128 bytes = .error .undefined ↔ TooLong bytes) ∧
    (readSLEB128 bytes = .error .undefined ↔ TooLong bytes ∨
      continued bytes = 9 ∧ ∃ byte, bytes[9]? = some byte ∧ 64 ≤ byte.toNat % 128) := by
  refine ⟨fun v => readULEB128_encode _ v.toNat_lt rest, fun v => ?_, readULEB128_undefined,
    readSLEB128_undefined⟩
  split
  case isTrue hlow => exact readSLEB128_encode _ hlow v.toInt_lt rest
  case isFalse hlow => exact readSLEB128_encode_low _ v.le_toInt (by omega) rest

theorem leb128_undefined :
    readSLEB128 (encodeSigned (-2 ^ 63)) = .error .undefined ∧
      readULEB128 (replicate 10 128 ++ [0]) = .error .undefined := by
  decide

end Leb128
