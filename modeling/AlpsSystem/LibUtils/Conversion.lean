import Mathlib

/-!
# Conversion between UTF-16 and UTF-8

The converters of `Unicode.cpp` on counted strings.  `none` is a read behind the last byte or a
fatal check; no `char32_t` overflows.

* `utf16ToUtf8_iff_room` — the measured length is the room that the encoder needs.
* `utf8ToUtf16_whole` — a decoder without enough room stops at a whole character.
* `utf8ToUtf16_utf16ToUtf8` — there and back drops the surrogates that have no partner.
-/

namespace Unicode

open List

def ssizeMax : Nat := 2 ^ 63 - 1

/-! ## UTF-16 to UTF-8 -/

def utf32CodepointUtf8Length (srcChar : Nat) : Nat :=
  if srcChar < 0x80 then 1
  else if srcChar < 0x800 then 2
  else if srcChar < 0x10000 then if srcChar < 0xD800 ∨ srcChar > 0xDFFF then 3 else 0
  else if srcChar ≤ 0x10FFFF then 4 else 0

def kFirstByteMark : Nat → Nat
  | 2 => 0xC0
  | 3 => 0xE0
  | 4 => 0xF0
  | _ => 0

/-- The cases of the `switch`, which go from the last byte to the first. -/
def fallThrough (mark srcChar : Nat) : Nat → List UInt8 → List UInt8
  | 0, out => out
  | 1, out => .ofNat (srcChar ||| mark) :: out
  | n + 2, out =>
    fallThrough mark (srcChar >>> 6) (n + 1) (.ofNat ((srcChar ||| 0x80) &&& 0xBF) :: out)

def utf32CodepointToUtf8 (srcChar bytes : Nat) : List UInt8 :=
  fallThrough (kFirstByteMark bytes) srcChar bytes []

abbrev SurrogatePair (c d : UInt16) : Prop := c &&& 0xFC00 = 0xD800 ∧ d &&& 0xFC00 = 0xDC00

def ofPair (c d : UInt16) : Nat := ((c.toNat - 0xD800) <<< 10 ||| (d.toNat - 0xDC00)) + 0x10000

/-- The characters that `utf16_to_utf8` reads. -/
def characters : List UInt16 → List Nat
  | c :: d :: src =>
    if SurrogatePair c d then ofPair c d :: characters src else c.toNat :: characters (d :: src)
  | [c] => [c.toNat]
  | [] => []

/-- The lengths that `utf16_to_utf8_length` adds up. -/
def charLens : List UInt16 → List Nat
  | c :: d :: src =>
    if SurrogatePair c d then 4 :: charLens src
    else utf32CodepointUtf8Length c.toNat :: charLens (d :: src)
  | [c] => [utf32CodepointUtf8Length c.toNat]
  | [] => []

def sumLens : List Nat → (ret : Nat) → Option Nat
  | [], ret => some ret
  | len :: lens, ret => if ssizeMax - len < ret then none else sumLens lens (ret + len)

def utf16ToUtf8Length (src : List UInt16) : Option Nat :=
  if src = [] then none else sumLens (charLens src) 0

/-- What the loop of `utf16_to_utf8` writes, with the terminator. -/
def writeCharacters : List Nat → (dstLen : Nat) → Option (List UInt8)
  | [], dstLen => if dstLen < 1 then none else some [0]
  | c :: cs, dstLen =>
    let len := utf32CodepointUtf8Length c
    if dstLen < len then none
    else (writeCharacters cs (dstLen - len)).map (utf32CodepointToUtf8 c len ++ ·)

def utf16ToUtf8 (src : List UInt16) (dstLen : Nat) : Option (List UInt8) :=
  if src = [] then some [] else writeCharacters (characters src) dstLen

/-! ## UTF-8 to UTF-16 -/

def utf8CodepointLen (ch : UInt8) : Nat := ((0xe5000000 >>> ((ch.toNat >>> 3) &&& 0x1e)) &&& 3) + 1

def utf8ShiftAndMask (codePoint : Nat) (byte : UInt8) : Nat :=
  codePoint <<< 6 ||| (0x3F &&& byte.toNat)

def utf8ToUtf32Codepoint : (src : List UInt8) → (length : Nat) → Option Nat
  | a :: _, 1 => some a.toNat
  | a :: b :: _, 2 => some (utf8ShiftAndMask (a.toNat &&& 0x1f) b)
  | a :: b :: c :: _, 3 => some (utf8ShiftAndMask (utf8ShiftAndMask (a.toNat &&& 0x0f) b) c)
  | a :: b :: c :: d :: _, 4 =>
    some (utf8ShiftAndMask (utf8ShiftAndMask (utf8ShiftAndMask (a.toNat &&& 0x07) b) c) d)
  | _, 1 | _, 2 | _, 3 | _, 4 => none
  | _, _ => some 0xffff

def utf8ToUtf16Length : (u8 : List UInt8) → Option Nat
  | [] => some 0
  | b :: u8 =>
    if (b :: u8).length < utf8CodepointLen b then none
    else Option.map₂ (fun codepoint n => (if codepoint > 0xFFFF then 2 else 1) + n)
      (utf8ToUtf32Codepoint (b :: u8) (utf8CodepointLen b))
      (utf8ToUtf16Length ((b :: u8).drop (utf8CodepointLen b)))
termination_by u8 => u8.length
decreasing_by simp [utf8CodepointLen]

def highUnit (codepoint : Nat) : UInt16 := .ofNat (((codepoint - 0x10000) >>> 10) + 0xD800)

def lowUnit (codepoint : Nat) : UInt16 := .ofNat (((codepoint - 0x10000) &&& 0x3FF) + 0xDC00)

def utf8ToUtf16NoNullTerminator : (dstLen : Nat) → List UInt8 → Option (List UInt16)
  | 0, _ | _, [] => some []
  | room + 1, b :: u8 =>
    let len := utf8CodepointLen b
    (utf8ToUtf32Codepoint (b :: u8) len).bind fun codepoint =>
      if codepoint ≤ 0xFFFF then
        (utf8ToUtf16NoNullTerminator room ((b :: u8).drop len)).map (.ofNat codepoint :: ·)
      else match room with
        -- the high unit is written, but the end returned is before it
        | 0 => some []
        | room + 1 => (utf8ToUtf16NoNullTerminator room ((b :: u8).drop len)).map
            (highUnit codepoint :: lowUnit codepoint :: ·)

def utf8ToUtf16 (u8 : List UInt8) (u16len : Nat) : Option (List UInt16) :=
  if u16len = 0 ∨ ssizeMax < u16len then none
  else (utf8ToUtf16NoNullTerminator (u16len - 1) u8).map (· ++ [0])

/-! ## One character -/

/-- What the last byte has taken from a character, the decoder puts back. -/
lemma utf8ShiftAndMask_trailing (c : Nat) :
    utf8ShiftAndMask (c >>> 6) (.ofNat ((c ||| 0x80) &&& 0xBF)) = c := by
  have hmask : 0x3F &&& ((c ||| 0x80) &&& 0xBF) % 2 ^ 8 = c % 64 := by
    rw [← Nat.and_two_pow_sub_one_eq_mod, Nat.and_comm, Nat.and_assoc, Nat.and_assoc,
      Nat.and_or_distrib_right]
    exact (Nat.or_zero _).trans (Nat.and_two_pow_sub_one_eq_mod c 6)
  rw [utf8ShiftAndMask, UInt8.toNat_ofNat', hmask,
    ← Nat.shiftLeft_add_eq_or_of_lt (Nat.mod_lt _ (by decide)), Nat.shiftLeft_eq]
  omega

/-- The first byte says how many bytes there are, and the decoder takes its mark away. -/
lemma first_byte : ∀ x < 128,
    (utf8CodepointLen (.ofNat (x ||| 0)) = 1 ∧ (UInt8.ofNat (x ||| 0)).toNat = x) ∧
    (x < 32 → utf8CodepointLen (.ofNat (x ||| 0xC0)) = 2 ∧
      (UInt8.ofNat (x ||| 0xC0)).toNat &&& 0x1f = x) ∧
    (x < 16 → utf8CodepointLen (.ofNat (x ||| 0xE0)) = 3 ∧
      (UInt8.ofNat (x ||| 0xE0)).toNat &&& 0x0f = x) ∧
    (x < 8 → utf8CodepointLen (.ofNat (x ||| 0xF0)) = 4 ∧
      (UInt8.ofNat (x ||| 0xF0)).toNat &&& 0x07 = x) := by
  decide +kernel

/-- **A character is decoded from its bytes**, whatever follows them. -/
lemma utf8ToUtf32Codepoint_encoded {c : Nat} (h : utf32CodepointUtf8Length c ≠ 0) :
    ∃ b bs, utf32CodepointToUtf8 c (utf32CodepointUtf8Length c) = b :: bs ∧
      utf8CodepointLen b = bs.length + 1 ∧
      ∀ rest, utf8ToUtf32Codepoint (b :: (bs ++ rest)) (bs.length + 1) = some c := by
  unfold utf32CodepointUtf8Length at *
  split_ifs at h ⊢ with h1 h2 h3 h4 h5
  · obtain ⟨hlen, hmask⟩ := (first_byte c h1).1
    exact ⟨_, [], rfl, hlen, fun rest => congrArg some hmask⟩
  · obtain ⟨hlen, hmask⟩ := (first_byte (c >>> 6) (by omega)).2.1 (by omega)
    refine ⟨_, [_], rfl, hlen, fun rest => congrArg some ?_⟩
    simp only [kFirstByteMark, hmask, utf8ShiftAndMask_trailing]
  · obtain ⟨hlen, hmask⟩ := (first_byte (c >>> 6 >>> 6) (by omega)).2.2.1 (by omega)
    refine ⟨_, [_, _], rfl, hlen, fun rest => congrArg some ?_⟩
    simp only [kFirstByteMark, hmask, utf8ShiftAndMask_trailing]
  · exact absurd rfl h
  · obtain ⟨hlen, hmask⟩ := (first_byte (c >>> 6 >>> 6 >>> 6) (by omega)).2.2.2 (by omega)
    refine ⟨_, [_, _, _], rfl, hlen, fun rest => congrArg some ?_⟩
    simp only [kFirstByteMark, hmask, utf8ShiftAndMask_trailing]
  · exact absurd rfl h

variable {c d : UInt16}

lemma unit_div {m : UInt16} (h : c &&& 0xFC00 = m) : m.toNat / 1024 = c.toNat / 1024 := by
  subst h
  calc (c.toNat &&& 0xFC00) / 1024
    _ = (c.toNat &&& 0xFC00) >>> 10 := (Nat.shiftRight_eq_div_pow _ 10).symm
    _ = c.toNat >>> 10 &&& 2 ^ 6 - 1 := Nat.shiftRight_and_distrib
    _ = c.toNat / 1024 % 64 := by rw [Nat.and_two_pow_sub_one_eq_mod, Nat.shiftRight_eq_div_pow]
    _ = c.toNat / 1024 := Nat.mod_eq_of_lt (by have := c.toNat_lt; omega)

lemma ofPair_eq (h : SurrogatePair c d) :
    ofPair c d = (c.toNat - 0xD800) * 1024 + (d.toNat - 0xDC00) + 0x10000 ∧
      0xD800 ≤ c.toNat ∧ c.toNat < 0xDC00 ∧ 0xDC00 ≤ d.toNat ∧ d.toNat < 0xE000 := by
  have hc := unit_div h.1
  have hd := unit_div h.2
  simp only [UInt16.reduceToNat] at hc hd
  rw [ofPair, ← Nat.shiftLeft_add_eq_or_of_lt (by omega), Nat.shiftLeft_eq]
  omega

lemma utf32CodepointUtf8Length_ofPair (h : SurrogatePair c d) :
    utf32CodepointUtf8Length (ofPair c d) = 4 := by
  have := ofPair_eq h
  unfold utf32CodepointUtf8Length
  split_ifs <;> omega

/-- The units that the decoder writes for a character. -/
def units (codepoint : Nat) : List UInt16 :=
  if codepoint ≤ 0xFFFF then [.ofNat codepoint] else [highUnit codepoint, lowUnit codepoint]

lemma units_ofPair (h : SurrogatePair c d) : units (ofPair c d) = [c, d] := by
  obtain ⟨heq, hc⟩ := ofPair_eq h
  rw [units, if_neg (by omega)]
  simp only [highUnit, lowUnit, cons.injEq, and_true, ← UInt16.toNat_inj, UInt16.toNat_ofNat',
    Nat.and_two_pow_sub_one_eq_mod _ 10]
  omega

/-! ## Encoding a string -/

/-- The bytes of a character, none if it is a surrogate. -/
def utf8 (c : Nat) : List UInt8 := utf32CodepointToUtf8 c (utf32CodepointUtf8Length c)

lemma length_fallThrough (mark c n : Nat) (out : List UInt8) :
    (fallThrough mark c n out).length = n + out.length := by
  fun_induction fallThrough mark c n out <;> simp_all +arith

@[simp]
lemma length_utf8 (c : Nat) : (utf8 c).length = utf32CodepointUtf8Length c :=
  length_fallThrough ..

lemma charLens_eq (src : List UInt16) :
    charLens src = (characters src).map utf32CodepointUtf8Length := by
  fun_induction charLens src with
  | case1 c d src h ih =>
    rw [characters, if_pos h, map_cons, utf32CodepointUtf8Length_ofPair h, ih]
  | case2 c d src h ih => simp [characters, h, ih]
  | case3 | case4 => rfl

lemma sumLens_eq {lens : List Nat} {ret : Nat} (h : ∀ len ∈ lens, len ≤ ssizeMax)
    (hret : ret ≤ ssizeMax) :
    sumLens lens ret = if ret + lens.sum ≤ ssizeMax then some (ret + lens.sum) else none := by
  induction lens generalizing ret with
  | nil => simp [sumLens, hret]
  | cons len lens ih =>
    rw [forall_mem_cons] at h
    rw [sumLens, sum_cons, ← Nat.add_assoc]
    by_cases hover : ssizeMax - len < ret
    · rw [if_pos hover, if_neg (by omega)]
    · rw [if_neg hover, ih h.2 (by omega)]

lemma writeCharacters_eq (cs : List Nat) (dstLen : Nat) : writeCharacters cs dstLen =
    if (cs.flatMap utf8).length < dstLen then some (cs.flatMap utf8 ++ [0]) else none := by
  induction cs generalizing dstLen with
  | nil => cases dstLen <;> rfl
  | cons c cs ih =>
    simp only [writeCharacters, ih, flatMap_cons, length_append, length_utf8]
    split_ifs <;> first | omega | simp [utf8]

/-- **The measured length is the room that is needed**: `utf16_to_utf8` writes as many bytes as
`utf16_to_utf8_length` says and a terminator, and fails exactly if there is no room for them. -/
theorem utf16ToUtf8_iff_room (c : UInt16) (src : List UInt16) : ∃ u8 : List UInt8,
    utf16ToUtf8Length (c :: src) = (if u8.length ≤ ssizeMax then some u8.length else none) ∧
    ∀ dstLen, utf16ToUtf8 (c :: src) dstLen =
      if u8.length < dstLen then some (u8 ++ [0]) else none := by
  refine ⟨(characters (c :: src)).flatMap utf8, ?_, writeCharacters_eq _⟩
  have hle : ∀ len ∈ charLens (c :: src), len ≤ ssizeMax := by
    rw [charLens_eq, forall_mem_map]
    intro c _
    unfold utf32CodepointUtf8Length
    split_ifs <;> decide
  refine (sumLens_eq hle (Nat.zero_le _)).trans ?_
  simp [charLens_eq, length_flatMap]

/-! ## Decoding a string -/

/-- The characters that the decoders read. -/
inductive Decodes : List UInt8 → List Nat → Prop
  | nil : Decodes [] []
  | cons {b u8 c cs} : utf8ToUtf32Codepoint (b :: u8) (utf8CodepointLen b) = some c →
      Decodes ((b :: u8).drop (utf8CodepointLen b)) cs → Decodes (b :: u8) (c :: cs)

variable {u8 : List UInt8} {cs : List Nat} {b : UInt8} {n : Nat}

lemma length_units (c : Nat) : (units c).length = if c > 0xFFFF then 2 else 1 := by
  unfold units
  split_ifs <;> first | rfl | omega

lemma le_length_of_decoded (h : utf8ToUtf32Codepoint u8 (utf8CodepointLen b) = some n) :
    utf8CodepointLen b ≤ u8.length := by
  have hlen : ∀ b, utf8CodepointLen b ∈ [1, 2, 3, 4] := by decide +kernel
  have hb := hlen b
  generalize utf8CodepointLen b = len at *
  fun_cases utf8ToUtf32Codepoint u8 len <;> simp_all [utf8ToUtf32Codepoint]

lemma utf8ToUtf16Length_eq_some :
    utf8ToUtf16Length u8 = some n ↔ ∃ cs, Decodes u8 cs ∧ (cs.flatMap units).length = n := by
  constructor
  · intro h
    fun_induction utf8ToUtf16Length u8 generalizing n with
    | case1 => exact ⟨[], .nil, Option.some.inj h⟩
    | case2 => exact absurd h nofun
    | case3 b u8 hlen ih =>
      obtain ⟨c, m, hc, hm, rfl⟩ := Option.map₂_eq_some_iff.mp h
      obtain ⟨cs, hcs, rfl⟩ := ih hm
      exact ⟨c :: cs, .cons hc hcs, by simp [length_units]⟩
  · rintro ⟨cs, h, rfl⟩
    induction h with
    | nil => simp [utf8ToUtf16Length]
    | cons hc h ih =>
      rw [utf8ToUtf16Length, if_neg (Nat.not_lt.mpr (le_length_of_decoded hc)), hc, ih]
      simp [length_units]

/-- A character is written if it fits, and otherwise nothing. -/
lemma utf8ToUtf16NoNullTerminator_cons {c : Nat} (dstLen : Nat)
    (h : utf8ToUtf32Codepoint (b :: u8) (utf8CodepointLen b) = some c) :
    utf8ToUtf16NoNullTerminator dstLen (b :: u8) =
      if dstLen < (units c).length then some []
      else (utf8ToUtf16NoNullTerminator (dstLen - (units c).length)
        ((b :: u8).drop (utf8CodepointLen b))).map (units c ++ ·) := by
  have hpos : 0 < (units c).length := by grind [length_units]
  cases dstLen with
  | zero => rw [utf8ToUtf16NoNullTerminator, if_pos hpos]
  | succ room =>
    simp only [utf8ToUtf16NoNullTerminator, h, Option.bind_some, units]
    cases room <;> split_ifs <;> simp_all

lemma Decodes.write (h : Decodes u8 cs) (dstLen : Nat) :
    ∃ k, utf8ToUtf16NoNullTerminator dstLen u8 = some ((cs.take k).flatMap units) ∧
      ((cs.take k).flatMap units).length ≤ dstLen ∧
      (k = cs.length ∨ dstLen < ((cs.take (k + 1)).flatMap units).length) := by
  induction h generalizing dstLen with
  | nil => exact ⟨0, by cases dstLen <;> rfl, by simp, .inl rfl⟩
  | @cons b u8 c cs hc h ih =>
    rw [utf8ToUtf16NoNullTerminator_cons dstLen hc]
    split_ifs with hroom
    · exact ⟨0, rfl, by simp, .inr (by simpa using hroom)⟩
    · obtain ⟨k, hk, hle, hmax⟩ := ih (dstLen - (units c).length)
      refine ⟨k + 1, by simp [hk], ?_⟩
      simp only [take_succ_cons, flatMap_cons, length_append, length_cons]
      omega

/-- **No half of a pair is written**: if the bytes have a length in UTF-16, then the decoder reads
none behind them and writes the units of as many whole characters as there is room for. -/
theorem utf8ToUtf16_whole (u8 : List UInt8) : utf8ToUtf16Length u8 = none ∨
    ∃ cs, Decodes u8 cs ∧ utf8ToUtf16Length u8 = some (cs.flatMap units).length ∧
      ∀ room < ssizeMax, ∃ k, utf8ToUtf16 u8 (room + 1) = some ((cs.take k).flatMap units ++ [0]) ∧
        ((cs.take k).flatMap units).length ≤ room ∧
        (k = cs.length ∨ room < ((cs.take (k + 1)).flatMap units).length) := by
  refine or_iff_not_imp_left.mpr fun h => ?_
  obtain ⟨n, hn⟩ := Option.ne_none_iff_exists'.mp h
  obtain ⟨cs, hcs, rfl⟩ := utf8ToUtf16Length_eq_some.mp hn
  refine ⟨cs, hcs, hn, fun room hroom => ?_⟩
  obtain ⟨k, hk, hmax⟩ := hcs.write room
  exact ⟨k, by rw [utf8ToUtf16, if_neg (by omega), Nat.add_sub_cancel, hk]; rfl, hmax⟩

/-! ## There and back -/

/-- The bytes of the characters, of which the surrogates are gone. -/
lemma decodes_utf8 (cs : List Nat) :
    Decodes (cs.flatMap utf8) (cs.filter (utf32CodepointUtf8Length · ≠ 0)) := by
  induction cs with
  | nil => exact .nil
  | cons c cs ih =>
    by_cases hc : utf32CodepointUtf8Length c = 0
    · have hnil : utf8 c = [] := length_eq_zero_iff.mp (by rw [length_utf8, hc])
      simpa [hc, hnil] using ih
    · obtain ⟨b, bs, hb, hlen, hdec⟩ := utf8ToUtf32Codepoint_encoded hc
      rw [filter_cons_of_pos (by simpa), flatMap_cons, utf8, hb, cons_append]
      refine .cons (hlen ▸ hdec _) ?_
      rwa [hlen, drop_succ_cons, drop_left]

/-- A string without the surrogates that have no partner. -/
def paired : List UInt16 → List UInt16
  | c :: d :: src =>
    if SurrogatePair c d then c :: d :: paired src
    else if 0xD800 ≤ c.toNat ∧ c.toNat ≤ 0xDFFF then paired (d :: src) else c :: paired (d :: src)
  | [c] => if 0xD800 ≤ c.toNat ∧ c.toNat ≤ 0xDFFF then [] else [c]
  | [] => []

lemma units_characters (src : List UInt16) :
    ((characters src).filter (utf32CodepointUtf8Length · ≠ 0)).flatMap units = paired src := by
  have hlen (c : UInt16) :
      utf32CodepointUtf8Length c.toNat = 0 ↔ 0xD800 ≤ c.toNat ∧ c.toNat ≤ 0xDFFF := by
    have hlt := c.toNat_lt
    unfold utf32CodepointUtf8Length
    split_ifs <;> simp <;> omega
  have hunits (c : UInt16) : units c.toNat = [c] := by
    have hlt := c.toNat_lt
    rw [units, if_pos (by omega), UInt16.ofNat_toNat]
  fun_induction paired src with
  | case1 c d src h ih =>
    simp [characters, if_pos h, utf32CodepointUtf8Length_ofPair h, units_ofPair h, ← ih]
  | case2 c d src h hc ih => simp [characters, h, hlen, hc, ← ih]
  | case3 c d src h hc ih => simp [characters, h, hlen, hc, ← ih, hunits]
  | case4 c hc => simp [characters, hlen, hc]
  | case5 c hc => simp [characters, hlen, hc, hunits]
  | case6 => rfl

/-- **To UTF-8 and back**: the bytes that `utf16_to_utf8` writes have a length in UTF-16, and
`utf8_to_utf16` makes of them the string without the surrogates that have no partner. -/
theorem utf8ToUtf16_utf16ToUtf8 (c : UInt16) (src : List UInt16) : ∃ u8 : List UInt8,
    (∀ dstLen > u8.length, utf16ToUtf8 (c :: src) dstLen = some (u8 ++ [0])) ∧
    utf8ToUtf16Length u8 = some (paired (c :: src)).length ∧
    ∀ u16len ≤ ssizeMax, (paired (c :: src)).length < u16len →
      utf8ToUtf16 u8 u16len = some (paired (c :: src) ++ [0]) := by
  rw [← units_characters]
  have hdec := decodes_utf8 (characters (c :: src))
  refine ⟨_, fun dstLen hlt => (writeCharacters_eq _ _).trans (if_pos hlt),
    utf8ToUtf16Length_eq_some.mpr ⟨_, hdec, rfl⟩, fun u16len hle hlt => ?_⟩
  obtain ⟨k, hk, -, rfl | hmax⟩ := hdec.write (u16len - 1)
  · rw [utf8ToUtf16, if_neg (by omega), hk, take_length]
    rfl
  · have hsub := ((take_sublist (k + 1) _).flatMap units).length_le.trans_lt hlt
    omega

end Unicode
