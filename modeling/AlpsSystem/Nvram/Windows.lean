import AlpsSystem.Nvram.Emission

/-!
# Reading from windows

What the functions of `io.cpp` read depends on the window of the stream only, the bytes
from `pos_` to `end_`: `Advance` never finds more.  A successful call moves `pos_`.
-/

namespace Nvram

open List

namespace InputStream

variable {data : Blob} {s : InputStream}

/-- The window lies inside the data. -/
structure Within (s : InputStream) (data : Blob) : Prop where
  le : s.pos ≤ s.end_
  bound : s.end_ ≤ data.length

/-- The bytes from `pos_` to `end_`. -/
def window (s : InputStream) (data : Blob) : Blob := s.peek data (s.end_ - s.pos)

/-- The stream `n` bytes further on. -/
def moved (s : InputStream) (n : Nat) : InputStream := s.setPos (s.pos + n)

section

variable (s : InputStream)

@[simp] lemma setPos_pos (n : Nat) : (s.setPos n).pos = n := by
  cases s <;> rfl

@[simp] lemma setPos_end (n : Nat) : (s.setPos n).end_ = s.end_ := by
  cases s <;> rfl

@[simp] lemma setPos_setPos (m n : Nat) : (s.setPos m).setPos n = s.setPos n := by
  cases s <;> rfl

@[simp] lemma setPos_self : s.setPos s.pos = s := by
  cases s <;> rfl

@[simp] lemma moved_pos (n : Nat) : (s.moved n).pos = s.pos + n :=
  setPos_pos _ _

@[simp] lemma moved_end (n : Nat) : (s.moved n).end_ = s.end_ :=
  setPos_end _ _

@[simp] lemma moved_zero : s.moved 0 = s := setPos_self s

@[simp] lemma moved_moved (m n : Nat) : (s.moved m).moved n = s.moved (m + n) := by
  unfold moved
  rw [setPos_setPos, setPos_pos, add_assoc]

end

lemma clampEnd_base (pos end_ n : Nat) :
    clampEnd (.base pos end_) n = if n < end_ - pos then pos + n else end_ := rfl

lemma Within.window_length (h : s.Within data) : (s.window data).length = s.end_ - s.pos := by
  have hbound := h.bound
  unfold window peek
  rw [length_take, length_drop]
  omega

lemma Within.moved (h : s.Within data) {n : Nat} (hn : n ≤ (s.window data).length) :
    (s.moved n).Within data := by
  rw [h.window_length] at hn
  have hle := h.le
  constructor
  · rw [moved_pos, moved_end]
    omega
  · rw [moved_end]
    exact h.bound

lemma window_moved (s : InputStream) (data : Blob) (n : Nat) :
    (s.moved n).window data = (s.window data).drop n := by
  unfold window peek
  rw [moved_pos, moved_end, drop_take, drop_drop, Nat.sub_add_eq]

lemma peek_eq_take {n : Nat} (h : n ≤ s.end_ - s.pos) : s.peek data n = (s.window data).take n := by
  unfold window peek
  rw [take_take, min_eq_left h]

/-- **No stream can be advanced**: there is nothing behind the data. -/
theorem advance_fst (s : InputStream) : s.advance.1 = false := by
  induction s with
  | base pos end_ => rfl
  | nested delegate pos end_ remaining ih =>
    unfold advance
    dsimp only
    split
    · rfl
    · exact ih

lemma advance_eq (s : InputStream) : s.advance = (false, s.advance.2) :=
  Prod.ext (advance_fst s) rfl

lemma readByte_eq (h : s.Within data) :
    s.readByte data = match s.window data with
      | [] => none
      | b :: _ => some (b, s.moved 1) := by
  have hlen := h.window_length
  unfold readByte
  by_cases hlt : s.pos < s.end_
  · rw [if_pos hlt]
    have hpos : s.pos < data.length := hlt.trans_le h.bound
    have hwindow : s.window data = data[s.pos] :: (s.moved 1).window data := by
      rw [window_moved]
      unfold window peek
      rw [drop_eq_getElem_cons hpos]
      obtain ⟨k, hk⟩ : ∃ k, s.end_ - s.pos = k + 1 := ⟨s.end_ - s.pos - 1, by omega⟩
      rw [hk, take_succ_cons, drop_one, tail_cons]
    rw [hwindow]
    simp [hpos, moved]
  · rw [if_neg hlt]
    have hnil : s.window data = [] := eq_nil_of_length_eq_zero (by omega)
    rw [hnil]
    rw [advance_eq]

lemma read_eq (h : s.Within data) (n : Nat) :
    s.read data n =
      if n ≤ (s.window data).length then some ((s.window data).take n, s.moved n) else none := by
  rw [read, if_pos h.le, readLoop, h.window_length]
  split
  case isTrue hover =>
    rw [if_neg (by omega)]
    rw [advance_eq]
  case isFalse hfits =>
    rw [if_pos (by omega), peek_eq_take (by omega)]
    rfl

lemma skip_eq (h : s.Within data) (n : Nat) :
    s.skip n = if n ≤ (s.window data).length then some (s.moved n) else none := by
  rw [skip, if_pos h.le, skipLoop, h.window_length]
  split
  case isTrue hover =>
    rw [if_neg (by omega)]
    rw [advance_eq]
  case isFalse hfits =>
    rw [if_pos (by omega)]
    rfl

end InputStream

/-! ## Varints -/

/-- The varint at the start of `bytes`, and its length. -/
def parseVarint (bytes : Blob) : Option (Nat × Nat) :=
  (Varint.decode kMaxVarintBytes bytes).map fun r => (r.1 % u64, r.2)

variable {bytes : Blob} {v n : Nat} {p : Platform} {r : ProtoReader}

open InputStream Option ProtoReader Varint

lemma parseVarint_le (h : parseVarint bytes = some (v, n)) : 0 < n ∧ n ≤ bytes.length := by
  obtain ⟨⟨v', n'⟩, hdec, heq⟩ := Option.map_eq_some_iff.mp h
  cases heq
  exact decode_le hdec

lemma parseVarint_varint (h : v < u64) (rest : Blob) :
    parseVarint (varint v ++ rest) = some (v, (varint v).length) := by
  unfold parseVarint varint
  rw [show kMaxVarintBytes = 9 + 1 from rfl, decode_encode rest (h.trans (by decide))]
  simp [Nat.mod_eq_of_lt h]

lemma parseVarint_take {m : Nat} (h : m < (varint v).length) :
    parseVarint ((varint v).take m) = none := by
  unfold parseVarint varint
  rw [decode_take h]
  rfl

lemma varint_length_pos (v : Nat) : 0 < (varint v).length := Varint.encode_length_pos 9 v

lemma high_bit (b : UInt8) : b.toNat &&& 0x80 = 0 ↔ b.toNat < 128 := by
  have hall : ∀ n : Fin 256, n.val &&& 0x80 = 0 ↔ n.val < 128 := by decide +kernel
  exact hall ⟨b.toNat, b.toNat_lt⟩

/-- The rounds of `DecodeVarint` from round `i` on, with the lower groups read. -/
lemma decodeVarintLoop_eq {data : Blob} {rounds : Nat} : ∀ {i value : Nat} {s : InputStream},
    s.Within data → rounds + i ≤ kMaxVarintBytes → value < 2 ^ (i * 7) →
    decodeVarintLoop data rounds i value s = (Varint.decode rounds (s.window data)).map
        fun r => ((value + r.1 * 2 ^ (i * 7)) % u64, s.moved r.2) := by
  induction rounds with
  | zero => intro i value s _ _ _; rfl
  | succ rounds ih =>
    intro i value s hs hi hvalue
    rw [decodeVarintLoop, readByte_eq hs]
    have hten : kMaxVarintBytes = 10 := rfl
    cases hw : s.window data with
    | nil => rfl
    | cons b w =>
      have hlow : b.toNat &&& 0x7f = b.toNat % 128 := Nat.and_two_pow_sub_one_eq_mod b.toNat 7
      have hpow : 2 ^ ((i + 1) * 7) = 2 ^ (i * 7) * 128 := by
        rw [Nat.succ_mul, pow_add, show 2 ^ 7 = 128 from rfl]
      have hi7 : i * 7 ≤ 64 := by omega
      have hor : value ||| ((b.toNat &&& 0x7f) <<< (i * 7)) % u64 =
          value + b.toNat % 128 * 2 ^ (i * 7) % u64 := by
        rw [hlow]
        exact or_group hvalue hi7
      simp only [bind_eq_bind, bind_some]
      rw [hor, decode]
      by_cases hlast : b.toNat < 128
      · rw [if_pos ((high_bit b).mpr hlast), if_pos hlast, Nat.mod_eq_of_lt hlast]
        exact congrArg (fun v => some (v, s.moved 1)) (add_group_mod hvalue hi7)
      · have hnext : value + b.toNat % 128 * 2 ^ (i * 7) % u64 < 2 ^ ((i + 1) * 7) := by
          have hgroup : b.toNat % 128 * 2 ^ (i * 7) % u64 ≤ 127 * 2 ^ (i * 7) :=
            (Nat.mod_le _ _).trans (Nat.mul_le_mul_right _ (by omega))
          omega
        have hs' : (s.moved 1).Within data := hs.moved (by rw [hw]; exact le_add_self)
        rw [if_neg (fun h => hlast ((high_bit b).mp h)), if_neg hlast,
          ih hs' (by omega) hnext, window_moved, hw, Option.map_map]
        refine congrArg (fun f => Option.map f (decode rounds w)) (funext fun r => ?_)
        have hsum : (value + b.toNat % 128 * 2 ^ (i * 7) % u64 + r.1 * 2 ^ ((i + 1) * 7)) % u64 =
            (value + (b.toNat % 128 + 128 * r.1) * 2 ^ (i * 7)) % u64 := by
          rw [show u64 = 2 ^ 64 from rfl, add_group_mod hvalue hi7, Nat.mod_add_mod]
          congr 1
          ring
        simp [moved_moved, hsum, add_comm 1]

lemma decodeVarint_eq {data : Blob} {s : InputStream} (h : s.Within data) :
    decodeVarint data s = (parseVarint (s.window data)).map fun r => (r.1, s.moved r.2) := by
  unfold decodeVarint parseVarint
  rw [decodeVarintLoop_eq h le_rfl (by decide)]
  simp [Function.comp_def]

/-! ## Tags -/

/-- What a reader knows of a field after its tag. -/
structure Tag where
  wireType : Option WireType
  fieldNumber : Nat
  fieldSize : Nat
  deriving DecidableEq, Repr

/-- The size of a field that does not declare one. -/
def WireType.fixedSize : WireType → Nat
  | .kFixed64 => 8
  | .kFixed32 => 4
  | _ => 0

/-- The tag at the start of `bytes` and its length, with the size if the field declares
one; `stale` is the size of the field before. -/
def readTag (p : Platform) (stale : Nat) (bytes : Blob) : Option (Tag × Nat) := do
  let (wireTag, n) ← parseVarint bytes
  match WireType.ofCode (wireTag &&& 0x7) with
  | some .kLengthDelimited =>
    let (size, m) ← parseVarint (bytes.drop n)
    if p.size size ≠ size then none
    else some (⟨some .kLengthDelimited, wireTag >>> 3, size⟩, n + m)
  | some wireType => some (⟨some wireType, wireTag >>> 3, wireType.fixedSize⟩, n)
  | none => some (⟨none, wireTag >>> 3, stale⟩, n)

lemma readTag_le {stale : Nat} {tag : Tag}
    (h : readTag p stale bytes = some (tag, n)) : 0 < n ∧ n ≤ bytes.length := by
  obtain ⟨⟨wireTag, m⟩, hparse, h⟩ := bind_eq_some_iff.mp h
  have hm := parseVarint_le hparse
  dsimp only at h
  split at h
  · obtain ⟨⟨size, k⟩, hsize, h⟩ := bind_eq_some_iff.mp h
    have hk := (parseVarint_le hsize).2
    rw [length_drop] at hk
    split at h
    · cases h
    · cases h
      omega
  · cases h
    exact hm
  · cases h
    exact hm

/-- The reader after a tag of `n` bytes. -/
def ProtoReader.tagged (r : ProtoReader) (tag : Tag) (n : Nat) : ProtoReader :=
  { data := r.data, stream := r.stream.moved n, wireType := tag.wireType,
    fieldNumber := tag.fieldNumber, fieldSize := tag.fieldSize }

/-- The window of the reader's stream. -/
def ProtoReader.window (r : ProtoReader) : Blob := r.stream.window r.data

/-- The reader's stream has its window inside the data. -/
def ProtoReader.Sound (r : ProtoReader) : Prop := r.stream.Within r.data

/-- The reader `n` bytes further on. -/
def ProtoReader.moved (r : ProtoReader) (n : Nat) : ProtoReader :=
  { r with stream := r.stream.moved n }

lemma readWireTag_eq (h : r.Sound) :
    r.readWireTag p = (readTag p r.fieldSize r.window).map fun t => r.tagged t.1 t.2 := by
  unfold readWireTag readTag ProtoReader.window
  rw [decodeVarint_eq h]
  cases hparse : parseVarint (r.stream.window r.data) with
  | none => rfl
  | some t =>
    obtain ⟨wireTag, n⟩ := t
    simp only [Option.map_some, bind_eq_bind, bind_some]
    have hs : (r.stream.moved n).Within r.data :=
      InputStream.Within.moved h (parseVarint_le hparse).2
    cases WireType.ofCode (wireTag &&& 0x7) with
    | none => rfl
    | some wireType =>
      cases wireType with
      | kLengthDelimited =>
        rw [decodeVarint_eq hs, window_moved]
        cases parseVarint ((r.stream.window r.data).drop n) with
        | none => rfl
        | some t =>
          simp only [Option.map_some, bind_some]
          split
          · rfl
          · rename_i hsize
            rw [not_not] at hsize
            simp [tagged, hsize]
      | kVarint | kFixed64 | kStartGroup | kEndGroup | kFixed32 => rfl

/-- The length of a field after its tag. -/
def fieldLength (tag : Tag) (bytes : Blob) : Option Nat :=
  if tag.wireType = some .kVarint then (parseVarint bytes).map (·.2)
  else if tag.fieldSize ≤ bytes.length then some tag.fieldSize
  else none

/-- The tag the reader has read. -/
def ProtoReader.tag (r : ProtoReader) : Tag := ⟨r.wireType, r.fieldNumber, r.fieldSize⟩

lemma fieldLength_le {tag : Tag} (h : fieldLength tag bytes = some n) : n ≤ bytes.length := by
  unfold fieldLength at h
  split at h
  · obtain ⟨⟨v, m⟩, hparse, rfl⟩ := Option.map_eq_some_iff.mp h
    exact (parseVarint_le hparse).2
  · split at h
    · cases h
      assumption
    · cases h

lemma skipField_eq (h : r.Sound) : r.skipField = (fieldLength r.tag r.window).map r.moved := by
  unfold skipField fieldLength ProtoReader.window
  by_cases hv : r.wireType = some .kVarint
  · rw [if_pos hv, if_pos (show r.tag.wireType = some .kVarint from hv), decodeVarint_eq h]
    cases parseVarint (r.stream.window r.data) <;> rfl
  · rw [if_neg hv, if_neg (show ¬ r.tag.wireType = some .kVarint from hv), InputStream.skip_eq h]
    have htag : r.tag.fieldSize = r.fieldSize := rfl
    rw [htag]
    split
    · split <;> rfl
    · rename_i hzero
      have hz : r.fieldSize = 0 := by omega
      rw [hz]
      simp [ProtoReader.moved]

lemma readVarint_eq (h : r.Sound) (hv : r.wireType = some .kVarint) :
    r.readVarint = (parseVarint r.window).map fun t => (t.1, r.moved t.2) := by
  unfold readVarint
  rw [if_pos hv, decodeVarint_eq h]
  unfold ProtoReader.window
  cases parseVarint (r.stream.window r.data) <;> rfl

lemma readLengthDelimited_eq (h : r.Sound) (hl : r.wireType = some .kLengthDelimited) (n : Nat) :
    r.readLengthDelimited n =
      if n ≤ r.window.length then some (r.window.take n, r.moved n) else none := by
  unfold readLengthDelimited
  rw [if_pos hl, read_eq h]
  unfold ProtoReader.window
  split <;> rfl

end Nvram
