import AlpsSystem.Lib.Varint
import AlpsSystem.Nvram.MessageCodec

/-!
# What the encoders write

Every encoder writes a list of bytes that depends on the value only, byte by byte: on a
counter this counts them, on an array or a blob it appends them or fails for lack of room.
-/

namespace Nvram

open List

variable {p : Platform} {s s' : OutputStream} {value n : Nat} {byte : UInt8} {S T U M : Type}
  {c : Codec T} {default : T}

/-- Write bytes one after another. -/
def emit (p : Platform) (s : OutputStream) (bytes : Blob) : Option OutputStream :=
  bytes.foldlM (OutputStream.writeByte p) s

@[simp] lemma emit_nil (p : Platform) (s : OutputStream) : emit p s [] = some s := rfl

lemma emit_cons (p : Platform) (s : OutputStream) (byte : UInt8) (bytes : Blob) :
    emit p s (byte :: bytes) = s.writeByte p byte >>= fun s => emit p s bytes := rfl

lemma emit_append (p : Platform) (s : OutputStream) (a b : Blob) :
    emit p s (a ++ b) = emit p s a >>= fun s => emit p s b := by
  exact foldlM_append

/-! ## The functions of the streams -/

open OutputStream

lemma put_append (s : OutputStream) (a b : Blob) : (s.put a).put b = s.put (a ++ b) := by
  simp [put]

@[simp] lemma put_nil (s : OutputStream) : s.put [] = s := by
  simp [put]

open Option (bind_eq_bind bind_some map_some)

/-- What fits the buffer is put there. -/
lemma emit_of_fits {bytes : Blob} : ∀ {s : OutputStream},
    s.written.length + bytes.length ≤ s.capacity → emit p s bytes = some (s.put bytes) := by
  induction bytes with
  | nil => intro s _; simp
  | cons b bytes ih =>
    intro s h
    have hlt : s.written.length < s.capacity := by
      rw [length_cons] at h
      omega
    have hrest : (s.put [b]).written.length + bytes.length ≤ (s.put [b]).capacity := by
      simp only [put, length_append, length_cons, length_nil] at h ⊢
      omega
    rw [emit_cons, writeByte, if_pos hlt]
    simp only [bind_eq_bind, bind_some]
    rw [ih hrest, put_append]
    rfl

/-- Past a full buffer, writing goes on where `Advance` leads. -/
lemma emit_of_full {bytes : Blob} (hfull : ¬ s.written.length < s.capacity) (hne : bytes ≠ []) :
    emit p s bytes =
      match s.advance p with
      | (false, _) => none
      | (true, s') => if s'.written.length < s'.capacity then emit p s' bytes else none := by
  obtain ⟨b, bytes, rfl⟩ := exists_cons_of_ne_nil hne
  rw [emit_cons, writeByte, if_neg hfull]
  rcases hadv : s.advance p with ⟨status, s'⟩
  cases status with
  | false => rfl
  | true =>
    dsimp only
    split
    · rename_i hlt
      rw [emit_cons, writeByte, if_pos hlt]
    · rfl

/-- The rounds of `Write`, from a buffer with room on. -/
lemma writeLoop_eq_emit {fuel : Nat} : ∀ {s : OutputStream} {data : Blob},
    s.written.length < s.capacity → data.length < fuel →
    OutputStream.writeLoop p fuel s data = emit p s data := by
  induction fuel with
  | zero => intro s data _ h; exact absurd h (Nat.not_lt_zero _)
  | succ fuel ih =>
    intro s data hroom hfuel
    rw [writeLoop]
    split
    case isFalse hfits => exact (emit_of_fits (by omega)).symm
    case isTrue hover =>
      have hlen : (data.take (s.capacity - s.written.length)).length =
          s.capacity - s.written.length := by
        rw [length_take]
        omega
      have hfirst : emit p s (data.take (s.capacity - s.written.length)) =
          some (s.put (data.take (s.capacity - s.written.length))) :=
        emit_of_fits (by omega)
      have hrest : data.drop (s.capacity - s.written.length) ≠ [] := by
        rw [← length_pos_iff, length_drop]
        omega
      conv_rhs => rw [← take_append_drop (s.capacity - s.written.length) data, emit_append, hfirst]
      simp only [Option.bind_eq_bind, Option.bind_some]
      rw [emit_of_full (by simp [put]; omega) hrest]
      rcases (s.put (data.take (s.capacity - s.written.length))).advance p with ⟨status, s'⟩
      cases status with
      | false => rfl
      | true =>
        dsimp only
        split
        · rename_i hroom'
          exact ih hroom' (by rw [length_drop]; omega)
        · rfl

/-- `Write` is writing byte by byte. -/
lemma write_eq_emit {data : Blob} (h : s.written.length ≤ s.capacity) :
    s.write p data = emit p s data := by
  rw [write, if_pos h]
  by_cases hroom : s.written.length < s.capacity
  · exact writeLoop_eq_emit hroom (by omega)
  · -- the first round copies nothing
    rw [writeLoop]
    have havail : s.capacity - s.written.length = 0 := by omega
    rw [havail]
    split
    case isFalse hnil =>
      obtain rfl : data = [] := eq_nil_of_length_eq_zero (by omega)
      simp
    case isTrue hne =>
      rw [take_zero, put_nil, drop_zero, emit_of_full hroom (ne_nil_of_length_pos hne)]
      rcases s.advance p with ⟨status, s'⟩
      cases status with
      | false => rfl
      | true =>
        dsimp only
        split
        · rename_i hroom'
          exact writeLoop_eq_emit hroom' (by omega)
        · rfl

/-- The bytes of a varint. -/
def varint (value : Nat) : Blob := Varint.encode kMaxVarintBytes value

lemma varint_byte (value : Nat) :
    ((value &&& 0x7f) ||| (if value >>> 7 = 0 then 0x00 else 0x80)) =
      if value / 128 = 0 then value % 128 else value % 128 + 128 := by
  have hlow : value &&& 0x7f = value % 128 := Nat.and_two_pow_sub_one_eq_mod value 7
  have hshift : value >>> 7 = value / 128 := Nat.shiftRight_eq_div_pow value 7
  have hor : value % 128 ||| 0x80 = value % 128 + 128 := by
    have h := Nat.two_pow_add_eq_or_of_lt (i := 7) (b := value % 128) (by omega) 1
    rw [Nat.lor_comm, add_comm]
    exact h.symm
  rw [hlow, hshift]
  split
  · exact Nat.or_zero _
  · exact hor

open Varint

lemma encodeVarintLoop_eq_emit {rounds : Nat} : ∀ {s : OutputStream} {value : Nat},
    value < 128 ^ (rounds + 1) →
    encodeVarintLoop p (rounds + 1) s value = emit p s (encode (rounds + 1) value) := by
  induction rounds with
  | zero =>
    intro s value h
    have hdiv : value / 128 = 0 := Nat.div_eq_of_lt (by simpa using h)
    have hshift : value >>> 7 = 0 := (Nat.shiftRight_eq_div_pow value 7).trans hdiv
    rw [encodeVarintLoop, varint_byte, encode, if_pos hdiv, if_pos hdiv, emit_cons]
    simp [hshift]
  | succ rounds ih =>
    intro s value h
    have hshift : value >>> 7 = value / 128 := Nat.shiftRight_eq_div_pow value 7
    rw [encodeVarintLoop, varint_byte, hshift, encode]
    by_cases hdiv : value / 128 = 0
    · rw [if_pos hdiv, if_pos hdiv, emit_cons]
      simp [hdiv]
    · have hsmall : value / 128 < 128 ^ (rounds + 1) := by
        rw [Nat.div_lt_iff_lt_mul (by decide)]
        exact h
      rw [if_neg hdiv, if_neg hdiv]
      refine bind_congr fun s => ?_
      rw [if_pos hdiv]
      exact ih hsmall

lemma encodeVarint_eq_emit (h : value < u64) : encodeVarint p s value = emit p s (varint value) :=
  encodeVarintLoop_eq_emit (Nat.lt_trans h (by decide))

/-! ## The two kinds of stream -/

/-- The writing position is inside the buffer. -/
def OutputStream.Sound (s : OutputStream) : Prop := s.written.length ≤ s.capacity

lemma writeByte_sound (h : s.writeByte p byte = some s') : s'.Sound := by
  have hput : ∀ t : OutputStream, t.written.length < t.capacity → (t.put [byte]).Sound := by
    intro t ht
    simp only [OutputStream.Sound, put, length_append]
    exact ht
  unfold writeByte at h
  split at h
  · cases h
    exact hput _ ‹_›
  · split at h
    · cases h
    · split at h
      · cases h
        exact hput _ ‹_›
      · cases h

lemma emit_sound {bytes : Blob} : ∀ {s s' : OutputStream}, s.Sound → emit p s bytes = some s' →
    s'.Sound := by
  induction bytes with
  | nil => intro s s' hs h; cases h; exact hs
  | cons b bytes ih =>
    intro s s' _ h
    obtain ⟨t, hb, ht⟩ := Option.bind_eq_some_iff.mp h
    exact ih (writeByte_sound hb) ht

/-- An array or a blob keeps what is written. -/
lemma writeByte_storing (hs : ∀ n, s.sink ≠ .counting n)
    (h : s.writeByte p byte = some s') : s'.written = s.written ++ [byte] ∧ s'.sink = s.sink := by
  unfold writeByte at h
  split at h
  · cases h
    exact ⟨rfl, rfl⟩
  · unfold advance at h
    cases hsink : s.sink with
    | array => rw [hsink] at h; cases h
    | counting n => exact absurd hsink (hs n)
    | blob =>
      rw [hsink] at h
      dsimp only at h
      split at h
      · cases h
      · rename_i t hadv
        split at hadv
        · cases hadv
          split at h
          · cases h
            exact ⟨rfl, rfl⟩
          · cases h
        · cases hadv

/-- **On an array or a blob** the bytes are appended. -/
theorem emit_storing {bytes : Blob} : ∀ {s s' : OutputStream}, (∀ n, s.sink ≠ .counting n) →
    emit p s bytes = some s' → s'.written = s.written ++ bytes := by
  induction bytes with
  | nil => intro s s' _ h; cases h; simp
  | cons b bytes ih =>
    intro s s' hs h
    obtain ⟨t, hb, ht⟩ := Option.bind_eq_some_iff.mp h
    obtain ⟨hwritten, hsink⟩ := writeByte_storing hs hb
    rw [ih (by rwa [hsink]) ht, hwritten, append_assoc]
    rfl

/-- A blob takes one more byte as long as twice its contents can be allocated. -/
lemma writeByte_blob (hmin : 32 ≤ p.maxBlob) (hblob : s.sink = .blob) (hs : s.Sound)
    (hroom : 2 * s.written.length ≤ p.maxBlob) : ∃ s', s.writeByte p byte = some s' := by
  unfold writeByte
  split
  · exact ⟨_, rfl⟩
  case isFalse hfull =>
    have hcap : s.capacity = s.written.length := le_antisymm (not_lt.mp hfull) hs
    have hdouble : p.size (s.capacity * 2) = s.capacity * 2 := by
      have := p.double_lt
      exact Nat.mod_eq_of_lt (by omega)
    have halloc : p.allocates (max (s.capacity * 2) 32) = true :=
      decide_eq_true (max_le (by omega) hmin)
    have hadvance : s.advance p = (true, { s with capacity := max (s.capacity * 2) 32 }) := by
      unfold advance
      rw [hblob]
      dsimp only
      rw [hdouble, if_pos halloc]
    rw [hadvance]
    dsimp only
    rw [if_pos (by omega)]
    exact ⟨_, rfl⟩

/-- A blob takes bytes as long as twice its contents can be allocated. -/
lemma emit_blob (hmin : 32 ≤ p.maxBlob) {bytes : Blob} : ∀ {s : OutputStream}, s.sink = .blob →
    s.Sound → 2 * (s.written.length + bytes.length) ≤ p.maxBlob →
      ∃ s', emit p s bytes = some s' := by
  induction bytes with
  | nil => intro s _ _ _; exact ⟨s, rfl⟩
  | cons b bytes ih =>
    intro s hblob hs hroom
    rw [length_cons] at hroom
    obtain ⟨t, ht⟩ : ∃ t, s.writeByte p b = some t := writeByte_blob hmin hblob hs (by omega)
    obtain ⟨hwritten, hsink⟩ := writeByte_storing (by rw [hblob]; nofun) ht
    obtain ⟨s', hs'⟩ := ih (hsink.trans hblob) (writeByte_sound ht)
      (by rw [hwritten, length_append, length_singleton]; omega)
    exact ⟨s', by rw [emit_cons, ht]; exact hs'⟩

/-- An array takes bytes up to its size. -/
lemma emit_array {bytes : Blob} : ∀ {s : OutputStream}, s.sink = .array →
    s.written.length + bytes.length ≤ s.capacity → ∃ s', emit p s bytes = some s' := by
  induction bytes with
  | nil => intro s _ _; exact ⟨s, rfl⟩
  | cons b bytes ih =>
    intro s hsink hroom
    rw [length_cons] at hroom
    have ht : s.writeByte p b = some (s.put [b]) := if_pos (by omega)
    obtain ⟨s', hs'⟩ := ih (s := s.put [b]) hsink
      (by simp only [put, length_append, length_singleton]; omega)
    exact ⟨s', by rw [emit_cons, ht]; exact hs'⟩

/-- A stream that counts what is written. -/
def OutputStream.Counts (s : OutputStream) : Prop := ∃ n, s.sink = .counting n

lemma size_add_size (p : Platform) (m n : Nat) : p.size (p.size m + n) = p.size (m + n) :=
  Nat.mod_add_mod m _ n

lemma writeByte_counting (byte : UInt8) (hs : s.Counts) :
    ∃ s', s.writeByte p byte = some s' ∧ s'.Counts ∧
      s'.bytesWritten p = p.size (s.bytesWritten p + 1) := by
  obtain ⟨n, hn⟩ := hs
  unfold writeByte
  split
  · refine ⟨_, rfl, ⟨n, hn⟩, ?_⟩
    simp [bytesWritten, put, hn, size_add_size, add_assoc]
  · unfold advance
    rw [hn]
    refine ⟨_, rfl, ⟨_, rfl⟩, ?_⟩
    simp [bytesWritten, put, hn]

/-- **On a counter** every write succeeds and is counted. -/
theorem emit_counting (bytes : Blob) : ∀ {s : OutputStream}, s.Counts →
    ∃ s', emit p s bytes = some s' ∧
      p.size (s'.bytesWritten p) = p.size (s.bytesWritten p + bytes.length) := by
  induction bytes with
  | nil => intro s _; exact ⟨s, rfl, rfl⟩
  | cons b bytes ih =>
    intro s hs
    obtain ⟨t, hb, ht, hcount⟩ := writeByte_counting b hs
    obtain ⟨s', hs', hcount'⟩ := ih ht
    refine ⟨s', by rw [emit_cons, hb]; exact hs', ?_⟩
    rw [hcount', hcount, size_add_size, length_cons, add_assoc, add_comm 1]

/-! ## Fields -/

/-- What a field holds. -/
inductive Payload where
  | number (value : Nat)
  | delimited (body : Blob)
  deriving DecidableEq, Repr

namespace Payload

def wireType : Payload → WireType
  | .number _ => .kVarint
  | .delimited _ => .kLengthDelimited

/-- The bytes after the tag. -/
def bytes (p : Platform) : Payload → Blob
  | .number value => varint value
  | .delimited body => varint (p.size body.length) ++ body

/-- The bytes of a field. -/
def record (p : Platform) (fieldNumber : Nat) (x : Payload) : Blob :=
  varint (ProtoWriter.wireTag fieldNumber x.wireType) ++ x.bytes p

/-- A number of 64 bits, or data that fits a blob. -/
def Fits (p : Platform) : Payload → Prop
  | .number value => value < u64
  | .delimited body => body.length ≤ p.maxBlob

end Payload

open Payload ProtoWriter

lemma record_number (fieldNumber value : Nat) :
    record p fieldNumber (.number value) =
      varint (wireTag fieldNumber .kVarint) ++ varint value := rfl

lemma record_delimited (fieldNumber : Nat) (body : Blob) :
    record p fieldNumber (.delimited body) =
      varint (wireTag fieldNumber .kLengthDelimited) ++
        varint (p.size body.length) ++ body := (List.append_assoc _ _ _).symm

/-- The bytes of several fields with one number. -/
def records (p : Platform) (fieldNumber : Nat) (payloads : List Payload) : Blob :=
  payloads.flatMap (Payload.record p fieldNumber)

lemma wireTag_lt (fieldNumber : Nat) (wireType : WireType) :
    wireTag fieldNumber wireType < u64 := by
  refine Nat.or_lt_two_pow (Nat.mod_lt _ (by decide)) ?_
  cases wireType <;> decide

lemma size_lt (p : Platform) (n : Nat) : p.size n < u64 :=
  Nat.lt_of_lt_of_le (Nat.mod_lt _ (Nat.two_pow_pos _)) (Nat.pow_le_pow_right (by decide) p.bits_le)

section

variable (w : ProtoWriter)

lemma writeWireTag_eq (wireType : WireType) :
    w.writeWireTag p wireType =
      (emit p w.stream (varint (wireTag w.fieldNumber wireType))).map
        fun s => { w with stream := s } := by
  unfold writeWireTag
  rw [encodeVarint_eq_emit (wireTag_lt _ _)]
  cases emit p w.stream (varint (wireTag w.fieldNumber wireType)) <;> rfl

lemma writeVarint_eq (h : value < u64) :
    w.writeVarint p value = (emit p w.stream (record p w.fieldNumber (.number value))).map
        fun s => { w with stream := s } := by
  unfold writeVarint
  rw [writeWireTag_eq, record_number, emit_append]
  cases emit p w.stream (varint (wireTag w.fieldNumber .kVarint)) with
  | none => rfl
  | some s =>
    simp only [map_some, bind_eq_bind, bind_some]
    rw [encodeVarint_eq_emit h]
    cases emit p s (varint value) <;> rfl

lemma writeLengthHeader_eq (n : Nat) :
    w.writeLengthHeader p (p.size n) =
      (emit p w.stream (varint (wireTag w.fieldNumber .kLengthDelimited) ++
        varint (p.size n))).map fun s => { w with stream := s } := by
  unfold writeLengthHeader
  rw [writeWireTag_eq, emit_append]
  cases emit p w.stream (varint (wireTag w.fieldNumber .kLengthDelimited)) with
  | none => rfl
  | some s =>
    simp only [map_some, bind_eq_bind, bind_some]
    rw [encodeVarint_eq_emit (size_lt p n)]
    cases emit p s (varint (p.size n)) <;> rfl

lemma writeLengthDelimited_eq (hs : w.stream.Sound) (data : Blob) :
    w.writeLengthDelimited p data =
      (emit p w.stream (record p w.fieldNumber (.delimited data))).map
        fun s => { w with stream := s } := by
  have hsplit : w.writeLengthDelimited p data = w.writeLengthHeader p (p.size data.length) >>=
      fun w => (w.stream.write p data).map fun s => { w with stream := s } := by
    unfold writeLengthDelimited writeLengthHeader
    cases w.writeWireTag p .kLengthDelimited with
    | none => rfl
    | some w1 =>
      simp [bind_some]
      cases encodeVarint p w1.stream (p.size data.length) with
      | none => rfl
      | some s =>
        simp [bind_some]
        cases s.write p data <;> rfl
  rw [hsplit, writeLengthHeader_eq, record_delimited, emit_append _ _ (_ ++ _)]
  cases hhead : emit p w.stream (varint (wireTag w.fieldNumber .kLengthDelimited) ++
      varint (p.size data.length)) with
  | none => rfl
  | some s =>
    simp only [map_some, bind_eq_bind, bind_some]
    rw [write_eq_emit (emit_sound hs hhead)]

end

/-! ## Codecs -/

/-- The codec writes a field for each of the payloads, and leaves the field number. -/
def Codec.Emits (p : Platform) (c : Codec T) (payloads : T → List Payload) : Prop :=
  ∀ v (w : ProtoWriter), w.stream.Sound → c.encode v w =
    (emit p w.stream (records p w.fieldNumber (payloads v))).map fun s => { w with stream := s }

/-- The row of a table writes a field for each of the payloads. -/
def FieldDescriptor.Emits (p : Platform) (d : FieldDescriptor S) (payloads : S → List Payload) :
    Prop :=
  ∀ x (w : ProtoWriter), w.stream.Sound → (d.encode x w).map (·.stream) =
    emit p w.stream (records p w.fieldNumber (payloads x))

@[simp] lemma records_singleton (fieldNumber : Nat) (x : Payload) :
    records p fieldNumber [x] = x.record p fieldNumber := List.flatMap_singleton _ _

lemma records_append (fieldNumber : Nat) (xs ys : List Payload) :
    records p fieldNumber (xs ++ ys) = records p fieldNumber xs ++ records p fieldNumber ys :=
  List.flatMap_append

lemma varintCodec_emits {type : VarintCompatible T} (h : ∀ v, type.toRaw v < u64) :
    (varintCodec p type).Emits p fun v => [.number (type.toRaw v)] := by
  intro v w _
  rw [records_singleton]
  exact writeVarint_eq w (h v)

lemma blobCodec_emits : (blobCodec p).Emits p fun v => [.delimited v] := by
  intro v w hs
  rw [records_singleton]
  exact writeLengthDelimited_eq w hs v

variable {payloads : T → List Payload}

lemma vectorCodec_emits
    (hc : c.Emits p payloads) : (vectorCodec c default).Emits p fun v => v.flatMap payloads := by
  intro v w hs
  show encodeElements c v w = (emit p w.stream (records p w.fieldNumber (v.flatMap payloads))).map
    fun s => { w with stream := s }
  induction v generalizing w with
  | nil => rfl
  | cons element v ih =>
    rw [encodeElements, hc element w hs, flatMap_cons, records_append, emit_append]
    cases hfirst : emit p w.stream (records p w.fieldNumber (payloads element)) with
    | none => rfl
    | some s =>
      exact ih _ (emit_sound hs hfirst)

lemma optionalCodec_emits (hc : c.Emits p payloads) :
    (optionalCodec c default).Emits p fun v => v.elim [] payloads := by
  intro v w hs
  cases v with
  | none => rfl
  | some v => exact hc v w hs

lemma makeField_emits {get : S → M} {set : S → M → S} {c : Codec M}
    {payloads : M → List Payload} (hc : c.Emits p payloads) :
    (makeField n get set c).Emits p fun x => payloads (get x) := by
  intro x w hs
  rw [show (makeField n get set c).encode x w = c.encode (get x) w from rfl, hc _ _ hs]
  cases emit p w.stream (records p w.fieldNumber (payloads (get x))) <;> rfl

/-! ## Messages -/

/-- A row of a table with what it writes. -/
structure Row (S : Type) where
  desc : FieldDescriptor S
  payloads : S → List Payload

/-- The bytes of a message. -/
def dataBytes (p : Platform) (rows : List (Row S)) (x : S) : Blob :=
  rows.flatMap fun row => records p row.desc.fieldNumber (row.payloads x)

variable {rows : List (Row S)}

section

variable (hrows : ∀ row ∈ rows, row.desc.Emits p row.payloads)

include hrows

open Row

lemma encodeData_emits (x : S) :
    ∀ {w : ProtoWriter}, w.stream.Sound →
      (encodeData (rows.map desc) x w).map (·.stream) = emit p w.stream (dataBytes p rows x) := by
  induction rows with
  | nil => intro w _; rfl
  | cons row rows ih =>
    intro w hs
    have hrow := hrows row mem_cons_self x { w with fieldNumber := row.desc.fieldNumber } hs
    rw [map_cons, encodeData, dataBytes, flatMap_cons, emit_append]
    cases henc : row.desc.encode x { w with fieldNumber := row.desc.fieldNumber } with
    | none =>
      rw [henc] at hrow
      rw [← hrow]
      rfl
    | some w1 =>
      rw [henc] at hrow
      rw [← hrow]
      exact ih (fun row hr => hrows row (mem_cons_of_mem _ hr)) (emit_sound hs hrow.symm)

lemma getSize_eq (x : S) :
    getSize p (rows.map desc) x = p.size (dataBytes p rows x).length := by
  have hsound : counting.Sound := zero_le
  have hemit := encodeData_emits hrows x (w := { stream := counting }) hsound
  obtain ⟨s', hs', hcount⟩ := emit_counting (dataBytes p rows x)
    (s := counting) ⟨0, rfl⟩
  rw [hs'] at hemit
  obtain ⟨w, hw, hstream⟩ := Option.map_eq_some_iff.mp hemit
  have hidem : p.size (s'.bytesWritten p) = s'.bytesWritten p := by
    unfold bytesWritten
    split <;> exact Nat.mod_mod _ _
  unfold getSize
  rw [hw]
  dsimp only
  rw [hstream, ← hidem, hcount]
  have hzero : counting.bytesWritten p = 0 := Nat.zero_mod _
  rw [hzero, zero_add]

/-- A message is written as one field. -/
lemma encodeMessage_emits (x : S) {w : ProtoWriter} (hs : w.stream.Sound) :
    (encodeMessage p (rows.map desc) x w).map (·.stream) =
      emit p w.stream (record p w.fieldNumber (.delimited (dataBytes p rows x))) := by
  unfold encodeMessage
  rw [getSize_eq hrows, writeLengthHeader_eq, record_delimited, emit_append _ _ (_ ++ _)]
  cases hhead : emit p w.stream (varint (wireTag w.fieldNumber .kLengthDelimited) ++
      varint (p.size (dataBytes p rows x).length)) with
  | none => rfl
  | some s =>
    exact encodeData_emits hrows x (emit_sound hs hhead)

end

lemma makeOneOfField_emits {get : S → U} {set : S → U → S} {member : U → Option M}
    {activate : M → U} {default : M} {rows : List (Row M)}
    (hrows : ∀ row ∈ rows, row.desc.Emits p row.payloads) :
    (makeOneOfField n get set member activate default
      (messageCodec p (rows.map Row.desc))).Emits p fun x =>
        (member (get x)).elim [] fun m => [.delimited (dataBytes p rows m)] := by
  intro x w hs
  unfold makeOneOfField
  dsimp only
  cases member (get x) with
  | none => rfl
  | some m =>
    rw [Option.elim_some, records_singleton]
    exact encodeMessage_emits hrows m hs

end Nvram
