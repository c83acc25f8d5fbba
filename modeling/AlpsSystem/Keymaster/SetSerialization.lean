import AlpsSystem.Keymaster.SetStorage

/-!
# Reading back serialized authorization sets

* `contents` — the tags and values of a set, with its blobs by content.
* `round_trip_iff` — the set is read back if the lengths of its blobs are the size of its indirect
  data.  `erase`, `Deduplicate` and `Difference` drop blobs but not their data.
-/

namespace Keymaster.Storage

open Runs (EachStep)

open List

/-! ## Contents -/

/-- The member of the union that the type of a tag selects. -/
inductive Value where
  | none
  | integer (value : UInt32)
  | longInteger (value : UInt64)
  | boolean (value : Bool)
  | blob (data : List UInt8)
  deriving DecidableEq, Repr

def Param.value (p : Param) : Value :=
  match tagType p.tag with
  | .invalid | .unknown => .none
  | .enum | .enumRep | .uint | .uintRep => .integer p.integer
  | .ulong | .ulongRep | .date => .longInteger p.longInteger
  | .bool => .boolean p.boolean
  | .bignum | .bytes => .blob p.blob

open LittleEndian

namespace AuthorizationSet

variable {s t : AuthorizationSet} {w : Writer} {data : List UInt8} {e : Elem} {elems : List Elem}
  {n indirectLength : Nat}

def contents (s : AuthorizationSet) : List (UInt32 × Value) :=
  s.elems.map fun e => (e.tag, (s.read e).value)

/-! ## Writing -/

/-- The bytes of an element. -/
def wireElem (e : Elem) : List UInt8 :=
  LittleEndian.encode 4 e.tag.toNat ++ match tagType e.tag with
    | .invalid | .unknown => []
    | .enum | .enumRep | .uint | .uintRep => LittleEndian.encode 4 e.integer.toNat
    | .ulong | .ulongRep | .date => LittleEndian.encode 8 e.longInteger.toNat
    | .bool => [if e.boolean then 1 else 0]
    | .bignum | .bytes => LittleEndian.encode 4 e.dataLength ++ LittleEndian.encode 4 e.offset

/-- The bytes of a set. -/
def wire (s : AuthorizationSet) : List UInt8 :=
  LittleEndian.encode 4 s.indirectSize ++ s.indirectData.take s.indirectSize ++
    LittleEndian.encode 4 s.elems.length ++ LittleEndian.encode 4 s.serializedSizeOfElements ++
    s.elems.flatMap wireElem

/-- The buffer with more bytes. -/
def Writer.put (w : Writer) (data : List UInt8) : Writer :=
  { w with pos := w.pos + data.length, bytes := w.bytes ++ data }

@[simp] lemma Writer.put_size (w : Writer) (data : List UInt8) : (w.put data).size = w.size := rfl

@[simp] lemma Writer.put_pos (w : Writer) (data : List UInt8) :
    (w.put data).pos = w.pos + data.length := rfl

open Writer

@[simp] lemma Writer.put_put (w : Writer) (data more : List UInt8) :
    (w.put data).put more = w.put (data ++ more) := by
  simp [put, add_assoc]

lemma Writer.append_eq_put (hroom : w.pos + data.length ≤ w.size) : w.append data = w.put data := by
  simp [append, put, hroom]

lemma Writer.appendUint32_eq_put {value : Nat} (hroom : w.pos + 4 ≤ w.size) :
    w.appendUint32 value = w.put (encode 4 value) :=
  append_eq_put (by simpa using hroom)

lemma Writer.appendByte_eq_put {value : UInt8} (hroom : w.pos + 1 ≤ w.size) :
    w.appendByte value = w.put [value] := by
  have hlt : w.pos < w.size := hroom
  simp [appendByte, put, hlt]

lemma length_wireElem (e : Elem) : (wireElem e).length = serializedSizeOf e := by
  unfold wireElem serializedSizeOf
  cases tagType e.tag <;> simp

lemma length_wireElems (elems : List Elem) :
    (elems.flatMap wireElem).length = (elems.map serializedSizeOf).sum := by
  simp [length_wireElem]

lemma serializeElem_eq_put
    (hroom : w.pos + serializedSizeOf e ≤ w.size) : serializeElem w e = w.put (wireElem e) := by
  unfold serializedSizeOf at hroom
  unfold serializeElem wireElem
  have htag : w.appendUint32 e.tag.toNat = w.put (encode 4 e.tag.toNat) := by
    refine appendUint32_eq_put ((Nat.add_le_add_left ?_ _).trans hroom)
    split <;> decide
  simp [htag]
  cases hty : tagType e.tag with
  | invalid | unknown => rw [append_nil]
  | enum | enumRep | uint | uintRep =>
    simp only [hty] at hroom ⊢
    rw [appendUint32_eq_put (by simp; omega), put_put]
  | ulong | ulongRep | date =>
    simp only [hty] at hroom ⊢
    rw [appendUint64, append_eq_put (by simp; omega), put_put]
  | bool =>
    simp only [hty] at hroom ⊢
    rw [appendByte_eq_put (by simp; omega), put_put]
  | bignum | bytes =>
    simp only [hty] at hroom ⊢
    rw [appendUint32_eq_put (w := w.put _) (by simp; omega), put_put,
      appendUint32_eq_put (by simp; omega), put_put, append_assoc]

lemma serializeElems_eq_put (hroom : w.pos + (elems.map serializedSizeOf).sum ≤ w.size) :
    elems.foldl serializeElem w = w.put (elems.flatMap wireElem) := by
  induction elems generalizing w with
  | nil => simp [put]
  | cons e rest ih =>
    rw [map_cons, sum_cons] at hroom
    rw [foldl_cons, serializeElem_eq_put (by omega), ih ?_, put_put, flatMap_cons]
    rw [put_pos, put_size, length_wireElem]
    omega

lemma length_wire (h : s.Sound) : s.wire.length = s.serializedSize := by
  have hdata := h.size_le.trans h.capacity_le
  simp only [wire, length_append, length_take, min_eq_left hdata, length_wireElems]
  rfl

lemma serialize_eq (h : s.Sound) :
    s.serialize { size := s.serializedSize } =
      { size := s.serializedSize, pos := s.serializedSize, bytes := s.wire } := by
  have hdata : (s.indirectData.take s.indirectSize).length = s.indirectSize := by
    rw [length_take, min_eq_left (h.size_le.trans h.capacity_le)]
  have hsize : s.serializedSize = 12 + s.indirectSize + s.serializedSizeOfElements := by
    unfold serializedSize
    omega
  have hput : s.serialize { size := s.serializedSize } =
      put { size := s.serializedSize } s.wire := by
    have hstart : appendUint32 { size := s.serializedSize } s.indirectSize =
        put { size := s.serializedSize } (encode 4 s.indirectSize) :=
      appendUint32_eq_put (by dsimp only; omega)
    have hsum : s.serializedSizeOfElements = (s.elems.map serializedSizeOf).sum := rfl
    unfold serialize
    dsimp only
    rw [hstart, append_eq_put (by simp; omega), put_put,
      appendUint32_eq_put (w := put _ _) (by simp; omega), put_put,
      appendUint32_eq_put (by simp; omega), put_put,
      serializeElems_eq_put (by simp; omega), put_put]
    rfl
  rw [hput, put, length_wire h]
  simp

/-! ## Reading -/

lemma copyUint32_encode (h : n < 2 ^ 32) (rest : List UInt8) :
    copyUint32 (encode 4 n ++ rest) = some (n, rest) := by
  have hlength : (encode 4 n).length = 4 := length_encode 4 n
  unfold copyUint32
  rw [if_pos (by simp), take_left' hlength, drop_left' hlength, decode_encode h]

lemma copyUint64_encode (h : n < 2 ^ 64) (rest : List UInt8) :
    copyUint64 (encode 8 n ++ rest) = some (n, rest) := by
  have hlength : (encode 8 n).length = 8 := length_encode 8 n
  unfold copyUint64
  rw [if_pos (by simp), take_left' hlength, drop_left' hlength, decode_encode h]

/-- The tag is of a type that has values. -/
def hasValue (e : Elem) : Bool := tagType e.tag != .invalid && tagType e.tag != .unknown

/-- The element with no other member of the union than the one that counts. -/
def wireContent (e : Elem) : Elem :=
  match tagType e.tag with
  | .invalid | .unknown => { tag := e.tag }
  | .enum | .enumRep | .uint | .uintRep => { tag := e.tag, integer := e.integer }
  | .ulong | .ulongRep | .date => { tag := e.tag, longInteger := e.longInteger }
  | .bool => { tag := e.tag, boolean := e.boolean }
  | .bignum | .bytes => { tag := e.tag, offset := e.offset, dataLength := e.dataLength }

lemma wireContent_tag (e : Elem) : (wireContent e).tag = e.tag := by
  unfold wireContent
  split <;> rfl

lemma deserializeElem_wireElem (hlength : indirectLength < 2 ^ 32)
    (hinside : isBlobTag e.tag → e.offset + e.dataLength ≤ indirectLength)
    (rest : List UInt8) :
    deserializeElem indirectLength (wireElem e ++ rest) =
      if hasValue e then some (wireContent e, rest) else none := by
  have htag : UInt32.ofNat e.tag.toNat = e.tag := UInt32.ofNat_toNat
  unfold deserializeElem wireElem hasValue wireContent
  rw [append_assoc, copyUint32_encode e.tag.toNat_lt]
  simp [htag]
  cases hty : tagType e.tag with
  | invalid | unknown => rfl
  | enum | enumRep | uint | uintRep =>
    simp [copyUint32_encode e.integer.toNat_lt]
  | ulong | ulongRep | date =>
    simp [copyUint64_encode e.longInteger.toNat_lt]
  | bool => cases e.boolean <;> rfl
  | bignum | bytes =>
    have hle := hinside (by simp [isBlobTag, hty])
    have hfits : ¬ (e.offset > indirectLength ∨ e.offset + e.dataLength > indirectLength) := by
      omega
    simp [copyUint32_encode (show e.dataLength < 2 ^ 32 by omega),
      copyUint32_encode (show e.offset < 2 ^ 32 by omega), hfits]

lemma deserializeElems_wire (hlength : indirectLength < 2 ^ 32)
    (hinside : ∀ e ∈ elems, isBlobTag e.tag → e.offset + e.dataLength ≤ indirectLength) :
    deserializeElems indirectLength elems.length (elems.flatMap wireElem) =
      if elems.all hasValue then some (elems.map wireContent) else none := by
  induction elems with
  | nil => rfl
  | cons e rest ih =>
    have hfirst := deserializeElem_wireElem hlength (hinside e mem_cons_self)
      (rest.flatMap wireElem)
    have hrest := ih fun e' he' => hinside e' (.tail _ he')
    rw [length_cons, flatMap_cons, deserializeElems, hfirst]
    by_cases hvalue : hasValue e = true
    · by_cases hall : rest.all hasValue = true
      · simp [hvalue, hall, hrest]
      · simp [hvalue, hrest]
    · simp [hvalue]

/-- The lengths of the blobs are read back. -/
lemma computeIndirectDataSize_wireContent (elems : List Elem) :
    computeIndirectDataSize (elems.map wireContent) = computeIndirectDataSize elems := by
  unfold computeIndirectDataSize
  rw [map_map]
  congr 2
  funext e
  show (if isBlobTag (wireContent e).tag then (wireContent e).dataLength else 0) = _
  rw [wireContent_tag]
  unfold isBlobTag wireContent
  cases tagType e.tag <;> simp

section

variable (hallocs : t.allocs = [])

include hallocs

lemma allocate_succeeds {size : Nat} (hsize : size < maxObjectSize) :
    t.allocate size = (true, { t with allocs := [] }) := by
  simp [allocate, hallocs, hsize]

/-- With memory there is room for the elements. -/
lemma reserveElems_succeeds {count : Nat} (herror : t.error = .ok)
    (hcount : count * sizeofParam < maxObjectSize) :
    ∃ t', t.reserveElems count = (true, t') ∧ SameIndirect t t' := by
  unfold reserveElems
  rw [if_neg (not_not.mpr herror)]
  split
  · rw [allocate_succeeds hallocs hcount]
    exact ⟨_, rfl, rfl, rfl, rfl⟩
  · exact ⟨_, rfl, rfl, rfl, rfl⟩

/-- The first part of the buffer. -/
lemma deserializeIndirectData_encode (herror : t.error = .ok)
    (hlength : data.length < 2 ^ 32) (rest : List UInt8) :
    ∃ t', t.deserializeIndirectData (encode 4 data.length ++ (data ++ rest)) =
        (some rest, t') ∧ t'.error = .ok ∧ t'.allocs = [] ∧ t'.indirectData = data ∧
      t'.indirectSize = data.length := by
  unfold deserializeIndirectData
  rw [copyUint32_encode hlength]
  simp only
  rw [if_neg (by simp)]
  split
  · next hzero =>
    rw [eq_nil_of_length_eq_zero hzero]
    exact ⟨_, rfl, herror, hallocs, rfl, rfl⟩
  · have hfits : data.length < maxObjectSize := by
      unfold maxObjectSize
      omega
    rw [allocate_succeeds (t := { t with indirectSize := data.length }) hallocs hfits]
    simp only [drop_left, take_left]
    exact ⟨_, rfl, herror, rfl, rfl, rfl⟩

omit hallocs in
theorem four_mul_length_le (elems : List Elem) :
    elems.length * 4 ≤ (elems.map serializedSizeOf).sum := by
  induction elems with
  | nil => exact le_refl 0
  | cons e rest ih =>
    have hfour : 4 ≤ serializedSizeOf e := by
      unfold serializedSizeOf
      split <;> decide
    rw [length_cons, map_cons, sum_cons]
    omega

/-- The second part of the buffer. -/
lemma deserializeElementsData_encode (elems : List Elem) (herror : t.error = .ok)
    (hindirect : t.indirectSize < 2 ^ 32)
    (hsize : (elems.map serializedSizeOf).sum < 2 ^ 32)
    (hinside : ∀ e ∈ elems, isBlobTag e.tag → e.offset + e.dataLength ≤ t.indirectSize) :
    ∃ ok t', t.deserializeElementsData (encode 4 elems.length ++
          (encode 4 (elems.map serializedSizeOf).sum ++ elems.flatMap wireElem)) =
        (ok, t') ∧ (ok ↔ elems.all hasValue) ∧
      (ok → t'.elems = elems.map wireContent ∧ SameIndirect t t') := by
  have hcount := four_mul_length_le elems
  have hlength := length_wireElems elems
  obtain ⟨u, hreserve, hsame⟩ : ∃ u, t.reserveElems elems.length = (true, u) ∧
      SameIndirect t u := by
    refine reserveElems_succeeds hallocs herror ?_
    unfold sizeofParam maxObjectSize
    omega
  have hread : deserializeElems u.indirectSize elems.length (elems.flatMap wireElem) =
      if elems.all hasValue then some (elems.map wireContent) else none := by
    rw [hsame.size]
    exact deserializeElems_wire hindirect hinside
  unfold deserializeElementsData
  rw [copyUint32_encode (by omega)]
  simp only
  rw [copyUint32_encode hsize]
  simp only
  rw [if_neg (by omega), hreserve]
  simp only
  rw [take_of_length_le hlength.le, hread]
  by_cases hall : elems.all hasValue
  · rw [if_pos hall]
    exact ⟨true, _, rfl, iff_of_true rfl hall,
      fun _ => ⟨rfl, hsame.data, hsame.size, hsame.capacity⟩⟩
  · rw [if_neg hall]
    exact ⟨false, _, rfl, iff_of_false nofun hall, nofun⟩

/-- What is read back from the bytes of a set. -/
lemma deserialize_wire (h : s.Sound) (hsize : s.serializedSize < 2 ^ 32) :
    ∃ ok t', t.deserialize s.wire = (ok, t') ∧ (ok ↔
        computeIndirectDataSize s.elems = s.indirectSize ∧ s.elems.all hasValue) ∧
      (ok → t'.elems = s.elems.map wireContent ∧
        t'.indirectData = s.indirectData.take s.indirectSize) := by
  have hdata : (s.indirectData.take s.indirectSize).length = s.indirectSize := by
    rw [length_take, min_eq_left (h.size_le.trans h.capacity_le)]
  have hsum : s.serializedSizeOfElements = (s.elems.map serializedSizeOf).sum := rfl
  have hparts : s.wire = encode 4 (s.indirectData.take s.indirectSize).length ++
      (s.indirectData.take s.indirectSize ++ (encode 4 s.elems.length ++
        (encode 4 (s.elems.map serializedSizeOf).sum ++ s.elems.flatMap wireElem))) := by
    rw [hdata, ← hsum]
    simp [wire]
  unfold serializedSize at hsize
  have hfree : t.freeData.error = .ok ∧ t.freeData.allocs = [] := ⟨rfl, hallocs⟩
  obtain ⟨u, hindirect, herror, hallocs', hudata, husize⟩ := deserializeIndirectData_encode
    hfree.2 hfree.1 (show (s.indirectData.take s.indirectSize).length < 2 ^ 32 by omega)
    (encode 4 s.elems.length ++ (encode 4
      (s.elems.map serializedSizeOf).sum ++ s.elems.flatMap wireElem))
  rw [hdata] at husize
  obtain ⟨ok, v, helems, hok, hread⟩ := deserializeElementsData_encode hallocs' s.elems
    herror (by omega) (by omega) (by rw [husize]; exact h.inside)
  unfold deserialize
  rw [hparts, hindirect]
  simp only
  rw [helems]
  cases ok with
  | false =>
    have hnot : s.elems.all hasValue ≠ true := fun hall => Bool.false_ne_true (hok.mpr hall)
    exact ⟨false, v, rfl, iff_of_false Bool.false_ne_true fun hboth => hnot hboth.2, nofun⟩
  | true =>
    obtain ⟨hvelems, hsame⟩ := hread rfl
    have hvsize : v.indirectSize = s.indirectSize := hsame.size.trans husize
    simp only
    rw [hvelems, computeIndirectDataSize_wireContent, hvsize]
    split
    · next hne =>
      exact ⟨false, _, rfl, iff_of_false nofun fun hboth => hne hboth.1.symm, nofun⟩
    · next heq =>
      exact ⟨true, v, rfl, iff_of_true rfl ⟨(not_not.mp heq).symm, hok.mp rfl⟩,
        fun _ => ⟨hvelems, hsame.data.trans hudata⟩⟩

end

/-- An element that has been read back has the same value. -/
lemma value_read_wireContent (hdata : t.indirectData = s.indirectData.take s.indirectSize)
    (hinside : isBlobTag e.tag → e.offset + e.dataLength ≤ s.indirectSize) :
    (t.read (wireContent e)).value = (s.read e).value := by
  unfold Param.value read
  simp only [wireContent_tag]
  unfold wireContent
  cases hty : tagType e.tag with
  | invalid | unknown | enum | enumRep | uint | uintRep | ulong | ulongRep | date | bool => rfl
  | bignum | bytes =>
    have hblob : isBlobTag e.tag := by simp [isBlobTag, hty]
    have hle := hinside hblob
    simp only [hdata, drop_take, take_take]
    rw [min_eq_left (by omega)]

lemma contents_read_back (h : s.Sound) (helems : t.elems = s.elems.map wireContent)
    (hdata : t.indirectData = s.indirectData.take s.indirectSize) : t.contents = s.contents := by
  unfold contents
  rw [helems, map_map]
  refine map_congr_left fun e he => ?_
  show ((wireContent e).tag, (t.read (wireContent e)).value) = _
  rw [wireContent_tag, value_read_wireContent hdata (h.inside e he)]

end AuthorizationSet

/-! ## Round trip -/

/-- The operation edits the set it is applied to. -/
def Op.edits : Op → Bool
  | Op.reinitialize _ | .deserialize _ => false
  | _ => true

namespace AuthorizationSet

variable {s t : AuthorizationSet}

lemma edits_sound (lib : Library) (allocs : List Bool) {ops : List Op}
    (hops : ∀ op ∈ ops, op.edits) :
    (ops.foldl (step lib) { allocs }).Sound := by
  have hsteps : EachStep (fun _ op => op.edits) (step lib) { allocs } ops :=
    Runs.eachStep_of_forall ops _ hops
  refine (Runs.foldSteps_inv (I := Stored) ?_ ops _ (empty_stored allocs) hsteps).toSound
  intro s op hs hop
  refine step_stored lib hs ?_
  cases op with
  | deserialize buf => cases hop
  | _ => rfl

/-- A set is read back if its blobs use all of the indirect data and every tag has a type. -/
theorem round_trip_iff (lib : Library) (allocs : List Bool) (ops : List Op)
    (hops : ∀ op ∈ ops, op.edits = true) (hs : ops.foldl (step lib) { allocs := allocs } = s)
    (htags : ∀ e ∈ s.elems, tagType e.tag ≠ .invalid) (hsize : s.serializedSize < 2 ^ 32)
    (hallocs : t.allocs = []) :
    let w := s.serialize { size := s.serializedSize }
    (w.pos = s.serializedSize ∧ w.bytes.length = s.serializedSize ∧
        (t.deserialize w.bytes).1 = true ∧ (t.deserialize w.bytes).2.contents = s.contents) ↔
      computeIndirectDataSize s.elems = s.indirectSize ∧
        ∀ e ∈ s.elems, tagType e.tag ≠ .unknown := by
  have hsound : s.Sound := hs ▸ edits_sound lib allocs hops
  have hvalue : s.elems.all hasValue ↔ ∀ e ∈ s.elems, tagType e.tag ≠ .unknown := by
    rw [all_eq_true]
    refine forall₂_congr fun e he => ?_
    simp [hasValue, htags e he]
  obtain ⟨ok, t', hread, hok, hback⟩ := deserialize_wire hallocs hsound hsize
  intro w
  have hw : w = { size := s.serializedSize, pos := s.serializedSize, bytes := s.wire } :=
    serialize_eq hsound
  rw [hw, hread, ← hvalue, ← hok]
  constructor
  · intro hall
    exact hall.2.2.1
  · intro htrue
    obtain ⟨helems, hdata⟩ := hback htrue
    exact ⟨rfl, length_wire hsound, htrue, contents_read_back hsound helems hdata⟩

/-- A blob and `KM_TAG_NO_AUTH_REQUIRED`. -/
def sampleEdits : List Op :=
  [.pushBack sampleBlob sampleBlob_fits,
    .pushBack { tag := 0x700001F7, boolean := true } (by decide)]

theorem round_trip_sampleEdits :
    let s := sampleEdits.foldl (step sampleLibrary) { allocs := [] }
    let w := s.serialize { size := s.serializedSize }
    computeIndirectDataSize s.elems = s.indirectSize ∧
      w.pos = s.serializedSize ∧ w.bytes.length = s.serializedSize ∧
      (deserialize {} w.bytes).1 = true ∧ (deserialize {} w.bytes).2.contents = s.contents := by
  intro s w
  have hdata : computeIndirectDataSize s.elems = s.indirectSize ∧
      ∀ e ∈ s.elems, tagType e.tag ≠ .unknown := by decide
  exact ⟨hdata.1, (round_trip_iff sampleLibrary [] sampleEdits (by decide) rfl (by decide)
    (by decide) rfl).mpr hdata⟩

/-- A blob is pushed and erased: its two bytes are still serialized, and the set that is left
cannot be read back. -/
theorem erased_blob_unreadable :
    let s := [Op.pushBack sampleBlob (by decide), .erase 0].foldl (step sampleLibrary) {}
    let w := s.serialize { size := s.serializedSize }
    s.error = .ok ∧ s.elems = [] ∧ w.bytes = [2, 0, 0, 0, 7, 8, 0, 0, 0, 0, 0, 0, 0, 0] ∧
      (deserialize {} w.bytes).1 = false ∧
      (deserialize {} w.bytes).2.error = .malformedData := by
  decide

end AuthorizationSet

end Keymaster.Storage
