import AlpsSystem.Nvram.FieldLaws
import AlpsSystem.Nvram.Messages

/-!
# The round trip of messages and objects

What `Encode` writes for a request or a response, `Decode` reads back, and what
`EncodeObject` writes for an object of the storage, `DecodeObject` reads back, whatever
follows it.

* `codec_round_trip` — the round trip for the tables of the service.
-/

namespace Nvram.Messages

open List

variable {p : Platform} {P : InputStream → Prop} {S M : Type}

/-- `out` is what `Encode` writes for a message: to a blob that had something in it, or to
a buffer, of which no more is used than a blob can have. -/
def Encodes (p : Platform) (fields : List (FieldDescriptor S)) (message : S) (out : Blob) : Prop :=
  (∃ blob, encode p fields message blob = some out) ∨
    (out.length ≤ p.maxBlob ∧ ∃ size, encodeToBuffer fields message size = some out)

/-- `bytes` is the encoding of a message: `Encode` writes it wherever there is room, to a blob that
can be twice as long or to a buffer that is long enough, and writes nothing else; and it is decoded
to the message. -/
structure RoundTrips (p : Platform) (fields : List (FieldDescriptor S)) (message default : S)
    (bytes : Blob) : Prop where
  blob : 32 ≤ p.maxBlob → 2 * bytes.length ≤ p.maxBlob →
    ∀ blob, encode p fields message blob = some bytes
  buffer : ∀ size ≥ bytes.length, encodeToBuffer fields message size = some bytes
  decoded : ∀ out, Encodes p fields message out → out = bytes ∧
    decode p fields out default = some message

/-- The same for an object of the storage, with any bytes after it. -/
structure ObjectRoundTrips (p : Platform) (magic : Nat) (fields : List (FieldDescriptor S))
    (object default : S) (bytes : Blob) : Prop where
  blob : 32 ≤ p.maxBlob → 2 * bytes.length ≤ p.maxBlob →
    ∀ blob, encodeObject p magic fields object blob = some bytes
  decoded : ∀ blob out, encodeObject p magic fields object blob = some out → out = bytes ∧
    ∀ trailing, decodeObject p magic fields (out ++ trailing) default = some object

/-- A row of a table with its laws. -/
abbrev LawfulField (p : Platform) (P : InputStream → Prop) (S : Type) : Type :=
  { f : Field S // f.Lawful p P }

/-- A descriptor table whose rows, one after another, turn `default` into what was
written. -/
structure Table (p : Platform) (P : InputStream → Prop) (descriptors : List (FieldDescriptor S))
    (default : S) where
  rows : List (LawfulField p P S)
  descriptors_eq : rows.map (·.val.desc) = descriptors
  nodup : (rows.map (·.val.desc.fieldNumber)).Nodup
  fills : ∀ v, Fills (rows.map Subtype.val) default v

/-- The reader of the whole of the data. -/
def wholeReader (data : Blob) : ProtoReader := { data := data, stream := .base 0 data.length }

lemma wholeReader_sound (data : Blob) : (wholeReader data).Sound :=
  ⟨zero_le, le_rfl⟩

lemma wholeReader_window (data : Blob) : (wholeReader data).window = data := by
  show (data.drop 0).take (data.length - 0) = data
  rw [drop_zero, Nat.sub_zero, take_length]

open InputStream

lemma wholeReader_done (data : Blob) :
    ((wholeReader data).stream.moved data.length).advance.2.done.1 := by
  have hend : ¬ (base (0 + data.length) data.length).pos <
      (base (0 + data.length) data.length).end_ :=
    not_lt.mpr le_add_self
  show (base (0 + data.length) data.length).done.1
  unfold done
  rw [if_neg hend]
  rfl

/-- `DecodeObject` after a tag with the right number. -/
lemma decodeObject_of_tag {descriptors : List (FieldDescriptor S)} {y : S} (magic : Nat)
    {blob : Blob} {tag : Tag} {n : Nat} (htag : readTag p 0 blob = some (tag, n))
    (hmagic : tag.fieldNumber = magic) (hwire : tag.wireType = some .kLengthDelimited) :
    decodeObject p magic descriptors blob y =
      (decodeMessage p descriptors y ((wholeReader blob).tagged tag n)).map (·.1) := by
  have hread : ProtoReader.readWireTag p { data := blob, stream := .base 0 blob.length } =
      some ((wholeReader blob).tagged tag n) := by
    have hread := readWireTag_eq (p := p) (wholeReader_sound blob)
    rw [wholeReader_window] at hread
    rw [show (wholeReader blob).fieldSize = 0 from rfl, htag] at hread
    exact hread
  unfold decodeObject
  rw [hread, Option.bind_eq_bind, Option.bind_some]
  rw [if_neg (by rintro (h | h); exacts [h hmagic, h hwire])]
  cases decodeMessage p descriptors y ((wholeReader blob).tagged tag n) <;> rfl

namespace Table

variable {descriptors : List (FieldDescriptor S)} {default : S}

def fields (t : Table p P descriptors default) : List (Field S) := t.rows.map Subtype.val

section

variable (t : Table p P descriptors default) {out blob : Blob} {v : S}

include t

lemma lawful : ∀ f ∈ t.fields, f.Lawful p P := by
  intro f hf
  obtain ⟨row, -, rfl⟩ := mem_map.mp hf
  exact row.property

lemma fields_desc : t.fields.map (·.desc) = descriptors :=
  List.map_map.trans t.descriptors_eq

lemma fields_nodup : (t.fields.map (·.desc.fieldNumber)).Nodup := by
  have h := t.nodup
  unfold fields
  rwa [map_map]

/-- The bytes of a message. -/
def bytes (t : Table p P descriptors default) (v : S) : Blob :=
  dataBytes p (t.fields.map Field.toRow) v

lemma rows_emit : ∀ row ∈ t.fields.map Field.toRow, row.desc.Emits p row.payloads := by
  intro row hrow
  obtain ⟨f, hf, rfl⟩ := mem_map.mp hrow
  exact (t.lawful f hf).emits

lemma rows_desc : (t.fields.map Field.toRow).map Row.desc = descriptors := by
  rw [map_map]
  exact t.fields_desc

/-! ## What is written -/

omit t in
theorem truncate_eq {s : OutputStream} (h : s.truncate p = some out) :
    out = s.written ∧ out.length ≤ p.maxBlob := by
  unfold OutputStream.truncate at h
  split at h
  case isTrue halloc =>
    cases h
    exact ⟨rfl, of_decide_eq_true halloc⟩
  case isFalse => cases h

lemma encode_eq
    (h : encode p descriptors v blob = some out) : out = t.bytes v ∧ out.length ≤ p.maxBlob := by
  obtain ⟨w, hw, htrunc⟩ := Option.bind_eq_some_iff.mp h
  have hsound : OutputStream.Sound { sink := .blob, capacity := blob.length } := zero_le
  have hemit := encodeData_emits t.rows_emit v
    (w := { stream := { sink := .blob, capacity := blob.length } }) hsound
  rw [t.rows_desc, hw] at hemit
  obtain ⟨rfl, hlen⟩ := truncate_eq htrunc
  exact ⟨emit_storing (by nofun) hemit.symm, hlen⟩

omit t in
/-- A blob that was filled is cut to what was written. -/
lemma truncate_of_emit {bytes : Blob} {s : OutputStream}
    (h : emit p { sink := .blob, capacity := blob.length } bytes = some s)
    (hroom : 2 * bytes.length ≤ p.maxBlob) : s.truncate p = some bytes := by
  have hwritten : s.written = bytes := emit_storing (by nofun) h
  unfold OutputStream.truncate
  rw [hwritten]
  exact if_pos (decide_eq_true (by omega))

lemma encode_of_room (hmin : 32 ≤ p.maxBlob) (hroom : 2 * (t.bytes v).length ≤ p.maxBlob) :
    encode p descriptors v blob = some (t.bytes v) := by
  have hsound : OutputStream.Sound { sink := .blob, capacity := blob.length } := zero_le
  have hemit := encodeData_emits t.rows_emit v
    (w := { stream := { sink := .blob, capacity := blob.length } }) hsound
  obtain ⟨s, hs⟩ := emit_blob hmin (s := { sink := .blob, capacity := blob.length }) rfl hsound
    ((congrArg (2 * ·) (Nat.zero_add _)).trans_le hroom)
  rw [t.rows_desc] at hemit
  obtain ⟨w, hw, rfl⟩ := Option.map_eq_some_iff.mp (hemit.trans hs)
  unfold encode
  rw [hw, Option.bind_eq_bind, Option.bind_some, truncate_of_emit hs hroom]

lemma encodeToBuffer_of_room {size : Nat} (hroom : (t.bytes v).length ≤ size) :
    encodeToBuffer descriptors v size = some (t.bytes v) := by
  have hsound : OutputStream.Sound { sink := .array, capacity := size } := zero_le
  have hemit := encodeData_emits t.rows_emit v
    (w := { stream := { sink := .array, capacity := size } }) hsound
  obtain ⟨s, hs⟩ := emit_array (p := p) (s := { sink := .array, capacity := size }) rfl
    ((Nat.zero_add _).trans_le hroom)
  rw [t.rows_desc] at hemit
  obtain ⟨w, hw, rfl⟩ := Option.map_eq_some_iff.mp (hemit.trans hs)
  have hwritten : w.stream.written = t.bytes v := emit_storing (by nofun) hs
  unfold encodeToBuffer
  rw [hw, Option.bind_eq_bind, Option.bind_some, hwritten]

lemma encodeToBuffer_eq {size : Nat}
    (h : encodeToBuffer descriptors v size = some out) : out = t.bytes v := by
  obtain ⟨w, hw, hout⟩ := Option.bind_eq_some_iff.mp h
  have hsound : OutputStream.Sound { sink := .array, capacity := size } := zero_le
  have hemit := encodeData_emits t.rows_emit v
    (w := { stream := { sink := .array, capacity := size } }) hsound
  rw [t.rows_desc, hw] at hemit
  have hwritten := emit_storing (by nofun) hemit.symm
  cases hout
  exact hwritten

open Payload

lemma encodeObject_eq {magic : Nat} (h : encodeObject p magic descriptors v blob = some out) :
    out = record p magic (.delimited (t.bytes v)) ∧ out.length ≤ p.maxBlob := by
  obtain ⟨w, hw, htrunc⟩ := Option.bind_eq_some_iff.mp h
  have hsound : OutputStream.Sound { sink := .blob, capacity := blob.length } := zero_le
  have hemit := encodeMessage_emits t.rows_emit v
    (w := { stream := { sink := .blob, capacity := blob.length }, fieldNumber := magic }) hsound
  rw [t.rows_desc, hw] at hemit
  obtain ⟨rfl, hlen⟩ := truncate_eq htrunc
  exact ⟨emit_storing (by nofun) hemit.symm, hlen⟩

lemma encodeObject_of_room {magic : Nat} (hmin : 32 ≤ p.maxBlob)
    (hroom : 2 * (record p magic (.delimited (t.bytes v))).length ≤ p.maxBlob) :
    encodeObject p magic descriptors v blob = some (record p magic (.delimited (t.bytes v))) := by
  have hsound : OutputStream.Sound { sink := .blob, capacity := blob.length } := zero_le
  have hemit := encodeMessage_emits t.rows_emit v
    (w := { stream := { sink := .blob, capacity := blob.length }, fieldNumber := magic }) hsound
  obtain ⟨s, hs⟩ := emit_blob hmin (s := { sink := .blob, capacity := blob.length }) rfl hsound
    ((congrArg (2 * ·) (Nat.zero_add _)).trans_le hroom)
  rw [t.rows_desc] at hemit
  obtain ⟨w, hw, rfl⟩ := Option.map_eq_some_iff.mp (hemit.trans hs)
  unfold encodeObject
  rw [hw, Option.bind_eq_bind, Option.bind_some, truncate_of_emit hs hroom]

end

/-! ## What is read back -/

lemma decode_bytes (t : Table p InputStream.IsBase descriptors default)
    (hlen : (t.bytes v).length ≤ p.maxBlob) :
    decode p descriptors (t.bytes v) default = some v := by
  have hchain := chain_items isBase_moved descriptors
    (by rw [← t.fields_desc, map_map]; exact t.fields_nodup) t.lawful
    (fun f hf => t.fields_desc ▸ mem_map_of_mem hf) (fits_of_length t.lawful hlen) (t.fills v)
  have hbytes : t.bytes v = (items t.fields v).flatMap (Item.bytes p) := (items_bytes _ _).symm
  have hfuel : (items t.fields v).length < (t.bytes v).length + 1 := by
    rw [hbytes]
    exact Nat.lt_succ_of_le (length_le_items_bytes _)
  obtain ⟨r, hloop, -, hr⟩ := decodeLoop_items isBase_moved
    (wholeReader_sound _) ⟨_, _, rfl⟩ ((wholeReader_window _).trans hbytes) hfuel hchain
  rw [wholeReader_window] at hr
  have hdone : r.stream.done.1 := by
    rw [hr]
    exact wholeReader_done _
  have hdata : decodeData p descriptors default (wholeReader (t.bytes v)) = some (v, r) := hloop
  show (decodeData p descriptors default (wholeReader (t.bytes v)) >>= _) = _
  rw [hdata, Option.bind_eq_bind]
  exact if_pos hdone

lemma decodeObject_record (t : Table p (fun _ => True) descriptors default) {magic : Nat}
    (hmagic : magic < maxFieldNumber) (hlen : (t.bytes v).length ≤ p.maxBlob)
    (trailing : Blob) :
    decodeObject p magic descriptors
      (Payload.record p magic (.delimited (t.bytes v)) ++ trailing) default = some v := by
  have hfits : (Payload.delimited (t.bytes v)).Fits p := hlen
  rw [decodeObject_of_tag magic (readTag_record hmagic hfits 0 trailing) rfl rfl]
  obtain ⟨hsound, hwindow⟩ := tagged_record (wholeReader_sound _) (wholeReader_window
    (Payload.record p magic (.delimited (t.bytes v)) ++ trailing))
  have htake := takes_message t.lawful t.fields_nodup (t.fills v) hlen _ hsound ⟨_, _, rfl⟩ rfl rfl
    trailing hwindow
  rw [t.fields_desc] at htake
  rw [htake]
  rfl

/-- The round trip through `Encode` and `Decode`. -/
lemma roundTrips (t : Table p InputStream.IsBase descriptors default) (v : S) :
    RoundTrips p descriptors v default (t.bytes v) where
  blob hmin hroom _ := t.encode_of_room hmin hroom
  buffer _ hroom := t.encodeToBuffer_of_room hroom
  decoded out h := by
    rcases h with ⟨blob, h⟩ | ⟨hlen, size, h⟩
    · obtain ⟨rfl, hlen⟩ := t.encode_eq h
      exact ⟨rfl, t.decode_bytes hlen⟩
    · obtain rfl := t.encodeToBuffer_eq h
      exact ⟨rfl, t.decode_bytes hlen⟩

/-- The round trip through `EncodeObject` and `DecodeObject`. -/
lemma objectRoundTrips (t : Table p (fun _ => True) descriptors default) (magic : UInt32) (v : S) :
    ObjectRoundTrips p magic.toNat descriptors v default
      (Payload.record p magic.toNat (.delimited (t.bytes v))) where
  blob hmin hroom _ := t.encodeObject_of_room hmin hroom
  decoded blob out h := by
    obtain ⟨rfl, hlen⟩ := t.encodeObject_eq h
    have hmagic : magic.toNat < maxFieldNumber := magic.toNat_lt.trans (by decide)
    refine ⟨rfl, fun trailing => t.decodeObject_record hmagic ?_ trailing⟩
    rw [record_delimited, length_append] at hlen
    exact le_trans le_add_self hlen

end Table

/-! ## The rows of the service -/

/-- A codec with its laws. -/
structure LawfulCodec (p : Platform) (P : InputStream → Prop) (M : Type) where
  codec : Codec M
  default : M
  payloads : M → List Payload
  emits : codec.Emits p payloads
  lawful : codec.Lawful p P default payloads

section Rows

variable (p) (P)

def varintLaws {type : VarintCompatible M} (htype : type.Lossless) (default : M) :
    LawfulCodec p P M where
  codec := varintCodec p type
  default := default
  payloads v := [.number (type.toRaw v)]
  emits := varintCodec_emits htype.lt
  lawful := varintCodec_lawful htype default

/-- A number that is `default` before it is read. -/
abbrev u32Laws (default : UInt32 := 0) : LawfulCodec p P UInt32 :=
  varintLaws p P uint32Type_lossless default

abbrev u64Laws : LawfulCodec p P UInt64 := varintLaws p P uint64Type_lossless 0

abbrev boolLaws : LawfulCodec p P Bool := varintLaws p P boolType_lossless false

def blobLaws : LawfulCodec p P Blob where
  codec := blobCodec p
  default := []
  payloads v := [.delimited v]
  emits := blobCodec_emits
  lawful := blobCodec_lawful

def u32ListLaws : LawfulCodec p P (List UInt32) where
  codec := u32ListField p
  default := []
  payloads v := v.flatMap fun element => [.number (uint32Type.toRaw element)]
  emits := vectorCodec_emits (varintCodec_emits uint32Type_lossless.lt)
  lawful := vectorCodec_lawful uint32Type_lossless 0

def optionalLaws : LawfulCodec p P (Option UInt32) where
  codec := optionalCodec (u32Field p) 0
  default := none
  payloads v := v.elim [] fun value => [.number (uint32Type.toRaw value)]
  emits := optionalCodec_emits (varintCodec_emits uint32Type_lossless.lt)
  lawful := optionalCodec_lawful uint32Type_lossless 0

variable {p P}

/-- The row of a member. -/
def memberRow (n : Nat) (get : S → M) (set : S → M → S) (c : LawfulCodec p P M)
    (hn : n < maxFieldNumber := by decide) (hget : ∀ y m, get (set y m) = m := by intros; rfl)
    (hset : ∀ y m m', set (set y m) m' = set y m' := by intros; rfl)
    (hself : ∀ y, set y (get y) = y := by intros; rfl) : LawfulField p P S :=
  ⟨memberField n get set c.codec c.default c.payloads,
    memberField_lawful hn c.emits c.lawful hget hset hself⟩

/-- The row of a message of a union. -/
def unionRow {U : Type} (n : Nat) (get : S → U) (set : S → U → S) (member : U → Option M)
    (activate : M → U) {descriptors : List (FieldDescriptor M)} {default : M}
    (t : Table p (fun _ => True) descriptors default) (hn : n < maxFieldNumber := by decide) :
    LawfulField p InputStream.IsBase S where
  val := unionField n get set member activate default (messageCodec p (t.fields.map (·.desc)))
    t.bytes
  property := by
    have hfills : ∀ m, Fills t.fields default m := t.fills
    exact unionField_lawful hn t.lawful t.fields_nodup hfills

end Rows

section Tables

variable (p)

/-- Any stream may be under a message without messages in it. -/
abbrev FlatTable {S : Type} (descriptors : List (FieldDescriptor S)) (default : S) : Type :=
  Table p (fun _ => True) descriptors default

def emptyTable : FlatTable p emptyFields () where
  rows := []
  descriptors_eq := rfl
  nodup := List.nodup_nil
  fills _ := rfl

def getInfoResponseTable : FlatTable p (getInfoResponseFields p) {} where
  rows :=
    [memberRow 1 (·.totalSize) (fun x m => { x with totalSize := m }) (u64Laws p _),
     memberRow 2 (·.availableSize) (fun x m => { x with availableSize := m }) (u64Laws p _),
     memberRow 3 (·.maxSpaces) (fun x m => { x with maxSpaces := m }) (u32Laws p _),
     memberRow 4 (·.spaceList) (fun x m => { x with spaceList := m }) (u32ListLaws p _),
     memberRow 5 (·.maxSpaceSize) (fun x m => { x with maxSpaceSize := m }) (u64Laws p _),
     memberRow 6 (·.wipeDisabled) (fun x m => { x with wipeDisabled := m }) (boolLaws p _)]
  descriptors_eq := rfl
  nodup := show [1, 2, 3, 4, 5, 6].Nodup by decide
  fills _ := ⟨rfl, rfl, rfl, rfl, rfl, rfl, rfl⟩

def createSpaceRequestTable :
    FlatTable p (createSpaceRequestFields p) CreateSpaceRequest.blank where
  rows :=
    [memberRow 1 (·.index) (fun x m => { x with index := m }) (u32Laws p _),
     memberRow 2 (·.size) (fun x m => { x with size := m }) (u64Laws p _),
     memberRow 3 (·.controls) (fun x m => { x with controls := m }) (u32ListLaws p _),
     memberRow 4 (·.authorizationValue) (fun x m => { x with authorizationValue := m })
       (blobLaws p _)]
  descriptors_eq := rfl
  nodup := show [1, 2, 3, 4].Nodup by decide
  fills _ := ⟨rfl, rfl, rfl, rfl, rfl⟩

def getSpaceInfoRequestTable : FlatTable p (getSpaceInfoRequestFields p) 0 where
  rows := [memberRow 1 id (fun _ m => m) (u32Laws p _)]
  descriptors_eq := rfl
  nodup := show [1].Nodup by decide
  fills _ := ⟨rfl, rfl⟩

def getSpaceInfoResponseTable : FlatTable p (getSpaceInfoResponseFields p) {} where
  rows :=
    [memberRow 1 (·.size) (fun x m => { x with size := m }) (u64Laws p _),
     memberRow 2 (·.controls) (fun x m => { x with controls := m }) (u32ListLaws p _),
     memberRow 3 (·.readLocked) (fun x m => { x with readLocked := m }) (boolLaws p _),
     memberRow 4 (·.writeLocked) (fun x m => { x with writeLocked := m }) (boolLaws p _)]
  descriptors_eq := rfl
  nodup := show [1, 2, 3, 4].Nodup by decide
  fills _ := ⟨rfl, rfl, rfl, rfl, rfl⟩

def spaceRequestTable : FlatTable p (spaceRequestFields p) SpaceRequest.blank where
  rows :=
    [memberRow 1 (·.index) (fun x m => { x with index := m }) (u32Laws p _),
     memberRow 2 (·.authorizationValue) (fun x m => { x with authorizationValue := m })
       (blobLaws p _)]
  descriptors_eq := rfl
  nodup := show [1, 2].Nodup by decide
  fills _ := ⟨rfl, rfl, rfl⟩

def writeSpaceRequestTable :
    FlatTable p (writeSpaceRequestFields p) WriteSpaceRequest.blank where
  rows :=
    [memberRow 1 (·.index) (fun x m => { x with index := m }) (u32Laws p _),
     memberRow 2 (·.buffer) (fun x m => { x with buffer := m }) (blobLaws p _),
     memberRow 3 (·.authorizationValue) (fun x m => { x with authorizationValue := m })
       (blobLaws p _)]
  descriptors_eq := rfl
  nodup := show [1, 2, 3].Nodup by decide
  fills _ := ⟨rfl, rfl, rfl, rfl⟩

def readSpaceResponseTable : FlatTable p (readSpaceResponseFields p) [] where
  rows := [memberRow 1 id (fun _ m => m) (blobLaws p _)]
  descriptors_eq := rfl
  nodup := show [1].Nodup by decide
  fills _ := ⟨rfl, rfl⟩

def nvramHeaderTable : FlatTable p (nvramHeaderFields p) {} where
  rows :=
    [memberRow 1 (·.version) (fun x m => { x with version := m }) (u32Laws p _ 1),
     memberRow 2 (·.flags) (fun x m => { x with flags := m }) (u32Laws p _),
     memberRow 3 (·.allocatedIndices) (fun x m => { x with allocatedIndices := m })
       (u32ListLaws p _),
     memberRow 4 (·.provisionalIndex) (fun x m => { x with provisionalIndex := m })
       (optionalLaws p _)]
  descriptors_eq := rfl
  nodup := show [1, 2, 3, 4].Nodup by decide
  fills _ := ⟨rfl, rfl, rfl, rfl, rfl⟩

def nvramSpaceTable : FlatTable p (nvramSpaceFields p) {} where
  rows :=
    [memberRow 1 (·.flags) (fun x m => { x with flags := m }) (u32Laws p _),
     memberRow 2 (·.controls) (fun x m => { x with controls := m }) (u32Laws p _),
     memberRow 3 (·.authorizationValue) (fun x m => { x with authorizationValue := m })
       (blobLaws p _),
     memberRow 4 (·.contents) (fun x m => { x with contents := m }) (blobLaws p _)]
  descriptors_eq := rfl
  nodup := show [1, 2, 3, 4].Nodup by decide
  fills _ := ⟨rfl, rfl, rfl, rfl, rfl⟩

/-- The row of a command of `Request`. -/
def requestRow (n : Nat) (member : RequestUnion → Option M) (activate : M → RequestUnion)
    {descriptors : List (FieldDescriptor M)} {default : M} (t : FlatTable p descriptors default)
    (hn : n < maxFieldNumber := by decide) : LawfulField p InputStream.IsBase Request :=
  unionRow n Request.payload (fun x u => { x with payload := u }) member activate t hn

def requestTable : Table p InputStream.IsBase (requestFields p) {} where
  rows :=
    [requestRow p 1 (RequestUnion.bare .getInfo) (fun _ => .getInfo) (emptyTable p),
     requestRow p 2 (fun | .createSpace r => some r | _ => none) .createSpace
       (createSpaceRequestTable p),
     requestRow p 3 (fun | .getSpaceInfo i => some i | _ => none) .getSpaceInfo
       (getSpaceInfoRequestTable p),
     requestRow p 4 (fun | .deleteSpace r => some r | _ => none) .deleteSpace
       (spaceRequestTable p),
     requestRow p 5 (RequestUnion.bare .disableCreate) (fun _ => .disableCreate) (emptyTable p),
     requestRow p 6 (fun | .writeSpace r => some r | _ => none) .writeSpace
       (writeSpaceRequestTable p),
     requestRow p 7 (fun | .readSpace r => some r | _ => none) .readSpace (spaceRequestTable p),
     requestRow p 8 (fun | .lockSpaceWrite r => some r | _ => none) .lockSpaceWrite
       (spaceRequestTable p),
     requestRow p 9 (fun | .lockSpaceRead r => some r | _ => none) .lockSpaceRead
       (spaceRequestTable p),
     requestRow p 10 (RequestUnion.bare .wipeStorage) (fun _ => .wipeStorage) (emptyTable p),
     requestRow p 11 (RequestUnion.bare .disableWipe) (fun _ => .disableWipe) (emptyTable p)]
  descriptors_eq := rfl
  nodup := show [1, 2, 3, 4, 5, 6, 7, 8, 9, 10, 11].Nodup by decide
  fills v := by
    obtain ⟨payload⟩ := v
    cases payload <;>
      exact ⟨trivial, trivial, trivial, trivial, trivial, trivial, trivial, trivial, trivial,
        trivial, trivial, rfl⟩

/-- The row of a command of `Response`. -/
def responseRow (n : Nat) (member : ResponseUnion → Option M) (activate : M → ResponseUnion)
    {descriptors : List (FieldDescriptor M)} {default : M} (t : FlatTable p descriptors default)
    (hn : n < maxFieldNumber := by decide) : LawfulField p InputStream.IsBase Response :=
  unionRow n Response.payload (fun x u => { x with payload := u }) member activate t hn

def responseTable : Table p InputStream.IsBase (responseFields p) {} where
  rows :=
    [memberRow 1 (·.result) (fun x m => { x with result := m }) (u32Laws p _),
     responseRow p 2 (fun | .getInfo r => some r | _ => none) .getInfo (getInfoResponseTable p),
     responseRow p 3 (ResponseUnion.bare .createSpace) (fun _ => .createSpace) (emptyTable p),
     responseRow p 4 (fun | .getSpaceInfo r => some r | _ => none) .getSpaceInfo
       (getSpaceInfoResponseTable p),
     responseRow p 5 (ResponseUnion.bare .deleteSpace) (fun _ => .deleteSpace) (emptyTable p),
     responseRow p 6 (ResponseUnion.bare .disableCreate) (fun _ => .disableCreate) (emptyTable p),
     responseRow p 7 (ResponseUnion.bare .writeSpace) (fun _ => .writeSpace) (emptyTable p),
     responseRow p 8 (fun | .readSpace b => some b | _ => none) .readSpace
       (readSpaceResponseTable p),
     responseRow p 9 (ResponseUnion.bare .lockSpaceWrite) (fun _ => .lockSpaceWrite)
       (emptyTable p),
     responseRow p 10 (ResponseUnion.bare .lockSpaceRead) (fun _ => .lockSpaceRead)
       (emptyTable p),
     responseRow p 11 (ResponseUnion.bare .wipeStorage) (fun _ => .wipeStorage) (emptyTable p),
     responseRow p 12 (ResponseUnion.bare .disableWipe) (fun _ => .disableWipe) (emptyTable p)]
  descriptors_eq := rfl
  nodup := show [1, 2, 3, 4, 5, 6, 7, 8, 9, 10, 11, 12].Nodup by decide
  fills v := by
    obtain ⟨result, payload⟩ := v
    cases payload <;>
      exact ⟨rfl, trivial, trivial, trivial, trivial, trivial, trivial, trivial, trivial, trivial,
        trivial, trivial, rfl⟩

end Tables

/-- **The codec gives back what it was given.**  Every request and response has an encoding, which
`Encode` writes to a blob or a buffer that has the room and which is decoded to the same value; and
so has every header and space for `EncodeObject`, with any bytes after it. -/
theorem codec_round_trip (p : Platform) :
    (∀ request : Request, ∃ bytes, RoundTrips p (requestFields p) request {} bytes) ∧
    (∀ response : Response, ∃ bytes, RoundTrips p (responseFields p) response {} bytes) ∧
    (∀ header : NvramHeader, ∃ bytes,
      ObjectRoundTrips p kHeaderMagic (nvramHeaderFields p) header {} bytes) ∧
    (∀ space : NvramSpace, ∃ bytes,
      ObjectRoundTrips p kSpaceMagic (nvramSpaceFields p) space {} bytes) :=
  ⟨fun request => ⟨_, (requestTable p).roundTrips request⟩,
    fun response => ⟨_, (responseTable p).roundTrips response⟩,
    fun header => ⟨_, (nvramHeaderTable p).objectRoundTrips 0x4e5648 header⟩,
    fun space => ⟨_, (nvramSpaceTable p).objectRoundTrips 0x4e5653 space⟩⟩

/-- A machine with 64 bit and small blobs. -/
def lp64 : Platform where
  sizeBits := 64
  maxBlob := 4096
  bits_le := by decide
  double_lt := by decide

/-- One message of each kind, the objects with bytes behind them. -/
theorem codec_round_trip_lp64 :
    decode lp64 (requestFields lp64) [50, 10, 8, 172, 2, 18, 2, 7, 9, 26, 1, 5] {} =
      some ⟨.writeSpace ⟨300, [7, 9], [5]⟩⟩ ∧
    decode lp64 (responseFields lp64) [8, 3, 34, 8, 8, 16, 16, 1, 24, 1, 32, 0] {} =
      some ⟨3, .getSpaceInfo ⟨16, [1], true, false⟩⟩ ∧
    decodeObject lp64 kHeaderMagic (nvramHeaderFields lp64)
      ([194, 228, 202, 19, 10, 8, 1, 16, 0, 24, 23, 24, 5, 32, 5] ++ [1, 2, 3]) {} =
        some ⟨1, 0, [23, 5], some 5⟩ ∧
    decodeObject lp64 kSpaceMagic (nvramSpaceFields lp64)
      ([154, 229, 202, 19, 11, 8, 1, 16, 0, 26, 1, 9, 34, 2, 4, 4] ++ [255]) {} =
        some ⟨1, 0, [9], [4, 4]⟩ := by
  obtain ⟨hrequest, hresponse, hheader, hspace⟩ := codec_round_trip lp64
  obtain ⟨_, hrequest⟩ := hrequest ⟨.writeSpace ⟨300, [7, 9], [5]⟩⟩
  obtain ⟨_, hresponse⟩ := hresponse ⟨3, .getSpaceInfo ⟨16, [1], true, false⟩⟩
  obtain ⟨_, hheader⟩ := hheader ⟨1, 0, [23, 5], some 5⟩
  obtain ⟨_, hspace⟩ := hspace ⟨1, 0, [9], [4, 4]⟩
  exact ⟨(hrequest.decoded _ (.inl ⟨[], by decide +kernel⟩)).2,
    (hresponse.decoded _ (.inr ⟨by decide, 100, by decide +kernel⟩)).2,
    (hheader.decoded [] _ (by decide +kernel)).2 _, (hspace.decoded [] _ (by decide +kernel)).2 _⟩

end Nvram.Messages
