import AlpsSystem.Nvram.Io

/-!
# Table-driven message codecs

`nvram/messages/message_codec.cpp` and the codecs of `proto.hpp`: a message type has a
table of field descriptors; encoding goes through the table, decoding through the fields
of the input.
-/

namespace Nvram

/-- Encoding and decoding of members of type `T`; decoding updates a value. -/
structure Codec (T : Type) where
  wireType : WireType
  encode : T → ProtoWriter → Option ProtoWriter
  decode : T → ProtoReader → Option (T × ProtoReader)

/-- A row of the descriptor table of the message type `S`. -/
structure FieldDescriptor (S : Type) where
  fieldNumber : Nat
  wireType : WireType
  encode : S → ProtoWriter → Option ProtoWriter
  decode : S → ProtoReader → Option (S × ProtoReader)

variable {S T U M : Type}

/-! ## Messages -/

/-- `MessageEncoderBase::EncodeData`: the fields of the table in order. -/
def encodeData (descriptors : List (FieldDescriptor S)) (object : S) (w : ProtoWriter) :
    Option ProtoWriter :=
  match descriptors with
  | [] => some w
  | d :: descriptors => do
    let w ← d.encode object { w with fieldNumber := d.fieldNumber }
    encodeData descriptors object w

def getSize (p : Platform) (descriptors : List (FieldDescriptor S)) (object : S) : Nat :=
  match encodeData descriptors object { stream := OutputStream.counting } with
  | some w => w.stream.bytesWritten p
  | none => 0

/-- `MessageEncoderBase::Encode`: the message with its length in front. -/
def encodeMessage (p : Platform) (descriptors : List (FieldDescriptor S)) (object : S)
    (w : ProtoWriter) : Option ProtoWriter := do
  let w ← w.writeLengthHeader p (getSize p descriptors object)
  encodeData descriptors object w

def findDescriptor (descriptors : List (FieldDescriptor S)) (fieldNumber : Nat)
    (wireType : Option WireType) : Option (FieldDescriptor S) :=
  descriptors.find? fun d => fieldNumber = d.fieldNumber ∧ wireType = some d.wireType

/-- One round of `MessageDecoderBase::DecodeData`. -/
def decodeField (p : Platform) (descriptors : List (FieldDescriptor S)) (object : S)
    (r : ProtoReader) : Option (S × ProtoReader) := do
  let r ← r.readWireTag p
  match findDescriptor descriptors r.fieldNumber r.wireType with
  | some d => d.decode object r
  | none =>
    -- an unknown field, or one with another wire type
    let r ← r.skipField
    some (object, r)

/-- The loop of `MessageDecoderBase::DecodeData`; every round reads at least one byte. -/
def decodeLoop (p : Platform) (descriptors : List (FieldDescriptor S)) :
    (fuel : Nat) → S → ProtoReader → Option (S × ProtoReader)
  | 0, _, _ => none
  | fuel + 1, object, r =>
    match r.stream.done with
    | (true, stream) => some (object, { r with stream := stream })
    | (false, stream) => do
      let (object, r) ← decodeField p descriptors object { r with stream := stream }
      decodeLoop p descriptors fuel object r

def decodeData (p : Platform) (descriptors : List (FieldDescriptor S)) (object : S)
    (r : ProtoReader) : Option (S × ProtoReader) :=
  decodeLoop p descriptors (r.stream.end_ - r.stream.pos + 1) object r

/-- `MessageDecoderBase::Decode`: a message in a length-delimited field. -/
def decodeMessage (p : Platform) (descriptors : List (FieldDescriptor S)) (object : S)
    (r : ProtoReader) : Option (S × ProtoReader) := do
  let nested : ProtoReader := { data := r.data, stream := r.stream.nest r.fieldSize }
  let (object, nested) ← decodeData p descriptors object nested
  let (done, stream) := nested.stream.done
  if done then some (object, { r with stream := stream.delegate }) else none

/-! ## Codecs -/

/-- `Codec` of a message type. -/
def messageCodec (p : Platform) (descriptors : List (FieldDescriptor S)) : Codec S where
  wireType := .kLengthDelimited
  encode := encodeMessage p descriptors
  decode := decodeMessage p descriptors

/-- `Codec<Blob>`. -/
def blobCodec (p : Platform) : Codec Blob where
  wireType := .kLengthDelimited
  encode blob w := w.writeLengthDelimited p blob
  decode _ r := if p.allocates r.fieldSize then r.readLengthDelimited r.fieldSize else none

/-- A type with conversions from and to `uint64_t`. -/
structure VarintCompatible (T : Type) where
  toRaw : T → Nat
  ofRaw : Nat → T

/-- `Codec` of a type that is written as a varint. -/
def varintCodec (p : Platform) (type : VarintCompatible T) : Codec T where
  wireType := .kVarint
  encode value w := w.writeVarint p (type.toRaw value)
  decode _ r := do
    let (raw, r) ← r.readVarint
    if type.toRaw (type.ofRaw raw) = raw then some (type.ofRaw raw, r) else none

def uint32Type : VarintCompatible UInt32 where
  toRaw := UInt32.toNat
  ofRaw := UInt32.ofNat

def uint64Type : VarintCompatible UInt64 where
  toRaw := UInt64.toNat
  ofRaw := UInt64.ofNat

def boolType : VarintCompatible Bool where
  toRaw b := if b then 1 else 0
  ofRaw raw := raw ≠ 0

/-- The loop of `Codec<Vector>::Encode`. -/
def encodeElements (c : Codec T) : List T → ProtoWriter → Option ProtoWriter
  | [], w => some w
  | element :: vector, w => do
    let w ← c.encode element w
    encodeElements c vector w

/-- `Codec<Vector>`: a field for every element; reading one appends to the vector. -/
def vectorCodec (c : Codec T) (default : T) : Codec (List T) where
  wireType := c.wireType
  encode := encodeElements c
  decode vector r := do
    let (element, r) ← c.decode default r
    some (vector ++ [element], r)

/-- `Codec<Optional>`. -/
def optionalCodec (c : Codec T) (default : T) : Codec (Option T) where
  wireType := c.wireType
  encode value w :=
    match value with
    | none => some w
    | some value => c.encode value w
  decode _ r := do
    let (value, r) ← c.decode default r
    some (some value, r)

/-! ## Descriptors -/

/-- `MakeField`: a member of the message. -/
def makeField (fieldNumber : Nat) (get : S → M) (set : S → M → S) (c : Codec M) :
    FieldDescriptor S where
  fieldNumber := fieldNumber
  wireType := c.wireType
  encode object w := c.encode (get object) w
  decode object r := do
    let (member, r) ← c.decode (get object) r
    some (set object member, r)

/-- `MakeOneOfField`: a member of a union in the message.  Only the active member is
written, and reading a member activates it. -/
def makeOneOfField (fieldNumber : Nat) (get : S → U) (set : S → U → S) (member : U → Option M)
    (activate : M → U) (default : M) (c : Codec M) : FieldDescriptor S where
  fieldNumber := fieldNumber
  wireType := c.wireType
  encode object w :=
    match member (get object) with
    | some m => c.encode m w
    | none => some w
  decode object r := do
    let (m, r) ← c.decode default r
    some (set object (activate m), r)

end Nvram
