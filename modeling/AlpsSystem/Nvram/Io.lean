import AlpsSystem.Nvram.Storage

/-!
# Streams and the protobuf wire format

`nvram/messages/io.cpp`: the input streams with their windows, the output streams with
their buffers, varints, and the readers and writers of wire tags and fields.

Pointers into the data that is read are offsets.  `NVRAM_CHECK` aborts the process; a
call that aborts has no result here, as one that returns false.

* `ProtoReader`, `ProtoWriter` — the two ends of the wire format.
-/

namespace Nvram

/-- What the machine provides: the width of `size_t`, and the size of the largest blob
that can be allocated, which leaves room to double it. -/
structure Platform where
  sizeBits : Nat
  maxBlob : Nat
  bits_le : sizeBits ≤ 64
  double_lt : 2 * maxBlob < 2 ^ sizeBits

/-- Conversion to `size_t`. -/
def Platform.size (p : Platform) (n : Nat) : Nat := n % 2 ^ p.sizeBits

/-- `Blob::Resize`, as far as it can fail. -/
def Platform.allocates (p : Platform) (size : Nat) : Bool := size ≤ p.maxBlob

/-! ## Input streams -/

/-- `InputStreamBuffer` and `NestedInputStreamBuffer`, with the members `pos_`, `end_`,
`delegate_` and `remaining_`. -/
inductive InputStream where
  | base (pos end_ : Nat)
  | nested (delegate : InputStream) (pos end_ remaining : Nat)
  deriving DecidableEq, Repr

namespace InputStream

def pos : InputStream → Nat
  | .base pos _ => pos
  | .nested _ pos _ _ => pos

def end_ : InputStream → Nat
  | .base _ end_ => end_
  | .nested _ _ end_ _ => end_

def setPos (s : InputStream) (pos : Nat) : InputStream :=
  match s with
  | .base _ end_ => .base pos end_
  | .nested delegate _ end_ remaining => .nested delegate pos end_ remaining

def clampEnd (delegate : InputStream) (size : Nat) : Nat :=
  if size < delegate.end_ - delegate.pos then delegate.pos + size else delegate.end_

/-- The constructor of `NestedInputStreamBuffer`. -/
def nest (delegate : InputStream) (size : Nat) : InputStream :=
  .nested delegate delegate.pos (clampEnd delegate size) size

/-- The stream a nested one was made from. -/
def delegate : InputStream → InputStream
  | .base pos end_ => .base pos end_
  | .nested delegate _ _ _ => delegate

/-- The two implementations of `Advance`, with the status they return. -/
def advance : InputStream → Bool × InputStream
  | .base pos end_ => (false, .base pos end_)
  | .nested delegate pos end_ remaining =>
    let left := remaining - (end_ - delegate.pos)
    if left = 0 then (false, .nested (delegate.setPos end_) pos end_ left)
    else
      let (status, delegate) := delegate.advance
      (status, .nested delegate delegate.pos (clampEnd delegate left) left)

def done (s : InputStream) : Bool × InputStream :=
  if s.pos < s.end_ then (false, s)
  else
    let (status, s) := s.advance
    (!status, s)

/-- The `size` bytes at `pos_`. -/
def peek (s : InputStream) (data : Blob) (size : Nat) : Blob := (data.drop s.pos).take size

def readByte (data : Blob) (s : InputStream) : Option (UInt8 × InputStream) :=
  let take (s : InputStream) : Option (UInt8 × InputStream) :=
    some (data.getD s.pos 0, s.setPos (s.pos + 1))
  if s.pos < s.end_ then take s
  else
    match s.advance with
    | (false, _) => none
    | (true, s) => if s.pos < s.end_ then take s else none

/-- The loop of `Read`; `fuel` bounds its rounds, each of which but the first copies
something. -/
def readLoop (data : Blob) : (fuel : Nat) → InputStream → (size : Nat) → (buffer : Blob) →
    Option (Blob × InputStream)
  | 0, _, _, _ => none
  | fuel + 1, s, size, buffer =>
    let available := s.end_ - s.pos
    if available < size then
      match (s.setPos s.end_).advance with
      | (false, _) => none
      | (true, s') =>
        if s'.pos < s'.end_ then
          readLoop data fuel s' (size - available) (buffer ++ s.peek data available)
        else none
    else some (buffer ++ s.peek data size, s.setPos (s.pos + size))

def read (data : Blob) (s : InputStream) (size : Nat) : Option (Blob × InputStream) :=
  if s.pos ≤ s.end_ then readLoop data (size + 2) s size [] else none

/-- The loop of `Skip`. -/
def skipLoop : (fuel : Nat) → InputStream → (size : Nat) → Option InputStream
  | 0, _, _ => none
  | fuel + 1, s, size =>
    let available := s.end_ - s.pos
    if available < size then
      match (s.setPos s.end_).advance with
      | (false, _) => none
      | (true, s') => if s'.pos < s'.end_ then skipLoop fuel s' (size - available) else none
    else some (s.setPos (s.pos + size))

def skip (s : InputStream) (size : Nat) : Option InputStream :=
  if s.pos ≤ s.end_ then skipLoop (size + 2) s size else none

end InputStream

/-! ## Output streams -/

/-- What an output stream does when its buffer is full: `ArrayOutputStreamBuffer`,
`CountingOutputStreamBuffer` with the bytes written before the last `Advance`, and
`BlobOutputStreamBuffer`. -/
inductive Sink where
  | array
  | counting (bytesWritten : Nat)
  | blob
  deriving DecidableEq, Repr

/-- An `OutputStreamBuffer`: what stands in the buffer before `pos_`, and its size. -/
structure OutputStream where
  sink : Sink
  written : Blob := []
  capacity : Nat
  deriving DecidableEq, Repr

/-- The size of the scratch buffer that is filled over and over to count. -/
def kScratchSpaceSize : Nat := 256

namespace OutputStream

def counting : OutputStream := { sink := .counting 0, capacity := kScratchSpaceSize }

def bytesWritten (p : Platform) (s : OutputStream) : Nat :=
  match s.sink with
  | .counting n => p.size (n + s.written.length)
  | _ => p.size s.written.length

/-- The implementations of `Advance`, with the status they return. -/
def advance (p : Platform) (s : OutputStream) : Bool × OutputStream :=
  match s.sink with
  | .array => (false, s)
  | .counting n =>
    (true, { sink := .counting (p.size (n + s.written.length)), capacity := kScratchSpaceSize })
  | .blob =>
    let size := max (p.size (s.capacity * 2)) 32
    if p.allocates size then (true, { s with capacity := size }) else (false, s)

/-- Put `data` at `pos_`. -/
def put (s : OutputStream) (data : Blob) : OutputStream := { s with written := s.written ++ data }

def writeByte (p : Platform) (s : OutputStream) (byte : UInt8) : Option OutputStream :=
  if s.written.length < s.capacity then some (s.put [byte])
  else
    match s.advance p with
    | (false, _) => none
    | (true, s) => if s.written.length < s.capacity then some (s.put [byte]) else none

/-- The loop of `Write`; `fuel` bounds its rounds, each of which but the first copies
something. -/
def writeLoop (p : Platform) : (fuel : Nat) → OutputStream → (data : Blob) → Option OutputStream
  | 0, _, _ => none
  | fuel + 1, s, data =>
    let available := s.capacity - s.written.length
    if available < data.length then
      match (s.put (data.take available)).advance p with
      | (false, _) => none
      | (true, s) =>
        if s.written.length < s.capacity then writeLoop p fuel s (data.drop available) else none
    else some (s.put data)

def write (p : Platform) (s : OutputStream) (data : Blob) : Option OutputStream :=
  if s.written.length ≤ s.capacity then writeLoop p (data.length + 2) s data else none

/-- `BlobOutputStreamBuffer::Truncate`: the blob that is left. -/
def truncate (p : Platform) (s : OutputStream) : Option Blob :=
  if p.allocates s.written.length then some s.written else none

end OutputStream

/-! ## Varints -/

/-- The modulus of `uint64_t`. -/
def u64 : Nat := 2 ^ 64

/-- The loop of `EncodeVarint`; a `uint64_t` takes at most ten rounds. -/
def encodeVarintLoop (p : Platform) : (rounds : Nat) → OutputStream → (value : Nat) →
    Option OutputStream
  | 0, _, _ => none
  | rounds + 1, s, value => do
    let byte := (value &&& 0x7f) ||| (if value >>> 7 = 0 then 0x00 else 0x80)
    let s ← s.writeByte p (UInt8.ofNat byte)
    if value >>> 7 ≠ 0 then encodeVarintLoop p rounds s (value >>> 7) else some s

def kMaxVarintBytes : Nat := 10

def encodeVarint (p : Platform) (s : OutputStream) (value : Nat) : Option OutputStream :=
  encodeVarintLoop p kMaxVarintBytes s value

/-- The loop of `DecodeVarint`, from round `i` on. -/
def decodeVarintLoop (data : Blob) : (rounds i value : Nat) → InputStream →
    Option (Nat × InputStream)
  | 0, _, _, _ => none
  | rounds + 1, i, value, s => do
    let (byte, s) ← s.readByte data
    let value := value ||| ((byte.toNat &&& 0x7f) <<< (i * 7)) % u64
    if byte.toNat &&& 0x80 = 0 then some (value, s)
    else decodeVarintLoop data rounds (i + 1) value s

def decodeVarint (data : Blob) (s : InputStream) : Option (Nat × InputStream) :=
  decodeVarintLoop data kMaxVarintBytes 0 0 s

/-! ## Fields -/

/-- Protobuf wire types. -/
inductive WireType where
  | kVarint
  | kFixed64
  | kLengthDelimited
  | kStartGroup
  | kEndGroup
  | kFixed32
  deriving DecidableEq, Repr

namespace WireType

def code : WireType → Nat
  | .kVarint => 0
  | .kFixed64 => 1
  | .kLengthDelimited => 2
  | .kStartGroup => 3
  | .kEndGroup => 4
  | .kFixed32 => 5

/-- The wire type with a code; two of the eight codes of a tag have none. -/
def ofCode : Nat → Option WireType
  | 0 => some .kVarint
  | 1 => some .kFixed64
  | 2 => some .kLengthDelimited
  | 3 => some .kStartGroup
  | 4 => some .kEndGroup
  | 5 => some .kFixed32
  | _ => none

end WireType

/-- `ProtoReader`, with the data its stream reads from.  A wire type that is none of the
enumeration, as before the first tag, is `none`. -/
structure ProtoReader where
  data : Blob
  stream : InputStream
  wireType : Option WireType := none
  fieldNumber : Nat := 0
  fieldSize : Nat := 0
  deriving DecidableEq, Repr

namespace ProtoReader

def readWireTag (p : Platform) (r : ProtoReader) : Option ProtoReader := do
  let (wireTag, stream) ← decodeVarint r.data r.stream
  let r := { r with
    stream := stream, wireType := WireType.ofCode (wireTag &&& 0x7), fieldNumber := wireTag >>> 3 }
  match r.wireType with
  | some .kLengthDelimited =>
    let (size, stream) ← decodeVarint r.data r.stream
    if p.size size ≠ size then none
    else some { r with stream := stream, fieldSize := p.size size }
  | some .kFixed64 => some { r with fieldSize := 8 }
  | some .kFixed32 => some { r with fieldSize := 4 }
  | some .kVarint => some { r with fieldSize := 0 }
  | some .kStartGroup => some { r with fieldSize := 0 }
  | some .kEndGroup => some { r with fieldSize := 0 }
  -- no case of the switch: the size of the field before stays
  | none => some r

def readVarint (r : ProtoReader) : Option (Nat × ProtoReader) :=
  if r.wireType = some .kVarint then do
    let (value, stream) ← decodeVarint r.data r.stream
    some (value, { r with stream := stream })
  else none

def readLengthDelimited (r : ProtoReader) (size : Nat) : Option (Blob × ProtoReader) :=
  if r.wireType = some .kLengthDelimited then do
    let (bytes, stream) ← r.stream.read r.data size
    some (bytes, { r with stream := stream })
  else none

def skipField (r : ProtoReader) : Option ProtoReader :=
  if r.wireType = some .kVarint then do
    let (_, stream) ← decodeVarint r.data r.stream
    some { r with stream := stream }
  else if 0 < r.fieldSize then do
    let stream ← r.stream.skip r.fieldSize
    some { r with stream := stream }
  else some r

end ProtoReader

structure ProtoWriter where
  stream : OutputStream
  fieldNumber : Nat := 0
  deriving DecidableEq, Repr

namespace ProtoWriter

/-- The number a wire tag is written as. -/
def wireTag (fieldNumber : Nat) (wireType : WireType) : Nat :=
  (fieldNumber <<< 3) % u64 ||| wireType.code

def writeWireTag (p : Platform) (w : ProtoWriter) (wireType : WireType) : Option ProtoWriter := do
  let stream ← encodeVarint p w.stream (wireTag w.fieldNumber wireType)
  some { w with stream := stream }

def writeVarint (p : Platform) (w : ProtoWriter) (value : Nat) : Option ProtoWriter := do
  let w ← w.writeWireTag p .kVarint
  let stream ← encodeVarint p w.stream value
  some { w with stream := stream }

def writeLengthHeader (p : Platform) (w : ProtoWriter) (size : Nat) : Option ProtoWriter := do
  let w ← w.writeWireTag p .kLengthDelimited
  let stream ← encodeVarint p w.stream size
  some { w with stream := stream }

def writeLengthDelimited (p : Platform) (w : ProtoWriter) (data : Blob) : Option ProtoWriter := do
  let w ← w.writeWireTag p .kLengthDelimited
  let stream ← encodeVarint p w.stream (p.size data.length)
  let stream ← stream.write p data
  some { w with stream := stream }

end ProtoWriter

end Nvram
