import AlpsSystem.Nvram.Manager
import AlpsSystem.Nvram.MessageCodec

/-!
# The messages of the NVRAM service

The descriptor tables of `nvram/messages/nvram_messages.cpp` and of
`nvram/core/persistence.cpp`, the functions that write and read requests and responses,
and those that write and read the objects kept in storage.

The responses of the manager model are what the commands compute; the ones here have the
types of the wire.
-/

namespace Nvram

namespace Messages

structure GetInfoResponse where
  totalSize : UInt64 := 0
  availableSize : UInt64 := 0
  maxSpaceSize : UInt64 := 0
  maxSpaces : UInt32 := 0
  spaceList : List UInt32 := []
  wipeDisabled : Bool := false
  deriving DecidableEq, Repr

structure GetSpaceInfoResponse where
  size : UInt64 := 0
  controls : List UInt32 := []
  readLocked : Bool := false
  writeLocked : Bool := false
  deriving DecidableEq, Repr

/-- `RequestUnion`; the requests without members carry nothing. -/
inductive RequestUnion where
  | getInfo
  | createSpace (r : CreateSpaceRequest)
  | getSpaceInfo (index : UInt32)
  | deleteSpace (r : SpaceRequest)
  | disableCreate
  | writeSpace (r : WriteSpaceRequest)
  | readSpace (r : SpaceRequest)
  | lockSpaceWrite (r : SpaceRequest)
  | lockSpaceRead (r : SpaceRequest)
  | wipeStorage
  | disableWipe
  deriving DecidableEq, Repr

/-- `Request`, as it is constructed by default. -/
structure Request where
  payload : RequestUnion := .getInfo
  deriving DecidableEq, Repr

inductive ResponseUnion where
  | getInfo (r : GetInfoResponse)
  | createSpace
  | getSpaceInfo (r : GetSpaceInfoResponse)
  | deleteSpace
  | disableCreate
  | writeSpace
  | readSpace (buffer : Blob)
  | lockSpaceWrite
  | lockSpaceRead
  | wipeStorage
  | disableWipe
  deriving DecidableEq, Repr

/-- `Response`, as it is constructed by default. -/
structure Response where
  result : UInt32 := 0
  payload : ResponseUnion := .getInfo {}
  deriving DecidableEq, Repr

/-! ## Descriptor tables -/

section Tables

variable (p : Platform)

abbrev u32Field : Codec UInt32 := varintCodec p uint32Type

abbrev u64Field : Codec UInt64 := varintCodec p uint64Type

abbrev boolField : Codec Bool := varintCodec p boolType

abbrev u32ListField : Codec (List UInt32) := vectorCodec (u32Field p) 0

/-- The table of the requests and responses without members. -/
def emptyFields : List (FieldDescriptor Unit) := []

def getInfoResponseFields : List (FieldDescriptor GetInfoResponse) :=
  [makeField 1 (·.totalSize) (fun x m => { x with totalSize := m }) (u64Field p),
   makeField 2 (·.availableSize) (fun x m => { x with availableSize := m }) (u64Field p),
   makeField 3 (·.maxSpaces) (fun x m => { x with maxSpaces := m }) (u32Field p),
   makeField 4 (·.spaceList) (fun x m => { x with spaceList := m }) (u32ListField p),
   makeField 5 (·.maxSpaceSize) (fun x m => { x with maxSpaceSize := m }) (u64Field p),
   makeField 6 (·.wipeDisabled) (fun x m => { x with wipeDisabled := m }) (boolField p)]

def createSpaceRequestFields : List (FieldDescriptor CreateSpaceRequest) :=
  [makeField 1 (·.index) (fun x m => { x with index := m }) (u32Field p),
   makeField 2 (·.size) (fun x m => { x with size := m }) (u64Field p),
   makeField 3 (·.controls) (fun x m => { x with controls := m }) (u32ListField p),
   makeField 4 (·.authorizationValue) (fun x m => { x with authorizationValue := m }) (blobCodec p)]

/-- `GetSpaceInfoRequest`, which has an index only. -/
def getSpaceInfoRequestFields : List (FieldDescriptor UInt32) :=
  [makeField 1 id (fun _ m => m) (u32Field p)]

def getSpaceInfoResponseFields : List (FieldDescriptor GetSpaceInfoResponse) :=
  [makeField 1 (·.size) (fun x m => { x with size := m }) (u64Field p),
   makeField 2 (·.controls) (fun x m => { x with controls := m }) (u32ListField p),
   makeField 3 (·.readLocked) (fun x m => { x with readLocked := m }) (boolField p),
   makeField 4 (·.writeLocked) (fun x m => { x with writeLocked := m }) (boolField p)]

/-- `DeleteSpaceRequest`, `ReadSpaceRequest`, `LockSpaceWriteRequest` and
`LockSpaceReadRequest`. -/
def spaceRequestFields : List (FieldDescriptor SpaceRequest) :=
  [makeField 1 (·.index) (fun x m => { x with index := m }) (u32Field p),
   makeField 2 (·.authorizationValue) (fun x m => { x with authorizationValue := m }) (blobCodec p)]

def writeSpaceRequestFields : List (FieldDescriptor WriteSpaceRequest) :=
  [makeField 1 (·.index) (fun x m => { x with index := m }) (u32Field p),
   makeField 2 (·.buffer) (fun x m => { x with buffer := m }) (blobCodec p),
   makeField 3 (·.authorizationValue) (fun x m => { x with authorizationValue := m }) (blobCodec p)]

/-- `ReadSpaceResponse`, which has a buffer only. -/
def readSpaceResponseFields : List (FieldDescriptor Blob) :=
  [makeField 1 id (fun _ m => m) (blobCodec p)]

/-- A row for a command of `Request`. -/
def requestField {M : Type} (fieldNumber : Nat) (member : RequestUnion → Option M)
    (activate : M → RequestUnion) (default : M) (fields : List (FieldDescriptor M)) :
    FieldDescriptor Request :=
  makeOneOfField fieldNumber Request.payload (fun x u => { x with payload := u }) member activate
    default (messageCodec p fields)

/-- A command without members is there or not. -/
def RequestUnion.bare (u : RequestUnion) (x : RequestUnion) : Option Unit :=
  if x = u then some () else none

/-- The value-initialized members of the union. -/
def CreateSpaceRequest.blank : CreateSpaceRequest :=
  { index := 0, size := 0, controls := [], authorizationValue := [] }

def SpaceRequest.blank : SpaceRequest := { index := 0 }

def WriteSpaceRequest.blank : WriteSpaceRequest :=
  { index := 0, buffer := [], authorizationValue := [] }

def requestFields : List (FieldDescriptor Request) :=
  [requestField p 1 (RequestUnion.bare .getInfo) (fun _ => .getInfo) () emptyFields,
   requestField p 2 (fun | .createSpace r => some r | _ => none) .createSpace
     CreateSpaceRequest.blank (createSpaceRequestFields p),
   requestField p 3 (fun | .getSpaceInfo i => some i | _ => none) .getSpaceInfo 0
     (getSpaceInfoRequestFields p),
   requestField p 4 (fun | .deleteSpace r => some r | _ => none) .deleteSpace SpaceRequest.blank
     (spaceRequestFields p),
   requestField p 5 (RequestUnion.bare .disableCreate) (fun _ => .disableCreate) () emptyFields,
   requestField p 6 (fun | .writeSpace r => some r | _ => none) .writeSpace WriteSpaceRequest.blank
     (writeSpaceRequestFields p),
   requestField p 7 (fun | .readSpace r => some r | _ => none) .readSpace SpaceRequest.blank
     (spaceRequestFields p),
   requestField p 8 (fun | .lockSpaceWrite r => some r | _ => none) .lockSpaceWrite
     SpaceRequest.blank (spaceRequestFields p),
   requestField p 9 (fun | .lockSpaceRead r => some r | _ => none) .lockSpaceRead SpaceRequest.blank
     (spaceRequestFields p),
   requestField p 10 (RequestUnion.bare .wipeStorage) (fun _ => .wipeStorage) () emptyFields,
   requestField p 11 (RequestUnion.bare .disableWipe) (fun _ => .disableWipe) () emptyFields]

/-- A row for a command of `Response`. -/
def responseField {M : Type} (fieldNumber : Nat) (member : ResponseUnion → Option M)
    (activate : M → ResponseUnion) (default : M) (fields : List (FieldDescriptor M)) :
    FieldDescriptor Response :=
  makeOneOfField fieldNumber Response.payload (fun x u => { x with payload := u }) member activate
    default (messageCodec p fields)

def ResponseUnion.bare (u : ResponseUnion) (x : ResponseUnion) : Option Unit :=
  if x = u then some () else none

def responseFields : List (FieldDescriptor Response) :=
  [makeField 1 (·.result) (fun x m => { x with result := m }) (u32Field p),
   responseField p 2 (fun | .getInfo r => some r | _ => none) .getInfo {}
     (getInfoResponseFields p),
   responseField p 3 (ResponseUnion.bare .createSpace) (fun _ => .createSpace) () emptyFields,
   responseField p 4 (fun | .getSpaceInfo r => some r | _ => none) .getSpaceInfo {}
     (getSpaceInfoResponseFields p),
   responseField p 5 (ResponseUnion.bare .deleteSpace) (fun _ => .deleteSpace) () emptyFields,
   responseField p 6 (ResponseUnion.bare .disableCreate) (fun _ => .disableCreate) () emptyFields,
   responseField p 7 (ResponseUnion.bare .writeSpace) (fun _ => .writeSpace) () emptyFields,
   responseField p 8 (fun | .readSpace b => some b | _ => none) .readSpace []
     (readSpaceResponseFields p),
   responseField p 9 (ResponseUnion.bare .lockSpaceWrite) (fun _ => .lockSpaceWrite) ()
     emptyFields,
   responseField p 10 (ResponseUnion.bare .lockSpaceRead) (fun _ => .lockSpaceRead) () emptyFields,
   responseField p 11 (ResponseUnion.bare .wipeStorage) (fun _ => .wipeStorage) () emptyFields,
   responseField p 12 (ResponseUnion.bare .disableWipe) (fun _ => .disableWipe) () emptyFields]

def nvramHeaderFields : List (FieldDescriptor NvramHeader) :=
  [makeField 1 (·.version) (fun x m => { x with version := m }) (u32Field p),
   makeField 2 (·.flags) (fun x m => { x with flags := m }) (u32Field p),
   makeField 3 (·.allocatedIndices) (fun x m => { x with allocatedIndices := m }) (u32ListField p),
   makeField 4 (·.provisionalIndex) (fun x m => { x with provisionalIndex := m })
     (optionalCodec (u32Field p) 0)]

def nvramSpaceFields : List (FieldDescriptor NvramSpace) :=
  [makeField 1 (·.flags) (fun x m => { x with flags := m }) (u32Field p),
   makeField 2 (·.controls) (fun x m => { x with controls := m }) (u32Field p),
   makeField 3 (·.authorizationValue) (fun x m => { x with authorizationValue := m }) (blobCodec p),
   makeField 4 (·.contents) (fun x m => { x with contents := m }) (blobCodec p)]

end Tables

/-! ## Requests and responses -/

section Functions

variable {S : Type} (p : Platform)

/-- `Encode` to a blob, which may have had something in it. -/
def encode (fields : List (FieldDescriptor S)) (message : S) (blob : Blob) : Option Blob := do
  let w ← encodeData fields message { stream := { sink := .blob, capacity := blob.length } }
  w.stream.truncate p

/-- `Encode` to a buffer of `size` bytes: the bytes written. -/
def encodeToBuffer (fields : List (FieldDescriptor S)) (message : S) (size : Nat) :
    Option Blob := do
  let w ← encodeData fields message { stream := { sink := .array, capacity := size } }
  some w.stream.written

/-- `Decode` of the whole data into `message`. -/
def decode (fields : List (FieldDescriptor S)) (data : Blob) (message : S) : Option S := do
  let (message, r) ← decodeData p fields message { data := data, stream := .base 0 data.length }
  if r.stream.done.1 then some message else none

/-! ## Objects in storage -/

def kHeaderMagic : Nat := 0x4e5648

def kSpaceMagic : Nat := 0x4e5653

/-- `EncodeObject`; `none` stands for `kStorageError`. -/
def encodeObject (magic : Nat) (fields : List (FieldDescriptor S)) (object : S) (blob : Blob) :
    Option Blob := do
  let w ← encodeMessage p fields object
    { stream := { sink := .blob, capacity := blob.length }, fieldNumber := magic }
  w.stream.truncate p

/-- `DecodeObject`; `none` stands for `kStorageError`. -/
def decodeObject (magic : Nat) (fields : List (FieldDescriptor S)) (blob : Blob) (object : S) :
    Option S := do
  let r ← ProtoReader.readWireTag p { data := blob, stream := .base 0 blob.length }
  if r.fieldNumber ≠ magic ∨ r.wireType ≠ some .kLengthDelimited then none
  else
    let (object, _) ← decodeMessage p fields object r
    some object

end Functions

end Messages

end Nvram
