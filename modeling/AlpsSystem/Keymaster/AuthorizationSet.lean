import AlpsSystem.Lib.LittleEndian
import AlpsSystem.Lib.Runs

/-!
# The storage of authorization sets

`AuthorizationSet` of `keymaster/authorization_set.cpp` on a 64-bit machine: an array of
elements, and an array of bytes for those that are blobs.  The parameters that are given to an
operation are stored apart from the set.

* `pushBack`, `reinitialize`, `erase`, `deduplicate`, `union`, `difference` — the operations.
* `serialize`, `deserialize` — the wire format, in the byte order of the machine.
* `Op`, `AuthorizationSet.step` — every sequence of operations.
-/

namespace Keymaster.Storage

/-! ## Elements -/

/-- `keymaster_tag_type_t`, and the bits that are none of them. -/
inductive TagType where
  | invalid
  | enum
  | enumRep
  | uint
  | uintRep
  | ulong
  | ulongRep
  | date
  | bool
  | bignum
  | bytes
  | unknown
  deriving DecidableEq, Repr

/-- `keymaster_tag_get_type`: the four upper bits of the tag. -/
def tagType (tag : UInt32) : TagType :=
  match tag.toNat / 2 ^ 28 with
  | 0 => .invalid
  | 1 => .enum
  | 2 => .enumRep
  | 3 => .uint
  | 4 => .uintRep
  | 5 => .ulong
  | 6 => .date
  | 7 => .bool
  | 8 => .bignum
  | 9 => .bytes
  | 10 => .ulongRep
  | _ => .unknown

def isBlobTag (tag : UInt32) : Bool := tagType tag == .bytes || tagType tag == .bignum

/-- `KM_TAG_INVALID`. -/
def tagInvalid : UInt32 := 0

/-- `keymaster_key_param_t`; the type of the tag says which value counts. -/
structure Param where
  tag : UInt32
  /-- `enumerated` or `integer`. -/
  integer : UInt32 := 0
  /-- `long_integer` or `date_time`. -/
  longInteger : UInt64 := 0
  boolean : Bool := false
  blob : List UInt8 := []
  deriving DecidableEq, Repr

/-- An element of the set, with the place of its blob in `indirect_data_`. -/
structure Elem where
  tag : UInt32
  integer : UInt32 := 0
  longInteger : UInt64 := 0
  boolean : Bool := false
  /-- `blob.data - indirect_data_`. -/
  offset : Nat := 0
  dataLength : Nat := 0
  deriving DecidableEq, Repr

/-- `sizeof(keymaster_key_param_t)`. -/
def sizeofParam : Nat := 24

/-- No object in memory is as large as this. -/
def maxObjectSize : Nat := 2 ^ 62

def startingElemsCapacity : Nat := 8

def computeIndirectDataSize (elems : List Elem) : Nat :=
  (elems.map fun e => if isBlobTag e.tag then e.dataLength else 0).sum

/-- `ComputeIndirectDataSize` of parameters. -/
def paramsIndirectSize (params : List Param) : Nat :=
  (params.map fun p => if isBlobTag p.tag then p.blob.length else 0).sum

/-- `keymaster_key_param_set_t`, with all its data in memory. -/
structure ParamSet where
  params : List Param
  fits : params.length * sizeofParam + paramsIndirectSize params < maxObjectSize

/-- `keymaster_param_compare` and `qsort`, of other libraries. -/
structure Library where
  compare : Param → Param → Int
  qsort : (Elem → Elem → Int) → List Elem → List Elem
  qsort_perm : ∀ cmp elems, (qsort cmp elems).Perm elems

/-- `AuthorizationSet::Error`. -/
inductive SetError where
  | ok
  | allocationFailure
  | malformedData
  deriving DecidableEq, Repr

/-! ## Sets -/

structure AuthorizationSet where
  /-- The first `elems_size_` elements of `elems_`. -/
  elems : List Elem := []
  elemsCapacity : Nat := 0
  /-- The array that `indirect_data_` points to, as long as it was allocated. -/
  indirectData : List UInt8 := []
  indirectSize : Nat := 0
  indirectCapacity : Nat := 0
  error : SetError := .ok
  /-- Which of the next allocations succeed; all of them when the list is used up. -/
  allocs : List Bool := []
  /-- An operation has copied outside of an array. -/
  fault : Bool := false
  deriving DecidableEq, Repr

namespace AuthorizationSet

/-- `new (std::nothrow)`. -/
def allocate (s : AuthorizationSet) (size : Nat) : Bool × AuthorizationSet :=
  (s.allocs.headD true && decide (size < maxObjectSize), { s with allocs := s.allocs.tail })

/-- `FreeData`; clearing the arrays before that is a fault if a size is wrong, other than for
arrays that have not been allocated. -/
def freeData (s : AuthorizationSet) : AuthorizationSet :=
  { allocs := s.allocs
    fault := s.fault || decide (s.elemsCapacity < s.elems.length) ||
      (!s.indirectData.isEmpty && decide (s.indirectData.length < s.indirectSize)) }

def setInvalid (s : AuthorizationSet) (error : SetError) : AuthorizationSet :=
  { s.freeData with error := error }

def reserveElems (s : AuthorizationSet) (count : Nat) : Bool × AuthorizationSet :=
  if s.error ≠ .ok then (false, s)
  else if count > s.elemsCapacity then
    match s.allocate (count * sizeofParam) with
    | (false, s) => (false, s.setInvalid .allocationFailure)
    | (true, s) => (true, { s with
        elemsCapacity := count
        fault := s.fault || decide (s.elemsCapacity < s.elems.length) })
  else (true, s)

def reserveIndirect (s : AuthorizationSet) (length : Nat) : Bool × AuthorizationSet :=
  if s.error ≠ .ok then (false, s)
  else if length > s.indirectCapacity then
    match s.allocate length with
    | (false, s) => (false, s.setInvalid .allocationFailure)
    | (true, s) => (true, { s with
        indirectData := s.indirectData.take s.indirectSize ++
          List.replicate (length - s.indirectSize) 0
        indirectCapacity := length
        fault := s.fault || decide (s.indirectData.length < s.indirectSize) ||
          decide (length < s.indirectSize) })
  else (true, s)

/-- The element that stands for a parameter. -/
def elemOf (s : AuthorizationSet) (p : Param) : Elem :=
  { tag := p.tag, integer := p.integer, longInteger := p.longInteger, boolean := p.boolean
    offset := if isBlobTag p.tag then s.indirectSize else 0
    dataLength := if isBlobTag p.tag then p.blob.length else 0 }

/-- `memcpy` to the end of the indirect data. -/
def writeIndirect (s : AuthorizationSet) (data : List UInt8) : AuthorizationSet :=
  { s with
    indirectData := (s.indirectData.take s.indirectSize ++ data ++
      s.indirectData.drop (s.indirectSize + data.length)).take s.indirectData.length
    indirectSize := s.indirectSize + data.length
    fault := s.fault || decide (s.indirectData.length < s.indirectSize + data.length) }

/-- `elems_[elems_size_++] = elem`. -/
def storeElem (s : AuthorizationSet) (elem : Elem) : AuthorizationSet :=
  { s with
    elems := s.elems ++ [elem]
    fault := s.fault || decide (s.elemsCapacity ≤ s.elems.length) }

/-- A parameter is copied to the end of the arrays. -/
def appendParam (s : AuthorizationSet) (p : Param) : AuthorizationSet :=
  (if isBlobTag p.tag then s.writeIndirect p.blob else s).storeElem (s.elemOf p)

/-- `push_back` makes room for an element. -/
def growElems (s : AuthorizationSet) : Bool × AuthorizationSet :=
  if s.elems.length ≥ s.elemsCapacity then
    s.reserveElems (if s.elemsCapacity ≠ 0 then s.elemsCapacity * 2 % 2 ^ 64
      else startingElemsCapacity)
  else (true, s)

/-- `push_back` makes room for a blob. -/
def growIndirect (s : AuthorizationSet) (p : Param) : Bool × AuthorizationSet :=
  if isBlobTag p.tag &&
      decide ((s.indirectCapacity + 2 ^ 64 - s.indirectSize) % 2 ^ 64 < p.blob.length) then
    s.reserveIndirect (2 * (s.indirectCapacity + p.blob.length) % 2 ^ 64)
  else (true, s)

def pushBack (s : AuthorizationSet) (p : Param) : Bool × AuthorizationSet :=
  if s.error ≠ .ok then (false, s)
  else
    match s.growElems with
    | (false, s) => (false, s)
    | (true, s) =>
      match s.growIndirect p with
      | (false, s) => (false, s)
      | (true, s) => (true, s.appendParam p)

/-- The loop of `push_back` over a set of parameters. -/
def pushBackAll : List Param → AuthorizationSet → Bool × AuthorizationSet
  | [], s => (true, s)
  | p :: rest, s =>
    match s.pushBack p with
    | (false, s) => (false, s)
    | (true, s) => pushBackAll rest s

/-- `push_back` of a set of parameters. -/
def pushBackSet (s : AuthorizationSet) (set : List Param) : Bool × AuthorizationSet :=
  if s.error ≠ .ok then (false, s)
  else
    match s.reserveElems ((s.elems.length + set.length) % 2 ^ 64) with
    | (false, s) => (false, s)
    | (true, s) =>
      match s.reserveIndirect ((s.indirectSize + paramsIndirectSize set) % 2 ^ 64) with
      | (false, s) => (false, s)
      | (true, s) => pushBackAll set s

/-- `Reinitialize`; the elements are copied and then their blobs, by `CopyIndirectData`. -/
def reinitialize (s : AuthorizationSet) (set : List Param) : Bool × AuthorizationSet :=
  if set.isEmpty then (true, s.freeData)
  else
    match s.freeData.reserveElems set.length with
    | (false, s) => (false, s)
    | (true, s) =>
      match s.reserveIndirect (paramsIndirectSize set) with
      | (false, s) => (false, s)
      | (true, s) => (true, set.foldl appendParam s)

/-- What an element stands for. -/
def read (s : AuthorizationSet) (e : Elem) : Param :=
  { tag := e.tag, integer := e.integer, longInteger := e.longInteger, boolean := e.boolean
    blob := if isBlobTag e.tag then (s.indirectData.drop e.offset).take e.dataLength else [] }

def erase (s : AuthorizationSet) (index : Int) : Bool × AuthorizationSet :=
  if index < 0 ∨ index ≥ s.elems.length then (false, s)
  else (true, { s with elems := s.elems.eraseIdx index.toNat })

variable (lib : Library)

def sort (s : AuthorizationSet) : AuthorizationSet :=
  { s with elems := lib.qsort (fun a b => lib.compare (s.read a) (s.read b)) s.elems }

/-- The loop of `Deduplicate`: an element that equals the next one is marked as invalid. -/
def markDuplicates (equal : Elem → Elem → Bool) : List Elem → List Elem
  | [] => []
  | [e] => [e]
  | e :: next :: rest =>
    (if e.tag ≠ tagInvalid ∧ equal e next then { e with tag := tagInvalid } else e) ::
      markDuplicates equal (next :: rest)

/-- `Deduplicate`; the invalid elements are taken to be the first ones after the second sort. -/
def deduplicate (s : AuthorizationSet) : AuthorizationSet :=
  let s := s.sort lib
  let marked := markDuplicates (fun a b => lib.compare (s.read a) (s.read b) == 0) s.elems
  let invalidCount := marked.countP fun e => e.tag == tagInvalid
  if invalidCount = 0 then { s with elems := marked }
  else
    let s := sort lib { s with elems := marked }
    { s with elems := s.elems.drop invalidCount }

def union (s : AuthorizationSet) (set : List Param) : AuthorizationSet :=
  if set.isEmpty then s else (s.pushBackSet set).2.deduplicate lib

/-- The inner loop of `Difference`: the first element that equals the parameter is erased. -/
def eraseParam (s : AuthorizationSet) (p : Param) : AuthorizationSet :=
  if s.error ≠ .ok then s
  else
    match s.elems.findIdx? fun e => e.tag == p.tag && lib.compare (s.read e) p == 0 with
    | none => s
    | some i => { s with elems := s.elems.eraseIdx i }

def difference (s : AuthorizationSet) (set : List Param) : AuthorizationSet :=
  if set.isEmpty then s else set.foldl (eraseParam lib) (s.deduplicate lib)

/-! ## The wire format -/

/-- `copy_uint32_from_buf`, with the rest of the buffer. -/
def copyUint32 (buf : List UInt8) : Option (Nat × List UInt8) :=
  if 4 ≤ buf.length then some (LittleEndian.decode (buf.take 4), buf.drop 4) else none

/-- `copy_uint64_from_buf`. -/
def copyUint64 (buf : List UInt8) : Option (Nat × List UInt8) :=
  if 8 ≤ buf.length then some (LittleEndian.decode (buf.take 8), buf.drop 8) else none

/-- The static function `deserialize`; `indirectLength` is `indirect_end - indirect_base`. -/
def deserializeElem (indirectLength : Nat) (buf : List UInt8) : Option (Elem × List UInt8) :=
  match copyUint32 buf with
  | none => none
  | some (tag, buf) =>
    let elem : Elem := { tag := UInt32.ofNat tag }
    match tagType elem.tag with
    | .invalid | .unknown => none
    | .enum | .enumRep | .uint | .uintRep =>
      (copyUint32 buf).map fun (value, buf) => ({ elem with integer := UInt32.ofNat value }, buf)
    | .ulong | .ulongRep | .date =>
      (copyUint64 buf).map fun (value, buf) =>
        ({ elem with longInteger := UInt64.ofNat value }, buf)
    | .bool =>
      match buf with
      | [] => none
      | b :: buf => some ({ elem with boolean := b != 0 }, buf)
    | .bignum | .bytes =>
      match copyUint32 buf with
      | none => none
      | some (dataLength, buf) =>
        match copyUint32 buf with
        | none => none
        | some (offset, buf) =>
          if offset > indirectLength ∨ offset + dataLength > indirectLength then none
          else some ({ elem with offset := offset, dataLength := dataLength }, buf)

/-- The loop of `DeserializeElementsData`. -/
def deserializeElems (indirectLength : Nat) : (count : Nat) → List UInt8 → Option (List Elem)
  | 0, _ => some []
  | count + 1, buf =>
    match deserializeElem indirectLength buf with
    | none => none
    | some (elem, buf) => (deserializeElems indirectLength count buf).map (elem :: ·)

/-- `DeserializeIndirectData`, with the rest of the buffer. -/
def deserializeIndirectData (s : AuthorizationSet) (buf : List UInt8) :
    Option (List UInt8) × AuthorizationSet :=
  match copyUint32 buf with
  | none => (none, s.setInvalid .malformedData)
  | some (size, buf) =>
    let s := { s with indirectSize := size }
    if buf.length < size then (none, s.setInvalid .malformedData)
    else if size = 0 then (some buf, { s with indirectData := [] })
    else
      match s.allocate size with
      | (false, s) => (none, s.setInvalid .malformedData)
      | (true, s) => (some (buf.drop size), { s with indirectData := buf.take size })

def deserializeElementsData (s : AuthorizationSet) (buf : List UInt8) : Bool × AuthorizationSet :=
  match copyUint32 buf with
  | none => (false, s.setInvalid .malformedData)
  | some (elementsCount, buf) =>
    match copyUint32 buf with
    | none => (false, s.setInvalid .malformedData)
    | some (elementsSize, buf) =>
      if elementsSize > buf.length ∨ elementsCount * 4 > elementsSize then
        (false, s.setInvalid .malformedData)
      else
        match s.reserveElems elementsCount with
        | (false, s) => (false, s)
        | (true, s) =>
          match deserializeElems s.indirectSize elementsCount (buf.take elementsSize) with
          | none => (false, s.setInvalid .malformedData)
          | some elems => (true, { s with elems := elems })

def deserialize (s : AuthorizationSet) (buf : List UInt8) : Bool × AuthorizationSet :=
  match s.freeData.deserializeIndirectData buf with
  | (none, s) => (false, s)
  | (some buf, s) =>
    match s.deserializeElementsData buf with
    | (false, s) => (false, s)
    | (true, s) =>
      if s.indirectSize ≠ computeIndirectDataSize s.elems then
        (false, s.setInvalid .malformedData)
      else (true, s)

/-- A buffer that is written from its start: the position, and the bytes before it. -/
structure Writer where
  size : Nat
  pos : Nat := 0
  bytes : List UInt8 := []
  deriving DecidableEq, Repr

/-- `append_to_buf`. -/
def Writer.append (w : Writer) (data : List UInt8) : Writer :=
  if w.pos + data.length ≤ w.size then
    { w with pos := w.pos + data.length, bytes := w.bytes ++ data }
  else w

/-- `append_uint32_to_buf`. -/
def Writer.appendUint32 (w : Writer) (value : Nat) : Writer :=
  w.append (LittleEndian.encode 4 value)

/-- `append_uint64_to_buf`. -/
def Writer.appendUint64 (w : Writer) (value : Nat) : Writer :=
  w.append (LittleEndian.encode 8 value)

/-- A byte that is written if there is room; the position moves in any case. -/
def Writer.appendByte (w : Writer) (value : UInt8) : Writer :=
  { w with
    pos := w.pos + 1
    bytes := if w.pos < w.size then w.bytes ++ [value] else w.bytes }

/-- `serialized_size`. -/
def serializedSizeOf (e : Elem) : Nat :=
  match tagType e.tag with
  | .invalid | .unknown => 4
  | .enum | .enumRep | .uint | .uintRep => 8
  | .ulong | .ulongRep | .date => 12
  | .bool => 5
  | .bignum | .bytes => 12

/-- The static function `serialize`. -/
def serializeElem (w : Writer) (e : Elem) : Writer :=
  let w := w.appendUint32 e.tag.toNat
  match tagType e.tag with
  | .invalid | .unknown => w
  | .enum | .enumRep | .uint | .uintRep => w.appendUint32 e.integer.toNat
  | .ulong | .ulongRep | .date => w.appendUint64 e.longInteger.toNat
  | .bool => w.appendByte (if e.boolean then 1 else 0)
  | .bignum | .bytes => (w.appendUint32 e.dataLength).appendUint32 e.offset

def serializedSizeOfElements (s : AuthorizationSet) : Nat := (s.elems.map serializedSizeOf).sum

def serializedSize (s : AuthorizationSet) : Nat :=
  4 + s.indirectSize + 4 + 4 + s.serializedSizeOfElements

def serialize (s : AuthorizationSet) (w : Writer) : Writer :=
  let w := (w.appendUint32 s.indirectSize).append (s.indirectData.take s.indirectSize)
  let w := (w.appendUint32 s.elems.length).appendUint32 s.serializedSizeOfElements
  s.elems.foldl serializeElem w

end AuthorizationSet

/-! ## Runs -/

/-- The operations. -/
inductive Op where
  | pushBack (p : Param) (fits : p.blob.length < maxObjectSize)
  | pushBackSet (set : ParamSet)
  | reinitialize (set : ParamSet)
  | deserialize (buf : List UInt8)
  | erase (index : Int)
  | deduplicate
  | union (set : ParamSet)
  | difference (set : ParamSet)

def AuthorizationSet.step (lib : Library) (s : AuthorizationSet) : Op → AuthorizationSet
  | .pushBack p _ => (s.pushBack p).2
  | .pushBackSet set => (s.pushBackSet set.params).2
  | Op.reinitialize set => Prod.snd <| AuthorizationSet.reinitialize s set.params
  | .deserialize buf => (s.deserialize buf).2
  | .erase index => (s.erase index).2
  | .deduplicate => s.deduplicate lib
  | .union set => s.union lib set.params
  | .difference set => s.difference lib set.params

end Keymaster.Storage
