import AlpsSystem.Camera.TagInfo
import AlpsSystem.Lib.Memory
import AlpsSystem.Lib.Traced

/-!
# Camera metadata buffers

The functions of `camera_metadata.c` that read a buffer, on a 64-bit machine.  A buffer is memory,
with offsets from the start of its header, so that whatever the header says is followed.

* `validateCameraMetadataStructure`, `getCameraMetadataEntry`, `findCameraMetadataEntry` — the
  functions, with the bytes they read.
-/

namespace Camera

/-- `ALIGN_TO`, for a power of two. -/
def alignTo (val alignment : Nat) : Nat :=
  (val + (alignment - 1)) % 2 ^ 64 / alignment * alignment

lemma alignTo_eight {val : Nat} (h : val < 2 ^ 64 - 8) :
    val ≤ alignTo val 8 ∧ alignTo val 8 < val + 8 ∧ alignTo val 8 % 8 = 0 := by
  unfold alignTo
  omega

/-! ## The layout -/

/-- The members of `struct camera_metadata` that are used. -/
inductive Field where
  | size
  | version
  | flags
  | entryCount
  | entryCapacity
  | entriesStart
  | dataCount
  | dataCapacity
  | dataStart
  | vendorId
  deriving DecidableEq, Repr

def Field.offset : Field → Nat
  | size => 0
  | version => 4
  | flags => 8
  | entryCount => 12
  | entryCapacity => 16
  | entriesStart => 20
  | dataCount => 24
  | dataCapacity => 28
  | dataStart => 32
  | vendorId => 40

def Field.width : Field → Nat
  | vendorId => 8
  | _ => 4

/-- `sizeof(camera_metadata_t)`. -/
def sizeofMetadata : Nat := 48

/-- `sizeof(camera_metadata_buffer_entry_t)`. -/
def sizeofEntry : Nat := 16

/-- The memory from the start of a buffer on. -/
abbrev CameraMetadata := Memory

/-- `camera_metadata_buffer_entry_t`. -/
structure BufferEntry where
  tag : Nat
  count : Nat
  /-- `data.value`. -/
  value : List UInt8
  type : Nat
  deriving DecidableEq, Repr

/-- `data.offset`. -/
def BufferEntry.offset (e : BufferEntry) : Nat := LittleEndian.decode e.value

def calculateCameraMetadataEntryDataSize (type dataCount : Nat) : Nat :=
  if type ≥ numTypes then 0
  else
    let dataBytes := dataCount * cameraMetadataTypeSize type % 2 ^ 64
    if dataBytes ≤ 4 then 0 else alignTo dataBytes 8

/-- The size of the data of an entry in the data section. -/
def BufferEntry.dataSize (e : BufferEntry) : Nat :=
  calculateCameraMetadataEntryDataSize e.type e.count

namespace CameraMetadata

def field (m : CameraMetadata) (f : Field) : Nat := m.load f.offset f.width

lemma field_lt (m : CameraMetadata) (f : Field) : m.field f < 256 ^ f.width :=
  m.load_lt f.offset f.width

def setField (m : CameraMetadata) (f : Field) (value : Nat) : CameraMetadata :=
  m.store f.offset f.width value

/-- `get_entries(metadata) + i`. -/
def entryOffset (m : CameraMetadata) (i : Nat) : Nat := m.field .entriesStart + sizeofEntry * i

def entry (m : CameraMetadata) (i : Nat) : BufferEntry :=
  { tag := m.load (m.entryOffset i) 4
    count := m.load (m.entryOffset i + 4) 4
    value := m.slice (m.entryOffset i + 8) 4
    type := (m (m.entryOffset i + 12)).toNat }

/-! ## Reading -/

def readField (m : CameraMetadata) (f : Field) : Traced Nat :=
  { value := m.field f, accesses := [⟨f.offset, f.width⟩] }

/-- An entry at an offset is read. -/
def readEntry (m : CameraMetadata) (i : Nat) : Traced BufferEntry := do
  let start ← m.readField .entriesStart
  { value := m.entry i, accesses := [⟨start + sizeofEntry * i, sizeofEntry⟩] }

/-- The tag of an entry is read. -/
def readTag (m : CameraMetadata) (i : Nat) : Traced Nat := do
  let start ← m.readField .entriesStart
  { value := (m.entry i).tag, accesses := [⟨start + sizeofEntry * i, 4⟩] }

end CameraMetadata

/-- What `validate_camera_metadata_structure` returns. -/
inductive ValidationStatus where
  | ok
  | error
  | shifted
  deriving DecidableEq, Repr

/-- `validate_and_calculate_camera_metadata_entry_data_size`. -/
def validateAndCalculateDataSize (type dataCount : Nat) : Option Nat :=
  if type ≥ numTypes then none
  else if dataCount ≠ 0 ∧ cameraMetadataTypeSize type > (2 ^ 64 - 1 - 8 + 1) / dataCount then none
  else
    let dataBytes := dataCount * cameraMetadataTypeSize type % 2 ^ 64
    some (if dataBytes ≤ 4 then 0 else alignTo dataBytes 8)

namespace CameraMetadata

variable (ops : VendorOps)

/-- The checks of an entry; `metadata` is the address of the buffer. -/
def validateEntry (metadata alignmentOffset : Nat) (m : CameraMetadata) (i : Nat) :
    Traced Bool := do
  let start ← m.readField .entriesStart
  let address := (metadata + start + sizeofEntry * i + alignmentOffset) % 2 ^ 64
  if address ≠ alignTo address 4 then return false
  let entry ← m.readEntry i
  if entry.type ≥ numTypes then return false
  let id ← m.readField .vendorId
  let tagType := getLocalCameraMetadataTagType ops entry.tag id
  if tagType.map MetadataType.toNat ≠ some entry.type ∧ entry.tag / 2 ^ 16 < vendorSection then
    return false
  match validateAndCalculateDataSize entry.type entry.count with
  | none => return false
  | some dataSize =>
    if dataSize ≠ 0 then
      let dataStart ← m.readField .dataStart
      let data := (metadata + dataStart + entry.offset + alignmentOffset) % 2 ^ 64
      if data ≠ alignTo data 8 then return false
      let dataCapacity ← m.readField .dataCapacity
      let dataEntryEnd := (entry.offset + dataSize) % 2 ^ 64
      return !(decide (dataEntryEnd < entry.offset) || decide (dataEntryEnd > dataCapacity))
    else return !(decide (entry.count = 0) && decide (entry.offset ≠ 0))

/-- The loop over the entries, from entry `i` on. -/
def validateEntries (metadata alignmentOffset : Nat) (m : CameraMetadata) :
    (remaining i : Nat) → Traced Bool
  | 0, _ => return true
  | remaining + 1, i => do
    if ← m.validateEntry ops metadata alignmentOffset i then
      validateEntries metadata alignmentOffset m remaining (i + 1)
    else return false

/-- Whether the buffer is larger than expected; `none` stands for `NULL`. -/
def exceedsExpected (m : CameraMetadata) : Option Nat → Traced Bool
  | none => return false
  | some expected => do
    let size ← m.readField .size
    return decide (size > expected)

/-- The checks of the header after those of the alignment. -/
def validateHeader (m : CameraMetadata) (expectedSize : Option Nat) : Traced Bool := do
  if ← m.exceedsExpected expectedSize then return false
  let entryCount ← m.readField .entryCount
  let entryCapacity ← m.readField .entryCapacity
  if entryCount > entryCapacity then return false
  let dataCount ← m.readField .dataCount
  let dataCapacity ← m.readField .dataCapacity
  if dataCount > dataCapacity then return false
  let entriesStart ← m.readField .entriesStart
  let dataStart ← m.readField .dataStart
  let entriesEnd := (entriesStart + entryCapacity) % 2 ^ 32
  if entriesEnd < entriesStart ∨ entriesEnd > dataStart then return false
  let size ← m.readField .size
  let dataEnd := (dataStart + dataCapacity) % 2 ^ 32
  return !(decide (dataEnd < dataStart) || decide (dataEnd > size))

def validateCameraMetadataStructure (metadata : Nat) (m : CameraMetadata)
    (expectedSize : Option Nat) : Traced ValidationStatus := do
  if metadata = 0 then return .error
  let alignmentOffset := (alignTo metadata 8 + 2 ^ 64 - metadata) % 2 ^ 64
  let address := (metadata + alignmentOffset) % 2 ^ 64
  -- the alignments of the header, of entries and of data
  if ¬ [4, 4, 8].all fun alignment => address == alignTo address alignment then return .error
  if ← m.validateHeader expectedSize then
    let entryCount ← m.readField .entryCount
    if ← m.validateEntries ops metadata alignmentOffset entryCount 0 then
      return if alignmentOffset = 0 then .ok else .shifted
    else return .error
  else return .error

end CameraMetadata

/-- `camera_metadata_entry_t`; `data.u8` is an offset in the buffer. -/
structure MetadataEntry where
  index : Nat
  tag : Nat
  type : Nat
  count : Nat
  data : Nat
  deriving DecidableEq, Repr

/-- `bsearch`: what it finds, and the elements that it compares. -/
structure BinarySearch where
  search : (n : Nat) → (Nat → Ordering) → Option Nat
  probes : (n : Nat) → (Nat → Ordering) → List Nat
  probes_lt : ∀ n cmp, ∀ i ∈ probes n cmp, i < n
  search_lt : ∀ n cmp i, search n cmp = some i → i < n

def flagSorted : Nat := 1

namespace CameraMetadata

/-- Where the values of an entry are. -/
def entryData (src : CameraMetadata) (index : Nat) (e : BufferEntry) : Traced Nat :=
  if e.count * cameraMetadataTypeSize e.type % 2 ^ 64 > 4 then do
    let dataStart ← src.readField .dataStart
    return dataStart + e.offset
  else return src.entryOffset index + 8

/-- `get_camera_metadata_entry`; `none` is `ERROR`. -/
def getCameraMetadataEntry (src : CameraMetadata) (index : Nat) :
    Traced (Option MetadataEntry) := do
  let entryCount ← src.readField .entryCount
  if index ≥ entryCount then return none
  let e ← src.readEntry index
  let data ← src.entryData index e
  return some { index := index, tag := e.tag, type := e.type, count := e.count, data := data }

/-- The linear search of `find_camera_metadata_entry`, from entry `i` on. -/
def searchTag (src : CameraMetadata) (tag : Nat) : (remaining i : Nat) → Traced (Option Nat)
  | 0, _ => return none
  | remaining + 1, i => do
    if (← src.readTag i) = tag then return some i else searchTag src tag remaining (i + 1)

/-- The binary search: the tag is compared with those of the probes. -/
def searchSorted (lib : BinarySearch) (src : CameraMetadata) (tag entryCount : Nat) :
    Traced (Option Nat) :=
  let compareTags := fun i => compare tag (src.entry i).tag
  { value := lib.search entryCount compareTags
    accesses := (lib.probes entryCount compareTags).flatMap fun i => (src.readTag i).accesses }

/-- The search of `find_camera_metadata_entry`. -/
def findIndex (lib : BinarySearch) (src : CameraMetadata) (tag : Nat) :
    Traced (Option Nat) := do
  let flags ← src.readField .flags
  let entryCount ← src.readField .entryCount
  if flags &&& flagSorted ≠ 0 then src.searchSorted lib tag entryCount
  else src.searchTag tag entryCount 0

/-- `find_camera_metadata_entry`; `none` is `NOT_FOUND`. -/
def findCameraMetadataEntry (lib : BinarySearch) (src : CameraMetadata) (tag : Nat) :
    Traced (Option MetadataEntry) := do
  match ← src.findIndex lib tag with
  | none => return none
  | some index => src.getCameraMetadataEntry index

end CameraMetadata

end Camera
