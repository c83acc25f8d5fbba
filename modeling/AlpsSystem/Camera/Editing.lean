import AlpsSystem.Camera.Metadata

/-!
# Writing camera metadata

The functions of `camera_metadata.c` that write a buffer, without their assertions.
-/

namespace Camera

/-! ## New buffers -/

def calculateCameraMetadataSize (entryCount dataCount : Nat) : Nat :=
  let memoryNeeded := alignTo sizeofMetadata 4
  let memoryNeeded := alignTo ((memoryNeeded + sizeofEntry * entryCount) % 2 ^ 64) 8
  alignTo ((memoryNeeded + dataCount) % 2 ^ 64) 8

def currentMetadataVersion : Nat := 1

/-- `place_camera_metadata`; the numbers are cut to the size of their fields. -/
def placeCameraMetadata (dst : Memory) (dstSize entryCapacity dataCapacity : Nat) :
    Option CameraMetadata :=
  let memoryNeeded := calculateCameraMetadataSize entryCapacity dataCapacity
  if memoryNeeded > dstSize then none
  else
    let m : CameraMetadata := dst
    let m := m.setField .version currentMetadataVersion
    let m := m.setField .flags 0
    let m := m.setField .entryCount 0
    let m := m.setField .entryCapacity entryCapacity
    let m := m.setField .entriesStart (alignTo sizeofMetadata 4)
    let m := m.setField .dataCount 0
    let m := m.setField .dataCapacity dataCapacity
    let m := m.setField .size memoryNeeded
    let dataUnaligned := m.entryOffset (m.field .entryCapacity)
    let m := m.setField .dataStart (alignTo dataUnaligned 8)
    some (m.setField .vendorId invalidVendorId)

/-- `allocate_camera_metadata`; `memory` is what `malloc` returns, `none` for `NULL`. -/
def allocateCameraMetadata (entryCapacity dataCapacity : Nat) (memory : Option Memory) :
    Option CameraMetadata :=
  memory.bind fun dst => placeCameraMetadata dst
    (calculateCameraMetadataSize entryCapacity dataCapacity) entryCapacity dataCapacity

/-- `flags & ~FLAG_SORTED`. -/
def clearSorted (flags : Nat) : Nat := flags &&& (2 ^ 32 - 1 - flagSorted)

namespace CameraMetadata

/-- `data.offset` of an entry is assigned. -/
def setOffset (m : CameraMetadata) (i value : Nat) : CameraMetadata :=
  m.store (m.entryOffset i + 8) 4 value

/-- `data.offset` of an entry is assigned if there is a new value for it. -/
def adjustOffset (m : CameraMetadata) (newOffset : BufferEntry → Option Nat) (i : Nat) :
    CameraMetadata :=
  match newOffset (m.entry i) with
  | some value => m.setOffset i value
  | none => m

/-- A loop over `count` entries that assigns `data.offset` of some of them. -/
def adjustOffsets (m : CameraMetadata) (start count : Nat) (newOffset : BufferEntry → Option Nat) :
    CameraMetadata :=
  (List.range count).foldl (fun m i => adjustOffset m newOffset (start + i)) m

/-! ## Adding and appending -/

/-- A new entry, at an offset, that has no data yet. -/
def initEntry (m : CameraMetadata) (entry tag type dataCount : Nat) : CameraMetadata :=
  let m : CameraMetadata := m.copy entry (fun _ => 0) 0 sizeofEntry
  let m : CameraMetadata := m.store entry 4 tag
  let m : CameraMetadata := m.store (entry + 12) 1 type
  m.store (entry + 4) 4 dataCount

/-- The values of a new entry are copied into the entry, or to the end of the data section. -/
def addPayload (m : CameraMetadata) (entry : Nat) (data : Memory) (dataBytes payloadBytes : Nat) :
    CameraMetadata :=
  if dataBytes = 0 then m.copy (entry + 8) data 0 payloadBytes
  else
    let m : CameraMetadata := m.store (entry + 8) 4 (m.field .dataCount)
    let m : CameraMetadata :=
      m.copy (m.field .dataStart + m.load (entry + 8) 4) data 0 payloadBytes
    m.setField .dataCount (m.field .dataCount + dataBytes)

/-- `add_camera_metadata_entry_raw`; `data` is the memory that it points to. -/
def addCameraMetadataEntryRaw (dst : CameraMetadata) (tag type : Nat) (data : Option Memory)
    (dataCount : Nat) : Bool × CameraMetadata :=
  let dataBytes := calculateCameraMetadataEntryDataSize type dataCount
  if dst.field .entryCount = dst.field .entryCapacity then (false, dst)
  else if dataCount ≠ 0 ∧ data.isNone then (false, dst)
  else if (dataBytes + dst.field .dataCount) % 2 ^ 64 > dst.field .dataCapacity then (false, dst)
  else
    let payloadBytes := dataCount * cameraMetadataTypeSize type % 2 ^ 64
    let entry := dst.entryOffset (dst.field .entryCount)
    let m := dst.initEntry entry tag type dataCount
    let m := m.addPayload entry (data.getD fun _ => 0) dataBytes payloadBytes
    let m := m.setField .entryCount (m.field .entryCount + 1)
    (true, m.setField .flags (clearSorted (m.field .flags)))

def addCameraMetadataEntry (ops : VendorOps) (dst : CameraMetadata) (tag : Nat)
    (data : Option Memory) (dataCount : Nat) : Bool × CameraMetadata :=
  match getLocalCameraMetadataTagType ops tag (dst.field .vendorId) with
  | none => (false, dst)
  | some type => dst.addCameraMetadataEntryRaw tag type.toNat data dataCount

/-- The checks of `append_camera_metadata`. -/
def canAppend (dst src : CameraMetadata) : Bool :=
  let entryCount := (src.field .entryCount + dst.field .entryCount) % 2 ^ 32
  let dataCount := (src.field .dataCount + dst.field .dataCount) % 2 ^ 32
  decide (src.field .entryCount ≤ entryCount) && decide (src.field .dataCount ≤ dataCount) &&
    decide (entryCount ≤ dst.field .entryCapacity) &&
    decide (dataCount ≤ dst.field .dataCapacity) &&
    (dst.field .vendorId == invalidVendorId || src.field .vendorId == invalidVendorId ||
      dst.field .vendorId == src.field .vendorId)

/-- The flags after `append_camera_metadata`. -/
def appendedFlags (dst src : CameraMetadata) : Nat :=
  if dst.field .entryCount = 0 then dst.field .flags ||| (src.field .flags &&& flagSorted)
  else if src.field .entryCount ≠ 0 then clearSorted (dst.field .flags)
  else dst.field .flags

/-- The entries and data of another buffer are copied to the end. -/
def copyPayload (dst src : CameraMetadata) : CameraMetadata :=
  let m : CameraMetadata := dst.copy (dst.entryOffset (dst.field .entryCount)) src
    (src.entryOffset 0) (sizeofEntry * src.field .entryCount)
  m.copy (m.field .dataStart + m.field .dataCount) src (src.field .dataStart)
    (src.field .dataCount)

/-- The offsets of the entries that have been appended are assigned. -/
def rebaseOffsets (m : CameraMetadata) (count : Nat) : CameraMetadata :=
  if m.field .dataCount ≠ 0 then
    m.adjustOffsets (m.field .entryCount) count fun e =>
      if e.dataSize > 0 then some (e.offset + m.field .dataCount) else none
  else m

/-- The header after the entries and data have been copied. -/
def appendHeader (m src : CameraMetadata) : CameraMetadata :=
  let m := m.setField .flags (m.appendedFlags src)
  let m := m.setField .entryCount (m.field .entryCount + src.field .entryCount)
  let m := m.setField .dataCount (m.field .dataCount + src.field .dataCount)
  if m.field .vendorId = invalidVendorId then m.setField .vendorId (src.field .vendorId) else m

/-- `append_camera_metadata`; both buffers may be the same. -/
def appendCameraMetadata (dst src : CameraMetadata) : Bool × CameraMetadata :=
  if dst.canAppend src then
    (true, ((dst.copyPayload src).rebaseOffsets (src.field .entryCount)).appendHeader src)
  else (false, dst)

/-! ## Removing and replacing -/

/-- The data after those of an entry are moved to where those of the entry are. -/
def moveData (m : CameraMetadata) (index bytes : Nat) : CameraMetadata :=
  let offset := (m.entry index).offset
  let length :=
    ((m.field .dataCount + 2 ^ 32 - offset) % 2 ^ 32 + 2 ^ 64 - bytes) % 2 ^ 64
  m.copy (m.field .dataStart + offset) m (m.field .dataStart + offset + bytes) length

/-- The loop over the entries whose data have been moved.  The offset of the entry itself is not
changed by it. -/
def shiftOffsets (m : CameraMetadata) (index bytes : Nat) : CameraMetadata :=
  m.adjustOffsets 0 (m.field .entryCount) fun e =>
    if e.dataSize > 0 ∧ e.offset > (m.entry index).offset then some (e.offset + 2 ^ 64 - bytes)
    else none

/-- `delete_camera_metadata_entry` cuts the data of an entry out. -/
def cutData (dst : CameraMetadata) (index dataBytes : Nat) : CameraMetadata :=
  if dataBytes > 0 then
    let m := (dst.moveData index dataBytes).shiftOffsets index dataBytes
    m.setField .dataCount (m.field .dataCount + 2 ^ 64 - dataBytes)
  else dst

/-- The entries after an entry are moved to where it is. -/
def eraseEntry (m : CameraMetadata) (index : Nat) : CameraMetadata :=
  let m : CameraMetadata := m.copy (m.entryOffset index) m (m.entryOffset (index + 1))
    (sizeofEntry * (m.field .entryCount - index - 1))
  m.setField .entryCount (m.field .entryCount - 1)

def deleteCameraMetadataEntry (dst : CameraMetadata) (index : Nat) : Bool × CameraMetadata :=
  if index ≥ dst.field .entryCount then (false, dst)
  else (true, (dst.cutData index (dst.entry index).dataSize).eraseEntry index)

/-- `update_camera_metadata_entry` removes the old data of an entry. -/
def removeOldData (dst : CameraMetadata) (index entryBytes : Nat) : CameraMetadata :=
  if entryBytes ≠ 0 then
    let m := dst.moveData index entryBytes
    let m := m.setField .dataCount (m.field .dataCount + 2 ^ 64 - entryBytes)
    m.shiftOffsets index entryBytes
  else dst

/-- `update_camera_metadata_entry` appends the new data of an entry. -/
def appendNewData (m : CameraMetadata) (index : Nat) (data : Memory)
    (dataBytes payloadBytes : Nat) : CameraMetadata :=
  if dataBytes ≠ 0 then
    let m := m.setOffset index (m.field .dataCount)
    let m : CameraMetadata :=
      m.copy (m.field .dataStart + (m.entry index).offset) data 0 payloadBytes
    m.setField .dataCount (m.field .dataCount + dataBytes)
  else m

/-- `update_camera_metadata_entry` copies data that fit into the entry, and assigns the count. -/
def finishUpdate (m : CameraMetadata) (index : Nat) (data : Memory)
    (dataBytes payloadBytes dataCount : Nat) : CameraMetadata :=
  let m : CameraMetadata :=
    if dataBytes = 0 then m.copy (m.entryOffset index + 8) data 0 payloadBytes else m
  m.store (m.entryOffset index + 4) 4 dataCount

/-- `update_camera_metadata_entry`; `data` is not checked for `NULL`. -/
def updateCameraMetadataEntry (dst : CameraMetadata) (index : Nat) (data : Memory)
    (dataCount : Nat) : Bool × CameraMetadata :=
  if index ≥ dst.field .entryCount then (false, dst)
  else
    let e := dst.entry index
    let dataBytes := calculateCameraMetadataEntryDataSize e.type dataCount
    let payloadBytes := dataCount * cameraMetadataTypeSize e.type % 2 ^ 64
    let entryBytes := e.dataSize
    if dataBytes ≠ entryBytes ∧
        dst.field .dataCapacity < (dst.field .dataCount + dataBytes + 2 ^ 64 - entryBytes) % 2 ^ 64
    then (false, dst)
    else
      let m : CameraMetadata :=
        if dataBytes ≠ entryBytes then
          (dst.removeOldData index entryBytes).appendNewData index data dataBytes payloadBytes
        else if dataBytes ≠ 0 then
          dst.copy (dst.field .dataStart + e.offset) data 0 payloadBytes
        else dst
      (true, m.finishUpdate index data dataBytes payloadBytes dataCount)

/-! ## Copies -/

/-- `copy_camera_metadata`, to other memory. -/
def copyCameraMetadata (dst : Option Memory) (dstSize : Nat) (src : CameraMetadata) :
    Option CameraMetadata :=
  dst.bind fun dst =>
    if dstSize < calculateCameraMetadataSize (src.field .entryCount) (src.field .dataCount) then
      none
    else
      (placeCameraMetadata dst dstSize (src.field .entryCount) (src.field .dataCount)).map fun m =>
        let m := m.setField .flags (src.field .flags)
        let m := m.setField .entryCount (src.field .entryCount)
        let m := m.setField .dataCount (src.field .dataCount)
        let m := m.setField .vendorId (src.field .vendorId)
        let m : CameraMetadata := m.copy (m.entryOffset 0) src (src.entryOffset 0)
          (sizeofEntry * m.field .entryCount)
        m.copy (m.field .dataStart) src (src.field .dataStart) (m.field .dataCount)

def cloneCameraMetadata (src : CameraMetadata) (memory : Option Memory) : Option CameraMetadata :=
  match allocateCameraMetadata (src.field .entryCount) (src.field .dataCount) memory with
  | none => none
  | some clone =>
    match clone.appendCameraMetadata src with
    | (true, clone) => some clone
    | (false, _) => none

end CameraMetadata

/-! ## Runs -/

/-- The number of values of a payload that is in memory. -/
structure DataCount where
  count : Nat
  fits : count < 2 ^ 60

/-- The operations; a buffer is given by its number. -/
inductive Op where
  | allocate (entryCapacity dataCapacity : Nat) (memory : Option Memory)
  | add (dst : Nat) (tag : UInt32) (data : Option Memory) (dataCount : DataCount)
  | append (dst src : Nat)
  | update (dst index : Nat) (data : Memory) (dataCount : DataCount)
  | delete (dst index : Nat)
  | copy (dst : Option Memory) (dstSize src : Nat)
  | clone (src : Nat) (memory : Option Memory)

/-- A buffer is changed; a number that is not in use stands for `NULL`. -/
def changeBuffer (buffers : List CameraMetadata) (dst : Nat)
    (change : CameraMetadata → Bool × CameraMetadata) : Bool × List CameraMetadata :=
  match buffers[dst]? with
  | none => (false, buffers)
  | some m => ((change m).1, buffers.set dst (change m).2)

/-- A buffer is added to the others. -/
def newBuffer (buffers : List CameraMetadata) :
    Option CameraMetadata → Bool × List CameraMetadata
  | none => (false, buffers)
  | some m => (true, buffers ++ [m])

/-- Whether the function returns `OK`, or a buffer, and the buffers after it. -/
def step (ops : VendorOps) (buffers : List CameraMetadata) : Op → Bool × List CameraMetadata
  | .allocate entryCapacity dataCapacity memory =>
    newBuffer buffers (allocateCameraMetadata entryCapacity dataCapacity memory)
  | .add dst tag data dataCount =>
    changeBuffer buffers dst fun m => m.addCameraMetadataEntry ops tag.toNat data dataCount.count
  | .append dst src =>
    match buffers[src]? with
    | none => (false, buffers)
    | some m => changeBuffer buffers dst fun m' => m'.appendCameraMetadata m
  | .update dst index data dataCount =>
    changeBuffer buffers dst fun m => m.updateCameraMetadataEntry index data dataCount.count
  | .delete dst index => changeBuffer buffers dst fun m => m.deleteCameraMetadataEntry index
  | .copy dst dstSize src =>
    newBuffer buffers (buffers[src]?.bind (CameraMetadata.copyCameraMetadata dst dstSize))
  | .clone src memory =>
    newBuffer buffers (buffers[src]?.bind (·.cloneCameraMetadata memory))

end Camera
