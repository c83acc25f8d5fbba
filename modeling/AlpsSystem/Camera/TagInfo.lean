import Mathlib

/-!
# The types of camera metadata tags

`camera_metadata_tag_info.c`, without the names, and the functions of `camera_metadata.c` that look
the types of the tags up.
-/

namespace Camera

/-- `TYPE_BYTE` and so on. -/
inductive MetadataType where
  | byte
  | int32
  | float
  | int64
  | double
  | rational
  deriving DecidableEq, Repr

def MetadataType.toNat : MetadataType → Nat
  | byte => 0
  | int32 => 1
  | float => 2
  | int64 => 3
  | double => 4
  | rational => 5

def numTypes : Nat := 6

lemma MetadataType.toNat_lt (type : MetadataType) : type.toNat < numTypes := by
  cases type <;> decide

/-- `camera_metadata_type_size`; an index that is not in the table gives 0. -/
def cameraMetadataTypeSize (type : Nat) : Nat := [1, 4, 4, 8, 8, 8].getD type 0

lemma cameraMetadataTypeSize_le (type : Nat) : cameraMetadataTypeSize type ≤ 8 := by
  match type with
  | 0 | 1 | 2 | 3 | 4 | 5 => decide
  | _ + 6 => exact Nat.zero_le 8

lemma cameraMetadataTypeSize_pos {type : Nat} (h : type < numTypes) :
    0 < cameraMetadataTypeSize type := by
  match type with
  | 0 | 1 | 2 | 3 | 4 | 5 => decide
  | _ + 6 => exact absurd h (by unfold numTypes; omega)

/-- `tag_info`: for each section the types of its tags. -/
def tagInfo : List (List MetadataType) :=
  [ -- android_color_correction
    [.byte, .rational, .float, .byte, .byte],
    -- android_control
    [.byte, .int32, .byte, .byte, .int32, .int32, .byte, .byte, .int32, .byte, .byte, .byte,
      .int32, .byte, .byte, .byte, .byte, .byte, .byte, .byte, .int32, .int32, .rational, .byte,
      .byte, .byte, .byte, .byte, .int32, .byte, .int32, .byte, .byte, .int32, .byte, .int32,
      .byte, .byte, .byte, .int32, .int32, .byte],
    -- android_demosaic
    [.byte],
    -- android_edge
    [.byte, .byte, .byte],
    -- android_flash
    [.byte, .int64, .byte, .byte, .byte, .byte],
    -- android_flash_info
    [.byte, .int64],
    -- android_hot_pixel
    [.byte, .byte],
    -- android_jpeg
    [.double, .byte, .int64, .int32, .byte, .byte, .int32, .int32, .int32, .int32],
    -- android_lens
    [.float, .float, .float, .float, .byte, .byte, .float, .float, .float, .byte, .float, .float],
    -- android_lens_info
    [.float, .float, .float, .byte, .float, .float, .int32, .byte],
    -- android_noise_reduction
    [.byte, .byte, .byte],
    -- android_quirks
    [.byte, .byte, .byte, .byte, .byte],
    -- android_request
    [.int32, .int32, .int32, .byte, .int32, .byte, .int32, .int32, .int32, .byte, .byte, .int32,
      .byte, .int32, .int32, .int32],
    -- android_scaler
    [.int32, .int32, .int64, .int32, .float, .int64, .int32, .int64, .int32, .int32, .int32,
      .int64, .int64, .byte],
    -- android_sensor
    [.int64, .int64, .int32, .byte, .byte, .rational, .rational, .rational, .rational, .rational,
      .rational, .rational, .int32, .int32, .int32, .int32, .int64, .float, .rational, .double,
      .float, .float, .float, .int32, .int32, .int32, .int64, .int32, .float, .int32, .int32],
    -- android_sensor_info
    [.int32, .int32, .byte, .int64, .int64, .float, .int32, .int32, .byte, .byte, .int32],
    -- android_shading
    [.byte, .byte, .byte],
    -- android_statistics
    [.byte, .byte, .byte, .byte, .int32, .int32, .int32, .byte, .int32, .int32, .byte, .float,
      .float, .rational, .byte, .int32, .byte],
    -- android_statistics_info
    [.byte, .int32, .int32, .int32, .int32, .int32, .byte, .byte],
    -- android_tonemap
    [.float, .float, .float, .byte, .int32, .byte, .float, .byte],
    -- android_led
    [.byte, .byte],
    -- android_info
    [.byte],
    -- android_black_level
    [.byte],
    -- android_sync
    [.int64, .int32],
    -- android_reprocess
    [.float, .int32],
    -- android_depth
    [.int32, .int32, .int64, .int64, .byte]]

def vendorSection : Nat := 0x8000

/-- `CAMERA_METADATA_INVALID_VENDOR_ID`. -/
def invalidVendorId : Nat := 2 ^ 64 - 1

/-- The functions that a vendor has set; they return one of the types or -1. -/
structure VendorOps where
  /-- `vendor_cache_ops->get_tag_type`. -/
  cacheTagType : Option (Nat → Nat → Option MetadataType)
  /-- `vendor_tag_ops->get_tag_type`. -/
  tagType : Option (Nat → Option MetadataType)

/-- `get_local_camera_metadata_tag_type_vendor_id`; `none` stands for -1.  The bounds of a section
are those of its row of `tagInfo`. -/
def getLocalCameraMetadataTagType (ops : VendorOps) (tag id : Nat) : Option MetadataType :=
  let tagSection := tag / 2 ^ 16
  let cache := if id ≠ invalidVendorId then ops.cacheTagType.map (· tag id) else none
  let vendor := if tagSection ≥ vendorSection then cache.or (ops.tagType.map (· tag)) else none
  vendor.getD (tagInfo[tagSection]?.bind fun row => row[tag % 2 ^ 16]?)

end Camera
