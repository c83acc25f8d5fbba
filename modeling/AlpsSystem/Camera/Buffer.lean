import AlpsSystem.Camera.View

/-!
# Buffers as views

* `Layout` — the header of a buffer of `allocate_camera_metadata`: the entries follow the header,
  the data section follows the entries, and the offsets fit their fields.
* `view` — the entries and the data section of a buffer.
-/

namespace Camera

open List

/-! ## Header, entries and data -/

lemma Field.end_le (f : Field) : f.offset + f.width ≤ sizeofMetadata := by
  cases f <;> decide

lemma Field.apart {f g : Field} (h : f ≠ g) :
    g.offset + g.width ≤ f.offset ∨ f.offset + f.width ≤ g.offset := by
  cases f <;> cases g <;> first | exact absurd rfl h | decide

open Memory

namespace CameraMetadata

variable {m m' dst src : CameraMetadata} {i tag type dataCount b entry : Nat} {data : Memory}

open Camera.Field

lemma field_congr (h : ∀ b < sizeofMetadata, m' b = m b) (f : Field) : m'.field f = m.field f := by
  have hend := end_le f
  exact load_congr fun k hk => h _ (by omega)

@[simp] lemma field_setField (m : CameraMetadata) (f g : Field) (value : Nat) :
    (m.setField f value).field g = if f = g then value % 256 ^ f.width else m.field g := by
  split
  · next heq =>
    subst heq
    exact load_store m _ _ _
  · next hne => exact load_store_outside (apart hne)

lemma setField_apply (m : CameraMetadata) (f : Field) (value : Nat)
    (hb : sizeofMetadata ≤ b) : m.setField f value b = m b :=
  store_outside (.inr (Nat.le_trans (end_le f) hb))

lemma field_copy {dst src length : Nat} {source : Memory} (hdst : sizeofMetadata ≤ dst)
    (f : Field) : field (m.copy dst source src length) f = m.field f :=
  field_congr (fun _ _ => copy_outside (by omega)) f

lemma field_store {offset width value : Nat} (hoffset : sizeofMetadata ≤ offset) (f : Field) :
    field (m.store offset width value) f = m.field f :=
  field_copy hoffset f

/-- An entry is given by its bytes, wherever they are. -/
lemma entry_congr {j : Nat}
    (h : ∀ k < sizeofEntry, m' (m'.entryOffset i + k) = m (m.entryOffset j + k)) :
    m'.entry i = m.entry j := by
  unfold sizeofEntry at h
  have htag : m'.load (m'.entryOffset i) 4 = m.load (m.entryOffset j) 4 :=
    load_congr fun k hk => h k (by omega)
  have hcount : m'.load (m'.entryOffset i + 4) 4 = m.load (m.entryOffset j + 4) 4 :=
    load_congr fun k hk => by
      simpa only [add_assoc] using h (4 + k) (by omega)
  have hvalue : m'.slice (m'.entryOffset i + 8) 4 = m.slice (m.entryOffset j + 8) 4 :=
    slice_congr fun k hk => by
      simpa only [add_assoc] using h (8 + k) (by omega)
  unfold entry
  rw [htag, hcount, hvalue, h 12 (by omega)]

lemma entry_setField (h : m.field .entriesStart = sizeofMetadata) {f : Field}
    (hf : f ≠ .entriesStart) (value i : Nat) : (m.setField f value).entry i = m.entry i := by
  refine entry_congr fun k _ => ?_
  have hoffset : (m.setField f value).entryOffset i = m.entryOffset i := by
    unfold entryOffset
    rw [field_setField, if_neg hf]
  rw [hoffset]
  refine setField_apply m f value ?_
  unfold entryOffset
  rw [h]
  omega

lemma entry_valid (m : CameraMetadata) (htype : (m.entry i).type < numTypes) : (m.entry i).Valid :=
  ⟨htype, m.load_lt _ 4, m.length_slice _ 4⟩

/-- The entries that are in use. -/
def entries (m : CameraMetadata) : List BufferEntry :=
  (List.range (m.field .entryCount)).map m.entry

/-- A byte of the data section. -/
def dataByte (m : CameraMetadata) : Memory := fun b => m (m.field .dataStart + b)

lemma slice_dataByte (m : CameraMetadata) (offset length : Nat) :
    m.dataByte.slice offset length = m.slice (m.field .dataStart + offset) length :=
  slice_congr fun k _ => congrArg m (Nat.add_assoc _ offset k).symm

def view (m : CameraMetadata) : View :=
  { entries := m.entries, data := m.dataByte, dataCount := m.field .dataCount }

structure Layout (m : CameraMetadata) : Prop where
  entriesStart : m.field .entriesStart = sizeofMetadata
  dataStart : m.field .dataStart = sizeofMetadata + sizeofEntry * m.field .entryCapacity
  fits : m.field .dataStart + m.field .dataCapacity < 2 ^ 32
  count_le : m.field .entryCount ≤ m.field .entryCapacity
  data_le : m.field .dataCount ≤ m.field .dataCapacity

lemma Layout.entryOffset (h : Layout m) (i : Nat) :
    m.entryOffset i = sizeofMetadata + sizeofEntry * i := by
  rw [CameraMetadata.entryOffset, h.entriesStart]

lemma getElem?_entries (m : CameraMetadata) (i : Nat) :
    m.entries[i]? = if i < m.field .entryCount then some (m.entry i) else none := by
  unfold entries
  rw [List.getElem?_map]
  split
  · next hlt => rw [List.getElem?_range hlt]; rfl
  · next hge => rw [List.getElem?_eq_none (by simpa using hge)]; rfl

/-! ## Adding an entry -/

lemma initEntry_outside
    (hb : b < entry ∨ entry + sizeofEntry ≤ b) : m.initEntry entry tag type dataCount b = m b := by
  unfold sizeofEntry at hb
  unfold initEntry
  rw [store_outside (by omega), store_outside (by omega),
    store_outside (by omega), copy_outside (by unfold sizeofEntry; omega)]

open Nat (mod_eq_of_lt)

lemma initEntry_loads (m : CameraMetadata) (entry : Nat) (htag : tag < 2 ^ 32)
    (htype : type < 256) (hcount : dataCount < 2 ^ 32) :
    (m.initEntry entry tag type dataCount).load entry 4 = tag ∧
      (m.initEntry entry tag type dataCount).load (entry + 4) 4 = dataCount ∧
      ((m.initEntry entry tag type dataCount) (entry + 12)).toNat = type ∧
      (m.initEntry entry tag type dataCount).load (entry + 8) 4 = 0 := by
  unfold initEntry
  refine ⟨?_, ?_, ?_, ?_⟩
  · rw [load_store_outside (by omega), load_store_outside (by omega), load_store]
    exact mod_eq_of_lt htag
  · rw [load_store]
    exact mod_eq_of_lt hcount
  · rw [← load_one, load_store_outside (by omega), load_store]
    exact mod_eq_of_lt htype
  · rw [load_store_outside (by omega), load_store_outside (by omega), load_store_outside (by omega)]
    have hzero : (m.copy entry (fun _ => 0) 0 sizeofEntry).load (entry + 8) 4 =
        load (fun _ => 0) 0 4 :=
      load_congr fun k hk => copy_inside (by omega) (by unfold sizeofEntry; omega)
    rw [hzero]
    rfl

/-- The size of a payload in the data section. -/
lemma entryDataSize_cases (htype : type < numTypes) (hfits : dataCount < 2 ^ 60) :
    dataCount * cameraMetadataTypeSize type < 2 ^ 63 ∧
      (dataCount * cameraMetadataTypeSize type ≤ 4 ∧
          calculateCameraMetadataEntryDataSize type dataCount = 0 ∨
        4 < dataCount * cameraMetadataTypeSize type ∧ dataCount * cameraMetadataTypeSize type ≤
          calculateCameraMetadataEntryDataSize type dataCount ∧
          calculateCameraMetadataEntryDataSize type dataCount < 2 ^ 63 + 8) := by
  have hbytes : dataCount * cameraMetadataTypeSize type < 2 ^ 63 :=
    calc dataCount * cameraMetadataTypeSize type
      _ ≤ dataCount * 8 := Nat.mul_le_mul_left _ (cameraMetadataTypeSize_le type)
      _ < 2 ^ 63 := by omega
  have halign := alignTo_eight
    (show dataCount * cameraMetadataTypeSize type < 2 ^ 64 - 8 by omega)
  refine ⟨hbytes, ?_⟩
  unfold calculateCameraMetadataEntryDataSize
  rw [if_neg htype.not_ge]
  dsimp only
  rw [mod_eq_of_lt (by omega)]
  split <;> omega

lemma addPayload_empty (m : CameraMetadata) (entry : Nat) (data : Memory) :
    m.addPayload entry data 0 0 = m :=
  funext fun _ => copy_outside (by omega)

/-- The values of a new entry that fits into the buffer, which is at an offset `entry` between the
header and the data section. -/
lemma addPayload_spec (h : Layout m) (data : Memory) {dataBytes payloadBytes : Nat}
    (hstart : sizeofMetadata ≤ entry) (hend : entry + sizeofEntry ≤ m.field .dataStart)
    (hsize : payloadBytes ≤ 4 ∧ dataBytes = 0 ∨ 4 < payloadBytes ∧ payloadBytes ≤ dataBytes)
    (hroom : m.field .dataCount + dataBytes ≤ m.field .dataCapacity) :
    let m' := m.addPayload entry data dataBytes payloadBytes
    (∀ f, m'.field f = if f = .dataCount then m.field .dataCount + dataBytes else m.field f) ∧
      (∀ b, sizeofMetadata ≤ b → b < m.field .dataStart + m.field .dataCount →
        (b < entry + 8 ∨ entry + 12 ≤ b) → m' b = m b) ∧
      (dataBytes = 0 → m'.slice (entry + 8) payloadBytes = data.slice 0 payloadBytes) ∧
      (0 < dataBytes → m'.load (entry + 8) 4 = m.field .dataCount ∧
        m'.slice (m.field .dataStart + m.field .dataCount) payloadBytes =
          data.slice 0 payloadBytes) := by
  unfold sizeofEntry at hend
  have hfits := h.fits
  have hdata : m.field .dataCount % 256 ^ 4 = m.field .dataCount :=
    mod_eq_of_lt (m.field_lt .dataCount)
  by_cases hinline : dataBytes = 0
  · have heq : m.addPayload entry data dataBytes payloadBytes =
        m.copy (entry + 8) data 0 payloadBytes := if_pos hinline
    rw [heq]
    refine ⟨fun f => ?_, fun b _ _ hb => copy_outside (by omega),
      fun _ => slice_copy m _ _ _ _, fun hpos => absurd hinline (by omega)⟩
    rw [field_copy (by omega), hinline, add_zero]
    split
    · next hf => rw [hf]
    · rfl
  · -- the offset, the values and the new count are written one after the other
    let m1 : CameraMetadata := m.store (entry + 8) 4 (m.field .dataCount)
    let m2 : CameraMetadata :=
      m1.copy (m.field .dataStart + m.field .dataCount) data 0 payloadBytes
    have hload : m1.load (entry + 8) 4 = m.field .dataCount :=
      (load_store m _ 4 _).trans hdata
    have hfield1 (f : Field) : m1.field f = m.field f := field_store (by omega) f
    have hfield2 (f : Field) : m2.field f = m.field f :=
      (field_copy (by omega) f).trans (hfield1 f)
    have heq : m.addPayload entry data dataBytes payloadBytes =
        m2.setField .dataCount (m.field .dataCount + dataBytes) := by
      unfold addPayload
      rw [if_neg hinline]
      show setField (m1.copy (m1.field .dataStart + m1.load (entry + 8) 4) data 0 payloadBytes)
        .dataCount (field (m1.copy (m1.field .dataStart + m1.load (entry + 8) 4) data 0
          payloadBytes) .dataCount + dataBytes) = _
      rw [hload, hfield1]
      rw [hfield2]
    rw [heq]
    refine ⟨fun f => ?_, fun b hb hlt hout => ?_, fun hzero => absurd hzero hinline,
      fun _ => ⟨?_, ?_⟩⟩
    · rw [field_setField, hfield2]
      split
      · next hf =>
        rw [if_pos hf.symm]
        exact mod_eq_of_lt (show _ < 2 ^ 32 by omega)
      · next hf => rw [if_neg (Ne.symm hf)]
    · rw [setField_apply _ _ _ hb]
      show m1.copy (m.field .dataStart + m.field .dataCount) data 0 payloadBytes b = m b
      rw [copy_outside (by omega)]
      exact store_outside (by omega)
    · rw [load_congr fun _ _ => setField_apply _ _ _ (by omega)]
      exact (load_copy_outside (by omega)).trans hload
    · rw [slice_congr fun _ _ => setField_apply _ _ _ (by omega)]
      exact slice_copy m1 _ _ _ _

/-- The fields that are not changed by an operation on the entries. -/
def Field.isFixed : Field → Bool
  | .flags | .entryCount | .dataCount | .vendorId => false
  | _ => true

lemma field_setField_fixed {f g : Field} (hf : Field.isFixed f = true)
    (hg : Field.isFixed g = false) (m : CameraMetadata) (value : Nat) :
    (m.setField g value).field f = m.field f := by
  rw [field_setField, if_neg]
  rintro rfl
  exact Bool.false_ne_true (hg.symm.trans hf)

lemma Layout.of_fields (h : Layout m)
    (hfixed : ∀ f, Field.isFixed f = true → m'.field f = m.field f)
    (hcount : m'.field .entryCount ≤ m.field .entryCapacity)
    (hdata : m'.field .dataCount ≤ m.field .dataCapacity) : Layout m' := by
  have hcapacity := hfixed .entryCapacity rfl
  have hdataCapacity := hfixed .dataCapacity rfl
  have hentries := hfixed .entriesStart rfl
  have hstart := hfixed .dataStart rfl
  exact
    { entriesStart := hentries.trans h.entriesStart
      dataStart := by rw [hstart, hcapacity]; exact h.dataStart
      fits := by rw [hstart, hdataCapacity]; exact h.fits
      count_le := by rw [hcapacity]; exact hcount
      data_le := by rw [hdataCapacity]; exact hdata }

/-- The entries after some have been added. -/
lemma entries_append (h : Layout m) {entries : List BufferEntry}
    (hstart : m'.field .entriesStart = m.field .entriesStart)
    (hcount : m'.field .entryCount = m.field .entryCount + entries.length)
    (hsame : ∀ b, sizeofMetadata ≤ b → b < m.entryOffset (m.field .entryCount) → m' b = m b)
    (hnew : ∀ i, (hi : i < entries.length) →
      m'.entry (m.field .entryCount + i) = entries[i]) : m'.entries = m.entries ++ entries := by
  unfold CameraMetadata.entries
  rw [hcount, range_add, map_append, map_map]
  congr 1
  · refine map_congr_left fun i hi => entry_congr fun k hk => ?_
    have hi := mem_range.mp hi
    have hoffset : m'.entryOffset i = m.entryOffset i := by
      unfold entryOffset
      rw [hstart]
    rw [hoffset]
    refine hsame _ ?_ ?_
    · rw [h.entryOffset]
      omega
    · rw [h.entryOffset, h.entryOffset]
      unfold sizeofEntry at *
      omega
  · refine ext_getElem (by simp) fun i hi hi' => ?_
    simpa using hnew i hi'

/-- One more entry is counted, and the entries are not sorted any more. -/
lemma countEntry_spec (m : CameraMetadata) (flags : Nat) (hlt : m.field .entryCount + 1 < 2 ^ 32) :
    let m' := (m.setField .entryCount (m.field .entryCount + 1)).setField .flags flags
    (∀ f, f ≠ .flags →
      m'.field f = if f = .entryCount then m.field .entryCount + 1 else m.field f) ∧
    ∀ b, sizeofMetadata ≤ b → m' b = m b := by
  refine ⟨fun f hf => ?_, fun b hb => ?_⟩
  · rw [field_setField, if_neg hf.symm, field_setField]
    split
    · next heq => rw [if_pos heq.symm]; exact mod_eq_of_lt hlt
    · next hne => rw [if_neg (Ne.symm hne)]
  · rw [setField_apply _ _ _ hb, setField_apply _ _ _ hb]

/-- An entry whose payload is in the entry or in the data section. -/
structure Holds (m : CameraMetadata) (i tag type dataCount : Nat) (data : Memory) : Prop where
  tag_eq : (m.entry i).tag = tag
  count_eq : (m.entry i).count = dataCount
  type_eq : (m.entry i).type = type
  inline : calculateCameraMetadataEntryDataSize type dataCount = 0 →
    m.slice (m.entryOffset i + 8) (dataCount * cameraMetadataTypeSize type) =
      data.slice 0 (dataCount * cameraMetadataTypeSize type)
  outOfLine : 0 < calculateCameraMetadataEntryDataSize type dataCount →
    m.slice (m.field .dataStart + (m.entry i).offset) (dataCount * cameraMetadataTypeSize type) =
      data.slice 0 (dataCount * cameraMetadataTypeSize type)

section

variable (h : Holds m i tag type dataCount data)

include h

open BufferEntry

lemma Holds.dataSize :
    (m.entry i).dataSize = calculateCameraMetadataEntryDataSize type dataCount := by
  rw [BufferEntry.dataSize, h.count_eq, h.type_eq]

lemma Holds.valid (htype : type < numTypes) : (m.entry i).Valid :=
  entry_valid m (by rw [h.type_eq]; exact htype)

lemma Holds.item (htype : type < numTypes) :
    m.view.item (m.entry i) =
      { tag, type, count := dataCount
        values := data.slice 0 (dataCount * cameraMetadataTypeSize type) } := by
  have hvalid := h.valid htype
  have hpos := hvalid.dataSize_pos
  rw [h.dataSize, valueBytes, h.count_eq, h.type_eq] at hpos
  unfold View.item valueBytes
  rw [h.tag_eq, h.count_eq, h.type_eq]
  congr 1
  split
  · next hlarge =>
    rw [← h.outOfLine (hpos.mpr hlarge)]
    exact slice_dataByte m _ _
  · next hsmall =>
    rw [← h.inline (by omega)]
    exact take_slice m _ (by omega)

end

/-- What `add_camera_metadata_entry_raw` writes: the counts, an entry behind the others, and its
values in the entry or behind the data. -/
structure Added (dst m' : CameraMetadata) (tag type dataCount : Nat) (data : Memory) : Prop where
  room : dst.field .entryCount < dst.field .entryCapacity
  dataRoom : dst.field .dataCount + calculateCameraMetadataEntryDataSize type dataCount ≤
    dst.field .dataCapacity
  fields : ∀ f, f ≠ .flags → f ≠ .entryCount → f ≠ .dataCount → m'.field f = dst.field f
  flags : m'.field .flags = clearSorted (dst.field .flags)
  entryCount_eq : m'.field .entryCount = dst.field .entryCount + 1
  dataCount_eq : m'.field .dataCount =
    dst.field .dataCount + calculateCameraMetadataEntryDataSize type dataCount
  /-- Up to the new data everything is kept but the new entry, whose value is left out here. -/
  kept : ∀ b, sizeofMetadata ≤ b → b < dst.field .dataStart + dst.field .dataCount →
    (b < dst.entryOffset (dst.field .entryCount) + 8 ∨
      dst.entryOffset (dst.field .entryCount) + 12 ≤ b) →
    m' b = dst.initEntry (dst.entryOffset (dst.field .entryCount)) tag type dataCount b
  inline : calculateCameraMetadataEntryDataSize type dataCount = 0 →
    m'.slice (dst.entryOffset (dst.field .entryCount) + 8)
        (dataCount * cameraMetadataTypeSize type) =
      data.slice 0 (dataCount * cameraMetadataTypeSize type)
  outOfLine : 0 < calculateCameraMetadataEntryDataSize type dataCount →
    m'.load (dst.entryOffset (dst.field .entryCount) + 8) 4 = dst.field .dataCount ∧
      m'.slice (dst.field .dataStart + dst.field .dataCount)
          (dataCount * cameraMetadataTypeSize type) =
        data.slice 0 (dataCount * cameraMetadataTypeSize type)
  empty : dataCount = 0 → m'.load (dst.entryOffset (dst.field .entryCount) + 8) 4 = 0

lemma add_added (h : Layout dst) {data : Option Memory}
    (htag : tag < 2 ^ 32) (htype : type < numTypes) (hfits : dataCount < 2 ^ 60)
    (hadd : dst.addCameraMetadataEntryRaw tag type data dataCount = (true, m')) :
    Added dst m' tag type dataCount (data.getD fun _ => 0) := by
  obtain ⟨hbytes, hsize⟩ := entryDataSize_cases htype hfits
  unfold addCameraMetadataEntryRaw at hadd
  dsimp only at hadd
  split at hadd
  · cases hadd
  rename_i hfull
  split at hadd
  · cases hadd
  split at hadd
  · cases hadd
  rename_i hroom
  have hlayout := h.fits
  have hdata := h.data_le
  have hcount := h.count_le
  have hstart := h.dataStart
  have hoffset := h.entryOffset (dst.field .entryCount)
  have hpositive : dataCount ≤ dataCount * cameraMetadataTypeSize type :=
    Nat.le_mul_of_pos_right _ (cameraMetadataTypeSize_pos htype)
  have hsizeofEntry : sizeofEntry = 16 := rfl
  rw [mod_eq_of_lt (by omega)] at hadd hroom
  generalize hdataBytes : calculateCameraMetadataEntryDataSize type dataCount = dataBytes at *
  generalize hpayload : dataCount * cameraMetadataTypeSize type = payloadBytes at *
  generalize hentryOffset : dst.entryOffset (dst.field .entryCount) = entry at *
  rw [hsizeofEntry] at hstart hoffset
  -- the entry without data, and with them
  let m1 := dst.initEntry entry tag type dataCount
  have hfield1 (f : Field) : m1.field f = dst.field f :=
    field_congr (fun b hb => initEntry_outside (by omega)) f
  have hlayout1 : Layout m1 := h.of_fields (fun f _ => hfield1 f)
    (by rw [hfield1]; exact hcount) (by rw [hfield1]; exact hdata)
  have hvalue1 := (initEntry_loads dst entry htag
    (htype.trans (by decide)) (show dataCount < 2 ^ 32 by omega)).2.2.2
  let m2 := m1.addPayload entry (data.getD fun _ => 0) dataBytes payloadBytes
  obtain ⟨hfield2, hsame2, hinline, houtline⟩ := addPayload_spec hlayout1
    (data.getD fun _ => 0) (show sizeofMetadata ≤ entry by omega)
    (show entry + sizeofEntry ≤ m1.field .dataStart by rw [hfield1]; omega)
    (show payloadBytes ≤ 4 ∧ dataBytes = 0 ∨ 4 < payloadBytes ∧ payloadBytes ≤ dataBytes by omega)
    (show m1.field .dataCount + dataBytes ≤ m1.field .dataCapacity by
      rw [hfield1, hfield1]; omega)
  have hentry : m2.field .entryCount = dst.field .entryCount :=
    (hfield2 .entryCount).trans (hfield1 _)
  obtain ⟨hfield', hbyte'⟩ := countEntry_spec m2
    (clearSorted ((m2.setField .entryCount (m2.field .entryCount + 1)).field .flags))
    (by rw [hentry]; omega)
  have hflags : m'.field .flags = clearSorted (dst.field .flags) := by
    rw [← (Prod.mk.inj hadd).2, field_setField, if_pos rfl, field_setField, if_neg (by decide)]
    rw [hfield2, if_neg (by decide), hfield1]
    exact mod_eq_of_lt (Nat.and_le_left.trans_lt (dst.field_lt .flags))
  rw [(Prod.mk.inj hadd).2] at hfield' hbyte'
  refine ⟨by omega, by omega, fun f hf hf' hf'' => ?_, hflags, ?_, ?_, fun b hb hlt hout => ?_,
    fun hzero => ?_, fun hpos => ⟨?_, ?_⟩, fun hzero => ?_⟩
  · rw [hfield' f hf, if_neg hf', hfield2 f, if_neg hf'', hfield1]
  · rw [hfield' .entryCount (by decide), if_pos rfl, hentry]
  · rw [hfield' .dataCount (by decide), if_neg (by decide), hfield2, if_pos rfl, hfield1,
      hdataBytes]
  · rw [hentryOffset] at hout ⊢
    rw [hbyte' b hb]
    exact hsame2 b hb (by rw [hfield1, hfield1]; exact hlt) hout
  · rw [hentryOffset, hpayload, ← hinline (hdataBytes ▸ hzero)]
    exact slice_congr fun k hk => hbyte' _ (by omega)
  · rw [hentryOffset, ← hfield1 .dataCount, ← (houtline (hdataBytes ▸ hpos)).1]
    exact load_congr fun k hk => hbyte' _ (by omega)
  · rw [hpayload, ← (houtline (hdataBytes ▸ hpos)).2, hfield1, hfield1]
    exact slice_congr fun k hk => hbyte' _ (by omega)
  · -- nothing is copied into the entry after it has been cleared
    have hempty : m2 = m1 := by
      have hbytes : payloadBytes = 0 := by rw [← hpayload, hzero, zero_mul]
      have hnone : dataBytes = 0 := by omega
      show m1.addPayload entry _ dataBytes payloadBytes = m1
      rw [hbytes, hnone, addPayload_empty]
    rw [hentryOffset, ← hvalue1]
    exact load_congr fun k hk => (hbyte' _ (by omega)).trans (congrFun hempty _)

lemma Added.entryOffset_eq (hadded : Added dst m' tag type dataCount data) :
    m'.entryOffset (dst.field .entryCount) = dst.entryOffset (dst.field .entryCount) := by
  have hstart := hadded.fields .entriesStart (by decide) (by decide) (by decide)
  rw [entryOffset, hstart]
  rfl

/-- The new entry has what it was given. -/
lemma Added.holds (hadded : Added dst m' tag type dataCount data) (h : Layout dst)
    (htag : tag < 2 ^ 32) (htype : type < numTypes) (hcount : dataCount < 2 ^ 32) :
    Holds m' (dst.field .entryCount) tag type dataCount data := by
  have hoffset := hadded.entryOffset_eq
  have hentry := h.entryOffset (dst.field .entryCount)
  have hstart := h.dataStart
  have hroom := hadded.room
  have hsizeofEntry : sizeofEntry = 16 := rfl
  rw [hsizeofEntry] at hstart hentry
  obtain ⟨htag', hcount', htype', -⟩ := initEntry_loads dst
    (dst.entryOffset (dst.field .entryCount)) htag (htype.trans (by decide)) hcount
  refine ⟨?_, ?_, ?_, fun hzero => hoffset ▸ hadded.inline hzero, fun hpos => ?_⟩
  · show m'.load (m'.entryOffset (dst.field .entryCount)) 4 = tag
    rw [hoffset]
    exact (load_congr fun k hk => hadded.kept _ (by omega) (by omega) (by omega)).trans htag'
  · show m'.load (m'.entryOffset (dst.field .entryCount) + 4) 4 = dataCount
    rw [hoffset]
    exact (load_congr fun k hk => hadded.kept _ (by omega) (by omega) (by omega)).trans hcount'
  · show (m' (m'.entryOffset (dst.field .entryCount) + 12)).toNat = type
    rw [hoffset, hadded.kept _ (by omega) (by omega) (by omega)]
    exact htype'
  · have hvalue : (m'.entry (dst.field .entryCount)).offset = dst.field .dataCount :=
      (congrArg (fun o => m'.load (o + 8) 4) hoffset).trans (hadded.outOfLine hpos).1
    rw [hvalue, hadded.fields .dataStart (by decide) (by decide) (by decide)]
    exact (hadded.outOfLine hpos).2

/-- `add_camera_metadata_entry_raw` adds an entry with the values it is given. -/
lemma add_spec (h : Layout dst) {data : Option Memory}
    (htag : tag < 2 ^ 32) (htype : type < numTypes) (hfits : dataCount < 2 ^ 60)
    (hadd : dst.addCameraMetadataEntryRaw tag type data dataCount = (true, m')) :
    Layout m' ∧ (∀ f, f ≠ .flags → f ≠ .entryCount → f ≠ .dataCount → m'.field f = dst.field f) ∧
      m'.field .flags = clearSorted (dst.field .flags) ∧
      ∃ e : BufferEntry, View.Pushed dst.view m'.view e ∧ e.Valid ∧
        (dataCount = 0 → e.offset = 0) ∧ m'.view.item e =
          { tag, type, count := dataCount
            values :=
              (data.getD fun _ => 0).slice 0 (dataCount * cameraMetadataTypeSize type) } := by
  have hadded := add_added h htag htype hfits hadd
  obtain ⟨hbytes, hsize⟩ := entryDataSize_cases htype hfits
  have hpositive : dataCount ≤ dataCount * cameraMetadataTypeSize type :=
    Nat.le_mul_of_pos_right _ (cameraMetadataTypeSize_pos htype)
  have hentryCount := hadded.entryCount_eq
  have hdataCount := hadded.dataCount_eq
  have hroom := hadded.room
  have hdataRoom := hadded.dataRoom
  have hlayout := h.fits
  have hstart := h.dataStart
  have hentry := h.entryOffset (dst.field .entryCount)
  have hsizeofEntry : sizeofEntry = 16 := rfl
  rw [hsizeofEntry] at hstart hentry
  have hholds := hadded.holds h htag htype (by omega)
  -- nothing but the new entry and its data is written
  have hold {b : Nat} (hb : sizeofMetadata ≤ b)
      (hlt : b < dst.field .dataStart + dst.field .dataCount)
      (hout : b < dst.entryOffset (dst.field .entryCount) ∨
        dst.entryOffset (dst.field .entryCount) + 16 ≤ b) : m' b = dst b :=
    (hadded.kept b hb hlt (by omega)).trans (initEntry_outside (by omega))
  have hvalue : (m'.entry (dst.field .entryCount)).offset =
      m'.load (dst.entryOffset (dst.field .entryCount) + 8) 4 :=
    congrArg (fun o => m'.load (o + 8) 4) hadded.entryOffset_eq
  refine ⟨h.of_fields (fun f hf => hadded.fields f ?_ ?_ ?_) (by omega) (by omega), hadded.fields,
    hadded.flags, m'.entry (dst.field .entryCount), ⟨?_, ?_, fun hpos => ?_, fun b hb => ?_⟩,
    hholds.valid htype, fun hzero => hvalue.trans (hadded.empty hzero), hholds.item htype⟩
  · rintro rfl; cases hf
  · rintro rfl; cases hf
  · rintro rfl; cases hf
  · refine entries_append h (hadded.fields .entriesStart (by decide) (by decide) (by decide))
      hentryCount (fun b hb hlt => hold hb (by omega) (.inl hlt)) fun i hi => ?_
    obtain rfl : i = 0 := by simpa using hi
    rfl
  · show m'.field .dataCount = dst.field .dataCount + _
    rw [hdataCount, hholds.dataSize]
  · exact hvalue.trans (hadded.outOfLine (hholds.dataSize ▸ hpos)).1
  · show m' (m'.field .dataStart + b) = dst (dst.field .dataStart + b)
    rw [hadded.fields .dataStart (by decide) (by decide) (by decide)]
    exact hold (by omega) (Nat.add_lt_add_left hb _) (by omega)

end CameraMetadata

end Camera
