import AlpsSystem.Camera.Metadata

/-!
# What a validated buffer confines

* `confined_iff` — a buffer that passes `validate_camera_metadata_structure` is confined if its
  entries end before its data.  The check counts one byte for an entry, not `sizeofEntry`.
-/

namespace Camera

open Traced

namespace CameraMetadata

variable {ops : VendorOps} {lib : BinarySearch} {m : CameraMetadata} {n metadata i tag : Nat}

/-- Nothing but the first `n` bytes belongs to the buffer. -/
structure Confined (ops : VendorOps) (lib : BinarySearch) (metadata : Nat) (m : CameraMetadata)
    (n : Nat) : Prop where
  entries_before_data :
    m.field .entriesStart + sizeofEntry * m.field .entryCapacity ≤ m.field .dataStart
  entries_inside : m.field .entriesStart + sizeofEntry * m.field .entryCapacity ≤ n
  data_inside : m.field .dataStart + m.field .dataCapacity ≤ n
  types : ∀ i < m.field .entryCount, (m.entry i).type < numTypes
  outOfLine : ∀ i < m.field .entryCount,
    4 < (m.entry i).count * cameraMetadataTypeSize (m.entry i).type →
      (m.entry i).offset + (m.entry i).count * cameraMetadataTypeSize (m.entry i).type ≤
        m.field .dataCapacity
  validate_reads : (m.validateCameraMetadataStructure ops metadata (some n)).Inside n
  get_reads : ∀ i < m.field .entryCount, (m.getCameraMetadataEntry i).Inside n
  find_reads : ∀ tag, (m.findCameraMetadataEntry lib tag).Inside n

/-! ## Reading -/

/-- The linear search finds one of the entries. -/
lemma searchTag_lt :
    ∀ {remaining i k : Nat}, (m.searchTag tag remaining i).value = some k → k < i + remaining
  | 0, _, _, h => nomatch h
  | remaining + 1, i, k, h => by
    simp only [searchTag, value_bind] at h
    split at h
    · cases h
      omega
    · have hlt := searchTag_lt h
      omega

lemma findIndex_lt (h : (m.findIndex lib tag).value = some i) : i < m.field .entryCount := by
  simp only [findIndex, value_bind] at h
  split at h
  · exact lib.search_lt _ _ _ h
  · have hlt := searchTag_lt h
    rwa [zero_add] at hlt

section

variable (hn : sizeofMetadata ≤ n)

include hn

lemma readField_inside (f : Field) : (m.readField f).Inside n := by
  have hend : f.offset + f.width ≤ sizeofMetadata := by cases f <;> decide
  exact inside_access (hend.trans hn)

section

variable (hentry : m.entryOffset i + sizeofEntry ≤ n) {alignmentOffset : Nat}

include hentry

lemma readEntry_inside : (m.readEntry i).Inside n :=
  inside_bind (readField_inside hn _) (inside_access hentry)

lemma readTag_inside : (m.readTag i).Inside n := by
  refine inside_bind (readField_inside hn _) (inside_access ?_)
  exact le_trans (Nat.add_le_add_left (show 4 ≤ sizeofEntry by decide) _) hentry

omit hentry in
theorem validateHeader_inside (expectedSize : Option Nat) :
    (m.validateHeader expectedSize).Inside n := by
  have hfield := readField_inside (m := m) hn
  have hexpected : (m.exceedsExpected expectedSize).Inside n := by
    cases expectedSize with
    | none => exact inside_pure
    | some expected => exact inside_bind (hfield _) inside_pure
  unfold validateHeader
  refine inside_bind hexpected (inside_ite inside_pure ?_)
  refine inside_bind (hfield _) (inside_bind (hfield _) ?_)
  refine inside_ite inside_pure ?_
  refine inside_bind (hfield _) (inside_bind (hfield _) ?_)
  refine inside_ite inside_pure ?_
  refine inside_bind (hfield _) (inside_bind (hfield _) ?_)
  refine inside_ite inside_pure ?_
  exact inside_bind (hfield _) inside_pure

lemma validateEntry_inside : (m.validateEntry ops metadata alignmentOffset i).Inside n := by
  have hfield := readField_inside (m := m) hn
  refine inside_bind (hfield _) ?_
  refine inside_ite inside_pure ?_
  refine inside_bind (readEntry_inside hn hentry) ?_
  refine inside_ite inside_pure ?_
  refine inside_bind (hfield _) ?_
  refine inside_ite inside_pure ?_
  split
  · exact inside_pure
  · refine inside_ite ?_ inside_pure
    refine inside_bind (hfield _) ?_
    refine inside_ite inside_pure ?_
    exact inside_bind (hfield _) inside_pure

end

lemma validateEntries_inside :
    ∀ {remaining i : Nat}, (∀ k < i + remaining, m.entryOffset k + sizeofEntry ≤ n) →
      (m.validateEntries ops metadata alignmentOffset remaining i).Inside n
  | 0, _, _ => inside_pure
  | remaining + 1, i, hentries => by
    refine inside_bind (validateEntry_inside hn (hentries i (by omega))) ?_
    refine inside_ite ?_ inside_pure
    exact validateEntries_inside fun k hk => hentries k (by omega)

lemma validate_inside (expectedSize : Option Nat)
    (hentries : ∀ i < m.field .entryCount, m.entryOffset i + sizeofEntry ≤ n) :
    (m.validateCameraMetadataStructure ops metadata expectedSize).Inside n := by
  refine inside_ite inside_pure ?_
  refine inside_ite inside_pure ?_
  refine inside_bind (validateHeader_inside hn _) ?_
  refine inside_ite ?_ inside_pure
  refine inside_bind (readField_inside hn _) ?_
  refine inside_bind (validateEntries_inside hn fun k hk => hentries k ?_) ?_
  · rwa [zero_add] at hk
  · exact inside_ite inside_pure inside_pure

lemma get_inside
    (hentry : m.entryOffset i + sizeofEntry ≤ n) : (m.getCameraMetadataEntry i).Inside n := by
  have hfield := readField_inside (m := m) hn
  refine inside_bind (hfield _) (inside_ite inside_pure ?_)
  refine inside_bind (readEntry_inside hn hentry) (inside_bind ?_ inside_pure)
  exact inside_ite (inside_bind (hfield _) inside_pure) inside_pure

lemma searchTag_inside :
    ∀ {remaining i : Nat}, (∀ k < i + remaining, m.entryOffset k + sizeofEntry ≤ n) →
      (m.searchTag tag remaining i).Inside n
  | 0, _, _ => inside_pure
  | remaining + 1, i, hentries => by
    refine inside_bind (readTag_inside hn (hentries i (by omega))) ?_
    refine inside_ite inside_pure ?_
    exact searchTag_inside fun k hk => hentries k (by omega)

lemma searchSorted_inside {count : Nat}
    (hentries : ∀ i < count, m.entryOffset i + sizeofEntry ≤ n) :
    (m.searchSorted lib tag count).Inside n := by
  intro a ha
  obtain ⟨i, hi, ha⟩ := List.mem_flatMap.mp ha
  exact readTag_inside hn (hentries i (lib.probes_lt _ _ i hi)) a ha

lemma findIndex_inside (tag : Nat)
    (hentries : ∀ i < m.field .entryCount, m.entryOffset i + sizeofEntry ≤ n) :
    (m.findIndex lib tag).Inside n := by
  have hfield := readField_inside (m := m) hn
  refine inside_bind (hfield _) (inside_bind (hfield _) ?_)
  refine inside_ite (searchSorted_inside hn hentries) ?_
  exact searchTag_inside hn fun k hk => hentries k (by rwa [zero_add] at hk)

lemma find_inside (tag : Nat)
    (hentries : ∀ i < m.field .entryCount, m.entryOffset i + sizeofEntry ≤ n) :
    (m.findCameraMetadataEntry lib tag).Inside n := by
  refine inside_bind (findIndex_inside hn tag hentries) ?_
  split
  · exact inside_pure
  · next index hindex => exact get_inside hn (hentries index (findIndex_lt hindex))

end

/-! ## What has been checked -/

lemma validateHeader_true (h : (m.validateHeader (some n)).value) :
    m.field .entryCount ≤ m.field .entryCapacity ∧
      m.field .dataStart + m.field .dataCapacity ≤ n := by
  have hcapacity : m.field .dataCapacity < 2 ^ 32 := m.field_lt .dataCapacity
  simp only [validateHeader, exceedsExpected, readField, value_bind, value_ite,
    value_pure, decide_eq_true_eq] at h
  split at h
  · cases h
  split at h
  · cases h
  split at h
  · cases h
  split at h
  · cases h
  simp only [Bool.not_eq_true', Bool.or_eq_false_iff, decide_eq_false_iff_not] at h
  omega

lemma validateAndCalculateDataSize_some {type dataCount dataSize : Nat}
    (h : validateAndCalculateDataSize type dataCount = some dataSize)
    (hcount : dataCount < 2 ^ 32) (hlarge : 4 < dataCount * cameraMetadataTypeSize type) :
    dataSize ≠ 0 ∧ dataCount * cameraMetadataTypeSize type ≤ dataSize ∧ dataSize < 2 ^ 36 := by
  have hbytes : dataCount * cameraMetadataTypeSize type < 2 ^ 35 :=
    calc dataCount * cameraMetadataTypeSize type
      _ ≤ dataCount * 8 := Nat.mul_le_mul_left _ (cameraMetadataTypeSize_le type)
      _ < 2 ^ 35 := by omega
  have halign := alignTo_eight
    (show dataCount * cameraMetadataTypeSize type < 2 ^ 64 - 8 by omega)
  unfold validateAndCalculateDataSize at h
  split at h
  · cases h
  split at h
  · cases h
  dsimp only at h
  rw [Nat.mod_eq_of_lt (by omega), if_neg (by omega)] at h
  cases h
  omega

section

variable (h : (m.validateEntry ops metadata alignmentOffset i).value = true)

include h

lemma validateEntry_true :
    (m.entry i).type < numTypes ∧ (4 < (m.entry i).count * cameraMetadataTypeSize (m.entry i).type →
        (m.entry i).offset + (m.entry i).count * cameraMetadataTypeSize (m.entry i).type ≤
          m.field .dataCapacity) := by
  simp only [validateEntry, readField, readEntry, value_bind, value_ite, value_pure] at h
  split at h
  · cases h
  split at h
  · cases h
  rename_i htype
  refine ⟨not_le.mp htype, fun hlarge => ?_⟩
  split at h
  · cases h
  split at h
  · cases h
  next dataSize hsize =>
    obtain ⟨hne, hle, hlt⟩ := validateAndCalculateDataSize_some hsize (m.load_lt _ 4) hlarge
    simp only [value_bind, value_ite, value_pure, if_pos hne] at h
    split at h
    · cases h
    simp only [Bool.not_eq_true', Bool.or_eq_false_iff, decide_eq_false_iff_not] at h
    omega

lemma validateEntry_empty (hcount : (m.entry i).count = 0) : (m.entry i).offset = 0 := by
  simp only [validateEntry, readEntry, value_bind, value_ite] at h
  split at h
  · cases h
  split at h
  · cases h
  split at h
  · cases h
  split at h
  · cases h
  next dataSize hsize =>
    have hzero : dataSize = 0 := by
      unfold validateAndCalculateDataSize at hsize
      rw [hcount] at hsize
      split at hsize
      · cases hsize
      · simp at hsize
        exact hsize.symm
    simp only [hzero, ne_eq, not_true_eq_false, if_false, value_pure, hcount, decide_true,
      Bool.true_and, Bool.not_eq_true', decide_eq_false_iff_not, not_not] at h
    exact h

end

lemma validateEntries_true :
    ∀ {remaining i : Nat}, (m.validateEntries ops metadata alignmentOffset remaining i).value →
      ∀ k, i ≤ k → k < i + remaining → (m.validateEntry ops metadata alignmentOffset k).value
  | 0, i, _, k, hle, hlt => by omega
  | remaining + 1, i, h, k, hle, hlt => by
    simp only [validateEntries, value_bind] at h
    split at h
    · next hentry =>
      rcases Nat.eq_or_lt_of_le hle with rfl | hlt'
      · exact hentry
      · exact validateEntries_true h k hlt' (by omega)
    · cases h

lemma validate_ok {expectedSize : Option Nat}
    (h : (m.validateCameraMetadataStructure ops metadata expectedSize).value = .ok) :
    (m.validateHeader expectedSize).value ∧ ∃ alignmentOffset, ∀ i < m.field .entryCount,
      (m.validateEntry ops metadata alignmentOffset i).value := by
  simp only [validateCameraMetadataStructure, value_bind, value_ite] at h
  split at h
  · cases h
  split at h
  · cases h
  split at h
  · next hheader =>
    split at h
    · next hentries =>
      refine ⟨hheader, _, fun i hi => validateEntries_true hentries i (Nat.zero_le i) ?_⟩
      rwa [zero_add]
    · cases h
  · cases h

/-- A buffer that has been validated is confined if its entries end before its data. -/
theorem confined_iff (ops : VendorOps) (lib : BinarySearch) (metadata : Nat) (m : CameraMetadata)
    (n : Nat) (hn : sizeofMetadata ≤ n)
    (hvalid : (m.validateCameraMetadataStructure ops metadata (some n)).value = .ok) :
    m.Confined ops lib metadata n ↔
      m.field .entriesStart + sizeofEntry * m.field .entryCapacity ≤ m.field .dataStart := by
  obtain ⟨hheader, alignmentOffset, hentry⟩ := validate_ok hvalid
  obtain ⟨hcount, hdata⟩ := validateHeader_true hheader
  refine ⟨Confined.entries_before_data, fun hbefore => ?_⟩
  have hentries : ∀ i < m.field .entryCount, m.entryOffset i + sizeofEntry ≤ n := by
    intro i hi
    unfold entryOffset sizeofEntry at *
    omega
  exact
    { entries_before_data := hbefore
      entries_inside := by omega
      data_inside := hdata
      types := fun i hi => (validateEntry_true (hentry i hi)).1
      outOfLine := fun i hi => (validateEntry_true (hentry i hi)).2
      validate_reads := validate_inside hn _ hentries
      get_reads := fun i hi => get_inside hn (hentries i hi)
      find_reads := fun tag => find_inside hn tag hentries }

end CameraMetadata

/-- No functions of a vendor are set. -/
def noVendorOps : VendorOps := ⟨none, none⟩

/-- A search that compares every element. -/
def sampleSearch : BinarySearch where
  search n cmp := (List.range n).find? fun i => cmp i == .eq
  probes n _ := List.range n
  probes_lt _ _ _ hi := List.mem_range.mp hi
  search_lt _ _ _ h := List.mem_range.mp (List.mem_of_find?_eq_some h)

/-- A header, and the bytes of the entries and data. -/
def sampleMetadata (size entryCount entryCapacity dataStart dataCapacity : Nat)
    (rest : List UInt8) : CameraMetadata :=
  let words := [size, 1, 0, entryCount, entryCapacity, 48, dataCapacity, dataCapacity, dataStart]
  Memory.ofList (words.flatMap (LittleEndian.encode 4) ++ List.replicate 12 0 ++ rest)

/-- One entry, of `ANDROID_COLOR_CORRECTION_TRANSFORM`, whose value is in the data section. -/
def sampleConfined : CameraMetadata :=
  sampleMetadata 72 1 1 64 8
    ([1, 0, 0, 0, 1, 0, 0, 0, 0, 0, 0, 0, 5, 0, 0, 0] ++ [1, 0, 0, 0, 2, 0, 0, 0])

namespace CameraMetadata

theorem confined_sampleConfined :
    (sampleConfined.validateCameraMetadataStructure noVendorOps 0x1000 (some 72)).value = .ok ∧
      sampleConfined.Confined noVendorOps sampleSearch 0x1000 72 := by
  have hvalid :
      (sampleConfined.validateCameraMetadataStructure noVendorOps 0x1000 (some 72)).value =
        .ok := by
    decide
  exact ⟨hvalid, (confined_iff noVendorOps sampleSearch 0x1000 sampleConfined 72 (by decide)
    hvalid).mpr (by decide)⟩

/-- A buffer of 49 bytes whose header has room for an entry in one byte: it passes the validation,
which reads the 15 bytes after the buffer, as does `get_camera_metadata_entry`. -/
theorem validated_not_confined :
    let m := sampleMetadata 49 1 1 49 0 []
    let validation := m.validateCameraMetadataStructure noVendorOps 0x1000 (some 49)
    validation.value = .ok ∧ ¬ validation.Inside 49 ∧ ¬ (m.getCameraMetadataEntry 0).Inside 49 ∧
      49 < m.field .entriesStart + sizeofEntry * m.field .entryCapacity ∧
      m.field .dataStart < m.field .entriesStart + sizeofEntry * m.field .entryCapacity := by
  decide

end CameraMetadata

end Camera
