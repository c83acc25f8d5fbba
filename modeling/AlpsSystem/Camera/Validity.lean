import AlpsSystem.Camera.Sorting

/-!
# Buffers that have been built are valid

* `validates_iff` — operations on buffers whose sizes fit their headers leave valid buffers, as
  long as no entry loses its values and keeps an offset.
-/

namespace Camera

open Runs (EachStep Throughout throughout_iff_of_forall)

open List

/-- An address with the alignment of `get_camera_metadata_alignment`. -/
structure PacketAddress (metadata : Nat) : Prop where
  ne_zero : metadata ≠ 0
  lt : metadata < 2 ^ 64
  aligned : metadata % 8 = 0

namespace CameraMetadata

/-- The validation succeeds, whatever the functions of the vendor are. -/
def Validates (m : CameraMetadata) : Prop :=
  ∀ ops metadata expectedSize, PacketAddress metadata → (∀ n ∈ expectedSize, m.field .size ≤ n) →
    (m.validateCameraMetadataStructure ops metadata expectedSize).value = .ok

end CameraMetadata

/-! ## Entries -/

/-- What is checked of an entry, without the end of its data. -/
structure BufferEntry.Checkable (e : BufferEntry) : Prop where
  type : e.tag / 2 ^ 16 < vendorSection → ∀ ops id,
    (getLocalCameraMetadataTagType ops e.tag id).map MetadataType.toNat = some e.type
  aligned : 0 < e.dataSize → e.offset % 8 = 0
  empty : e.count = 0 → e.offset = 0

/-- The tags that are not those of a vendor have the types of the table. -/
lemma getLocalCameraMetadataTagType_congr {tag : Nat} (h : tag / 2 ^ 16 < vendorSection)
    (ops ops' : VendorOps) (id id' : Nat) :
    getLocalCameraMetadataTagType ops tag id = getLocalCameraMetadataTagType ops' tag id' := by
  simp only [getLocalCameraMetadataTagType, if_neg h.not_ge]

namespace BufferEntry

variable {e : BufferEntry}

lemma Valid.dataSize_mod (h : e.Valid) : e.dataSize % 8 = 0 := by
  have hlt := h.valueBytes_lt
  have halign := alignTo_eight (show e.valueBytes < 2 ^ 64 - 8 by omega)
  rw [h.dataSize_eq]
  split
  · exact halign.2.2
  · rfl

lemma dataSize_empty (h : e.count = 0) : e.dataSize = 0 := by
  unfold dataSize calculateCameraMetadataEntryDataSize
  rw [h]
  simp

/-- An entry whose data are moved by a multiple of the alignment. -/
lemma Checkable.withOffset (h : e.Checkable) {offset : Nat} (hpos : 0 < e.dataSize)
    (hoffset : offset % 8 = 0) : (e.withOffset offset).Checkable where
  type := h.type
  aligned _ := by
    rw [offset_withOffset]
    omega
  empty hzero := absurd (dataSize_empty (e := e) hzero) (by omega)

lemma Checkable.moveUp (h : e.Checkable) {d : Nat} (hd : d % 8 = 0) : (e.moveUp d).Checkable := by
  unfold BufferEntry.moveUp
  split
  · next hpos =>
    have haligned := h.aligned hpos
    exact h.withOffset hpos (by omega)
  · exact h

lemma Checkable.moveDown (h : e.Checkable) {o s : Nat} (hs : s % 8 = 0) :
    (e.moveDown o s).Checkable := by
  unfold BufferEntry.moveDown
  split
  · next hmove =>
    have haligned := h.aligned hmove.1
    exact h.withOffset hmove.1 (by omega)
  · exact h

end BufferEntry

/-! ## Validation -/

variable {val : Nat}

lemma alignTo_four_self (h : val % 4 = 0) (hlt : val < 2 ^ 64) : alignTo val 4 = val := by
  unfold alignTo
  omega

lemma alignTo_eight_self (h : val % 8 = 0) (hlt : val < 2 ^ 64) : alignTo val 8 = val := by
  unfold alignTo
  omega

open CameraMetadata Traced

namespace CameraMetadata

variable {m m' dst src : CameraMetadata} {ops : VendorOps}
  {metadata i entryCapacity dataCapacity dataCount index : Nat} {e : BufferEntry} {data : Memory}

/-- The invariant of a buffer. -/
structure Checkable (m : CameraMetadata) : Prop where
  good : m.Good
  size_ge : m.field .dataStart + m.field .dataCapacity ≤ m.field .size
  aligned : m.field .dataCount % 8 = 0
  entries : ∀ e ∈ m.view.entries, e.Checkable

lemma validateAndCalculateDataSize_eq (h : e.Valid) :
    validateAndCalculateDataSize e.type e.count = some e.dataSize := by
  have hcount := h.count_lt
  have hsize := cameraMetadataTypeSize_le e.type
  have hroom : ¬ (e.count ≠ 0 ∧
      cameraMetadataTypeSize e.type > (2 ^ 64 - 1 - 8 + 1) / e.count) := by
    rintro ⟨hne, hgt⟩
    have hle : 8 ≤ (2 ^ 64 - 1 - 8 + 1) / e.count :=
      (Nat.le_div_iff_mul_le (pos_of_ne_zero hne)).mpr (by omega)
    omega
  unfold validateAndCalculateDataSize BufferEntry.dataSize calculateCameraMetadataEntryDataSize
  rw [if_neg h.type_lt.not_ge, if_neg hroom, if_neg h.type_lt.not_ge]

lemma validateHeader_ok (h : m.Checkable) {expectedSize : Option Nat}
    (hexpected : ∀ n ∈ expectedSize, m.field .size ≤ n) :
    (m.validateHeader expectedSize).value := by
  have hstart := h.good.layout.dataStart
  have hfits := h.good.layout.fits
  have hsize := h.size_ge
  have hnot : (m.exceedsExpected expectedSize).value = false := by
    cases expectedSize with
    | none => rfl
    | some n =>
      simp only [exceedsExpected, value_bind, value_pure]
      exact decide_eq_false (hexpected n rfl).not_gt
  unfold sizeofEntry at hstart
  simp only [validateHeader, readField, value_bind, value_ite, value_pure,
    hnot, Bool.false_eq_true, if_false]
  rw [h.good.layout.entriesStart, if_neg h.good.layout.count_le.not_gt,
    if_neg h.good.layout.data_le.not_gt, if_neg (by unfold sizeofMetadata at *; omega)]
  simp only [Bool.not_eq_true', Bool.or_eq_false_iff, decide_eq_false_iff_not]
  omega

lemma validateEntry_ok (h : m.Checkable) (hmetadata : metadata % 8 = 0)
    (hi : i < m.field .entryCount) : (m.validateEntry ops metadata 0 i).value := by
  have hmem := mem_of_getElem? (getElem?_view_entries hi)
  have hvalid := h.good.sound.valid _ hmem
  have hcheck := h.entries _ hmem
  have hstart := h.good.layout.dataStart
  have hfits := h.good.layout.fits
  have hdata := h.good.layout.data_le
  have haddress : (metadata + sizeofMetadata + sizeofEntry * i + 0) % 2 ^ 64 % 4 = 0 := by
    unfold sizeofMetadata sizeofEntry
    omega
  simp only [validateEntry, readField, readEntry, value_bind, value_ite]
  rw [h.good.layout.entriesStart, alignTo_four_self haddress (Nat.mod_lt _ (by decide)),
    if_neg (not_not.mpr rfl), if_neg hvalid.type_lt.not_ge, if_neg,
    validateAndCalculateDataSize_eq hvalid]
  · dsimp only
    by_cases hpos : 0 < (m.entry i).dataSize
    · have hend : (m.entry i).offset + (m.entry i).dataSize ≤ m.field .dataCount :=
        h.good.sound.end_le hmem hpos
      have haligned := hcheck.aligned hpos
      have hdataAddress : (metadata + m.field .dataStart + (m.entry i).offset + 0) % 2 ^ 64 % 8 =
          0 := by
        rw [hstart]
        unfold sizeofMetadata sizeofEntry
        omega
      rw [if_pos (by omega)]
      simp only [value_bind, value_ite, value_pure]
      rw [alignTo_eight_self hdataAddress (Nat.mod_lt _ (by decide)), if_neg (not_not.mpr rfl)]
      simp only [Bool.not_eq_true', Bool.or_eq_false_iff, decide_eq_false_iff_not]
      omega
    · rw [if_neg (by omega)]
      simp only [value_pure, Bool.not_eq_true', Bool.and_eq_false_iff,
        decide_eq_false_iff_not, not_not]
      by_cases hzero : (m.entry i).count = 0
      · exact .inr (hcheck.empty hzero)
      · exact .inl hzero
  · rintro ⟨htype, hsection⟩
    exact htype (hcheck.type hsection _ _)

lemma validateEntries_ok {alignmentOffset : Nat} : ∀ {remaining i : Nat},
    (∀ k, i ≤ k → k < i + remaining → (m.validateEntry ops metadata alignmentOffset k).value) →
    (m.validateEntries ops metadata alignmentOffset remaining i).value
  | 0, _, _ => rfl
  | remaining + 1, i, h => by
    simp only [validateEntries, Traced.value_bind]
    rw [if_pos (h i (Nat.le_refl i) (by omega))]
    exact validateEntries_ok fun k hle hlt => h k (by omega) (by omega)

lemma Checkable.validates (h : m.Checkable) : m.Validates := by
  intro ops metadata expectedSize haddress hexpected
  have haligned := haddress.aligned
  have hlt := haddress.lt
  have hzero : (alignTo metadata 8 + 2 ^ 64 - metadata) % 2 ^ 64 = 0 := by
    rw [alignTo_eight_self haligned hlt]
    omega
  have hmetadata : (metadata + 0) % 2 ^ 64 = metadata := Nat.mod_eq_of_lt hlt
  have hall : ([4, 4, 8].all fun alignment => metadata == alignTo metadata alignment) := by
    simp [alignTo_four_self (show metadata % 4 = 0 by omega) hlt, alignTo_eight_self haligned hlt]
  simp only [validateCameraMetadataStructure, value_bind, value_ite, value_pure, readField]
  rw [if_neg haddress.ne_zero, hzero, hmetadata, if_neg (not_not.mpr hall),
    if_pos (validateHeader_ok h hexpected), if_pos, if_pos rfl]
  exact validateEntries_ok fun k _ hk => validateEntry_ok h haligned (by simpa using hk)

/-- An entry without values whose offset is not zero is rejected. -/
lemma not_validates (hi : i < m.field .entryCount) (hcount : (m.entry i).count = 0)
    (hoffset : (m.entry i).offset ≠ 0) : ¬ m.Validates := by
  intro hvalid
  have hok := hvalid noVendorOps 8 none ⟨by decide, by decide, by decide⟩ nofun
  obtain ⟨-, alignmentOffset, hentry⟩ := validate_ok hok
  exact hoffset (validateEntry_empty (hentry i hi) hcount)

/-! ## One operation -/

lemma calculateCameraMetadataSize_bounds
    (h : sizeofMetadata + sizeofEntry * entryCapacity + dataCapacity ≤ 2 ^ 32 - 8) :
    sizeofMetadata + sizeofEntry * entryCapacity + dataCapacity ≤
      calculateCameraMetadataSize entryCapacity dataCapacity % 256 ^ 4 := by
  unfold calculateCameraMetadataSize alignTo sizeofMetadata sizeofEntry at *
  dsimp only
  omega

lemma allocate_checkable {memory : Option Memory}
    (hfits : sizeofMetadata + sizeofEntry * entryCapacity + dataCapacity ≤ 2 ^ 32 - 8)
    (hallocate : allocateCameraMetadata entryCapacity dataCapacity memory = some m) :
    m.Checkable := by
  have hlt : sizeofMetadata + sizeofEntry * entryCapacity + dataCapacity < 2 ^ 32 :=
    hfits.trans_lt (by decide)
  obtain ⟨hlayout, hdata, hentries, -, -, hcapacity, hdataCapacity, hsize⟩ :=
    allocate_spec hlt hallocate
  refine ⟨(allocate_contents hlt hallocate).1, ?_, ?_, ?_⟩
  · rw [hlayout.dataStart, hcapacity, hdataCapacity, hsize]
    exact calculateCameraMetadataSize_bounds hfits
  · rw [hdata]
  · rw [hentries]
    nofun

lemma Checkable.compacted (h : src.Checkable) (hcopy : Compacted src m') : m'.Checkable := by
  have hcount := h.good.layout.count_le
  have hdata := h.good.layout.data_le
  have hstart := h.good.layout.dataStart
  have hsize := h.size_ge
  have hlt : src.field .size < 2 ^ 32 := src.field_lt .size
  have haligned := h.aligned
  refine ⟨(hcopy.contents h.good).1, ?_, ?_, ?_⟩
  · rw [hcopy.layout.dataStart, hcopy.entryCapacity, hcopy.dataCapacity, hcopy.size]
    refine calculateCameraMetadataSize_bounds ?_
    unfold sizeofMetadata sizeofEntry at *
    omega
  · exact (congrArg (· % 8) hcopy.copied.dataCount).trans haligned
  · rw [hcopy.copied.entries]
    exact h.entries

/-- The size of the buffer is not changed by an operation on the entries. -/
lemma Checkable.of_fixed (h : m.Checkable) (hgood : m'.Good)
    (hfixed : ∀ f, Field.isFixed f → m'.field f = m.field f)
    (haligned : m'.view.dataCount % 8 = 0) (hentries : ∀ e ∈ m'.view.entries, e.Checkable) :
    m'.Checkable := by
  refine ⟨hgood, ?_, haligned, hentries⟩
  rw [hfixed _ rfl, hfixed _ rfl, hfixed _ rfl]
  exact h.size_ge

lemma add_checkable (h : m.Checkable) {tag : Nat} {data : Option Memory}
    (htag : tag < 2 ^ 32) (hfits : dataCount < 2 ^ 60)
    (hadd : m.addCameraMetadataEntry ops tag data dataCount = (true, m')) : m'.Checkable := by
  have hgood := (add_contents h.good htag hfits hadd).1
  unfold addCameraMetadataEntry at hadd
  split at hadd
  · cases hadd
  next type htype =>
  obtain ⟨-, hfields, -, e, hpush, hvalid, hempty, hitem⟩ :=
    add_spec h.good.layout htag type.toNat_lt hfits hadd
  have htag' : e.tag = tag := congrArg Item.tag hitem
  have htype' : e.type = type.toNat := congrArg Item.type hitem
  have hcount' : e.count = dataCount := congrArg Item.count hitem
  have haligned : m.view.dataCount % 8 = 0 := h.aligned
  have hsize := hvalid.dataSize_mod
  refine h.of_fixed hgood (fun f hf => hfields f ?_ ?_ ?_) ?_ fun e' he' => ?_
  · rintro rfl; cases hf
  · rintro rfl; cases hf
  · rintro rfl; cases hf
  · rw [hpush.dataCount]
    omega
  · rw [hpush.entries] at he'
    rcases mem_append.mp he' with hold | hnew
    · exact h.entries e' hold
    · rw [mem_singleton.mp hnew]
      refine ⟨fun hsection ops' id => ?_, fun hpos => ?_, fun hzero => hempty (by omega)⟩
      · rw [htag'] at hsection ⊢
        rw [getLocalCameraMetadataTagType_congr hsection ops' ops id (m.field .vendorId), htype,
          htype']
        rfl
      · rw [hpush.offset hpos]
        exact haligned

lemma append_checkable (h : m.Checkable) (hsrc : src.Checkable)
    (happend : m.appendCameraMetadata src = (true, m')) : m'.Checkable := by
  obtain ⟨-, hjoin, hfixed, -⟩ := append_spec h.good.layout happend
  have haligned : m.view.dataCount % 8 = 0 := h.aligned
  have haligned' : src.view.dataCount % 8 = 0 := hsrc.aligned
  refine h.of_fixed (append_contents h.good hsrc.good happend).1 hfixed ?_ fun e he => ?_
  · rw [hjoin.dataCount]
    omega
  · rw [hjoin.entries] at he
    rcases mem_append.mp he with hold | hnew
    · exact h.entries e hold
    · obtain ⟨e', he', rfl⟩ := mem_map.mp hnew
      exact (hsrc.entries e' he').moveUp haligned

lemma Checkable.dataCut {w : View} (h : m.Checkable) (hvalid : e.Valid)
    (hcut : View.DataCut m.view w e) : ∀ e' ∈ w.entries, e'.Checkable := by
  intro e' he'
  rcases hcut with hsame | hmoved
  · rw [hsame] at he'
    exact h.entries e' he'
  · rw [hmoved] at he'
    obtain ⟨e'', he'', rfl⟩ := mem_map.mp he'
    exact (h.entries e'' he'').moveDown hvalid.dataSize_mod

/-- The data of an entry are within the data of the buffer. -/
lemma Good.dataSize_le (h : m.Good) (hindex : index < m.field .entryCount) :
    (m.entry index).dataSize ≤ m.view.dataCount := by
  have hmem := mem_of_getElem? (getElem?_view_entries hindex)
  rcases eq_zero_or_pos (m.entry index).dataSize with hzero | hpos
  · omega
  · exact le_trans le_add_self (h.sound.end_le hmem hpos)

lemma delete_checkable (h : m.Checkable)
    (hdelete : m.deleteCameraMetadataEntry index = (true, m')) : m'.Checkable := by
  have hindex : index < m.field .entryCount := by
    unfold deleteCameraMetadataEntry at hdelete
    split at hdelete
    · cases hdelete
    · next hlt => exact not_le.mp hlt
  have hvalid := h.good.sound.valid _ (mem_of_getElem? (getElem?_view_entries hindex))
  obtain ⟨-, -, hfields, -, hdata, w, hcut, hentries⟩ :=
    delete_spec h.good.layout h.good.sound hdelete
  have haligned : m.view.dataCount % 8 = 0 := h.aligned
  have hsize := hvalid.dataSize_mod
  refine h.of_fixed (delete_contents h.good hdelete).1 (fun f hf => hfields f ?_ ?_) (by omega)
    fun e he => ?_
  · rintro rfl; cases hf
  · rintro rfl; cases hf
  · rw [hentries] at he
    exact h.dataCut hvalid hcut e (mem_of_mem_eraseIdx he)

lemma update_index (hupdate : m.updateCameraMetadataEntry index data dataCount = (true, m')) :
    index < m.field .entryCount := by
  unfold updateCameraMetadataEntry at hupdate
  split at hupdate
  · cases hupdate
  · next hlt => exact not_le.mp hlt

/-- `update_camera_metadata_entry` leaves a valid buffer unless an entry loses its values and
keeps an offset. -/
lemma update_checkable (h : m.Checkable)
    (hfits : dataCount < 2 ^ 60) (hempty : dataCount = 0 → (m.entry index).offset = 0)
    (hupdate : m.updateCameraMetadataEntry index data dataCount = (true, m')) : m'.Checkable := by
  have hindex := update_index hupdate
  have hmem := mem_of_getElem? (getElem?_view_entries hindex)
  have hvalid := h.good.sound.valid _ hmem
  have hcheck := h.entries _ hmem
  have hupdated := update_spec h.good.layout h.good.sound hfits hupdate
  obtain ⟨⟨w, hcut, hentries⟩, hdata, htag, htype, hoffset⟩ := hupdated.replaced
  have hvalid' := entry_valid m' (by rw [htype]; exact hvalid.type_lt)
  have haligned : m.view.dataCount % 8 = 0 := h.aligned
  have hsize := hvalid.dataSize_mod
  have hsize' := hvalid'.dataSize_mod
  refine h.of_fixed (update_contents h.good hfits hupdate).1 (fun f hf => hupdated.fields f ?_)
    (by omega) fun e he => ?_
  · rintro rfl; cases hf
  · rw [hentries] at he
    rcases mem_or_eq_of_mem_set he with hold | rfl
    · exact h.dataCut hvalid hcut e hold
    · refine ⟨?_, fun hpos => ?_, fun hzero => ?_⟩
      · rw [htag, htype]
        exact hcheck.type
      · rcases hoffset hpos with ⟨hpos', hsame⟩ | hend
        · rw [hsame]
          exact hcheck.aligned hpos'
        · omega
      · have hzero' := hupdated.count.symm.trans hzero
        rw [hupdated.offset hzero']
        exact hempty hzero'

lemma sort_checkable (lib : Qsort) (h : m.Checkable) : (m.sortCameraMetadata lib).Checkable := by
  obtain ⟨hgood, hfields, hperm, -⟩ := sort_spec lib h.good
  refine h.of_fixed hgood (fun f hf => hfields f ?_) ?_ fun e he => ?_
  · rintro rfl; cases hf
  · rw [hperm.dataCount]
    exact h.aligned
  · exact h.entries e (hperm.entries.mem_iff.mp he)

end CameraMetadata

/-! ## Steps -/

/-- A buffer is allocated with a size that fits its field. -/
def SortOp.sizeFits : SortOp → Bool
  | .edit (.allocate entryCapacity dataCapacity _) =>
    decide (sizeofMetadata + sizeofEntry * entryCapacity + dataCapacity ≤ 2 ^ 32 - 8)
  | _ => true

/-- An entry loses its values only if its offset is zero. -/
def KeepsValid (buffers : List CameraMetadata) : SortOp → Prop
  | .edit (.update dst index _ dataCount) =>
    ∀ m ∈ buffers[dst]?, dataCount.count = 0 → index < m.field .entryCount →
      (m.entry index).offset = 0
  | _ => True

instance (buffers : List CameraMetadata) : (op : SortOp) → Decidable (KeepsValid buffers op)
  | .edit (.update dst index _ dataCount) => inferInstanceAs (Decidable
      (∀ m ∈ buffers[dst]?, dataCount.count = 0 → index < m.field .entryCount →
        (m.entry index).offset = 0))
  | .edit (.allocate ..) | .edit (.add ..) | .edit (.append ..) | .edit (.delete ..)
  | .edit (.copy ..) | .edit (.clone ..) | .sort _ => .isTrue trivial

section Steps

variable {buffers : List CameraMetadata} {ops : VendorOps} {lib : Qsort} {dst : Nat}
  {change : CameraMetadata → Bool × CameraMetadata}

/-- An update to no values of an entry with an offset succeeds, and the buffer is not valid. -/
lemma update_breaks {index : Nat} {data : Memory} {dataCount : DataCount} {m : CameraMetadata}
    (h : m.Checkable) (hm : buffers[dst]? = some m) (hzero : dataCount.count = 0)
    (hindex : index < m.field .entryCount) (hoffset : (m.entry index).offset ≠ 0) :
    ¬ ∀ m ∈ (step ops buffers (.update dst index data dataCount)).2, m.Validates := by
  intro hall
  rcases hresult : m.updateCameraMetadataEntry index data dataCount.count with ⟨ok, m'⟩
  have hmem : m' ∈ (step ops buffers (.update dst index data dataCount)).2 := by
    simp only [step, changeBuffer, hm, hresult]
    exact mem_set (List.getElem?_eq_some_iff.mp hm).1 m'
  have hok : ok := by
    -- there is always room for no data
    have hle := h.good.dataSize_le hindex
    have hdata := h.good.layout.data_le
    have hcount : m.view.dataCount = m.field .dataCount := rfl
    have hbytes : calculateCameraMetadataEntryDataSize (m.entry index).type 0 = 0 := by
      simp [calculateCameraMetadataEntryDataSize]
    unfold updateCameraMetadataEntry at hresult
    rw [if_neg hindex.not_ge, hzero] at hresult
    dsimp only at hresult
    rw [hbytes, if_neg (by omega)] at hresult
    exact (Prod.mk.inj hresult).1.symm
  subst hok
  have hupdated := update_spec h.good.layout h.good.sound dataCount.fits hresult
  have hcount : m'.field .entryCount = m.field .entryCount := hupdated.fields _ (by decide)
  refine not_validates (hcount.symm ▸ hindex) (hupdated.count.trans hzero) ?_
    (hall m' hmem)
  rw [hupdated.offset hzero]
  exact hoffset

lemma sortStep_checkable (h : ∀ m ∈ buffers, m.Checkable) (op : SortOp) (hfits : op.sizeFits) :
    (KeepsValid buffers op ∧ ∀ m ∈ sortStep ops lib buffers op, m.Checkable) ∨
      (¬ KeepsValid buffers op ∧ ¬ ∀ m ∈ sortStep ops lib buffers op, m.Validates) := by
  have hget {i : Nat} {m : CameraMetadata} (hm : buffers[i]? = some m) : m.Checkable :=
    h m (mem_of_getElem? hm)
  match op with
  | .sort dst =>
    exact .inl ⟨trivial, changeBuffer_forall h fun m hm =>
      sort_checkable lib (hget hm)⟩
  | .edit (.allocate entryCapacity dataCapacity memory) =>
    exact .inl ⟨trivial, newBuffer_forall h fun m hm =>
      allocate_checkable (of_decide_eq_true hfits) hm⟩
  | .edit (.add dst tag data dataCount) =>
    exact .inl ⟨trivial, changeBuffer_of_error h (fun _ _ => add_error)
      fun m m' hm hadd =>
        add_checkable (hget hm) tag.toNat_lt dataCount.fits hadd⟩
  | .edit (.append dst src) =>
    refine .inl ⟨trivial, ?_⟩
    simp only [sortStep, step]
    split
    · exact h
    · next m hm =>
      exact changeBuffer_of_error h (fun _ _ => append_error)
        fun m' m'' hm' happend =>
          append_checkable (hget hm') (hget hm) happend
  | .edit (.update dst index data dataCount) =>
    by_cases hkeep : KeepsValid buffers (.edit (.update dst index data dataCount))
    · refine .inl ⟨hkeep, changeBuffer_of_error h (fun _ _ => update_error)
        fun m m' hm hupdate => ?_⟩
      exact update_checkable (hget hm) dataCount.fits
        (fun hzero => hkeep m hm hzero (update_index hupdate)) hupdate
    · refine .inr ⟨hkeep, ?_⟩
      simp only [KeepsValid, not_forall] at hkeep
      obtain ⟨m, hm, hzero, hindex, hoffset⟩ := hkeep
      exact update_breaks (hget hm) hm hzero hindex hoffset
  | .edit (.delete dst index) =>
    exact .inl ⟨trivial, changeBuffer_of_error h (fun _ _ => delete_error)
      fun m m' hm hdelete => delete_checkable (hget hm) hdelete⟩
  | .edit (.copy dst dstSize src) =>
    refine .inl ⟨trivial, newBuffer_forall h fun m hm => ?_⟩
    obtain ⟨source, hsource, hcopy⟩ := Option.bind_eq_some_iff.mp hm
    exact (hget hsource).compacted
      (copy_spec (hget hsource).good.layout hcopy).1
  | .edit (.clone src memory) =>
    refine .inl ⟨trivial, newBuffer_forall h fun m hm => ?_⟩
    obtain ⟨source, hsource, hclone⟩ := Option.bind_eq_some_iff.mp hm
    exact (hget hsource).compacted (clone_spec (hget hsource).good.layout
      (hget hsource).good.sound hclone).1

/-- **Validity.**  All buffers are valid, as long as their sizes fit, exactly if no entry loses its
values and keeps an offset. -/
theorem validates_iff (ops : VendorOps) (lib : Qsort) (run : List SortOp)
    (hfits : ∀ op ∈ run, op.sizeFits = true) :
    Throughout (fun buffers => ∀ m ∈ buffers, m.Validates) (sortStep ops lib) [] run ↔
      EachStep KeepsValid (sortStep ops lib) [] run := by
  exact throughout_iff_of_forall
    (fun _ h m hm => (h m hm).validates)
    (fun buffers op h hop => sortStep_checkable h op hop) run hfits nofun

end Steps

/-- A value is added, replaced by none and sorted; its offset is zero. -/
def sampleValidRun : List SortOp :=
  [.edit (.allocate 4 32 (some fun _ => 0xFF)), .edit (.add 0 1 (some sampleData) oneValue),
    .edit (.update 0 0 sampleData noValues), .sort 0, .edit (.clone 0 (some fun _ => 0xFF))]

theorem validates_sampleValidRun :
    (∀ op ∈ sampleValidRun, op.sizeFits = true) ∧
      Throughout (fun buffers => ∀ m ∈ buffers, m.Validates)
        (sortStep ⟨none, none⟩ insertionQsort) [] sampleValidRun :=
  have hfits : ∀ op ∈ sampleValidRun, op.sizeFits := by decide
  ⟨hfits, (validates_iff ⟨none, none⟩ insertionQsort sampleValidRun hfits).mpr (by decide)⟩

/-- A value of `ANDROID_COLOR_CORRECTION_MODE` that is stored in the entry is replaced by none.  The
byte stays in the entry, where the validation takes it for an offset. -/
theorem emptied_entry_rejected :
    let m := ([.edit (.allocate 1 0 (some fun _ => 0)),
      .edit (.add 0 0 (some sampleData) ⟨1, by decide⟩),
      .edit (.update 0 0 sampleData ⟨0, by decide⟩)].foldl
        (sortStep ⟨none, none⟩ insertionQsort) []).getD 0 fun _ => 0
    m.field .entryCount = 1 ∧ (m.entry 0).count = 0 ∧ (m.entry 0).offset = 7 ∧
      (m.validateCameraMetadataStructure noVendorOps 0x1000 none).value = .error := by
  decide

end Camera
