import AlpsSystem.Camera.Appending

/-!
# Deleting and updating entries
-/

namespace Camera

open List Memory

namespace CameraMetadata

variable {m m' dst src : CameraMetadata} {index bytes : Nat} {data : Memory}

/-! ## Cutting out data -/

open BufferEntry

lemma shiftOffsets_spec (h : sizeofMetadata = m.field .entriesStart) (index bytes : Nat) :
    let m' := m.shiftOffsets index bytes
    (∀ b, (b < sizeofMetadata ∨ m.entryOffset (m.field .entryCount) ≤ b) → m' b = m b) ∧
    ∀ i < m.field .entryCount, m'.entry i = (m.entry i).moveDown (m.entry index).offset bytes := by
  obtain ⟨hsame, hentry⟩ := adjustOffsets_spec h.le 0 (m.field .entryCount) fun e =>
    if e.dataSize > 0 ∧ e.offset > (m.entry index).offset then some (e.offset + 2 ^ 64 - bytes)
    else none
  rw [zero_add] at hsame hentry
  refine ⟨fun b hb => hsame b ?_, fun i hi => (hentry i (Nat.zero_le i) hi).trans ?_⟩
  · rw [h] at hb
    exact hb
  · unfold adjustEntry moveDown
    split <;> simp_all

/-- The count of the data is decreased in 64 bits and cut to 32. -/
lemma mod_sub {start capacity count : Nat} (hle : count ≤ capacity)
    (hfits : start + capacity < 2 ^ 32) (hbytes : bytes ≤ count) :
    (count + 2 ^ 64 - bytes) % 256 ^ Field.dataCount.width = count - bytes := by
  show (count + 2 ^ 64 - bytes) % 2 ^ 32 = count - bytes
  omega

lemma getElem?_view_entries (hindex : index < m.field .entryCount) :
    m.view.entries[index]? = some (m.entry index) := by
  rw [show m.view.entries = m.entries from rfl, getElem?_entries, if_pos hindex]

section

variable (h : Layout m) {o s dataCount payloadBytes dataBytes : Nat}

include h

section

variable (hend : (m.entry index).offset + bytes ≤ m.field .dataCount)

include hend

lemma moveData_spec :
    let m' := m.moveData index bytes
    (∀ b < m.field .dataStart + (m.entry index).offset, m' b = m b) ∧
    ∀ b, (m.entry index).offset ≤ b → b + bytes < m.field .dataCount →
      m' (m.field .dataStart + b) = m (m.field .dataStart + (b + bytes)) := by
  have hdata := h.data_le
  have hfits := h.fits
  have hlength : ((m.field .dataCount + 2 ^ 32 - (m.entry index).offset) % 2 ^ 32 + 2 ^ 64 -
      bytes) % 2 ^ 64 = m.field .dataCount - (m.entry index).offset - bytes := by omega
  unfold moveData
  dsimp only
  rw [hlength]
  refine ⟨fun b hb => copy_outside (by omega), fun b hb hlt => ?_⟩
  rw [copy_inside (by omega) (by omega)]
  exact congrArg m (by omega)

/-- The data after an entry have been moved; the entries and the header, without the count of the
data, are as before. -/
structure DataMoved (m m' : CameraMetadata) (o s : Nat) : Prop where
  fields : ∀ f, f ≠ .dataCount → m'.field f = m.field f
  bytes : ∀ b, sizeofMetadata ≤ b → b < m.field .dataStart → m' b = m b
  before : ∀ b < o, m' (m.field .dataStart + b) = m (m.field .dataStart + b)
  after : ∀ b, o ≤ b → b + s < m.field .dataCount →
    m' (m.field .dataStart + b) = m (m.field .dataStart + (b + s))

lemma field_moveData (f : Field) : (m.moveData index bytes).field f = m.field f := by
  have hstart := h.dataStart
  exact field_congr (fun b hb => (moveData_spec h hend).1 b (by omega)) f

lemma moveData_moved : DataMoved m (m.moveData index bytes) (m.entry index).offset bytes := by
  obtain ⟨hsame, hmoved⟩ := moveData_spec h hend
  exact ⟨fun f _ => field_moveData h hend f, fun b _ hb => hsame b (by omega),
    fun b hb => hsame _ (by omega), hmoved⟩

end

lemma DataMoved.setDataCount (hmoved : DataMoved m m' o s)
    (value : Nat) : DataMoved m (m'.setField .dataCount value) o s := by
  have hstart := h.dataStart
  refine ⟨fun f hf => ?_, fun b hb hlt => ?_, fun b hb => ?_, fun b hb hlt => ?_⟩
  · rw [field_setField, if_neg hf.symm]
    exact hmoved.fields f hf
  · rw [setField_apply _ _ _ hb]
    exact hmoved.bytes b hb hlt
  · rw [setField_apply _ _ _ (by omega)]
    exact hmoved.before b hb
  · rw [setField_apply _ _ _ (by omega)]
    exact hmoved.after b hb hlt

/-- The entries of the buffer are as before. -/
lemma DataMoved.entry {i : Nat} (hmoved : DataMoved m m' o s)
    (hi : i < m.field .entryCount) : m'.entry i = m.entry i := by
  have hcount := h.count_le
  have hstart := h.dataStart
  refine entry_congr fun k hk => ?_
  have hoffset : m'.entryOffset i = m.entryOffset i := by
    unfold entryOffset
    rw [hmoved.fields _ (by decide)]
  rw [hoffset, h.entryOffset]
  unfold sizeofEntry at *
  exact hmoved.bytes _ (by omega) (by omega)

/-- The data of an entry, `s` bytes from the offset `o` on, are cut out. -/
structure CutOut (m m' : CameraMetadata) (o s : Nat) : Prop where
  fields : ∀ f, f ≠ .dataCount → m'.field f = m.field f
  entries : ∀ i < m.field .entryCount, m'.entry i = (m.entry i).moveDown o s
  before : ∀ b < o, m' (m.field .dataStart + b) = m (m.field .dataStart + b)
  after : ∀ b, o ≤ b → b + s < m.field .dataCount →
    m' (m.field .dataStart + b) = m (m.field .dataStart + (b + s))

lemma DataMoved.shift (hmoved : DataMoved m m' o s)
    (hindex : index < m.field .entryCount) (ho : (m.entry index).offset = o) :
    CutOut m (m'.shiftOffsets index s) o s ∧
      (m'.shiftOffsets index s).field .dataCount = m'.field .dataCount := by
  have hcount := h.count_le
  have hstart := h.dataStart
  have hentriesStart : m'.field .entriesStart = sizeofMetadata :=
    (hmoved.fields _ (by decide)).trans h.entriesStart
  have hentryCount : m'.field .entryCount = m.field .entryCount := hmoved.fields _ (by decide)
  obtain ⟨hsame, hentry⟩ := shiftOffsets_spec hentriesStart.symm index s
  have hoffset : m'.entryOffset (m'.field .entryCount) =
      sizeofMetadata + 16 * m.field .entryCount := by
    unfold entryOffset
    rw [hentriesStart, hentryCount]
    rfl
  rw [hoffset] at hsame
  unfold sizeofEntry at hstart
  have hfield (f : Field) : (m'.shiftOffsets index s).field f = m'.field f :=
    field_congr (fun b hb => hsame b (.inl hb)) f
  refine ⟨⟨fun f hf => (hfield f).trans (hmoved.fields f hf), fun i hi => ?_, fun b hb => ?_,
    fun b hb hlt => ?_⟩, hfield _⟩
  · rw [hentry i (by rw [hentryCount]; exact hi), hmoved.entry h hi, hmoved.entry h hindex, ho]
  · rw [hsame _ (.inr (by omega))]
    exact hmoved.before b hb
  · rw [hsame _ (.inr (by omega))]
    exact hmoved.after b hb hlt

lemma CutOut.setDataCount (hcut : CutOut m m' o s) (value : Nat) :
    CutOut m (m'.setField .dataCount value) o s := by
  have hstart := h.dataStart
  refine ⟨fun f hf => ?_, fun i hi => ?_, fun b hb => ?_, fun b hb hlt => ?_⟩
  · rw [field_setField, if_neg hf.symm]
    exact hcut.fields f hf
  · rw [entry_setField ((hcut.fields _ (by decide)).trans h.entriesStart) (by decide)]
    exact hcut.entries i hi
  · rw [setField_apply _ _ _ (by omega)]
    exact hcut.before b hb
  · rw [setField_apply _ _ _ (by omega)]
    exact hcut.after b hb hlt

lemma CutOut.layout (hcut : CutOut m m' o s)
    (hdata : m'.field .dataCount = m.field .dataCount - s) : Layout m' := by
  have hle := h.data_le
  refine h.of_fields (fun f hf => hcut.fields f ?_) ?_ (by omega)
  · rintro rfl
    cases hf
  · rw [hcut.fields _ (by decide)]
    exact h.count_le

omit h in
theorem CutOut.cut {e : BufferEntry} (hcut : CutOut m m' e.offset e.dataSize)
    (hdata : m'.field .dataCount = m.field .dataCount - e.dataSize) :
    View.Cut m.view m'.view e := by
  have hstart : m'.field .dataStart = m.field .dataStart := hcut.fields _ (by decide)
  refine ⟨?_, hdata, fun b hb => ?_, fun b hb hlt => ?_⟩
  · show (List.range (m'.field .entryCount)).map m'.entry =
      ((List.range (m.field .entryCount)).map m.entry).map _
    rw [hcut.fields _ (by decide), map_map]
    exact map_congr_left fun i hi => hcut.entries i (mem_range.mp hi)
  · show m' (m'.field .dataStart + b) = _
    rw [hstart]
    exact hcut.before b hb
  · show m' (m'.field .dataStart + b) = _
    rw [hstart]
    exact hcut.after b hb hlt

/-! ## Deleting -/

/-- The buffer without the data of one of its entries. -/
structure DataRemoved (m m' : CameraMetadata) (index : Nat) : Prop where
  layout : Layout m'
  fields : ∀ f, f ≠ .dataCount → m'.field f = m.field f
  dataCount : m'.field .dataCount = m.field .dataCount - (m.entry index).dataSize
  sound : m'.view.SoundExcept index
  sameItems : View.SameItems m.view m'.view index
  entry : m'.entry index = m.entry index
  dataCut : View.DataCut m.view m'.view (m.entry index)

section

variable (hindex : index < m.field .entryCount)

include hindex

lemma CutOut.dataRemoved (hsound : m.view.Sound) (hpos : 0 < (m.entry index).dataSize)
    (hcut : CutOut m m' (m.entry index).offset (m.entry index).dataSize)
    (hdata : m'.field .dataCount = m.field .dataCount - (m.entry index).dataSize) :
    DataRemoved m m' index where
  layout := hcut.layout h hdata
  fields := hcut.fields
  dataCount := hdata
  sound := (hcut.cut hdata).soundExcept (getElem?_view_entries hindex) hsound hpos
  sameItems := (hcut.cut hdata).sameItems (getElem?_view_entries hindex) hsound hpos
  entry := by
    rw [hcut.entries index hindex]
    exact if_neg fun hmove => lt_irrefl _ hmove.2
  dataCut := .inr (hcut.cut hdata).entries

lemma dataRemoved_self (hsound : m.view.Sound) (hzero : (m.entry index).dataSize = 0) :
    DataRemoved m m index where
  layout := h
  fields _ _ := rfl
  dataCount := by rw [hzero, Nat.sub_zero]
  sound := hsound.soundExcept (getElem?_view_entries hindex) hzero
  sameItems := View.SameItems.refl _ _
  entry := rfl
  dataCut := .inl rfl

/-- The entries after one are moved to where it is, and one less is counted. -/
lemma eraseEntry_spec :
    let m' := m.eraseEntry index
    Layout m' ∧ (∀ f, f ≠ .entryCount → m'.field f = m.field f) ∧
      View.Erased m.view m'.view index := by
  have hcount := h.count_le
  have hstart := h.dataStart
  have hcountLt := m.field_lt .entryCount
  have hoffset (i : Nat) : m.entryOffset i = sizeofMetadata + 16 * i := h.entryOffset i
  have hsizeofEntry : sizeofEntry = 16 := rfl
  unfold eraseEntry
  simp only [hoffset]
  rw [hsizeofEntry] at hstart ⊢
  generalize hm1 : m.copy (sizeofMetadata + 16 * index) m (sizeofMetadata + 16 * (index + 1))
    (16 * (m.field .entryCount - index - 1)) = m1
  have hfield1 (f : Field) : field m1 f = m.field f := by
    rw [← hm1]
    exact field_copy (by omega) f
  rw [hfield1]
  have hfields (f : Field) (hf : f ≠ .entryCount) :
      (setField m1 .entryCount (m.field .entryCount - 1)).field f = m.field f := by
    rw [field_setField, if_neg hf.symm]
    exact hfield1 f
  have hentryCount : (setField m1 .entryCount (m.field .entryCount - 1)).field .entryCount =
      m.field .entryCount - 1 := by
    rw [field_setField, if_pos rfl]
    exact Nat.mod_eq_of_lt ((Nat.sub_le _ 1).trans_lt hcountLt)
  refine ⟨h.of_fields (fun f hf => hfields f ?_) (by omega) ?_, hfields, ?_, ?_, ?_⟩
  · rintro rfl
    cases hf
  · rw [hfields _ (by decide)]
    exact h.data_le
  · have hentry (j i : Nat) (hbyte : ∀ k < 16, m1 (sizeofMetadata + 16 * j + k) =
        m (sizeofMetadata + 16 * i + k)) :
        entry (setField m1 .entryCount (m.field .entryCount - 1)) j = m.entry i := by
      rw [entry_setField ((hfield1 _).trans h.entriesStart) (by decide)]
      refine entry_congr fun k hk => ?_
      rw [hoffset, entryOffset, hfield1, h.entriesStart]
      exact hbyte k hk
    refine ext_getElem? fun j => ?_
    show (entries (setField m1 .entryCount (m.field .entryCount - 1)))[j]? =
      (m.entries.eraseIdx index)[j]?
    rw [List.getElem?_eraseIdx, getElem?_entries, getElem?_entries, getElem?_entries, hentryCount]
    by_cases hj : j < index
    · rw [if_pos hj, if_pos (by omega), if_pos (by omega), hentry j j fun k hk => ?_]
      rw [← hm1]
      exact copy_outside (by omega)
    · rw [if_neg hj]
      by_cases hlt : j < m.field .entryCount - 1
      · rw [if_pos hlt, if_pos (by omega), hentry j (j + 1) fun k hk => ?_]
        rw [← hm1, copy_inside (by omega) (by omega)]
        exact congrArg m (by omega)
      · rw [if_neg hlt, if_neg (by omega)]
  · exact hfields _ (by decide)
  · intro b _
    show setField m1 .entryCount _ ((setField m1 .entryCount _).field .dataStart + b) =
      m (m.field .dataStart + b)
    rw [hfields _ (by decide), setField_apply _ _ _ (by omega), ← hm1]
    exact copy_outside (by omega)

lemma cutData_spec (hsound : m.view.Sound) :
    DataRemoved m (m.cutData index (m.entry index).dataSize) index := by
  unfold cutData
  split
  · next hpos =>
    have hend := hsound.end_le (mem_of_getElem? (getElem?_view_entries hindex)) hpos
    have hmoved := moveData_moved h hend
    obtain ⟨hcut, hdata⟩ := hmoved.shift h hindex rfl
    refine (hcut.setDataCount h _).dataRemoved h hindex hsound hpos ?_
    rw [field_setField, if_pos rfl, hdata, field_moveData h hend]
    exact mod_sub h.data_le h.fits (le_trans le_add_self hend)
  · next hzero => exact dataRemoved_self h hindex hsound (by omega)

end

/-! ## Updating -/

lemma removeOldData_spec (hsound : m.view.Sound) (hindex : index < m.field .entryCount) :
    DataRemoved m (m.removeOldData index (m.entry index).dataSize) index := by
  unfold removeOldData
  split
  · next hne =>
    have hpos : 0 < (m.entry index).dataSize := pos_of_ne_zero hne
    have hend := hsound.end_le (mem_of_getElem? (getElem?_view_entries hindex)) hpos
    obtain ⟨hcut, hdata⟩ := ((moveData_moved h hend).setDataCount h _).shift h hindex rfl
    refine hcut.dataRemoved h hindex hsound hpos (hdata.trans ?_)
    rw [field_setField, if_pos rfl, field_moveData h hend]
    exact mod_sub h.data_le h.fits (le_trans le_add_self hend)
  · next hzero => exact dataRemoved_self h hindex hsound (not_not.mp hzero)

/-- The entries after one of them has been written. -/
lemma entries_set (hfields : ∀ f, f ≠ .dataCount → m'.field f = m.field f)
    (hsame : ∀ b, sizeofMetadata ≤ b → b < m.field .dataStart →
      (b < m.entryOffset index ∨ m.entryOffset index + sizeofEntry ≤ b) → m' b = m b) :
    m'.entries = m.entries.set index (m'.entry index) := by
  have hle := h.count_le
  have hstart := h.dataStart
  have hcount : m'.field .entryCount = m.field .entryCount := hfields _ (by decide)
  have hlength : m.entries.length = m.field .entryCount := by simp [entries]
  refine ext_getElem? fun j => ?_
  rw [getElem?_entries, hcount, List.getElem?_set, hlength, getElem?_entries]
  by_cases hj : index = j
  · rw [if_pos hj, hj]
  · rw [if_neg hj]
    split
    · next hlt =>
      refine congrArg some (entry_congr fun k hk => ?_)
      have hoffset : m'.entryOffset j = m.entryOffset j := by
        unfold entryOffset
        rw [hfields _ (by decide)]
      rw [hoffset, h.entryOffset]
      rw [h.entryOffset] at hsame
      unfold sizeofEntry at *
      exact hsame _ (by omega) (by omega) (by omega)
    · rfl

/-- New data are written as those of a new entry are. -/
lemma finishUpdate_appendNewData (index : Nat) (data : Memory)
    (dataBytes payloadBytes dataCount : Nat) :
    (m.appendNewData index data dataBytes payloadBytes).finishUpdate index data dataBytes
        payloadBytes dataCount =
      (m.addPayload (m.entryOffset index) data dataBytes payloadBytes).store
        (m.entryOffset index + 4) 4 dataCount := by
  have hle : sizeofMetadata ≤ m.entryOffset index := by
    rw [h.entryOffset]
    omega
  unfold appendNewData finishUpdate addPayload
  by_cases hzero : dataBytes = 0
  · simp only [hzero, ne_eq, not_true_eq_false, if_false, if_true]
    rw [entryOffset_congr fun b hb => copy_outside (by omega)]
  · simp only [hzero, ne_eq, not_false_eq_true, if_true, if_false]
    have hoffset : (m.setOffset index (m.field .dataCount)).entryOffset index =
        m.entryOffset index := entryOffset_congr (fun b hb => setOffset_outside (by omega)) index
    have hload : ((m.setOffset index (m.field .dataCount)).entry index).offset =
        (m.store (m.entryOffset index + 8) 4 (m.field .dataCount)).load (m.entryOffset index + 8)
          4 := by
      show load _ ((m.setOffset index (m.field .dataCount)).entryOffset index + 8) 4 = _
      rw [hoffset]
      rfl
    have hle' := h.dataStart
    have hstart : (m.setOffset index (m.field .dataCount)).field .dataStart = m.field .dataStart :=
      field_store (by omega) _
    have hentry (offset value : Nat) : entryOffset (setField ((m.setOffset index
        (m.field .dataCount)).copy ((m.setOffset index (m.field .dataCount)).field .dataStart +
          offset) data 0 payloadBytes) .dataCount value) index = m.entryOffset index := by
      unfold entryOffset
      rw [field_setField, if_neg (by decide), field_copy (by omega),
        show (m.setOffset index (m.field .dataCount)).field .entriesStart = m.field .entriesStart
          from field_store (by omega) _]
    rw [hload, hentry]
    rfl

/-- An entry without data gets new data at the end of the data section. -/
lemma put_spec {type : Nat} (data : Memory)
    (hindex : index < m.field .entryCount) (htype : (m.entry index).type = type)
    (hdataBytes : calculateCameraMetadataEntryDataSize type dataCount = dataBytes)
    (hpayload : dataCount * cameraMetadataTypeSize type = payloadBytes)
    (hcount : dataCount < 2 ^ 32)
    (hsize : payloadBytes ≤ 4 ∧ dataBytes = 0 ∨ 4 < payloadBytes ∧ payloadBytes ≤ dataBytes)
    (hroom : m.field .dataCount + dataBytes ≤ m.field .dataCapacity)
    (hm' : m' = (m.addPayload (m.entryOffset index) data dataBytes payloadBytes).store
      (m.entryOffset index + 4) 4 dataCount) :
    Layout m' ∧ (∀ f, f ≠ .dataCount → m'.field f = m.field f) ∧
      Holds m' index (m.entry index).tag type dataCount data ∧
      View.Put m.view m'.view index (m'.entry index) ∧
      (dataCount = 0 → (m'.entry index).offset = (m.entry index).offset) := by
  have hle := h.count_le
  have hstart := h.dataStart
  have hoffset := h.entryOffset index
  have hsizeofEntry : sizeofEntry = 16 := rfl
  rw [hsizeofEntry] at hstart hoffset
  obtain ⟨hfield1, hsame1, hinline, houtline⟩ := addPayload_spec h data
    (show sizeofMetadata ≤ m.entryOffset index by omega)
    (show m.entryOffset index + sizeofEntry ≤ m.field .dataStart by omega) hsize hroom
  have hempty (hzero : dataCount = 0) :
      m.addPayload (m.entryOffset index) data dataBytes payloadBytes = m := by
    have hbytes : payloadBytes = 0 := by rw [← hpayload, hzero, zero_mul]
    have hnone : dataBytes = 0 := by omega
    rw [hbytes, hnone, addPayload_empty]
  generalize m.addPayload (m.entryOffset index) data dataBytes payloadBytes = m1 at *
  subst hm'
  have hfield (f : Field) : field (m1.store (m.entryOffset index + 4) 4 dataCount) f =
      if f = .dataCount then m.field .dataCount + dataBytes else m.field f := by
    rw [field_store (by omega)]
    exact hfield1 f
  have hbyte {b : Nat} (hb : b < m.entryOffset index + 4 ∨ m.entryOffset index + 8 ≤ b) :
      m1.store (m.entryOffset index + 4) 4 dataCount b = m1 b := store_outside (by omega)
  have hload : (m1.store (m.entryOffset index + 4) 4 dataCount).load (m.entryOffset index + 4) 4 =
      dataCount := (load_store _ _ 4 _).trans (Nat.mod_eq_of_lt hcount)
  generalize m1.store (m.entryOffset index + 4) 4 dataCount = m' at *
  have hfields (f : Field) (hf : f ≠ .dataCount) : field m' f = m.field f := by
    rw [hfield, if_neg hf]
  have hdataCount : field m' .dataCount = m.field .dataCount + dataBytes := by
    rw [hfield, if_pos rfl]
  have hoffset' : entryOffset m' index = m.entryOffset index := by
    unfold entryOffset
    rw [hfields _ (by decide)]
  have hold {b : Nat} (hb : sizeofMetadata ≤ b) (hlt : b < m.field .dataStart + m.field .dataCount)
      (hout : b < m.entryOffset index + 4 ∨ m.entryOffset index + 12 ≤ b) : m' b = m b := by
    rw [hbyte (by omega)]
    exact hsame1 b hb hlt (by omega)
  have hoffset'' (hpos : 0 < dataBytes) : (entry m' index).offset = m.field .dataCount := by
    show load m' (entryOffset m' index + 8) 4 = _
    rw [hoffset', ← (houtline hpos).1]
    exact load_congr fun k _ => hbyte (by omega)
  have hholds : Holds m' index (m.entry index).tag type dataCount data := by
    refine ⟨?_, ?_, ?_, fun hzero => ?_, fun hpos => ?_⟩
    · show load m' (entryOffset m' index) 4 = m.load (m.entryOffset index) 4
      rw [hoffset']
      exact load_congr fun k hk => hold (by omega) (by omega) (by omega)
    · show load m' (entryOffset m' index + 4) 4 = dataCount
      rw [hoffset', hload]
    · show (m' (entryOffset m' index + 12)).toNat = type
      rw [hoffset', hold (by omega) (by omega) (by omega)]
      exact htype
    · rw [hdataBytes] at hzero
      rw [hoffset', hpayload, ← hinline hzero]
      exact slice_congr fun k hk => hbyte (by omega)
    · rw [hdataBytes] at hpos
      rw [hoffset'' hpos, hpayload, hfields _ (by decide), ← (houtline hpos).2]
      exact slice_congr fun k hk => hbyte (by omega)
  have hsize' := hholds.dataSize.trans hdataBytes
  refine ⟨h.of_fields (fun f hf => hfields f ?_) ?_ (by omega), hfields, hholds,
    ⟨?_, ?_, ?_, ?_⟩, fun hzero => ?_⟩
  · rintro rfl
    cases hf
  · rw [hfields _ (by decide)]
    exact hle
  · exact entries_set h hfields fun b hb hlt hout => hold hb (by omega) (by omega)
  · show field m' .dataCount = m.field .dataCount + _
    rw [hdataCount, hsize']
  · rw [hsize']
    exact hoffset''
  · intro b hb
    show m' (field m' .dataStart + b) = m (m.field .dataStart + b)
    rw [hfields _ (by decide)]
    exact hold (by omega) (Nat.add_lt_add_left hb _) (by omega)
  · show load m' (entryOffset m' index + 8) 4 = m.load (m.entryOffset index + 8) 4
    rw [hoffset']
    exact load_congr fun k _ => (hbyte (by omega)).trans (congrFun (hempty hzero) _)

/-- New data of the same size take the place of the old ones. -/
lemma overwrite_spec (data : Memory)
    (hindex : index < m.field .entryCount) (hpos : 0 < (m.entry index).dataSize)
    (hdataBytes : calculateCameraMetadataEntryDataSize (m.entry index).type dataCount =
      (m.entry index).dataSize)
    (hpayload : dataCount * cameraMetadataTypeSize (m.entry index).type = payloadBytes)
    (hcount : dataCount < 2 ^ 32) (hsize : payloadBytes ≤ (m.entry index).dataSize)
    (hm' : m' = finishUpdate (m.copy (m.field .dataStart + (m.entry index).offset) data 0
      payloadBytes) index data dataBytes payloadBytes dataCount) (hne : dataBytes ≠ 0) :
    Layout m' ∧ (∀ f, f ≠ .dataCount → m'.field f = m.field f) ∧
      Holds m' index (m.entry index).tag (m.entry index).type dataCount data ∧
      View.Overwritten m.view m'.view index (m.entry index) (m'.entry index) := by
  have hle := h.count_le
  have hstart := h.dataStart
  have hoffset := h.entryOffset index
  have hsizeofEntry : sizeofEntry = 16 := rfl
  rw [hsizeofEntry] at hstart hoffset
  let m1 : CameraMetadata :=
    m.copy (m.field .dataStart + (m.entry index).offset) data 0 payloadBytes
  have hoffset1 : m1.entryOffset index = m.entryOffset index :=
    entryOffset_congr (fun b hb => copy_outside (by omega)) index
  have heq : m' = m1.store (m.entryOffset index + 4) 4 dataCount := by
    rw [hm', finishUpdate, if_neg hne, ← hoffset1]
  have hfield (f : Field) : m'.field f = m.field f := by
    rw [heq, field_store (by omega)]
    exact field_copy (by omega) f
  have hbyte {b : Nat} (hb : b < m.entryOffset index + 4 ∨ m.entryOffset index + 8 ≤ b)
      (hb' : b < m.field .dataStart + (m.entry index).offset ∨
        m.field .dataStart + (m.entry index).offset + payloadBytes ≤ b) : m' b = m b := by
    rw [heq, store_outside (by omega)]
    exact copy_outside hb'
  have hload : m'.load (m.entryOffset index + 4) 4 = dataCount := by
    rw [heq, load_store]
    exact Nat.mod_eq_of_lt hcount
  have hslice : m'.slice (m.field .dataStart + (m.entry index).offset) payloadBytes =
      data.slice 0 payloadBytes := by
    rw [heq, store, slice_copy_outside (by omega)]
    exact slice_copy m _ data 0 payloadBytes
  have hoffset' : m'.entryOffset index = m.entryOffset index := by
    unfold entryOffset
    rw [hfield]
  have hoffset'' : (m'.entry index).offset = (m.entry index).offset := by
    show m'.load (m'.entryOffset index + 8) 4 = m.load (m.entryOffset index + 8) 4
    rw [hoffset']
    exact load_congr fun k _ => hbyte (by omega) (by omega)
  have hholds : Holds m' index (m.entry index).tag (m.entry index).type dataCount data := by
    refine ⟨?_, ?_, ?_, fun hzero => absurd hzero (by omega), fun _ => ?_⟩
    · show m'.load (m'.entryOffset index) 4 = m.load (m.entryOffset index) 4
      rw [hoffset']
      exact load_congr fun k _ => hbyte (by omega) (by omega)
    · show m'.load (m'.entryOffset index + 4) 4 = dataCount
      rw [hoffset', hload]
    · show (m' (m'.entryOffset index + 12)).toNat = (m (m.entryOffset index + 12)).toNat
      rw [hoffset', hbyte (by omega) (by omega)]
    · rw [hoffset'', hpayload, hfield, hslice]
  refine ⟨h.of_fields (fun f _ => hfield f) (by rw [hfield]; exact hle)
    (by rw [hfield]; exact h.data_le), fun f _ => hfield f, hholds, ?_, hfield _, ?_, ?_⟩
  · exact entries_set h (fun f _ => hfield f) fun b _ hlt hout => hbyte (by omega) (by omega)
  · unfold BufferEntry.range
    rw [hoffset'', hholds.dataSize, hdataBytes]
  · intro b _ hout
    show m' (m'.field .dataStart + b) = m (m.field .dataStart + b)
    rw [hfield]
    exact hbyte (by omega) (by omega)

end

/-- `delete_camera_metadata_entry` removes an entry with its data. -/
lemma delete_spec (h : Layout dst) (hsound : dst.view.Sound)
    (hdelete : dst.deleteCameraMetadataEntry index = (true, m')) :
    Layout m' ∧ m'.view.Sound ∧ (∀ f, f ≠ .entryCount → f ≠ .dataCount → m'.field f = dst.field f) ∧
      m'.view.items = dst.view.items.eraseIdx index ∧
      m'.view.dataCount = dst.view.dataCount - (dst.entry index).dataSize ∧
      ∃ w : View, View.DataCut dst.view w (dst.entry index) ∧
        m'.view.entries = w.entries.eraseIdx index := by
  unfold deleteCameraMetadataEntry at hdelete
  split at hdelete
  · cases hdelete
  · next hindex =>
    have hindex : index < dst.field .entryCount := not_le.mp hindex
    have hremoved := cutData_spec h hindex hsound
    have hcount := hremoved.fields .entryCount (by decide)
    obtain ⟨hlayout, hfields, herased⟩ := eraseEntry_spec hremoved.layout (hcount.symm ▸ hindex)
    rw [(Prod.mk.inj hdelete).2] at hlayout hfields herased
    refine ⟨hlayout, herased.sound hremoved.sound,
      fun f hf hf' => (hfields f hf).trans (hremoved.fields f hf'), ?_,
      herased.dataCount.trans hremoved.dataCount, _, hremoved.dataCut, herased.entries⟩
    rw [herased.items hremoved.sound, hremoved.sameItems.eraseIdx]

/-- The values of an entry after `update_camera_metadata_entry`. -/
def updatedItem (dst : CameraMetadata) (index : Nat) (data : Memory) (dataCount : Nat) : Item :=
  { tag := (dst.entry index).tag, type := (dst.entry index).type, count := dataCount
    values := data.slice 0 (dataCount * cameraMetadataTypeSize (dst.entry index).type) }

/-- What `update_camera_metadata_entry` does. -/
structure Updated (dst m' : CameraMetadata) (index : Nat) (data : Memory) (dataCount : Nat) :
    Prop where
  layout : Layout m'
  sound : m'.view.Sound
  fields : ∀ f, f ≠ .dataCount → m'.field f = dst.field f
  items : m'.view.items = dst.view.items.set index (updatedItem dst index data dataCount)
  replaced : View.Replaced dst.view m'.view index (dst.entry index) (m'.entry index)
  count : (m'.entry index).count = dataCount
  /-- The entry keeps its offset if it has no values any more. -/
  offset : dataCount = 0 → (m'.entry index).offset = (dst.entry index).offset

/-- The old data have been removed, and the new ones are appended or written to the entry. -/
lemma replace_spec {m1 : CameraMetadata} (hindex : index < dst.field .entryCount)
    (hremoved : DataRemoved dst m1 index) (htype : (dst.entry index).type < numTypes)
    (hdataBytes : calculateCameraMetadataEntryDataSize (dst.entry index).type dataCount = dataBytes)
    (hpayload : dataCount * cameraMetadataTypeSize (dst.entry index).type = payloadBytes)
    (hcount : dataCount < 2 ^ 32)
    (hsize : payloadBytes ≤ 4 ∧ dataBytes = 0 ∨ 4 < payloadBytes ∧ payloadBytes ≤ dataBytes)
    (hroom : m1.field .dataCount + dataBytes ≤ m1.field .dataCapacity)
    (hm' : (m1.appendNewData index data dataBytes payloadBytes).finishUpdate index data dataBytes
      payloadBytes dataCount = m') :
    Updated dst m' index data dataCount := by
  have hcount1 : m1.field .entryCount = dst.field .entryCount := hremoved.fields _ (by decide)
  have hindex1 : index < m1.field .entryCount := hcount1.symm ▸ hindex
  rw [finishUpdate_appendNewData hremoved.layout] at hm'
  obtain ⟨hlayout, hfields, hholds, hput, hoffset⟩ := put_spec hremoved.layout data hindex1
    (by rw [hremoved.entry]) hdataBytes hpayload hcount hsize hroom hm'.symm
  have hlength1 : m1.view.entries.length = m1.field .entryCount := by simp [view, entries]
  have hlength : dst.view.entries.length = dst.field .entryCount := by simp [view, entries]
  have hcount' : m'.view.entries[index]? = some (m'.entry index) := by
    rw [hput.entries, List.getElem?_set_self (by rw [hlength1]; exact hindex1)]
  have hdata : m1.view.dataCount = dst.view.dataCount - (dst.entry index).dataSize :=
    hremoved.dataCount
  rw [hremoved.entry] at hholds hoffset
  refine
    { layout := hlayout
      sound := hput.sound hremoved.sound (by rw [hlength1]; exact hindex1) (hholds.valid htype)
      fields := fun f hf => (hfields f hf).trans (hremoved.fields f hf)
      items := ?_
      replaced := ⟨⟨_, hremoved.dataCut, hput.entries⟩, ?_, hholds.tag_eq, hholds.type_eq,
        fun hpos => .inr ?_⟩
      count := hholds.count_eq
      offset := hoffset }
  · rw [(hremoved.sameItems.trans (hput.sameItems hremoved.sound)).set hcount'
      (by rw [hlength]; exact hindex), hholds.item htype]
    rfl
  · rw [hput.dataCount, hdata]
  · rw [hput.offset hpos, hdata]

/-- `update_camera_metadata_entry` replaces the values of an entry. -/
lemma update_spec (h : Layout dst) (hsound : dst.view.Sound) (hfits : dataCount < 2 ^ 60)
    (hupdate : dst.updateCameraMetadataEntry index data dataCount = (true, m')) :
    Updated dst m' index data dataCount := by
  unfold updateCameraMetadataEntry at hupdate
  split at hupdate
  · cases hupdate
  rename_i hindex
  have hindex : index < dst.field .entryCount := not_le.mp hindex
  dsimp only at hupdate
  split at hupdate
  · cases hupdate
  rename_i hroom
  have hentry := getElem?_view_entries hindex
  have hmem := mem_of_getElem? hentry
  have hvalid := hsound.valid _ hmem
  have htype := hvalid.type_lt
  have hdataLe := h.data_le
  have hlayout := h.fits
  obtain ⟨hbytes, hsize⟩ := entryDataSize_cases htype hfits
  have hpositive : dataCount ≤ dataCount * cameraMetadataTypeSize (dst.entry index).type :=
    Nat.le_mul_of_pos_right _ (cameraMetadataTypeSize_pos htype)
  rw [Nat.mod_eq_of_lt (by omega)] at hupdate
  generalize hdataBytes :
    calculateCameraMetadataEntryDataSize (dst.entry index).type dataCount = dataBytes at *
  generalize hpayload :
    dataCount * cameraMetadataTypeSize (dst.entry index).type = payloadBytes at *
  have hend (hpos : 0 < (dst.entry index).dataSize) :
      (dst.entry index).offset + (dst.entry index).dataSize ≤ dst.field .dataCount :=
    hsound.end_le hmem hpos
  by_cases hsame : dataBytes = (dst.entry index).dataSize
  · rw [if_neg (not_not.mpr hsame)] at hupdate
    by_cases hzero : dataBytes = 0
    · rw [if_neg (not_not.mpr hzero)] at hupdate
      have happend : dst.appendNewData index data dataBytes payloadBytes = dst :=
        if_neg (not_not.mpr hzero)
      refine replace_spec hindex (dataRemoved_self h hindex hsound (by omega)) htype hdataBytes
        hpayload (by omega) (by omega) (by omega) ?_
      rw [happend]
      exact (Prod.mk.inj hupdate).2
    · rw [if_pos hzero] at hupdate
      have hpos : 0 < (dst.entry index).dataSize := by omega
      obtain ⟨hlayout', hfields, hholds, hover⟩ := overwrite_spec h data hindex hpos
        (hdataBytes.trans hsame) hpayload (by have := hend hpos; omega) (by omega)
        (Prod.mk.inj hupdate).2.symm hzero
      have hlength : dst.view.entries.length = dst.field .entryCount := by simp [view, entries]
      have hentry' : m'.view.entries[index]? = some (m'.entry index) := by
        rw [hover.entries, List.getElem?_set_self (by rw [hlength]; exact hindex)]
      have hrange := Prod.mk.inj hover.range
      refine
        { layout := hlayout'
          sound := hover.sound hsound hentry (hholds.valid htype)
          fields := hfields
          items := ?_
          replaced := ⟨⟨dst.view, .inl rfl, hover.entries⟩, ?_, hholds.tag_eq, hholds.type_eq,
            fun _ => .inl ⟨hpos, hrange.1⟩⟩
          count := hholds.count_eq
          offset := fun _ => hrange.1 }
      · rw [(hover.sameItems hsound hentry hpos).set hentry' (by rw [hlength]; exact hindex),
          hholds.item htype]
        rfl
      · rw [hover.dataCount, hrange.2]
        exact (Nat.sub_add_cancel (le_trans le_add_self (hend hpos))).symm
  · rw [if_pos hsame] at hupdate
    have hremoved := removeOldData_spec h hsound hindex
    have hdata := hremoved.dataCount
    have hcapacity : (dst.removeOldData index (dst.entry index).dataSize).field .dataCapacity =
      dst.field .dataCapacity := hremoved.fields _ (by decide)
    rw [not_and_or, not_not] at hroom
    have hroom' : dst.field .dataCount - (dst.entry index).dataSize + dataBytes ≤
        dst.field .dataCapacity := by
      rcases eq_zero_or_pos (dst.entry index).dataSize with hzero | hpos
      · rw [hzero] at hroom ⊢
        omega
      · have := hend hpos
        omega
    exact replace_spec hindex hremoved htype hdataBytes hpayload (by omega) (by omega)
      (by rw [hdata, hcapacity]; exact hroom') (Prod.mk.inj hupdate).2

end CameraMetadata

end Camera
