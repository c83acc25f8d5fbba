import AlpsSystem.Camera.Buffer

/-!
# Appending and copying buffers
-/

namespace Camera

open List Memory

namespace CameraMetadata

variable {m m' dst src : CameraMetadata} {dstSize entryCapacity dataCapacity : Nat}

/-! ## Offsets -/

lemma setOffset_outside {i value b : Nat}
    (hb : b < m.entryOffset i ∨ m.entryOffset i + sizeofEntry ≤ b) :
    m.setOffset i value b = m b := by
  unfold sizeofEntry at hb
  exact store_outside (by omega)

lemma entryOffset_congr (h : ∀ b < sizeofMetadata, m' b = m b) (i : Nat) :
    m'.entryOffset i = m.entryOffset i := by
  unfold entryOffset
  rw [field_congr h]

section

variable (hstart : sizeofMetadata ≤ m.field .entriesStart)

include hstart

open BufferEntry

lemma entry_setOffset (i value : Nat) :
    (m.setOffset i value).entry i = (m.entry i).withOffset value := by
  have hle : sizeofMetadata ≤ m.entryOffset i := hstart.trans le_self_add
  have hoffset : (m.setOffset i value).entryOffset i = m.entryOffset i :=
    entryOffset_congr (fun b hb => setOffset_outside (by omega)) i
  unfold entry withOffset
  rw [hoffset]
  have htag : (m.setOffset i value).load (m.entryOffset i) 4 = m.load (m.entryOffset i) 4 :=
    load_store_outside (by omega)
  have hcount : (m.setOffset i value).load (m.entryOffset i + 4) 4 =
      m.load (m.entryOffset i + 4) 4 := load_store_outside (by omega)
  have hvalue : (m.setOffset i value).slice (m.entryOffset i + 8) 4 =
      LittleEndian.encode 4 value := slice_store m _ 4 value
  have htype : m.setOffset i value (m.entryOffset i + 12) = m (m.entryOffset i + 12) :=
    store_outside (by omega)
  rw [htag, hcount, hvalue, htype]

/-- An entry with its offset assigned, or as it is. -/
def adjustEntry (newOffset : BufferEntry → Option Nat) (e : BufferEntry) : BufferEntry :=
  match newOffset e with
  | some value => e.withOffset value
  | none => e

lemma adjustOffset_spec (newOffset : BufferEntry → Option Nat) (i : Nat) :
    (∀ b, (b < m.entryOffset i ∨ m.entryOffset i + sizeofEntry ≤ b) →
      m.adjustOffset newOffset i b = m b) ∧
    (m.adjustOffset newOffset i).entry i = adjustEntry newOffset (m.entry i) := by
  unfold adjustOffset adjustEntry
  cases newOffset (m.entry i) with
  | none => exact ⟨fun _ _ => rfl, rfl⟩
  | some value => exact ⟨fun _ hb => setOffset_outside hb, entry_setOffset hstart i value⟩

omit hstart in
theorem adjustOffsets_succ (m : CameraMetadata) (start count : Nat)
    (newOffset : BufferEntry → Option Nat) :
    m.adjustOffsets start (count + 1) newOffset =
      (m.adjustOffsets start count newOffset).adjustOffset newOffset (start + count) := by
  unfold adjustOffsets
  rw [range_succ, foldl_append]
  rfl

/-- The loop changes the offsets of its entries, and nothing else. -/
lemma adjustOffsets_spec (start count : Nat) (newOffset : BufferEntry → Option Nat) :
    (∀ b, (b < m.entryOffset start ∨ m.entryOffset (start + count) ≤ b) →
      m.adjustOffsets start count newOffset b = m b) ∧
    ∀ i, start ≤ i → i < start + count →
      (m.adjustOffsets start count newOffset).entry i = adjustEntry newOffset (m.entry i) := by
  have hoffset (i : Nat) : m.entryOffset i = m.field .entriesStart + 16 * i := rfl
  induction count with
  | zero => exact ⟨fun _ _ => rfl, fun i _ _ => by omega⟩
  | succ count ih =>
    obtain ⟨hsame, hentry⟩ := ih
    let m1 := m.adjustOffsets start count newOffset
    have hheader : ∀ b < sizeofMetadata, m1 b = m b :=
      fun b hb => hsame b (by rw [hoffset]; omega)
    have hoffset1 (i : Nat) : m1.entryOffset i = m.entryOffset i := entryOffset_congr hheader i
    -- the entry of this turn has not been changed before it
    have hnext : m1.entry (start + count) = m.entry (start + count) :=
      entry_congr fun k _ => by
        rw [hoffset1]
        exact hsame _ (.inr le_self_add)
    obtain ⟨hsame1, hentry1⟩ := adjustOffset_spec
      (show sizeofMetadata ≤ m1.field .entriesStart by rw [field_congr hheader]; exact hstart)
      newOffset (start + count)
    rw [adjustOffsets_succ]
    have hsizeofEntry : sizeofEntry = 16 := rfl
    refine ⟨fun b hb => ?_, fun i hi hlt => ?_⟩
    · simp only [hoffset] at hb hsame hoffset1
      rw [hsame1 b (by rw [hoffset1]; omega)]
      exact hsame b (by omega)
    · rcases Nat.eq_or_lt_of_le (show i ≤ start + count by omega) with rfl | hlt'
      · rw [hentry1, hnext]
      · rw [← hentry i hi hlt']
        refine entry_congr fun k hk => ?_
        have hheader' : ∀ b < sizeofMetadata, m1.adjustOffset newOffset (start + count) b = m1 b :=
          fun b hb => hsame1 b (by rw [hoffset1, hoffset]; omega)
        rw [entryOffset_congr hheader']
        refine hsame1 _ (.inl ?_)
        rw [hoffset1, hoffset1, hoffset, hoffset]
        omega

end

/-! ## Appending -/

lemma canAppend_iff (dst src : CameraMetadata) :
    dst.canAppend src = true ↔
      src.field .entryCount + dst.field .entryCount ≤ dst.field .entryCapacity ∧
        src.field .dataCount + dst.field .dataCount ≤ dst.field .dataCapacity ∧
        (dst.field .vendorId = invalidVendorId ∨ src.field .vendorId = invalidVendorId ∨
          dst.field .vendorId = src.field .vendorId) := by
  have hdst : dst.field .entryCount < 2 ^ 32 := dst.field_lt .entryCount
  have hcapacity : dst.field .entryCapacity < 2 ^ 32 := dst.field_lt .entryCapacity
  have hdst' : dst.field .dataCount < 2 ^ 32 := dst.field_lt .dataCount
  have hcapacity' : dst.field .dataCapacity < 2 ^ 32 := dst.field_lt .dataCapacity
  simp only [canAppend, Bool.and_eq_true, Bool.or_eq_true, decide_eq_true_eq, beq_iff_eq, or_assoc]
  constructor
  · rintro ⟨⟨⟨⟨hentries, hdata⟩, hentries'⟩, hdata'⟩, hvendor⟩
    exact ⟨by omega, by omega, hvendor⟩
  · rintro ⟨hentries, hdata, hvendor⟩
    exact ⟨⟨⟨⟨by omega, by omega⟩, by omega⟩, by omega⟩, hvendor⟩

lemma copyPayload_spec (h : Layout dst) (src : CameraMetadata)
    (hentries : src.field .entryCount + dst.field .entryCount ≤ dst.field .entryCapacity) :
    let m' := dst.copyPayload src
    (∀ f, m'.field f = dst.field f) ∧
    (∀ b, (b < dst.entryOffset (dst.field .entryCount) ∨
        dst.field .dataStart ≤ b ∧ b < dst.field .dataStart + dst.field .dataCount) →
      m' b = dst b) ∧
    (∀ b < src.field .dataCount, m' (dst.field .dataStart + dst.field .dataCount + b) =
      src (src.field .dataStart + b)) ∧
    ∀ i < src.field .entryCount, m'.entry (dst.field .entryCount + i) = src.entry i := by
  have hstart := h.dataStart
  have hoffset (i : Nat) : dst.entryOffset i = sizeofMetadata + 16 * i := h.entryOffset i
  have hsizeofEntry : sizeofEntry = 16 := rfl
  rw [hsizeofEntry] at hstart
  let m1 : CameraMetadata := dst.copy (dst.entryOffset (dst.field .entryCount)) src
    (src.entryOffset 0) (16 * src.field .entryCount)
  have hfield1 (f : Field) : m1.field f = dst.field f := field_copy (by rw [hoffset]; omega) f
  have heq : dst.copyPayload src = m1.copy (dst.field .dataStart + dst.field .dataCount) src
      (src.field .dataStart) (src.field .dataCount) := by
    rw [← hfield1, ← hfield1]
    rfl
  have hfield (f : Field) : (dst.copyPayload src).field f = dst.field f := by
    rw [heq]
    exact (field_copy (by omega) f).trans (hfield1 f)
  refine ⟨hfield, fun b hb => ?_, fun b hb => ?_, fun i hi => entry_congr fun k hk => ?_⟩
  · rw [heq]
    rw [hoffset] at hb
    refine (copy_outside (by omega)).trans (copy_outside ?_)
    rw [hoffset]
    omega
  · rw [heq, copy_inside (by omega) (by omega)]
    exact congrArg src (by omega)
  · have hentry : (dst.copyPayload src).entryOffset (dst.field .entryCount + i) =
        dst.entryOffset (dst.field .entryCount + i) := by
      unfold entryOffset
      rw [hfield]
    rw [hentry, hoffset, heq, copy_outside (by omega)]
    show dst.copy (dst.entryOffset (dst.field .entryCount)) src (src.entryOffset 0)
      (16 * src.field .entryCount) _ = _
    rw [copy_inside (by rw [hoffset]; omega) (by rw [hoffset]; omega), hoffset]
    refine congrArg src ?_
    unfold entryOffset sizeofEntry
    omega

lemma rebaseOffsets_spec (h : Layout m) (count : Nat) :
    let m' := m.rebaseOffsets count
    (∀ b, (b < m.entryOffset (m.field .entryCount) ∨
        m.entryOffset (m.field .entryCount + count) ≤ b) → m' b = m b) ∧
    ∀ i < count, m'.entry (m.field .entryCount + i) =
      (m.entry (m.field .entryCount + i)).moveUp (m.field .dataCount) := by
  unfold rebaseOffsets
  by_cases hzero : m.field .dataCount = 0
  · rw [if_neg (not_not.mpr hzero), hzero]
    exact ⟨fun _ _ => rfl, fun i _ => (BufferEntry.moveUp_zero (m.length_slice _ 4)).symm⟩
  · rw [if_pos hzero]
    obtain ⟨hsame, hentry⟩ := adjustOffsets_spec h.entriesStart.symm.le
      (m.field .entryCount) count fun e =>
        if e.dataSize > 0 then some (e.offset + m.field .dataCount) else none
    refine ⟨hsame, fun i hi => (hentry _ (by omega) (by omega)).trans ?_⟩
    unfold adjustEntry BufferEntry.moveUp
    split <;> simp_all

lemma appendedFlags_lt (dst src : CameraMetadata) : dst.appendedFlags src < 2 ^ 32 := by
  have hflags : dst.field .flags < 2 ^ 32 := dst.field_lt .flags
  unfold appendedFlags
  split
  · exact Nat.or_lt_two_pow hflags (Nat.and_le_right.trans_lt (by decide))
  split
  · exact Nat.and_le_left.trans_lt hflags
  · exact hflags

open CameraMetadata.Field

lemma appendHeader_spec (m src : CameraMetadata)
    (hentries : m.field .entryCount + src.field .entryCount < 2 ^ 32)
    (hdata : m.field .dataCount + src.field .dataCount < 2 ^ 32) :
    let m' := m.appendHeader src
    (∀ f, isFixed f → m'.field f = m.field f) ∧
    m'.field .entryCount = m.field .entryCount + src.field .entryCount ∧
    m'.field .dataCount = m.field .dataCount + src.field .dataCount ∧
    m'.field .flags = m.appendedFlags src ∧
    (m'.field .vendorId = if m.field .vendorId = invalidVendorId then src.field .vendorId
      else m.field .vendorId) ∧
    ∀ b, sizeofMetadata ≤ b → m' b = m b := by
  let m1 := m.setField .flags (m.appendedFlags src)
  let m2 := m1.setField .entryCount (m1.field .entryCount + src.field .entryCount)
  let m3 := m2.setField .dataCount (m2.field .dataCount + src.field .dataCount)
  have hfixed (f : Field) (hf : isFixed f) : m3.field f = m.field f := by
    rw [field_setField_fixed hf rfl, field_setField_fixed hf rfl, field_setField_fixed hf rfl]
  have hentries3 : m3.field .entryCount = m.field .entryCount + src.field .entryCount := by
    simp only [m3, m2, field_setField]
    exact Nat.mod_eq_of_lt hentries
  have hdata3 : m3.field .dataCount = m.field .dataCount + src.field .dataCount := by
    simp only [m3, field_setField]
    exact Nat.mod_eq_of_lt hdata
  have hflags3 : m3.field .flags = m.appendedFlags src := by
    simp only [m3, m2, m1, field_setField]
    exact Nat.mod_eq_of_lt (appendedFlags_lt m src)
  have hvendor3 : m3.field .vendorId = m.field .vendorId := by
    simp [m3, m2, m1]
  have hbyte3 (b : Nat) (hb : sizeofMetadata ≤ b) : m3 b = m b :=
    (setField_apply m2 _ _ hb).trans ((setField_apply m1 _ _ hb).trans (setField_apply m _ _ hb))
  have heq : m.appendHeader src = if m3.field .vendorId = invalidVendorId then
      m3.setField .vendorId (src.field .vendorId) else m3 := rfl
  rw [heq, hvendor3]
  by_cases hvendor : m.field .vendorId = invalidVendorId
  · rw [if_pos hvendor, if_pos hvendor]
    have hkeeps {f : Field} (hf : .vendorId ≠ f) :
        (m3.setField .vendorId (src.field .vendorId)).field f = m3.field f := by
      rw [field_setField, if_neg hf]
    refine ⟨fun f hf => ?_, (hkeeps (by decide)).trans hentries3, (hkeeps (by decide)).trans hdata3,
      (hkeeps (by decide)).trans hflags3, ?_,
      fun b hb => (setField_apply _ _ _ hb).trans (hbyte3 b hb)⟩
    · rw [field_setField_fixed hf rfl]
      exact hfixed f hf
    · rw [field_setField]
      exact Nat.mod_eq_of_lt (src.field_lt .vendorId)
  · rw [if_neg hvendor, if_neg hvendor]
    exact ⟨hfixed, hentries3, hdata3, hflags3, hvendor3, hbyte3⟩

/-- `append_camera_metadata` joins the buffers. -/
lemma append_spec (h : Layout dst) (happend : dst.appendCameraMetadata src = (true, m')) :
    Layout m' ∧ View.Joined dst.view src.view m'.view ∧
      (∀ f, isFixed f → m'.field f = dst.field f) ∧
      m'.field .flags = dst.appendedFlags src ∧
      m'.field .vendorId = if dst.field .vendorId = invalidVendorId then src.field .vendorId
        else dst.field .vendorId := by
  unfold appendCameraMetadata at happend
  split at happend
  · next hcan =>
    obtain ⟨hentries, hdata, -⟩ := (canAppend_iff dst src).mp hcan
    have hstart := h.dataStart
    have hlayout := h.fits
    have hsizeofEntry : sizeofEntry = 16 := rfl
    have hoffset (i : Nat) : dst.entryOffset i = sizeofMetadata + 16 * i := h.entryOffset i
    rw [hsizeofEntry] at hstart
    -- the copies
    obtain ⟨hfield1, hsame1, hdata1, hentry1⟩ := copyPayload_spec h src hentries
    generalize dst.copyPayload src = m1 at *
    have h1 : Layout m1 := h.of_fields (fun f _ => hfield1 f) (by rw [hfield1]; exact h.count_le)
      (by rw [hfield1]; exact h.data_le)
    -- the offsets
    obtain ⟨hsame2, hentry2⟩ := rebaseOffsets_spec h1 (src.field .entryCount)
    generalize m1.rebaseOffsets (src.field .entryCount) = m2 at *
    have hoffset1 (i : Nat) : m1.entryOffset i = sizeofMetadata + 16 * i := h1.entryOffset i
    simp only [hoffset1, hfield1, hoffset] at hsame1 hsame2 hentry2
    have hfield2 (f : Field) : m2.field f = dst.field f :=
      (field_congr (fun b hb => hsame2 b (by omega)) f).trans (hfield1 f)
    -- the header
    obtain ⟨hfixed, hentries', hdata', hflags, hvendor, hbyte⟩ := appendHeader_spec m2 src
      (by rw [hfield2]; have := dst.field_lt .entryCapacity; omega) (by rw [hfield2]; omega)
    rw [(Prod.mk.inj happend).2] at hfixed hentries' hdata' hflags hvendor hbyte
    simp only [appendedFlags, hfield2] at hfixed hentries' hdata' hflags hvendor
    have hdataStart := hfixed .dataStart rfl
    have hentriesStart := hfixed .entriesStart rfl
    have hnew (i : Nat) (hi : i < src.field .entryCount) :
        m'.entry (dst.field .entryCount + i) = (src.entry i).moveUp (dst.field .dataCount) := by
      rw [← hentry1 i hi, ← hentry2 i hi]
      refine entry_congr fun k _ => ?_
      have hsameOffset : m'.entryOffset (dst.field .entryCount + i) =
          m2.entryOffset (dst.field .entryCount + i) := by
        unfold entryOffset
        rw [hentriesStart, hfield2]
      rw [hsameOffset]
      refine hbyte _ ?_
      unfold entryOffset
      rw [hfield2, h.entriesStart]
      omega
    refine ⟨h.of_fields hfixed (by omega) (by omega), ⟨?_, ?_, ?_, fun b hb => ?_, fun b hb => ?_⟩,
      hfixed, hflags, hvendor⟩
    · refine entries_append h hentriesStart (by simp [view, entries, hentries'])
        (fun b hb hlt => ?_) fun i hi => ?_
      · rw [hoffset] at hlt
        rw [hbyte b hb, hsame2 b (.inl hlt), hsame1 b (.inl hlt)]
      · simp only [view, entries, length_map, length_range] at hi
        rw [hnew i hi]
        simp [view, entries]
    · exact hdata'
    · show m'.field .dataCount < 2 ^ 32
      omega
    · have hb : b < dst.field .dataCount := hb
      show m' (m'.field .dataStart + b) = dst (dst.field .dataStart + b)
      rw [hdataStart, hbyte _ (by omega), hsame2 _ (by omega), hsame1 _ (by omega)]
    · show m' (m'.field .dataStart + (dst.field .dataCount + b)) = src (src.field .dataStart + b)
      rw [hdataStart, hbyte _ (by omega), hsame2 _ (by omega), ← hdata1 b hb, add_assoc]
  · cases happend

/-! ## New buffers -/

section

variable (hfits : sizeofMetadata + sizeofEntry * entryCapacity + dataCapacity < 2 ^ 32)
  {memory : Option Memory}

include hfits

/-- A new buffer, whose size fits the fields of its header. -/
lemma place_spec {dst : Memory}
    (hplace : placeCameraMetadata dst dstSize entryCapacity dataCapacity = some m) :
    Layout m ∧ m.field .entryCount = 0 ∧ m.field .dataCount = 0 ∧
      m.field .entryCapacity = entryCapacity ∧ m.field .dataCapacity = dataCapacity ∧
      m.field .vendorId = invalidVendorId ∧ m.field .flags = 0 ∧
      m.field .size = calculateCameraMetadataSize entryCapacity dataCapacity % 256 ^ 4 := by
  unfold sizeofMetadata sizeofEntry at hfits
  have hcapacity : entryCapacity % 256 ^ 4 = entryCapacity :=
    Nat.mod_eq_of_lt (show entryCapacity < 2 ^ 32 by omega)
  have hdataCapacity : dataCapacity % 256 ^ 4 = dataCapacity :=
    Nat.mod_eq_of_lt (show dataCapacity < 2 ^ 32 by omega)
  have hdataStart : alignTo (48 + 16 * entryCapacity) 8 % 256 ^ 4 = 48 + 16 * entryCapacity := by
    unfold alignTo
    omega
  unfold placeCameraMetadata at hplace
  dsimp only at hplace
  split at hplace
  · cases hplace
  · cases hplace
    have hentries : alignTo 48 4 % 256 ^ 4 = 48 := by decide
    have hvendor : invalidVendorId % 256 ^ 8 = invalidVendorId := by decide
    refine ⟨⟨?_, ?_, ?_, ?_, ?_⟩, ?_, ?_, ?_, ?_, ?_, ?_, ?_⟩ <;>
      simp only [entryOffset, field_setField, reduceCtorEq, if_false, if_true, Field.width,
        hcapacity, hdataCapacity, hentries, hvendor, hdataStart, sizeofEntry, sizeofMetadata,
        Nat.zero_mod, zero_le]
    omega

omit hfits in
theorem entries_nil (hcount : m.field .entryCount = 0) : m.view.entries = [] := by
  simp [view, entries, hcount]

lemma allocate_spec
    (hallocate : allocateCameraMetadata entryCapacity dataCapacity memory = some m) :
    Layout m ∧ m.field .dataCount = 0 ∧ m.view.entries = [] ∧ m.field .vendorId = invalidVendorId ∧
      m.field .flags = 0 ∧ m.field .entryCapacity = entryCapacity ∧
      m.field .dataCapacity = dataCapacity ∧
      m.field .size = calculateCameraMetadataSize entryCapacity dataCapacity % 256 ^ 4 := by
  obtain ⟨dst, -, hplace⟩ := Option.bind_eq_some_iff.mp hallocate
  obtain ⟨hlayout, hcount, hdata, hcapacity, hdataCapacity, hvendor, hflags, hsize⟩ :=
    place_spec hfits hplace
  exact ⟨hlayout, hdata, entries_nil hcount, hvendor, hflags, hcapacity, hdataCapacity, hsize⟩

end

/-- The size of a copy fits if that of the buffer does. -/
lemma Layout.compact_fits (h : Layout m) :
    sizeofMetadata + sizeofEntry * m.field .entryCount + m.field .dataCount < 2 ^ 32 := by
  have hfits := h.fits
  have hcount := h.count_le
  have hdata := h.data_le
  have hstart := h.dataStart
  unfold sizeofEntry at *
  omega

/-- The same entries and data in a buffer that has just the size for them. -/
structure Compacted (src m' : CameraMetadata) : Prop where
  layout : Layout m'
  copied : View.Copied src.view m'.view
  vendorId : m'.field .vendorId = src.field .vendorId
  entryCapacity : m'.field .entryCapacity = src.field .entryCount
  dataCapacity : m'.field .dataCapacity = src.field .dataCount
  size : m'.field .size =
    calculateCameraMetadataSize (src.field .entryCount) (src.field .dataCount) % 256 ^ 4

lemma clone_spec (h : Layout src) (hsound : src.view.Sound)
    (hclone : src.cloneCameraMetadata memory = some m') :
    Compacted src m' ∧ m'.field .flags = src.field .flags &&& flagSorted := by
  unfold cloneCameraMetadata at hclone
  split at hclone
  · cases hclone
  · next clone hallocate =>
    obtain ⟨hlayout, hdata, hentries, hvendor, hflags, hcapacity, hdataCapacity, hsize⟩ :=
      allocate_spec h.compact_fits hallocate
    split at hclone
    · next happend =>
      cases hclone
      obtain ⟨hlayout', hjoin, hfixed, hflags', hvendor'⟩ := append_spec hlayout happend
      have hdata' : clone.view.dataCount = 0 := hdata
      refine ⟨⟨hlayout', ⟨?_, ?_, fun b hb => ?_⟩, ?_, ?_, ?_, ?_⟩, ?_⟩
      · rw [hjoin.entries, hentries, hdata']
        exact (map_congr_left fun e he =>
          BufferEntry.moveUp_zero (hsound.valid e he).length_value).trans (map_id _)
      · rw [hjoin.dataCount, hdata', zero_add]
      · rw [← hjoin.appended b hb, hdata', zero_add]
      · rw [hvendor', if_pos hvendor]
      · rw [hfixed _ rfl, hcapacity]
      · rw [hfixed _ rfl, hdataCapacity]
      · rw [hfixed _ rfl, hsize]
      · have hcount : clone.field .entryCount = 0 := by
          simpa [view, entries] using congrArg List.length hentries
        rw [hflags', appendedFlags, if_pos hcount, hflags, Nat.zero_or]
    · cases hclone

lemma copy_spec (h : Layout src) {dst : Option Memory}
    (hcopy : copyCameraMetadata dst dstSize src = some m') :
    Compacted src m' ∧ m'.field .flags = src.field .flags := by
  obtain ⟨memory, -, hcopy⟩ := Option.bind_eq_some_iff.mp hcopy
  split at hcopy
  · cases hcopy
  obtain ⟨m, hplace, hm'⟩ := Option.map_eq_some_iff.mp hcopy
  obtain ⟨hlayout, -, -, hcapacity, hdataCapacity, -, -, hsize⟩ := place_spec h.compact_fits hplace
  have hstart := hlayout.dataStart
  have hsizeofEntry : sizeofEntry = 16 := rfl
  rw [hsizeofEntry] at hstart
  -- the header, then the entries and the data
  let m1 := ((((m.setField .flags (src.field .flags)).setField .entryCount
    (src.field .entryCount)).setField .dataCount (src.field .dataCount)).setField .vendorId
      (src.field .vendorId))
  have hfixed1 (f : Field) (hf : isFixed f) : m1.field f = m.field f := by
    rw [field_setField_fixed hf rfl, field_setField_fixed hf rfl, field_setField_fixed hf rfl,
      field_setField_fixed hf rfl]
  have hother1 (f : Field) (hf : isFixed f = false) : m1.field f = src.field f := by
    rw [← Nat.mod_eq_of_lt (src.field_lt f)]
    cases f with
    | flags | entryCount | dataCount | vendorId =>
      simp [m1]
    | _ => cases hf
  have hcount1 := hother1 .entryCount rfl
  have hdata1 := hother1 .dataCount rfl
  have hstart1 := (hfixed1 .dataStart rfl).trans hstart
  have hoffset1 (i : Nat) : m1.entryOffset i = sizeofMetadata + 16 * i := by
    unfold entryOffset
    rw [hfixed1 .entriesStart rfl, hlayout.entriesStart]
    rfl
  let m2 : CameraMetadata := m1.copy (m1.entryOffset 0) src (src.entryOffset 0)
    (16 * m1.field .entryCount)
  have hfield2 (f : Field) : m2.field f = m1.field f := field_copy (by rw [hoffset1]; omega) f
  have heq : m' = m2.copy (m2.field .dataStart) src (src.field .dataStart)
      (m2.field .dataCount) := hm'.symm
  have hfield (f : Field) : m'.field f = m1.field f := by
    rw [heq]
    refine (field_copy ?_ f).trans (hfield2 f)
    rw [hfield2]
    omega
  have hlayout' : Layout m' := by
    refine hlayout.of_fields (fun f hf => (hfield f).trans (hfixed1 f hf)) ?_ ?_
    · rw [hfield, hcount1, hcapacity]
    · rw [hfield, hdata1, hdataCapacity]
  have hcopied : View.Copied src.view m'.view := by
    refine ⟨?_, (hfield _).trans hdata1, fun b hb => ?_⟩
    · show (List.range (m'.field .entryCount)).map m'.entry =
        (List.range (src.field .entryCount)).map src.entry
      rw [hfield, hcount1]
      refine map_congr_left fun i hi => entry_congr fun k hk => ?_
      have hi := mem_range.mp hi
      rw [hlayout'.entryOffset, hsizeofEntry, heq, copy_outside (.inl (by rw [hfield2]; omega))]
      show m1.copy (m1.entryOffset 0) src (src.entryOffset 0) (16 * m1.field .entryCount) _ = _
      rw [hoffset1, copy_inside (by omega) (by omega)]
      refine congrArg src ?_
      unfold entryOffset sizeofEntry
      omega
    · show m' (m'.field .dataStart + b) = src (src.field .dataStart + b)
      have hb : b < src.field .dataCount := hb
      rw [hfield, heq, hfield2, hfield2, copy_inside (by omega) (by omega)]
      exact congrArg src (by omega)
  exact ⟨⟨hlayout', hcopied, (hfield _).trans (hother1 _ rfl),
    ((hfield _).trans (hfixed1 _ rfl)).trans hcapacity,
    ((hfield _).trans (hfixed1 _ rfl)).trans hdataCapacity,
    ((hfield _).trans (hfixed1 _ rfl)).trans hsize⟩, (hfield _).trans (hother1 _ rfl)⟩

end CameraMetadata

end Camera
