import AlpsSystem.Camera.Updating
import AlpsSystem.Lib.Runs

/-!
# Camera metadata buffers are lists of values

* `contents` — what is read from a buffer, entry by entry.
* `refines` — operations on buffers do what they do on lists, as long as the sizes of the buffers
  fit the fields of their headers; the data of the entries tile the data section.
-/

namespace Camera

open Runs (EachStep Throughout throughout_of_inv)

open List

/-! ## Reading all entries -/

/-- The values of a buffer, with the vendor that says what its tags are. -/
structure Packet where
  vendorId : Nat
  items : List Item
  deriving DecidableEq, Repr

open Packet

lemma Packet.mk_congr {vendorId : Nat} {items items' : List Item} (h : items = items') :
    mk vendorId items = mk vendorId items' := congrArg _ h

namespace CameraMetadata

variable {m m' : CameraMetadata}

/-- An entry as `get_camera_metadata_entry` returns it, with the values that it points to. -/
def readItem (m : CameraMetadata) (i : Nat) : Option Item :=
  (m.getCameraMetadataEntry i).value.map fun e =>
    { tag := e.tag, type := e.type, count := e.count
      values := m.slice e.data (e.count * cameraMetadataTypeSize e.type) }

def contents (m : CameraMetadata) : Packet :=
  { vendorId := m.field .vendorId
    items := (List.range (m.field .entryCount)).filterMap m.readItem }

open BufferEntry Traced View

lemma readItem_eq (hsound : m.view.Sound) {i : Nat} (hi : i < m.field .entryCount) :
    m.readItem i = some (m.view.item (m.entry i)) := by
  have hvalid := hsound.valid _ (mem_of_getElem? (getElem?_view_entries hi))
  have hlt := hvalid.valueBytes_lt
  unfold valueBytes at hlt
  simp only [readItem, getCameraMetadataEntry, readField, readEntry, entryData, value_bind,
    value_pure, if_neg (not_le.mpr hi), Option.map_some]
  rw [Nat.mod_eq_of_lt (by omega)]
  unfold item valueBytes
  congr 2
  by_cases hlarge : 4 < (m.entry i).count * cameraMetadataTypeSize (m.entry i).type
  · rw [if_pos hlarge, if_pos hlarge]
    exact (slice_dataByte m _ _).symm
  · rw [if_neg hlarge, if_neg hlarge]
    exact (Memory.take_slice m _ (by omega)).symm

lemma contents_eq (hsound : m.view.Sound) :
    m.contents = { vendorId := m.field .vendorId, items := m.view.items } := by
  refine mk_congr ?_
  show _ = ((List.range (m.field .entryCount)).map m.entry).map _
  rw [map_map, ← filterMap_eq_map]
  refine filterMap_congr fun i hi => ?_
  exact readItem_eq hsound (mem_range.mp hi)

end CameraMetadata

/-! ## Lists -/

namespace Packet

/-- A tag with its values is appended. -/
def add (ops : VendorOps) (tag : Nat) (data : Memory) (dataCount : Nat) (p : Packet) : Packet :=
  match getLocalCameraMetadataTagType ops tag p.vendorId with
  | none => p
  | some type => { p with items := p.items ++
      [{ tag := tag, type := type.toNat, count := dataCount
         values := data.slice 0 (dataCount * cameraMetadataTypeSize type.toNat) }] }

/-- Two lists are concatenated. -/
def append (q p : Packet) : Packet :=
  { vendorId := if p.vendorId = invalidVendorId then q.vendorId else p.vendorId
    items := p.items ++ q.items }

/-- The values of an element are replaced. -/
def update (index : Nat) (data : Memory) (dataCount : Nat) (p : Packet) : Packet :=
  { p with items := p.items.modify index fun item =>
      { item with
        count := dataCount
        values := data.slice 0 (dataCount * cameraMetadataTypeSize item.type) } }

/-- An element is removed. -/
def delete (index : Nat) (p : Packet) : Packet := { p with items := p.items.eraseIdx index }

end Packet

/-- The operations on lists. -/
def specStep (ops : VendorOps) (packets : List Packet) : Op → List Packet
  | .allocate _ _ _ => packets ++ [{ vendorId := invalidVendorId, items := [] }]
  | .add dst tag data dataCount =>
    packets.modify dst (Packet.add ops tag.toNat (data.getD fun _ => 0) dataCount.count)
  | .append dst src => (packets[src]?.map fun q => packets.modify dst q.append).getD packets
  | .update dst index data dataCount =>
    packets.modify dst (Packet.update index data dataCount.count)
  | .delete dst index => packets.modify dst (Packet.delete index)
  | .copy _ _ src => packets ++ packets[src]?.toList
  | .clone src _ => packets ++ packets[src]?.toList

/-- An operation on buffers, and the one on lists if the code returns no error. -/
def bothStep (ops : VendorOps) (s : List CameraMetadata × List Packet) (op : Op) :
    List CameraMetadata × List Packet :=
  ((step ops s.1 op).2, if (step ops s.1 op).1 then specStep ops s.2 op else s.2)

/-- The buffers have the contents of the lists.  The data of their entries do not overlap and
together are the first `data_count` bytes of the data section. -/
structure Implements (s : List CameraMetadata × List Packet) : Prop where
  contents : s.1.map CameraMetadata.contents = s.2
  tiles : ∀ m ∈ s.1, Tiles (m.entries.map BufferEntry.range) (m.field .dataCount)

/-- The invariant of a buffer. -/
structure CameraMetadata.Good (m : CameraMetadata) : Prop where
  layout : m.Layout
  sound : m.view.Sound

/-- A buffer is allocated with a size that fits the fields of its header. -/
def Op.fits : Op → Bool
  | .allocate entryCapacity dataCapacity _ =>
    decide (sizeofMetadata + sizeofEntry * entryCapacity + dataCapacity < 2 ^ 32)
  | _ => true

/-! ## One operation -/

namespace CameraMetadata

variable {m m' src : CameraMetadata} {ops : VendorOps} {dataCount tag index : Nat}
  {data : Option Memory}

lemma add_contents (h : m.Good) (htag : tag < 2 ^ 32) (hfits : dataCount < 2 ^ 60)
    (hadd : m.addCameraMetadataEntry ops tag data dataCount = (true, m')) :
    m'.Good ∧ m'.contents = m.contents.add ops tag (data.getD fun _ => 0) dataCount := by
  unfold addCameraMetadataEntry at hadd
  split at hadd
  · cases hadd
  · next type htype =>
    obtain ⟨hlayout, hfields, -, e, hpush, hvalid, -, hitem⟩ :=
      add_spec h.layout htag type.toNat_lt hfits hadd
    have hvendor : m'.field .vendorId = m.field .vendorId :=
      hfields _ (by decide) (by decide) (by decide)
    have hsound := hpush.sound h.sound hvalid
    refine ⟨⟨hlayout, hsound⟩, ?_⟩
    rw [contents_eq hsound, contents_eq h.sound, hpush.items h.sound, hitem, hvendor, add,
      htype]

lemma append_contents (h : m.Good) (hsrc : src.Good)
    (happend : m.appendCameraMetadata src = (true, m')) :
    m'.Good ∧ m'.contents = src.contents.append m.contents := by
  obtain ⟨hlayout, hjoin, -, -, hvendor⟩ := append_spec h.layout happend
  have hsound := hjoin.sound h.sound hsrc.sound
  refine ⟨⟨hlayout, hsound⟩, ?_⟩
  rw [contents_eq hsound, contents_eq h.sound, contents_eq hsrc.sound,
    hjoin.items h.sound hsrc.sound, hvendor]
  rfl

lemma update_contents (h : m.Good) {data : Memory} (hfits : dataCount < 2 ^ 60)
    (hupdate : m.updateCameraMetadataEntry index data dataCount = (true, m')) :
    m'.Good ∧ m'.contents = m.contents.update index data dataCount := by
  have hindex : index < m.field .entryCount := by
    unfold updateCameraMetadataEntry at hupdate
    split at hupdate
    · cases hupdate
    · next hlt => exact not_le.mp hlt
  have hupdated := update_spec h.layout h.sound hfits hupdate
  refine ⟨⟨hupdated.layout, hupdated.sound⟩, ?_⟩
  rw [contents_eq hupdated.sound, contents_eq h.sound, hupdated.items,
    hupdated.fields _ (by decide)]
  refine mk_congr ?_
  have hitem : m.view.items[index]? = some (m.view.item (m.entry index)) := by
    rw [View.items, List.getElem?_map, getElem?_view_entries hindex]
    rfl
  rw [modify_eq_set_getElem?, hitem]
  rfl

lemma delete_contents (h : m.Good) (hdelete : m.deleteCameraMetadataEntry index = (true, m')) :
    m'.Good ∧ m'.contents = m.contents.delete index := by
  obtain ⟨hlayout, hsound, hfields, hitems, -⟩ := delete_spec h.layout h.sound hdelete
  refine ⟨⟨hlayout, hsound⟩, ?_⟩
  rw [contents_eq hsound, contents_eq h.sound, hitems, hfields _ (by decide) (by decide)]
  rfl

lemma Compacted.contents (h : src.Good) (hcopy : Compacted src m') :
    m'.Good ∧ m'.contents = src.contents := by
  have hsound := hcopy.copied.sound h.sound
  refine ⟨⟨hcopy.layout, hsound⟩, ?_⟩
  rw [contents_eq hsound, contents_eq h.sound, hcopy.copied.items h.sound, hcopy.vendorId]

lemma allocate_contents {entryCapacity dataCapacity : Nat} {memory : Option Memory}
    (hfits : sizeofMetadata + sizeofEntry * entryCapacity + dataCapacity < 2 ^ 32)
    (hallocate : allocateCameraMetadata entryCapacity dataCapacity memory = some m) :
    m.Good ∧ m.contents = { vendorId := invalidVendorId, items := [] } := by
  obtain ⟨hlayout, hdata, hentries, hvendor, -⟩ := allocate_spec hfits hallocate
  have hsound := View.sound_nil hentries hdata
  refine ⟨⟨hlayout, hsound⟩, ?_⟩
  rw [contents_eq hsound, View.items, hentries, hvendor]
  rfl

/-! ## Errors -/

lemma add_error (h : m.addCameraMetadataEntry ops tag data dataCount = (false, m')) : m' = m := by
  unfold addCameraMetadataEntry addCameraMetadataEntryRaw at h
  split at h
  · cases h
    rfl
  dsimp only at h
  split at h
  · cases h
    rfl
  split at h
  · cases h
    rfl
  split at h
  · cases h
    rfl
  · cases h

lemma append_error (h : m.appendCameraMetadata src = (false, m')) : m' = m := by
  unfold appendCameraMetadata at h
  split at h
  · cases h
  · cases h
    rfl

lemma update_error {data : Memory}
    (h : m.updateCameraMetadataEntry index data dataCount = (false, m')) : m' = m := by
  unfold updateCameraMetadataEntry at h
  split at h
  · cases h
    rfl
  dsimp only at h
  split at h
  · cases h
    rfl
  · cases h

lemma delete_error (h : m.deleteCameraMetadataEntry index = (false, m')) : m' = m := by
  unfold deleteCameraMetadataEntry at h
  split at h
  · cases h
    rfl
  · cases h

end CameraMetadata

/-! ## Steps -/

open CameraMetadata

section Steps

variable {buffers : List CameraMetadata} {ops : VendorOps} {dst : Nat}
  {change : CameraMetadata → Bool × CameraMetadata}

lemma changeBuffer_error (herror : ∀ m m', change m = (false, m') → m' = m)
    (h : (changeBuffer buffers dst change).1 = false) :
    (changeBuffer buffers dst change).2 = buffers := by
  unfold changeBuffer at *
  split
  · rfl
  · next m hm =>
    rw [hm] at h
    obtain ⟨hlt, rfl⟩ := List.getElem?_eq_some_iff.mp hm
    have hsame : (change buffers[dst]).2 = buffers[dst] :=
      herror _ _ (Prod.ext h rfl)
    rw [hsame, set_getElem_self]

/-- An operation that returns an error leaves all buffers as they are. -/
lemma step_error (op : Op) (h : (step ops buffers op).1 = false) :
    (step ops buffers op).2 = buffers := by
  have hnew (m : Option CameraMetadata) (h : (newBuffer buffers m).1 = false) :
      (newBuffer buffers m).2 = buffers := by
    cases m with
    | none => rfl
    | some m => cases h
  cases op with
  | allocate | copy | clone => exact hnew _ h
  | add dst tag data dataCount =>
    exact changeBuffer_error (fun _ _ => add_error) h
  | append dst src =>
    simp only [step] at h ⊢
    split at h
    · rfl
    · exact changeBuffer_error (fun _ _ => append_error) h
  | update dst index data dataCount =>
    exact changeBuffer_error (fun _ _ => update_error) h
  | delete dst index => exact changeBuffer_error (fun _ _ => delete_error) h

variable (hgood : ∀ m ∈ buffers, m.Good)

include hgood

/-- A buffer is changed as its list is. -/
lemma changeBuffer_contents {f : Packet → Packet}
    (hchange : ∀ m m', m.Good → change m = (true, m') → m'.Good ∧ m'.contents = f m.contents)
    (h : (changeBuffer buffers dst change).1) :
    (∀ m ∈ (changeBuffer buffers dst change).2, m.Good) ∧
      (changeBuffer buffers dst change).2.map contents =
        (buffers.map contents).modify dst f := by
  unfold changeBuffer at *
  split
  · next hnone =>
    rw [hnone] at h
    cases h
  · next m hm =>
    rw [hm] at h
    obtain ⟨hlt, rfl⟩ := List.getElem?_eq_some_iff.mp hm
    obtain ⟨hgood', hcontents⟩ := hchange buffers[dst] (change buffers[dst]).2
      (hgood _ (getElem_mem hlt)) (Prod.ext h rfl)
    refine ⟨fun m hmem => ?_, ?_⟩
    · rcases mem_or_eq_of_mem_set hmem with hold | rfl
      · exact hgood m hold
      · exact hgood'
    · rw [map_set, hcontents, modify_eq_set_getElem?, List.getElem?_map, hm]
      rfl

/-- A new buffer has the contents of a new list. -/
lemma newBuffer_contents {new : Option CameraMetadata} {p : Packet}
    (hnew : ∀ m, new = some m → m.Good ∧ m.contents = p)
    (h : (newBuffer buffers new).1) :
    (∀ m ∈ (newBuffer buffers new).2, m.Good) ∧
      (newBuffer buffers new).2.map contents =
        buffers.map contents ++ [p] := by
  cases new with
  | none => cases h
  | some m =>
    obtain ⟨hgood', hcontents⟩ := hnew m rfl
    refine ⟨fun m' hm' => ?_, ?_⟩
    · rcases mem_append.mp hm' with hold | hnew
      · exact hgood m' hold
      · rwa [mem_singleton.mp hnew]
    · show (buffers ++ [m]).map _ = _
      rw [map_append, map_singleton, hcontents]

/-- A copy of a buffer has its contents. -/
lemma copyBuffer_contents {src : Nat} {copy : CameraMetadata → Option CameraMetadata}
    (hcopy : ∀ m m', m.Good → copy m = some m' → m'.Good ∧ m'.contents = m.contents)
    (h : (newBuffer buffers (buffers[src]?.bind copy)).1) :
    (∀ m ∈ (newBuffer buffers (buffers[src]?.bind copy)).2, m.Good) ∧
      (newBuffer buffers (buffers[src]?.bind copy)).2.map contents =
        buffers.map contents ++
          ((buffers.map contents)[src]?).toList := by
  cases hm : buffers[src]? with
  | none =>
    rw [hm] at h
    cases h
  | some m =>
    rw [hm] at h
    rw [List.getElem?_map, hm]
    exact newBuffer_contents hgood
      (fun m' hm' => hcopy m m' (hgood m (mem_of_getElem? hm)) hm') h

lemma step_contents (op : Op) (hfits : op.fits = true) (h : (step ops buffers op).1) :
    (∀ m ∈ (step ops buffers op).2, m.Good) ∧ (step ops buffers op).2.map contents =
        specStep ops (buffers.map contents) op := by
  cases op with
  | allocate entryCapacity dataCapacity memory =>
    exact newBuffer_contents hgood
      (fun m hm => allocate_contents (of_decide_eq_true hfits) hm) h
  | add dst tag data dataCount =>
    exact changeBuffer_contents hgood
      (fun m m' hm hadd => add_contents hm tag.toNat_lt dataCount.fits hadd) h
  | append dst src =>
    simp only [step] at h ⊢
    split at h
    · cases h
    · next m hm =>
      have hsrc := hgood m (mem_of_getElem? hm)
      simp only [specStep, List.getElem?_map, hm]
      exact changeBuffer_contents hgood
        (fun m' m'' hm' happend => append_contents hm' hsrc happend) h
  | update dst index data dataCount =>
    exact changeBuffer_contents hgood
      (fun m m' hm hupdate => update_contents hm dataCount.fits hupdate) h
  | delete dst index =>
    exact changeBuffer_contents hgood
      (fun m m' hm hdelete => delete_contents hm hdelete) h
  | copy dst dstSize src =>
    exact copyBuffer_contents hgood
      (fun m m' hm hcopy => (copy_spec hm.layout hcopy).1.contents hm) h
  | clone src memory =>
    exact copyBuffer_contents hgood
      (fun m m' hm hclone => (clone_spec hm.layout hm.sound hclone).1.contents hm) h

end Steps

/-! ## Runs -/

/-- The invariant: the buffers are good, and they have the contents of the lists. -/
structure Related (s : List CameraMetadata × List Packet) : Prop where
  good : ∀ m ∈ s.1, m.Good
  contents : s.1.map CameraMetadata.contents = s.2

variable {s : List CameraMetadata × List Packet}

lemma bothStep_related {ops : VendorOps} {op : Op}
    (h : Related s) (hfits : op.fits) : Related (bothStep ops s op) := by
  cases hok : (step ops s.1 op).1 with
  | false =>
    have hsame := step_error op hok
    have heq : bothStep ops s op = s := by
      simp [bothStep, hok, hsame]
    rw [heq]
    exact h
  | true =>
    obtain ⟨hgood, hcontents⟩ := step_contents h.good op hfits hok
    refine ⟨hgood, ?_⟩
    show (step ops s.1 op).2.map _ = if (step ops s.1 op).1 then specStep ops s.2 op else s.2
    rw [hok, if_pos rfl, hcontents, h.contents]

lemma Related.implements (h : Related s) : Implements s :=
  ⟨h.contents, fun m hm => (h.good m hm).sound.tiles⟩

/-- Buffers whose sizes fit their headers do what lists of values do. -/
theorem refines (ops : VendorOps) (run : List Op) (hfits : ∀ op ∈ run, op.fits = true) :
    Throughout Implements (bothStep ops) ([], []) run ∧
      ∀ buffers op, (step ops buffers op).1 = false → (step ops buffers op).2 = buffers := by
  have hops : EachStep (fun _ op => op.fits) (bothStep ops) ([], []) run :=
    Runs.eachStep_of_forall run _ hfits
  have hrelated : Throughout Related (bothStep ops) ([], []) run :=
    throughout_of_inv (fun _ _ hs hop => bothStep_related hs hop) run _ ⟨nofun, rfl⟩ hops
  exact ⟨hrelated.mono fun _ hs => hs.implements, fun _ op h => step_error op h⟩

/-- Eight bytes, as a value of `ANDROID_COLOR_CORRECTION_TRANSFORM`. -/
def sampleData : Memory := Memory.ofList [7, 0, 0, 0, 9, 0, 0, 0]

def oneValue : DataCount := ⟨1, by decide⟩

def noValues : DataCount := ⟨0, by decide⟩

/-- A value is added, replaced by none, and the buffer is cloned. -/
def sampleRun : List Op :=
  [.allocate 4 32 (some fun _ => 0), .add 0 1 (some sampleData) oneValue,
    .update 0 0 sampleData noValues, .clone 0 (some fun _ => 0xFF), .delete 0 0]

theorem refines_sampleRun :
    (∀ op ∈ sampleRun, op.fits = true) ∧
      Throughout Implements (bothStep ⟨none, none⟩) ([], []) sampleRun :=
  have hfits : ∀ op ∈ sampleRun, op.fits := by decide
  ⟨hfits, (refines ⟨none, none⟩ sampleRun hfits).1⟩

/-- A buffer of 2^28 entries is larger than 4 GiB, and `data_start` wraps around to the start of
the entries: the values of the first entry are written over its tag and count. -/
theorem large_buffer_overlaps :
    let s := [Op.allocate (2 ^ 28) 8 (some fun _ => 0),
      .add 0 1 (some sampleData) ⟨1, by decide⟩].foldl (bothStep ⟨none, none⟩) ([], [])
    (s.2.map fun p => p.items.map fun item => (item.tag, item.count)) = [[(1, 1)]] ∧
      (s.1.map fun m => m.contents.items.map fun item => (item.tag, item.count)) = [[(7, 9)]] ∧
      ¬ Implements s := by
  intro s
  have hlists : (s.2.map fun p => p.items.map fun item => (item.tag, item.count)) = [[(1, 1)]] := by
    decide
  have hbuffers : (s.1.map fun m => m.contents.items.map fun item => (item.tag, item.count)) =
      [[(7, 9)]] := by
    decide
  refine ⟨hlists, hbuffers, fun himplements => ?_⟩
  rw [← himplements.contents] at hlists
  exact absurd (hbuffers.symm.trans hlists) (by decide)

end Camera
