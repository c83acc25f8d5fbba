import AlpsSystem.Camera.Editing
import AlpsSystem.Lib.Tiling

/-!
# Entries with a shared data section

A buffer without its header: a list of entries, and the data section.

* `View`, `View.items` — the entries, and what is read from them.
* `View.Sound` — the data of the entries tile the first `dataCount` bytes.
-/

namespace Camera

open List

/-! ## Entries -/

/-- A tag with its values. -/
structure Item where
  tag : Nat
  type : Nat
  count : Nat
  values : List UInt8
  deriving DecidableEq, Repr

open BufferEntry LittleEndian

namespace BufferEntry

variable {e : BufferEntry}

/-- The number of bytes of the values. -/
def valueBytes (e : BufferEntry) : Nat := e.count * cameraMetadataTypeSize e.type

/-- The place of the data in the data section. -/
def range (e : BufferEntry) : Nat × Nat := (e.offset, e.dataSize)

/-- What can be read of 16 bytes, with a type that exists. -/
structure Valid (e : BufferEntry) : Prop where
  type_lt : e.type < numTypes
  count_lt : e.count < 2 ^ 32
  length_value : e.value.length = 4

section

variable (h : e.Valid)

include h

lemma Valid.offset_lt : e.offset < 2 ^ 32 := by
  have hlt := decode_lt e.value
  rwa [h.length_value] at hlt

lemma Valid.valueBytes_lt : e.valueBytes < 2 ^ 35 :=
  calc e.valueBytes
    _ ≤ e.count * 8 := Nat.mul_le_mul_left _ (cameraMetadataTypeSize_le e.type)
    _ < 2 ^ 35 := by have := h.count_lt; omega

/-- The data section has the values that do not fit into the entry. -/
lemma Valid.dataSize_eq : e.dataSize = if 4 < e.valueBytes then alignTo e.valueBytes 8 else 0 := by
  have hlt := h.valueBytes_lt
  unfold dataSize calculateCameraMetadataEntryDataSize
  rw [if_neg h.type_lt.not_ge]
  unfold valueBytes at hlt ⊢
  dsimp only
  rw [Nat.mod_eq_of_lt (by omega)]
  split <;> split <;> omega

lemma Valid.dataSize_pos : 0 < e.dataSize ↔ 4 < e.valueBytes := by
  have halign := alignTo_eight (show e.valueBytes < 2 ^ 64 - 8 by have := h.valueBytes_lt; omega)
  rw [h.dataSize_eq]
  split <;> omega

lemma Valid.valueBytes_le (hpos : 0 < e.dataSize) : e.valueBytes ≤ e.dataSize := by
  have halign := alignTo_eight (show e.valueBytes < 2 ^ 64 - 8 by have := h.valueBytes_lt; omega)
  rw [h.dataSize_eq, if_pos (h.dataSize_pos.mp hpos)]
  exact halign.1

/-- The entry with another offset. -/
def withOffset (e : BufferEntry) (offset : Nat) : BufferEntry :=
  { e with value := LittleEndian.encode 4 offset }

omit h in
theorem offset_withOffset (e : BufferEntry) (offset : Nat) :
    (e.withOffset offset).offset = offset % 2 ^ 32 :=
  LittleEndian.decode_encode_mod 4 offset

lemma Valid.withOffset (offset : Nat) : (e.withOffset offset).Valid :=
  ⟨h.type_lt, h.count_lt, LittleEndian.length_encode 4 offset⟩

/-- The loop of `append_camera_metadata`. -/
def moveUp (d : Nat) (e : BufferEntry) : BufferEntry :=
  if e.dataSize > 0 then e.withOffset (e.offset + d) else e

/-- The loop after data have been cut out. -/
def moveDown (o s : Nat) (e : BufferEntry) : BufferEntry :=
  if e.dataSize > 0 ∧ e.offset > o then e.withOffset (e.offset + 2 ^ 64 - s) else e

lemma Valid.moveUp (d : Nat) : (e.moveUp d).Valid := by
  unfold BufferEntry.moveUp
  split
  · exact h.withOffset _
  · exact h

end

lemma moveUp_zero (h : e.value.length = 4) : e.moveUp 0 = e := by
  have hvalue := encode_decode e.value
  rw [h] at hvalue
  unfold moveUp
  split
  · show { e with value := encode 4 (decode e.value) } = e
    rw [hvalue]
  · rfl

lemma Valid.moveDown (h : e.Valid) (o s : Nat) : (e.moveDown o s).Valid := by
  unfold BufferEntry.moveDown
  split
  · exact h.withOffset _
  · exact h

lemma range_moveUp {d : Nat} (hfits : 0 < e.dataSize → e.offset + d < 2 ^ 32) :
    (e.moveUp d).range = Tiles.moveUp d e.range := by
  show (if e.dataSize > 0 then e.withOffset (e.offset + d) else e).range =
    if 0 < e.dataSize then (e.offset + d, e.dataSize) else e.range
  split
  · next hpos =>
    show ((e.withOffset (e.offset + d)).offset, e.dataSize) = _
    rw [offset_withOffset, Nat.mod_eq_of_lt (hfits hpos)]
  · rfl

lemma range_moveDown (h : e.Valid) {o s : Nat}
    (hside : 0 < e.dataSize → o < e.offset → s ≤ e.offset) :
    (e.moveDown o s).range = Tiles.moveDown o s e.range := by
  have hlt := h.offset_lt
  show (if e.dataSize > 0 ∧ e.offset > o then e.withOffset (e.offset + 2 ^ 64 - s) else e).range =
    if 0 < e.dataSize ∧ o < e.offset then (e.offset - s, e.dataSize) else e.range
  split
  · next hmove =>
    show ((e.withOffset (e.offset + 2 ^ 64 - s)).offset, e.dataSize) = _
    rw [offset_withOffset]
    congr 1
    omega
  · rfl

end BufferEntry

/-! ## Views -/

structure View where
  entries : List BufferEntry
  data : Memory
  dataCount : Nat

namespace View

variable {v v' w : View} {e e' : BufferEntry} {index : Nat}

/-- The values of an entry, from the entry itself or from the data section. -/
def item (v : View) (e : BufferEntry) : Item :=
  { tag := e.tag, type := e.type, count := e.count
    values := if 4 < e.valueBytes then v.data.slice e.offset e.valueBytes
      else e.value.take e.valueBytes }

def items (v : View) : List Item := v.entries.map v.item

structure Sound (v : View) : Prop where
  valid : ∀ e ∈ v.entries, e.Valid
  tiles : Tiles (v.entries.map BufferEntry.range) v.dataCount

/-- All data but those of one entry tile the data section. -/
structure SoundExcept (v : View) (index : Nat) : Prop where
  valid : ∀ e ∈ v.entries, e.Valid
  tiles : Tiles ((v.entries.eraseIdx index).map BufferEntry.range) v.dataCount

/-- The data of an entry can be anywhere as long as they are the same. -/
lemma item_congr (htag : e'.tag = e.tag) (htype : e'.type = e.type) (hcount : e'.count = e.count)
    (hvalue : ¬ 4 < e.valueBytes → e'.value = e.value)
    (hdata : 4 < e.valueBytes → ∀ k < e.valueBytes,
      v'.data (e'.offset + k) = v.data (e.offset + k)) : v'.item e' = v.item e := by
  have hbytes : e'.valueBytes = e.valueBytes := by
    unfold valueBytes
    rw [hcount, htype]
  unfold item
  rw [htype, hbytes]
  congr 1
  split
  · next hlarge => exact Memory.slice_congr (hdata hlarge)
  · next hsmall => rw [hvalue hsmall]

/-- The values of an entry that stays where it is. -/
lemma item_same (h : e.Valid)
    (hdata : 0 < e.dataSize →
      ∀ b, e.offset ≤ b → b < e.offset + e.dataSize → v'.data b = v.data b) :
    v'.item e = v.item e := by
  refine item_congr rfl rfl rfl (fun _ => rfl) fun hlarge k hk => ?_
  have hpos := h.dataSize_pos.mpr hlarge
  have hle := h.valueBytes_le hpos
  exact hdata hpos _ le_self_add (by omega)

section

variable (h : v.Sound)

include h

lemma Sound.end_le (he : e ∈ v.entries) (hpos : 0 < e.dataSize) :
    e.offset + e.dataSize ≤ v.dataCount :=
  h.tiles.inside e.range (List.mem_map_of_mem he) hpos

/-- The values of different entries do not overlap. -/
lemma Sound.apart {i j : Nat} (hij : i ≠ j)
    (hi : v.entries[i]? = some e) (hj : v.entries[j]? = some e') : Apart e.range e'.range := by
  obtain ⟨hi', rfl⟩ := List.getElem?_eq_some_iff.mp hi
  obtain ⟨hj', rfl⟩ := List.getElem?_eq_some_iff.mp hj
  have hpairwise := pairwise_map.mp h.tiles.disjoint
  rw [pairwise_iff_getElem] at hpairwise
  rcases Nat.lt_or_gt_of_ne hij with hlt | hgt
  · exact hpairwise i j hi' hj' hlt
  · exact (hpairwise j i hj' hi' hgt).symm

omit h in
/-- The data of an entry are added at the end, if it has any. -/
theorem tiles_cons {rs : List (Nat × Nat)} {n : Nat} (h : Tiles rs n)
    (hoffset : 0 < e.dataSize → e.offset = n) : Tiles (e.range :: rs) (n + e.dataSize) := by
  unfold BufferEntry.range
  rcases eq_zero_or_pos e.dataSize with hzero | hpos
  · rw [hzero]
    exact h.cons_empty _
  · rw [hoffset hpos]
    exact h.cons_end _

omit h in
theorem sound_nil (hentries : v.entries = []) (hdata : v.dataCount = 0) : v.Sound where
  valid e he := by
    rw [hentries] at he
    cases he
  tiles := by
    rw [hentries, hdata]
    exact Tiles.nil

/-- The same entries with the same data. -/
structure Copied (v v' : View) : Prop where
  entries : v'.entries = v.entries
  dataCount : v'.dataCount = v.dataCount
  data : ∀ b < v.dataCount, v'.data b = v.data b

lemma Copied.sound (hcopy : Copied v v') : v'.Sound where
  valid := by
    rw [hcopy.entries]
    exact h.valid
  tiles := by
    rw [hcopy.entries, hcopy.dataCount]
    exact h.tiles

lemma Copied.items (hcopy : Copied v v') : v'.items = v.items := by
  unfold View.items
  rw [hcopy.entries]
  refine map_congr_left fun e he => item_same (h.valid e he) fun hpos b _ hb => ?_
  exact hcopy.data b (hb.trans_le (h.end_le he hpos))

/-- The entries are put into another order. -/
structure Permuted (v v' : View) : Prop where
  entries : v'.entries.Perm v.entries
  dataCount : v'.dataCount = v.dataCount
  data : ∀ b, v'.data b = v.data b

lemma Permuted.sound (hperm : Permuted v v') : v'.Sound where
  valid e he := h.valid e (hperm.entries.mem_iff.mp he)
  tiles := by
    rw [hperm.dataCount]
    exact h.tiles.perm (hperm.entries.map _).symm

/-! ## Adding and appending -/

/-- An entry is added, with its data at the end of the data section. -/
structure Pushed (v v' : View) (e : BufferEntry) : Prop where
  entries : v'.entries = v.entries ++ [e]
  dataCount : v'.dataCount = v.dataCount + e.dataSize
  offset : 0 < e.dataSize → e.offset = v.dataCount
  data : ∀ b < v.dataCount, v'.data b = v.data b

lemma Pushed.sound (hvalid : e.Valid) (hpush : Pushed v v' e) : v'.Sound where
  valid e' he' := by
    rw [hpush.entries] at he'
    rcases mem_append.mp he' with hold | hnew
    · exact h.valid e' hold
    · rwa [mem_singleton.mp hnew]
  tiles := by
    rw [hpush.entries, hpush.dataCount, map_append]
    exact (tiles_cons h.tiles hpush.offset).perm (perm_append_singleton _ _).symm

lemma Pushed.items (hpush : Pushed v v' e) : v'.items = v.items ++ [v'.item e] := by
  unfold View.items
  rw [hpush.entries, map_append]
  congr 1
  refine map_congr_left fun e' he' => item_same (h.valid e' he') fun hpos b _ hb => ?_
  exact hpush.data b (hb.trans_le (h.end_le he' hpos))

end

/-- The entries and data of another view are added. -/
structure Joined (v w v' : View) : Prop where
  entries : v'.entries = v.entries ++ w.entries.map (BufferEntry.moveUp v.dataCount)
  dataCount : v'.dataCount = v.dataCount + w.dataCount
  dataCount_lt : v'.dataCount < 2 ^ 32
  data : ∀ b < v.dataCount, v'.data b = v.data b
  appended : ∀ b < w.dataCount, v'.data (v.dataCount + b) = w.data b

lemma Joined.fits (hjoin : Joined v w v') (hw : w.Sound) (he : e ∈ w.entries)
    (hpos : 0 < e.dataSize) : e.offset + v.dataCount < 2 ^ 32 := by
  have hend := hw.end_le he hpos
  have hlt := hjoin.dataCount_lt
  rw [hjoin.dataCount] at hlt
  omega

lemma Joined.sound (hv : v.Sound) (hw : w.Sound) (hjoin : Joined v w v') : v'.Sound where
  valid e he := by
    rw [hjoin.entries] at he
    rcases mem_append.mp he with hold | hnew
    · exact hv.valid e hold
    · obtain ⟨e', he', rfl⟩ := mem_map.mp hnew
      exact (hw.valid e' he').moveUp _
  tiles := by
    rw [hjoin.entries, hjoin.dataCount, map_append, map_map]
    have hmap : w.entries.map (BufferEntry.range ∘ BufferEntry.moveUp v.dataCount) =
        (w.entries.map BufferEntry.range).map (Tiles.moveUp v.dataCount) := by
      rw [map_map]
      exact map_congr_left fun e he => range_moveUp fun hpos =>
        hjoin.fits hw he hpos
    rw [hmap]
    exact hv.tiles.append hw.tiles

lemma Joined.items (hv : v.Sound) (hw : w.Sound) (hjoin : Joined v w v') :
    v'.items = v.items ++ w.items := by
  unfold View.items
  rw [hjoin.entries, map_append, map_map]
  congr 1
  · refine map_congr_left fun e he => item_same (hv.valid e he) fun hpos b _ hb => ?_
    exact hjoin.data b (hb.trans_le (hv.end_le he hpos))
  · refine map_congr_left fun e he => ?_
    have hvalid := hw.valid e he
    show v'.item (e.moveUp v.dataCount) = w.item e
    rcases eq_zero_or_pos e.dataSize with hzero | hpos
    · have hsame : e.moveUp v.dataCount = e := if_neg (by omega)
      rw [hsame]
      exact item_same hvalid fun hpos => absurd hpos (by omega)
    · have hmoved : e.moveUp v.dataCount = e.withOffset (e.offset + v.dataCount) := if_pos hpos
      have hle := hvalid.valueBytes_le hpos
      have hend := hw.end_le he hpos
      rw [hmoved]
      refine item_congr rfl rfl rfl (fun hsmall => absurd (hvalid.dataSize_pos.mp hpos) hsmall)
        fun _ k hk => ?_
      rw [offset_withOffset, Nat.mod_eq_of_lt (hjoin.fits hw he hpos),
        ← hjoin.appended (e.offset + k) (by omega)]
      congr 1
      omega

/-! ## Cutting out and replacing -/

/-- The data of an entry are cut out of the data section. -/
structure Cut (v v' : View) (e : BufferEntry) : Prop where
  entries : v'.entries = v.entries.map (BufferEntry.moveDown e.offset e.dataSize)
  dataCount : v'.dataCount = v.dataCount - e.dataSize
  before : ∀ b < e.offset, v'.data b = v.data b
  after : ∀ b, e.offset ≤ b → b + e.dataSize < v.dataCount → v'.data b = v.data (b + e.dataSize)

/-- The items other than the one at an index. -/
def SameItems (v v' : View) (index : Nat) : Prop :=
  ∀ j, j ≠ index → (v'.entries[j]?).map v'.item = (v.entries[j]?).map v.item

lemma Cut.item (h : v.Sound) (hcut : Cut v v' e) (hpos : 0 < e.dataSize)
    (hapart : Apart e.range e'.range) (he' : e' ∈ v.entries) :
    v'.item (e'.moveDown e.offset e.dataSize) = v.item e' := by
  have hvalid := h.valid e' he'
  rcases eq_zero_or_pos e'.dataSize with hzero | hpos'
  · have hsame : e'.moveDown e.offset e.dataSize = e' := if_neg (by omega)
    rw [hsame]
    exact item_same hvalid fun hpos => absurd hpos (by omega)
  · have hend := h.end_le he' hpos'
    have hle := hvalid.valueBytes_le hpos'
    have hlt := hvalid.offset_lt
    have hside : e.offset + e.dataSize ≤ e'.offset ∨ e'.offset + e'.dataSize ≤ e.offset :=
      hapart hpos hpos'
    by_cases hafter : e'.offset > e.offset
    · have hmoved : e'.moveDown e.offset e.dataSize =
          e'.withOffset (e'.offset + 2 ^ 64 - e.dataSize) := if_pos ⟨hpos', hafter⟩
      have hoffset : (e'.offset + 2 ^ 64 - e.dataSize) % 2 ^ 32 = e'.offset - e.dataSize := by
        omega
      rw [hmoved]
      refine item_congr rfl rfl rfl
        (fun hsmall => absurd (hvalid.dataSize_pos.mp hpos') hsmall) fun _ k hk => ?_
      rw [offset_withOffset, hcut.after _ (by omega) (by omega)]
      congr 1
      omega
    · have hsame : e'.moveDown e.offset e.dataSize = e' := if_neg fun hmove => hafter hmove.2
      rw [hsame]
      exact item_same hvalid fun _ b _ hb => hcut.before b (by omega)

section

variable (hindex : v.entries[index]? = some e)

include hindex

lemma Cut.sameItems (h : v.Sound) (hcut : Cut v v' e)
    (hpos : 0 < e.dataSize) : SameItems v v' index := by
  intro j hj
  rw [hcut.entries, List.getElem?_map]
  cases hentry : v.entries[j]? with
  | none => rfl
  | some e' =>
    have hapart := h.apart hj.symm hindex hentry
    exact congrArg some (hcut.item h hpos hapart (mem_of_getElem? hentry))

lemma Cut.soundExcept (h : v.Sound) (hcut : Cut v v' e)
    (hpos : 0 < e.dataSize) : v'.SoundExcept index := by
  obtain ⟨hlt, rfl⟩ := List.getElem?_eq_some_iff.mp hindex
  refine ⟨fun e' he' => ?_, ?_⟩
  · rw [hcut.entries] at he'
    obtain ⟨e'', he'', rfl⟩ := mem_map.mp he'
    exact (h.valid e'' he'').moveDown _ _
  · have hperm := (getElem_cons_eraseIdx_perm hlt).map BufferEntry.range
    have htiles := (h.tiles.perm hperm.symm).remove hpos
    have hapart := (pairwise_cons.mp (h.tiles.perm hperm.symm).disjoint).1
    rw [hcut.entries, hcut.dataCount, eraseIdx_map, map_map]
    rw [map_map] at htiles
    refine map_congr_left (fun e' he' => ?_) ▸ htiles
    refine (range_moveDown (h.valid e' (mem_of_mem_eraseIdx he'))
      fun hpos' hafter => ?_).symm
    have hside := hapart e'.range (mem_map_of_mem he') hpos hpos'
    simp only [BufferEntry.range] at hside
    omega

/-- An entry without data can be left out of the tiling. -/
lemma Sound.soundExcept (h : v.Sound) (hzero : e.dataSize = 0) : v.SoundExcept index := by
  obtain ⟨hlt, rfl⟩ := List.getElem?_eq_some_iff.mp hindex
  have hperm := (getElem_cons_eraseIdx_perm hlt).map BufferEntry.range
  have htiles := h.tiles.perm hperm.symm
  rw [map_cons, BufferEntry.range, hzero] at htiles
  exact ⟨h.valid, htiles.of_cons_empty⟩

end

lemma SameItems.refl (v : View) (index : Nat) : SameItems v v index := fun _ _ => rfl

lemma SameItems.trans {v'' : View} (h : SameItems v v' index) (h' : SameItems v' v'' index) :
    SameItems v v'' index :=
  fun j hj => (h' j hj).trans (h j hj)

lemma SameItems.eraseIdx (h : SameItems v v' index) :
    v'.items.eraseIdx index = v.items.eraseIdx index := by
  refine ext_getElem? fun j => ?_
  simp only [View.items, List.getElem?_eraseIdx, List.getElem?_map]
  split
  · exact h j (by omega)
  · exact h (j + 1) (by omega)

lemma SameItems.set (h : SameItems v v' index) (hindex : v'.entries[index]? = some e)
    (hlt : index < v.entries.length) : v'.items = v.items.set index (v'.item e) := by
  refine ext_getElem? fun j => ?_
  simp only [View.items, List.getElem?_set, List.getElem?_map, length_map]
  split
  · next heq =>
    rw [← heq, hindex]
    rfl
  · next hne => exact h j (Ne.symm hne)

/-- An entry is removed, without its data. -/
structure Erased (v v' : View) (index : Nat) : Prop where
  entries : v'.entries = v.entries.eraseIdx index
  dataCount : v'.dataCount = v.dataCount
  data : ∀ b < v.dataCount, v'.data b = v.data b

section

variable (h : v.SoundExcept index)

include h

lemma Erased.sound (herase : Erased v v' index) : v'.Sound where
  valid e he := by
    rw [herase.entries] at he
    exact h.valid e (mem_of_mem_eraseIdx he)
  tiles := by
    rw [herase.entries, herase.dataCount]
    exact h.tiles

lemma Erased.items (herase : Erased v v' index) : v'.items = v.items.eraseIdx index := by
  unfold View.items
  rw [herase.entries, eraseIdx_map]
  refine map_congr_left fun e he => ?_
  refine item_same (h.valid e (mem_of_mem_eraseIdx he)) fun hpos b _ hb => ?_
  have hend := h.tiles.inside e.range (mem_map_of_mem he) hpos
  exact herase.data b (hb.trans_le hend)

/-- An entry is replaced, with its data at the end of the data section. -/
structure Put (v v' : View) (index : Nat) (e : BufferEntry) : Prop where
  entries : v'.entries = v.entries.set index e
  dataCount : v'.dataCount = v.dataCount + e.dataSize
  offset : 0 < e.dataSize → e.offset = v.dataCount
  data : ∀ b < v.dataCount, v'.data b = v.data b

lemma Put.sound (hlt : index < v.entries.length) (hvalid : e.Valid)
    (hput : Put v v' index e) : v'.Sound where
  valid e' he' := by
    rw [hput.entries] at he'
    rcases mem_or_eq_of_mem_set he' with hold | rfl
    · exact h.valid e' hold
    · exact hvalid
  tiles := by
    rw [hput.entries, hput.dataCount]
    have hperm := (set_perm_cons_eraseIdx hlt e).map BufferEntry.range
    exact (tiles_cons h.tiles hput.offset).perm hperm.symm

lemma Put.sameItems (hput : Put v v' index e) : SameItems v v' index := by
  intro j hj
  rw [hput.entries, List.getElem?_set_ne hj.symm]
  cases hentry : v.entries[j]? with
  | none => rfl
  | some e' =>
    have hmem : e' ∈ v.entries.eraseIdx index :=
      mem_eraseIdx_iff_getElem?.mpr ⟨j, hj, hentry⟩
    refine congrArg some (item_same (h.valid e' (mem_of_mem_eraseIdx hmem)) fun hpos b _ hb => ?_)
    have hend := h.tiles.inside e'.range (mem_map_of_mem hmem) hpos
    exact hput.data b (hb.trans_le hend)

end

/-- An entry is replaced by one whose data are in the same place. -/
structure Overwritten (v v' : View) (index : Nat) (e e' : BufferEntry) : Prop where
  entries : v'.entries = v.entries.set index e'
  dataCount : v'.dataCount = v.dataCount
  range : e'.range = e.range
  data : ∀ b < v.dataCount, (b < e.offset ∨ e.offset + e.dataSize ≤ b) → v'.data b = v.data b

/-- The data of an entry are cut out, if it has any. -/
def DataCut (v v' : View) (e : BufferEntry) : Prop :=
  v'.entries = v.entries ∨ v'.entries = v.entries.map (BufferEntry.moveDown e.offset e.dataSize)

/-- An entry is replaced by one whose data are in the same place, or at the end of the data
section. -/
structure Replaced (v v' : View) (index : Nat) (e e' : BufferEntry) : Prop where
  entries : ∃ w : View, DataCut v w e ∧ v'.entries = w.entries.set index e'
  dataCount : v'.dataCount = v.dataCount - e.dataSize + e'.dataSize
  tag : e'.tag = e.tag
  type : e'.type = e.type
  offset : 0 < e'.dataSize →
    0 < e.dataSize ∧ e'.offset = e.offset ∨ e'.offset = v.dataCount - e.dataSize

variable {e' : BufferEntry}

lemma Overwritten.sound (h : v.Sound) (hindex : v.entries[index]? = some e)
    (hvalid : e'.Valid) (hover : Overwritten v v' index e e') : v'.Sound where
  valid e'' he'' := by
    rw [hover.entries] at he''
    rcases mem_or_eq_of_mem_set he'' with hold | rfl
    · exact h.valid e'' hold
    · exact hvalid
  tiles := by
    obtain ⟨hlt, rfl⟩ := List.getElem?_eq_some_iff.mp hindex
    have hsame : (v.entries.set index e').map BufferEntry.range =
        v.entries.map BufferEntry.range := by
      rw [map_set, hover.range, ← getElem_map BufferEntry.range (h := by simpa using hlt),
        set_getElem_self]
    rw [hover.entries, hover.dataCount, hsame]
    exact h.tiles

lemma Overwritten.sameItems (h : v.Sound)
    (hindex : v.entries[index]? = some e) (hpos : 0 < e.dataSize)
    (hover : Overwritten v v' index e e') : SameItems v v' index := by
  intro j hj
  rw [hover.entries, List.getElem?_set_ne hj.symm]
  cases hentry : v.entries[j]? with
  | none => rfl
  | some e'' =>
    have hmem := mem_of_getElem? hentry
    refine congrArg some (item_same (h.valid e'' hmem) fun hpos' b hb hb' => ?_)
    have hside := h.apart hj.symm hindex hentry hpos hpos'
    simp only [BufferEntry.range] at hside
    exact hover.data b (hb'.trans_le (h.end_le hmem hpos')) (by omega)

end View

end Camera
