import AlpsSystem.Camera.Contents
import AlpsSystem.Camera.Validation
import AlpsSystem.Lib.HalvingSearch

/-!
# Looking up tags in sorted buffers

* `SortOp`, `sortStep` — sequences of operations, sorting among them.
* `lookup_iff` — `FLAG_SORTED` says the truth, and `find_camera_metadata_entry` finds the tags that
  are there, as long as no buffer that is empty and marked as sorted gets entries that are not.
-/

namespace Camera

open Runs (EachStep Throughout throughout_iff_of_forall)

open List

/-! ## The library -/

/-- `qsort`: the order in which it leaves `n` elements. -/
structure Qsort where
  order : (n : Nat) → (Nat → Nat → Ordering) → List Nat
  perm : ∀ n cmp, (order n cmp).Perm (List.range n)
  sorted : ∀ n (key : Nat → Nat),
    (order n fun i j => compare (key i) (key j)).Pairwise fun i j => key i ≤ key j

/-- A `bsearch` that finds a key in sorted elements if it is there. -/
structure SortedSearch extends BinarySearch where
  found : ∀ n (key : Nat → Nat) k i, (∀ i j, i ≤ j → j < n → key i ≤ key j) →
    search n (fun i => compare k (key i)) = some i → key i = k
  complete : ∀ n (key : Nat → Nat) i, (∀ i j, i ≤ j → j < n → key i ≤ key j) → i < n →
    search n (fun j => compare (key i) (key j)) ≠ none

/-! ## Sorting -/

namespace CameraMetadata

/-- The entries of a buffer are put into another order. -/
def permuteEntries (m : CameraMetadata) (order : List Nat) : CameraMetadata := fun b =>
  if m.entryOffset 0 ≤ b ∧ b < m.entryOffset order.length then
    m (m.entryOffset (order.getD ((b - m.entryOffset 0) / sizeofEntry) 0) +
      (b - m.entryOffset 0) % sizeofEntry)
  else m b

/-- Whether `FLAG_SORTED` is set. -/
def isSorted (m : CameraMetadata) : Bool := decide (m.field .flags &&& flagSorted ≠ 0)

/-- `sort_camera_metadata`, which always returns `OK`. -/
def sortCameraMetadata (lib : Qsort) (dst : CameraMetadata) : CameraMetadata :=
  if dst.isSorted then dst
  else
    let m := dst.permuteEntries (lib.order (dst.field .entryCount) fun i j =>
      compare (dst.entry i).tag (dst.entry j).tag)
    m.setField .flags (m.field .flags ||| flagSorted)

end CameraMetadata

/-- The operations, with `sort_camera_metadata`. -/
inductive SortOp where
  | edit (op : Op)
  | sort (dst : Nat)

def SortOp.fits : SortOp → Bool
  | edit op => op.fits
  | sort _ => true

def sortStep (ops : VendorOps) (lib : Qsort) (buffers : List CameraMetadata) :
    SortOp → List CameraMetadata
  | .edit op => (step ops buffers op).2
  | .sort dst => (changeBuffer buffers dst fun m => (true, m.sortCameraMetadata lib)).2

namespace CameraMetadata

variable {m m' dst src : CameraMetadata} {lib : Qsort} {search : SortedSearch}
  {tag k dataCount index : Nat}

def tags (m : CameraMetadata) : List Nat := m.entries.map BufferEntry.tag

/-- The tags are in the order that `FLAG_SORTED` stands for. -/
def InOrder (m : CameraMetadata) : Prop := m.tags.Pairwise (· ≤ ·)

instance (m : CameraMetadata) : Decidable m.InOrder :=
  inferInstanceAs (Decidable (m.tags.Pairwise (· ≤ ·)))

/-- `FLAG_SORTED` says the truth, and the tags that are there are found. -/
structure Lookup (search : SortedSearch) (m : CameraMetadata) : Prop where
  inOrder : m.isSorted = true → m.InOrder
  finds : ∀ tag,
    (∃ e, (m.findCameraMetadataEntry search.toBinarySearch tag).value = some e ∧ e.tag = tag) ↔
      ∃ i < m.field .entryCount, (m.entry i).tag = tag

lemma tags_eq (m : CameraMetadata) : m.tags = m.view.items.map Item.tag := by
  rw [View.items, map_map]
  rfl

lemma InOrder.entry_le (h : m.InOrder) (i j : Nat) (hij : i ≤ j)
    (hj : j < m.field .entryCount) : (m.entry i).tag ≤ (m.entry j).tag := by
  rcases Nat.eq_or_lt_of_le hij with rfl | hlt
  · exact le_rfl
  have hpairwise := pairwise_iff_getElem.mp h
  simpa [tags, entries] using
    hpairwise i j (by simpa [tags, entries] using by omega) (by simpa [tags, entries] using hj) hlt

/-! ## Searching -/

open Traced

lemma searchTag_found : ∀ {remaining i : Nat},
    (m.searchTag tag remaining i).value = some k → (m.entry k).tag = tag
  | 0, _, h => nomatch h
  | remaining + 1, i, h => by
    simp only [searchTag, value_bind] at h
    split at h
    · next htag =>
      cases h
      exact htag
    · exact searchTag_found h

lemma searchTag_complete (htag : (m.entry k).tag = tag) : ∀ {remaining i : Nat},
    i ≤ k → k < i + remaining → (m.searchTag tag remaining i).value ≠ none
  | 0, i, hle, hlt => by omega
  | remaining + 1, i, hle, hlt => by
    simp only [searchTag, value_bind]
    split
    · exact Option.some_ne_none i
    · next hne =>
      have hik : i ≠ k := by
        rintro rfl
        exact hne htag
      exact searchTag_complete htag (by omega) (by omega)

/-- A buffer whose flag says the truth is searched for the entries that are there. -/
lemma findIndex_spec (search : SortedSearch) (h : m.isSorted → m.InOrder) (tag : Nat) :
    (∀ i, (m.findIndex search.toBinarySearch tag).value = some i → (m.entry i).tag = tag) ∧
      ∀ i < m.field .entryCount, (m.entry i).tag = tag →
        (m.findIndex search.toBinarySearch tag).value ≠ none := by
  simp only [findIndex, value_bind]
  split
  · next hflag =>
    have hinOrder := h (decide_eq_true hflag)
    exact ⟨fun i hi => search.found _ (fun i => (m.entry i).tag) tag i hinOrder.entry_le hi,
      fun i hi htag => htag ▸ search.complete _ (fun i => (m.entry i).tag) i hinOrder.entry_le hi⟩
  · exact ⟨fun i hi => searchTag_found hi,
      fun i hi htag => searchTag_complete htag (Nat.zero_le i) (by rw [Nat.zero_add]; exact hi)⟩

lemma getCameraMetadataEntry_tag {i : Nat} (hi : i < m.field .entryCount) :
    ∃ e, (m.getCameraMetadataEntry i).value = some e ∧ e.tag = (m.entry i).tag := by
  simp only [getCameraMetadataEntry, readField, value_bind,
    if_neg hi.not_ge]
  exact ⟨_, rfl, rfl⟩

lemma lookup_of_inOrder (h : m.isSorted → m.InOrder) : m.Lookup search := by
  refine ⟨h, fun tag => ?_⟩
  obtain ⟨hfound, hcomplete⟩ := findIndex_spec search h tag
  simp [findCameraMetadataEntry]
  cases hindex : (m.findIndex search.toBinarySearch tag).value with
  | none =>
    refine ⟨fun ⟨e, he, _⟩ => (nomatch he), fun ⟨i, hi, htag⟩ => ?_⟩
    exact absurd hindex (hcomplete i hi htag)
  | some i =>
    have hi := findIndex_lt hindex
    obtain ⟨e, he, htag⟩ := getCameraMetadataEntry_tag hi
    exact ⟨fun _ => ⟨i, hi, hfound i hindex⟩, fun _ => ⟨e, he, htag.trans (hfound i hindex)⟩⟩

/-! ## One operation -/

lemma isSorted_congr (h : m'.field .flags &&& flagSorted = m.field .flags &&& flagSorted) :
    m'.isSorted = m.isSorted := by
  unfold isSorted
  rw [h]

lemma clearSorted_and (flags : Nat) : clearSorted flags &&& flagSorted = 0 := by
  unfold clearSorted
  rw [Nat.and_assoc]
  exact Nat.and_zero flags

/-- An entry that has been added is not known to be in order. -/
lemma add_notSorted (h : Layout dst) {ops : VendorOps}
    {data : Option Memory} (htag : tag < 2 ^ 32) (hfits : dataCount < 2 ^ 60)
    (hadd : dst.addCameraMetadataEntry ops tag data dataCount = (true, m')) :
    m'.isSorted = false := by
  unfold addCameraMetadataEntry at hadd
  split at hadd
  · cases hadd
  · next type htype =>
    obtain ⟨-, -, hflags, -⟩ := add_spec h htag type.toNat_lt hfits hadd
    rw [isSorted, hflags, clearSorted_and]
    rfl

lemma tag_moveUp (d : Nat) (e : BufferEntry) : (e.moveUp d).tag = e.tag := by
  unfold BufferEntry.moveUp
  split <;> rfl

lemma append_tags (h : View.Joined dst.view src.view m'.view) : m'.tags = dst.tags ++ src.tags := by
  show m'.view.entries.map _ = dst.view.entries.map _ ++ src.view.entries.map _
  rw [h.entries, map_append, map_map]
  congr 1
  exact map_congr_left fun e _ => tag_moveUp _ e

lemma tags_nil_iff (m : CameraMetadata) : m.tags = [] ↔ m.field .entryCount = 0 := by
  simp [tags, entries]

lemma isSorted_append (h : m'.field .flags = dst.appendedFlags src) :
    m'.isSorted =
      if dst.field .entryCount = 0 then dst.isSorted || src.isSorted
      else if src.field .entryCount ≠ 0 then false else dst.isSorted := by
  unfold isSorted
  rw [h, appendedFlags]
  split
  · rw [Nat.and_or_distrib_right]
    simp
  split
  · rw [clearSorted_and]
    rfl
  · rfl

/-- What `append_camera_metadata` needs for the flag to be true afterwards. -/
def KeepsOrder (dst src : CameraMetadata) : Prop :=
  dst.canAppend src = true → dst.field .entryCount = 0 → dst.isSorted = true → src.InOrder

instance (dst src : CameraMetadata) : Decidable (KeepsOrder dst src) :=
  inferInstanceAs (Decidable (_ → _ → _ → _))

lemma canAppend_of_append {ok : Bool} (hok : ok)
    (happend : dst.appendCameraMetadata src = (ok, m')) : dst.canAppend src := by
  unfold appendCameraMetadata at happend
  split at happend
  · next hcan => exact hcan
  · cases happend
    cases hok

/-- After `append_camera_metadata` the flag is true exactly if a buffer that is empty and marked
as sorted got entries that are sorted. -/
lemma append_inOrder (h : Layout dst) (hdst : dst.isSorted → dst.InOrder)
    (hsrc : src.isSorted → src.InOrder)
    (happend : dst.appendCameraMetadata src = (true, m')) :
    (m'.isSorted → m'.InOrder) ↔ KeepsOrder dst src := by
  obtain ⟨-, hjoin, -, hflags, -⟩ := append_spec h happend
  have htags := append_tags hjoin
  have hsorted := isSorted_append hflags
  have hcan := canAppend_of_append rfl happend
  by_cases hempty : dst.field .entryCount = 0
  · rw [(tags_nil_iff dst).mpr hempty, nil_append] at htags
    rw [if_pos hempty] at hsorted
    have hsame : m'.InOrder ↔ src.InOrder := by
      unfold InOrder
      rw [htags]
    rw [hsorted, hsame, Bool.or_eq_true]
    exact ⟨fun hin _ _ hflag => hin (.inl hflag), fun hkeep hor =>
      hor.elim (fun hflag => hkeep hcan hempty hflag) hsrc⟩
  · rw [if_neg hempty] at hsorted
    refine ⟨fun _ _ hzero => absurd hzero hempty, fun _ hflag => ?_⟩
    rw [hsorted] at hflag
    split at hflag
    · cases hflag
    · next hnone =>
      unfold InOrder
      rw [htags, (tags_nil_iff src).mpr (not_not.mp hnone), append_nil]
      exact hdst hflag

lemma update_inOrder (h : m.Good) {data : Memory} (hfits : dataCount < 2 ^ 60)
    (hupdate : m.updateCameraMetadataEntry index data dataCount = (true, m'))
    (hm : m.isSorted → m.InOrder) : m'.isSorted → m'.InOrder := by
  have hupdated := update_spec h.layout h.sound hfits hupdate
  have htags : m'.tags = m.tags := by
    rw [tags_eq, tags_eq, hupdated.items, map_set]
    refine ext_getElem? fun j => ?_
    rw [List.getElem?_set]
    split
    · next hj =>
      subst hj
      split
      · next hlt =>
        rw [View.items, map_map, List.getElem?_map]
        have hcount : index < m.field .entryCount := by simpa [View.items, view, entries] using hlt
        rw [getElem?_view_entries hcount]
        rfl
      · next hge => rw [List.getElem?_eq_none (not_lt.mp hge)]
    · rfl
  have hflag : m'.isSorted = m.isSorted :=
    isSorted_congr (by rw [hupdated.fields _ (by decide)])
  unfold InOrder
  rw [hflag, htags]
  exact hm

lemma delete_inOrder (h : m.Good) (hdelete : m.deleteCameraMetadataEntry index = (true, m'))
    (hm : m.isSorted → m.InOrder) : m'.isSorted → m'.InOrder := by
  obtain ⟨-, -, hfields, hitems, -⟩ := delete_spec h.layout h.sound hdelete
  have hsame : m'.isSorted = m.isSorted :=
    isSorted_congr (by rw [hfields _ (by decide) (by decide)])
  rw [hsame]
  intro hflag
  unfold InOrder
  rw [tags_eq, hitems, ← eraseIdx_map, ← tags_eq]
  exact (hm hflag).sublist (eraseIdx_sublist ..)

lemma compacted_inOrder (hcopy : Compacted src m')
    (hflags : m'.field .flags &&& flagSorted = src.field .flags &&& flagSorted)
    (hsrc : src.isSorted → src.InOrder) : m'.isSorted → m'.InOrder := by
  rw [isSorted_congr hflags]
  have htags : m'.tags = src.tags := congrArg (List.map _) hcopy.copied.entries
  unfold InOrder
  rw [htags]
  exact hsrc

lemma permuteEntries_spec (h : Layout m) {order : List Nat}
    (hperm : order.Perm (List.range (m.field .entryCount))) :
    (∀ f, (m.permuteEntries order).field f = m.field f) ∧
      (m.permuteEntries order).entries = order.map m.entry ∧
      ∀ b, m.field .dataStart ≤ b → m.permuteEntries order b = m b := by
  have hlength : order.length = m.field .entryCount := by simpa using hperm.length_eq
  have hcount := h.count_le
  have hstart := h.dataStart
  have hoffset (i : Nat) : m.entryOffset i = sizeofMetadata + 16 * i := h.entryOffset i
  have hsizeofEntry : sizeofEntry = 16 := rfl
  rw [hsizeofEntry] at hstart
  have hfield (f : Field) : (m.permuteEntries order).field f = m.field f :=
    field_congr (fun b hb => if_neg (by rw [hoffset]; omega)) f
  refine ⟨hfield, ?_, fun b hb => if_neg (by rw [hoffset, hoffset]; omega)⟩
  unfold entries
  rw [hfield, ← hlength]
  refine ext_getElem (by simp) fun i hi hi' => ?_
  have hlt : i < order.length := by simpa using hi
  rw [getElem_map, getElem_map, getElem_range]
  refine entry_congr fun k hk => ?_
  have hoffset' : (m.permuteEntries order).entryOffset i = sizeofMetadata + 16 * i := by
    rw [← hoffset, entryOffset, hfield]
    rfl
  have hpos : sizeofMetadata + 16 * i + k - m.entryOffset 0 = 16 * i + k := by
    rw [hoffset]
    omega
  rw [hoffset']
  refine (if_pos (by rw [hoffset, hoffset]; omega)).trans ?_
  rw [hpos, hsizeofEntry, show (16 * i + k) / 16 = i by omega, show (16 * i + k) % 16 = k by omega,
    getD_eq_getElem?_getD, List.getElem?_eq_getElem hlt]
  rfl

/-- `sort_camera_metadata` puts the entries in order, if the flag does not say that they are. -/
lemma sort_spec (lib : Qsort) (h : m.Good) :
    (m.sortCameraMetadata lib).Good ∧
      (∀ f, f ≠ .flags → (m.sortCameraMetadata lib).field f = m.field f) ∧
      View.Permuted m.view (m.sortCameraMetadata lib).view ∧
      ((m.isSorted → m.InOrder) → (m.sortCameraMetadata lib).InOrder) := by
  unfold sortCameraMetadata
  split
  · next hflag => exact ⟨h, fun _ _ => rfl, ⟨.refl _, rfl, fun _ => rfl⟩, fun hm => hm hflag⟩
  generalize horder : (lib.order (m.field .entryCount) fun i j =>
    compare (m.entry i).tag (m.entry j).tag) = order
  have hperm : order.Perm (List.range (m.field .entryCount)) := horder ▸ lib.perm _ _
  obtain ⟨hfield, hentries, hdata⟩ := permuteEntries_spec h.layout hperm
  generalize m.permuteEntries order = m1 at *
  dsimp only
  generalize m1.field .flags ||| flagSorted = flags
  have hfields (f : Field) (hf : f ≠ .flags) : (m1.setField .flags flags).field f = m.field f := by
    rw [field_setField, if_neg hf.symm]
    exact hfield f
  have hentries' : (m1.setField .flags flags).entries = order.map m.entry := by
    rw [← hentries]
    unfold entries
    exact map_congr_left fun i _ =>
      entry_setField ((hfield _).trans h.layout.entriesStart) (by decide) flags i
  have hpermuted : View.Permuted m.view (m1.setField .flags flags).view := by
    refine ⟨?_, hfields _ (by decide), fun b => ?_⟩
    · show (entries _).Perm _
      rw [hentries']
      exact hperm.map m.entry
    · show m1.setField .flags flags ((m1.setField .flags flags).field .dataStart + b) =
        m (m.field .dataStart + b)
      have hle := h.layout.dataStart
      rw [hfields _ (by decide), setField_apply _ _ _ (by omega)]
      exact hdata _ le_self_add
  refine ⟨⟨h.layout.of_fields (fun f hf => hfields f ?_) ?_ ?_, hpermuted.sound h.sound⟩,
    hfields, hpermuted,
    fun _ => ?_⟩
  · rintro rfl
    cases hf
  · rw [hfields _ (by decide)]
    exact h.layout.count_le
  · rw [hfields _ (by decide)]
    exact h.layout.data_le
  · unfold InOrder tags
    rw [hentries', map_map, pairwise_map, ← horder]
    exact lib.sorted _ fun i => (m.entry i).tag

end CameraMetadata

/-! ## Steps -/

open CameraMetadata

section Steps

variable {buffers : List CameraMetadata} {ops : VendorOps} {lib : Qsort} {search : SortedSearch}
  {dst : Nat} {change : CameraMetadata → Bool × CameraMetadata} {P : CameraMetadata → Prop}

/-- The invariant of a buffer. -/
structure CameraMetadata.Ordered (m : CameraMetadata) : Prop where
  good : m.Good
  inOrder : m.isSorted = true → m.InOrder

lemma step_good (hgood : ∀ m ∈ buffers, m.Good) (op : Op) (hfits : op.fits) :
    ∀ m ∈ (step ops buffers op).2, m.Good := by
  cases hok : (step ops buffers op).1 with
  | false =>
    rw [step_error op hok]
    exact hgood
  | true => exact (step_contents hgood op hfits hok).1

lemma changeBuffer_forall (h : ∀ m ∈ buffers, P m)
    (hchange : ∀ m, buffers[dst]? = some m → P (change m).2) :
    ∀ m ∈ (changeBuffer buffers dst change).2, P m := by
  unfold changeBuffer
  split
  · exact h
  · next m hm =>
    intro m' hm'
    rcases mem_or_eq_of_mem_set hm' with hold | rfl
    · exact h m' hold
    · exact hchange m hm

lemma newBuffer_forall (h : ∀ m ∈ buffers, P m)
    {new : Option CameraMetadata} (hnew : ∀ m, new = some m → P m) :
    ∀ m ∈ (newBuffer buffers new).2, P m := by
  cases new with
  | none => exact h
  | some m =>
    intro m' hm'
    rcases mem_append.mp hm' with hold | hlast
    · exact h m' hold
    · rw [mem_singleton.mp hlast]
      exact hnew m rfl

/-- What holds of a buffer that is changed, or not if there is an error. -/
lemma changeBuffer_of_error (h : ∀ m ∈ buffers, P m)
    (herror : ∀ m m', change m = (false, m') → m' = m)
    (hchange : ∀ m m', buffers[dst]? = some m → change m = (true, m') → P m') :
    ∀ m ∈ (changeBuffer buffers dst change).2, P m := by
  refine changeBuffer_forall h fun m hm => ?_
  rcases hresult : change m with ⟨ok, m'⟩
  cases ok with
  | false =>
    rw [herror m m' hresult]
    exact h m (mem_of_getElem? hm)
  | true => exact hchange m m' hm hresult

/-- An append does not set the flag of a buffer whose entries are not sorted. -/
def KeepsOrder (buffers : List CameraMetadata) : SortOp → Prop
  | .edit (.append dst src) =>
    ∀ m ∈ buffers[dst]?, ∀ m' ∈ buffers[src]?, CameraMetadata.KeepsOrder m m'
  | _ => True

instance (buffers : List CameraMetadata) : (op : SortOp) → Decidable (KeepsOrder buffers op)
  | .edit (.append dst src) => inferInstanceAs (Decidable
      (∀ m ∈ buffers[dst]?, ∀ m' ∈ buffers[src]?, CameraMetadata.KeepsOrder m m'))
  | .edit (.allocate ..) | .edit (.add ..) | .edit (.update ..) | .edit (.delete ..)
  | .edit (.copy ..) | .edit (.clone ..) | .sort _ => .isTrue trivial

section

variable (h : ∀ m ∈ buffers, m.Ordered)

include h

lemma append_step (src : Nat) :
    let op := SortOp.edit (.append dst src)
    (KeepsOrder buffers op ∧ ∀ m ∈ sortStep ops lib buffers op, m.isSorted → m.InOrder) ∨
      (¬ KeepsOrder buffers op ∧ ¬ ∀ m ∈ sortStep ops lib buffers op, m.isSorted → m.InOrder) := by
  simp only [KeepsOrder, sortStep, step]
  cases hsrc : buffers[src]? with
  | none => exact .inl ⟨fun _ _ _ hm => (by cases hm), fun m hm => (h m hm).inOrder⟩
  | some m =>
    cases hdst : buffers[dst]? with
    | none =>
      refine .inl ⟨fun _ hm => (by cases hm), fun m' hm' => ?_⟩
      simp only [changeBuffer, hdst] at hm'
      exact (h m' hm').inOrder
    | some m' =>
      have hm := h m (mem_of_getElem? hsrc)
      have hm' := h m' (mem_of_getElem? hdst)
      simp only [Option.mem_def, Option.some.injEq, forall_eq', changeBuffer, hdst]
      rcases hresult : m'.appendCameraMetadata m with ⟨ok, m''⟩
      cases ok with
      | false =>
        have hcan : ¬ m'.canAppend m := by
          intro hcan
          rw [appendCameraMetadata, if_pos hcan] at hresult
          cases hresult
        refine .inl ⟨fun hcan' => absurd hcan' hcan, fun b hb => ?_⟩
        rcases mem_or_eq_of_mem_set hb with hold | rfl
        · exact (h b hold).inOrder
        · rw [append_error hresult]
          exact hm'.inOrder
      | true =>
        have hiff := append_inOrder hm'.good.layout hm'.inOrder hm.inOrder hresult
        by_cases hkeep : CameraMetadata.KeepsOrder m' m
        · refine .inl ⟨hkeep, fun b hb => ?_⟩
          rcases mem_or_eq_of_mem_set hb with hold | rfl
          · exact (h b hold).inOrder
          · exact hiff.mpr hkeep
        · refine .inr ⟨hkeep, fun hall => hkeep (hiff.mp (hall m'' ?_))⟩
          exact mem_set (List.getElem?_eq_some_iff.mp hdst).1 m''

lemma sortStep_good (op : SortOp) (hfits : op.fits) :
    ∀ m ∈ sortStep ops lib buffers op, m.Good := by
  cases op with
  | edit op => exact step_good (fun m hm => (h m hm).good) op hfits
  | sort dst =>
    exact changeBuffer_forall (fun m hm => (h m hm).good) fun m hm =>
      (sort_spec lib (h m (mem_of_getElem? hm)).good).1

lemma sortStep_inOrder (op : SortOp) (hfits : op.fits) :
    (KeepsOrder buffers op ∧ ∀ m ∈ sortStep ops lib buffers op, m.isSorted → m.InOrder) ∨
      (¬ KeepsOrder buffers op ∧ ¬ ∀ m ∈ sortStep ops lib buffers op, m.isSorted → m.InOrder) := by
  have hold : ∀ m ∈ buffers, m.isSorted → m.InOrder := fun m hm => (h m hm).inOrder
  have hsrc {src : Nat} {m : CameraMetadata} (hm : buffers[src]? = some m) : m.Ordered :=
    h m (mem_of_getElem? hm)
  match op with
  | .sort dst =>
    refine .inl ⟨trivial, changeBuffer_forall hold fun m hm _ => ?_⟩
    exact (sort_spec lib (hsrc hm).good).2.2.2 (hsrc hm).inOrder
  | .edit (.append dst src) => exact append_step h src
  | .edit (.allocate entryCapacity dataCapacity memory) =>
    refine .inl ⟨trivial, newBuffer_forall hold fun m hm hflag => ?_⟩
    obtain ⟨-, -, -, -, hflags, -⟩ :=
      allocate_spec (of_decide_eq_true hfits) hm
    rw [isSorted, hflags] at hflag
    cases hflag
  | .edit (.add dst tag data dataCount) =>
    refine .inl ⟨trivial, changeBuffer_of_error hold (fun _ _ => add_error)
      fun m m' hm hadd hflag => ?_⟩
    rw [add_notSorted (hsrc hm).good.layout tag.toNat_lt dataCount.fits hadd] at hflag
    cases hflag
  | .edit (.update dst index data dataCount) =>
    exact .inl ⟨trivial, changeBuffer_of_error hold (fun _ _ => update_error) fun m m' hm hupdate =>
      update_inOrder (hsrc hm).good dataCount.fits hupdate (hsrc hm).inOrder⟩
  | .edit (.delete dst index) =>
    exact .inl ⟨trivial, changeBuffer_of_error hold (fun _ _ => delete_error) fun m m' hm hdelete =>
      delete_inOrder (hsrc hm).good hdelete (hsrc hm).inOrder⟩
  | .edit (.copy dst dstSize src) =>
    refine .inl ⟨trivial, newBuffer_forall hold fun m hm => ?_⟩
    obtain ⟨source, hsource, hcopy⟩ := Option.bind_eq_some_iff.mp hm
    obtain ⟨hcompact, hflags⟩ := copy_spec (hsrc hsource).good.layout hcopy
    exact compacted_inOrder hcompact (by rw [hflags]) (hsrc hsource).inOrder
  | .edit (.clone src memory) =>
    refine .inl ⟨trivial, newBuffer_forall hold fun m hm => ?_⟩
    obtain ⟨source, hsource, hclone⟩ := Option.bind_eq_some_iff.mp hm
    obtain ⟨hcompact, hflags⟩ :=
      clone_spec (hsrc hsource).good.layout (hsrc hsource).good.sound hclone
    refine compacted_inOrder hcompact ?_ (hsrc hsource).inOrder
    rw [hflags, Nat.and_assoc, Nat.and_self]

end

/-- **Lookup.**  In all buffers that fit their headers, the flag says the truth and all tags are
found exactly if every append keeps the order. -/
theorem lookup_iff (ops : VendorOps) (lib : Qsort) (search : SortedSearch) (run : List SortOp)
    (hfits : ∀ op ∈ run, op.fits = true) :
    Throughout (fun buffers => ∀ m ∈ buffers, m.Lookup search) (sortStep ops lib) [] run ↔
      EachStep KeepsOrder (sortStep ops lib) [] run := by
  refine throughout_iff_of_forall (I := fun buffers => ∀ m ∈ buffers, m.Ordered)
    (fun _ h m hm => lookup_of_inOrder (h m hm).inOrder)
    (fun buffers op h hop => ?_) run hfits nofun
  rcases sortStep_inOrder h op hop with ⟨hkeep, hinOrder⟩ | ⟨hbreak, hnot⟩
  · exact .inl ⟨hkeep, fun m hm => ⟨sortStep_good h op hop m hm, hinOrder m hm⟩⟩
  · exact .inr ⟨hbreak, fun hall => hnot fun m hm => (hall m hm).inOrder⟩

end Steps

/-- A `qsort`. -/
def insertionQsort : Qsort where
  order n cmp := (List.range n).insertionSort fun i j => (cmp i j).isLE
  perm n cmp := List.perm_insertionSort _ _
  sorted n key := by
    have hle (i j : Nat) : (compare (key i) (key j)).isLE = true ↔ key i ≤ key j :=
      Nat.isLE_compare
    have : Std.Total (fun i j => (compare (key i) (key j)).isLE = true) :=
      ⟨fun i j => by simpa only [hle] using Nat.le_total _ _⟩
    have : IsTrans Nat (fun i j => (compare (key i) (key j)).isLE = true) :=
      ⟨fun i j k => by simpa only [hle] using Nat.le_trans⟩
    exact (List.pairwise_insertionSort _ _).imp fun h => (hle _ _).mp h

/-- A `bsearch`. -/
def halvingSearch : SortedSearch where
  search n cmp := (HalvingSearch.halve cmp n 0 n).1
  probes n cmp := (HalvingSearch.halve cmp n 0 n).2
  probes_lt n cmp i hi := by simpa using (HalvingSearch.halve_probes hi).2
  search_lt n cmp i hi := by simpa using (HalvingSearch.halve_found hi).2.2
  found n key k i _ hi := (Nat.compare_eq_eq.mp (HalvingSearch.halve_found hi).1).symm
  complete n key i hsorted hi := HalvingSearch.halve_complete (Nat.le_refl n)
    (fun i j _ hij hj => hsorted i j hij (by simpa using hj)) (Nat.zero_le i)
    (by simpa using hi) rfl

/-- Two tags are added, sorted and appended to a buffer that is empty and not sorted. -/
def sampleSortRun : List SortOp :=
  [.edit (.allocate 2 8 (some fun _ => 0)), .edit (.add 0 3 (some sampleData) oneValue),
    .edit (.add 0 0 (some sampleData) oneValue), .sort 0,
    .edit (.allocate 2 8 (some fun _ => 0)), .edit (.append 1 0)]

theorem lookup_sampleSortRun :
    (∀ op ∈ sampleSortRun, op.fits = true) ∧
      Throughout (fun buffers => ∀ m ∈ buffers, m.Lookup halvingSearch)
        (sortStep ⟨none, none⟩ insertionQsort) [] sampleSortRun :=
  have hfits : ∀ op ∈ sampleSortRun, op.fits := by decide
  ⟨hfits, (lookup_iff ⟨none, none⟩ insertionQsort halvingSearch sampleSortRun hfits).mpr
    (by decide)⟩

/-- An empty buffer is sorted, and then gets two entries that are not in order: the flag stays, and
the first of the tags is not found. -/
theorem sorted_empty_misses :
    let m := ([.edit (.allocate 2 8 (some fun _ => 0)), .sort 0,
      .edit (.allocate 2 8 (some fun _ => 0)), .edit (.add 1 3 (some sampleData) ⟨1, by decide⟩),
      .edit (.add 1 0 (some sampleData) ⟨1, by decide⟩), .edit (.append 0 1)].foldl
        (sortStep ⟨none, none⟩ insertionQsort) []).getD 0 fun _ => 0
    m.isSorted = true ∧ m.tags = [3, 0] ∧
      (m.findCameraMetadataEntry halvingSearch.toBinarySearch 3).value = none := by
  decide

end Camera
