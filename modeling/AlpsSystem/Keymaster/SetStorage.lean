import AlpsSystem.Keymaster.AuthorizationSet

/-!
# Authorization sets stay in their arrays

* `run_sound` — elements and data stay in them if no set with indirect data is deserialized.
-/

namespace Keymaster.Storage

open Runs (EachStep Throughout throughout_of_inv)

open List

namespace AuthorizationSet

variable {s s' : AuthorizationSet} {ok : Bool} {p : Param} {set : List Param} {elems : List Elem}
  {indirectLength : Nat}

/-- The sizes are those of the arrays, and the blobs are in the indirect data. -/
structure Sound (s : AuthorizationSet) : Prop where
  elems_le : s.elems.length ≤ s.elemsCapacity
  size_le : s.indirectSize ≤ s.indirectCapacity
  capacity_le : s.indirectCapacity ≤ s.indirectData.length
  inside : ∀ e ∈ s.elems, isBlobTag e.tag = true → e.offset + e.dataLength ≤ s.indirectSize
  noFault : s.fault = false

/-- The invariant: the sizes are those of objects in memory as well. -/
structure Stored (s : AuthorizationSet) : Prop extends Sound s where
  elems_bound : s.elemsCapacity * sizeofParam < maxObjectSize
  indirect_bound : s.indirectCapacity < maxObjectSize

/-! ## Freeing and allocating -/

lemma freeData_stored (hfault : s.fault = false) (helems : s.elems.length ≤ s.elemsCapacity)
    (hindirect : s.indirectData = [] ∨ s.indirectSize ≤ s.indirectData.length) :
    s.freeData.Stored := by
  have hcleared : (!s.indirectData.isEmpty &&
      decide (s.indirectData.length < s.indirectSize)) = false := by
    rcases hindirect with hnull | hle
    · simp [hnull]
    · simp [not_lt.mpr hle]
  refine ⟨⟨le_refl 0, le_refl 0, le_refl 0, nofun, ?_⟩,
    show 0 * sizeofParam < maxObjectSize by decide, show 0 < maxObjectSize by decide⟩
  simp [freeData, hfault, hcleared, helems]

lemma Sound.freeData (h : s.Sound) : s.freeData.Stored :=
  freeData_stored h.noFault h.elems_le (.inr (h.size_le.trans h.capacity_le))

lemma setInvalid_stored {error : SetError} (h : s.freeData.Stored) : (s.setInvalid error).Stored :=
  ⟨{ h with }, h.elems_bound, h.indirect_bound⟩

/-- `reserve_elems` and `push_back` of elements leave the indirect data alone. -/
structure SameIndirect (s s' : AuthorizationSet) : Prop where
  data : s'.indirectData = s.indirectData
  size : s'.indirectSize = s.indirectSize
  capacity : s'.indirectCapacity = s.indirectCapacity

section

variable (h : s.Stored)

include h

lemma reserveElems_stored {count : Nat} (hreserve : s.reserveElems count = (ok, s')) :
    s'.Stored ∧ (ok → s'.error = .ok ∧ s'.elems = s.elems ∧ count ≤ s'.elemsCapacity ∧
      SameIndirect s s') := by
  unfold reserveElems at hreserve
  split at hreserve
  · cases hreserve
    exact ⟨h, nofun⟩
  rename_i herror
  split at hreserve
  · split at hreserve
    · next _ s1 halloc =>
      obtain ⟨-, rfl⟩ := Prod.mk.inj halloc
      cases hreserve
      exact ⟨setInvalid_stored (Sound.freeData { h with }), nofun⟩
    · next hcount _ s1 halloc =>
      obtain ⟨hbound, rfl⟩ := Prod.mk.inj halloc
      rw [Bool.and_eq_true, decide_eq_true_eq] at hbound
      cases hreserve
      refine ⟨⟨⟨h.elems_le.trans hcount.le, h.size_le, h.capacity_le, h.inside, ?_⟩,
        hbound.2, h.indirect_bound⟩, fun _ => ⟨not_not.mp herror, rfl, le_rfl,
        ⟨rfl, rfl, rfl⟩⟩⟩
      simp [h.noFault, h.elems_le]
  · next hcount =>
    cases hreserve
    exact ⟨h, fun _ => ⟨not_not.mp herror, rfl, not_lt.mp hcount, ⟨rfl, rfl, rfl⟩⟩⟩

lemma reserveIndirect_stored {length : Nat} (hreserve : s.reserveIndirect length = (ok, s')) :
    s'.Stored ∧ (ok → s'.error = .ok ∧ s'.elems = s.elems ∧
      s'.elemsCapacity = s.elemsCapacity ∧ s'.indirectSize = s.indirectSize ∧
      length ≤ s'.indirectCapacity) := by
  unfold reserveIndirect at hreserve
  split at hreserve
  · cases hreserve
    exact ⟨h, nofun⟩
  rename_i herror
  split at hreserve
  · split at hreserve
    · next _ s1 halloc =>
      obtain ⟨-, rfl⟩ := Prod.mk.inj halloc
      cases hreserve
      exact ⟨setInvalid_stored (Sound.freeData { h with }), nofun⟩
    · next hlength _ s1 halloc =>
      obtain ⟨hbound, rfl⟩ := Prod.mk.inj halloc
      rw [Bool.and_eq_true, decide_eq_true_eq] at hbound
      have hsize : s.indirectSize ≤ length := h.size_le.trans hlength.le
      have hdata : s.indirectSize ≤ s.indirectData.length := h.size_le.trans h.capacity_le
      cases hreserve
      refine ⟨⟨⟨h.elems_le, hsize, ?_, h.inside, ?_⟩, h.elems_bound, hbound.2⟩,
        fun _ => ⟨not_not.mp herror, rfl, rfl, rfl, le_rfl⟩⟩
      · simp [hdata, hsize]
      · simp [h.noFault, hdata, hsize]
  · next hlength =>
    cases hreserve
    exact ⟨h, fun _ => ⟨not_not.mp herror, rfl, rfl, rfl, not_lt.mp hlength⟩⟩

/-! ## Appending -/

/-- The room that `appendParam` needs. -/
structure Room (s : AuthorizationSet) (p : Param) : Prop where
  elem : s.elems.length < s.elemsCapacity
  blob : isBlobTag p.tag = true → s.indirectSize + p.blob.length ≤ s.indirectCapacity

omit h in
theorem writeIndirect_length {data : List UInt8}
    (hroom : s.indirectSize + data.length ≤ s.indirectData.length) :
    (s.writeIndirect data).indirectData.length = s.indirectData.length := by
  simp only [writeIndirect, length_take, length_append, length_drop]
  omega

/-- The set with the parameter at its end. -/
lemma appendParam_stored (hroom : s.Room p) :
    (s.appendParam p).Stored ∧ (s.appendParam p).elems = s.elems ++ [s.elemOf p] ∧
      (s.appendParam p).indirectSize =
        s.indirectSize + (if isBlobTag p.tag then p.blob.length else 0) ∧
      (s.appendParam p).elemsCapacity = s.elemsCapacity ∧
      (s.appendParam p).indirectCapacity = s.indirectCapacity ∧
      (s.appendParam p).error = s.error := by
  have hlength : (s.elems ++ [s.elemOf p]).length ≤ s.elemsCapacity := by
    rw [length_append]
    exact hroom.elem
  have hnot : ¬ s.elemsCapacity ≤ s.elems.length := not_le.mpr hroom.elem
  unfold appendParam
  by_cases hblob : isBlobTag p.tag
  · have hcapacity := hroom.blob hblob
    have hdata := hcapacity.trans h.capacity_le
    have hnot' : ¬ s.indirectData.length < s.indirectSize + p.blob.length := not_lt.mpr hdata
    rw [if_pos hblob, if_pos hblob]
    refine ⟨⟨⟨hlength, hcapacity, ?_, ?_, ?_⟩, h.elems_bound, h.indirect_bound⟩, rfl, rfl, rfl, rfl,
      rfl⟩
    · exact h.capacity_le.trans (le_of_eq (writeIndirect_length hdata).symm)
    · intro e he htag
      show e.offset + e.dataLength ≤ s.indirectSize + p.blob.length
      rcases mem_append.mp he with hold | hnew
      · exact (h.inside e hold htag).trans le_self_add
      · rw [mem_singleton.mp hnew]
        simp [elemOf, hblob]
    · simp [storeElem, writeIndirect, h.noFault, hnot, hnot']
  · rw [if_neg hblob, if_neg hblob]
    refine ⟨⟨⟨hlength, h.size_le, h.capacity_le, ?_, ?_⟩, h.elems_bound, h.indirect_bound⟩,
      rfl, rfl,
      rfl, rfl, rfl⟩
    · intro e he htag
      rcases mem_append.mp he with hold | hnew
      · exact h.inside e hold htag
      · rw [mem_singleton.mp hnew] at htag
        exact absurd htag hblob
    · simp [storeElem, h.noFault, hnot]

lemma growElems_stored (hgrow : s.growElems = (ok, s')) :
    s'.Stored ∧ (ok → s'.elems = s.elems ∧ s.elems.length < s'.elemsCapacity ∧
      SameIndirect s s') := by
  unfold growElems at hgrow
  split at hgrow
  · next hfull =>
    obtain ⟨hstored, hok⟩ := reserveElems_stored h hgrow
    refine ⟨hstored, fun htrue => ?_⟩
    obtain ⟨-, helems, hcount, hsame⟩ := hok htrue
    refine ⟨helems, lt_of_lt_of_le ?_ hcount, hsame⟩
    have hbound := h.elems_bound
    have hle := h.elems_le
    unfold sizeofParam maxObjectSize at hbound
    split
    · omega
    · unfold startingElemsCapacity
      omega
  · next hroom =>
    cases hgrow
    exact ⟨h, fun _ => ⟨rfl, not_le.mp hroom, ⟨rfl, rfl, rfl⟩⟩⟩

section

variable (hfits : isBlobTag p.tag = true → p.blob.length < maxObjectSize)

include hfits

lemma growIndirect_stored (hgrow : s.growIndirect p = (ok, s')) :
    s'.Stored ∧ (ok → s'.elems = s.elems ∧ s'.elemsCapacity = s.elemsCapacity ∧
      s'.indirectSize = s.indirectSize ∧
      (isBlobTag p.tag → s.indirectSize + p.blob.length ≤ s'.indirectCapacity)) := by
  have hbound := h.indirect_bound
  have hle := h.size_le
  unfold maxObjectSize at hfits hbound
  unfold growIndirect at hgrow
  split at hgrow
  · next hfull =>
    have hblob := hfits (Bool.and_eq_true_iff.mp hfull).1
    obtain ⟨hstored, hok⟩ := reserveIndirect_stored h hgrow
    refine ⟨hstored, fun htrue => ?_⟩
    obtain ⟨-, helems, hcapacity, hsize, hlength⟩ := hok htrue
    refine ⟨helems, hcapacity, hsize, fun _ => le_trans ?_ hlength⟩
    omega
  · next hroom =>
    cases hgrow
    refine ⟨h, fun _ => ⟨rfl, rfl, rfl, fun hblob => ?_⟩⟩
    rw [hblob, Bool.true_and, decide_eq_true_eq] at hroom
    omega

lemma pushBack_stored : (s.pushBack p).2.Stored := by
  unfold pushBack
  split
  · exact h
  rcases hgrow : s.growElems with ⟨ok, s1⟩
  obtain ⟨h1, hok⟩ := growElems_stored h hgrow
  cases ok with
  | false => exact h1
  | true =>
    obtain ⟨helems, hroom, hsame⟩ := hok rfl
    rcases hindirect : s1.growIndirect p with ⟨ok, s2⟩
    obtain ⟨h2, hok'⟩ := growIndirect_stored h1 hfits hindirect
    simp [hindirect]
    cases ok with
    | false => exact h2
    | true =>
      obtain ⟨helems', hcapacity, hsize, hblob⟩ := hok' rfl
      refine (appendParam_stored h2 ⟨?_, fun htag => ?_⟩).1
      · rw [helems', hcapacity, helems]
        exact hroom
      · rw [hsize]
        exact hblob htag

end

lemma pushBackAll_stored (hfits : ∀ p ∈ set, isBlobTag p.tag → p.blob.length < maxObjectSize) :
    (pushBackAll set s).2.Stored := by
  induction set generalizing s with
  | nil => exact h
  | cons p rest ih =>
    have hpush := pushBack_stored h (hfits p mem_cons_self)
    unfold pushBackAll
    rcases hp : s.pushBack p with ⟨ok, s1⟩
    rw [hp] at hpush
    cases ok with
    | false => exact hpush
    | true => exact ih hpush fun q hq => hfits q (mem_cons_of_mem p hq)

omit h in
theorem paramsIndirectSize_cons (p : Param) (set : List Param) :
    paramsIndirectSize (p :: set) =
      (if isBlobTag p.tag then p.blob.length else 0) + paramsIndirectSize set := by
  simp [paramsIndirectSize]

omit h in
/-- A blob is no longer than all of them. -/
theorem length_le_indirectSize (hmem : p ∈ set)
    (hblob : isBlobTag p.tag = true) : p.blob.length ≤ paramsIndirectSize set := by
  induction set with
  | nil => cases hmem
  | cons q rest ih =>
    rw [paramsIndirectSize_cons]
    rcases mem_cons.mp hmem with rfl | hrest
    · rw [if_pos hblob]
      exact Nat.le_add_right _ _
    · exact (ih hrest).trans (Nat.le_add_left _ _)

lemma pushBackSet_stored (set : ParamSet) : (s.pushBackSet set.params).2.Stored := by
  have hset := set.fits
  unfold pushBackSet
  split
  · exact h
  rcases helems : s.reserveElems ((s.elems.length + set.params.length) % 2 ^ 64) with ⟨ok, s1⟩
  have h1 := (reserveElems_stored h helems).1
  cases ok with
  | false => exact h1
  | true =>
    rcases hindirect : s1.reserveIndirect
      ((s1.indirectSize + paramsIndirectSize set.params) % 2 ^ 64) with ⟨ok, s2⟩
    have h2 := (reserveIndirect_stored h1 hindirect).1
    simp only [hindirect]
    cases ok with
    | false => exact h2
    | true =>
      refine pushBackAll_stored h2 fun p hp hblob => ?_
      have hle := length_le_indirectSize hp hblob
      omega

/-- The loops that copy parameters to arrays with room for all of them. -/
lemma appendAll_stored (helems : s.elems.length + set.length ≤ s.elemsCapacity)
    (hindirect : s.indirectSize + paramsIndirectSize set ≤ s.indirectCapacity) :
    (set.foldl appendParam s).Stored := by
  induction set generalizing s with
  | nil => exact h
  | cons p rest ih =>
    rw [length_cons] at helems
    rw [paramsIndirectSize_cons] at hindirect
    have hroom : s.Room p := by
      refine ⟨by omega, fun hblob => ?_⟩
      rw [if_pos hblob] at hindirect
      omega
    obtain ⟨h1, helems1, hsize1, hcapacity1, hindirect1, -⟩ := appendParam_stored h hroom
    refine ih h1 ?_ ?_
    · rw [helems1, length_append, length_singleton]
      omega
    · omega

lemma reinitialize_stored (set : ParamSet) : Stored <| Prod.snd <| reinitialize s set.params := by
  have hfree := h.freeData
  unfold reinitialize
  split
  · exact hfree
  rcases helems : s.freeData.reserveElems set.params.length with ⟨ok, s1⟩
  obtain ⟨h1, hok⟩ := reserveElems_stored hfree helems
  cases ok with
  | false => exact h1
  | true =>
    obtain ⟨-, helems1, hcount, hsame⟩ := hok rfl
    rcases hindirect : s1.reserveIndirect (paramsIndirectSize set.params) with ⟨ok, s2⟩
    obtain ⟨h2, hok'⟩ := reserveIndirect_stored h1 hindirect
    simp [hindirect]
    cases ok with
    | false => exact h2
    | true =>
      obtain ⟨-, helems2, hcapacity, hsize, hlength⟩ := hok' rfl
      refine appendAll_stored h2 ?_ ?_
      · rw [helems2, helems1, hcapacity]
        show 0 + set.params.length ≤ s1.elemsCapacity
        omega
      · rw [hsize, hsame.size]
        show 0 + paramsIndirectSize set.params ≤ s2.indirectCapacity
        omega

/-! ## Removing -/

/-- Fewer elements, in any order, are still stored. -/
lemma Stored.subset (hlength : elems.length ≤ s.elems.length)
    (hmem : ∀ e ∈ elems, isBlobTag e.tag → e ∈ s.elems) :
    Stored { s with elems } :=
  ⟨⟨hlength.trans h.elems_le, h.size_le, h.capacity_le,
    fun e he htag => h.inside e (hmem e he htag) htag, h.noFault⟩, h.elems_bound, h.indirect_bound⟩

lemma erase_stored (index : Int) : (s.erase index).2.Stored := by
  unfold erase
  split
  · exact h
  · exact h.subset (length_eraseIdx_le _ _) fun e he _ => mem_of_mem_eraseIdx he

end

section

variable (lib : Library)

lemma sort_stored (h : s.Stored) : (s.sort lib).Stored := by
  have hperm := lib.qsort_perm (fun a b => lib.compare (s.read a) (s.read b)) s.elems
  exact h.subset hperm.length_eq.le fun e he _ => hperm.mem_iff.mp he

lemma length_markDuplicates (equal : Elem → Elem → Bool) (elems : List Elem) :
    (markDuplicates equal elems).length = elems.length := by
  fun_induction markDuplicates equal elems with
  | case1 => rfl
  | case2 => rfl
  | case3 e next rest ih => simp [ih]

lemma mem_markDuplicates {equal : Elem → Elem → Bool} {e : Elem}
    (hmem : e ∈ markDuplicates equal elems) (hblob : isBlobTag e.tag) : e ∈ elems := by
  fun_induction markDuplicates equal elems with
  | case1 => exact hmem
  | case2 => exact hmem
  | case3 e' next rest ih =>
    rcases mem_cons.mp hmem with heq | hrest
    · -- a marked element is no blob
      split at heq
      · rw [heq] at hblob
        exact absurd hblob (show ¬ isBlobTag tagInvalid by decide)
      · rw [heq]
        exact mem_cons_self
    · exact .tail _ (ih hrest)

lemma deduplicate_stored (h : s.Stored) : (s.deduplicate lib).Stored := by
  have hsorted := sort_stored lib h
  have hmarked := hsorted.subset (le_of_eq (length_markDuplicates
      (fun a b => lib.compare ((s.sort lib).read a) ((s.sort lib).read b) == 0) (s.sort lib).elems))
    fun e he hblob => mem_markDuplicates he hblob
  unfold deduplicate
  dsimp only
  split
  · exact hmarked
  · refine (sort_stored lib hmarked).subset ?_ fun e he _ => mem_of_mem_drop he
    rw [length_drop]
    exact Nat.sub_le _ _

lemma union_stored (h : s.Stored) (set : ParamSet) : (s.union lib set.params).Stored := by
  unfold union
  split
  · exact h
  · exact deduplicate_stored lib (pushBackSet_stored h set)

lemma eraseParam_stored (h : s.Stored) (p : Param) : (s.eraseParam lib p).Stored := by
  unfold eraseParam
  split
  · exact h
  · split
    · exact h
    · exact h.subset (length_eraseIdx_le _ _) fun e he _ => mem_of_mem_eraseIdx he

lemma difference_stored (h : s.Stored) (set : List Param) : (s.difference lib set).Stored := by
  unfold difference
  split
  · exact h
  · refine List.foldlRecOn set (eraseParam lib) (deduplicate_stored lib h) ?_
    intro s' h' p _
    exact eraseParam_stored lib h' p

end

/-! ## Deserializing -/

lemma deserializeElem_inside {buf rest : List UInt8} {e : Elem}
    (h : deserializeElem indirectLength buf = some (e, rest)) (hblob : isBlobTag e.tag) :
    e.offset + e.dataLength ≤ indirectLength := by
  unfold deserializeElem at h
  split at h
  · cases h
  dsimp only at h
  split at h
  · cases h
  · cases h
  all_goals try
    obtain ⟨⟨value, buf'⟩, -, heq⟩ := Option.map_eq_some_iff.mp h
    cases heq
    simp_all [isBlobTag]
  · split at h
    · cases h
    · cases h
      simp_all
  all_goals
    split at h
    · cases h
    split at h
    · cases h
    split at h
    · cases h
    · next hinside =>
      cases h
      exact not_lt.mp (not_or.mp hinside).2

lemma deserializeElems_spec {count : Nat} {buf : List UInt8}
    (h : deserializeElems indirectLength count buf = some elems) :
    elems.length = count ∧ ∀ e ∈ elems, isBlobTag e.tag →
      e.offset + e.dataLength ≤ indirectLength := by
  induction count generalizing buf elems with
  | zero =>
    cases h
    exact ⟨rfl, nofun⟩
  | succ count ih =>
    unfold deserializeElems at h
    split at h
    · cases h
    · next e buf' he =>
      obtain ⟨rest, hrest, rfl⟩ := Option.map_eq_some_iff.mp h
      obtain ⟨hlength, hinside⟩ := ih hrest
      refine ⟨congrArg (· + 1) hlength, fun e' he' hblob => ?_⟩
      rcases mem_cons.mp he' with rfl | hmem
      · exact deserializeElem_inside he hblob
      · exact hinside e' hmem hblob

lemma deserializeElementsData_stored (h : s.Stored) (buf : List UInt8) :
    (s.deserializeElementsData buf).2.Stored := by
  unfold deserializeElementsData
  split
  · exact setInvalid_stored h.freeData
  split
  · exact setInvalid_stored h.freeData
  split
  · exact setInvalid_stored h.freeData
  next elementsCount _ _ _ elementsSize buf' _ _ =>
    rcases helems : s.reserveElems elementsCount with ⟨ok, s1⟩
    obtain ⟨h1, hok⟩ := reserveElems_stored h helems
    cases ok with
    | false => exact h1
    | true =>
      obtain ⟨-, -, hcount, -⟩ := hok rfl
      rcases hread : deserializeElems s1.indirectSize elementsCount (buf'.take elementsSize) with
        _ | elems
      · simp only [hread]
        exact setInvalid_stored h1.freeData
      · obtain ⟨hlength, hinside⟩ := deserializeElems_spec hread
        simp only [hread]
        exact ⟨⟨hlength.trans_le hcount, h1.size_le, h1.capacity_le, hinside, h1.noFault⟩,
          h1.elems_bound, h1.indirect_bound⟩

end AuthorizationSet

/-! ## Runs -/

/-- A buffer whose indirect data are empty. -/
def noIndirectData (buf : List UInt8) : Bool :=
  buf.length < 4 || LittleEndian.decode (buf.take 4) == 0

/-- The operation does not deserialize indirect data. -/
def Op.noIndirectData : Op → Bool
  | .deserialize buf => Storage.noIndirectData buf
  | _ => true

namespace AuthorizationSet

variable {s s' : AuthorizationSet}

lemma deserialize_stored (h : s.Stored) {buf : List UInt8} (hnone : noIndirectData buf) :
    (s.deserialize buf).2.Stored := by
  have hfree := h.freeData
  unfold deserialize deserializeIndirectData copyUint32
  by_cases hlength : 4 ≤ buf.length
  · have hzero : LittleEndian.decode (buf.take 4) = 0 := by
      simpa [noIndirectData, not_lt.mpr hlength] using hnone
    simp only [if_pos hlength, hzero, Nat.not_lt_zero, if_false, if_true]
    have hread := deserializeElementsData_stored hfree (buf.drop 4)
    rcases helems : s.freeData.deserializeElementsData (buf.drop 4) with ⟨ok, s1⟩
    rw [helems] at hread
    -- the state before the elements are read is the one after `FreeData`
    have hfreed : { s.freeData with indirectSize := 0, indirectData := [] } = s.freeData := rfl
    rw [hfreed, helems]
    cases ok with
    | false => exact hread
    | true =>
      dsimp only
      split
      · exact setInvalid_stored hread.freeData
      · exact hread
  · simp only [if_neg hlength]
    exact setInvalid_stored hfree.freeData

lemma step_stored (lib : Library) (h : s.Stored) {op : Op} (hnone : op.noIndirectData) :
    (s.step lib op).Stored := by
  cases op with
  | pushBack p hfits => exact pushBack_stored h fun _ => hfits
  | pushBackSet set => exact pushBackSet_stored h set
  | reinitialize set => exact reinitialize_stored h set
  | deserialize buf => exact deserialize_stored h hnone
  | erase index => exact erase_stored h index
  | deduplicate => exact deduplicate_stored lib h
  | union set => exact union_stored lib h set
  | difference set => exact difference_stored lib h set.params

lemma empty_stored (allocs : List Bool) : Stored { allocs } :=
  ⟨⟨Nat.le_refl 0, Nat.le_refl 0, Nat.le_refl 0, nofun, rfl⟩,
    show 0 * sizeofParam < maxObjectSize by decide, show 0 < maxObjectSize by decide⟩

/-- A set stays in its arrays as long as no indirect data are deserialized into it. -/
theorem run_sound (lib : Library) (allocs : List Bool) (ops : List Op)
    (h : ∀ op ∈ ops, op.noIndirectData = true) :
    Throughout Sound (step lib) { allocs := allocs } ops := by
  have hops : EachStep (fun _ op => op.noIndirectData) (step lib) { allocs := allocs } ops :=
    Runs.eachStep_of_forall ops _ h
  have hstored : Throughout Stored (step lib) { allocs := allocs } ops :=
    throughout_of_inv (fun _ _ hs hop => step_stored lib hs hop) ops _ (empty_stored allocs) hops
  exact hstored.mono fun _ hs => hs.toSound

end AuthorizationSet

/-- Tags are compared, and sets are sorted by insertion. -/
def sampleLibrary : Library where
  compare a b := (a.tag.toNat : Int) - b.tag.toNat
  qsort cmp elems := elems.insertionSort fun a b => cmp a b ≤ 0
  qsort_perm _ _ := List.perm_insertionSort _ _

/-- A blob of two bytes, whose tag is `KM_TAG_APPLICATION_ID`. -/
def sampleBlob : Param := { tag := 0x90000259, blob := [7, 8] }

lemma sampleBlob_fits : sampleBlob.blob.length < maxObjectSize := by decide

/-- A blob is pushed twice, the copy is dropped and an empty set is deserialized. -/
def sampleOps : List Op :=
  [.pushBack sampleBlob sampleBlob_fits, .pushBack sampleBlob sampleBlob_fits, .deduplicate,
    .deserialize (List.replicate 12 0)]

namespace AuthorizationSet

theorem run_sound_sampleOps :
    (∀ op ∈ sampleOps, op.noIndirectData = true) ∧
      Throughout Sound (step sampleLibrary) { allocs := [] } sampleOps :=
  have hops : ∀ op ∈ sampleOps, op.noIndirectData := by decide
  ⟨hops, run_sound sampleLibrary [] sampleOps hops⟩

/-- A serialized set of one blob, which is one byte long. -/
def serializedBlob : List UInt8 :=
  [1, 0, 0, 0, 0xAA, 1, 0, 0, 0, 12, 0, 0, 0, 0x59, 0x02, 0, 0x90, 1, 0, 0, 0, 0, 0, 0, 0]

/-- `DeserializeIndirectData` does not set the capacity.  The set that has been read has more
indirect data than that, and the next blob is copied to the end of a full array. -/
theorem deserialize_breaks_capacity :
    let s := step sampleLibrary {} (.deserialize serializedBlob)
    let s' := step sampleLibrary s (.pushBack sampleBlob (by decide))
    s.error = .ok ∧ s.indirectCapacity < s.indirectSize ∧ ¬ s.Sound ∧
      s.fault = false ∧ s'.fault = true := by
  have hcapacity : ¬ (step sampleLibrary {} (.deserialize serializedBlob)).indirectSize ≤
      (step sampleLibrary {} (.deserialize serializedBlob)).indirectCapacity := by decide
  exact ⟨by decide, by decide, fun hsound => hcapacity hsound.size_le, by decide, by decide⟩

end AuthorizationSet

end Keymaster.Storage
