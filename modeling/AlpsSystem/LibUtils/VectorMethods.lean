import AlpsSystem.LibUtils.Items
import AlpsSystem.LibUtils.VectorStorage

/-!
# Methods of a vector

Each method of `VectorImpl` does to the items of its vector what the function of the same name in
`Items` does to a list, and leaves alone what others use.  Two kinds of calls are excepted (`Safe`):
an insertion or a removal of no items in front of others, which moves those onto themselves and so
destroys them unless they can be moved as bytes; and a removal whose end wraps to an index within
the vector.
-/

namespace LibUtils

open SharedBuffer List

variable {α : Type} {c : Config α} {s s' : Self α} {env : Nat → Nat} {buffer : Buffer α}
  {l r array : List α} {index : Nat} {cmp : α → α → Int}

/-! ## Insertions and removals -/

open Becomes Items Slots

/-- The slots that `_grow` has made are filled. -/
lemma Room.filled {amount : Nat} (h : Room c l r amount buffer) (howns : Owns s' env buffer)
    (hkeeps : s.heap.Keeps env s'.heap) (hcount : s'.count = l.length + amount + r.length)
    (hamount : array.length = amount) :
    Returns (modifyStorage s' fun buffer => writeItems c buffer l.length array)
      (Becomes c s env (l ++ array ++ r)) := by
  subst hamount
  have hfits := h.fits
  have hwrite : writeItems c buffer l.length array = _ := writeItems_spec (by omega)
  refine (howns.modifyStorage { buffer with items := buffer.items.write l.length array } hwrite rfl
    (Q := Carries c (l ++ array ++ r))
    ⟨?_, ?_⟩).mono fun s2 hs2 => ?_
  · simp only [holds_append, zero_add, length_append]
    exact ⟨⟨h.front.write_of_disjoint (by omega), holds_write⟩, h.back.write_of_disjoint (by omega)⟩
  · rw [length_append, length_append]
    exact hfits
  · have hbecomes := hs2.becomes_of_count (by rw [hcount, length_append, length_append])
    exact ⟨hbecomes.sees, hkeeps.trans hbecomes.keeps⟩

section

variable (h : Sees c s env l) {x : α}

include h

/-- The array is still there after the buffer of the vector has grown. -/
lemma insertItems_spec {read : Heap α → Except Stop (List α)} (array : List α) (index : Nat)
    (hread : ∀ heap, s.heap.Keeps env heap → read heap = .ok array)
    (hmove : array.length ≠ 0 ∨ s.count ≤ index ∨ c.useTrivialMove) :
    Returns (insertItems c s read index array.length) fun r =>
      Becomes c s env (Items.insertArrayAt l array index) r.1 := by
  rw [insertItems, h.count, Items.insertArrayAt]
  rw [h.count] at hmove
  refine ensures_ite (fun hout => ?_) fun hin => ?_
  · rw [if_pos hout]
    exact refl h
  · rw [if_neg hin]
    have hfront : (l.take index).length = index := by
      rw [length_take]
      omega
    have hgrow := grow_spec (l := l.take index)
      (by rwa [take_append_drop]) array.length
      (hmove.imp_right fun hrest => hrest.imp_left drop_eq_nil_of_le)
    rw [hfront] at hgrow
    refine hgrow.bind ?_
    rintro ⟨s1, location⟩
    cases location with
    | none =>
      rintro ⟨hnone, hbecomes⟩
      obtain rfl : array = [] := eq_nil_of_length_eq_zero hnone
      rw [append_nil]
      exact hbecomes
    | some location =>
      rintro ⟨rfl, hcount, hkeeps, buffer, howns, hroom⟩
      have hfilled := hroom.filled howns hkeeps (by rw [hcount, hfront]) rfl
      rw [hfront] at hfilled
      simp only [hread s1.heap hkeeps]
      exact hfilled.bind fun s2 hs2 => hs2

/-- The other vector's buffer has another user, so growing keeps it. -/
lemma insertVectorAt_spec {vector : VectorImpl} (index : Nat)
    (hcount : vector.count = array.length) (hstored : Stored c s.heap vector.storage array)
    (hused : ∀ b, vector.storage = some b → 0 < env b)
    (hmove : vector.count ≠ 0 ∨ s.count ≤ index ∨ c.useTrivialMove) :
    Returns (insertVectorAt c s vector index) fun r =>
      Becomes c s env (Items.insertArrayAt l array index) r.1 := by
  rw [insertVectorAt, hcount]
  rw [hcount] at hmove
  refine insertItems_spec h array index (fun heap hkeeps => ?_) hmove
  have hstored : Stored c heap vector.storage array :=
    hstored.congr fun b hb => hkeeps b (hused b hb)
  rw [arrayOf]
  cases hb : vector.storage with
  | none =>
    rw [hb] at hstored
    obtain rfl : array = [] := hstored
    exact if_pos hcount
  | some b =>
    rw [hb] at hstored
    obtain ⟨buffer, hcontent, -, hroom, hholds⟩ := hstored
    obtain ⟨sb, hcell, rfl⟩ := Option.map_eq_some_iff.mp hcontent
    simp only [access_eq hcell, hcount]
    exact readItems_spec (by omega) hholds

lemma removeItemsAt_spec (index count : Nat)
    (hwrap : index + count < sizeMax ∨ (index + count) % sizeMax > s.count ∨ s.storage = none)
    (hmove : count ≠ 0 ∨ s.count ≤ index ∨ c.useTrivialMove ∨ s.count < slots c s / 2) :
    Returns (removeItemsAt c s index count) fun r =>
      Becomes c s env (Items.removeItemsAt l index count) r.1 := by
  have hmod : (index + count) % sizeMax ≤ index + count := Nat.mod_le _ _
  refine ensures_ite (fun hout => ?_) fun hin => ?_
  · rw [Items.removeItemsAt, if_pos (by rw [← h.count]; omega)]
    exact refl h
  · cases hb : s.storage with
    | none =>
      have hstored := h.stored
      rw [hb] at hstored
      obtain rfl : l = [] := hstored
      rw [shrink, hb, Items.removeItemsAt, take_nil, drop_nil, append_nil, ite_self]
      exact refl h
    | some b =>
      have hsum : (index + count) % sizeMax = index + count := by
        refine Nat.mod_eq_of_lt (hwrap.resolve_right ?_)
        rintro (hover | hnone)
        · exact hin hover
        · cases hb.symm.trans hnone
      rw [hsum, h.count] at hin
      have hparts : l = l.take index ++ (l.drop index).take count ++ l.drop (index + count) := by
        rw [append_assoc, ← drop_drop, take_append_drop, take_append_drop]
      have hfront : (l.take index).length = index := by
        rw [length_take]
        omega
      have hmid : ((l.drop index).take count).length = count := by
        rw [length_take, length_drop]
        omega
      have hcount := h.count
      have hsafe : (l.drop index).take count ≠ [] ∨ l.drop (index + count) = [] ∨
          c.useTrivialMove ∨ s.count < slots c s / 2 := by
        rcases hmove with hcount | hend | hrest
        · refine .inl fun hnil => hcount ?_
          rw [← hmid, hnil, length_nil]
        · exact .inr (.inl (drop_eq_nil_of_le (by omega)))
        · exact .inr (.inr hrest)
      rw [hparts] at h
      have hshrink := shrink_spec h hsafe
      rw [hfront, hmid] at hshrink
      rw [Items.removeItemsAt, if_neg hin]
      exact hshrink.bind fun s' hs' => hs'

omit h in
theorem replaceItem_spec (buffer : Buffer α) (h : buffer.items.Holds 0 (l ++ x :: r))
    (hroom : (l ++ x :: r).length ≤ slotsOf c buffer) (y : α) :
    ∃ items, replaceItem c buffer l.length y = .ok { buffer with items } ∧
      items.Holds 0 (l ++ y :: r) := by
  simp only [holds_append, holds_cons, zero_add, length_append, length_cons] at h hroom
  obtain ⟨hfront, hitem, hback⟩ := h
  have hone : buffer.items.Holds l.length [x] := holds_cons.mpr ⟨hitem, holds_nil⟩
  have hplace : l.length + [x].length ≤ slotsOf c buffer := by
    rw [length_singleton]
    omega
  obtain ⟨items, hdestroy, hothers⟩ := destroyItems_spec hplace hone
  refine ⟨items.write l.length [y], ?_, ?_⟩
  · rw [replaceItem]
    show (destroyItems c buffer l.length [x].length >>= _) = _
    rw [hdestroy]
    exact writeItems_spec hplace
  · rw [length_singleton] at hothers
    simp only [holds_append, holds_cons, zero_add]
    refine ⟨Slots.Holds.write_of_disjoint
        (hfront.congr fun i _ hi => hothers i (by omega)) (by omega),
      ?_, Slots.Holds.write_of_disjoint (hback.congr fun i hi _ => hothers i (by omega)) (by simp)⟩
    exact (holds_cons.mp holds_write).1

lemma Sees.storage_ne_none (hl : 0 < l.length) : s.storage ≠ none := by
  intro hnone
  have hle := h.length_le
  have hslots : slots c s = 0 := by simp [slots, hnone]
  omega

lemma editItemLocation_spec (hindex : index < l.length) :
    Returns (editItemLocation c s index) fun r => r.2 = some index ∧
      Yields s env (fun buffer => slotsOf c buffer = slots c s ∧ buffer.items.Holds 0 l) r.1 := by
  have hle := h.length_le
  rw [editItemLocation, h.capacity_eq]
  refine ensures_ite (fun _ => ?_) fun hout => absurd (by omega) hout
  refine (editArrayImpl_spec h (h.storage_ne_none (by omega))).bind fun s1 hs1 => ⟨?_, hs1⟩
  obtain ⟨buffer, howns, -⟩ := hs1.owns
  obtain ⟨b, hb, -⟩ := howns.owned
  rw [hb]
  rfl

lemma replaceAt_spec (item : Option α) (fresh : Nat → α) (index : Nat) :
    Returns (replaceAt c s item fresh index) fun r => Becomes c s env
      (Items.replaceAt l (item.getD (if c.trivialCtor then fresh 0 else c.default)) index) r.1 := by
  refine ensures_ite (fun hout => ?_) fun hin => ?_
  · rw [Items.replaceAt, set_eq_of_length_le (by rw [← h.count]; exact hout)]
    exact refl h
  · have hcount := h.count
    have hindex : index < l.length := by omega
    have hle := h.length_le
    refine (editItemLocation_spec h hindex).bind fun ⟨s1, location⟩ => ?_
    rintro ⟨rfl, hs1⟩
    obtain ⟨buffer, howns, hsame, hholds⟩ := hs1.owns
    obtain ⟨front, x, back, rfl, rfl⟩ : ∃ front x back, l = front ++ x :: back ∧
        index = front.length :=
      ⟨l.take index, l[index], l.drop (index + 1), by simp, by simp; omega⟩
    have hset : ∀ y, Items.replaceAt (front ++ x :: back) y front.length = front ++ y :: back := by
      simp [Items.replaceAt]
    obtain ⟨items, hreplace, hitems⟩ := replaceItem_spec buffer hholds (hsame ▸ hle)
      (item.getD (if c.trivialCtor then fresh 0 else c.default))
    rw [hset]
    have hlength : ∀ y, (front ++ y :: back).length = (front ++ x :: back).length := by simp
    have hfits : (front ++ x :: back).length ≤ slotsOf c { buffer with items } := hsame ▸ hle
    refine (howns.modifyStorage { buffer with items } hreplace rfl (Carries.mk hitems ?_)).bind
      fun s2 hs2 => (hs1.trans hs2).becomes_of_count (hcount.trans (hlength _).symm)
    exact (hlength _).symm ▸ hfits

end

/-! ## Sorting -/

lemma readItem_spec (buffer : Buffer α) (h : buffer.items.Holds 0 (l ++ x :: r))
    (hroom : (l ++ x :: r).length ≤ slotsOf c buffer) : readItem c buffer l.length = .ok x := by
  simp only [holds_append, holds_cons, zero_add, length_append, length_cons] at h hroom
  rw [readItem, if_neg (by omega), h.2.1]

/-- The inner loop puts `x`, which it has taken from where `z` is, to its place before `y`. -/
lemma sortShift_spec (l : List α) (y z : α) (r : List α)
    (buffer : Buffer α) (h : buffer.items.Holds 0 (l ++ y :: z :: r))
    (hroom : (l ++ y :: z :: r).length ≤ slotsOf c buffer) (hy : cmp y x > 0) :
    ∃ items, sortShift c cmp x l.length buffer = .ok { buffer with items } ∧
      items.Holds 0 (insertSorted cmp (l ++ [y]) x ++ r) := by
  induction l using List.reverseRecOn generalizing y z r buffer with
  | nil =>
    have hread := readItem_spec buffer h hroom
    obtain ⟨items1, hfirst, hitems1⟩ := replaceItem_spec (l := [y]) buffer h hroom y
    obtain ⟨items2, hsecond, hitems2⟩ :=
      replaceItem_spec (l := []) { buffer with items := items1 } hitems1 hroom x
    have hsorted : insertSorted cmp ([] ++ [y]) x = [x, y] :=
      insertSorted_concat_pos hy
    refine ⟨items2, ?_, by rw [hsorted]; exact hitems2⟩
    rw [length_nil] at hread ⊢
    rw [sortShift, hread]
    show (replaceItem c buffer [y].length y >>= _) = _
    rw [hfirst]
    exact hsecond
  | append_singleton l w ih =>
    have hnext : (l ++ [w]).length = l.length + 1 := by simp
    have hlast : (l ++ [w, y]).length = l.length + 2 := by simp
    have hread := readItem_spec buffer h hroom
    have hsplit : l ++ [w] ++ y :: z :: r = l ++ [w, y] ++ z :: r := by simp
    rw [hsplit] at h hroom
    obtain ⟨items1, hfirst, hitems1⟩ := replaceItem_spec buffer h hroom y
    have hroom1 : (l ++ w :: y :: y :: r).length ≤ slotsOf c buffer := by simpa using hroom
    have hitems1' : items1.Holds 0 (l ++ w :: y :: y :: r) := by simpa using hitems1
    have hcurr := readItem_spec { buffer with items := items1 } hitems1' hroom1
    rw [hnext] at hread ⊢
    rw [hlast] at hfirst
    have hshift : sortShift c cmp x (l.length + 1) buffer =
        if cmp w x > 0 then sortShift c cmp x l.length { buffer with items := items1 }
        else replaceItem c { buffer with items := items1 } (l.length + 1) x := by
      simp only [sortShift, hread, hfirst, hcurr, bind, Except.bind]
    rw [hshift, insertSorted_concat_pos hy, append_assoc]
    by_cases hw : cmp w x > 0
    · rw [if_pos hw]
      exact ih w y (y :: r) { buffer with items := items1 } hitems1' hroom1 hw
    · have hroom2 : (l ++ [w] ++ y :: y :: r).length ≤ slotsOf c buffer := by simpa using hroom
      have hitems1'' : items1.Holds 0 (l ++ [w] ++ y :: y :: r) := by simpa using hitems1
      obtain ⟨items2, hplace, hitems2⟩ :=
        replaceItem_spec { buffer with items := items1 } hitems1'' hroom2 x
      rw [if_neg hw, insertSorted_concat_neg hw, ← hnext]
      exact ⟨items2, hplace, by simpa using hitems2⟩

lemma length_insertSorted : (insertSorted cmp l x).length = l.length + 1 :=
  insertSorted_perm.length_eq

lemma editOnce_spec (h : Sees c s env l) (hl : 0 < l.length) {edited : Bool}
    (hedited : edited → ∃ b, s.storage = some b ∧ env b = 0) :
    Returns (editOnce c s edited) (Yields s env fun buffer =>
      slotsOf c buffer = slots c s ∧ buffer.items.Holds 0 l) := by
  refine ensures_ite (fun hyes => ?_) fun _ => editArrayImpl_spec h (h.storage_ne_none hl)
  obtain ⟨b, hb, hunused⟩ := hedited hyes
  obtain ⟨buffer, hcell, -, hsize, -, hslots, hholds⟩ := h.exists_buffer hb
  have hcontent : s.heap.content b = some buffer := by
    rw [RefHeap.content, hcell]
    rfl
  exact ⟨rfl, RefHeap.Keeps.refl, buffer, ⟨h.counts, ⟨b, hb, hunused, hcontent⟩, hsize⟩,
    hslots.symm, hholds⟩

/-- `n` rounds insert the next `n` items. -/
lemma sortLoop_spec (cmp : α → α → Int) (rest : List α) (l : List α) (y : α) (edited : Bool)
    (s : Self α) (h : Sees c s env (l ++ [y] ++ rest))
    (hedited : edited → ∃ b, s.storage = some b ∧ env b = 0) :
    Returns (sortLoop c cmp rest.length l.length edited s)
      (Becomes c s env (rest.foldl (insertSorted cmp) (l ++ [y]))) := by
  induction rest generalizing l y edited s with
  | nil =>
    rw [append_nil] at h
    exact refl h
  | cons x rest ih =>
    have hpos : 0 < (l ++ [y] ++ x :: rest).length := by
      rw [length_append, length_cons]
      omega
    obtain ⟨b, hb⟩ := Option.ne_none_iff_exists'.mp (h.storage_ne_none hpos)
    obtain ⟨buffer, -, haccess, -, hroom, -, hholds⟩ := h.exists_buffer hb
    have hstorage : storageOf s = .ok ⟨(env b + 1 : Nat), buffer⟩ := by
      rw [storageOf, hb]
      exact haccess
    have hitem := readItem_spec buffer hholds hroom
    have hcurr : readItem c buffer l.length = .ok y :=
      readItem_spec buffer (by simpa using hholds) (by simpa using hroom)
    rw [length_append, length_singleton] at hitem
    rw [length_cons, foldl_cons, sortLoop, hstorage]
    simp only [ok_bind, hcurr, hitem]
    refine ensures_ite (fun hy => ?_) fun hy => ?_
    · refine (editOnce_spec h hpos hedited).bind fun s1 hs1 => ?_
      obtain ⟨buffer1, howns1, hslots1, hholds1⟩ := hs1.owns
      have hle := h.length_le
      rw [← hslots1] at hle
      obtain ⟨items, hshift, hitems⟩ := sortShift_spec l y x rest buffer1 (by simpa using hholds1)
        (by simpa using hle) hy
      have hlength : (insertSorted cmp (l ++ [y]) x ++ rest).length =
          (l ++ [y] ++ x :: rest).length := by
        simp only [length_append, length_insertSorted, length_cons]
        omega
      have hfits : (insertSorted cmp (l ++ [y]) x ++ rest).length ≤
          slotsOf c { buffer1 with items } := hlength ▸ hle
      refine (howns1.modifyStorage { buffer1 with items } hshift rfl
        (Carries.mk hitems hfits)).bind fun s2 hs2 => ?_
      have hbecomes := (hs1.trans hs2).becomes_of_count (h.count.trans hlength.symm)
      obtain ⟨_, howns2, -⟩ := hs2.owns
      obtain ⟨b2, hb2, hunused2, -⟩ := howns2.owned
      rw [insertSorted_concat_pos hy] at hbecomes ⊢
      have hrest := ih (insertSorted cmp l x) y true s2 hbecomes.sees fun _ => ⟨b2, hb2, hunused2⟩
      rw [length_insertSorted] at hrest
      exact hrest.mono fun s3 hs3 => hbecomes.trans hs3
    · rw [insertSorted_concat_neg hy]
      have hnext := ih (l ++ [y]) x edited s (by simpa using h) hedited
      simpa using hnext

section

variable (h : Sees c s env l)

include h

lemma sort_spec (cmp : α → α → Int) :
    Returns (sort c s cmp) (Becomes c s env (Items.sort cmp l)) := by
  have hcount := h.count
  refine ensures_ite (fun _ => ?_) fun hfew => ?_
  · obtain ⟨y, rest, rfl⟩ := exists_cons_of_length_pos (l := l) (by omega)
    have hloop := sortLoop_spec cmp rest [] y false s h nofun
    rw [hcount, List.length_cons]
    exact hloop
  · match l with
    | [] => exact refl h
    | [_] => exact refl h
    | _ :: _ :: _ => exact absurd hcount (by simp; omega)

/-! ## Capacity and size -/

lemma setCapacity_spec (newCapacity : Nat) :
    Returns (setCapacity c s newCapacity) fun r => Becomes c s env l r.1 := by
  have hcount := h.count
  refine ensures_ite (fun _ => ?_) fun hmore => ensures_ite (fun _ => rfl) fun _ => ?_
  · rw [h.capacity_eq]
    exact refl h
  · have hroom : l.length ≤ newCapacity * c.itemSize / c.itemSize := by
      rw [Nat.mul_div_cancel _ c.itemSize_pos]
      omega
    refine (copyStorage_spec h hroom).bind fun s1 hs1 => ?_
    refine (hs1.mono ?_).becomes_of_count hcount
    rintro buffer ⟨hbytes, hholds⟩
    exact ⟨hholds, by rw [slotsOf, hbytes]; exact hroom⟩

omit h in
@[simp] theorem length_constructed (c : Config α) (fresh : Nat → α) (num : Nat) :
    (constructed c fresh num).length = num := by
  simp [constructed]

lemma insertAt_spec (item : Option α) (fresh : Nat → α)
    (index numItems : Nat) (hmove : numItems ≠ 0 ∨ s.count ≤ index ∨ c.useTrivialMove) :
    Returns (insertAt c s item fresh index numItems) fun r => Becomes c s env
      (Items.insertArrayAt l (item.elim (constructed c fresh numItems)
        (List.replicate numItems)) index) r.1 := by
  cases item with
  | none =>
    have hinsert := insertItems_spec h (constructed c fresh numItems) index
      (fun _ _ => rfl) (by rwa [length_constructed])
    rwa [length_constructed] at hinsert
  | some item =>
    have hinsert := insertItems_spec h (List.replicate numItems item) index
      (fun _ _ => rfl) (by rwa [length_replicate])
    rwa [length_replicate] at hinsert

lemma resize_spec (fresh : Nat → α) (size : Nat) :
    Returns (resize c s fresh size) fun r =>
      Becomes c s env (Items.resize l (constructed c fresh) size) r.1 := by
  have hcount := h.count
  have hresized : ∀ {x : Except Stop (Self α × Result)} {l' : List α},
      Returns x (fun r => Becomes c s env l' r.1) →
      Returns (x >>= fun r => pure (r.1, r.2.map fun _ => size)) fun r => Becomes c s env l' r.1 :=
    fun hx => hx.bind fun _ hr => hr
  rw [Items.resize]
  refine ensures_ite (fun hmore => hresized ?_) fun hnotMore =>
    ensures_ite (fun hless => hresized ?_) fun hsame => ?_
  · have hinsert := insertAt_spec h none fresh s.count (size - s.count) (.inl (by omega))
    have hend := insertArrayAt_length l [] (constructed c fresh (size - s.count))
    rw [append_nil, append_nil, ← hcount] at hend
    rw [if_pos (hcount ▸ hmore), ← hcount, ← hend]
    exact hinsert
  · have hle := h.length_le
    have hlt := slots_lt h
    have hsum : size + (s.count - size) = s.count := by omega
    have hremove := removeItemsAt_spec h size (s.count - size) (.inl (by omega))
      (.inl (by omega))
    rw [Items.removeItemsAt, hsum, hcount, if_neg (lt_irrefl _), drop_length,
      append_nil, ← hcount] at hremove
    rw [if_neg (hcount ▸ hnotMore)]
    exact hremove
  · rw [if_neg (hcount ▸ hnotMore), take_of_length_le (by omega)]
    exact Becomes.refl h

lemma clear_spec : Returns (clear c s) (Becomes c s env []) := by
  have hparts : l = [] ++ l ++ [] := by simp
  have hcount := h.count
  rw [hparts] at h
  have hshrink := shrink_spec h (.inr (.inl rfl))
  rw [← hcount] at hshrink
  exact hshrink

lemma pop_spec : Returns (pop c s) (Becomes c s env l.dropLast) := by
  have hcount := h.count
  refine ensures_ite (fun hsome => ?_) fun hnone => ?_
  · have hle := h.length_le
    have hlt := slots_lt h
    have hsum : s.count - 1 + 1 = s.count := by omega
    have hremove := removeItemsAt_spec h (s.count - 1) 1 (.inl (by omega)) (.inl (by omega))
    rw [Items.removeItemsAt, hsum, hcount, if_neg (lt_irrefl _), drop_length,
      append_nil, ← dropLast_eq_take, ← hcount] at hremove
    exact hremove.bind fun _ hr => hr
  · obtain rfl : l = [] := eq_nil_of_length_eq_zero (by omega)
    exact refl h

lemma finishVector_spec : Returns (finishVector c s) (Becomes c s env []) := by
  refine (releaseStorage_spec h).bind fun s1 => ?_
  rintro ⟨-, hcounts, hkeeps⟩
  exact ⟨⟨hcounts, rfl, rfl⟩, hkeeps⟩

/-! ## Copies -/

/-- The buffer of the other vector gets one more user, or none if that vector is empty. -/
lemma assign_spec {rhs : VectorImpl} (hcount : rhs.count = array.length)
    (hstored : Stored c s.heap rhs.storage array)
    (hused : ∀ b, rhs.storage = some b → 0 < env b ∧ env b + 1 < 2 ^ 31) :
    Returns (assign c s rhs) (Becomes c s env array) := by
  refine (releaseStorage_spec h).bind fun s1 => ?_
  rintro ⟨-, hcounts, hkeeps⟩
  refine ensures_ite (fun hsome => ?_) fun hnone => ?_
  · cases hb : rhs.storage with
    | none =>
      rw [hb] at hstored
      obtain rfl : array = [] := hstored
      exact absurd hcount hsome
    | some b =>
      obtain ⟨hpos, hsmall⟩ := hused b hb
      obtain ⟨heap, hacquire, hcounts', hcontent⟩ := acquire_spec hcounts hpos hsmall
      dsimp only
      rw [hacquire]
      refine ⟨⟨?_, hcount, hstored.congr fun b' hb' => ?_⟩, fun x hx => ?_⟩
      · rw [hb]
        exact hcounts'
      · exact (hcontent b').trans (hkeeps b' (hused b' hb').1)
      · exact (hcontent x).trans (hkeeps x hx)
  · obtain rfl : array = [] := eq_nil_of_length_eq_zero (by omega)
    exact ⟨⟨hcounts, rfl, rfl⟩, hkeeps⟩

end

lemma copyConstruct_spec {heap : Heap α} {users : Nat → Nat} (rhs : VectorImpl)
    (h : Counts heap users)
    (hused : ∀ b, rhs.storage = some b → 0 < users b ∧ users b + 1 < 2 ^ 31) :
    ∃ heap', copyConstruct heap rhs = .ok { rhs with heap := heap' } ∧
      Counts heap' (fun x => users x + uses rhs.storage x) ∧
      ∀ x, heap'.content x = heap.content x := by
  rw [copyConstruct]
  cases hb : rhs.storage with
  | none => exact ⟨heap, rfl, h, fun _ => rfl⟩
  | some b =>
    obtain ⟨hpos, hsmall⟩ := hused b hb
    obtain ⟨heap', hacquire, hcounts, hcontent⟩ := acquire_spec h hpos hsmall
    simp only [hacquire]
    exact ⟨heap', rfl, hcounts, hcontent⟩

/-! ## Calls -/

/-- A call of a method on one vector; indices and counts are of `size_t`. -/
inductive Method (α : Type)
  | insertArrayAt (array : List α) (index : BitVec 64)
  | insertAt (item : Option α) (fresh : Nat → α) (index numItems : BitVec 64)
  | push (item : Option α) (fresh : Nat → α)
  | pop
  | replaceAt (item : Option α) (fresh : Nat → α) (index : BitVec 64)
  | removeItemsAt (index count : BitVec 64)
  | clear
  | finishVector
  | setCapacity (newCapacity : BitVec 64)
  | resize (fresh : Nat → α) (size : BitVec 64)
  | sort (cmp : α → α → Int)

namespace Method

/-- What the call does to its vector. -/
def run (c : Config α) (s : Self α) : Method α → Except Stop (Self α)
  | insertArrayAt array index => Prod.fst <$> LibUtils.insertArrayAt c s array index.toNat
  | insertAt item fresh index numItems =>
    Prod.fst <$> LibUtils.insertAt c s item fresh index.toNat numItems.toNat
  | push item fresh => Prod.fst <$> LibUtils.push c s item fresh
  | pop => LibUtils.pop c s
  | replaceAt item fresh index => Prod.fst <$> LibUtils.replaceAt c s item fresh index.toNat
  | removeItemsAt index count => Prod.fst <$> LibUtils.removeItemsAt c s index.toNat count.toNat
  | clear => LibUtils.clear c s
  | finishVector => LibUtils.finishVector c s
  | setCapacity newCapacity => Prod.fst <$> LibUtils.setCapacity c s newCapacity.toNat
  | resize fresh size => Prod.fst <$> LibUtils.resize c s fresh size.toNat
  | sort cmp => LibUtils.sort c s cmp

/-- What it should do to the items. -/
def items (c : Config α) (l : List α) : Method α → List α
  | insertArrayAt array index => Items.insertArrayAt l array index.toNat
  | insertAt item fresh index numItems =>
    Items.insertArrayAt l (item.elim (constructed c fresh numItems.toNat)
      (List.replicate numItems.toNat)) index.toNat
  | push item fresh => l ++ item.elim (constructed c fresh 1) (List.replicate 1)
  | pop => l.dropLast
  | replaceAt item fresh index =>
    Items.replaceAt l (item.getD (if c.trivialCtor then fresh 0 else c.default)) index.toNat
  | removeItemsAt index count => Items.removeItemsAt l index.toNat count.toNat
  | clear => []
  | finishVector => []
  | setCapacity _ => l
  | resize fresh size => Items.resize l (constructed c fresh) size.toNat
  | sort cmp => Items.sort cmp l

/-- `amount` items before the others move these to another place, or as bytes. -/
def movesApart (c : Config α) (s : Self α) (index amount : Nat) : Bool :=
  amount ≠ 0 || s.count ≤ index || c.useTrivialMove

/-- No items are moved onto themselves, and no end of a removal wraps into the vector. -/
def safe (c : Config α) (s : Self α) : Method α → Bool
  | insertArrayAt array index => movesApart c s index.toNat array.length
  | insertAt _ _ index numItems => movesApart c s index.toNat numItems.toNat
  | removeItemsAt index count =>
    (index.toNat + count.toNat < sizeMax ||
      (index.toNat + count.toNat) % sizeMax > s.count || s.storage = none) &&
    (movesApart c s index.toNat count.toNat || s.count < slots c s / 2)
  | _ => true

end Method

open Method

/-- **A method does to its vector what it should**, and leaves alone what others use. -/
theorem method_spec (h : Sees c s env l) (m : Method α) (hsafe : m.safe c s) :
    Returns (m.run c s) (Becomes c s env (m.items c l)) := by
  cases m with
  | insertArrayAt array index =>
    simp only [safe, movesApart, Bool.or_eq_true, decide_eq_true_eq, or_assoc] at hsafe
    exact (insertItems_spec h array index.toNat (fun _ _ => rfl) hsafe).map
  | insertAt item fresh index numItems =>
    simp only [safe, movesApart, Bool.or_eq_true, decide_eq_true_eq, or_assoc] at hsafe
    exact (insertAt_spec h item fresh index.toNat numItems.toNat hsafe).map
  | push item fresh =>
    have hpush := insertAt_spec h item fresh s.count 1 (.inl (by omega))
    have hend := insertArrayAt_length l [] (item.elim (constructed c fresh 1) (List.replicate 1))
    rw [append_nil, append_nil, ← h.count] at hend
    rw [hend] at hpush
    exact hpush.map
  | pop => exact pop_spec h
  | replaceAt item fresh index => exact (replaceAt_spec h item fresh index.toNat).map
  | removeItemsAt index count =>
    simp only [safe, movesApart, Bool.and_eq_true, Bool.or_eq_true,
      decide_eq_true_eq, or_assoc] at hsafe
    exact (removeItemsAt_spec h index.toNat count.toNat hsafe.1 hsafe.2).map
  | clear => exact clear_spec h
  | finishVector => exact finishVector_spec h
  | setCapacity newCapacity => exact (setCapacity_spec h newCapacity.toNat).map
  | resize fresh size => exact (resize_spec h fresh size.toNat).map
  | sort cmp => exact sort_spec h cmp

end LibUtils
