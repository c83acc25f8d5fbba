import AlpsSystem.LibUtils.VectorImpl

/-!
# Storage of vectors

What the private functions of `VectorImpl.cpp` do to the storage of a vector that shares the heap
with others.  `env` is the number of other users of each buffer; whatever has another user is kept
as it is.

* `Sees` — a vector has the items of a list.
-/

namespace LibUtils

open SharedBuffer List

variable {α : Type} {c : Config α} {s s' : Self α} {env : Nat → Nat} {buffer : Buffer α}
  {l l' r mid : List α} {start dest from_ b array bytes : Nat}

/-! ## Items in a buffer -/

lemma le_slotsOf {n : Nat} : n ≤ slotsOf c buffer ↔ n * c.itemSize ≤ buffer.size :=
  Nat.le_div_iff_mul_le c.itemSize_pos

open Option RefHeap RefHeap.Keeps Slots

section

variable (hroom : start + l.length ≤ slotsOf c buffer)

include hroom

lemma readItems_spec (h : buffer.items.Holds start l) :
    readItems c buffer start l.length = .ok l := by
  rw [readItems, if_neg (by omega), read_eq_some.mpr h]

lemma writeItems_spec :
    writeItems c buffer start l = .ok { buffer with items := buffer.items.write start l } :=
  if_neg (by omega)

/-- Destroyed items leave all others alone. -/
lemma destroyItems_spec (h : buffer.items.Holds start l) :
    ∃ items, destroyItems c buffer start l.length = .ok { buffer with items } ∧
      ∀ i, i < start ∨ start + l.length ≤ i → items i = buffer.items i := by
  by_cases htrivial : c.trivialDtor
  · exact ⟨buffer.items, if_pos htrivial, fun _ _ => rfl⟩
  · refine ⟨buffer.items.erase start l.length, ?_, fun i hi => if_neg (by omega)⟩
    rw [destroyItems, if_neg htrivial, readItems_spec hroom h]
    rfl

end

section

variable (h : buffer.items.Holds from_ l)

include h

lemma moveItems_spec {loop : Bool → Slots α → Nat → Nat → Nat → Slots α}
    (hmove : dest ≠ from_ ∨ c.useTrivialMove)
    (hfrom : from_ + l.length ≤ slotsOf c buffer) (hdest : dest + l.length ≤ slotsOf c buffer) :
    moveItems c loop buffer dest from_ l.length = .ok { buffer with
      items := if c.useTrivialMove then buffer.items.move dest from_ l.length
        else loop (!c.trivialDtor) buffer.items dest from_ l.length } := by
  have hbound : ¬ dest + l.length > slotsOf c buffer := by omega
  rw [moveItems, readItems_spec hfrom h]
  show (if _ then _ else _) = _
  rw [if_neg hbound]
  by_cases htrivial : c.useTrivialMove
  · simp [htrivial, pure, Except.pure]
  · simp [htrivial, hmove.resolve_right htrivial, pure, Except.pure]

lemma moveForward_spec (hup : from_ ≤ dest)
    (hmove : from_ < dest ∨ c.useTrivialMove) (hroom : dest + l.length ≤ slotsOf c buffer) :
    ∃ items, moveForward c buffer dest from_ l.length = .ok { buffer with items } ∧
      items.Holds dest l ∧ ∀ i < from_, items i = buffer.items i := by
  refine ⟨_, moveItems_spec h (hmove.imp_left ne_of_gt) (by omega) hroom, ?_⟩
  split
  · exact ⟨h.move, fun i hi => if_neg (by omega)⟩
  · exact ⟨h.moveUp (hmove.resolve_right ‹_›), fun i hi => moveUp_other (by omega) (by omega)⟩

lemma moveBackward_spec (hdown : dest ≤ from_)
    (hmove : dest < from_ ∨ c.useTrivialMove) (hroom : from_ + l.length ≤ slotsOf c buffer) :
    ∃ items, moveBackward c buffer dest from_ l.length = .ok { buffer with items } ∧
      items.Holds dest l ∧ ∀ i < dest, items i = buffer.items i := by
  refine ⟨_, moveItems_spec h (hmove.imp_left ne_of_lt) hroom (by omega), ?_⟩
  split
  · exact ⟨h.move, fun i hi => if_neg (by omega)⟩
  · exact ⟨h.moveDown (hmove.resolve_right ‹_›), fun i hi => moveDown_other (by omega) (by omega)⟩

end

/-! ## Vectors -/

/-- The buffer holds the items of `l`, and there is one unless `l` is empty. -/
def Stored (c : Config α) (heap : Heap α) (storage : Option Nat) (l : List α) : Prop :=
  match storage with
  | none => l = []
  | some b => ∃ buffer, heap.content b = some buffer ∧ buffer.size < sizeLimit ∧
      l.length ≤ slotsOf c buffer ∧ buffer.items.Holds 0 l

/-- The items of `l` stand at the start of the buffer. -/
structure Carries (c : Config α) (l : List α) (buffer : Buffer α) : Prop where
  holds : buffer.items.Holds 0 l
  room : l.length ≤ slotsOf c buffer

structure Sees (c : Config α) (s : Self α) (env : Nat → Nat) (l : List α) : Prop where
  counts : Counts s.heap fun x => env x + uses s.storage x
  count : s.count = l.length
  stored : Stored c s.heap s.storage l

/-- `buffer` is the vector's own. -/
structure Owns (s : Self α) (env : Nat → Nat) (buffer : Buffer α) : Prop where
  counts : Counts s.heap fun x => env x + uses s.storage x
  owned : ∃ b, s.storage = some b ∧ env b = 0 ∧ s.heap.content b = some buffer
  size_lt : buffer.size < sizeLimit

/-- From `s`, the vector comes to own a buffer with `Q`. -/
structure Yields (s : Self α) (env : Nat → Nat) (Q : Buffer α → Prop) (s' : Self α) : Prop where
  count : s'.count = s.count
  keeps : s.heap.Keeps env s'.heap
  owns : ∃ buffer, Owns s' env buffer ∧ Q buffer

/-- From `s`, the vector comes to have the items of `l`. -/
structure Becomes (c : Config α) (s : Self α) (env : Nat → Nat) (l : List α) (s' : Self α) :
    Prop where
  sees : Sees c s' env l
  keeps : s.heap.Keeps env s'.heap

lemma Becomes.refl (h : Sees c s env l) : Becomes c s env l s := ⟨h, RefHeap.Keeps.refl⟩

lemma Becomes.trans {s'' : Self α} (h : Becomes c s env l s') (h' : Becomes c s' env l' s'') :
    Becomes c s env l' s'' := ⟨h'.sees, h.keeps.trans h'.keeps⟩

/-- `capacity()` of a vector whose buffer is there. -/
def slots (c : Config α) (s : Self α) : Nat :=
  match s.storage.bind s.heap.content with
  | some buffer => slotsOf c buffer
  | none => 0

lemma Stored.congr {heap heap' : Heap α} {storage : Option Nat} (h : Stored c heap storage l)
    (hkeeps : ∀ b, storage = some b → heap'.content b = heap.content b) :
    Stored c heap' storage l := by
  cases storage with
  | none => exact h
  | some b =>
    obtain ⟨buffer, hcontent, hrest⟩ := h
    exact ⟨buffer, (hkeeps b rfl).trans hcontent, hrest⟩

section

variable (h : Sees c s env l) {f : Buffer α → Except Stop (Buffer α)}

include h

/-- A vector with a buffer reads its items there. -/
lemma Sees.exists_buffer (hb : s.storage = some b) :
    ∃ buffer, s.heap.cells b = some ⟨(env b + 1 : Nat), buffer⟩ ∧
      access s.heap b = .ok ⟨(env b + 1 : Nat), buffer⟩ ∧ buffer.size < sizeLimit ∧
      l.length ≤ slotsOf c buffer ∧ slots c s = slotsOf c buffer ∧ buffer.items.Holds 0 l := by
  obtain ⟨buffer, hcell, haccess⟩ := h.counts.access (b := b) (by simp [hb])
  rw [hb, uses_self] at hcell haccess
  have hstored := h.stored
  rw [hb] at hstored
  obtain ⟨buffer', hcontent, hsize, hroom, hholds⟩ := hstored
  have hcontent' := hcontent
  rw [content, hcell] at hcontent
  obtain rfl := Option.some.inj hcontent
  refine ⟨_, hcell, haccess, hsize, hroom, ?_, hholds⟩
  simp only [slots, hb, bind_some, hcontent']

lemma Sees.capacity_eq : capacity c s = .ok (slots c s) := by
  cases hb : s.storage with
  | none => simp [capacity, slots, hb]
  | some b =>
    obtain ⟨buffer, -, haccess, -, -, hslots, -⟩ := h.exists_buffer hb
    rw [hslots, capacity, hb]
    simp [haccess, bind, Except.bind, pure, Except.pure]

lemma Sees.length_le : l.length ≤ slots c s := by
  cases hb : s.storage with
  | none =>
    have hstored := h.stored
    rw [hb] at hstored
    obtain rfl : l = [] := hstored
    exact zero_le
  | some b =>
    obtain ⟨buffer, -, -, -, hroom, hslots, -⟩ := h.exists_buffer hb
    omega

omit h in
/-- A buffer that is changed in place. -/
theorem modifyStorage_eq {sb : RefHeap.Cell (Buffer α)} (hb : s.storage = some b)
    (hcell : s.heap.cells b = some sb) (hf : f sb.content = .ok buffer) :
    modifyStorage s f = .ok { s with heap := s.heap.put b { sb with content := buffer } } := by
  rw [modifyStorage, hb]
  simp [access_eq hcell, hf, bind, Except.bind, pure, Except.pure]

lemma releaseStorage_spec :
    Returns (releaseStorage c s) fun s' => s'.toVectorImpl = s.toVectorImpl ∧
      Counts s'.heap env ∧ s.heap.Keeps env s'.heap := by
  have hcounts := h.counts
  rw [releaseStorage]
  cases hb : s.storage with
  | none =>
    rw [hb] at hcounts
    exact ⟨rfl, hcounts, refl⟩
  | some b =>
    rw [hb] at hcounts
    by_cases hlast : env b = 0
    · -- the items are destroyed in a buffer whose count is 0, and the buffer is freed
      obtain ⟨buffer, hcell, hrelease⟩ := release_last hcounts hlast true
      obtain ⟨buffer', hcell', -, -, hroom, -, hholds⟩ := h.exists_buffer hb
      obtain rfl : buffer' = buffer := by
        rw [hcell] at hcell'
        exact congrArg RefHeap.Cell.content (Option.some.inj hcell'.symm)
      obtain ⟨items, hdestroy, -⟩ := destroyItems_spec (c := c) (by omega) hholds
      have hmodify := modifyStorage_eq (s := { s with heap := s.heap.put b ⟨0, buffer'⟩ })
        (f := fun buffer => destroyItems c buffer 0 s.count) hb (cells_put_self hcell)
        (by rw [h.count]; exact hdestroy)
      have hfree := free_spec hcounts hlast
      simp only [hrelease, bind, Except.bind, if_true, hmodify]
      refine ⟨rfl, ?_⟩
      rw [free_put, free_put]
      exact hfree
    · obtain ⟨heap', hrelease, hcounts', hkeeps⟩ :=
        release_shared hcounts (pos_of_ne_zero hlast) true
      have hmany : ¬ ((env b : Int) + 1 = 1) := by omega
      simp only [hrelease, bind, Except.bind, if_neg hmany]
      exact ⟨rfl, hcounts', hkeeps⟩

/-! ## Moving to a new buffer -/

/-- A vector with the items of `l` is about to move to the new buffer `array`. -/
structure Copying (c : Config α) (s : Self α) (env : Nat → Nat) (l : List α) (array : Nat)
    (buffer : Buffer α) : Prop where
  sees : Sees c s (fun x => env x + uses (some array) x) l
  unused : env array = 0
  cell : s.heap.cells array = some ⟨1, buffer⟩
  size_lt : buffer.size < sizeLimit

lemma Sees.alloc (bytes : Nat) :
    Returns (SharedBuffer.alloc s.heap bytes) fun r =>
      Copying c { s with heap := r.1 } env l r.2 { size := bytes, items := fun _ => none } ∧
        s.heap.Keeps env r.1 := by
  refine (alloc_spec h.counts bytes).mono fun ⟨heap, array⟩ => ?_
  rintro ⟨hcounts, hkeeps, hunused, hcell, hsize⟩
  refine ⟨⟨⟨?_, h.count, ?_⟩, by omega, hcell, hsize⟩, hkeeps.mono fun x => by omega⟩
  · have hswap : (fun x => env x + uses s.storage x + uses (some array) x) =
        fun x => env x + uses (some array) x + uses s.storage x := by
      funext x
      omega
    rwa [hswap] at hcounts
  · refine h.stored.congr fun b hb => hkeeps b ?_
    simp [hb]

end

section

variable (h : Copying c s env l array buffer) {pre post : List α}

include h

/-- The buffer that is copied to is not the vector's. -/
lemma Copying.storage_ne : s.storage ≠ some array := by
  intro hsame
  have hrefs := (h.sees.counts.counted.users_of_cell h.cell).1
  simp only [hsame, uses_self] at hrefs
  omega

open LibUtils

lemma Copying.copyItems
    (dest : Nat) (hl : l = pre ++ r ++ post) (hroom : dest + r.length ≤ slotsOf c buffer) :
    Returns (copyItems c s array dest pre.length r.length) fun s' =>
      Copying c s' env l array { buffer with items := buffer.items.write dest r } ∧
        s'.toVectorImpl = s.toVectorImpl ∧ s.heap.Keeps env s'.heap := by
  rw [LibUtils.copyItems]
  cases hb : s.storage with
  | none =>
    have hstored := h.sees.stored
    rw [hb] at hstored
    obtain rfl : l = [] := hstored
    obtain rfl : r = [] := by
      have hlength := congrArg List.length hl
      simp only [length_nil, length_append] at hlength
      exact eq_nil_of_length_eq_zero (by omega)
    rw [write_nil]
    exact ⟨h, rfl, refl⟩
  | some b =>
    obtain ⟨old, hcell, haccess, -, hold, -, hholds⟩ := h.sees.exists_buffer hb
    have hpart : old.items.Holds pre.length r := by
      rw [hl, holds_append, holds_append, zero_add] at hholds
      exact hholds.1.2
    have hread : readItems c old pre.length r.length = .ok r := by
      refine readItems_spec ?_ hpart
      rw [hl, length_append, length_append] at hold
      omega
    simp only [haccess, bind, Except.bind, hread, access_eq h.cell, writeItems_spec hroom]
    refine ⟨⟨⟨h.sees.counts.put_content h.cell _, h.sees.count, ?_⟩, h.unused,
      cells_put_self h.cell, h.size_lt⟩, rfl, put fun hused => ?_⟩
    · refine h.sees.stored.congr fun x hx => content_put_of_ne ?_
      rintro rfl
      exact h.storage_ne hx
    · have hunused := h.unused
      omega

/-- Nothing has to be copied if there are no items. -/
lemma Copying.copySome (dest : Nat) (hl : l = pre ++ r ++ post)
    (hroom : dest + r.length ≤ slotsOf c buffer) :
    Returns (copySome c s array dest pre.length r.length) fun s' =>
      Copying c s' env l array { buffer with items := buffer.items.write dest r } ∧
        s'.toVectorImpl = s.toVectorImpl ∧ s.heap.Keeps env s'.heap := by
  refine ensures_ite (fun _ => h.copyItems dest hl hroom) fun hnil => ?_
  obtain rfl : r = [] := eq_nil_of_length_eq_zero (by omega)
  rw [write_nil]
  exact ⟨h, rfl, refl⟩

open VectorImpl

lemma Copying.finish :
    Returns (releaseStorage c s >>= fun s => pure { s with storage := some array })
      (Yields s env (· = buffer)) := by
  refine (releaseStorage_spec h.sees).bind fun s' => ?_
  rintro ⟨hsame, hcounts, hkeeps⟩
  have hcontent : s'.heap.content array = some buffer := by
    rw [hkeeps array (by simp), content, h.cell]
    rfl
  have hcount : s'.count = s.count := congrArg count hsame
  exact ⟨hcount, hkeeps.mono fun x => by omega, buffer,
    ⟨hcounts, ⟨array, rfl, h.unused, hcontent⟩, h.size_lt⟩, rfl⟩

end

/-! ## Owning a buffer -/

namespace Yields

variable {Q Q' : Buffer α → Prop}

lemma mono (h : Yields s env Q s') (hQ : ∀ buffer, Q buffer → Q' buffer) : Yields s env Q' s' :=
  { h with owns := h.owns.imp fun _ howns => ⟨howns.1, hQ _ howns.2⟩ }

lemma from_state {s0 : Self α} (h : Yields s env Q s') (hcount : s.count = s0.count)
    (hkeeps : s0.heap.Keeps env s.heap) : Yields s0 env Q s' where
  count := h.count.trans hcount
  keeps := hkeeps.trans h.keeps
  owns := h.owns

lemma trans {s'' : Self α} (h : Yields s env Q s') (h' : Yields s' env Q' s'') :
    Yields s env Q' s'' :=
  h'.from_state h.count h.keeps

/-- The items are those of the buffer once the count is right. -/
lemma becomes (h : Yields s env (Carries c l) s') :
    Becomes c s env l { s' with count := l.length } := by
  obtain ⟨buffer, howns, hholds, hroom⟩ := h.owns
  obtain ⟨b, hb, -, hcontent⟩ := howns.owned
  refine ⟨⟨howns.counts, rfl, ?_⟩, h.keeps⟩
  rw [hb]
  exact ⟨buffer, hcontent, howns.size_lt, hroom, hholds⟩

lemma becomes_of_count (h : Yields s env (Carries c l) s') (hcount : s.count = l.length) :
    Becomes c s env l s' := by
  have hbecomes := h.becomes
  rw [← hcount, ← h.count] at hbecomes
  exact hbecomes

end Yields

/-- What a vector does to its own buffer. -/
lemma Owns.modifyStorage {Q : Buffer α → Prop}
    (h : Owns s env buffer) (buffer' : Buffer α) (hf : f buffer = .ok buffer')
    (hsize : buffer'.size = buffer.size) (hQ : Q buffer') :
    Returns (modifyStorage s f) (Yields s env Q) := by
  obtain ⟨b, hb, hunused, hcontent⟩ := h.owned
  obtain ⟨⟨refs, content⟩, hcell, rfl⟩ := Option.map_eq_some_iff.mp hcontent
  rw [modifyStorage_eq hb hcell hf]
  refine ⟨rfl, put fun hused => by omega, buffer', ⟨h.counts.put_content hcell _,
    ⟨b, hb, hunused, content_put_self hcell⟩, ?_⟩, hQ⟩
  have hlt := h.size_lt
  omega

lemma Owns.capacity_eq (h : Owns s env buffer) : capacity c s = .ok (slotsOf c buffer) := by
  obtain ⟨b, hb, -, hcontent⟩ := h.owned
  obtain ⟨sb, hcell, rfl⟩ := Option.map_eq_some_iff.mp hcontent
  rw [capacity, hb]
  simp [access_eq hcell, bind, Except.bind, pure, Except.pure]

section

variable (h : Sees c s env l)

include h

lemma copyStorage_spec (hroom : l.length ≤ bytes / c.itemSize) :
    Returns (copyStorage c s bytes) (Yields s env fun buffer =>
      buffer.size = bytes ∧ buffer.items.Holds 0 l) := by
  refine (h.alloc bytes).bind fun ⟨heap, array⟩ hcopying => ?_
  have hl : l = [] ++ l ++ [] := by simp
  have hcopy := hcopying.1.copyItems 0 hl (by rw [zero_add]; exact hroom)
  rw [← h.count] at hcopy
  refine hcopy.bind fun s1 hs1 => hs1.1.finish.mono fun s2 hs2 => ?_
  refine (hs2.mono ?_).from_state (congrArg VectorImpl.count hs1.2.1) (hcopying.2.trans hs1.2.2)
  rintro _ rfl
  exact ⟨rfl, holds_write⟩

lemma editArrayImpl_spec (hb : s.storage ≠ none) :
    Returns (editArrayImpl c s) (Yields s env fun buffer =>
      slotsOf c buffer = slots c s ∧ buffer.items.Holds 0 l) := by
  obtain ⟨b, hb⟩ := ne_none_iff_exists'.mp hb
  obtain ⟨buffer, hcell, haccess, hsize, hroom, hslots, hholds⟩ := h.exists_buffer hb
  rw [editArrayImpl, hb]
  simp only [haccess]
  by_cases hlast : env b = 0
  · refine ensures_ite (fun _ => ?_) fun howner =>
      absurd hlast (by simp [onlyOwner] at howner; omega)
    have hcontent : s.heap.content b = some buffer := by
      rw [content, hcell]
      rfl
    exact ⟨rfl, refl, buffer, ⟨h.counts, ⟨b, hb, hlast, hcontent⟩, hsize⟩, hslots.symm, hholds⟩
  · refine ensures_ite (fun howner => absurd howner (by simp [onlyOwner]; omega)) fun _ => ?_
    refine (copyStorage_spec h hroom).mono fun s' hs' => hs'.mono ?_
    rintro copy ⟨hbytes, hcopy⟩
    exact ⟨by rw [hslots, slotsOf, hbytes, slotsOf], hcopy⟩

lemma relocate_spec {rest : List α}
    (hkeep : l = mid ++ rest) (hmoved : l = pre ++ r ++ post) (hdest : mid.length ≤ dest)
    (hroom : (dest + r.length) * c.itemSize ≤ bytes) :
    Returns (relocate c s bytes mid.length dest pre.length r.length) (Yields s env fun buffer =>
      buffer.size = bytes ∧ buffer.items.Holds 0 mid ∧ buffer.items.Holds dest r) := by
  have hslots : dest + r.length ≤ bytes / c.itemSize :=
    (Nat.le_div_iff_mul_le c.itemSize_pos).mpr hroom
  refine (h.alloc bytes).bind fun ⟨heap, array⟩ hcopying => ?_
  have hmid : 0 + mid.length ≤ bytes / c.itemSize := by omega
  have hfirst : Returns _ _ := hcopying.1.copySome 0 (nil_append mid ▸ hkeep) hmid
  refine hfirst.bind fun s1 hs1 => ?_
  refine (hs1.1.copySome dest hmoved hslots).bind fun s2 hs2 => ?_
  refine hs2.1.finish.mono fun s3 hs3 => ?_
  refine (hs3.mono ?_).from_state ((congrArg VectorImpl.count hs2.2.1).trans
    (congrArg VectorImpl.count hs1.2.1)) ((hcopying.2.trans hs1.2.2).trans hs2.2.2)
  rintro _ rfl
  exact ⟨rfl, holds_write.write_of_disjoint (by omega), holds_write⟩

lemma resizeStorage_spec (hb : s.storage = some b)
    (hl : l = mid ++ r) (hroom : mid.length * c.itemSize ≤ bytes) :
    Returns (resizeStorage c s b bytes) (Yields s env fun buffer =>
      buffer.size = bytes ∧ buffer.items.Holds 0 mid) := by
  obtain ⟨buffer, hcell, -, hsize, hold, -, hholds⟩ := h.exists_buffer hb
  have hcounts := h.counts
  rw [hb] at hcounts
  have hcontent : s.heap.content b = some buffer := by
    rw [content, hcell]
    rfl
  rw [hl, holds_append] at hholds
  have hmid : mid.length * c.itemSize ≤ buffer.size := by
    rw [← le_slotsOf]
    rw [hl, length_append] at hold
    omega
  refine (editResize_spec hcounts hcontent hsize hholds.1 hmid bytes hroom).bind ?_
  rintro ⟨heap, sb⟩ ⟨hcounts', hkeeps, hunused, resized, hcontent', hbytes, hlimit, hholds'⟩
  exact ⟨rfl, hkeeps, resized, ⟨hcounts', ⟨sb, rfl, hunused, hcontent'⟩, hbytes ▸ hlimit⟩,
    hbytes, hholds'⟩

end

/-! ## Room between items -/

/-- `amount` slots between `l` and `r`. -/
structure Room (c : Config α) (l r : List α) (amount : Nat) (buffer : Buffer α) : Prop where
  front : buffer.items.Holds 0 l
  back : buffer.items.Holds (l.length + amount) r
  fits : l.length + amount + r.length ≤ slotsOf c buffer

lemma grownSize_spec (c : Config α) (newSize : Nat) :
    Returns (grownSize c newSize) fun bytes => newSize * c.itemSize ≤ bytes := by
  refine ensures_ite (fun _ => rfl) fun _ => ensures_ite (fun _ => rfl) fun _ => ?_
  exact Nat.mul_le_mul_right c.itemSize (by omega)

lemma enlarge_spec (h : Sees c s env (l ++ r)) (amount : Nat) :
    Returns (enlarge c s l.length amount) (Yields s env (Room c l r amount)) := by
  have hcount := h.count
  rw [length_append] at hcount
  have hsum : l.length + amount + r.length = s.count + amount := by omega
  have hrest : s.count - l.length = r.length := by omega
  refine (grownSize_spec c (s.count + amount)).bind fun bytes hbytes => ?_
  have hfits : ∀ buffer : Buffer α, buffer.size = bytes →
      l.length + amount + r.length ≤ slotsOf c buffer := by
    intro buffer hsize
    rw [le_slotsOf, hsum, hsize]
    exact hbytes
  have hrelocate : Returns
      (relocate c s bytes l.length (l.length + amount) l.length (s.count - l.length))
      (Yields s env (Room c l r amount)) := by
    rw [hrest]
    refine (relocate_spec h rfl (append_nil (l ++ r)).symm (Nat.le_add_right _ amount)
      (hsum ▸ hbytes)).mono fun s' hs' => hs'.mono ?_
    rintro buffer ⟨hsize, hfront, hback⟩
    exact ⟨hfront, hback, hfits buffer hsize⟩
  cases hb : s.storage with
  | none => exact hrelocate
  | some b =>
    refine ensures_ite (fun hresize => ?_) fun _ => hrelocate
    obtain rfl : r = [] := eq_nil_of_length_eq_zero (by omega)
    have hroom : l.length * c.itemSize ≤ (s.count + amount) * c.itemSize :=
      Nat.mul_le_mul_right c.itemSize (by omega)
    refine (resizeStorage_spec h hb rfl (hroom.trans hbytes)).mono fun s' hs' => hs'.mono ?_
    rintro buffer ⟨hsize, hfront⟩
    exact ⟨hfront, holds_nil, hfits buffer hsize⟩

/-- The items behind the gap move up, which must not be onto themselves. -/
lemma openGap_spec (h : Sees c s env (l ++ r)) (hb : s.storage ≠ none) (amount : Nat)
    (hmove : amount ≠ 0 ∨ r = [] ∨ c.useTrivialMove) (hslots : s.count + amount ≤ slots c s) :
    Returns (openGap c s l.length amount) (Yields s env (Room c l r amount)) := by
  have hcount := h.count
  rw [length_append] at hcount
  refine (editArrayImpl_spec h hb).bind fun s1 hs1 => ?_
  obtain ⟨buffer, howns, hsame, hholds⟩ := hs1.owns
  rw [holds_append, zero_add] at hholds
  have hcount1 := hs1.count
  refine ensures_ite (fun hinside => ?_) fun hend => ?_
  · have hrest : s1.count - l.length = r.length := by omega
    have hne : r ≠ [] := by
      rintro rfl
      exact hinside (by rw [hcount1, hcount]; rfl)
    obtain ⟨items, hmoved, hback, hfront⟩ := moveForward_spec hholds.2
      (Nat.le_add_right l.length amount)
      (hmove.imp (by omega) fun h => h.resolve_left hne) (by omega)
    rw [← hrest] at hmoved
    have hfits : l.length + amount + r.length ≤ slotsOf c { buffer with items } := by
      show _ ≤ slotsOf c buffer
      omega
    exact (howns.modifyStorage { buffer with items } hmoved rfl
      ⟨hholds.1.congr fun i _ hi => hfront i (by omega), hback, hfits⟩).mono fun s2 => hs1.trans
  · obtain rfl : r = [] := eq_nil_of_length_eq_zero (by omega)
    refine hs1.mono ?_
    rintro buffer ⟨hsame, hholds⟩
    refine ⟨(holds_append.mp hholds).1, holds_nil, ?_⟩
    omega

/-- `_grow` makes room between `l` and `r`, or finds nothing to make room for. -/
lemma grow_spec (h : Sees c s env (l ++ r)) (amount : Nat)
    (hmove : amount ≠ 0 ∨ r = [] ∨ c.useTrivialMove) :
    Returns (grow c s l.length amount) fun (s', location) =>
      match location with
      | some location => location = l.length ∧ s'.count = l.length + amount + r.length ∧
          s.heap.Keeps env s'.heap ∧ ∃ buffer, Owns s' env buffer ∧ Room c l r amount buffer
      | none => amount = 0 ∧ Becomes c s env (l ++ r) s' := by
  have hcount := h.count
  rw [length_append] at hcount
  have hroom : Returns (makeRoom c s l.length amount (slots c s)) fun s' =>
      (s' = s ∧ s.count + amount = 0 ∧ s.storage = none) ∨ Yields s env (Room c l r amount) s' := by
    refine ensures_ite (fun _ => (enlarge_spec h amount).mono fun _ => .inr) fun henough => ?_
    cases hb : s.storage with
    | none =>
      have hempty : s.count + amount = 0 := by
        have hslots : slots c s = 0 := by simp [slots, hb]
        omega
      have hend : ¬ l.length ≠ s.count := by omega
      rw [openGap, editArrayImpl, hb]
      exact ensures_ite (fun hinside => absurd hinside hend) fun _ => .inl ⟨rfl, hempty, rfl⟩
    | some b =>
      exact (openGap_spec h (by simp [hb]) amount hmove (by omega)).mono fun _ => .inr
  refine ensures_ite (fun _ => rfl) fun _ => ?_
  rw [h.capacity_eq]
  refine hroom.bind fun s1 => ?_
  rintro (⟨rfl, hempty, hb⟩ | hyields)
  · obtain rfl : amount = 0 := by omega
    have hlocation : itemLocation c s1 l.length = .ok none := by
      rw [itemLocation, capacity, hb]
      rfl
    show Returns (itemLocation c s1 l.length >>= _) _
    rw [hlocation]
    exact ⟨rfl, h, refl⟩
  · obtain ⟨buffer, howns, hfront, hback, hfits⟩ := hyields.owns
    have hlocation : itemLocation c s1 l.length =
        .ok (if l.length < slotsOf c buffer then some l.length else none) := by
      rw [itemLocation, howns.capacity_eq]
      rfl
    show Returns (itemLocation c s1 l.length >>= _) _
    rw [hlocation]
    by_cases hslot : l.length < slotsOf c buffer
    · rw [if_pos hslot]
      exact ⟨rfl, by dsimp only; omega, hyields.keeps, buffer, { howns with }, hfront, hback, hfits⟩
    · -- no slot from there on: nothing was asked for, at the end of a full buffer
      obtain rfl : amount = 0 := by omega
      obtain rfl : r = [] := eq_nil_of_length_eq_zero (by omega)
      rw [if_neg hslot, append_nil]
      have hbecomes : Becomes c s env l { s1 with count := l.length } :=
        (hyields.mono fun buffer hroom => ⟨hroom.front, hroom.fits⟩).becomes
      have hsame : l.length = s.count := by rw [hcount]; rfl
      rw [hsame] at hbecomes
      exact ⟨rfl, hbecomes⟩

/-! ## Items taken out -/

lemma slots_lt (h : Sees c s env l) : slots c s < sizeMax := by
  have hlimit : sizeLimit < sizeMax := by decide
  cases hb : s.storage with
  | none => simp [slots, hb, sizeMax]
  | some b =>
    obtain ⟨buffer, -, -, hsize, -, hslots, -⟩ := h.exists_buffer hb
    have hle : slotsOf c buffer ≤ buffer.size := Nat.div_le_self _ _
    omega

variable (h : Sees c s env (l ++ mid ++ r))

include h

/-- Within the vector the arithmetic of `_shrink` does not wrap. -/
lemma shrink_range :
    s.count - mid.length = l.length + r.length ∧
      (l.length + mid.length) % sizeMax = l.length + mid.length ∧
      (sizeMax + (s.count - mid.length) - l.length) % sizeMax = r.length := by
  have hcount := h.count
  have hle := h.length_le
  have hlt := slots_lt h
  simp only [length_append] at hcount hle
  have hnew : s.count - mid.length = l.length + r.length := by omega
  have hnum : sizeMax + (s.count - mid.length) - l.length = r.length + sizeMax := by omega
  refine ⟨hnew, Nat.mod_eq_of_lt (by omega), ?_⟩
  rw [hnum, Nat.add_mod_right, Nat.mod_eq_of_lt (by omega)]

omit h in
/-- The smaller buffer has room for what is left. -/
theorem reduced_room (h : Sees c s env l) {newSize : Nat} (hsmall : newSize < slots c s / 2) :
    newSize * c.itemSize ≤ max kMinVectorCapacity (newSize * 2) * c.itemSize % sizeMax := by
  rcases eq_zero_or_pos newSize with rfl | hpos
  · simp
  · obtain ⟨b, hb⟩ : ∃ b, s.storage = some b := by
      refine ne_none_iff_exists'.mp fun hnone => ?_
      simp [slots, hnone] at hsmall
    obtain ⟨buffer, -, -, hsize, -, hslots, -⟩ := h.exists_buffer hb
    have hcapacity : max kMinVectorCapacity (newSize * 2) ≤ slotsOf c buffer := by
      simp only [kMinVectorCapacity]
      omega
    have hlimit : sizeLimit < sizeMax := by decide
    rw [Nat.mod_eq_of_lt (lt_of_le_of_lt (le_slotsOf.mp hcapacity) (by omega))]
    exact Nat.mul_le_mul_right _ (by omega)

lemma reduce_spec (hb : s.storage = some b) (hsmall : s.count - mid.length < slots c s / 2) :
    Returns (reduce c s b l.length mid.length) (Yields s env (Carries c (l ++ r))) := by
  obtain ⟨hnew, hfrom, hnum⟩ := shrink_range h
  have hroom := reduced_room h hsmall
  rw [reduce]
  simp only [hfrom, hnum]
  rw [hnew] at hroom ⊢
  refine ensures_ite (fun hend => ?_) fun _ => ?_
  · obtain rfl : r = [] := eq_nil_of_length_eq_zero (by omega)
    rw [append_assoc] at h
    refine (resizeStorage_spec h hb rfl hroom).mono fun s' hs' => hs'.mono ?_
    rintro buffer ⟨hsize, hholds⟩
    rw [append_nil]
    exact ⟨hholds, by rw [le_slotsOf, hsize]; exact hroom⟩
  · have hmoved : l ++ mid ++ r = l ++ mid ++ r ++ [] := by simp
    have hkeep : l ++ mid ++ r = l ++ (mid ++ r) := append_assoc _ _ _
    have hstart : l.length + mid.length = (l ++ mid).length := length_append.symm
    rw [hstart]
    refine (relocate_spec h hkeep hmoved le_rfl hroom).mono fun s' hs' => hs'.mono ?_
    rintro buffer ⟨hsize, hfront, hback⟩
    refine ⟨holds_append.mpr ⟨hfront, by rwa [zero_add]⟩, ?_⟩
    rw [length_append, le_slotsOf, hsize]
    exact hroom

lemma closeGap_spec (hb : s.storage ≠ none) (hmove : mid ≠ [] ∨ r = [] ∨ c.useTrivialMove) :
    Returns (closeGap c s l.length mid.length) (Yields s env (Carries c (l ++ r))) := by
  obtain ⟨hnew, hfrom, hnum⟩ := shrink_range h
  have hle := h.length_le
  simp only [length_append] at hle
  rw [closeGap]
  simp only [hfrom, hnum]
  refine (editArrayImpl_spec h hb).bind fun s1 hs1 => ?_
  obtain ⟨buffer, howns, hsame, hholds⟩ := hs1.owns
  simp only [holds_append, zero_add, length_append] at hholds
  obtain ⟨⟨hfront, hmid⟩, hback⟩ := hholds
  obtain ⟨items, hdestroy, hothers⟩ := destroyItems_spec (c := c) (by omega) hmid
  have hfront' : items.Holds 0 l := hfront.congr fun i _ hi => hothers i (by omega)
  have hback' : items.Holds (l.length + mid.length) r :=
    hback.congr fun i hi _ => hothers i (by omega)
  have hslots : slotsOf c { buffer with items } = slots c s := hsame
  refine (howns.modifyStorage { buffer with items } hdestroy rfl
    rfl).bind fun s2 hs2 => ?_
  obtain ⟨_, howns2, rfl⟩ := hs2.owns
  refine ensures_ite (fun hinside => ?_) fun hend => ?_
  · have hne : r ≠ [] := by
      rintro rfl
      exact hinside (by rw [hnew]; rfl)
    have hdown : l.length < l.length + mid.length ∨ c.useTrivialMove :=
      hmove.imp (fun hmid => Nat.lt_add_of_pos_right (length_pos_iff.mpr hmid))
        fun h => h.resolve_left hne
    have hfits : l.length + mid.length + r.length ≤ slotsOf c { buffer with items } := by omega
    obtain ⟨items', hmoved, hheld, hkept⟩ :=
      moveBackward_spec hback' (Nat.le_add_right l.length mid.length) hdown hfits
    refine (howns2.modifyStorage { buffer with items := items' } hmoved rfl ⟨?_, ?_⟩).mono
      fun s3 hs3 => (hs1.trans hs2).trans hs3
    · rw [holds_append, zero_add]
      exact ⟨hfront'.congr fun i _ hi => hkept i (by omega), hheld⟩
    · show _ ≤ slotsOf c buffer
      rw [length_append]
      omega
  · obtain rfl : r = [] := eq_nil_of_length_eq_zero (by omega)
    refine (hs1.trans hs2).mono ?_
    rintro _ rfl
    rw [append_nil]
    exact ⟨hfront', by omega⟩

/-- `_shrink` takes out the items of `mid`. -/
lemma shrink_spec (hmove : mid ≠ [] ∨ r = [] ∨ c.useTrivialMove ∨ s.count < slots c s / 2) :
    Returns (shrink c s l.length mid.length) (Becomes c s env (l ++ r)) := by
  have hcount := h.count
  simp only [length_append] at hcount
  rw [shrink]
  cases hb : s.storage with
  | none =>
    have hstored := h.stored
    rw [hb] at hstored
    have hnil : l ++ mid ++ r = [] := hstored
    obtain ⟨rfl, rfl, rfl⟩ : l = [] ∧ mid = [] ∧ r = [] := by simpa using hnil
    exact ⟨h, refl⟩
  | some b =>
    have hstorage : s.storage ≠ none := by simp [hb]
    refine ensures_ite (fun hover => by omega) fun _ => ?_
    have htake : Returns (takeOut c s b l.length mid.length (slots c s)) (Yields s env
        (Carries c (l ++ r))) := by
      refine ensures_ite (reduce_spec h hb) fun hlarge => closeGap_spec h hstorage ?_
      rcases hmove with hmid | hr | htrivial | hsmall
      · exact .inl hmid
      · exact .inr (.inl hr)
      · exact .inr (.inr htrivial)
      · refine .inl fun hmid => hlarge ?_
        rw [hmid]
        exact hsmall
    rw [h.capacity_eq]
    refine htake.bind fun s' hs' => ?_
    have hbecomes := hs'.becomes
    rw [length_append, ← (shrink_range h).1] at hbecomes
    exact hbecomes

end LibUtils
