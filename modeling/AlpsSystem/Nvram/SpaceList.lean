import AlpsSystem.Nvram.Effects

/-!
# The space list of the NVRAM manager

What the commands do to the list of indices `spaces_[0 .. num_spaces_)`: appending,
the swap with the last entry that removes one, changing a lock, and the loop of
`Initialize`.
-/

namespace Nvram

open List

variable {m : NvramManager} {st : Storage} {index i : UInt32} {k : Nat} {e : SpaceListEntry}
  {r : SpaceRecord} {faults : Faults} {header : NvramHeader}

open NvramManager

@[simp] lemma push_indices (m : NvramManager) (index : UInt32) :
    (m.push index).indices = m.indices ++ [index] := by
  simp [push, indices]

lemma mem_push (h : i ∈ m.indices) (index : UInt32) : i ∈ (m.push index).indices := by
  rw [push_indices]
  exact mem_append_left _ h

section

variable (m : NvramManager)

@[simp] lemma readd_indices (e : SpaceListEntry) :
    (m.readd e).indices = m.indices ++ [e.index] := by
  simp [readd, indices]

@[simp] lemma push_initialized (index : UInt32) :
    (m.push index).initialized = m.initialized := rfl

@[simp] lemma readd_initialized (e : SpaceListEntry) :
    (m.readd e).initialized = m.initialized := rfl

@[simp] lemma removeAt_initialized (k : Nat) : (m.removeAt k).initialized = m.initialized := by
  unfold removeAt
  split <;> rfl

@[simp] lemma removeAt_disableCreate (k : Nat) :
    (m.removeAt k).disableCreate = m.disableCreate := by
  unfold removeAt
  split <;> rfl

lemma removeAt_overrun (k : Nat) : (m.removeAt k).overrun = m.overrun := by
  unfold removeAt
  split <;> rfl

@[simp] lemma indices_length : m.indices.length = m.spaces.length :=
  List.length_map _

lemma headerOf_allocated (p : Option UInt32) : (headerOf m p).allocatedIndices = m.indices := by
  unfold headerOf
  split <;> rfl

lemma headerOf_provisional (p : Option UInt32) : (headerOf m p).provisionalIndex = p := by
  unfold headerOf
  split <;> rfl

/-- A manager that creates no more spaces says so in its headers. -/
lemma headerOf_disableCreate {m : NvramManager} (p : Option UInt32) (h : m.disableCreate) :
    (headerOf m p).hasFlag NvramHeader.kFlagDisableCreate := by
  unfold headerOf
  simp only [h]
  show ((0 ||| 1 : UInt32) &&& 1 != 0)
  decide

/-- Changing the locks of an entry keeps its index. -/
lemma updateAt_indices (k : Nat) {f : SpaceListEntry → SpaceListEntry}
    (hf : ∀ e, (f e).index = e.index) : (m.updateAt k f).indices = m.indices := by
  unfold updateAt indices
  refine ext_getElem? ?_
  intro j
  simp only [List.getElem?_map, List.getElem?_modify]
  cases m.spaces[j]? with
  | none => simp
  | some e => by_cases hj : k = j <;> simp [hj, hf]

end

lemma mem_updateAt (h : i ∈ m.indices)
    {f : SpaceListEntry → SpaceListEntry} (hf : ∀ e, (f e).index = e.index) :
    i ∈ (m.updateAt k f).indices := by
  rwa [updateAt_indices m k hf]

/-- Moving the last entry over position `k` and dropping the tail removes the entry at `k`. -/
lemma set_last_dropLast_perm {α : Type} (l : List α) (k : Nat) (hk : k < l.length) (last : α)
    (hl : l.getLast? = some last) : (l[k] :: (l.set k last).dropLast).Perm l := by
  have hne : l ≠ [] := ne_nil_of_length_pos (by omega)
  obtain ⟨init, x, rfl⟩ : ∃ init x, l = init ++ [x] :=
    ⟨l.dropLast, l.getLast hne, (dropLast_append_getLast hne).symm⟩
  obtain rfl : x = last := by simpa using hl
  by_cases hk' : k < init.length
  · have hset : ((init ++ [x]).set k x).dropLast = init.set k x := by
      rw [set_append_left k x hk']
      simp
    have hget : (init ++ [x])[k] = init[k] := getElem_append_left hk'
    rw [hset, hget]
    have hperm : (init.set k x).Perm (x :: init.eraseIdx k) := set_perm_cons_eraseIdx hk' x
    have hback : (init[k] :: init.eraseIdx k).Perm init := getElem_cons_eraseIdx_perm hk'
    calc List.Perm (init[k] :: init.set k x) (init[k] :: x :: init.eraseIdx k) := hperm.cons _
      List.Perm _ (x :: init[k] :: init.eraseIdx k) := List.Perm.swap _ _ _
      List.Perm _ (x :: init) := hback.cons _
      List.Perm _ (init ++ [x]) := (perm_append_singleton x init).symm
  · have hkl : k = init.length := by
      rw [length_append, length_singleton] at hk
      omega
    subst hkl
    simpa using (perm_append_singleton x init).symm

section

variable (he : m.spaces[k]? = some e)

include he

/-- Removing an entry takes it out and moves the others. -/
lemma removeAt_spaces_perm : (e :: (m.removeAt k).spaces).Perm m.spaces := by
  obtain ⟨hk, hget⟩ := List.getElem?_eq_some_iff.mp he
  have hne : m.spaces ≠ [] := ne_nil_of_length_pos (by omega)
  have hl : m.spaces.getLast? = some (m.spaces.getLast hne) := List.getLast?_eq_some_getLast hne
  have hperm := set_last_dropLast_perm m.spaces k hk _ hl
  unfold removeAt
  rw [hl]
  rwa [hget] at hperm

/-- Removing an entry takes its index out and nothing else. -/
lemma removeAt_perm : (e.index :: (m.removeAt k).indices).Perm m.indices :=
  (removeAt_spaces_perm he).map SpaceListEntry.index

/-- The other indices stay. -/
lemma mem_removeAt (hi : i ∈ m.indices) (hne : i ≠ e.index) : i ∈ (m.removeAt k).indices := by
  have h := (removeAt_perm he).mem_iff.mpr hi
  exact (mem_cons.mp h).resolve_left hne

/-- Putting the removed entry back restores the set of indices. -/
lemma readd_removeAt_perm : ((m.removeAt k).readd e).indices.Perm m.indices := by
  rw [readd_indices]
  exact (perm_append_singleton _ _).trans (removeAt_perm he)

end

/-- The position of a space is the position of its index. -/
lemma findIdx_index (m : NvramManager) (i : UInt32) :
    m.spaces.findIdx? (·.index = i) = m.indices.findIdx? (· = i) := by
  unfold indices
  rw [List.findIdx?_map]
  rfl

/-- A listed space is found, when the list fits the array. -/
lemma findSpace_ne_max (hmem : i ∈ m.indices)
    (hlen : m.indices.length ≤ kMaxSpaces) : findSpace m i ≠ kMaxSpaces := by
  intro hfind
  unfold findSpace at hfind
  rw [findIdx_index] at hfind
  obtain ⟨k, hk⟩ : ∃ k, m.indices.findIdx? (· = i) = some k := by
    rw [← Option.isSome_iff_exists, List.findIdx?_isSome]
    exact any_eq_true.mpr ⟨i, hmem, by simp⟩
  obtain ⟨hkl, _⟩ := List.findIdx?_eq_some_iff_getElem.mp hk
  rw [hk] at hfind
  have : k = kMaxSpaces := hfind
  omega

/-- A space the parameter checks of `CreateSpace` let pass is not in the list. -/
lemma not_mem_of_checkCreate {b : Build} {q : CreateSpaceRequest}
    (h : checkCreate b m q = none) : q.index ∉ m.indices ∧ m.spaces.length < kMaxSpaces := by
  unfold checkCreate at h
  simp only at h
  split at h
  · cases h
  rename_i hfind
  split at h
  · cases h
  rename_i hlen
  have hlt : m.spaces.length < kMaxSpaces := Nat.lt_of_succ_le (not_lt.mp hlen)
  refine ⟨?_, hlt⟩
  intro hmem
  rw [not_not] at hfind
  refine findSpace_ne_max hmem ?_ hfind
  rw [indices_length]
  exact le_of_lt hlt

/-- The entry of an opened space carries its index. -/
lemma Opens.transient_index (h : Opens m st index r) : r.transient.index = index := by
  obtain ⟨hpos, hfound, hentry, _⟩ := h
  unfold findSpace at hpos hfound
  cases hk : m.spaces.findIdx? (·.index = index) with
  | none =>
    rw [hk] at hfound
    exact absurd rfl hfound
  | some k =>
    rw [hk] at hpos
    obtain ⟨hkl, hget, _⟩ := List.findIdx?_eq_some_iff_getElem.mp hk
    rw [← show k = r.arrayIndex from hpos, List.getElem?_eq_getElem hkl] at hentry
    rw [← Option.some.inj hentry]
    exact of_decide_eq_true hget

lemma Opens.mem_indices (h : Opens m st index r) : index ∈ m.indices := by
  rw [← h.transient_index]
  exact mem_map_of_mem (mem_of_getElem? h.entry)

/-! ## The loop of `Initialize` -/

/-- Whether the loop enters an index of the header. -/
def entered (p : Option UInt32) (seen : Bool) (i : UInt32) : Bool := p ≠ some i || seen

/-- The loop appends the listed indices, except for a provisional one without data. -/
lemma initLoop_indices (p : Option UInt32) (seen : Bool) (l : List UInt32) :
    ∀ (m : NvramManager) (d : Bool),
      (initLoop p seen l m d).1.indices = m.indices ++ l.filter (entered p seen) := by
  induction l with
  | nil => intro m d; simp [initLoop]
  | cons i l ih =>
    intro m d
    unfold initLoop
    split
    · rename_i hp
      subst hp
      cases seen with
      | false | true => simp [ih, entered]
    · rename_i hp
      simp [ih, entered, hp]

/-- A provisional space is left to be deleted when the loop did not enter it. -/
lemma initLoop_deletes (i : UInt32) (seen : Bool) (l : List UInt32) :
    ∀ (m : NvramManager) (d : Bool),
      (initLoop (some i) seen l m d).2 = (d && !(seen && decide (i ∈ l))) := by
  induction l with
  | nil => intro m d; simp [initLoop]
  | cons j l ih =>
    intro m d
    unfold initLoop
    by_cases hj : i = j
    · subst hj
      cases seen <;> simp [ih]
    · rw [if_neg (by simpa using hj), ih]
      simp [hj]

lemma initLoop_frame (p : Option UInt32) (seen : Bool) (l : List UInt32) :
    ∀ (m : NvramManager) (d : Bool), (initLoop p seen l m d).1.initialized = m.initialized ∧
      (initLoop p seen l m d).1.overrun = m.overrun := by
  induction l with
  | nil => intro m d; exact ⟨rfl, rfl⟩
  | cons i l ih =>
    intro m d
    unfold initLoop
    split
    · split
      · exact ih m d
      · exact ih (m.push i) false
    · exact ih (m.push i) d

lemma recovered_not_initialized (h : m.initialized = false) :
    (recovered st faults header m).1.initialized ≠ true := by
  have hsame : (recovered st faults header m).1.initialized = m.initialized :=
    (initLoop_frame _ _ _ _ _).1
  rw [hsame, h]
  nofun

lemma header_ne_of_blank {hd : NvramHeader}
    (hnone : st.header = none ∨ .notFound ∈ faults .loadHeader) (hf : ∀ c, .notFound ∉ faults c) :
    st.header ≠ some hd := by
  rw [hnone.resolve_right (hf _)]
  nofun

lemma recovered_indices (st : Storage) (faults : Faults) (header : NvramHeader) (m : NvramManager) :
    (recovered st faults header m).1.indices = m.indices ++ header.allocatedIndices.filter
      (entered header.provisionalIndex (provisionalSeen st faults header)) :=
  initLoop_indices _ _ _ _ _

/-- The recovery deletes a provisional space it did not enter. -/
lemma recovered_deletes (hp : header.provisionalIndex = some i) :
    (recovered st faults header m).2 ↔
      (i ∈ header.allocatedIndices → dataSeen st faults i = false) := by
  unfold recovered provisionalSeen
  rw [hp, Prod.map_snd, id_eq, initLoop_deletes]
  simp only [Option.isSome_some, Bool.true_and, Bool.not_eq_true', Bool.and_eq_false_iff,
    decide_eq_false_iff_not]
  tauto

end Nvram
