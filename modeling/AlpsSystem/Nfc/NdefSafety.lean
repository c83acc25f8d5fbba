import AlpsSystem.Nfc.Ndef

/-!
# What a validated message confines

* `records_confined_iff` — a validated message is confined if no record is longer than 4 GiB: the
  lengths of a record are added in 32 bits.
-/

namespace Nfc.Ndef

open List

variable {m : Memory} {p q pEnd msgLen offset len : Nat} {allowChunks : Bool} {recs : List Nat}

/-! ## Definitions -/

/-- `NDEF_MsgGetNextRec` leads from the first record through all of them to the last. -/
def Visits (m : Memory) : List Nat → Prop
  | [] => False
  | [p] => msgGetNextRec m p = none
  | p :: q :: rest => msgGetNextRec m p = some q ∧ Visits m (q :: rest)

/-- A field lies in the message. -/
def RecField.Inside (f : RecField) (msgLen : Nat) : Prop :=
  match f.pointer with
  | none => f.len = 0
  | some offset => offset + f.len ≤ msgLen

instance (f : RecField) (msgLen : Nat) : Decidable (f.Inside msgLen) :=
  match h : f.pointer with
  | none => decidable_of_iff (f.len = 0) (by simp [RecField.Inside, h])
  | some offset => decidable_of_iff (offset + f.len ≤ msgLen) (by simp [RecField.Inside, h])

structure RecInside (m : Memory) (msgLen p : Nat) : Prop where
  type : (recGetType m p).Inside msgLen
  id : (recGetId m p).Inside msgLen
  payload : (recGetPayload m p).Inside msgLen

/-- Nothing but the first `msgLen` bytes belongs to the message. -/
structure Confined (m : Memory) (msgLen : Nat) (recs : List Nat) : Prop where
  first : recs.head? = some 0
  visits : Visits m recs
  count : ∀ fuel, recs.length ≤ fuel → msgGetNumRecs fuel m = some recs.length
  last : ∀ p ∈ recs.getLast?, p + msgGetRecLength m p = msgLen
  inside : ∀ p ∈ recs, RecInside m msgLen p

/-- A record that is reached by walking the message. -/
inductive Reaches (m : Memory) : Nat → Prop
  | first : Reaches m 0
  | next {p q : Nat} : Reaches m p → msgGetNextRec m p = some q → Reaches m q

/-! ## Fuel -/

lemma lt_recEnd (m : Memory) (p : Nat) : p + 3 ≤ recEnd m p := by
  unfold recEnd headerEnd payloadLenSize
  split <;> omega

/-! ## What has been checked -/

/-- What the loop over the records from `p` on has checked. -/
structure Walked (m : Memory) (pEnd p : Nat) (rest : List Nat) : Prop where
  visits : Visits m (p :: rest)
  recEnd_le : ∀ q ∈ p :: rest, recEnd m q ≤ pEnd
  last : ∀ q ∈ (p :: rest).getLast?, recEnd m q = pEnd
  count : ∀ count fuel, rest.length < fuel →
    countRecs m fuel count p = some (count + (rest.length + 1))

lemma walked_last (hme : isMessageEnd (m p)) (hend : recEnd m p = pEnd) :
    Walked m pEnd p [] where
  visits := if_pos hme
  recEnd_le q hq := by rw [mem_singleton.mp hq, hend]
  last q hq := by
    cases hq
    exact hend
  count count fuel hlt := by
    obtain ⟨fuel, rfl⟩ := Nat.exists_eq_add_of_lt hlt
    simp [countRecs, hme]

lemma Walked.cons {rest : List Nat} (hme : ¬ isMessageEnd (m p))
    (h : Walked m pEnd (recEnd m p) rest) : Walked m pEnd p (recEnd m p :: rest) where
  visits := ⟨if_neg hme, h.visits⟩
  recEnd_le q hq := by
    rcases mem_cons.mp hq with rfl | hq
    · have hle := h.recEnd_le (recEnd m q) mem_cons_self
      have hlt := lt_recEnd m (recEnd m q)
      omega
    · exact h.recEnd_le q hq
  last := by
    exact h.last
  count count fuel hlt := by
    cases fuel with
    | zero => cases hlt
    | succ fuel =>
      unfold countRecs
      rw [if_neg hme, h.count (count + 1) fuel (by simpa using hlt), length_cons]
      congr 1
      omega

/-- The loop of the validation walks the records that the other functions walk. -/
lemma validateRecords_ok :
    ∀ {fuel : Nat} {first inChunk : Bool} {p : Nat},
      validateRecords m pEnd allowChunks fuel first inChunk p = .ok () →
        ∃ rest, Walked m pEnd p rest
  | 0, _, _, _, h => nomatch h
  | fuel + 1, first, inChunk, p, h => by
    unfold validateRecords at h
    split at h
    · split at h
      · cases h
      · split at h
        · next hme =>
          split at h
          · cases h
          · next hend => exact ⟨[], walked_last hme (not_not.mp hend)⟩
        · next hme =>
          obtain ⟨rest, hwalked⟩ := validateRecords_ok h
          exact ⟨_, hwalked.cons hme⟩
    · cases h

lemma msgValidate_ok (h : msgValidate m msgLen allowChunks = .ok ()) :
    ∃ rest, Walked m msgLen 0 rest := by
  unfold msgValidate at h
  split at h
  · cases h
  split at h
  · cases h
  split at h
  · cases h
  · exact validateRecords_ok h

/-! ## Fields -/

lemma fieldAt_inside (h : offset + len ≤ msgLen) : (fieldAt offset len).Inside msgLen := by
  unfold fieldAt RecField.Inside
  by_cases hzero : len = 0
  · simp [hzero]
  · simpa [hzero] using h

/-- A record whose lengths do not wrap around lies in the message, with all its fields. -/
lemma recInside_of_recEnd (hfits : payloadLen m p + typeLen m p + idLen m p < 2 ^ 32)
    (hle : recEnd m p ≤ msgLen) : RecInside m msgLen p := by
  unfold recEnd bodyLen at hle
  rw [Nat.mod_eq_of_lt hfits] at hle
  exact ⟨fieldAt_inside (by omega), fieldAt_inside (by omega), fieldAt_inside (by omega)⟩

/-- A record whose lengths wrap around has a payload that does not lie in the message. -/
lemma not_recInside (hlen : msgLen < 2 ^ 32)
    (hwrap : 2 ^ 32 ≤ payloadLen m p + typeLen m p + idLen m p) : ¬ RecInside m msgLen p := by
  intro h
  have htype : typeLen m p < 256 := UInt8.toNat_lt _
  have hid : idLen m p < 256 := by
    unfold idLen
    split
    · exact UInt8.toNat_lt _
    · decide
  have hpos : payloadLen m p ≠ 0 := by omega
  have hend : (fieldAt _ (payloadLen m p)).Inside msgLen := h.payload
  simp [fieldAt, RecField.Inside, hpos] at hend
  omega

/-- Walking on from a record that has been visited visits another. -/
lemma Visits.next (h : Visits m recs) (hp : p ∈ recs)
    (hnext : msgGetNextRec m p = some q) : q ∈ recs := by
  induction recs with
  | nil => cases hp
  | cons r recs ih =>
    cases recs with
    | nil =>
      rw [mem_singleton.mp hp, show msgGetNextRec m r = none from h] at hnext
      cases hnext
    | cons r' recs =>
      obtain ⟨hr, hrest⟩ := h
      rcases mem_cons.mp hp with rfl | hp
      · rw [hr] at hnext
        cases hnext
        exact .tail _ mem_cons_self
      · exact .tail _ (ih hrest hp)

lemma Visits.reaches (h : Visits m recs) (hfirst : recs.head? = some 0)
    (hp : Reaches m p) : p ∈ recs := by
  induction hp with
  | first => exact mem_of_head? hfirst
  | next _ hnext ih => exact h.next ih hnext

lemma Visits.of_mem (h : Visits m recs) (hfirst : ∀ r ∈ recs.head?, Reaches m r) :
    ∀ p ∈ recs, Reaches m p := by
  induction recs with
  | nil => nofun
  | cons r recs ih =>
    have hr := hfirst r rfl
    cases recs with
    | nil =>
      intro p hp
      rw [mem_singleton.mp hp]
      exact hr
    | cons r' recs =>
      obtain ⟨hnext, hrest⟩ := h
      intro p hp
      rcases mem_cons.mp hp with rfl | hp
      · exact hr
      · refine ih hrest (fun r'' hr'' => ?_) p hp
        cases hr''
        exact .next hr hnext

/-- **Validation.**  A message that has been validated is confined exactly if the lengths of none
of its records wrap around. -/
theorem records_confined_iff (m : Memory) (msgLen : Nat) (hlen : msgLen < 2 ^ 32)
    (allowChunks : Bool)
    (hvalid : msgValidate m msgLen allowChunks = .ok ()) :
    (∃ recs, Confined m msgLen recs) ↔
      ∀ p, Reaches m p → payloadLen m p + typeLen m p + idLen m p < 2 ^ 32 := by
  constructor
  · rintro ⟨recs, hconfined⟩ p hp
    by_contra hwrap
    have hmem := hconfined.visits.reaches hconfined.first hp
    exact not_recInside hlen (not_lt.mp hwrap) (hconfined.inside p hmem)
  · intro hfits
    obtain ⟨rest, hwalked⟩ := msgValidate_ok hvalid
    have hreaches := hwalked.visits.of_mem fun r hr => by
      cases hr
      exact .first
    refine ⟨0 :: rest, rfl, hwalked.visits, fun fuel hfuel => ?_, fun p hp => ?_, fun p hp => ?_⟩
    · rw [msgGetNumRecs, hwalked.count 0 fuel hfuel, zero_add]
      rfl
    · have hend := hwalked.last p hp
      unfold recEnd headerEnd at hend
      unfold msgGetRecLength
      omega
    · exact recInside_of_recEnd (hfits p (hreaches p hp)) (hwalked.recEnd_le p hp)

/-- Two records: one of a well-known type with an ID, and an external one. -/
def sampleMessage : Memory :=
  Memory.ofList [0x99, 1, 2, 1, 0x54, 0x41, 0xAA, 0xBB, 0x44, 1, 0, 0, 0, 1, 0x78, 0xCC]

theorem confined_sampleMessage :
    msgValidate sampleMessage 16 false = .ok () ∧ (∃ recs, Confined sampleMessage 16 recs) := by
  have hvalid : msgValidate sampleMessage 16 false = .ok () := rfl
  have hvisits : Visits sampleMessage [0, 8] :=
    ⟨by decide, show msgGetNextRec sampleMessage 8 = none by decide⟩
  refine ⟨hvalid,
    (records_confined_iff sampleMessage 16 (by decide) false hvalid).mpr fun p hp => ?_⟩
  have hmem := hvisits.reaches rfl hp
  simp only [mem_cons, not_mem_nil, or_false] at hmem
  rcases hmem with rfl | rfl <;> decide

/-- A record with a payload of 2^32 - 1 bytes and a type of one byte: the sum of the lengths is
zero, so that the message of 6 bytes is valid. -/
theorem wrapped_record_outside :
    let m := Memory.ofList [0xC2, 1, 0xFF, 0xFF, 0xFF, 0xFF]
    msgValidate m 6 false = .ok () ∧ msgGetNumRecs 1 m = some 1 ∧
      recGetPayload m 0 = { pointer := some 7, len := 2 ^ 32 - 1 } ∧
      ¬ (recGetPayload m 0).Inside 6 ∧ ¬ (recGetType m 0).Inside 6 :=
  ⟨rfl, by decide, by decide, by decide, by decide⟩

end Nfc.Ndef
