import AlpsSystem.Nvram.RoundTrip

/-!
# Data that is cut off

What `DecodeObject` does with the beginning of an object, and `Decode` with a request
whose fields declare more than there is.

A nested stream that runs out of data resets `pos_` to where its delegate stands, so
that the second `Done` notices that something was read and more was declared.  Where
there was nothing to read, it does not: a field of which only the tag and the size are
there passes for an empty message.

* `truncation_rejected_iff` — when data that is cut off is rejected.
-/

namespace Nvram

open List

variable {p : Platform} {S M T : Type} {tag : Tag} {len n pos end_ k : Nat} {Q : Tag → Blob → Prop}
  {r r' : ProtoReader} {descriptors : List (FieldDescriptor S)} {y y' : S} {rest : Blob}

/-! ## The fields of a message -/

/-- Where a field ends after its tag; one that declares too much takes what is left. -/
def fieldEnd (tag : Tag) (rest : Blob) : Nat := (fieldLength tag rest).getD rest.length

/-- The fields of a message in `bytes`, each with its tag and what the message has after
the tag; `stale` is the size of the field before. -/
def scan (p : Platform) : (fuel stale : Nat) → (bytes : Blob) → List (Tag × Blob)
  | 0, _, _ => []
  | fuel + 1, stale, bytes =>
    if bytes = [] then []
    else
      match readTag p stale bytes with
      | none => []
      | some (tag, n) =>
        (tag, bytes.drop n) ::
          scan p fuel tag.fieldSize ((bytes.drop n).drop (fieldEnd tag (bytes.drop n)))

/-- The fields of a message; each takes at least a byte. -/
def fieldsOf (p : Platform) (bytes : Blob) : List (Tag × Blob) := scan p bytes.length 0 bytes

/-- A field with a declared size lies inside its message. -/
def SizeInside (tag : Tag) (rest : Blob) : Prop :=
  tag.wireType = some .kLengthDelimited → tag.fieldSize ≤ rest.length

instance (tag : Tag) (rest : Blob) : Decidable (SizeInside tag rest) :=
  inferInstanceAs (Decidable (_ → _))

lemma sizeInside_of_length (h : fieldLength tag rest = some len) : SizeInside tag rest := by
  intro hwire
  unfold fieldLength at h
  rw [if_neg (by rw [hwire]; nofun)] at h
  split at h
  · assumption
  · cases h

/-! ## Decoders without messages -/

/-- The decoder takes a field as long as its tag says. -/
def Flat (wireType : WireType) (decode : T → ProtoReader → Option (T × ProtoReader)) : Prop :=
  ∀ (t : T) (r : ProtoReader) (t' : T) (r' : ProtoReader), r.Sound → r.wireType = some wireType →
    decode t r = some (t', r') → ∃ len, fieldLength r.tag r.window = some len ∧ r' = r.moved len

open InputStream InputStream.Within Option Payload ProtoReader

/-- What is read may be put into something else. -/
lemma Flat.bind {wireType : WireType} {decode : M → ProtoReader → Option (M × ProtoReader)}
    (h : Flat wireType decode) (g : T → M) (f : T → M → T) :
    Flat wireType (fun t r => do
      let (m, r) ← decode (g t) r
      some (f t m, r)) := by
  intro t r t' r' hr hwire hdec
  obtain ⟨⟨m, r1⟩, hm, heq⟩ := bind_eq_some_iff.mp hdec
  cases heq
  exact h _ _ _ _ hr hwire hm

lemma varintCodec_flat (type : VarintCompatible T) : Flat .kVarint (varintCodec p type).decode := by
  intro t r t' r' hr hwire h
  unfold varintCodec at h
  dsimp only at h
  rw [readVarint_eq hr hwire] at h
  unfold fieldLength
  rw [if_pos (show r.tag.wireType = some .kVarint from hwire)]
  cases hparse : parseVarint r.window with
  | none =>
    rw [hparse] at h
    cases h
  | some t =>
    rw [hparse] at h
    simp only [Option.map_some, bind_eq_bind, bind_some] at h
    split at h
    · cases h
      exact ⟨t.2, rfl, rfl⟩
    · cases h

lemma blobCodec_flat : Flat .kLengthDelimited (blobCodec p).decode := by
  intro t r t' r' hr hwire h
  unfold blobCodec at h
  dsimp only at h
  rw [readLengthDelimited_eq hr hwire] at h
  split at h
  · split at h
    case isTrue hle =>
      cases h
      refine ⟨r.fieldSize, ?_, rfl⟩
      unfold fieldLength
      rw [if_neg (show ¬ r.tag.wireType = some .kVarint by
        rw [show r.tag.wireType = _ from hwire]; nofun)]
      exact if_pos hle
    case isFalse => cases h
  · cases h

lemma u32List_flat : Flat .kVarint (Messages.u32ListField p).decode :=
  (varintCodec_flat uint32Type).bind (fun _ => 0) fun vector element => vector ++ [element]

lemma optional_flat : Flat .kVarint (optionalCodec (Messages.u32Field p) 0).decode :=
  (varintCodec_flat uint32Type).bind (fun _ => 0) fun _ value => some value

/-- A table without messages in its rows. -/
def FlatFields (descriptors : List (FieldDescriptor S)) : Prop :=
  ∀ d ∈ descriptors, Flat d.wireType d.decode

lemma FlatFields.nil : FlatFields ([] : List (FieldDescriptor S)) := forall_mem_nil _

lemma FlatFields.field {get : S → M} {set : S → M → S} {c : Codec M} (h : Flat c.wireType c.decode)
    (hrest : FlatFields descriptors) : FlatFields (makeField n get set c :: descriptors) :=
  forall_mem_cons.mpr ⟨h.bind get set, hrest⟩

/-! ## Runs of the decoder -/

/-- A round of the decoder finds a field for which `Q` holds and stands behind it. -/
def RoundTo (p : Platform) (Q : Tag → Blob → Prop) (r r' : ProtoReader) : Prop :=
  ∃ tag n, readTag p r.fieldSize r.window = some (tag, n) ∧ Q tag (r.window.drop n) ∧
    r'.data = r.data ∧ r'.fieldSize = tag.fieldSize ∧
    r'.stream = r.stream.moved (n + fieldEnd tag (r.window.drop n))

lemma fieldEnd_le (tag : Tag) (rest : Blob) : fieldEnd tag rest ≤ rest.length := by
  unfold fieldEnd
  cases h : fieldLength tag rest with
  | none => exact le_rfl
  | some len => exact fieldLength_le h

lemma fieldEnd_of_length (h : fieldLength tag rest = some len) : fieldEnd tag rest = len := by
  unfold fieldEnd
  rw [h]
  rfl

lemma RoundTo.sound (h : RoundTo p Q r r') (hr : r.Sound) : r'.Sound := by
  obtain ⟨tag, n, htag, -, hdata, -, hstream⟩ := h
  have hn := (readTag_le htag).2
  have hend := fieldEnd_le tag (r.window.drop n)
  rw [length_drop] at hend
  unfold ProtoReader.Sound
  rw [hdata, hstream]
  exact moved hr (show _ ≤ r.window.length by omega)

lemma window_of_moved (hdata : r'.data = r.data)
    (hstream : r'.stream = r.stream.moved (n + fieldEnd tag (r.window.drop n))) :
    r'.window = (r.window.drop n).drop (fieldEnd tag (r.window.drop n)) := by
  unfold ProtoReader.window at *
  rw [hdata, hstream, window_moved, drop_drop]

/-- A run of the decoder has been through all the fields of the message. -/
lemma decodeLoop_scan {P : InputStream → Prop} (hP : ∀ s n, P s → P (s.moved n))
    (hround : ∀ {y y' : S} {r r' : ProtoReader}, r.Sound → P r.stream →
      decodeField p descriptors y r = some (y', r') → RoundTo p Q r r') {fuel : Nat} :
    ∀ {y y' : S} {r r' : ProtoReader}, r.Sound → P r.stream →
      decodeLoop p descriptors fuel y r = some (y', r') →
      (∀ k, ∀ f ∈ scan p k r.fieldSize r.window, Q f.1 f.2) ∧ r'.data = r.data ∧
        r'.stream = (r.stream.moved r.window.length).advance.2 := by
  induction fuel with
  | zero => intro y y' r r' _ _ h; cases h
  | succ fuel ih =>
    intro y y' r r' hr hPr h
    rw [decodeLoop] at h
    by_cases hw : r.window = []
    · rw [done_of_nil hr hw] at h
      cases h
      refine ⟨fun k f hf => ?_, rfl, ?_⟩
      · rw [hw] at hf
        cases k <;> cases hf
      · rw [hw, length_nil, moved_zero]
    · rw [done_of_ne_nil hr hw] at h
      obtain ⟨⟨y1, r1⟩, hfield, hloop⟩ := bind_eq_some_iff.mp h
      have hto := hround hr hPr hfield
      have hr1 := hto.sound hr
      obtain ⟨tag, n, htag, hQ, hdata, hsize, hstream⟩ := hto
      have hwindow : r1.window = (r.window.drop n).drop (fieldEnd tag (r.window.drop n)) :=
        window_of_moved hdata hstream
      obtain ⟨hfields, hdata', hend⟩ := ih hr1 (hstream ▸ hP _ _ hPr) hloop
      refine ⟨fun k f hf => ?_, hdata'.trans hdata, ?_⟩
      · cases k with
        | zero => cases hf
        | succ k =>
          rw [scan, if_neg hw, htag] at hf
          rcases mem_cons.mp hf with rfl | hf
          · exact hQ
          · rw [hsize, hwindow] at hfields
            exact hfields k f hf
      · rw [hend, hstream, moved_moved, hwindow]
        have hn := (readTag_le htag).2
        have hfe := fieldEnd_le tag (r.window.drop n)
        rw [length_drop] at hfe
        rw [length_drop, length_drop]
        congr 3
        omega

/-- A round that succeeds has skipped a field or given it to a row of the table. -/
lemma decodeField_cases (hr : r.Sound) (h : decodeField p descriptors y r = some (y', r')) :
    ∃ tag n, readTag p r.fieldSize r.window = some (tag, n) ∧
      ((findDescriptor descriptors tag.fieldNumber tag.wireType = none ∧
          ∃ len, fieldLength tag (r.window.drop n) = some len ∧ r' = (r.tagged tag n).moved len) ∨
        ∃ d ∈ descriptors, findDescriptor descriptors tag.fieldNumber tag.wireType = some d ∧
          tag.wireType = some d.wireType ∧ d.decode y (r.tagged tag n) = some (y', r')) := by
  cases htag : readTag p r.fieldSize r.window with
  | none =>
    unfold decodeField at h
    rw [readWireTag_eq hr, htag] at h
    cases h
  | some t =>
    obtain ⟨tag, n⟩ := t
    refine ⟨tag, n, rfl, ?_⟩
    cases hfind : findDescriptor descriptors tag.fieldNumber tag.wireType with
    | none =>
      have hr1 : (r.tagged tag n).Sound := moved hr (readTag_le htag).2
      have hwindow : (r.tagged tag n).window = r.window.drop n := window_moved _ _ _
      rw [decodeField_eq hr htag, hfind, skipField_eq hr1, hwindow] at h
      obtain ⟨r1, hr1, heq⟩ := Option.map_eq_some_iff.mp h
      obtain ⟨len, hlen, rfl⟩ := Option.map_eq_some_iff.mp hr1
      cases heq
      exact .inl ⟨rfl, len, hlen, rfl⟩
    | some d =>
      have hmatch := List.find?_some hfind
      rw [decide_eq_true_eq] at hmatch
      rw [decodeField_eq hr htag, hfind] at h
      exact .inr ⟨d, mem_of_find?_eq_some hfind, rfl, hmatch.2, h⟩

lemma RoundTo.of_moved
    (htag : readTag p r.fieldSize r.window = some (tag, n)) (hQ : Q tag (r.window.drop n))
    (hlen : fieldEnd tag (r.window.drop n) = len) (hr' : r' = (r.tagged tag n).moved len) :
    RoundTo p Q r r' := by
  refine ⟨tag, n, htag, hQ, by rw [hr']; rfl, by rw [hr']; rfl, ?_⟩
  rw [hr', hlen]
  exact moved_moved _ _ _

/-! ## Messages without messages -/

lemma flat_round (hflat : FlatFields descriptors) (hr : r.Sound)
    (h : decodeField p descriptors y r = some (y', r')) : RoundTo p SizeInside r r' := by
  obtain ⟨tag, n, htag, hcases⟩ := decodeField_cases hr h
  have hr1 : (r.tagged tag n).Sound := moved hr (readTag_le htag).2
  obtain ⟨len, hlen, hto⟩ : ∃ len, fieldLength tag (r.window.drop n) = some len ∧
      r' = (r.tagged tag n).moved len := by
    rcases hcases with ⟨-, hskip⟩ | ⟨d, hd, -, hwire, hdec⟩
    · exact hskip
    · have hwindow : (r.tagged tag n).window = r.window.drop n := window_moved _ _ _
      rw [← hwindow]
      exact hflat d hd _ _ _ _ hr1 hwire hdec
  exact .of_moved htag (sizeInside_of_length hlen) (fieldEnd_of_length hlen) hto

lemma decodeData_flat (hflat : FlatFields descriptors)
    {data : Blob} {s : InputStream} (hs : s.Within data) {inner : ProtoReader}
    (h : decodeData p descriptors y { data, stream := s } = some (y', inner)) :
    (∀ f ∈ fieldsOf p (s.window data), SizeInside f.1 f.2) ∧
      inner.stream = (s.moved (s.window data).length).advance.2 := by
  obtain ⟨hfields, -, hstream⟩ := decodeLoop_scan (P := fun _ => True) (fun _ _ h => h)
    (fun hr _ h => flat_round hflat hr h)
    (r := { data, stream := s }) hs trivial h
  exact ⟨hfields _, hstream⟩

/-- The stream for a message that is cut off. -/
lemma nest_cut (hn : end_ - pos < n) :
    (base pos end_).nest n = .nested (.base pos end_) pos end_ n := by
  unfold nest
  rw [clampEnd_base, if_neg (by omega)]
  rfl

/-- At the end of what is there the stream starts over. -/
lemma advance_cut {m : Nat} (hn : end_ - pos < n) :
    ((nested (.base pos end_) pos end_ n).moved m).advance.2 =
      (base pos end_).nest (n - (end_ - pos)) := by
  have hleft : n - (end_ - pos) ≠ 0 := by omega
  show (if n - (end_ - pos) = 0 then _ else _ : Bool × InputStream).2 = _
  rw [if_neg hleft]
  rfl

lemma clampEnd_bare (pos n : Nat) : clampEnd (.base pos pos) n = pos := by
  rw [clampEnd_base, Nat.sub_self, if_neg (Nat.not_lt_zero n)]

lemma done_bare (pos n : Nat) :
    (nested (.base pos pos) pos pos n).done =
      (true, .nested (.base pos pos) pos pos n) := by
  have hadvance : (nested (.base pos pos) pos pos n).advance =
      (false, .nested (.base pos pos) pos pos n) := by
    simp only [advance, InputStream.pos, Nat.sub_self, Nat.sub_zero, clampEnd_bare]
    split
    case isTrue hn => rw [hn]; rfl
    case isFalse => rfl
  unfold done
  simp [hadvance, InputStream.pos, end_]

/-- Nothing of the message is there: it is taken to be empty, whatever its size. -/
lemma decodeMessage_bare (descriptors : List (FieldDescriptor S)) (y : S)
    (hstream : r.stream = .base pos pos) :
    decodeMessage p descriptors y r = some (y, r) := by
  have hnest : (base pos pos).nest r.fieldSize = .nested (.base pos pos) pos pos r.fieldSize := by
    unfold nest
    rw [clampEnd_bare]
    rfl
  have hdata : decodeData p descriptors y
      { data := r.data, stream := .nested (.base pos pos) pos pos r.fieldSize } =
        some (y, { data := r.data, stream := .nested (.base pos pos) pos pos r.fieldSize }) := by
    show decodeLoop p descriptors (pos - pos + 1) y _ = _
    rw [decodeLoop]
    rw [done_bare]
  unfold decodeMessage
  rw [hstream, hnest]
  simp only [hdata, bind_eq_bind, bind_some, done_bare]
  show some (y, { r with stream := .base pos pos }) = _
  rw [← hstream]

/-- Some of the message is there: it is rejected. -/
lemma decodeMessage_cut (hflat : FlatFields descriptors)
    (y : S) (hr : r.Sound) (hbase : r.stream.IsBase) (hw : r.window ≠ [])
    (hcut : r.window.length < r.fieldSize) : decodeMessage p descriptors y r = none := by
  obtain ⟨pos, end_, hstream⟩ := hbase
  have hr' : (base pos end_).Within r.data := hstream ▸ hr
  have hlen : r.window.length = end_ - pos := by
    unfold ProtoReader.window
    rw [hstream]
    exact hr'.window_length
  have hpos := length_pos_iff.mpr hw
  rw [hlen] at hcut hpos
  unfold decodeMessage
  rw [hstream, nest_cut hcut]
  dsimp only
  cases hdata : decodeData p descriptors y
      { data := r.data, stream := .nested (.base pos end_) pos end_ r.fieldSize } with
  | none => rfl
  | some t =>
    obtain ⟨y', inner⟩ := t
    have hinside : (nested (.base pos end_) pos end_ r.fieldSize).Within r.data :=
      ⟨hr'.le, hr'.bound⟩
    obtain ⟨-, hinner⟩ := decodeData_flat hflat hinside hdata
    rw [advance_cut hcut] at hinner
    -- the stream stands where the message began, with the bytes that were read before it
    have hend : inner.stream.done = (false, inner.stream) := by
      rw [hinner]
      unfold done
      rw [if_pos ?_]
      show pos < clampEnd (.base pos end_) (r.fieldSize - (end_ - pos))
      rw [clampEnd_base]
      split <;> omega
    simp [bind_some, hend]

/-- A message that is accepted has its fields inside, or nothing of it is there. -/
lemma decodeMessage_flat (hflat : FlatFields descriptors) (hr : r.Sound) (hbase : r.stream.IsBase)
    (h : decodeMessage p descriptors y r = some (y', r')) :
    (r.fieldSize ≤ r.window.length ∧
      (∀ f ∈ fieldsOf p (r.window.take r.fieldSize), SizeInside f.1 f.2) ∧
      r' = r.moved r.fieldSize) ∨ (r.window = [] ∧ 0 < r.fieldSize ∧ r' = r) := by
  obtain ⟨pos, end_, hstream⟩ := hbase
  by_cases hn : r.fieldSize ≤ r.window.length
  · left
    have hbase : r.window = (base pos end_).window r.data := by
      unfold ProtoReader.window
      rw [hstream]
    obtain ⟨hnest, hwithin, hbody⟩ := nest_complete (hstream ▸ hr) (hbase ▸ hn)
    rw [hnest] at hwithin hbody
    obtain ⟨⟨v, inner⟩, hdata, hrest⟩ := bind_eq_some_iff.mp h
    rw [hstream, hnest] at hdata
    obtain ⟨hfields, hinner⟩ := decodeData_flat hflat hwithin hdata
    rw [hbody, ← hbase] at hfields hinner
    rw [length_take, min_eq_left hn] at hinner
    rw [decodeMessage_complete hr hstream hn hdata hinner] at h
    cases h
    exact ⟨hn, hfields, rfl⟩
  · right
    have hcut : r.window.length < r.fieldSize := not_le.mp hn
    have hw : r.window = [] := by
      by_contra hw
      rw [decodeMessage_cut hflat y hr ⟨pos, end_, hstream⟩ hw hcut] at h
      cases h
    have hend : end_ = pos := by
      have hr' : (base pos end_).Within r.data := hstream ▸ hr
      have hlen : ((base pos end_).window r.data).length = end_ - pos :=
        hr'.window_length
      have hnil : (base pos end_).window r.data = [] := by
        unfold ProtoReader.window at hw
        rwa [hstream] at hw
      have hle : pos ≤ end_ := hr'.le
      rw [hnil, length_nil] at hlen
      omega
    rw [decodeMessage_bare descriptors y (hend ▸ hstream)] at h
    cases h
    exact ⟨hw, Nat.lt_of_le_of_lt zero_le hcut, rfl⟩

namespace Messages

/-! ## Requests -/

section Tables

variable (p)

lemma createSpaceRequestFields_flat : FlatFields (createSpaceRequestFields p) :=
  .field (varintCodec_flat _) (.field (varintCodec_flat _)
    (.field u32List_flat (.field blobCodec_flat .nil)))

lemma getSpaceInfoRequestFields_flat : FlatFields (getSpaceInfoRequestFields p) :=
  .field (varintCodec_flat _) .nil

lemma spaceRequestFields_flat : FlatFields (spaceRequestFields p) :=
  .field (varintCodec_flat _) (.field blobCodec_flat .nil)

lemma writeSpaceRequestFields_flat : FlatFields (writeSpaceRequestFields p) :=
  .field (varintCodec_flat _) (.field blobCodec_flat (.field blobCodec_flat .nil))

lemma nvramHeaderFields_flat : FlatFields (nvramHeaderFields p) :=
  .field (varintCodec_flat _) (.field (varintCodec_flat _)
    (.field u32List_flat (.field optional_flat .nil)))

lemma nvramSpaceFields_flat : FlatFields (nvramSpaceFields p) :=
  .field (varintCodec_flat _) (.field (varintCodec_flat _)
    (.field blobCodec_flat (.field blobCodec_flat .nil)))

end Tables

/-- The field is a command of `Request`. -/
def isCommand (p : Platform) (tag : Tag) : Bool :=
  (findDescriptor (requestFields p) tag.fieldNumber tag.wireType).isSome

/-- The size of a field of a request lies inside the request, and if the field is a
command, the sizes of its fields lie inside the command. -/
def CommandInside (p : Platform) (tag : Tag) (rest : Blob) : Prop :=
  SizeInside tag rest ∧ (isCommand p tag = true →
    ∀ f ∈ fieldsOf p (rest.take tag.fieldSize), SizeInside f.1 f.2)

/-- The declared size of every field lies inside its enclosing message. -/
def SizesInside (p : Platform) (data : Blob) : Prop :=
  ∀ f ∈ fieldsOf p data, CommandInside p f.1 f.2

/-- A command that declares a size and of which there is nothing else. -/
def BareHeader (p : Platform) (tag : Tag) (rest : Blob) : Prop :=
  isCommand p tag = true ∧ 0 < tag.fieldSize ∧ rest = []

/-- The data ends with the tag and the size of a command. -/
def EndsInHeader (p : Platform) (data : Blob) : Prop :=
  ∃ f ∈ fieldsOf p data, BareHeader p f.1 f.2

/-- What is known of a row of `Request`: it holds a message without messages. -/
def HoldsFlatMessage (p : Platform) (d : FieldDescriptor S) : Prop :=
  d.wireType = .kLengthDelimited ∧
    ∃ (M : Type) (fields : List (FieldDescriptor M)) (default : M) (f : S → M → S),
      FlatFields fields ∧ d.decode = fun t r => do
        let (m, r) ← decodeMessage p fields default r
        some (f t m, r)

lemma requestField_flat {member : RequestUnion → Option M}
    {activate : M → RequestUnion} {default : M} {fields : List (FieldDescriptor M)}
    (hflat : FlatFields fields) :
    HoldsFlatMessage p (requestField p n member activate default fields) :=
  ⟨rfl, M, fields, default, fun x m => { x with payload := activate m }, hflat, rfl⟩

lemma requestFields_flat : ∀ d ∈ requestFields p, HoldsFlatMessage p d := by
  unfold requestFields
  simp only [forall_mem_cons, not_mem_nil, false_imp_iff, implies_true, and_true]
  exact ⟨requestField_flat .nil, requestField_flat (createSpaceRequestFields_flat p),
    requestField_flat (getSpaceInfoRequestFields_flat p),
    requestField_flat (spaceRequestFields_flat p), requestField_flat .nil,
    requestField_flat (writeSpaceRequestFields_flat p),
    requestField_flat (spaceRequestFields_flat p), requestField_flat (spaceRequestFields_flat p),
    requestField_flat (spaceRequestFields_flat p), requestField_flat .nil,
    requestField_flat .nil⟩

lemma isCommand_delimited (h : isCommand p tag) : tag.wireType = some .kLengthDelimited := by
  obtain ⟨d, hfind⟩ := isSome_iff_exists.mp h
  have hmatch := List.find?_some hfind
  rw [decide_eq_true_eq] at hmatch
  rw [hmatch.2, (requestFields_flat d (mem_of_find?_eq_some hfind)).1]

lemma request_round {y y' : Request} (hr : r.Sound)
    (hbase : r.stream.IsBase) (h : decodeField p (requestFields p) y r = some (y', r')) :
    RoundTo p (fun tag rest => CommandInside p tag rest ∨ BareHeader p tag rest) r r' := by
  obtain ⟨tag, n, htag, hcases⟩ := decodeField_cases hr h
  have hr1 : (r.tagged tag n).Sound := moved hr (readTag_le htag).2
  have hwindow : (r.tagged tag n).window = r.window.drop n := window_moved _ _ _
  rcases hcases with ⟨hfind, len, hlen, hto⟩ | ⟨d, hd, hfind, hwire, hdec⟩
  · have hno : ¬ isCommand p tag := by
      unfold isCommand
      rw [hfind]
      nofun
    exact .of_moved htag (.inl ⟨sizeInside_of_length hlen, fun h => absurd h hno⟩)
      (fieldEnd_of_length hlen) hto
  · have hcommand : isCommand p tag := by
      unfold isCommand
      rw [hfind]
      rfl
    obtain ⟨hdelimited, M, fields, default, f, hflat, hdecode⟩ := requestFields_flat d hd
    have hnot : ¬ tag.wireType = some .kVarint := by
      rw [hwire, hdelimited]
      nofun
    rw [hdecode] at hdec
    obtain ⟨⟨m, r1⟩, hm, heq⟩ := bind_eq_some_iff.mp hdec
    cases heq
    rcases decodeMessage_flat hflat hr1 (isBase_moved _ _ hbase) hm with
      ⟨hsize, hfields, hto⟩ | ⟨hnil, hpos, hto⟩
    · rw [hwindow] at hsize hfields
      have hlen : fieldLength tag (r.window.drop n) = some tag.fieldSize := by
        unfold fieldLength
        rw [if_neg hnot]
        exact if_pos hsize
      exact .of_moved htag (.inl ⟨fun _ => hsize, fun _ => hfields⟩) (fieldEnd_of_length hlen) hto
    · rw [hwindow] at hnil
      refine .of_moved htag (.inr ⟨hcommand, hpos, hnil⟩)
        (?_ : fieldEnd tag (r.window.drop n) = 0) ?_
      · have hle := fieldEnd_le tag (r.window.drop n)
        rw [hnil] at hle ⊢
        exact Nat.le_zero.mp hle
      · rw [hto]
        unfold ProtoReader.moved
        rw [moved_zero]

/-- In a request that is accepted, all the sizes lie inside or nothing follows the header
of the last command. -/
lemma decode_scan {data : Blob} {request request' : Request}
    (h : decode p (requestFields p) data request = some request') :
    ∀ f ∈ fieldsOf p data, CommandInside p f.1 f.2 ∨ BareHeader p f.1 f.2 := by
  obtain ⟨⟨y, r⟩, hdata, -⟩ := bind_eq_some_iff.mp h
  obtain ⟨hfields, -, -⟩ := decodeLoop_scan isBase_moved
    request_round (wholeReader_sound data) ⟨_, _, rfl⟩ hdata
  have hall := hfields data.length
  rwa [wholeReader_window] at hall

/-! ## Objects -/

open ProtoWriter

/-- Without all of its bytes a tag cannot be read. -/
lemma readTag_take (hn : n < maxFieldNumber) (body : Blob) (stale : Nat)
    (hk : k < (head p n (.delimited body)).length) :
    readTag p stale ((head p n (.delimited body)).take k) = none := by
  unfold Payload.head at hk ⊢
  rw [length_append] at hk
  unfold readTag
  by_cases htag : k < (varint (wireTag n .kLengthDelimited)).length
  · rw [take_append_of_le_length htag.le, parseVarint_take htag]
    rfl
  · have hsplit : (varint (wireTag n .kLengthDelimited) ++
        varint (p.size body.length)).take k =
          varint (wireTag n .kLengthDelimited) ++ (varint (p.size body.length)).take
            (k - (varint (wireTag n .kLengthDelimited)).length) := by
      rw [take_append, take_of_length_le (not_lt.mp htag)]
    rw [hsplit, parseVarint_varint (wireTag_lt _ _)]
    simp only [bind_eq_bind, bind_some]
    rw [wireTag_code hn]
    rw [drop_left, parseVarint_take (by omega)]
    rfl

/-- The beginning of an object is rejected unless it is just the tag and the size. -/
lemma Table.decodeObject_take {default : S}
    (t : Table p (fun _ => True) descriptors default) (hflat : FlatFields descriptors)
    (magic : UInt32) {v : S} {blob out : Blob}
    (h : encodeObject p magic.toNat descriptors v blob = some out) (hk : k < out.length)
    (y : S) :
    decodeObject p magic.toNat descriptors (out.take k) y = none ↔
      k ≠ out.length - getSize p descriptors v := by
  obtain ⟨rfl, hlen⟩ := t.encodeObject_eq h
  have hmagic : magic.toNat < maxFieldNumber := magic.toNat_lt.trans (by decide)
  have hfits : (t.bytes v).length ≤ p.maxBlob := by
    rw [record_delimited, length_append] at hlen
    exact le_trans le_add_self hlen
  have hsize : getSize p descriptors v = (t.bytes v).length := by
    have hsize := getSize_eq t.rows_emit v
    rw [t.rows_desc] at hsize
    rw [hsize]
    exact size_of_fits hfits
  rw [record_eq] at hk ⊢
  rw [hsize]
  generalize hhead : head p magic.toNat (.delimited (t.bytes v)) = head at hk ⊢
  have hbody : (delimited (t.bytes v)).body = t.bytes v := rfl
  rw [hbody, length_append] at hk
  rw [hbody, List.length_append, Nat.add_sub_cancel]
  by_cases hshort : k < head.length
  · have hnone : readWireTag p (wholeReader ((head ++ t.bytes v).take k)) = none := by
      rw [readWireTag_eq (wholeReader_sound _), wholeReader_window,
        take_append_of_le_length hshort.le, ← hhead,
        readTag_take hmagic _ _ (hhead ▸ hshort)]
      rfl
    refine iff_of_true ?_ (by omega)
    exact congrArg (· >>= _) hnone
  · have hsplit : (head ++ t.bytes v).take k = head ++ (t.bytes v).take (k - head.length) := by
      rw [take_append, take_of_length_le (not_lt.mp hshort)]
    have htag : readTag p 0 ((head ++ t.bytes v).take k) =
        some (tag magic.toNat (.delimited (t.bytes v)), head.length) := by
      rw [hsplit, ← hhead]
      exact readTag_head hmagic (x := .delimited (t.bytes v)) hfits 0 _
    rw [decodeObject_of_tag magic.toNat htag rfl rfl, Option.map_eq_none_iff]
    generalize hr : (wholeReader ((head ++ t.bytes v).take k)).tagged
      (tag magic.toNat (.delimited (t.bytes v))) head.length = r
    have hwindow : r.window = (t.bytes v).take (k - head.length) := by
      rw [← hr]
      show ((wholeReader _).stream.moved _).window _ = _
      rw [window_moved]
      show (wholeReader _).window.drop _ = _
      rw [wholeReader_window, hsplit, drop_left]
    by_cases hbare : k = head.length
    · refine iff_of_false ?_ (not_not.mpr hbare)
      have hstream : r.stream = .base k k := by
        rw [← hr]
        show base (0 + head.length) ((head ++ t.bytes v).take k).length = _
        rw [zero_add, length_take, length_append, ← hbare, min_eq_left (by omega)]
      rw [decodeMessage_bare descriptors y hstream]
      nofun
    · refine iff_of_true ?_ hbare
      have hlength : r.window.length = k - head.length := by
        rw [hwindow, length_take]
        omega
      have hsound : r.Sound := by
        rw [← hr]
        refine moved (wholeReader_sound _) ?_
        show _ ≤ (wholeReader _).window.length
        rw [wholeReader_window]
        exact (readTag_le htag).2
      refine decodeMessage_cut hflat y hsound ⟨_, _, by rw [← hr]; rfl⟩ ?_ ?_
      · rw [← length_pos_iff]
        omega
      · have hdeclared : r.fieldSize = (t.bytes v).length := by
          rw [← hr]
          rfl
        omega

/-! ## What is rejected -/

instance (p : Platform) (tag : Tag) (rest : Blob) : Decidable (CommandInside p tag rest) :=
  inferInstanceAs (Decidable (_ ∧ _))

instance (p : Platform) (data : Blob) : Decidable (SizesInside p data) :=
  inferInstanceAs (Decidable (∀ f ∈ _, _))

/-- **When truncation is rejected.**  The beginning of an encoded header or space is
rejected unless it is just the wire tag and the size.  In a request that is accepted,
the declared sizes lie inside the enclosing messages unless the data ends right after the
tag and the size of a command. -/
theorem truncation_rejected_iff (p : Platform) :
    (∀ (header object : NvramHeader) (blob out : Blob) (k : Nat),
      encodeObject p kHeaderMagic (nvramHeaderFields p) header blob = some out → k < out.length →
        (decodeObject p kHeaderMagic (nvramHeaderFields p) (out.take k) object = none ↔
          k ≠ out.length - getSize p (nvramHeaderFields p) header)) ∧
    (∀ (space object : NvramSpace) (blob out : Blob) (k : Nat),
      encodeObject p kSpaceMagic (nvramSpaceFields p) space blob = some out → k < out.length →
        (decodeObject p kSpaceMagic (nvramSpaceFields p) (out.take k) object = none ↔
          k ≠ out.length - getSize p (nvramSpaceFields p) space)) ∧
    (∀ (data : Blob) (request request' : Request),
      decode p (requestFields p) data request = some request' →
        (SizesInside p data ↔ ¬ EndsInHeader p data)) := by
  refine ⟨?_, ?_, ?_⟩
  · intro header object blob out k h hk
    exact (nvramHeaderTable p).decodeObject_take (nvramHeaderFields_flat p) 0x4e5648 h hk object
  · intro space object blob out k h hk
    exact (nvramSpaceTable p).decodeObject_take (nvramSpaceFields_flat p) 0x4e5653 h hk object
  · intro data request request' h
    constructor
    · rintro hinside ⟨f, hf, hcommand, hpos, hnil⟩
      have hsize := (hinside f hf).1 (isCommand_delimited hcommand)
      rw [hnil, length_nil] at hsize
      omega
    · intro hnot f hf
      rcases decode_scan h f hf with hinside | hbare
      · exact hinside
      · exact absurd ⟨f, hf, hbare⟩ hnot

/-- A header cut in its last field and a request that is all there. -/
theorem truncation_rejected_lp64 :
    decodeObject lp64 kHeaderMagic (nvramHeaderFields lp64)
      (List.take 12 [194, 228, 202, 19, 8, 8, 1, 16, 0, 24, 23, 24, 5]) {} = none ∧
    decodeObject lp64 kSpaceMagic (nvramSpaceFields lp64)
      (List.take 4 [154, 229, 202, 19, 8, 8, 1, 16, 0, 26, 0, 34, 0]) {} = none ∧
    SizesInside lp64 [0x1a, 2, 8, 5] := by
  obtain ⟨hheader, hspace, hrequest⟩ := truncation_rejected_iff lp64
  refine ⟨(hheader ⟨1, 0, [23, 5], none⟩ {} [] _ 12 (by decide +kernel) (by decide)).mpr
      (by decide +kernel),
    (hspace ⟨1, 0, [], []⟩ {} [] _ 4 (by decide +kernel) (by decide)).mpr (by decide +kernel),
    (hrequest [0x1a, 2, 8, 5] {} ⟨.getSpaceInfo 5⟩ (by decide +kernel)).mpr ?_⟩
  rintro ⟨f, hf, -, -, hnil⟩
  have hall : ∀ f ∈ fieldsOf lp64 [0x1a, 2, 8, 5], f.2 ≠ [] := by decide +kernel
  exact hall f hf hnil

/-- A header of which only the tag and the size are left is decoded, and so is a request
whose only field has five bytes more than there are. -/
theorem truncation_accepted :
    encodeObject lp64 kHeaderMagic (nvramHeaderFields lp64) ⟨1, 1, [23], none⟩ [] =
      some [194, 228, 202, 19, 6, 8, 1, 16, 1, 24, 23] ∧
    decodeObject lp64 kHeaderMagic (nvramHeaderFields lp64)
      (List.take 5 [194, 228, 202, 19, 6, 8, 1, 16, 1, 24, 23]) {} = some {} ∧
    decode lp64 (requestFields lp64) [0x12, 5] {} =
      some ⟨.createSpace CreateSpaceRequest.blank⟩ ∧
    ¬ SizesInside lp64 [0x12, 5] := by
  decide +kernel

end Messages

end Nvram
