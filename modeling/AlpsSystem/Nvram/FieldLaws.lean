import AlpsSystem.Nvram.Windows

/-!
# Reading what was written

The laws that make a message survive: a codec that writes payloads takes them back one by
one, from the default value to the value that was written; and so does a table of fields.
-/

namespace Nvram

open List

variable {p : Platform} {S T U M X : Type} {P : InputStream → Prop} {n pos end_ : Nat} {x : Payload}
  {type : VarintCompatible T} {default : M} {r : ProtoReader}
  {descriptors : List (FieldDescriptor S)} {d : FieldDescriptor S} {y v : S} {data : Blob}
  {s : InputStream} {R : T → X → T → Prop}

/-! ## Tags -/

namespace Payload

/-- The bytes of a field before its body. -/
def head (p : Platform) (fieldNumber : Nat) : Payload → Blob
  | .number _ => varint (ProtoWriter.wireTag fieldNumber .kVarint)
  | .delimited body =>
    varint (ProtoWriter.wireTag fieldNumber .kLengthDelimited) ++ varint (p.size body.length)

/-- What is left of a field after its tag. -/
def body : Payload → Blob
  | .number value => varint value
  | .delimited body => body

/-- The size a reader sees in the tag. -/
def size : Payload → Nat
  | .number _ => 0
  | .delimited body => body.length

def tag (fieldNumber : Nat) (x : Payload) : Tag := ⟨some x.wireType, fieldNumber, x.size⟩

lemma record_eq (fieldNumber : Nat) (x : Payload) :
    x.record p fieldNumber = x.head p fieldNumber ++ x.body := by
  cases x with
  | number value => rfl
  | delimited body => exact record_delimited fieldNumber body

lemma head_length_pos (fieldNumber : Nat) (x : Payload) : 0 < (x.head p fieldNumber).length := by
  cases x with
  | number value => exact varint_length_pos _
  | delimited body =>
    rw [head, length_append]
    exact Nat.add_pos_left (varint_length_pos _) _

end Payload

/-- A field number that a tag has room for. -/
def maxFieldNumber : Nat := 2 ^ 61

open ProtoWriter

lemma wireTag_eq (h : n < maxFieldNumber) (wireType : WireType) :
    wireTag n wireType = 8 * n + wireType.code := by
  have hcode : wireType.code < 2 ^ 3 := by cases wireType <;> decide
  have hshift : (n <<< 3) % u64 = n <<< 3 := by
    refine Nat.mod_eq_of_lt ?_
    unfold maxFieldNumber at h
    unfold u64
    omega
  unfold wireTag
  rw [hshift, ← Nat.shiftLeft_add_eq_or_of_lt hcode]
  omega

lemma wireTag_code (h : n < maxFieldNumber) (wireType : WireType) :
    WireType.ofCode (wireTag n wireType &&& 0x7) = some wireType := by
  have hcode : wireType.code < 8 := by cases wireType <;> decide
  have hlow : wireTag n wireType &&& 0x7 = wireType.code := by
    rw [wireTag_eq h, show 0x7 = 2 ^ 3 - 1 from rfl, Nat.and_two_pow_sub_one_eq_mod]
    omega
  rw [hlow]
  cases wireType <;> rfl

lemma wireTag_number (h : n < maxFieldNumber) (wireType : WireType) :
    wireTag n wireType >>> 3 = n := by
  have hcode : wireType.code < 8 := by cases wireType <;> decide
  rw [wireTag_eq h]
  omega

lemma size_of_fits (h : n ≤ p.maxBlob) : p.size n = n := by
  have hdouble := p.double_lt
  exact Nat.mod_eq_of_lt (by omega)

open Option (bind_eq_bind bind_some elim_some elim)

/-- The tag of a written field, of which there may be any part after the tag. -/
lemma readTag_head (hn : n < maxFieldNumber) (hx : x.Fits p) (stale : Nat) (rest : Blob) :
    readTag p stale (x.head p n ++ rest) = some (x.tag n, (x.head p n).length) := by
  unfold readTag Payload.head
  cases x with
  | number value =>
    rw [parseVarint_varint (wireTag_lt _ _)]
    simp only [bind_eq_bind, bind_some]
    rw [wireTag_code hn, wireTag_number hn]
    rfl
  | delimited body =>
    have hsize : p.size body.length = body.length := size_of_fits hx
    rw [append_assoc, parseVarint_varint (wireTag_lt _ _)]
    simp only [bind_eq_bind, bind_some]
    rw [wireTag_code hn, wireTag_number hn]
    rw [drop_left, parseVarint_varint (size_lt p _), hsize, bind_some,
      if_neg (by simp [hsize])]
    simp only [length_append]
    rfl

open Payload

lemma readTag_record (hn : n < maxFieldNumber) (hx : x.Fits p) (stale : Nat) (rest : Blob) :
    readTag p stale (x.record p n ++ rest) = some (x.tag n, (x.head p n).length) := by
  rw [record_eq, append_assoc]
  exact readTag_head hn hx stale _

/-! ## Decoders that take payloads -/

/-- Where the reader stands before the payload `x`, the decoder turns `t` into `t'` and
moves past the payload.  `P` says which streams the decoder is used with. -/
def Takes (P : InputStream → Prop) (decode : T → ProtoReader → Option (T × ProtoReader)) (t : T)
    (x : Payload) (t' : T) : Prop :=
  ∀ r : ProtoReader, r.Sound → P r.stream → r.wireType = some x.wireType → r.fieldSize = x.size →
    ∀ rest, r.window = x.body ++ rest → decode t r = some (t', r.moved x.body.length)

/-- Several payloads in a row. -/
def Chain {X : Type} (R : T → X → T → Prop) : T → List X → T → Prop
  | t, [], t' => t = t'
  | t, x :: xs, t' => ∃ u, R t x u ∧ Chain R u xs t'

lemma Chain.append {xs ys : List X} : ∀ {t u v : T},
    Chain R t xs u → Chain R u ys v → Chain R t (xs ++ ys) v := by
  induction xs with
  | nil => intro t u v h h'; exact h ▸ h'
  | cons x xs ih =>
    rintro t u v ⟨t1, hx, h⟩ h'
    exact ⟨t1, hx, ih h h'⟩

lemma Chain.map {Y : Type} {Q : S → Y → S → Prop} {f : T → S}
    {g : X → Y} {xs : List X} (hR : ∀ t x t', x ∈ xs → R t x t' → Q (f t) (g x) (f t')) :
    ∀ {t t' : T}, Chain R t xs t' → Chain Q (f t) (xs.map g) (f t') := by
  induction xs with
  | nil => intro t t' h; exact congrArg f h
  | cons x xs ih =>
    rintro t t' ⟨u, hx, h⟩
    exact ⟨f u, hR t x u mem_cons_self hx, ih (fun t x t' hx => hR t x t' (.tail _ hx)) h⟩

/-- The laws of a codec: what it writes for a value, it takes back from the default. -/
structure Codec.Lawful (p : Platform) (P : InputStream → Prop) (c : Codec T) (default : T)
    (payloads : T → List Payload) : Prop where
  wire : ∀ v, ∀ x ∈ payloads v, x.wireType = c.wireType
  number : ∀ v n, .number n ∈ payloads v → n < u64
  restores : ∀ v, (∀ x ∈ payloads v, x.Fits p) → Chain (Takes P c.decode) default (payloads v) v

/-- A type whose values survive the conversions. -/
structure VarintCompatible.Lossless (type : VarintCompatible T) : Prop where
  lt : ∀ v, type.toRaw v < u64
  back : ∀ v, type.ofRaw (type.toRaw v) = v

lemma uint32Type_lossless : uint32Type.Lossless where
  lt v := Nat.lt_trans v.toNat_lt (by decide)
  back _ := UInt32.ofNat_toNat

lemma uint64Type_lossless : uint64Type.Lossless where
  lt v := v.toNat_lt
  back _ := UInt64.ofNat_toNat

lemma boolType_lossless : boolType.Lossless where
  lt v := by cases v <;> decide
  back v := by cases v <;> rfl

/-- One payload of a varint codec. -/
lemma takes_varint (h : type.Lossless) (t v : T) :
    Takes P (varintCodec p type).decode t (.number (type.toRaw v)) v := by
  intro r hr _ hwire _ rest hwindow
  unfold varintCodec
  dsimp only
  rw [readVarint_eq hr hwire, hwindow]
  rw [show (number (type.toRaw v)).body = varint (type.toRaw v) from rfl,
    parseVarint_varint (h.lt v)]
  simp [h.back]

lemma varintCodec_lawful (h : type.Lossless) (default : T) :
    (varintCodec p type).Lawful p P default fun v => [.number (type.toRaw v)] where
  wire v x hx := by
    rw [mem_singleton.mp hx]
    rfl
  number v n hn := by
    rw [mem_singleton, number.injEq] at hn
    exact hn ▸ h.lt v
  restores v _ := ⟨v, takes_varint h default v, rfl⟩

lemma blobCodec_lawful : (blobCodec p).Lawful p P [] fun v => [.delimited v] where
  wire v x hx := by
    rw [mem_singleton.mp hx]
    rfl
  number v n hn := by cases mem_singleton.mp hn
  restores v hfits := by
    have hv : v.length ≤ p.maxBlob := hfits _ mem_cons_self
    refine ⟨v, ?_, rfl⟩
    intro r hr _ hwire hsize rest hwindow
    have hsize' : r.fieldSize = v.length := hsize
    have hwindow' : r.window = v ++ rest := hwindow
    unfold blobCodec
    dsimp only
    have halloc : p.allocates v.length := decide_eq_true hv
    rw [hsize', if_pos halloc, readLengthDelimited_eq hr hwire, hwindow',
      if_pos (by rw [length_append]; exact le_self_add), take_left]
    rfl

lemma vectorCodec_lawful (h : type.Lossless) (default : T) :
    (vectorCodec (varintCodec p type) default).Lawful p P [] fun v =>
      v.flatMap fun element => [.number (type.toRaw element)] where
  wire v x hx := by
    obtain ⟨element, _, hx⟩ := mem_flatMap.mp hx
    rw [mem_singleton.mp hx]
    rfl
  number v n hn := by
    obtain ⟨element, _, hn⟩ := mem_flatMap.mp hn
    rw [mem_singleton, number.injEq] at hn
    exact hn ▸ h.lt element
  restores v _ := by
    -- the elements read so far stand in front
    have hchain : ∀ (v front : List T),
        Chain (Takes P (vectorCodec (varintCodec p type) default).decode) front
          (v.flatMap fun element => [.number (type.toRaw element)]) (front ++ v) := by
      intro v
      induction v with
      | nil => intro front; exact (append_nil _).symm
      | cons element v ih =>
        intro front
        refine ⟨front ++ [element], ?_, ?_⟩
        · intro r hr hP hwire hsize rest hwindow
          unfold vectorCodec
          dsimp only
          rw [takes_varint h default element r hr hP hwire hsize rest hwindow]
          rfl
        · have hrest := ih (front ++ [element])
          rwa [append_assoc] at hrest
    exact hchain v []

lemma optionalCodec_lawful (h : type.Lossless) (default : T) :
    (optionalCodec (varintCodec p type) default).Lawful p P none fun v =>
      v.elim [] fun value => [.number (type.toRaw value)] where
  wire v x hx := by
    cases v with
    | none => cases hx
    | some v =>
      rw [mem_singleton.mp hx]
      rfl
  number v n hn := by
    cases v with
    | none => cases hn
    | some v =>
      rw [elim_some, mem_singleton, number.injEq] at hn
      exact hn ▸ h.lt v
  restores v _ := by
    cases v with
    | none => rfl
    | some v =>
      refine ⟨some v, ?_, rfl⟩
      intro r hr hP hwire hsize rest hwindow
      unfold optionalCodec
      dsimp only
      rw [takes_varint h default v r hr hP hwire hsize rest hwindow]
      rfl

/-! ## Tables -/

/-- A row of a table with what reading its fields does: when the object is ready for the
row, the fields that were written for `v` fill it in. -/
structure Field (S : Type) extends Row S where
  ready : S → Prop
  fill : S → S → S

/-- The laws of a row. -/
structure Field.Lawful (p : Platform) (P : InputStream → Prop) (f : Field S) : Prop where
  emits : f.desc.Emits p f.payloads
  wire : ∀ v, ∀ x ∈ f.payloads v, x.wireType = f.desc.wireType
  number : ∀ v n, .number n ∈ f.payloads v → n < u64
  fieldNumber : f.desc.fieldNumber < maxFieldNumber
  restores : ∀ y v, f.ready y → (∀ x ∈ f.payloads v, x.Fits p) →
    Chain (Takes P f.desc.decode) y (f.payloads v) (f.fill y v)

/-- The row of a member. -/
def memberField (n : Nat) (get : S → M) (set : S → M → S) (c : Codec M) (default : M)
    (payloads : M → List Payload) : Field S where
  desc := makeField n get set c
  payloads x := payloads (get x)
  ready y := get y = default
  fill y v := set y (get v)

lemma memberField_lawful {get : S → M} {set : S → M → S} {c : Codec M}
    {payloads : M → List Payload} (hn : n < maxFieldNumber)
    (hemits : c.Emits p payloads) (hc : c.Lawful p P default payloads)
    (hget : ∀ y m, get (set y m) = m) (hset : ∀ y m m', set (set y m) m' = set y m')
    (hself : ∀ y, set y (get y) = y) :
    (memberField n get set c default payloads).Lawful p P where
  emits := makeField_emits hemits
  wire v x hx := hc.wire (get v) x hx
  number v k hk := hc.number (get v) k hk
  fieldNumber := hn
  restores y v hready hfits := by
    have hy : get y = default := hready
    have hchain := Chain.map (f := fun m => set y m) (g := id)
      (Q := Takes P (makeField n get set c).decode)
      (fun m x m' _ htake r hr hP hwire hsize rest hwindow => by
        show (c.decode (get (set y m)) r >>= _) = _
        rw [hget, htake r hr hP hwire hsize rest hwindow]
        simp [hset])
      (hc.restores (get v) hfits)
    rw [map_id] at hchain
    have hstart : set y default = y := by rw [← hy, hself]
    rwa [hstart] at hchain

/-- The row of a message in a union. -/
def unionField (n : Nat) (get : S → U) (set : S → U → S) (member : U → Option M) (activate : M → U)
    (default : M) (c : Codec M) (body : M → Blob) : Field S where
  desc := makeOneOfField n get set member activate default c
  payloads x := (member (get x)).elim [] fun m => [.delimited (body m)]
  ready _ := True
  fill y v := (member (get v)).elim y fun m => set y (activate m)

/-! ## The loop over the fields -/

section Rounds

variable {descriptors : List (FieldDescriptor S)} {y : S} {r : ProtoReader} {tag : Tag} {n : Nat}

/-- A round of the loop, on a field of the table or on another. -/
lemma decodeField_eq (hr : r.Sound) (htag : readTag p r.fieldSize r.window = some (tag, n)) :
    decodeField p descriptors y r = (findDescriptor descriptors tag.fieldNumber tag.wireType).elim
        ((r.tagged tag n).skipField.map fun r => (y, r)) fun d => d.decode y (r.tagged tag n) := by
  unfold decodeField
  rw [readWireTag_eq hr, htag]
  simp only [Option.map_some, bind_eq_bind, bind_some]
  rw [show (r.tagged tag n).fieldNumber = tag.fieldNumber from rfl,
    show (r.tagged tag n).wireType = tag.wireType from rfl]
  cases findDescriptor descriptors tag.fieldNumber tag.wireType with
  | some d => rfl
  | none => cases (r.tagged tag n).skipField <;> rfl

end Rounds

open InputStream InputStream.Within

/-- After the tag of a written field the reader stands before its payload. -/
lemma tagged_record (hr : r.Sound) {rest : Blob} (hwindow : r.window = x.record p n ++ rest) :
    (r.tagged (x.tag n) (x.head p n).length).Sound ∧
      (r.tagged (x.tag n) (x.head p n).length).window = x.body ++ rest := by
  rw [record_eq, append_assoc] at hwindow
  refine ⟨moved hr ?_, ?_⟩
  · show _ ≤ r.window.length
    rw [hwindow, length_append]
    exact le_self_add
  · show (r.stream.moved _).window r.data = _
    rw [window_moved, show r.stream.window r.data = r.window from rfl, hwindow, drop_left]

/-- A field that is there: the number of its row and what it holds. -/
abbrev Item := Nat × Payload

def Item.bytes (p : Platform) (item : Item) : Blob := item.2.record p item.1

/-- One round of the loop takes a field. -/
def Steps (p : Platform) (P : InputStream → Prop) (descriptors : List (FieldDescriptor S)) (y : S)
    (item : Item) (y' : S) : Prop :=
  ∀ r : ProtoReader, r.Sound → P r.stream → ∀ rest, r.window = item.bytes p ++ rest →
    ∃ r', decodeField p descriptors y r = some (y', r') ∧ r'.data = r.data ∧
      r'.stream = r.stream.moved (item.bytes p).length

lemma steps_of_takes (hP : ∀ s n, P s → P (s.moved n))
    {y' : S} (hn : d.fieldNumber < maxFieldNumber)
    (hfind : findDescriptor descriptors d.fieldNumber (some x.wireType) = some d)
    (hx : x.Fits p) (htake : Takes P d.decode y x y') :
    Steps p P descriptors y (d.fieldNumber, x) y' := by
  intro r hr hPr rest hwindow
  have htag : readTag p r.fieldSize r.window =
      some (x.tag d.fieldNumber, (x.head p d.fieldNumber).length) := by
    rw [hwindow]
    exact readTag_record hn hx _ _
  obtain ⟨hsound, hrest⟩ := tagged_record hr hwindow
  have hbody := htake _ hsound (hP _ _ hPr) rfl rfl rest hrest
  refine ⟨_, ((decodeField_eq hr htag).trans (congrArg (elim · _ _) hfind)).trans hbody,
    rfl, ?_⟩
  show (r.stream.moved _).moved _ = (r.stream.moved (x.record p d.fieldNumber).length)
  rw [moved_moved, record_eq, length_append]

/-- At the end of its window a stream is done. -/
lemma done_of_nil (hs : s.Within data)
    (hw : s.window data = []) : s.done = (true, s.advance.2) := by
  have hlen := hs.window_length
  rw [hw, length_nil] at hlen
  rw [done, if_neg (by omega), advance_eq]
  rfl

lemma done_of_ne_nil (hs : s.Within data) (hw : s.window data ≠ []) : s.done = (false, s) := by
  have hlen := hs.window_length
  have hpos := length_pos_iff.mpr hw
  unfold done
  rw [if_pos (by omega)]

lemma item_bytes_ne_nil (item : Item) : item.bytes p ≠ [] := by
  have hpos := head_length_pos (p := p) item.1 item.2
  unfold Item.bytes
  rw [record_eq, ← length_pos_iff, length_append]
  omega

lemma length_le_items_bytes (items : List Item) :
    items.length ≤ (items.flatMap (Item.bytes p)).length := by
  induction items with
  | nil => exact le_rfl
  | cons item items ih =>
    have hpos := length_pos_iff.mpr (item_bytes_ne_nil (p := p) item)
    rw [flatMap_cons, length_append, length_cons]
    omega

variable {fields : List (Field S)}

/-- **The loop of `DecodeData` over the fields of a window.** -/
theorem decodeLoop_items (hP : ∀ s n, P s → P (s.moved n)) {items : List Item} :
    ∀ {fuel : Nat} {y y' : S} {r : ProtoReader}, r.Sound → P r.stream →
      r.window = items.flatMap (Item.bytes p) → items.length < fuel →
      Chain (Steps p P descriptors) y items y' →
      ∃ r', decodeLoop p descriptors fuel y r = some (y', r') ∧ r'.data = r.data ∧
        r'.stream = (r.stream.moved r.window.length).advance.2 := by
  induction items with
  | nil =>
    intro fuel y y' r hr _ hwindow hfuel hchain
    obtain ⟨fuel, rfl⟩ : ∃ k, fuel = k + 1 := ⟨fuel - 1, by omega⟩
    have hnil : r.window = [] := hwindow
    obtain rfl : y = y' := hchain
    refine ⟨{ r with stream := r.stream.advance.2 }, ?_, rfl, ?_⟩
    · rw [decodeLoop, done_of_nil hr hnil]
    · rw [hnil, length_nil, moved_zero]
  | cons item items ih =>
    rintro fuel y y' r hr hPr hwindow hfuel ⟨u, hstep, hchain⟩
    obtain ⟨fuel, rfl⟩ : ∃ k, fuel = k + 1 := ⟨fuel - 1, by omega⟩
    rw [flatMap_cons] at hwindow
    obtain ⟨r1, hfield, hdata, hstream⟩ := hstep r hr hPr _ hwindow
    have hne : r.window ≠ [] := by
      rw [hwindow]
      exact append_ne_nil_of_left_ne_nil (item_bytes_ne_nil item) _
    have hle : (item.bytes p).length ≤ r.window.length := by
      rw [hwindow, length_append]
      exact le_self_add
    have hr1 : r1.Sound := by
      unfold ProtoReader.Sound
      rw [hdata, hstream]
      exact moved hr hle
    have hwindow1 : r1.window = items.flatMap (Item.bytes p) := by
      unfold ProtoReader.window
      rw [hdata, hstream, window_moved, show r.stream.window r.data = r.window from rfl,
        hwindow, drop_left]
    obtain ⟨r', hloop, hdata', hstream'⟩ := ih hr1 (hstream ▸ hP _ _ hPr) hwindow1
      (Nat.lt_of_succ_lt_succ hfuel) hchain
    refine ⟨r', ?_, hdata'.trans hdata, ?_⟩
    · rw [decodeLoop, done_of_ne_nil hr hne]
      show (decodeField p descriptors y r >>= fun x => decodeLoop p descriptors fuel x.1 x.2) = _
      rw [hfield]
      exact hloop
    · rw [hstream', hstream, moved_moved, hwindow1, hwindow, length_append]

/-- The fields of a value. -/
def items (fields : List (Field S)) (v : S) : List Item :=
  fields.flatMap fun f => (f.payloads v).map fun x => (f.desc.fieldNumber, x)

/-- The rows, one after another, turn `y` into `v`. -/
def Fills : List (Field S) → S → S → Prop
  | [], y, v => y = v
  | f :: fields, y, v => f.ready y ∧ Fills fields (f.fill y v) v

open Nvram.Field

lemma items_bytes (fields : List (Field S)) (v : S) :
    (items fields v).flatMap (Item.bytes p) = dataBytes p (fields.map toRow) v := by
  unfold items dataBytes
  rw [flatMap_assoc, flatMap_map]
  refine congrArg (fields.flatMap ·) (funext fun f => ?_)
  rw [flatMap_map]
  rfl

lemma findDescriptor_of_mem (hnodup : (descriptors.map (·.fieldNumber)).Nodup)
    (hd : d ∈ descriptors) :
    findDescriptor descriptors d.fieldNumber (some d.wireType) = some d := by
  induction descriptors with
  | nil => cases hd
  | cons e descriptors ih =>
    rw [map_cons, nodup_cons] at hnodup
    unfold findDescriptor at ih ⊢
    rcases mem_cons.mp hd with rfl | hd
    · simp
    · have hne : d.fieldNumber ≠ e.fieldNumber := fun h =>
        hnodup.1 (h ▸ mem_map_of_mem hd)
      rw [List.find?_cons_of_neg (by simp [hne])]
      exact ih hnodup.2 hd

/-- The rows of a table take their fields. -/
lemma chain_items (hP : ∀ s n, P s → P (s.moved n)) (descriptors : List (FieldDescriptor S))
    (hnodup : (descriptors.map (·.fieldNumber)).Nodup) :
    (∀ f ∈ fields, f.Lawful p P) → (∀ f ∈ fields, f.desc ∈ descriptors) →
    (∀ f ∈ fields, ∀ x ∈ f.payloads v, x.Fits p) → ∀ {y : S}, Fills fields y v →
      Chain (Steps p P descriptors) y (items fields v) v := by
  induction fields with
  | nil => intro _ _ _ y hfills; exact hfills
  | cons f fields ih =>
    rintro hlaws hdesc hfits y ⟨hready, hfills⟩
    have hf := hlaws f mem_cons_self
    have hchain := hf.restores y v hready (hfits f mem_cons_self)
    have hfirst := Chain.map
      (fun t x t' hx htake => steps_of_takes hP hf.fieldNumber (by
          rw [hf.wire v x hx]
          exact findDescriptor_of_mem hnodup (hdesc f mem_cons_self))
        (hfits f mem_cons_self x hx) htake) hchain
    have hrest := ih (fun g hg => hlaws g (.tail _ hg))
      (fun g hg => hdesc g (.tail _ hg))
      (fun g hg => hfits g (.tail _ hg)) hfills
    exact hfirst.append hrest

/-- Payloads fit when the message does. -/
lemma fits_of_length (hlaws : ∀ f ∈ fields, f.Lawful p P)
    (hlen : (dataBytes p (fields.map toRow) v).length ≤ p.maxBlob) :
    ∀ f ∈ fields, ∀ x ∈ f.payloads v, x.Fits p := by
  intro f hf x hx
  cases x with
  | number n => exact (hlaws f hf).number v n hx
  | delimited body =>
    have hbody : body.length ≤ (record p f.desc.fieldNumber (.delimited body)).length := by
      rw [record_delimited, length_append]
      exact le_add_self
    have hrecord : (record p f.desc.fieldNumber (.delimited body)).length ≤
        (dataBytes p (fields.map toRow) v).length := by
      rw [← items_bytes]
      have hmem : (f.desc.fieldNumber, delimited body) ∈ items fields v :=
        mem_flatMap.mpr ⟨f, hf, mem_map.mpr ⟨_, hx, rfl⟩⟩
      obtain ⟨front, back, hsplit⟩ := append_of_mem hmem
      rw [hsplit, flatMap_append, flatMap_cons, length_append, length_append]
      exact le_trans le_self_add le_add_self
    exact hbody.trans (hrecord.trans hlen)

/-! ## Messages in fields -/

/-- A stream over the whole data. -/
def InputStream.IsBase (s : InputStream) : Prop := ∃ pos end_, s = .base pos end_

lemma isBase_moved (s : InputStream) (n : Nat) (h : s.IsBase) : (s.moved n).IsBase := by
  obtain ⟨pos, end_, rfl⟩ := h
  exact ⟨pos + n, end_, rfl⟩

/-- The stream for a message that is all there. -/
lemma nest_complete (h : (base pos end_).Within data)
    (hn : n ≤ ((base pos end_).window data).length) :
    (base pos end_).nest n = .nested (.base pos end_) pos (pos + n) n ∧
      ((base pos end_).nest n).Within data ∧
      ((base pos end_).nest n).window data =
        ((base pos end_).window data).take n := by
  have hle : pos ≤ end_ := h.le
  have hbound : end_ ≤ data.length := h.bound
  have hn' : n ≤ end_ - pos := h.window_length ▸ hn
  have hclamp : clampEnd (.base pos end_) n = pos + n := by
    rw [clampEnd_base]
    split <;> omega
  have hnest : (base pos end_).nest n = .nested (.base pos end_) pos (pos + n) n := by
    unfold nest
    rw [hclamp]
    rfl
  refine ⟨hnest, ?_, ?_⟩
  · rw [hnest]
    exact ⟨le_self_add, by show pos + n ≤ data.length; omega⟩
  · rw [hnest, ← peek_eq_take hn']
    show (data.drop pos).take (pos + n - pos) = _
    rw [Nat.add_sub_cancel_left]
    rfl

/-- The end of a message that is all there: the outer stream stands behind it. -/
lemma nest_done (pos end_ n : Nat) :
    ((nested (.base pos end_) pos (pos + n) n).moved n).advance.2.done =
      (true, .nested (.base (pos + n) end_) (pos + n) (pos + n) 0) := by
  have hleft : n - (pos + n - pos) = 0 := by omega
  have hadvance : ((nested (.base pos end_) pos (pos + n) n).moved n).advance.2 =
      .nested (.base (pos + n) end_) (pos + n) (pos + n) 0 := by
    show (nested (.base pos end_) (pos + n) (pos + n) n).advance.2 = _
    unfold advance
    dsimp only [InputStream.pos]
    rw [hleft]
    rfl
  rw [hadvance]
  unfold done advance
  simp [InputStream.pos, InputStream.end_, setPos]

/-- The reader of a message that is all there. -/
def nestedReader (data : Blob) (pos end_ n : Nat) : ProtoReader :=
  { data := data, stream := .nested (.base pos end_) pos (pos + n) n }

/-- A message that is all there and is read to its end. -/
lemma decodeMessage_complete (hr : r.Sound) (hstream : r.stream = .base pos end_)
    (hn : r.fieldSize ≤ r.window.length) {inner : ProtoReader}
    (hloop : decodeData p descriptors y (nestedReader r.data pos end_ r.fieldSize) =
      some (v, inner))
    (hinner : inner.stream =
      ((nestedReader r.data pos end_ r.fieldSize).stream.moved r.fieldSize).advance.2) :
    decodeMessage p descriptors y r = some (v, r.moved r.fieldSize) := by
  have hr' : (base pos end_).Within r.data := hstream ▸ hr
  have hn' : r.fieldSize ≤ ((base pos end_).window r.data).length := by
    unfold ProtoReader.window at hn
    rwa [hstream] at hn
  obtain ⟨hnest, -, -⟩ := nest_complete hr' hn'
  have hend : inner.stream.done = (true, .nested (.base (pos + r.fieldSize) end_)
      (pos + r.fieldSize) (pos + r.fieldSize) 0) := by
    rw [hinner]
    exact nest_done pos end_ _
  have hmoved : r.moved r.fieldSize = { r with stream := .base (pos + r.fieldSize) end_ } := by
    unfold ProtoReader.moved
    rw [hstream]
    rfl
  unfold decodeMessage
  rw [hstream, hnest]
  unfold nestedReader at hloop
  simp only [hloop, bind_eq_bind, bind_some, hend]
  rw [hmoved]
  rfl

/-- **A message is taken back from its field.** -/
theorem takes_message (hlaws : ∀ f ∈ fields, f.Lawful p fun _ => True)
    (hnodup : (fields.map (·.desc.fieldNumber)).Nodup) {default : S}
    (hfills : Fills fields default v)
    (hlen : (dataBytes p (fields.map toRow) v).length ≤ p.maxBlob) :
    Takes InputStream.IsBase (decodeMessage p (fields.map (·.desc))) default
      (.delimited (dataBytes p (fields.map toRow) v)) v := by
  intro r hr hbase _ hsize rest hwindow
  obtain ⟨pos, end_, hstream⟩ := hbase
  have hwindow' : r.window = dataBytes p (fields.map toRow) v ++ rest := hwindow
  have hsize' : r.fieldSize = (dataBytes p (fields.map toRow) v).length := hsize
  have hn : r.fieldSize ≤ r.window.length := by
    rw [hwindow', length_append, hsize']
    exact le_self_add
  have hbase : r.window = (base pos end_).window r.data := by
    unfold ProtoReader.window
    rw [hstream]
  obtain ⟨hnest, hwithin, hbody⟩ := nest_complete (hstream ▸ hr) (hbase ▸ hn)
  rw [← hbase, hwindow', hsize', take_left, ← hsize', hnest] at hbody
  rw [hnest] at hwithin
  have hitems : (items fields v).length < r.fieldSize + 1 := by
    rw [hsize', ← items_bytes]
    exact Nat.lt_succ_of_le (length_le_items_bytes _)
  have hchain := chain_items (fun _ _ h => h) (fields.map (·.desc))
    (by rwa [map_map]) hlaws (fun f hf => mem_map_of_mem hf) (fits_of_length hlaws hlen)
    hfills
  obtain ⟨inner, hloop, -, hinner⟩ := decodeLoop_items (fun _ _ h => h)
    (r := nestedReader r.data pos end_ r.fieldSize) hwithin trivial
    (hbody.trans (items_bytes fields v).symm) hitems hchain
  have hfuel : decodeData p (fields.map (·.desc)) default
      (nestedReader r.data pos end_ r.fieldSize) = some (v, inner) := by
    rw [← hloop]
    show decodeLoop p _ (pos + _ - pos + 1) _ _ = _
    rw [Nat.add_sub_cancel_left]
  have hbodyLength : (nestedReader r.data pos end_ r.fieldSize).window.length = r.fieldSize := by
    unfold ProtoReader.window nestedReader
    rw [hbody, hsize']
  rw [hbodyLength] at hinner
  rw [decodeMessage_complete hr hstream hn hfuel hinner, hsize']
  rfl

/-- A message of a union, with the fields of the message. -/
lemma unionField_lawful {get : S → U} {set : S → U → S} {member : U → Option M}
    {activate : M → U} {fields : List (Field M)} (hn : n < maxFieldNumber)
    (hlaws : ∀ f ∈ fields, f.Lawful p fun _ => True)
    (hnodup : (fields.map (·.desc.fieldNumber)).Nodup) (hfills : ∀ m, Fills fields default m) :
    (unionField n get set member activate default (messageCodec p (fields.map (·.desc)))
      (dataBytes p (fields.map toRow))).Lawful p InputStream.IsBase where
  emits := by
    have hrows : ∀ row ∈ fields.map toRow, row.desc.Emits p row.payloads := by
      intro row hrow
      obtain ⟨f, hf, rfl⟩ := mem_map.mp hrow
      exact (hlaws f hf).emits
    have hemits : (makeOneOfField n get set member activate default
        (messageCodec p ((fields.map toRow).map Row.desc))).Emits p _ :=
      makeOneOfField_emits hrows
    rwa [map_map] at hemits
  wire v x hx := by
    unfold unionField at hx
    dsimp only at hx
    cases hm : member (get v) with
    | none => rw [hm] at hx; cases hx
    | some m =>
      rw [hm, elim_some, mem_singleton] at hx
      rw [hx]
      rfl
  number v k hk := by
    unfold unionField at hk
    dsimp only at hk
    cases hm : member (get v) with
    | none => rw [hm] at hk; cases hk
    | some m =>
      rw [hm, elim_some, mem_singleton] at hk
      cases hk
  fieldNumber := hn
  restores y v _ hfits := by
    unfold unionField at hfits ⊢
    dsimp only at hfits ⊢
    cases hm : member (get v) with
    | none => rfl
    | some m =>
      rw [hm] at hfits
      have hlen : (dataBytes p (fields.map toRow) m).length ≤ p.maxBlob :=
        hfits _ mem_cons_self
      refine ⟨set y (activate m), ?_, rfl⟩
      intro r hr hP hwire hsize rest hwindow
      have htake := takes_message hlaws hnodup (hfills m) hlen r hr hP hwire hsize rest hwindow
      show (decodeMessage p (fields.map fun (f : Field M) => f.desc) default r >>= _) = _
      rw [htake]
      rfl

end Nvram
