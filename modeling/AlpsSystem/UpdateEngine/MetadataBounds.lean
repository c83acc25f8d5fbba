import AlpsSystem.UpdateEngine.DeltaPerformer

/-!
# The bounds of the manifest

The sizes in the header of a payload are added as 64-bit words, and `ParsePayloadMetadata` waits for
that many bytes before it parses the manifest.

* `parses_inside_iff` — the manifest lies inside the payload exactly if the sum does not wrap
  around.
-/

namespace UpdateEngine

variable {D : Type} {env : Env D} {s t : Performer D} {offset : Nat}

/-- The calls of `ParsePayloadMetadata` while the payload comes in pieces. -/
def received (env : Env D) (s : Performer D) (pieces : List Bytes) : Performer D :=
  pieces.foldl
    (fun s piece => (parsePayloadMetadata env { s with buffer := s.buffer ++ piece }).2) s

/-- The call parses the manifest, in state `t` and from `offset` on. -/
structure Parses (env : Env D) (s t : Performer D) (offset : Nat) : Prop where
  header : if s.isHeaderParsed then t = s else parseHeader env s = (none, t)
  complete : t.metadataEnd ≤ t.buffer.length
  offset_eq : getManifestOffset t.majorPayloadVersion = some offset

lemma Parses.result (h : Parses env s t offset) (hchecks : env.hashChecksMandatory = false) :
    (parsePayloadMetadata env s).1 =
      if (env.parseManifest ((t.buffer.drop offset).take t.manifestSize)).isSome then .success
      else .error .downloadManifestParseError := by
  have hmanifest : parsePayloadMetadata env s = parseManifest env t := by
    have hheader := h.header
    unfold parsePayloadMetadata
    split at hheader <;> simp_all
  rw [hmanifest, parseManifest, if_neg (Nat.not_lt.mpr h.complete), if_neg (by simp [hchecks]),
    h.offset_eq]
  dsimp only
  split <;> simp_all

/-- The size of the metadata signature has 32 bits. -/
def Narrow (s : Performer D) : Prop := s.metadataSignatureSize < 2 ^ 32

/-- The metadata size is the end of the manifest, cut to a word. -/
def SizeKnown (s : Performer D) : Prop :=
  ∃ offset, getManifestOffset s.majorPayloadVersion = some offset ∧
    s.metadataSize = (offset + s.manifestSize) % wordSize

lemma parseHeader_known {r : Option MetadataParseResult} (h : parseHeader env s = (r, t)) :
    r ≠ none ∧ t.metadataSize = s.metadataSize ∨ SizeKnown t := by
  unfold parseHeader SizeKnown at *
  grind

lemma parseHeader_narrow {r : Option MetadataParseResult} (h : parseHeader env s = (r, t))
    (hs : Narrow s) : Narrow t := by
  have hfield (payload : Bytes) (offset : Nat) :
      field payload offset kDeltaMetadataSignatureSizeSize < 2 ^ 32 :=
    (BigEndian.decode_lt _).trans_le
      (Nat.pow_le_pow_right (by decide) (List.length_take_le _ _))
  unfold parseHeader Narrow at *
  grind

lemma parseManifest_same (env : Env D) (t : Performer D) :
    (parseManifest env t).2.majorPayloadVersion = t.majorPayloadVersion ∧
      (parseManifest env t).2.manifestSize = t.manifestSize ∧
      (parseManifest env t).2.metadataSize = t.metadataSize ∧
      (parseManifest env t).2.metadataSignatureSize = t.metadataSignatureSize := by
  unfold parseManifest
  grind

open Performer

/-- The size is 0 until the header is parsed, and known from then on. -/
lemma received_known (env : Env D) (hstart : s.metadataSize = 0) (hnarrow : Narrow s)
    (pieces : List Bytes) :
    ((received env s pieces).metadataSize = 0 ∨ SizeKnown (received env s pieces)) ∧
      Narrow (received env s pieces) := by
  have hmanifest : ∀ t, SizeKnown t → SizeKnown (parseManifest env t).2 := by
    intro t ht
    obtain ⟨hmajor, hmanifest, hsize, -⟩ := parseManifest_same env t
    unfold SizeKnown
    rwa [hmajor, hmanifest, hsize]
  have hkept : ∀ t, Narrow t → Narrow (parseManifest env t).2 := by
    intro t ht
    unfold Narrow
    rwa [(parseManifest_same env t).2.2.2]
  refine List.foldlRecOn
    (motive := fun s : Performer D => (s.metadataSize = 0 ∨ SizeKnown s) ∧ Narrow s)
    pieces _ ⟨.inl hstart, hnarrow⟩ fun s ⟨h, hs⟩ piece _ => ?_
  unfold parsePayloadMetadata isHeaderParsed
  split
  · next hparsed =>
    exact ⟨.inr (hmanifest _ (h.resolve_left (by simpa using hparsed))), hkept _ hs⟩
  next hparsed =>
  rcases hheader : parseHeader env { s with buffer := s.buffer ++ piece } with ⟨_ | r, t⟩
  · exact ⟨.inr (hmanifest t ((parseHeader_known hheader).resolve_left (by simp))),
      hkept t (parseHeader_narrow hheader hs)⟩
  · exact ⟨(parseHeader_known hheader).imp_left fun hsame => hsame.2.trans (by simpa using hparsed),
      parseHeader_narrow hheader hs⟩

/-- **The manifest is parsed inside the payload**, whatever pieces the payload comes in, exactly if
the sizes of the header add up to a word.  No payload is so long that the 32 bits of the signature's
size make a difference. -/
theorem parses_inside_iff (env : Env D) (s : Performer D) (hstart : s.metadataSize = 0)
    (hnarrow : Narrow s) (pieces : List Bytes) (piece : Bytes) (t : Performer D) (offset : Nat)
    (hparses : Parses env
      { received env s pieces with buffer := (received env s pieces).buffer ++ piece } t offset)
    (hlength : t.buffer.length ≤ 2 ^ 64 - 2 ^ 32) :
    offset + t.manifestSize ≤ t.buffer.length ∧ t.metadataSize = offset + t.manifestSize ↔
      offset + t.manifestSize + t.metadataSignatureSize < wordSize := by
  obtain ⟨hreceived, hwidth⟩ := received_known env hstart hnarrow pieces
  have hknown : SizeKnown t ∧ Narrow t := by
    have hheader := hparses.header
    split at hheader
    · next hparsed =>
      rw [hheader]
      exact ⟨hreceived.resolve_left (by simpa [isHeaderParsed] using hparsed), hwidth⟩
    · exact ⟨(parseHeader_known hheader).resolve_left (by simp), parseHeader_narrow hheader hwidth⟩
  obtain ⟨⟨offset', hoffset, hsize⟩, ht⟩ := hknown
  obtain rfl : offset' = offset := Option.some.inj (hoffset.symm.trans hparses.offset_eq)
  have hlong := hparses.complete
  unfold metadataEnd at hlong
  unfold Narrow at ht
  unfold wordSize at *
  constructor
  · rintro ⟨hinside, -⟩
    omega
  · intro hfits
    rw [Nat.mod_eq_of_lt (by omega)] at hsize
    rw [hsize, Nat.mod_eq_of_lt hfits] at hlong
    exact ⟨by omega, hsize⟩

/-- The header of version 2, for a manifest of this size and no metadata signature. -/
def sampleHeader (manifestSize : Nat) : Bytes :=
  kDeltaMagic ++ BigEndian.encode kDeltaVersionSize kBrilloMajorPayloadVersion ++
    BigEndian.encode kDeltaManifestSizeSize manifestSize ++
    BigEndian.encode kDeltaMetadataSignatureSizeSize 0

/-- A performer that has got these bytes. -/
def headed (buffer : Bytes) : Performer Unit := { prefs := {}, device := (), buffer := buffer }

/-- The header comes in two pieces, and the manifest of two bytes in two more. -/
theorem parses_inside_iff_headed : ∃ t,
    Parses (idleEnv {}) { received (idleEnv {}) (headed [])
      [(sampleHeader 2).take 10, (sampleHeader 2).drop 10 ++ [5]] with
        buffer := sampleHeader 2 ++ [5] ++ [6] } t 24 ∧ t.manifestSize = 2 ∧
    24 + t.manifestSize ≤ t.buffer.length := by
  let t : Performer Unit := { headed (sampleHeader 2 ++ [5] ++ [6]) with
    majorPayloadVersion := 2, metadataSize := 26, manifestSize := 2 }
  have hparses : Parses (idleEnv {}) { received (idleEnv {}) (headed [])
      [(sampleHeader 2).take 10, (sampleHeader 2).drop 10 ++ [5]] with
        buffer := sampleHeader 2 ++ [5] ++ [6] } t 24 := ⟨rfl, by decide, by decide⟩
  exact ⟨t, hparses, rfl,
    ((parses_inside_iff (idleEnv {}) (headed []) rfl (show 0 < 2 ^ 32 by decide)
    [(sampleHeader 2).take 10, (sampleHeader 2).drop 10 ++ [5]] [6] t 24 hparses
    (by decide)).mpr (by decide)).1⟩

/-- The sum of the sizes wraps around to 23: the manifest is parsed, though the payload ends where
it begins. -/
theorem manifest_outside : ∃ t, Parses (idleEnv {}) (headed (sampleHeader (2 ^ 64 - 1))) t 24 ∧
    t.metadataSize = 23 ∧ t.buffer.length = 24 ∧ t.manifestSize = 2 ^ 64 - 1 :=
  ⟨{ headed (sampleHeader (2 ^ 64 - 1)) with
      majorPayloadVersion := 2, metadataSize := 23, manifestSize := 2 ^ 64 - 1 },
    ⟨rfl, by decide, by decide⟩, by decide⟩

end UpdateEngine
