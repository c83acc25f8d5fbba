import AlpsSystem.UpdateEngine.Streaming

/-!
# A payload may arrive in any pieces

The header and the manifest are read by the first loop of `Write`, which keeps what it
has of them in the buffer.  What it does next depends on all the bytes read so far, not
on the calls they came in.

* `viewHeader` — what a prefix of the payload says about the header.
* `writeAll_eq_write` — any number of calls do what a single one does.
-/

namespace UpdateEngine

open List

variable {D : Type} {env : Env D} {s s' s₀ : Performer D} {offset size : Nat} {payload x : Bytes}

/-! ## The header -/

lemma field_take {n : Nat} (h : offset + size ≤ n) :
    field (payload.take n) offset size = field payload offset size := by
  unfold field
  rw [drop_take, take_take, min_eq_left (by omega)]

lemma field_append (h : offset + size ≤ payload.length)
    (more : Bytes) : field (payload ++ more) offset size = field payload offset size := by
  have hle : size ≤ (payload.drop offset).length := by
    rw [length_drop]
    omega
  unfold field
  rw [drop_append_of_le_length (by omega), take_append_of_le_length hle]

/-- The header of a payload, as its bytes give it. -/
structure Header where
  major : Nat
  manifestOffset : Nat
  manifestSize : Nat
  signatureSize : Nat
  deriving DecidableEq

/-- What the bytes received so far say about the header. -/
inductive HeaderView where
  | short
  | bad (code : ErrorCode)
  | known (h : Header)
  deriving DecidableEq

def viewHeader (env : Env D) (x : Bytes) : HeaderView :=
  if x.length < kDeltaManifestSizeOffset then .short
  else if x.take kDeltaMagic.length ≠ kDeltaMagic then .bad .downloadInvalidMetadataMagicString
  else
    let major := field x kDeltaVersionOffset kDeltaVersionSize
    if major ≠ env.supportedMajorVersion ∧ major ≠ kChromeOSMajorPayloadVersion then
      .bad .unsupportedMajorPayloadVersion
    else
      match getManifestOffset major with
      | none => .bad .unsupportedMajorPayloadVersion
      | some manifestOffset =>
        if x.length < manifestOffset then .short
        else
          let manifestSize := field x kDeltaManifestSizeOffset kDeltaManifestSizeSize
          if env.hashChecksMandatory ∧
              env.metadataSize ≠ (manifestOffset + manifestSize) % wordSize then
            .bad .downloadInvalidMetadataSize
          else .known ⟨major, manifestOffset, manifestSize,
            if major = kBrilloMajorPayloadVersion then
              field x (kDeltaManifestSizeOffset + kDeltaManifestSizeSize)
                kDeltaMetadataSignatureSizeSize
            else 0⟩

variable {h : Header}

lemma getManifestOffset_le {major : Nat} (h : getManifestOffset major = some offset) :
    20 ≤ offset ∧ offset ≤ 24 ∧ (major = kBrilloMajorPayloadVersion → offset = 24) := by
  unfold getManifestOffset at h
  split at h
  case isTrue hmajor =>
    obtain rfl := Option.some.inj h
    exact ⟨by decide, by decide, fun hv => by rw [hmajor] at hv; cases hv⟩
  · split at h
    · obtain rfl := Option.some.inj h
      exact ⟨by decide, by decide, fun _ => rfl⟩
    · cases h

/-- The header is in the first 24 bytes. -/
lemma viewHeader_take (env : Env D) (x : Bytes) :
    viewHeader env (x.take kMaxPayloadHeaderSize) = viewHeader env x := by
  unfold viewHeader
  have hlen : ∀ n, n ≤ 24 → ((x.take kMaxPayloadHeaderSize).length < n ↔ x.length < n) := by
    intro n hn
    rw [length_take, kMaxPayloadHeaderSize]
    omega
  have hmagic : (x.take kMaxPayloadHeaderSize).take kDeltaMagic.length =
      x.take kDeltaMagic.length := by
    rw [take_take]
    rfl
  rw [hmagic, field_take (by decide), field_take (by decide), field_take (by decide)]
  simp only [hlen kDeltaManifestSizeOffset (by decide)]
  split
  · rfl
  · split
    · rfl
    · split
      · rfl
      · cases hoff : getManifestOffset (field x kDeltaVersionOffset kDeltaVersionSize) with
        | none => rfl
        | some offset =>
          simp only [hlen offset (getManifestOffset_le hoff).2.1]

/-- What the bytes say about the header stays true when more arrive. -/
lemma viewHeader_append (env : Env D) (more : Bytes) :
    (∀ code, viewHeader env x = .bad code → viewHeader env (x ++ more) = .bad code) ∧
      ∀ h, viewHeader env x = .known h → viewHeader env (x ++ more) = .known h := by
  by_cases hshort : x.length < kDeltaManifestSizeOffset
  · have hview : viewHeader env x = .short := by
      unfold viewHeader
      rw [if_pos hshort]
    rw [hview]
    exact ⟨nofun, nofun⟩
  have hge : 12 ≤ x.length := not_lt.mp hshort
  have hlong : ¬ (x ++ more).length < kDeltaManifestSizeOffset := by
    rw [length_append]
    omega
  have hmagic : (x ++ more).take kDeltaMagic.length = x.take kDeltaMagic.length :=
    take_append_of_le_length (le_trans (by decide) hge)
  have hmajor : field (x ++ more) kDeltaVersionOffset kDeltaVersionSize =
      field x kDeltaVersionOffset kDeltaVersionSize := field_append hge more
  unfold viewHeader
  rw [if_neg hshort, hmagic, hmajor]
  split
  · exact ⟨fun _ h => h, nofun⟩
  · dsimp only
    split
    · exact ⟨fun _ h => h, nofun⟩
    · cases hoff : getManifestOffset (field x kDeltaVersionOffset kDeltaVersionSize) with
      | none => exact ⟨fun _ h => h, nofun⟩
      | some offset =>
        dsimp only
        obtain ⟨hlow, -, hbrillo⟩ := getManifestOffset_le hoff
        by_cases hlt : x.length < offset
        · rw [if_pos hlt]
          exact ⟨nofun, nofun⟩
        · have hlt' : ¬ (x ++ more).length < offset := by
            rw [length_append]
            omega
          have hsize : field (x ++ more) kDeltaManifestSizeOffset kDeltaManifestSizeSize =
              field x kDeltaManifestSizeOffset kDeltaManifestSizeSize :=
            field_append ((le_trans (by decide) hlow).trans (not_lt.mp hlt)) more
          rw [if_neg hlt, hsize]
          split
          · exact ⟨fun _ h => h, nofun⟩
          · refine ⟨nofun, fun h heq => ?_⟩
            rw [← heq]
            by_cases hv : field x kDeltaVersionOffset kDeltaVersionSize = kBrilloMajorPayloadVersion
            · have hsig : field (x ++ more) (kDeltaManifestSizeOffset + kDeltaManifestSizeSize)
                  kDeltaMetadataSignatureSizeSize =
                  field x (kDeltaManifestSizeOffset + kDeltaManifestSizeSize)
                    kDeltaMetadataSignatureSizeSize :=
                field_append (le_trans (by rw [hbrillo hv]; decide) (not_lt.mp hlt)) more
              rw [hsig]
            · rw [if_neg hv, if_neg hv]

lemma viewHeader_manifestOffset (hview : viewHeader env x = .known h) :
    getManifestOffset h.major = some h.manifestOffset := by
  unfold viewHeader at hview
  dsimp only at hview
  split at hview
  · cases hview
  · split at hview
    · cases hview
    · split at hview
      · cases hview
      · split at hview
        · cases hview
        case h_2 offset hoff =>
          split at hview
          · cases hview
          · split at hview
            · cases hview
            · cases hview
              exact hoff

/-! ## The metadata -/

/-- A performer to which nothing has been written. -/
structure Unwritten (s₀ : Performer D) : Prop where
  valid : s₀.manifestValid = false
  buffer : s₀.buffer = []
  metadataSize : s₀.metadataSize = 0
  metadataSignatureSize : s₀.metadataSignatureSize = 0
  partitions : s₀.partitions = []
  acc : s₀.accNumOperations = []
  partition : s₀.currentPartition = 0

namespace Header

def metadataSize (h : Header) : Nat := h.manifestOffset + h.manifestSize

/-- Where the metadata with its signature ends. -/
def metadataEnd (h : Header) : Nat := h.metadataSize + h.signatureSize

/-- The metadata fills the longest header at least, and its size does not overflow. -/
structure Fits (h : Header) : Prop where
  long : kMaxPayloadHeaderSize ≤ h.metadataSize
  small : h.metadataEnd < wordSize

end Header

/-- A performer that has read `x` and knows the header. -/
def Performer.withHeader (s₀ : Performer D) (h : Header) (x : Bytes) : Performer D :=
  { s₀ with
    buffer := x
    majorPayloadVersion := h.major
    manifestSize := h.manifestSize
    metadataSignatureSize := h.signatureSize
    metadataSize := h.metadataSize % wordSize }

open Performer

lemma withHeader_metadataEnd (hfits : h.Fits) (x : Bytes) :
    (s₀.withHeader h x).metadataEnd = h.metadataEnd := by
  have hsmall : h.metadataSize < wordSize := (Nat.le_add_right _ _).trans_lt hfits.small
  unfold metadataEnd withHeader
  rw [Nat.mod_eq_of_lt hsmall, Nat.mod_eq_of_lt]
  · rfl
  · exact hfits.small

lemma withHeader_isHeaderParsed (hfits : h.Fits) (x : Bytes) :
    (s₀.withHeader h x).isHeaderParsed := by
  have hsmall : h.metadataSize < wordSize := (Nat.le_add_right _ _).trans_lt hfits.small
  have hlong : 24 ≤ h.metadataSize := hfits.long
  unfold isHeaderParsed withHeader
  dsimp only
  rw [Nat.mod_eq_of_lt hsmall, bne_iff_ne]
  omega

/-- What is compared of two performers, apart from the buffer. -/
structure Observed (D : Type) where
  performed : List Performed
  bufferOffset : Nat
  nextOperationNum : Nat
  payloadHash : Bytes
  signedHash : Bytes
  signaturesMessageData : Bytes
  device : D
  prefs : Prefs

def Performer.observe (s : Performer D) : Observed D :=
  ⟨s.performed, s.bufferOffset, s.nextOperationNum, s.payloadHash, s.signedHash,
    s.signaturesMessageData, s.device, s.prefs⟩

/-- The events of a run, and whether it has accepted a manifest. -/
def Performer.trace (s : Performer D) : List Event × Bool := (s.history, s.manifestValid)

/-- The errors of a header that is not acceptable. -/
def ErrorCode.isHeaderError : ErrorCode → Bool
  | .downloadInvalidMetadataMagicString | .unsupportedMajorPayloadVersion
  | .downloadInvalidMetadataSize => true
  | _ => false

section

variable {s₀ : Performer D}

/-- A performer that has read `x` and does not know the header. -/
def Performer.reading (s₀ : Performer D) (x : Bytes) (v : Nat) : Performer D :=
  { s₀ with buffer := x, majorPayloadVersion := v }

@[simp] lemma reading_buffer (x : Bytes) (v : Nat) : (s₀.reading x v).buffer = x := rfl

/-- Parsing the header follows its view. -/
lemma parseHeader_eq (env : Env D) (h₀ : Unwritten s₀) (x : Bytes) (v : Nat) :
    match viewHeader env x with
    | .short => ∃ v', parseHeader env (s₀.reading x v) = (some .insufficientData, s₀.reading x v') ∧
        x.length < kMaxPayloadHeaderSize
    | .bad code => ∃ t, parseHeader env (s₀.reading x v) =
        (some (.error code), t) ∧ t.observe = s₀.observe ∧ t.trace = s₀.trace ∧ t.buffer = x ∧
        code.isHeaderError
    | .known h => parseHeader env (s₀.reading x v) = (none, s₀.withHeader h x) := by
  unfold viewHeader parseHeader
  rw [reading_buffer]
  by_cases hshort : x.length < kDeltaManifestSizeOffset
  · rw [if_pos hshort, if_pos hshort]
    exact ⟨v, rfl, hshort.trans_le (by decide)⟩
  rw [if_neg hshort, if_neg hshort]
  by_cases hmagic : x.take kDeltaMagic.length ≠ kDeltaMagic
  · rw [if_pos hmagic, if_pos hmagic]
    exact ⟨_, rfl, rfl, rfl, rfl, rfl⟩
  rw [if_neg hmagic, if_neg hmagic]
  generalize field x kDeltaVersionOffset kDeltaVersionSize = major
  by_cases hmajor : major ≠ env.supportedMajorVersion ∧ major ≠ kChromeOSMajorPayloadVersion
  · rw [if_pos hmajor, if_pos hmajor]
    exact ⟨_, rfl, rfl, rfl, rfl, rfl⟩
  rw [if_neg hmajor, if_neg hmajor]
  cases hoff : getManifestOffset major with
  | none => exact ⟨_, rfl, rfl, rfl, rfl, rfl⟩
  | some offset =>
    dsimp only
    by_cases hlt : x.length < offset
    · rw [if_pos hlt, if_pos hlt]
      exact ⟨major, rfl, hlt.trans_le (getManifestOffset_le hoff).2.1⟩
    rw [if_neg hlt, if_neg hlt]
    have hsig : (s₀.reading x v).metadataSignatureSize = 0 := h₀.metadataSignatureSize
    rw [hsig]
    by_cases hsize : env.hashChecksMandatory ∧ env.metadataSize ≠
        (offset + field x kDeltaManifestSizeOffset kDeltaManifestSizeSize) % wordSize
    · rw [if_pos hsize, if_pos hsize]
      exact ⟨_, rfl, rfl, rfl, rfl, rfl⟩
    · rw [if_neg hsize, if_neg hsize]
      rfl

/-- The performer while it waits for metadata, after reading `x`. -/
inductive Waiting (env : Env D) (s₀ : Performer D) (x : Bytes) : Performer D → Prop
  | header (v : Nat) : viewHeader env x = .short → x.length < kMaxPayloadHeaderSize →
      Waiting env s₀ x (s₀.reading x v)
  | manifest (h : Header) : viewHeader env x = .known h → x.length < h.metadataEnd →
      Waiting env s₀ x (s₀.withHeader h x)

/-- What `Write` does once it knows the header and has read `y` in all. -/
def manifestOutcome (env : Env D) (s₀ : Performer D) (h : Header) (y : Bytes) : Flow D :=
  if y.length < h.metadataEnd then .stop true .success (s₀.withHeader h y)
  else
    match parseManifest env (s₀.withHeader h (y.take h.metadataEnd)) with
    | (.error e, s) => .stop false e s
    | (.insufficientData, s) => .stop true .success s
    | (.success, s) => acceptManifest env s (y.drop h.metadataEnd)

variable {h : Header} {y : Bytes}

lemma parseManifest_short (hfits : h.Fits) (hlt : y.length < h.metadataEnd) :
    parseManifest env (s₀.withHeader h y) = (.insufficientData, s₀.withHeader h y) := by
  unfold parseManifest
  rw [withHeader_metadataEnd hfits]
  exact if_pos hlt

lemma parseManifest_complete (hfits : h.Fits) (hge : ¬ y.length < h.metadataEnd) :
    (parseManifest env (s₀.withHeader h y)).1 ≠ .insufficientData := by
  unfold parseManifest
  rw [withHeader_metadataEnd hfits]
  have hge' : ¬ (s₀.withHeader h y).buffer.length < h.metadataEnd := hge
  rw [if_neg hge']
  split
  · exact nofun
  · split
    · exact nofun
    · split <;> exact nofun

/-- A performer that has read the metadata `y` and parsed the manifest. -/
def Performer.withManifest (s₀ : Performer D) (h : Header) (y : Bytes) (m : Manifest) :
    Performer D :=
  { s₀.withHeader h y with manifest := m, manifestParsed := true }

lemma parseManifest_success (hp : parseManifest env (s₀.withHeader h y) = (.success, s)) :
    ∃ offset m, getManifestOffset h.major = some offset ∧
      env.parseManifest ((y.drop offset).take h.manifestSize) = some m ∧
      s = s₀.withManifest h y m := by
  unfold parseManifest at hp
  split at hp
  · cases hp
  · split at hp
    · cases hp
    · split at hp
      · cases hp
      case h_2 offset hoff =>
        split at hp
        · cases hp
        case h_2 m hm =>
          exact ⟨offset, m, hoff, hm, (Prod.mk.inj hp).2.symm⟩

variable {x a : Bytes}

/-- The round of the loop that reads the manifest. -/
lemma metadataLoop_manifest (hfits : h.Fits) (hvalid : s₀.manifestValid = false) (rounds : Nat)
    (hx : x.length ≤ h.metadataEnd) (a : Bytes) :
    metadataLoop env (rounds + 1) (s₀.withHeader h x) a = manifestOutcome env s₀ h (x ++ a) := by
  have hcopy : (s₀.withHeader h x).copyDataToBuffer a h.metadataEnd =
      (s₀.withHeader h ((x ++ a).take h.metadataEnd), (x ++ a).drop h.metadataEnd) :=
    copyDataToBuffer_eq hx a
  unfold metadataLoop manifestOutcome
  have hnv : (s₀.withHeader h x).manifestValid = false := hvalid
  rw [hnv, withHeader_isHeaderParsed hfits, withHeader_metadataEnd hfits]
  simp only [Bool.not_true, Bool.false_eq_true, if_false, Bool.false_and]
  rw [hcopy]
  have hparse : ∀ y, parsePayloadMetadata env (s₀.withHeader h y) =
      parseManifest env (s₀.withHeader h y) := by
    intro y
    unfold parsePayloadMetadata
    rw [if_pos (withHeader_isHeaderParsed hfits y)]
  rw [hparse]
  by_cases hlt : (x ++ a).length < h.metadataEnd
  · rw [if_pos hlt, take_of_length_le hlt.le, parseManifest_short hfits hlt]
  · refine Eq.trans ?_ (if_neg hlt).symm
    rcases parseManifest env (s₀.withHeader h ((x ++ a).take h.metadataEnd)) with ⟨r, s⟩
    cases r <;> rfl

/-- Reading up to the limit of the header. -/
lemma copy_header (hx : x.length ≤ kMaxPayloadHeaderSize) (a : Bytes) (v : Nat) :
    (s₀.reading x v).copyDataToBuffer a kMaxPayloadHeaderSize =
      (s₀.reading ((x ++ a).take kMaxPayloadHeaderSize) v, (x ++ a).drop kMaxPayloadHeaderSize) :=
  copyDataToBuffer_eq hx a

lemma reading_isHeaderParsed (h₀ : Unwritten s₀) (x : Bytes) (v : Nat) :
    (s₀.reading x v).isHeaderParsed = false := by
  simp [isHeaderParsed, reading, h₀.metadataSize]

/-- The round of the loop that reads the header. -/
lemma metadataLoop_header (env : Env D) (h₀ : Unwritten s₀) (v : Nat)
    (hx : x.length < kMaxPayloadHeaderSize)
    (hfits : ∀ h, viewHeader env (x ++ a) = .known h → h.Fits) :
    match viewHeader env (x ++ a) with
    | .short => ∃ v', metadataLoop env 2 (s₀.reading x v) a =
        .stop true .success (s₀.reading (x ++ a) v') ∧ (x ++ a).length < kMaxPayloadHeaderSize
    | .bad code => ∃ t, metadataLoop env 2 (s₀.reading x v) a = .stop false code t ∧
        t.observe = s₀.observe ∧ t.trace = s₀.trace ∧
        t.buffer = (x ++ a).take kMaxPayloadHeaderSize ∧ code.isHeaderError
    | .known h => metadataLoop env 2 (s₀.reading x v) a = manifestOutcome env s₀ h (x ++ a) := by
  have hparse := parseHeader_eq env h₀ ((x ++ a).take kMaxPayloadHeaderSize) v
  rw [viewHeader_take] at hparse
  have hinvalid : (s₀.reading x v).manifestValid = false := h₀.valid
  rw [metadataLoop]
  simp only [hinvalid, reading_isHeaderParsed h₀ x v, Bool.false_eq_true, if_false, Bool.not_false,
    if_true, Bool.true_and]
  rw [copy_header hx.le]
  unfold parsePayloadMetadata
  rw [reading_isHeaderParsed h₀, if_neg Bool.false_ne_true]
  cases hview : viewHeader env (x ++ a) with
  | short =>
    rw [hview] at hparse
    obtain ⟨v', hp, hlen⟩ := hparse
    have hall : (x ++ a).length < kMaxPayloadHeaderSize := by
      rw [length_take] at hlen
      omega
    rw [hp]
    refine ⟨v', ?_, hall⟩
    dsimp only
    rw [reading_isHeaderParsed h₀, if_neg Bool.false_ne_true, take_of_length_le hall.le]
  | bad code =>
    rw [hview] at hparse
    obtain ⟨t, hp, hstate⟩ := hparse
    rw [hp]
    exact ⟨t, rfl, hstate⟩
  | known h =>
    rw [hview] at hparse
    have hf := hfits h hview
    have hlong : kMaxPayloadHeaderSize ≤ h.metadataEnd :=
      hf.long.trans le_self_add
    rw [hparse]
    dsimp only
    by_cases hlt : ((x ++ a).take kMaxPayloadHeaderSize).length < h.metadataEnd
    · -- go round again for the manifest
      rw [parseManifest_short hf hlt]
      dsimp only
      rw [withHeader_isHeaderParsed hf, if_pos rfl, metadataLoop_manifest hf h₀.valid 0 hlt.le,
        take_append_drop]
    · -- the metadata is no longer than the header
      have hend : h.metadataEnd = kMaxPayloadHeaderSize := by
        rw [length_take] at hlt
        omega
      have hge : ¬ (x ++ a).length < kMaxPayloadHeaderSize := by
        rw [length_take] at hlt
        omega
      have hcomplete : (parseManifest env
          (s₀.withHeader h ((x ++ a).take kMaxPayloadHeaderSize))).1 ≠ .insufficientData :=
        parseManifest_complete hf hlt
      unfold manifestOutcome
      rw [hend, if_neg hge]
      rcases hp : parseManifest env (s₀.withHeader h ((x ++ a).take kMaxPayloadHeaderSize))
        with ⟨r, s⟩
      rw [hp] at hcomplete
      cases r with
      | success | error => rfl
      | insufficientData => exact absurd rfl hcomplete

/-- The operations are begun with the rest of the bytes untouched, or not at all. -/
lemma beginUpdate_cases (env : Env D) (s : Performer D) :
    (∃ e s', ∀ bytes, beginUpdate env s bytes = .stop false e s') ∨
      ∃ s', (∀ bytes, beginUpdate env s bytes = .go s' bytes) ∧
        s'.manifestValid = s.manifestValid ∧ s'.partitions = s.partitions ∧
        s'.accNumOperations = s.accNumOperations ∧
        s'.numTotalOperations = s.numTotalOperations ∧
        s'.currentPartition = s.currentPartition ∧ s.currentPartition < s.partitions.length ∧
        s'.buffer = s.buffer := by
  obtain ⟨⟨ok, s1⟩, hr, hbuf, hvalid, hps, hacc, htotal, hcur⟩ := primeUpdateState_frame s
  unfold beginUpdate
  rw [hr]
  cases ok with
  | false => exact .inl ⟨_, _, fun _ => rfl⟩
  | true =>
    dsimp only at hbuf hvalid hps hacc htotal hcur ⊢
    cases hopen : openCurrentPartition env s1 with
    | none => exact .inl ⟨_, _, fun _ => rfl⟩
    | some s2 =>
      obtain ⟨hlt, d, rfl⟩ := openCurrentPartition_frame hopen
      rw [hcur, hps] at hlt
      exact .inr ⟨_, fun _ => rfl, hvalid, hps, hacc, htotal, hcur, hlt, hbuf⟩

/-- A manifest is refused, or accepted with the rest of the bytes untouched. -/
lemma acceptManifest_cases (env : Env D) (h₀ : s.partitions = [] ∧ s.accNumOperations = [] ∧
    s.currentPartition = 0) (htame : ∀ op ∈ s.manifest.operations, Tame op) :
    (∃ e s', ∀ bytes, acceptManifest env s bytes = .stop false e s') ∨
      ∃ s', (∀ bytes, acceptManifest env s bytes = .go s' bytes) ∧ Streaming s' ∧
        s'.buffer = [] := by
  unfold acceptManifest
  rcases hprep : prepareUpdate env s with ⟨e, s1⟩
  cases e
  case success =>
    obtain ⟨type, plan, hs1⟩ := prepareUpdate_success hprep
    obtain ⟨ps, m, htake, hops⟩ := takePartitions_frame
      (({ s with payloadType := type, manifestValid := true } : Performer D).discardBuffer false
        s.metadataSize)
    rw [htake] at hs1
    have hps : s1.partitions = ps := congrArg partitions hs1
    have hacc : s1.accNumOperations = [] :=
      (congrArg accNumOperations hs1).trans h₀.2.1
    have hvalid : s1.manifestValid := congrArg manifestValid hs1
    have hbuf : s1.buffer = [] := congrArg buffer hs1
    have hcur : s1.currentPartition = 0 := (congrArg currentPartition hs1).trans h₀.2.2
    dsimp only
    split
    · exact .inl ⟨_, _, fun _ => rfl⟩
    · rcases beginUpdate_cases env s1.countOperations with
        ⟨e, s', hstop⟩ | ⟨s', hgo, hvalid', hps', hacc', htotal', hcur', hlt, hnil⟩
      · exact .inl ⟨e, s', hstop⟩
      · refine .inr ⟨s', hgo, ⟨⟨?_, ?_, ?_, ?_⟩, hvalid'.trans hvalid, ?_⟩, hnil.trans hbuf⟩
        · rw [hacc', hps']
          simp [countOperations, setPref, hacc]
        · rw [htotal', hps']
          rfl
        · rw [hcur', hps']
          exact hlt
        · rw [hcur'.trans hcur]
          exact zero_le
        · intro op hop
          obtain ⟨p, hp, hop⟩ := mem_flatMap.mp hop
          rw [hps'.trans hps] at hp
          exact htame op (hops h₀.1 p hp op hop)
  all_goals exact .inl ⟨_, _, fun _ => rfl⟩

/-- The metadata size of the payload fits, and its operations are tame. -/
structure Admissible (env : Env D) (payload : Bytes) : Prop where
  header : ∀ h, viewHeader env payload = .known h → h.Fits
  tame : ∀ h m, viewHeader env payload = .known h →
    env.parseManifest ((payload.drop h.manifestOffset).take h.manifestSize) = some m →
    ∀ op ∈ m.operations, Tame op

variable {payload : Bytes} {r r' : Bool × ErrorCode × Performer D} {e : ErrorCode}

lemma Admissible.header_of_le (hok : Admissible env payload)
    (hy : y <+: payload) (h : Header) (hview : viewHeader env y = .known h) : h.Fits := by
  obtain ⟨tail, rfl⟩ := hy
  exact hok.header h ((viewHeader_append env tail).2 h hview)

/-- What has been read of the payload decides about its manifest. -/
lemma manifestOutcome_cases (h₀ : Unwritten s₀) (hok : Admissible env payload) (hy : y <+: payload)
    (hview : viewHeader env y = .known h) :
    (y.length < h.metadataEnd ∧
        manifestOutcome env s₀ h y = .stop true .success (s₀.withHeader h y)) ∨
      (∃ e t, ∀ more, manifestOutcome env s₀ h (y ++ more) = .stop false e t) ∨
      ∃ t rest, (∀ more, manifestOutcome env s₀ h (y ++ more) = .go t (rest ++ more)) ∧
        Streaming t ∧ t.buffer = [] := by
  obtain ⟨tail, rfl⟩ := hy
  have hknown := (viewHeader_append env tail).2 h hview
  have hfits := hok.header h hknown
  by_cases hlt : y.length < h.metadataEnd
  · exact .inl ⟨hlt, by unfold manifestOutcome; rw [if_pos hlt]⟩
  · have houtcome : ∀ more, manifestOutcome env s₀ h (y ++ more) =
        match parseManifest env (s₀.withHeader h (y.take h.metadataEnd)) with
        | (.error e, s) => .stop false e s
        | (.insufficientData, s) => .stop true .success s
        | (.success, s) => acceptManifest env s (y.drop h.metadataEnd ++ more) := by
      intro more
      unfold manifestOutcome
      rw [if_neg (by rw [length_append]; omega), take_append_of_le_length (not_lt.mp hlt),
        drop_append_of_le_length (not_lt.mp hlt)]
    have hcomplete : (parseManifest env (s₀.withHeader h (y.take h.metadataEnd))).1 ≠
        .insufficientData :=
      parseManifest_complete hfits (by rw [length_take]; omega)
    right
    rcases hp : parseManifest env (s₀.withHeader h (y.take h.metadataEnd)) with ⟨r, s⟩
    rw [hp] at hcomplete
    simp only [hp] at houtcome
    cases r with
    | insufficientData => exact absurd rfl hcomplete
    | error e => exact .inl ⟨e, s, houtcome⟩
    | success =>
      obtain ⟨offset, m, hoff, hm, rfl⟩ := parseManifest_success hp
      obtain rfl : h.manifestOffset = offset :=
        Option.some.inj ((viewHeader_manifestOffset hview).symm.trans hoff)
      -- the manifest lies within the bytes read
      have hend : h.manifestOffset + h.manifestSize ≤ h.metadataEnd := le_self_add
      have hbytes : ((y.take h.metadataEnd).drop h.manifestOffset).take h.manifestSize =
          ((y ++ tail).drop h.manifestOffset).take h.manifestSize := by
        rw [drop_take, take_take, min_eq_left (by omega), drop_append_of_le_length (by omega),
          take_append_of_le_length (by rw [length_drop]; omega)]
      rw [hbytes] at hm
      rcases acceptManifest_cases env (s := s₀.withManifest h (y.take h.metadataEnd) m)
        ⟨h₀.partitions, h₀.acc, h₀.partition⟩ (hok.tame h m hknown hm) with ⟨e, t, hstop⟩ |
          ⟨t, hgo, ht, hnil⟩
      · exact .inl ⟨e, t, fun more => (houtcome more).trans (hstop _)⟩
      · exact .inr ⟨t, y.drop h.metadataEnd, fun more => (houtcome more).trans (hgo _), ht, hnil⟩

/-! ## Any number of calls -/

/-- The first loop of `Write` goes by the bytes read so far. -/
lemma Waiting.metadataLoop_eq (h₀ : Unwritten s₀) (hs : Waiting env s₀ x s)
    (a : Bytes) (hfits : ∀ h, viewHeader env (x ++ a) = .known h → h.Fits) :
    match viewHeader env (x ++ a) with
    | .short => ∃ v, metadataLoop env 2 s a = .stop true .success (s₀.reading (x ++ a) v) ∧
        (x ++ a).length < kMaxPayloadHeaderSize
    | .bad code => ∃ t, metadataLoop env 2 s a = .stop false code t ∧
        t.observe = s₀.observe ∧ t.trace = s₀.trace ∧
        t.buffer = (x ++ a).take kMaxPayloadHeaderSize ∧ code.isHeaderError
    | .known h => metadataLoop env 2 s a = manifestOutcome env s₀ h (x ++ a) := by
  cases hs with
  | header v hview hx => exact metadataLoop_header env h₀ v hx hfits
  | manifest h hview hx =>
    have hknown := (viewHeader_append env a).2 h hview
    rw [hknown]
    exact metadataLoop_manifest (hfits h hknown) h₀.valid 1 hx.le a

/-- The header of the payload is not acceptable. -/
def Rejected (env : Env D) (payload : Bytes) : Prop := ∃ code, viewHeader env payload = .bad code

lemma rejected_of_le {code : ErrorCode} (hy : y <+: payload)
    (hview : viewHeader env y = .bad code) :
    Rejected env payload := by
  obtain ⟨tail, rfl⟩ := hy
  exact ⟨code, (viewHeader_append env tail).1 code hview⟩

/-- The performer between two calls, after reading `x`. -/
inductive Between (env : Env D) (s₀ : Performer D) (x : Bytes) (s : Performer D) : Prop
  | waiting : Waiting env s₀ x s → Between env s₀ x s
  | streaming : Streaming s → Fits s → Between env s₀ x s

/-- Two results that agree but for the buffer that a rejected header is left in. -/
structure SameOutcome (rejected : Prop) (r r' : Bool × ErrorCode × Performer D) : Prop where
  ok : r.1 = r'.1
  code : r.2.1 = r'.2.1
  observe : r.2.2.observe = r'.2.2.observe
  buffer : ¬ rejected → r.2.2.buffer = r'.2.2.buffer

variable {rejected : Prop}

lemma SameOutcome.symm (h : SameOutcome rejected r r') : SameOutcome rejected r' r :=
  ⟨h.ok.symm, h.code.symm, h.observe.symm, fun hnot => (h.buffer hnot).symm⟩

/-- Such results of a single call and of several, with what they leave behind. -/
structure SameRun (rejected : Prop) (r r' : Bool × ErrorCode × Performer D) : Prop extends
    SameOutcome rejected r r' where
  history : ∃ extra, r'.2.2.history = r.2.2.history ++ extra ∧ r.2.2.prefs.Rewrites extra
  plan : r.2.2.manifestValid = true → r.2.2.plan = r'.2.2.plan

open Prefs

lemma SameRun.rfl : SameRun rejected r r :=
  ⟨⟨.refl _, .refl _, .refl _, fun _ => .refl _⟩, ⟨[], (List.append_nil _).symm,
    rewrites_nil _⟩, fun _ => .refl _⟩

lemma SameRun.trans {r'' : Bool × ErrorCode × Performer D} (h : SameRun rejected r r')
    (h' : SameRun rejected r' r'') : SameRun rejected r r'' := by
  have hprefs : r.2.2.prefs = r'.2.2.prefs := congrArg Observed.prefs h.observe
  obtain ⟨extra, hhist, hre⟩ := h.history
  obtain ⟨extra', hhist', hre'⟩ := h'.history
  refine ⟨⟨h.ok.trans h'.ok, h.code.trans h'.code, h.observe.trans h'.observe,
    fun hnot => (h.buffer hnot).trans (h'.buffer hnot)⟩,
    ⟨extra ++ extra', by rw [hhist', hhist, append_assoc], ?_⟩, fun hvalid => ?_⟩
  · intro w hw
    rcases mem_append.mp hw with hw | hw
    · exact hre w hw
    · rw [hprefs]
      exact hre' w hw
  · have hplan := h.plan hvalid
    exact hplan.trans (h'.plan ((congrArg Plan.manifestValid hplan).symm.trans hvalid))

/-- Runs in which the header was rejected. -/
lemma SameRun.of_rejected {t t' : Performer D} (hrejected : rejected)
    (hobs : t.observe = t'.observe) (htrace : t.trace = t'.trace) (hvalid : t.trace.2 = false) :
    SameRun rejected (false, e, t) (false, e, t') :=
  ⟨⟨.refl _, .refl _, hobs, fun h => absurd hrejected h⟩,
    ⟨[], (congrArg Prod.fst htrace).symm.trans (List.append_nil _).symm, rewrites_nil _⟩,
    fun h => absurd h (by rw [show t.manifestValid = false from hvalid]; exact Bool.noConfusion)⟩

lemma SameResult.sameRun (h : SameResult r r') : SameRun rejected r r' :=
  have hobserve : ∀ s : Performer D, s.forget.observe = s.observe := fun _ => .refl _
  have hbuffer : ∀ s : Performer D, s.forget.buffer = s.buffer := fun _ => .refl _
  have hplan : ∀ s : Performer D, s.forget.plan = s.plan := fun _ => .refl _
  ⟨⟨h.ok, h.code, by rw [← hobserve, h.state, hobserve],
    fun _ => by rw [← hbuffer, h.state, hbuffer]⟩, h.history,
    fun _ => by rw [← hplan, h.state, hplan]⟩

section

variable (h₀ : Unwritten s₀)

include h₀

section

variable (hok : Admissible env payload)

include hok

/-- A call that succeeds leaves a performer between two calls. -/
lemma Between.write_waits (hle : x ++ a <+: payload) (hs : Between env s₀ x s)
    (hwrite : write env s a = (true, e, s')) : e = .success ∧ Between env s₀ (x ++ a) s' := by
  cases hs with
  | streaming hstream hfits =>
    rw [hstream.write_eq] at hwrite
    obtain ⟨he, hs', hfits'⟩ := writeData_waits hstream hfits hwrite
    exact ⟨he, .streaming hs' hfits'⟩
  | waiting hwait =>
    have hloop := hwait.metadataLoop_eq h₀ a (hok.header_of_le hle)
    unfold write at hwrite
    cases hview : viewHeader env (x ++ a) with
    | short =>
      rw [hview] at hloop
      obtain ⟨v, hl, hlen⟩ := hloop
      rw [hl] at hwrite
      cases hwrite
      exact ⟨rfl, .waiting (.header v hview hlen)⟩
    | bad code =>
      rw [hview] at hloop
      obtain ⟨t, hl, -⟩ := hloop
      rw [hl] at hwrite
      cases hwrite
    | known h =>
      rw [hview] at hloop
      rw [hloop] at hwrite
      rcases manifestOutcome_cases h₀ hok hle hview with
        ⟨hlt, hshort⟩ | ⟨e', t, hstop⟩ | ⟨t, rest, hgo, hstream, hnil⟩
      · rw [hshort] at hwrite
        cases hwrite
        exact ⟨rfl, .waiting (.manifest h hview hlt)⟩
      · have hstop' := hstop []
        rw [append_nil] at hstop'
        rw [hstop'] at hwrite
        cases hwrite
      · have hgo' := hgo []
        rw [append_nil] at hgo'
        rw [hgo'] at hwrite
        obtain ⟨he, hs', hfits'⟩ := writeData_waits hstream (.inl hnil) hwrite
        exact ⟨he, .streaming hs' hfits'⟩

/-- A call of `Write` that is cut inside the header. -/
lemma Waiting.write_append_short {b : Bytes} (hle : x ++ a ++ b <+: payload)
    (hs : Waiting env s₀ x s) (hview : viewHeader env (x ++ a) = .short) :
    SameRun (Rejected env payload) (write env s (a ++ b)) (resumeWrite env b (write env s a)) := by
  have hloop := hs.metadataLoop_eq h₀ a (hok.header_of_le ((prefix_append _ _).trans hle))
  have hwhole := hs.metadataLoop_eq h₀ (a ++ b)
    (by rw [← append_assoc]; exact hok.header_of_le hle)
  rw [← append_assoc] at hwhole
  rw [hview] at hloop
  obtain ⟨v, hl, hlen⟩ := hloop
  have hwrite : write env s a = (true, .success, s₀.reading (x ++ a) v) := by
    unfold write
    rw [hl]
  have hwait : Waiting env s₀ (x ++ a) (s₀.reading (x ++ a) v) := .header v hview hlen
  have hnext := hwait.metadataLoop_eq h₀ b (hok.header_of_le hle)
  rw [hwrite]
  change SameRun _ _ (write env _ b)
  unfold write
  cases hview' : viewHeader env (x ++ a ++ b) with
  | short =>
    rw [hview'] at hwhole hnext
    obtain ⟨v1, h1, -⟩ := hwhole
    obtain ⟨v2, h2, -⟩ := hnext
    rw [h1, h2]
    exact ⟨⟨rfl, rfl, rfl, fun _ => rfl⟩, ⟨[], (append_nil _).symm, rewrites_nil _⟩,
      fun hvalid => absurd hvalid (by simp [reading, h₀.valid])⟩
  | bad code =>
    rw [hview'] at hwhole hnext
    obtain ⟨t1, h1, hobs1, hhist1, -⟩ := hwhole
    obtain ⟨t2, h2, hobs2, hhist2, -⟩ := hnext
    rw [h1, h2]
    exact .of_rejected (rejected_of_le hle hview') (hobs1.trans hobs2.symm)
      (hhist1.trans hhist2.symm) (hhist1 ▸ h₀.valid)
  | known h =>
    rw [hview'] at hwhole hnext
    rw [hwhole, hnext]
    exact .rfl

/-- A call of `Write` that is cut after the header. -/
lemma Waiting.write_append_known {b : Bytes} {h : Header} (hle : x ++ a ++ b <+: payload)
    (hs : Waiting env s₀ x s) (hview : viewHeader env (x ++ a) = .known h) :
    SameRun (Rejected env payload) (write env s (a ++ b)) (resumeWrite env b (write env s a)) := by
  have hfirst : x ++ a <+: payload := (prefix_append _ _).trans hle
  have hknown := (viewHeader_append env b).2 h hview
  have hloop := hs.metadataLoop_eq h₀ a (hok.header_of_le hfirst)
  have hwhole := hs.metadataLoop_eq h₀ (a ++ b)
    (by rw [← append_assoc]; exact hok.header_of_le hle)
  rw [hview] at hloop
  rw [← append_assoc, hknown] at hwhole
  rcases manifestOutcome_cases h₀ hok hfirst hview with
    ⟨hlt, hshort⟩ | ⟨e', t, hstop⟩ | ⟨t, rest, hgo, hstream, hnil⟩
  · -- the manifest goes on in the second piece
    have hpiece : write env s a = (true, .success, s₀.withHeader h (x ++ a)) := by
      unfold write
      rw [hloop, hshort]
    rw [hpiece]
    change SameRun _ _ (write env _ b)
    unfold write
    rw [hwhole, metadataLoop_manifest (hok.header_of_le hle h hknown) h₀.valid 1 hlt.le]
    exact .rfl
  · have hpiece : write env s a = (false, e', t) := by
      have hstop' := hstop []
      rw [append_nil] at hstop'
      unfold write
      rw [hloop, hstop']
    rw [hpiece, write, hwhole, hstop]
    exact .rfl
  · have hpiece : write env s a = writeData env t rest := by
      have hgo' := hgo []
      rw [append_nil, append_nil] at hgo'
      unfold write
      rw [hloop, hgo']
    rw [hpiece, write, hwhole, hgo]
    exact (writeData_append hstream (.inl hnil) rest b).sameRun

/-- A call of `Write`, cut at any byte. -/
lemma Between.write_append {b : Bytes} (hle : x ++ a ++ b <+: payload) (hs : Between env s₀ x s) :
    SameRun (Rejected env payload) (write env s (a ++ b)) (resumeWrite env b (write env s a)) := by
  cases hs with
  | streaming hstream hfits =>
    rw [hstream.write_eq, hstream.write_eq]
    exact (writeData_append hstream hfits a b).sameRun
  | waiting hwait =>
    cases hview : viewHeader env (x ++ a) with
    | short => exact hwait.write_append_short h₀ hok hle hview
    | known h => exact hwait.write_append_known h₀ hok hle hview
    | bad code =>
      have hfirst : x ++ a <+: payload := (prefix_append _ _).trans hle
      have hloop := hwait.metadataLoop_eq h₀ a (hok.header_of_le hfirst)
      have hwhole := hwait.metadataLoop_eq h₀ (a ++ b)
        (by rw [← append_assoc]; exact hok.header_of_le hle)
      rw [hview] at hloop
      rw [← append_assoc, (viewHeader_append env b).1 code hview] at hwhole
      obtain ⟨t1, h1, hobs1, hhist1, -⟩ := hwhole
      obtain ⟨t2, h2, hobs2, hhist2, -⟩ := hloop
      unfold write
      rw [h1, h2]
      exact .of_rejected (rejected_of_le hfirst hview) (hobs1.trans hobs2.symm)
        (hhist1.trans hhist2.symm) (hhist1 ▸ h₀.valid)

/-- One call after another, from a performer between two calls. -/
lemma Between.writeAll_cons
    (chunks : List Bytes) : ∀ {s : Performer D} {x c : Bytes}, Between env s₀ x s →
      x ++ c ++ chunks.flatten <+: payload →
      SameRun (Rejected env payload) (write env s (c ++ chunks.flatten))
        (writeAll env s (c :: chunks)) := by
  induction chunks with
  | nil =>
    intro s x c hs hle
    rw [flatten_nil, append_nil] at *
    unfold writeAll
    rcases hwrite : write env s c with ⟨ok, e, s'⟩
    cases ok with
    | false => exact .rfl
    | true =>
      obtain ⟨rfl, -⟩ := hs.write_waits h₀ hok hle hwrite
      exact .rfl
  | cons c' chunks ih =>
    intro s x c hs hle
    have happend := hs.write_append h₀ hok hle
    refine happend.trans ?_
    rw [writeAll]
    rcases hwrite : write env s c with ⟨ok, e, s'⟩
    cases ok with
    | false => exact .rfl
    | true =>
      have hfirst : x ++ c <+: payload := (prefix_append _ _).trans hle
      obtain ⟨-, hs'⟩ := hs.write_waits h₀ hok hfirst hwrite
      exact ih hs' (by rw [append_assoc (x ++ c)]; exact hle)

end

lemma Unwritten.reading_nil : s₀.reading [] s₀.majorPayloadVersion = s₀ := by
  unfold reading
  rw [← h₀.buffer]

lemma Unwritten.between (env : Env D) : Between env s₀ [] s₀ := by
  have hwait : Waiting env s₀ [] (s₀.reading [] s₀.majorPayloadVersion) :=
    .header _ rfl (by decide)
  rw [h₀.reading_nil] at hwait
  exact .waiting hwait

/-- A call without bytes does nothing to a performer to which nothing was written. -/
lemma Unwritten.write_nil (env : Env D) :
    SameRun rejected (write env s₀ []) (true, .success, s₀) := by
  have hlen : ∀ {n}, 0 < n → s₀.buffer.length < n := fun hn => by rw [h₀.buffer]; exact hn
  have hs0 : (s₀.copyDataToBuffer [] kMaxPayloadHeaderSize).1 = s₀ := by
    simp [Performer.copyDataToBuffer]
  have hparsed : s₀.isHeaderParsed = false := by simp [Performer.isHeaderParsed, h₀.metadataSize]
  have hparse : parsePayloadMetadata env s₀ = (.insufficientData, s₀) := by
    unfold parsePayloadMetadata parseHeader
    rw [hparsed, if_neg Bool.false_ne_true, if_pos (hlen (by decide))]
  unfold write
  simp only [metadataLoop, h₀.valid, hparsed, Bool.not_false, if_true]
  rw [hs0, hparse]
  dsimp only
  rw [hparsed]
  exact .rfl

lemma writeAll_sameRun (chunks : List Bytes) (hok : Admissible env chunks.flatten) :
    SameRun (Rejected env chunks.flatten) (write env s₀ chunks.flatten)
      (writeAll env s₀ chunks) := by
  cases chunks with
  | nil => exact h₀.write_nil env
  | cons c cs => exact (h₀.between env).writeAll_cons h₀ hok cs (prefix_refl _)

/-- The first call in which the header is found not to be acceptable leaves as much of it in the
buffer as has arrived. -/
lemma Waiting.writeAll_rejected {code : ErrorCode} (chunks : List Bytes) :
    ∀ {s : Performer D} {x : Bytes}, Waiting env s₀ x s → viewHeader env x = .short →
      viewHeader env (x ++ chunks.flatten) = .bad code →
      ∃ k ≤ chunks.length, (∀ j < k, (writeAll env s (chunks.take j)).1 = true) ∧
        ∃ t, writeAll env s (chunks.take k) = (false, code, t) ∧
          writeAll env s chunks = (false, code, t) ∧ code.isHeaderError ∧
          t.buffer = (x ++ (chunks.take k).flatten).take kMaxPayloadHeaderSize := by
  induction chunks with
  | nil =>
    intro s x _ hshort hbad
    rw [flatten_nil, append_nil, hshort] at hbad
    cases hbad
  | cons c chunks ih =>
    intro s x hwait hshort hbad
    rw [flatten_cons, ← append_assoc] at hbad
    have hloop := hwait.metadataLoop_eq h₀ c fun h hknown => by
      rw [(viewHeader_append env _).2 h hknown] at hbad
      cases hbad
    cases hview : viewHeader env (x ++ c) with
    | short =>
      rw [hview] at hloop
      obtain ⟨v, hl, hlen⟩ := hloop
      have hwrite : write env s c = (true, .success, s₀.reading (x ++ c) v) := by
        unfold write
        rw [hl]
      obtain ⟨k, hk, hbefore, t, htake, hall, hcode, hbuffer⟩ :=
        ih (.header v hview hlen) hview hbad
      refine ⟨k + 1, Nat.succ_le_succ hk, fun j hj => ?_, t, ?_, ?_, hcode, ?_⟩
      · cases j with
        | zero => rfl
        | succ j =>
          rw [take_succ_cons, writeAll, hwrite]
          exact hbefore j (Nat.lt_of_succ_lt_succ hj)
      · rw [take_succ_cons, writeAll, hwrite]
        exact htake
      · rw [writeAll, hwrite]
        exact hall
      · rw [hbuffer, take_succ_cons, flatten_cons, append_assoc]
    | bad code' =>
      obtain rfl : code' = code :=
        HeaderView.bad.inj (((viewHeader_append env _).1 code' hview).symm.trans hbad)
      rw [hview] at hloop
      obtain ⟨t, hl, -, -, hbuffer, hcode⟩ := hloop
      have hwrite : write env s c = (false, code', t) := by
        unfold write
        rw [hl]
      have hone (cs : List Bytes) : writeAll env s (c :: cs) = (false, code', t) := by
        rw [writeAll, hwrite]
      refine ⟨1, Nat.succ_le_succ (Nat.zero_le _), fun j hj => ?_, t, hone _, hone _, hcode, ?_⟩
      · rw [Nat.lt_one_iff.mp hj]
        rfl
      · rw [hbuffer, take_succ_cons, take_zero, flatten_singleton]
    | known h =>
      rw [(viewHeader_append env _).2 h hview] at hbad
      cases hbad

end

/-- However a payload is cut into calls of `Write`, the operations performed with their data, the
offsets, the hash states, the signature, the preferences and the result are those of a single call,
and the buffer too unless the header is rejected.  Then the first call to find that leaves as much
of the header in the buffer as has arrived. -/
theorem writeAll_eq_write (h₀ : Unwritten s₀) (chunks : List Bytes)
    (hok : Admissible env chunks.flatten) :
    SameOutcome (Rejected env chunks.flatten) (writeAll env s₀ chunks)
      (write env s₀ chunks.flatten) ∧
    ∀ code, viewHeader env chunks.flatten = .bad code →
      ∃ k ≤ chunks.length, (∀ j < k, (writeAll env s₀ (chunks.take j)).1 = true) ∧
        ∃ t, writeAll env s₀ (chunks.take k) = (false, code, t) ∧
          writeAll env s₀ chunks = (false, code, t) ∧ code.isHeaderError ∧
          t.buffer = (chunks.take k).flatten.take kMaxPayloadHeaderSize := by
  refine ⟨(writeAll_sameRun h₀ chunks hok).toSameOutcome.symm, fun code hbad => ?_⟩
  have hwait : Waiting env s₀ [] (s₀.reading [] s₀.majorPayloadVersion) :=
    .header _ rfl (by decide)
  rw [h₀.reading_nil] at hwait
  exact hwait.writeAll_rejected h₀ chunks rfl hbad

end

/-! ## Payloads in pieces -/

/-- Two operations, with two bytes and one byte of data. -/
def sampleManifest : Manifest :=
  fullManifest [
    { type := .replace, dataOffset := some 0, dataLength := some 2 },
    { type := .replaceBz, dataOffset := some 2, dataLength := some 1 }]

lemma admissible_idle {m : Manifest} {payload : Bytes}
    (hview : viewHeader (idleEnv m) payload = .known ⟨2, 24, 0, 0⟩)
    (htame : ∀ op ∈ m.operations, (op.type = .move ∨ op.type = .sourceCopy → op.length = 0) ∧
      op.offset + op.length < 2 ^ 32) : Admissible (idleEnv m) payload := by
  refine ⟨fun h hh => ?_, fun h m' _ hm => ?_⟩
  · obtain rfl := HeaderView.known.inj (hview.symm.trans hh)
    exact ⟨by decide, by decide⟩
  · obtain rfl : m = m' := Option.some.inj hm
    exact fun op hop => ⟨(htame op hop).1, (htame op hop).2⟩

/-- A payload cut inside its header and inside the data of an operation. -/
theorem writeAll_eq_write_sample :
    let chunks := [emptyHeader.take 7, emptyHeader.drop 7 ++ [1], [2, 3]]
    let s₀ : Performer Unit := { prefs := {}, device := () }
    SameOutcome (Rejected (idleEnv sampleManifest) chunks.flatten)
      (writeAll (idleEnv sampleManifest) s₀ chunks)
      (write (idleEnv sampleManifest) s₀ chunks.flatten) ∧
    (writeAll (idleEnv sampleManifest) s₀ chunks).2.2.performed.length = 2 :=
  ⟨(writeAll_eq_write ⟨rfl, rfl, rfl, rfl, rfl, rfl, rfl⟩
    [emptyHeader.take 7, emptyHeader.drop 7 ++ [1], [2, 3]]
    (admissible_idle (by decide +kernel) (by decide))).1, by decide⟩

/-- The header of a payload of version 1 with a manifest of four bytes. -/
def legacyHeader : Bytes :=
  kDeltaMagic ++ BigEndian.encode kDeltaVersionSize kChromeOSMajorPayloadVersion ++
    BigEndian.encode kDeltaManifestSizeSize 4

/-- A move that comes with data it does not use, then a full operation. -/
def unusedDataManifest : Manifest :=
  fullManifest [
    { type := .move, dataOffset := some 0, dataLength := some 2 },
    { type := .replace, dataOffset := some 0, dataLength := some 1 }]

/-- An operation with data that end behind `2 ^ 32`. -/
def farDataManifest : Manifest :=
  fullManifest [{ type := .replace, dataOffset := some 0xffffffff, dataLength := some 2 }]

/-- Of a rejected header the buffer keeps as much as had arrived.  The unused data of a move stay in
the buffer, where they make the limit for the next operation wrap around when more bytes arrive.
And an operation with data that end behind `2 ^ 32` is tried, and fails, before all of them are
there. -/
theorem write_depends_on_cut :
    (let env := { idleEnv {} with hashChecksMandatory := true }
     let s₀ : Performer Unit := { prefs := {}, device := () }
     (write env s₀ (legacyHeader ++ [1, 2, 3, 4])).2.2.buffer = legacyHeader ++ [1, 2, 3, 4] ∧
      (writeAll env s₀ [legacyHeader, [1, 2, 3, 4]]).2.2.buffer = legacyHeader) ∧
    (let env := idleEnv unusedDataManifest
     let s₀ : Performer Unit := { prefs := {}, device := () }
     (write env s₀ (emptyHeader ++ [1, 2, 3])).2.2.bufferOffset = 3 ∧
      (writeAll env s₀ [emptyHeader ++ [1, 2], [3]]).2.2.bufferOffset = 2) ∧
    (let env := idleEnv farDataManifest
     let s₀ : Performer Unit := { prefs := {}, device := () }
     (write env s₀ (emptyHeader ++ [1, 2])).2.2.buffer = [1, 2] ∧
      (writeAll env s₀ [emptyHeader ++ [1], [2]]).2.2.buffer = [1]) := by
  decide +kernel

end UpdateEngine
