import AlpsSystem.UpdateEngine.Chunking

/-!
# The state after the metadata

Where a performer stands when it has accepted the metadata of a payload and begins with
the operations.
-/

namespace UpdateEngine

variable {D : Type} {env : Env D} {s s' s₀ : Performer D} {h : Header} {payload y : Bytes}

/-- A call of `Write` with all of the metadata. -/
lemma write_eq_of_known (h0 : Unwritten s₀)
    (hview : viewHeader env payload = .known h) (hfits : h.Fits)
    (hlen : h.metadataEnd ≤ payload.length) :
    write env s₀ payload =
      match parseManifest env (s₀.withHeader h (payload.take h.metadataEnd)) with
      | (.error e, s) => (false, e, s)
      | (.insufficientData, s) => (true, .success, s)
      | (.success, s) =>
        match acceptManifest env s (payload.drop h.metadataEnd) with
        | .stop ok e s => (ok, e, s)
        | .go s bytes => writeData env s bytes := by
  have hloop := metadataLoop_header (x := []) env h0 s₀.majorPayloadVersion
    (by decide) (fun h' hh' => by
      rw [List.nil_append, hview] at hh'
      exact HeaderView.known.inj hh' ▸ hfits)
  rw [List.nil_append, hview, h0.reading_nil] at hloop
  unfold write
  rw [hloop]
  unfold manifestOutcome
  rw [if_neg (not_lt.mpr hlen)]
  rcases parseManifest env (s₀.withHeader h (payload.take h.metadataEnd)) with ⟨r, t⟩
  cases r <;> rfl

/-- The manifest of the metadata `y` is found to be `m`, whoever reads it. -/
def ReadsManifest (env : Env D) (h : Header) (y : Bytes) (m : Manifest) : Prop :=
  ∀ s : Performer D, parseManifest env (s.withHeader h y) = (.success, s.withManifest h y m)

lemma readsManifest_of_parse (hp : parseManifest env (s₀.withHeader h y) = (.success, s)) :
    ∃ m, ReadsManifest env h y m ∧ s = s₀.withManifest h y m := by
  obtain ⟨offset, m, hoff, hm, rfl⟩ := parseManifest_success hp
  refine ⟨m, fun t => ?_, rfl⟩
  unfold parseManifest at hp ⊢
  have hend : (t.withHeader h y).metadataEnd = (s₀.withHeader h y).metadataEnd := rfl
  have hvalid : validateMetadataSignature env (t.withHeader h y) =
      validateMetadataSignature env (s₀.withHeader h y) := rfl
  have hbuf : (t.withHeader h y).buffer = (s₀.withHeader h y).buffer := rfl
  rw [hend, hvalid, hbuf]
  split at hp
  · cases hp
  case isFalse hlen =>
    split at hp
    · cases hp
    case isFalse hsig =>
      have hmajor : getManifestOffset (t.withHeader h y).majorPayloadVersion = some offset := hoff
      have hparse : env.parseManifest (((s₀.withHeader h y).buffer.drop offset).take
          (t.withHeader h y).manifestSize) = some m := hm
      rw [if_neg hlen, if_neg hsig, hmajor]
      dsimp only
      rw [hparse]
      rfl

/-- A call that succeeds with all of the metadata has accepted it, and goes on to the
operations. -/
lemma write_of_metadata (h0 : Unwritten s₀)
    (hview : viewHeader env payload = .known h) (hfits : h.Fits)
    (hlen : h.metadataEnd ≤ payload.length) {e : ErrorCode}
    (hwrite : write env s₀ payload = (true, e, s')) :
    ∃ m t1 t, ReadsManifest env h (payload.take h.metadataEnd) m ∧
      prepareUpdate env (s₀.withManifest h (payload.take h.metadataEnd) m) = (.success, t1) ∧
      env.alreadyApplied = false ∧
      beginUpdate env t1.countOperations (payload.drop h.metadataEnd) =
        .go t (payload.drop h.metadataEnd) ∧
      writeData env t (payload.drop h.metadataEnd) = (true, e, s') := by
  rw [write_eq_of_known h0 hview hfits hlen] at hwrite
  rcases hp : parseManifest env (s₀.withHeader h (payload.take h.metadataEnd)) with ⟨r, t0⟩
  have hcomplete : (parseManifest env (s₀.withHeader h (payload.take h.metadataEnd))).1 ≠
      .insufficientData :=
    parseManifest_complete hfits (by rw [List.length_take]; omega)
  rw [hp] at hwrite hcomplete
  cases r with
  | error e => cases hwrite
  | insufficientData => exact absurd rfl hcomplete
  | success =>
    obtain ⟨m, hreads, rfl⟩ := readsManifest_of_parse hp
    dsimp only at hwrite
    unfold acceptManifest at hwrite
    rcases hprep : prepareUpdate env (s₀.withManifest h (payload.take h.metadataEnd) m)
      with ⟨code, t1⟩
    rw [hprep] at hwrite
    cases code
    case success =>
      dsimp only at hwrite
      cases happlied : env.alreadyApplied with
      | true =>
        rw [happlied] at hwrite
        cases hwrite
      | false =>
        rw [happlied] at hwrite
        rcases beginUpdate_cases env t1.countOperations with ⟨e', t, hstop⟩ | ⟨t, hgo, -⟩
        · rw [hstop] at hwrite
          cases hwrite
        · rw [hgo] at hwrite
          exact ⟨m, t1, t, hreads, hprep, rfl, hgo _, hwrite⟩
    all_goals cases hwrite

/-! ## Before the first operation -/

/-- A new performer, for a payload of the given type. -/
def Performer.start (type : InstallPayloadType) (plan : List InstallPartition) (prefs : Prefs)
    (device : D) : Performer D :=
  { prefs := prefs, device := device, payloadType := type, installPartitions := plan }

open Performer

lemma unwritten_start (type : InstallPayloadType) (plan : List InstallPartition) (prefs : Prefs)
    (device : D) : Unwritten (start type plan prefs device) :=
  ⟨rfl, rfl, rfl, rfl, rfl, rfl, rfl⟩

/-- The preferences hold no update that was begun. -/
def Prefs.Idle (prefs : Prefs) : Prop := ∀ n, prefs.nextOperation = some n → n ≤ 0

/-- The partitions that a manifest describes. -/
def Manifest.allPartitions (m : Manifest) (major : Nat) : List PartitionUpdate :=
  if major = kBrilloMajorPayloadVersion then m.partitions
  else if major = kChromeOSMajorPayloadVersion then legacyPartitions m
  else []

lemma takePartitions_eq (hnil : s.partitions = []) : ∃ m,
    s.takePartitions = { s with
      partitions := s.manifest.allPartitions s.majorPayloadVersion, manifest := m } ∧
      m.signaturesOffset = s.manifest.signaturesOffset ∧
      m.signaturesSize = s.manifest.signaturesSize := by
  unfold takePartitions Manifest.allPartitions
  split
  · exact ⟨_, rfl, rfl, rfl⟩
  · split
    · rw [hnil]
      exact ⟨_, rfl, rfl, rfl⟩
    · rw [← hnil]
      exact ⟨s.manifest, rfl, rfl, rfl⟩

lemma primeUpdateState_idle (h : s.prefs.Idle) :
    primeUpdateState s =
      (true, { s with blockSize := (s.manifest.blockSize.getD 4096).toNat }) := by
  unfold primeUpdateState
  dsimp only
  cases hnext : s.prefs.nextOperation with
  | none => rfl
  | some n =>
    dsimp only
    rw [if_pos (h n hnext)]

/-- The performer before the first operation of a payload with the metadata `y`. -/
structure Started (h : Header) (y : Bytes) (m : Manifest) (t : Performer D) : Prop
    extends Located t where
  buffer : t.buffer = []
  bufferOffset : t.bufferOffset = 0
  next : t.nextOperationNum = 0
  payloadHash : t.payloadHash = y
  signedHash : t.signedHash = y.take (h.metadataSize % wordSize)
  signature : t.signaturesMessageData = []
  major : t.majorPayloadVersion = h.major
  metadataSize : t.metadataSize = h.metadataSize % wordSize
  metadataSignatureSize : t.metadataSignatureSize = h.signatureSize
  signaturesOffset : t.manifest.signaturesOffset = m.signaturesOffset
  signaturesSize : t.manifest.signaturesSize = m.signaturesSize
  partitions : t.partitions = m.allPartitions h.major
  performed : t.performed = []

lemma started_of_begin {type : InstallPayloadType} {plan : List InstallPartition} {prefs : Prefs}
    {device : D} (hidle : prefs.Idle) {m : Manifest} {t1 t : Performer D}
    (hprep : prepareUpdate env ((start type plan prefs device).withManifest h y m) =
      (.success, t1)) {bytes : Bytes}
    (hbegin : beginUpdate env t1.countOperations bytes = .go t bytes) : Started h y m t := by
  obtain ⟨type', plan', rfl⟩ := prepareUpdate_success hprep
  generalize hx : ({ (start type plan prefs device).withManifest h y m with
    payloadType := type', manifestValid := true } : Performer D).discardBuffer false
      ((start type plan prefs device).withManifest h y m).metadataSize = x at hbegin
  obtain ⟨m', htake, hoff, hsize⟩ := takePartitions_eq (s := x) (by rw [← hx]; rfl)
  rw [htake] at hbegin
  unfold beginUpdate at hbegin
  rw [primeUpdateState_idle (by rw [← hx]; exact hidle)] at hbegin
  dsimp only at hbegin
  split at hbegin
  · cases hbegin
  case h_2 t' hopen =>
    obtain ⟨hlt, d, rfl⟩ := openCurrentPartition_frame hopen
    obtain rfl : _ = t := (Flow.go.inj hbegin).1
    subst hx
    exact {
      acc := rfl, total := rfl, partition := hlt, before := zero_le
      buffer := rfl, bufferOffset := rfl, next := rfl, payloadHash := rfl, signedHash := rfl
      signature := rfl, major := rfl, metadataSize := rfl, metadataSignatureSize := rfl
      signaturesOffset := hoff, signaturesSize := hsize, partitions := rfl, performed := rfl }

end UpdateEngine
