import AlpsSystem.UpdateEngine.PayloadFile
import AlpsSystem.UpdateEngine.Reading

/-!
# What is signed and what is read

`WritePayload` signs a hash over parts of the file it writes; a performer that reads the
file hashes the parts it takes to be signed.  Version 1 has them agree.  In version 2 the
writer leaves the metadata's signature in its hash, because the size that it skips is
still 0, and cuts off as many bytes at the end.

* `signed_eq_read` — when they are the bytes that are read.
-/

namespace UpdateEngine

open List

variable {D : Type} {env : Env D} {sg : Signer} {key : RsaKey}
  {dataBlobs hash b serialized signature : Bytes} {n major : Nat} {f : PayloadFile}
  {u : UnsignedPayload} {s' : Performer D} {e : ErrorCode} {type : InstallPayloadType}
  {plan : List InstallPartition} {prefs : Prefs} {device : D} {m : Manifest}

/-! ## The blobs -/

/-- The length of the data of the operations that have any. -/
def dataLength (ops : List InstallOperation) : Nat :=
  ((ops.filter (·.dataOffset.isSome)).map (·.length)).sum

lemma dataLength_append (l l' : List InstallOperation) :
    dataLength (l ++ l') = dataLength l + dataLength l' := by
  simp [dataLength]

lemma reorderOperation_length {out out' : Bytes} {aop aop' : AnnotatedOperation}
    (h : reorderOperation sg dataBlobs out aop = some (aop', out')) :
    out'.length = out.length + dataLength [aop.op] ∧
      dataLength [aop'.op] = dataLength [aop.op] := by
  unfold reorderOperation at h
  split at h
  case h_1 hnone =>
    cases h
    simp [dataLength, hnone]
  case h_2 offset hoffset =>
    split at h
    · cases h
    case h_2 length hlength =>
      dsimp only at h
      split at h
      · cases h
      case isFalse hlen =>
        rw [not_not] at hlen
        cases h
        rw [length_append, hlen]
        simp [dataLength, InstallOperation.length, hoffset, hlength]

open Option

lemma reorderOperations_length {aops aops' : List AnnotatedOperation} {out out' : Bytes}
    (h : reorderOperations sg dataBlobs aops out = some (aops', out')) :
    out'.length = out.length + dataLength (aops.map (·.op)) ∧
      dataLength (aops'.map (·.op)) = dataLength (aops.map (·.op)) := by
  induction aops generalizing out aops' with
  | nil =>
    cases h
    exact ⟨rfl, rfl⟩
  | cons aop aops ih =>
    obtain ⟨⟨aop1, out1⟩, h1, h⟩ := bind_eq_some_iff.mp h
    obtain ⟨⟨aops2, out2⟩, h2, h⟩ := bind_eq_some_iff.mp h
    cases h
    have hone := reorderOperation_length h1
    have hrest := ih h2
    have hcons (op : InstallOperation) (ops : List InstallOperation) :
        dataLength (op :: ops) = dataLength [op] + dataLength ops := dataLength_append [op] ops
    rw [map_cons, map_cons, hcons aop.op (aops.map _), hcons aop1.op (aops2.map _)]
    omega

open PayloadFile

lemma reorderDataBlobs_length {parts parts' : List PayloadFile.Partition} {out out' : Bytes}
    (h : reorderDataBlobs sg dataBlobs parts out = some (parts', out')) :
    out'.length = out.length + dataLength (operations parts) ∧
      dataLength (operations parts') = dataLength (operations parts) := by
  induction parts generalizing out parts' with
  | nil =>
    cases h
    exact ⟨rfl, rfl⟩
  | cons part parts ih =>
    obtain ⟨⟨aops1, out1⟩, h1, h⟩ := bind_eq_some_iff.mp h
    obtain ⟨⟨parts2, out2⟩, h2, h⟩ := bind_eq_some_iff.mp h
    cases h
    have hone := reorderOperations_length h1
    have hrest := ih h2
    simp only [operations, flatMap_cons, dataLength_append] at hrest ⊢
    omega

/-- The offset after the last blob; it stays below `2 ^ 33` because every blob begins
below `2 ^ 32`. -/
lemma checkBlobOrder_eq {ops : List InstallOperation} {start stop : Nat}
    (h : checkBlobOrder ops start = some stop) :
    stop = start + dataLength ops ∧ (start < 2 ^ 33 → stop < 2 ^ 33) := by
  induction ops generalizing start with
  | nil =>
    cases h
    exact ⟨rfl, id⟩
  | cons op ops ih =>
    rw [checkBlobOrder] at h
    split at h
    case h_1 hnone =>
      have hzero : dataLength (op :: ops) = dataLength ops := by simp [dataLength, hnone]
      rw [hzero]
      exact ih h
    case h_2 offset hoffset =>
      split at h
      · cases h
      case isFalse hstart =>
        rw [not_not] at hstart
        obtain ⟨heq, hlt⟩ := ih h
        have hcons : dataLength (op :: ops) = op.length + dataLength ops := by
          simp [dataLength, hoffset]
        have hoff : offset.toNat < 2 ^ 32 := offset.toNat_lt
        have hlen : op.length < 2 ^ 32 := (op.dataLength.getD 0).toNat_lt
        refine ⟨by omega, fun _ => hlt (by omega)⟩

/-! ## Signatures -/

/-- What the protocol buffers, the hash and the keys of a writer and a reader have in
common.  Messages of 2 GiB or more cannot be serialized, and a manifest that says where
its signature is takes more than four bytes. -/
structure Counterparts (sg : Signer) (key : RsaKey) (env : Env D) : Prop where
  rawHash : env.verifier.rawHash = sg.rawHash
  hashLength : ∀ b, (sg.rawHash b).length = 32
  parseManifest : ∀ m b, sg.serializeManifest m = some b → env.parseManifest b = some m
  manifestLength : ∀ m b, sg.serializeManifest m = some b → b.length < 2 ^ 31
  manifestLong : ∀ m b, sg.serializeManifest m = some b → m.signaturesOffset.isSome →
    m.signaturesSize.isSome → 4 ≤ b.length
  parseSignatures : ∀ sigs b, sg.serializeSignatures sigs = some b →
    env.verifier.parseSignatures b = some sigs
  signaturesLength : ∀ sigs b, sg.serializeSignatures sigs = some b → b.length < 2 ^ 31
  signaturesSome : ∀ sigs b, sg.serializeSignatures sigs = some b → sigs ≠ [] → b ≠ []
  /-- The length of a message depends only on the lengths of the signatures in it. -/
  signaturesSize : ∀ sigs sigs' b b', sg.serializeSignatures sigs = some b →
    sg.serializeSignatures sigs' = some b' → sigs.map List.length = sigs'.map List.length →
    b.length = b'.length
  /-- The public key undoes the private one. -/
  decrypt : ∀ p sig, key.privateEncrypt p = some sig →
    env.verifier.getRawHashFromSignature sig = some p

section

variable (h : signHashWithKeys sg [key] hash = some b)

include h

lemma signHashWithKeys_eq :
    ∃ sig, hash.length = 32 ∧
      key.privateEncrypt (kRSA2048SHA256Padding ++ hash) = some sig ∧ sig.length = key.size ∧
      sg.serializeSignatures [sig] = some b := by
  obtain ⟨sigs, hsigs, hb⟩ := bind_eq_some_iff.mp h
  obtain ⟨sig, hsig, hsigs⟩ := bind_eq_some_iff.mp hsigs
  cases hsigs
  unfold signHash at hsig
  split at hsig
  · cases hsig
  case isFalse hlen =>
    rw [not_not] at hlen
    have hpad : padRSA2048SHA256Hash hash = some (kRSA2048SHA256Padding ++ hash) := by
      unfold padRSA2048SHA256Hash
      rw [if_pos hlen]
    rw [hpad] at hsig
    split at hsig
    · cases hsig
    case h_2 sig' henc =>
      split at hsig
      case isTrue hsize =>
        cases hsig
        exact ⟨_, hlen, henc, hsize, hb⟩
      · cases hsig

/-- All signatures of a key have the same length. -/
lemma Counterparts.blob_length (hc : Counterparts sg key env) {hash' b' : Bytes}
    (h' : signHashWithKeys sg [key] hash' = some b') :
    b.length = b'.length := by
  obtain ⟨sig, -, -, hlen, hser⟩ := signHashWithKeys_eq h
  obtain ⟨sig', -, -, hlen', hser'⟩ := signHashWithKeys_eq h'
  exact hc.signaturesSize _ _ _ _ hser hser' (by simp [hlen, hlen'])

/-- A signature of the hash is accepted. -/
lemma Counterparts.verify (hc : Counterparts sg key env) :
    verifySignature env.verifier b (kRSA2048SHA256Padding ++ hash) := by
  obtain ⟨sig, -, henc, -, hser⟩ := signHashWithKeys_eq h
  unfold verifySignature
  rw [hc.parseSignatures _ _ hser]
  simp [hc.decrypt _ _ henc]

end

/-! ## The file -/

open BigEndian

lemma length_metadataBytes (major : Nat) (serialized : Bytes) (n : Nat) :
    (metadataBytes major serialized n).length = metadataSizeOf major serialized := by
  unfold metadataBytes metadataSizeOf
  simp only [length_append]
  split
  · simp [kDeltaVersionSize, kDeltaManifestSizeSize]
    omega
  · simp [kDeltaVersionSize, kDeltaManifestSizeSize]

/-- A number that was written is read back. -/
lemma field_encode {w : Nat} (h : n < 256 ^ w) (pre post : Bytes) {offset : Nat}
    (hoff : offset = pre.length) :
    field (pre ++ BigEndian.encode w n ++ post) offset w = n := by
  subst hoff
  unfold field
  rw [append_assoc, drop_left, take_append_of_le_length (by rw [length_encode]),
    take_of_length_le (by rw [length_encode]), decode_encode h]

/-- An unsigned payload that was made with a key. -/
structure Unsigned (sg : Signer) (key : RsaKey) (f : PayloadFile) (u : UnsignedPayload) : Prop where
  blobs : u.blobs.length = dataLength (operations f.partVec)
  small : u.blobs.length < 2 ^ 33
  rest : ∃ parts length serialized, signatureBlobLength sg [key] = some length ∧
    u.manifest = addSignatureToManifest (UInt64.ofNat u.blobs.length) (UInt64.ofNat length)
      (f.majorVersion = kChromeOSMajorPayloadVersion) (f.fillManifest parts) ∧
    sg.serializeManifest u.manifest = some serialized ∧
    u.metadata = metadataBytes f.majorVersion serialized length ∧
    u.metadataSize = u.metadata.length ∧
    f.signMetadata sg [key] u.metadata = some u.metadataSignature

lemma unsigned_of_eq (h : f.unsignedPayload sg dataBlobs [key] = some u) : Unsigned sg key f u := by
  obtain ⟨⟨parts, blobs⟩, hparts, h⟩ := bind_eq_some_iff.mp h
  obtain ⟨next, hnext, h⟩ := bind_eq_some_iff.mp h
  obtain ⟨length, hlength, h⟩ := bind_eq_some_iff.mp h
  obtain ⟨serialized, hser, h⟩ := bind_eq_some_iff.mp h
  obtain ⟨msig, hmsig, h⟩ := bind_eq_some_iff.mp h
  rw [← length_metadataBytes _ _ length, take_length] at hmsig
  obtain ⟨hblobs, hordered⟩ := reorderDataBlobs_length hparts
  obtain ⟨heq, hlt⟩ := checkBlobOrder_eq hnext
  rw [length_nil, Nat.zero_add] at hblobs
  obtain rfl : next = blobs.length := by omega
  cases h
  exact ⟨hblobs, hlt (by decide), parts, length, serialized, hlength, rfl, hser,
    rfl, (length_metadataBytes _ _ _).symm, hmsig⟩

/-- The header of a file. -/
def fileHeader (major : Nat) (serialized : Bytes) (n : Nat) : Header where
  major := major
  manifestOffset := if major = kBrilloMajorPayloadVersion then 24 else 20
  manifestSize := serialized.length
  signatureSize := if major = kBrilloMajorPayloadVersion then n else 0

open Header

lemma fileHeader_metadataSize (major : Nat) (serialized : Bytes) (n : Nat) :
    (fileHeader major serialized n).metadataSize = metadataSizeOf major serialized := by
  unfold metadataSize fileHeader metadataSizeOf
  split
  · simp [kDeltaMagic, kDeltaMetadataSignatureSizeSize]
    omega
  · simp [kDeltaMagic]

/-- The manifest is where the header says. -/
lemma metadataBytes_manifest (major : Nat) (serialized : Bytes) (n : Nat) (rest : Bytes) :
    ((metadataBytes major serialized n ++ rest).drop
      (fileHeader major serialized n).manifestOffset).take
      (fileHeader major serialized n).manifestSize = serialized := by
  have hsplit : ∃ pre, metadataBytes major serialized n = pre ++ serialized ∧
      pre.length = (fileHeader major serialized n).manifestOffset := by
    refine ⟨_, rfl, ?_⟩
    unfold fileHeader
    split <;> simp [kDeltaMagic, kDeltaVersionSize, kDeltaManifestSizeSize,
      kDeltaMetadataSignatureSizeSize]
  obtain ⟨pre, hpre, hlen⟩ := hsplit
  rw [hpre, ← hlen, append_assoc, drop_left]
  exact take_left

lemma fileHeader_fits (hlen : serialized.length < 2 ^ 31)
    (hn : n < 2 ^ 31) (hlong : 4 ≤ serialized.length) : (fileHeader major serialized n).Fits := by
  have hoffset : 20 ≤ (fileHeader major serialized n).manifestOffset ∧
      (fileHeader major serialized n).manifestOffset ≤ 24 := by
    unfold fileHeader
    dsimp only
    split <;> exact ⟨by decide, by decide⟩
  have hsize : (fileHeader major serialized n).signatureSize ≤ n := by
    unfold fileHeader
    split
    · exact le_refl _
    · exact zero_le
  have hmanifest : (fileHeader major serialized n).manifestSize = serialized.length := rfl
  constructor
  · unfold kMaxPayloadHeaderSize metadataSize
    omega
  · unfold metadataEnd metadataSize wordSize
    omega

/-- A reader knows the header of a file, or rejects it. -/
lemma viewHeader_file (env : Env D) (rest : Bytes)
    (hmajor : major = kChromeOSMajorPayloadVersion ∨ major = kBrilloMajorPayloadVersion)
    (hlen : serialized.length < 2 ^ 31) (hn : n < 2 ^ 31) :
    viewHeader env (metadataBytes major serialized n ++ rest) =
        .known (fileHeader major serialized n) ∨
      ∃ code, viewHeader env (metadataBytes major serialized n ++ rest) = .bad code := by
  have hmajor64 : major < 256 ^ 8 := by
    rcases hmajor with rfl | rfl <;> decide
  have hlen64 : serialized.length < 256 ^ 8 := hlen.trans (by decide)
  have hlength : 20 ≤ (metadataBytes major serialized n ++ rest).length := by
    rw [length_append, length_metadataBytes]
    unfold metadataSizeOf
    have : kDeltaMagic.length = 4 := rfl
    omega
  have hmagic : (metadataBytes major serialized n ++ rest).take kDeltaMagic.length =
      kDeltaMagic := by
    unfold metadataBytes
    exact take_left
  have hversion : field (metadataBytes major serialized n ++ rest) kDeltaVersionOffset
      kDeltaVersionSize = major := by
    unfold metadataBytes
    simp only [append_assoc]
    exact field_encode hmajor64 kDeltaMagic _ rfl
  have hsize : field (metadataBytes major serialized n ++ rest) kDeltaManifestSizeOffset
      kDeltaManifestSizeSize = serialized.length := by
    unfold metadataBytes
    simp only [append_assoc]
    exact field_encode hlen64 (kDeltaMagic ++ encode kDeltaVersionSize major) _
      (by simp [kDeltaManifestSizeOffset, kDeltaMagic, kDeltaVersionSize])
  unfold viewHeader
  rw [if_neg (by unfold kDeltaManifestSizeOffset; omega), if_neg (not_not.mpr hmagic), hversion,
    hsize]
  dsimp only
  split
  · exact .inr ⟨_, rfl⟩
  · rcases hmajor with rfl | rfl
    · have hoff : getManifestOffset kChromeOSMajorPayloadVersion = some 20 := rfl
      rw [hoff]
      dsimp only
      rw [if_neg hlength.not_gt]
      split
      · exact .inr ⟨_, rfl⟩
      · exact .inl rfl
    · have hoff : getManifestOffset kBrilloMajorPayloadVersion = some 24 := rfl
      have hlong : 24 ≤ (metadataBytes kBrilloMajorPayloadVersion serialized n ++ rest).length := by
        rw [length_append, length_metadataBytes]
        unfold metadataSizeOf
        rw [if_pos rfl]
        have : kDeltaMagic.length = 4 := rfl
        unfold kDeltaMetadataSignatureSizeSize
        omega
      have hsig : field (metadataBytes kBrilloMajorPayloadVersion serialized n ++ rest)
          (kDeltaManifestSizeOffset + kDeltaManifestSizeSize)
            kDeltaMetadataSignatureSizeSize = n := by
        unfold metadataBytes
        simp only [append_assoc]
        exact field_encode (hn.trans (by decide))
          (kDeltaMagic ++ encode kDeltaVersionSize kBrilloMajorPayloadVersion ++
            encode kDeltaManifestSizeSize serialized.length) _
          (by simp [kDeltaManifestSizeOffset, kDeltaMagic, kDeltaVersionSize,
            kDeltaManifestSizeSize])
      rw [hoff]
      dsimp only
      rw [if_neg hlong.not_gt, hsig]
      split
      · exact .inr ⟨_, rfl⟩
      · exact .inl rfl

/-- The signatures of a file are as long as the manifest says. -/
lemma Unsigned.signature_lengths
    (hc : Counterparts sg key env) (hsig : signHashWithKeys sg [key] hash = some signature)
    {length : Nat} (hlength : signatureBlobLength sg [key] = some length)
    (hmsig : f.signMetadata sg [key] u.metadata = some u.metadataSignature) :
    signature.length = length ∧ length < 2 ^ 31 ∧
      u.metadataSignature.length =
        if f.majorVersion = kBrilloMajorPayloadVersion then length else 0 := by
  obtain ⟨blob, hblob, rfl⟩ := Option.map_eq_some_iff.mp hlength
  obtain ⟨sig, -, -, -, hser⟩ := signHashWithKeys_eq hblob
  refine ⟨hc.blob_length hsig hblob, hc.signaturesLength _ _ hser, ?_⟩
  unfold signMetadata at hmsig
  by_cases hmajor : f.majorVersion = kBrilloMajorPayloadVersion
  · rw [if_pos ⟨hmajor, cons_ne_nil _ _⟩] at hmsig
    rw [if_pos hmajor]
    exact hc.blob_length hmsig hblob
  · rw [if_neg fun h => hmajor h.1] at hmsig
    rw [if_neg hmajor, ← Option.some.inj hmsig]
    rfl

/-- A header that is rejected makes `Write` fail. -/
lemma write_of_bad {s₀ : Performer D} (h0 : Unwritten s₀) {payload : Bytes} {code : ErrorCode}
    (hview : viewHeader env payload = .bad code) :
    write env s₀ payload ≠ (true, e, s') := by
  have hloop := metadataLoop_header (x := []) env h0 s₀.majorPayloadVersion
    (by decide) (fun h' hh' => by
      rw [nil_append, hview] at hh'
      cases hh')
  rw [nil_append, hview, h0.reading_nil] at hloop
  obtain ⟨t, hloop, -⟩ := hloop
  unfold write
  rw [hloop]
  exact nofun

open UnsignedPayload UInt64

/-- The bytes that are signed: in version 2 the metadata's signature is among them, and as
many bytes at the end are not. -/
lemma signed_eq {w : WrittenPayload} (hw : f.writePayload sg dataBlobs (some key) = some w) :
    ∃ u signature, f.unsignedPayload sg dataBlobs [key] = some u ∧ Unsigned sg key f u ∧
      w.file = u.bytes ++ signature ∧
      w.signed = some (u.metadata ++ (u.metadataSignature ++ u.blobs).take u.blobs.length) ∧
      signHashWithKeys sg [key]
        (sg.rawHash (u.metadata ++ (u.metadataSignature ++ u.blobs).take u.blobs.length)) =
        some signature := by
  obtain ⟨u, hu, hw⟩ := bind_eq_some_iff.mp hw
  obtain ⟨signed, hsigned, hw⟩ := bind_eq_some_iff.mp hw
  obtain ⟨signature, hsignature, hw⟩ := bind_eq_some_iff.mp hw
  cases hw
  obtain ⟨-, hsmall, parts, length, serialized, -, hmanifest, -, -, hsize, -⟩ := unsigned_of_eq hu
  have hoffset : (u.manifest.signaturesOffset.getD 0).toNat = u.blobs.length := by
    have hset : u.manifest.signaturesOffset = some (ofNat u.blobs.length) := by
      rw [hmanifest]
      unfold addSignatureToManifest
      split <;> rfl
    rw [hset, getD_some, toNat_ofNat', Nat.mod_eq_of_lt]
    exact hsmall.trans (by decide)
  have hbytes : signed = u.metadata ++ (u.metadataSignature ++ u.blobs).take u.blobs.length := by
    unfold signedBytes at hsigned
    rw [hoffset, hsize, if_neg (by omega)] at hsigned
    obtain rfl := Option.some.inj hsigned
    unfold bytes
    rw [add_zero, append_assoc, take_left, drop_left, Nat.sub_zero, Nat.add_sub_cancel_left]
  subst hbytes
  exact ⟨u, signature, hu, unsigned_of_eq hu, rfl, rfl, hsignature⟩

section

variable (hu : Unsigned sg key f u) (hc : Counterparts sg key env)
  (hsig : signHashWithKeys sg [key] hash = some signature)
include hu hc hsig

open Performer

/-- A performer that reads a signed file comes to the blobs. -/
lemma Unsigned.started (hidle : prefs.Idle)
    (hwrite : write env (start type plan prefs device) (u.bytes ++ signature) =
      (true, e, s')) :
    ∃ h t, Started h (u.metadata ++ u.metadataSignature) u.manifest t ∧
      h.major = f.majorVersion ∧ h.metadataSize % wordSize = u.metadata.length ∧
      h.signatureSize = u.metadataSignature.length ∧
      writeData env t (u.blobs ++ signature) = (true, e, s') := by
  obtain ⟨-, -, parts, length, serialized, hlength, hmanifest, hser, hmetadata, -, hmsig⟩ := hu
  obtain ⟨-, hlen31, hmsiglen⟩ := signature_lengths hc hsig hlength hmsig
  have hser31 := hc.manifestLength _ _ hser
  have hfile : u.bytes ++ signature = metadataBytes f.majorVersion serialized length ++
        (u.metadataSignature ++ (u.blobs ++ signature)) := by
    unfold bytes
    rw [hmetadata]
    simp only [append_assoc]
  have hmlen : u.metadata.length = (fileHeader f.majorVersion serialized length).metadataSize := by
    rw [fileHeader_metadataSize, hmetadata, length_metadataBytes]
  rcases viewHeader_file env (u.metadataSignature ++ (u.blobs ++ signature))
    f.version hser31 hlen31 with hview | ⟨code, hview⟩
  · rw [← hfile] at hview
    have hfits : (fileHeader f.majorVersion serialized length).Fits := by
      have hset : u.manifest.signaturesOffset.isSome ∧ u.manifest.signaturesSize.isSome := by
        rw [hmanifest]
        unfold addSignatureToManifest
        split <;> exact ⟨rfl, rfl⟩
      exact fileHeader_fits hser31 hlen31 (hc.manifestLong _ _ hser hset.1 hset.2)
    have hend : (fileHeader f.majorVersion serialized length).metadataEnd =
        (u.metadata ++ u.metadataSignature).length := by
      rw [length_append, hmlen, hmsiglen]
      rfl
    have htake : (u.bytes ++ signature).take
        (fileHeader f.majorVersion serialized length).metadataEnd =
        u.metadata ++ u.metadataSignature := by
      rw [hend, bytes, append_assoc _ u.blobs, take_left]
    have hdrop : (u.bytes ++ signature).drop
        (fileHeader f.majorVersion serialized length).metadataEnd = u.blobs ++ signature := by
      rw [hend, bytes, append_assoc _ u.blobs, drop_left]
    obtain ⟨m, t1, t, hreads, hprep, -, hbegin, hdata⟩ :=
      write_of_metadata (unwritten_start _ _ _ _) hview hfits
        (by rw [hend, bytes]; simp) hwrite
    rw [htake] at hreads hprep
    rw [hdrop] at hbegin hdata
    -- the manifest that is read is the one that was written
    obtain rfl : m = u.manifest := by
      obtain ⟨offset, m', hoff, hm', hs⟩ :=
        parseManifest_success (hreads (start type plan prefs device))
      obtain rfl : offset = (fileHeader f.majorVersion serialized length).manifestOffset :=
        Option.some.inj (hoff.symm.trans (viewHeader_manifestOffset hview))
      have hserialized : ((u.metadata ++ u.metadataSignature).drop
          (fileHeader f.majorVersion serialized length).manifestOffset).take
          (fileHeader f.majorVersion serialized length).manifestSize = serialized := by
        rw [hmetadata]
        exact metadataBytes_manifest f.majorVersion serialized length u.metadataSignature
      rw [hserialized, hc.parseManifest _ _ hser] at hm'
      have hmm : m = m' := congrArg Performer.manifest hs
      exact hmm.trans (Option.some.inj hm').symm
    refine ⟨_, t, started_of_begin hidle hprep hbegin, rfl, ?_, hmsiglen.symm, hdata⟩
    rw [Nat.mod_eq_of_lt]
    rw [hmlen]
    exact (Nat.le_add_right _ _).trans_lt hfits.small
  · rw [← hfile] at hview
    exact absurd hwrite (write_of_bad (unwritten_start _ _ _ _) hview)

/-! ## Signed and read -/

/-- The performer takes in the whole file: `Write` succeeds, every operation is carried
out and no byte is left. -/
structure Consumes (env : Env D) (s₀ : Performer D) (file : Bytes) (s' : Performer D) : Prop where
  write : write env s₀ file = (true, .success, s')
  operations : s'.numTotalOperations ≤ s'.nextOperationNum
  bytes : s'.metadataSize + s'.metadataSignatureSize + s'.bufferOffset = file.length

/-- The condition under which what is signed is what is read. -/
def UnsignedPayload.SignedAsRead (u : UnsignedPayload) (majorVersion : Nat) : Prop :=
  if majorVersion = kBrilloMajorPayloadVersion then u.blobs <+: u.metadataSignature ++ u.blobs
  else u.blobs.length < 2 ^ 32

/-- What the manifest says about the signature is true. -/
lemma Unsigned.signatureAt : SignatureAt u.blobs signature u.manifest := by
  obtain ⟨-, hsmall, parts, length, serialized, hlength, hmanifest, -, -, -, hmsig⟩ := hu
  obtain ⟨hsiglen, hlen31, -⟩ := signature_lengths hc hsig hlength hmsig
  have hset : u.manifest.signaturesOffset = some (ofNat u.blobs.length) ∧
      u.manifest.signaturesSize = some (ofNat length) := by
    rw [hmanifest]
    unfold addSignatureToManifest
    split <;> exact ⟨rfl, rfl⟩
  constructor
  · rw [hset.1, Option.map_some, toNat_ofNat', Nat.mod_eq_of_lt]
    exact hsmall.trans (by decide)
  · rw [hset.2, Option.map_some, toNat_ofNat', Nat.mod_eq_of_lt, hsiglen]
    exact hlen31.trans (by decide)

/-- In version 1 the last operation is the signature's. -/
lemma Unsigned.last_operation
    (hmajor : f.majorVersion = kChromeOSMajorPayloadVersion) (hsmall : u.blobs.length < 2 ^ 32) :
    ∃ op, ((u.manifest.allPartitions f.majorVersion).flatMap (·.operations)).getLast? = some op ∧
      op.type = .replace ∧ op.dataOffset.isSome ∧ op.offset = u.blobs.length ∧
      op.length = signature.length := by
  obtain ⟨-, -, parts, length, serialized, hlength, hmanifest, -, -, -, hmsig⟩ := hu
  obtain ⟨hsiglen, hlen31, -⟩ := signature_lengths hc hsig hlength hmsig
  refine ⟨dummyOperation (ofNat u.blobs.length) (ofNat length), ?_, rfl, rfl, ?_, ?_⟩
  · rw [hmanifest, hmajor]
    simp [Manifest.allPartitions, legacyPartitions, addSignatureToManifest,
      kChromeOSMajorPayloadVersion, kBrilloMajorPayloadVersion]
  · simp only [InstallOperation.offset, dummyOperation, getD_some, toNat_toUInt32, toNat_ofNat']
    omega
  · simp only [InstallOperation.length, dummyOperation, getD_some, toNat_toUInt32, toNat_ofNat']
    omega

/-- Where a performer stands that has taken in a signed file. -/
lemma Unsigned.consumed (hidle : prefs.Idle)
    (hread : Consumes env (start type plan prefs device) (u.bytes ++ signature) s') :
    (f.majorVersion = kBrilloMajorPayloadVersion ∨ u.blobs.length < 2 ^ 32 →
      Complete (u.metadata ++ u.metadataSignature) u.metadata u.blobs signature s') ∧
    (f.majorVersion ≠ kBrilloMajorPayloadVersion → ¬ u.blobs.length < 2 ^ 32 →
      s'.signedHash = u.metadata ++ (u.blobs ++ signature)) := by
  obtain ⟨h, t, hstarted, hmajor, hmsize, hssize, hdata⟩ := hu.started hc hsig hidle hread.write
  have hat : SignatureAt u.blobs signature t.manifest := by
    have := hu.signatureAt hc hsig
    exact ⟨by rw [hstarted.signaturesOffset]; exact this.offset,
      by rw [hstarted.signaturesSize]; exact this.size⟩
  have hreading : Reading (u.metadata ++ u.metadataSignature) u.metadata u.blobs signature t
      (u.blobs ++ signature) := by
    refine .part [] (by rw [hstarted.buffer]; rfl) hstarted.bufferOffset ?_ ?_ hstarted.signature
    · rw [hstarted.payloadHash, append_nil]
    · rw [hstarted.signedHash, hmsize, take_left, append_nil]
  have hnext : t.nextOperationNum ≤ t.numTotalOperations := by
    rw [hstarted.next]
    exact zero_le
  obtain ⟨t', rest, hloop, htail⟩ := writeData_go hstarted.toLocated hnext hdata hread.operations
  obtain ⟨hreading', -, hplan, -⟩ := hreading.loop hat hstarted.toLocated (by omega) hloop
  have hat' : SignatureAt u.blobs signature t'.manifest := by
    rw [show t'.manifest = t.manifest from congrArg Plan.manifest hplan]
    exact hat
  have hversion : t'.majorPayloadVersion = f.majorVersion :=
    (congrArg Plan.majorPayloadVersion hplan).trans (hstarted.major.trans hmajor)
  by_cases hbrillo : f.majorVersion = kBrilloMajorPayloadVersion
  · exact ⟨fun _ => hreading'.trailing hat' (hversion.trans hbrillo) htail,
      fun hne => absurd hbrillo hne⟩
  · have hsame : s' = t' := by
      unfold readSignature at htail
      split at htail
      · rw [if_neg fun hcond => hbrillo (hversion.symm.trans hcond.1)] at htail
        exact (Prod.mk.inj (Prod.mk.inj htail).2).2.symm
      · exact (Prod.mk.inj (Prod.mk.inj htail).2).2.symm
    subst hsame
    refine ⟨fun hcase => ?_, fun _ hlarge => ?_⟩
    · have hsmall : u.blobs.length < 2 ^ 32 := hcase.resolve_left hbrillo
      obtain ⟨op, hlast, htype, hoffset, hoff, hlen⟩ :=
        hu.last_operation hc hsig (f.version.resolve_right hbrillo) hsmall
      have hops : t.operations.getLast? = some op := by
        unfold Performer.operations
        rw [hstarted.partitions, hmajor]
        exact hlast
      refine hreading.complete_of_last hat hstarted.toLocated hops ?_ htype hoffset hoff hlen hloop
      rw [hstarted.next, hstarted.toLocated.total_eq]
      exact length_pos_of_mem (mem_of_getLast? hops)
    · -- every byte has been discarded, and the signature was not met
      cases hreading' with
      | all _ _ _ hsmall => exact absurd hsmall hlarge
      | part pre hpre hoff _ hsigned =>
        have hbytes := hread.bytes
        have hsize : s'.metadataSize = u.metadata.length :=
          (congrArg Plan.metadataSize hplan).trans (hstarted.metadataSize.trans hmsize)
        have hsigsize : s'.metadataSignatureSize = u.metadataSignature.length :=
          (congrArg Plan.metadataSignatureSize hplan).trans
            (hstarted.metadataSignatureSize.trans hssize)
        have hlens := congrArg List.length hpre
        simp only [bytes, length_append] at hbytes hlens
        have hnil : s'.buffer ++ rest = [] :=
          length_eq_zero_iff.mp (by rw [length_append]; omega)
        rw [hnil, append_nil] at hpre
        rw [hsigned, hpre]

end

open UpdateEngine

/-- A performer that has the right hashes and a signature of them verifies the payload. -/
lemma Counterparts.verifyPayload (hc : Counterparts sg key env) {s : Performer D} {file : Bytes}
    (hsize : s.metadataSize + s.metadataSignatureSize + s.bufferOffset = file.length)
    (hpayload : s.payloadHash = file) (hne : s.signaturesMessageData ≠ [])
    (hsig : signHashWithKeys sg [key] (sg.rawHash s.signedHash) = some s.signaturesMessageData) :
    verifyPayload env s (sg.rawHash file) file.length = .success := by
  have hsome : sg.rawHash file ≠ [] := by
    intro hnil
    have := hc.hashLength file
    rw [hnil] at this
    cases this
  have hpad : padRSA2048SHA256Hash (sg.rawHash s.signedHash) =
      some (kRSA2048SHA256Padding ++ sg.rawHash s.signedHash) := if_pos (hc.hashLength _)
  unfold UpdateEngine.verifyPayload
  dsimp only
  rw [hc.rawHash, hpayload, if_neg (not_not.mpr hsize.symm), if_neg hsome,
    if_neg (not_not.mpr rfl), hpad]
  dsimp only
  rw [hc.verify hsig]
  split <;> rfl

/-- In terms of the ordered blobs: the bytes whose hash was signed are those that a performer hashed
for the signature exactly when the blobs of version 1 end below `2 ^ 32`, or those of version 2
begin as the metadata's signature followed by the blobs does; and then the payload is verified. -/
lemma signed_eq_read_blobs (hc : Counterparts sg key env) {f : PayloadFile} {dataBlobs : Bytes}
    {w : WrittenPayload} (hw : f.writePayload sg dataBlobs (some key) = some w)
    {type : InstallPayloadType} {plan : List InstallPartition} {prefs : Prefs} {device : D}
    (hidle : prefs.Idle) {s' : Performer D}
    (hread : Consumes env (Performer.start type plan prefs device) w.file s') :
    ∃ u, f.unsignedPayload sg dataBlobs [key] = some u ∧ Unsigned sg key f u ∧
      (w.signed = some s'.signedHash ↔ u.SignedAsRead f.majorVersion) ∧
      (u.SignedAsRead f.majorVersion →
        verifyPayload env s' (sg.rawHash w.file) w.file.length = .success) := by
  obtain ⟨u, signature, hu, hunsigned, hfile, hsigned, hsignature⟩ := signed_eq hw
  rw [hfile] at hread
  obtain ⟨hcomplete, hlarge⟩ := hunsigned.consumed hc hsignature hidle hread
  have hne : signature ≠ [] := by
    obtain ⟨sig, -, -, -, hser⟩ := signHashWithKeys_eq hsignature
    exact hc.signaturesSome _ _ hser (cons_ne_nil _ _)
  have hiff : w.signed = some s'.signedHash ↔ u.SignedAsRead f.majorVersion := by
    rw [hsigned, Option.some_inj]
    unfold UnsignedPayload.SignedAsRead
    by_cases hbrillo : f.majorVersion = kBrilloMajorPayloadVersion
    · rw [if_pos hbrillo, (hcomplete (.inl hbrillo)).signedHash, append_cancel_left_eq,
        prefix_iff_eq_take]
      exact eq_comm
    · have hnil : u.metadataSignature = [] := by
        obtain ⟨-, -, -, -, -, -, -, -, -, -, hmsig⟩ := hunsigned
        unfold signMetadata at hmsig
        rw [if_neg fun h => hbrillo h.1] at hmsig
        exact (Option.some.inj hmsig).symm
      rw [if_neg hbrillo, hnil, nil_append, take_length]
      by_cases hsmall : u.blobs.length < 2 ^ 32
      · rw [(hcomplete (.inr hsmall)).signedHash]
        exact ⟨fun _ => hsmall, fun _ => rfl⟩
      · rw [hlarge hbrillo hsmall, append_cancel_left_eq]
        exact ⟨fun h => absurd (self_eq_append_right.mp h) hne, fun h => absurd h hsmall⟩
  refine ⟨u, hu, hunsigned, hiff, fun hcond => ?_⟩
  have hall : Complete (u.metadata ++ u.metadataSignature) u.metadata u.blobs signature s' := by
    refine hcomplete ?_
    unfold UnsignedPayload.SignedAsRead at hcond
    split at hcond
    case isTrue hbrillo => exact .inl hbrillo
    · exact .inr hcond
  have heq := hiff.mpr hcond
  rw [hsigned, Option.some_inj] at heq
  rw [heq] at hsignature
  have hpayload : s'.payloadHash = w.file := by
    rw [hall.payloadHash, hfile, bytes]
    simp [append_assoc]
  refine hc.verifyPayload (hfile ▸ hread.bytes) hpayload ?_ ?_
  · rw [hall.signature]
    exact hne
  · rw [hall.signature]
    exact hsignature

/-- What is signed is what is read, by the operations that are to be written: in version 2 none of
them has data. -/
def PayloadFile.SignedAsRead (f : PayloadFile) : Prop :=
  if f.majorVersion = kBrilloMajorPayloadVersion then dataLength (operations f.partVec) = 0
  else dataLength (operations f.partVec) < 2 ^ 32

/-- **What is signed and what is read.**  When a performer takes in a payload written with a key,
the bytes whose hash was signed are the bytes it hashed for the signature, and the payload is
verified, if the payload is of version 1 and has less than `2 ^ 32` bytes of data, or is of version
2 and has none.  Otherwise they can be the same in version 2 only, and only where the data go on as
the metadata's signature begins. -/
theorem signed_eq_read (hc : Counterparts sg key env) {f : PayloadFile} {dataBlobs : Bytes}
    {w : WrittenPayload} (hw : f.writePayload sg dataBlobs (some key) = some w)
    {type : InstallPayloadType} {plan : List InstallPartition} {prefs : Prefs} {device : D}
    (hidle : prefs.Idle) {s' : Performer D}
    (hread : Consumes env (Performer.start type plan prefs device) w.file s') :
    (f.SignedAsRead → w.signed = some s'.signedHash ∧
      verifyPayload env s' (sg.rawHash w.file) w.file.length = .success) ∧
    (w.signed = some s'.signedHash → f.SignedAsRead ∨
      f.majorVersion = kBrilloMajorPayloadVersion ∧
        ∃ u, f.unsignedPayload sg dataBlobs [key] = some u ∧
          u.blobs <+: u.metadataSignature ++ u.blobs) := by
  obtain ⟨u, hu, hunsigned, hiff, hverify⟩ := signed_eq_read_blobs hc hw hidle hread
  unfold UnsignedPayload.SignedAsRead at hiff hverify
  unfold PayloadFile.SignedAsRead
  rw [← hunsigned.blobs]
  by_cases hbrillo : f.majorVersion = kBrilloMajorPayloadVersion
  · rw [if_pos hbrillo] at hiff hverify ⊢
    refine ⟨fun hnone => ?_, fun h => .inr ⟨hbrillo, u, hu, hiff.mp h⟩⟩
    have hprefix : u.blobs <+: u.metadataSignature ++ u.blobs := by
      rw [length_eq_zero_iff.mp hnone]
      exact nil_prefix
    exact ⟨hiff.mpr hprefix, hverify hprefix⟩
  · rw [if_neg hbrillo] at hiff hverify ⊢
    exact ⟨fun hsmall => ⟨hiff.mpr hsmall, hverify hsmall⟩, fun h => .inl (hiff.mp h)⟩

/-! ## A small signer -/

/-- The last 32 bytes of what is hashed. -/
def lastBytes (b : Bytes) : Bytes := (List.replicate 32 0 ++ b).drop b.length

/-- A signer that can write one manifest, and signatures one at a time. -/
def sampleSigner (m : Manifest) : Signer where
  rawHash := lastBytes
  serializeManifest m' := if m' = m then some [1, 2, 3, 4] else none
  serializeSignatures
    | [sig] => if sig.length = 256 then some sig else none
    | _ => none

/-- A key that signs by doing nothing. -/
def sampleKey : RsaKey where
  size := 256
  privateEncrypt b := some b

/-- A performer with the public key for it. -/
def sampleEnv (m : Manifest) : Env Unit :=
  { idleEnv m with
    verifier :=
      { rawHash := lastBytes
        base64Decode := some
        publicKeyExists := true
        getRawHashFromSignature := some
        parseSignatures := fun b => some [b] } }

lemma sampleSigner_manifest {m' : Manifest}
    (h : (sampleSigner m).serializeManifest m' = some b) : m' = m ∧ b = [1, 2, 3, 4] := by
  unfold sampleSigner at h
  dsimp only at h
  split at h
  case isTrue hm => exact ⟨hm, (Option.some.inj h).symm⟩
  · cases h

lemma sampleSigner_signatures {sigs : List Bytes}
    (h : (sampleSigner m).serializeSignatures sigs = some b) : sigs = [b] ∧ b.length = 256 := by
  unfold sampleSigner at h
  dsimp only at h
  split at h
  · split at h
    case isTrue hlen =>
      cases h
      exact ⟨rfl, hlen⟩
    · cases h
  · cases h

lemma sample_counterparts (m : Manifest) :
    Counterparts (sampleSigner m) sampleKey (sampleEnv m) where
  rawHash := rfl
  hashLength b := by
    change ((List.replicate 32 0 ++ b).drop b.length).length = 32
    rw [List.length_drop, List.length_append, List.length_replicate, Nat.add_sub_cancel]
  parseManifest m' b h := congrArg some (sampleSigner_manifest h).1.symm
  manifestLength m' b h := by
    rw [(sampleSigner_manifest h).2]
    decide
  manifestLong m' b h _ _ := by
    rw [(sampleSigner_manifest h).2]
    decide
  parseSignatures sigs b h := congrArg some (sampleSigner_signatures h).1.symm
  signaturesLength sigs b h := by
    rw [(sampleSigner_signatures h).2]
    decide
  signaturesSome sigs b h _ := by
    rintro rfl
    cases (sampleSigner_signatures h).2
  signaturesSize sigs sigs' b b' h h' _ := by
    rw [(sampleSigner_signatures h).2, (sampleSigner_signatures h').2]
  decrypt p sig h := by
    obtain rfl := Option.some.inj h
    rfl

/-- A payload of one operation with the byte 7, in either version. -/
def sampleFile (major : Nat)
    (h : major = kChromeOSMajorPayloadVersion ∨ major = kBrilloMajorPayloadVersion) :
    PayloadFile where
  majorVersion := major
  manifest := { minorVersion := some kFullPayloadMinorVersion }
  partVec := [
    { name := kLegacyPartitionNameRoot
      aops := [{
        name := ""
        op := { type := .replace, dataOffset := some 0, dataLength := some 1 } }]
      newInfo := { size := some 1 } },
    { name := kLegacyPartitionNameKernel
      aops := []
      newInfo := { size := some 0 } }]
  version := h
  order _ := List.prefix_refl _

/-- The manifest of that payload, with its signature. -/
def sampleSignedManifest (major : Nat)
    (h : major = kChromeOSMajorPayloadVersion ∨ major = kBrilloMajorPayloadVersion) : Manifest :=
  let f := sampleFile major h
  match reorderDataBlobs (sampleSigner {}) [7] f.partVec [] with
  | some (parts, _) =>
    addSignatureToManifest 1 256 (major = kChromeOSMajorPayloadVersion) (f.fillManifest parts)
  | none => {}

/-- What is written for that payload, and what a performer makes of it. -/
def sampleWritten (major : Nat)
    (h : major = kChromeOSMajorPayloadVersion ∨ major = kBrilloMajorPayloadVersion) :
    WrittenPayload :=
  ((sampleFile major h).writePayload (sampleSigner (sampleSignedManifest major h)) [7]
    (some sampleKey)).getD ⟨[], 0, none⟩

def sampleRead (major : Nat)
    (h : major = kChromeOSMajorPayloadVersion ∨ major = kBrilloMajorPayloadVersion) :
    Bool × ErrorCode × Performer Unit :=
  write (sampleEnv (sampleSignedManifest major h)) (Performer.start .unknown [] {} ())
    (sampleWritten major h).file

variable {h : major = kChromeOSMajorPayloadVersion ∨ major = kBrilloMajorPayloadVersion}

lemma sampleWritten_eq
    (hsome : ((sampleFile major h).writePayload (sampleSigner (sampleSignedManifest major h)) [7]
      (some sampleKey)).isSome) :
    (sampleFile major h).writePayload (sampleSigner (sampleSignedManifest major h)) [7]
      (some sampleKey) = some (sampleWritten major h) := by
  obtain ⟨w, hw⟩ := isSome_iff_exists.mp hsome
  unfold sampleWritten
  rw [hw]
  rfl

lemma sampleRead_consumes
    (hok : (sampleRead major h).1 ∧ (sampleRead major h).2.1 = .success ∧
      (sampleRead major h).2.2.numTotalOperations ≤ (sampleRead major h).2.2.nextOperationNum ∧
      (sampleRead major h).2.2.metadataSize + (sampleRead major h).2.2.metadataSignatureSize +
        (sampleRead major h).2.2.bufferOffset = (sampleWritten major h).file.length) :
    Consumes (sampleEnv (sampleSignedManifest major h)) (Performer.start .unknown [] {} ())
      (sampleWritten major h).file (sampleRead major h).2.2 := by
  obtain ⟨hok, hcode, hoperations, hbytes⟩ := hok
  refine ⟨?_, hoperations, hbytes⟩
  have hwrite : write (sampleEnv (sampleSignedManifest major h)) (Performer.start .unknown [] {} ())
      (sampleWritten major h).file = sampleRead major h := rfl
  rw [hwrite]
  generalize sampleRead major h = r at hok hcode ⊢
  rcases r with ⟨ok, code, s⟩
  rw [show ok from hok, show code = .success from hcode]

/-- In version 1 the payload is verified. -/
theorem signed_eq_read_version1 :
    (sampleWritten 1 (Or.inl rfl)).signed = some (sampleRead 1 (Or.inl rfl)).2.2.signedHash ∧
      verifyPayload (sampleEnv (sampleSignedManifest 1 (Or.inl rfl)))
        (sampleRead 1 (Or.inl rfl)).2.2
        ((sampleSigner (sampleSignedManifest 1 (Or.inl rfl))).rawHash
          (sampleWritten 1 (Or.inl rfl)).file)
        (sampleWritten 1 (Or.inl rfl)).file.length = .success :=
  (signed_eq_read (sample_counterparts _) (sampleWritten_eq (by decide +kernel))
    (fun n hn => by cases hn) (sampleRead_consumes (by decide +kernel))).1
    (show dataLength (operations (sampleFile 1 (Or.inl rfl)).partVec) < 2 ^ 32 by decide)

/-- In version 2 it is signed over other bytes than are read, and is not verified. -/
theorem version2_signed_over_metadata_signature :
    (sampleFile 2 (Or.inr rfl)).writePayload (sampleSigner (sampleSignedManifest 2 (Or.inr rfl)))
      [7] (some sampleKey) = some (sampleWritten 2 (Or.inr rfl)) ∧
    Consumes (sampleEnv (sampleSignedManifest 2 (Or.inr rfl)))
      (Performer.start .unknown [] {} ()) (sampleWritten 2 (Or.inr rfl)).file
      (sampleRead 2 (Or.inr rfl)).2.2 ∧
    (sampleWritten 2 (Or.inr rfl)).signed ≠ some (sampleRead 2 (Or.inr rfl)).2.2.signedHash ∧
    verifyPayload (sampleEnv (sampleSignedManifest 2 (Or.inr rfl)))
      (sampleRead 2 (Or.inr rfl)).2.2 (lastBytes (sampleWritten 2 (Or.inr rfl)).file)
      (sampleWritten 2 (Or.inr rfl)).file.length = .downloadPayloadPubKeyVerificationError :=
  ⟨sampleWritten_eq (by decide +kernel), sampleRead_consumes (by decide +kernel),
    by decide +kernel, by decide +kernel⟩

end UpdateEngine
