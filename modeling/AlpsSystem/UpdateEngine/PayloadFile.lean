import AlpsSystem.UpdateEngine.DeltaPerformer

/-!
# The writer of a payload

`PayloadFile` of `payload_file.cc`, with the functions of `payload_signer.cc` it signs
with.  Files are byte strings; opening and writing them does not fail.  The hashes of the
images are computed elsewhere, and the report on the payload's size is left out.
-/

namespace UpdateEngine

/-! ## Signing -/

/-- A private key: the size of its signatures, and `RSA_private_encrypt` without padding. -/
structure RsaKey where
  size : Nat
  privateEncrypt : Bytes → Option Bytes

/-- Hashing, and the coding of protocol buffers. -/
structure Signer where
  rawHash : Bytes → Bytes
  serializeManifest : Manifest → Option Bytes
  serializeSignatures : List Bytes → Option Bytes

def signHash (hash : Bytes) (key : RsaKey) : Option Bytes :=
  if hash.length ≠ 32 then none
  else
    match key.privateEncrypt ((padRSA2048SHA256Hash hash).getD hash) with
    | none => none
    | some signature => if signature.length = key.size then some signature else none

def signHashWithKeys (sg : Signer) (keys : List RsaKey) (hash : Bytes) : Option Bytes := do
  let signatures ← keys.mapM (signHash hash)
  sg.serializeSignatures signatures

/-- `SignatureBlobLength`: the length for the letter x. -/
def signatureBlobLength (sg : Signer) (keys : List RsaKey) : Option Nat :=
  (signHashWithKeys sg keys (sg.rawHash [0x78])).map List.length

/-- The bytes that `CalculateHashFromPayload` hashes for the payload's signature. -/
def signedBytes (payload : Bytes) (metadataSize metadataSignatureSize signaturesOffset : Nat) :
    Option Bytes :=
  if signaturesOffset < metadataSize + metadataSignatureSize then none
  else some (payload.take metadataSize ++ (payload.drop (metadataSize + metadataSignatureSize)).take
      (signaturesOffset - metadataSize - metadataSignatureSize))

def kBlockSize : UInt64 := 4096

/-- The operation that makes old clients read the signature. -/
def dummyOperation (offset length : UInt64) : InstallOperation where
  type := .replace
  dataOffset := some offset.toUInt32
  dataLength := some length.toUInt32
  dstExtents := [⟨kSparseHole, (length + kBlockSize - 1) / kBlockSize⟩]

def addSignatureToManifest (offset length : UInt64) (addDummyOp : Bool) (m : Manifest) :
    Manifest :=
  let m := { m with signaturesOffset := some offset, signaturesSize := some length }
  if addDummyOp then
    { m with
      kernelInstallOperations := m.kernelInstallOperations ++ [dummyOperation offset length] }
  else m

/-! ## The parts of a payload -/

structure PostInstallConfig where
  run : Bool := false
  path : String := ""
  filesystemType : String := ""
  optional : Bool := false
  deriving DecidableEq, Repr

namespace PayloadFile

structure Partition where
  name : String
  aops : List AnnotatedOperation
  oldInfo : PartitionInfo := {}
  newInfo : PartitionInfo := {}
  postinstall : PostInstallConfig := {}

end PayloadFile

/-- The members of `PayloadFile`.  A payload of version 1 has the root partition, then
the kernel's. -/
structure PayloadFile where
  majorVersion : Nat
  manifest : Manifest
  partVec : List PayloadFile.Partition
  version : majorVersion = kChromeOSMajorPayloadVersion ∨ majorVersion = kBrilloMajorPayloadVersion
  order : majorVersion = kChromeOSMajorPayloadVersion →
    partVec.map (·.name) <+: [kLegacyPartitionNameRoot, kLegacyPartitionNameKernel]

def kSourceMinorPayloadVersion : UInt32 := 2
def kOpSrcHashMinorPayloadVersion : UInt32 := 3
def kImgdiffMinorPayloadVersion : UInt32 := 4

namespace PayloadFile

/-- `Init`, without the image information. -/
def init (major : Nat) (minor : UInt32) (blockSize : UInt32) (maxTimestamp : Int) :
    Option PayloadFile :=
  if h : major = kChromeOSMajorPayloadVersion ∨ major = kBrilloMajorPayloadVersion then
    if minor ∈ [kFullPayloadMinorVersion, kInPlaceMinorPayloadVersion, kSourceMinorPayloadVersion,
        kOpSrcHashMinorPayloadVersion, kImgdiffMinorPayloadVersion] then
      some {
        majorVersion := major
        manifest := {
          minorVersion := some minor
          blockSize := some blockSize
          maxTimestamp := some maxTimestamp }
        partVec := []
        version := h
        order := fun _ => List.nil_prefix }
    else none
  else none

lemma order_append {names : List String} {name : String} {order : List String}
    (h : names <+: order) (hname : order[names.length]? = some name) :
    names ++ [name] <+: order := by
  rw [List.prefix_iff_eq_take] at h ⊢
  rw [List.length_append, List.length_singleton, List.take_add_one, ← h, hname]
  rfl

def addPartition (f : PayloadFile) (part : Partition) : Option PayloadFile :=
  if h : f.majorVersion = kChromeOSMajorPayloadVersion →
      [kLegacyPartitionNameRoot, kLegacyPartitionNameKernel][f.partVec.length]? =
        some part.name then
    some { f with
      partVec := f.partVec ++ [part]
      order := fun hv => by
        rw [List.map_append]
        exact order_append (f.order hv) (by rw [List.length_map]; exact h hv) }
  else none

/-- The operations of all partitions. -/
def operations (parts : List Partition) : List InstallOperation :=
  parts.flatMap fun part => part.aops.map (·.op)

end PayloadFile

/-! ## The data blobs -/

/-- The body of the loop of `ReorderDataBlobs`; `out` is what was written so far. -/
def reorderOperation (sg : Signer) (dataBlobs out : Bytes) (aop : AnnotatedOperation) :
    Option (AnnotatedOperation × Bytes) :=
  match aop.op.dataOffset with
  | none => some (aop, out)
  | some offset =>
    match aop.op.dataLength with
    | none => none
    | some length =>
      let buf := (dataBlobs.drop offset.toNat).take length.toNat
      if buf.length ≠ length.toNat then none
      else
        some ({ aop with op := { aop.op with
          dataSha256Hash := sg.rawHash buf
          dataOffset := some (UInt32.ofNat out.length) } }, out ++ buf)

/-- The loop over the operations of a partition. -/
def reorderOperations (sg : Signer) (dataBlobs : Bytes) :
    List AnnotatedOperation → Bytes → Option (List AnnotatedOperation × Bytes)
  | [], out => some ([], out)
  | aop :: aops, out => do
    let (aop, out) ← reorderOperation sg dataBlobs out aop
    let (aops, out) ← reorderOperations sg dataBlobs aops out
    some (aop :: aops, out)

/-- `ReorderDataBlobs`: the operations with their new offsets, and the ordered blobs. -/
def reorderDataBlobs (sg : Signer) (dataBlobs : Bytes) :
    List PayloadFile.Partition → Bytes → Option (List PayloadFile.Partition × Bytes)
  | [], out => some ([], out)
  | part :: parts, out => do
    let (aops, out) ← reorderOperations sg dataBlobs part.aops out
    let (parts, out) ← reorderDataBlobs sg dataBlobs parts out
    some ({ part with aops := aops } :: parts, out)

/-- The check that the blobs are in order; it ends the program when they are not, and
gives the offset after the last one. -/
def checkBlobOrder : List InstallOperation → Nat → Option Nat
  | [], next => some next
  | op :: ops, next =>
    match op.dataOffset with
    | none => checkBlobOrder ops next
    | some offset =>
      if offset.toNat ≠ next then none else checkBlobOrder ops (next + op.length)

/-! ## The file -/

/-- The information on a partition, when there is any. -/
def PartitionInfo.ifSet (info : PartitionInfo) : Option PartitionInfo :=
  if info.size.isSome || info.hash.isSome then some info else none

/-- The entry of the manifest for a partition, in version 2. -/
def PayloadFile.Partition.update (part : Partition) : PartitionUpdate where
  partitionName := part.name
  runPostinstall := if part.postinstall.run then some true else none
  postinstallPath :=
    if part.postinstall.run && part.postinstall.path != "" then some part.postinstall.path
    else none
  filesystemType :=
    if part.postinstall.run && part.postinstall.filesystemType != "" then
      some part.postinstall.filesystemType
    else none
  postinstallOptional :=
    if part.postinstall.run then some part.postinstall.optional else none
  operations := part.aops.map (·.op)
  oldPartitionInfo := part.oldInfo.ifSet
  newPartitionInfo := part.newInfo.ifSet

/-- Add a partition to the manifest of version 1. -/
def Manifest.addLegacyPartition (m : Manifest) (part : PayloadFile.Partition) : Manifest :=
  if part.name = kLegacyPartitionNameKernel then
    { m with
      kernelInstallOperations := m.kernelInstallOperations ++ part.aops.map (·.op)
      oldKernelInfo := part.oldInfo.ifSet.or m.oldKernelInfo
      newKernelInfo := part.newInfo.ifSet.or m.newKernelInfo }
  else
    { m with
      installOperations := m.installOperations ++ part.aops.map (·.op)
      oldRootfsInfo := part.oldInfo.ifSet.or m.oldRootfsInfo
      newRootfsInfo := part.newInfo.ifSet.or m.newRootfsInfo }

/-- The manifest with the partitions. -/
def PayloadFile.fillManifest (f : PayloadFile) (parts : List Partition) : Manifest :=
  let m := { f.manifest with
    installOperations := [], kernelInstallOperations := [], partitions := [] }
  if f.majorVersion = kBrilloMajorPayloadVersion then
    { m with partitions := parts.map (·.update) }
  else parts.foldl Manifest.addLegacyPartition m

/-- Everything before the metadata's signature. -/
def metadataBytes (majorVersion : Nat) (serialized : Bytes) (signatureBlobLength : Nat) : Bytes :=
  kDeltaMagic ++ BigEndian.encode kDeltaVersionSize majorVersion ++
    BigEndian.encode kDeltaManifestSizeSize serialized.length ++
    (if majorVersion = kBrilloMajorPayloadVersion then
      BigEndian.encode kDeltaMetadataSignatureSizeSize signatureBlobLength
    else []) ++
    serialized

/-- `metadata_size`. -/
def metadataSizeOf (majorVersion : Nat) (serialized : Bytes) : Nat :=
  kDeltaMagic.length + 2 * 8 + serialized.length +
    if majorVersion = kBrilloMajorPayloadVersion then kDeltaMetadataSignatureSizeSize else 0

/-- A payload up to its signature. -/
structure UnsignedPayload where
  manifest : Manifest
  /-- Everything before the metadata's signature. -/
  metadata : Bytes
  metadataSize : Nat
  metadataSignature : Bytes
  /-- The data blobs in order. -/
  blobs : Bytes

/-- The file that an unsigned payload makes. -/
def UnsignedPayload.bytes (u : UnsignedPayload) : Bytes :=
  u.metadata ++ u.metadataSignature ++ u.blobs

/-- What `WritePayload` produces, with the bytes whose hash was signed for the payload. -/
structure WrittenPayload where
  file : Bytes
  metadataSize : Nat
  signed : Option Bytes

namespace PayloadFile

/-- The metadata's signature, which version 1 does not have. -/
def signMetadata (f : PayloadFile) (sg : Signer) (keys : List RsaKey) (metadata : Bytes) :
    Option Bytes :=
  if f.majorVersion = kBrilloMajorPayloadVersion ∧ keys ≠ [] then
    signHashWithKeys sg keys (sg.rawHash metadata)
  else some []

/-- The length to leave for a signature, 0 without a key. -/
def signatureLength (sg : Signer) (keys : List RsaKey) : Option Nat :=
  if keys = [] then some 0 else signatureBlobLength sg keys

/-- The part of `WritePayload` before the payload's signature; there is one key or none. -/
def unsignedPayload (f : PayloadFile) (sg : Signer) (dataBlobs : Bytes) (keys : List RsaKey) :
    Option UnsignedPayload := do
  let (parts, blobs) ← reorderDataBlobs sg dataBlobs f.partVec []
  let nextBlobOffset ← checkBlobOrder (operations parts) 0
  let length ← signatureLength sg keys
  let manifest :=
    if keys = [] then f.fillManifest parts
    else
      addSignatureToManifest (UInt64.ofNat nextBlobOffset) (UInt64.ofNat length)
        (f.majorVersion = kChromeOSMajorPayloadVersion) (f.fillManifest parts)
  let serialized ← sg.serializeManifest manifest
  let metadataSize := metadataSizeOf f.majorVersion serialized
  let metadata := metadataBytes f.majorVersion serialized length
  let metadataSignature ← f.signMetadata sg keys (metadata.take metadataSize)
  some ⟨manifest, metadata, metadataSize, metadataSignature, blobs⟩

def writePayload (f : PayloadFile) (sg : Signer) (dataBlobs : Bytes) (key : Option RsaKey) :
    Option WrittenPayload := do
  let u ← f.unsignedPayload sg dataBlobs key.toList
  match key with
  | none => some { file := u.bytes, metadataSize := u.metadataSize, signed := none }
  | some key =>
    -- version 2 sets the size in a variable of an inner block; the one in scope stays 0
    let metadataSignatureSize := 0
    let signed ← signedBytes u.bytes u.metadataSize metadataSignatureSize
      (u.metadataSize + metadataSignatureSize + (u.manifest.signaturesOffset.getD 0).toNat)
    let signature ← signHashWithKeys sg [key] (sg.rawHash signed)
    some { file := u.bytes ++ signature, metadataSize := u.metadataSize, signed := some signed }

end PayloadFile

end UpdateEngine
