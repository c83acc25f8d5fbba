import AlpsSystem.Lib.BigEndian
import AlpsSystem.UpdateEngine.Payload

/-!
# The consumer of a payload

`DeltaPerformer` of `delta_performer.cc`: a payload arrives in pieces of any size, one
call of `Write` for each.  The state between two calls is a record; what the operations
do to the partitions is a parameter, as are the checks that rest on code elsewhere.
What is only logged or shown as progress is left out, and the download delegate does not
cancel.
-/

namespace UpdateEngine

/-! ## The world around it -/

/-- A hash context in the preferences: what was hashed so far, or the empty string. -/
abbrev HashContext := Option Bytes

/-- The preferences that the update's progress is kept in; `none` is a missing key. -/
structure Prefs where
  nextOperation : Option Int := none
  nextDataOffset : Option Int := none
  nextDataLength : Option Int := none
  sha256Context : Option HashContext := none
  signedSHA256Context : Option HashContext := none
  signatureBlob : Option Bytes := none
  manifestMetadataSize : Option Int := none
  manifestSignatureSize : Option Int := none
  resumedUpdateFailures : Option Int := none
  deriving DecidableEq, Repr

/-- One write to the preferences. -/
inductive PrefWrite where
  | nextOperation (n : Int)
  | nextDataOffset (n : Int)
  | nextDataLength (n : Int)
  | sha256Context (c : HashContext)
  | signedSHA256Context (c : HashContext)
  | signatureBlob (b : Bytes)
  | manifestMetadataSize (n : Int)
  | manifestSignatureSize (n : Int)
  | resumedUpdateFailures (n : Int)
  deriving DecidableEq, Repr

def Prefs.set (p : Prefs) : PrefWrite → Prefs
  | .nextOperation n => { p with nextOperation := some n }
  | .nextDataOffset n => { p with nextDataOffset := some n }
  | .nextDataLength n => { p with nextDataLength := some n }
  | .sha256Context c => { p with sha256Context := some c }
  | .signedSHA256Context c => { p with signedSHA256Context := some c }
  | .signatureBlob b => { p with signatureBlob := some b }
  | .manifestMetadataSize n => { p with manifestMetadataSize := some n }
  | .manifestSignatureSize n => { p with manifestSignatureSize := some n }
  | .resumedUpdateFailures n => { p with resumedUpdateFailures := some n }

/-- Something that outlives the process. -/
inductive Event where
  | pref (w : PrefWrite)
  /-- The operation with this number has been carried out. -/
  | operation (n : Nat)
  deriving DecidableEq, Repr

/-- How a step that checks the source data ends. -/
inductive SourceResult where
  | ok
  | failed
  | hashMismatch
  deriving DecidableEq, Repr

/-- What the operations do to the partitions.  Operations come with the block size. -/
structure Device (D : Type) where
  /-- Open the target partition of this number, and the source if it is asked for. -/
  openPartition : (source : Bool) → Nat → D → Option D
  closePartition : D → D
  /-- The extent writers, with the decompressor the type calls for. -/
  writeExtents : InstallOperation → Nat → Bytes → D → Bool × D
  zeroOrDiscard : InstallOperation → Nat → D → Bool × D
  move : InstallOperation → Nat → D → Bool × D
  sourceCopy : InstallOperation → Nat → D → SourceResult × D
  /-- Read the source blocks and check their hash. -/
  checkSource : InstallOperation → Nat → D → SourceResult × D
  bspatch : InstallOperation → Nat → Bytes → D → Bool × D
  /-- Fill up the last block after a patch. -/
  zeroTail : InstallOperation → Nat → D → Bool × D

inductive InstallPayloadType where
  | unknown
  | full
  | delta
  deriving DecidableEq, Repr

/-- `InstallPlan::Partition`, without the paths, which the slots decide. -/
structure InstallPartition where
  name : String
  sourceSize : UInt64 := 0
  sourceHash : Bytes := []
  targetSize : UInt64 := 0
  targetHash : Bytes := []
  runPostinstall : Bool := false
  postinstallPath : String := ""
  filesystemType : String := ""
  postinstallOptional : Bool := false
  deriving DecidableEq, Repr

/-- What a performer is given and does not change. -/
structure Env (D : Type) where
  device : Device D
  verifier : Verifier
  parseManifest : Bytes → Option Manifest
  loadPartitionsFromSlots : List InstallPartition → Bool
  hashChecksMandatory : Bool
  /-- `payload_->metadata_size`. -/
  metadataSize : Nat
  /-- `payload_->metadata_signature`, in base64. -/
  metadataSignature : Bytes
  alreadyApplied : Bool
  buildTimestamp : Int
  supportedMajorVersion : Nat := 2
  supportedMinorVersion : UInt32 := kSupportedMinorPayloadVersion

/-! ## The state -/

/-- An operation that was carried out, with its number and its data. -/
structure Performed where
  number : Nat
  op : InstallOperation
  data : Bytes
  deriving DecidableEq, Repr

/-- The members of `DeltaPerformer`.  A hash calculator is what it was fed.  `performed`
and `history` record what has been done, for the statements about it. -/
structure Performer (D : Type) where
  prefs : Prefs
  device : D
  buffer : Bytes := []
  bufferOffset : Nat := 0
  /-- `none` is the largest `uint64_t`. -/
  lastUpdatedBufferOffset : Option Nat := none
  metadataSize : Nat := 0
  manifestSize : Nat := 0
  metadataSignatureSize : Nat := 0
  majorPayloadVersion : Nat := 0
  manifest : Manifest := {}
  manifestParsed : Bool := false
  manifestValid : Bool := false
  /-- `payload_->type`. -/
  payloadType : InstallPayloadType := .unknown
  partitions : List PartitionUpdate := []
  installPartitions : List InstallPartition := []
  accNumOperations : List Nat := []
  numTotalOperations : Nat := 0
  currentPartition : Nat := 0
  nextOperationNum : Nat := 0
  blockSize : Nat := 0
  payloadHash : Bytes := []
  signedHash : Bytes := []
  signaturesMessageData : Bytes := []
  performed : List Performed := []
  history : List Event := []

variable {D : Type}

namespace Performer

/-- `prefs_->Set…`. -/
def setPref (s : Performer D) (w : PrefWrite) : Performer D :=
  { s with prefs := s.prefs.set w, history := s.history ++ [.pref w] }

def isHeaderParsed (s : Performer D) : Bool := s.metadataSize != 0

/-- `metadata_size_ + metadata_signature_size_`. -/
def metadataEnd (s : Performer D) : Nat := (s.metadataSize + s.metadataSignatureSize) % wordSize

def getMinorVersion (s : Performer D) : UInt32 :=
  match s.manifest.minorVersion with
  | some v => v
  | none =>
    if s.payloadType = .delta then kSupportedMinorPayloadVersion else kFullPayloadMinorVersion

/-- `max - buffer_.size()` on `size_t`. -/
def room (s : Performer D) (max : Nat) : Nat :=
  if s.buffer.length ≤ max then max - s.buffer.length else wordSize - (s.buffer.length - max)

/-- `CopyDataToBuffer`: the state, and the bytes left. -/
def copyDataToBuffer (s : Performer D) (bytes : Bytes) (max : Nat) : Performer D × Bytes :=
  ({ s with buffer := s.buffer ++ bytes.take (s.room max) }, bytes.drop (s.room max))

def discardBuffer (s : Performer D) (doAdvanceOffset : Bool) (signedHashBufferSize : Nat) :
    Performer D :=
  { s with
    bufferOffset := if doAdvanceOffset then s.bufferOffset + s.buffer.length else s.bufferOffset
    payloadHash := s.payloadHash ++ s.buffer
    signedHash := s.signedHash ++ s.buffer.take signedHashBufferSize
    buffer := [] }

end Performer

/-! ## The metadata -/

def getManifestOffset (majorPayloadVersion : Nat) : Option Nat :=
  if majorPayloadVersion = kChromeOSMajorPayloadVersion then
    some (kDeltaManifestSizeOffset + kDeltaManifestSizeSize)
  else if majorPayloadVersion = kBrilloMajorPayloadVersion then
    some (kDeltaManifestSizeOffset + kDeltaManifestSizeSize + kDeltaMetadataSignatureSizeSize)
  else none

inductive MetadataParseResult where
  | success
  | error (e : ErrorCode)
  | insufficientData
  deriving DecidableEq, Repr

/-- The number at an offset of the payload. -/
def field (payload : Bytes) (offset size : Nat) : Nat :=
  BigEndian.decode ((payload.drop offset).take size)

/-- The first part of `ParsePayloadMetadata`, for a header that is not parsed yet;
`none` when it is to go on. -/
def parseHeader (env : Env D) (s : Performer D) : Option MetadataParseResult × Performer D :=
  if s.buffer.length < kDeltaManifestSizeOffset then (some .insufficientData, s)
  else if s.buffer.take kDeltaMagic.length ≠ kDeltaMagic then
    (some (.error .downloadInvalidMetadataMagicString), s)
  else
    let major := field s.buffer kDeltaVersionOffset kDeltaVersionSize
    let s := { s with majorPayloadVersion := major }
    if major ≠ env.supportedMajorVersion ∧ major ≠ kChromeOSMajorPayloadVersion then
      (some (.error .unsupportedMajorPayloadVersion), s)
    else
      match getManifestOffset major with
      | none => (some (.error .unsupportedMajorPayloadVersion), s)
      | some manifestOffset =>
        if s.buffer.length < manifestOffset then (some .insufficientData, s)
        else
          let manifestSize := field s.buffer kDeltaManifestSizeOffset kDeltaManifestSizeSize
          let metadataSignatureSize :=
            if major = kBrilloMajorPayloadVersion then
              field s.buffer (kDeltaManifestSizeOffset + kDeltaManifestSizeSize)
                kDeltaMetadataSignatureSizeSize
            else s.metadataSignatureSize
          let metadataSize := (manifestOffset + manifestSize) % wordSize
          let s := { s with
            manifestSize := manifestSize
            metadataSignatureSize := metadataSignatureSize
            metadataSize := metadataSize }
          if env.hashChecksMandatory ∧ env.metadataSize ≠ metadataSize then
            (some (.error .downloadInvalidMetadataSize), s)
          else (none, s)

def validateMetadataSignature (env : Env D) (s : Performer D) : ErrorCode :=
  if s.buffer.length < s.metadataEnd then .downloadMetadataSignatureError
  else
    match (if env.metadataSignature ≠ [] then env.verifier.base64Decode env.metadataSignature
      else some []) with
    | none => .downloadMetadataSignatureError
    | some signatureBlob =>
      let protobufBlob :=
        if env.metadataSignature = [] ∧ s.majorPayloadVersion = kBrilloMajorPayloadVersion then
          (s.buffer.drop s.metadataSize).take s.metadataSignatureSize
        else []
      if signatureBlob = [] ∧ protobufBlob = [] then
        if env.hashChecksMandatory then .downloadMetadataSignatureMissingError else .success
      else
        let hash := env.verifier.rawHash (s.buffer.take s.metadataSize)
        let calculated := (padRSA2048SHA256Hash hash).getD hash
        if calculated = [] then .downloadMetadataSignatureVerificationError
        else if signatureBlob ≠ [] then
          match env.verifier.getRawHashFromSignature signatureBlob with
          | none => .downloadMetadataSignatureError
          | some expected =>
            if calculated ≠ expected then .downloadMetadataSignatureMismatch else .success
        else if verifySignature env.verifier protobufBlob calculated then .success
        else .downloadMetadataSignatureMismatch

/-- The second part of `ParsePayloadMetadata`, for a header that is parsed. -/
def parseManifest (env : Env D) (s : Performer D) : MetadataParseResult × Performer D :=
  if s.buffer.length < s.metadataEnd then (.insufficientData, s)
  else if validateMetadataSignature env s ≠ .success ∧ env.hashChecksMandatory then
    (.error (validateMetadataSignature env s), s)
  else
    match getManifestOffset s.majorPayloadVersion with
    | none => (.error .unsupportedMajorPayloadVersion, s)
    | some manifestOffset =>
      match env.parseManifest ((s.buffer.drop manifestOffset).take s.manifestSize) with
      | none => (.error .downloadManifestParseError, s)
      | some m => (.success, { s with manifest := m, manifestParsed := true })

def parsePayloadMetadata (env : Env D) (s : Performer D) : MetadataParseResult × Performer D :=
  if s.isHeaderParsed then parseManifest env s
  else
    match parseHeader env s with
    | (some r, s) => (r, s)
    | (none, s) => parseManifest env s

/-- The type of a payload: a delta has the hashes of the old partitions. -/
def Manifest.payloadType (m : Manifest) : InstallPayloadType :=
  if m.oldKernelInfo.isSome || m.oldRootfsInfo.isSome ||
      m.partitions.any (·.oldPartitionInfo.isSome) then .delta
  else .full

/-- `ValidateManifest`, which may set the type of the payload. -/
def validateManifest (env : Env D) (s : Performer D) : ErrorCode × Performer D :=
  let m := s.manifest
  let actual := m.payloadType
  if s.payloadType ≠ .unknown ∧ s.payloadType ≠ actual then (.payloadMismatchedType, s)
  else
    let s := { s with payloadType := actual }
    let minorVersion := m.minorVersion.getD 0
    if actual = .full ∧ minorVersion ≠ kFullPayloadMinorVersion then
      (.unsupportedMinorPayloadVersion, s)
    else if actual ≠ .full ∧ minorVersion ≠ env.supportedMinorVersion then
      (.unsupportedMinorPayloadVersion, s)
    else if s.majorPayloadVersion ≠ kChromeOSMajorPayloadVersion ∧
        (m.oldRootfsInfo.isSome || m.newRootfsInfo.isSome || m.oldKernelInfo.isSome ||
          m.newKernelInfo.isSome || !m.installOperations.isEmpty ||
          !m.kernelInstallOperations.isEmpty) then
      (.payloadMismatchedType, s)
    else if m.maxTimestamp.getD 0 < env.buildTimestamp then (.payloadTimestampError, s)
    else (.success, s)

/-- The two partitions of a payload of version 1, as an Android build makes them. -/
def legacyPartitions (m : Manifest) : List PartitionUpdate :=
  [{ partitionName := kLegacyPartitionNameRoot
     runPostinstall := some false
     oldPartitionInfo := m.oldRootfsInfo
     newPartitionInfo := m.newRootfsInfo
     operations := m.installOperations },
   { partitionName := kLegacyPartitionNameKernel
     runPostinstall := some false
     oldPartitionInfo := m.oldKernelInfo
     newPartitionInfo := m.newKernelInfo
     operations := m.kernelInstallOperations }]

def kPostinstallDefaultScript : String := "postinstall"

/-- The entry of the install plan for a partition; `none` without its new hash. -/
def installPartition (p : PartitionUpdate) : Option InstallPartition :=
  p.newPartitionInfo.map fun new =>
    let run := p.runPostinstall.getD false
    { name := p.partitionName
      sourceSize := (p.oldPartitionInfo.bind (·.size)).getD 0
      sourceHash := (p.oldPartitionInfo.bind (·.hash)).getD []
      targetSize := new.size.getD 0
      targetHash := new.hash.getD []
      runPostinstall := run
      postinstallPath := if run then p.postinstallPath.getD kPostinstallDefaultScript else ""
      filesystemType := if run then p.filesystemType.getD "" else ""
      postinstallOptional := if run then p.postinstallOptional.getD false else false }

/-- The loop that fills in the install plan; it stops at a partition without new hash. -/
def fillInstallPlan : List PartitionUpdate → List InstallPartition → Bool × List InstallPartition
  | [], plan => (true, plan)
  | p :: ps, plan =>
    match installPartition p with
    | none => (false, plan)
    | some part => fillInstallPlan ps (plan ++ [part])

/-- The partitions of the manifest, which gives up what is moved. -/
def Performer.takePartitions (s : Performer D) : Performer D :=
  if s.majorPayloadVersion = kBrilloMajorPayloadVersion then
    { s with
      partitions := s.manifest.partitions
      manifest := { s.manifest with partitions := [] } }
  else if s.majorPayloadVersion = kChromeOSMajorPayloadVersion then
    { s with
      partitions := s.partitions ++ legacyPartitions s.manifest
      manifest := { s.manifest with
        oldRootfsInfo := none, newRootfsInfo := none, installOperations := []
        oldKernelInfo := none, newKernelInfo := none, kernelInstallOperations := [] } }
  else s

def parseManifestPartitions (env : Env D) (s : Performer D) : ErrorCode × Performer D :=
  let s := s.takePartitions
  let filled := fillInstallPlan s.partitions s.installPartitions
  let s := { s with installPartitions := filled.2 }
  if !filled.1 then (.downloadNewPartitionInfoError, s)
  else if !env.loadPartitionsFromSlots s.installPartitions then (.installDeviceOpenError, s)
  else (.success, s)

/-! ## Progress -/

/-- The number of the last operation of each partition, counted from the first one. -/
def accumulate (start : Nat) : List PartitionUpdate → List Nat
  | [] => []
  | p :: ps => (start + p.operations.length) :: accumulate (start + p.operations.length) ps

namespace Performer

/-- The number of operations before a partition. -/
def operationsBefore (s : Performer D) (partition : Nat) : Nat :=
  if partition = 0 then 0 else s.accNumOperations.getD (partition - 1) 0

/-- The operation with number `nextOperationNum`, which is in the given partition. -/
def operationIn (s : Performer D) (partition : Nat) : Option InstallOperation :=
  (s.partitions[partition]?).bind fun p =>
    p.operations[s.nextOperationNum - s.operationsBefore partition]?

/-- The first partition from `partition` on that has not had all its operations. -/
def partitionOfNext (s : Performer D) : (fuel : Nat) → (partition : Nat) → Nat
  | 0, partition => partition
  | fuel + 1, partition =>
    if s.accNumOperations.getD partition 0 ≤ s.nextOperationNum then
      s.partitionOfNext fuel (partition + 1)
    else partition

end Performer

/-- `ResetUpdateProgress` with `quick`. -/
def resetUpdateProgress (s : Performer D) : Performer D := s.setPref (.nextOperation (-1))

/-- The part of `CheckpointUpdateProgress` for a buffer offset that has moved. -/
def checkpointData (s : Performer D) : Performer D :=
  let s := resetUpdateProgress s
  let s := s.setPref (.sha256Context (some s.payloadHash))
  let s := s.setPref (.signedSHA256Context (some s.signedHash))
  let s := s.setPref (.nextDataOffset s.bufferOffset)
  let s := { s with lastUpdatedBufferOffset := some s.bufferOffset }
  if s.nextOperationNum < s.numTotalOperations then
    s.setPref (.nextDataLength
      (((s.operationIn (s.partitionOfNext s.partitions.length s.currentPartition)).map
        (·.length)).getD 0))
  else s.setPref (.nextDataLength 0)

def checkpointUpdateProgress (s : Performer D) : Performer D :=
  let s := if s.lastUpdatedBufferOffset ≠ some s.bufferOffset then checkpointData s else s
  s.setPref (.nextOperation s.nextOperationNum)

/-- The part of `PrimeUpdateState` for an update that was begun before. -/
def resumeUpdateState (s : Performer D) (nextDataOffset : Nat) : Bool × Performer D :=
  let s := { s with bufferOffset := nextDataOffset }
  match s.prefs.signedSHA256Context with
  | some none => (false, s)
  | signedContext =>
    let s := { s with signedHash := (signedContext.bind id).getD s.signedHash }
    let s := { s with
      signaturesMessageData := s.prefs.signatureBlob.getD s.signaturesMessageData }
    match s.prefs.sha256Context with
    | some (some context) =>
      let s := { s with payloadHash := context }
      match s.prefs.manifestMetadataSize with
      | none => (false, s)
      | some size =>
        if size ≤ 0 then (false, s)
        else
          let s := { s with metadataSize := size.toNat }
          match s.prefs.manifestSignatureSize with
          | none => (false, s)
          | some size =>
            if size < 0 then (false, s)
            else
              let s := { s with metadataSignatureSize := size.toNat }
              (true, s.setPref (.resumedUpdateFailures
                (match s.prefs.resumedUpdateFailures with
                  | some n => n + 1
                  | none => 1)))
    | _ => (false, s)

def primeUpdateState (s : Performer D) : Bool × Performer D :=
  let s := { s with blockSize := (s.manifest.blockSize.getD 4096).toNat }
  match s.prefs.nextOperation with
  | none => (true, s)
  | some nextOperation =>
    if nextOperation ≤ 0 then (true, s)
    else
      let s := { s with nextOperationNum := nextOperation.toNat }
      match s.prefs.nextDataOffset with
      | none => (false, s)
      | some nextDataOffset =>
        if nextDataOffset < 0 then (false, s) else resumeUpdateState s nextDataOffset.toNat

/-! ## The operations -/

/-- `OpenCurrentPartition`; `none` when it fails. -/
def openCurrentPartition (env : Env D) (s : Performer D) : Option (Performer D) :=
  if s.partitions.length ≤ s.currentPartition then none
  else
    let source := s.payloadType = .delta ∧ s.getMinorVersion ≠ kInPlaceMinorPayloadVersion
    (env.device.openPartition source s.currentPartition s.device).map fun d =>
      { s with device := d }

/-- The loop that goes on to the partition of the next operation; `false` when one
cannot be opened. -/
def advancePartition (env : Env D) : (fuel : Nat) → Performer D → Bool × Performer D
  | 0, s => (true, s)
  | fuel + 1, s =>
    if s.accNumOperations.getD s.currentPartition 0 ≤ s.nextOperationNum then
      let s := { s with
        device := env.device.closePartition s.device
        currentPartition := s.currentPartition + 1 }
      match openCurrentPartition env s with
      | none => (false, s)
      | some s => advancePartition env fuel s
    else (true, s)

def canPerformInstallOperation (s : Performer D) (op : InstallOperation) : Bool :=
  if op.dataOffset.isNone ∧ op.dataLength.isNone then true
  else if op.offset < s.bufferOffset then false
  else op.dataEnd ≤ s.bufferOffset + s.buffer.length

def validateOperationHash (env : Env D) (s : Performer D) (op : InstallOperation) : ErrorCode :=
  if op.dataSha256Hash = [] then
    if op.length = 0 then .success
    else if (s.manifest.signaturesOffset.getD 0).toNat ≠ 0 ∧
        (s.manifest.signaturesOffset.getD 0).toNat = op.offset then .success
    else if env.hashChecksMandatory then .downloadOperationHashMissingError
    else .success
  else if env.verifier.rawHash (s.buffer.take op.length) ≠ op.dataSha256Hash then
    .downloadOperationHashMismatch
  else .success

def extractSignatureMessage (s : Performer D) : Bool × Performer D :=
  let size := (s.manifest.signaturesSize.getD 0).toNat
  if s.signaturesMessageData ≠ [] then (false, s)
  else if s.bufferOffset ≠ (s.manifest.signaturesOffset.getD 0).toNat then (false, s)
  else if s.buffer.length < size then (false, s)
  else
    let s := { s with signaturesMessageData := s.buffer.take size }
    (true, s.setPref (.signatureBlob s.signaturesMessageData))

def extractSignatureMessageFromOperation (s : Performer D) (op : InstallOperation) :
    Bool × Performer D :=
  if op.type ≠ .replace then (false, s)
  else
    match s.manifest.signaturesOffset with
    | none => (false, s)
    | some offset =>
      if offset.toNat ≠ op.offset then (false, s)
      else
        match s.manifest.signaturesSize with
        | none => (false, s)
        | some size => if size.toNat ≠ op.length then (false, s) else extractSignatureMessage s

/-- The data of an operation is at the beginning of the buffer. -/
def dataInPlace (s : Performer D) (op : InstallOperation) : Bool :=
  s.bufferOffset = op.offset ∧ op.length ≤ s.buffer.length

def performReplaceOperation (env : Env D) (s : Performer D) (op : InstallOperation) :
    Bool × Performer D :=
  if !dataInPlace s op then (false, s)
  else
    match extractSignatureMessageFromOperation s op with
    | (true, s) => (true, s.discardBuffer true 0)
    | (false, s) =>
      match env.device.writeExtents op s.blockSize (s.buffer.take op.length) s.device with
      | (false, d) => (false, { s with device := d })
      | (true, d) => (true, { s with device := d }.discardBuffer true s.buffer.length)

def performZeroOrDiscardOperation (env : Env D) (s : Performer D) (op : InstallOperation) :
    Bool × Performer D :=
  if op.dataOffset.isSome ∨ op.dataLength.isSome then (false, s)
  else
    let r := env.device.zeroOrDiscard op s.blockSize s.device
    (r.1, { s with device := r.2 })

def performMoveOperation (env : Env D) (s : Performer D) (op : InstallOperation) :
    Bool × Performer D :=
  let r := env.device.move op s.blockSize s.device
  (r.1, { s with device := r.2 })

def performBsdiffOperation (env : Env D) (s : Performer D) (op : InstallOperation) :
    Bool × Performer D :=
  if !dataInPlace s op then (false, s)
  else
    match env.device.bspatch op s.blockSize s.buffer s.device with
    | (false, d) => (false, { s with device := d })
    | (true, d) =>
      let s := { s with device := d }.discardBuffer true s.buffer.length
      if (op.dstLength.getD 0).toNat % s.blockSize ≠ 0 then
        let r := env.device.zeroTail op s.blockSize s.device
        (r.1, { s with device := r.2 })
      else (true, s)

/-- The lengths of an operation on the source are whole blocks. -/
def lengthsAligned (op : InstallOperation) (blockSize : Nat) : Bool :=
  (op.srcLength.getD 0).toNat % blockSize = 0 ∧ (op.dstLength.getD 0).toNat % blockSize = 0

/-- The error a step on the source data leaves. -/
def SourceResult.errorCode : SourceResult → ErrorCode
  | .hashMismatch => .downloadStateInitializationError
  | _ => .success

/-- `PerformSourceCopyOperation`, with the error it sets. -/
def performSourceCopyOperation (env : Env D) (s : Performer D) (op : InstallOperation) :
    Bool × ErrorCode × Performer D :=
  if !lengthsAligned op s.blockSize then (false, .success, s)
  else
    let r := env.device.sourceCopy op s.blockSize s.device
    (r.1 = .ok, r.1.errorCode, { s with device := r.2 })

/-- `PerformSourceBsdiffOperation`, with the error it sets. -/
def performSourceBsdiffOperation (env : Env D) (s : Performer D) (op : InstallOperation) :
    Bool × ErrorCode × Performer D :=
  if !dataInPlace s op then (false, .success, s)
  else if !lengthsAligned op s.blockSize then (false, .success, s)
  else
    let checked :=
      if op.srcSha256Hash ≠ [] then env.device.checkSource op s.blockSize s.device
      else (.ok, s.device)
    if checked.1 ≠ .ok then (false, checked.1.errorCode, { s with device := checked.2 })
    else
      match env.device.bspatch op s.blockSize s.buffer checked.2 with
      | (false, d) => (false, .success, { s with device := d })
      | (true, d) =>
        (true, .success, { s with device := d }.discardBuffer true s.buffer.length)

/-- The switch over the type of an operation, with the error it sets. -/
def performOperation (env : Env D) (s : Performer D) (op : InstallOperation) :
    Bool × ErrorCode × Performer D :=
  let plain (r : Bool × Performer D) : Bool × ErrorCode × Performer D := (r.1, .success, r.2)
  match op.type with
  | .replace | .replaceBz | .replaceXz => plain (performReplaceOperation env s op)
  | .zero | .discard => plain (performZeroOrDiscardOperation env s op)
  | .move => plain (performMoveOperation env s op)
  | .bsdiff => plain (performBsdiffOperation env s op)
  | .sourceCopy => performSourceCopyOperation env s op
  | .sourceBsdiff => performSourceBsdiffOperation env s op
  | .imgdiff => (false, .success, s)

/-! ## Writing -/

/-- How far a part of `Write` got: it returned, or it goes on with the bytes left. -/
inductive Flow (D : Type) where
  | stop (ok : Bool) (code : ErrorCode) (s : Performer D)
  | go (s : Performer D) (rest : Bytes)

/-- Count the operations, and note the sizes of the metadata for a later run. -/
def Performer.countOperations (s : Performer D) : Performer D :=
  let acc := accumulate 0 s.partitions
  let s := { s with
    numTotalOperations := acc.getLastD 0
    accNumOperations := s.accNumOperations ++ acc }
  let s := s.setPref (.manifestMetadataSize s.metadataSize)
  s.setPref (.manifestSignatureSize s.metadataSignatureSize)

/-- Begin with the operations, or go on with them. -/
def beginUpdate (env : Env D) (s : Performer D) (bytes : Bytes) : Flow D :=
  match primeUpdateState s with
  | (false, s) => .stop false .downloadStateInitializationError s
  | (true, s) =>
    match openCurrentPartition env s with
    | none => .stop false .installDeviceOpenError s
    | some s => .go s bytes

/-- Check the manifest that was parsed, and take the partitions out of it. -/
def prepareUpdate (env : Env D) (s : Performer D) : ErrorCode × Performer D :=
  match validateManifest env s with
  | (.success, s) =>
    parseManifestPartitions env
      ({ s with manifestValid := true }.discardBuffer false s.metadataSize)
  | r => r

/-- What `Write` does with a manifest that was parsed. -/
def acceptManifest (env : Env D) (s : Performer D) (bytes : Bytes) : Flow D :=
  match prepareUpdate env s with
  | (.success, s) =>
    if env.alreadyApplied then .stop false .success s
    else beginUpdate env s.countOperations bytes
  | (e, s) => .stop false e s

/-- The first loop of `Write`; it goes round a second time when it has just learnt the
size of the metadata. -/
def metadataLoop (env : Env D) : (rounds : Nat) → Performer D → Bytes → Flow D
  | 0, s, _ => .stop true .success s
  | rounds + 1, s, bytes =>
    if s.manifestValid then .go s bytes
    else
      let readHeader := !s.isHeaderParsed
      let max := if readHeader then kMaxPayloadHeaderSize else s.metadataEnd
      let copied := s.copyDataToBuffer bytes max
      match parsePayloadMetadata env copied.1 with
      | (.error e, s) => .stop false e s
      | (.insufficientData, s) =>
        if readHeader && s.isHeaderParsed then metadataLoop env rounds s copied.2
        else .stop true .success s
      | (.success, s) => acceptManifest env s copied.2

/-- The check of an operation's hash in `Write`; the error to return with, if any. -/
def operationHashError (env : Env D) (s : Performer D) (op : InstallOperation) :
    Option ErrorCode :=
  if env.metadataSignature ≠ [] ∧ validateOperationHash env s op ≠ .success ∧
      env.hashChecksMandatory then
    some (validateOperationHash env s op)
  else none

/-- What `Write` does after an operation. -/
def operationDone (before after : Performer D) (op : InstallOperation) : Performer D :=
  checkpointUpdateProgress { after with
    nextOperationNum := after.nextOperationNum + 1
    performed := after.performed ++ [⟨before.nextOperationNum, op, before.buffer.take op.length⟩]
    history := after.history ++ [.operation before.nextOperationNum] }

/-- The second loop of `Write`, over the operations that are left. -/
def operationsLoop (env : Env D) : (left : Nat) → Performer D → Bytes → Flow D
  | 0, s, bytes => .go s bytes
  | left + 1, s, bytes =>
    match advancePartition env s.partitions.length s with
    | (false, s) => .stop false .installDeviceOpenError s
    | (true, s) =>
      match s.operationIn s.currentPartition with
      -- the index is in range
      | none => .stop false .error s
      | some op =>
        let copied := s.copyDataToBuffer bytes op.length
        if !canPerformInstallOperation copied.1 op then .stop true .success copied.1
        else
          match operationHashError env copied.1 op with
          | some e => .stop false e copied.1
          | none =>
            match performOperation env copied.1 op with
            | (false, e, s) =>
              .stop false (if e = .success then .downloadOperationExecutionError else e) s
            | (true, _, s) => operationsLoop env left (operationDone copied.1 s op) copied.2

/-- The end of `Write`: the signature after the data, in payloads of version 2. -/
def readSignature (s : Performer D) (bytes : Bytes) : Bool × ErrorCode × Performer D :=
  match s.manifest.signaturesOffset, s.manifest.signaturesSize with
  | some offset, some size =>
    if s.majorPayloadVersion = kBrilloMajorPayloadVersion ∧ s.signaturesMessageData = [] then
      if offset.toNat ≠ s.bufferOffset then (false, .downloadPayloadVerificationError, s)
      else
        let s := (s.copyDataToBuffer bytes size.toNat).1
        if s.buffer.length < size.toNat then (true, .success, s)
        else
          match extractSignatureMessage s with
          | (false, s) => (false, .downloadPayloadVerificationError, s)
          | (true, s) => (true, .success, checkpointUpdateProgress (s.discardBuffer true 0))
    else (true, .success, s)
  | _, _ => (true, .success, s)

/-- The part of `Write` after the metadata. -/
def writeData (env : Env D) (s : Performer D) (bytes : Bytes) : Bool × ErrorCode × Performer D :=
  match operationsLoop env (s.numTotalOperations - s.nextOperationNum) s bytes with
  | .stop ok e s => (ok, e, s)
  | .go s bytes => readSignature s bytes

/-- `Write`: the result, the error code and the state after the call. -/
def write (env : Env D) (s : Performer D) (bytes : Bytes) : Bool × ErrorCode × Performer D :=
  match metadataLoop env 2 s bytes with
  | .stop ok e s => (ok, e, s)
  | .go s bytes => writeData env s bytes

/-- Successive calls of `Write`, up to the first that fails. -/
def writeAll (env : Env D) (s : Performer D) : List Bytes → Bool × ErrorCode × Performer D
  | [] => (true, .success, s)
  | c :: cs =>
    match write env s c with
    | (true, _, s) => writeAll env s cs
    | r => r

/-! ## Verifying -/

/-- `VerifyPayload`, after `Close` has finished the hashes. -/
def verifyPayload (env : Env D) (s : Performer D) (responseHash : Bytes) (responseSize : Nat) :
    ErrorCode :=
  let v := env.verifier
  if responseSize ≠ s.metadataSize + s.metadataSignatureSize + s.bufferOffset then
    .payloadSizeMismatchError
  else if v.rawHash s.payloadHash = [] then .downloadPayloadVerificationError
  else if v.rawHash s.payloadHash ≠ responseHash then .payloadHashMismatchError
  else if !v.publicKeyExists then .success
  else if s.signaturesMessageData = [] then .signedDeltaPayloadExpectedError
  else
    match padRSA2048SHA256Hash (v.rawHash s.signedHash) with
    | none => .downloadPayloadPubKeyVerificationError
    | some hashData =>
      if verifySignature v s.signaturesMessageData hashData then .success
      else .downloadPayloadPubKeyVerificationError

/-! ## A small world -/

/-- A device on which every step succeeds. -/
def idleDevice : Device Unit where
  openPartition _ _ d := some d
  closePartition d := d
  writeExtents _ _ _ d := (true, d)
  zeroOrDiscard _ _ d := (true, d)
  move _ _ d := (true, d)
  sourceCopy _ _ d := (.ok, d)
  checkSource _ _ d := (.ok, d)
  bspatch _ _ _ d := (true, d)
  zeroTail _ _ d := (true, d)

/-- A performer without a public key, and one manifest for all payloads. -/
def idleEnv (manifest : Manifest) : Env Unit where
  device := idleDevice
  verifier :=
    { rawHash := id
      base64Decode := some
      publicKeyExists := false
      getRawHashFromSignature := some
      parseSignatures := fun _ => none }
  parseManifest _ := some manifest
  loadPartitionsFromSlots _ := true
  hashChecksMandatory := false
  metadataSize := 0
  metadataSignature := []
  alreadyApplied := false
  buildTimestamp := 0

/-- A manifest of version 2 for one partition. -/
def fullManifest (operations : List InstallOperation) : Manifest where
  minorVersion := some kFullPayloadMinorVersion
  partitions := [{
    partitionName := kLegacyPartitionNameRoot, newPartitionInfo := some {}, operations }]

/-- The header of a payload of version 2 whose manifest takes no bytes. -/
def emptyHeader : Bytes :=
  kDeltaMagic ++ BigEndian.encode kDeltaVersionSize kBrilloMajorPayloadVersion ++
    BigEndian.encode kDeltaManifestSizeSize 0 ++
    BigEndian.encode kDeltaMetadataSignatureSizeSize 0

end UpdateEngine
