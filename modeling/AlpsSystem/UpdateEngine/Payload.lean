import AlpsSystem.UpdateEngine.Graph

/-!
# Payloads

The parts of a payload that its writer and its reader share: the manifest of
`update_metadata.proto`, the constants of `payload_constants.cc`, and the checks of
`payload_verifier.cc`.  Hashing, the RSA operations and the coding of protocol buffers
are parameters.
-/

namespace UpdateEngine

abbrev Bytes := List UInt8

/-- The number of values of `uint64_t` and `size_t`. -/
def wordSize : Nat := 2 ^ 64

/-- The error codes in use here. -/
inductive ErrorCode where
  | success
  | error
  | payloadMismatchedType
  | installDeviceOpenError
  | payloadHashMismatchError
  | payloadSizeMismatchError
  | downloadPayloadVerificationError
  | downloadNewPartitionInfoError
  | signedDeltaPayloadExpectedError
  | downloadPayloadPubKeyVerificationError
  | downloadStateInitializationError
  | downloadInvalidMetadataMagicString
  | downloadManifestParseError
  | downloadMetadataSignatureError
  | downloadMetadataSignatureVerificationError
  | downloadMetadataSignatureMismatch
  | downloadOperationExecutionError
  | downloadOperationHashMismatch
  | downloadInvalidMetadataSize
  | downloadOperationHashMissingError
  | downloadMetadataSignatureMissingError
  | unsupportedMajorPayloadVersion
  | unsupportedMinorPayloadVersion
  | payloadTimestampError
  deriving DecidableEq, Repr

/-! ## The manifest -/

structure PartitionInfo where
  size : Option UInt64 := none
  hash : Option Bytes := none
  deriving DecidableEq, Repr

/-- The update of one partition. -/
structure PartitionUpdate where
  partitionName : String
  runPostinstall : Option Bool := none
  postinstallPath : Option String := none
  filesystemType : Option String := none
  oldPartitionInfo : Option PartitionInfo := none
  newPartitionInfo : Option PartitionInfo := none
  operations : List InstallOperation := []
  postinstallOptional : Option Bool := none
  deriving DecidableEq, Repr

/-- `DeltaArchiveManifest`, without the image information, which nothing here reads. -/
structure Manifest where
  installOperations : List InstallOperation := []
  kernelInstallOperations : List InstallOperation := []
  blockSize : Option UInt32 := none
  signaturesOffset : Option UInt64 := none
  signaturesSize : Option UInt64 := none
  oldKernelInfo : Option PartitionInfo := none
  newKernelInfo : Option PartitionInfo := none
  oldRootfsInfo : Option PartitionInfo := none
  newRootfsInfo : Option PartitionInfo := none
  minorVersion : Option UInt32 := none
  partitions : List PartitionUpdate := []
  maxTimestamp : Option Int := none
  deriving DecidableEq, Repr

namespace InstallOperation

/-- `data_offset()`, 0 when it is not set. -/
def offset (op : InstallOperation) : Nat := (op.dataOffset.getD 0).toNat

/-- `data_length()`, 0 when it is not set. -/
def length (op : InstallOperation) : Nat := (op.dataLength.getD 0).toNat

/-- `data_offset() + data_length()`, an addition of 32-bit numbers. -/
def dataEnd (op : InstallOperation) : Nat := (op.dataOffset.getD 0 + op.dataLength.getD 0).toNat

lemma dataEnd_eq {op : InstallOperation} (h : op.offset + op.length < 2 ^ 32) :
    op.dataEnd = op.offset + op.length := by
  unfold dataEnd offset length at *
  rw [UInt32.toNat_add, Nat.mod_eq_of_lt h]

end InstallOperation

/-! ## Constants -/

def kChromeOSMajorPayloadVersion : Nat := 1
def kBrilloMajorPayloadVersion : Nat := 2
def kFullPayloadMinorVersion : UInt32 := 0
def kInPlaceMinorPayloadVersion : UInt32 := 1
def kSupportedMinorPayloadVersion : UInt32 := 3

def kLegacyPartitionNameKernel : String := "boot"
def kLegacyPartitionNameRoot : String := "system"

/-- The letters of "CrAU". -/
def kDeltaMagic : Bytes := [0x43, 0x72, 0x41, 0x55]

def kDeltaVersionOffset : Nat := 4
def kDeltaVersionSize : Nat := 8
def kDeltaManifestSizeOffset : Nat := 12
def kDeltaManifestSizeSize : Nat := 8
def kDeltaMetadataSignatureSizeSize : Nat := 4
def kMaxPayloadHeaderSize : Nat := 24

/-! ## Signatures -/

/-- What the checks of signatures rest on, for a fixed public key. -/
structure Verifier where
  /-- SHA-256. -/
  rawHash : Bytes → Bytes
  base64Decode : Bytes → Option Bytes
  /-- The file of the public key exists. -/
  publicKeyExists : Bool
  /-- `GetRawHashFromSignature`. -/
  getRawHashFromSignature : Bytes → Option Bytes
  /-- The data of the signatures of a `Signatures` message. -/
  parseSignatures : Bytes → Option (List Bytes)

/-- The padding of a SHA-256 hash for a 2048 bit RSA signature. -/
def kRSA2048SHA256Padding : Bytes :=
  [0x00, 0x01] ++ List.replicate 202 0xff ++ [0x00] ++
    [0x30, 0x31, 0x30, 0x0d, 0x06, 0x09, 0x60, 0x86, 0x48, 0x01, 0x65, 0x03, 0x04, 0x02, 0x01,
      0x05, 0x00, 0x04, 0x20]

/-- `PadRSA2048SHA256Hash`; `none` when it fails, which leaves the hash as it is. -/
def padRSA2048SHA256Hash (hash : Bytes) : Option Bytes :=
  if hash.length = 32 then some (kRSA2048SHA256Padding ++ hash) else none

/-- `VerifySignature`: one of the signatures is that of the hash. -/
def verifySignature (v : Verifier) (signatureBlob hashData : Bytes) : Bool :=
  match v.parseSignatures signatureBlob with
  | none => false
  | some sigs => sigs.any fun sig => v.getRawHashFromSignature sig == some hashData

end UpdateEngine
