import AlpsSystem.Nvram.Storage

/-!
# The NVRAM manager

`NvramManager` of `nvram/core/nvram_manager.cpp`: the eleven commands behind
`Dispatch`, the lazy `Initialize` every one of them starts with, and the access
checks.  Every command is a program on a `Machine`; a call into the storage layer
or the allocator may fail or crash at any point.

* `writeHeader`, `writeSpace` — the two writes of the manager.
* `createSpace` … `disableWipe` — the commands.
-/

namespace Nvram

/-! ## Build parameters and constants -/

/-- What a build fixes: the numbers `hardware/nvram_defs.h` gives the controls,
whether `NVRAM_WIPE_STORAGE_SUPPORT` is set, and the SHA-256 of the crypto library. -/
structure Build where
  controlPersistentWriteLock : UInt32
  controlBootWriteLock : UInt32
  controlBootReadLock : UInt32
  controlWriteAuthorization : UInt32
  controlReadAuthorization : UInt32
  controlWriteExtend : UInt32
  wipeStorageSupport : Bool
  sha256 : Blob → Blob

/-- Maximum number of spaces. -/
def kMaxSpaces : Nat := 32

/-- Maximum size of a single space's contents. -/
def kMaxSpaceSize : UInt64 := 1024

/-- Maximum authorization blob size. -/
def kMaxAuthSize : Nat := 32

def kSHA256DigestSize : UInt64 := 32

namespace Build

/-- The bit of a control in a control mask; the shift count is taken modulo 32. -/
def bit (control : UInt32) : UInt32 := 1 <<< control

def kSupportedControlsMask (b : Build) : UInt32 :=
  bit b.controlPersistentWriteLock ||| bit b.controlBootWriteLock |||
    bit b.controlBootReadLock ||| bit b.controlWriteAuthorization |||
    bit b.controlReadAuthorization ||| bit b.controlWriteExtend

/-- `crypto::SHA256`: the digest cut or zero-padded to the size of the target. -/
def sha256Into (b : Build) (data : Blob) (digestSize : Nat) : Blob :=
  let buffer := b.sha256 data
  if digestSize < buffer.length then buffer.take digestSize
  else buffer ++ List.replicate (digestSize - buffer.length) 0

end Build

/-- Result codes of the commands. -/
inductive Result where
  | success
  | internalError
  | accessDenied
  | invalidParameter
  | spaceDoesNotExist
  | spaceAlreadyExists
  | operationDisabled
  deriving DecidableEq, Repr

/-! ## Requests and responses -/

structure CreateSpaceRequest where
  index : UInt32
  size : UInt64
  controls : List UInt32
  authorizationValue : Blob
  deriving DecidableEq, Repr

/-- A request that names a space and carries an authorization value. -/
structure SpaceRequest where
  index : UInt32
  authorizationValue : Blob := []
  deriving DecidableEq, Repr

structure WriteSpaceRequest where
  index : UInt32
  buffer : Blob
  authorizationValue : Blob
  deriving DecidableEq, Repr

/-- The request union; `none` stands for a tag that is no command. -/
inductive Request where
  | none
  | getInfo
  | createSpace (r : CreateSpaceRequest)
  | getSpaceInfo (index : UInt32)
  | deleteSpace (r : SpaceRequest)
  | disableCreate
  | writeSpace (r : WriteSpaceRequest)
  | readSpace (r : SpaceRequest)
  | lockSpaceWrite (r : SpaceRequest)
  | lockSpaceRead (r : SpaceRequest)
  | wipeStorage
  | disableWipe
  deriving DecidableEq, Repr

structure GetInfoResponse where
  totalSize : UInt64 := 0
  availableSize : UInt64 := 0
  maxSpaceSize : UInt64 := 0
  maxSpaces : Nat := 0
  spaceList : List UInt32 := []
  wipeDisabled : Bool := false
  deriving DecidableEq, Repr

structure GetSpaceInfoResponse where
  size : Nat := 0
  controls : List UInt32 := []
  readLocked : Bool := false
  writeLocked : Bool := false
  deriving DecidableEq, Repr

/-- The payload of a response; the commands without output have an empty one. -/
inductive ResponsePayload where
  | empty
  | getInfo (r : GetInfoResponse)
  | getSpaceInfo (r : GetSpaceInfoResponse)
  | readSpace (buffer : Blob)
  deriving DecidableEq, Repr

structure Response where
  result : Result
  payload : ResponsePayload := .empty
  deriving DecidableEq, Repr

/-! ## The space list -/

/-- `FindSpace`: the array position of a space, `kMaxSpaces` when there is none. -/
def findSpace (m : NvramManager) (index : UInt32) : Nat :=
  (m.spaces.findIdx? (·.index = index)).getD kMaxSpaces

/-- Append an unlocked entry, as `CreateSpace` and `Initialize` do. -/
def NvramManager.push (m : NvramManager) (index : UInt32) : NvramManager :=
  { m with spaces := m.spaces ++ [{ index := index }] }

/-- `--num_spaces_`. -/
def NvramManager.pop (m : NvramManager) : NvramManager :=
  { m with spaces := m.spaces.dropLast }

/-- Move the last entry over the one at `k` and shorten the list, as `DeleteSpace`
does before it touches storage. -/
def NvramManager.removeAt (m : NvramManager) (k : Nat) : NvramManager :=
  match m.spaces.getLast? with
  | some last => { m with spaces := (m.spaces.set k last).dropLast }
  | none => m

/-- Put an entry back at the end. -/
def NvramManager.readd (m : NvramManager) (e : SpaceListEntry) : NvramManager :=
  { m with spaces := m.spaces ++ [e] }

/-- Change the entry at `k`. -/
def NvramManager.updateAt (m : NvramManager) (k : Nat) (f : SpaceListEntry → SpaceListEntry) :
    NvramManager :=
  { m with spaces := m.spaces.modify k f }

/-! ## Writing the header and the space data -/

/-- The header `WriteHeader` stores. -/
def headerOf (m : NvramManager) (provisionalIndex : Option UInt32) : NvramHeader :=
  let header : NvramHeader :=
    { version := NvramHeader.kVersion
      allocatedIndices := m.indices
      provisionalIndex := provisionalIndex }
  if m.disableCreate then header.setFlag NvramHeader.kFlagDisableCreate else header

def writeHeader (provisionalIndex : Option UInt32) : Prog Result := do
  let m ← manager
  if !(← allocate) then return .internalError
  match ← storeHeader (headerOf m provisionalIndex) with
  | .kSuccess => return .success
  | _ => return .internalError

/-- The private `WriteSpace`. -/
def writeSpaceData (index : UInt32) (space : NvramSpace) : Prog Result := do
  match ← storeSpace index space with
  | .kSuccess => return .success
  | _ => return .internalError

/-! ## Initialization -/

/-- The loop over `allocated_indices`: the entries to add, and whether the
provisional space is still to be deleted. -/
def initLoop (provisionalIndex : Option UInt32) (inStorage : Bool) :
    List UInt32 → NvramManager → Bool → NvramManager × Bool
  | [], m, deleteProvisional => (m, deleteProvisional)
  | index :: rest, m, deleteProvisional =>
    if provisionalIndex = some index then
      -- a created space whose data never arrived is as good as never created
      if !inStorage then initLoop provisionalIndex inStorage rest m deleteProvisional
      else initLoop provisionalIndex inStorage rest (m.push index) false
    else initLoop provisionalIndex inStorage rest (m.push index) deleteProvisional

/-- The loop does not look at the end of the array. -/
def NvramManager.noteOverrun (m : NvramManager) : NvramManager :=
  { m with overrun := m.overrun || kMaxSpaces < m.spaces.length }

/-- Whether the data of the provisional space is there; a load error counts as yes. -/
def provisionalSpaceInStorage : Option UInt32 → Prog Bool
  | none => return false
  | some index => do
    match ← loadSpace index with
    | .kStorageError => return true
    | .kNotFound => return false
    | .kSuccess _ => return true

/-- The end of `Initialize`: take over the flag, and clear the provisional index. -/
def finishInitialize (header : NvramHeader) : Prog Bool := do
  setManager fun m =>
    { m with
      disableCreate := header.hasFlag NvramHeader.kFlagDisableCreate
      initialized := true }
  if header.provisionalIndex.isSome then
    let _ ← writeHeader none
    return true
  return true

/-- `Initialize` from the point where the header is loaded. -/
def initializeFrom (header : NvramHeader) : Prog Bool := do
  if NvramHeader.kVersion < header.version then return false
  let inStorage ← provisionalSpaceInStorage header.provisionalIndex
  if kMaxSpaces < header.allocatedIndices.length then return false
  let m ← manager
  let (m', deleteProvisional) :=
    initLoop header.provisionalIndex inStorage header.allocatedIndices m
      header.provisionalIndex.isSome
  setManager fun _ => m'.noteOverrun
  match header.provisionalIndex, deleteProvisional with
  | some index, true =>
    match ← deleteSpaceData index with
    | .kStorageError => return false
    | .kNotFound => finishInitialize header
    | .kSuccess => finishInitialize header
  | _, _ => finishInitialize header

/-- `Initialize`: nothing to do once it has succeeded. -/
def initializeManager : Prog Bool := do
  let m ← manager
  if m.initialized then return true
  match ← loadHeader with
  | .kStorageError => return false
  | .kNotFound =>
    setManager fun m => { m with initialized := true }
    return true
  | .kSuccess header => initializeFrom header

/-! ## Access checks -/

/-- The comparison of authorization values. -/
def constantTimeEquals (a b : Blob) : Bool :=
  if a.length ≠ b.length then false
  else (List.zipWith (fun x y => x ^^^ y) a b).foldl (fun r x => r ||| x) 0 = 0

/-- `SpaceRecord`: the position and transient entry of a space with its stored state. -/
structure SpaceRecord where
  arrayIndex : Nat
  transient : SpaceListEntry
  persistent : NvramSpace
  deriving DecidableEq, Repr

namespace SpaceRecord

def checkWriteAccess (b : Build) (r : SpaceRecord) (authorizationValue : Blob) : Result :=
  if r.persistent.hasControl b.controlPersistentWriteLock &&
      r.persistent.hasFlag NvramSpace.kFlagWriteLocked then .operationDisabled
  else if !r.persistent.hasControl b.controlPersistentWriteLock &&
      r.persistent.hasControl b.controlBootWriteLock && r.transient.writeLocked then
    .operationDisabled
  else if r.persistent.hasControl b.controlWriteAuthorization &&
      !constantTimeEquals r.persistent.authorizationValue authorizationValue then .accessDenied
  else .success

def checkReadAccess (b : Build) (r : SpaceRecord) (authorizationValue : Blob) : Result :=
  if r.persistent.hasControl b.controlBootReadLock && r.transient.readLocked then
    .operationDisabled
  else if r.persistent.hasControl b.controlReadAuthorization &&
      !constantTimeEquals r.persistent.authorizationValue authorizationValue then .accessDenied
  else .success

end SpaceRecord

def loadSpaceRecord (index : UInt32) : Prog (Except Result SpaceRecord) := do
  let m ← manager
  let arrayIndex := findSpace m index
  if arrayIndex = kMaxSpaces then return .error .spaceDoesNotExist
  match ← loadSpace index with
  | .kStorageError => return .error .internalError
  | .kNotFound => return .error .internalError
  | .kSuccess persistent =>
    match m.spaces[arrayIndex]? with
    | some transient => return .ok { arrayIndex, transient, persistent }
    | none => return .error .internalError

/-! ## The commands -/

def getInfo : Prog Response := do
  if !(← initializeManager) then return { result := .internalError, payload := .getInfo {} }
  let m ← manager
  let response : GetInfoResponse :=
    { totalSize := kMaxSpaceSize * kMaxSpaces.toUInt64
      availableSize := kMaxSpaceSize * (kMaxSpaces.toUInt64 - m.spaces.length.toUInt64)
      maxSpaceSize := kMaxSpaceSize
      maxSpaces := kMaxSpaces }
  if !(← allocate) then return { result := .internalError, payload := .getInfo response }
  let response := { response with spaceList := m.indices, wipeDisabled := m.disableWipe }
  return { result := .success, payload := .getInfo response }

/-- The control mask of a request. -/
def controlMask (controls : List UInt32) : UInt32 :=
  controls.foldl (fun mask control => mask ||| Build.bit control) 0

/-- The parameter checks of `CreateSpace`, after the one for disabled creation. -/
def checkCreate (b : Build) (m : NvramManager) (request : CreateSpaceRequest) : Option Result :=
  let controls := controlMask request.controls
  if findSpace m request.index ≠ kMaxSpaces then some .spaceAlreadyExists
  else if kMaxSpaces < m.spaces.length + 1 then some .invalidParameter
  else if kMaxSpaceSize < request.size then some .invalidParameter
  else if kMaxAuthSize < request.authorizationValue.length then some .invalidParameter
  else if controls &&& ~~~ b.kSupportedControlsMask ≠ 0 then some .invalidParameter
  else if controls &&& Build.bit b.controlPersistentWriteLock ≠ 0 ∧
      controls &&& Build.bit b.controlBootWriteLock ≠ 0 then some .invalidParameter
  else if controls &&& Build.bit b.controlWriteExtend ≠ 0 ∧
      request.size ≠ kSHA256DigestSize then some .invalidParameter
  else none

/-- Whether the new space keeps the authorization value of the request. -/
def wantsAuthorization (b : Build) (controls : UInt32) : Bool :=
  let space : NvramSpace := { controls := controls }
  space.hasControl b.controlWriteAuthorization || space.hasControl b.controlReadAuthorization

/-- The space record `CreateSpace` stores. -/
def newSpace (b : Build) (request : CreateSpaceRequest) : NvramSpace :=
  let controls := controlMask request.controls
  { flags := 0
    controls := controls
    authorizationValue := if wantsAuthorization b controls then request.authorizationValue else []
    contents := List.replicate request.size.toNat 0 }

/-- The two writes of `CreateSpace`: the header first, then the space data. -/
def createSpaceWrites (index : UInt32) (space : NvramSpace) : Prog Result := do
  match ← writeHeader (some index) with
  | .success =>
    match ← writeSpaceData index space with
    | .success => return .success
    | result =>
      setManager NvramManager.pop
      return result
  | result =>
    setManager NvramManager.pop
    return result

def createSpace (b : Build) (request : CreateSpaceRequest) : Prog Result := do
  if !(← initializeManager) then return .internalError
  let m ← manager
  if m.disableCreate then return .operationDisabled
  match checkCreate b m request with
  | some result => return result
  | none =>
    -- mark the index as allocated
    setManager (·.push request.index)
    if !(← allocateIf (wantsAuthorization b (controlMask request.controls))) then
      return .internalError
    if !(← allocate) then return .internalError
    createSpaceWrites request.index (newSpace b request)

/-- `GetControlsVector`, over the controls still to look at. -/
def getControlsVector (space : NvramSpace) : List UInt32 → List UInt32 → Prog (Result × List UInt32)
  | [], controls => return (.success, controls)
  | control :: rest, controls =>
    if space.hasControl control then do
      if !(← allocate) then return (.internalError, controls)
      getControlsVector space rest (controls ++ [control])
    else getControlsVector space rest controls

/-- All control numbers a mask has room for. -/
def allControls : List UInt32 := (List.range 32).map (·.toUInt32)

/-- The lock state a space reports. -/
def spaceInfo (b : Build) (record : SpaceRecord) (controls : List UInt32) : GetSpaceInfoResponse :=
  { size := record.persistent.contents.length
    controls := controls
    readLocked :=
      record.persistent.hasControl b.controlBootReadLock && record.transient.readLocked
    writeLocked :=
      if record.persistent.hasControl b.controlPersistentWriteLock then
        record.persistent.hasFlag NvramSpace.kFlagWriteLocked
      else record.persistent.hasControl b.controlBootWriteLock && record.transient.writeLocked }

def getSpaceInfo (b : Build) (index : UInt32) : Prog Response := do
  if !(← initializeManager) then return { result := .internalError, payload := .getSpaceInfo {} }
  match ← loadSpaceRecord index with
  | .error result => return { result := result, payload := .getSpaceInfo {} }
  | .ok record =>
    let (result, controls) ← getControlsVector record.persistent allControls []
    if result ≠ .success then
      let response : GetSpaceInfoResponse :=
        { size := record.persistent.contents.length, controls := controls }
      return { result := .internalError, payload := .getSpaceInfo response }
    return { result := .success, payload := .getSpaceInfo (spaceInfo b record controls) }

/-- The storage part of `DeleteSpace`, with the entry to put back on failure. -/
def deleteSpaceWrites (index : UInt32) (tmp : SpaceListEntry) : Prog Result := do
  match ← writeHeader (some index) with
  | .success =>
    match ← deleteSpaceData index with
    | .kStorageError =>
      setManager (·.readd tmp)
      return .internalError
    | .kNotFound => return .success
    | .kSuccess => return .success
  | result =>
    setManager (·.readd tmp)
    return result

def deleteSpace (b : Build) (request : SpaceRequest) : Prog Result := do
  if !(← initializeManager) then return .internalError
  match ← loadSpaceRecord request.index with
  | .error result => return result
  | .ok record =>
    match record.checkWriteAccess b request.authorizationValue with
    | .success =>
      setManager (·.removeAt record.arrayIndex)
      deleteSpaceWrites request.index record.transient
    | result => return result

def disableCreate : Prog Result := do
  if !(← initializeManager) then return .internalError
  let previous ← manager
  setManager fun m => { m with disableCreate := true }
  match ← writeHeader none with
  | .success => return .success
  | result =>
    setManager fun m => { m with disableCreate := previous.disableCreate }
    return result

/-- The contents after a write of `buffer`, `none` when the buffer is too large.
A write-extended space hashes the old contents with the new data. -/
def writtenContents (b : Build) (space : NvramSpace) (buffer : Blob) : Option Blob :=
  if space.hasControl b.controlWriteExtend then
    some (b.sha256Into (space.contents ++ buffer) space.contents.length)
  else if space.contents.length < buffer.length then none
  else some (buffer ++ List.replicate (space.contents.length - buffer.length) 0)

def writeSpace (b : Build) (request : WriteSpaceRequest) : Prog Result := do
  if !(← initializeManager) then return .internalError
  match ← loadSpaceRecord request.index with
  | .error result => return result
  | .ok record =>
    match record.checkWriteAccess b request.authorizationValue with
    | .success =>
      if !(← allocateIf (record.persistent.hasControl b.controlWriteExtend)) then
        return .internalError
      match writtenContents b record.persistent request.buffer with
      | none => return .invalidParameter
      | some contents =>
        writeSpaceData request.index { record.persistent with contents := contents }
    | result => return result

def readSpace (b : Build) (request : SpaceRequest) : Prog Response := do
  if !(← initializeManager) then return { result := .internalError, payload := .readSpace [] }
  match ← loadSpaceRecord request.index with
  | .error result => return { result := result, payload := .readSpace [] }
  | .ok record =>
    match record.checkReadAccess b request.authorizationValue with
    | .success =>
      if !(← allocate) then return { result := .internalError, payload := .readSpace [] }
      return { result := .success, payload := .readSpace record.persistent.contents }
    | result => return { result := result, payload := .readSpace [] }

def lockSpaceWrite (b : Build) (request : SpaceRequest) : Prog Result := do
  if !(← initializeManager) then return .internalError
  match ← loadSpaceRecord request.index with
  | .error result => return result
  | .ok record =>
    match record.checkWriteAccess b request.authorizationValue with
    | .success =>
      if record.persistent.hasControl b.controlPersistentWriteLock then
        writeSpaceData request.index (record.persistent.setFlag NvramSpace.kFlagWriteLocked)
      else if record.persistent.hasControl b.controlBootWriteLock then do
        setManager (·.updateAt record.arrayIndex fun e => { e with writeLocked := true })
        return .success
      else return .invalidParameter
    | result => return result

def lockSpaceRead (b : Build) (request : SpaceRequest) : Prog Result := do
  if !(← initializeManager) then return .internalError
  match ← loadSpaceRecord request.index with
  | .error result => return result
  | .ok record =>
    match record.checkReadAccess b request.authorizationValue with
    | .success =>
      if record.persistent.hasControl b.controlBootReadLock then do
        setManager (·.updateAt record.arrayIndex fun e => { e with readLocked := true })
        return .success
      else return .invalidParameter
    | result => return result

/-- The loop of `WipeStorage`: delete the data of the listed spaces in turn. -/
def wipeSpaces : List UInt32 → Prog Result
  | [] => return .success
  | index :: rest => do
    match ← deleteSpaceData index with
    | .kStorageError => return .internalError
    | .kNotFound => wipeSpaces rest
    | .kSuccess => wipeSpaces rest

def wipeStorage (b : Build) : Prog Result := do
  if !(← initializeManager) then return .internalError
  if !b.wipeStorageSupport then return .operationDisabled
  let m ← manager
  if m.disableWipe then return .operationDisabled
  match ← wipeSpaces m.indices with
  | .success =>
    setManager fun m => { m with spaces := [] }
    writeHeader none
  | result => return result

def disableWipe (b : Build) : Prog Result := do
  if !(← initializeManager) then return .internalError
  if !b.wipeStorageSupport then return .operationDisabled
  setManager fun m => { m with disableWipe := true }
  return .success

/-- The response of a command without output. -/
def plain (p : Prog Result) : Prog Response := do
  let result ← p
  return { result := result }

def dispatch (b : Build) : Request → Prog Response
  | .none => return { result := .invalidParameter }
  | .getInfo => getInfo
  | .createSpace r => plain (createSpace b r)
  | .getSpaceInfo index => getSpaceInfo b index
  | .deleteSpace r => plain (deleteSpace b r)
  | .disableCreate => plain disableCreate
  | .writeSpace r => plain (writeSpace b r)
  | .readSpace r => readSpace b r
  | .lockSpaceWrite r => plain (lockSpaceWrite b r)
  | .lockSpaceRead r => plain (lockSpaceRead b r)
  | .wipeStorage => plain (wipeStorage b)
  | .disableWipe => plain (disableWipe b)

/-! ## Runs of the device -/

/-- A device between two commands: the running manager and its storage. -/
structure World where
  mgr : NvramManager := {}
  storage : Storage := {}

/-- What happens to a device: a command under a schedule of outcomes, or a reboot. -/
inductive Event where
  | command (request : Request) (faults : Faults)
  | reboot

/-- Restart: the storage stays, a fresh manager takes over. -/
def World.reboot (w : World) : World := { mgr := {}, storage := w.storage }

/-- Run one command. -/
def World.exec (b : Build) (w : World) (request : Request) (faults : Faults) :
    Option Response × Machine :=
  dispatch b request { mgr := w.mgr, storage := w.storage, faults := faults }

/-- One event.  A command that was cut short by a crash is followed by a restart. -/
def World.step (b : Build) (w : World) : Event → World
  | .reboot => w.reboot
  | .command request faults =>
    match w.exec b request faults with
    | (some _, m) => { mgr := m.mgr, storage := m.storage }
    | (none, m) => { mgr := {}, storage := m.storage }

/-- The device after a list of events, from a blank storage. -/
def run (b : Build) (events : List Event) : World := events.foldl (World.step b) {}

end Nvram
