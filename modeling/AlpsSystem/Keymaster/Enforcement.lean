import AlpsSystem.Lib.BigEndian
import AlpsSystem.Lib.LittleEndian

/-!
# Keymaster enforcement

`keymaster/keymaster_enforcement.cpp`: whether an operation with a key may begin, go on and
finish, by the authorizations of the key.

* `authorizeBegin` — the scan of the authorizations (`scan`) and the records of uses.
-/

namespace Keymaster

/-! ## Authorizations -/

/-- The `KM_TAG_*` that the enforcement tells apart; it has nothing to enforce for the others. -/
inductive Tag where
  | purpose
  | algorithm
  | nonce
  | callerNonce
  | activeDatetime
  | originationExpireDatetime
  | usageExpireDatetime
  | minSecondsBetweenOps
  | maxUsesPerBoot
  | userSecureId
  | noAuthRequired
  | userAuthType
  | authTimeout
  | bootloaderOnly
  | invalid
  | authToken
  | rootOfTrust
  | applicationData
  | attestationChallenge
  | attestationApplicationId
  | attestationIdBrand
  | attestationIdDevice
  | attestationIdProduct
  | attestationIdSerial
  | attestationIdImei
  | attestationIdMeid
  | attestationIdManufacturer
  | attestationIdModel
  | other (code : Nat)
  deriving DecidableEq, Repr

/-- `keymaster_key_param_t`; which of the values counts depends on the tag. -/
structure KeyParam where
  tag : Tag
  /-- `enumerated` or `integer`, 32 bits. -/
  integer : Nat := 0
  /-- `long_integer` or `date_time`, 64 bits. -/
  longInteger : Nat := 0
  blob : List UInt8 := []
  deriving DecidableEq, Repr

/-- The elements of an `AuthorizationSet`. -/
abbrev AuthorizationSet := List KeyParam

namespace AuthorizationSet

/-- `find`, for the first element with the tag. -/
def findTag (set : AuthorizationSet) (tag : Tag) : Option KeyParam :=
  set.find? fun param => param.tag == tag

def containsEnumValue (set : AuthorizationSet) (tag : Tag) (value : Nat) : Bool :=
  set.any fun param => param.tag == tag && param.integer == value

/-- The loops that look for the index of a tag keep the last one. -/
def lastIndex (tag : Tag) : AuthorizationSet → Option Nat
  | [] => none
  | param :: set =>
    match lastIndex tag set with
    | some i => some (i + 1)
    | none => if param.tag = tag then some 0 else none

end AuthorizationSet

open AuthorizationSet (lastIndex)

/-- `keymaster_purpose_t`. -/
inductive Purpose where
  | encrypt
  | decrypt
  | sign
  | verify
  | deriveKey
  deriving DecidableEq, Repr

/-- The value of `KM_PURPOSE_*`. -/
def Purpose.code : Purpose → Nat
  | .encrypt => 0
  | .decrypt => 1
  | .sign => 2
  | .verify => 3
  | .deriveKey => 4

/-- `KM_ALGORITHM_RSA` and `KM_ALGORITHM_EC`. -/
def algorithmRsa : Nat := 1

def algorithmEc : Nat := 3

/-- The `KM_ERROR_*` of the enforcement. -/
inductive Error where
  | ok
  | unsupportedPurpose
  | incompatiblePurpose
  | keyNotYetValid
  | keyExpired
  | keyRateLimitExceeded
  | keyMaxOpsExceeded
  | invalidKeyBlob
  | keyUserNotAuthenticated
  | callerNonceProhibited
  | memoryAllocationFailed
  | tooManyOperations
  deriving DecidableEq, Repr

def isPublicKeyAlgorithm (authSet : AuthorizationSet) : Bool :=
  match authSet.findTag .algorithm with
  | none => false
  | some param => param.integer == algorithmRsa || param.integer == algorithmEc

def authorizedPurpose (purpose : Purpose) (authSet : AuthorizationSet) : Error :=
  match purpose with
  | .deriveKey => .unsupportedPurpose
  | _ => if authSet.containsEnumValue .purpose purpose.code then .ok else .incompatiblePurpose

def isOriginationPurpose (purpose : Purpose) : Bool := purpose == .encrypt || purpose == .sign

def isUsagePurpose (purpose : Purpose) : Bool := purpose == .decrypt || purpose == .verify

/-! ## Tokens of authenticators -/

/-- `hw_auth_token_t`. -/
structure HwAuthToken where
  version : Nat
  challenge : Nat
  userId : Nat
  authenticatorId : Nat
  /-- In host order, after `ntoh`. -/
  authenticatorType : Nat
  timestamp : List UInt8
  hmac : List UInt8
  deriving DecidableEq, Repr

def hwAuthTokenVersion : Nat := 0

/-- `sizeof(hw_auth_token_t)`: the structure is packed. -/
def sizeofHwAuthToken : Nat := 69

/-- `memcpy` into a token. -/
def HwAuthToken.ofBytes (data : List UInt8) : HwAuthToken where
  version := LittleEndian.decode (data.take 1)
  challenge := LittleEndian.decode ((data.drop 1).take 8)
  userId := LittleEndian.decode ((data.drop 9).take 8)
  authenticatorId := LittleEndian.decode ((data.drop 17).take 8)
  authenticatorType := BigEndian.decode ((data.drop 25).take 4)
  timestamp := (data.drop 29).take 8
  hmac := (data.drop 37).take 32

/-- What the subclasses of `KeymasterEnforcement` answer during a call. -/
structure Context where
  activationDateValid : Nat → Bool
  expirationDatePassed : Nat → Bool
  authTokenTimedOut : HwAuthToken → Nat → Bool
  validateTokenSignature : HwAuthToken → Bool
  /-- `get_current_time` when the authorization at a position is checked. -/
  checkTime : Nat → Nat
  /-- `get_current_time` when the use of the key is recorded. -/
  updateTime : Nat

/-- `AuthTokenMatches`; `none` is the index -1. -/
def authTokenMatches (ctx : Context) (authSet operationParams : AuthorizationSet)
    (userSecureId : Nat) (authTypeIndex authTimeoutIndex : Option Nat) (opHandle : Nat)
    (isBeginOperation : Bool) : Bool :=
  match operationParams.findTag .authToken with
  | none => false
  | some param =>
    if param.blob.length ≠ sizeofHwAuthToken then false
    else
      let authToken := HwAuthToken.ofBytes param.blob
      if authToken.version ≠ hwAuthTokenVersion then false
      else if !ctx.validateTokenSignature authToken then false
      else if authTimeoutIndex = none ∧ opHandle ≠ 0 ∧ opHandle ≠ authToken.challenge then false
      else if userSecureId ≠ authToken.userId ∧ userSecureId ≠ authToken.authenticatorId then false
      else
        match authTypeIndex.bind fun i => authSet[i]? with
        | none => false
        | some authType =>
          if authType.tag ≠ .userAuthType then false
          else if authType.integer &&& authToken.authenticatorType = 0 then false
          else if isBeginOperation then
            match authTimeoutIndex with
            | none => true
            | some i =>
              match authSet[i]? with
              | none => false
              | some timeout =>
                timeout.tag == .authTimeout && !ctx.authTokenTimedOut authToken timeout.integer
          else true

/-! ## The records of uses -/

def uint32Max : Nat := 2 ^ 32 - 1

structure AccessTime where
  keyid : Nat
  accessTime : Nat
  timeout : Nat
  deriving DecidableEq, Repr

structure AccessTimeMap where
  maxSize : Nat
  lastAccessList : List AccessTime := []
  deriving DecidableEq, Repr

def AccessTimeMap.lastKeyAccessTime (m : AccessTimeMap) (keyid : Nat) : Option Nat :=
  (m.lastAccessList.find? fun entry => entry.keyid == keyid).map AccessTime.accessTime

/-- The loop of `UpdateKeyAccessTime`: the entry of the key is updated, and the entries before
it that have expired are dropped. -/
def updateAccessList (keyid currentTime : Nat) : List AccessTime → Bool × List AccessTime
  | [] => (false, [])
  | entry :: rest =>
    if entry.keyid = keyid then (true, { entry with accessTime := currentTime } :: rest)
    else
      let result := updateAccessList keyid currentTime rest
      if (currentTime + 2 ^ 32 - entry.accessTime) % 2 ^ 32 ≥ entry.timeout then result
      else (result.1, entry :: result.2)

def AccessTimeMap.updateKeyAccessTime (m : AccessTimeMap) (keyid currentTime timeout : Nat) :
    Bool × AccessTimeMap :=
  match updateAccessList keyid currentTime m.lastAccessList with
  | (true, list) => (true, { m with lastAccessList := list })
  | (false, list) =>
    if list.length ≥ m.maxSize then (false, { m with lastAccessList := list })
    else (true, { m with lastAccessList := ⟨keyid, currentTime, timeout⟩ :: list })

structure AccessCount where
  keyid : Nat
  accessCount : Nat
  deriving DecidableEq, Repr

structure AccessCountMap where
  maxSize : Nat
  accessCountList : List AccessCount := []
  deriving DecidableEq, Repr

/-- `KeyAccessCount`: the low 32 bits of the count. -/
def AccessCountMap.keyAccessCount (m : AccessCountMap) (keyid : Nat) : Option Nat :=
  (m.accessCountList.find? fun entry => entry.keyid == keyid).map fun entry =>
    entry.accessCount % 2 ^ 32

/-- The loop of `IncrementKeyAccessCount`; `none` if the key has no entry. -/
def incrementAccessList (keyid : Nat) : List AccessCount → Option (List AccessCount)
  | [] => none
  | entry :: rest =>
    if entry.keyid = keyid then
      some ({ entry with accessCount :=
        if entry.accessCount < 2 ^ 64 - 1 then entry.accessCount + 1 else
            entry.accessCount } :: rest)
    else (incrementAccessList keyid rest).map (entry :: ·)

def AccessCountMap.incrementKeyAccessCount (m : AccessCountMap) (keyid : Nat) :
    Bool × AccessCountMap :=
  match incrementAccessList keyid m.accessCountList with
  | some list => (true, { m with accessCountList := list })
  | none =>
    if m.accessCountList.length ≥ m.maxSize then (false, m)
    else (true, { m with accessCountList := ⟨keyid, 1⟩ :: m.accessCountList })

/-- `KeymasterEnforcement`; a map is `none` if it could not be allocated. -/
structure Enforcement where
  accessTimeMap : Option AccessTimeMap
  accessCountMap : Option AccessCountMap
  deriving DecidableEq, Repr

namespace Enforcement

def minTimeBetweenOpsPassed (e : Enforcement) (currentTime minTimeBetween keyid : Nat) : Bool :=
  match e.accessTimeMap with
  | none => false
  | some m =>
    match m.lastKeyAccessTime keyid with
    | none => true
    | some lastAccessTime => decide ((minTimeBetween : Int) ≤ (currentTime : Int) - lastAccessTime)

def maxUsesPerBootNotExceeded (e : Enforcement) (keyid maxUses : Nat) : Bool :=
  match e.accessCountMap with
  | none => false
  | some m =>
    match m.keyAccessCount keyid with
    | none => true
    | some keyAccessCount => decide (keyAccessCount < maxUses)

/-! ## Decisions -/

/-- The local variables of the loop of `AuthorizeBegin`. -/
structure Scan where
  minOpsTimeout : Nat := uint32Max
  updateAccessCount : Bool := false
  callerNonceAuthorizedByKey : Bool := false
  authenticationRequired : Bool := false
  authTokenMatched : Bool := false
  deriving DecidableEq, Repr

/-- The body of the loop of `AuthorizeBegin`. -/
def scanParam (e : Enforcement) (ctx : Context) (purpose : Purpose) (keyid : Nat)
    (authSet operationParams : AuthorizationSet) (acc : Scan) (pos : Nat) (param : KeyParam) :
    Except Error Scan :=
  match param.tag with
  | .activeDatetime =>
    if ctx.activationDateValid param.longInteger then .ok acc else .error .keyNotYetValid
  | .originationExpireDatetime =>
    if isOriginationPurpose purpose && ctx.expirationDatePassed param.longInteger then
      .error .keyExpired
    else .ok acc
  | .usageExpireDatetime =>
    if isUsagePurpose purpose && ctx.expirationDatePassed param.longInteger then
      .error .keyExpired
    else .ok acc
  | .minSecondsBetweenOps =>
    if e.minTimeBetweenOpsPassed (ctx.checkTime pos) param.integer keyid then
      .ok { acc with minOpsTimeout := param.integer }
    else .error .keyRateLimitExceeded
  | .maxUsesPerBoot =>
    if e.maxUsesPerBootNotExceeded keyid param.integer then
      .ok { acc with updateAccessCount := true }
    else .error .keyMaxOpsExceeded
  | .userSecureId =>
    -- the key must not have `KM_TAG_NO_AUTH_REQUIRED` as well
    if (lastIndex .noAuthRequired authSet).isSome then .error .invalidKeyBlob
    else if (lastIndex .authTimeout authSet).isSome then
      .ok { acc with
        authenticationRequired := true
        authTokenMatched := acc.authTokenMatched ||
          authTokenMatches ctx authSet operationParams param.longInteger
            (lastIndex .userAuthType authSet) (lastIndex .authTimeout authSet) 0 true }
    else .ok acc
  | .callerNonce => .ok { acc with callerNonceAuthorizedByKey := true }
  -- tags that should never be in key authorizations
  | .invalid | .authToken | .rootOfTrust | .applicationData | .attestationChallenge
  | .attestationApplicationId | .attestationIdBrand | .attestationIdDevice | .attestationIdProduct
  | .attestationIdSerial | .attestationIdImei | .attestationIdMeid | .attestationIdManufacturer
  | .attestationIdModel | .bootloaderOnly => .error .invalidKeyBlob
  | _ => .ok acc

/-- The loop of `AuthorizeBegin` from a position on. -/
def scan (e : Enforcement) (ctx : Context) (purpose : Purpose) (keyid : Nat)
    (authSet operationParams : AuthorizationSet) :
    (pos : Nat) → List KeyParam → Scan → Except Error Scan
  | _, [], acc => .ok acc
  | pos, param :: rest, acc =>
    match scanParam e ctx purpose keyid authSet operationParams acc pos param with
    | .error error => .error error
    | .ok acc => scan e ctx purpose keyid authSet operationParams (pos + 1) rest acc

/-- The use of a rate-limited key is recorded. -/
def recordTime (e : Enforcement) (keyid currentTime minOpsTimeout : Nat) : Error × Enforcement :=
  if minOpsTimeout ≠ uint32Max then
    match e.accessTimeMap with
    | none => (.memoryAllocationFailed, e)
    | some m =>
      match m.updateKeyAccessTime keyid currentTime minOpsTimeout with
      | (true, m) => (.ok, { e with accessTimeMap := some m })
      | (false, m) => (.tooManyOperations, { e with accessTimeMap := some m })
  else (.ok, e)

/-- The use of a key with a limited number of uses is recorded. -/
def recordCount (e : Enforcement) (keyid : Nat) (updateAccessCount : Bool) : Error × Enforcement :=
  if updateAccessCount then
    match e.accessCountMap with
    | none => (.memoryAllocationFailed, e)
    | some m =>
      match m.incrementKeyAccessCount keyid with
      | (true, m) => (.ok, { e with accessCountMap := some m })
      | (false, m) => (.tooManyOperations, { e with accessCountMap := some m })
  else (.ok, e)

def authorizeBegin (e : Enforcement) (ctx : Context) (purpose : Purpose) (keyid : Nat)
    (authSet operationParams : AuthorizationSet) : Error × Enforcement :=
  match authorizedPurpose purpose authSet with
  | .ok =>
    match e.scan ctx purpose keyid authSet operationParams 0 authSet {} with
    | .error error => (error, e)
    | .ok acc =>
      if acc.authenticationRequired && !acc.authTokenMatched then (.keyUserNotAuthenticated, e)
      else if !acc.callerNonceAuthorizedByKey && isOriginationPurpose purpose &&
          (operationParams.findTag .nonce).isSome then
        (.callerNonceProhibited, e)
      else
        match e.recordTime keyid ctx.updateTime acc.minOpsTimeout with
        | (.ok, e) => e.recordCount keyid acc.updateAccessCount
        | (error, e) => (error, e)
  | error => (error, e)

def authorizeUpdateOrFinish (ctx : Context) (authSet operationParams : AuthorizationSet)
    (opHandle : Nat) : Error :=
  if authSet.any fun param => param.tag == .noAuthRequired || param.tag == .authTimeout then .ok
  else
    let authTypeIndex := lastIndex .userAuthType authSet
    if authSet.any fun param => param.tag == .userSecureId &&
        authTokenMatches ctx authSet operationParams param.longInteger authTypeIndex none opHandle
          false then
      .ok
    else if authTypeIndex.isSome || (authSet.findTag .userSecureId).isSome then
      .keyUserNotAuthenticated
    else .ok

/-- Public key operations are always authorized. -/
def isPublicKeyOperation (purpose : Purpose) (authSet : AuthorizationSet) : Bool :=
  isPublicKeyAlgorithm authSet && (purpose == .encrypt || purpose == .verify)

def authorizeOperation (e : Enforcement) (ctx : Context) (purpose : Purpose) (keyid : Nat)
    (authSet operationParams : AuthorizationSet) (opHandle : Nat) (isBeginOperation : Bool) :
    Error × Enforcement :=
  if isPublicKeyOperation purpose authSet then (.ok, e)
  else if isBeginOperation then e.authorizeBegin ctx purpose keyid authSet operationParams
  else (authorizeUpdateOrFinish ctx authSet operationParams opHandle, e)

end Enforcement

end Keymaster
