import AlpsSystem.Chre.Nanoapp
import AlpsSystem.Lib.Runs

/-!
# The GNSS request manager

The manager of `chre/core/gnss_request_manager.cc` in the event loop: nanoapps start and
stop location sessions, which share one session of the platform.  Memory can be allocated
and events can be posted throughout.

* `handleLocationSessionStatusChangeSync`, `serveQueue` — the answer of the platform, and
  the loop over the requests that have waited for it.
* `State.step` — every order of these.
-/

namespace Chre.Gnss

/-- `CHRE_ERROR_NONE` and `CHRE_ERROR`. -/
def errorNone : Nat := 0

def errorGeneric : Nat := 1

/-- `CHRE_EVENT_GNSS_LOCATION`. -/
def eventGnssLocation : Nat := 0x0301

def kMaxGnssStateTransitions : Nat := 8

def uint64Max : Nat := 2 ^ 64 - 1

/-- The largest `size_t`. -/
def sizeMax : Nat := 2 ^ 32 - 1

/-- `LocationSessionRequest`; intervals are in milliseconds. -/
structure LocationSessionRequest where
  nanoappInstanceId : Nat
  minInterval : Nat
  deriving DecidableEq, Repr

/-- `LocationSessionStateTransition`. -/
structure Transition where
  nanoappInstanceId : Nat
  cookie : Nat
  enable : Bool
  minInterval : Nat
  deriving DecidableEq, Repr

/-- The request types of a `chreAsyncResult`. -/
inductive RequestType where
  | locationSessionStart
  | locationSessionStop
  deriving DecidableEq, Repr

/-- A `chreAsyncResult` event and the nanoapp it is posted to. -/
structure AsyncResult where
  target : Nat
  requestType : RequestType
  success : Bool
  errorCode : Nat
  cookie : Nat
  deriving DecidableEq, Repr

/-- The manager, the nanoapps and the platform. -/
structure State where
  nanoapps : List Nanoapp
  /-- `mLocationSessionStateTransitions`. -/
  transitions : List Transition := []
  /-- `mLocationSessionRequests`. -/
  requests : List LocationSessionRequest := []
  /-- `mCurrentLocationSessionInterval`. -/
  currentInterval : Nat := uint64Max
  /-- `FATAL_ERROR` was reached. -/
  fatal : Bool := false
  /-- The result events, in the order of posting. -/
  posted : List AsyncResult := []
  /-- The platform has accepted a control request and has not answered. -/
  outstanding : Bool := false
  deriving DecidableEq, Repr

namespace State

def findNanoappByInstanceId (s : State) (instanceId : Nat) : Option Nanoapp :=
  lookupAppByInstanceId s.nanoapps instanceId

/-- `nanoappHasLocationSessionRequest`, with the index. -/
def requestIndex (s : State) (instanceId : Nat) : Option Nat :=
  s.requests.findIdx? fun r => r.nanoappInstanceId == instanceId

def locationSessionIsEnabled (s : State) : Bool := !s.requests.isEmpty

def locationSessionIsInRequestedState (s : State) (requestedState : Bool) (minInterval : Nat)
    (nanoappHasRequest : Bool) : Bool :=
  let inTargetState := requestedState == s.locationSessionIsEnabled
  let meetsMinInterval := decide (minInterval ≥ s.currentInterval)
  let hasMoreThanOneRequest := decide (s.requests.length > 1)
  (inTargetState && (!requestedState || meetsMinInterval)) ||
    (!requestedState && (!nanoappHasRequest || hasMoreThanOneRequest))

/-- The part of `locationSessionStateTransitionIsRequired` about the nanoapp's own request:
`requestToDecreaseRate`. -/
def requestToDecreaseRate (s : State) (minInterval : Nat) (requestIndex : Option Nat) : Bool :=
  match requestIndex with
  | none => false
  | some i =>
    match s.requests[i]? with
    | none => false
    | some currentRequest =>
      let requestCount := (s.requests.eraseIdx i).countP fun request =>
        request.minInterval == currentRequest.minInterval
      decide (minInterval > s.currentInterval) &&
        currentRequest.minInterval == s.currentInterval && requestCount == 0

def locationSessionStateTransitionIsRequired (s : State) (requestedState : Bool)
    (minInterval : Nat) (requestIndex : Option Nat) : Bool :=
  let requestToEnable := requestedState && !s.locationSessionIsEnabled
  let requestToIncreaseRate := requestedState && s.locationSessionIsEnabled &&
    decide (minInterval < s.currentInterval)
  let requestToDisable := !requestedState && requestIndex.isSome && s.requests.length == 1
  requestToEnable || requestToDisable || requestToIncreaseRate ||
    s.requestToDecreaseRate minInterval requestIndex

/-- `addLocationSessionRequestToQueue`, `none` if the queue is full. -/
def addLocationSessionRequestToQueue (s : State) (instanceId : Nat) (enable : Bool)
    (minInterval cookie : Nat) : Option State :=
  if s.transitions.length < kMaxGnssStateTransitions then
    some { s with transitions := s.transitions ++
      [{ nanoappInstanceId := instanceId, cookie := cookie, enable := enable
         minInterval := minInterval }] }
  else none

def updateLocationSessionRequests (s : State) (enable : Bool) (minInterval instanceId : Nat) :
    Bool × State :=
  match s.findNanoappByInstanceId instanceId with
  | none => (true, s)
  | some nanoapp =>
    match enable, s.requestIndex instanceId with
    | true, some i => (true, { s with
        requests := s.requests.modify i fun r => { r with minInterval := minInterval } })
    | true, none =>
      match nanoapp.registerForBroadcastEvent eventGnssLocation with
      | (false, _) => (false, s)
      | (true, _) => (true, { s with
          nanoapps := updateApp s.nanoapps instanceId fun app =>
            (app.registerForBroadcastEvent eventGnssLocation).2
          requests := s.requests ++
            [{ nanoappInstanceId := instanceId, minInterval := minInterval }] })
    | false, none => (false, s)
    | false, some i => (true, { s with
        nanoapps := updateApp s.nanoapps instanceId fun app =>
          (app.unregisterForBroadcastEvent eventGnssLocation).2
        requests := s.requests.eraseIdx i })

def post (s : State) (result : AsyncResult) : State := { s with posted := s.posted ++ [result] }

def postLocationSessionAsyncResultEvent (s : State) (instanceId : Nat) (success enable : Bool)
    (minInterval errorCode cookie : Nat) : Bool × State :=
  let result : AsyncResult :=
    { target := instanceId
      requestType := if enable then .locationSessionStart else .locationSessionStop
      success := success, errorCode := errorCode, cookie := cookie }
  if success then
    match s.updateLocationSessionRequests enable minInterval instanceId with
    | (false, s) => (false, s)
    | (true, s) => (true, s.post result)
  else (true, s.post result)

/-- `postLocationSessionAsyncResultEventFatal`; `none` is `FATAL_ERROR`. -/
def postFatal (s : State) (t : Transition) (success : Bool) (errorCode : Nat) : Option State :=
  match s.postLocationSessionAsyncResultEvent t.nanoappInstanceId success t.enable t.minInterval
    errorCode t.cookie with
  | (false, _) => none
  | (true, s) => some s

/-- `ArrayQueue::remove`. -/
def removeTransition (s : State) (index : Nat) : State :=
  if index < s.transitions.length then { s with transitions := s.transitions.eraseIdx index } else s

/-- `mLocationSessionRequests.size() - 1`, in `size_t`. -/
def lastRequestIndex (s : State) : Nat :=
  if s.requests.length = 0 then sizeMax else s.requests.length - 1

/-- `configureLocationSession`; `accepts` is the answer of
`mPlatformGnss.controlLocationSession`, if it is called. -/
def configureLocationSession (s : State) (instanceId : Nat) (enable : Bool)
    (minInterval cookie : Nat) (accepts : Bool) : Bool × State :=
  let requestIndex := s.requestIndex instanceId
  if !s.transitions.isEmpty then
    match s.addLocationSessionRequestToQueue instanceId enable minInterval cookie with
    | some s => (true, s)
    | none => (false, s)
  else if s.locationSessionIsInRequestedState enable minInterval requestIndex.isSome then
    s.postLocationSessionAsyncResultEvent instanceId true enable minInterval errorNone cookie
  else if s.locationSessionStateTransitionIsRequired enable minInterval requestIndex then
    match s.addLocationSessionRequestToQueue instanceId enable minInterval cookie with
    | some s =>
      if accepts then (true, { s with outstanding := true })
      else (false, s.removeTransition s.lastRequestIndex)
    | none => (false, s)
  else (false, s)

/-- `startLocationSession`; the time to the next fix is not used. -/
def startLocationSession (s : State) (instanceId minInterval _minTimeToNextFix cookie : Nat)
    (accepts : Bool) : Bool × State :=
  s.configureLocationSession instanceId true minInterval cookie accepts

def stopLocationSession (s : State) (instanceId cookie : Nat) (accepts : Bool) : Bool × State :=
  s.configureLocationSession instanceId false uint64Max cookie accepts

/-- The loop of `handleLocationSessionStatusChangeSync` over the requests in the queue;
`answers` are those of `mPlatformGnss.controlLocationSession`, in the order of the calls.
`none` is `FATAL_ERROR`. -/
def serveQueue (errorCode : Nat) : List Transition → (answers : List Bool) → State → Option State
  | [], _, s => some { s with transitions := [] }
  | t :: rest, answers, s =>
    if s.locationSessionStateTransitionIsRequired t.enable t.minInterval
        (s.requestIndex t.nanoappInstanceId) then
      if answers.headD false then some { s with transitions := t :: rest, outstanding := true }
      else (s.postFatal t false errorGeneric).bind (serveQueue errorCode rest answers.tail)
    else (s.postFatal t true errorCode).bind (serveQueue errorCode rest answers)

def handleLocationSessionStatusChangeSync (s : State) (enabled : Bool) (errorCode : Nat)
    (answers : List Bool) : Option State :=
  let success := errorCode == errorNone
  match s.transitions with
  | [] => some s
  | t :: rest =>
    let s := if success then { s with currentInterval := t.minInterval } else s
    (s.postFatal t (success && t.enable == enabled) errorCode).bind
      (serveQueue errorCode rest answers)

end State

/-- What happens in the event loop.  A nanoapp that is not loaded makes no calls, and the
platform answers once for every control request it has accepted. -/
inductive Event where
  | start (instanceId minInterval minTimeToNextFix cookie : Nat) (accepts : Bool)
  | stop (instanceId cookie : Nat) (accepts : Bool)
  | statusChange (enabled : Bool) (errorCode : Nat) (answers : List Bool)
  deriving DecidableEq, Repr

namespace State

/-- The call that a nanoapp makes, with its result. -/
def call (s : State) : Event → Option (Bool × State)
  | .start instanceId minInterval minTimeToNextFix cookie accepts =>
    if (s.findNanoappByInstanceId instanceId).isSome then
      some (s.startLocationSession instanceId minInterval minTimeToNextFix cookie accepts)
    else none
  | .stop instanceId cookie accepts =>
    if (s.findNanoappByInstanceId instanceId).isSome then
      some (s.stopLocationSession instanceId cookie accepts)
    else none
  | .statusChange .. => none

/-- The answer of the platform. -/
def answer (s : State) (enabled : Bool) (errorCode : Nat) (answers : List Bool) : State :=
  if s.outstanding then
    (handleLocationSessionStatusChangeSync { s with outstanding := false } enabled errorCode
      answers).getD { s with fatal := true }
  else s

def step (s : State) (event : Event) : State :=
  if s.fatal then s
  else
    match event with
    | .statusChange enabled errorCode answers => s.answer enabled errorCode answers
    | event => (s.call event).elim s fun result => result.2

end State

end Chre.Gnss
